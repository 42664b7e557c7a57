import Voltha.Chameleon.GwGen
import Voltha.Lib.Exec

/-!
# 型の名前から Python の名前へ

表を引くのは文字列の前方一致だが、表が逆順なので、当たるのは **一番長い** 名前である。一段目の型の名前が
package の名前にならないかぎり、それは型を定義する一段目の名前そのものになる。

表の名前は `package + '.' + name` なので、package の無い file では `.` から始まる。完全な名前は `.` から
始まらないので、そこにある型は見つからない。
-/

namespace Voltha.Chameleon

open PyString

/-! ## 名前 -/

/-- 表に載せる名前。 -/
def symbol (file : FileDescriptor) (name : String) : String := file.packageName ++ "." ++ name

/-- 入れ子の部分。 -/
def nestedSuffix (nested : List String) : String := nested.foldr (fun x s => "." ++ x ++ s) ""

/-- 一段目の型の完全な名前。 -/
def topName (file : FileDescriptor) (name : String) : String :=
  if file.packageName = "" then name else symbol file name

/-- package の名前。親も入れる。 -/
def IsPackage (file : FileDescriptor) (p : String) : Prop :=
  file.packageName = p ∨ (p ++ ".").toList <+: file.packageName.toList

instance (file : FileDescriptor) (p : String) : Decidable (IsPackage file p) :=
  inferInstanceAs (Decidable (_ ∨ _))

/-- protoc が受け入れた file の並び。 -/
structure Accepted (files : List FileDescriptor) : Prop where
  nodup : (files.flatMap fun f => f.allDefs.map (topName f)).Nodup
  separate : ∀ f ∈ files, ∀ name ∈ f.allDefs, ∀ g ∈ files, ¬IsPackage g (topName f name)
  names : ∀ f ∈ files, ∀ name ∈ f.allDefs, name ≠ "" ∧ '.' ∉ name.toList
  packages : ∀ f ∈ files, f.packageName.toList.head? ≠ some '.'

/-- Python の名前。 -/
def pythonName (file : FileDescriptor) (name : String) (nested : List String) : String :=
  (IncludeManager.pythonModule file.name).2 ++ "." ++ name ++ nestedSuffix nested

/-! ## 呼び出しの列 -/

namespace IncludeManager

/-- `n` は、どれかの file の型の名前である。表の名前でもよい。 -/
def Declared (files : List FileDescriptor) (n : String) : Prop :=
  ∃ f ∈ files, ∃ t ∈ f.allDefs, ∃ nested,
    n = topName f t ++ nestedSuffix nested ∨ n = symbol f t ++ nestedSuffix nested

/-- 例外にならずに着く。`files` は済ませた file の並び。 -/
inductive Reached : List FileDescriptor → IncludeManager → Prop where
  | initial : Reached [] initial
  | extend {files : List FileDescriptor} {s : IncludeManager} (h : Reached files s)
    (file : FileDescriptor) : Reached (files ++ [file]) (s.extendSymbolTables file)
  | need {files : List FileDescriptor} {s s' : IncludeManager} (h : Reached files s) {n : String}
    (hn : Declared files n) (hs : s.addNeededSymbol n = .ok s') : Reached files s'

end IncludeManager

/-! ## 文字の列として -/

variable {files : List FileDescriptor} {f g : FileDescriptor} {t u : String} {nested : List String}

theorem toList_symbol (f : FileDescriptor) (t : String) :
    (symbol f t).toList = f.packageName.toList ++ '.' :: t.toList := by
  simp [symbol]

/-- 入れ子の部分は、空か、`.` から始まる。 -/
theorem nestedSuffix_cases (nested : List String) :
    (nestedSuffix nested).toList = [] ∨ ∃ s, (nestedSuffix nested).toList = '.' :: s := by
  cases nested with
  | nil => exact .inl rfl
  | cons x nested => exact .inr ⟨_, by simp [nestedSuffix]; rfl⟩

theorem symbol_injective (ht : '.' ∉ t.toList) (hu : '.' ∉ u.toList)
    (h : symbol f t = symbol g u) : f.packageName = g.packageName ∧ t = u := by
  have hlist := congrArg String.toList h
  rw [toList_symbol, toList_symbol] at hlist
  obtain ⟨hp, hn⟩ := split_unique ht hu hlist
  exact ⟨String.toList_injective hp, String.toList_injective hn⟩

/-! ## 一番長い名前 -/

theorem Accepted.file_eq (h : Accepted files) (hf : f ∈ files) (hg : g ∈ files)
    (ht : t ∈ f.allDefs) (hu : u ∈ g.allDefs) (heq : symbol f t = symbol g u) : f = g ∧ t = u := by
  obtain ⟨hp, rfl⟩ := symbol_injective (h.names f hf t ht).2 (h.names g hg u hu).2 heq
  have hname : topName f t = topName g t := by simp only [topName, symbol, hp]
  refine ⟨?_, rfl⟩
  exact Py.eq_of_mem_names h.nodup hf hg (List.mem_map_of_mem ht) (hname ▸ List.mem_map_of_mem hu)

theorem Accepted.perm {files' : List FileDescriptor} (h : Accepted files)
    (hp : files.Perm files') : Accepted files' where
  nodup := (hp.flatMap_right _).nodup_iff.mp h.nodup
  separate f hf t ht g hg := h.separate f (hp.mem_iff.mpr hf) t ht g (hp.mem_iff.mpr hg)
  names f hf := h.names f (hp.mem_iff.mpr hf)
  packages f hf := h.packages f (hp.mem_iff.mpr hf)

theorem Accepted.left {files' : List FileDescriptor} (h : Accepted (files ++ files')) :
    Accepted files where
  nodup := by
    have hnodup := h.nodup
    rw [List.flatMap_append] at hnodup
    exact (List.nodup_append.mp hnodup).1
  separate f hf t ht g hg :=
    h.separate f (List.mem_append_left _ hf) t ht g (List.mem_append_left _ hg)
  names f hf := h.names f (List.mem_append_left _ hf)
  packages f hf := h.packages f (List.mem_append_left _ hf)

/-- 表の名前が、完全な名前の続きまで伸びることはない。 -/
theorem Accepted.prefix_symbol (h : Accepted files) (hf : f ∈ files) (hg : g ∈ files)
    (ht : t ∈ f.allDefs) (hu : u ∈ g.allDefs)
    (hp : (symbol g u).toList <+: (symbol f t ++ nestedSuffix nested).toList) :
    (symbol g u).toList <+: (symbol f t).toList := by
  rw [String.toList_append] at hp
  rcases List.prefix_or_prefix_of_prefix hp (List.prefix_append _ _) with hle | ⟨w, hw⟩
  · exact hle
  · cases w with
    | nil => simp [← hw]
    | cons c w =>
      -- 続きは `.` から始まるので、`symbol f t` は `g` の package の名前か、その親である
      have hc : c = '.' := by
        rw [← hw, List.prefix_append_right_inj] at hp
        rcases nestedSuffix_cases nested with hnil | ⟨s, hs⟩
        · simp [hnil] at hp
        · rw [hs, List.cons_prefix_cons] at hp
          exact hp.1
      rw [hc, toList_symbol g] at hw
      have hpackage : g.packageName.toList = (symbol f t).toList ∨
          (symbol f t).toList ++ ['.'] <+: g.packageName.toList :=
        (split_last (h.names g hg u hu).2 hw).imp_left And.left
      by_cases hempty : f.packageName = ""
      · have hdot : (symbol f t).toList.head? = some '.' := by simp [toList_symbol, hempty]
        refine absurd ?_ (h.packages g hg)
        rcases hpackage with he | ⟨r, hr⟩
        · rw [he, hdot]
        · simp [← hr, hdot]
      · have htop : topName f t = symbol f t := if_neg hempty
        refine absurd ?_ (h.separate f hf t ht g hg)
        rw [htop]
        exact hpackage.imp String.toList_injective fun hr => by simpa using hr

/-- package の無い file の完全な名前には、表の名前は一つも前に付かない。 -/
theorem Accepted.not_prefix (h : Accepted files) (hf : f ∈ files) (hg : g ∈ files)
    (ht : t ∈ f.allDefs) (hempty : f.packageName = "") (u : String) (nested : List String) :
    ¬(symbol g u).toList <+: (t ++ nestedSuffix nested).toList := by
  intro hp
  obtain ⟨hne, hdot⟩ := h.names f hf t ht
  have htop : topName f t = t := if_pos hempty
  have hsep := h.separate f hf t ht g hg
  rw [htop] at hsep
  rw [toList_symbol, String.toList_append, ← List.singleton_append, ← List.append_assoc] at hp
  have hpackage : g.packageName.toList <+: t.toList ++ (nestedSuffix nested).toList :=
    (List.prefix_append _ _).trans ((List.prefix_append _ _).trans hp)
  rcases List.prefix_or_prefix_of_prefix hpackage (List.prefix_append _ _) with ⟨w, hw⟩ | ⟨w, hw⟩
  · cases w with
    | nil => exact hsep (.inl (String.toList_injective (by simpa using hw)))
    | cons c w =>
      -- package が `t` の中で終わるので、次の `.` も `t` の中にある
      rw [← hw, List.append_assoc, List.append_assoc, List.prefix_append_right_inj,
        List.singleton_append, List.cons_append, List.cons_prefix_cons] at hp
      rw [← hw, ← hp.1] at hdot
      simp at hdot
  · cases w with
    | nil => exact hsep (.inl (String.toList_injective (by simpa using hw.symm)))
    | cons c w =>
      -- package が `t` の後まで伸びるので、`t` は package の親である
      have hc : c = '.' := by
        rw [← hw, List.prefix_append_right_inj] at hpackage
        rcases nestedSuffix_cases nested with hnil | ⟨s, hs⟩
        · simp [hnil] at hpackage
        · rw [hs, List.cons_prefix_cons] at hpackage
          exact hpackage.1
      exact hsep (.inr ⟨w, by simp [← hw, hc]⟩)

/-! ## 表 -/

namespace IncludeManager

/-- 済ませた file から作った表。`cached` は、引いた名前が正しいこと。 -/
structure Inv (files : List FileDescriptor) (s : IncludeManager) : Prop where
  keys : ∀ k, k ∈ s.fullnameToFilename.map Prod.fst ↔
    ∃ f ∈ files, ∃ t ∈ f.allDefs, symbol f t = k
  values : ∀ k v, s.fullnameToFilename.lookup k = some v →
    ∃ f ∈ files, ∃ t ∈ f.allDefs, symbol f t = k ∧ f.name = v
  table : s.prefixTable = (s.fullnameToFilename.map Prod.fst).insertionSort fun a b => b ≤ a
  modules : ∀ f ∈ files, s.filenameToModule.lookup f.name = some (pythonModule f.name)
  known : ∀ k v, s.filenameToModule.lookup k = some v → v = pythonModule k
  cached : ∀ n v, s.typeMap.lookup n = some v → ∃ f ∈ files, ∃ t ∈ f.allDefs, ∃ nested,
    symbol f t ++ nestedSuffix nested = n ∧ v = pythonName f t nested ∧
      f.name ∈ s.includesNeeded

variable {s s' : IncludeManager} {k v : String}

theorem inv_initial : Inv [] initial where
  keys := by simp [initial]
  values := by simp [initial]
  table := rfl
  modules := by simp
  known := by simp [initial]
  cached := by simp [initial]

/-- 一つの file の名前を足した表。 -/
theorem mem_keys_extend (f : FileDescriptor) (d : List (String × String)) (names : List String) :
    k ∈ (names.foldl (fun d t => OrderedDict.set d (f.packageName ++ "." ++ t) f.name) d).map
      Prod.fst ↔ k ∈ d.map Prod.fst ∨ ∃ t ∈ names, symbol f t = k := by
  induction names generalizing d with
  | nil => simp
  | cons t names ih =>
    rw [List.foldl_cons, ih, OrderedDict.mem_keys_set, List.exists_mem_cons_iff, ← or_assoc,
      or_comm (a := k = _), eq_comm (a := k)]
    rfl

theorem lookup_extend (f : FileDescriptor) (d : List (String × String)) (names : List String)
    (h : (names.foldl (fun d t => OrderedDict.set d (f.packageName ++ "." ++ t) f.name) d).lookup k
      = some v) : d.lookup k = some v ∨ ∃ t ∈ names, symbol f t = k ∧ f.name = v := by
  induction names generalizing d with
  | nil => exact .inl h
  | cons t names ih =>
    rcases ih _ h with h | ⟨u, hu, hk⟩
    · rw [OrderedDict.lookup_set] at h
      split at h
      · next hk => exact .inr ⟨t, by simp, hk.symm, Option.some.inj h⟩
      · exact .inl h
    · exact .inr ⟨u, List.mem_cons_of_mem _ hu, hk⟩

theorem addFilename_fields (s : IncludeManager) (filename : String) :
    (s.addFilename filename).fullnameToFilename = s.fullnameToFilename ∧
      (s.addFilename filename).typeMap = s.typeMap ∧
      (s.addFilename filename).includesNeeded = s.includesNeeded := by
  unfold addFilename
  split <;> exact ⟨rfl, rfl, rfl⟩

theorem lookup_addFilename (hknown : ∀ k v, s.filenameToModule.lookup k = some v →
    v = pythonModule k) (filename k : String) :
    (s.addFilename filename).filenameToModule.lookup k
      = if k = filename then some (pythonModule filename) else s.filenameToModule.lookup k := by
  unfold addFilename
  split
  · next hmem =>
    split
    · next hk =>
      obtain ⟨v, hv⟩ := Option.isSome_iff_exists.mp (OrderedDict.lookup_isSome.mpr hmem)
      rw [hk, hv, hknown _ _ hv]
    · rfl
  · exact OrderedDict.lookup_set

theorem Inv.extend (h : Inv files s) (file : FileDescriptor) :
    Inv (files ++ [file]) (s.extendSymbolTables file) := by
  obtain ⟨hfullname, htype, hincludes⟩ := addFilename_fields s file.name
  constructor
  · intro k
    refine (mem_keys_extend file _ file.allDefs).trans ?_
    rw [hfullname, h.keys]
    simp only [List.mem_append, List.mem_singleton, or_and_right, exists_or, exists_eq_left]
  · intro k v hv
    rcases lookup_extend file _ file.allDefs hv with hv | ⟨t, ht, hk⟩
    · rw [hfullname] at hv
      obtain ⟨f, hf, hdef⟩ := h.values k v hv
      exact ⟨f, List.mem_append_left _ hf, hdef⟩
    · exact ⟨file, by simp, t, ht, hk⟩
  · rfl
  · intro f hf
    refine (lookup_addFilename h.known file.name f.name).trans ?_
    split
    · next hname => rw [hname]
    · next hname =>
      rcases List.mem_append.mp hf with hf | hf
      · exact h.modules f hf
      · exact absurd (by rw [List.mem_singleton.mp hf]) hname
  · intro k v hv
    have hv := (lookup_addFilename h.known file.name k).symm.trans hv
    split at hv
    · next hk => rw [hk, Option.some.inj hv]
    · exact h.known k v hv
  · intro n v hv
    have hv : s.typeMap.lookup n = some v := htype ▸ hv
    obtain ⟨f, hf, t, ht, nested, hn, hvalue, hneeded⟩ := h.cached n v hv
    refine ⟨f, List.mem_append_left _ hf, t, ht, nested, hn, hvalue, ?_⟩
    show f.name ∈ (s.addFilename file.name).includesNeeded
    rw [hincludes]
    exact hneeded

/-! ## 名前を引く -/

section Find

variable {files : List FileDescriptor} {f : FileDescriptor} {t : String} {nested : List String}

theorem Inv.mem_prefixTable (h : Inv files s) :
    k ∈ s.prefixTable ↔ ∃ f ∈ files, ∃ t ∈ f.allDefs, symbol f t = k := by
  rw [h.table, (List.perm_insertionSort _ _).mem_iff, h.keys]

/-- 表から見つかるのは、型を定義する一段目の名前である。 -/
theorem Inv.findMatchingPrefix_eq (h : Inv files s) (ha : Accepted files) (hf : f ∈ files)
    (ht : t ∈ f.allDefs) (nested : List String) :
    s.findMatchingPrefix (symbol f t ++ nestedSuffix nested) = .ok (symbol f t) := by
  have hsorted : s.prefixTable.Pairwise fun a b => b ≤ a := by
    rw [h.table]
    exact List.pairwise_insertionSort (fun a b : String => b ≤ a) _
  have hfind : (s.prefixTable.find? fun p =>
      p.toList.isPrefixOf (symbol f t ++ nestedSuffix nested).toList) = some (symbol f t) := by
    refine find?_sorted hsorted (h.mem_prefixTable.mpr ⟨f, hf, t, ht, rfl⟩) ?_ ?_
    · simp
    · intro b hb hp
      obtain ⟨g, hg, u, hu, rfl⟩ := h.mem_prefixTable.mp hb
      exact le_of_prefix (ha.prefix_symbol hf hg ht hu (List.isPrefixOf_iff_prefix.mp hp))
  unfold findMatchingPrefix
  rw [hfind]

/-- package の無い file の完全な名前は、見つからない。 -/
theorem Inv.findMatchingPrefix_error (h : Inv files s) (ha : Accepted files) (hf : f ∈ files)
    (ht : t ∈ f.allDefs) (hempty : f.packageName = "") (nested : List String) :
    s.findMatchingPrefix (t ++ nestedSuffix nested)
      = .error (.noMatch (t ++ nestedSuffix nested)) := by
  have hfind : (s.prefixTable.find? fun p =>
      p.toList.isPrefixOf (t ++ nestedSuffix nested).toList) = none := by
    refine List.find?_eq_none.mpr ?_
    intro p hp hprefix
    obtain ⟨g, hg, u, -, rfl⟩ := h.mem_prefixTable.mp hp
    exact ha.not_prefix hf hg ht hempty u nested (List.isPrefixOf_iff_prefix.mp hprefix)
  unfold findMatchingPrefix
  rw [hfind]

/-- 引いた後の表。 -/
structure Resolved (s s' : IncludeManager) (f : FileDescriptor) (n python : String) : Prop where
  python : s'.typeMap.lookup n = some python
  includes : ∀ g, g ∈ s'.includesNeeded ↔ g ∈ s.includesNeeded ∨ g = f.name

/-- 二通りに読める名前は、同じ型を指す。 -/
theorem Inv.symbol_eq (h : Inv files s) (ha : Accepted files) (hf : f ∈ files)
    (ht : t ∈ f.allDefs) {g : FileDescriptor} {u : String} {nested' : List String}
    (hg : g ∈ files) (hu : u ∈ g.allDefs)
    (heq : symbol g u ++ nestedSuffix nested' = symbol f t ++ nestedSuffix nested) :
    g = f ∧ pythonName g u nested' = pythonName f t nested := by
  have hfind := h.findMatchingPrefix_eq ha hg hu nested'
  rw [heq, h.findMatchingPrefix_eq ha hf ht nested] at hfind
  obtain ⟨rfl, rfl⟩ := ha.file_eq hg hf hu ht (Except.ok.inj hfind).symm
  have hsuffix : nestedSuffix nested' = nestedSuffix nested := by
    have hlist := congrArg String.toList heq
    rw [String.toList_append, String.toList_append, List.append_cancel_left_eq] at hlist
    exact String.toList_injective hlist
  exact ⟨rfl, by rw [pythonName, pythonName, hsuffix]⟩

/-- 表にある一段目の名前の、file の名前。 -/
theorem Inv.lookup_symbol (h : Inv files s) (ha : Accepted files) (hf : f ∈ files)
    (ht : t ∈ f.allDefs) : s.fullnameToFilename.lookup (symbol f t) = some f.name := by
  have hmem := (h.keys (symbol f t)).mpr ⟨f, hf, t, ht, rfl⟩
  obtain ⟨v, hv⟩ := Option.isSome_iff_exists.mp (OrderedDict.lookup_isSome.mpr hmem)
  obtain ⟨g, hg, u, hu, heq, rfl⟩ := h.values _ _ hv
  rw [hv, (ha.file_eq hg hf hu ht heq).1]

theorem name_symbol (h : '.' ∉ t.toList) : (rpartition (symbol f t) '.').2 = t := by
  have hsymbol : symbol f t = .ofList (f.packageName.toList ++ '.' :: t.toList) := by
    rw [← toList_symbol, String.ofList_toList]
  rw [hsymbol, rpartition_append h]
  exact String.ofList_toList

theorem drop_symbol (nested : List String) :
    String.ofList ((symbol f t ++ nestedSuffix nested).toList.drop (symbol f t).length)
      = nestedSuffix nested := by
  rw [String.toList_append, ← String.length_toList, List.drop_left, String.ofList_toList]

/-- 初めて引く名前。 -/
theorem Inv.addNeededSymbol_new (h : Inv files s) (ha : Accepted files) (hf : f ∈ files)
    (ht : t ∈ f.allDefs)
    (hnew : symbol f t ++ nestedSuffix nested ∉ s.typeMap.map Prod.fst) :
    s.addNeededSymbol (symbol f t ++ nestedSuffix nested) = .ok { s with
      includesNeeded := s.includesNeeded.insert f.name
      typeMap := OrderedDict.set s.typeMap (symbol f t ++ nestedSuffix nested)
        (pythonName f t nested) } := by
  unfold addNeededSymbol
  rw [if_neg hnew, h.findMatchingPrefix_eq ha hf ht nested]
  simp only [bind, Except.bind, h.lookup_symbol ha hf ht, Option.elim_some, h.modules f hf,
    name_symbol (ha.names f hf t ht).2, drop_symbol]
  rfl

/-- 表の名前から始まる名前は、引ける。 -/
theorem Inv.addNeededSymbol_ok (h : Inv files s) (ha : Accepted files) (hf : f ∈ files)
    (ht : t ∈ f.allDefs) (nested : List String) : ∃ s',
      s.addNeededSymbol (symbol f t ++ nestedSuffix nested) = .ok s' ∧ Inv files s' ∧
      Resolved s s' f (symbol f t ++ nestedSuffix nested) (pythonName f t nested) := by
  by_cases hcached : symbol f t ++ nestedSuffix nested ∈ s.typeMap.map Prod.fst
  · obtain ⟨v, hv⟩ := Option.isSome_iff_exists.mp (OrderedDict.lookup_isSome.mpr hcached)
    obtain ⟨g, hg, u, hu, nested', heq, rfl, hneeded⟩ := h.cached _ _ hv
    obtain ⟨rfl, hpython⟩ := h.symbol_eq ha hf ht hg hu heq
    refine ⟨s, if_pos hcached, h, hpython ▸ hv, fun x => ⟨.inl, ?_⟩⟩
    rintro (hx | rfl)
    · exact hx
    · exact hneeded
  · have hmem : ∀ g, g ∈ s.includesNeeded.insert f.name ↔ g ∈ s.includesNeeded ∨ g = f.name := by
      intro g
      rw [List.mem_insert_iff, or_comm]
    refine ⟨_, h.addNeededSymbol_new ha hf ht hcached, ?_, ?_, hmem⟩
    · refine ⟨h.keys, h.values, h.table, h.modules, h.known, ?_⟩
      intro n v hv
      rw [OrderedDict.lookup_set] at hv
      split at hv
      · next hn =>
        exact ⟨f, hf, t, ht, nested, hn.symm, (Option.some.inj hv).symm, (hmem _).mpr (.inr rfl)⟩
      · obtain ⟨g, hg, u, hu, nested', heq, hvalue, hneeded⟩ := h.cached n v hv
        exact ⟨g, hg, u, hu, nested', heq, hvalue, (hmem _).mpr (.inl hneeded)⟩
    · show (OrderedDict.set s.typeMap _ _).lookup _ = _
      rw [OrderedDict.lookup_set, if_pos rfl]

/-- package の無い file の完全な名前は、引けない。 -/
theorem Inv.addNeededSymbol_error (h : Inv files s) (ha : Accepted files) (hf : f ∈ files)
    (ht : t ∈ f.allDefs) (hempty : f.packageName = "") (nested : List String) :
    s.addNeededSymbol (t ++ nestedSuffix nested)
      = .error (.noMatch (t ++ nestedSuffix nested)) := by
  have hnew : t ++ nestedSuffix nested ∉ s.typeMap.map Prod.fst := by
    intro hcached
    obtain ⟨v, hv⟩ := Option.isSome_iff_exists.mp (OrderedDict.lookup_isSome.mpr hcached)
    obtain ⟨g, hg, u, -, nested', heq, -, -⟩ := h.cached _ _ hv
    refine ha.not_prefix hf hg ht hempty u nested ?_
    rw [← heq, String.toList_append]
    exact List.prefix_append _ _
  unfold addNeededSymbol
  rw [if_neg hnew, h.findMatchingPrefix_error ha hf ht hempty nested]
  rfl

end Find

theorem Reached.inv {files : List FileDescriptor} (hr : Reached files s) (ha : Accepted files) :
    Inv files s := by
  induction hr with
  | initial => exact inv_initial
  | extend h file ih => exact (ih ha.left).extend file
  | @need files s s' h n hn hs ih =>
    have hinv := ih ha
    obtain ⟨file, hf, name, hname, nested, hn⟩ := hn
    by_cases hsymbol : n = symbol file name ++ nestedSuffix nested
    · obtain ⟨s₂, hs₂, hinv₂, -⟩ := hinv.addNeededSymbol_ok ha hf hname nested
      rw [hsymbol, hs₂] at hs
      exact Except.ok.inj hs ▸ hinv₂
    · -- package の無い file の完全な名前は例外になるので、ここには来ない
      have hn : n = topName file name ++ nestedSuffix nested := hn.resolve_right hsymbol
      have hempty : file.packageName = "" := by
        by_contra hne
        exact hsymbol (hn.trans (by rw [topName, if_neg hne]))
      rw [hn, topName, if_pos hempty, hinv.addNeededSymbol_error ha hf hname hempty] at hs
      cases hs

end IncludeManager

open IncludeManager

/-- 正しい名前に決まり、その file だけが新しく要る。どの順で file を済ませても、同じ名前になる。 -/
def NamedRight (files : List FileDescriptor) (s : IncludeManager) (f : FileDescriptor) (t : String)
    (nested : List String) : Prop :=
  ∃ s', s.addNeededSymbol (topName f t ++ nestedSuffix nested) = .ok s' ∧
    Resolved s s' f (topName f t ++ nestedSuffix nested) (pythonName f t nested) ∧
    ∀ files' s₂, files'.Perm files → Reached files' s₂ →
      ∃ s₂', s₂.addNeededSymbol (topName f t ++ nestedSuffix nested) = .ok s₂' ∧
        s₂'.typeMap.lookup (topName f t ++ nestedSuffix nested)
          = s'.typeMap.lookup (topName f t ++ nestedSuffix nested)

/-- 完全な名前が正しく引けるのは、定義する file に package があるときに限る。 -/
theorem needed_symbol_iff {files : List FileDescriptor} {s : IncludeManager}
    (hr : Reached files s) (ha : Accepted files) {f : FileDescriptor} (hf : f ∈ files) {t : String}
    (ht : t ∈ f.allDefs) (nested : List String) :
    NamedRight files s f t nested ↔ f.packageName ≠ "" := by
  have hinv := hr.inv ha
  constructor
  · rintro ⟨s', hs, -⟩ hempty
    rw [topName, if_pos hempty, hinv.addNeededSymbol_error ha hf ht hempty] at hs
    cases hs
  · intro hne
    have htop : topName f t = symbol f t := if_neg hne
    obtain ⟨s', hs, -, hresolved⟩ := hinv.addNeededSymbol_ok ha hf ht nested
    unfold NamedRight
    rw [htop]
    refine ⟨s', hs, hresolved, ?_⟩
    intro files' s₂ hperm hr₂
    have ha₂ := ha.perm hperm.symm
    obtain ⟨s₂', hs₂, -, hresolved₂⟩ :=
      (hr₂.inv ha₂).addNeededSymbol_ok ha₂ (hperm.mem_iff.mpr hf) ht nested
    exact ⟨s₂', hs₂, hresolved₂.python.trans hresolved.python.symm⟩

/-- 一つの名前が、もう一つの名前の前に付く file。 -/
def overlapping (package : Option String) : FileDescriptor where
  name := "sub/overlap.proto"
  package := package
  messageType := [.mk "Foo" [] [] [] false none,
    .mk "FooBar" [] [.mk "Inner" [] [] [] false none] [] false none]
  enumType := []
  service := []

theorem accepted_overlapping : Accepted [overlapping (some "test")] := by
  constructor <;> decide +kernel

theorem accepted_overlapping_plain : Accepted [overlapping none] := by
  constructor <;> decide +kernel

theorem needed_symbol_iff_overlapping :
    NamedRight [overlapping (some "test")]
      (IncludeManager.initial.extendSymbolTables (overlapping (some "test")))
      (overlapping (some "test")) "FooBar" ["Inner"] ∧
    pythonName (overlapping (some "test")) "FooBar" ["Inner"] = "overlap_pb2.FooBar.Inner" := by
  refine ⟨?_, by decide +kernel⟩
  exact (needed_symbol_iff (.extend .initial _) accepted_overlapping (by simp) (by decide)
    ["Inner"]).mpr (by decide)

/-- package の無い file では、一段目の型も見つからない。 -/
theorem plain_symbol_not_found : Accepted [overlapping none] ∧
    Reached [overlapping none] (IncludeManager.initial.extendSymbolTables (overlapping none)) ∧
    ¬NamedRight [overlapping none] (IncludeManager.initial.extendSymbolTables (overlapping none))
      (overlapping none) "Foo" [] := by
  refine ⟨accepted_overlapping_plain, .extend .initial _, ?_⟩
  rintro ⟨s', hs, -⟩
  have herror : (IncludeManager.initial.extendSymbolTables (overlapping none)).addNeededSymbol "Foo"
      = .error (.noMatch "Foo") := by decide +kernel
  have hname : topName (overlapping none) "Foo" ++ nestedSuffix [] = "Foo" := by decide +kernel
  rw [hname, herror] at hs
  cases hs

/-! ## `generate_code` -/

/-- `done` の後の file の method は、そこまでの file の型を使う。 -/
def InOrder : List FileDescriptor → List FileDescriptor → Prop
  | _, [] => True
  | done, file :: files =>
    (∀ service ∈ file.service, ∀ method ∈ service.method,
      Declared (done ++ [file]) (stripDot method.inputType) ∧
        Declared (done ++ [file]) (stripDot method.outputType)) ∧
      InOrder (done ++ [file]) files

section Generate

open Fallible

variable {files done : List FileDescriptor} {s s' : IncludeManager} {file : FileDescriptor}

theorem methodSymbols_declared {service : Service} {method : Method} {symbols : List String}
    (hservice : service ∈ file.service) (hfile : file ∈ files)
    (htypes : Declared files (stripDot method.inputType) ∧
      Declared files (stripDot method.outputType))
    (h : methodSymbols file service method = .ok symbols) : ∀ n ∈ symbols, Declared files n := by
  unfold methodSymbols at h
  split at h
  · split at h
    · cases h
      have hname : service.name ∈ file.allDefs :=
        List.mem_append_right _ (List.mem_map_of_mem hservice)
      have hsymbol : Declared files (file.packageName ++ "." ++ service.name) :=
        ⟨file, hfile, service.name, hname, [], .inr (by simp [symbol, nestedSuffix])⟩
      simp [htypes.1, htypes.2, hsymbol]
    · cases h
  · cases h
    simp

/-- 一つの file を済ませるのは、呼び出しの列である。 -/
theorem processFile_reached (h : Reached done s)
    (htypes : ∀ service ∈ file.service, ∀ method ∈ service.method,
      Declared (done ++ [file]) (stripDot method.inputType) ∧
        Declared (done ++ [file]) (stripDot method.outputType))
    (hs : processFile s file = .ok s') : Reached (done ++ [file]) s' := by
  refine Ensures.foldlM file.service ?_ (h.extend file) s' hs
  intro s hs service hservice
  refine Ensures.foldlM service.method ?_ hs
  intro s hs method hmethod
  refine Ensures.bind fun symbols hsymbols => ?_
  have hdeclared := methodSymbols_declared hservice (by simp)
    (htypes service hservice method hmethod) hsymbols
  exact Ensures.foldlM symbols (fun s hs n hn s' hs' => hs.need (hdeclared n hn) hs') hs

/-- 作られる `type_map` の名前は、どれも正しい。 -/
theorem generateGateways_types {out : List (List (String × String) × List (String × String))}
    (h : Reached done s) (ha : Accepted (done ++ files)) (ho : InOrder done files)
    (hout : generateGateways s files = .ok out) :
    ∀ r ∈ out, ∀ n v, r.1.lookup n = some v → ∃ f ∈ done ++ files, ∃ t ∈ f.allDefs, ∃ nested,
      symbol f t ++ nestedSuffix nested = n ∧ v = pythonName f t nested := by
  induction files generalizing done s out with
  | nil =>
    cases hout
    simp
  | cons file files ih =>
    obtain ⟨htypes, ho⟩ := ho
    obtain ⟨s', hs', hout⟩ := Py.bind_eq_ok.mp hout
    obtain ⟨includes, -, hout⟩ := Py.bind_eq_ok.mp hout
    obtain ⟨rest, hrest, hout⟩ := Py.bind_eq_ok.mp hout
    cases hout
    have hr := processFile_reached h htypes hs'
    rw [List.append_cons] at ha ⊢
    intro r hr' n v hv
    rcases List.mem_cons.mp hr' with rfl | hr'
    · obtain ⟨f, hf, t, ht, nested, hn, hvalue, -⟩ := (hr.inv ha.left).cached n v hv
      exact ⟨f, List.mem_append_left _ hf, t, ht, nested, hn, hvalue⟩
    · exact ih hr ha ho hrest r hr' n v hv

end Generate

end Voltha.Chameleon
