import Voltha.Config.Load
import Voltha.Config.Properties.Persist

/-!
# 読み込みは、書き込みの逆である

`load_latest` は、message のどの部分の項目もある kv store から、その message を中身とする版を組み立てる。
型の入れ子には限りがあるので、帰納法は再帰の上限について回す。

読み込んでいる間の版は捨てるための辞書に書かれ、branch の `_txid` は `None` でないので
`root` の項目も書かれない。したがって、読んでいる kv store は最後まで変わらない（`Loads`）。
-/

namespace Voltha.Config

open Exec

variable {S : Schema} {parse : String → Data → Data} {s s' : State} {n : NodeId} {kv : Store}

/-! ## 読み込みの間に保たれること -/

/-- 読み込みの間の変化。 -/
structure Loads (s s' : State) : Prop where
  loading : s'.loading = s.loading
  kv : s.loading = true → s'.kv = s.kv
  noProxy : NoProxy s → NoProxy s'

instance : Std.Refl Loads := ⟨fun _ => ⟨rfl, fun _ => rfl, id⟩⟩

instance : IsTrans State Loads where
  trans _ _ _ h₁ h₂ :=
    ⟨h₂.loading.trans h₁.loading,
      fun h => (h₂.kv (h₁.loading.trans h)).trans (h₁.kv h), h₂.noProxy ∘ h₁.noProxy⟩

theorem newNode_loads (type : String) (slot : Option Slot) : Keeps Loads (newNode type slot) :=
  fun s => ⟨rfl, fun _ => rfl, newNode_noProxy type slot s⟩

/-- 読み込み中に作る版は、捨てるための辞書に書かれる。 -/
theorem mkrev_loads (n : NodeId) (tag : BranchTag) (config : Data)
    (children : List (String × List Rev)) : Keeps Loads (mkrev n tag config children) := by
  intro s
  refine ⟨(mkrev_keeps (K := fun _ => True) n tag config children s).loading, fun h => ?_,
    (Keeps.read.bind fun _ => newRev_noProxy n tag _ config children) s⟩
  show (State.finalizeRev _ _).kv = s.kv
  have hstore : s.storeRef ≠ .real := by
    unfold State.storeRef
    rw [h]
    cases s.kv <;> simp
  unfold State.finalizeRev
  split
  · next he => exact absurd he hstore
  · rfl

/-- `_txid` が真偽値の branch では、`root` の項目は書かれない。 -/
theorem makeLatest_loads {b : Branch} {p : Bool} (hb : b.tag = .flag p) (n : NodeId) (r : Rev) :
    Keeps Loads (makeLatest n none b r []) := by
  intro s
  refine ⟨(makeLatest_keeps n none b r [] s).loading, fun _ => ?_, makeLatest_noProxy n none b r [] s⟩
  simp only [makeLatest, modify_apply, persistRoot, announce, hb, reduceCtorEq, false_and, and_false,
    if_false]
  rfl

theorem tmpClsLoader_loads (f : ChildField) : Keeps Loads (tmpClsLoader f) :=
  (Keeps.require _ _).bind fun _ => Keeps.pure _

theorem loadConfig_loads (kv : Store) (ty : String) (hash : Data) :
    Keeps Loads (loadConfig parse kv ty hash) := by
  refine (Keeps.ofOption _ _).bind fun blob => ?_
  split
  · exact Keeps.pure _
  · exact Keeps.raise _

section

variable {rec : NodeId → Hash → Op Unit} (hrec : ∀ n hash, Keeps Loads (rec n hash))

include hrec

theorem loadChild_loads (n : NodeId) (f : ChildField) (childCls : String) (hash : Hash) :
    Keeps Loads (loadChild rec n f childCls hash) :=
  (newNode_loads _ _).bind fun c => (hrec c hash).bind fun _ => Keeps.read.bind fun _ =>
    Keeps.ofOption _ _

theorem loadFields_loads (childrenList : List (String × List Hash)) (n : NodeId) :
    ∀ fs : List ChildField, Keeps Loads (loadFields rec childrenList n fs)
  | [] => by rw [loadFields]; exact Keeps.pure _
  | f :: fs => by
    rw [loadFields]
    exact (tmpClsLoader_loads f).bind fun _ => (Keeps.ofOption _ _).bind fun _ =>
      (Keeps.mapList (loadChild_loads hrec n f _) _).bind fun _ =>
        (loadFields_loads childrenList n fs).bind fun _ => Keeps.pure _

theorem loadRev_loads (kv : Store) (n : NodeId) (tag : BranchTag) (ty : String) (hash : Hash) :
    Keeps Loads (loadRev S parse rec kv n tag ty hash) := by
  refine (Keeps.ofOption _ _).bind fun blob => ?_
  split
  · exact (loadConfig_loads kv ty _).bind fun _ => (loadFields_loads hrec _ n _).bind fun _ =>
      mkrev_loads n tag _ _
  · exact Keeps.raise _
  · exact Keeps.raise _

end

theorem loadLatest_loads : ∀ (limit : Nat) (n : NodeId) (hash : Hash),
    Keeps Loads (loadLatest S parse limit n hash)
  | 0, _, _ => by rw [loadLatest]; exact Keeps.raise _
  | limit + 1, n, hash => by
    rw [loadLatest]
    exact Keeps.read.bind fun s => (Keeps.ofOption _ _).bind fun kv =>
      (loadRev_loads (loadLatest_loads limit) kv n _ _ hash).bind fun rev =>
        makeLatest_loads rfl n rev

/-! ## 読み込んだ版の中身 -/

/-- kv store `kv` から読み込んでいる途中の状態。 -/
def Reading (kv : Store) (s : State) : Prop := s.loading = true ∧ s.kv = some kv

theorem Loads.reading (h : Loads s s') (hs : Reading kv s) : Reading kv s' :=
  ⟨h.loading.trans hs.1, (h.kv hs.1).trans hs.2⟩

/-- schema の class はどれも見つかり、型の入れ子は `rank` で測れる。 -/
structure Loadable (S : Schema) (parse : String → Data → Data) (rank : String → Nat) : Prop where
  module : ∀ ty, ∀ f ∈ S.fields ty, protoModule f.type ∈ loaderModules
  rank : ∀ ty, ∀ f ∈ S.fields ty, rank f.type < rank ty
  parse : ∀ d : Data, parse d.type d = d

theorem loadConfig_spec {m : Msg} (hparse : ∀ d : Data, parse d.type d = d) (h : kv.Has m)
    {s : State} : loadConfig parse kv m.label.type m.label s = (.ok m.label, s) := by
  unfold loadConfig
  rw [h.2]
  exact congrArg (fun d => (Except.ok d, s)) (hparse m.label)

section

variable {rec : NodeId → Hash → Op Unit} {P : Msg → Prop}

/-- `rec` は、`P` を満たす message の hash から、その message を中身とする最新の版を読む。 -/
def Restores (kv : Store) (P : Msg → Prop) (rec : NodeId → Hash → Op Unit) : Prop :=
  ∀ (m : Msg) (n : NodeId) (s : State), P m → Reading kv s → (s.node n).type = m.label.type →
    wp (rec n (Rev.digest m))
      (fun _ s' => Reading kv s' ∧ ∃ r, s'.latest? n = some r ∧ Rev.content r = m)
      (fun _ _ => False) s

theorem Restores.child (h : Restores kv P rec) {m : Msg} (hm : P m) (hs : Reading kv s)
    (f : ChildField) :
    wp (loadChild rec n f m.label.type (Rev.digest m))
      (fun r s' => Reading kv s' ∧ Rev.content r = m) (fun _ _ => False) s := by
  unfold loadChild
  rw [wp_bind]
  show wp (rec s.nextNode (Rev.digest m) >>= _) _ _ (newNode m.label.type _ s).2
  rw [wp_bind]
  refine wp_mono (h m s.nextNode _ hm ((newNode_loads _ _ s).reading hs) ?_) ?_ fun _ _ h => h
  · simp [newNode, State.setNode]
  · rintro - s₁ ⟨hs₁, r, hr, hcont⟩
    rw [wp_bind, wp_read, hr]
    exact ⟨hs₁, hcont⟩

theorem Restores.children (h : Restores kv P rec) (f : ChildField) :
    ∀ (ms : List Msg) (s : State), (∀ m ∈ ms, P m ∧ m.label.type = f.type) → Reading kv s →
    wp (Exec.mapList (loadChild rec n f f.type) (ms.map Rev.digest))
      (fun l s' => Reading kv s' ∧ l.map Rev.content = ms) (fun _ _ => False) s
  | [], s, _, hs => ⟨hs, rfl⟩
  | m :: ms, s, hms, hs => by
    obtain ⟨hm, hty⟩ := hms m List.mem_cons_self
    rw [List.map_cons, Exec.mapList, wp_bind, ← hty]
    refine wp_mono (h.child hm hs f) ?_ fun _ _ h => h
    rintro r s₁ ⟨hs₁, hcont⟩
    rw [wp_bind, hty]
    refine wp_mono (h.children f ms s₁ (fun m hm => hms m (List.mem_cons_of_mem _ hm)) hs₁) ?_
      fun _ _ h => h
    rintro l s₂ ⟨hs₂, hl⟩
    exact ⟨hs₂, by rw [List.map_cons, hcont, hl]⟩

/-- 子の field を順に読むと、field ごとの子が揃う。 -/
theorem Restores.fields (h : Restores kv P rec) {childrenList : List (String × List Hash)}
    {lists : ChildField → List Msg} : ∀ (fs : List ChildField) (s : State),
    (∀ f ∈ fs, protoModule f.type ∈ loaderModules ∧
      childrenList.lookup f.name = some ((lists f).map Rev.digest) ∧
      ∀ m ∈ lists f, P m ∧ m.label.type = f.type) → Reading kv s →
    wp (loadFields rec childrenList n fs)
      (fun l s' => Reading kv s' ∧
        (l.map fun p => (p.1, p.2.map Rev.content)) = fs.map fun f => (f.name, lists f))
      (fun _ _ => False) s
  | [], s, _, hs => by
    rw [loadFields, wp_pure]
    exact ⟨hs, rfl⟩
  | f :: fs, s, hfs, hs => by
    obtain ⟨hmod, hlookup, hms⟩ := hfs f List.mem_cons_self
    have hcls : tmpClsLoader f s = (.ok f.type, s) := by
      unfold tmpClsLoader
      rw [bind_ok (require_pos hmod s)]
      rfl
    rw [loadFields]
    refine wp_of_eq (bind_ok hcls) ?_
    rw [hlookup, ofOption_some, wp_bind, wp_pure, wp_bind]
    refine wp_mono (h.children f (lists f) s hms hs) ?_ fun _ _ h => h
    rintro l s₁ ⟨hs₁, hl⟩
    rw [wp_bind]
    refine wp_mono (h.fields fs s₁ (fun f hf => hfs f (List.mem_cons_of_mem _ hf)) hs₁) ?_
      fun _ _ h => h
    rintro rest s₂ ⟨hs₂, hrest⟩
    rw [wp_pure, List.map_cons, List.map_cons, hl, hrest]
    exact ⟨hs₂, rfl⟩

/-- 版を読む。 -/
theorem Restores.rev (h : Restores kv P rec)
    (hmod : ∀ ty, ∀ f ∈ S.fields ty, protoModule f.type ∈ loaderModules)
    (hparse : ∀ d : Data, parse d.type d = d) {m : Msg} (hm : LocalShape S.fields m)
    (hhas : kv.Has m) (hP : ∀ f l, (f, l) ∈ m.children → ∀ c ∈ l, P c) (hs : Reading kv s)
    (tag : BranchTag) :
    wp (loadRev S parse rec kv n tag m.label.type (Rev.digest m))
      (fun r s' => Reading kv s' ∧ Rev.content r = m) (fun _ _ => False) s := by
  unfold loadRev
  rw [hhas.1, ofOption_some, wp_bind, wp_pure, blobOf, wp_bind]
  refine wp_of_ok (loadConfig_spec hparse hhas) ?_
  have hchildren := hm.children_eq
  rw [wp_bind]
  refine wp_mono (h.fields (S.fields m.label.type) s
    (fun f hf => ⟨hmod _ f hf, ?_, fun c hc => ⟨?_, (hm.2 f hf).1 c hc⟩⟩) hs) ?_ fun _ _ h => h
  · rw [FieldTree.lookup_map_snd fun _ (l : List Msg) => l.map Rev.digest]
    obtain ⟨l, hl⟩ := FieldTree.lookup_isSome_of_mem (by
      rw [hm.1]; exact List.mem_map_of_mem hf)
    rw [hl, FieldTree.child, hl]
    rfl
  · exact hP f.name _ (FieldTree.mem_children_of_mem_child hc) c hc
  · rintro l s₁ ⟨hs₁, hl⟩
    refine wp_mono (wp_and ((mkrev_loads n tag m.label l).toWp s₁) (show wp (mkrev n tag m.label l)
      (fun r _ => Rev.content r = m) (fun _ _ => False) s₁ from ?_)) (fun _ _ h => ⟨h.1.reading hs₁, h.2⟩)
      fun _ _ h => h.2
    unfold mkrev
    rw [wp_bind, wp_read, wp_newRev, Rev.content_mk, hl, ← hchildren, FieldTree.mk_label_children]

end

/-- `load_latest` は、message を中身とする最新の版を読む。 -/
theorem loadLatest_restores {rank : String → Nat} (hS : Loadable S parse rank) : ∀ limit : Nat,
    Restores kv (fun m => rank m.label.type < limit ∧ Shaped S.fields m ∧ kv.HasAll m)
      (loadLatest S parse limit)
  | 0, _, _, _, ⟨hr, _, _⟩, _, _ => absurd hr (Nat.not_lt_zero _)
  | limit + 1, m, n, s, ⟨hr, hshape, hall⟩, hs, hty => by
    obtain ⟨d, cs⟩ := m
    obtain ⟨hlocal, hsub⟩ := shaped_mk_iff.mp hshape
    obtain ⟨hhas, hkids⟩ := Store.hasAll_mk_iff.mp hall
    rw [loadLatest, wp_bind, wp_read, hs.2, ofOption_some, wp_bind, wp_pure, wp_bind, hty]
    refine wp_mono ((loadLatest_restores hS limit).rev hS.module hS.parse hlocal hhas ?_ hs _) ?_
      fun _ _ h => h
    · -- 子の型は一段下なので、上限が一つ減っても足りる
      intro g l hg c hc
      obtain ⟨f, hf, he⟩ := hlocal.type_of_mem hg hc
      have hlt := hS.rank _ f hf
      rw [← he] at hlt
      exact ⟨by omega, hsub g l hg c hc, hkids g l hg c hc⟩
    · rintro r s₁ ⟨hs₁, hcont⟩
      rw [wp_makeLatest]
      refine ⟨(makeLatest_loads rfl n r s₁).reading hs₁, r, ?_, hcont⟩
      unfold State.latest?
      rw [makeLatest_node, setBranch_branches, if_pos ⟨rfl, rfl⟩]
      rfl

/-! ## root -/

theorem shaped_blank (S : Schema) (ty : String) : Shaped S.fields (S.blank ty) := by
  have hlabel : (S.default ty).label.type = ty := S.default_type ty
  have hnil : ∀ name, FieldTree.child (S.blank ty) name = [] := by
    intro name
    unfold FieldTree.child Schema.blank
    rw [FieldTree.children_mk]
    cases h : ((S.fields ty).map fun f => (f.name, ([] : List Msg))).lookup name with
    | none => rfl
    | some l =>
      obtain ⟨f, -, he⟩ := List.mem_map.mp (OrderedDict.mem_of_lookup h)
      rw [← (Prod.mk.inj he).2]
      rfl
  refine shaped_mk_iff.mpr ⟨⟨?_, fun f _ => ?_⟩, ?_⟩
  · rw [FieldTree.label_mk, hlabel, FieldTree.children_mk, List.map_map]
    rfl
  · have h := hnil f.name
    unfold Schema.blank at h
    rw [h]
    exact ⟨nofun, fun _ => Nat.zero_le 1⟩
  · intro name l hl c hc
    obtain ⟨f, -, he⟩ := List.mem_map.mp hl
    rw [← (Prod.mk.inj he).2] at hc
    cases hc

/-- 差し替える前の木。root の型は決まっていて、proxy は無い。 -/
theorem blankRoot_spec {ty : String} (hkeys : KeysApart S (complete S (S.blank ty)))
    (store : Option Store) :
    wp (blankRoot S ty) (fun _ s' => (s'.node rootId).type = ty ∧ NoProxy s')
      (fun _ _ => False) (emptyState store) := by
  have hgood := mknode_good (κ := .all) closed_true (complete S (S.blank ty)) none
    (emptyState store) (emptyState_good store) (fun _ => (shaped_blank S ty).complete)
    (by rintro sl key ⟨⟩)
  refine wp_mono (wp_and (wp_and hgood (mknode_succeeds (complete S (S.blank ty)) none _ hkeys))
    ((mknode_noProxy S _ none).toWp _)) ?_ fun _ _ h => h.1.2
  rintro r s₁ ⟨⟨⟨-, hdeep, hroot, -, hcont, -⟩, -⟩, hproxy⟩
  refine ⟨?_, hproxy (emptyState_noProxy store)⟩
  have hty := hdeep.self.type_eq
  rw [hroot, ← Rev.label_content, hcont, label_complete] at hty
  exact hty.trans (S.default_type ty)

/-- message のどの部分の項目もあり、`root` の項目がその hash なら、読み込んだ木の中身はその message である。 -/
theorem load_spec {rank : String → Nat} (hS : Loadable S parse rank) {limit : Nat} {m : Msg}
    (hkeys : KeysApart S (complete S (S.blank m.label.type))) (hrank : rank m.label.type < limit)
    (hm : Shaped S.fields m) (hall : kv.HasAll m)
    (hroot : kv .root = some (.root (Rev.digest m) [])) :
    ∃ s', load S parse limit m.label.type kv = (.ok (), s') ∧ NoProxy s' ∧
      ∃ r, s'.latest? rootId = some r ∧ Rev.content r = m := by
  have hw : wp (loadInto S parse limit m.label.type kv)
      (fun _ s' => NoProxy s' ∧ ∃ r, s'.latest? rootId = some r ∧ Rev.content r = m)
      (fun _ _ => False) (emptyState (some fun _ => none)) := by
    unfold loadInto
    rw [wp_bind]
    refine wp_mono (blankRoot_spec hkeys _) ?_ fun _ _ h => h
    rintro - s₁ ⟨hty, hproxy⟩
    unfold loadFromPersistence
    rw [wp_bind, wp_modify, wp_bind, wp_modify, wp_bind, wp_read, ofOption_some, wp_bind, wp_pure,
      hroot, ofOption_some, wp_bind, wp_pure, wp_bind]
    generalize hs₂ : ({ s₁ with kv := some kv, objs := [], loading := true } : State) = s₂
    have hread : Reading kv s₂ := by subst hs₂; exact ⟨rfl, rfl⟩
    have hty₂ : (s₂.node rootId).type = m.label.type := by subst hs₂; exact hty
    have hproxy₂ : NoProxy s₂ := by subst hs₂; exact hproxy
    refine wp_require (fun _ => ?_) fun h => h rfl
    rw [wp_bind]
    refine wp_mono (wp_and (loadLatest_restores hS limit m rootId s₂ ⟨hrank, hm, hall⟩ hread hty₂)
      ((loadLatest_loads limit rootId _).toWp s₂)) ?_ fun _ _ h => h.1
    rintro - s₃ ⟨⟨-, hlat⟩, hloads⟩
    exact ⟨hloads.noProxy hproxy₂, hlat⟩
  unfold wp at hw
  rcases hload : loadInto S parse limit m.label.type kv (emptyState (some fun _ => none)) with
    ⟨e | u, s'⟩
  · rw [hload] at hw
    exact hw.elim
  · rw [hload] at hw
    exact ⟨s', hload, hw⟩

/-- 深い `get` は、root の最新の版の中身を返す。 -/
theorem get_latest (hp : NoProxy s) {r : Rev} (hr : s.latest? n = some r) :
    get S s n [] none none none = .ok (.one (.data (Rev.content r))) := by
  obtain ⟨b, hb, rfl⟩ := Option.map_eq_some_iff.mp hr
  unfold get readBranch
  rw [hb]
  show getRev S s none [] b.latest = _
  rw [getRev, doGet_plain hp]
  rfl

/-! ## VolthaInstance -/

/-- 型の入れ子の深さ。 -/
def volthaRank : String → Nat
  | "Voltha" => 4
  | "VolthaInstance" => 3
  | "DeviceGroup" => 2
  | "LogicalDevice" => 1
  | "Device" => 1
  | _ => 0

theorem voltha_loadable (hparse : ∀ d : Data, parse d.type d = d) :
    Loadable volthaSchema parse volthaRank where
  module ty := by
    show ∀ f ∈ volthaFields ty, _
    unfold volthaFields; split <;> decide
  rank ty := by
    show ∀ f ∈ volthaFields ty, _
    unfold volthaFields; split <;> first | decide | simp
  parse := hparse

/-- 欠けの無い message には、埋めるものが無い。 -/
theorem Full.complete_eq {m : Msg} (h : Full S.fields m) : complete S m = m := by
  induction m using FieldTree.induct with
  | h d cs ih =>
    obtain ⟨⟨hlocal, hsingles⟩, hsub⟩ := full_mk_iff.mp h
    have hnd : (cs.map Prod.fst).Nodup := by
      have hnames : cs.map Prod.fst = (S.fields d.type).map ChildField.name := hlocal.1
      rw [hnames]
      exact S.names_nodup _
    rw [complete_mk]
    refine congrArg _ ((List.map_congr_left fun p hp => ?_).trans (List.map_id cs))
    have hself : p.2.map (complete S) = p.2 :=
      (List.map_congr_left fun c hc => ih p.1 p.2 hp c hc (hsub p.1 p.2 hp c hc)).trans
        (List.map_id p.2)
    have hchild : FieldTree.child (.mk d cs) p.1 = p.2 := FieldTree.child_eq_of_mem hnd hp
    rw [hself]
    unfold fillField
    split
    · next f hf hp2 =>
      obtain ⟨hmem, hname⟩ := S.field?_eq_some hf
      have hne : f.kind ≠ .single := by
        intro hk
        have h := hsingles f hmem hk
        rw [hname, hchild] at h
        exact h hp2
      rw [if_neg hne, id, ← hp2]
    · rfl

/--
読み込みは、書き込みの逆である。

単独の子が揃い、どの container でも key の重ならない `VolthaInstance` の message から `ConfigRoot` を作ると、
深い `get` はその message を返す。kv store のある `ConfigRoot` を作った後の kv store から
`ConfigRoot.load` で読み込んだ木の深い `get` も、同じ message を返す。

message の local data の直列化は往復する（`hparse`）ものとする。kv store には、作る前から
別の木の項目があってもよい。再帰の上限は 4 で足りる。
-/
theorem load_undoes_store {parse : String → Data → Data} (hparse : ∀ d : Data, parse d.type d = d)
    {data : Msg} (hty : data.label.type = "VolthaInstance") (hfull : Full volthaFields data)
    (hkeys : KeysApart volthaSchema data) :
    (∀ store, (initRoot volthaSchema store data).1.isOk = true ∧
      get volthaSchema (start volthaSchema store data) rootId [] none none none
        = .ok (.one (.data data))) ∧
    ∀ kv₀ : Store, kv₀.Genuine volthaSchema → ∀ limit, 4 ≤ limit →
      ∃ kv, (start volthaSchema (some kv₀) data).kv = some kv ∧
        ∃ s', load volthaSchema parse limit "VolthaInstance" kv = (.ok (), s') ∧
          get volthaSchema s' rootId [] none none none = .ok (.one (.data data)) := by
  have hcomplete : complete volthaSchema data = data := Full.complete_eq hfull
  have hshaped : Shaped volthaFields data := fun m hm => (hfull m hm).1
  constructor
  · intro store
    have hkeys' : KeysApart volthaSchema (complete volthaSchema data) := by rwa [hcomplete]
    obtain ⟨r, s₀, hinit⟩ := initRoot_ok store hkeys'
    have hstart := start_shadow store hshaped hkeys'
    obtain ⟨b, hb, -, hcont⟩ := hstart.root
    have hlat : (start volthaSchema store data).latest? rootId = some b.latest :=
      congrArg (Option.map Branch.latest) hb
    exact ⟨by rw [hinit]; rfl, by rw [get_latest hstart.noProxy hlat, hcont, hcomplete]⟩
  · intro kv₀ hkv₀ limit hlimit
    obtain ⟨kv, hkv, hall, hroot⟩ := start_stores hkv₀ hshaped (by rw [hcomplete]; exact hkeys)
    rw [hcomplete] at hall hroot
    refine ⟨kv, hkv, ?_⟩
    obtain ⟨s', hload, hproxy, r, hlat, hcont⟩ := load_spec (voltha_loadable hparse)
      (by rw [hty]; decide +kernel) (by rw [hty]; exact hlimit) hshaped hall hroot
    rw [hty] at hload
    exact ⟨s', hload, by rw [get_latest hproxy hlat, hcont]⟩

/-- 単独の子の揃った `VolthaInstance`。adapter と logical device が二つずつある。 -/
def fullInstance : Msg := complete volthaSchema sampleInstance

/-- 空の kv store に書いた木を読み込む。 -/
theorem load_undoes_store_full :
    (∀ store, (initRoot volthaSchema store fullInstance).1.isOk = true ∧
      get volthaSchema (start volthaSchema store fullInstance) rootId [] none none none
        = .ok (.one (.data fullInstance))) ∧
    ∃ kv, (start volthaSchema (some fun _ => none) fullInstance).kv = some kv ∧
      ∃ s', load volthaSchema (fun _ d => d) 4 "VolthaInstance" kv = (.ok (), s') ∧
        get volthaSchema s' rootId [] none none none = .ok (.one (.data fullInstance)) := by
  obtain ⟨hget, hload⟩ := @load_undoes_store (fun _ d => d) (fun _ => rfl) fullInstance
    (by decide +kernel) (by decide +kernel) (by decide +kernel)
  exact ⟨hget, hload _ Store.genuine_empty 4 (Nat.le_refl 4)⟩

end Voltha.Config
