import Voltha.Config.Properties.KeyWise
import Voltha.Config.Properties.MergeGood
import Voltha.Config.Root
import Voltha.Config.VolthaSchema

/-!
# merge_3way が key ごとの merge になる条件

`merge_3way` は local data、それから field を順に調べ、最初に見つけた例外で終わる。
field ごとの結果（`KeyWise`）を順につないで、全体がいつ key ごとの 3-way merge になるかを言う。
-/

namespace Voltha.Config

open Exec

variable {forkList srcList dstList : List Rev}

/-! ## 一つの field -/

section Merge

variable {I : State → Prop} {R : Prop} {mergeChild : Rev → Op (Option Rev)} {s : State}
variable {f : ChildField} {S : Schema} {fork src dst : Rev}

/-- field `f` は conflict になる。 -/
def FieldCollides (f : ChildField) (forkList srcList dstList : List Rev) : Prop :=
  match f.key with
  | some key => KeyedCollides key forkList srcList dstList
  | none => Diverged forkList srcList dstList ∧ srcList ≠ forkList

/-- field `f` は範囲外の `pop` をする。 -/
def FieldOverruns (f : ChildField) (forkList srcList dstList : List Rev) : Prop :=
  ∃ key, f.key = some key ∧ KeyedOverruns key forkList srcList dstList

/-- 片側しか変わっていなければ、衝突も範囲外の `pop` も無い。 -/
theorem not_fieldCollides (h : ¬Diverged forkList srcList dstList) :
    ¬FieldCollides f forkList srcList dstList := by
  unfold FieldCollides
  split
  · exact fun hc => h hc.1
  · exact fun hc => h hc.1

theorem not_fieldOverruns (h : ¬Diverged forkList srcList dstList) :
    ¬FieldOverruns f forkList srcList dstList := by
  rintro ⟨key, -, hc⟩
  exact h hc.1

/-- field の merge が終わったときに言えること。 -/
def FieldMerged (I : State → Prop) (f : ChildField) (forkList srcList dstList : List Rev)
    (p : List (Option Rev) × List Change) (s : State) : Prop :=
  I s ∧ ¬FieldCollides f forkList srcList dstList ∧ ¬FieldOverruns f forkList srcList dstList ∧
    ∃ m : List Rev, p.1 = m.map some ∧ ∀ key, f.key = some key →
      (InOrder key forkList srcList dstList ↔ KeyWise key forkList srcList dstList m)

/-- field の merge が例外で終わったときに言えること。 -/
def FieldRaised (R : Prop) (f : ChildField) (forkList srcList dstList : List Rev) (e : Err) :
    Prop :=
  (e.IsConflict ∧ (R ∨ FieldCollides f forkList srcList dstList)) ∨
    (¬e.IsConflict ∧ FieldOverruns f forkList srcList dstList)

theorem FieldRaised.child {e : Err} (h : e.IsConflict ∧ R) :
    FieldRaised R f forkList srcList dstList e :=
  Or.inl ⟨h.1, Or.inl h.2⟩

/-- key の無い field の merge。 -/
theorem mergePlain_keyWise (h : MergesChild I R mergeChild f.key forkList srcList dstList)
    (hnone : f.key = none) (hne : dstList ≠ srcList) (hI : I s) :
    wp (if dstList = forkList then
        if srcList = forkList then Exec.raise (.assertion "We should not be here otherwise")
        else do
          let l ← Exec.mapList mergeChild srcList
          pure (l, if f.kind = .list then [(.postListchange, .operation f.name)] else [])
      else if srcList ≠ forkList then
        Exec.raise (.mergeConflict
          "Cannot merge because single child node or un-keyedchildren list has changed")
      else pure (dstList.map some, []) : Op (List (Option Rev) × List Change))
      (FieldMerged I f forkList srcList dstList)
      (fun e _ => FieldRaised R f forkList srcList dstList e) s := by
  have hover : ¬FieldOverruns f forkList srcList dstList := by
    rintro ⟨key, hk, -⟩; rw [hnone] at hk; cases hk
  have hkeyed : ∀ {P : Prop} key, f.key = some key → P := by
    intro P key hk; rw [hnone] at hk; cases hk
  split
  · next hdf =>
    have hquiet : ¬Diverged forkList srcList dstList := fun hd => hd.2 hdf
    split
    · next hsf => exact absurd (hdf.trans hsf.symm) hne
    · rw [wp_bind]
      refine wp_mono (mapList_merges h srcList s (fun _ hc => hc) hI) ?_
        fun _ _ hE => FieldRaised.child hE
      rintro l s₁ ⟨hI1, m, rfl⟩
      exact ⟨hI1, not_fieldCollides hquiet, hover, m, rfl, fun key hk => hkeyed key hk⟩
  · next hdf =>
    have hcol : FieldCollides f forkList srcList dstList ↔ srcList ≠ forkList := by
      unfold FieldCollides
      rw [hnone]
      exact ⟨fun hc => hc.2, fun hc => ⟨⟨hne, hdf⟩, hc⟩⟩
    split
    · next hsf => exact Or.inl ⟨⟨_, rfl⟩, Or.inr (hcol.mpr hsf)⟩
    · next hsf =>
      exact ⟨hI, fun hc => hsf (hcol.mp hc), hover, dstList, rfl, fun key hk => hkeyed key hk⟩

/-- key のある field の merge。 -/
theorem mergeKeyed_keyWise {key : String} (hkey : f.key = some key)
    (huf : UniqueKeys key forkList) (hus : UniqueKeys key srcList) (hud : UniqueKeys key dstList)
    (h : MergesChild I R mergeChild (some key) forkList srcList dstList)
    (hne : dstList ≠ srcList) (hI : I s) :
    wp (if dstList = forkList then mergeKeyedOwn mergeChild key forkList srcList
        else mergeKeyedBoth mergeChild key forkList srcList dstList)
      (FieldMerged I f forkList srcList dstList)
      (fun e _ => FieldRaised R f forkList srcList dstList e) s := by
  have honly : ∀ {P : String → Prop}, P key → ∀ key', f.key = some key' → P key' := by
    intro P hP key' hk'; rw [hkey] at hk'; cases hk'; exact hP
  split
  · next hdf =>
    subst hdf
    refine wp_mono (mergeKeyedOwn_keyWise huf hus h hI) ?_ fun _ _ hE => FieldRaised.child hE
    rintro p s₁ ⟨hI1, m, hp, hkeys, hhash⟩
    refine ⟨hI1, not_fieldCollides fun hd => hd.2 rfl, not_fieldOverruns fun hd => hd.2 rfl,
      m, hp, honly ?_⟩
    exact ⟨fun _ => keyWise_own hus hkeys hhash, fun _ hd => absurd rfl hd.2⟩
  · next hdf =>
    have hcol : FieldCollides f forkList srcList dstList ↔
        KeyedCollides key forkList srcList dstList := by
      unfold FieldCollides; rw [hkey]
    refine wp_mono (mergeKeyedBoth_keyWise huf hus hud h ⟨hne, hdf⟩ hI) ?_ fun e _ hE => ?_
    · rintro p s₁ ⟨hI1, hc, ho, m, hp, hiff⟩
      refine ⟨hI1, fun h => hc (hcol.mp h), ?_, m, hp, honly hiff⟩
      rintro ⟨key', hk', hover⟩
      rw [hkey] at hk'
      cases hk'
      exact ho hover
    · rcases hE with ⟨he, hr | hc⟩ | ⟨he, ho⟩
      · exact Or.inl ⟨he, Or.inl hr⟩
      · exact Or.inl ⟨he, Or.inr (hcol.mpr hc)⟩
      · exact Or.inr ⟨he, key, hkey, ho⟩

/-- 一つの field の merge。 -/
theorem mergeField_keyWise
    (hu : ∀ key, f.key = some key →
      UniqueKeys key forkList ∧ UniqueKeys key srcList ∧ UniqueKeys key dstList)
    (h : MergesChild I R mergeChild f.key forkList srcList dstList) (hI : I s) :
    wp (mergeField mergeChild f forkList srcList dstList)
      (FieldMerged I f forkList srcList dstList)
      (fun e _ => FieldRaised R f forkList srcList dstList e) s := by
  unfold mergeField
  split
  · next hds =>
    have hquiet : ¬Diverged forkList srcList dstList := fun hd => hd.1 hds
    rw [wp_bind]
    refine wp_mono (mapList_merges h srcList s (fun _ hc => hc) hI) ?_
      fun _ _ hE => FieldRaised.child hE
    rintro l s₁ ⟨hI1, -⟩
    refine ⟨hI1, not_fieldCollides hquiet, not_fieldOverruns hquiet, dstList, rfl, fun key hk => ?_⟩
    subst hds
    exact ⟨fun _ => keyWise_same (hu key hk).2.2, fun _ hd => absurd rfl hd.1⟩
  · next hds =>
    have hplain := fun hnone => mergePlain_keyWise h hnone hds hI
    cases hkind : f.kind with
    | single => rw [hkind] at hplain; exact hplain (by unfold ChildField.key; rw [hkind])
    | list => rw [hkind] at hplain; exact hplain (by unfold ChildField.key; rw [hkind])
    | keyed key kt =>
      have hkey : f.key = some key := by unfold ChildField.key; rw [hkind]
      obtain ⟨huf, hus, hud⟩ := hu key hkey
      rw [hkey] at h
      exact mergeKeyed_keyWise hkey huf hus hud h hds hI

/-! ## 全 field -/

/-- どの keyed な field の列も key が重ならない。 -/
def UniqueFields (fs : List ChildField) (r : Rev) : Prop :=
  ∀ f ∈ fs, ∀ key, f.key = some key → UniqueKeys key (r.child f.name)

instance (fs : List ChildField) (r : Rev) : Decidable (UniqueFields fs r) :=
  inferInstanceAs (Decidable (∀ f ∈ fs, ∀ key ∈ f.key, (keysOf key (r.child f.name)).Nodup))

/-- `merge_3way` に渡る三つの版と `merge_child_func` の条件。 -/
structure MergeInput (S : Schema) (I : State → Prop) (R : Prop)
    (mergeChild : Rev → Op (Option Rev)) (fork src dst : Rev) : Prop where
  names : ∀ f ∈ S.fields (Rev.config fork).type, f.name ∈ dst.children.map Prod.fst
  uniqueFork : UniqueFields (S.fields (Rev.config fork).type) fork
  uniqueSrc : UniqueFields (S.fields (Rev.config fork).type) src
  uniqueDst : UniqueFields (S.fields (Rev.config fork).type) dst
  child : ∀ f ∈ S.fields (Rev.config fork).type, MergesChild I R mergeChild f.key
    (fork.child f.name) (src.child f.name) (dst.child f.name)

section Inputs

variable (fork src dst : Rev)

/-- 両側で違うように変わった local data。 -/
def ConfigCollides : Prop :=
  Rev.config dst ≠ Rev.config fork ∧ Rev.config dst ≠ Rev.config src

def CollidesAt (f : ChildField) : Prop :=
  FieldCollides f (fork.child f.name) (src.child f.name) (dst.child f.name)

def OverrunsAt (f : ChildField) : Prop :=
  FieldOverruns f (fork.child f.name) (src.child f.name) (dst.child f.name)

/-- field を順に見ていくと、範囲外の `pop` より先に conflict に当たる。 -/
def FirstCollides (fs : List ChildField) : Prop :=
  ∃ before f after, fs = before ++ f :: after ∧ (∀ g ∈ before, ¬OverrunsAt fork src dst g) ∧
    CollidesAt fork src dst f

/-- field を順に見ていくと、conflict より先に範囲外の `pop` に当たる。 -/
def FirstOverruns (fs : List ChildField) : Prop :=
  ∃ before f after, fs = before ++ f :: after ∧ (∀ g ∈ before, ¬CollidesAt fork src dst g) ∧
    OverrunsAt fork src dst f

/-- どの keyed な field でも、src で消えた key は dst でも fork の順に並んでいる。 -/
def AllInOrder (fs : List ChildField) : Prop :=
  ∀ f ∈ fs, ∀ key, f.key = some key →
    InOrder key (fork.child f.name) (src.child f.name) (dst.child f.name)

instance (fs : List ChildField) : Decidable (AllInOrder fork src dst fs) :=
  inferInstanceAs (Decidable (∀ f ∈ fs, ∀ key ∈ f.key,
    InOrder key (fork.child f.name) (src.child f.name) (dst.child f.name)))

end Inputs

/-- 一つの field で、衝突と範囲外の `pop` は両立しない。 -/
theorem CollidesAt.not_overruns (h : CollidesAt fork src dst f) : ¬OverrunsAt fork src dst f := by
  rintro ⟨key, hkey, -, hearly, hrange⟩
  unfold CollidesAt FieldCollides at h
  rw [hkey] at h
  rcases h with ⟨-, hc | ⟨-, hr⟩⟩
  · exact hearly hc
  · exact hrange hr

theorem FirstCollides.not_overruns {fs : List ChildField} (h : FirstCollides fork src dst fs) :
    ¬FirstOverruns fork src dst fs := by
  rintro ⟨before', f', after', he', hno', hover⟩
  obtain ⟨before, f, after, rfl, hno, hcol⟩ := h
  -- 先に現れるほうで食い違う
  rcases List.append_eq_append_iff.mp he' with ⟨mid, hb, hm⟩ | ⟨mid, hb, hm⟩
  · cases mid with
    | nil => cases hm; exact hcol.not_overruns hover
    | cons g mid =>
      cases hm
      exact hno' f (by rw [hb]; simp) hcol
  · cases mid with
    | nil => cases hm; exact hcol.not_overruns hover
    | cons g mid =>
      cases hm
      exact hno f' (by rw [hb]; simp) hover

/-- 位置が大きい順なら、`pop` は範囲を外れない。 -/
theorem AllInOrder.not_overruns {fs : List ChildField}
    (hu : UniqueFields fs dst)
    (h : AllInOrder fork src dst fs) : ¬FirstOverruns fork src dst fs := by
  rintro ⟨before, f, after, rfl, -, key, hkey, hdiv, -, hrange⟩
  have hf : f ∈ before ++ f :: after := by simp
  have hpw := h f hf key hkey hdiv
  have hsub : (popsBefore key (fork.child f.name) (src.child f.name) (dst.child f.name)).Sublist
      (positionsIn key (dst.child f.name) (removalOrder key (fork.child f.name)
        (src.child f.name))) :=
    List.Sublist.filterMap _ (List.takeWhile_sublist _)
  refine hrange (Pop.inRange_of_pairwise (hpw.sublist hsub) fun i hi => ?_)
  obtain ⟨k, -, hk⟩ := List.mem_filterMap.mp hi
  obtain ⟨r, hr, -⟩ := (lookup_keymap (hu f hf key hkey)).mp hk
  have := (List.getElem?_eq_some_iff.mp hr).1
  omega

/-- 値をすべて版にした辞書。 -/
def allSome (cs : List (String × List Rev)) : List (String × List (Option Rev)) :=
  cs.map fun p => (p.1, p.2.map some)

theorem setField_allSome (cs : List (String × List Rev)) (name : String) (m : List Rev) :
    FieldTree.setField (allSome cs) name (m.map some) = allSome (FieldTree.setField cs name m) := by
  unfold FieldTree.setField allSome
  rw [List.map_map, List.map_map]
  refine List.map_congr_left fun p _ => ?_
  simp only [Function.comp_apply]
  split <;> rfl

theorem mergeFields_keyWise (h : MergeInput S I R mergeChild fork src dst) :
    ∀ (fs : List ChildField) (cs : List (String × List Rev)) (ch : List Change) (s : State),
      (∀ f ∈ fs, f ∈ S.fields (Rev.config fork).type) → (fs.map ChildField.name).Nodup →
      (∀ f ∈ fs, f.name ∈ cs.map Prod.fst) → I s →
    wp (mergeFields mergeChild fork src dst fs (allSome cs) ch)
      (fun p _ => ∃ cs', p.1 = allSome cs' ∧
        (∀ g, g ∉ fs.map ChildField.name → cs'.lookup g = cs.lookup g) ∧
        ∀ f ∈ fs, ¬CollidesAt fork src dst f ∧ ∀ key, f.key = some key →
          (InOrder key (fork.child f.name) (src.child f.name) (dst.child f.name) ↔
            KeyWise key (fork.child f.name) (src.child f.name) (dst.child f.name)
              ((cs'.lookup f.name).getD [])))
      (fun e _ => (e.IsConflict ∧ (R ∨ FirstCollides fork src dst fs)) ∨
        (¬e.IsConflict ∧ FirstOverruns fork src dst fs)) s
  | [], cs, ch, s, _, _, _, hI => ⟨cs, rfl, fun _ _ => rfl, by simp⟩
  | f :: fs, cs, ch, s, hfs, hnd, hnames, hI => by
    have hf := hfs f List.mem_cons_self
    rw [List.map_cons, List.nodup_cons] at hnd
    rw [mergeFields, wp_bind]
    refine wp_mono (mergeField_keyWise (fun key hk => ⟨h.uniqueFork f hf key hk,
      h.uniqueSrc f hf key hk, h.uniqueDst f hf key hk⟩) (h.child f hf) hI) ?_ ?_
    · rintro p s₁ ⟨hI1, hcol, hover, m, hp, hiff⟩
      dsimp only
      rw [hp, setField_allSome]
      refine wp_mono (mergeFields_keyWise h fs _ _ s₁
        (fun g hg => hfs g (List.mem_cons_of_mem _ hg)) hnd.2 (fun g hg => ?_) hI1) ?_ ?_
      · rw [FieldTree.setField_keys]
        exact hnames g (List.mem_cons_of_mem _ hg)
      · rintro q s₂ ⟨cs', hq, hother, hall⟩
        refine ⟨cs', hq, fun g hg => ?_, fun g hg => ?_⟩
        · rw [List.map_cons, List.mem_cons, not_or] at hg
          rw [hother g hg.2, FieldTree.lookup_setField, if_neg hg.1]
        · rcases List.mem_cons.mp hg with rfl | hg
          · refine ⟨hcol, fun key hkey => ?_⟩
            obtain ⟨old, hold⟩ := FieldTree.lookup_isSome_of_mem (hnames g List.mem_cons_self)
            rw [hother g.name hnd.1, FieldTree.lookup_setField, if_pos rfl, hold]
            exact hiff key hkey
          · exact hall g hg
      · -- 後の field の例外は、先頭の field が静かに済んだ後に起きる
        rintro e _ (⟨he, hr | ⟨before, g, after, rfl, hno, hc⟩⟩ |
          ⟨he, before, g, after, rfl, hno, ho⟩)
        · exact Or.inl ⟨he, Or.inl hr⟩
        · exact Or.inl ⟨he, Or.inr ⟨f :: before, g, after, rfl,
            List.forall_mem_cons.mpr ⟨hover, hno⟩, hc⟩⟩
        · exact Or.inr ⟨he, f :: before, g, after, rfl,
            List.forall_mem_cons.mpr ⟨hcol, hno⟩, ho⟩
    · rintro e _ (⟨he, hr | hc⟩ | ⟨he, ho⟩)
      · exact Or.inl ⟨he, Or.inl hr⟩
      · exact Or.inl ⟨he, Or.inr ⟨[], f, fs, rfl, by simp, hc⟩⟩
      · exact Or.inr ⟨he, [], f, fs, rfl, by simp, ho⟩

/-! ## merge_3way -/

/-- 中身の分かっている三つの版の merge の結果を、入力の言葉で言い尽くす。 -/
theorem merge3way_keyWise (h : MergeInput S I R mergeChild fork src dst) (hI : I s) :
    wp (merge3way S mergeChild false fork src dst)
      (fun p _ => ∃ r, p.1 = some r ∧ ¬ConfigCollides fork src dst ∧
        ∀ f ∈ S.fields (Rev.config fork).type, ¬CollidesAt fork src dst f ∧
          ∀ key, f.key = some key →
            (InOrder key (fork.child f.name) (src.child f.name) (dst.child f.name) ↔
              KeyWise key (fork.child f.name) (src.child f.name) (dst.child f.name)
                (r.child f.name)))
      (fun e _ => (e.IsConflict ∧ (R ∨ ConfigCollides fork src dst ∨
          FirstCollides fork src dst (S.fields (Rev.config fork).type))) ∨
        (¬e.IsConflict ∧ ¬ConfigCollides fork src dst ∧
          FirstOverruns fork src dst (S.fields (Rev.config fork).type))) s := by
  have hcfg : wp (mergeConfig fork src dst)
      (fun _ s' => s' = s ∧ ¬ConfigCollides fork src dst)
      (fun e _ => e.IsConflict ∧ ConfigCollides fork src dst) s := by
    unfold mergeConfig
    split
    · next hdf => exact ⟨rfl, fun hc => hc.1 hdf⟩
    · next hdf =>
      split
      · next hds => exact ⟨⟨_, rfl⟩, hdf, hds⟩
      · next hds => exact ⟨rfl, fun hc => hds hc.2⟩
  unfold merge3way
  rw [wp_bind]
  refine wp_mono hcfg ?_ fun e _ hE => Or.inl ⟨hE.1, Or.inr (Or.inl hE.2)⟩
  rintro changed s₁ ⟨rfl, hnc⟩
  rw [wp_bind]
  refine wp_mono (mergeFields_keyWise h _ dst.children [] s₁ (fun _ hf => hf) (S.names_nodup _)
    h.names hI) ?_ ?_
  · rintro ⟨acc, ch⟩ s₂ ⟨cs', hacc, -, hall⟩
    dsimp only at hacc ⊢
    rw [if_neg (by simp), allRevs_eq_some.mpr hacc]
    exact ⟨_, rfl, hnc, hall⟩
  · rintro e _ (⟨he, hr | hc⟩ | ⟨he, ho⟩)
    · exact Or.inl ⟨he, Or.inl hr⟩
    · exact Or.inl ⟨he, Or.inr (Or.inr hc)⟩
    · exact Or.inr ⟨he, hnc, ho⟩

end Merge

/--
`merge_3way` は、conflict を投げるか、あるいは何も投げずに、
どの keyed な field でも key ごとの 3-way merge を返す。
-/
def MergesKeyWise (S : Schema) (mergeChild : Rev → Op (Option Rev)) (fork src dst : Rev)
    (s : State) : Prop :=
  wp (merge3way S mergeChild false fork src dst)
    (fun p _ => ∃ r, p.1 = some r ∧ ∀ f ∈ S.fields (Rev.config fork).type,
      ∀ key, f.key = some key → KeyWise key (fork.child f.name) (src.child f.name)
        (dst.child f.name) (r.child f.name))
    (fun e _ => e.IsConflict) s

/-- adapter だけを持つ root の版。adapter は object の番号と id で与える。 -/
def adaptersRev (uid : Nat) (adapters : List (Nat × String)) : Rev :=
  .mk { uid, node := rootId, tag := .committed, store := .plain,
        config := (instanceMsg "v0" [] [] []).label }
    [("health", []), ("adapters", adapters.map fun p =>
        .mk { uid := p.1, node := p.1, tag := .committed, store := .plain,
              config := (adapterMsg p.2 "a").label } []),
      ("logical_devices", []), ("devices", []), ("device_types", []), ("device_groups", [])]

/-- 枝分かれしていない子だけの merge。`merge_child` は子をそのまま返す。 -/
def sameChild : Rev → Op (Option Rev) := fun c => pure (some c)

theorem sameChild_merges (key? : Option String) (forkList srcList dstList : List Rev) :
    MergesChild (fun _ => True) False sameChild key? forkList srcList dstList :=
  fun c _ _ _ => ⟨trivial, c, rfl, fun _ _ => ⟨rfl, fun _ => rfl⟩⟩

/-- adapter だけを持つ版どうしの merge。 -/
abbrev AdaptersInput (fork src dst : List (Nat × String)) : Prop :=
  MergeInput volthaSchema (fun _ => True) False sameChild (adaptersRev 10 fork)
    (adaptersRev 11 src) (adaptersRev 12 dst)

abbrev AdaptersMerge (fork src dst : List (Nat × String)) : Prop :=
  MergesKeyWise volthaSchema sameChild (adaptersRev 10 fork) (adaptersRev 11 src)
    (adaptersRev 12 dst) (emptyState none)

end Voltha.Config
