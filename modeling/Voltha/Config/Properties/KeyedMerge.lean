import Voltha.Config.Merge
import Voltha.Lib.KeyedList

/-!
# keyed な列の merge の道具

key が重ならない列どうしの `AnalyzeChanges` を、key の集合の言葉で読み直す。
それから、merge の四つの loop を動かすための規則を置く。
規則は、作りかけの列と状態についての不変条件 `Inv` を一回ずつ保てばよい、という形をしている。
-/

namespace Voltha.Config

open Exec

/-- 列の key。 -/
def keysOf (key : String) (l : List Rev) : List (Option Value) := l.map (Rev.keyIn key)

/-- key が重ならない。 -/
def UniqueKeys (key : String) (l : List Rev) : Prop := (keysOf key l).Nodup

variable {key : String} {l forkList srcList dstList : List Rev} {k : Option Value} {i : Nat}
variable {r : Rev}

/-! ## 位置の辞書 -/

theorem keymap_eq (h : UniqueKeys key l) :
    keymap key l = KeyedList.positions (Rev.keyIn key) l :=
  OrderedDict.ofList_of_nodup (by
    have hk := KeyedList.positions_keys (Rev.keyIn key) l
    unfold KeyedList.positions at hk
    rw [hk]; exact h)

theorem keymap_keys (h : UniqueKeys key l) : (keymap key l).map Prod.fst = keysOf key l := by
  rw [keymap_eq h, KeyedList.positions_keys]; rfl

theorem lookup_keymap (h : UniqueKeys key l) :
    (keymap key l).lookup k = some i ↔ ∃ r, l[i]? = some r ∧ Rev.keyIn key r = k := by
  rw [keymap_eq h]; exact KeyedList.lookup_positions h

theorem mem_keysOf : k ∈ keysOf key l ↔ ∃ r ∈ l, Rev.keyIn key r = k := by
  unfold keysOf; rw [List.mem_map]

theorem mem_keysOf_iff_getElem? :
    k ∈ keysOf key l ↔ ∃ (i : Nat) (r : Rev), l[i]? = some r ∧ Rev.keyIn key r = k := by
  rw [mem_keysOf]
  constructor
  · rintro ⟨r, hr, hk⟩
    obtain ⟨i, hi⟩ := List.mem_iff_getElem?.mp hr
    exact ⟨i, r, hi, hk⟩
  · rintro ⟨i, r, hi, hk⟩
    exact ⟨r, List.mem_of_getElem? hi, hk⟩

/-- `lst[m[k]]` の位置と版。 -/
def look (l : List Rev) (m : List (Option Value × Nat)) (k : Option Value) : Option (Nat × Rev) :=
  (m.lookup k).bind fun i => (l[i]?).map fun r => (i, r)

/-- 読めたものは、その位置にある。 -/
theorem look_getElem? {m : List (Option Value × Nat)} (h : look l m k = some (i, r)) :
    l[i]? = some r := by
  obtain ⟨j, -, hm⟩ := Option.bind_eq_some_iff.mp h
  obtain ⟨r', hr', he⟩ := Option.map_eq_some_iff.mp hm
  obtain ⟨rfl, rfl⟩ := Prod.mk.inj he
  exact hr'

/-- `lst[keymap[k]]` が読めるのは、その位置にその key の版があるときである。 -/
theorem look_eq_some (h : UniqueKeys key l) :
    look l (keymap key l) k = some (i, r) ↔ l[i]? = some r ∧ Rev.keyIn key r = k := by
  unfold look
  constructor
  · intro hb
    obtain ⟨j, hj, hm⟩ := Option.bind_eq_some_iff.mp hb
    obtain ⟨r', hr', he⟩ := Option.map_eq_some_iff.mp hm
    obtain ⟨rfl, rfl⟩ := Prod.mk.inj he
    obtain ⟨r'', hr'', hk⟩ := (lookup_keymap h).mp hj
    rw [hr'] at hr''
    cases hr''
    exact ⟨hr', hk⟩
  · rintro ⟨hi, hk⟩
    rw [(lookup_keymap h).mpr ⟨r, hi, hk⟩, Option.bind_some, hi]
    rfl

theorem look_ne_none (h : UniqueKeys key l) (hk : k ∈ keysOf key l) :
    look l (keymap key l) k ≠ none := by
  obtain ⟨i, r, hi, hr⟩ := mem_keysOf_iff_getElem?.mp hk
  rw [(look_eq_some h).mpr ⟨hi, hr⟩]
  simp

theorem entryAt_eq (h : UniqueKeys key l) :
    entryAt l (keymap key l) k = some r ↔ r ∈ l ∧ Rev.keyIn key r = k := by
  unfold entryAt
  rw [Option.bind_eq_some_iff]
  constructor
  · rintro ⟨i, hi, hr⟩
    obtain ⟨r', hr', hk⟩ := (lookup_keymap h).mp hi
    rw [hr] at hr'
    cases hr'
    exact ⟨List.mem_of_getElem? hr, hk⟩
  · rintro ⟨hr, hk⟩
    obtain ⟨i, hi⟩ := List.mem_iff_getElem?.mp hr
    exact ⟨i, (lookup_keymap h).mpr ⟨r, hi, hk⟩, hi⟩

/-! ## 変化の読み直し -/

section Changes

variable {lst1 lst2 : List Rev} (h1 : UniqueKeys key lst1) (h2 : UniqueKeys key lst2)

include h1 h2

theorem mem_addedKeys : k ∈ (analyzeChanges key lst1 lst2).addedKeys ↔
    k ∈ keysOf key lst2 ∧ k ∉ keysOf key lst1 := by
  simp [analyzeChanges, keymap_keys h1, keymap_keys h2]

theorem mem_removedKeys : k ∈ (analyzeChanges key lst1 lst2).removedKeys ↔
    k ∈ keysOf key lst1 ∧ k ∉ keysOf key lst2 := by
  simp [analyzeChanges, keymap_keys h1, keymap_keys h2]

/-- 両方にあって hash の違う key。 -/
theorem mem_changedKeys : k ∈ (analyzeChanges key lst1 lst2).changedKeys ↔
    ∃ r1 ∈ lst1, ∃ r2 ∈ lst2, Rev.keyIn key r1 = k ∧ Rev.keyIn key r2 = k ∧
      Rev.hash r1 ≠ Rev.hash r2 := by
  simp only [analyzeChanges, keymap_keys h1, keymap_keys h2, List.mem_filter, decide_eq_true_eq]
  constructor
  · rintro ⟨hk1, hk2, hne⟩
    obtain ⟨r1, hr1, he1⟩ := mem_keysOf.mp hk1
    obtain ⟨r2, hr2, he2⟩ := mem_keysOf.mp hk2
    rw [(entryAt_eq h1).mpr ⟨hr1, he1⟩, (entryAt_eq h2).mpr ⟨hr2, he2⟩] at hne
    exact ⟨r1, hr1, r2, hr2, he1, he2, by simpa using hne⟩
  · rintro ⟨r1, hr1, r2, hr2, he1, he2, hne⟩
    refine ⟨mem_keysOf.mpr ⟨r1, hr1, he1⟩, mem_keysOf.mpr ⟨r2, hr2, he2⟩, ?_⟩
    rw [(entryAt_eq h1).mpr ⟨hr1, he1⟩, (entryAt_eq h2).mpr ⟨hr2, he2⟩]
    simpa using hne

omit h1 in
theorem nodup_addedKeys : (analyzeChanges key lst1 lst2).addedKeys.Nodup := by
  simp only [analyzeChanges, keymap_keys h2]
  exact List.Nodup.filter _ h2

end Changes

/-! ## loop の規則 -/

/-- `None` の `.data` を読んだときの例外。 -/
def noData : Err := .attributeError "'NoneType' object has no attribute 'data'"

section Rules

variable {mergeChild : Rev → Op (Option Rev)} {E : Err → State → Prop}
variable (Inv : List (Option Value) → List (Option Rev) → State → Prop)

theorem ownAdded_wp {m2 : List (Option Value × Nat)}
    (hlook : ∀ k ks l s, Inv (k :: ks) l s → look srcList m2 k = none → E (.keyError "key") s)
    (hstep : ∀ k ks l s idx r, Inv (k :: ks) l s → look srcList m2 k = some (idx, r) →
      wp (mergeChild r) (fun o s' => (o = none → E noData s') ∧
        (o ≠ none → Inv ks (l.set idx o) s')) E s) :
    ∀ ks l ch s, Inv ks l s →
      wp (ownAdded mergeChild srcList m2 ks l ch) (fun p s' => Inv [] p.1 s') E s
  | [], _, _, _, h => h
  | k :: ks, l, ch, s, h => by
    rw [ownAdded, wp_bind]
    refine wp_ofOption (fun p hp => ?_) (hlook k ks l s h)
    rw [wp_bind]
    refine wp_mono (hstep k ks l s p.1 p.2 h hp) (fun o s' ho => ?_) fun _ _ he => he
    cases o with
    | none => exact ho.1 rfl
    | some x => exact ownAdded_wp hlook hstep ks _ _ s' (ho.2 (by simp))

theorem ownChanged_wp {m2 : List (Option Value × Nat)}
    (hlook : ∀ k ks l s, Inv (k :: ks) l s → look srcList m2 k = none → E (.keyError "key") s)
    (hstep : ∀ k ks l s idx r, Inv (k :: ks) l s → look srcList m2 k = some (idx, r) →
      wp (mergeChild r) (fun o s' => Inv ks (l.set idx o) s') E s) :
    ∀ ks l s, Inv ks l s →
      wp (ownChanged mergeChild srcList m2 ks l) (fun l' s' => Inv [] l' s') E s
  | [], _, _, h => h
  | k :: ks, l, s, h => by
    rw [ownChanged, wp_bind]
    refine wp_ofOption (fun p hp => ?_) (hlook k ks l s h)
    rw [wp_bind]
    exact wp_mono (hstep k ks l s p.1 p.2 h hp)
      (fun o s' ho => ownChanged_wp hlook hstep ks _ s' ho) fun _ _ he => he

theorem bothAdded_wp {src dst : AnalyzeChanges}
    (hlook : ∀ k ks l s, Inv (k :: ks) l s → look srcList src.keymap2 k = none →
      E (.keyError "key") s)
    (hboth : ∀ k ks l s c, Inv (k :: ks) l s → look srcList src.keymap2 k = some c →
      k ∈ dst.addedKeys → match look dstList dst.keymap2 k with
        | none => E (.keyError "key") s
        | some d => if Rev.hash d.2 = Rev.hash c.2 then
            wp (mergeChild d.2) (fun _ s' => Inv ks l s') E s
          else E (.mergeConflict "Cannot add because it has been added and different") s)
    (hnew : ∀ k ks l s c, Inv (k :: ks) l s → look srcList src.keymap2 k = some c →
      k ∉ dst.addedKeys → wp (mergeChild c.2) (fun o s' => (o = none → E noData s') ∧
        (o ≠ none → Inv ks (l ++ [o]) s')) E s) :
    ∀ ks l ch s, Inv ks l s →
      wp (bothAdded mergeChild srcList dstList src dst ks l ch) (fun p s' => Inv [] p.1 s') E s
  | [], _, _, _, h => h
  | k :: ks, l, ch, s, h => by
    rw [bothAdded, wp_bind]
    refine wp_ofOption (fun c hc => ?_) (hlook k ks l s h)
    dsimp only
    split
    · next hk =>
      have hd := hboth k ks l s c h hc hk
      rw [wp_bind]
      refine wp_ofOption (fun d hdl => ?_) fun hdl => ?_
      · have hdl' : look dstList dst.keymap2 k = some d := hdl
        rw [hdl'] at hd
        dsimp only at hd ⊢
        split
        · next he =>
          rw [if_pos he] at hd
          rw [wp_bind]
          exact wp_mono hd (fun _ s' hs => bothAdded_wp hlook hboth hnew ks _ _ s' hs)
            fun _ _ he => he
        · next he => rw [if_neg he] at hd; exact hd
      · have hdl' : look dstList dst.keymap2 k = none := hdl
        rw [hdl'] at hd
        exact hd
    · next hk =>
      rw [wp_bind]
      refine wp_mono (hnew k ks l s c h hc hk) (fun o s' ho => ?_) fun _ _ he => he
      cases o with
      | none => exact ho.1 rfl
      | some x => exact bothAdded_wp hlook hboth hnew ks _ _ s' (ho.2 (by simp))

theorem bothChanged_wp {src dst : AnalyzeChanges}
    (hgone : ∀ k ks l s, Inv (k :: ks) l s → k ∈ dst.removedKeys →
      E (.mergeConflict "Cannot change because it has been removed") s)
    (hlook : ∀ k ks l s, Inv (k :: ks) l s → k ∉ dst.removedKeys →
      (look srcList src.keymap2 k = none ∨ look dstList dst.keymap2 k = none) →
      E (.keyError "key") s)
    (hstep : ∀ k ks l s c d, Inv (k :: ks) l s → k ∉ dst.removedKeys →
      look srcList src.keymap2 k = some c → look dstList dst.keymap2 k = some d →
      if k ∈ dst.changedKeys ∧ Rev.hash d.2 = Rev.hash c.2 then
        wp (mergeChild c.2) (fun _ s' => Inv ks l s') E s
      else if k ∈ dst.changedKeys ∧ Rev.config d.2 ≠ Rev.config c.2 then
        E (.mergeConflict "Cannot update because it has been changed and different") s
      else wp (mergeChild c.2) (fun o s' => Inv ks (l.set d.1 o) s') E s) :
    ∀ ks l s, Inv ks l s →
      wp (bothChanged mergeChild srcList dstList src dst ks l) (fun l' s' => Inv [] l' s') E s
  | [], _, _, h => h
  | k :: ks, l, s, h => by
    have next : ∀ {m : Op (Option Rev)} {g : Option Rev → List (Option Rev)} {s : State},
        wp m (fun o s' => Inv ks (g o) s') E s →
        wp (do let o ← m; bothChanged mergeChild srcList dstList src dst ks (g o))
          (fun l' s' => Inv [] l' s') E s := by
      intro m g s hm
      rw [wp_bind]
      exact wp_mono hm (fun o s' ho => bothChanged_wp hgone hlook hstep ks _ s' ho)
        fun _ _ he => he
    rw [bothChanged]
    split
    · next hk => exact hgone k ks l s h hk
    · next hk =>
      rw [wp_bind]
      refine wp_ofOption (fun c hc => ?_) fun hc => hlook k ks l s h hk (Or.inl hc)
      dsimp only
      rw [wp_bind]
      refine wp_ofOption (fun d hd => ?_) fun hd => hlook k ks l s h hk (Or.inr hd)
      have hs := hstep k ks l s c d h hk hc hd
      by_cases hch : k ∈ dst.changedKeys
      · by_cases hh : Rev.hash d.2 = Rev.hash c.2
        · rw [if_pos ⟨hch, hh⟩] at hs
          rw [if_pos hch, if_pos hh]
          exact next (g := fun _ => l) hs
        · rw [if_neg fun hc => hh hc.2] at hs
          rw [if_pos hch, if_neg hh]
          by_cases hcfg : Rev.config d.2 ≠ Rev.config c.2
          · rw [if_pos ⟨hch, hcfg⟩] at hs
            rw [if_pos hcfg]
            exact hs
          · rw [if_neg fun hc => hcfg hc.2] at hs
            rw [if_neg hcfg]
            exact next hs
      · rw [if_neg fun hc => hch hc.1, if_neg fun hc => hch hc.1] at hs
        rw [if_neg hch]
        exact next hs

end Rules

/-- `bothRemoved` は状態を変えない。 -/
theorem bothRemoved_wp {dst : AnalyzeChanges} {E : Err → State → Prop} {s : State}
    (Inv : List (Option Value) → List (Option Rev) → Prop)
    (hconf : ∀ k ks l, Inv (k :: ks) l → k ∈ dst.changedKeys →
      E (.mergeConflict "Cannot remove because it has changed") s)
    (hskip : ∀ k ks l, Inv (k :: ks) l → k ∉ dst.changedKeys → k ∈ dst.removedKeys → Inv ks l)
    (hpop : ∀ k ks l, Inv (k :: ks) l → k ∉ dst.changedKeys → k ∉ dst.removedKeys →
      match dst.keymap2.lookup k with
      | none => E (.keyError "key") s
      | some idx => match l[idx]? with
        | none => E (.indexError "pop index out of range") s
        | some none => E noData s
        | some (some _) => Inv ks (l.eraseIdx idx)) :
    ∀ ks l ch, Inv ks l → wp (bothRemoved dst ks l ch) (fun p s' => Inv [] p.1 ∧ s' = s) E s
  | [], _, _, h => ⟨h, rfl⟩
  | k :: ks, l, ch, h => by
    rw [bothRemoved]
    split
    · next hk => exact hconf k ks l h hk
    · next hk =>
      split
      · next hr => exact bothRemoved_wp Inv hconf hskip hpop ks l ch (hskip k ks l h hk hr)
      · next hr =>
        have hp := hpop k ks l h hk hr
        rw [wp_bind]
        refine wp_ofOption (fun idx hidx => ?_) fun hidx => by rw [hidx] at hp; exact hp
        rw [hidx] at hp
        dsimp only at hp
        cases hl : l[idx]? with
        | none => rw [hl] at hp; exact hp
        | some o =>
          rw [hl] at hp
          cases o with
          | none => exact hp
          | some x => exact bothRemoved_wp Inv hconf hskip hpop ks _ _ hp

end Voltha.Config
