import Mathlib.Data.List.TakeWhile
import Voltha.Config.Properties.KeyedMerge
import Voltha.Lib.Pop

/-!
# key ごとの 3-way merge

keyed な列の merge が、key ごとの 3-way merge になっているのはいつかを決める。

src で消えた key は、**merge 前の dst の列で数えた位置** を順に `pop` して消す。
順番は fork の列の逆順なので、その key が dst でも fork と同じ順に並んでいれば
位置の大きい順になるが、dst で並びが変わっていると別の子が抜けるか、範囲を外れる。

* `KeyWise` — key ごとの 3-way merge の仕様
* `InOrder` — src で消えた key が、dst でも fork の順に並んでいること
* `Collides` / `Overruns` — conflict になる入力と、`pop` が範囲を外れる入力

中身の等しさは、source と同じく hash の等しさで見る。
-/

namespace Voltha.Config

open Exec

/-! ## 仕様 -/

/-- `MergeConflictException` であること。 -/
def Err.IsConflict (e : Err) : Prop := ∃ msg, e = .mergeConflict msg

/-- key `k` の子。 -/
def entryOf (key : String) (l : List Rev) (k : Option Value) : Option Rev :=
  l.find? fun r => Rev.keyIn key r = k

/-- key `k` の子の hash。 -/
def entryHash (key : String) (l : List Rev) (k : Option Value) : Option Hash :=
  (entryOf key l k).map Rev.hash

/-- 二つの列で、key `k` の子は変わっていない。どちらにも無い場合を含む。 -/
def SameEntry (key : String) (l l' : List Rev) (k : Option Value) : Prop :=
  entryHash key l' k = entryHash key l k

/--
key ごとの 3-way merge。

`keys` は `(keys(dst) ∪ added(src)) \ removed(src)` である。
-/
structure KeyWise (key : String) (forkList srcList dstList merged : List Rev) : Prop where
  unique : UniqueKeys key merged
  keys : ∀ k, k ∈ keysOf key merged ↔
    (k ∈ keysOf key dstList ∨ (k ∈ keysOf key srcList ∧ k ∉ keysOf key forkList)) ∧
      ¬(k ∈ keysOf key forkList ∧ k ∉ keysOf key srcList)
  kept : ∀ k, SameEntry key forkList srcList k → SameEntry key dstList merged k
  taken : ∀ k, SameEntry key forkList dstList k → SameEntry key srcList merged k

/-! ## 入力の分類 -/

section Inputs

variable (key : String) (forkList srcList dstList : List Rev)

/-- key `k` は両側で増え、しかも違う。 -/
def AddCollision (k : Option Value) : Prop :=
  k ∈ (analyzeChanges key forkList dstList).addedKeys ∧
    entryHash key dstList k ≠ entryHash key srcList k

/-- src で変わった key `k` は、dst で消えたか、違うように変わった。 -/
def ChangeCollision (k : Option Value) : Prop :=
  k ∈ (analyzeChanges key forkList dstList).removedKeys ∨
    (k ∈ (analyzeChanges key forkList dstList).changedKeys ∧
      entryHash key dstList k ≠ entryHash key srcList k ∧
      (entryOf key dstList k).map Rev.config ≠ (entryOf key srcList k).map Rev.config)

/-- 消える前に見つかる衝突。 -/
def EarlyCollision : Prop :=
  (∃ k ∈ (analyzeChanges key forkList srcList).addedKeys,
      AddCollision key forkList srcList dstList k) ∨
    ∃ k ∈ (analyzeChanges key forkList srcList).changedKeys,
      ChangeCollision key forkList srcList dstList k

/-- src だけで増えた key。 -/
def newKeys : List (Option Value) :=
  (analyzeChanges key forkList srcList).addedKeys.filter fun k =>
    k ∉ (analyzeChanges key forkList dstList).addedKeys

/-- `pop` を試みる key の順。 -/
def removalOrder : List (Option Value) := (analyzeChanges key forkList srcList).removedKeys.reverse

/-- key を、dst の列での位置に直したもの。dst に無い key は飛ばす。 -/
def positionsIn (ks : List (Option Value)) : List Nat :=
  ks.filterMap fun k => (keymap key dstList).lookup k

/-- 衝突が見つかるまでに `pop` する位置。 -/
def popsBefore : List Nat :=
  positionsIn key dstList ((removalOrder key forkList srcList).takeWhile fun k =>
    k ∉ (analyzeChanges key forkList dstList).changedKeys)

/-- `pop` が範囲を外れない。 -/
def PopsInRange : Prop :=
  Pop.InRange (dstList.length + (newKeys key forkList srcList dstList).length)
    (popsBefore key forkList srcList dstList)

/-- 両側が変わった列。 -/
def Diverged : Prop := dstList ≠ srcList ∧ dstList ≠ forkList

/-- src で消えた key は、dst でも fork の順に並んでいる。 -/
def InOrder : Prop :=
  Diverged forkList srcList dstList →
    (positionsIn key dstList (removalOrder key forkList srcList)).Pairwise (· > ·)

instance : Decidable (InOrder key forkList srcList dstList) :=
  inferInstanceAs (Decidable (dstList ≠ srcList ∧ dstList ≠ forkList → List.Pairwise _ _))

/-- conflict になる入力。 -/
def KeyedCollides : Prop :=
  Diverged forkList srcList dstList ∧
    (EarlyCollision key forkList srcList dstList ∨
      ((∃ k ∈ removalOrder key forkList srcList,
          k ∈ (analyzeChanges key forkList dstList).changedKeys) ∧
        PopsInRange key forkList srcList dstList))

/-- `pop` が範囲を外れる入力。 -/
def KeyedOverruns : Prop :=
  Diverged forkList srcList dstList ∧ ¬EarlyCollision key forkList srcList dstList ∧
    ¬PopsInRange key forkList srcList dstList

end Inputs

/-! ## key で引く -/

variable {key : String} {l l' forkList srcList dstList : List Rev} {k : Option Value} {r : Rev}

theorem entryOf_eq_some (h : UniqueKeys key l) :
    entryOf key l k = some r ↔ r ∈ l ∧ Rev.keyIn key r = k := by
  unfold entryOf
  constructor
  · exact fun he => ⟨List.mem_of_find?_eq_some he, by simpa using List.find?_some he⟩
  · rintro ⟨hr, hk⟩
    cases hq : l.find? fun r => Rev.keyIn key r = k with
    | none =>
      rw [List.find?_eq_none] at hq
      exact absurd hk (by simpa using hq r hr)
    | some r' =>
      have hr' := List.mem_of_find?_eq_some hq
      have hk' : Rev.keyIn key r' = k := by simpa using List.find?_some hq
      rw [List.inj_on_of_nodup_map h hr' hr (hk'.trans hk.symm)]

theorem entryHash_of_mem (h : UniqueKeys key l) (hr : r ∈ l) :
    entryHash key l (Rev.keyIn key r) = some (Rev.hash r) := by
  rw [entryHash, (entryOf_eq_some h).mpr ⟨hr, rfl⟩]; rfl

theorem entryHash_eq_none : entryHash key l k = none ↔ k ∉ keysOf key l := by
  rw [entryHash, Option.map_eq_none_iff, entryOf, List.find?_eq_none, mem_keysOf]
  simp

theorem mem_keysOf_congr (h : SameEntry key l l' k) : k ∈ keysOf key l' ↔ k ∈ keysOf key l := by
  rw [← not_iff_not, ← entryHash_eq_none, ← entryHash_eq_none, h]

/-- key も hash も同じ並びの列は、key で引いた hash も同じ。 -/
theorem entryHash_congr (hkeys : keysOf key l = keysOf key l')
    (hhash : l.map Rev.hash = l'.map Rev.hash) : entryHash key l k = entryHash key l' k := by
  induction l generalizing l' with
  | nil =>
    cases l' with
    | nil => rfl
    | cons _ _ => simp at hhash
  | cons r l ih =>
    cases l' with
    | nil => simp at hhash
    | cons r' l' =>
      unfold keysOf at hkeys ih
      simp only [List.map_cons, List.cons.injEq] at hkeys hhash
      have ih' := ih hkeys.2 hhash.2
      unfold entryHash entryOf at ih' ⊢
      rw [List.find?_cons, List.find?_cons, hkeys.1]
      split
      · simp [hhash.1]
      · exact ih'

/-- src で変わった key は、fork と hash が違う。 -/
theorem not_sameEntry_of_changed (h1 : UniqueKeys key forkList) (h2 : UniqueKeys key srcList)
    (hk : k ∈ (analyzeChanges key forkList srcList).changedKeys) :
    ¬SameEntry key forkList srcList k := by
  obtain ⟨r1, hr1, r2, hr2, rfl, hk2, hne⟩ := (mem_changedKeys h1 h2).mp hk
  intro he
  have h2' := entryHash_of_mem h2 hr2
  unfold SameEntry at he
  rw [← hk2, h2', hk2, entryHash_of_mem h1 hr1] at he
  exact hne (Option.some.inj he).symm

/-- 両方にあって変わっていない key。 -/
theorem sameEntry_of_not_changed (h1 : UniqueKeys key forkList) (h2 : UniqueKeys key srcList)
    (hk1 : k ∈ keysOf key forkList) (hk2 : k ∈ keysOf key srcList)
    (hk : k ∉ (analyzeChanges key forkList srcList).changedKeys) :
    SameEntry key forkList srcList k := by
  obtain ⟨r1, hr1, rfl⟩ := mem_keysOf.mp hk1
  obtain ⟨r2, hr2, he⟩ := mem_keysOf.mp hk2
  unfold SameEntry
  rw [entryHash_of_mem h1 hr1, ← he, entryHash_of_mem h2 hr2]
  by_contra hne
  exact hk ((mem_changedKeys h1 h2).mpr
    ⟨r1, hr1, r2, hr2, rfl, he, fun h => hne (by rw [h])⟩)

/-! ## merge_child_func の約束 -/

/--
`merge_child_func` の約束。`I` は呼び出しの間保たれる状態の条件、`R` は例外を投げうること。

子の merge は conflict のほかの例外を投げず、同じ key の版を返す。
dst がその key を変えていなければ、中身は src の子のままである。
-/
def MergesChild (I : State → Prop) (R : Prop) (mergeChild : Rev → Op (Option Rev))
    (key? : Option String) (forkList srcList dstList : List Rev) : Prop :=
  ∀ c ∈ srcList ++ dstList, ∀ s, I s → wp (mergeChild c)
    (fun o s' => I s' ∧ ∃ c', o = some c' ∧ ∀ key, key? = some key →
      Rev.keyIn key c' = Rev.keyIn key c ∧
        (SameEntry key forkList dstList (Rev.keyIn key c) → Rev.hash c' = Rev.hash c))
    (fun e _ => e.IsConflict ∧ R) s

section Field

variable {I : State → Prop} {R : Prop} {mergeChild : Rev → Op (Option Rev)} {key? : Option String}
variable {s : State}

/-- 例外の種類。conflict なら子か、この列の衝突、そうでなければ範囲外の `pop`。 -/
def KeyedError (R : Prop) (key : String) (forkList srcList dstList : List Rev) (e : Err) : Prop :=
  (e.IsConflict ∧ (R ∨ KeyedCollides key forkList srcList dstList)) ∨
    (¬e.IsConflict ∧ KeyedOverruns key forkList srcList dstList)

theorem mapList_merges (h : MergesChild I R mergeChild key? forkList srcList dstList) :
    ∀ (l : List Rev) (s : State), (∀ c ∈ l, c ∈ srcList) → I s →
      wp (Exec.mapList mergeChild l) (fun l' s' => I s' ∧ ∃ m : List Rev, l' = m.map some)
        (fun e _ => e.IsConflict ∧ R) s
  | [], s, _, hI => ⟨hI, [], rfl⟩
  | c :: l, s, hl, hI => by
    rw [Exec.mapList, wp_bind]
    refine wp_mono (h c (List.mem_append_left _ (hl c List.mem_cons_self)) s hI) ?_ fun _ _ h => h
    rintro o s₁ ⟨hI1, c', rfl, -⟩
    rw [wp_bind]
    refine wp_mono (mapList_merges h l s₁ (fun x hx => hl x (List.mem_cons_of_mem _ hx)) hI1) ?_
      fun _ _ h => h
    rintro l' s₂ ⟨hI2, m, rfl⟩
    exact ⟨hI2, c' :: m, rfl⟩

/-! ## dst が変わっていないとき -/

/-- dst が変わっていなければ、列の key も hash も src のものになる。 -/
theorem mergeKeyedOwn_keyWise (hu : UniqueKeys key forkList) (husrc : UniqueKeys key srcList)
    (h : MergesChild I R mergeChild (some key) forkList srcList forkList) (hI : I s) :
    wp (mergeKeyedOwn mergeChild key forkList srcList)
      (fun p s' => I s' ∧ ∃ m : List Rev, p.1 = m.map some ∧ keysOf key m = keysOf key srcList ∧
        m.map Rev.hash = srcList.map Rev.hash)
      (fun e _ => e.IsConflict ∧ R) s := by
  let Inv : List (Option Value) → List (Option Rev) → State → Prop := fun ks l s' =>
    (∀ k ∈ ks, k ∈ keysOf key srcList) ∧ I s' ∧ ∃ m : List Rev, l = m.map some ∧
      keysOf key m = keysOf key srcList ∧ m.map Rev.hash = srcList.map Rev.hash
  have hlook : ∀ {P : Prop} k ks l s₁, Inv (k :: ks) l s₁ →
      look srcList (keymap key srcList) k = none → P := by
    intro P k ks l s₁ hinv hnone
    exact absurd hnone (look_ne_none husrc (hinv.1 k List.mem_cons_self))
  have hstep : ∀ k ks l s₁ idx r, Inv (k :: ks) l s₁ →
      look srcList (keymap key srcList) k = some (idx, r) →
      wp (mergeChild r) (fun o s' => Inv ks (l.set idx o) s' ∧ o ≠ none)
        (fun e _ => e.IsConflict ∧ R) s₁ := by
    rintro k ks l s₁ idx r ⟨hks, hI1, m, rfl, hkeys, hhash⟩ hr
    have hget := look_getElem? hr
    have hset : srcList.set idx r = srcList := by
      obtain ⟨hlt, rfl⟩ := List.getElem?_eq_some_iff.mp hget
      exact List.set_getElem_self hlt
    refine wp_mono (h r (List.mem_append_left _ (List.mem_of_getElem? hget)) s₁ hI1) ?_
      fun _ _ h => h
    rintro o s₂ ⟨hI2, c', rfl, hc'⟩
    obtain ⟨hck, hch⟩ := hc' key rfl
    -- 同じ key・同じ hash のものに差し替えるだけなので、並びは変わらない
    refine ⟨⟨fun k' hk' => hks k' (List.mem_cons_of_mem _ hk'), hI2, m.set idx c', ?_, ?_, ?_⟩,
      by simp⟩
    · rw [List.map_set]
    · unfold keysOf at hkeys ⊢
      rw [List.map_set, hkeys, hck, ← List.map_set, hset]
    · rw [List.map_set, hhash, hch rfl, ← List.map_set, hset]
  unfold mergeKeyedOwn
  rw [wp_bind]
  refine wp_mono (ownAdded_wp Inv (fun k ks l s₁ hi hn => hlook k ks l s₁ hi hn)
    (fun k ks l s₁ idx r hi hr => wp_mono (hstep k ks l s₁ idx r hi hr)
      (fun o s' ho => ⟨fun hn => absurd hn ho.2, fun _ => ho.1⟩) fun _ _ h => h) _ _ [] s
    ⟨fun k hk => ((mem_addedKeys hu husrc).mp hk).1, hI, srcList, rfl, rfl, rfl⟩) ?_ fun _ _ h => h
  rintro p s₁ ⟨-, hI1, hm⟩
  dsimp only
  rw [wp_bind]
  refine wp_mono (ownChanged_wp Inv (fun k ks l s₁ hi hn => hlook k ks l s₁ hi hn)
    (fun k ks l s₁ idx r hi hr => wp_mono (hstep k ks l s₁ idx r hi hr)
      (fun o s' ho => ho.1) fun _ _ h => h) _ _ s₁
    ⟨fun k hk => ?_, hI1, hm⟩) ?_ fun _ _ h => h
  · obtain ⟨-, -, r2, hr2, -, rfl, -⟩ := (mem_changedKeys hu husrc).mp hk
    exact mem_keysOf.mpr ⟨r2, hr2, rfl⟩
  · rintro l s₂ ⟨-, hI2, hm2⟩
    exact ⟨hI2, hm2⟩

theorem keyWise_own {m : List Rev} (husrc : UniqueKeys key srcList)
    (hkeys : keysOf key m = keysOf key srcList) (hhash : m.map Rev.hash = srcList.map Rev.hash) :
    KeyWise key forkList srcList forkList m where
  unique := by unfold UniqueKeys; rw [hkeys]; exact husrc
  keys k := by rw [hkeys]; tauto
  kept k hk := by
    unfold SameEntry at hk ⊢
    rw [entryHash_congr hkeys hhash, hk]
  taken k _ := by
    unfold SameEntry
    rw [entryHash_congr hkeys hhash]

theorem keyWise_same (hudst : UniqueKeys key dstList) :
    KeyWise key forkList dstList dstList dstList where
  unique := hudst
  keys k := by tauto
  kept _ _ := rfl
  taken _ _ := rfl

/-! ## 両側が変わったとき -/

/-- `lst[keymap[k]]` で読めた版は、key `k` の子である。 -/
theorem entryOf_of_look {c : Nat × Rev} (hu : UniqueKeys key l)
    (h : look l (keymap key l) k = some c) : entryOf key l k = some c.2 := by
  obtain ⟨hget, hk⟩ := (look_eq_some hu).mp h
  exact (entryOf_eq_some hu).mpr ⟨List.mem_of_getElem? hget, hk⟩

theorem entryHash_of_look {c : Nat × Rev} (hu : UniqueKeys key l)
    (h : look l (keymap key l) k = some c) : entryHash key l k = some (Rev.hash c.2) := by
  rw [entryHash, entryOf_of_look hu h]; rfl

/-- 処理の済んだ子。src が変えていなければ dst の、dst が変えていなければ src の中身を持つ。 -/
def Settled (key : String) (forkList srcList dstList : List Rev) (r : Rev) : Prop :=
  (SameEntry key forkList srcList (Rev.keyIn key r) →
      entryHash key dstList (Rev.keyIn key r) = some (Rev.hash r)) ∧
    (SameEntry key forkList dstList (Rev.keyIn key r) → Rev.keyIn key r ∈ keysOf key srcList →
      entryHash key srcList (Rev.keyIn key r) = some (Rev.hash r))

/-- 先頭の key が衝突していなければ、残りの key に進める。 -/
theorem visited_cons {P : Option Value → Prop} {keys ks : List (Option Value)} {k : Option Value}
    (hno : ∀ k' ∈ keys, k' ∉ k :: ks → ¬P k') (hk : ¬P k) : ∀ k' ∈ keys, k' ∉ ks → ¬P k' := by
  intro k' hk' hnot
  by_cases he : k' = k
  · rw [he]; exact hk
  · exact hno k' hk' (by simp [he, hnot])

/--
src で変わった key の loop の途中。key の並びは変わらず、まだ処理していない key の子は
dst の子のままである。
-/
structure Changing (key : String) (forkList srcList dstList new : List Rev)
    (ks : List (Option Value)) (m : List Rev) : Prop where
  changed : ∀ k ∈ ks, k ∈ (analyzeChanges key forkList srcList).changedKeys
  visited : ∀ k ∈ (analyzeChanges key forkList srcList).changedKeys, k ∉ ks →
    ¬ChangeCollision key forkList srcList dstList k
  keys : keysOf key m = keysOf key (dstList ++ new)
  settled : ∀ r ∈ m, Settled key forkList srcList dstList r ∨
    (Rev.keyIn key r ∈ ks ∧ entryHash key dstList (Rev.keyIn key r) = some (Rev.hash r))

section Both

variable (hu : UniqueKeys key forkList) (husrc : UniqueKeys key srcList)
variable (hudst : UniqueKeys key dstList)
variable (h : MergesChild I R mergeChild (some key) forkList srcList dstList)

include hu husrc hudst

/-- dst にしか無かった、あるいは src が変えていない子。 -/
theorem settled_of_not_changed (hr : r ∈ dstList)
    (hk : Rev.keyIn key r ∉ (analyzeChanges key forkList srcList).changedKeys) :
    Settled key forkList srcList dstList r := by
  have hdst := entryHash_of_mem hudst hr
  refine ⟨fun _ => hdst, fun hsame hmem => ?_⟩
  have hfork := (mem_keysOf_congr hsame).mp (mem_keysOf.mpr ⟨r, hr, rfl⟩)
  have hsrc := sameEntry_of_not_changed hu husrc hfork hmem hk
  unfold SameEntry at hsame hsrc
  rw [hsrc, ← hsame, hdst]

section Changing

variable {new m : List Rev} {ks : List (Option Value)} {k : Option Value} {c d : Nat × Rev}

theorem Changing.init (hnew : ∀ r ∈ new, Settled key forkList srcList dstList r) :
    Changing key forkList srcList dstList new (analyzeChanges key forkList srcList).changedKeys
      (dstList ++ new) where
  changed _ hk := hk
  visited _ hk hn := absurd hk hn
  keys := rfl
  settled r hr := by
    rcases List.mem_append.mp hr with hr | hr
    · by_cases hk : Rev.keyIn key r ∈ (analyzeChanges key forkList srcList).changedKeys
      · exact Or.inr ⟨hk, entryHash_of_mem hudst hr⟩
      · exact Or.inl (settled_of_not_changed hu husrc hudst hr hk)
    · exact Or.inl (hnew r hr)

omit hudst in
/-- src で変わった key は、src にも fork にもある。 -/
theorem Changing.mem_keysOf (hm : Changing key forkList srcList dstList new (k :: ks) m) :
    k ∈ keysOf key srcList ∧ k ∈ keysOf key forkList := by
  obtain ⟨r1, hr1, r2, hr2, hk1, hk2, -⟩ :=
    (mem_changedKeys hu husrc).mp (hm.changed k List.mem_cons_self)
  exact ⟨Config.mem_keysOf.mpr ⟨r2, hr2, hk2⟩, Config.mem_keysOf.mpr ⟨r1, hr1, hk1⟩⟩

/-- dst で消えていなければ、両方の列から引ける。 -/
theorem Changing.look_ne_none (hm : Changing key forkList srcList dstList new (k :: ks) m)
    (hgone : k ∉ (analyzeChanges key forkList dstList).removedKeys) :
    ¬(look srcList (keymap key srcList) k = none ∨ look dstList (keymap key dstList) k = none) := by
  obtain ⟨hsrc, hfork⟩ := hm.mem_keysOf hu husrc
  rintro (hnone | hnone)
  · exact Config.look_ne_none husrc hsrc hnone
  · refine Config.look_ne_none hudst ?_ hnone
    by_contra hk
    exact hgone ((mem_removedKeys hu hudst).mpr ⟨hfork, hk⟩)

omit hu in
/-- 同じように変わった key は、dst の子のまま。 -/
theorem Changing.keep (hm : Changing key forkList srcList dstList new (k :: ks) m)
    (hgone : k ∉ (analyzeChanges key forkList dstList).removedKeys)
    (hc : look srcList (keymap key srcList) k = some c)
    (hd : look dstList (keymap key dstList) k = some d) (hsame : Rev.hash d.2 = Rev.hash c.2) :
    Changing key forkList srcList dstList new ks m where
  changed k' hk' := hm.changed k' (List.mem_cons_of_mem _ hk')
  visited := visited_cons hm.visited fun hcol => by
    rcases hcol with hrem | ⟨-, hne, -⟩
    · exact hgone hrem
    · exact hne (by rw [entryHash_of_look hudst hd, entryHash_of_look husrc hc, hsame])
  keys := hm.keys
  settled r hr := by
    rcases hm.settled r hr with hs | ⟨hin, hrd⟩
    · exact Or.inl hs
    · by_cases hrk : Rev.keyIn key r = k
      · refine Or.inl ⟨fun _ => hrd, fun _ _ => ?_⟩
        rw [← hrd, hrk, entryHash_of_look husrc hc, entryHash_of_look hudst hd, hsame]
      · exact Or.inr ⟨(List.mem_cons.mp hin).resolve_left hrk, hrd⟩

omit hu husrc in
/-- 差し替える位置の key は `k` である。 -/
theorem Changing.getElem?_keys (hm : Changing key forkList srcList dstList new (k :: ks) m)
    (hd : look dstList (keymap key dstList) k = some d) : (keysOf key m)[d.1]? = some k := by
  obtain ⟨hdget, hdk⟩ := (look_eq_some hudst).mp hd
  rw [hm.keys]
  unfold keysOf
  rw [List.getElem?_map, List.getElem?_append_left (List.getElem?_eq_some_iff.mp hdget).1,
    hdget, Option.map_some, hdk]

/-- 衝突していない key は、src の子を merge したもので差し替える。 -/
theorem Changing.replace (hnd : UniqueKeys key (dstList ++ new))
    (hm : Changing key forkList srcList dstList new (k :: ks) m)
    (hc : look srcList (keymap key srcList) k = some c)
    (hd : look dstList (keymap key dstList) k = some d)
    (hcol : ¬ChangeCollision key forkList srcList dstList k) {c' : Rev}
    (hk' : Rev.keyIn key c' = k)
    (hh' : SameEntry key forkList dstList k → Rev.hash c' = Rev.hash c.2) :
    Changing key forkList srcList dstList new ks (m.set d.1 c') where
  changed k' hk' := hm.changed k' (List.mem_cons_of_mem _ hk')
  visited := visited_cons hm.visited hcol
  keys := by
    have hpos := hm.getElem?_keys hudst hd
    rw [← hm.keys]
    unfold keysOf at hpos ⊢
    obtain ⟨hlt, he⟩ := List.getElem?_eq_some_iff.mp hpos
    rw [List.map_set, hk', ← he, List.set_getElem_self]
  settled r hr := by
    have hpos := hm.getElem?_keys hudst hd
    obtain ⟨j, hj⟩ := List.mem_iff_getElem?.mp hr
    rw [List.getElem?_set] at hj
    split at hj
    · split at hj
      · cases hj
        refine Or.inl ?_
        unfold Settled
        rw [hk']
        refine ⟨fun hs => absurd hs (not_sameEntry_of_changed hu husrc
          (hm.changed k List.mem_cons_self)), fun hs _ => ?_⟩
        rw [hh' hs, entryHash_of_look husrc hc]
      · cases hj
    · next hdj =>
      rcases hm.settled r (List.mem_of_getElem? hj) with hs | ⟨hin, hrd⟩
      · exact Or.inl hs
      · refine Or.inr ⟨(List.mem_cons.mp hin).resolve_left fun hrk => hdj ?_, hrd⟩
        -- 同じ key の子は二つ無い
        have hjk : (keysOf key m)[j]? = some k := by
          unfold keysOf; rw [List.getElem?_map, hj, Option.map_some, hrk]
        have hndm : (keysOf key m).Nodup := by rw [hm.keys]; exact hnd
        exact (List.getElem?_inj (List.getElem?_eq_some_iff.mp hpos).1 hndm).mp
          (hpos.trans hjk.symm)

end Changing

include h

theorem bothAdded_keyWise (hI : I s) :
    wp (bothAdded mergeChild srcList dstList (analyzeChanges key forkList srcList)
        (analyzeChanges key forkList dstList) (analyzeChanges key forkList srcList).addedKeys
        (dstList.map some) [])
      (fun p s' => I s' ∧
        (∀ k ∈ (analyzeChanges key forkList srcList).addedKeys,
          ¬AddCollision key forkList srcList dstList k) ∧
        ∃ new : List Rev, p.1 = (dstList ++ new).map some ∧
          keysOf key new = newKeys key forkList srcList dstList ∧
          ∀ r ∈ new, Settled key forkList srcList dstList r)
      (fun e _ => e.IsConflict ∧ (R ∨ ∃ k ∈ (analyzeChanges key forkList srcList).addedKeys,
        AddCollision key forkList srcList dstList k)) s := by
  set src := analyzeChanges key forkList srcList with hsrc
  set dst := analyzeChanges key forkList dstList with hdst
  let Inv : List (Option Value) → List (Option Rev) → State → Prop := fun ks l s' =>
    I s' ∧ (∀ k ∈ ks, k ∈ src.addedKeys) ∧
      (∀ k ∈ src.addedKeys, k ∉ ks → ¬AddCollision key forkList srcList dstList k) ∧
      ∃ new : List Rev, l = (dstList ++ new).map some ∧
        keysOf key new ++ ks.filter (fun k => k ∉ dst.addedKeys)
          = newKeys key forkList srcList dstList ∧
        ∀ r ∈ new, Settled key forkList srcList dstList r
  refine wp_mono (bothAdded_wp Inv ?_ ?_ ?_ src.addedKeys (dstList.map some) [] s
    ⟨hI, fun k hk => hk, fun k hk hn => absurd hk hn, [], by simp, rfl, by simp⟩) ?_
    fun _ _ h => h
  · rintro k ks l s₁ ⟨-, hks, -⟩ hnone
    have hk := ((mem_addedKeys hu husrc).mp (hks k List.mem_cons_self)).1
    exact absurd hnone (look_ne_none husrc hk)
  · rintro k ks l s₁ c ⟨hI1, hks, hno, new, rfl, hnew, hset⟩ hc hkd
    have hkdst := ((mem_addedKeys hu hudst).mp hkd).1
    have hch := entryHash_of_look husrc hc
    cases hd : look dstList dst.keymap2 k with
    | none => exact absurd hd (look_ne_none hudst hkdst)
    | some d =>
      have hdh := entryHash_of_look hudst hd
      dsimp only
      split
      · next he =>
        refine wp_mono (h d.2 (List.mem_append_right _
          (List.mem_of_getElem? (look_getElem? hd))) s₁ hI1) ?_ fun _ _ hE => ⟨hE.1, Or.inl hE.2⟩
        rintro o s₂ ⟨hI2, -⟩
        refine ⟨hI2, fun k' hk' => hks k' (List.mem_cons_of_mem _ hk'), visited_cons hno ?_, new, rfl, ?_,
          hset⟩
        · exact fun hcol => hcol.2 (by rw [hdh, hch, he])
        · rw [← hnew, List.filter_cons_of_neg (by simpa using hkd)]
      · next he =>
        exact ⟨⟨_, rfl⟩, Or.inr ⟨k, hks k List.mem_cons_self, hkd, by rw [hdh, hch]; simpa using he⟩⟩
  · rintro k ks l s₁ c ⟨hI1, hks, hno, new, rfl, hnew, hset⟩ hc hkd
    obtain ⟨hget, hck⟩ := (look_eq_some husrc).mp hc
    obtain ⟨hksrc, hkfork⟩ := (mem_addedKeys hu husrc).mp (hks k List.mem_cons_self)
    have hkdst : k ∉ keysOf key dstList := fun hk => hkd ((mem_addedKeys hu hudst).mpr ⟨hk, hkfork⟩)
    refine wp_mono (h c.2 (List.mem_append_left _ (List.mem_of_getElem? hget)) s₁ hI1) ?_
      fun _ _ hE => ⟨hE.1, Or.inl hE.2⟩
    rintro o s₂ ⟨hI2, c', rfl, hc'⟩
    obtain ⟨hk', hh'⟩ := hc' key rfl
    rw [hck] at hk' hh'
    refine ⟨fun hn => absurd hn (by simp), fun _ => ⟨hI2,
      fun k' hk' => hks k' (List.mem_cons_of_mem _ hk'), visited_cons hno fun hcol => hkd hcol.1,
      new ++ [c'], by simp, ?_, ?_⟩⟩
    · rw [← hnew, List.filter_cons_of_pos (by simpa using hkd)]
      unfold keysOf
      rw [List.map_append, List.append_assoc, List.map_cons, hk', List.map_nil, List.singleton_append]
    · intro r hr
      rcases List.mem_append.mp hr with hr | hr
      · exact hset r hr
      · rw [List.mem_singleton.mp hr]
        unfold Settled
        rw [hk']
        refine ⟨fun hsame => absurd ((mem_keysOf_congr hsame).mp hksrc) hkfork, fun hsame _ => ?_⟩
        rw [hh' hsame]
        exact entryHash_of_look husrc hc
  · rintro p s' ⟨hI', -, hno, new, hp, hnew, hset⟩
    rw [List.filter_nil, List.append_nil] at hnew
    exact ⟨hI', fun k hk => hno k hk (by simp), new, hp, hnew, hset⟩

theorem bothChanged_keyWise {new : List Rev} (hnd : UniqueKeys key (dstList ++ new))
    (hnew : ∀ r ∈ new, Settled key forkList srcList dstList r) (hI : I s) :
    wp (bothChanged mergeChild srcList dstList (analyzeChanges key forkList srcList)
        (analyzeChanges key forkList dstList) (analyzeChanges key forkList srcList).changedKeys
        ((dstList ++ new).map some))
      (fun l s' => I s' ∧
        (∀ k ∈ (analyzeChanges key forkList srcList).changedKeys,
          ¬ChangeCollision key forkList srcList dstList k) ∧
        ∃ m : List Rev, l = m.map some ∧ keysOf key m = keysOf key (dstList ++ new) ∧
          ∀ r ∈ m, Settled key forkList srcList dstList r)
      (fun e _ => e.IsConflict ∧ (R ∨ ∃ k ∈ (analyzeChanges key forkList srcList).changedKeys,
        ChangeCollision key forkList srcList dstList k)) s := by
  refine wp_mono (bothChanged_wp (fun ks l s' => I s' ∧ ∃ m : List Rev, l = m.map some ∧
    Changing key forkList srcList dstList new ks m) ?_ ?_ ?_ _ ((dstList ++ new).map some) s
    ⟨hI, dstList ++ new, rfl, Changing.init hu husrc hudst hnew⟩) ?_ fun _ _ h => h
  · rintro k ks l s₁ ⟨-, m, -, hm⟩ hgone
    exact ⟨⟨_, rfl⟩, Or.inr ⟨k, hm.changed k List.mem_cons_self, Or.inl hgone⟩⟩
  · rintro k ks l s₁ ⟨-, m, -, hm⟩ hgone hnone
    exact absurd hnone (hm.look_ne_none hu husrc hudst hgone)
  · rintro k ks l s₁ c d ⟨hI1, m, rfl, hm⟩ hgone hc hd
    have hch := entryHash_of_look husrc hc
    have hdh := entryHash_of_look hudst hd
    obtain ⟨hcget, hck⟩ := (look_eq_some husrc).mp hc
    have hchild := h c.2 (List.mem_append_left _ (List.mem_of_getElem? hcget)) s₁ hI1
    split
    · next hsame =>
      refine wp_mono hchild ?_ fun _ _ hE => ⟨hE.1, Or.inl hE.2⟩
      rintro o s₂ ⟨hI2, -⟩
      exact ⟨hI2, m, rfl, hm.keep husrc hudst hgone hc hd hsame.2⟩
    · next hsame =>
      split
      · next hcfg =>
        refine ⟨⟨_, rfl⟩, Or.inr ⟨k, hm.changed k List.mem_cons_self, Or.inr ⟨hcfg.1, ?_, ?_⟩⟩⟩
        · rw [hdh, hch]
          exact fun he => hsame ⟨hcfg.1, Option.some.inj he⟩
        · rw [entryOf_of_look hudst hd, entryOf_of_look husrc hc]
          exact fun he => hcfg.2 (Option.some.inj he)
      · next hcfg =>
        refine wp_mono hchild ?_ fun _ _ hE => ⟨hE.1, Or.inl hE.2⟩
        rintro o s₂ ⟨hI2, c', rfl, hc'⟩
        obtain ⟨hk', hh'⟩ := hc' key rfl
        rw [hck] at hk' hh'
        refine ⟨hI2, m.set d.1 c', by rw [List.map_set],
          hm.replace hu husrc hudst hnd hc hd ?_ hk' hh'⟩
        rintro (hrem | ⟨hdch, hne, hcf⟩)
        · exact hgone hrem
        · rw [entryOf_of_look hudst hd, entryOf_of_look husrc hc] at hcf
          exact hcfg ⟨hdch, fun he => hcf (by simp [he])⟩
  · rintro l s' ⟨hI', m, hl, hm⟩
    refine ⟨hI', fun k hk => hm.visited k hk (by simp), m, hl, hm.keys, fun r hr => ?_⟩
    exact (hm.settled r hr).resolve_right fun hin => by simp at hin

omit h

/-! ### 消えた key -/

omit husrc in
/-- 位置で `pop` していく loop は、`Pop.popAll` である。 -/
theorem bothRemoved_keyWise {ks : List (Option Value)} (hks : ∀ k ∈ ks, k ∈ keysOf key forkList)
    (m : List Rev) (ch : List Change) :
    wp (bothRemoved (analyzeChanges key forkList dstList) ks (m.map some) ch)
      (fun p s' => s' = s ∧ (∀ k ∈ ks, k ∉ (analyzeChanges key forkList dstList).changedKeys) ∧
        ∃ m' : List Rev, p.1 = m'.map some ∧ Pop.popAll m (positionsIn key dstList ks) = some m')
      (fun e _ =>
        let pops := positionsIn key dstList (ks.takeWhile fun k =>
          k ∉ (analyzeChanges key forkList dstList).changedKeys)
        (e.IsConflict ∧ (∃ k ∈ ks, k ∈ (analyzeChanges key forkList dstList).changedKeys) ∧
          Pop.InRange m.length pops) ∨ (¬e.IsConflict ∧ ¬Pop.InRange m.length pops)) s := by
  set dst := analyzeChanges key forkList dstList with hdst
  let Inv : List (Option Value) → List (Option Rev) → Prop := fun rest l =>
    ∃ done, ks = done ++ rest ∧ (∀ k ∈ done, k ∉ dst.changedKeys) ∧
      ∃ m' : List Rev, l = m'.map some ∧ Pop.popAll m (positionsIn key dstList done) = some m'
  have hwhile : ∀ done rest : List (Option Value), (∀ k ∈ done, k ∉ dst.changedKeys) →
      (done ++ rest).takeWhile (fun k => k ∉ dst.changedKeys)
        = done ++ rest.takeWhile fun k => k ∉ dst.changedKeys := fun done rest hd =>
    List.takeWhile_append_of_pos fun k hk => by simpa using hd k hk
  refine wp_mono (bothRemoved_wp Inv ?_ ?_ ?_ ks (m.map some) ch
    ⟨[], rfl, by simp, m, rfl, rfl⟩) ?_ fun _ _ h => h
  · rintro k rest l ⟨done, rfl, hd, m', rfl, hpop⟩ hk
    refine Or.inl ⟨⟨_, rfl⟩, ⟨k, by simp, hk⟩, ?_⟩
    rw [hwhile done _ hd, List.takeWhile_cons_of_neg (by simpa using hk), List.append_nil,
      ← Pop.popAll_isSome, hpop]
    rfl
  · rintro k rest l ⟨done, rfl, hd, m', rfl, hpop⟩ hk hrem
    refine ⟨done ++ [k], by simp, fun k' hk' => ?_, m', rfl, ?_⟩
    · rcases List.mem_append.mp hk' with h | h
      · exact hd k' h
      · rw [List.mem_singleton.mp h]; exact hk
    · -- dst に無い key は位置を持たない
      have hnone : (keymap key dstList).lookup k = none := by
        rw [List.lookup_eq_none_iff]
        intro p hp
        have hmem : p.1 ∈ keysOf key dstList := by
          rw [← keymap_keys hudst]; exact List.mem_map.mpr ⟨p, hp, rfl⟩
        have hne : k ≠ p.1 := fun he => ((mem_removedKeys hu hudst).mp hrem).2 (he ▸ hmem)
        simpa using hne
      rw [← hpop]
      unfold positionsIn
      simp only [List.filterMap_append, List.filterMap_cons, hnone, List.filterMap_nil,
        List.append_nil]
  · rintro k rest l ⟨done, rfl, hd, m', rfl, hpop⟩ hk hrem
    have hkdst : k ∈ keysOf key dstList := by
      by_contra hno
      exact hrem ((mem_removedKeys hu hudst).mpr ⟨hks k (by simp), hno⟩)
    obtain ⟨i, r, hi, hr⟩ := mem_keysOf_iff_getElem?.mp hkdst
    have hlook : (keymap key dstList).lookup k = some i := (lookup_keymap hudst).mpr ⟨r, hi, hr⟩
    have hpos : ∀ more, positionsIn key dstList (done ++ k :: more)
        = positionsIn key dstList done ++ i :: positionsIn key dstList more := fun more => by
      unfold positionsIn
      simp only [List.filterMap_append, List.filterMap_cons, hlook]
    have hidx : dst.keymap2.lookup k = some i := hlook
    rw [hidx]
    dsimp only
    cases hget : (m'.map some)[i]? with
    | none =>
      refine Or.inr ⟨(by rintro ⟨_, he⟩; cases he), ?_⟩
      rw [hwhile done _ hd, List.takeWhile_cons_of_pos (by simpa using hk), hpos,
        ← Pop.popAll_isSome, Pop.popAll_append, hpop, Option.bind_some, Pop.popAll, if_neg]
      · simp
      · simpa using hget
    | some o =>
      rw [List.getElem?_map, Option.map_eq_some_iff] at hget
      obtain ⟨x, hx, rfl⟩ := hget
      refine ⟨done ++ [k], by simp, fun k' hk' => ?_, m'.eraseIdx i, by rw [List.eraseIdx_map], ?_⟩
      · rcases List.mem_append.mp hk' with h | h
        · exact hd k' h
        · rw [List.mem_singleton.mp h]; exact hk
      · rw [hpos, Pop.popAll_append, hpop, Option.bind_some, Pop.popAll,
          if_pos (List.getElem?_eq_some_iff.mp hx).1]
        rfl
  · rintro p s' ⟨⟨done, hdone, hd, m', hp, hpop⟩, rfl⟩
    rw [List.append_nil] at hdone
    exact ⟨rfl, hdone ▸ hd, m', hp, hdone ▸ hpop⟩

/-- 数えておいた位置は重ならず、そこには src で消えた key の子がある。 -/
theorem mem_removalPositions {i : Nat} :
    i ∈ positionsIn key dstList (removalOrder key forkList srcList) ↔
      ∃ r, dstList[i]? = some r ∧ Rev.keyIn key r ∈ keysOf key forkList ∧
        Rev.keyIn key r ∉ keysOf key srcList := by
  unfold positionsIn removalOrder
  simp only [List.mem_filterMap, List.mem_reverse, mem_removedKeys hu husrc, lookup_keymap hudst]
  constructor
  · rintro ⟨k, hk, r, hr, rfl⟩
    exact ⟨r, hr, hk⟩
  · rintro ⟨r, hr, hk⟩
    exact ⟨_, hk, r, hr, rfl⟩

omit husrc in
theorem nodup_removalPositions :
    (positionsIn key dstList (removalOrder key forkList srcList)).Nodup := by
  unfold positionsIn removalOrder
  refine List.Nodup.filterMap ?_ (List.nodup_reverse.mpr ?_)
  · intro k k' i hk hk'
    obtain ⟨r, hr, rfl⟩ := (lookup_keymap hudst).mp hk
    obtain ⟨r', hr', rfl⟩ := (lookup_keymap hudst).mp hk'
    rw [hr] at hr'
    rw [Option.some.inj hr']
  · simp only [analyzeChanges, keymap_keys hu]
    exact List.Nodup.filter _ hu

/-- **位置の大きい順に並ぶことと、key ごとの 3-way merge になることは同じ。** -/
theorem keyWise_iff_pairwise {m m' : List Rev}
    (hkeys : keysOf key m = keysOf key dstList ++ newKeys key forkList srcList dstList)
    (hset : ∀ r ∈ m, Settled key forkList srcList dstList r) (hnd : UniqueKeys key m)
    (hpop : Pop.popAll m (positionsIn key dstList (removalOrder key forkList srcList)) = some m') :
    (positionsIn key dstList (removalOrder key forkList srcList)).Pairwise (· > ·) ↔
      KeyWise key forkList srcList dstList m' := by
  have hlen : dstList.length ≤ m.length := by
    have := congrArg List.length hkeys
    unfold keysOf at this
    rw [List.length_append, List.length_map, List.length_map] at this
    omega
  have hlt : ∀ i ∈ positionsIn key dstList (removalOrder key forkList srcList), i < m.length := by
    intro i hi
    obtain ⟨r, hr, -⟩ := (mem_removalPositions hu husrc hudst).mp hi
    have := (List.getElem?_eq_some_iff.mp hr).1
    omega
  -- その位置の子の key は、dst のものと同じ
  have hat : ∀ {i : Nat} {r a : Rev}, dstList[i]? = some r → m[i]? = some a →
      Rev.keyIn key a = Rev.keyIn key r := by
    intro i r a hr ha
    have h1 : (keysOf key m)[i]? = some (Rev.keyIn key a) := by
      unfold keysOf; rw [List.getElem?_map, ha]; rfl
    have h2 : (keysOf key dstList)[i]? = some (Rev.keyIn key r) := by
      unfold keysOf; rw [List.getElem?_map, hr]; rfl
    rw [hkeys, List.getElem?_append_left (List.getElem?_eq_some_iff.mp h2).1, h2] at h1
    exact (Option.some.inj h1).symm
  constructor
  · intro hpw
    have hmem := Pop.mem_popAll_of_pairwise (List.Nodup.of_map _ hnd) hpw hpop
    have hsub := Pop.popAll_sublist hpop
    have hunique : UniqueKeys key m' := List.Nodup.sublist (hsub.map _) hnd
    have hmk : ∀ k, k ∈ keysOf key m' ↔
        (k ∈ keysOf key dstList ∨ (k ∈ keysOf key srcList ∧ k ∉ keysOf key forkList)) ∧
          ¬(k ∈ keysOf key forkList ∧ k ∉ keysOf key srcList) := by
      intro k
      have hkm : k ∈ keysOf key m ↔
          k ∈ keysOf key dstList ∨ (k ∈ keysOf key srcList ∧ k ∉ keysOf key forkList) := by
        rw [hkeys, List.mem_append, newKeys, List.mem_filter, mem_addedKeys hu husrc]
        simp only [decide_not, Bool.not_eq_eq_eq_not, Bool.not_true, decide_eq_false_iff_not,
          mem_addedKeys hu hudst]
        tauto
      rw [← hkm]
      constructor
      · intro hk
        obtain ⟨r, hr, rfl⟩ := mem_keysOf.mp hk
        obtain ⟨hrm, hno⟩ := (hmem r).mp hr
        refine ⟨mem_keysOf.mpr ⟨r, hrm, rfl⟩, fun hrem => ?_⟩
        -- 消えるはずの key が残っているなら、その位置は `pop` されている
        have hd : Rev.keyIn key r ∈ keysOf key dstList :=
          (hkm.mp (mem_keysOf.mpr ⟨r, hrm, rfl⟩)).resolve_right fun h => h.2 hrem.1
        obtain ⟨i, d, hi, hdk⟩ := mem_keysOf_iff_getElem?.mp hd
        have hil : i < m.length := by
          have := (List.getElem?_eq_some_iff.mp hi).1
          omega
        have hmi : m[i]? = some m[i] := List.getElem?_eq_getElem hil
        have hsame : m[i] = r := List.inj_on_of_nodup_map hnd (List.getElem_mem hil) hrm
          ((hat hi hmi).trans hdk)
        exact hno i ((mem_removalPositions hu husrc hudst).mpr ⟨d, hi, hdk ▸ hrem⟩)
          (by rw [hmi, hsame])
      · rintro ⟨hk, hrem⟩
        obtain ⟨r, hr, rfl⟩ := mem_keysOf.mp hk
        refine mem_keysOf.mpr ⟨r, (hmem r).mpr ⟨hr, fun i hi ha => hrem ?_⟩, rfl⟩
        obtain ⟨d, hd, hdrem⟩ := (mem_removalPositions hu husrc hudst).mp hi
        rw [hat hd ha]
        exact hdrem
    refine ⟨hunique, hmk, fun k hsame => ?_, fun k hsame => ?_⟩
    · have hk := mem_keysOf_congr hsame
      by_cases hin : k ∈ keysOf key m'
      · obtain ⟨r, hr, rfl⟩ := mem_keysOf.mp hin
        unfold SameEntry
        rw [entryHash_of_mem hunique hr, (hset r (hsub.subset hr)).1 hsame]
      · unfold SameEntry
        rw [entryHash_eq_none.mpr hin, eq_comm, entryHash_eq_none]
        rw [hmk] at hin
        tauto
    · have hk := mem_keysOf_congr hsame
      by_cases hin : k ∈ keysOf key m'
      · obtain ⟨r, hr, rfl⟩ := mem_keysOf.mp hin
        unfold SameEntry
        rw [entryHash_of_mem hunique hr, (hset r (hsub.subset hr)).2 hsame]
        rw [hmk] at hin
        tauto
      · unfold SameEntry
        rw [entryHash_eq_none.mpr hin, eq_comm, entryHash_eq_none]
        rw [hmk] at hin
        tauto
  · intro hkw
    refine Pop.pairwise_of_popAll (nodup_removalPositions hu hudst) hlt hpop ?_
    intro a ha i hi hma
    obtain ⟨r, hr, hrem⟩ := (mem_removalPositions hu husrc hudst).mp hi
    have hk := (hkw.keys (Rev.keyIn key a)).mp (mem_keysOf.mpr ⟨a, ha, rfl⟩)
    rw [hat hr hma] at hk
    exact hk.2 hrem

include h

theorem mergeKeyedBoth_keyWise (hdiv : Diverged forkList srcList dstList) (hI : I s) :
    wp (mergeKeyedBoth mergeChild key forkList srcList dstList)
      (fun p s' => I s' ∧ ¬KeyedCollides key forkList srcList dstList ∧
        ¬KeyedOverruns key forkList srcList dstList ∧ ∃ m : List Rev, p.1 = m.map some ∧
          (InOrder key forkList srcList dstList ↔ KeyWise key forkList srcList dstList m))
      (fun e _ => KeyedError R key forkList srcList dstList e) s := by
  unfold mergeKeyedBoth
  rw [wp_bind]
  refine wp_mono (bothAdded_keyWise hu husrc hudst h hI) ?_ fun e _ hE =>
    Or.inl ⟨hE.1, hE.2.imp_right fun hc => ⟨hdiv, Or.inl (Or.inl hc)⟩⟩
  rintro ⟨l1, ch1⟩ s₁ ⟨hI1, hadd, new, hl1, hnew, hset1⟩
  subst hl1
  have hkeys1 : keysOf key (dstList ++ new)
      = keysOf key dstList ++ newKeys key forkList srcList dstList := by
    rw [← hnew]; unfold keysOf; rw [List.map_append]
  have hnd : UniqueKeys key (dstList ++ new) := by
    unfold UniqueKeys
    rw [hkeys1, List.nodup_append]
    refine ⟨hudst, List.Nodup.filter _ (nodup_addedKeys husrc), ?_⟩
    rintro k hk k' hk' rfl
    obtain ⟨hka, hkd⟩ := List.mem_filter.mp hk'
    simp only [decide_eq_true_eq] at hkd
    exact hkd ((mem_addedKeys hu hudst).mpr ⟨hk, ((mem_addedKeys hu husrc).mp hka).2⟩)
  dsimp only
  rw [wp_bind]
  refine wp_mono (bothChanged_keyWise hu husrc hudst h hnd hset1 hI1) ?_ fun e _ hE =>
    Or.inl ⟨hE.1, hE.2.imp_right fun hc => ⟨hdiv, Or.inl (Or.inr hc)⟩⟩
  rintro l2 s₂ ⟨hI2, hchg, m, rfl, hkeys2, hset2⟩
  have hearly : ¬EarlyCollision key forkList srcList dstList := by
    rintro (⟨k, hk, hc⟩ | ⟨k, hk, hc⟩)
    · exact hadd k hk hc
    · exact hchg k hk hc
  have hkeys := hkeys2.trans hkeys1
  have hlen : m.length = dstList.length + (newKeys key forkList srcList dstList).length := by
    have := congrArg List.length hkeys
    unfold keysOf at this
    rwa [List.length_append, List.length_map, List.length_map] at this
  have hks : ∀ k ∈ removalOrder key forkList srcList, k ∈ keysOf key forkList := fun k hk =>
    ((mem_removedKeys hu husrc).mp (List.mem_reverse.mp hk)).1
  refine wp_mono (bothRemoved_keyWise hu hudst hks m ch1) ?_ fun e _ hE => ?_
  · rintro p s' ⟨rfl, hclean, m', hp, hpop⟩
    have hrange : PopsInRange key forkList srcList dstList := by
      unfold PopsInRange popsBefore
      rw [List.takeWhile_eq_self_iff.mpr fun k hk => by simpa using hclean k hk, ← hlen,
        ← Pop.popAll_isSome, hpop]
      rfl
    have hndm : UniqueKeys key m := by unfold UniqueKeys; rw [hkeys2]; exact hnd
    refine ⟨hI2, ?_, fun ho => ho.2.2 hrange, m', hp, ?_⟩
    · rintro ⟨-, hc | ⟨⟨k, hk, hkc⟩, -⟩⟩
      · exact hearly hc
      · exact hclean k hk hkc
    · rw [← keyWise_iff_pairwise hu husrc hudst hkeys hset2 hndm hpop]
      exact ⟨fun ho => ho hdiv, fun ho _ => ho⟩
  · dsimp only at hE
    rw [hlen] at hE
    rcases hE with ⟨hc, hk, hr⟩ | ⟨hc, hr⟩
    · exact Or.inl ⟨hc, Or.inr ⟨hdiv, Or.inr ⟨hk, hr⟩⟩⟩
    · exact Or.inr ⟨hc, hdiv, hearly, hr⟩

end Both

end Field

end Voltha.Config
