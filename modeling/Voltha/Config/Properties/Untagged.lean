import Voltha.Config.Properties.Isolation

/-!
# 版の枝

版は、自分を作った branch（`_branch`）を覚えている。transaction `t` の枝で作られた版は、
`t` の branch から見える木にしか現れない（`Clean`）。

* 枝分かれの起点は commit された最新の版である
* 版を作り直すとき、枝は据える branch のものになり、子は同じ branch から見える版になる
* 別の transaction の merge は、その枝と commit された branch の版だけから新しい版を組み立てる
-/

namespace Voltha.Config

open Exec

variable {S : Schema} {κ : Mode} {X : State → Rev → Prop}
variable {s s' s₁ : State} {n : NodeId} {k : Option TxId} {b : Branch} {t : TxId}
variable {Ok : List Seg → Act → Prop} {route : List Seg} {res : Except Err Rev}

/-- 版のどこにも、transaction `t` の枝の版が無い。 -/
def Untagged (t : TxId) (r : Rev) : Prop := ∀ r', FieldTree.Sub r' r → Rev.tag r' ≠ .tx t

/-- `t` の branch 以外の最新の版に、`t` の枝の版は現れない。 -/
def Clean (t : TxId) (s : State) : Prop :=
  ∀ n k b, k ≠ some t → (s.node n).branches k = some b → Untagged t b.latest

theorem Untagged.child {r c : Rev} {name : String} (h : Untagged t r) (hc : c ∈ r.child name) :
    Untagged t c := fun r' hr => h r' (hr.trans (FieldTree.Sub.of_mem_child hc))

theorem untagged_mk {i : RevInfo} {cs : List (String × List Rev)} :
    Untagged t (.mk i cs) ↔ i.tag ≠ .tx t ∧ ∀ p ∈ cs, ∀ c ∈ p.2, Untagged t c := by
  constructor
  · intro h
    refine ⟨h _ (FieldTree.Sub.refl _), fun p hp c hc r' hr => h r' ?_⟩
    exact FieldTree.sub_mk_iff.mpr (Or.inr ⟨p.1, p.2, c, hp, hc, hr⟩)
  · rintro ⟨htag, hcs⟩ r' hr
    rcases FieldTree.sub_mk_iff.mp hr with rfl | ⟨g, l, c, hg, hc, hsub⟩
    · exact htag
    · exact hcs (g, l) hg c hc r' hsub

theorem Untagged.children {r : Rev} (h : Untagged t r) : ∀ p ∈ r.children, ∀ c ∈ p.2, Untagged t c := by
  obtain ⟨i, cs⟩ := r
  exact (untagged_mk.mp h).2

/-- 一つの field の列を差し替えた子の辞書。 -/
theorem Untagged.setField {r : Rev} (h : Untagged t r) {f : String} {l : List Rev}
    (hl : ∀ c ∈ l, Untagged t c) :
    ∀ p ∈ FieldTree.setField r.children f l, ∀ c ∈ p.2, Untagged t c := by
  rintro ⟨g, m⟩ hp c hc
  rcases FieldTree.mem_setField hp with ⟨-, rfl⟩ | ⟨-, hm⟩
  · exact hl c hc
  · exact h.children (g, m) hm c hc

theorem TagOk.ne_tx {tag : BranchTag} (h : TagOk k tag) (hk : k ≠ some t) : tag ≠ .tx t := by
  cases k with
  | none => exact h t
  | some t' =>
    have h : tag = .tx t' := h
    rintro rfl
    exact hk (congrArg some (BranchTag.tx.inj h).symm)

/-! ## branch の書き換え -/

theorem Clean.of_node (hc : Clean t s) (h : s'.node = s.node) : Clean t s' := by
  intro m k' b' hk' hb'
  rw [h] at hb'
  exact hc m k' b' hk' hb'

theorem Clean.setBranch (hc : Clean t s) {o : Option Branch}
    (hnode : s'.node = (s.setBranch n k o).node)
    (ho : k ≠ some t → ∀ b', o = some b' → Untagged t b'.latest) : Clean t s' := by
  intro m k' b' hk' hb'
  rw [hnode, setBranch_branches] at hb'
  split at hb'
  · next he =>
    obtain ⟨rfl, rfl⟩ := he
    exact ho hk' b' hb'
  · exact hc m k' b' hk' hb'

theorem Clean.latest (hc : Clean t s) {point : Rev} (hp : s.latest? n = some point) :
    Untagged t point := by
  unfold State.latest? at hp
  obtain ⟨b, hb, rfl⟩ := Option.map_eq_some_iff.mp hp
  exact hc n none b (by simp) hb

theorem branchFor_clean (hc : Clean t s) (h : branchFor n k s = (.ok b, s₁)) :
    Clean t s₁ ∧ (k ≠ some t → Untagged t b.latest) := by
  rcases branchFor_cases h with ⟨hb, rfl⟩ | ⟨t', point, rfl, -, hp, rfl, rfl⟩
  · exact ⟨hc, fun hk => hc n k b hk hb⟩
  · have hpoint := hc.latest hp
    refine ⟨hc.setBranch (o := some (forkBranch t' point)) rfl ?_, fun _ => hpoint⟩
    rintro - b' ⟨rfl⟩
    exact hpoint

/-- 版を作り直して据える。 -/
theorem replaceLatest_clean (hc : Clean t s) {config : Data} {children : List (String × List Rev)}
    {anns : List (CallbackType × Context)} {r : Rev} (htag : TagOk k b.tag)
    (hch : k ≠ some t → ∀ p ∈ children, ∀ c ∈ p.2, Untagged t c)
    (h : replaceLatest n k b config children anns s = (.ok r, s')) :
    Clean t s' ∧ (k ≠ some t → Untagged t r) := by
  obtain ⟨hr, -, -, hnode⟩ := replaceLatest_spec h
  have hun : k ≠ some t → Untagged t r := by
    intro hk
    rw [hr, untagged_mk]
    exact ⟨htag.ne_tx hk, hch hk⟩
  refine ⟨hc.setBranch hnode ?_, hun⟩
  rintro hk b' ⟨rfl⟩
  exact hun hk

/-! ## node の生成 -/

theorem wp_newRev {tag : BranchTag} {store : StoreRef} {config : Data}
    {children : List (String × List Rev)} {Q : Rev → State → Prop} {E : Err → State → Prop} :
    wp (newRev n tag store config children) Q E s ↔
      Q (.mk { uid := s.nextUid, node := n, tag, store, config } children)
        (State.finalizeRev { s with nextUid := s.nextUid + 1 }
          (.mk { uid := s.nextUid, node := n, tag, store, config } children)) := Iff.rfl

theorem wp_makeLatest {r : Rev} {anns : List (CallbackType × Context)} {Q : Unit → State → Prop}
    {E : Err → State → Prop} :
    wp (makeLatest n k b r anns) Q E s ↔ Q () (makeLatest n k b r anns s).2 := Iff.rfl

theorem newNode_clean (hc : Clean t s) (type : String) (slot : Option Slot) :
    Clean t (newNode type slot s).2 := by
  intro m k' b' hk' hb'
  exact hc m k' b' hk' (newNode_branches type slot s m k' hb')

theorem installFirst_clean (hc : Clean t s) {d : Data} {l : List (String × List Rev)}
    (hl : ∀ p ∈ l, ∀ c ∈ p.2, Untagged t c) :
    wp (installFirst n d l) (fun r s' => Clean t s' ∧ Untagged t r) (fun _ s' => Clean t s') s := by
  unfold installFirst mkrev
  rw [wp_bind, wp_bind, wp_read, wp_newRev, wp_bind, wp_read, wp_bind, wp_makeLatest]
  have hun : Untagged t (.mk { uid := s.nextUid, node := n, tag := .committed
                               store := s.storeRef, config := d } l) :=
    untagged_mk.mpr ⟨by simp, hl⟩
  have hc1 : Clean t (State.finalizeRev { s with nextUid := s.nextUid + 1 }
      (.mk { uid := s.nextUid, node := n, tag := .committed, store := s.storeRef, config := d } l)) :=
    hc.of_node (finalizeRev_node _ _)
  refine ⟨hc1.setBranch (makeLatest_node n none _ _ [] _) ?_, hun⟩
  rintro - b' ⟨rfl⟩
  exact hun

mutual

/-- 作られた node の版は、どの transaction の枝のものでもない。 -/
theorem mknode_clean (S : Schema) (t : TxId) : ∀ (m : Msg) (slot : Option Slot) (s : State),
    Clean t s →
    wp (mknode S m slot) (fun r s' => Clean t s' ∧ Untagged t r) (fun _ s' => Clean t s') s
  | .mk d cs, slot, s, hc => by
    rw [mknode_mk, wp_bind]
    show wp (mknodeFields S s.nextNode d.type cs >>= _) _ _ (newNode d.type slot s).2
    rw [wp_bind]
    refine wp_mono (mknodeFields_clean S t s.nextNode d.type cs _ (newNode_clean hc d.type slot)) ?_
      fun _ _ h => h
    exact fun l s₁ h => installFirst_clean h.1 h.2

theorem mknodeFields_clean (S : Schema) (t : TxId) (n : NodeId) (ty : String) :
    ∀ (cs : List (String × List Msg)) (s : State), Clean t s →
    wp (mknodeFields S n ty cs)
      (fun l s' => Clean t s' ∧ ∀ p ∈ l, ∀ c ∈ p.2, Untagged t c) (fun _ s' => Clean t s') s
  | [], s, hc => by rw [mknodeFields]; exact ⟨hc, by simp⟩
  | (name, ms) :: cs, s, hc => by
    rw [mknodeFields, wp_bind]
    refine wp_mono (mknodeList_clean S t n name _ [] ms s hc) ?_ fun _ _ h => h
    rintro l s₁ ⟨hc1, hl⟩
    rw [wp_bind]
    refine wp_mono (mknodeFields_clean S t n ty cs s₁ hc1) ?_ fun _ _ h => h
    rintro rest s₂ ⟨hc2, hrest⟩
    refine ⟨hc2, fun p hp => ?_⟩
    rcases List.mem_cons.mp hp with rfl | hp
    · exact hl
    · exact hrest p hp

theorem mknodeList_clean (S : Schema) (t : TxId) (n : NodeId) (name : String) :
    ∀ (key : Option String) (seen : List Value) (ms : List Msg) (s : State), Clean t s →
    wp (mknodeList S n name key seen ms)
      (fun l s' => Clean t s' ∧ ∀ c ∈ l, Untagged t c) (fun _ s' => Clean t s') s
  | key, seen, [], s, hc => by rw [mknodeList]; exact ⟨hc, by simp⟩
  | key, seen, m :: ms, s, hc => by
    -- 残りの列を作ってから、先頭に継ぎ足す
    have rest : ∀ (key : Option String) (seen : List Value) (r : Rev) (s₁ : State),
        Clean t s₁ ∧ Untagged t r →
        wp (do let rest ← mknodeList S n name key seen ms; pure (r :: rest))
          (fun l s' => Clean t s' ∧ ∀ c ∈ l, Untagged t c) (fun _ s' => Clean t s') s₁ := by
      rintro key seen r s₁ ⟨hc1, hr⟩
      rw [wp_bind]
      refine wp_mono (mknodeList_clean S t n name key seen ms s₁ hc1) ?_ fun _ _ h => h
      rintro l s₂ ⟨hc2, hl⟩
      refine ⟨hc2, fun c hc => ?_⟩
      rcases List.mem_cons.mp hc with rfl | hc
      · exact hr
      · exact hl c hc
    rw [mknodeList, wp_bind]
    refine wp_mono (mknode_clean S t m _ s hc) ?_ fun _ _ h => h
    rintro r s₁ h1
    cases key with
    | none => exact rest none seen r s₁ h1
    | some k =>
      dsimp only
      rw [wp_bind]
      refine wp_ofOption (fun v _ => ?_) fun _ => h1.1
      split
      · exact h1.1
      · exact rest (some k) (v :: seen) r s₁ h1

end

/-! ## update / add / remove -/

theorem Effect.clean (hX : Closed X) (h : Effect S k Ok route n s res s') :
    Good S κ X s → Alive s n → Clean t s →
      Clean t s' ∧ (k ≠ some t → ∀ r, res = .ok r → Untagged t r) := by
  induction h with
  | fail e h =>
    intro hg hn hc
    refine ⟨?_, fun _ r hr => by cases hr⟩
    rcases h with rfl | rfl
    · exact hc
    · obtain ⟨b, s₁, hb⟩ := branchFor_isOk hn k
      rw [hb]
      exact (branchFor_clean hc hb).1
  | same hb _ =>
    intro hg hn hc
    obtain ⟨hc1, hun⟩ := branchFor_clean hc hb
    refine ⟨hc1, ?_⟩
    rintro hk r ⟨rfl⟩
    exact hun hk
  | write anns hb _ _ hr =>
    intro hg hn hc
    obtain ⟨hc1, hun⟩ := branchFor_clean hc hb
    have hbok := (branchFor_good hX hg hb).2
    obtain ⟨hc2, hr2⟩ := replaceLatest_clean hc1 hbok.tag (fun hk => (hun hk).children) hr
    refine ⟨hc2, ?_⟩
    rintro hk r ⟨rfl⟩
    exact hr2 hk
  | @insert route n s s₁ s₂ s₃ b f key v data c r anns hb hf hkey hv hnew hok hm hr =>
    intro hg hn hc
    obtain ⟨hc1, hun⟩ := branchFor_clean hc hb
    have hbok := (branchFor_good hX hg hb).2
    obtain ⟨hc2, hnewc⟩ := wp_ok (mknode_clean S t _ _ s₁ hc1) hm
    have hlist : k ≠ some t → ∀ x ∈ b.latest.child f.name ++ [c], Untagged t x := by
      intro hk x hx
      rcases List.mem_append.mp hx with hx | hx
      · exact (hun hk).child hx
      · rw [List.mem_singleton.mp hx]; exact hnewc
    obtain ⟨hc3, hr3⟩ := replaceLatest_clean hc2 hbok.tag
      (fun hk => (hun hk).setField (hlist hk)) hr
    refine ⟨hc3, ?_⟩
    rintro hk r ⟨rfl⟩
    exact hr3 hk
  | insertFail hb _ _ _ _ hm =>
    intro hg hn hc
    have hc2 := wp_error (mknode_clean S t _ _ _ (branchFor_clean hc hb).1) hm
    exact ⟨hc2, fun _ r hr => by cases hr⟩
  | erase anns hb _ _ _ hr =>
    intro hg hn hc
    obtain ⟨hc1, hun⟩ := branchFor_clean hc hb
    have hbok := (branchFor_good hX hg hb).2
    obtain ⟨hc2, hr2⟩ := replaceLatest_clean hc1 hbok.tag (fun hk => (hun hk).setField
      fun x hx => (hun hk).child (List.mem_of_mem_eraseIdx hx)) hr
    refine ⟨hc2, ?_⟩
    rintro hk r ⟨rfl⟩
    exact hr2 hk
  | @down route n s s₁ s₂ s₃ b f idx v c c' r anns hb hf hfound _ hr ih =>
    intro hg hn hc
    obtain ⟨hc1, hun⟩ := branchFor_clean hc hb
    obtain ⟨hg1, hbok⟩ := branchFor_good hX hg hb
    obtain ⟨hc2, hchild⟩ := ih hg1 (hfound.childAt hbok hf).2.self.alive hc1
    have hlist : k ≠ some t → ∀ x ∈ replaceChild f (b.latest.child f.name) idx c',
        Untagged t x := by
      intro hk x hx
      rcases mem_replaceChild hx with rfl | hx
      · exact hchild hk _ rfl
      · exact (hun hk).child hx
    obtain ⟨hc3, hr3⟩ := replaceLatest_clean hc2 hbok.tag
      (fun hk => (hun hk).setField (hlist hk)) hr
    refine ⟨hc3, ?_⟩
    rintro hk r ⟨rfl⟩
    exact hr3 hk
  | downSame hb hf hfound _ _ ih =>
    intro hg hn hc
    obtain ⟨hc1, hun⟩ := branchFor_clean hc hb
    obtain ⟨hg1, hbok⟩ := branchFor_good hX hg hb
    refine ⟨(ih hg1 (hfound.childAt hbok hf).2.self.alive hc1).1, ?_⟩
    rintro hk r ⟨rfl⟩
    exact hun hk
  | keyChange _ hb hf _ hfound _ _ ih =>
    intro hg hn hc
    obtain ⟨hg1, hbok⟩ := branchFor_good hX hg hb
    exact ⟨(ih hg1 (hfound.childAt hbok hf).2.self.alive (branchFor_clean hc hb).1).1,
      fun _ r hr => by cases hr⟩
  | failBelow hb hf hfound _ ih =>
    intro hg hn hc
    obtain ⟨hg1, hbok⟩ := branchFor_good hX hg hb
    exact ⟨(ih hg1 (hfound.childAt hbok hf).2.self.alive (branchFor_clean hc hb).1).1,
      fun _ r hr => by cases hr⟩

/-! ## merge が組み立てる列の要素 -/

section Entries

variable {I : State → Prop} {P : Rev → Prop} {mergeChild : Rev → Op (Option Rev)}

/-- 状態の条件 `I` を保ちながら、`P` の版を `P` の版にする。 -/
def MergesInto (I : State → Prop) (P : Rev → Prop) (mergeChild : Rev → Op (Option Rev)) : Prop :=
  ∀ c s, I s → P c →
    wp (mergeChild c) (fun o s' => I s' ∧ ∀ r, o = some r → P r) (fun _ s' => I s') s

/-- 作りかけの列の版は、どれも `P` を満たす。 -/
def AllIn (P : Rev → Prop) (l : List (Option Rev)) : Prop := ∀ r, some r ∈ l → P r

theorem AllIn.map_some {l : List Rev} (h : ∀ c ∈ l, P c) : AllIn P (l.map some) := by
  intro r hr
  obtain ⟨c, hc, he⟩ := List.mem_map.mp hr
  rw [← Option.some.inj he]
  exact h c hc

theorem AllIn.set {l : List (Option Rev)} (h : AllIn P l) {i : Nat} {o : Option Rev}
    (ho : ∀ r, o = some r → P r) : AllIn P (l.set i o) := by
  intro r hr
  rcases List.mem_or_eq_of_mem_set hr with hr | hr
  · exact h r hr
  · exact ho r hr.symm

theorem AllIn.append {l : List (Option Rev)} (h : AllIn P l) {o : Option Rev}
    (ho : ∀ r, o = some r → P r) : AllIn P (l ++ [o]) := by
  intro r hr
  rcases List.mem_append.mp hr with hr | hr
  · exact h r hr
  · exact ho r (List.mem_singleton.mp hr).symm

variable (hmc : MergesInto I P mergeChild)

include hmc

theorem mapList_all : ∀ (l : List Rev) (s : State), I s → (∀ c ∈ l, P c) →
    wp (Exec.mapList mergeChild l) (fun l' s' => I s' ∧ AllIn P l') (fun _ s' => I s') s
  | [], s, hi, _ => ⟨hi, by rintro r ⟨⟩⟩
  | c :: l, s, hi, hl => by
    rw [Exec.mapList, wp_bind]
    refine wp_mono (hmc c s hi (hl c List.mem_cons_self)) ?_ fun _ _ h => h
    rintro o s₁ ⟨hi1, ho⟩
    rw [wp_bind]
    refine wp_mono (mapList_all l s₁ hi1 fun x hx => hl x (List.mem_cons_of_mem _ hx)) ?_
      fun _ _ h => h
    rintro l' s₂ ⟨hi2, hl'⟩
    refine ⟨hi2, fun r hr => ?_⟩
    rcases List.mem_cons.mp hr with hr | hr
    · exact ho r hr.symm
    · exact hl' r hr

variable {srcList dstList : List Rev} (hsrc : ∀ c ∈ srcList, P c) (hi : I s)

include hsrc hi

theorem mergeKeyedOwn_all (key : String) (forkList : List Rev) :
    wp (mergeKeyedOwn mergeChild key forkList srcList) (fun p s' => I s' ∧ AllIn P p.1)
      (fun _ s' => I s') s := by
  let Inv : List (Option Value) → List (Option Rev) → State → Prop := fun _ l s' =>
    I s' ∧ AllIn P l
  have hstep : ∀ k ks l s₁ idx r, Inv (k :: ks) l s₁ →
      look srcList (analyzeChanges key forkList srcList).keymap2 k = some (idx, r) →
      wp (mergeChild r) (fun o s' => Inv ks (l.set idx o) s') (fun _ s' => I s') s₁ := by
    intro k ks l s₁ idx r ⟨hi1, hl⟩ hlook
    refine wp_mono (hmc r s₁ hi1 (hsrc r (List.mem_of_getElem? (look_getElem? hlook)))) ?_
      fun _ _ h => h
    exact fun o s₂ h => ⟨h.1, hl.set h.2⟩
  unfold mergeKeyedOwn
  rw [wp_bind]
  refine wp_mono (ownAdded_wp Inv (fun k ks l s₁ h _ => h.1)
    (fun k ks l s₁ idx r h hlook => wp_mono (hstep k ks l s₁ idx r h hlook)
      (fun o s' h => ⟨fun _ => h.1, fun _ => h⟩) fun _ _ h => h) _ _ [] s
    ⟨hi, AllIn.map_some hsrc⟩) ?_ fun _ _ h => h
  rintro p s₁ h1
  dsimp only
  rw [wp_bind]
  exact wp_mono (ownChanged_wp Inv (fun k ks l s₁ h _ => h.1) hstep _ _ s₁ h1)
    (fun _ _ h => h) fun _ _ h => h

variable (hdst : ∀ c ∈ dstList, P c)

include hdst

theorem mergeKeyedBoth_all (key : String) (forkList : List Rev) :
    wp (mergeKeyedBoth mergeChild key forkList srcList dstList) (fun p s' => I s' ∧ AllIn P p.1)
      (fun _ s' => I s') s := by
  let Inv : List (Option Value) → List (Option Rev) → State → Prop := fun _ l s' =>
    I s' ∧ AllIn P l
  have csrc : ∀ {c : Nat × Rev} {m : List (Option Value × Nat)} {k : Option Value} {s₁ : State},
      I s₁ → look srcList m k = some c →
      wp (mergeChild c.2) (fun o s' => I s' ∧ ∀ r, o = some r → P r) (fun _ s' => I s') s₁ :=
    fun hi1 h => hmc _ _ hi1 (hsrc _ (List.mem_of_getElem? (look_getElem? h)))
  unfold mergeKeyedBoth
  rw [wp_bind]
  refine wp_mono (bothAdded_wp Inv (fun k ks l s₁ h _ => h.1) ?_ ?_ _ _ [] s
    ⟨hi, AllIn.map_some hdst⟩) ?_ fun _ _ h => h
  · intro k ks l s₁ c hinv hc hk
    split
    · exact hinv.1
    · next d hd =>
      split
      · refine wp_mono (hmc d.2 s₁ hinv.1 (hdst _ (List.mem_of_getElem? (look_getElem? hd)))) ?_
          fun _ _ h => h
        exact fun o s₂ h => ⟨h.1, hinv.2⟩
      · exact hinv.1
  · intro k ks l s₁ c hinv hc hk
    refine wp_mono (csrc hinv.1 hc) ?_ fun _ _ h => h
    exact fun o s₂ h => ⟨fun _ => h.1, fun _ => ⟨h.1, hinv.2.append h.2⟩⟩
  rintro p s₁ h1
  rw [wp_bind]
  refine wp_mono (bothChanged_wp Inv (fun k ks l s₁ h _ => h.1) (fun k ks l s₁ h _ _ => h.1) ?_ _ _
    s₁ h1) ?_ fun _ _ h => h
  · intro k ks l s₂ c d hinv hrem hc hd
    split
    · exact wp_mono (csrc hinv.1 hc) (fun o s₃ h => ⟨h.1, hinv.2⟩) fun _ _ h => h
    · split
      · exact hinv.1
      · exact wp_mono (csrc hinv.1 hc) (fun o s₃ h => ⟨h.1, hinv.2.set h.2⟩) fun _ _ h => h
  rintro l2 s₂ ⟨hi2, hl2⟩
  refine wp_mono (bothRemoved_wp (fun _ l => AllIn P l) (fun _ _ _ _ _ => hi2)
    (fun _ _ _ h _ _ => h) ?_ _ _ _ hl2) ?_ fun _ _ h => h
  · intro k ks l hl _ _
    split
    · exact hi2
    · split
      · exact hi2
      · exact hi2
      · exact fun r hr => hl r (List.mem_of_mem_eraseIdx hr)
  · rintro q s₃ ⟨hl, rfl⟩
    exact ⟨hi2, hl⟩

theorem mergeField_all (f : ChildField) (forkList : List Rev) :
    wp (mergeField mergeChild f forkList srcList dstList) (fun p s' => I s' ∧ AllIn P p.1)
      (fun _ s' => I s') s := by
  have hplain : ∀ kind : FieldKind, wp
      (if dstList = forkList then
        if srcList = forkList then Exec.raise (.assertion "We should not be here otherwise")
        else do
          let l ← Exec.mapList mergeChild srcList
          pure (l, if kind = .list then [(.postListchange, .operation f.name)] else [])
      else if srcList ≠ forkList then
        Exec.raise (.mergeConflict
          "Cannot merge because single child node or un-keyedchildren list has changed")
      else pure (dstList.map some, []) : Op (List (Option Rev) × List Change))
      (fun p s' => I s' ∧ AllIn P p.1) (fun _ s' => I s') s := by
    intro kind
    split
    · split
      · exact hi
      · rw [wp_bind]
        exact wp_mono (mapList_all hmc srcList s hi hsrc) (fun _ _ h => h) fun _ _ h => h
    · split
      · exact hi
      · exact ⟨hi, AllIn.map_some hdst⟩
  unfold mergeField
  split
  · rw [wp_bind]
    exact wp_mono (mapList_all hmc srcList s hi hsrc) (fun _ _ h => ⟨h.1, AllIn.map_some hdst⟩)
      fun _ _ h => h
  · cases f.kind with
    | single => exact hplain .single
    | list => exact hplain .list
    | keyed key kt =>
      dsimp only
      split
      · exact mergeKeyedOwn_all hmc hsrc hi key forkList
      · exact mergeKeyedBoth_all hmc hsrc hi hdst key forkList

omit hsrc hi hdst in
theorem mergeFields_all {fork src dst : Rev} (hsrc : ∀ g, ∀ c ∈ src.child g, P c)
    (hdst : ∀ g, ∀ c ∈ dst.child g, P c) : ∀ (fs : List ChildField)
    (acc : List (String × List (Option Rev))) (ch : List Change) (s : State), I s →
    (∀ p ∈ acc, AllIn P p.2) →
    wp (mergeFields mergeChild fork src dst fs acc ch)
      (fun p s' => I s' ∧ ∀ q ∈ p.1, AllIn P q.2) (fun _ s' => I s') s
  | [], acc, ch, s, hi, hacc => ⟨hi, hacc⟩
  | f :: fs, acc, ch, s, hi, hacc => by
    rw [mergeFields, wp_bind]
    refine wp_mono (mergeField_all hmc (hsrc f.name) hi (hdst f.name) f (fork.child f.name)) ?_
      fun _ _ h => h
    rintro p s₁ ⟨hi1, hp⟩
    refine mergeFields_all hsrc hdst fs _ _ s₁ hi1 ?_
    rintro ⟨g, m⟩ hq
    rcases FieldTree.mem_setField hq with ⟨-, rfl⟩ | ⟨-, hm⟩
    · exact hp
    · exact hacc (g, m) hm

omit hsrc hi hdst in
/-- 本番の `merge_3way` が返す版は dst の枝のもので、子はどれも `P` を満たす。 -/
theorem merge3way_all {fork src dst : Rev} (hI : ∀ s s' : State, s'.node = s.node → I s → I s')
    (hsrc : ∀ g, ∀ c ∈ src.child g, P c) (hdst : ∀ p ∈ dst.children, ∀ c ∈ p.2, P c) (hi : I s) :
    wp (merge3way S mergeChild false fork src dst)
      (fun p s' => I s' ∧ ∀ r, p.1 = some r →
        Rev.tag r = Rev.tag dst ∧ ∀ q ∈ r.children, ∀ c ∈ q.2, P c)
      (fun _ s' => I s') s := by
  have hdst' : ∀ g, ∀ c ∈ dst.child g, P c := by
    intro g c hc
    exact hdst (g, dst.child g) (FieldTree.mem_children_of_mem_child hc) c hc
  unfold merge3way
  rw [wp_bind]
  refine wp_mono (mergeConfig_wp hi) ?_ fun _ _ h => h
  rintro changed s₁ rfl
  rw [wp_bind]
  refine wp_mono (mergeFields_all hmc hsrc hdst' _ _ [] s₁ hi ?_) ?_ fun _ _ h => h
  · intro q hq
    obtain ⟨p, hp, rfl⟩ := List.mem_map.mp hq
    exact AllIn.map_some (hdst p hp)
  rintro p s₂ ⟨hi2, hacc⟩
  dsimp only
  rw [if_neg (by simp), wp_bind]
  refine wp_ofOption (fun cs hcs => ?_) fun _ => hi2
  rw [wp_bind]
  unfold updateAllChildren
  rw [wp_newRev]
  refine ⟨hI s₂ _ (finalizeRev_node _ _) hi2, ?_⟩
  rintro r ⟨rfl⟩
  refine ⟨rfl, fun q hq c hc => ?_⟩
  have hcs := allRevs_eq_some.mp hcs
  refine hacc (q.1, q.2.map some) ?_ c (List.mem_map.mpr ⟨c, hc, rfl⟩)
  rw [hcs]
  exact List.mem_map.mpr ⟨q, hq, rfl⟩

end Entries

/-! ## merge -/

theorem delTxbranch_clean (hc : Clean t s) (n : NodeId) (t' : TxId) :
    wp (delTxbranch n t') (fun _ s' => Clean t s') (fun _ s' => Clean t s') s := by
  unfold delTxbranch
  rw [wp_bind, wp_read]
  cases s.txBranch? t' n with
  | none => exact hc
  | some b =>
    have hc1 : Clean t (s.setBranch n (some t') none) := hc.setBranch rfl fun _ b' h => by cases h
    dsimp only
    rw [wp_modify]
    split
    · exact hc1.of_node rfl
    · exact hc1

/-- 別の transaction の merge は、`t` の枝の版を広めない。 -/
theorem mergeTxbranch_clean (S : Schema) {t t' : TxId} (hne : t' ≠ t) : ∀ (fuel : Nat) (n : NodeId)
    (s : State), Clean t s →
    wp (mergeTxbranch S t' false fuel n) (fun o s' => Clean t s' ∧ ∀ r, o = some r → Untagged t r)
      (fun _ s' => Clean t s') s
  | 0, n, s, hc => hc
  | fuel + 1, n, s, hc => by
    rw [mergeTxbranch, wp_bind, wp_read, wp_bind]
    refine wp_ofOption (fun srcB hsrc => ?_) fun _ => hc
    rw [wp_bind]
    refine wp_ofOption (fun dstB hdst => ?_) fun _ => hc
    rw [wp_bind]
    refine wp_ofOption (fun fork _ => ?_) fun _ => hc
    have hs : Untagged t srcB.latest :=
      hc n (some t') srcB (fun h => hne (Option.some.inj h)) hsrc
    have hd : Untagged t dstB.latest := hc n none dstB (by simp) hdst
    have hmc : MergesInto (Clean t) (Untagged t) fun c =>
        if Rev.tag c = .tx t' then mergeTxbranch S t' false fuel (Rev.node c) else pure (some c) := by
      intro c s₁ hc1 hun
      dsimp only
      split
      · exact mergeTxbranch_clean S hne fuel (Rev.node c) s₁ hc1
      · refine ⟨hc1, ?_⟩
        rintro r ⟨rfl⟩
        exact hun
    rw [wp_bind]
    refine wp_mono (merge3way_all (S := S) hmc (fun _ _ h hc => hc.of_node h)
      (fun g c hc => hs.child hc) hd.children hc) ?_ fun _ _ h => h
    rintro ⟨o, ch⟩ s₁ ⟨hc1, hr⟩
    cases o with
    | none => exact ⟨hc1, fun r h => by cases h⟩
    | some r =>
      obtain ⟨htag, hch⟩ := hr r rfl
      have hun : Untagged t r := by
        obtain ⟨i, cs⟩ := r
        refine untagged_mk.mpr ⟨?_, hch⟩
        have htag : i.tag = Rev.tag dstB.latest := htag
        rw [htag]
        exact hd _ (FieldTree.Sub.refl _)
      dsimp only
      rw [wp_bind, wp_makeLatest, wp_bind]
      have hc2 : Clean t (makeLatest n none dstB r ch s₁).2 := by
        refine hc1.setBranch (makeLatest_node n none dstB r ch s₁) ?_
        rintro - b' ⟨rfl⟩
        exact hun
      refine wp_mono (delTxbranch_clean hc2 n t') ?_ fun _ _ h => h
      rintro - s₃ hc3
      refine ⟨hc3, ?_⟩
      rintro r' ⟨rfl⟩
      exact hun

end Voltha.Config
