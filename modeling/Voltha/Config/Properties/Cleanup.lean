import Voltha.Config.Properties.Untagged

/-!
# 終わった transaction の後始末

root の `_dirty_nodes[txid]` は、transaction `txid` の branch を持つ node をちょうど並べている
（`Booked`）。だから `del_txbranch` は枝を一つ残らず捨て、台帳の項目も消す。

`fold_txbranch` が `del_txbranch` を呼ぶのは、dry run が `MergeConflictException` を
投げたときだけである。merge に成功したときも、他の例外で終わったときも、
`_dirty_nodes` の項目を消すものは無い。
-/

namespace Voltha.Config

open Exec

variable {S : Schema} {κ : Mode} {X : State → Rev → Prop}
variable {s s' s₁ : State} {n : NodeId} {k : Option TxId} {b : Branch} {t : TxId}
variable {Ok : List Seg → Act → Prop} {route : List Seg} {res : Except Err Rev}

/-! ## 台帳 -/

/-- `_dirty_nodes[t]` は `l` で、`l` は `t` の branch を持つ node を重なりなく並べたもの。 -/
structure Booked (t : TxId) (l : List NodeId) (s : State) : Prop where
  dirty : s.dirty t = some l
  nodup : l.Nodup
  mem : ∀ n, n ∈ l ↔ ((s.node n).branches (some t)).isSome

/-- `t` の項目も branch も無い。 -/
structure Absent (t : TxId) (s : State) : Prop where
  dirty : s.dirty t = none
  branch : ∀ n, (s.node n).branches (some t) = none

/-- `t` に関わる部分が変わらない。`t` の枝の版が他の branch に広まることもない。 -/
structure Aside (t : TxId) (s s' : State) : Prop where
  next : s.nextTx ≤ s'.nextTx
  txn : t ∈ s'.txns ↔ t ∈ s.txns
  dirty : s'.dirty t = s.dirty t
  branch : ∀ n, (s'.node n).branches (some t) = (s.node n).branches (some t)
  clean : Clean t s → Clean t s'

theorem Aside.refl (t : TxId) (s : State) : Aside t s s :=
  ⟨Nat.le_refl _, Iff.rfl, rfl, fun _ => rfl, id⟩

theorem Aside.trans {s'' : State} (h₁ : Aside t s s') (h₂ : Aside t s' s'') : Aside t s s'' where
  next := Nat.le_trans h₁.next h₂.next
  txn := h₂.txn.trans h₁.txn
  dirty := h₂.dirty.trans h₁.dirty
  branch n := (h₂.branch n).trans (h₁.branch n)
  clean h := h₂.clean (h₁.clean h)

theorem Booked.aside {l : List NodeId} (h : Booked t l s) (ha : Aside t s s') : Booked t l s' where
  dirty := ha.dirty.trans h.dirty
  nodup := h.nodup
  mem n := by rw [ha.branch]; exact h.mem n

theorem Absent.aside (h : Absent t s) (ha : Aside t s s') : Absent t s' :=
  ⟨ha.dirty.trans h.dirty, fun n => (ha.branch n).trans (h.branch n)⟩

/-- branch と台帳と transaction の一覧を変えない書き換え。 -/
theorem Aside.of_branches (hb : ∀ n, (s'.node n).branches = (s.node n).branches)
    (hd : s'.dirty = s.dirty) (hx : s'.txns = s.txns) (hn : s'.nextTx = s.nextTx) :
    Aside t s s' where
  next := Nat.le_of_eq hn.symm
  txn := by rw [hx]
  dirty := by rw [hd]
  branch n := by rw [hb]
  clean hc n k b hk h := by rw [hb] at h; exact hc n k b hk h

/-- 変えない key の branch は、新しい node にも現れない。 -/
theorem Frame.branches_eq {K : Option TxId → Prop} (hf : Frame K s s') (hg : Good S κ X s)
    (hk : K (some t)) (n : NodeId) :
    (s'.node n).branches (some t) = (s.node n).branches (some t) := by
  by_cases hn : n < s.nextNode
  · exact hf.branch n hn (some t) hk
  · have hnone : (s.node n).branches (some t) = none := by
      cases hb : (s.node n).branches (some t) with
      | none => rfl
      | some b => exact absurd (hg.branch n (some t) b hb).lt hn
    rw [hnone]
    cases hb : (s'.node n).branches (some t) with
    | none => rfl
    | some b =>
      rw [hf.stale n (some t) b hk (by simp) hb] at hnone
      cases hnone

theorem Aside.of_frame {K : Option TxId → Prop} (hf : Frame K s s') (hg : Good S κ X s)
    (hk : K (some t)) (hd : s'.dirty t = s.dirty t) (hc : Clean t s → Clean t s') :
    Aside t s s' where
  next := Nat.le_of_eq hf.nextTx.symm
  txn := by rw [hf.txns]
  dirty := hd
  branch := hf.branches_eq hg hk
  clean := hc

/-! ## 台帳を書き換えるのは、枝分かれだけである -/

theorem newRev_dirty (n : NodeId) (tag : BranchTag) (store : StoreRef) (config : Data)
    (children : List (String × List Rev)) :
    Keeps (Unchanged State.dirty) (newRev n tag store config children) :=
  newRev_unchanged (fun _ _ _ _ => rfl) n tag store config children

theorem makeLatest_dirty (n : NodeId) (k : Option TxId) (b : Branch) (r : Rev)
    (anns : List (CallbackType × Context)) :
    Keeps (Unchanged State.dirty) (makeLatest n k b r anns) :=
  makeLatest_unchanged (fun _ _ _ _ => rfl) n k b r anns

theorem mknode_dirty (S : Schema) (m : Msg) (slot : Option Slot) :
    Keeps (Unchanged State.dirty) (mknode S m slot) :=
  mknode_keeps_of (fun _ _ _ => rfl)
    (fun n _ _ => (Keeps.read.bind fun _ => newRev_dirty n _ _ _ _).bind fun _ =>
      Keeps.read.bind fun _ => (makeLatest_dirty n none _ _ _).bind fun _ => Keeps.pure _) S m slot

theorem replaceLatest_dirty {config : Data} {children : List (String × List Rev)}
    {anns : List (CallbackType × Context)} {r : Rev}
    (h : replaceLatest n k b config children anns s = (.ok r, s')) : s'.dirty = s.dirty := by
  have hk : Keeps (Unchanged State.dirty) (replaceLatest n k b config children anns) :=
    (newRev_dirty _ _ _ _ _).bind fun _ => (makeLatest_dirty _ _ _ _ _).bind fun _ => Keeps.pure _
  have := hk s
  rwa [h] at this

theorem branchFor_dirty (h : branchFor n k s = (.ok b, s₁)) (hk : k ≠ some t) :
    s₁.dirty t = s.dirty t := by
  rcases branchFor_cases h with ⟨-, rfl⟩ | ⟨t', point, rfl, -, -, rfl, rfl⟩
  · rfl
  · show Function.update s.dirty t' _ t = s.dirty t
    rw [Function.update_of_ne]
    rintro rfl
    exact hk rfl

/-- merge が書かない項目。 -/
theorem mergeTxbranch_unchanged {τ : Type} {f : State → τ}
    (hnew : ∀ s nextUid kv objs, f { s with nextUid, kv, objs } = f s)
    (hmake : ∀ s node queue kv, f { s with node, queue, kv } = f s)
    (hdel : ∀ s node detached, f { s with node, detached } = f s) (S : Schema) (t : TxId)
    (dryRun : Bool) (fuel : Nat) (n : NodeId) :
    Keeps (Unchanged f) (mergeTxbranch S t dryRun fuel n) :=
  mergeTxbranch_keeps_of S (newRev_unchanged hnew)
    (fun n b r changes => makeLatest_unchanged hmake n none b r changes)
    (fun n => delTxbranch_unchanged hdel n t) dryRun fuel n

/-- merge は台帳に触らない。 -/
theorem mergeTxbranch_dirty (S : Schema) (t : TxId) (dryRun : Bool) (fuel : Nat) (n : NodeId) :
    Keeps (Unchanged State.dirty) (mergeTxbranch S t dryRun fuel n) :=
  mergeTxbranch_unchanged (fun _ _ _ _ => rfl) (fun _ _ _ _ => rfl) (fun _ _ _ => rfl) S t dryRun
    fuel n

/-- merge は node を作らない。 -/
theorem mergeTxbranch_nextNode (S : Schema) (t : TxId) (dryRun : Bool) (fuel : Nat) (n : NodeId) :
    Keeps (Unchanged State.nextNode) (mergeTxbranch S t dryRun fuel n) :=
  mergeTxbranch_unchanged (fun _ _ _ _ => rfl) (fun _ _ _ _ => rfl) (fun _ _ _ => rfl) S t dryRun
    fuel n

/-! ## 他の transaction の操作 -/

theorem Effect.dirty (hX : Closed X) (hk : k ≠ some t) (h : Effect S k Ok route n s res s') :
    Good S κ X s → Alive s n → s'.dirty t = s.dirty t := by
  have hmk : ∀ {m : Msg} {slot : Option Slot} {s s' : State} {o : Except Err Rev},
      mknode S m slot s = (o, s') → s'.dirty t = s.dirty t := by
    intro m slot s s' o h
    have := mknode_dirty S m slot s
    rw [h] at this
    exact congrFun this t
  induction h with
  | fail e h =>
    intro hg hn
    rcases h with rfl | rfl
    · rfl
    · obtain ⟨b, s₁, hb⟩ := branchFor_isOk hn k
      rw [hb]
      exact branchFor_dirty hb hk
  | same hb _ => exact fun _ _ => branchFor_dirty hb hk
  | write _ hb _ _ hr =>
    exact fun _ _ => (congrFun (replaceLatest_dirty hr) t).trans (branchFor_dirty hb hk)
  | insert _ hb _ _ _ _ _ hm hr =>
    exact fun _ _ => ((congrFun (replaceLatest_dirty hr) t).trans (hmk hm)).trans
      (branchFor_dirty hb hk)
  | insertFail hb _ _ _ _ hm => exact fun _ _ => (hmk hm).trans (branchFor_dirty hb hk)
  | erase _ hb _ _ _ hr =>
    exact fun _ _ => (congrFun (replaceLatest_dirty hr) t).trans (branchFor_dirty hb hk)
  | down _ hb hf hc _ hr ih =>
    intro hg hn
    obtain ⟨hg1, hbok⟩ := branchFor_good hX hg hb
    exact ((congrFun (replaceLatest_dirty hr) t).trans
      (ih hg1 (hc.childAt hbok hf).2.self.alive)).trans (branchFor_dirty hb hk)
  | downSame hb hf hc _ _ ih =>
    intro hg hn
    obtain ⟨hg1, hbok⟩ := branchFor_good hX hg hb
    exact (ih hg1 (hc.childAt hbok hf).2.self.alive).trans (branchFor_dirty hb hk)
  | keyChange _ hb hf _ hc _ _ ih =>
    intro hg hn
    obtain ⟨hg1, hbok⟩ := branchFor_good hX hg hb
    exact (ih hg1 (hc.childAt hbok hf).2.self.alive).trans (branchFor_dirty hb hk)
  | failBelow hb hf hc _ ih =>
    intro hg hn
    obtain ⟨hg1, hbok⟩ := branchFor_good hX hg hb
    exact (ih hg1 (hc.childAt hbok hf).2.self.alive).trans (branchFor_dirty hb hk)

theorem Effect.aside (hX : Closed X) (hk : k ≠ some t) (hg : Good S κ X s) (hn : Alive s n)
    (h : Effect S k Ok route n s res s') : Aside t s s' :=
  Aside.of_frame h.frame hg (fun he => hk he.symm) (h.dirty hX hk hg hn)
    fun hc => (h.clean hX hg hn hc).1

theorem aside_executeDeferred (s : State) : Aside t s (executeDeferredCallbacks s) :=
  Aside.of_branches (fun _ => rfl) rfl rfl rfl

/-- root から始めた操作。 -/
theorem Sound.aside_guarded (hX : Closed X) (h : Sound S κ X s) (hk : k ≠ some t) {op : Op Rev}
    (heff : Effect S k Ok [] rootId s (op s).1 (op s).2) :
    Aside t s (inTransaction k (rootOp k op) s).2 := by
  rcases guarded_cases op k s with ⟨he, -⟩ | ⟨-, -, he⟩ <;> rw [he]
  · exact Aside.refl t s
  · exact (heff.aside hX hk h.good h.root).trans (aside_executeDeferred _)

theorem delTxbranches_clean (hc : Clean t s) (t' : TxId) (ns : List NodeId) :
    Clean t (delTxbranches t' ns s).2 := by
  refine wp_snd (P := Clean t) ?_
  induction ns generalizing s with
  | nil => exact hc
  | cons n ns ih =>
    rw [delTxbranches, wp_bind]
    exact wp_mono (delTxbranch_clean hc n t') (fun _ s₁ hc1 => ih hc1) fun _ _ h => h

theorem dropTransaction_aside (h : Sound S κ X s) {t' : TxId} (hne : t' ≠ t) :
    Aside t s (dropTransaction t' s).2 := by
  have hk : (some t : Option TxId) ≠ some t' := fun he => hne (Option.some.inj he).symm
  refine Aside.of_frame (dropTransaction_keeps t' s) h.good hk ?_ ?_
  · unfold dropTransaction
    rw [read_bind_apply]
    cases s.dirty t' with
    | none => rfl
    | some ns =>
      rw [ofOption_some, pure_bind_apply]
      have hd := delTxbranches_unchanged (f := State.dirty) (fun _ _ _ => rfl) t' ns s
      rcases hq : delTxbranches t' ns s with ⟨e | u, s₁⟩ <;> rw [hq] at hd
      · rw [bind_error hq]; exact congrFun hd t
      · rw [bind_ok hq]
        show Function.update s₁.dirty t' none t = s.dirty t
        rw [Function.update_of_ne (Ne.symm hne)]
        exact congrFun hd t
  · intro hc
    unfold dropTransaction
    rw [read_bind_apply]
    cases s.dirty t' with
    | none => exact hc
    | some ns =>
      rw [ofOption_some, pure_bind_apply]
      have hc1 := delTxbranches_clean hc t' ns
      rcases hq : delTxbranches t' ns s with ⟨e | u, s₁⟩ <;> rw [hq] at hc1
      · rw [bind_error hq]; exact hc1
      · rw [bind_ok hq]; exact hc1.of_node rfl

theorem foldTxbranch_aside (h : Sound S κ X s) {t' : TxId} (hne : t' ≠ t) :
    Aside t s (foldTxbranch S t' s).2 := by
  rcases foldTxbranch_state S t' s with he | he | he <;> rw [he]
  · exact Aside.refl t s
  · exact dropTransaction_aside h hne
  · refine Aside.trans ?_ (aside_executeDeferred _)
    refine Aside.of_frame (mergeTxbranch_keeps S t' false (mergeFuel s) rootId s) h.good
      ⟨by simp, fun he => hne (Option.some.inj he).symm⟩
      (congrFun (mergeTxbranch_dirty S t' false (mergeFuel s) rootId s) t) fun hc => ?_
    exact wp_snd (wp_mono (mergeTxbranch_clean S hne (mergeFuel s) rootId s hc) (fun _ _ h => h.1)
      fun _ _ h => h)

theorem closeHandle_aside {t' : TxId} (hne : t' ≠ t) (s : State) : Aside t s (closeHandle t' s) where
  next := Nat.le_refl _
  txn := by
    show t ∈ s.txns.filter (· ≠ t') ↔ _
    rw [List.mem_filter]
    simpa using fun _ => Ne.symm hne
  dirty := rfl
  branch _ := rfl
  clean hc := hc.of_node rfl

theorem openTransaction_aside (h : Sound S κ X s) (hne : s.nextTx ≠ t) :
    Aside t s (openTransaction s).2 := by
  obtain ⟨b, hb⟩ := Option.isSome_iff_exists.mp h.root.born
  have hp : s.latest? rootId = some b.latest := by unfold State.latest?; rw [hb]; rfl
  rw [openTransaction_eq hp]
  refine ⟨Nat.le_succ _, ?_, ?_, fun n => ?_, fun hc => ?_⟩
  · show t ∈ s.nextTx :: s.txns ↔ _
    rw [List.mem_cons, or_iff_right (Ne.symm hne)]
  · exact Function.update_of_ne (Ne.symm hne) ..
  · rw [opened_branches, if_neg fun he => hne (Option.some.inj he.2).symm]
  · refine hc.setBranch (o := some (forkBranch s.nextTx b.latest)) rfl ?_
    rintro - b' ⟨rfl⟩
    exact hc.latest hp

/-! ## proxy・tag・prune -/

theorem setNode_aside {nd : Node} (h : nd.branches = (s.node n).branches) :
    Aside t s (s.setNode n nd) := by
  refine Aside.of_branches (fun m => ?_) rfl rfl rfl
  by_cases hm : m = n
  · subst hm; simpa [State.setNode] using h
  · simp [State.setNode, hm]

theorem mkProxy_aside (n : NodeId) (fullPath : List String) (exclusive : Bool) :
    Aside t s (mkProxy n fullPath exclusive s).2 := by
  unfold mkProxy
  rw [read_bind_apply]
  cases (s.node n).proxy with
  | none => exact setNode_aside rfl
  | some p => dsimp only; split <;> exact Aside.refl t s

theorem registerCallback_aside (n : NodeId) (type : CallbackType) (f : Callback) :
    Aside t s (registerCallback n type f s).2 := by
  unfold registerCallback
  rw [modify_apply]
  cases (s.node n).proxy with
  | none => exact Aside.refl t s
  | some p => exact setNode_aside rfl

theorem tagRev_aside (tag : String) (hash : Option Hash) : Aside t s (tagRev tag hash s).2 := by
  unfold tagRev
  rw [read_bind_apply]
  cases (s.node rootId).branches none with
  | none => exact Aside.refl t s
  | some b =>
    rw [ofOption_some, pure_bind_apply]
    cases b.byHash hash with
    | none => exact Aside.refl t s
    | some r => exact setNode_aside rfl

theorem deleteTag_aside (tag : String) : Aside t s (deleteTag tag s).2 := by
  unfold deleteTag
  rw [read_bind_apply]
  cases (s.node rootId).tags.lookup tag with
  | none => exact Aside.refl t s
  | some r => exact setNode_aside rfl

theorem pruneUntagged_aside (hg : Good S κ X s) : Aside t s (pruneUntagged s) := by
  unfold pruneUntagged
  cases hb : (s.node rootId).branches none with
  | none => exact Aside.refl t s
  | some b =>
    refine Aside.of_frame (frame_setBranch s rootId none _ fun _ => rfl) hg (by simp) rfl ?_
    intro hc
    refine hc.setBranch rfl ?_
    rintro - b' ⟨rfl⟩
    exact hc rootId none b (by simp) hb

/-! ## 一歩 -/

/-- 操作の属する transaction。 -/
def Step.owner : Step → Option TxId
  | .update k _ _ _ => k
  | .add k _ _ => k
  | .remove k _ => k
  | .commit t => some t
  | .cancel t => some t
  | _ => none

/-- どんな操作の列でも成り立つ不変条件。 -/
abbrev Basic (S : Schema) (s : State) : Prop := Sound S ⟨False, False⟩ (fun _ _ => True) s

theorem Basic.allowed (st : Step) : st.Allowed S ⟨False, False⟩ s := ⟨False.elim, False.elim⟩

/-- 他の transaction の操作は、`t` に関わる部分を変えない。 -/
theorem perform_aside (h : Basic S s) {st : Step} (hst : st.owner ≠ some t)
    (hopen : st = .openTx → s.nextTx ≠ t) : Aside t s (perform S st s).2 := by
  have hX := closed_true
  cases st with
  | update k path data strict =>
    rw [perform, discard_state]
    exact h.aside_guarded hX hst (update_keeping (κ := ⟨False, False⟩) False.elim)
  | add k path data =>
    rw [perform, discard_state]
    exact h.aside_guarded hX hst (add_keeping (κ := ⟨False, False⟩) False.elim)
  | remove k path =>
    rw [perform, discard_state]
    exact h.aside_guarded hX hst (remove_keeping (κ := ⟨False, False⟩) path)
  | openTx => rw [perform, discard_state]; exact openTransaction_aside h (hopen rfl)
  | commit t' =>
    have hne : t' ≠ t := fun he => hst (congrArg some he)
    rw [perform]
    by_cases ht : t' ∈ s.txns
    · rw [commit_eq ht]
      exact (foldTxbranch_aside h hne).trans (closeHandle_aside hne _)
    · rw [commit_closed ht]
      exact Aside.refl t s
  | cancel t' =>
    have hne : t' ≠ t := fun he => hst (congrArg some he)
    rw [perform]
    rcases cancel_state t' s with he | ⟨-, he | he⟩ <;> rw [he]
    · exact Aside.refl t s
    · exact dropTransaction_aside h hne
    · exact (dropTransaction_aside h hne).trans (closeHandle_aside hne _)
  | getProxy path exclusive =>
    rw [perform, discard_state]
    exact getProxy_state (P := Aside t s) (Aside.refl t s) path exclusive
      (fun m => mkProxy_aside m path exclusive) path rootId
  | registerCallback n type f => exact registerCallback_aside n type f
  | tag tag hash => exact tagRev_aside tag hash
  | deleteTag tag => exact deleteTag_aside tag
  | prune => exact pruneUntagged_aside h.good

theorem collect_aside (s : State) : Aside t s (collect s) :=
  Aside.of_branches (fun _ => rfl) rfl rfl rfl

theorem step_aside (h : Basic S s) {st : Step} (hst : st.owner ≠ some t)
    (hopen : st = .openTx → s.nextTx ≠ t) : Aside t s (step S s st) :=
  (perform_aside h hst hopen).trans (collect_aside _)

/-- 閉じた transaction の操作は、断られて何も変えない。 -/
theorem perform_closed {st : Step} (hst : st.owner = some t) (ht : t ∉ s.txns) :
    (perform S st s).2 = s := by
  have guarded : ∀ op : Op Rev, (inTransaction (some t) (rootOp (some t) op) s).2 = s := by
    intro op
    unfold inTransaction
    rw [read_bind_apply]
    dsimp only
    rw [if_neg ht]
    rfl
  cases st with
  | update k path data strict =>
    obtain rfl : k = some t := hst
    rw [perform, discard_state]
    exact guarded _
  | add k path data =>
    obtain rfl : k = some t := hst
    rw [perform, discard_state]
    exact guarded _
  | remove k path =>
    obtain rfl : k = some t := hst
    rw [perform, discard_state]
    exact guarded _
  | commit t' =>
    obtain rfl : t' = t := Option.some.inj hst
    exact commit_closed ht
  | cancel t' =>
    obtain rfl : t' = t := Option.some.inj hst
    show (cancel t' s).2 = s
    unfold cancel
    rw [read_bind_apply, if_neg ht]
    rfl
  | openTx => cases hst
  | getProxy => cases hst
  | registerCallback => cases hst
  | tag => cases hst
  | deleteTag => cases hst
  | prune => cases hst

/-! ## 自分の操作 -/

theorem branchFor_booked {l : List NodeId} (hl : Booked t l s)
    (h : branchFor n (some t) s = (.ok b, s₁)) :
    ∃ l', Booked t l' s₁ ∧ l ⊆ l' ∧ n ∈ l' := by
  rcases branchFor_cases h with ⟨hb, rfl⟩ | ⟨t', point, ht, hnone, -, rfl, rfl⟩
  · exact ⟨l, hl, List.Subset.refl l, (hl.mem n).mpr (by rw [hb]; rfl)⟩
  · obtain rfl : t = t' := Option.some.inj ht
    refine ⟨l.insert n, ⟨?_, hl.nodup.insert, fun m => ?_⟩, fun m hm => ?_, ?_⟩
    · show Function.update s.dirty t ((s.dirty t).map (List.insert n)) t = _
      rw [Function.update_self, hl.dirty]
      rfl
    · rw [fork_branches, List.mem_insert_iff, hl.mem]
      by_cases hm : m = n
      · subst hm; simp
      · simp [hm]
    · exact List.mem_insert_of_mem hm
    · exact List.mem_insert_self

theorem replaceLatest_booked {l : List NodeId} (hl : Booked t l s) (hn : n ∈ l) {config : Data}
    {children : List (String × List Rev)} {anns : List (CallbackType × Context)} {r : Rev}
    (h : replaceLatest n (some t) b config children anns s = (.ok r, s')) : Booked t l s' where
  dirty := by rw [replaceLatest_dirty h]; exact hl.dirty
  nodup := hl.nodup
  mem m := by
    rw [(replaceLatest_spec h).2.2.2, setBranch_branches]
    split
    · next he =>
      rw [he.1]
      exact iff_of_true hn rfl
    · exact hl.mem m

theorem mknode_booked {l : List NodeId} (hl : Booked t l s) (hg : Good S κ X s) {m : Msg}
    {slot : Option Slot} {o : Except Err Rev} (h : mknode S m slot s = (o, s')) : Booked t l s' := by
  have hd := mknode_dirty S m slot s
  have hf := mknode_keeps S m slot s
  rw [h] at hd hf
  refine ⟨(congrFun hd t).trans hl.dirty, hl.nodup, fun n => ?_⟩
  rw [hf.branches_eq hg trivial]
  exact hl.mem n

/-- 操作は、枝分かれさせた node を残らず台帳に載せる。 -/
theorem Effect.booked (hX : Closed X) (h : Effect S (some t) Ok route n s res s') :
    ∀ l, Good S κ X s → Alive s n → Booked t l s → ∃ l', Booked t l' s' ∧ l ⊆ l' := by
  induction h with
  | fail e h =>
    intro l hg hn hl
    rcases h with rfl | rfl
    · exact ⟨l, hl, List.Subset.refl l⟩
    · obtain ⟨b, s₁, hb⟩ := branchFor_isOk hn (some t)
      obtain ⟨l', hl', hsub, -⟩ := branchFor_booked hl hb
      rw [hb]
      exact ⟨l', hl', hsub⟩
  | same hb _ =>
    intro l hg hn hl
    obtain ⟨l', hl', hsub, -⟩ := branchFor_booked hl hb
    exact ⟨l', hl', hsub⟩
  | write _ hb _ _ hr =>
    intro l hg hn hl
    obtain ⟨l', hl', hsub, hmem⟩ := branchFor_booked hl hb
    exact ⟨l', replaceLatest_booked hl' hmem hr, hsub⟩
  | insert _ hb _ _ _ _ _ hm hr =>
    intro l hg hn hl
    obtain ⟨l', hl', hsub, hmem⟩ := branchFor_booked hl hb
    have hl2 := mknode_booked hl' (branchFor_good hX hg hb).1 hm
    exact ⟨l', replaceLatest_booked hl2 hmem hr, hsub⟩
  | insertFail hb _ _ _ _ hm =>
    intro l hg hn hl
    obtain ⟨l', hl', hsub, -⟩ := branchFor_booked hl hb
    exact ⟨l', mknode_booked hl' (branchFor_good hX hg hb).1 hm, hsub⟩
  | erase _ hb _ _ _ hr =>
    intro l hg hn hl
    obtain ⟨l', hl', hsub, hmem⟩ := branchFor_booked hl hb
    exact ⟨l', replaceLatest_booked hl' hmem hr, hsub⟩
  | down _ hb hf hc _ hr ih =>
    intro l hg hn hl
    obtain ⟨l', hl', hsub, hmem⟩ := branchFor_booked hl hb
    obtain ⟨hg1, hbok⟩ := branchFor_good hX hg hb
    obtain ⟨l'', hl'', hsub'⟩ := ih l' hg1 (hc.childAt hbok hf).2.self.alive hl'
    exact ⟨l'', replaceLatest_booked hl'' (hsub' hmem) hr, fun _ hm => hsub' (hsub hm)⟩
  | downSame hb hf hc _ _ ih =>
    intro l hg hn hl
    obtain ⟨l', hl', hsub, -⟩ := branchFor_booked hl hb
    obtain ⟨hg1, hbok⟩ := branchFor_good hX hg hb
    obtain ⟨l'', hl'', hsub'⟩ := ih l' hg1 (hc.childAt hbok hf).2.self.alive hl'
    exact ⟨l'', hl'', fun _ hm => hsub' (hsub hm)⟩
  | keyChange _ hb hf _ hc _ _ ih =>
    intro l hg hn hl
    obtain ⟨l', hl', hsub, -⟩ := branchFor_booked hl hb
    obtain ⟨hg1, hbok⟩ := branchFor_good hX hg hb
    obtain ⟨l'', hl'', hsub'⟩ := ih l' hg1 (hc.childAt hbok hf).2.self.alive hl'
    exact ⟨l'', hl'', fun _ hm => hsub' (hsub hm)⟩
  | failBelow hb hf hc _ ih =>
    intro l hg hn hl
    obtain ⟨l', hl', hsub, -⟩ := branchFor_booked hl hb
    obtain ⟨hg1, hbok⟩ := branchFor_good hX hg hb
    obtain ⟨l'', hl'', hsub'⟩ := ih l' hg1 (hc.childAt hbok hf).2.self.alive hl'
    exact ⟨l'', hl'', fun _ hm => hsub' (hsub hm)⟩

/-- 開いている transaction の、台帳と版の条件。 -/
structure Tended (t : TxId) (s : State) : Prop where
  booked : ∃ l, Booked t l s
  clean : Clean t s

theorem Tended.aside (h : Tended t s) (ha : Aside t s s') : Tended t s' := by
  obtain ⟨l, hl⟩ := h.booked
  exact ⟨⟨l, hl.aside ha⟩, ha.clean h.clean⟩

theorem Tended.guarded (hX : Closed X) (hs : Sound S κ X s) (h : Tended t s) {op : Op Rev}
    (heff : Effect S (some t) Ok [] rootId s (op s).1 (op s).2) :
    Tended t (inTransaction (some t) (rootOp (some t) op) s).2 := by
  rcases guarded_cases op (some t) s with ⟨he, -⟩ | ⟨-, -, he⟩ <;> rw [he]
  · exact h
  · obtain ⟨l, hl⟩ := h.booked
    obtain ⟨l', hl', -⟩ := heff.booked hX l hs.good hs.root hl
    have h1 : Tended t (op s).2 := ⟨⟨l', hl'⟩, (heff.clean hX hs.good hs.root h.clean).1⟩
    exact h1.aside (aside_executeDeferred _)

/-- transaction を閉じる操作。 -/
def Step.Closes (t : TxId) (st : Step) : Prop := st = .commit t ∨ st = .cancel t

/-- 開いている transaction の操作。閉じる操作を除けば、update・add・remove である。 -/
theorem Step.owned_cases {st : Step} (ho : st.owner = some t) (hst : ¬st.Closes t) (s : State) :
    ∃ op : Op Rev, (perform S st s).2 = (inTransaction (some t) (rootOp (some t) op) s).2 ∧
      (st.Allowed S κ s → Effect S (some t) (Keeping S κ) [] rootId s (op s).1 (op s).2) := by
  cases st with
  | update k path data strict =>
    obtain rfl : k = some t := ho
    exact ⟨_, by rw [perform, discard_state]; rfl, fun h => update_keeping h.keys⟩
  | add k path data =>
    obtain rfl : k = some t := ho
    exact ⟨_, by rw [perform, discard_state]; rfl, fun h => add_keeping h.typed⟩
  | remove k path =>
    obtain rfl : k = some t := ho
    exact ⟨_, by rw [perform, discard_state]; rfl, fun _ => remove_keeping path⟩
  | commit t' => exact absurd (Or.inl (congrArg Step.commit (Option.some.inj ho))) hst
  | cancel t' => exact absurd (Or.inr (congrArg Step.cancel (Option.some.inj ho))) hst
  | openTx => cases ho
  | getProxy => cases ho
  | registerCallback => cases ho
  | tag => cases ho
  | deleteTag => cases ho
  | prune => cases ho

/-- 閉じる操作でなければ、開いている transaction の条件を保つ。 -/
theorem Tended.step (hs : Basic S s) (h : Tended t s) (ht : t ∈ s.txns) {st : Step}
    (hst : ¬st.Closes t) : Tended t (step S s st) := by
  by_cases ho : st.owner = some t
  · obtain ⟨op, he, heff⟩ := Step.owned_cases (S := S) (κ := ⟨False, False⟩) ho hst s
    refine Tended.aside ?_ (collect_aside _)
    rw [he]
    exact h.guarded closed_true hs (heff (Basic.allowed st))
  · refine h.aside (step_aside hs ho fun _ he => ?_)
    exact absurd (hs.txns t ht) (by rw [he]; exact Nat.lt_irrefl _)

/-! ## 枝を捨てる -/

theorem delTxbranch_eq (h : (s.node n).branches (some t) = some b) :
    ∃ s', delTxbranch n t s = (.ok (), s') ∧ s'.node = (s.setBranch n (some t) none).node := by
  have h : s.txBranch? t n = some b := h
  unfold delTxbranch
  rw [read_bind_apply, h]
  dsimp only
  rw [modify_apply]
  refine ⟨_, rfl, ?_⟩
  split <;> rfl

/-- 台帳に載った node に枝があれば、枝を捨てる途中で例外は出ない。 -/
theorem delTxbranches_spec (t : TxId) : ∀ (l : List NodeId) (s : State), l.Nodup →
    (∀ n ∈ l, ((s.node n).branches (some t)).isSome) →
    ∃ s', delTxbranches t l s = (.ok (), s') ∧ ∀ n, (s'.node n).branches (some t)
      = if n ∈ l then none else (s.node n).branches (some t)
  | [], s, _, _ => ⟨s, rfl, by simp⟩
  | n :: l, s, hnd, hl => by
    obtain ⟨hn, hnd⟩ := List.nodup_cons.mp hnd
    obtain ⟨b, hb⟩ := Option.isSome_iff_exists.mp (hl n List.mem_cons_self)
    obtain ⟨s₁, he, hnode⟩ := delTxbranch_eq hb
    have hbr : ∀ m, (s₁.node m).branches (some t)
        = if m = n then none else (s.node m).branches (some t) := by
      intro m
      rw [hnode, setBranch_branches]
      simp only [and_true]
    obtain ⟨s₂, he2, hbr2⟩ := delTxbranches_spec t l s₁ hnd fun m hm => by
      have hne : m ≠ n := by rintro rfl; exact hn hm
      rw [hbr, if_neg hne]
      exact hl m (List.mem_cons_of_mem _ hm)
    refine ⟨s₂, by rw [delTxbranches, bind_ok he, he2], fun m => ?_⟩
    rw [hbr2, hbr]
    by_cases hm : m = n <;> by_cases hml : m ∈ l <;> simp [hm, hml]

/-- 開いている transaction の枝は、残らず捨てられる。 -/
theorem Tended.drop (h : Tended t s) :
    ∃ s', dropTransaction t s = (.ok (), s') ∧ Absent t s' ∧ Clean t s' := by
  obtain ⟨l, hl⟩ := h.booked
  obtain ⟨s₁, he, hbr⟩ := delTxbranches_spec t l s hl.nodup fun n hn => (hl.mem n).mp hn
  have hc := delTxbranches_clean h.clean t l
  rw [he] at hc
  refine ⟨{ s₁ with dirty := Function.update s₁.dirty t none }, ?_, ⟨?_, fun n => ?_⟩,
    hc.of_node rfl⟩
  · unfold dropTransaction
    rw [read_bind_apply, hl.dirty, ofOption_some, pure_bind_apply, bind_ok he]
    rfl
  · exact Function.update_self ..
  · show (s₁.node n).branches (some t) = none
    rw [hbr]
    split
    · rfl
    · next hn => simpa using fun hc => hn ((hl.mem n).mpr hc)

/-- 終わって何も残していない transaction。 -/
structure Gone (t : TxId) (s : State) : Prop where
  absent : Absent t s
  clean : Clean t s
  closed : t ∉ s.txns
  old : t < s.nextTx

theorem Gone.aside (h : Gone t s) (ha : Aside t s s') : Gone t s' :=
  ⟨h.absent.aside ha, ha.clean h.clean, fun hc => h.closed (ha.txn.mp hc),
    Nat.lt_of_lt_of_le h.old ha.next⟩

/-- 何も残していない transaction は、その後の操作でも現れない。 -/
theorem Gone.step (hs : Basic S s) (h : Gone t s) (st : Step) : Gone t (step S s st) := by
  by_cases ho : st.owner = some t
  · unfold Voltha.Config.step
    rw [perform_closed ho h.closed]
    exact h.aside (collect_aside s)
  · refine h.aside (step_aside hs ho fun _ he => ?_)
    exact absurd h.old (by rw [he]; exact Nat.lt_irrefl _)

theorem Gone.run (hs : Basic S s) (h : Gone t s) : ∀ l : List Step, Gone t (run S s l) := by
  intro l
  induction l generalizing s with
  | nil => exact h
  | cons st l ih => exact ih (step_sound closed_true hs st (Basic.allowed st)) (h.step hs st)

theorem Tended.gone_of_drop (hs : Basic S s) (h : Tended t s) (ht : t ∈ s.txns) :
    Gone t (collect (closeHandle t (dropTransaction t s).2)) := by
  obtain ⟨s', he, habs, hc⟩ := h.drop
  have hf := dropTransaction_keeps t s
  rw [he] at hf
  rw [he]
  refine Gone.aside (s := closeHandle t s') ⟨⟨habs.dirty, habs.branch⟩, hc.of_node rfl, ?_, ?_⟩
    (collect_aside _)
  · show t ∉ s'.txns.filter (· ≠ t)
    simp
  · show t < s'.nextTx
    rw [hf.nextTx]
    exact hs.txns t ht

/-- 取り消せば、何も残らない。 -/
theorem Tended.cancel (hs : Basic S s) (h : Tended t s) (ht : t ∈ s.txns) :
    Gone t (Voltha.Config.step S s (.cancel t)) := by
  have hgone := h.gone_of_drop hs ht
  obtain ⟨s', he, -, -⟩ := h.drop
  unfold Voltha.Config.step
  rw [perform]
  unfold Voltha.Config.cancel
  rw [read_bind_apply, if_pos ht, bind_ok he]
  rw [he] at hgone
  exact hgone

/-- dry run が衝突を見つける。 -/
def Conflicts (S : Schema) (t : TxId) (s : State) : Prop :=
  ∃ m, (mergeTxbranch S t true (mergeFuel s) rootId s).1 = .error (.mergeConflict m)

theorem foldTxbranch_conflict (h : Conflicts S t s) :
    (foldTxbranch S t s).2 = (dropTransaction t s).2 := by
  obtain ⟨m, hm⟩ := h
  rw [foldTxbranch_eq, hm]

/-- 衝突の他の結末では、台帳の項目が残る。 -/
theorem foldTxbranch_dirty (h : ¬Conflicts S t s) : (foldTxbranch S t s).2.dirty = s.dirty := by
  rw [foldTxbranch_eq]
  split
  · next m hm => exact absurd ⟨m, hm⟩ h
  · rfl
  · exact mergeTxbranch_dirty S t false (mergeFuel s) rootId s

/-! ## 実行 -/

/-- 到達できる状態の条件。開いている transaction の台帳は正しく、まだ開いていないものは何も無い。 -/
structure Tidy (S : Schema) (s : State) : Prop where
  basic : Basic S s
  tended : ∀ t ∈ s.txns, Tended t s
  fresh : ∀ t, s.nextTx ≤ t → Absent t s ∧ Clean t s

theorem step_nextTx (hs : Basic S s) (st : Step) : s.nextTx ≤ (step S s st).nextTx := by
  obtain ⟨t, ho, hn⟩ : ∃ t, st.owner ≠ some t ∧ s.nextTx ≠ t := by
    cases ho : st.owner with
    | none => exact ⟨s.nextTx + 1, by simp, Nat.ne_of_lt (Nat.lt_succ_self _)⟩
    | some t =>
      refine ⟨s.nextTx + t + 1, fun he => ?_, Nat.ne_of_lt (Nat.lt_succ_of_le (Nat.le_add_right ..))⟩
      exact absurd (Option.some.inj he)
        (Nat.ne_of_lt (Nat.lt_succ_of_le (Nat.le_add_left ..)))
  exact (step_aside hs ho fun _ => hn).next

/-- 開いたばかりの transaction は、root だけに branch を持つ。 -/
theorem openTransaction_tended (hs : Basic S s) (ha : Absent s.nextTx s) (hc : Clean s.nextTx s) :
    Tended s.nextTx (openTransaction s).2 := by
  obtain ⟨b, hb⟩ := Option.isSome_iff_exists.mp hs.root.born
  have hp : s.latest? rootId = some b.latest := by unfold State.latest?; rw [hb]; rfl
  rw [openTransaction_eq hp]
  refine ⟨⟨[rootId], Function.update_self .., by simp, fun n => ?_⟩, ?_⟩
  · rw [opened_branches, List.mem_singleton]
    by_cases hn : n = rootId
    · simp [hn]
    · simp [hn, ha.branch]
  · refine hc.setBranch (o := some (forkBranch s.nextTx b.latest)) (k := some s.nextTx) rfl ?_
    exact fun h => absurd rfl h

/--
一歩の後で開いている transaction は、開いたばかりのものか、閉じない操作をしたものか、
他の transaction の操作を眺めていたものである。
-/
theorem Tidy.open_cases (h : Tidy S s) {st : Step} (ht : t ∈ (step S s st).txns) :
    (st = .openTx ∧ s.nextTx = t) ∨ (t ∈ s.txns ∧ st.owner = some t ∧ ¬st.Closes t) ∨
      (t ∈ s.txns ∧ Aside t s (step S s st)) := by
  by_cases hopen : st = .openTx ∧ s.nextTx = t
  · exact Or.inl hopen
  by_cases ho : st.owner = some t
  · by_cases ht' : t ∈ s.txns
    · refine Or.inr (Or.inl ⟨ht', ho, fun hcl => ?_⟩)
      -- 閉じた transaction は、もう一覧に無い
      rcases hcl with rfl | rfl
      · have hmem : t ∈ (closeHandle t (foldTxbranch S t s).2).txns := by
          have : (step S s (.commit t)).txns
              = (closeHandle t (foldTxbranch S t s).2).txns := by
            show (commit S t s).2.txns = _
            rw [commit_eq ht']
          rw [← this]
          exact ht
        simp [closeHandle] at hmem
      · exact absurd ht ((h.tended t ht').cancel h.basic ht').closed
    · have hst : (step S s st).txns = s.txns := by
        show (perform S st s).2.txns = s.txns
        rw [perform_closed ho ht']
      rw [hst] at ht
      exact absurd ht ht'
  · have ha := step_aside h.basic ho fun he hn => hopen ⟨he, hn⟩
    exact Or.inr (Or.inr ⟨ha.txn.mp ht, ha⟩)

theorem Tidy.step (h : Tidy S s) (st : Step) : Tidy S (step S s st) where
  basic := step_sound closed_true h.basic st (Basic.allowed st)
  tended t ht := by
    rcases h.open_cases ht with ⟨rfl, rfl⟩ | ⟨ht', -, hcl⟩ | ⟨ht', ha⟩
    · obtain ⟨ha, hc⟩ := h.fresh s.nextTx (Nat.le_refl _)
      refine Tended.aside ?_ (collect_aside _)
      rw [perform, discard_state]
      exact openTransaction_tended h.basic ha hc
    · exact (h.tended t ht').step h.basic ht' hcl
    · exact (h.tended t ht').aside ha
  fresh t ht := by
    have hle := Nat.le_trans (step_nextTx h.basic st) ht
    obtain ⟨habs, hc⟩ := h.fresh t hle
    have hnot : t ∉ s.txns := fun hm => Nat.not_lt.mpr hle (h.basic.txns t hm)
    by_cases ho : st.owner = some t
    · have hst : Aside t s (Voltha.Config.step S s st) := by
        unfold Voltha.Config.step
        rw [perform_closed ho hnot]
        exact collect_aside s
      exact ⟨habs.aside hst, hst.clean hc⟩
    · have ha : Aside t s (Voltha.Config.step S s st) := by
        refine step_aside h.basic ho ?_
        rintro rfl he
        obtain ⟨b, hb⟩ := Option.isSome_iff_exists.mp h.basic.root.born
        have hp : s.latest? rootId = some b.latest := by unfold State.latest?; rw [hb]; rfl
        have hnext : (Voltha.Config.step S s .openTx).nextTx = s.nextTx + 1 := by
          show (perform S .openTx s).2.nextTx = _
          rw [perform, discard_state, openTransaction_eq hp]
          rfl
        rw [hnext, he] at ht
        exact Nat.not_succ_le_self t ht
      exact ⟨habs.aside ha, ha.clean hc⟩

theorem Tidy.run (h : Tidy S s) (l : List Step) : Tidy S (run S s l) := by
  induction l generalizing s with
  | nil => exact h
  | cons st l ih => exact ih (h.step st)

theorem start_tidy {kv : Option Store} {data : Msg} (h : (initRoot S kv data).1.isOk = true) :
    Tidy S (start S kv data) := by
  have hbasic : Basic S (start S kv data) := start_sound closed_true False.elim h
  have hframe := mknode_keeps S (complete S data) none (emptyState kv)
  have hdirty := mknode_dirty S (complete S data) none (emptyState kv)
  refine ⟨hbasic, fun t ht => ?_, fun t _ => ⟨⟨?_, fun n => ?_⟩, ?_⟩⟩
  · have ht : t ∈ (initRoot S kv data).2.txns := ht
    have htx : (initRoot S kv data).2.txns = [] := hframe.txns
    rw [htx] at ht
    cases ht
  · exact congrFun hdirty t
  · cases hb : ((start S kv data).node n).branches (some t) with
    | none => rfl
    | some b =>
      have hb : ((initRoot S kv data).2.node n).branches (some t) = some b := hb
      cases hframe.stale n (some t) b trivial (by simp) hb
  · have hempty : Clean t (emptyState kv) := fun n k b _ hb => by cases hb
    have hc : Clean t (initRoot S kv data).2 :=
      wp_snd (wp_mono (mknode_clean S t (complete S data) none _ hempty) (fun _ _ h => h.1)
        fun _ _ h => h)
    exact hc.of_node rfl

theorem Reachable.tidy (h : Reachable S s) : Tidy S s := by
  obtain ⟨kv, data, l, hinit, rfl⟩ := h
  exact (start_tidy hinit).run l

/-! ## 後始末 -/

/--
transaction `t` が何も残していないこと。

root が持ち続けているどの版から辿れる node にも `t` の branch が無く、commit された最新の木に
`t` の枝の版が無く、`_dirty_nodes` に `t` の項目が無い。
-/
structure LeavesNothing (t : TxId) (s : State) : Prop where
  branch : ∀ r ∈ s.heldBy rootId, ∀ r', FieldTree.Sub r' r →
    (s.node (Rev.node r')).branches (some t) = none
  latest : ∀ r, s.latest? rootId = some r → Untagged t r
  dirty : s.dirty t = none

theorem Gone.leavesNothing (h : Gone t s) : LeavesNothing t s where
  branch _ _ r' _ := h.absent.branch (Rev.node r')
  latest _ hr := h.clean.latest hr
  dirty := h.absent.dirty

/--
**終わった transaction が何も残さないのは、取り消したときと、衝突で断られたときである。**

到達できるどの状態でも、開いている transaction を取り消せば、その後どんな操作が続いても
何も残らない。commit の後に何も残らないのは、dry run が衝突を見つけたときに限る。
merge に成功すれば `_dirty_nodes` の項目が残り、他の例外で終われば枝も残る。
-/
theorem closed_leaves_nothing_iff (S : Schema) {s : State} (hs : Reachable S s) {t : TxId}
    (ht : t ∈ s.txns) :
    (∀ l, LeavesNothing t (run S (step S s (.cancel t)) l)) ∧
      ((∀ l, LeavesNothing t (run S (step S s (.commit t)) l)) ↔ Conflicts S t s) := by
  have htidy := hs.tidy
  have htend := htidy.tended t ht
  have hcommit : step S s (.commit t) = collect (closeHandle t (foldTxbranch S t s).2) := by
    unfold step
    rw [perform, commit_eq ht]
  refine ⟨fun l => ?_, fun h => ?_, fun h l => ?_⟩
  · exact ((htend.cancel htidy.basic ht).run (htidy.step _).basic l).leavesNothing
  · -- 衝突が無ければ台帳の項目が残るので、直後の状態で既に成り立たない
    by_contra hcon
    have hdirty : s.dirty t = none := by
      have := (h []).dirty
      rw [run, List.foldl_nil, hcommit] at this
      rw [← foldTxbranch_dirty hcon]
      exact this
    obtain ⟨l, hl⟩ := htend.booked
    rw [hl.dirty] at hdirty
    cases hdirty
  · have hgone := htend.gone_of_drop htidy.basic ht
    rw [← foldTxbranch_conflict h, ← hcommit] at hgone
    exact (hgone.run (htidy.step _).basic l).leavesNothing

/-- 取り消した transaction は、その後に別の transaction を開いても何も残していない。 -/
theorem closed_leaves_nothing_iff_cancelled :
    LeavesNothing 0 (run volthaSchema
      (step volthaSchema (run volthaSchema (start volthaSchema none sampleInstance)
        [.openTx, .update (some 0) ["adapters", "0"] (adapterMsg "0" "b") false]) (.cancel 0))
      [.openTx]) :=
  (closed_leaves_nothing_iff volthaSchema (reachable_run (by decide +kernel) _)
    (t := 0) (by decide +kernel)).1 [.openTx]

/-- 何もせずに commit した transaction も、`_dirty_nodes` に項目を残す。 -/
theorem committed_leaves_dirty_entry :
    ¬LeavesNothing 0 (run volthaSchema (start volthaSchema none sampleInstance)
      [.openTx, .commit 0]) := by
  intro h
  have hsome : ((run volthaSchema (start volthaSchema none sampleInstance)
      [.openTx, .commit 0]).dirty 0).isSome = true := by decide +kernel
  rw [h.dirty] at hsome
  cases hsome

end Voltha.Config
