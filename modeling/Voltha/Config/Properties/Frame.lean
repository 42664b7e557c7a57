import Voltha.Config.Properties.Store
import Voltha.Config.Root

/-!
# 操作が触らないもの

`Frame K s s'` は、`s` に既にあった node について、
型・置き場所・proxy・tag と、key が `K` を満たす branch が `s'` でも変わらないこと。
新しい node を含めて、`K` の transaction の branch が増えることもない。

* `update` / `add` / `remove` は、動いている transaction の key の branch しか書かない
* node の生成は、既にある node を書かない
* merge は、commit された branch と、その transaction の branch しか書かない

どの操作も、列の途中で例外が飛んだ場合を含めて成り立つ。
-/

namespace Voltha.Config

open Exec

/-- 既にある node の、`K` の key の branch を変えない。 -/
structure Frame (K : Option TxId → Prop) (s s' : State) : Prop where
  next : s.nextNode ≤ s'.nextNode
  uid : s.nextUid ≤ s'.nextUid
  nextTx : s'.nextTx = s.nextTx
  type : ∀ n < s.nextNode, (s'.node n).type = (s.node n).type
  slot : ∀ n < s.nextNode, (s'.node n).slot = (s.node n).slot
  proxy : ∀ n < s.nextNode, (s'.node n).proxy = (s.node n).proxy
  tags : ∀ n < s.nextNode, (s'.node n).tags = (s.node n).tags
  prune : ∀ n < s.nextNode, (s'.node n).autoPrune = (s.node n).autoPrune
  committed : ∀ n < s.nextNode, ((s.node n).branches none).isSome →
    ((s'.node n).branches none).isSome
  branch : ∀ n < s.nextNode, ∀ k, K k → (s'.node n).branches k = (s.node n).branches k
  stale : ∀ n k b, K k → k ≠ none → (s'.node n).branches k = some b →
    (s.node n).branches k = some b
  objs : ∀ r ∈ s.objs, r ∈ s'.objs
  txns : s'.txns = s.txns
  loading : s'.loading = s.loading
  kv : s'.kv.isSome = s.kv.isSome
  persisted : s.Persisted → s'.Persisted

variable {K L : Option TxId → Prop} {s s' s'' : State}

namespace Frame

theorem refl (s : State) : Frame K s s where
  next := Nat.le_refl _
  uid := Nat.le_refl _
  nextTx := rfl
  type _ _ := rfl
  slot _ _ := rfl
  proxy _ _ := rfl
  tags _ _ := rfl
  prune _ _ := rfl
  committed _ _ h := h
  branch _ _ _ _ := rfl
  stale _ _ _ _ _ h := h
  objs _ h := h
  txns := rfl
  loading := rfl
  kv := rfl
  persisted h := h

theorem trans (h₁ : Frame K s s') (h₂ : Frame K s' s'') : Frame K s s'' where
  next := Nat.le_trans h₁.next h₂.next
  uid := Nat.le_trans h₁.uid h₂.uid
  nextTx := h₂.nextTx.trans h₁.nextTx
  type n hn := (h₂.type n (Nat.lt_of_lt_of_le hn h₁.next)).trans (h₁.type n hn)
  slot n hn := (h₂.slot n (Nat.lt_of_lt_of_le hn h₁.next)).trans (h₁.slot n hn)
  proxy n hn := (h₂.proxy n (Nat.lt_of_lt_of_le hn h₁.next)).trans (h₁.proxy n hn)
  tags n hn := (h₂.tags n (Nat.lt_of_lt_of_le hn h₁.next)).trans (h₁.tags n hn)
  prune n hn := (h₂.prune n (Nat.lt_of_lt_of_le hn h₁.next)).trans (h₁.prune n hn)
  committed n hn h := h₂.committed n (Nat.lt_of_lt_of_le hn h₁.next) (h₁.committed n hn h)
  branch n hn k hk := (h₂.branch n (Nat.lt_of_lt_of_le hn h₁.next) k hk).trans (h₁.branch n hn k hk)
  stale n k b hk hne h := h₁.stale n k b hk hne (h₂.stale n k b hk hne h)
  objs r hr := h₂.objs r (h₁.objs r hr)
  txns := h₂.txns.trans h₁.txns
  loading := h₂.loading.trans h₁.loading
  kv := h₂.kv.trans h₁.kv
  persisted h := h₂.persisted (h₁.persisted h)

instance : Std.Refl (Frame K) := ⟨refl⟩

instance : IsTrans State (Frame K) := ⟨fun _ _ _ => trans⟩

/-- 変えない key を減らせば弱くなる。 -/
theorem weaken (h : Frame K s s') (hk : ∀ k, L k → K k) : Frame L s s' :=
  { h with
    branch := fun n hn k hk' => h.branch n hn k (hk k hk')
    stale := fun n k b hk' => h.stale n k b (hk k hk') }

end Frame

theorem Keeps.weaken {α : Type} {m : Op α} (h : Keeps (Frame K) m) (hk : ∀ k, L k → K k) :
    Keeps (Frame L) m := fun s => (h s).weaken hk

/-! ## 版と branch -/

theorem finalizeRev_node (s : State) (r : Rev) : (s.finalizeRev r).node = s.node := by
  unfold State.finalizeRev; split <;> rfl

theorem newRev_keeps (n : NodeId) (tag : BranchTag) (store : StoreRef) (config : Data)
    (children : List (String × List Rev)) : Keeps (Frame K) (newRev n tag store config children) := by
  intro s
  have hp : s.Persisted → (newRev n tag store config children s).2.Persisted := fun h =>
    State.Persisted.finalizeRev (s := { s with nextUid := s.nextUid + 1 }) h _
  simp only [newRev, State.finalizeRev] at hp ⊢
  cases store <;>
    exact { Frame.refl s with
      uid := Nat.le_succ _
      objs := fun r hr => by simp [hr]
      kv := by simp
      persisted := hp }

theorem mkrev_keeps (n : NodeId) (tag : BranchTag) (config : Data)
    (children : List (String × List Rev)) : Keeps (Frame K) (mkrev n tag config children) :=
  Keeps.read.bind fun s => newRev_keeps n tag s.storeRef config children

theorem setNode_node (s : State) (n m : NodeId) (nd : Node) :
    (s.setNode n nd).node m = if m = n then nd else s.node m := by
  by_cases hm : m = n
  · subst hm; simp [State.setNode]
  · simp [State.setNode, hm]

@[simp] theorem setBranch_node_self (s : State) (n : NodeId) (k : Option TxId) (b : Option Branch) :
    ((s.setBranch n k b).node n).branches = Function.update (s.node n).branches k b := by
  simp [State.setBranch, State.setNode]

theorem setBranch_node_ne (s : State) {n m : NodeId} (k : Option TxId) (b : Option Branch)
    (h : m ≠ n) : (s.setBranch n k b).node m = s.node m := by
  simp [State.setBranch, State.setNode, h]

theorem setBranch_branches (s : State) (n m : NodeId) (k k' : Option TxId) (b : Option Branch) :
    ((s.setBranch n k b).node m).branches k'
      = if m = n ∧ k' = k then b else (s.node m).branches k' := by
  by_cases hm : m = n
  · subst hm
    by_cases hk : k' = k
    · simp [hk]
    · simp [hk]
  · simp [setBranch_node_ne s k b hm, hm]

/-- branch の書き換えは、他の key の branch と、branch 以外の項目を変えない。 -/
theorem frame_setBranch (s : State) (n : NodeId) (k : Option TxId) (b : Option Branch)
    (hb : k = none → b.isSome) : Frame (· ≠ k) s (s.setBranch n k b) := by
  have hnode : ∀ m, (s.setBranch n k b).node m
      = { s.node m with branches := ((s.setBranch n k b).node m).branches } := by
    intro m
    by_cases hm : m = n
    · subst hm; simp [State.setBranch, State.setNode]
    · rw [setBranch_node_ne s k b hm]
  exact { Frame.refl (K := (· ≠ k)) s with
    type := fun m _ => by rw [hnode m]
    slot := fun m _ => by rw [hnode m]
    proxy := fun m _ => by rw [hnode m]
    tags := fun m _ => by rw [hnode m]
    prune := fun m _ => by rw [hnode m]
    committed := fun m _ h => by
      rw [setBranch_branches]
      split
      · next hc => exact hb hc.2.symm
      · exact h
    branch := fun m _ k' hk' => by rw [setBranch_branches, if_neg fun hc => hk' hc.2]
    stale := fun m k' b' hk' _ h => by
      rwa [setBranch_branches, if_neg fun hc => hk' hc.2] at h }

theorem frame_announce (n : NodeId) (b : Branch) (anns : List (CallbackType × Context)) (s : State) :
    Frame K s (announce n b anns s) := by
  unfold announce
  split
  · exact { Frame.refl s with }
  · exact Frame.refl s

theorem frame_persistRoot (n : NodeId) (b : Branch) (r : Rev) (s : State) :
    Frame K s (persistRoot n b r s) := by
  have hp := fun h : s.Persisted => h.persistRoot n b r
  unfold persistRoot at hp ⊢
  by_cases hc : n = rootId ∧ b.tag = .committed
  · rw [if_pos hc] at hp ⊢
    exact { Frame.refl s with kv := by simp, persisted := hp }
  · rw [if_neg hc]
    exact Frame.refl s

theorem makeLatest_keeps (n : NodeId) (k : Option TxId) (b : Branch) (r : Rev)
    (anns : List (CallbackType × Context)) : Keeps (Frame (· ≠ k)) (makeLatest n k b r anns) :=
  fun s => ((frame_setBranch s n k _ fun _ => rfl).trans (frame_announce ..)).trans
    (frame_persistRoot ..)

theorem mkTxbranch_keeps (n : NodeId) (t : TxId) :
    Keeps (Frame (· ≠ some t)) (mkTxbranch n t) :=
  Keeps.read.bind fun _ => (Keeps.ofOption _ _).bind fun _ =>
    Keeps.bind (fun s => frame_setBranch s n (some t) _ (by simp)) fun _ => Keeps.pure _

theorem trackDirty_keeps (n : NodeId) (t : TxId) :
    Keeps (Frame (· ≠ some t)) (trackDirty t n) :=
  Keeps.bind (fun s => { Frame.refl s with }) fun _ => mkTxbranch_keeps n t

theorem branchFor_keeps (n : NodeId) (k : Option TxId) : Keeps (Frame (· ≠ k)) (branchFor n k) := by
  refine Keeps.read.bind fun s => ?_
  cases (s.node n).branches k with
  | some b => exact Keeps.pure b
  | none =>
    cases k with
    | none => exact Keeps.raise _
    | some t => exact trackDirty_keeps n t

theorem invokePre_keeps (n : NodeId) (type : CallbackType) (ctx : Context) :
    Keeps (Frame K) (invokePre n type ctx) := by
  refine Keeps.read.bind fun s => ?_
  cases (s.node n).proxy with
  | none => exact Keeps.pure ()
  | some p =>
    dsimp only
    cases runCallbacks false (p.callbacks type) ctx with
    | ok _ => exact Keeps.pure ()
    | error e => exact Keeps.raise e

theorem frame_detached (s : State) (l : List Rev) : Frame K s { s with detached := l } :=
  { Frame.refl s with }

theorem delTxbranch_keeps (n : NodeId) (t : TxId) :
    Keeps (Frame (· ≠ some t)) (delTxbranch n t) := by
  refine Keeps.read.bind fun s₀ => ?_
  cases s₀.txBranch? t n with
  | none => exact Keeps.raise _
  | some b =>
    intro s
    have h := frame_setBranch s n (some t) none (by simp)
    simp only [modify_apply]
    split
    · exact h.trans (frame_detached _ _)
    · exact h

/-! ## 触らない項目 -/

section Unchanged

variable {τ : Type} {f : State → τ}

/-- 版を作るときに書くのは、通し番号と kv store と object の一覧だけである。 -/
theorem newRev_unchanged (hf : ∀ s nextUid kv objs, f { s with nextUid, kv, objs } = f s)
    (n : NodeId) (tag : BranchTag) (store : StoreRef) (config : Data)
    (children : List (String × List Rev)) :
    Keeps (Unchanged f) (newRev n tag store config children) := by
  intro s
  simp only [newRev, State.finalizeRev]
  cases store <;> exact hf s _ _ _

/-- 版を据えるときに書くのは、node の表と queue と kv store だけである。 -/
theorem makeLatest_unchanged (hf : ∀ s node queue kv, f { s with node, queue, kv } = f s)
    (n : NodeId) (k : Option TxId) (b : Branch) (r : Rev)
    (anns : List (CallbackType × Context)) : Keeps (Unchanged f) (makeLatest n k b r anns) := by
  intro s
  have h1 : ∀ s : State, f (persistRoot n b r s) = f s := by
    intro s
    unfold persistRoot
    split
    · exact hf s _ _ _
    · rfl
  have h2 : ∀ s : State, f (announce n b anns s) = f s := by
    intro s
    unfold announce
    split
    · exact hf s _ _ _
    · rfl
  exact (h1 _).trans ((h2 _).trans (hf s _ _ _))

/-- 枝を消すときに書くのは、node の表と、循環参照で残る版の一覧だけである。 -/
theorem delTxbranch_unchanged (hf : ∀ s node detached, f { s with node, detached } = f s)
    (n : NodeId) (t : TxId) : Keeps (Unchanged f) (delTxbranch n t) := by
  refine Keeps.read.bind fun s₀ => ?_
  cases s₀.txBranch? t n with
  | none => exact Keeps.raise _
  | some b =>
    intro s
    simp only [modify_apply]
    split <;> exact hf s _ _

theorem delTxbranches_unchanged (hf : ∀ s node detached, f { s with node, detached } = f s)
    (t : TxId) : ∀ ns : List NodeId, Keeps (Unchanged f) (delTxbranches t ns)
  | [] => Keeps.pure ()
  | n :: ns => (delTxbranch_unchanged hf n t).bind fun _ => delTxbranches_unchanged hf t ns

end Unchanged

/-! ## node の生成 -/

variable (S : Schema)

theorem newNode_keeps (type : String) (slot : Option Slot) : Keeps (Frame K) (newNode type slot) := by
  intro s
  have hne : ∀ n < s.nextNode, n ≠ s.nextNode := fun n hn => Nat.ne_of_lt hn
  have hnode : ∀ n < s.nextNode, ∀ nd, (s.setNode s.nextNode nd).node n = s.node n := by
    intro n hn nd
    simp [State.setNode, hne n hn]
  exact { Frame.refl (K := K) s with
    next := Nat.le_succ _
    type := fun n hn => by simp only [newNode, hnode n hn]
    slot := fun n hn => by simp only [newNode, hnode n hn]
    proxy := fun n hn => by simp only [newNode, hnode n hn]
    tags := fun n hn => by simp only [newNode, hnode n hn]
    prune := fun n hn => by simp only [newNode, hnode n hn]
    committed := fun n hn h => by simpa only [newNode, hnode n hn] using h
    branch := fun n hn k _ => by simp only [newNode, hnode n hn]
    stale := fun n k b _ _ h => by
      by_cases hn : n = s.nextNode
      · subst hn; simp [newNode, State.setNode] at h
      · simpa [newNode, State.setNode, hn] using h }

/-- まだ無かった node への書き込みは、既にある node から見えない。 -/
theorem Frame.of_fresh {n : NodeId} (h₁ : Frame (fun _ => True) s s') (hn : s.nextNode ≤ n)
    (h₂ : Frame (· ≠ none) s' s'')
    (hother : ∀ m, m ≠ n → (s''.node m).branches = (s'.node m).branches) :
    Frame (fun _ => True) s s'' := by
  have h := (h₁.weaken (L := (· ≠ none)) fun _ _ => trivial).trans h₂
  exact { h with
    branch := fun m hm k _ => by
      rw [hother m (Nat.ne_of_lt (Nat.lt_of_lt_of_le hm hn))]
      exact h₁.branch m hm k trivial
    stale := fun m k b _ hk => h.stale m k b hk hk }

theorem makeLatest_other (n m : NodeId) (k : Option TxId) (b : Branch) (r : Rev)
    (anns : List (CallbackType × Context)) (s : State) (h : m ≠ n) :
    ((makeLatest n k b r anns s).2.node m) = s.node m := by
  have h1 : ∀ s : State, (announce n b anns s).node = s.node := by
    intro s; unfold announce; split <;> rfl
  have h2 : ∀ s : State, (persistRoot n b r s).node = s.node := by
    intro s; unfold persistRoot; split <;> rfl
  simp only [makeLatest, modify_apply, h1, h2]
  exact setBranch_node_ne s k _ h

mutual

/-- node の生成は、既にある node を変えない。 -/
theorem mknode_keeps : ∀ (m : Msg) (slot : Option Slot),
    Keeps (Frame fun _ => True) (mknode S m slot)
  | .mk d cs, slot => by
    intro s
    rw [mknode]
    have hnew := newNode_keeps (K := fun _ => True) d.type slot s
    have hfst : newNode d.type slot s = (.ok s.nextNode, (newNode d.type slot s).2) := rfl
    rw [bind_ok hfst]
    have hf := mknodeFields_keeps s.nextNode d.type cs (newNode d.type slot s).2
    rcases hq : mknodeFields S s.nextNode d.type cs (newNode d.type slot s).2 with ⟨e | l, s₁⟩
    · rw [bind_error hq]
      rw [hq] at hf
      exact hnew.trans hf
    · rw [bind_ok hq]
      rw [hq] at hf
      have hr := mkrev_keeps (K := fun _ => True) s.nextNode .committed d l s₁
      rcases hm : mkrev s.nextNode .committed d l s₁ with ⟨e | r, s₂⟩
      · rw [bind_error hm]
        rw [hm] at hr
        exact (hnew.trans hf).trans hr
      · rw [bind_ok hm]
        rw [hm] at hr
        rw [bind_apply, read_apply]
        refine Frame.of_fresh ((hnew.trans hf).trans hr) (Nat.le_refl _)
          (makeLatest_keeps s.nextNode none _ r [] s₂) ?_
        intro m hne
        exact congrArg Node.branches (makeLatest_other s.nextNode m none _ r [] s₂ hne)

theorem mknodeFields_keeps (n : NodeId) (ty : String) : ∀ cs : List (String × List Msg),
    Keeps (Frame fun _ => True) (mknodeFields S n ty cs)
  | [] => by rw [mknodeFields]; exact Keeps.pure _
  | (name, ms) :: cs => by
    rw [mknodeFields]
    exact (mknodeList_keeps n name _ [] ms).bind fun _ =>
      (mknodeFields_keeps n ty cs).bind fun _ => Keeps.pure _

theorem mknodeList_keeps (n : NodeId) (name : String) : ∀ (key : Option String)
    (seen : List Value) (ms : List Msg),
    Keeps (Frame fun _ => True) (mknodeList S n name key seen ms)
  | _, _, [] => by rw [mknodeList]; exact Keeps.pure _
  | none, seen, m :: ms => by
    rw [mknodeList]
    exact (mknode_keeps m _).bind fun _ =>
      (mknodeList_keeps n name none seen ms).bind fun _ => Keeps.pure _
  | some k, seen, m :: ms => by
    rw [mknodeList]
    refine (mknode_keeps m _).bind fun _ => (Keeps.ofOption _ _).bind fun v => ?_
    split
    · exact Keeps.raise _
    · exact (mknodeList_keeps n name (some k) (v :: seen) ms).bind fun _ => Keeps.pure _

end

/-! ## update / add / remove -/

variable (k : Option TxId)

theorem testNoChildren_keeps (data : Msg) : ∀ fs : List ChildField,
    Keeps (Frame K) (testNoChildren data fs)
  | [] => Keeps.pure ()
  | _ :: fs => (Keeps.require _ _).bind fun _ => testNoChildren_keeps data fs

theorem doUpdate_keeps (n : NodeId) (b : Branch) (data : Msg) (strict : Bool) :
    Keeps (Frame (· ≠ k)) (doUpdate S n k b data strict) :=
  Keeps.read.bind fun _ => (Keeps.require _ _).bind fun _ => (testNoChildren_keeps data _).bind
    fun _ => (invokePre_keeps _ _ _).bind fun _ => Keeps.ite (fun _ => Keeps.pure _) fun _ =>
      (Keeps.require _ _).bind fun _ => (newRev_keeps _ _ _ _ _).bind fun r =>
        (makeLatest_keeps _ _ _ _ _).bind fun _ => Keeps.pure r

/-- 子を差し替えて自分の版を据えるところ。 -/
theorem install_keeps (n : NodeId) (b : Branch) (name : String) (l : List Rev)
    (anns : List (CallbackType × Context)) :
    Keeps (Frame (· ≠ k)) (do
      let rev ← updateChildren b.latest n b.tag name l
      makeLatest n k b rev anns
      pure rev) :=
  (newRev_keeps _ _ _ _ _).bind fun r => (makeLatest_keeps _ _ _ _ _).bind fun _ => Keeps.pure r

/-- `update` は、key `k` の branch しか書かない。 -/
theorem update_keeps (data : Msg) (strict : Bool) (path : List String) :
    ∀ n, Keeps (Frame (· ≠ k)) (update S k data strict path n) := by
  induction path using pathInduct with
  | nil => exact fun n => (branchFor_keeps n k).bind fun b => doUpdate_keeps S k n b data strict
  | cons name rest ih ih2 =>
    intro n
    rw [update]
    refine Keeps.ite (fun _ => ih n) fun _ => (branchFor_keeps n k).bind fun b =>
      Keeps.read.bind fun s => (Keeps.ofOption _ _).bind fun field => ?_
    cases field.kind with
    | single =>
      exact (Keeps.ofOption _ _).bind fun c => (ih (Rev.node c)).bind fun c' =>
        install_keeps k n b name [c'] []
    | list => exact Keeps.ite (fun _ => Keeps.raise _) fun _ => Keeps.raise _
    | keyed key kt =>
      cases rest with
      | nil => exact Keeps.raise _
      | cons keyStr path =>
        refine Keeps.ite (fun _ => Keeps.raise _) fun _ => (Keeps.ofOption _ _).bind fun v =>
          (Keeps.ofOption _ _).bind fun p => (ih2 keyStr path rfl (Rev.node p.2)).bind fun c' => ?_
        exact Keeps.ite (fun _ => Keeps.pure _) fun _ =>
          Keeps.ite (fun _ => Keeps.raise _) fun _ => install_keeps k n b name _ []

theorem addChild_keeps (n : NodeId) (b : Branch) (name key : String) (data : Msg) :
    Keeps (Frame (· ≠ k)) (addChild S n k b name key data) := by
  refine (invokePre_keeps _ _ _).bind fun _ => (Keeps.ofOption _ _).bind fun v => ?_
  cases findRevByKey key v (b.latest.child name) with
  | some _ => exact Keeps.raise _
  | none =>
    exact (Keeps.weaken (mknode_keeps S _ _) fun _ _ => trivial).bind fun c =>
      install_keeps k n b name _ _

/-- `add` は、key `k` の branch しか書かない。 -/
theorem add_keeps (data : Msg) (path : List String) :
    ∀ n, Keeps (Frame (· ≠ k)) (add S k data path n) := by
  induction path using pathInduct with
  | nil => exact fun n => Keeps.raise _
  | cons name rest ih ih2 =>
    intro n
    rw [add]
    refine Keeps.ite (fun _ => ih n) fun _ => (branchFor_keeps n k).bind fun b =>
      Keeps.read.bind fun s => (Keeps.ofOption _ _).bind fun field => ?_
    cases field.kind with
    | single => exact Keeps.raise _
    | list => exact Keeps.ite (fun _ => Keeps.raise _) fun _ => Keeps.raise _
    | keyed key kt =>
      cases rest with
      | nil => exact addChild_keeps S k n b name key data
      | cons keyStr path =>
        exact Keeps.ite (fun _ => addChild_keeps S k n b name key data) fun _ =>
          (Keeps.ofOption _ _).bind fun v => (Keeps.ofOption _ _).bind fun p =>
            (ih2 keyStr path rfl (Rev.node p.2)).bind fun c' => install_keeps k n b name _ []

/-- `remove` は、key `k` の branch しか書かない。 -/
theorem remove_keeps (path : List String) :
    ∀ n, Keeps (Frame (· ≠ k)) (remove S k path n) := by
  induction path using pathInduct with
  | nil => exact fun n => Keeps.raise _
  | cons name rest ih ih2 =>
    intro n
    rw [remove]
    refine Keeps.ite (fun _ => ih n) fun _ => (branchFor_keeps n k).bind fun b =>
      Keeps.read.bind fun s => (Keeps.ofOption _ _).bind fun field => ?_
    cases field.kind with
    | single => exact Keeps.raise _
    | list => exact Keeps.ite (fun _ => Keeps.raise _) fun _ => Keeps.raise _
    | keyed key kt =>
      cases rest with
      | nil => exact Keeps.raise _
      | cons keyStr path =>
        refine Keeps.ite (fun _ => Keeps.raise _) fun _ => (Keeps.ofOption _ _).bind fun v =>
          (Keeps.ofOption _ _).bind fun p => Keeps.ite (fun _ => ?_) fun _ =>
            (ih2 keyStr path rfl (Rev.node p.2)).bind fun c' => install_keeps k n b name _ []
        exact (invokePre_keeps _ _ _).bind fun _ => install_keeps k n b name _ _

/-! ## merge -/

section Merge

variable {R : State → State → Prop}

theorem changedData_keeps [Std.Refl R] (o : Option Rev) : Keeps R (changedData o) := by
  cases o with
  | none => exact Keeps.raise _
  | some r => exact Keeps.pure _

variable [Std.Refl R] [IsTrans State R]

theorem bothRemoved_keeps (dst : AnalyzeChanges) :
    ∀ ks l ch, Keeps R (bothRemoved dst ks l ch)
  | [], _, _ => Keeps.pure _
  | k :: ks, l, ch => by
    rw [bothRemoved]
    refine Keeps.ite (fun _ => Keeps.raise _) fun _ => Keeps.ite
      (fun _ => bothRemoved_keeps dst ks l ch) fun _ => (Keeps.ofOption _ _).bind fun idx => ?_
    cases l[idx]? with
    | none => exact Keeps.raise _
    | some old =>
      exact (changedData_keeps old).bind fun _ => bothRemoved_keeps dst ks _ _

variable {mergeChild : Rev → Op (Option Rev)} (hmc : ∀ c, Keeps R (mergeChild c))

include hmc

theorem ownAdded_keeps (srcList : List Rev) (m2 : List (Option Value × Nat)) :
    ∀ ks l ch, Keeps R (ownAdded mergeChild srcList m2 ks l ch)
  | [], _, _ => Keeps.pure _
  | _ :: ks, _, _ => (Keeps.ofOption _ _).bind fun p => (hmc p.2).bind fun o =>
      (changedData_keeps o).bind fun _ => ownAdded_keeps srcList m2 ks _ _

theorem ownChanged_keeps (srcList : List Rev) (m2 : List (Option Value × Nat)) :
    ∀ ks l, Keeps R (ownChanged mergeChild srcList m2 ks l)
  | [], _ => Keeps.pure _
  | _ :: ks, _ => (Keeps.ofOption _ _).bind fun p => (hmc p.2).bind fun _ =>
      ownChanged_keeps srcList m2 ks _

theorem mergeKeyedOwn_keeps (key : String) (forkList srcList : List Rev) :
    Keeps R (mergeKeyedOwn mergeChild key forkList srcList) :=
  (ownAdded_keeps hmc _ _ _ _ _).bind fun _ => (ownChanged_keeps hmc _ _ _ _).bind fun _ =>
    Keeps.pure _

theorem bothAdded_keeps (srcList dstList : List Rev) (src dst : AnalyzeChanges) :
    ∀ ks l ch, Keeps R (bothAdded mergeChild srcList dstList src dst ks l ch)
  | [], _, _ => Keeps.pure _
  | _ :: ks, _, _ => (Keeps.ofOption _ _).bind fun p => Keeps.ite
      (fun _ => (Keeps.ofOption _ _).bind fun q => Keeps.ite
        (fun _ => (hmc q.2).bind fun _ => bothAdded_keeps srcList dstList src dst ks _ _)
        fun _ => Keeps.raise _)
      fun _ => (hmc p.2).bind fun o => (changedData_keeps o).bind fun _ =>
        bothAdded_keeps srcList dstList src dst ks _ _

theorem bothChanged_keeps (srcList dstList : List Rev) (src dst : AnalyzeChanges) :
    ∀ ks l, Keeps R (bothChanged mergeChild srcList dstList src dst ks l)
  | [], _ => Keeps.pure _
  | _ :: ks, _ => Keeps.ite (fun _ => Keeps.raise _) fun _ =>
      (Keeps.ofOption _ _).bind fun p => (Keeps.ofOption _ _).bind fun _ => Keeps.ite
        (fun _ => Keeps.ite
          (fun _ => (hmc p.2).bind fun _ => bothChanged_keeps srcList dstList src dst ks _)
          fun _ => Keeps.ite (fun _ => Keeps.raise _) fun _ =>
            (hmc p.2).bind fun _ => bothChanged_keeps srcList dstList src dst ks _)
        fun _ => (hmc p.2).bind fun _ => bothChanged_keeps srcList dstList src dst ks _

theorem mergeField_keeps (f : ChildField) (forkList srcList dstList : List Rev) :
    Keeps R (mergeField mergeChild f forkList srcList dstList) := by
  unfold mergeField
  refine Keeps.ite (fun _ => (Keeps.mapList hmc _).bind fun _ => Keeps.pure _) fun _ => ?_
  have hplain : ∀ kind : FieldKind, Keeps R
      (if dstList = forkList then
        if srcList = forkList then Exec.raise (.assertion "We should not be here otherwise")
        else do
          let l ← Exec.mapList mergeChild srcList
          pure (l, if kind = .list then [(.postListchange, .operation f.name)] else [])
      else if srcList ≠ forkList then
        Exec.raise (.mergeConflict
          "Cannot merge because single child node or un-keyedchildren list has changed")
      else pure (dstList.map some, []) : Op (List (Option Rev) × List Change)) := fun kind =>
    Keeps.ite
      (fun _ => Keeps.ite (fun _ => Keeps.raise _) fun _ => (Keeps.mapList hmc _).bind fun _ =>
        Keeps.pure _)
      fun _ => Keeps.ite (fun _ => Keeps.raise _) fun _ => Keeps.pure _
  cases f.kind with
  | single => exact hplain .single
  | list => exact hplain .list
  | keyed key kt =>
    exact Keeps.ite (fun _ => mergeKeyedOwn_keeps hmc key _ _) fun _ =>
      (bothAdded_keeps hmc _ _ _ _ _ _ _).bind fun _ => (bothChanged_keeps hmc _ _ _ _ _ _).bind
        fun _ => bothRemoved_keeps _ _ _ _

theorem mergeFields_keeps (fork src dst : Rev) :
    ∀ fs acc ch, Keeps R (mergeFields mergeChild fork src dst fs acc ch)
  | [], _, _ => Keeps.pure _
  | f :: fs, _, _ => (mergeField_keeps hmc f _ _ _).bind fun _ =>
      mergeFields_keeps fork src dst fs _ _

theorem merge3way_keeps
    (hnew : ∀ n tag store config children, Keeps R (newRev n tag store config children))
    (dryRun : Bool) (fork src dst : Rev) :
    Keeps R (merge3way S mergeChild dryRun fork src dst) := by
  unfold merge3way mergeConfig
  refine Keeps.bind ?_ fun _ => (mergeFields_keeps hmc fork src dst _ _ _).bind fun _ =>
    Keeps.ite (fun _ => Keeps.pure _) fun _ => (Keeps.ofOption _ _).bind fun _ =>
      (hnew _ _ _ _ _).bind fun _ => Keeps.pure _
  exact Keeps.ite (fun _ => Keeps.pure _) fun _ =>
    Keeps.ite (fun _ => Keeps.raise _) fun _ => Keeps.pure _

omit hmc in
/-- merge が書き換えるのは、版を作り、commit された branch に据え、枝を消すときだけである。 -/
theorem mergeTxbranch_keeps_of {t : TxId}
    (hnew : ∀ n tag store config children, Keeps R (newRev n tag store config children))
    (hmake : ∀ n b r changes, Keeps R (makeLatest n none b r changes))
    (hdel : ∀ n, Keeps R (delTxbranch n t)) (dryRun : Bool) : ∀ (fuel : Nat) (n : NodeId),
    Keeps R (mergeTxbranch S t dryRun fuel n)
  | 0, _ => Keeps.raise _
  | fuel + 1, n => by
    rw [mergeTxbranch]
    have hmc : ∀ c : Rev, Keeps R
        (if Rev.tag c = .tx t then mergeTxbranch S t dryRun fuel (Rev.node c) else pure (some c)) :=
      fun c => Keeps.ite
        (fun _ => mergeTxbranch_keeps_of hnew hmake hdel dryRun fuel (Rev.node c)) fun _ =>
        Keeps.pure _
    refine Keeps.read.bind fun s => (Keeps.ofOption _ _).bind fun srcB =>
      (Keeps.ofOption _ _).bind fun dstB => (Keeps.ofOption _ _).bind fun fork =>
        (merge3way_keeps S hmc hnew dryRun _ _ _).bind fun p => ?_
    obtain ⟨rev, changes⟩ := p
    cases rev with
    | none => exact Keeps.pure _
    | some r => exact (hmake n dstB r changes).bind fun _ => (hdel n).bind fun _ => Keeps.pure _

end Merge

/-- merge は、commit された branch と `t` の branch しか書かない。 -/
theorem mergeTxbranch_keeps (t : TxId) (dryRun : Bool) (fuel : Nat) (n : NodeId) :
    Keeps (Frame fun k => k ≠ none ∧ k ≠ some t) (mergeTxbranch S t dryRun fuel n) :=
  mergeTxbranch_keeps_of S newRev_keeps
    (fun n b r changes => Keeps.weaken (makeLatest_keeps n none b r changes) fun _ h => h.1)
    (fun n => Keeps.weaken (delTxbranch_keeps n t) fun _ h => h.2) dryRun fuel n

end Voltha.Config
