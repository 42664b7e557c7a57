import Voltha.Config.Properties.MergeGood

/-!
# 到達できる状態

client の操作を一歩ずつ調べ、不変条件 `Sound` がどの実行でも保たれることを示す。

`Sound` の `κ` の部分は、操作の列が次の条件を満たすときに成り立つ。

* `Typed` — 加える message が protobuf の message で、加える先の field の型のものである
* `KeepsKey` — `update` の data の key が、path の指す key と同じである
-/

namespace Voltha.Config

open Exec

variable {S : Schema} {κ : Mode} {X : State → Rev → Prop}
variable {s s' s₁ : State} {n : NodeId} {k : Option TxId}

/-! ## 操作の条件 -/

/-- 加える message は protobuf の message で、型は加える先の field のものである。 -/
def Step.Typed (S : Schema) (s : State) : Step → Prop
  | .add k path data => Shaped S.fields data ∧
      ∀ m route f, resolve S s k path rootId [] = .container m route f → data.label.type = f.type
  | _ => True

/--
keyed な子への `update` のうち、その子が受け入れるものは、key を変えない。

受け入れないもの（型が違う、子の field に値がある、`PRE_UPDATE` が拒む、読み取り専用の field を
変えようとする）は、key が違っていても構わない。
-/
def Step.KeepsKey (S : Schema) (s : State) : Step → Prop
  | .update k path data strict => ∀ m route f v key,
      resolve S s k path rootId [] = .node m route → route.getLast? = some ⟨f, some v⟩ →
      f.key = some key → Accepts S s k m data strict → data.label.attr key = some v
  | _ => True

/-- 行き着く先の key と data の key を比べるだけの、`KeepsKey` の十分条件。 -/
def Step.sameKey (S : Schema) (s : State) : Step → Bool
  | .update k path data _ =>
    match resolve S s k path rootId [] with
    | .node _ route => route.getLast?.all fun g =>
        g.field.key.all fun key => decide (g.key = none) || decide (data.label.attr key = g.key)
    | _ => true
  | _ => true

theorem Step.keepsKey_of_sameKey {st : Step} (h : st.sameKey S s = true) : st.KeepsKey S s := by
  cases st with
  | update k path data strict =>
    intro m route f v key hres hlast hkey _
    rw [Step.sameKey, hres] at h
    dsimp only at h
    rw [hlast, Option.all_some] at h
    dsimp only at h
    rw [hkey, Option.all_some] at h
    simpa using h
  | _ => trivial

/-- 追う条件に応じた、操作の条件。 -/
structure Step.Allowed (S : Schema) (κ : Mode) (s : State) (st : Step) : Prop where
  keys : κ.keys → st.KeepsKey S s
  typed : κ.typed → st.Typed S s

/-- 実行のどの一歩も、その時点で条件 `P` を満たす。 -/
def EveryStep (S : Schema) (P : State → Step → Prop) : State → List Step → Prop
  | _, [] => True
  | s, st :: l => P s st ∧ EveryStep S P (step S s st) l

theorem EveryStep.append {P : State → Step → Prop} : ∀ {s : State} {l l' : List Step},
    EveryStep S P s (l ++ l') ↔ EveryStep S P s l ∧ EveryStep S P (run S s l) l'
  | _, [], _ => by simp [EveryStep, run]
  | s, st :: l, l' => by
    rw [List.cons_append, EveryStep, EveryStep, EveryStep.append, and_assoc]
    rfl

theorem EveryStep.mono {P Q : State → Step → Prop} (h : ∀ s st, P s st → Q s st) :
    ∀ {s : State} {l : List Step}, EveryStep S P s l → EveryStep S Q s l
  | _, [], _ => trivial
  | s, st :: l, hl => ⟨h s st hl.1, EveryStep.mono h (s := step S s st) (l := l) hl.2⟩

/-- 実行の不変条件は、一歩ごとに示せばよい。 -/
theorem EveryStep.invariant {P : State → Step → Prop} (I : State → Prop)
    (hstep : ∀ s st, P s st → I s → I (step S s st)) : ∀ {s : State} {l : List Step},
    EveryStep S P s l → I s → I (run S s l)
  | _, [], _, h => h
  | s, st :: l, hl, h =>
    EveryStep.invariant I hstep (s := step S s st) (l := l) hl.2 (hstep s st hl.1 h)

/-! ## 状態全体の不変条件 -/

/-- 到達できる状態の条件。 -/
structure Sound (S : Schema) (κ : Mode) (X : State → Rev → Prop) (s : State) : Prop where
  good : Good S κ X s
  root : Alive s rootId
  rootSlot : (s.node rootId).slot = none
  txns : ∀ t ∈ s.txns, t < s.nextTx
  fresh : ∀ n t b, (s.node n).branches (some t) = some b → t < s.nextTx
  queue : s.queue = []

/-- 触る key が、commit された branch か、既にある transaction のものなら保たれる。 -/
theorem Sound.of_frame {K : Option TxId → Prop} (h : Sound S κ X s) (hf : Frame K s s')
    (hg : Good S κ X s') (hK : ∀ t, t < s.nextTx ∨ K (some t)) (hq : s'.queue = []) :
    Sound S κ X s' where
  good := hg
  root := h.root.mono hf
  rootSlot := by rw [hf.slot _ h.root.lt]; exact h.rootSlot
  txns t ht := by rw [hf.txns] at ht; rw [hf.nextTx]; exact h.txns t ht
  fresh n t b hb := by
    rw [hf.nextTx]
    rcases hK t with hlt | hk
    · exact hlt
    · exact h.fresh n t b (hf.stale n (some t) b hk (by simp) hb)
  queue := hq

/-- node と関係のない項目だけの書き換え。 -/
theorem Sound.of_eq (h : Sound S κ X s) (hg : Good S κ X s') (hn : s'.node = s.node)
    (hnext : s'.nextNode = s.nextNode) (htx : s'.nextTx = s.nextTx)
    (htxns : ∀ t ∈ s'.txns, t ∈ s.txns) (hq : s'.queue = []) : Sound S κ X s' where
  good := hg
  root := ⟨by rw [hnext]; exact h.root.lt, by rw [hn]; exact h.root.born⟩
  rootSlot := by rw [hn]; exact h.rootSlot
  txns t ht := by rw [htx]; exact h.txns t (htxns t ht)
  fresh n t b hb := by rw [hn] at hb; rw [htx]; exact h.fresh n t b hb
  queue := hq

theorem executeDeferredCallbacks_eq (h : s.queue = []) : executeDeferredCallbacks s = s := by
  unfold executeDeferredCallbacks
  rw [h, List.append_nil, ← h]

/-! ## update / add / remove -/

/-- 断られて何も変わらないか、本体を動かして最後に callback を呼ぶ。 -/
theorem guarded_cases (op : Op Rev) (k : Option TxId) (s : State) :
    ((inTransaction k (rootOp k op) s).2 = s ∧
      ∃ e, (inTransaction k (rootOp k op) s).1 = .error e) ∨
    (s.queue = [] ∧ (∀ t, k = some t → t ∈ s.txns) ∧
      inTransaction k (rootOp k op) s = ((op s).1, executeDeferredCallbacks (op s).2)) := by
  have hroot : (∀ t, k = some t → t ∈ s.txns) →
      ((rootOp k op s).2 = s ∧ ∃ e, (rootOp k op s).1 = .error e) ∨
      (s.queue = [] ∧ rootOp k op s = ((op s).1, executeDeferredCallbacks (op s).2)) := by
    intro hk
    unfold rootOp checkCallbackQueue
    by_cases hq : s.queue = []
    · have hcheck : (do
          let s ← Exec.read
          if s.queue.isEmpty then pure () else Exec.raise (.assertion "") : Op Unit) s
            = (.ok (), s) := by
        rw [read_bind_apply, hq]; rfl
      rw [bind_ok hcheck]
      cases k with
      | none => exact Or.inr ⟨hq, rfl⟩
      | some t =>
        cases hd : s.dirty t with
        | some l =>
          refine Or.inr ⟨hq, ?_⟩
          unfold andFinally
          dsimp only
          rw [read_bind_apply, hd]
          rfl
        | none =>
          refine Or.inl ?_
          unfold andFinally
          dsimp only
          rw [read_bind_apply, hd]
          exact ⟨executeDeferredCallbacks_eq hq, _, rfl⟩
    · have hcheck : (do
          let s ← Exec.read
          if s.queue.isEmpty then pure () else Exec.raise (.assertion "") : Op Unit) s
            = (.error (.assertion ""), s) := by
        rw [read_bind_apply]
        have : s.queue.isEmpty = false := by simpa using hq
        rw [this]; rfl
      rw [bind_error hcheck]
      exact Or.inl ⟨rfl, _, rfl⟩
  unfold inTransaction
  rw [read_bind_apply]
  cases k with
  | none => exact (hroot (by simp)).imp id fun h => ⟨h.1, by simp, h.2⟩
  | some t =>
    dsimp only
    split
    · next ht =>
      have hk : ∀ t', some t = some t' → t' ∈ s.txns := by rintro _ ⟨rfl⟩; exact ht
      exact (hroot hk).imp id fun h => ⟨h.1, hk, h.2⟩
    · exact Or.inl ⟨rfl, _, rfl⟩

theorem frame_executeDeferred {K : Option TxId → Prop} (s : State) :
    Frame K s (executeDeferredCallbacks s) := { Frame.refl s with }

theorem Sound.slotRoute (h : Sound S κ X s) (route : List Seg) : SlotRoute s rootId route := by
  intro sl key hsl _
  rw [h.rootSlot] at hsl
  cases hsl

/-- root から始めた操作は `Sound` を保つ。 -/
theorem Sound.guarded (hX : Closed X) (h : Sound S κ X s) {op : Op Rev}
    (heff : Effect S k (Keeping S κ) [] rootId s (op s).1 (op s).2) :
    Sound S κ X (inTransaction k (rootOp k op) s).2 := by
  rcases guarded_cases op k s with ⟨he, -⟩ | ⟨-, hk, he⟩
  · rw [he]; exact h
  · rw [he]
    have hg := (heff.good hX (fun _ _ h => h) h.good h.root fun _ => h.slotRoute []).good
    have hf := heff.frame.trans (frame_executeDeferred (op s).2)
    refine h.of_frame hf (hg.of_node_eq hX (frame_executeDeferred (K := (· ≠ k)) _).grows rfl rfl)
      ?_ rfl
    intro t
    by_cases hkt : k = some t
    · exact Or.inl (h.txns t (hk t hkt))
    · exact Or.inr fun he => hkt he.symm

theorem update_keeping {data : Msg} {strict : Bool} {path : List String}
    (hkey : κ.keys → (Step.update k path data strict).KeepsKey S s) :
    Effect S k (Keeping S κ) [] rootId s (update S k data strict path rootId s).1
      (update S k data strict path rootId s).2 :=
  update_effect data strict path rootId s [] fun m route hres hacc hκ f v key hlast hk =>
    hkey hκ m route f v key hres hlast hk hacc

theorem add_keeping {data : Msg} {path : List String}
    (hty : κ.typed → (Step.add k path data).Typed S s) :
    Effect S k (Keeping S κ) [] rootId s (add S k data path rootId s).1
      (add S k data path rootId s).2 :=
  add_effect data path rootId s [] fun m route f hres hκ =>
    ⟨(hty hκ).1, (hty hκ).2 m route f hres⟩

theorem remove_keeping (path : List String) :
    Effect S k (Keeping S κ) [] rootId s (remove S k path rootId s).1
      (remove S k path rootId s).2 :=
  remove_effect path rootId s [] fun _ _ _ _ _ => trivial

/-! ## transaction -/

/-- transaction を開いた後の状態。 -/
def State.opened (s : State) (point : Rev) : State :=
  { s.setBranch rootId (some s.nextTx) (some (forkBranch s.nextTx point)) with
    nextTx := s.nextTx + 1
    dirty := Function.update s.dirty s.nextTx (some [rootId])
    txns := s.nextTx :: s.txns }

theorem openTransaction_eq {point : Rev} (hp : s.latest? rootId = some point) :
    openTransaction s = (.ok s.nextTx, s.opened point) := by
  have hp' : State.latest? { s with
    nextTx := s.nextTx + 1, dirty := Function.update s.dirty s.nextTx (some [rootId]) } rootId
      = some point := hp
  unfold openTransaction mkTxbranch
  rw [read_bind_apply, modify_bind_apply, bind_apply, read_bind_apply, hp']
  rfl

theorem opened_branches (s : State) (point : Rev) (m : NodeId) (k : Option TxId) :
    ((s.opened point).node m).branches k
      = if m = rootId ∧ k = some s.nextTx then some (forkBranch s.nextTx point)
        else (s.node m).branches k :=
  setBranch_branches s rootId m (some s.nextTx) k _

theorem opened_grows (s : State) (point : Rev) : Grows s (s.opened point) := by
  have h := (frame_setBranch s rootId (some s.nextTx) (some (forkBranch s.nextTx point))
    (by simp)).grows
  exact { next := h.next, uid := h.uid, type := h.type, slot := h.slot
          committed := h.committed, objs := h.objs, loading := h.loading, kv := h.kv }

theorem openTransaction_sound (hX : Closed X) (h : Sound S κ X s) :
    Sound S κ X (openTransaction s).2 := by
  obtain ⟨b, hb⟩ := Option.isSome_iff_exists.mp h.root.born
  have hp : s.latest? rootId = some b.latest := by unfold State.latest?; rw [hb]; rfl
  rw [openTransaction_eq hp]
  have hgr := opened_grows s b.latest
  have hcom := (h.good.branch rootId none b hb).grow hX hgr
  have hok : BranchOk S κ X (s.opened b.latest) rootId (some s.nextTx)
      (forkBranch s.nextTx b.latest) := by
    refine ⟨hcom.lt, hcom.born, rfl, fun _ => rfl, (by simp), ?_⟩
    intro r hr
    have : r = b.latest := by simpa [Branch.held, forkBranch] using hr
    rw [this]
    exact ⟨hcom.node_latest, hcom.latest⟩
  refine ⟨h.good.extend hX hgr ?_ ?_ (fun r hr => Or.inl hr), ⟨hcom.lt, hcom.born⟩, ?_, ?_, ?_,
    h.queue⟩
  · intro m k' b' hb'
    rw [opened_branches] at hb'
    split at hb'
    · next hc =>
      obtain ⟨rfl, rfl⟩ := hc
      cases hb'
      exact Or.inr hok
    · exact Or.inl hb'
  · intro m p hp
    refine Or.inl ?_
    rw [← setBranch_tags s rootId m (some s.nextTx) (some (forkBranch s.nextTx b.latest))]
    exact hp
  · rw [hgr.slot _ h.root.lt]; exact h.rootSlot
  · intro t ht
    rcases List.mem_cons.mp ht with rfl | ht
    · exact Nat.lt_succ_self _
    · exact Nat.lt_succ_of_lt (h.txns t ht)
  · intro m t b' hb'
    rw [opened_branches] at hb'
    split at hb'
    · next hc =>
      rw [Option.some.inj hc.2]
      exact Nat.lt_succ_self _
    · exact Nat.lt_succ_of_lt (h.fresh m t b' hb')

/-- 枝を順に捨てる。 -/
theorem delTxbranches_keeps (t : TxId) : ∀ ns : List NodeId,
    Keeps (Frame (· ≠ some t)) (delTxbranches t ns)
  | [] => Keeps.pure ()
  | n :: ns => (delTxbranch_keeps n t).bind fun _ => delTxbranches_keeps t ns

theorem delTxbranches_good (hX : Closed X) (t : TxId) : ∀ (ns : List NodeId) (s : State),
    Good S κ X s → wp (delTxbranches t ns) (fun _ s' => Good S κ X s') (fun _ s' => Good S κ X s') s
  | [], _, hg => hg
  | n :: ns, s, hg => by
    rw [delTxbranches, wp_bind]
    exact wp_mono (delTxbranch_good hX hg n t)
      (fun _ s' hg' => delTxbranches_good hX t ns s' hg') fun _ _ h => h

theorem dropTransaction_keeps (t : TxId) : Keeps (Frame (· ≠ some t)) (dropTransaction t) :=
  Keeps.read.bind fun _ => (Keeps.ofOption _ _).bind fun ns => (delTxbranches_keeps t ns).bind
    fun _ s => { Frame.refl s with }

/-- 枝を捨てても、callback の queue には触らない。 -/
theorem dropTransaction_queue (t : TxId) : Keeps (Unchanged State.queue) (dropTransaction t) :=
  Keeps.read.bind fun _ => (Keeps.ofOption _ _).bind fun ns =>
    (delTxbranches_unchanged (fun _ _ _ => rfl) t ns).bind fun _ _ => rfl

theorem dropTransaction_sound (hX : Closed X) (h : Sound S κ X s) {t : TxId} (ht : t < s.nextTx) :
    Sound S κ X (dropTransaction t s).2 := by
  have hg : wp (dropTransaction t) (fun _ s' => Good S κ X s') (fun _ s' => Good S κ X s') s := by
    unfold dropTransaction
    rw [wp_bind, wp_read, wp_bind]
    refine wp_ofOption (fun ns _ => ?_) fun _ => h.good
    rw [wp_bind]
    refine wp_mono (delTxbranches_good hX t ns s h.good) (fun _ s' hg => ?_) fun _ _ h => h
    exact hg.of_node_eq hX
      { next := Nat.le_refl _, uid := Nat.le_refl _, type := fun _ _ => rfl, slot := fun _ _ => rfl
        committed := fun _ _ h => h, objs := fun _ h => h, loading := rfl, kv := rfl } rfl rfl
  refine h.of_frame (dropTransaction_keeps t s) ?_ (fun t' => ?_)
    ((dropTransaction_queue t s).trans h.queue)
  · exact wp_snd hg
  · by_cases he : t' = t
    · exact Or.inl (he ▸ ht)
    · exact Or.inr fun hc => he (Option.some.inj hc)

/-- dry run は状態を変えない。 -/
theorem mergeTxbranch_dry (S : Schema) (t : TxId) : ∀ (fuel : Nat) (n : NodeId) (s : State),
    wp (mergeTxbranch S t true fuel n) (fun o s' => o = none ∧ s' = s) (fun _ s' => s' = s) s
  | 0, _, _ => rfl
  | fuel + 1, n, s => by
    have hmc : ∀ c : Rev, Keeps (Unchanged id)
        (if Rev.tag c = .tx t then mergeTxbranch S t true fuel (Rev.node c) else pure (some c)) := by
      intro c
      refine Keeps.ite (fun _ s₁ => ?_) fun _ => Keeps.pure _
      exact wp_snd (wp_mono (mergeTxbranch_dry S t fuel (Rev.node c) s₁) (fun _ _ h => h.2)
        fun _ _ h => h)
    rw [mergeTxbranch, wp_bind, wp_read, wp_bind]
    refine wp_ofOption (fun srcB _ => ?_) fun _ => rfl
    rw [wp_bind]
    refine wp_ofOption (fun dstB _ => ?_) fun _ => rfl
    rw [wp_bind]
    refine wp_ofOption (fun fork _ => ?_) fun _ => rfl
    rw [wp_bind]
    unfold merge3way
    rw [wp_bind]
    refine wp_mono (mergeConfig_wp rfl) ?_ fun _ _ h => h
    rintro changed s₁ rfl
    rw [wp_bind]
    refine wp_mono ((mergeFields_keeps hmc fork srcB.latest dstB.latest _ _ _).toWp s₁) ?_
      fun _ _ h => h
    rintro p s₂ hs
    exact ⟨rfl, hs⟩

theorem mergeTxbranch_dry_state (S : Schema) (t : TxId) (fuel : Nat) (n : NodeId) (s : State) :
    (mergeTxbranch S t true fuel n s).2 = s :=
  wp_snd (wp_mono (mergeTxbranch_dry S t fuel n s) (fun _ _ h => h.2) fun _ _ h => h)

/--
`fold_txbranch` の結果。

dry run が衝突を見つければ枝を捨て、それ以外の例外ならそのまま外に出し、
何も無ければ本番の merge をして callback を呼ぶ。
-/
theorem foldTxbranch_eq (S : Schema) (t : TxId) (s : State) :
    foldTxbranch S t s =
      match (mergeTxbranch S t true (mergeFuel s) rootId s).1 with
      | .error (.mergeConflict m) =>
        ((dropTransaction t s).1.bind fun _ => .error (.mergeConflict m), (dropTransaction t s).2)
      | .error e => (.error e, s)
      | .ok _ =>
        ((mergeTxbranch S t false (mergeFuel s) rootId s).1.map fun _ => (),
          executeDeferredCallbacks (mergeTxbranch S t false (mergeFuel s) rootId s).2) := by
  have hdry := mergeTxbranch_dry_state S t (mergeFuel s) rootId s
  unfold foldTxbranch
  rcases hm : mergeTxbranch S t true (mergeFuel s) rootId s with ⟨o, s₁⟩
  rw [hm] at hdry
  have hdry : s₁ = s := hdry
  subst hdry
  cases o with
  | ok o =>
    dsimp only
    rcases mergeTxbranch S t false (mergeFuel s₁) rootId s₁ with ⟨_ | _, s₂⟩ <;> rfl
  | error e =>
    cases e with
    | mergeConflict m =>
      dsimp only
      rcases dropTransaction t s₁ with ⟨_ | _, s₂⟩ <;> rfl
    | _ => rfl

/-- `fold_txbranch` の後の状態は、元のまま・枝を捨てたもの・merge したもののどれかである。 -/
theorem foldTxbranch_state (S : Schema) (t : TxId) (s : State) :
    (foldTxbranch S t s).2 = s ∨ (foldTxbranch S t s).2 = (dropTransaction t s).2 ∨
    (foldTxbranch S t s).2
      = executeDeferredCallbacks (mergeTxbranch S t false (mergeFuel s) rootId s).2 := by
  rw [foldTxbranch_eq]
  split
  · exact Or.inr (Or.inl rfl)
  · exact Or.inl rfl
  · exact Or.inr (Or.inr rfl)

theorem foldTxbranch_frame (S : Schema) (t : TxId) (s : State) :
    Frame (fun k => k ≠ none ∧ k ≠ some t) s (foldTxbranch S t s).2 := by
  rcases foldTxbranch_state S t s with h | h | h <;> rw [h]
  · exact Frame.refl s
  · exact (dropTransaction_keeps t s).weaken fun _ h => h.2
  · exact (mergeTxbranch_keeps S t false (mergeFuel s) rootId s).trans (frame_executeDeferred _)

theorem foldTxbranch_sound (hX : Closed X) (h : Sound S κ X s) {t : TxId} (ht : t < s.nextTx) :
    Sound S κ X (foldTxbranch S t s).2 := by
  rcases foldTxbranch_state S t s with he | he | he <;> rw [he]
  · exact h
  · exact dropTransaction_sound hX h ht
  · have hg := mergeTxbranch_good hX t (mergeFuel s) rootId s h.good
    have hf := mergeTxbranch_keeps S t false (mergeFuel s) rootId s
    have hg' : Good S κ X (mergeTxbranch S t false (mergeFuel s) rootId s).2 :=
      wp_snd (wp_mono hg (fun _ _ h => h.1) fun _ _ h => h)
    refine h.of_frame (hf.trans (frame_executeDeferred _))
      (hg'.of_node_eq hX (frame_executeDeferred (K := fun _ => False) _).grows rfl rfl)
      (fun t' => ?_) rfl
    by_cases he : t' = t
    · exact Or.inl (he ▸ ht)
    · exact Or.inr ⟨by simp, fun hc => he (Option.some.inj hc)⟩

theorem closeHandle_sound (hX : Closed X) (h : Sound S κ X s) (t : TxId) :
    Sound S κ X (closeHandle t s) := by
  refine h.of_eq (h.good.of_node_eq hX ?_ rfl rfl) rfl rfl rfl
    (fun _ ht => (List.mem_filter.mp ht).1) h.queue
  exact { next := Nat.le_refl _, uid := Nat.le_refl _, type := fun _ _ => rfl, slot := fun _ _ => rfl
          committed := fun _ _ h => h, objs := fun _ h => h, loading := rfl, kv := rfl }

/-- 開いている transaction の commit は、`fold_txbranch` をして閉じる。 -/
theorem commit_eq {t : TxId} (ht : t ∈ s.txns) :
    commit S t s = ((foldTxbranch S t s).1, closeHandle t (foldTxbranch S t s).2) := by
  unfold commit
  rw [read_bind_apply, if_pos ht]
  rfl

theorem commit_closed {t : TxId} (ht : t ∉ s.txns) : (commit S t s).2 = s := by
  unfold commit
  rw [read_bind_apply, if_neg ht]
  rfl

theorem commit_sound (hX : Closed X) (h : Sound S κ X s) (t : TxId) :
    Sound S κ X (commit S t s).2 := by
  by_cases ht : t ∈ s.txns
  · rw [commit_eq ht]
    exact closeHandle_sound hX (foldTxbranch_sound hX h (h.txns t ht)) t
  · rw [commit_closed ht]; exact h

/-- 取り消した後の状態。 -/
theorem cancel_state (t : TxId) (s : State) :
    (cancel t s).2 = s ∨ t ∈ s.txns ∧ ((cancel t s).2 = (dropTransaction t s).2 ∨
      (cancel t s).2 = closeHandle t (dropTransaction t s).2) := by
  unfold cancel
  rw [read_bind_apply]
  split
  · next ht =>
    refine Or.inr ⟨ht, ?_⟩
    rcases hd : dropTransaction t s with ⟨e | u, s₁⟩
    · rw [bind_error hd]; exact Or.inl rfl
    · rw [bind_ok hd]; exact Or.inr rfl
  · exact Or.inl rfl

theorem cancel_sound (hX : Closed X) (h : Sound S κ X s) (t : TxId) :
    Sound S κ X (cancel t s).2 := by
  rcases cancel_state t s with he | ⟨ht, he | he⟩ <;> rw [he]
  · exact h
  · exact dropTransaction_sound hX h (h.txns t ht)
  · exact closeHandle_sound hX (dropTransaction_sound hX h (h.txns t ht)) t

/-! ## proxy・tag・prune -/

/-- branch と型と置き場所を変えない、node の書き換え。 -/
theorem Sound.setNode (hX : Closed X) (h : Sound S κ X s) {nd : Node}
    (hty : nd.type = (s.node n).type) (hsl : nd.slot = (s.node n).slot)
    (hbr : nd.branches = (s.node n).branches)
    (htags : ∀ p ∈ nd.tags, p ∈ (s.node n).tags ∨ (n < s.nextNode ∧ Deep S κ X s p.2)) :
    Sound S κ X (s.setNode n nd) := by
  have hnode : ∀ m, (s.setNode n nd).node m = if m = n then nd else s.node m :=
    fun m => setNode_node s n m nd
  have hbranch : ∀ m, ((s.setNode n nd).node m).branches = (s.node m).branches := by
    intro m
    rw [hnode]
    split
    · next he => rw [he, hbr]
    · rfl
  have hgr : Grows s (s.setNode n nd) :=
    { next := Nat.le_refl _
      uid := Nat.le_refl _
      type := fun m _ => by
        rw [hnode]
        split
        · next he => rw [he, hty]
        · rfl
      slot := fun m _ => by
        rw [hnode]
        split
        · next he => rw [he, hsl]
        · rfl
      committed := fun m _ hc => by rw [hbranch]; exact hc
      objs := fun _ h => h
      loading := rfl
      kv := rfl }
  refine ⟨h.good.extend hX hgr (fun m k' b' hb => Or.inl (by rw [hbranch] at hb; exact hb)) ?_
    (fun r hr => Or.inl hr), ⟨h.root.lt, by rw [hbranch]; exact h.root.born⟩, ?_, h.txns, ?_,
    h.queue⟩
  · intro m p hp
    rw [hnode] at hp
    split at hp
    · next he => subst he; exact (htags p hp).imp id fun hd => ⟨hd.1, hd.2.grow hX hgr⟩
    · exact Or.inl hp
  · rw [hgr.slot _ h.root.lt]; exact h.rootSlot
  · intro m t b hb
    rw [hbranch] at hb
    exact h.fresh m t b hb

theorem mkProxy_sound (hX : Closed X) (h : Sound S κ X s) (n : NodeId) (fullPath : List String)
    (exclusive : Bool) : Sound S κ X (mkProxy n fullPath exclusive s).2 := by
  unfold mkProxy
  rw [read_bind_apply]
  cases (s.node n).proxy with
  | none => exact h.setNode hX rfl rfl rfl fun p hp => Or.inl hp
  | some p => dsimp only; split <;> exact h

/-- proxy を探す間は何も書き換えない。書き換えるのは、行き着いた node の `_mk_proxy` だけである。 -/
theorem getProxy_state {P : State → Prop} (h : P s) (fullPath : List String) (exclusive : Bool)
    (hmk : ∀ n, P (mkProxy n fullPath exclusive s).2) (path : List String) :
    ∀ n, P (getProxy S fullPath exclusive path n s).2 := by
  induction path using pathInduct with
  | nil => exact hmk
  | cons name rest ih ih2 =>
    intro n
    rw [getProxy]
    split
    · exact ih n
    · rw [read_bind_apply]
      cases s.latest? n with
      | none => exact h
      | some r =>
        rw [ofOption_some, pure_bind_apply]
        cases S.field? (s.node n).type name with
        | none => exact h
        | some f =>
          rw [ofOption_some, pure_bind_apply]
          cases f.kind with
          | single =>
            dsimp only
            cases (r.child name).head? with
            | none => exact h
            | some c => exact ih (Rev.node c)
          | list => dsimp only; split <;> exact h
          | keyed key kt =>
            cases rest with
            | nil => exact h
            | cons keyStr path =>
              dsimp only
              split
              · exact h
              · cases kt.fromStr keyStr with
                | none => exact h
                | some v =>
                  rw [ofOption_some, pure_bind_apply]
                  cases findRevByKey key v (r.child name) with
                  | none => exact h
                  | some p => exact ih2 keyStr path rfl (Rev.node p.2)

theorem getProxy_sound (hX : Closed X) (h : Sound S κ X s) (fullPath : List String)
    (exclusive : Bool) (path : List String) (n : NodeId) :
    Sound S κ X (getProxy S fullPath exclusive path n s).2 :=
  getProxy_state (P := Sound S κ X) h fullPath exclusive
    (fun m => mkProxy_sound hX h m fullPath exclusive) path n

theorem registerCallback_sound (hX : Closed X) (h : Sound S κ X s) (n : NodeId)
    (type : CallbackType) (f : Callback) : Sound S κ X (registerCallback n type f s).2 := by
  unfold registerCallback
  rw [modify_apply]
  cases (s.node n).proxy with
  | none => exact h
  | some p => exact h.setNode hX rfl rfl rfl fun p hp => Or.inl hp

theorem tagRev_sound (hX : Closed X) (h : Sound S κ X s) (tag : String) (hash : Option Hash) :
    Sound S κ X (tagRev tag hash s).2 := by
  unfold tagRev
  rw [read_bind_apply]
  cases hb : (s.node rootId).branches none with
  | none => exact h
  | some b =>
    rw [ofOption_some, pure_bind_apply]
    have hbok := h.good.branch rootId none b hb
    cases hr : b.byHash hash with
    | none => exact h
    | some r =>
      have hdeep : Deep S κ X s r := by
        refine (hbok.revs r ?_).2
        cases hash with
        | none => rw [Branch.byHash] at hr; simp [Branch.held, ← Option.some.inj hr]
        | some hs =>
          have := List.mem_map_of_mem (f := Prod.snd) (OrderedDict.mem_of_lookup hr)
          simp only [Branch.held, hbok.strong rfl rfl, List.cons_append, List.mem_cons,
            List.mem_append]
          exact Or.inr (Or.inr this)
      refine h.setNode hX rfl rfl rfl fun p hp => ?_
      have hp : p ∈ OrderedDict.set (s.node rootId).tags tag r := hp
      unfold OrderedDict.set at hp
      split at hp
      · obtain ⟨q, hq, he⟩ := List.mem_map.mp hp
        split at he
        · rw [← he]; exact Or.inr ⟨hbok.lt, hdeep⟩
        · rw [← he]; exact Or.inl hq
      · rcases List.mem_append.mp hp with hp | hp
        · exact Or.inl hp
        · rw [List.mem_singleton.mp hp]; exact Or.inr ⟨hbok.lt, hdeep⟩

theorem deleteTag_sound (hX : Closed X) (h : Sound S κ X s) (tag : String) :
    Sound S κ X (deleteTag tag s).2 := by
  unfold deleteTag
  rw [read_bind_apply]
  cases (s.node rootId).tags.lookup tag with
  | none => exact h
  | some r => exact h.setNode hX rfl rfl rfl fun p hp => Or.inl (List.mem_filter.mp hp).1

theorem pruneUntagged_sound (hX : Closed X) (h : Sound S κ X s) :
    Sound S κ X (pruneUntagged s) := by
  unfold pruneUntagged
  cases hb : (s.node rootId).branches none with
  | none => exact h
  | some b =>
    dsimp only
    let keep := Rev.hash b.latest :: (s.node rootId).tags.map fun p => Rev.hash p.2
    have hf : Frame (fun k => k ≠ none) s (s.setBranch rootId none
        (some { b with revs := b.revs.filter fun p => keep.contains p.1 })) :=
      frame_setBranch s rootId none _ (by simp)
    refine h.of_frame hf (h.good.setBranch hX hf rfl rfl ?_) (fun t => Or.inr (by simp)) h.queue
    intro b' he
    have hok := (h.good.branch rootId none b hb).mono hX hf
    cases he
    have hs := hok.strong rfl rfl
    refine ⟨hok.lt, hok.born, hok.tag, hok.origin, fun _ _ => hs, fun r hr => hok.revs r ?_⟩
    simp only [Branch.held, hs, List.cons_append, List.mem_cons, List.mem_append] at hr ⊢
    rcases hr with hr | hr | hr
    · exact Or.inl hr
    · exact Or.inr (Or.inl hr)
    · obtain ⟨p, hp, rfl⟩ := List.mem_map.mp hr
      exact Or.inr (Or.inr (List.mem_map.mpr ⟨p, (List.mem_filter.mp hp).1, rfl⟩))

/-! ## 一歩と実行 -/

/-- 返り値を捨てるだけの `bind` は、状態を変えない。 -/
theorem discard_state {α : Type} (m : Op α) (s : State) :
    ((do let _ ← m; pure ()) s).2 = (m s).2 := by
  rw [bind_apply]
  rcases m s with ⟨_ | _, _⟩ <;> rfl

/-- client の操作は `Sound` を保つ。 -/
theorem perform_sound (hX : Closed X) (h : Sound S κ X s) (st : Step)
    (hst : st.Allowed S κ s) : Sound S κ X (perform S st s).2 := by
  cases st with
  | update k path data strict =>
    rw [perform, discard_state]
    exact h.guarded hX (update_keeping hst.keys)
  | add k path data =>
    rw [perform, discard_state]
    exact h.guarded hX (add_keeping hst.typed)
  | remove k path =>
    rw [perform, discard_state]
    exact h.guarded hX (remove_keeping path)
  | openTx => rw [perform, discard_state]; exact openTransaction_sound hX h
  | commit t => exact commit_sound hX h t
  | cancel t => exact cancel_sound hX h t
  | getProxy path exclusive =>
    rw [perform, discard_state]; exact getProxy_sound hX h path exclusive path rootId
  | registerCallback n type f => exact registerCallback_sound hX h n type f
  | tag tag hash => exact tagRev_sound hX h tag hash
  | deleteTag tag => exact deleteTag_sound hX h tag
  | prune => exact pruneUntagged_sound hX h

/-- branch や tag の持つ版は、生きている。 -/
theorem Sound.mem_live_branch (h : Sound S κ X s) {n : NodeId} {k : Option TxId} {b : Branch}
    (hb : (s.node n).branches k = some b) {r r' : Rev} (hr : r ∈ b.held)
    (hsub : FieldTree.Sub r' r) : r' ∈ s.live := by
  unfold State.live
  refine List.mem_flatMap.mpr ⟨r, List.mem_append_left _ (List.mem_flatMap.mpr ⟨n, ?_, ?_⟩),
    FieldTree.mem_subtrees_iff.mpr hsub⟩
  · exact List.mem_range.mpr (h.good.branch n k b hb).lt
  · refine List.mem_append_left _ (List.mem_flatMap.mpr ⟨k, ?_, by rw [hb]; exact hr⟩)
    cases k with
    | none => exact List.mem_cons_self
    | some t =>
      refine List.mem_cons_of_mem _ (List.mem_map.mpr ⟨t, ?_, rfl⟩)
      exact List.mem_range.mpr (h.fresh n t b hb)

/-- 持ち主のいない版を破棄しても、残った版の条件は変わらない。 -/
theorem collect_sound (hX : Closed X) (h : Sound S κ X s) : Sound S κ X (collect s) := by
  have hdeep : ∀ {r : Rev}, (∀ r', FieldTree.Sub r' r → r' ∈ s.live) → Deep S κ X s r →
      Deep S κ X (collect s) r := by
    intro r hlive hd r' hr'
    have hfit := hd r' hr'
    exact { lt := hfit.lt, born := hfit.born, type_eq := hfit.type_eq
            child := fun f hf c hc => ⟨(hfit.child f hf c hc).lt, (hfit.child f hf c hc).younger,
              (hfit.child f hf c hc).slot⟩
            keyed := fun hκ => ⟨(hfit.keyed hκ).own, (hfit.keyed hκ).nodup⟩
            shape := hfit.shape
            extra := hX.collect (hlive r' hr') hfit.extra }
  refine h.of_eq ⟨?_, ?_, ?_⟩ rfl rfl rfl (fun _ ht => ht) h.queue
  · intro n k b hb
    have hok := h.good.branch n k b hb
    refine ⟨hok.lt, hok.born, hok.tag, hok.origin, hok.strong, fun r hr => ⟨(hok.revs r hr).1, ?_⟩⟩
    exact hdeep (fun r' hr' => h.mem_live_branch hb hr hr') (hok.revs r hr).2
  · intro n p hp
    refine ⟨(h.good.tags n p hp).1, hdeep (fun r' hr' => ?_) (h.good.tags n p hp).2⟩
    unfold State.live
    refine List.mem_flatMap.mpr ⟨p.2, List.mem_append_left _ (List.mem_flatMap.mpr ⟨n, ?_, ?_⟩),
      FieldTree.mem_subtrees_iff.mpr hr'⟩
    · exact List.mem_range.mpr (h.good.tags n p hp).1
    · exact List.mem_append_right _ (List.mem_map.mpr ⟨p, hp, rfl⟩)
  · intro r hr
    refine hdeep (fun r' hr' => ?_) (h.good.detached r hr)
    exact List.mem_flatMap.mpr ⟨r, List.mem_append_right _ hr, FieldTree.mem_subtrees_iff.mpr hr'⟩

theorem step_sound (hX : Closed X) (h : Sound S κ X s) (st : Step)
    (hst : st.Allowed S κ s) : Sound S κ X (step S s st) :=
  collect_sound hX (perform_sound hX h st hst)

/-- どの実行でも `Sound` は保たれる。 -/
theorem run_sound (hX : Closed X) {l : List Step}
    (hl : EveryStep S (fun s st => st.Allowed S κ s) s l)
    (h : Sound S κ X s) : Sound S κ X (run S s l) :=
  EveryStep.invariant (Sound S κ X) (fun _ st hst h => step_sound hX h st hst) hl h

/-! ## 初期状態 -/

theorem emptyState_good (kv : Option Store) : Good S κ X (emptyState kv) where
  branch n k b h := by cases h
  tags n p h := by cases h
  detached r h := by cases h

/-- 初期化した木は `Sound` で、中身は既定値で埋めた message である。 -/
theorem initRoot_sound (hX : Closed X) {kv : Option Store} {data : Msg} {r : Rev}
    (hdata : κ.typed → Shaped S.fields data) (h : initRoot S kv data = (.ok r, s)) :
    Sound S κ X s ∧ Rev.content r = complete S data ∧ s.latest? rootId = some r := by
  unfold initRoot at h
  have hmk := mknode_good hX (complete S data) none (emptyState kv) (emptyState_good kv)
    (fun hκ => (hdata hκ).complete) (by rintro sl key he; cases he)
  obtain ⟨hg, hdeep, hroot, hslot, hcont, hlat⟩ := wp_ok hmk h
  have hroot : Rev.node r = rootId := hroot
  have hf := mknode_keeps S (complete S data) none (emptyState kv)
  have hq := mknode_calls S (complete S data) none (emptyState kv)
  rw [h] at hf hq
  rw [hroot] at hslot hlat
  refine ⟨⟨hg, hroot ▸ hdeep.self.alive, hslot, ?_, ?_, congrArg Prod.fst hq⟩, hcont, hlat⟩
  · intro t ht
    rw [hf.txns] at ht
    cases ht
  · intro n t b hb
    cases hf.stale n (some t) b trivial (by simp) hb

theorem start_sound (hX : Closed X) {kv : Option Store} {data : Msg}
    (hdata : κ.typed → Shaped S.fields data) (h : (initRoot S kv data).1.isOk = true) :
    Sound S κ X (start S kv data) := by
  unfold start
  rcases hinit : initRoot S kv data with ⟨_ | r, s₀⟩
  · rw [hinit] at h; cases h
  · exact collect_sound hX (initRoot_sound hX hdata hinit).1

theorem reachable_run {kv : Option Store} {data : Msg} (h : (initRoot S kv data).1.isOk = true)
    (l : List Step) : Reachable S (run S (start S kv data) l) := ⟨kv, data, l, h, rfl⟩

end Voltha.Config
