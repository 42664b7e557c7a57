import Mathlib.Tactic.TypeStar

/-!
# 条件つきの待ち行列

`common/utils/message_queue.py`。届いた message は、条件に合う待ち手がいればその Deferred に渡し、
いなければ列に貯める。取り出す側も、合う message があれば取り、無ければ待ち手になる。

取り出す条件が無いときは、**`n` 番目の `get` には `n` 番目の `put` が渡る**。
`put` と `get` がどう混ざっていてもよい。
-/

namespace Voltha.Common

/-- `MessageQueue`。待ち手は Deferred と条件の組で、条件の `none` は `None`。 -/
structure MessageQueue (Msg D : Type) where
  waiting : List (D × Option (Msg → Bool))
  queue : List Msg

variable {Msg D : Type}

/-- `predicate is None or predicate(msg)`。 -/
def accepts (predicate : Option (Msg → Bool)) (msg : Msg) : Bool :=
  match predicate with
  | none => true
  | some p => p msg

namespace MessageQueue

def empty : MessageQueue Msg D := ⟨[], []⟩

/-- `put(obj)`。呼び起こした Deferred があれば、それと `obj`。 -/
def put (q : MessageQueue Msg D) (obj : Msg) : MessageQueue Msg D × Option (D × Msg) :=
  match q.waiting.findIdx? fun w => accepts w.2 obj with
  | some i => ({ q with waiting := q.waiting.eraseIdx i }, q.waiting[i]?.map fun w => (w.1, obj))
  | none => ({ q with queue := q.queue ++ [obj] }, none)

/-- `get(predicate)`。すぐに取れた message があれば、その Deferred `d` と message。 -/
def get (q : MessageQueue Msg D) (d : D) (predicate : Option (Msg → Bool)) :
    MessageQueue Msg D × Option (D × Msg) :=
  match q.queue.findIdx? (accepts predicate) with
  | some i => ({ q with queue := q.queue.eraseIdx i }, q.queue[i]?.map fun msg => (d, msg))
  | none => ({ q with waiting := q.waiting ++ [(d, predicate)] }, none)

end MessageQueue

/-! ## `put` と `get` の列 -/

/-- 列への操作。`get` の条件は `lambda _: True`。 -/
inductive QueueCall (Msg D : Type) where
  | put (obj : Msg)
  | get (d : D)

namespace QueueCall

/-- 一つの操作。 -/
def run (q : MessageQueue Msg D) : QueueCall Msg D → MessageQueue Msg D × Option (D × Msg)
  | .put obj => q.put obj
  | .get d => q.get d (some fun _ => true)

/-- 操作の列で、Deferred に渡った message を順に並べたもの。 -/
def answers : MessageQueue Msg D → List (QueueCall Msg D) → List (D × Msg)
  | _, [] => []
  | q, c :: l => (c.run q).2.toList ++ answers (c.run q).1 l

/-- 入れられた message の列。 -/
def puts : List (QueueCall Msg D) → List Msg
  | [] => []
  | .put obj :: l => obj :: puts l
  | .get _ :: l => puts l

/-- 呼ばれた `get` の Deferred の列。 -/
def gets : List (QueueCall Msg D) → List D
  | [] => []
  | .put _ :: l => gets l
  | .get d :: l => d :: gets l

end QueueCall

open QueueCall

/-- 条件の無い待ち手だけがいる待ち行列。 -/
def waitingFor (ds : List D) : MessageQueue Msg D := ⟨ds.map fun d => (d, some fun _ => true), []⟩

/-- message だけが貯まっている待ち行列。 -/
def holding (ms : List Msg) : MessageQueue Msg D := ⟨[], ms⟩

/-- 待ち手がいる間は、先に待った順に渡る。message が貯まっている間は、先に入った順に取れる。 -/
theorem answers_eq (l : List (QueueCall Msg D)) :
    (∀ ds : List D, answers (waitingFor ds) l = (ds ++ gets l).zip (puts l)) ∧
    ∀ ms : List Msg, answers (holding ms) l = (gets l).zip (ms ++ puts l) := by
  induction l with
  | nil => simp [answers, puts, gets]
  | cons c l ih =>
    obtain ⟨hwait, hhold⟩ := ih
    cases c with
    | put obj =>
      refine ⟨fun ds => ?_, fun ms => ?_⟩
      · cases ds with
        | nil =>
          -- 待ち手がいないので貯まる
          show answers (holding [obj]) l = _
          rw [hhold]
          rfl
        | cons d ds =>
          show (d, obj) :: answers (waitingFor ds) l = _
          rw [hwait]
          rfl
      · show answers (holding (ms ++ [obj])) l = _
        rw [hhold, List.append_assoc]
        rfl
    | get d =>
      refine ⟨fun ds => ?_, fun ms => ?_⟩
      · have hstep : (QueueCall.get d).run (waitingFor ds : MessageQueue Msg D)
            = (waitingFor (ds ++ [d]), none) := by
          simp [QueueCall.run, MessageQueue.get, waitingFor]
        simp [answers, hstep, hwait, gets, puts]
      · cases ms with
        | nil =>
          show answers (waitingFor [d]) l = _
          rw [hwait]
          rfl
        | cons msg ms =>
          show (d, msg) :: answers (holding ms) l = _
          rw [hhold]
          rfl

/-- **先入れ先出し。** `n` 番目の `get` には `n` 番目の `put` が渡る。 -/
theorem answers_empty (l : List (QueueCall Msg D)) :
    answers MessageQueue.empty l = (gets l).zip (puts l) :=
  (answers_eq l).2 []

end Voltha.Common
