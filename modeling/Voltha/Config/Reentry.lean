import Voltha.Config.Root

/-!
# callback の中からの操作

`POST_*` の callback は、同じ root に `update` / `add` / `remove` をしてよい。
`config_root.py` の `execute_deferred_callbacks` は queue を先頭から一つずつ取り出して呼ぶ。

```
while self._deferred_callback_queue:
    func, args, kw = self._deferred_callback_queue.pop(0)
    func(*args, **kw)
```

呼ばれた callback の操作は、初めに queue が空であることを `assert` し（`check_callback_queue`）、
終わりに自分で queue を空にする。callback の例外は `proceed_on_errors` で呑み込まれる。

`Root.lean` の操作は callback を呼んだことだけを記録する。ここでは、callback を
操作を出しうる program とし、入れ子の呼び出しまで動かす。入れ子は尽きるとは限らないので、
深さの上限 `fuel` を置き、尽きなければ `none` とする。
-/

namespace Voltha.Config

variable (S : Schema)

/-! ## root の method -/

/-- ConfigRoot の、木を書き換える method。 -/
inductive RootCall where
  | update (k : Option TxId) (path : List String) (data : Msg) (strict : Bool)
  | add (k : Option TxId) (path : List String) (data : Msg)
  | remove (k : Option TxId) (path : List String)
  | mkTxbranch
  | delTxbranch (t : TxId)
  | foldTxbranch (t : TxId)

/-- 返り値を捨てる。 -/
def discard {α : Type} (op : Op α) : Op Unit := do
  let _ ← op
  pure ()

/-- callback を記録するだけの、入れ子の無い実行。 -/
def RootCall.run : RootCall → Op Unit
  | .update k path data strict => discard (rootUpdate S k path data strict)
  | .add k path data => discard (rootAdd S k path data)
  | .remove k path => discard (rootRemove S k path)
  | .mkTxbranch => discard openTransaction
  | .delTxbranch t => dropTransaction t
  | .foldTxbranch t => Voltha.Config.foldTxbranch S t

/-- 初めに queue を調べる method。`fold_txbranch` などは調べない。 -/
def RootCall.checksQueue : RootCall → Bool
  | .update .. => true
  | .add .. => true
  | .remove .. => true
  | _ => false

/-- `try` の中身。transaction の中なら `_dirty_nodes` を引く。 -/
def rootBody (k : Option TxId) (op : Op Rev) : Op Unit :=
  match k with
  | none => discard op
  | some t => do
    let s ← Exec.read
    let _ ← Exec.ofOption (.keyError (toString t)) (s.dirty t)
    discard op

/-- `fold_txbranch` の、callback を呼ぶ前まで。 -/
def foldBody (t : TxId) : Op Unit := fun s =>
  match mergeTxbranch S t true (mergeFuel s) rootId s with
  | (.error (.mergeConflict m), s₁) =>
    match dropTransaction t s₁ with
    | (.ok _, s₂) => (.error (.mergeConflict m), s₂)
    | (.error e, s₂) => (.error e, s₂)
  | (.error e, s₁) => (.error e, s₁)
  | (.ok _, s₁) =>
    match mergeTxbranch S t false (mergeFuel s) rootId s₁ with
    | (.ok _, s₂) => (.ok (), s₂)
    | (.error e, s₂) => (.error e, s₂)

/-- queue を調べた後、callback を呼ぶ前までの部分。 -/
def RootCall.body : RootCall → Op Unit
  | .update k path data strict => rootBody k (Voltha.Config.update S k data strict path rootId)
  | .add k path data => rootBody k (Voltha.Config.add S k data path rootId)
  | .remove k path => rootBody k (Voltha.Config.remove S k path rootId)
  | .mkTxbranch => discard openTransaction
  | .delTxbranch t => dropTransaction t
  | .foldTxbranch t => foldBody S t

/-! ## callback の program -/

/-- callback が出す、transaction の外の操作。 -/
inductive DirectOp where
  | update (path : List String) (data : Msg) (strict : Bool)
  | add (path : List String) (data : Msg)
  | remove (path : List String)

def DirectOp.call : DirectOp → RootCall
  | .update path data strict => .update none path data strict
  | .add path data => .add none path data
  | .remove path => .remove none path

/-- callback の本体。操作を出し、その結果を見て続ける。 -/
inductive Prog where
  | finish (r : Except Err Context)
  | issue (op : DirectOp) (next : Except Err Unit → Prog)

/-- queue に積まれるもの。 -/
abbrev Item := NodeId × CallbackType × Context

/-- proxy に登録された `POST_*` の callback。 -/
abbrev Registry := NodeId → CallbackType → List (Context → Prog)

/-- 実行の記録。 -/
inductive CallEvent where
  | issued (c : RootCall) (refused : Bool)
  | enqueued (items : List Item)
  | popped (item : Item) (pending : List Item)

abbrev Trace := List CallEvent

section Run

variable (call : RootCall → State → Option (Except Err Unit × State × Trace))

/-- callback の本体を動かす。 -/
def runProg : Prog → State → Option (Except Err Context × State × Trace)
  | .finish r, s => some (r, s, [])
  | .issue op next, s =>
    match call op.call s with
    | none => none
    | some (r, s₁, tr₁) =>
      match runProg (next r) s₁ with
      | none => none
      | some (c, s₂, tr₂) => some (c, s₂, tr₁ ++ tr₂)

/-- `invoke_callbacks(..., proceed_on_errors=1)`。返り値を次の callback に渡す。 -/
def invokeCallbacks : List (Context → Prog) → Context → State → Option (State × Trace)
  | [], _, s => some (s, [])
  | f :: fs, c, s =>
    match runProg call (f c) s with
    | none => none
    | some (r, s₁, tr₁) =>
      match invokeCallbacks fs (r.toOption.getD c) s₁ with
      | none => none
      | some (s₂, tr₂) => some (s₂, tr₁ ++ tr₂)

end Run

/-- method の呼び出し。`drain` は `execute_deferred_callbacks` である。 -/
def callWith (drain : State → Option (State × Trace)) (c : RootCall) (s : State) :
    Option (Except Err Unit × State × Trace) :=
  if c.checksQueue = true ∧ s.queue ≠ [] then
    some (.error (.assertion ""), s, [.issued c true])
  else
    match drain (c.body S s).2 with
    | none => none
    | some (s₂, tr) =>
      some ((c.body S s).1, s₂,
        .issued c false :: .enqueued ((c.body S s).2.queue.drop s.queue.length) :: tr)

/-- `execute_deferred_callbacks`。 -/
def drain (reg : Registry) : Nat → State → Option (State × Trace)
  | 0, _ => none
  | fuel + 1, s =>
    match s.queue with
    | [] => some (s, [])
    | item :: rest =>
      match invokeCallbacks (callWith S (drain reg fuel)) (reg item.1 item.2.1) item.2.2
          { s with queue := rest, announced := s.announced ++ [item] } with
      | none => none
      | some (s₁, tr₁) =>
        match drain reg fuel s₁ with
        | none => none
        | some (s₂, tr₂) => some (s₂, .popped item rest :: (tr₁ ++ tr₂))

/-- client の呼び出しの列。 -/
def runCalls (reg : Registry) (fuel : Nat) : List RootCall → State → Option (State × Trace)
  | [], s => some (s, [])
  | c :: cs, s =>
    match callWith S (drain S reg fuel) c s with
    | none => none
    | some (_, s₁, tr₁) =>
      match runCalls reg fuel cs s₁ with
      | none => none
      | some (s₂, tr₂) => some (s₂, tr₁ ++ tr₂)

/-! ## 記録の読み方 -/

namespace Trace

/-- 積まれた callback。積まれた順。 -/
def enqueued (tr : Trace) : List Item :=
  tr.flatMap fun e => match e with
    | .enqueued items => items
    | _ => []

/-- 呼ばれた callback。呼ばれた順。 -/
def executed (tr : Trace) : List Item :=
  tr.filterMap fun e => match e with
    | .popped item _ => some item
    | _ => none

/-- 出された操作。出された順。 -/
def issued (tr : Trace) : List RootCall :=
  tr.filterMap fun e => match e with
    | .issued c _ => some c
    | _ => none

/-- queue が空でないために断られた操作。 -/
def refused (tr : Trace) : List RootCall :=
  tr.filterMap fun e => match e with
    | .issued c true => some c
    | _ => none

end Trace

/-- どの callback も操作を出さない。 -/
def silent : List (Context → Prog) → Context → Bool
  | [], _ => true
  | f :: fs, c =>
    match f c with
    | .finish r => silent fs (r.toOption.getD c)
    | .issue _ _ => false

/-- 操作を出す callback が呼ばれるとき、他に待っている callback は無い。 -/
def OnlyLastIssues (reg : Registry) (tr : Trace) : Prop :=
  ∀ item pending, CallEvent.popped item pending ∈ tr → pending ≠ [] →
    silent (reg item.1 item.2.1) item.2.2 = true

/-- 出された操作を、入れ子にせず順に実行した状態。 -/
def sequential (s : State) (cs : List RootCall) : State := cs.foldl (fun s c => (c.run S s).2) s

/--
callback の操作が守られた実行。

積まれた callback は、積まれた順にちょうど一度ずつ呼ばれ、
出された操作はどれも断られず、外側の操作が終わった後に順に出したのと同じ効果を持つ。
-/
structure Honoured (s s' : State) (tr : Trace) : Prop where
  once : tr.executed = tr.enqueued
  accepted : tr.refused = []
  effect : s' = sequential S s tr.issued

end Voltha.Config
