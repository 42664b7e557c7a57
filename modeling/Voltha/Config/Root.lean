import Voltha.Config.Finalize
import Voltha.Config.Merge

/-!
# ConfigRoot と ConfigTransaction

`voltha/core/config/config_root.py`、`config_proxy.py`、`config_txn.py`。
client から見える操作を一つの `Step` にまとめ、任意の順に並べたものを `run` で動かす。
操作が例外で終わっても、次の操作は続けて受け付ける。
-/

namespace Voltha.Config

variable (S : Schema)

/-! ## 遅延された callback -/

/--
`execute_deferred_callbacks`。

`POST_*` の callback は `proceed_on_errors` で呼ばれるので例外は外に出ない。
ここでは呼ばれたことだけを記録する。
-/
def executeDeferredCallbacks (s : State) : State :=
  { s with announced := s.announced ++ s.queue, queue := [] }

/-- `check_callback_queue`。 -/
def checkCallbackQueue : Op Unit := do
  let s ← Exec.read
  if s.queue.isEmpty then pure () else Exec.raise (.assertion "")

/-- root の `update` / `add` / `remove` に共通の枠。 -/
def rootOp (k : Option TxId) (op : Op Rev) : Op Rev := do
  checkCallbackQueue
  let body : Op Rev := do
    match k with
    | none => op
    | some t => do
      let s ← Exec.read
      let _ ← Exec.ofOption (.keyError (toString t)) (s.dirty t)
      op
  body.andFinally executeDeferredCallbacks

def rootUpdate (k : Option TxId) (path : List String) (data : Msg) (strict : Bool) : Op Rev :=
  rootOp k (update S k data strict path rootId)

def rootAdd (k : Option TxId) (path : List String) (data : Msg) : Op Rev :=
  rootOp k (add S k data path rootId)

def rootRemove (k : Option TxId) (path : List String) : Op Rev :=
  rootOp k (remove S k path rootId)

/-! ## transaction -/

/-- `mk_txbranch`。 -/
def openTransaction : Op TxId := do
  let s ← Exec.read
  let t := s.nextTx
  Exec.modify fun s =>
    { s with
      nextTx := t + 1
      dirty := Function.update s.dirty t (some [rootId]) }
  let _ ← mkTxbranch rootId t
  Exec.modify fun s => { s with txns := t :: s.txns }
  pure t

/-- `dirty_node._del_txbranch(txid)` を順に呼ぶ。 -/
def delTxbranches (t : TxId) : List NodeId → Op Unit
  | [] => pure ()
  | n :: ns => do
    delTxbranch n t
    delTxbranches t ns

/-- `del_txbranch`。 -/
def dropTransaction (t : TxId) : Op Unit := do
  let s ← Exec.read
  let nodes ← Exec.ofOption (.keyError (toString t)) (s.dirty t)
  delTxbranches t nodes
  Exec.modify fun s => { s with dirty := Function.update s.dirty t none }

/-- 降りる深さの上限。 -/
def mergeFuel (s : State) : Nat := s.nextNode + 1

/--
`fold_txbranch`。

まず dry run で衝突を調べ、`MergeConflictException` なら枝をすべて捨てる。
それ以外の例外はそのまま外に出る。
-/
def foldTxbranch (t : TxId) : Op Unit := fun s =>
  match mergeTxbranch S t true (mergeFuel s) rootId s with
  | (.error (.mergeConflict m), s₁) =>
    match dropTransaction t s₁ with
    | (.ok _, s₂) => (.error (.mergeConflict m), s₂)
    | (.error e, s₂) => (.error e, s₂)
  | (.error e, s₁) => (.error e, s₁)
  | (.ok _, s₁) =>
    match mergeTxbranch S t false (mergeFuel s) rootId s₁ with
    | (.ok _, s₂) => (.ok (), executeDeferredCallbacks s₂)
    | (.error e, s₂) => (.error e, executeDeferredCallbacks s₂)

/-- ConfigTransaction を閉じる（`_txid = None`）。 -/
def closeHandle (t : TxId) (s : State) : State := { s with txns := s.txns.filter (· ≠ t) }

/-- `ConfigTransaction.commit`。成否にかかわらず閉じる。 -/
def commit (t : TxId) : Op Unit := do
  let s ← Exec.read
  if t ∈ s.txns then (foldTxbranch S t).andFinally (closeHandle t)
  else Exec.raise (.attributeError "'NoneType' object has no attribute '_config'")

/-- `ConfigTransaction.cancel`。 -/
def cancel (t : TxId) : Op Unit := do
  let s ← Exec.read
  if t ∈ s.txns then do
    dropTransaction t
    Exec.modify (closeHandle t)
  else Exec.raise (.keyError "None")

/-- transaction の中の操作。閉じていれば `ClosedTransactionError`。 -/
def inTransaction (k : Option TxId) (op : Op Rev) : Op Rev := do
  let s ← Exec.read
  match k with
  | none => op
  | some t => if t ∈ s.txns then op else Exec.raise .closedTransaction

/-! ## proxy -/

/-- `_mk_proxy`。 -/
def mkProxy (n : NodeId) (fullPath : List String) (exclusive : Bool) : Op NodeId := do
  let s ← Exec.read
  match (s.node n).proxy with
  | none => do
    Exec.modify fun s => s.setNode n
      { s.node n with proxy := some { path := fullPath, exclusive, callbacks := fun _ => [] } }
    pure n
  | some p =>
    if p.exclusive then Exec.raise (.valueError "Node is already owned exclusively") else pure n

/-- `_get_proxy`。commit された最新の版に沿って node を探す。 -/
def getProxy (fullPath : List String) (exclusive : Bool) : List String → NodeId → Op NodeId
  | [], n => mkProxy n fullPath exclusive
  | name :: rest, n =>
    if name = "" then getProxy fullPath exclusive rest n
    else do
      let s ← Exec.read
      let rev ← Exec.ofOption (.keyError "None") (s.latest? n)
      let field ← Exec.ofOption (.keyError name) (S.field? (s.node n).type name)
      match field.kind with
      | .single => do
        let childRev ← Exec.ofOption (.indexError "list index out of range")
          (rev.child name).head?
        getProxy fullPath exclusive rest (Rev.node childRev)
      | .list =>
        if isEmptyPath rest then Exec.raise (.valueError "Cannot proxy a container field")
        else Exec.raise (.valueError "Cannot index into container with no keys")
      | .keyed key kt =>
        match rest with
        | [] => Exec.raise (.valueError "Cannot proxy a container field")
        | keyStr :: path =>
          if isEmptyPath (keyStr :: path) then
            Exec.raise (.valueError "Cannot proxy a container field")
          else do
            let v ← Exec.ofOption (.valueError keyStr) (kt.fromStr keyStr)
            let (_, childRev) ← Exec.ofOption
              (.keyError ("key " ++ key ++ "=" ++ v.render ++ " not found"))
              (findRevByKey key v (rev.child name))
            getProxy fullPath exclusive path (Rev.node childRev)

/-- `register_callback`。proxy の無い node には何もしない。 -/
def registerCallback (n : NodeId) (type : CallbackType) (f : Callback) : Op Unit :=
  Exec.modify fun s =>
    match (s.node n).proxy with
    | none => s
    | some p => s.setNode n
        { s.node n with proxy := some { p with
            callbacks := Function.update p.callbacks type (p.callbacks type ++ [f]) } }

/-- `ConfigProxy.get`。握っている node をじかに読む。 -/
def proxyGet (s : State) (n : NodeId) (path : List String) (depth : Option Nat)
    (k : Option TxId) : Except Err Response :=
  get S s n path none depth k

/--
`full_path`。proxy の path に続ける。

`/` は `["", ""]` であり、そのときは proxy の path そのものになる。
-/
def Proxy.fullPath (p : Proxy) (path : List String) : Op (List String) := do
  Exec.require (path.head? = some "" ∧ path ≠ [""]) (.assertion "")
  pure (if path = ["", ""] then p.path else p.path ++ path.tail)

/-- `ConfigProxy.update`。root から path をたどって書く。 -/
def proxyUpdate (p : Proxy) (path : List String) (data : Msg) (strict : Bool)
    (k : Option TxId) : Op Rev := do
  let fullPath ← p.fullPath path
  rootUpdate S k fullPath data strict

/-! ## tag と prune -/

/-- hash の版。指定が無ければ最新の版。 -/
def Branch.byHash (b : Branch) : Option Hash → Option Rev
  | none => some b.latest
  | some h => b.revs.lookup h

/-- root の `tag(tag, hash)`。 -/
def tagRev (tag : String) (hash : Option Hash) : Op Unit := do
  let s ← Exec.read
  let b ← Exec.ofOption (.keyError "None") ((s.node rootId).branches none)
  let r ← Exec.ofOption (.keyError "hash") (b.byHash hash)
  Exec.modify fun s => s.setNode rootId
    { s.node rootId with tags := OrderedDict.set (s.node rootId).tags tag r }

/-- root の `delete_tag(tag)`。 -/
def deleteTag (tag : String) : Op Unit := do
  let s ← Exec.read
  let _ ← Exec.ofOption (.keyError tag) ((s.node rootId).tags.lookup tag)
  Exec.modify fun s => s.setNode rootId
    { s.node rootId with tags := (s.node rootId).tags.filter fun p => p.1 ≠ tag }

/-- root の `prune_untagged`。最新の版と tag の付いた版だけを残す。 -/
def pruneUntagged (s : State) : State :=
  match (s.node rootId).branches none with
  | none => s
  | some b =>
    let keep := Rev.hash b.latest :: (s.node rootId).tags.map fun p => Rev.hash p.2
    s.setBranch rootId none (some { b with revs := b.revs.filter fun p => keep.contains p.1 })

/-! ## 一歩と実行 -/

/-- client の一つの操作。`k` が `none` なら transaction の外である。 -/
inductive Step where
  | update (k : Option TxId) (path : List String) (data : Msg) (strict : Bool)
  | add (k : Option TxId) (path : List String) (data : Msg)
  | remove (k : Option TxId) (path : List String)
  | openTx
  | commit (t : TxId)
  | cancel (t : TxId)
  | getProxy (path : List String) (exclusive : Bool)
  | registerCallback (n : NodeId) (type : CallbackType) (f : Callback)
  | tag (tag : String) (hash : Option Hash)
  | deleteTag (tag : String)
  | prune

/-- 操作の計算。返り値は成否だけを見る。 -/
def perform : Step → Op Unit
  | .update k path data strict => do
    let _ ← inTransaction k (rootUpdate S k path data strict)
    pure ()
  | .add k path data => do
    let _ ← inTransaction k (rootAdd S k path data)
    pure ()
  | .remove k path => do
    let _ ← inTransaction k (rootRemove S k path)
    pure ()
  | .openTx => do
    let _ ← openTransaction
    pure ()
  | .commit t => commit S t
  | .cancel t => cancel t
  | .getProxy path exclusive => do
    let _ ← getProxy S path exclusive path rootId
    pure ()
  | .registerCallback n type f => registerCallback n type f
  | .tag tag hash => tagRev tag hash
  | .deleteTag tag => deleteTag tag
  | .prune => Exec.modify pruneUntagged

/-- 一つの操作をして、持ち主のいなくなった版を破棄した後の状態。 -/
def step (s : State) (st : Step) : State := collect (perform S st s).2

/-- 操作の列を順に実行した後の状態。 -/
def run (s : State) (l : List Step) : State := l.foldl (step S) s

/-! ## 初期状態 -/

/-- node も transaction も無い状態。 -/
def emptyState (kv : Option Store) : State where
  node := fun _ =>
    { type := "", branches := fun _ => none, tags := [], proxy := none, autoPrune := true
      slot := none }
  nextNode := 0
  nextUid := 0
  nextTx := 0
  dirty := fun _ => none
  txns := []
  queue := []
  announced := []
  kv := kv
  loading := false
  objs := []
  detached := []

/-- `ConfigRoot(initial_data, kv_store)`。 -/
def initRoot (kv : Option Store) (data : Msg) : Except Err Rev × State :=
  mknode S (complete S data) none (emptyState kv)

/-- `ConfigRoot(data)` の直後の状態。 -/
def start (kv : Option Store) (data : Msg) : State := collect (initRoot S kv data).2

/-- `ConfigRoot(data)` から、操作の列 `l` で到達できる状態。 -/
def Reachable (s : State) : Prop :=
  ∃ kv data l, (initRoot S kv data).1.isOk = true ∧ s = run S (start S kv data) l

end Voltha.Config
