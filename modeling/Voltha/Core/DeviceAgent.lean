import Voltha.Config.Node
import Voltha.Config.VolthaSchema
import Voltha.Core.Device
import Voltha.Lib.OrderedDict
import Voltha.Lib.Steps

/-!
# DeviceAgent

`voltha/core/device_agent.py`。device の node の `PRE_UPDATE` と `POST_UPDATE` に callback を掛け、
`admin_state` の遷移を `admin_state_fsm` で調べる。

DeviceAgent は `rev.data` をその場で書き換える（`device.oper_status = ACTIVATING`）。
これは木が保存している object そのものであり、版は不変とする `Config` の model では表せない。
そこで message を object への参照 `Ref` と `heap` で持ち、device の node とその親の列だけを
もう一度写す。版が持つのは、作られたときの hash と、local data の object への参照である。

* `cache` — `_rev_cache`。同じ hash の local data は、先に作られた object に差し替えられる
* `latest` / `listed` — node の `branch._latest` と、親の版の列にある版

`adapter_agent.adopt_device` は adapter ごとに異なるので、成否だけを変数 `adopt` で持つ。
どの adapter も、更新は `reactor.callLater` で後から `update_device` に出す。
-/

namespace Voltha.Core.DeviceAgent

open Voltha.Config (Msg Data Value Err ChildField volthaSchema)

/-! ## admin_state -/

/-- `device.admin_state`。書かれていなければ既定値の `0`、名前の無い番号は `none`。 -/
def adminState (m : Msg) : Option AdminState :=
  match m.label.attr "admin_state" with
  | none => some .unknown
  | some (.int n) => AdminState.ofNumber n
  | some _ => none

/-- `device.oper_status = OperStatus.ACTIVATING`。 -/
def activating : Msg → Msg
  | .mk d cs => .mk { d with attrs := OrderedDict.set d.attrs "oper_status" (.int 2) } cs

/-- 遷移の処理。 -/
inductive Handler where
  | activateDevice
  | propagateChange
  | abandonDevice
  | disableDevice
  | reenableDevice
deriving DecidableEq, Repr

/-- `admin_state_fsm` の値。`invalid` は `False` である。 -/
inductive Transition where
  | invalid
  | handler (h : Handler)
deriving DecidableEq, Repr

/-- `admin_state_fsm`。無い組は何もしない。 -/
def adminStateFsm : AdminState → AdminState → Option Transition
  | .unknown, .enabled => some (.handler .activateDevice)
  | .preprovisioned, .unknown => some .invalid
  | .preprovisioned, .enabled => some (.handler .activateDevice)
  | .enabled, .unknown => some .invalid
  | .enabled, .enabled => some (.handler .propagateChange)
  | .enabled, .disabled => some (.handler .disableDevice)
  | .enabled, .preprovisioned => some (.handler .abandonDevice)
  | .disabled, .unknown => some .invalid
  | .disabled, .preprovisioned => some (.handler .abandonDevice)
  | .disabled, .enabled => some (.handler .reenableDevice)
  | _, _ => none

/-! ## 状態 -/

/-- message の object。 -/
abbrev Ref := Nat

/-- device の node の版。`hash` は作られたときの中身、`config` は `_config._data`。 -/
structure Revision where
  uid : Nat
  hash : Msg
  config : Ref
deriving DecidableEq

structure System where
  heap : Ref → Msg
  cache : Msg → Option Ref
  latest : Revision
  listed : Revision
  nextUid : Nat
  queue : List Ref
  lastData : Option Ref

abbrev Act := Exec System Err

/-- `branch._latest.data` の今の中身。 -/
def System.data (s : System) : Msg := s.heap s.latest.config

/-- object の中身をその場で書き換える。 -/
def System.write (s : System) (r : Ref) (m : Msg) : System :=
  { s with heap := Function.update s.heap r m }

/-- `getattr(self.last_data, 'admin_state', AdminState.UNKNOWN)`。 -/
def System.oldAdminState (s : System) : Option AdminState :=
  match s.lastData with
  | none => some .unknown
  | some r => adminState (s.heap r)

/-- `admin_state_fsm.get((old_admin_state, new_admin_state), None)`。 -/
def System.transition (s : System) (device : Ref) : Option Transition :=
  match s.oldAdminState, adminState (s.heap device) with
  | some o, some n => adminStateFsm o n
  | _, _ => none

/-! ## callback -/

/-- callback に渡るもの。message か、`inlineCallbacks` の関数が返す Deferred。 -/
inductive Context where
  | message (device : Ref)
  | deferred (result : Except Err Unit)

/-- Twisted の `inlineCallbacks`。例外は外に出さず、Deferred に捕まえる。 -/
def inlineCallbacks (body : Act Unit) : Act Context := fun s =>
  (.ok (.deferred (body s).1), (body s).2)

/-- `invoke_callbacks`。`proceed` は `proceed_on_errors` である。 -/
def invokeCallbacks (proceed : Bool) : List (Context → Act Context) → Context → Act Context
  | [], c => pure c
  | f :: fs, c => fun s =>
    match f c s with
    | (.ok c', s₁) => invokeCallbacks proceed fs c' s₁
    | (.error e, s₁) => if proceed then invokeCallbacks proceed fs c s₁ else (.error e, s₁)

section Agent

variable (adopt : Msg → Except Err Unit)

section Handlers

-- `self.proxy.update('/', device)`
variable (proxyUpdate : Ref → Act Unit)

/-- `update_device`。自分の callback に戻って来ないように、先に `last_data` を置く。 -/
def updateDevice (device : Ref) : Act Unit := do
  Exec.modify fun s => { s with lastData := some device }
  proxyUpdate device

/-- `_activate_device`。 -/
def activateDevice (device : Ref) (dryRun : Bool) : Act Unit :=
  if dryRun then pure ()
  else do
    Exec.modify fun s => s.write device (activating (s.heap device))
    updateDevice proxyUpdate device
    let s ← Exec.read
    match adopt (s.heap device) with
    | .ok _ => pure ()
    | .error e => Exec.raise e

/-- `_propagate_change`。 -/
def propagateChange (device : Ref) : Act Unit := do
  let s ← Exec.read
  if s.lastData.map s.heap = some (s.heap device) then pure ()
  else Exec.raise (.notImplemented "")

/-- 表の処理を呼ぶ。書かれていない三つは dry run でも例外を投げる。 -/
def runHandler (device : Ref) (dryRun : Bool) : Handler → Act Unit
  | .activateDevice => activateDevice adopt proxyUpdate device dryRun
  | .propagateChange => propagateChange device
  | .abandonDevice => Exec.raise (.notImplemented "")
  | .disableDevice => Exec.raise (.notImplemented "")
  | .reenableDevice => Exec.raise (.notImplemented "")

/-- `InvalidStateTransition`。 -/
def invalidStateTransition (old new : Option AdminState) : Err :=
  .callback (toString ((old.map AdminState.number).getD 0) ++ " -> " ++
    toString ((new.map AdminState.number).getD 0))

/-- `_process_state_transitions`。 -/
def processStateTransitions (device : Ref) (dryRun : Bool) : Act Unit := do
  let s ← Exec.read
  match s.transition device with
  | none => pure ()
  | some .invalid =>
    Exec.raise (invalidStateTransition s.oldAdminState (adminState (s.heap device)))
  | some (.handler h) => runHandler adopt proxyUpdate device dryRun h

/-- Deferred に属性は無い。 -/
def noAttribute : Err := .attributeError "'Deferred' object has no attribute 'admin_state'"

/-- `_validate_update`。 -/
def validateUpdate : Context → Act Context
  | .message device => inlineCallbacks (processStateTransitions adopt proxyUpdate device true)
  | .deferred _ => inlineCallbacks (Exec.raise noAttribute)

/-- `_process_update`。 -/
def processUpdate : Context → Act Context
  | .message device => inlineCallbacks do
    processStateTransitions adopt proxyUpdate device false
    Exec.modify fun s => { s with lastData := some device }
  | .deferred _ => inlineCallbacks (Exec.raise noAttribute)

/-! ## device の node と親 -/

/-- 値の入っている子の field のうち最初のもの。 -/
def externalChild? (m : Msg) : Option ChildField :=
  (volthaSchema.fields "Device").find? fun f => !(m.child f.name).isEmpty

/-- `_test_no_children`。 -/
def testNoChildren (m : Msg) : Act Unit :=
  match externalChild? m with
  | none => pure ()
  | some f => Exec.raise (Config.externalChildren f)

/-- `check_access_violation`。`strict` でなければ呼ばれない。 -/
def checkAccessViolation (strict : Bool) (new old : Data) : Act Unit :=
  Exec.require (strict = false ∨ Config.violatedFields volthaSchema new old = [])
    (.valueError ("Cannot change read-only field(s) " ++ String.intercalate ", "
      ((Config.violatedFields volthaSchema new old).map fun f => "\"" ++ f ++ "\"")))

/-- `rev.update_data(data, branch)`。`_finalize` は同じ hash の local data があれば使い回す。 -/
def updateData (device : Ref) : Act Revision := fun s =>
  let content := s.heap device
  let s₁ := { s with nextUid := s.nextUid + 1 }
  match s.cache content with
  | some r => (.ok ⟨s.nextUid, content, r⟩, s₁)
  | none =>
    (.ok ⟨s.nextUid, content, device⟩,
      { s₁ with cache := Function.update s.cache content (some device) })

/-- `_make_latest`。`POST_UPDATE` に渡るのは `rev.data` の object である。 -/
def makeLatest (rev : Revision) : Act Unit :=
  Exec.modify fun s => { s with latest := rev, queue := s.queue ++ [rev.config] }

/-- `_do_update`。 -/
def doUpdate (device : Ref) (strict : Bool) : Act Revision := do
  let s ← Exec.read
  Exec.require ((s.heap device).label.type = "Device")
    (.valueError ("\"" ++ (s.heap device).label.type ++
      "\" is not a valid data type for this node"))
  testNoChildren (s.heap device)
  let _ ← invokeCallbacks false [validateUpdate adopt proxyUpdate] (.message device)
  let s ← Exec.read
  if s.data = s.heap device then pure s.latest
  else do
    checkAccessViolation strict (s.heap device).label s.data.label
    let rev ← updateData device
    makeLatest rev
    pure rev

variable (key : String)

/-- `getattr(m, 'id') == key`。 -/
def hasKey (m : Msg) : Bool := m.label.attr "id" = some (.str key)

/-- `ConfigNode.update('devices/<key>', ...)` の、親の node での一段。 -/
def updateListed (device : Ref) (strict : Bool) : Act Unit := do
  let s ← Exec.read
  Exec.require (hasKey key (s.heap s.listed.config) = true)
    (.keyError ("key id=" ++ key ++ " not found"))
  let rev ← doUpdate adopt proxyUpdate device strict
  let s ← Exec.read
  if rev.hash = s.listed.hash then pure ()
  else if hasKey key (s.heap rev.config) = true then
    Exec.modify fun s => { s with listed := rev }
  else Exec.raise (.valueError "Cannot change key field")

end Handlers

variable (key : String)

/--
`execute_deferred_callbacks`。

callback の中からの操作は、queue が空でなければ断られ、空なら空に戻して終わる。
したがって、回る回数は初めの queue の長さで足りる。
-/
def executeDeferredCallbacks (post : Ref → System → System) : Nat → System → System
  | 0, s => s
  | n + 1, s =>
    match s.queue with
    | [] => s
    | device :: rest =>
      executeDeferredCallbacks post n (post device { s with queue := rest })

/-- proxy の `POST_UPDATE` の callback を呼ぶ。 -/
def invokePost (proxyUpdate : Ref → Act Unit) (device : Ref) (s : System) : System :=
  (invokeCallbacks true [processUpdate adopt proxyUpdate] (.message device) s).2

/-- `check_callback_queue`。 -/
def checkCallbackQueue : Act Unit := do
  let s ← Exec.read
  Exec.require (s.queue = []) (.assertion "")

/-- `root.update('/devices/<key>', device, strict)`。`fuel` は入れ子の深さの上限。 -/
def rootUpdate : Nat → Ref → Bool → Act Unit
  | 0, _, _ => Exec.raise .recursionLimit
  | fuel + 1, device, strict => do
    checkCallbackQueue
    (updateListed adopt (fun d => rootUpdate fuel d false) key device strict).andFinally fun s =>
      executeDeferredCallbacks (invokePost adopt fun d => rootUpdate fuel d false)
        s.queue.length s

/-- 入れ子の深さ。`_activate_device` の中の更新から、さらに更新が出ることはない。 -/
def nesting : Nat := 2

/-! ## 実行 -/

/--
一つの出来事。

* `fill` — 呼び手が message の object を組み立てる。木に渡した後の object でもよい
* `collect` — 弱参照の `_rev_cache` から消える
* `start` — `DeviceAgent.start`
* `update` — 木への更新
* `updateDevice` — adapter からの更新
-/
inductive Action where
  | fill (r : Ref) (m : Msg)
  | collect (hash : Msg)
  | start (initial : Ref)
  | update (device : Ref) (strict : Bool)
  | updateDevice (device : Ref)

/-- 更新した後の状態。callback は終わりまで動く。 -/
def step (s : System) : Action → System
  | .fill r m => s.write r m
  | .collect hash => { s with cache := Function.update s.cache hash none }
  | .start initial =>
    invokePost adopt (fun d => rootUpdate adopt key nesting d false) initial s
  | .update device strict => (rootUpdate adopt key nesting device strict s).2
  | .updateDevice device =>
    (updateDevice (fun d => rootUpdate adopt key nesting d false) device s).2

end Agent

end Voltha.Core.DeviceAgent
