import Voltha.Common.EventBus
import Voltha.Core.DeviceAgent
import Voltha.Flow.Build
import Voltha.Lib.Exec

/-!
# VolthaCore の agent

`voltha/core/core.py`。木の `/devices` と `/logical_devices` への追加と削除に callback を掛け、
device ごとの `DeviceAgent` と logical device ごとの `LogicalDeviceAgent` を作り、止める。

agent は、作られるときに node の proxy と event bus に callback を掛け、止まるときに外す。

* `DeviceAgent.stop` は、自分の node の二つを外す。flows と groups のものは残るが、
  node は木から外れているので呼ばれない
* `LogicalDeviceAgent.stop` は、`_port_added` と `_port_removed` を掛けた所から `_port_list_updated` を
  外そうとして `ValueError` になる。event bus の subscription は外さない

`_handle_remove_logical_device` は `inlineCallbacks` なので、この例外は外に出ない。
その後の `del` が動かず、止めたはずの agent が `logical_device_agents` に残る。
-/

namespace Voltha.Core.VolthaCore

open Common Exec Voltha.Flow

/-! ## path -/

/-- `path.partition('/')` の前と後。 -/
def partition (path : String) : String × String :=
  (String.ofList (path.toList.takeWhile (· ≠ '/')),
    String.ofList ((path.toList.dropWhile (· ≠ '/')).drop 1))

/-- `while path.startswith('/'): path = path[1:]`。 -/
def stripSlashes (path : String) : String := String.ofList (path.toList.dropWhile (· = '/'))

/-- `'{}'.format(id)` が通る。`id` は unicode で、ASCII でなければ例外になる。 -/
def isAscii (id : String) : Bool := id.toList.all fun c => c.toNat < 128

/--
`get_proxy('/<container>/<id>')` が行き着く node。

`id` に `/` があれば、そこまでが key になる。残りが `/` だけなら無視される。
-/
def resolve {α : Type} (children : List (String × α)) (id : String) : Option α :=
  if isAscii id = true ∧ id ≠ "" ∧ stripSlashes (partition id).2 = "" then
    children.lookup (partition id).1
  else none

/-- `remove('/<container>/<path>')` が消す key。残りがあれば、node の中への操作である。 -/
def removedKey (path : String) : Option String :=
  if path ≠ "" ∧ (partition path).2 = "" then some (partition path).1 else none

/-! ## 状態 -/

/-- `CallbackType` のうち、agent が使うもの。 -/
inductive CallbackType where
  | preUpdate | postUpdate | postAdd | postRemove
deriving DecidableEq, Repr

/-- proxy のある node。agent の node か、その `flows` か `flow_groups`。 -/
inductive Part where
  | self | flows | flowGroups
deriving DecidableEq, Repr

/-- callback になる method。 -/
inductive Method where
  | validateUpdate | processUpdate | flowTableUpdated | groupTableUpdated
  | portAdded | portRemoved | portListUpdated
deriving DecidableEq, Repr

/-- node の proxy に掛けた callback。`node` と `agent` は object の同一性。 -/
structure Registration where
  node : Nat
  part : Part
  type : CallbackType
  agent : Nat
  method : Method
deriving DecidableEq, Repr

/-- `DeviceAgent` と `LogicalDeviceAgent`。`node` は `get_proxy` で得た node。 -/
structure Agent where
  ref : Nat
  id : String
  node : Nat
deriving DecidableEq, Repr

/-- `packet-in` の message。logical port の番号と packet。 -/
abbrev PacketInMsg := UInt32 × List UInt8

/-- `ofp_packet_in` のうち、`handle_packet_in_event` が書く field。`reason` は `OFPR_ACTION`。 -/
structure OfpPacketIn where
  reason : Nat
  «match» : Match
  data : List UInt8
deriving DecidableEq, Repr

/--
core の状態。

木は device と logical device の key と node だけを持つ。`fresh` は次に作る object の同一性、
`stopped` は `stop` が呼ばれた agent である。
-/
structure System where
  devices : List (String × Nat)
  logicalDevices : List (String × Nat)
  deviceAgents : List (String × Agent)
  logicalDeviceAgents : List (String × Agent)
  callbacks : List Registration
  bus : EventBus PacketInMsg Agent
  fresh : Nat
  stopped : List Nat

inductive CoreError where
  | keyError
  | valueError
  | assertionError
  | activation
  | bus (e : BusError)
deriving DecidableEq, Repr

abbrev CoreOp := Exec System CoreError

/-- まだ device の無い core。 -/
def System.initial : System := ⟨[], [], [], [], [], .initial, 0, []⟩

/-! ## callback の登録 -/

/-- `register_callback`。 -/
def registerCallback (r : Registration) : CoreOp Unit :=
  modify fun s => { s with callbacks := s.callbacks ++ [r] }

/-- `unregister_callback`。無ければ `list.remove` の `ValueError`。 -/
def unregisterCallback (r : Registration) : CoreOp Unit := do
  require (r ∈ (← read).callbacks) .valueError
  modify fun s => { s with callbacks := s.callbacks.erase r }

/-- 新しい object の同一性。 -/
def newRef : CoreOp Nat := fun s => (.ok s.fresh, { s with fresh := s.fresh + 1 })

/-! ## DeviceAgent -/

/-- 加えられる `Device` のうち、agent が始まるときに読む field。 -/
structure NewDevice where
  id : String
  type : String
  adapter : String
  adminState : Option AdminState
deriving DecidableEq, Repr

section DeviceAgent

-- 木の `/device_types` の id と adapter、そして読み込まれた adapter
variable (deviceTypes : List (String × String)) (adapters : List String)

/-- `DeviceAgent.__init__`。device の型は、callback を掛けた後で調べられる。 -/
def newDeviceAgent (device : NewDevice) : CoreOp Agent := do
  let node ← ofOption .keyError (resolve (← read).devices device.id)
  let ref ← newRef
  registerCallback ⟨node, .self, .preUpdate, ref, .validateUpdate⟩
  registerCallback ⟨node, .self, .postUpdate, ref, .processUpdate⟩
  registerCallback ⟨node, .flows, .postUpdate, ref, .flowTableUpdated⟩
  registerCallback ⟨node, .flowGroups, .postUpdate, ref, .groupTableUpdated⟩
  let _ ← ofOption .keyError (resolve deviceTypes device.type)
  return ⟨ref, device.id, node⟩

/-- `_set_adapter_agent` の `adapter_name`。 -/
def adapterName (device : NewDevice) : Option String :=
  if device.adapter = "" then deviceTypes.lookup device.type else some device.adapter

/-- `_set_adapter_agent()`。 -/
def setAdapterAgent (device : NewDevice) : CoreOp Unit := do
  let name ← ofOption .keyError (adapterName deviceTypes device)
  require (name ≠ "") .assertionError
  require (name ∈ adapters) .keyError

/-- 始まるときの `_process_update`。前の状態は `UNKNOWN`。`activates` は `_activate_device` の成否。 -/
def processInitial (device : NewDevice) (activates : Bool) : CoreOp Unit :=
  match device.adminState.bind (DeviceAgent.adminStateFsm .unknown) with
  | none => pure ()
  | some (.handler .activateDevice) => require (activates = true) .activation
  | some _ => raise .activation

/-- `DeviceAgent.start()`。 -/
def startDeviceAgent (device : NewDevice) (activates : Bool) : CoreOp Unit := do
  setAdapterAgent deviceTypes adapters device
  processInitial device activates

/-- `DeviceAgent.stop()`。 -/
def stopDeviceAgent (agent : Agent) : CoreOp Unit := do
  modify fun s => { s with stopped := s.stopped ++ [agent.ref] }
  unregisterCallback ⟨agent.node, .self, .preUpdate, agent.ref, .validateUpdate⟩
  unregisterCallback ⟨agent.node, .self, .postUpdate, agent.ref, .processUpdate⟩

/-- `_handle_add_device(device)`。 -/
def handleAddDevice (device : NewDevice) (activates : Bool) : CoreOp Unit := do
  require (device.id ∉ (← read).deviceAgents.map Prod.fst) .assertionError
  let agent ← newDeviceAgent deviceTypes device
  startDeviceAgent deviceTypes adapters device activates
  modify fun s => { s with deviceAgents := OrderedDict.set s.deviceAgents device.id agent }

/-- `_handle_remove_device(device)`。 -/
def handleRemoveDevice (id : String) : CoreOp Unit := do
  match (← read).deviceAgents.lookup id with
  | none => pure ()
  | some agent =>
    stopDeviceAgent agent
    modify fun s => { s with deviceAgents := OrderedDict.del s.deviceAgents id }

end DeviceAgent

/-! ## LogicalDeviceAgent -/

/-- `event_bus.subscribe('packet-in:<id>', self.handle_packet_in_event)`。 -/
def subscribePacketIn (agent : Agent) : CoreOp Unit := fun s =>
  match s.bus.subscribe (.explicit ("packet-in:" ++ agent.id)) agent none with
  | .ok (_, bus) => (.ok (), { s with bus })
  | .error e => (.error (.bus e), s)

/-- `LogicalDeviceAgent.__init__`。 -/
def newLogicalDeviceAgent (id : String) : CoreOp Agent := do
  let node ← ofOption .keyError (resolve (← read).logicalDevices id)
  let ref ← newRef
  registerCallback ⟨node, .flows, .postUpdate, ref, .flowTableUpdated⟩
  registerCallback ⟨node, .flowGroups, .postUpdate, ref, .groupTableUpdated⟩
  registerCallback ⟨node, .self, .postAdd, ref, .portAdded⟩
  registerCallback ⟨node, .self, .postRemove, ref, .portRemoved⟩
  subscribePacketIn ⟨ref, id, node⟩
  return ⟨ref, id, node⟩

/-- `LogicalDeviceAgent.stop()`。後の二つは、掛けたものと method が違う。 -/
def stopLogicalDeviceAgent (agent : Agent) : CoreOp Unit := do
  modify fun s => { s with stopped := s.stopped ++ [agent.ref] }
  unregisterCallback ⟨agent.node, .flows, .postUpdate, agent.ref, .flowTableUpdated⟩
  unregisterCallback ⟨agent.node, .flowGroups, .postUpdate, agent.ref, .groupTableUpdated⟩
  unregisterCallback ⟨agent.node, .self, .postAdd, agent.ref, .portListUpdated⟩
  unregisterCallback ⟨agent.node, .self, .postRemove, agent.ref, .portListUpdated⟩

/-- `_handle_add_logical_device(logical_device)`。 -/
def handleAddLogicalDevice (id : String) : CoreOp Unit := do
  require (id ∉ (← read).logicalDeviceAgents.map Prod.fst) .assertionError
  let agent ← newLogicalDeviceAgent id
  modify fun s => { s with
    logicalDeviceAgents := OrderedDict.set s.logicalDeviceAgents id agent }

/-- `_handle_remove_logical_device(logical_device)`。 -/
def handleRemoveLogicalDevice (id : String) : CoreOp Unit := do
  match (← read).logicalDeviceAgents.lookup id with
  | none => pure ()
  | some agent =>
    stopLogicalDeviceAgent agent
    modify fun s => { s with
      logicalDeviceAgents := OrderedDict.del s.logicalDeviceAgents id }

/-- `handle_packet_in_event` が作る `ofp_packet_in`。 -/
def ofpPacketIn (msg : PacketInMsg) : OfpPacketIn :=
  ⟨1, ⟨.oxm, [⟨.openflowBasic, .ofbField (inPort msg.1)⟩]⟩, msg.2⟩

/-- `handle_packet_in_event` が `packet_in_queue` に置くもの。 -/
def handlePacketInEvent (agent : Agent) (msg : PacketInMsg) : String × OfpPacketIn :=
  (agent.id, ofpPacketIn msg)

/-- `packet-in:<id>` に流れた message が `packet_in_queue` に置かれる列。 -/
def System.forwarded (s : System) (id : String) (msg : PacketInMsg) : List (String × OfpPacketIn) :=
  (s.bus.publish ("packet-in:" ++ id) msg).1.map fun subscription =>
    handlePacketInEvent subscription.callback msg

/-! ## 木への操作 -/

/-- 木への直接の追加と削除。callback は終わりまで動く。 -/
inductive TreeEvent where
  | addDevice (device : NewDevice) (activates : Bool)
  | removeDevice (path : String)
  | addLogicalDevice (id : String)
  | removeLogicalDevice (path : String)

section Run

variable (deviceTypes : List (String × String)) (adapters : List String)

/-- 一つの操作。同じ key の追加と、無い key の削除は例外になり、何も変えない。 -/
def step (s : System) : TreeEvent → System
  | .addDevice device activates =>
    if device.id ∈ s.devices.map Prod.fst then s
    else (handleAddDevice deviceTypes adapters device activates
      { s with devices := s.devices ++ [(device.id, s.fresh)], fresh := s.fresh + 1 }).2
  | .removeDevice path =>
    match removedKey path with
    | none => s
    | some key =>
      if key ∈ s.devices.map Prod.fst then
        (handleRemoveDevice key { s with devices := OrderedDict.del s.devices key }).2
      else s
  | .addLogicalDevice id =>
    if id ∈ s.logicalDevices.map Prod.fst then s
    else (handleAddLogicalDevice id
      { s with logicalDevices := s.logicalDevices ++ [(id, s.fresh)], fresh := s.fresh + 1 }).2
  | .removeLogicalDevice path =>
    match removedKey path with
    | none => s
    | some key =>
      if key ∈ s.logicalDevices.map Prod.fst then
        (handleRemoveLogicalDevice key
          { s with logicalDevices := OrderedDict.del s.logicalDevices key }).2
      else s

end Run

end Voltha.Core.VolthaCore
