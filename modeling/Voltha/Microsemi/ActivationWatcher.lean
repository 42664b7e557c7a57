import Voltha.Core.AdapterAgent
import Voltha.Lib.Ascii

/-!
# ONU の activation

`voltha/adapters/microsemi/ActivationWatcher.py` と、port を足す `DeviceManager.py`。`ActivationWatcher` は
activation の event ごとに `ActivationManager` を一つ作り、それぞれが OLT の同じ packet の列を読む。

* packet は automaton ごとの `inbox` に入り、automaton は自分の速さで先頭から読む
* 名乗りを比べるのは `wait_omci_port_id` だけで、`wait_send_frame` と `wait_omci_get` は比べない
* `timeout_send_frame` は二度定義されるので、`wait_send_frame` に timeout は無い
* method の `error` が状態の `error` を隠すので、timeout は `TypeError` で automaton を止める
* device の port の key は `onu_id` だけで、logical port の id はいつも `'uni'` である
* `vendor_id` は byte の列で、`Port` の `label` は UTF-8 として読まれる。logical port の名前を作る `format` は
  ASCII でない `label` に例外を投げるが、device の port はもう書かれている

`answered` は source には無く、識別の要求を送った後に自分の ONU の応答を読んだことを覚える。
-/

namespace Voltha.Microsemi.Activation

open Voltha.Core (Port PortTree addPort)

/-- `PAS5211MsgHeader` の先の層。 -/
inductive Layer where
  | getActivationAuthModeResponse (mode : Nat)
  | eventOnuActivation (serialNumber : String)
  /-- `OmciGetResponse`。`data` に `vendor_id` が無ければ `none`。 -/
  | omciGetResponse (vendorId : Option (List UInt8))
  | other (opcode : Nat)
deriving DecidableEq, Repr

/-- 層を選ぶ `opcode`。 -/
def Layer.opcode : Layer → Nat
  | .getActivationAuthModeResponse _ => 10385
  | .eventOnuActivation _ => 10252
  | .omciGetResponse _ => 10252
  | .other opcode => opcode

/-- OLT から届く packet。 -/
structure Packet where
  channelId : Int16
  onuId : Int16
  onuSessionId : Int32
  layer : Layer
deriving DecidableEq, Repr

def Packet.opcode (pkt : Packet) : Nat := pkt.layer.opcode

def PON_ACTIVATION_AUTH_AUTO : Nat := 0

/-- `PAS5211MsgSetOnuOmciPortIdResponse.opcode`。 -/
def setOnuOmciPortIdResponse : Nat := 10281

/-- `PAS5211MsgSendFrameResponse.opcode`。 -/
def sendFrameResponse : Nat := 10282

/-- `ActivationManager` の状態。`ended` は `end` で、`error` には移れない。 -/
inductive State where
  | gotActivationEvent
  | waitGetAuthMode
  | gotAuthMode
  | waitOmciPortId
  | gotOmciPortId
  | waitSendFrame
  | waitOmciGet
  | ended
deriving DecidableEq, Repr

/-- `ActivationManager` の instance。 -/
structure Manager where
  channelId : Int16
  onuId : Int16
  serialNumber : String
  onuSessionId : Int32
  state : State
  alive : Bool
  answered : Bool
  inbox : List Packet
deriving DecidableEq, Repr

/-- `self.port_id`。 -/
def Manager.portId (m : Manager) : Int16 := m.onuId

/-- `ofp_port` の番号と名前を持つ `LogicalPort`。 -/
structure LogicalPort where
  id : String
  portNo : UInt32
  name : String
deriving DecidableEq, Repr

/-- `DeviceManager`。logical device がまだ無ければ `none`。 -/
structure DeviceManager where
  deviceId : String
  devices : PortTree
  logicalPorts : Option (List (String × LogicalPort))
deriving DecidableEq, Repr

/-- 一つの automaton から見える範囲。 -/
structure Env where
  self : Manager
  device : DeviceManager
deriving DecidableEq, Repr

/-- handler の投げる例外。 -/
inductive AtmtError where
  | typeError
  | keyError
  | structError
  | attributeError
  | valueError
  | unicodeEncodeError
deriving DecidableEq, Repr

/-- handler。`raise self.x()` なら `some x`、そのまま戻れば `none`。 -/
abbrev Handler := Exec Env AtmtError (Option State)

/-! ## port を足す -/

/-- `adapter_agent.add_port(self.device.id, port)`。 -/
def addDevicePort (port : Port) : Exec Env AtmtError Unit := do
  let device := (← Exec.read).device
  let (result, devices) := addPort device.deviceId port device.devices
  Exec.modify fun env => { env with device := { env.device with devices } }
  match result with
  | .ok () => return ()
  | .error _ => Exec.raise .keyError

/-- `adapter_agent.add_logical_port(self.logical_device.id, logical_port)`。 -/
def addLogicalPort (logicalPort : LogicalPort) : Exec Env AtmtError Unit := do
  let ports ← Exec.ofOption .attributeError (← Exec.read).device.logicalPorts
  let ports := OrderedDict.set ports logicalPort.id logicalPort
  Exec.modify fun env => { env with device := { env.device with logicalPorts := some ports } }

/-- `DeviceManager.add_port(port)`。名前の `format` は `str` のもので、ASCII の `label` しか受けない。 -/
def addPortPair (port : Port) : Exec Env AtmtError Unit := do
  addDevicePort port
  Exec.require (Ascii.chars port.label.toList = true) .unicodeEncodeError
  addLogicalPort
    { id := "uni", portNo := port.portNo, name := port.label ++ "-" ++ toString port.portNo }

/-- `"{} ONU".format(vendor)`。 -/
def portLabel (vendor : List UInt8) : List UInt8 := vendor ++ [32, 79, 78, 85]

/-- `create_port(pkt)`。UTF-8 でない `label` は、`Port` を作るところで断られる。 -/
def createPort (vendor : List UInt8) : Exec Env AtmtError Unit := do
  let portId := (← Exec.read).self.portId
  let label ← Exec.ofOption .valueError (Ascii.decode (portLabel vendor))
  addPortPair
    { portNo := UInt32.ofNat portId.toInt.toNat
      label
      type := .ethernetUni
      adminState := .enabled
      operStatus := .active
      deviceId := ""
      peers := [] }

/-! ## ActivationManager -/

def sendGetActivationAuthMode : Handler := return some .waitGetAuthMode

def waitForGetAuthMode (pkt : Packet) : Handler :=
  match pkt.layer with
  | .getActivationAuthModeResponse mode =>
    return some (if mode = PON_ACTIVATION_AUTH_AUTO then .gotAuthMode else .ended)
  | _ => return none

/-- 負の `port_id` は packet に詰められない。 -/
def sendOmciPortId : Handler := do
  Exec.require (0 ≤ (← Exec.read).self.portId.toInt) .structError
  return some .waitOmciPortId

def waitForOmciPortId (pkt : Packet) : Handler := do
  let self := (← Exec.read).self
  if pkt.opcode = setOnuOmciPortIdResponse ∧ pkt.onuId = self.onuId ∧
      pkt.onuSessionId = self.onuSessionId ∧ pkt.channelId = self.channelId then
    return some .gotOmciPortId
  else return none

def sendOmciIdentityFrame : Handler := return some .waitSendFrame

def waitForSendFrame (pkt : Packet) : Handler :=
  if pkt.opcode = sendFrameResponse then return some .waitOmciGet else return none

def waitForOmciGet (pkt : Packet) : Handler :=
  match pkt.layer with
  | .omciGetResponse vendorId => do
    createPort (← Exec.ofOption .keyError vendorId)
    return some .ended
  | _ => return none

/-- `self.error(msg)`。 -/
def error : Handler := Exec.raise .typeError

/-- 状態の condition。 -/
def condition : State → Option Handler
  | .gotActivationEvent => some sendGetActivationAuthMode
  | .gotAuthMode => some sendOmciPortId
  | .gotOmciPortId => some sendOmciIdentityFrame
  | _ => none

/-- 状態の receive_condition。 -/
def receiveCondition : State → Option (Packet → Handler)
  | .waitGetAuthMode => some waitForGetAuthMode
  | .waitOmciPortId => some waitForOmciPortId
  | .waitSendFrame => some waitForSendFrame
  | .waitOmciGet => some waitForOmciGet
  | _ => none

/-- 状態の timeout。 -/
def timeout : State → Option Handler
  | .waitGetAuthMode => some error
  | .waitOmciPortId => some error
  | .waitOmciGet => some error
  | _ => none

/-! ## 一歩 -/

/-- この instance の ONU のもの。 -/
def Packet.IsOf (pkt : Packet) (m : Manager) : Prop :=
  pkt.channelId = m.channelId ∧ pkt.onuId = m.onuId

instance (pkt : Packet) (m : Manager) : Decidable (pkt.IsOf m) :=
  inferInstanceAs (Decidable (pkt.channelId = m.channelId ∧ pkt.onuId = m.onuId))

def Packet.isOmciGetResponse (pkt : Packet) : Bool :=
  match pkt.layer with
  | .omciGetResponse _ => true
  | _ => false

/-- 識別の要求を送って、応答を待っている。 -/
def State.afterIdentity : State → Bool
  | .waitSendFrame | .waitOmciGet => true
  | _ => false

/-- 先頭の packet を読む。 -/
def Manager.read (m : Manager) (pkt : Packet) (rest : List Packet) : Manager :=
  { m with
    inbox := rest
    answered := m.answered ||
      (m.state.afterIdentity && pkt.isOmciGetResponse && decide (pkt.IsOf m)) }

/-- handler を動かす。例外が飛べば、automaton は止まる。 -/
def Env.run (env : Env) (handler : Handler) : Env :=
  match handler env with
  | (.ok none, env) => env
  | (.ok (some state), env) => { env with self := { env.self with state } }
  | (.error _, env) => { env with self := { env.self with alive := false } }

/-- automaton が一つ進む。condition があればそれを動かし、無ければ packet を一つ読む。 -/
def Env.step (env : Env) : Env :=
  if env.self.alive then
    match condition env.self.state, receiveCondition env.self.state, env.self.inbox with
    | some handler, _, _ => env.run handler
    | none, some handler, pkt :: rest =>
      Env.run { env with self := env.self.read pkt rest } (handler pkt)
    | _, _, _ => env
  else env

/-- timeout が来る。 -/
def Env.expire (env : Env) : Env :=
  if env.self.alive then
    match timeout env.self.state with
    | some handler => env.run handler
    | none => env
  else env

/-- 一つの OLT の automaton と、その device。 -/
structure World where
  device : DeviceManager
  watcher : List Packet
  managers : List Manager
deriving DecidableEq, Repr

/-- 起きること。 -/
inductive Event where
  /-- OLT の packet が、どの automaton の `inbox` にも入る。 -/
  | packet (pkt : Packet)
  /-- `ActivationWatcher` が packet を一つ読む。 -/
  | watch
  | run (i : Nat)
  | timeout (i : Nat)
  /-- `OltStateMachine` が `create_logical_device` を呼ぶ。一度しか呼ばない。 -/
  | createLogicalDevice
deriving DecidableEq, Repr

/-- 始めの状態。 -/
def World.initial (deviceId : String) : World where
  device := { deviceId, devices := [(deviceId, [])], logicalPorts := none }
  watcher := []
  managers := []

/-- `wait_for_onu_activation_event(pkt)`。 -/
def World.waitForOnuActivationEvent (w : World) (pkt : Packet) : World :=
  match pkt.layer with
  | .eventOnuActivation serialNumber =>
    { w with managers := w.managers ++ [{
        channelId := pkt.channelId
        onuId := pkt.onuId
        serialNumber
        onuSessionId := pkt.onuSessionId
        state := .gotActivationEvent
        alive := true
        answered := false
        inbox := [] }] }
  | _ => w

/-- `i` 番の automaton だけが動く。 -/
def World.update (w : World) (i : Nat) (f : Env → Env) : World :=
  match w.managers[i]? with
  | some m =>
    let env := f ⟨m, w.device⟩
    { w with device := env.device, managers := w.managers.set i env.self }
  | none => w

/-- 一歩。 -/
def World.step (w : World) : Event → World
  | .packet pkt =>
    { w with
      watcher := w.watcher ++ [pkt]
      managers := w.managers.map fun m => { m with inbox := m.inbox ++ [pkt] } }
  | .watch =>
    match w.watcher with
    | pkt :: rest => { w with watcher := rest }.waitForOnuActivationEvent pkt
    | [] => w
  | .run i => w.update i Env.step
  | .timeout i => w.update i Env.expire
  | .createLogicalDevice =>
    match w.device.logicalPorts with
    | some _ => w
    | none => { w with device := { w.device with logicalPorts := some [] } }

end Voltha.Microsemi.Activation
