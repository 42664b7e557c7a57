import Mathlib.Data.List.Basic
import Voltha.Lib.Exec

/-!
# Microsemi OLT の立ち上げ

`voltha/adapters/microsemi/OltStateMachine.py` と `BaseOltAutomaton.py`。scapy の automaton で、状態に入ると
まず condition が動き、condition の無い状態でだけ packet と timeout を待つ。

立ち上げは八つの段階（`Phase`）からなり、どの段階も、四つの channel に要求を送って応答を待つ。応答の
有無は `send_state` に一つずつの flag で持つ。

* `send_state` は **class の属性** で、instance は `check_channel_state` が成功するまで同じ列を書き換える
* 応答の `channel_id` は、そのまま列の添字になる。負の添字は後ろから数える
* `send_add_olt` は `wait_query_response` の condition なので、その状態では packet を待たない
* `dba_timeout` は二度定義されるので、`wait_dba_mode` に timeout は無い

`heard` は source には無く、段階の待つ状態で、その instance が受け取った応答を数える。
-/

namespace Voltha.Microsemi

/-- 立ち上げの段階。 -/
inductive Phase where
  | optics
  | ioOptics
  | query
  | addOlt
  | alarm
  | dbaMode
  | dbaStart
  | activation
deriving DecidableEq, Repr

/-- automaton の状態。`waiting` と `got` は、段階の `wait_…` と `got_…`。 -/
inductive State where
  | disconnected
  | waitForProtoVersion
  | gotProtoVersion
  | waitForOltVersion
  | gotOltVersion
  | waiting (ph : Phase)
  | got (ph : Phase)
  | initialized
  | waitKeepalive
  | error
deriving DecidableEq, Repr

/-- OLT から届く message。`value` と `dbaMode` は、その応答にだけある。 -/
structure Packet where
  opcode : Nat
  channelId : Int16
  value : Nat
  dbaMode : Nat
deriving DecidableEq, Repr

/-- `CHANNELS`。 -/
def CHANNELS : List Nat := [0, 1, 2, 3]

def PON_ENABLE : Nat := 1
def PON_DBA_MODE_LOADED_NOT_RUNNING : Nat := 1
def PON_DBA_MODE_RUNNING : Nat := 2

namespace Packet

def isProtocolVersion (pkt : Packet) : Bool := pkt.opcode = 0x2802

def isOltVersion (pkt : Packet) : Bool := pkt.opcode = 0x3803

end Packet

/-- 段階の応答の `opcode`。 -/
def Phase.opcode : Phase → Nat
  | .optics => 10346
  | .ioOptics => 10348
  | .query => 0x28a5
  | .addOlt => 10244
  | .alarm => 10288
  | .dbaMode => 0x2839
  | .dbaStart => 10295
  | .activation => 10251

/-- 段階の、肯定の応答。 -/
def Phase.accepts (ph : Phase) (pkt : Packet) : Bool :=
  pkt.opcode == ph.opcode &&
    match ph with
    | .query => pkt.value == PON_ENABLE
    | .dbaMode =>
      pkt.dbaMode == PON_DBA_MODE_LOADED_NOT_RUNNING || pkt.dbaMode == PON_DBA_MODE_RUNNING
    | _ => true

/-- `OltStateMachine` の instance。`sendState` は、class の属性のままなら `none`。 -/
structure Olt where
  state : State
  sendState : Option (List Bool)
  dbaNeedsStart : Bool
  retry : Int
  alive : Bool
  sent : List (Phase × Nat)
  heard : List Int16
deriving DecidableEq, Repr

/-- 始めの instance。 -/
def Olt.initial : Olt where
  state := .disconnected
  sendState := none
  dbaNeedsStart := false
  retry := 3
  alive := true
  sent := []
  heard := []

/-- 一つの instance から見える範囲。`shared` は class の `send_state`。 -/
structure Env where
  shared : List Bool
  self : Olt
deriving DecidableEq, Repr

namespace Env

/-- `self.send_state`。 -/
def flags (env : Env) : List Bool := env.self.sendState.getD env.shared

/-- `self.send_state` の列を書き換える。 -/
def setFlags (env : Env) (l : List Bool) : Env :=
  match env.self.sendState with
  | some _ => { env with self := { env.self with sendState := some l } }
  | none => { env with shared := l }

end Env

/-! ## handler -/

/-- handler の投げる例外。 -/
inductive AtmtError where
  | indexError
deriving DecidableEq, Repr

/-- handler。`raise self.x()` なら `some x`、そのまま戻れば `none`。 -/
abbrev Handler := Exec Env AtmtError (Option State)

/-- `l[i]` の位置。 -/
def resolve (l : List Bool) (i : Int) : Option Nat :=
  if 0 ≤ i then if i < l.length then some i.toNat else none
  else if 0 ≤ i + l.length then some (i + l.length).toNat else none

/-- `self.send_state.append(False)` と、要求の送信。 -/
def sendTo (ph : Phase) (channel : Nat) : Exec Env AtmtError Unit := do
  Exec.modify fun env => env.setFlags (env.flags ++ [false])
  Exec.modify fun env =>
    { env with self := { env.self with sent := env.self.sent ++ [(ph, channel)] } }

/-- 四つの channel に要求を送って、応答を待つ。 -/
def sendToChannels (ph : Phase) : Handler := do
  let _ ← Exec.mapList (sendTo ph) CHANNELS
  return some (.waiting ph)

/-- `self.send_state[channel_id] = True`。 -/
def setSendState (channelId : Int16) : Exec Env AtmtError Unit := do
  let env ← Exec.read
  let j ← Exec.ofOption .indexError (resolve env.flags channelId.toInt)
  Exec.modify fun env => env.setFlags (env.flags.set j true)

/-- どの flag も立っているか。 -/
def allSet (l : List Bool) : List Nat → Exec Env AtmtError Bool
  | [] => pure true
  | i :: is => do
    let flag ← Exec.ofOption .indexError l[i]?
    if flag then allSet l is else return false

/-- `check_channel_state()`。 -/
def checkChannelState : Exec Env AtmtError Bool := do
  let env ← Exec.read
  let all ← allSet env.flags CHANNELS
  if all then
    Exec.modify fun env => { env with self := { env.self with sendState := some [] } }
    return true
  else return false

/-! ### condition -/

def sendProtoRequest : Handler := return some .waitForProtoVersion
def sendOltVersion : Handler := return some .waitForOltVersion
def sendOltOptics : Handler := sendToChannels .optics
def sendOltIoOptics : Handler := sendToChannels .ioOptics
def checkDownstreamPonTx : Handler := sendToChannels .query
def sendAddOlt : Handler := sendToChannels .addOlt
def sendAlarmConfig : Handler := sendToChannels .alarm
def sendDbaMode : Handler := sendToChannels .dbaMode
def sendStartDba : Handler := sendToChannels .dbaStart
def sendActivationPeriod : Handler := sendToChannels .activation

/-- 状態の condition。 -/
def condition : State → Option Handler
  | .disconnected => some sendProtoRequest
  | .gotProtoVersion => some sendOltVersion
  | .gotOltVersion => some sendOltOptics
  | .got .optics => some sendOltIoOptics
  | .got .ioOptics => some checkDownstreamPonTx
  | .waiting .query => some sendAddOlt
  | .got .addOlt => some sendAlarmConfig
  | .got .alarm => some sendDbaMode
  | .got .dbaMode => some sendStartDba
  | .got .dbaStart => some sendActivationPeriod
  | _ => none

/-! ### packet -/

def receiveProtoVersion (pkt : Packet) : Handler :=
  if pkt.isProtocolVersion then return some .gotProtoVersion else return some .error

def receiveOltVersion (pkt : Packet) : Handler :=
  if pkt.isOltVersion then return some .gotOltVersion else return some .error

/-- 応答の flag を立て、揃えば `next` へ進む。 -/
def acceptResponse (ph : Phase) (next : State) (pkt : Packet) : Handler := do
  setSendState pkt.channelId
  if ← checkChannelState then return some next
  else return some (.waiting ph)

/-- 他の packet は無視する。 -/
def awaitResponse (ph : Phase) (next : State) (pkt : Packet) : Handler :=
  if pkt.opcode = ph.opcode then acceptResponse ph next pkt else return none

/-- 他の packet では、待つ状態に入り直す。 -/
def awaitOrStay (ph : Phase) (next : State) (pkt : Packet) : Handler :=
  if pkt.opcode = ph.opcode then acceptResponse ph next pkt else return some (.waiting ph)

def receiveSetOpticsResponse : Packet → Handler := awaitResponse .optics (.got .optics)
def receiveIoOpticsResponse : Packet → Handler := awaitResponse .ioOptics (.got .ioOptics)
def waitForOltAdd : Packet → Handler := awaitResponse .addOlt (.got .addOlt)
def waitForAlarmSet : Packet → Handler := awaitResponse .alarm (.got .alarm)
def waitForDbaStart : Packet → Handler := awaitOrStay .dbaStart (.got .dbaStart)
def waitForActivation : Packet → Handler := awaitOrStay .activation .initialized

/-- 送信が有効でなければ、flag を立ててから `ERROR` へ移る。 -/
def checkPonTxState (pkt : Packet) : Handler :=
  if pkt.opcode = Phase.query.opcode then do
    setSendState pkt.channelId
    if pkt.value = PON_ENABLE then
      if ← checkChannelState then return some (.got .query)
      else return some (.waiting .query)
    else return some .error
  else return none

/-- DBA の mode に応じて flag を立てる。 -/
def recordDbaMode (pkt : Packet) : Exec Env AtmtError Unit :=
  if pkt.dbaMode = PON_DBA_MODE_LOADED_NOT_RUNNING then do
    setSendState pkt.channelId
    Exec.modify fun env => { env with self := { env.self with dbaNeedsStart := true } }
  else if pkt.dbaMode = PON_DBA_MODE_RUNNING then setSendState pkt.channelId
  else return ()

def waitForDbaMode (pkt : Packet) : Handler :=
  if pkt.opcode = Phase.dbaMode.opcode then do
    recordDbaMode pkt
    if ← checkChannelState then do
      let env ← Exec.read
      return some (if env.self.dbaNeedsStart then .got .dbaMode else .got .dbaStart)
    else return some (.waiting .dbaMode)
  else return some (.waiting .dbaMode)

def waitForKeepalive (pkt : Packet) : Handler :=
  if pkt.isOltVersion then return some .initialized else return none

/-- 状態の receive_condition。 -/
def receiveCondition : State → Option (Packet → Handler)
  | .waitForProtoVersion => some receiveProtoVersion
  | .waitForOltVersion => some receiveOltVersion
  | .waiting .optics => some receiveSetOpticsResponse
  | .waiting .ioOptics => some receiveIoOpticsResponse
  | .waiting .query => some checkPonTxState
  | .waiting .addOlt => some waitForOltAdd
  | .waiting .alarm => some waitForAlarmSet
  | .waiting .dbaMode => some waitForDbaMode
  | .waiting .dbaStart => some waitForDbaStart
  | .waiting .activation => some waitForActivation
  | .waitKeepalive => some waitForKeepalive
  | _ => none

/-! ### timeout -/

/-- `timeout_proto` と `timeout_olt`。 -/
def retryTimeout : Handler := do
  Exec.modify fun env => { env with self := { env.self with retry := env.self.retry - 1 } }
  let env ← Exec.read
  return some (if env.self.retry < 0 then .error else .disconnected)

/-- 段階の timeout と `timeout_keepalive`。 -/
def fail : Handler := return some .error

def sendKeepalive : Handler := return some .waitKeepalive

/-- 状態の timeout。 -/
def timeout : State → Option Handler
  | .waitForProtoVersion => some retryTimeout
  | .waitForOltVersion => some retryTimeout
  | .waiting .dbaMode => none
  | .waiting _ => some fail
  | .initialized => some sendKeepalive
  | .waitKeepalive => some fail
  | _ => none

/-! ## 全体 -/

/-- automaton に起きること。 -/
inductive Event where
  | condition
  | receive (pkt : Packet)
  | timeout
deriving DecidableEq, Repr

/-- 状態を移る。待つ状態に新しく入れば、`heard` は空から数え直す。 -/
def Olt.enter (olt : Olt) : Option State → Olt
  | none => olt
  | some s => { olt with state := s, heard := if s = olt.state then olt.heard else [] }

/-- 受け取った応答を数える。 -/
def Olt.hear (olt : Olt) (pkt : Packet) : Olt :=
  match olt.state with
  | .waiting ph =>
    if ph.accepts pkt then { olt with heard := olt.heard ++ [pkt.channelId] } else olt
  | _ => olt

/-- handler を動かす。例外が飛べば、automaton は止まる。 -/
def Env.run (env : Env) (handler : Handler) : Env :=
  match handler env with
  | (.ok next, env) => { env with self := env.self.enter next }
  | (.error _, env) => { env with self := { env.self with alive := false } }

/-- 一つの instance の一歩。condition のある状態では、condition だけが動く。 -/
def Env.step (env : Env) (event : Event) : Env :=
  if env.self.alive then
    match condition env.self.state, event with
    | some handler, .condition => env.run handler
    | none, .receive pkt =>
      match receiveCondition env.self.state with
      | some handler => Env.run { env with self := env.self.hear pkt } (handler pkt)
      | none => env
    | none, .timeout =>
      match timeout env.self.state with
      | some handler => env.run handler
      | none => env
    | _, _ => env
  else env

/-- すべての instance。`ι` は instance の名前。 -/
structure World (ι : Type) where
  shared : List Bool
  olts : ι → Olt

variable {ι : Type} [DecidableEq ι]

/-- 始めの状態。 -/
def World.initial : World ι := ⟨[], fun _ => .initial⟩

/-- 一つの instance から見た状態。 -/
def World.env (w : World ι) (n : ι) : Env := ⟨w.shared, w.olts n⟩

/-- 一歩。 -/
def World.step (w : World ι) (e : ι × Event) : World ι :=
  let env := (w.env e.1).step e.2
  ⟨env.shared, Function.update w.olts e.1 env.self⟩

end Voltha.Microsemi
