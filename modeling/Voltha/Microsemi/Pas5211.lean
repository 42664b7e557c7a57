import Voltha.Lib.Packet
import Voltha.Lib.Struct

/-!
# PAS5211 の frame

`microsemi/PAS5211.py` の message と、`PAS5211_comm.py` の `constructPAS5211Frames`。

frame は `Dot3 / PAS5211FrameHeader / PAS5211MsgHeader / message` の順に並ぶ。message の class は、
読むときに `PAS5211MsgHeader` の `opcode` と `event_type` から選ぶ。`Dot3` の長さより後は詰め物である。

`OmciFrame` は、ここでは byte 列のまま運ぶ。変数 `omci` は、その byte 列を読んで例外にならないことである。

`Packet.build`・`Packet.dissect` と `FieldDesc.toField` は、scapy の `Packet` と `Field` の文書にある
読み書きを書いたものである。scapy は repository の外にあり、ここで使う class だけを書く。
-/

open Packet (Fields getfieldval)

namespace Voltha.Microsemi.Pas5211

abbrev Bytes := List UInt8

/-! ## field -/

/-- field の値。`frame` は、`PacketField` の packet の byte 列である。 -/
inductive Value where
  | none
  | int (n : Int)
  | str (s : Bytes)
  | list (ns : List Int)
  | frame (s : Bytes)
deriving DecidableEq, Repr

/-- 例外。 -/
inductive CodecError where
  | structError
  | typeError
  /-- `OmciFrame(s)` の例外。 -/
  | omciError
deriving DecidableEq, Repr

def ofOption {α : Type} (e : CodecError) : Option α → Except CodecError α
  | some a => .ok a
  | none => .error e

/-- field の class と引数。 -/
inductive FieldDesc where
  /-- `ByteField` や `LEShortField` など。 -/
  | num (name : String) (width : Nat) (signed : Bool) (default : Value)
  /-- `StrFixedLenField(name, None, length)`。 -/
  | str (name : String) (length : Nat)
  /-- `FieldLenField(name, default, fmt="<H", length_of=lengthOf)`。 -/
  | fieldLen (name : String) (default : Value) (lengthOf : Option String)
  /-- `FieldListField(name, default, LEIntField("entry", 0), count_from=...)`。 -/
  | intList (name : String) (default : List Int) (count : String)
  /-- `ConditionalField(PacketField("frame", None, cls), cond)`。`cond` は `flag` の frame か。 -/
  | frame (flag : Int)
deriving DecidableEq, Repr

def byteField (name : String) (default : Value) : FieldDesc := .num name 1 false default
def leShortField (name : String) (default : Value) : FieldDesc := .num name 2 false default
def leIntField (name : String) (default : Value) : FieldDesc := .num name 4 false default
def leSignedShortField (name : String) (default : Value) : FieldDesc := .num name 2 true default
def leSignedIntField (name : String) (default : Value) : FieldDesc := .num name 4 true default

def PON_FALSE : Int := 0
def PON_TRUE : Int := 1
def PON_PORT_PON : Int := 0

namespace FieldDesc

def name : FieldDesc → String
  | num name _ _ _ => name
  | str name _ => name
  | fieldLen name _ _ => name
  | intList name _ _ => name
  | frame _ => "frame"

/-- 整数を書く。`None` は 0 になる。 -/
def packNum (width : Nat) (signed : Bool) : Value → Except CodecError Bytes
  | .none => ofOption .structError (Struct.packInt width signed 0)
  | .int n => ofOption .structError (Struct.packInt width signed n)
  | _ => .error .structError

/-- `struct.unpack(fmt, s[:sz])[0]`。 -/
def unpackNum (width : Nat) (signed : Bool) (s : Bytes) : Except CodecError (Bytes × Int) := do
  let n ← ofOption .structError (Struct.unpackInt width signed (s.take width))
  return (s.drop width, n)

/-- `len(frame)`。 -/
def lengthOfFrame : Option Value → Except CodecError Value
  | some (.frame s) => .ok (.int s.length)
  | _ => .error .typeError

/-- `FieldListField` の要素を順に書く。 -/
def packList : List Int → Bytes → Except CodecError Bytes
  | [], s => .ok s
  | n :: ns, s => do packList ns (s ++ (← packNum 4 false (.int n)))

/-- `count` 個まで読む。byte 列が尽きれば止まる。 -/
def unpackList : Nat → Bytes → Except CodecError (Bytes × List Int)
  | 0, s => .ok (s, [])
  | count + 1, s =>
    if s = [] then .ok (s, [])
    else do
      let (s, n) ← unpackNum 4 false s
      let (s, ns) ← unpackList count s
      return (s, n :: ns)

/-- `count_from(pkt)`。 -/
def countFrom (count : String) (pkt : Fields Value) : Except CodecError Nat :=
  match pkt count with
  | some (.int n) => .ok n.toNat
  | _ => .error .typeError

/-- `pkt.management_frame == flag`。 -/
def isManagement (flag : Int) (pkt : Fields Value) : Bool :=
  pkt "management_frame" = some (.int flag)

/-- `PacketField("frame", None, cls)`。後の byte 列を全部読む。 -/
def packetField (omci : Bytes → Bool) (flag : Int) : Packet.Field Value CodecError where
  name := "frame"
  default := .none
  addfield _ s v :=
    match v with
    | .frame t => .ok (s ++ t)
    | _ => .error .typeError
  getfield _ s :=
    if flag = PON_TRUE ∧ omci s = false then .error .omciError else .ok ([], .frame s)

def toField (omci : Bytes → Bool) : FieldDesc → Packet.Field Value CodecError
  | num name width signed default =>
    { name
      default
      addfield _ s v := do return s ++ (← packNum width signed v)
      getfield _ s := do
        let (s, n) ← unpackNum width signed s
        return (s, .int n) }
  | str name length =>
    { name
      default := .none
      addfield _ s v :=
        match v with
        | .none => .ok (s ++ List.replicate length 0)
        | .str t => .ok (s ++ (t.take length ++ List.replicate (length - t.length) 0))
        | _ => .error .typeError
      getfield _ s := .ok (s.drop length, .str (s.take length)) }
  | fieldLen name default lengthOf =>
    { name
      default
      addfield pkt s v := do
        let v ← if v = .none then lengthOfFrame (lengthOf.bind pkt) else pure v
        return s ++ (← packNum 2 false v)
      getfield _ s := do
        let (s, n) ← unpackNum 2 false s
        return (s, .int n) }
  | intList name default count =>
    { name
      default := .list default
      addfield _ s v :=
        match v with
        | .none => .ok s
        | .list ns => packList ns s
        | _ => .error .typeError
      getfield pkt s := do
        let (s, ns) ← unpackList (← countFrom count pkt) s
        return (s, .list ns) }
  | frame flag => (packetField omci flag).conditional (isManagement flag) .none

end FieldDesc

/-! ## message -/

/-- `PAS5211Msg` の派生 class。`opcode` の無いものもある。 -/
structure MessageClass where
  name : String
  opcode : Option Nat
  fieldsDesc : List FieldDesc
deriving DecidableEq, Repr

/-- `PAS5211FrameHeader`。 -/
def frameHeader : List FieldDesc := [
  leShortField "part" (.int 1),
  leShortField "total_parts" (.int 1),
  leShortField "size" (.int 0),
  leSignedIntField "magic_number" (.int 0x1234ABCD)]

/-- `PAS5211MsgHeader`。 -/
def msgHeader : List FieldDesc := [
  leIntField "sequence_number" (.int 0),
  leShortField "opcode" (.int 0),
  leShortField "event_type" (.int 0),
  leSignedShortField "channel_id" (.int (-1)),
  leSignedShortField "onu_id" (.int (-1)),
  leSignedIntField "onu_session_id" (.int (-1))]

namespace MessageClass

/-! ### 送る message -/

def getOltVersion : MessageClass := ⟨"PAS5211MsgGetOltVersion", some 3, []⟩

def getProtocolVersion : MessageClass := ⟨"PAS5211MsgGetProtocolVersion", some 2, []⟩

def setOpticsIoControl : MessageClass := ⟨"PAS5211MsgSetOpticsIoControl", some 108, [
  byteField "i2c_clk" .none,
  byteField "i2c_data" .none,
  byteField "tx_enable" .none,
  byteField "tx_fault" .none,
  byteField "tx_enable_polarity" .none,
  byteField "tx_fault_polarity" .none]⟩

def addOltChannel : MessageClass := ⟨"PAS5211MsgAddOltChannel", some 4, []⟩

def getGeneralParam : MessageClass := ⟨"PAS5211MsgGetGeneralParam", some 165, [
  leIntField "parameter" .none,
  leIntField "reserved" (.int 0)]⟩

def setAlarmConfig : MessageClass := ⟨"PAS5211MsgSetAlarmConfig", some 48, [
  leShortField "type" .none,
  leShortField "activate" .none,
  leIntField "parameter1" .none,
  leIntField "parameter2" .none,
  leIntField "parameter3" .none,
  leIntField "parameter4" .none]⟩

def startDbaAlgorithm : MessageClass := ⟨"PAS5211MsgStartDbaAlgorithm", some 55, [
  leShortField "size" (.int 0),
  byteField "initialization_data" (.int 0)]⟩

def setOltChannelActivationPeriod : MessageClass :=
  ⟨"PAS5211MsgSetOltChannelActivationPeriod", some 11, [leIntField "activation_period" .none]⟩

def getDbaMode : MessageClass := ⟨"PAS5211MsgGetDbaMode", some 57, []⟩

def getActivationAuthMode : MessageClass :=
  ⟨"PAS5211MsgGetActivationAuthMode", some 145, [leShortField "nothing" (.int 0)]⟩

def setOnuOmciPortId : MessageClass := ⟨"PAS5211MsgSetOnuOmciPortId", some 41, [
  leShortField "port_id" (.int 0),
  leShortField "activate" (.int 1)]⟩

def sendFrame : MessageClass := ⟨"PAS5211MsgSendFrame", some 42, [
  .fieldLen "length" .none (some "frame"),
  leShortField "port_type" (.int PON_PORT_PON),
  leShortField "port_id" (.int 0),
  leShortField "management_frame" (.int PON_FALSE),
  .frame PON_FALSE,
  .frame PON_TRUE]⟩

/-! ### 届く message -/

def getProtocolVersionResponse : MessageClass := ⟨"PAS5211MsgGetProtocolVersionResponse", none, [
  leShortField "major_hardware_version" (.int 0),
  leShortField "minor_hardware_version" (.int 0),
  leShortField "major_pfi_version" (.int 0),
  leShortField "minor_pfi_version" (.int 0)]⟩

def getOltVersionResponse : MessageClass := ⟨"PAS5211MsgGetOltVersionResponse", none, [
  leShortField "major_firmware_version" (.int 0),
  leShortField "minor_firmware_version" (.int 0),
  leShortField "build_firmware_version" (.int 0),
  leShortField "maintenance_firmware_version" (.int 0),
  leShortField "major_hardware_version" (.int 0),
  leShortField "minor_hardware_version" (.int 0),
  leIntField "system_port_mac_type" (.int 0),
  .fieldLen "channels_supported" (.int 0) none,
  leShortField "onus_supported_per_channel" (.int 0),
  leShortField "ports_supported_per_channel" (.int 0),
  leShortField "alloc_ids_supported_per_channel" (.int 0),
  .intList "critical_events_counter" [0, 0, 0, 0] "channels_supported",
  .intList "non_critical_events_counter" [0, 0, 0, 0] "channels_supported"]⟩

def getGeneralParamResponse : MessageClass := ⟨"PAS5211MsgGetGeneralParamResponse", none, [
  leIntField "parameter" .none,
  leIntField "reserved" (.int 0),
  leIntField "value" .none]⟩

def setAlarmConfigResponse : MessageClass :=
  ⟨"PAS5211MsgSetAlarmConfigResponse", some 10288, []⟩

def getDbaModeResponse : MessageClass :=
  ⟨"PAS5211MsgGetDbaModeResponse", none, [leIntField "dba_mode" .none]⟩

def startDbaAlgorithmResponse : MessageClass :=
  ⟨"PAS5211MsgStartDbaAlgorithmResponse", some 10295, []⟩

def setOltChannelActivationPeriodResponse : MessageClass :=
  ⟨"PAS5211MsgSetOltChannelActivationPeriodResponse", some 10251, []⟩

def getActivationAuthModeResponse : MessageClass :=
  ⟨"PAS5211MsgGetActivationAuthMode", some 10385, [
    leShortField "mode" (.int 0),
    leShortField "reserved" (.int 0)]⟩

def eventOnuActivation : MessageClass := ⟨"PAS5211EventOnuActivation", some 12, [
  .str "serial_number" 8,
  leIntField "equalization_period" .none]⟩

def eventFrameReceived : MessageClass := ⟨"PAS5211EventFrameReceived", some 12, [
  .fieldLen "length" .none (some "frame"),
  leShortField "port_type" (.int PON_PORT_PON),
  leShortField "port_id" (.int 0),
  leShortField "management_frame" (.int PON_FALSE),
  leShortField "classification_entity" .none,
  leShortField "l3_offset" .none,
  leShortField "l4_offset" .none,
  leShortField "ignored" (.int 0),
  .frame PON_FALSE,
  .frame PON_TRUE]⟩

def event : MessageClass := ⟨"PAS5211Event", some 12, []⟩

end MessageClass

open MessageClass in
/-- OLT に送る message。 -/
def requests : List MessageClass := [
  getOltVersion, getProtocolVersion, setOpticsIoControl, addOltChannel, getGeneralParam,
  setAlarmConfig, startDbaAlgorithm, setOltChannelActivationPeriod, getDbaMode,
  getActivationAuthMode, setOnuOmciPortId, sendFrame]

/-- `bind_layers(PAS5211MsgHeader, cls, **fval)`。 -/
structure Binding where
  fval : List (String × Int)
  cls : MessageClass

open MessageClass in
/-- 結び付けた順の class。 -/
def bindings : List Binding := [
  ⟨[("opcode", 0x3803)], getOltVersionResponse⟩,
  ⟨[("opcode", 0x2802)], getProtocolVersionResponse⟩,
  ⟨[("opcode", 0x28a5)], getGeneralParamResponse⟩,
  ⟨[("opcode", 0x2830)], setAlarmConfigResponse⟩,
  ⟨[("opcode", 0x2839)], getDbaModeResponse⟩,
  ⟨[("opcode", 0x2837)], startDbaAlgorithmResponse⟩,
  ⟨[("opcode", 0x280b)], setOltChannelActivationPeriodResponse⟩,
  ⟨[("opcode", 0x2891)], getActivationAuthModeResponse⟩,
  ⟨[("opcode", 0x280c), ("event_type", 1)], eventOnuActivation⟩,
  ⟨[("opcode", 0x280c), ("event_type", 10)], eventFrameReceived⟩,
  ⟨[("opcode", 0x280c)], event⟩]

/-- 全部の field が同じ値である。 -/
def Binding.matches (b : Binding) (header : Fields Value) : Bool :=
  b.fval.all fun p => header p.1 = some (.int p.2)

/-- `guess_payload_class(payload)`。初めに合うものを選ぶ。 -/
def guessPayloadClass (header : Fields Value) : Option MessageClass :=
  (bindings.find? fun b => b.matches header).map Binding.cls

/-- `overload_fields[PAS5211MsgHeader]`。結び付けたときの値。 -/
def overloadFields (cls : MessageClass) : Fields Value := fun name =>
  (bindings.find? fun b => b.cls = cls).bind fun b => (b.fval.lookup name).map .int

/-! ## frame -/

/-- `PAS5211MsgHeader` の後の layer。`rest` は message の後の `Raw` で、空なら無い。 -/
inductive Payload where
  | absent
  | raw (s : Bytes)
  | message (cls : MessageClass) (fields : Fields Value) (rest : Bytes)

/-- `overloaded_fields`。 -/
def Payload.overloadFields : Payload → Fields Value
  | .message cls _ _ => Pas5211.overloadFields cls
  | _ => fun _ => .none

/-- MAC address。 -/
structure Mac where
  bytes : Bytes
  length_eq : bytes.length = 6
deriving DecidableEq, Repr

def Mac.ofBytes (s : Bytes) : Option Mac := if h : s.length = 6 then some ⟨s, h⟩ else none

@[simp] theorem Mac.ofBytes_bytes (m : Mac) : Mac.ofBytes m.bytes = some m := dif_pos m.length_eq

structure Frame where
  dst : Mac
  src : Mac
  header : Fields Value
  msgHeader : Fields Value
  payload : Payload

section Codec

variable (omci : Bytes → Bool)

/-- 与えられていない field は、message の class に結び付けた値になる。 -/
def Frame.headerFields (f : Frame) : Fields Value := fun name =>
  (f.msgHeader name).or (f.payload.overloadFields name)

/-- 並んだ field。 -/
def desc (fs : List FieldDesc) : List (Packet.Field Value CodecError) :=
  fs.map (FieldDesc.toField omci)

/-- `str(payload)`。 -/
def Payload.str : Payload → Except CodecError Bytes
  | .absent => .ok []
  | .raw s => .ok s
  | .message cls fields rest => do return (← Packet.build (desc omci cls.fieldsDesc) fields) ++ rest

/-- `str(inner_msg)`。 -/
def Frame.inner (f : Frame) : Except CodecError Bytes := do
  let msg ← Packet.build (desc omci Pas5211.msgHeader) f.headerFields
  return msg ++ (← f.payload.str omci)

/-- `str(frame)`。`Dot3` の `len` は後の長さで、big endian である。 -/
def Frame.str (f : Frame) : Except CodecError Bytes := do
  let body := (← Packet.build (desc omci frameHeader) f.header) ++ (← f.inner omci)
  let len ← ofOption .structError (Struct.packInt 2 false body.length)
  return f.dst.bytes ++ (f.src.bytes ++ (len.reverse ++ body))

/-- `do_dissect_payload(s)`。例外になれば `Raw` にする。 -/
def dissectPayload (header : Fields Value) (s : Bytes) : Payload :=
  if s = [] then .absent
  else
    match guessPayloadClass header with
    | none => .raw s
    | some cls =>
      match Packet.dissect Packet.put (desc omci cls.fieldsDesc) s with
      | .ok (rest, fields) => .message cls fields rest
      | .error _ => .raw s

/-- 一つの layer を読む。後が無ければ、次の layer も無い。 -/
def dissectLayer (fs : List FieldDesc) (s : Bytes) : Option (Bytes × Fields Value) :=
  if s = [] then none else (Packet.dissect Packet.put (desc omci fs) s).toOption

/-- `Dot3(s)`。`PAS5211MsgHeader` まで読めた frame と、詰め物。 -/
def dissectFrame (s : Bytes) : Option (Frame × Bytes) := do
  let dst ← Mac.ofBytes (s.take 6)
  let src ← Mac.ofBytes ((s.drop 6).take 6)
  let len ← Struct.unpackInt 2 false ((s.drop 12).take 2).reverse
  let payload := (s.drop 14).take len.toNat
  let (inner, header) ← dissectLayer omci frameHeader payload
  let (body, msgHeader) ← dissectLayer omci Pas5211.msgHeader inner
  let payload := dissectPayload omci (getfieldval (desc omci Pas5211.msgHeader) msgHeader) body
  return (⟨dst, src, header, msgHeader, payload⟩, (s.drop 14).drop len.toNat)

/-- 名前に値を与えた packet。 -/
def assign (l : List (String × Value)) : Fields Value := fun name => l.lookup name

/-- `constructPAS5211Frames(msg, seq, src_mac, dst_mac, channel_id, onu_id, onu_session_id)`。 -/
def constructPAS5211Frames (cls : MessageClass) (fields : Fields Value) (seq : Int) (src dst : Mac)
    (channelId onuId onuSessionId : Int) : Except CodecError Frame := do
  let opcode ← ofOption .typeError cls.opcode
  let inner : Frame := {
    dst
    src
    header := assign []
    msgHeader := assign [("sequence_number", .int seq), ("opcode", .int (0x3000 ||| opcode : Nat)),
      ("channel_id", .int channelId), ("onu_id", .int onuId), ("onu_session_id", .int onuSessionId)]
    payload := .message cls fields [] }
  let size := (← inner.inner omci).length
  return { inner with header := assign [("size", .int size)] }

end Codec

end Voltha.Microsemi.Pas5211
