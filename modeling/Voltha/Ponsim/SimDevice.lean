import Voltha.Flow.Build
import Voltha.Lib.Precedence

/-!
# 模擬 device

`ponsim/ponsim.py` の `SimDevice`。flow を優先順に並べておき、届いた frame に最初に合う
flow の action を行う。

frame は scapy の object なので、`SET_FIELD` は受け取った frame の中の `Dot1Q` に直に書き、
`POP_VLAN` と `PUSH_VLAN` は写しを作る。`Frames` はこの違いを持つ。
-/

namespace Voltha.Ponsim

open Voltha.Flow

/-! ## frame -/

/-- `Dot1Q`。 -/
structure Dot1Q where
  prio : Nat
  id : Nat
  vlan : Nat
  type : Nat
deriving DecidableEq, Repr

/-- `Ether` の上に載る層。`others` は読まれない field と中身。 -/
inductive Layer where
  | dot1Q (shim : Dot1Q)
  | ip (proto : Nat) (dst : String) (others : List UInt8)
  | udp (dport : Nat) (others : List UInt8)
  | raw (bytes : List UInt8)
deriving DecidableEq, Repr

/-- frame。802.3 の frame には `type` が無い。 -/
structure Frame where
  src : List UInt8
  dst : List UInt8
  type : Option Nat
  payload : List Layer
deriving DecidableEq, Repr

/-- 最初の `Dot1Q`。 -/
def firstShim : List Layer → Option Dot1Q
  | [] => none
  | .dot1Q shim :: _ => some shim
  | _ :: rest => firstShim rest

/-- 最初の `Dot1Q` より後の層。 -/
def afterShim : List Layer → List Layer
  | [] => []
  | .dot1Q _ :: rest => rest
  | _ :: rest => afterShim rest

/-- 最初の `Dot1Q` だけを変える。 -/
def mapShim (f : Dot1Q → Dot1Q) : List Layer → List Layer
  | [] => []
  | .dot1Q shim :: rest => .dot1Q (f shim) :: rest
  | layer :: rest => layer :: mapShim f rest

namespace Frame

/-- `frame.getlayer(Dot1Q)`。 -/
def shim (frame : Frame) : Option Dot1Q := firstShim frame.payload

/-- `frame.getlayer(Dot1Q)` の field に書く。 -/
def writeShim (f : Dot1Q → Dot1Q) (frame : Frame) : Frame :=
  { frame with payload := mapShim f frame.payload }

/-- `get_vlan_pcp(f)`。 -/
def vlanPcp (frame : Frame) : Option Nat := frame.shim.map Dot1Q.prio

/-- `get_ip_proto(f)`。 -/
def ipProto (frame : Frame) : Option Nat :=
  frame.payload.findSome? fun
    | .ip proto _ _ => some proto
    | _ => none

/-- `get_ipv4_dst(f)`。 -/
def ipv4Dst (frame : Frame) : Option String :=
  frame.payload.findSome? fun
    | .ip _ dst _ => some dst
    | _ => none

/-- `get_udp_dst(f)`。 -/
def udpDst (frame : Frame) : Option Nat :=
  frame.payload.findSome? fun
    | .udp dport _ => some dport
    | _ => none

/-- `get_non_shim_ether_type(f)` の読む値。どこにも `type` が無ければ `none`。 -/
def nonShimEtherType (frame : Frame) : Option Nat :=
  match frame.shim with
  | some shim => some shim.type
  | none => frame.type

end Frame

theorem firstShim_mapShim (f : Dot1Q → Dot1Q) :
    ∀ (layers : List Layer), firstShim (mapShim f layers) = (firstShim layers).map f
  | [] => rfl
  | .dot1Q _ :: _ => rfl
  | .ip _ _ _ :: rest => firstShim_mapShim f rest
  | .udp _ _ :: rest => firstShim_mapShim f rest
  | .raw _ :: rest => firstShim_mapShim f rest

theorem mapShim_mapShim (f g : Dot1Q → Dot1Q) : ∀ (layers : List Layer),
    mapShim g (mapShim f layers) = mapShim (fun shim => g (f shim)) layers
  | [] => rfl
  | .dot1Q _ :: _ => rfl
  | .ip _ _ _ :: rest => congrArg _ (mapShim_mapShim f g rest)
  | .udp _ _ :: rest => congrArg _ (mapShim_mapShim f g rest)
  | .raw _ :: rest => congrArg _ (mapShim_mapShim f g rest)

/-- 元のままなのは、最初の `Dot1Q` が変わらないときに限る。 -/
theorem mapShim_eq_self_iff {f : Dot1Q → Dot1Q} : ∀ (layers : List Layer),
    mapShim f layers = layers ↔ ∀ shim, firstShim layers = some shim → f shim = shim
  | [] => by simp [mapShim, firstShim]
  | .dot1Q shim :: rest => by simp [mapShim, firstShim]
  | .ip _ _ _ :: rest => by simpa [mapShim, firstShim] using mapShim_eq_self_iff rest
  | .udp _ _ :: rest => by simpa [mapShim, firstShim] using mapShim_eq_self_iff rest
  | .raw _ :: rest => by simpa [mapShim, firstShim] using mapShim_eq_self_iff rest

@[simp] theorem Frame.shim_writeShim (f : Dot1Q → Dot1Q) (frame : Frame) :
    (frame.writeShim f).shim = frame.shim.map f := firstShim_mapShim f frame.payload

theorem Frame.writeShim_writeShim (f g : Dot1Q → Dot1Q) (frame : Frame) :
    (frame.writeShim f).writeShim g = frame.writeShim fun shim => g (f shim) := by
  simp [Frame.writeShim, mapShim_mapShim]

theorem Frame.writeShim_eq_self_iff {f : Dot1Q → Dot1Q} {frame : Frame} :
    frame.writeShim f = frame ↔ ∀ shim, frame.shim = some shim → f shim = shim := by
  obtain ⟨src, dst, type, payload⟩ := frame
  simp [Frame.writeShim, Frame.shim, mapShim_eq_self_iff]

/-! ## 例外 -/

/-- 例外。`notImplemented…` は番号を添えた `NotImplementedError`。 -/
inductive SimError where
  | flow (error : FlowError)
  | attributeError (name : String)
  | notImplementedField (type : OfbFieldType)
  | notImplementedSetField (type : OfbFieldType)
  | notImplementedAction (type : ActionType)
  | recursionError
deriving DecidableEq, Repr

/-- `flow_decomposer` の関数を呼ぶ。 -/
def lift {α : Type} : Except FlowError α → Except SimError α := Except.mapError SimError.flow

@[simp] theorem lift_ok {α : Type} (a : α) : lift (.ok a) = .ok a := rfl

@[simp] theorem lift_error {α : Type} (e : FlowError) :
    lift (.error e : Except FlowError α) = .error (.flow e) := rfl

/-! ## `is_match` -/

/-- `ipv4int2str(ipv4int)`。 -/
def ipv4int2str (ipv4int : Nat) : String :=
  String.intercalate "." [toString ((ipv4int >>> 24) &&& 0xff),
    toString ((ipv4int >>> 16) &&& 0xff), toString ((ipv4int >>> 8) &&& 0xff),
    toString (ipv4int &&& 0xff)]

/-- `oneof value` の `type` の値。他の値なら既定値の 0。 -/
def intValue (type : OfbFieldType) (field : OfbField) : Nat :=
  match field.value with
  | some (.int t value) => if t = type then value.toNat else 0
  | _ => 0

/-- `VLAN_VID` の比較。4096 の bit は tag の有無を表す。 -/
def vlanVidMatches (expected : Nat) : Option Dot1Q → Bool
  | none => decide (expected &&& 4096 = 0)
  | some shim => decide (expected &&& 4096 ≠ 0 ∧ shim.vlan = expected &&& 4095)

/-- 一つの field の比較。`UDP_DST` は `field.udsp_dst` を読む。 -/
def fieldMatches (port : UInt32) (frame : Frame) (field : OfbField) : Except SimError Bool :=
  match field.type with
  | .inPort => .ok (decide (field.port = port))
  | .ethType =>
    match frame.nonShimEtherType with
    | some type => .ok (decide (intValue .ethType field = type))
    | none => .error (.attributeError "type")
  | .ipProto => .ok (decide (some (intValue .ipProto field) = frame.ipProto))
  | .vlanVid => .ok (vlanVidMatches (intValue .vlanVid field) frame.shim)
  | .vlanPcp => .ok (decide (some (intValue .vlanPcp field) = frame.vlanPcp))
  | .ipv4Dst => .ok (decide (some (ipv4int2str (intValue .ipv4Dst field)) = frame.ipv4Dst))
  | .udpDst => .error (.attributeError "udsp_dst")
  | type => .error (.notImplementedField type)

/-- field を順に比べる loop。 -/
def matchFields (port : UInt32) (frame : Frame) : List OfbField → Except SimError Bool
  | [] => .ok true
  | field :: rest => do
    if ← fieldMatches port frame field then matchFields port frame rest else return false

/-- `is_match(flow, ingress_port, frame)`。 -/
def isMatch (flow : FlowStats) (port : UInt32) (frame : Frame) : Except SimError Bool := do
  matchFields port frame (← lift (getOfbFields flow))

/-! ## `process_actions` -/

/-- 受け取った frame と、その後に作った写し。写しが無い間は、受け取った frame に直に書く。 -/
structure Frames where
  received : Frame
  rebuilt : Option Frame := none
deriving DecidableEq, Repr

namespace Frames

/-- 今の `frame`。 -/
def current (frames : Frames) : Frame := frames.rebuilt.getD frames.received

/-- 写しを作る。 -/
def rebuild (frames : Frames) (frame : Frame) : Frames := { frames with rebuilt := some frame }

/-- 今の `frame` の `Dot1Q` に書く。 -/
def write (frames : Frames) (f : Dot1Q → Dot1Q) : Frames :=
  match frames.rebuilt with
  | none => { frames with received := frames.received.writeShim f }
  | some copy => { frames with rebuilt := some (copy.writeShim f) }

end Frames

/-- `action.push.ethertype`。 -/
def pushEthertype (action : Action) : Nat :=
  match action.body with
  | .push ethertype => ethertype.toNat
  | _ => 0

/-- `action.set_field.field`。 -/
def setFieldOf (action : Action) : OxmField :=
  match action.body with
  | .setField field => field
  | _ => ⟨.nxm0, .unset⟩

/-- `shim.vlan` か `shim.prio` への書き込み。 -/
def shimWrite (field : OfbField) : Except SimError (String × (Dot1Q → Dot1Q)) :=
  match field.type with
  | .vlanVid => .ok ("vlan", fun shim => { shim with vlan := intValue .vlanVid field &&& 4095 })
  | .vlanPcp => .ok ("prio", fun shim => { shim with prio := intValue .vlanPcp field })
  | type => .error (.notImplementedSetField type)

/-- `SET_FIELD`。tag の無い frame では `shim` が `None` になる。 -/
def applySetField (action : Action) (frames : Frames) : Except SimError Frames := do
  if (setFieldOf action).oxmClass ≠ .openflowBasic then throw (.flow .assertionError)
  let (name, write) ← shimWrite (setFieldOf action).ofbField
  if frames.current.shim = none then throw (.attributeError name)
  return frames.write write

/-- `POP_VLAN`。 -/
def applyPopVlan (frames : Frames) : Frames :=
  match frames.current.shim with
  | none => frames
  | some shim => frames.rebuild
    { frames.current with type := some shim.type, payload := afterShim frames.current.payload }

/-- `PUSH_VLAN`。新しい `Dot1Q` の `type` の他は既定値。 -/
def applyPushVlan (action : Action) (frames : Frames) : Except SimError Frames :=
  match frames.current.type with
  | none => .error (.attributeError "type")
  | some type => .ok <| frames.rebuild
    { frames.current with
      type := some (pushEthertype action)
      payload := .dot1Q ⟨0, 0, 1, type⟩ :: frames.current.payload }

/-- 一つの action。state は `egress_port` と `frame` である。 -/
def applyAction (state : Option UInt32 × Frames) (action : Action) :
    Except SimError (Option UInt32 × Frames) :=
  match action.type with
  | .output => .ok (some action.outputPort, state.2)
  | .popVlan => .ok (state.1, applyPopVlan state.2)
  | .pushVlan => do return (state.1, ← applyPushVlan action state.2)
  | .setField => do return (state.1, ← applySetField action state.2)
  | type => .error (.notImplementedAction type)

/-- `process_actions(flow, frame)`。 -/
def processActions (flow : FlowStats) (frame : Frame) :
    Except SimError (Option UInt32 × Frames) := do
  (← lift (eachAction flow)).foldlM applyAction (none, ⟨frame, none⟩)

/-! ## `process_frame` -/

/-- `fm.priority`。 -/
def priorityOf (flow : FlowStats) : Nat := flow.priority.toNat

/-- `install_flows(flows)`。 -/
def installFlows (flows : List FlowStats) : List FlowStats :=
  Precedence.byPriority priorityOf flows

@[simp] theorem installFlows_singleton (flow : FlowStats) : installFlows [flow] = [flow] :=
  Precedence.byPriority_singleton

@[simp] theorem mem_installFlows {flow : FlowStats} {flows : List FlowStats} :
    flow ∈ installFlows flows ↔ flow ∈ flows := Precedence.mem_byPriority

/-- `for flow in self.flows: if self.is_match(…)`。 -/
def findMatch (port : UInt32) (frame : Frame) :
    List FlowStats → Except SimError (Option FlowStats)
  | [] => .ok none
  | flow :: rest => do
    if ← isMatch flow port frame then return some flow else findMatch port frame rest

/-- `process_frame(ingress_port, ingress_frame)`。 -/
def processFrame (flows : List FlowStats) (port : UInt32) (frame : Frame) :
    Except SimError (Option (Option UInt32 × Frames)) := do
  match ← findMatch port frame flows with
  | none => return none
  | some flow => return some (← processActions flow frame)

end Voltha.Ponsim
