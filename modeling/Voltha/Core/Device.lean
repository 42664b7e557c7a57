import Mathlib.Tactic.TypeStar

/-!
# device と port

`voltha/protos/device.proto` と `voltha/protos/common.proto` のうち、core が読み書きする message。
-/

namespace Voltha.Core

/-- `AdminState`。 -/
inductive AdminState where
  | unknown | preprovisioned | disabled | enabled
deriving DecidableEq, Repr

/-- enum の番号。名前の無い番号もありうる。 -/
def AdminState.ofNumber : Int → Option AdminState
  | 0 => some .unknown
  | 1 => some .preprovisioned
  | 2 => some .disabled
  | 3 => some .enabled
  | _ => none

def AdminState.number : AdminState → Int
  | .unknown => 0
  | .preprovisioned => 1
  | .disabled => 2
  | .enabled => 3

/-- `OperStatus`。 -/
inductive OperStatus where
  | unknown | discovered | activating | testing | active | failed
deriving DecidableEq, Repr

/-- `Port.PortType`。 -/
inductive PortType where
  | unknown | ethernetNni | ethernetUni | ponOlt | ponOnu
deriving DecidableEq, Repr

/-- `Port.PeerPort`。port を名指す。 -/
structure PeerPort where
  deviceId : String
  portNo : UInt32
deriving DecidableEq, Repr

/-- `Port`。 -/
structure Port where
  portNo : UInt32
  label : String
  type : PortType
  adminState : AdminState
  operStatus : OperStatus
  deviceId : String
  peers : List PeerPort
deriving DecidableEq, Repr

end Voltha.Core
