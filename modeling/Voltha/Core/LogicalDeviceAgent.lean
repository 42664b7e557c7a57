import Voltha.Lib.Exec
import Voltha.Core.DeviceGraph

/-!
# LogicalDeviceAgent の経路表

`voltha/core/logical_device_agent.py` の後半。agent は、経路・device ごとの既定の規則・NNI の番号を
計算して覚えておく（`_assure_cached_tables_up_to_date`）。

覚えているかどうかは `_routes` だけで見る。`_routes` は **三つのうち最初に** 書かれるので、
残りの計算が例外で止まっても、次からは計算し直さない。また、覚えたものを捨てるのは logical port の
増減のときだけで、device や device の port が変わっても捨てない。
-/

namespace Voltha.Core

open Voltha.Flow Exec

variable {R : Type}

/-! ## 既定の規則 -/

/-- device ごとの規則。どちらも `OrderedDict`。 -/
structure DeviceRules where
  flows : List (Nat × FlowStats)
  groups : List (UInt32 × GroupEntry)
deriving DecidableEq, Repr

/-- device の id から規則への辞書。 -/
abbrev Rules := List (String × DeviceRules)

section DefaultRules

variable (hash : FlowKey → Nat)

/-- `OrderedDict((f.id, f) for f in flows)` と、空の group。 -/
def rulesOf (flows : List FlowStats) : DeviceRules :=
  ⟨OrderedDict.ofList (flows.map fun f => (f.id, f)), []⟩

/-- その種類の port がちょうど一つあれば、それ。 -/
def onePort (ports : List Port) (type : PortType) : Except FlowError Port :=
  match ports.filter fun p => p.type = type with
  | [p] => .ok p
  | _ => .error .assertionError

/-- `root_device_default_rules(device)`。 -/
def rootDeviceDefaultRules (t : Topology R) (device : Device R) :
    Except FlowError DeviceRules := do
  let ports ← t.ports device.id
  let upstream ← onePort ports .ethernetNni
  let downstream ← onePort ports .ponOlt
  return rulesOf [
    mkFlowStat hash [inPort upstream.portNo, vlanVid (OFPVID_PRESENT ||| 4000), vlanPcp 0]
      [popVlan, output downstream.portNo] 2000 0]

/-- `leaf_device_default_rules(device)`。 -/
def leafDeviceDefaultRules (t : Topology R) (device : Device R) :
    Except FlowError DeviceRules := do
  let ports ← t.ports device.id
  let upstream ← onePort ports .ponOnu
  let downstream ← onePort ports .ethernetUni
  return rulesOf [
    mkFlowStat hash [inPort downstream.portNo, vlanVid (OFPVID_PRESENT ||| 0)]
      [setField (vlanVid (OFPVID_PRESENT ||| device.vlan)), output upstream.portNo] 500 0,
    mkFlowStat hash [inPort downstream.portNo, vlanVid 0]
      [pushVlan 0x8100, setField (vlanVid (OFPVID_PRESENT ||| device.vlan)),
        output upstream.portNo] 500 0,
    mkFlowStat hash [inPort upstream.portNo, vlanVid (OFPVID_PRESENT ||| device.vlan)]
      [setField (vlanVid (OFPVID_PRESENT ||| 0)), output downstream.portNo] 500 0]

/-- graph の device ごとの規則。 -/
def deviceDefaultRules (t : Topology R) (device : Device R) : Except FlowError DeviceRules :=
  if device.id = t.rootDeviceId then rootDeviceDefaultRules hash t device
  else leafDeviceDefaultRules hash t device

/-- `_generate_default_rules(graph)`。 -/
def generateDefaultRules (t : Topology R) (g : Graph R) : Except FlowError Rules :=
  g.nodes.foldlM (fun rules node =>
    match node.2.device with
    | none => .ok rules
    | some device => do
      return OrderedDict.set rules device.id (← deviceDefaultRules hash t device)) []

end DefaultRules

/-! ## 覚えている表 -/

/-- object の属性。まだ無い、`None`、値の三通りがある。 -/
inductive Attr (α : Type) where
  | missing
  | null
  | value (a : α)
deriving DecidableEq, Repr

/-- agent が覚えている表と、その元になる木。 -/
structure AgentState (R : Type) where
  tree : Topology R
  routes : Option (Routes R)
  defaultRules : Attr Rules
  nniLogicalPortNo : Attr UInt32
deriving DecidableEq, Repr

abbrev AgentOp (R : Type) := Exec (AgentState R) FlowError

/-- 作られたばかりの agent。`_routes` だけが `None` になる。 -/
def AgentState.initial (t : Topology R) : AgentState R := ⟨t, none, .missing, .missing⟩

/-- 純粋な計算の結果を返すか、その例外を投げる。 -/
def liftExcept {σ ε α : Type} : Except ε α → Exec σ ε α
  | .ok a => pure a
  | .error e => raise e

section Cache

variable (hash : FlowKey → Nat)
  (shortestPath : Graph R → NodeKey → NodeKey → Except FlowError (List NodeKey))

/-- ただ一つの root port の番号。 -/
def rootPortNo (t : Topology R) : Except FlowError UInt32 :=
  match t.logicalPorts.filter LogicalPort.rootPort with
  | [rootPort] => .ok rootPort.ofpPortNo
  | _ => .error .assertionError

/-- `_assure_cached_tables_up_to_date()`。三つを順に計算して書く。 -/
def assureCachedTablesUpToDate : AgentOp R Unit := do
  let s ← read
  if s.routes.isSome then pure ()
  else
    let (graph, routes) ← liftExcept (computeRoutes shortestPath s.tree)
    modify fun s => { s with routes := some routes }
    let rules ← liftExcept (generateDefaultRules hash s.tree graph)
    modify fun s => { s with defaultRules := .value rules }
    let nni ← liftExcept (rootPortNo s.tree)
    modify fun s => { s with nniLogicalPortNo := .value nni }

/-- `_invalidate_cached_tables()`。 -/
def AgentState.invalidateCachedTables (s : AgentState R) : AgentState R :=
  { s with routes := none, defaultRules := .null, nniLogicalPortNo := .null }

/-- `self._nni_logical_port_no` の値。 -/
def AgentState.nni (s : AgentState R) : Except FlowError (Option UInt32) :=
  match s.nniLogicalPortNo with
  | .missing => .error .attributeError
  | .null => .ok none
  | .value n => .ok (some n)

/-- 経路。片方の hop だけのこともある。 -/
abbrev Route (R : Type) := Option (RouteHop R) × Option (RouteHop R)

/-- 覚えている表から経路を引く。 -/
def AgentState.routeFor (s : AgentState R) (ingress egress : Option UInt32) :
    Except FlowError (Route R) := do
  let routes := s.routes.getD []
  -- controller 行きは、OLT の NNI から出るものとして扱う
  let egress ← if egress.any isController then s.nni else pure egress
  -- NNI の番号は、入口の指定が無いときだけ読まれる
  let upstream ← if ingress.isNone then s.nni.map fun n => decide (egress = n) else pure false
  if upstream then
    match routes.find? fun r => some r.1.2 = egress with
    | some r => return (none, some r.2.2)
    | none => .error (.exception "not a single upstream route")
  else
    match egress with
    | none =>
      match routes.find? fun r => some r.1.1 = ingress with
      | some r => return (some r.2.1, none)
      | none => .error (.exception "not a single downstream route")
    | some e =>
      match ingress.bind fun i => routes.lookup (i, e) with
      | some r => return (some r.1, some r.2)
      | none => .error .keyError

/-- `get_route(ingress_port_no, egress_port_no)`。 -/
def getRoute (ingress egress : Option UInt32) : AgentOp R (Route R) := do
  assureCachedTablesUpToDate hash shortestPath
  liftExcept ((← read).routeFor ingress egress)

/-- `get_all_default_rules()`。 -/
def getAllDefaultRules : AgentOp R (Option Rules) := do
  assureCachedTablesUpToDate hash shortestPath
  match (← read).defaultRules with
  | .missing => raise .attributeError
  | .null => pure none
  | .value rules => pure (some rules)

end Cache

end Voltha.Core
