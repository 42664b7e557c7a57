import Voltha.Flow.Table
import Voltha.Core.LogicalDeviceAgent

/-!
# flow の分解

`voltha/core/flow_decomposer.py` の後半。logical device の flow を、経路に沿って device ごとの
flow に分ける。経路と既定の規則は、agent が用意する（`get_route`・`get_all_default_rules`）。

device ごとの flow は **id で** まとめ、同じ id のものは初めの一つだけを残す。
id は table・priority・flags・cookie・match から決まり、action は見ない。
-/

namespace Voltha.Core

open Voltha.Flow

variable {R : Type}

/-- `hop.device` などを読む。`None` からは読めない。 -/
def hop : Option (RouteHop R) → Except FlowError (RouteHop R)
  | some h => .ok h
  | none => .error .attributeError

/-- `assert c`。 -/
def assert (c : Prop) [Decidable c] : Except FlowError Unit :=
  if c then .ok () else .error .assertionError

/-- `device_rules.setdefault(device_id, ([], []))` の flow の列に足す。group は足されない。 -/
def appendRule (rules : List (String × List FlowStats)) (deviceId : String) (f : FlowStats) :
    List (String × List FlowStats) :=
  OrderedDict.set rules deviceId ((rules.lookup deviceId).getD [] ++ [f])

section Decompose

variable (hash : FlowKey → Nat)

/-- device の flow。`IN_PORT` を付け替え、`drop` の match field を落とす。 -/
def deviceFlow (flow : FlowStats) (fields : List OfbField) (portNo : UInt32)
    (drop : List OfbFieldType) (actions : List Action) : FlowStats :=
  mkFlowStat hash (inPort portNo :: fields.filter fun f => f.type ∉ drop) actions flow.priority
    flow.cookie

/-- goto 文を持つ flow は、入口の device に置く。 -/
def gotoFlow (flow : FlowStats) (fields : List OfbField) (actions : List Action)
    (ingress : RouteHop R) : FlowStats :=
  deviceFlow hash flow fields ingress.ingressPort.portNo [.inPort]
    (actions ++ [output ingress.egressPort.portNo])

/-- 出口の決まった flow は、出口の device に置く。 -/
def egressFlow (flow : FlowStats) (fields : List OfbField) (actions : List Action)
    (egress : RouteHop R) : FlowStats :=
  deviceFlow hash flow fields egress.ingressPort.portNo [.inPort]
    (actions.filter (fun a => a.type ≠ .output) ++ [output egress.egressPort.portNo])

variable [DecidableEq R]
  (route : Option UInt32 → Option UInt32 → Except FlowError (Route R))

/-- bucket の `OUTPUT` のうち最後のもの。無ければ前の bucket のものが残る。 -/
def bucketOutPort (bucket : Bucket) (outPortNo : Option UInt32) : Option UInt32 :=
  bucket.actions.foldl (fun o a => if a.type = .output then some a.outputPort else o) outPortNo

/-- multicast の bucket 一つ。出口の device を求め直して、その flow を足す。 -/
def decomposeBucket (flow : FlowStats) (fields : List OfbField) (inPortNo : Option UInt32)
    (ingress : RouteHop R) (acc : Option UInt32 × List (String × List FlowStats))
    (bucket : Bucket) : Except FlowError (Option UInt32 × List (String × List FlowStats)) := do
  let others := bucket.actions.filter fun a => a.type ≠ .popVlan ∧ a.type ≠ .output
  let outPortNo := bucketOutPort bucket acc.1
  let route2 ← route inPortNo outPortNo
  assert (ingress = (← hop route2.1))
  let egress ← hop route2.2
  return (outPortNo, appendRule acc.2 egress.device.id
    (deviceFlow hash flow fields egress.ingressPort.portNo [.inPort, .vlanVid, .vlanPcp]
      (others ++ [output egress.egressPort.portNo])))

/-- 下りで、出口の決まっていない flow。group の bucket ごとに分ける。 -/
def decomposeMulticast (groupMap : List (UInt32 × GroupEntry)) (flow : FlowStats)
    (fields : List OfbField) (actions : List Action) (inPortNo : Option UInt32)
    (ingress : RouteHop R) : Except FlowError (List (String × List FlowStats)) := do
  match ← getGroup flow with
  | none => .error .assertionError
  | some groupId =>
    let first := deviceFlow hash flow fields ingress.ingressPort.portNo
      [.inPort, .ethType, .ipv4Dst]
      (actions.filter (fun a => a.type ≠ .group) ++ [popVlan, output ingress.egressPort.portNo])
    -- group がまだ無ければ、bucket の無い group と同じ
    let buckets := ((groupMap.lookup groupId).map fun g => g.desc.buckets).getD []
    let acc ← buckets.foldlM (decomposeBucket hash route flow fields inPortNo ingress)
      (none, appendRule [] ingress.device.id first)
    return acc.2

/-- controller 行きの flow。OLT で tag 4000 を付けて NNI へ送る。 -/
def controllerFlow (flow : FlowStats) (fields : List OfbField) (egress : RouteHop R) : FlowStats :=
  deviceFlow hash flow fields egress.ingressPort.portNo [.inPort, .vlanVid]
    [pushVlan 0x8100, setField (vlanVid (OFPVID_PRESENT ||| 4000)),
      output egress.egressPort.portNo]

/-- `decompose_flow(flow, group_map)`。 -/
def decomposeFlow (groupMap : List (UInt32 × GroupEntry)) (flow : FlowStats) :
    Except FlowError (List (String × List FlowStats)) := do
  let fields ← getOfbFields flow
  let inPortNo ← getInPort flow
  let actions ← eachAction flow
  let outPortNo ← getOutPort flow
  let (ingress, egress) ← route inPortNo outPortNo
  if outPortNo.any isController then
    let egress ← hop egress
    return appendRule [] egress.device.id (controllerFlow hash flow fields egress)
  else
    let ingress ← hop ingress
    -- goto 文を持つ flow の扱いは、上りも下りも同じ
    if hasNextTable flow then
      assert (outPortNo = none)
      return appendRule [] ingress.device.id (gotoFlow hash flow fields actions ingress)
    else if ingress.device.root = false then
      assert (outPortNo ≠ none)
      let egress ← hop egress
      return appendRule [] egress.device.id (egressFlow hash flow fields actions egress)
    else if outPortNo ≠ none then
      let egress ← hop egress
      return appendRule [] egress.device.id (egressFlow hash flow fields actions egress)
    else decomposeMulticast hash route groupMap flow fields actions inPortNo ingress

/-- `if _flow.id not in fl_lst: fl_lst[_flow.id] = _flow`。 -/
def keepFirst (rules : DeviceRules) (f : FlowStats) : DeviceRules :=
  if f.id ∈ rules.flows.map Prod.fst then rules
  else { rules with flows := OrderedDict.set rules.flows f.id f }

/-- 一つの device の flow を、その規則に足す。 -/
def mergeRules (rules : Rules) (generated : String × List FlowStats) : Rules :=
  OrderedDict.set rules generated.1
    (generated.2.foldl keepFirst ((rules.lookup generated.1).getD ⟨[], []⟩))

/-- `decompose_rules(flows, groups)`。`defaults` は `get_all_default_rules()` の写し。 -/
def decomposeRules (defaults : Rules) (flows : List FlowStats) (groups : List GroupEntry) :
    Except FlowError Rules :=
  flows.foldlM (fun rules flow => do
    return (← decomposeFlow hash route (groupDict groups) flow).foldl mergeRules rules) defaults

end Decompose

end Voltha.Core
