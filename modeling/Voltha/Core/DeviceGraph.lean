import Voltha.Lib.OrderedDict
import Voltha.Flow.Build
import Voltha.Core.Device

/-!
# device graph と経路

`voltha/core/device_graph.py`。logical device の port から、device と port のつながりをたどって
graph を作り、端の port の組ごとに経路を求める。最短経路は networkx の `shortest_path` に任せるので、
変数 `shortestPath` のままにする。

辞書と集合の順は、入れた順とする。
-/

namespace Voltha.Core

open Voltha.Flow

/-- `Device`。`rest` は残りの field で、経路の hop にそのまま入る。 -/
structure Device (R : Type) where
  id : String
  root : Bool
  vlan : UInt32
  rest : R
deriving DecidableEq, Repr

/-- `LogicalPort`。 -/
structure LogicalPort where
  id : String
  ofpPortNo : UInt32
  deviceId : String
  devicePortNo : UInt32
  rootPort : Bool
deriving DecidableEq, Repr

/-- 経路の計算が読む config の木。 -/
structure Topology (R : Type) where
  rootDeviceId : String
  logicalPorts : List LogicalPort
  devices : List (Device R × List Port)
deriving DecidableEq, Repr

variable {R : Type}

namespace Topology

/-- `root_proxy.get('/devices/{}')`。 -/
def device (t : Topology R) (id : String) : Except FlowError (Device R) :=
  match t.devices.find? fun e => e.1.id = id with
  | some e => .ok e.1
  | none => .error .keyError

/-- `root_proxy.get('/devices/{}/ports')`。 -/
def ports (t : Topology R) (id : String) : Except FlowError (List Port) :=
  match t.devices.find? fun e => e.1.id = id with
  | some e => .ok e.2
  | none => .error .keyError

end Topology

/-! ## graph -/

/-- graph の node。device か、device の port。 -/
inductive NodeKey where
  | device (id : String)
  | port (deviceId : String) (portNo : UInt32)
deriving DecidableEq, Repr

/-- node の属性。 -/
structure NodeAttrs (R : Type) where
  device : Option (Device R)
  port : Option Port
  boundary : Option Bool
deriving DecidableEq, Repr

/-- `nx.Graph`。辺に向きは無い。 -/
structure Graph (R : Type) where
  nodes : List (NodeKey × NodeAttrs R)
  edges : List (NodeKey × NodeKey)
deriving DecidableEq, Repr

namespace Graph

def empty : Graph R := ⟨[], []⟩

/-- node の属性。無ければ空。 -/
def attrs (g : Graph R) (k : NodeKey) : NodeAttrs R := (g.nodes.lookup k).getD ⟨none, none, none⟩

/-- `graph.add_node(k, device=device)`。 -/
def addDeviceNode (g : Graph R) (d : Device R) : Graph R :=
  let new := { g.attrs (.device d.id) with device := some d }
  { g with nodes := OrderedDict.set g.nodes (.device d.id) new }

/-- `graph.add_node(k, port=port, boundary=boundary)`。 -/
def addPortNode (g : Graph R) (k : NodeKey) (port : Port) (boundary : Bool) : Graph R :=
  let new := { g.attrs k with port := some port, boundary := some boundary }
  { g with nodes := OrderedDict.set g.nodes k new }

/-- `graph.add_edge(u, v)`。無い node は属性の無いまま足される。同じ辺を足しても変わらない。 -/
def addEdge (g : Graph R) (u v : NodeKey) : Graph R where
  nodes := OrderedDict.set (OrderedDict.set g.nodes u (g.attrs u)) v (g.attrs v)
  edges := if (u, v) ∈ g.edges ∨ (v, u) ∈ g.edges then g.edges else g.edges ++ [(u, v)]

/-- `graph.node[k]['device']`。 -/
def deviceAt (g : Graph R) (k : NodeKey) : Except FlowError (Device R) :=
  match (g.attrs k).device with
  | some d => .ok d
  | none => .error .keyError

/-- `graph.node[k]['port']`。 -/
def portAt (g : Graph R) (k : NodeKey) : Except FlowError Port :=
  match (g.attrs k).port with
  | some p => .ok p
  | none => .error .keyError

end Graph

/-- `dict(((lp.device_id, lp.device_port_no), lp.ofp_port.port_no) for lp in logical_ports)`。 -/
def boundaryPorts (logicalPorts : List LogicalPort) : List (NodeKey × UInt32) :=
  OrderedDict.ofList (logicalPorts.map fun lp => (.port lp.deviceId lp.devicePortNo, lp.ofpPortNo))

/-- graph を作る途中。`devices_added` は、もう足した device の id。 -/
structure Walk (R : Type) where
  graph : Graph R
  devicesAdded : List String

section Build

variable (t : Topology R)

/-- port の node と、device への辺を足す。`ports_added` は書かれないので、いつも足す。 -/
def Walk.addPort (w : Walk R) (deviceId : String) (port : Port) : Walk R :=
  let key := NodeKey.port deviceId port.portNo
  let boundary : Bool := key ∈ (boundaryPorts t.logicalPorts).map Prod.fst
  { w with graph := (w.graph.addPortNode key port boundary).addEdge (.device deviceId) key }

/-- port の相手を順にたどる。まだの device は `visit` で足し、足した device なら辺でつなぐ。 -/
def followPeers (visit : Device R → Walk R → Except FlowError (Walk R)) (key : NodeKey)
    (w : Walk R) (peer : PeerPort) : Except FlowError (Walk R) :=
  if peer.deviceId ∉ w.devicesAdded then do
    let device ← t.device peer.deviceId
    visit device w
  else
    return { w with graph := w.graph.addEdge key (.port peer.deviceId peer.portNo) }

/-- device の port を順にたどる。 -/
def followPorts (visit : Device R → Walk R → Except FlowError (Walk R)) (deviceId : String)
    (w : Walk R) (port : Port) : Except FlowError (Walk R) :=
  port.peers.foldlM (followPeers t visit (.port deviceId port.portNo)) (w.addPort t deviceId port)

/-- `add_device(device)`。`fuel` は再帰の深さの上限。 -/
def addDevice : Nat → Device R → Walk R → Except FlowError (Walk R)
  | 0, _, _ => .error .recursionError
  | fuel + 1, device, w =>
    if device.id ∈ w.devicesAdded then .ok w
    else do
      let w : Walk R := ⟨w.graph.addDeviceNode device, w.devicesAdded ++ [device.id]⟩
      let ports ← t.ports device.id
      ports.foldlM (followPorts t (addDevice fuel) device.id) w

/-- `_build_graph(root_proxy, logical_ports)`。 -/
def buildGraph : Except FlowError (Graph R) := do
  let w ← t.logicalPorts.foldlM
    (fun w lp => do addDevice t (t.devices.length + 1) (← t.device lp.deviceId) w) ⟨.empty, []⟩
  return w.graph

end Build

/-! ### 再帰の深さ

たどる度に `devices_added` が増えるので、深さは device の数を超えない。
-/

section Depth

variable {t : Topology R}

/-- まだ足していない device の数。 -/
def Topology.unseen (t : Topology R) (added : List String) : Nat :=
  (t.devices.filter fun e => e.1.id ∉ added).length

theorem Topology.unseen_mono {added added' : List String} (h : added ⊆ added') :
    t.unseen added' ≤ t.unseen added := by
  refine List.Sublist.length_le (List.monotone_filter_right _ fun e he => ?_)
  exact decide_eq_true fun hin => of_decide_eq_true he (h hin)

theorem Topology.unseen_lt {added : List String} {id : String} (hnew : id ∉ added)
    (hex : ∃ e ∈ t.devices, e.1.id = id) : t.unseen (added ++ [id]) < t.unseen added := by
  obtain ⟨e, he, rfl⟩ := hex
  have hsub : (t.devices.filter fun x => x.1.id ∉ added ++ [e.1.id])
      = (t.devices.filter fun x => x.1.id ∉ added).filter fun x => x.1.id ≠ e.1.id := by
    rw [List.filter_filter]
    refine List.filter_congr fun x _ => ?_
    simp [not_or, and_comm]
  unfold Topology.unseen
  rw [hsub]
  refine List.length_filter_lt_length_iff_exists.mpr ⟨e, ?_, by simp⟩
  exact List.mem_filter.mpr ⟨he, decide_eq_true hnew⟩

/-- 深さの上限に当たらず、足した device は減らない。 -/
def Grows (w : Walk R) (r : Except FlowError (Walk R)) : Prop :=
  r ≠ .error .recursionError ∧ ∀ w', r = .ok w' → w.devicesAdded ⊆ w'.devicesAdded

theorem Grows.ok {w w' : Walk R} (h : w.devicesAdded ⊆ w'.devicesAdded) : Grows w (.ok w') :=
  ⟨nofun, fun _ he => by cases he; exact h⟩

/-- `B` を含むどの途中からも広がるなら、loop の全体も広がる。 -/
theorem Grows.foldlM {α : Type} {B : List String}
    {f : Walk R → α → Except FlowError (Walk R)}
    (hf : ∀ w a, B ⊆ w.devicesAdded → Grows w (f w a)) (l : List α) (w : Walk R)
    (hw : B ⊆ w.devicesAdded) : Grows w (l.foldlM f w) := by
  induction l generalizing w with
  | nil => exact Grows.ok (List.Subset.refl _)
  | cons a l ih =>
    obtain ⟨hne, hgrow⟩ := hf w a hw
    rw [List.foldlM_cons]
    cases hfa : f w a with
    | error e =>
      rw [hfa] at hne
      exact ⟨hne, nofun⟩
    | ok w₁ =>
      have hsub := hgrow w₁ hfa
      obtain ⟨hne', hgrow'⟩ := ih w₁ (List.Subset.trans hw hsub)
      exact ⟨hne', fun w' he => List.Subset.trans hsub (hgrow' w' he)⟩

theorem Topology.device_ok {id : String} {d : Device R} (h : t.device id = .ok d) :
    ∃ e ∈ t.devices, e.1.id = d.id := by
  unfold Topology.device at h
  split at h
  · next e he =>
    cases h
    exact ⟨e, List.mem_of_find?_eq_some he, rfl⟩
  · cases h

theorem Topology.device_ne_recursion (id : String) : t.device id ≠ .error .recursionError := by
  unfold Topology.device
  split
  · nofun
  · nofun

theorem Topology.ports_ne_recursion (id : String) : t.ports id ≠ .error .recursionError := by
  unfold Topology.ports
  split
  · nofun
  · nofun

/-- 残りの device より深い `fuel` があれば、上限には当たらない。 -/
theorem addDevice_grows (fuel : Nat) (d : Device R) (w : Walk R)
    (hd : ∃ e ∈ t.devices, e.1.id = d.id) (hfuel : t.unseen w.devicesAdded < fuel) :
    Grows w (addDevice t fuel d w) := by
  induction fuel generalizing d w with
  | zero => exact absurd hfuel (Nat.not_lt_zero _)
  | succ fuel ih =>
    rw [addDevice]
    split
    · exact Grows.ok (List.Subset.refl _)
    · next hnew =>
      have hlt : t.unseen (w.devicesAdded ++ [d.id]) < fuel := by
        have := Topology.unseen_lt hnew hd
        omega
      have hstep : ∀ w' port, w.devicesAdded ++ [d.id] ⊆ w'.devicesAdded →
          Grows w' (followPorts t (addDevice t fuel) d.id w' port) := by
        intro w' port hw'
        refine Grows.foldlM (B := w.devicesAdded ++ [d.id]) (fun w₂ peer hw₂ => ?_) port.peers
          (w'.addPort t d.id port) hw'
        unfold followPeers
        split
        · cases hdev : t.device peer.deviceId with
          | error e =>
            refine ⟨fun he => ?_, nofun⟩
            cases he
            exact Topology.device_ne_recursion _ hdev
          | ok d' =>
            exact ih d' w₂ (Topology.device_ok hdev)
              (Nat.lt_of_le_of_lt (Topology.unseen_mono hw₂) hlt)
        · exact Grows.ok (List.Subset.refl _)
      cases hports : t.ports d.id with
      | error e =>
        refine ⟨fun he => ?_, nofun⟩
        cases he
        exact Topology.ports_ne_recursion _ hports
      | ok ports =>
        obtain ⟨hne, hgrow⟩ := Grows.foldlM hstep ports
          ⟨w.graph.addDeviceNode d, w.devicesAdded ++ [d.id]⟩ (List.Subset.refl _)
        exact ⟨hne, fun w' he => List.Subset.trans (List.subset_append_left _ _) (hgrow w' he)⟩

/-- graph を作る再帰は、深さの上限に当たらない。 -/
theorem buildGraph_ne_recursionError (t : Topology R) :
    buildGraph t ≠ .error .recursionError := by
  have hstep : ∀ (w : Walk R) (lp : LogicalPort), [] ⊆ w.devicesAdded → Grows w
      (do addDevice t (t.devices.length + 1) (← t.device lp.deviceId) w) := by
    intro w lp _
    cases hdev : t.device lp.deviceId with
    | error e =>
      refine ⟨fun he => ?_, nofun⟩
      cases he
      exact Topology.device_ne_recursion _ hdev
    | ok d =>
      refine addDevice_grows _ d w (Topology.device_ok hdev) (Nat.lt_succ_of_le ?_)
      exact List.length_filter_le _ _
  have hall := (Grows.foldlM hstep t.logicalPorts ⟨.empty, []⟩ (List.Subset.refl _)).1
  unfold buildGraph
  intro he
  cases hw : t.logicalPorts.foldlM (fun w lp => do
      addDevice t (t.devices.length + 1) (← t.device lp.deviceId) w) ⟨.empty, []⟩ with
  | error e =>
    rw [hw] at he hall
    cases he
    exact hall rfl
  | ok w =>
    rw [hw] at he
    cases he

end Depth

/-! ## 経路 -/

/-- `RouteHop`。 -/
structure RouteHop (R : Type) where
  device : Device R
  ingressPort : Port
  egressPort : Port
deriving DecidableEq, Repr

/-- 端の port の番号の組から、入口と出口の hop への対応。 -/
abbrev Routes (R : Type) := List ((UInt32 × UInt32) × (RouteHop R × RouteHop R))

section Routes

variable (shortestPath : Graph R → NodeKey → NodeKey → Except FlowError (List NodeKey))

/-- 経路の node から hop を作る。 -/
def routeHop (g : Graph R) (device ingressPort egressPort : NodeKey) :
    Except FlowError (RouteHop R) := do
  return ⟨← g.deviceAt device, ← g.portAt ingressPort, ← g.portAt egressPort⟩

/-- `_build_routes` の loop の一回。 -/
def addRoute (g : Graph R) (source : NodeKey × UInt32) (routes : Routes R)
    (target : NodeKey × UInt32) : Except FlowError (Routes R) := do
  if source.1 = target.1 then return routes
  let path ← shortestPath g source.1 target.1
  -- 正しい経路の長さは 3 の倍数で、今は 6 に限る
  if path.length % 3 ≠ 0 then return routes
  match path with
  | [p1, d1, p2, p3, d2, p4] =>
    let ingressHop ← routeHop g d1 p1 p2
    let egressHop ← routeHop g d2 p3 p4
    return OrderedDict.set routes (source.2, target.2) (ingressHop, egressHop)
  | _ => .error .assertionError

/-- `_build_routes(boundary_ports, graph)`。 -/
def buildRoutes (boundary : List (NodeKey × UInt32)) (g : Graph R) : Except FlowError (Routes R) :=
  boundary.foldlM (fun routes source => boundary.foldlM (addRoute shortestPath g source) routes) []

/-- `compute_routes(root_proxy, logical_ports)`。 -/
def computeRoutes (t : Topology R) : Except FlowError (Graph R × Routes R) := do
  let g ← buildGraph t
  let routes ← buildRoutes shortestPath (boundaryPorts t.logicalPorts) g
  return (g, routes)

end Routes

end Voltha.Core
