import Voltha.Core.FlowDecomposer
import Voltha.Core.Properties.Cached

/-!
# 規則の置かれる device は木にある

graph の device は木から読まれ、経路の hop と既定の規則は graph から作られる。
したがって、分解の結果に現れる device は、どれも木にある。
-/

namespace Voltha.Core

open Voltha.Flow Fallible

variable {R : Type} {t : Topology R} {hash : FlowKey → Nat}
  {shortestPath : Graph R → NodeKey → NodeKey → Except FlowError (List NodeKey)}

/-- その id の device が木にある。 -/
def Topology.Has (t : Topology R) (id : String) : Prop := ∃ e ∈ t.devices, e.1.id = id

/-! ## graph -/

/-- node の device は、どれも木にある。 -/
def Graph.Known (t : Topology R) (g : Graph R) : Prop :=
  ∀ node ∈ g.nodes, ∀ d, node.2.device = some d → t.Has d.id

variable {g : Graph R}

/-- node の属性の device は、node の列にある。 -/
theorem Graph.Known.attrs (h : g.Known t) {k : NodeKey} {d : Device R}
    (hd : (g.attrs k).device = some d) : t.Has d.id := by
  unfold Graph.attrs at hd
  cases hl : g.nodes.lookup k with
  | none =>
    rw [hl] at hd
    cases hd
  | some attrs =>
    rw [hl] at hd
    exact h _ (OrderedDict.mem_of_lookup hl) d hd

/-- 属性を一つ書いても、その device が木にあればよい。 -/
theorem known_set {nodes : List (NodeKey × NodeAttrs R)} {edges : List (NodeKey × NodeKey)}
    {k : NodeKey} {new : NodeAttrs R} (h : ∀ node ∈ nodes, ∀ d, node.2.device = some d → t.Has d.id)
    (hnew : ∀ d, new.device = some d → t.Has d.id) :
    Graph.Known t ⟨OrderedDict.set nodes k new, edges⟩ := by
  intro node hnode d hd
  rcases OrderedDict.mem_set hnode with hnode | rfl
  · exact h node hnode d hd
  · exact hnew d hd

theorem Graph.Known.addDeviceNode (h : g.Known t) {d : Device R} (hd : t.Has d.id) :
    (g.addDeviceNode d).Known t :=
  known_set h fun x hx => by
    cases hx
    exact hd

theorem Graph.Known.addPortNode (h : g.Known t) (k : NodeKey) (port : Port) (boundary : Bool) :
    (g.addPortNode k port boundary).Known t :=
  known_set h fun _ hx => h.attrs hx

theorem Graph.Known.addEdge (h : g.Known t) (u v : NodeKey) : (g.addEdge u v).Known t := by
  have hu : Graph.Known t ⟨OrderedDict.set g.nodes u (g.attrs u), []⟩ :=
    known_set h fun _ hx => h.attrs hx
  exact known_set hu fun _ hx => h.attrs hx

theorem Walk.known_addPort {w : Walk R} (h : w.graph.Known t) (deviceId : String) (port : Port) :
    (w.addPort t deviceId port).graph.Known t :=
  (h.addPortNode _ _ _).addEdge _ _

theorem addDevice_known (fuel : Nat) (d : Device R) (w : Walk R) (hd : t.Has d.id)
    (h : w.graph.Known t) : Ensures (addDevice t fuel d w) fun w' => w'.graph.Known t := by
  induction fuel generalizing d w with
  | zero => exact Ensures.error _
  | succ fuel ih =>
    rw [addDevice]
    split
    · exact Ensures.ok h
    · refine Ensures.bind fun ports _ => Ensures.foldlM ports (fun w hw port _ => ?_)
        (h.addDeviceNode hd)
      refine Ensures.foldlM port.peers (fun w hw peer _ => ?_) (Walk.known_addPort hw d.id port)
      unfold followPeers
      split
      · exact Ensures.bind fun d' hd' => ih d' w (Topology.device_ok hd') hw
      · exact Ensures.ok (hw.addEdge _ _)

theorem buildGraph_known (t : Topology R) : Ensures (buildGraph t) (Graph.Known t) := by
  refine Ensures.bind fun w hw => Ensures.ok ?_
  refine Ensures.foldlM (P := fun w : Walk R => w.graph.Known t) t.logicalPorts
    (fun w h lp _ => ?_) (fun node hnode => absurd hnode List.not_mem_nil) w hw
  exact Ensures.bind fun d hd => addDevice_known _ d w (Topology.device_ok hd) h

/-! ## 経路と既定の規則 -/

/-- 経路の hop の device は、どれも木にある。 -/
def KnownRoutes (t : Topology R) (routes : Routes R) : Prop :=
  ∀ r ∈ routes, t.Has r.2.1.device.id ∧ t.Has r.2.2.device.id

theorem routeHop_known (h : g.Known t) (d p q : NodeKey) :
    Ensures (routeHop g d p q) fun hop => t.Has hop.device.id := by
  refine Ensures.bind fun device hdevice => Ensures.bind fun _ _ => Ensures.bind fun _ _ =>
    Ensures.ok ?_
  unfold Graph.deviceAt at hdevice
  split at hdevice
  · next d hd =>
    cases hdevice
    exact h.attrs hd
  · cases hdevice

theorem addRoute_known (h : g.Known t) (source target : NodeKey × UInt32) {routes : Routes R}
    (hr : KnownRoutes t routes) :
    Ensures (addRoute shortestPath g source routes target) (KnownRoutes t) := by
  unfold addRoute
  split
  · exact Ensures.ok hr
  · refine Ensures.bind fun path _ => ?_
    split
    · exact Ensures.ok hr
    · split
      · refine Ensures.bind fun i hi => Ensures.bind fun e he => Ensures.ok fun r hmem => ?_
        rcases OrderedDict.mem_set hmem with hmem | rfl
        · exact hr r hmem
        · exact ⟨routeHop_known h _ _ _ i hi, routeHop_known h _ _ _ e he⟩
      · exact Ensures.error _

theorem buildRoutes_known (h : g.Known t) (boundary : List (NodeKey × UInt32)) :
    Ensures (buildRoutes shortestPath boundary g) (KnownRoutes t) := by
  refine Ensures.foldlM boundary (fun routes hr source _ => ?_) fun r hr => absurd hr List.not_mem_nil
  exact Ensures.foldlM boundary (fun routes hr target _ => addRoute_known h source target hr) hr

/-- 規則の device は木にあり、重ならない。 -/
structure KnownRules (t : Topology R) (rules : Rules) : Prop where
  known : ∀ p ∈ rules, t.Has p.1
  keys : (rules.map Prod.fst).Nodup

theorem KnownRules.set {rules : Rules} (h : KnownRules t rules) {id : String} (hid : t.Has id)
    (r : DeviceRules) : KnownRules t (OrderedDict.set rules id r) := by
  refine ⟨fun p hp => ?_, OrderedDict.nodup_keys_set h.keys⟩
  rcases OrderedDict.mem_set hp with hp | rfl
  · exact h.known p hp
  · exact hid

theorem generateDefaultRules_known (h : g.Known t) :
    Ensures (generateDefaultRules hash t g) (KnownRules t) := by
  refine Ensures.foldlM g.nodes (fun rules hr node hnode => ?_)
    ⟨fun p hp => absurd hp List.not_mem_nil, List.nodup_nil⟩
  cases hd : node.2.device with
  | none => exact Ensures.ok hr
  | some d => exact Ensures.bind fun r _ => Ensures.ok (hr.set (h node hnode d hd) r)

/-- 計算した表に現れる device は木にある。 -/
theorem tablesOf_known : Ensures (tablesOf hash shortestPath t) fun tables =>
    KnownRoutes t tables.1 ∧ KnownRules t tables.2.1 := by
  refine Ensures.bind fun gr hgr => ?_
  have hknown : Ensures (computeRoutes shortestPath t) fun gr =>
      gr.1.Known t ∧ KnownRoutes t gr.2 := by
    refine Ensures.bind fun g hg => Ensures.bind fun routes hroutes => Ensures.ok ?_
    have hgraph := buildGraph_known t g hg
    exact ⟨hgraph, buildRoutes_known hgraph _ routes hroutes⟩
  obtain ⟨hg, hroutes⟩ := hknown gr hgr
  refine Ensures.bind fun rules hrules => Ensures.bind fun nni _ => Ensures.ok ?_
  exact ⟨hroutes, generateDefaultRules_known hg rules hrules⟩

/-! ## 分解 -/

/-- 経路の hop の device は木にある。 -/
def KnownRoute (t : Topology R) (r : Route R) : Prop :=
  (∀ h, r.1 = some h → t.Has h.device.id) ∧ ∀ h, r.2 = some h → t.Has h.device.id

/-- 覚えている経路の表から、入口と出口で引く部分。 -/
def pickRoute (routes : Routes R) (ingress egress : Option UInt32) (upstream : Bool) :
    Except FlowError (Route R) :=
  if upstream then
    match routes.find? fun r => some r.1.2 = egress with
    | some r => .ok (none, some r.2.2)
    | none => .error (.exception "not a single upstream route")
  else
    match egress with
    | none =>
      match routes.find? fun r => some r.1.1 = ingress with
      | some r => .ok (some r.2.1, none)
      | none => .error (.exception "not a single downstream route")
    | some e =>
      match ingress.bind fun i => routes.lookup (i, e) with
      | some r => .ok (some r.1, some r.2)
      | none => .error .keyError

/-- 出口と向きを決めてから、表を引く。 -/
theorem routeFor_eq (s : AgentState R) (ingress egress : Option UInt32) :
    s.routeFor ingress egress
      = (if egress.any isController then s.nni else .ok egress) >>= fun egress =>
        (if ingress.isNone then s.nni.map fun n => decide (egress = n) else .ok false) >>=
          fun upstream => pickRoute (s.routes.getD []) ingress egress upstream := by
  unfold AgentState.routeFor
  by_cases hc : egress.any isController = true <;> by_cases hi : ingress.isNone = true <;>
    simp only [hc, hi] <;> rfl

theorem pickRoute_known {routes : Routes R} (hr : KnownRoutes t routes)
    (ingress egress : Option UInt32) (upstream : Bool) :
    Ensures (pickRoute routes ingress egress upstream) (KnownRoute t) := by
  unfold pickRoute
  split
  · split
    · next r hfind =>
      have hmem := hr r (List.mem_of_find?_eq_some hfind)
      exact Ensures.ok ⟨fun h heq => (by cases heq), fun h heq => by cases heq; exact hmem.2⟩
    · exact Ensures.error _
  · split
    · split
      · next r hfind =>
        have hmem := hr r (List.mem_of_find?_eq_some hfind)
        exact Ensures.ok ⟨fun h heq => (by cases heq; exact hmem.1), fun h heq => by cases heq⟩
      · exact Ensures.error _
    · split
      · next r hlookup =>
        obtain ⟨i, -, hlookup⟩ := Option.bind_eq_some_iff.mp hlookup
        have hmem := hr _ (OrderedDict.mem_of_lookup hlookup)
        exact Ensures.ok ⟨fun h heq => (by cases heq; exact hmem.1),
          fun h heq => by cases heq; exact hmem.2⟩
      · exact Ensures.error _

theorem routeFor_known {s : AgentState R} {routes : Routes R} (hs : s.routes = some routes)
    (hr : KnownRoutes t routes) (ingress egress : Option UInt32) :
    Ensures (s.routeFor ingress egress) (KnownRoute t) := by
  rw [routeFor_eq, hs]
  exact Ensures.bind fun e _ => Ensures.bind fun upstream _ => pickRoute_known hr ingress e upstream

/-- 作られた flow の device は木にある。 -/
def KnownGenerated (t : Topology R) (generated : List (String × List FlowStats)) : Prop :=
  ∀ p ∈ generated, t.Has p.1

theorem KnownGenerated.appendRule {generated : List (String × List FlowStats)}
    (h : KnownGenerated t generated) {device : String} (hd : t.Has device) (f : FlowStats) :
    KnownGenerated t (appendRule generated device f) := by
  intro p hp
  rcases OrderedDict.mem_set hp with hp | rfl
  · exact h p hp
  · exact hd

theorem knownGenerated_nil : KnownGenerated t [] := fun _ h => absurd h List.not_mem_nil

theorem KnownRules.merge {rules : Rules} (h : KnownRules t rules)
    (generated : List (String × List FlowStats)) (hg : KnownGenerated t generated) :
    KnownRules t (generated.foldl mergeRules rules) := by
  induction generated generalizing rules with
  | nil => exact h
  | cons p generated ih =>
    exact ih (h.set (hg p List.mem_cons_self) _) fun q hq => hg q (List.mem_cons_of_mem _ hq)

theorem hop_some (o : Option (RouteHop R)) : Ensures (hop o) fun h => o = some h := by
  cases o with
  | none => exact Ensures.error _
  | some h => exact Ensures.ok rfl

section Decompose

variable [DecidableEq R] {route : Option UInt32 → Option UInt32 → Except FlowError (Route R)}

theorem decomposeMulticast_known (hroute : ∀ i e, Ensures (route i e) (KnownRoute t))
    (groupMap : List (UInt32 × GroupEntry)) (flow : FlowStats) (fields : List OfbField)
    (actions : List Action) (inPortNo : Option UInt32) {ingress : RouteHop R}
    (hi : t.Has ingress.device.id) :
    Ensures (decomposeMulticast hash route groupMap flow fields actions inPortNo ingress)
      (KnownGenerated t) := by
  refine Ensures.bind fun grp _ => ?_
  cases grp with
  | none => exact Ensures.error _
  | some groupId =>
    refine Ensures.bind fun acc hacc => Ensures.ok ?_
    refine Ensures.foldlM (P := fun acc => KnownGenerated t acc.2) _ (fun acc h bucket _ => ?_)
      (knownGenerated_nil.appendRule hi _) acc hacc
    refine Ensures.bind fun r hr => Ensures.bind fun i _ => Ensures.bind fun _ _ => ?_
    refine Ensures.bind fun e he => Ensures.ok (h.appendRule ?_ _)
    exact (hroute _ _ r hr).2 e (hop_some _ e he)

theorem decomposeFlow_known (hroute : ∀ i e, Ensures (route i e) (KnownRoute t))
    (groupMap : List (UInt32 × GroupEntry)) (flow : FlowStats) :
    Ensures (decomposeFlow hash route groupMap flow) (KnownGenerated t) := by
  refine Ensures.bind fun fields _ => Ensures.bind fun inPortNo _ => Ensures.bind fun actions _ =>
    Ensures.bind fun outPortNo _ => Ensures.bind fun r hr => ?_
  obtain ⟨hfirst, hsecond⟩ := hroute _ _ r hr
  have hone : ∀ (device : String) (f : FlowStats), t.Has device →
      Ensures (.ok (appendRule [] device f) : Except FlowError _) (KnownGenerated t) :=
    fun _ f hd => Ensures.ok (knownGenerated_nil.appendRule hd f)
  dsimp only
  split
  · exact Ensures.bind fun e he => hone _ _ (hsecond e (hop_some _ e he))
  · refine Ensures.bind fun i hi => ?_
    have hingress := hfirst i (hop_some _ i hi)
    split
    · exact Ensures.bind fun _ _ => hone _ _ hingress
    · split
      · exact Ensures.bind fun _ _ => Ensures.bind fun e he => hone _ _ (hsecond e (hop_some _ e he))
      · split
        · exact Ensures.bind fun e he => hone _ _ (hsecond e (hop_some _ e he))
        · exact decomposeMulticast_known hroute groupMap flow fields actions inPortNo hingress

theorem decomposeRules_known (hroute : ∀ i e, Ensures (route i e) (KnownRoute t))
    {defaults : Rules} (hd : KnownRules t defaults) (flows : List FlowStats)
    (groups : List GroupEntry) :
    Ensures (decomposeRules hash route defaults flows groups) (KnownRules t) := by
  refine Ensures.foldlM flows (fun rules hr flow _ => ?_) hd
  refine Ensures.bind fun generated hg => Ensures.ok (hr.merge generated ?_)
  exact decomposeFlow_known hroute _ flow generated hg

end Decompose

end Voltha.Core
