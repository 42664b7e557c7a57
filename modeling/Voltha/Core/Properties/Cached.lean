import Voltha.Lib.Steps
import Voltha.Core.LogicalDeviceAgent

/-!
# 覚えている経路表の新しさ

`_routes` が `None` でないとき、三つの表が今の木から計算した値であるか。
崩れるのは、経路の計算の後で例外が飛ぶときと、表を覚えている間に device が変わるときである。
-/

namespace Voltha.Core

open Voltha.Flow Exec

variable {R : Type} {hash : FlowKey → Nat}
  {shortestPath : Graph R → NodeKey → NodeKey → Except FlowError (List NodeKey)}

/-- 木から計算される三つの表。 -/
def tablesOf (hash : FlowKey → Nat)
    (shortestPath : Graph R → NodeKey → NodeKey → Except FlowError (List NodeKey))
    (t : Topology R) : Except FlowError (Routes R × Rules × UInt32) := do
  let (graph, routes) ← computeRoutes shortestPath t
  let rules ← generateDefaultRules hash t graph
  let nni ← rootPortNo t
  return (routes, rules, nni)

/-- `_routes` があるなら、三つの表は今の木から計算した値である。 -/
def AgentState.Fresh (hash : FlowKey → Nat)
    (shortestPath : Graph R → NodeKey → NodeKey → Except FlowError (List NodeKey))
    (s : AgentState R) : Prop :=
  ∀ routes, s.routes = some routes → ∃ rules nni, s.defaultRules = .value rules ∧
    s.nniLogicalPortNo = .value nni ∧ tablesOf hash shortestPath s.tree = .ok (routes, rules, nni)

/-! ## 出来事 -/

/-- 木の変化と、表を使う呼び出し。 -/
inductive AgentEvent (R : Type) where
  | addLogicalPort (port : LogicalPort)
  | removeLogicalPort (id : String)
  | changeDevices (devices : List (Device R × List Port))
  | getRoute (ingress egress : Option UInt32)
  | getAllDefaultRules

/-- 一つの出来事。logical port の増減は、callback を通して表を捨てる。 -/
def AgentState.step (hash : FlowKey → Nat)
    (shortestPath : Graph R → NodeKey → NodeKey → Except FlowError (List NodeKey))
    (s : AgentState R) : AgentEvent R → AgentState R
  | .addLogicalPort port =>
    if port.id ∈ s.tree.logicalPorts.map LogicalPort.id then s
    else
      let tree := { s.tree with logicalPorts := s.tree.logicalPorts ++ [port] }
      AgentState.invalidateCachedTables { s with tree }
  | .removeLogicalPort id =>
    if id ∈ s.tree.logicalPorts.map LogicalPort.id then
      let tree := { s.tree with logicalPorts := s.tree.logicalPorts.filter fun p => p.id ≠ id }
      AgentState.invalidateCachedTables { s with tree }
    else s
  | .changeDevices devices => { s with tree := { s.tree with devices } }
  | .getRoute ingress egress => (getRoute hash shortestPath ingress egress s).2
  | .getAllDefaultRules => (getAllDefaultRules hash shortestPath s).2

/-! ## 計算が止まらない木 -/

/-- 既定の規則に要る port が、ちょうど一つずつある。 -/
def HasDefaultPorts (t : Topology R) (d : Device R) : Prop :=
  ∃ ports, t.ports d.id = .ok ports ∧
    (if d.id = t.rootDeviceId then
      (ports.filter fun p => p.type = .ethernetNni).length = 1 ∧
        (ports.filter fun p => p.type = .ponOlt).length = 1
    else
      (ports.filter fun p => p.type = .ponOnu).length = 1 ∧
        (ports.filter fun p => p.type = .ethernetUni).length = 1)

/-- graph のどの device にも要る port があり、root port がちょうど一つある。 -/
def Provisioned (t : Topology R) (g : Graph R) : Prop :=
  (∀ node ∈ g.nodes, ∀ d, node.2.device = some d → HasDefaultPorts t d) ∧
    (t.logicalPorts.filter LogicalPort.rootPort).length = 1

/--
表の新しさを保つ出来事。

覚えていないときの呼び出しは、経路が求まるなら残りも求まる。
覚えている間の device の変化は、計算される表を変えない。
-/
def AgentState.KeepsTables (hash : FlowKey → Nat)
    (shortestPath : Graph R → NodeKey → NodeKey → Except FlowError (List NodeKey))
    (s : AgentState R) : AgentEvent R → Prop
  | .addLogicalPort _ => True
  | .removeLogicalPort _ => True
  | .changeDevices devices => s.routes.isSome = true →
      tablesOf hash shortestPath { s.tree with devices } = tablesOf hash shortestPath s.tree
  | .getRoute _ _ | .getAllDefaultRules => s.routes = none →
      ∀ g routes, computeRoutes shortestPath s.tree = .ok (g, routes) → Provisioned s.tree g

theorem onePort_isOk {ports : List Port} {type : PortType} :
    (onePort ports type).isOk = true ↔ (ports.filter fun p => p.type = type).length = 1 := by
  unfold onePort
  rw [List.length_eq_one_iff]
  split
  · next p hp => exact ⟨fun _ => ⟨p, hp⟩, fun _ => rfl⟩
  · next hne =>
    refine ⟨fun h => (by cases h), ?_⟩
    rintro ⟨p, hp⟩
    exact absurd hp (hne p)

/-- 二つの port を順に求める計算が終わるのは、どちらも求まるときに限る。 -/
theorem twoPorts_isOk {t : Topology R} {d : Device R} {up down : PortType}
    {f : Port → Port → DeviceRules} :
    (do let ports ← t.ports d.id
        let u ← onePort ports up
        let v ← onePort ports down
        return f u v : Except FlowError DeviceRules).isOk = true
      ↔ ∃ ports, t.ports d.id = .ok ports ∧ (ports.filter fun p => p.type = up).length = 1 ∧
        (ports.filter fun p => p.type = down).length = 1 := by
  cases hports : t.ports d.id with
  | error e => exact ⟨fun h => (by cases h), fun ⟨_, h, _⟩ => by cases h⟩
  | ok ports =>
    simp only [Except.ok.injEq, exists_eq_left', ← onePort_isOk]
    cases hu : onePort ports up with
    | error e => simp [Except.isOk, Except.toBool, hu, bind, Except.bind]
    | ok u =>
      cases hv : onePort ports down with
      | error e => simp [Except.isOk, Except.toBool, hu, hv, bind, Except.bind]
      | ok v => simp [Except.isOk, Except.toBool, hu, hv, bind, Except.bind, pure, Except.pure]

theorem deviceDefaultRules_isOk (hash : FlowKey → Nat) {t : Topology R} {d : Device R} :
    (deviceDefaultRules hash t d).isOk = true ↔ HasDefaultPorts t d := by
  unfold deviceDefaultRules HasDefaultPorts
  split
  · exact twoPorts_isOk
  · exact twoPorts_isOk

/-- 既定の規則が求まるのは、graph のどの device にも要る port があるときに限る。 -/
theorem generateDefaultRules_isOk (hash : FlowKey → Nat) {t : Topology R} {g : Graph R} :
    (generateDefaultRules hash t g).isOk = true
      ↔ ∀ node ∈ g.nodes, ∀ d, node.2.device = some d → HasDefaultPorts t d := by
  unfold generateDefaultRules
  generalize ([] : Rules) = rules
  induction g.nodes generalizing rules with
  | nil => exact ⟨fun _ _ h => absurd h List.not_mem_nil, fun _ => rfl⟩
  | cons node nodes ih =>
    rw [List.foldlM_cons, List.forall_mem_cons]
    cases hd : node.2.device with
    | none => exact (ih rules).trans ⟨fun h => ⟨nofun, h⟩, fun h => h.2⟩
    | some d =>
      simp only [Option.some.injEq, forall_eq']
      rw [← deviceDefaultRules_isOk hash]
      cases hr : deviceDefaultRules hash t d with
      | error e => exact ⟨fun h => (by cases h), fun h => by cases h.1⟩
      | ok r => exact (ih _).trans ⟨fun h => ⟨rfl, h⟩, fun h => h.2⟩

theorem rootPortNo_isOk {t : Topology R} :
    (rootPortNo t).isOk = true ↔ (t.logicalPorts.filter LogicalPort.rootPort).length = 1 := by
  unfold rootPortNo
  rw [List.length_eq_one_iff]
  split
  · next p hp => exact ⟨fun _ => ⟨p, hp⟩, fun _ => rfl⟩
  · next hne =>
    refine ⟨fun h => (by cases h), ?_⟩
    rintro ⟨p, hp⟩
    exact absurd hp (hne p)

/-- 経路が求まるとき、残りも求まるのは、要る port があるときに限る。 -/
theorem tablesOf_isOk (hash : FlowKey → Nat) {t : Topology R} {g : Graph R} {routes : Routes R}
    (h : computeRoutes shortestPath t = .ok (g, routes)) :
    (tablesOf hash shortestPath t).isOk = true ↔ Provisioned t g := by
  unfold Provisioned
  rw [tablesOf, h, ← generateDefaultRules_isOk hash, ← rootPortNo_isOk]
  cases hr : generateDefaultRules hash t g with
  | error e => simp [bind, Except.bind, hr, Except.isOk, Except.toBool]
  | ok rules =>
    cases hn : rootPortNo t with
    | error e => simp [bind, Except.bind, hr, Except.isOk, Except.toBool]
    | ok nni => simp [bind, Except.bind, hr, Except.isOk, Except.toBool, pure, Except.pure]

/-! ## 表を覚える -/

variable {s : AgentState R}

theorem assure_cached (h : s.routes.isSome = true) :
    assureCachedTablesUpToDate hash shortestPath s = (.ok (), s) := by
  unfold assureCachedTablesUpToDate
  rw [read_bind_apply, if_pos h]
  rfl

/-- 覚えていないときは、経路も求まらないか、三つとも覚えるか、経路だけを覚えて例外になる。 -/
theorem assure_cases (hash : FlowKey → Nat)
    (shortestPath : Graph R → NodeKey → NodeKey → Except FlowError (List NodeKey))
    (hs : s.routes = none) :
    (∃ e, computeRoutes shortestPath s.tree = .error e ∧
      assureCachedTablesUpToDate hash shortestPath s = (.error e, s)) ∨
    (∃ routes rules nni, tablesOf hash shortestPath s.tree = .ok (routes, rules, nni) ∧
      assureCachedTablesUpToDate hash shortestPath s = (.ok (), { s with
        routes := some routes, defaultRules := .value rules, nniLogicalPortNo := .value nni })) ∨
    (∃ g routes e s', computeRoutes shortestPath s.tree = .ok (g, routes) ∧
      tablesOf hash shortestPath s.tree = .error e ∧ s'.routes = some routes ∧ s'.tree = s.tree ∧
      assureCachedTablesUpToDate hash shortestPath s = (.error e, s')) := by
  cases hc : computeRoutes shortestPath s.tree with
  | error e => exact Or.inl ⟨e, rfl, by simp [assureCachedTablesUpToDate, hs, hc, liftExcept]⟩
  | ok gr =>
    obtain ⟨g, routes⟩ := gr
    right
    cases hr : generateDefaultRules hash s.tree g with
    | error e =>
      refine Or.inr ⟨g, routes, e, { s with routes := some routes }, rfl, ?_, rfl, rfl, ?_⟩
      · simp [tablesOf, hc, hr, bind, Except.bind]
      · simp [assureCachedTablesUpToDate, hs, hc, hr, liftExcept]
    | ok rules =>
      cases hn : rootPortNo s.tree with
      | error e =>
        refine Or.inr ⟨g, routes, e,
          { s with routes := some routes, defaultRules := .value rules }, rfl, ?_, rfl, rfl, ?_⟩
        · simp [tablesOf, hc, hr, hn, bind, Except.bind]
        · simp [assureCachedTablesUpToDate, hs, hc, hr, hn, liftExcept]
      | ok nni =>
        refine Or.inl ⟨routes, rules, nni, ?_, ?_⟩
        · simp [tablesOf, hc, hr, hn, bind, Except.bind, pure, Except.pure]
        · simp [assureCachedTablesUpToDate, hs, hc, hr, hn, liftExcept]

/-- 表を覚えてから読むだけの計算は、表を覚えた後の状態で終わる。 -/
theorem liftExcept_state {σ ε α : Type} (r : Except ε α) (s : σ) :
    (liftExcept r s : Except ε α × σ).2 = s := by
  cases r with
  | ok a => rfl
  | error e => rfl

theorem getRoute_state (ingress egress : Option UInt32) :
    (getRoute hash shortestPath ingress egress s).2
      = (assureCachedTablesUpToDate hash shortestPath s).2 := by
  unfold getRoute
  rw [bind_apply]
  rcases assureCachedTablesUpToDate hash shortestPath s with ⟨e | u, s'⟩
  · rfl
  · exact liftExcept_state _ s'

theorem getAllDefaultRules_state :
    (getAllDefaultRules hash shortestPath s).2
      = (assureCachedTablesUpToDate hash shortestPath s).2 := by
  unfold getAllDefaultRules
  rw [bind_apply]
  rcases assureCachedTablesUpToDate hash shortestPath s with ⟨e | u, s'⟩
  · rfl
  · dsimp only
    rw [read_bind_apply]
    cases s'.defaultRules with
    | missing => rfl
    | null => rfl
    | value rules => rfl

namespace AgentState

/-- `_routes` が無ければ、新しさについて言うことは無い。 -/
theorem fresh_of_none (h : s.routes = none) : s.Fresh hash shortestPath :=
  fun routes hr => by rw [h] at hr; cases hr

/-- 呼び出しの後に新しいのは、経路が求まるなら残りも求まるときに限る。 -/
theorem Fresh.assure_iff (h : s.Fresh hash shortestPath) :
    ((assureCachedTablesUpToDate hash shortestPath s).2).Fresh hash shortestPath
      ↔ (s.routes = none → ∀ g routes, computeRoutes shortestPath s.tree = .ok (g, routes) →
        Provisioned s.tree g) := by
  cases hs : s.routes with
  | some routes =>
    rw [assure_cached (by rw [hs]; rfl)]
    exact ⟨nofun, fun _ => h⟩
  | none =>
    simp only [true_implies]
    rcases assure_cases hash shortestPath hs with
      ⟨e, hc, he⟩ | ⟨routes, rules, nni, ht, he⟩ | ⟨g, routes, e, s', hc, ht, hr, htree, he⟩
    · rw [he]
      refine ⟨fun _ g routes hok => ?_, fun _ => fresh_of_none hs⟩
      rw [hc] at hok
      cases hok
    · rw [he]
      constructor
      · intro _ g r hok
        rw [← tablesOf_isOk hash hok, ht]
        rfl
      · intro _ r hr
        cases hr
        exact ⟨rules, nni, rfl, rfl, ht⟩
    · rw [he]
      constructor
      · -- 経路だけを覚えた状態は、求まらない表を覚えていることになる
        intro hfresh
        obtain ⟨rules, nni, -, -, hok⟩ := hfresh routes hr
        rw [htree, ht] at hok
        cases hok
      · intro hp
        have := (tablesOf_isOk hash hc).mpr (hp g routes hc)
        rw [ht] at this
        cases this

/-- device が変わった後も新しいのは、計算される表が変わらないときに限る。 -/
theorem Fresh.changeDevices_iff (h : s.Fresh hash shortestPath)
    (devices : List (Device R × List Port)) :
    (s.step hash shortestPath (.changeDevices devices)).Fresh hash shortestPath
      ↔ s.KeepsTables hash shortestPath (.changeDevices devices) := by
  constructor
  · intro hnew hsome
    obtain ⟨routes, hr⟩ := Option.isSome_iff_exists.mp hsome
    obtain ⟨rules, nni, hd, hn, hok⟩ := h routes hr
    obtain ⟨rules', nni', hd', hn', hok'⟩ := hnew routes hr
    have hrules : rules' = rules := by
      have : s.defaultRules = .value rules' := hd'
      rw [hd] at this
      cases this
      rfl
    have hnni : nni' = nni := by
      have : s.nniLogicalPortNo = .value nni' := hn'
      rw [hn] at this
      cases this
      rfl
    rw [hok, ← hrules, ← hnni]
    exact hok'
  · intro hC routes hr
    obtain ⟨rules, nni, hd, hn, hok⟩ := h routes hr
    exact ⟨rules, nni, hd, hn, (hC (Option.isSome_iff_exists.mpr ⟨routes, hr⟩)).trans hok⟩

/-- 一つの出来事についての、新しさと条件の同値。 -/
theorem Fresh.step_iff (h : s.Fresh hash shortestPath) (e : AgentEvent R) :
    (s.step hash shortestPath e).Fresh hash shortestPath ↔ s.KeepsTables hash shortestPath e := by
  cases e with
  | addLogicalPort port =>
    refine iff_of_true ?_ trivial
    unfold step
    dsimp only
    split
    · exact h
    · exact fresh_of_none rfl
  | removeLogicalPort id =>
    refine iff_of_true ?_ trivial
    unfold step
    dsimp only
    split
    · exact fresh_of_none rfl
    · exact h
  | changeDevices devices => exact h.changeDevices_iff devices
  | getRoute ingress egress =>
    unfold step
    dsimp only
    rw [getRoute_state]
    exact h.assure_iff
  | getAllDefaultRules =>
    unfold step
    dsimp only
    rw [getAllDefaultRules_state]
    exact h.assure_iff

end AgentState

/--
**覚えている表が新しい条件。**

どの順で logical port の増減・device の変化・呼び出しが起きても、覚えている三つの表がいつも
今の木から計算した値であるのは、**経路の求まる呼び出しが残りの計算で止まらず、覚えている間の
device の変化が計算される表を変えない** ときに限る。
-/
theorem cached_tables_fresh_iff (hash : FlowKey → Nat)
    (shortestPath : Graph R → NodeKey → NodeKey → Except FlowError (List NodeKey))
    (t : Topology R) (l : List (AgentEvent R)) :
    Steps.Always (AgentState.step hash shortestPath) (AgentState.Fresh hash shortestPath)
        (AgentState.initial t) l
      ↔ Steps.Each (AgentState.step hash shortestPath) (AgentState.KeepsTables hash shortestPath)
        (AgentState.initial t) l :=
  Steps.always_iff_each (I := fun _ => True) (A := fun _ => True)
    (fun _ e _ _ hP => ⟨hP.step_iff e, fun _ => trivial⟩) (fun _ _ => trivial) trivial
    (AgentState.fresh_of_none rfl)

/-- NNI の port だけを持つ OLT。PON の port は、まだ現れていない。 -/
def bareOlt : Topology Unit where
  rootDeviceId := "olt"
  logicalPorts := [⟨"nni", 1, "olt", 1, true⟩]
  devices := [(⟨"olt", true, 0, ()⟩, [⟨1, "nni", .ethernetNni, .enabled, .active, "olt", []⟩])]

/--
既定の規則が求まらなかった呼び出しの後、PON の port が現れても、表は経路だけのままである。

端の port が一つなので、`shortest_path` は呼ばれない。
-/
theorem failed_call_leaves_partial_tables :
    let hash : FlowKey → Nat := fun k => k.cookie.toNat
    let path : Graph Unit → NodeKey → NodeKey → Except FlowError (List NodeKey) :=
      fun _ _ _ => .error .noPath
    let pon : Port := ⟨2, "pon", .ponOlt, .enabled, .active, "olt", []⟩
    let devices := bareOlt.devices.map fun e => (e.1, e.2 ++ [pon])
    let l : List (AgentEvent Unit) := [.getAllDefaultRules, .changeDevices devices]
    let s := l.foldl (AgentState.step hash path) (AgentState.initial bareOlt)
    s.routes = some [] ∧ s.defaultRules = .missing ∧
      (getAllDefaultRules hash path s).1 = .error .attributeError ∧
      (tablesOf hash path s.tree).isOk = true ∧
      ¬Steps.Always (AgentState.step hash path) (AgentState.Fresh hash path)
        (AgentState.initial bareOlt) l := by
  intro hash path pon devices l s
  have hroutes : s.routes = some [] := by decide
  have hrules : s.defaultRules = .missing := by decide
  refine ⟨hroutes, hrules, by decide, by decide, fun halways => ?_⟩
  obtain ⟨rules, nni, hd, -⟩ := halways.last [] hroutes
  rw [hrules] at hd
  cases hd

end Voltha.Core
