import Voltha.Core.TableSync
import Voltha.Core.Properties.Decomposed
import Voltha.Core.Properties.KnownDevice
import Voltha.Lib.Projection
import Voltha.Lib.Steps

/-!
# device の表は logical device の表に従うか

logical device の表への要求が正常に終わるたびに、device の表が、今の表を分解したものになっているか。
分解できない flow は、何も置かないだけで、他の flow の規則を妨げないはずである。

実際には、分解は一つの flow の例外で全体が止まる。要求は正常に終わり、device の表は前のまま残る。
-/

namespace Voltha.Core.TableSync

open Exec Voltha.Flow

variable {R : Type} {hash : FlowKey → Nat}
  {shortestPath : Graph R → NodeKey → NodeKey → Except FlowError (List NodeKey)}

/-! ## 期待される device の表 -/

/-- 経路と既定の規則を計算できる topology。 -/
structure Plan (hash : FlowKey → Nat)
    (shortestPath : Graph R → NodeKey → NodeKey → Except FlowError (List NodeKey))
    (t : Topology R) where
  routes : Routes R
  rules : Rules
  nni : UInt32
  computed : tablesOf hash shortestPath t = .ok (routes, rules, nni)

namespace Plan

variable {t : Topology R} (plan : Plan hash shortestPath t)

/-- 表を覚えた agent。 -/
def agent : AgentState R := ⟨t, some plan.routes, .value plan.rules, .value plan.nni⟩

section Expected

variable [DecidableEq R]

/-- 一つの flow の規則を足す。分解できない flow は何も足さない。 -/
def mergeFlow (groups : List GroupEntry) (rules : Rules) (flow : FlowStats) : Rules :=
  match decomposeFlow hash plan.agent.routeFor (groupDict groups) flow with
  | .ok generated => generated.foldl mergeRules rules
  | .error _ => rules

/-- 表を分解したもの。 -/
def expected (tables : Tables) : Rules :=
  tables.flows.foldl (plan.mergeFlow tables.groups) plan.rules

/-- どの flow も分解できる。 -/
def Decomposable (tables : Tables) : Prop :=
  ∀ flow ∈ tables.flows,
    (decomposeFlow hash plan.agent.routeFor (groupDict tables.groups) flow).isOk = true

end Expected

end Plan

/-- 二つの表は、id で引けば同じ。 -/
def SameById (a b : Tables) : Prop :=
  (∀ id, a.flows.find? (fun f => f.id = id) = b.flows.find? fun f => f.id = id) ∧
    ∀ id, a.groups.find? (fun g => g.desc.groupId = id)
      = b.groups.find? fun g => g.desc.groupId = id

/-- 規則を、木に置く表にする。 -/
def tablesOfRules (rules : DeviceRules) : Tables :=
  ⟨rules.flows.map Prod.snd, rules.groups.map Prod.snd⟩

section Follow

variable [DecidableEq R] {t : Topology R} (plan : Plan hash shortestPath t)

/-- topology のどの device の表も、今の表を分解したものである。 -/
def InSync (s : System R) : Prop :=
  ∀ device ∈ plan.rules.map Prod.fst, SameById (s.stored device)
    (tablesOfRules (((plan.expected s.tables).lookup device).getD ⟨[], []⟩))

/-- 正常に終わる要求の後で、device の表が従っている。 -/
def Followed (s : System R) (req : TableRequest) : Prop :=
  (exec hash shortestPath req s).1.isOk = true → InSync plan (step hash shortestPath s req)

/--
device の表が従う要求。

正常に終わるなら、残る flow がどれも分解できる。また、表を変えるか、device の表が既に従っている。
-/
def Tractable (s : System R) (req : TableRequest) : Prop :=
  (req.exec hash s.tables).1.isOk = true → plan.Decomposable (s.tables.step hash req) ∧
    (s.tables.step hash req ≠ s.tables ∨ InSync plan s)

end Follow

/-! ## 分解が終わるとき -/

section Expected

variable [DecidableEq R] {t : Topology R} {plan : Plan hash shortestPath t}

/-- どの flow も分解できれば、全体の分解も終わり、期待されるものになる。 -/
theorem decomposeRules_expected {tables : Tables} (h : plan.Decomposable tables) :
    decomposeRules hash plan.agent.routeFor plan.rules tables.flows tables.groups
      = .ok (plan.expected tables) := by
  obtain ⟨flows, groups⟩ := tables
  unfold decomposeRules Plan.expected
  unfold Plan.Decomposable at h
  generalize plan.rules = rules
  dsimp only at h ⊢
  induction flows generalizing rules with
  | nil => rfl
  | cons flow flows ih =>
    rw [List.foldlM_cons, List.foldl_cons]
    have hflow := h flow List.mem_cons_self
    cases hd : decomposeFlow hash plan.agent.routeFor (groupDict groups) flow with
    | error e =>
      rw [hd] at hflow
      cases hflow
    | ok generated =>
      have hmerge : plan.mergeFlow groups rules flow = generated.foldl mergeRules rules := by
        rw [Plan.mergeFlow, hd]
      rw [hmerge]
      exact ih (fun f hf => h f (List.mem_cons_of_mem _ hf)) _

theorem expected_known {tables : Tables} (h : plan.Decomposable tables) :
    KnownRules t (plan.expected tables) := by
  obtain ⟨hroutes, hrules⟩ := tablesOf_known _ plan.computed
  exact decomposeRules_known (fun i e => routeFor_known rfl hroutes i e) hrules _ _ _
    (decomposeRules_expected h)

end Expected

/-! ## 一つの書き込み -/

/-- 規則を置いても、device の表の他は変わらない。 -/
theorem storeRules_keeps {τ : Type} {f : System R → τ}
    (hf : ∀ s stored, f { s with stored } = f s) :
    ∀ rules : Rules, Keeps (Unchanged f) (storeRules rules : Exec (System R) FlowError Unit) := by
  have hdevice : ∀ id g, Keeps (Unchanged f) (updateDevice id g : Exec (System R) FlowError Unit) :=
    fun id g => Keeps.bind Keeps.read fun s => Keeps.bind (Keeps.require _ _) fun _ s => hf s _
  intro rules
  induction rules with
  | nil => exact Keeps.pure ()
  | cons p rest ih => exact (hdevice _ _).bind fun _ => (hdevice _ _).bind fun _ => ih

/-- `updateDevice` は、木にある device の表を書き換える。 -/
theorem updateDevice_apply {s : System R} {id : String} (hid : s.agent.tree.Has id)
    (f : Tables → Tables) :
    updateDevice id f s
      = (.ok (), { s with stored := Function.update s.stored id (f (s.stored id)) }) := by
  have hmem : id ∈ s.agent.tree.devices.map fun e => e.1.id := by
    obtain ⟨e, he, hid⟩ := hid
    exact List.mem_map.mpr ⟨e, he, hid⟩
  exact (bind_ok (read_apply s)).trans (bind_ok (require_pos hmem s))

/-- 規則の device が木にあり、重ならなければ、規則のある device の表だけが書かれる。 -/
theorem storeRules_apply {t : Topology R} {rules : Rules} (h : KnownRules t rules) (s : System R)
    (hs : s.agent.tree = t) :
    storeRules rules s = (.ok (), { s with stored := fun id =>
      ((rules.lookup id).map tablesOfRules).getD (s.stored id) }) := by
  induction rules generalizing s with
  | nil => rfl
  | cons p rest ih =>
    obtain ⟨id, r⟩ := p
    have hid : s.agent.tree.Has id := hs ▸ h.known _ List.mem_cons_self
    obtain ⟨hnot, hnd⟩ := List.nodup_cons.mp h.keys
    let s₁ : System R := { s with
      stored := Function.update s.stored id { s.stored id with flows := r.flows.map Prod.snd } }
    let s₂ : System R := { s₁ with
      stored := Function.update s₁.stored id { s₁.stored id with groups := r.groups.map Prod.snd } }
    have hf : updateDeviceFlows id (r.flows.map Prod.snd) s = (.ok (), s₁) :=
      updateDevice_apply hid _
    have hg : updateDeviceGroups id (r.groups.map Prod.snd) s₁ = (.ok (), s₂) :=
      updateDevice_apply (s := s₁) hid _
    have hrest := ih ⟨fun q hq => h.known q (List.mem_cons_of_mem _ hq), hnd⟩ s₂ hs
    have hrun : storeRules ((id, r) :: rest) s = storeRules rest s₂ :=
      (bind_ok hf).trans (bind_ok hg)
    have hnone : rest.lookup id = none := by
      rw [← Option.not_isSome_iff_eq_none, OrderedDict.lookup_isSome]
      exact hnot
    have hstored : (fun id' => ((rest.lookup id').map tablesOfRules).getD (s₂.stored id'))
        = fun id' => ((((id, r) :: rest).lookup id').map tablesOfRules).getD (s.stored id') := by
      funext id'
      rw [OrderedDict.lookup_cons_eq]
      by_cases he : id' = id
      · subst he
        simp [hnone, s₂, s₁, tablesOfRules]
      · simp [he, s₂, s₁]
    rw [hrun, hrest, hstored]

section Follow

variable {t : Topology R} (plan : Plan hash shortestPath t)

/-- agent は、まだ表を覚えていないか、計算した通りに覚えている。 -/
def Settled (s : System R) : Prop :=
  s.agent.tree = t ∧ (s.agent.routes = none ∨ s.agent = plan.agent)

variable {plan}

theorem settled_of_agent {s : System R} (h : s.agent = plan.agent) : Settled plan s :=
  ⟨by rw [h]; rfl, Or.inr h⟩

theorem Settled.assure {s : System R} (h : Settled plan s) :
    assureCachedTablesUpToDate hash shortestPath s.agent = (.ok (), plan.agent) := by
  obtain ⟨htree, hnone | hagent⟩ := h
  · rcases assure_cases hash shortestPath hnone with
      ⟨e, hc, -⟩ | ⟨routes, rules, nni, ht, he⟩ | ⟨g, routes, e, s', -, ht, -⟩
    · have hbad := plan.computed
      rw [htree] at hc
      rw [tablesOf, hc] at hbad
      cases hbad
    · rw [htree, plan.computed] at ht
      cases ht
      rw [he]
      refine congrArg (Prod.mk _) ?_
      obtain ⟨⟨tree, agentRoutes, rules, nni⟩, tables, stored⟩ := s
      cases htree
      rfl
    · rw [htree, plan.computed] at ht
      cases ht
  · rw [hagent]
    exact assure_cached rfl

variable [DecidableEq R]

/-- 分解は、計算した経路と既定の規則で動く。 -/
theorem Settled.deviceRules {s : System R} (h : Settled plan s) (flows : List FlowStats)
    (groups : List GroupEntry) :
    deviceRules hash shortestPath flows groups s.agent
      = (decomposeRules hash plan.agent.routeFor plan.rules flows groups, plan.agent) := by
  have hdefaults : getAllDefaultRules hash shortestPath s.agent
      = (.ok (some plan.rules), plan.agent) := by
    unfold getAllDefaultRules
    rw [bind_ok h.assure]
    rfl
  unfold TableSync.deviceRules
  rw [bind_ok hdefaults]
  dsimp only
  rw [bind_ok (read_apply plan.agent)]
  cases decomposeRules hash plan.agent.routeFor plan.rules flows groups with
  | error e => rfl
  | ok rules => rfl

/-- 既定の規則のある device は、分解の結果にもある。 -/
theorem mem_expected (tables : Tables) {device : String} (h : device ∈ plan.rules.map Prod.fst) :
    device ∈ (plan.expected tables).map Prod.fst := by
  have hset : ∀ (rules : Rules) (id : String) (r : DeviceRules), device ∈ rules.map Prod.fst →
      device ∈ (OrderedDict.set rules id r).map Prod.fst := by
    intro rules id r hmem
    rw [OrderedDict.keys_set]
    split
    · exact hmem
    · exact List.mem_append_left _ hmem
  have hmerge : ∀ (generated : List (String × List FlowStats)) (rules : Rules),
      device ∈ rules.map Prod.fst → device ∈ (generated.foldl mergeRules rules).map Prod.fst := by
    intro generated
    induction generated with
    | nil => exact fun _ hmem => hmem
    | cons p generated ih => exact fun rules hmem => ih _ (hset _ _ _ hmem)
  unfold Plan.expected
  revert h
  generalize plan.rules = rules
  induction tables.flows generalizing rules with
  | nil => exact fun hmem => hmem
  | cons flow flows ih =>
    intro hmem
    refine ih _ ?_
    unfold Plan.mergeFlow
    split
    · exact hmerge _ _ hmem
    · exact hmem

/-- 今の表を分解して、device に置く。 -/
def install (hash : FlowKey → Nat)
    (shortestPath : Graph R → NodeKey → NodeKey → Except FlowError (List NodeKey))
    (s : System R) : System R :=
  ((onAgent (TableSync.deviceRules hash shortestPath s.tables.flows s.tables.groups)
    >>= storeRules) s).2

theorem putFlows_apply (flows : List FlowStats) (s : System R) :
    (putFlows hash shortestPath flows s).2
      = if s.tables.flows = flows then s
        else install hash shortestPath { s with tables := { s.tables with flows } } := by
  unfold putFlows
  split
  · rfl
  · rfl

theorem putGroups_apply (groups : List GroupEntry) (s : System R) :
    (putGroups hash shortestPath groups s).2
      = if s.tables.groups = groups then s
        else install hash shortestPath { s with tables := { s.tables with groups } } := by
  unfold putGroups
  split
  · rfl
  · rfl

/-- 分解も、規則を置くことも、logical device の表を変えない。 -/
theorem install_tables {s : System R} : (install hash shortestPath s).tables = s.tables := by
  have hkeep : Keeps (Unchanged System.tables) (onAgent
      (TableSync.deviceRules hash shortestPath s.tables.flows s.tables.groups) >>= storeRules) :=
    Keeps.bind (fun _ => rfl) fun rules => storeRules_keeps (fun _ _ => rfl) rules
  exact hkeep s

/-- 分解できる表を置いた後は、device の表は従っている。 -/
theorem Settled.install {s : System R} (h : Settled plan s) :
    Settled plan (install hash shortestPath s) ∧
      (plan.Decomposable s.tables → InSync plan (install hash shortestPath s)) := by
  let s₁ : System R := { s with agent := plan.agent }
  have hrun : onAgent (TableSync.deviceRules hash shortestPath s.tables.flows s.tables.groups) s
      = (decomposeRules hash plan.agent.routeFor plan.rules s.tables.flows s.tables.groups, s₁) := by
    unfold onAgent
    rw [h.deviceRules]
  unfold TableSync.install
  cases hd : decomposeRules hash plan.agent.routeFor plan.rules s.tables.flows s.tables.groups with
  | error e =>
    rw [hd] at hrun
    rw [bind_error hrun]
    refine ⟨settled_of_agent rfl, fun hok => ?_⟩
    rw [decomposeRules_expected hok] at hd
    cases hd
  | ok rules =>
    rw [hd] at hrun
    rw [bind_ok hrun]
    refine ⟨settled_of_agent (storeRules_keeps (fun _ _ => rfl) rules s₁), fun hok => ?_⟩
    rw [decomposeRules_expected hok] at hd
    cases hd
    rw [storeRules_apply (expected_known hok) s₁ rfl]
    intro device hdevice
    obtain ⟨r, hr⟩ := Option.isSome_iff_exists.mp
      (OrderedDict.lookup_isSome.mpr (mem_expected s.tables hdevice))
    have htables : s₁.tables = s.tables := rfl
    simp only [htables, hr, Option.map_some, Option.getD_some]
    exact ⟨fun _ => rfl, fun _ => rfl⟩

/-! ## 要求の処理 -/

variable (plan) in
/--
logical device の表を書き換える間に保たれる関係。

後の表が分解できて、表が変わったか、前から従っていたなら、後の device の表は従っている。
二度書く処理では、途中の表が分解できなくてもよい。
-/
def Follows (s s' : System R) : Prop :=
  Settled plan s → Settled plan s' ∧ (plan.Decomposable s'.tables →
    s'.tables ≠ s.tables ∨ InSync plan s → InSync plan s')

instance : Std.Refl (Follows plan) :=
  ⟨fun _ hs => ⟨hs, fun _ h => h.elim (fun hne => absurd rfl hne) id⟩⟩

instance : IsTrans (System R) (Follows plan) where
  trans s₁ s₂ s₃ h₁ h₂ hs := by
    obtain ⟨hs₂, hsync₂⟩ := h₁ hs
    obtain ⟨hs₃, hsync₃⟩ := h₂ hs₂
    refine ⟨hs₃, fun hd h => hsync₃ hd ?_⟩
    by_cases heq : s₃.tables = s₂.tables
    · -- 二度目の書き込みが表を変えなければ、一度目で従っている
      rw [heq] at hd h
      exact Or.inr (hsync₂ hd h)
    · exact Or.inl heq

/-- 変わった表を書いて、分解する。 -/
theorem follows_install (s : System R) (tables : Tables) :
    Follows plan s (install hash shortestPath { s with tables }) := by
  intro hs
  have hs₁ : Settled plan { s with tables } := hs
  obtain ⟨hsettled, hsync⟩ := hs₁.install
  refine ⟨hsettled, fun hd _ => hsync ?_⟩
  rw [install_tables] at hd
  exact hd

theorem putFlows_projects (flows : List FlowStats) :
    Projects System.tables (Follows plan) (putFlows hash shortestPath flows)
      (Tables.putFlows flows) := by
  intro s
  rw [putFlows_apply]
  refine ⟨by unfold putFlows; split <;> rfl, ?_⟩
  split
  · next h =>
    refine ⟨?_, Std.Refl.refl s⟩
    rw [← h]
    rfl
  · exact ⟨install_tables, follows_install s _⟩

theorem putGroups_projects (groups : List GroupEntry) :
    Projects System.tables (Follows plan) (putGroups hash shortestPath groups)
      (Tables.putGroups groups) := by
  intro s
  rw [putGroups_apply]
  refine ⟨by unfold putGroups; split <;> rfl, ?_⟩
  split
  · next h =>
    refine ⟨?_, Std.Refl.refl s⟩
    rw [← h]
    rfl
  · exact ⟨install_tables, follows_install s _⟩

theorem announceFlowsDeleted_projects (flows : List FlowStats) :
    Projects System.tables (Follows plan) (announceFlowsDeleted flows)
      (Flow.announceFlowsDeleted flows) :=
  Projects.ite (Projects.raise _) (Projects.pure ())

theorem flowAdd_projects (mod : FlowMod) :
    Projects System.tables (Follows plan) (flowAdd hash shortestPath mod)
      (Flow.flowAdd hash mod) := by
  refine (Projects.require _ _).bind fun _ => Projects.read_bind fun s => ?_
  refine Projects.ite (Projects.ite (putFlows_projects _) (Projects.pure ())) ?_
  cases findFlow s.tables.flows (flowStatsEntryFromFlowModMessage hash mod) with
  | none => exact putFlows_projects _
  | some idx =>
    dsimp only
    cases s.tables.flows[idx]? with
    | none => exact Projects.pure ()
    | some old => exact putFlows_projects _

theorem flowDelete_projects (mod : FlowMod) :
    Projects System.tables (Follows plan) (flowDelete hash shortestPath mod)
      (Flow.flowDelete mod) := by
  refine Projects.read_bind fun s => ?_
  dsimp only
  cases splitBySpec mod s.tables.flows with
  | error e => exact Projects.raise e
  | ok p =>
    refine Projects.ite (announceFlowsDeleted_projects _) ?_
    exact (putFlows_projects _).bind fun _ => announceFlowsDeleted_projects _

theorem flowDeleteStrict_projects (mod : FlowMod) :
    Projects System.tables (Follows plan) (flowDeleteStrict hash shortestPath mod)
      (Flow.flowDeleteStrict hash mod) := by
  refine Projects.read_bind fun s => ?_
  dsimp only
  cases findFlow s.tables.flows (flowStatsEntryFromFlowModMessage hash mod) with
  | none => exact Projects.pure ()
  | some idx => exact putFlows_projects _

theorem groupDelete_projects (mod : GroupMod) :
    Projects System.tables (Follows plan) (groupDelete hash shortestPath mod)
      (Flow.groupDelete mod) := by
  refine Projects.read_bind fun s => Projects.ite (putGroups_projects _) ?_
  refine Projects.ite ?_ (Projects.pure ())
  refine Projects.read_bind fun s => Projects.bind ?_ fun p => ?_
  · exact (announceFlowsDeleted_projects _).bind fun _ => Projects.pure _
  · exact (putGroups_projects _).bind fun _ =>
      Projects.ite (putFlows_projects _) (Projects.pure ())

/-- callback を含めた処理は、logical device の表だけを見れば元の handler であり、device の表は従う。 -/
theorem exec_projects (req : TableRequest) :
    Projects System.tables (Follows plan) (exec hash shortestPath req) (req.exec hash) := by
  cases req with
  | flowMod mod =>
    simp only [exec, TableRequest.exec, updateFlowTable, Flow.updateFlowTable]
    cases mod.command with
    | add => exact flowAdd_projects mod
    | delete => exact flowDelete_projects mod
    | deleteStrict => exact flowDeleteStrict_projects mod
    | modify => exact Projects.raise _
    | modifyStrict => exact Projects.raise _
    | other n => exact Projects.pure ()
  | groupMod mod =>
    simp only [exec, TableRequest.exec, updateGroupTable, Flow.updateGroupTable]
    cases mod.command with
    | delete => exact groupDelete_projects mod
    | add =>
      exact Projects.read_bind fun s => Projects.ite (Projects.pure ()) (putGroups_projects _)
    | modify =>
      exact Projects.read_bind fun s => Projects.ite (putGroups_projects _) (Projects.pure ())
    | other n => exact Projects.pure ()

/-- 一つの要求。 -/
theorem Settled.step {s : System R} (h : Settled plan s) (req : TableRequest) :
    Settled plan (step hash shortestPath s req) ∧ (Tractable plan s req → Followed plan s req) := by
  have hproj : Projects System.tables (Follows plan) (exec hash shortestPath req)
    (req.exec hash) := exec_projects req
  obtain ⟨hvalue, htables, hfollows⟩ := hproj s
  obtain ⟨hsettled, hsync⟩ := hfollows h
  refine ⟨hsettled, fun ht hok => ?_⟩
  rw [hvalue] at hok
  obtain ⟨hd, hchange⟩ := ht hok
  refine hsync ?_ ?_
  · rw [htables]
    exact hd
  · rw [htables]
    exact hchange

end Follow

/--
**device の表が logical device の表に従う条件。**

経路と既定の規則を計算できる topology で、どの表からどの順で要求が来ても、
**正常に終わる要求が、分解できる flow だけを残し、表を変えるか、device の表が既に従っている** なら、
正常に終わったどの要求の後でも、topology のどの device の表も、今の表を分解したものである。
-/
theorem device_tables_follow [DecidableEq R] {t : Topology R} (plan : Plan hash shortestPath t)
    (s : System R) (hs : s.agent = AgentState.initial t) (l : List TableRequest)
    (h : Steps.Each (step hash shortestPath) (Tractable plan) s l) :
    Steps.Each (step hash shortestPath) (Followed plan) s l := by
  have hsettled : Settled plan s := ⟨by rw [hs]; rfl, Or.inl (by rw [hs]; rfl)⟩
  exact Steps.Each.imp (I := Settled plan) (fun _ req hI => hI.step req) hsettled h

/-! ## 二つの ONU の例 -/

/-- 二つの ONU の topology で計算した表。 -/
def twoOnusPlan : Plan sampleHash ponPath twoOnus where
  routes := twoOnusAgent.routes.getD []
  rules := twoOnusRules
  nni := 1
  computed := by
    have hroutes : computeRoutes ponPath twoOnus
        = .ok ((buildGraph twoOnus).toOption.getD .empty, twoOnusAgent.routes.getD []) := by
      decide +kernel
    have hrules : generateDefaultRules sampleHash twoOnus
        ((buildGraph twoOnus).toOption.getD .empty) = .ok twoOnusRules := by decide +kernel
    have hnni : rootPortNo twoOnus = .ok 1 := by decide +kernel
    simp only [tablesOf, hroutes, bind, Except.bind, hrules, hnni]
    rfl

/-- 作られたばかりの agent と、空の表。 -/
def twoOnusSystem : System Unit := ⟨AgentState.initial twoOnus, Tables.empty, fun _ => Tables.empty⟩

/-- flow を足す要求。 -/
def addRequest (f : FlowStats) : TableRequest :=
  .flowMod ⟨f.cookie, 0, f.tableId, .add, f.idleTimeout, f.hardTimeout, f.priority, OFPP_ANY,
    OFPG_ANY, f.flags, f.match, f.instructions⟩

/-- ONU の上りの flow を足すと、device の表は従う。 -/
theorem device_tables_follow_upstream :
    Steps.Each (step sampleHash ponPath) (Followed twoOnusPlan) twoOnusSystem
      [addRequest (upstreamFlow 101 101)] := by
  refine device_tables_follow twoOnusPlan twoOnusSystem rfl _ ⟨fun _ => ⟨?_, Or.inl ?_⟩, trivial⟩
  · unfold Plan.Decomposable
    decide +kernel
  · decide +kernel

/--
経路の無い flow が一つ残っていると、後から足した flow の規則も、既定の規則も、device に置かれない。

どちらの要求も正常に終わる。
-/
theorem unroutable_flow_freezes_devices :
    let bad := addRequest (upstreamFlow 999 101)
    let good := addRequest (upstreamFlow 101 101)
    let s := [bad, good].foldl (step sampleHash ponPath) twoOnusSystem
    (exec sampleHash ponPath bad twoOnusSystem).1.isOk = true ∧
      (exec sampleHash ponPath good (step sampleHash ponPath twoOnusSystem bad)).1.isOk = true ∧
      s.tables.flows.length = 2 ∧ (s.stored "olt").flows = [] ∧
      (((twoOnusPlan.expected s.tables).lookup "olt").map fun r => r.flows.length) = some 2 ∧
      ¬Steps.Each (step sampleHash ponPath) (Followed twoOnusPlan) twoOnusSystem [bad, good] := by
  intro bad good s
  have hok : (exec sampleHash ponPath good (step sampleHash ponPath twoOnusSystem bad)).1.isOk
      = true := by decide +kernel
  refine ⟨by decide +kernel, hok, by decide +kernel, by decide +kernel, by decide +kernel, ?_⟩
  rintro ⟨-, hgood, -⟩
  have hsync := (hgood hok "olt" (by decide +kernel)).1
    (mkFlowStat sampleHash [inPort 1, vlanVid (OFPVID_PRESENT ||| 4000), vlanPcp 0]
      [popVlan, output 2] 2000 0).id
  revert hsync
  decide +kernel

end Voltha.Core.TableSync
