import Mathlib.Logic.Relation
import Voltha.Core.Properties.TableSync
import Voltha.Lib.Py

/-!
# 要求の列の後の device の表

logical device の表への要求は、どれも **表を書いて callback を走らせる** ことの繰り返しである
（`exec_writes`）。最後に書いた表が分解できるなら、device の表はその表を分解したものになる。
途中の表が分解できたかどうかは、後に残らない。

よって、要求の列がどこかで表を変えていて、今の表が分解できるなら、どの device の表も今の表から決まる
（`device_tables_exact`）。
-/

namespace Voltha.Core.TableSync

open Exec Fallible Voltha.Flow

variable {R : Type} [DecidableEq R] {hash : FlowKey → Nat}
  {shortestPath : Graph R → NodeKey → NodeKey → Except FlowError (List NodeKey)}

/-! ## 表を書くことの繰り返し -/

/-- 表を一度書いて、callback を走らせる。 -/
def Write (hash : FlowKey → Nat)
    (shortestPath : Graph R → NodeKey → NodeKey → Except FlowError (List NodeKey))
    (s s' : System R) : Prop := ∃ tables, s' = install hash shortestPath { s with tables }

/-- 何度か書く。 -/
def Writes (hash : FlowKey → Nat)
    (shortestPath : Graph R → NodeKey → NodeKey → Except FlowError (List NodeKey)) :
    System R → System R → Prop := Relation.ReflTransGen (Write hash shortestPath)

instance : Std.Refl (Writes (R := R) hash shortestPath) := ⟨fun _ => .refl⟩

instance : IsTrans (System R) (Writes hash shortestPath) := ⟨fun _ _ _ h h' => h.trans h'⟩

theorem putFlows_writes (flows : List FlowStats) :
    Keeps (Writes hash shortestPath) (putFlows hash shortestPath flows) := by
  intro s
  rw [putFlows_apply]
  split
  · exact .refl
  · exact .single ⟨_, rfl⟩

theorem putGroups_writes (groups : List GroupEntry) :
    Keeps (Writes hash shortestPath) (putGroups hash shortestPath groups) := by
  intro s
  rw [putGroups_apply]
  split
  · exact .refl
  · exact .single ⟨_, rfl⟩

theorem announceFlowsDeleted_writes (flows : List FlowStats) :
    Keeps (Writes (R := R) hash shortestPath) (announceFlowsDeleted flows) :=
  Keeps.ite (fun _ => Keeps.raise _) fun _ => Keeps.pure _

theorem flowAdd_writes (mod : FlowMod) :
    Keeps (Writes hash shortestPath) (flowAdd hash shortestPath mod) := by
  refine (Keeps.require _ _).bind fun _ => Keeps.read.bind fun s => ?_
  refine Keeps.ite (fun _ => ?_) fun _ => ?_
  · exact Keeps.ite (fun _ => putFlows_writes _) fun _ => Keeps.pure _
  · split
    · split
      · exact putFlows_writes _
      · exact Keeps.pure _
    · exact putFlows_writes _

theorem flowDelete_writes (mod : FlowMod) :
    Keeps (Writes hash shortestPath) (flowDelete hash shortestPath mod) := by
  refine Keeps.read.bind fun s => ?_
  split
  · exact Keeps.raise _
  · refine Keeps.ite (fun _ => announceFlowsDeleted_writes _) fun _ => ?_
    exact (putFlows_writes _).bind fun _ => announceFlowsDeleted_writes _

theorem flowDeleteStrict_writes (mod : FlowMod) :
    Keeps (Writes hash shortestPath) (flowDeleteStrict hash shortestPath mod) := by
  refine Keeps.read.bind fun s => ?_
  dsimp only
  split
  · exact putFlows_writes _
  · exact Keeps.pure _

theorem groupDelete_writes (mod : GroupMod) :
    Keeps (Writes hash shortestPath) (groupDelete hash shortestPath mod) := by
  refine Keeps.read.bind fun s => Keeps.ite (fun _ => putGroups_writes _) fun _ => ?_
  refine Keeps.ite (fun _ => ?_) fun _ => Keeps.pure _
  refine Keeps.read.bind fun s => Keeps.bind ?_ fun p => ?_
  · exact (announceFlowsDeleted_writes _).bind fun _ => Keeps.pure _
  · refine (putGroups_writes _).bind fun _ => ?_
    exact Keeps.ite (fun _ => putFlows_writes _) fun _ => Keeps.pure _

/-- どの要求も、表を書くことの繰り返しである。 -/
theorem exec_writes (req : TableRequest) :
    Keeps (Writes hash shortestPath) (exec hash shortestPath req) := by
  cases req with
  | flowMod mod =>
    simp only [exec, updateFlowTable]
    cases mod.command with
    | add => exact flowAdd_writes mod
    | delete => exact flowDelete_writes mod
    | deleteStrict => exact flowDeleteStrict_writes mod
    | modify => exact Keeps.raise _
    | modifyStrict => exact Keeps.raise _
    | other n => exact Keeps.pure _
  | groupMod mod =>
    simp only [exec, updateGroupTable]
    cases mod.command with
    | delete => exact groupDelete_writes mod
    | add =>
      exact Keeps.read.bind fun s => Keeps.ite (fun _ => Keeps.pure _) fun _ => putGroups_writes _
    | modify =>
      exact Keeps.read.bind fun s => Keeps.ite (fun _ => putGroups_writes _) fun _ => Keeps.pure _
    | other n => exact Keeps.pure _

/-! ## device の group -/

/-- どの device の規則にも group が無い。 -/
def NoGroups (rules : Rules) : Prop := ∀ p ∈ rules, p.2.groups = []

omit [DecidableEq R] in
theorem deviceDefaultRules_groups (t : Topology R) (d : Device R) :
    Ensures (deviceDefaultRules hash t d) fun r => r.groups = [] := by
  unfold deviceDefaultRules
  split
  · exact Ensures.bind fun ports _ => Ensures.bind fun u _ => Ensures.bind fun v _ => Ensures.ok rfl
  · exact Ensures.bind fun ports _ => Ensures.bind fun u _ => Ensures.bind fun v _ => Ensures.ok rfl

omit [DecidableEq R] in
theorem generateDefaultRules_groups (t : Topology R) (g : Graph R) :
    Ensures (generateDefaultRules hash t g) NoGroups := by
  have hempty : NoGroups [] := fun p hp => absurd hp List.not_mem_nil
  refine Ensures.foldlM g.nodes (fun rules hrules node _ => ?_) hempty
  cases node.2.device with
  | none => exact Ensures.ok hrules
  | some d =>
    refine Ensures.bind fun r hr => Ensures.ok fun p hp => ?_
    rcases OrderedDict.mem_set hp with hp | rfl
    · exact hrules p hp
    · exact deviceDefaultRules_groups t d r hr

theorem keepFirst_groups (fs : List FlowStats) (r : DeviceRules) :
    (fs.foldl keepFirst r).groups = r.groups := by
  induction fs generalizing r with
  | nil => rfl
  | cons f fs ih =>
    rw [List.foldl_cons, ih]
    unfold keepFirst
    split <;> rfl

theorem NoGroups.mergeRules {rules : Rules} (h : NoGroups rules) (p : String × List FlowStats) :
    NoGroups (mergeRules rules p) := by
  intro q hq
  rcases OrderedDict.mem_set hq with hq | rfl
  · exact h q hq
  · rw [keepFirst_groups]
    cases hl : rules.lookup p.1 with
    | none => rfl
    | some r => exact h _ (OrderedDict.mem_of_lookup hl)

theorem NoGroups.foldl_mergeRules {rules : Rules} (h : NoGroups rules)
    (generated : List (String × List FlowStats)) :
    NoGroups (generated.foldl Core.mergeRules rules) := by
  induction generated generalizing rules with
  | nil => exact h
  | cons p generated ih => exact ih (h.mergeRules p)

theorem decomposeRules_groups {route : Option UInt32 → Option UInt32 → Except FlowError (Route R)}
    {defaults : Rules} (h : NoGroups defaults) (flows : List FlowStats) (groups : List GroupEntry) :
    Ensures (decomposeRules hash route defaults flows groups) NoGroups := by
  unfold decomposeRules
  refine Ensures.foldlM flows (fun rules hrules flow _ => ?_) h
  exact Ensures.bind fun generated _ => Ensures.ok (hrules.foldl_mergeRules generated)

omit [DecidableEq R] in
theorem plan_groups {t : Topology R} (plan : Plan hash shortestPath t) :
    NoGroups plan.rules := by
  have hcomputed := plan.computed
  unfold tablesOf at hcomputed
  obtain ⟨⟨g, routes⟩, -, hcomputed⟩ := Py.bind_eq_ok.mp hcomputed
  obtain ⟨rules, hrules, hcomputed⟩ := Py.bind_eq_ok.mp hcomputed
  obtain ⟨nni, -, hcomputed⟩ := Py.bind_eq_ok.mp hcomputed
  have hr : rules = plan.rules := congrArg (fun p => p.2.1) (Except.ok.inj hcomputed)
  exact hr ▸ generateDefaultRules_groups t g rules hrules

/-- group の無い規則を置いても、group は増えない。 -/
def KeepsNoGroups (s s' : System R) : Prop :=
  (∀ id, (s.stored id).groups = []) → ∀ id, (s'.stored id).groups = []

instance : Std.Refl (KeepsNoGroups (R := R)) := ⟨fun _ h => h⟩

instance : IsTrans (System R) KeepsNoGroups := ⟨fun _ _ _ h h' hs => h' (h hs)⟩

omit [DecidableEq R] in
theorem storeRules_groups {rules : Rules} (h : NoGroups rules) :
    Keeps KeepsNoGroups (storeRules rules : Exec (System R) FlowError Unit) := by
  have hdevice : ∀ id (g : Tables → Tables),
      (∀ tables, tables.groups = [] → (g tables).groups = []) →
      Keeps KeepsNoGroups (updateDevice id g : Exec (System R) FlowError Unit) := by
    intro id g hg
    refine Keeps.read.bind fun s => (Keeps.require _ _).bind fun _ s hs id' => ?_
    by_cases he : id' = id
    · subst he
      simpa using hg _ (hs id')
    · simpa [he] using hs id'
  induction rules with
  | nil => exact Keeps.pure ()
  | cons p rest ih =>
    obtain ⟨hp, hrest⟩ := List.forall_mem_cons.mp h
    have hgroups : p.2.groups.map Prod.snd = [] := by rw [hp, List.map_nil]
    have hset : Keeps KeepsNoGroups (updateDeviceFlows p.1 (p.2.flows.map Prod.snd) :
        Exec (System R) FlowError Unit) := hdevice _ _ fun _ h => h
    have hset' : Keeps KeepsNoGroups (updateDeviceGroups p.1 (p.2.groups.map Prod.snd) :
        Exec (System R) FlowError Unit) := hdevice _ _ fun _ _ => hgroups
    exact hset.bind fun _ => hset'.bind fun _ => ih hrest

theorem install_groups {t : Topology R} {plan : Plan hash shortestPath t} {s : System R}
    (h : Settled plan s) :
    KeepsNoGroups s (TableSync.install hash shortestPath s) := by
  intro hs
  unfold TableSync.install
  have hrun : onAgent (TableSync.deviceRules hash shortestPath s.tables.flows s.tables.groups) s
      = (decomposeRules hash plan.agent.routeFor plan.rules s.tables.flows s.tables.groups,
        { s with agent := plan.agent }) := by
    unfold onAgent
    rw [h.deviceRules]
  cases hd : decomposeRules hash plan.agent.routeFor plan.rules s.tables.flows s.tables.groups with
  | error e =>
    rw [hd] at hrun
    rw [Exec.bind_error hrun]
    exact hs
  | ok rules =>
    rw [hd] at hrun
    rw [Exec.bind_ok hrun]
    exact storeRules_groups (decomposeRules_groups (plan_groups plan) _ _ rules hd) _ hs

/-! ## 最後の書き込み -/

section Follow

variable {t : Topology R} (plan : Plan hash shortestPath t)

/-- topology のどの device の表も、今の表を分解したものと、並びまで同じである。 -/
def Loaded (s : System R) : Prop :=
  ∀ device ∈ plan.rules.map Prod.fst, s.stored device
    = tablesOfRules (((plan.expected s.tables).lookup device).getD ⟨[], []⟩)

/-- 少なくとも一度は書いた後の状態。 -/
structure Written (s : System R) : Prop where
  settled : Settled plan s
  loaded : plan.Decomposable s.tables → Loaded plan s

variable {plan} {s s' : System R}

/-- 分解できる表を置いた後の device の表。 -/
theorem Settled.loaded (h : Settled plan s) (hd : plan.Decomposable s.tables) :
    Loaded plan (TableSync.install hash shortestPath s) := by
  have hrun : onAgent (TableSync.deviceRules hash shortestPath s.tables.flows s.tables.groups) s
      = (.ok (plan.expected s.tables), { s with agent := plan.agent }) := by
    unfold onAgent
    rw [h.deviceRules, decomposeRules_expected hd]
  unfold TableSync.install
  rw [bind_ok hrun, storeRules_apply (expected_known hd) _ rfl]
  intro device hdevice
  obtain ⟨r, hr⟩ := Option.isSome_iff_exists.mp
    (OrderedDict.lookup_isSome.mpr (mem_expected s.tables hdevice))
  simp only [hr, Option.map_some, Option.getD_some]

theorem Settled.write (h : Settled plan s) (hw : Write hash shortestPath s s') :
    Written plan s' := by
  obtain ⟨tables, rfl⟩ := hw
  have h₁ : Settled plan { s with tables } := h
  refine ⟨h₁.install.1, fun hd => h₁.loaded ?_⟩
  rwa [install_tables] at hd

/-- 何度書いても、最後の書き込みだけが残る。 -/
theorem Settled.writes (h : Settled plan s) (hw : Writes hash shortestPath s s') :
    s' = s ∨ Written plan s' := by
  induction hw with
  | refl => exact Or.inl rfl
  | tail _ hlast ih =>
    rcases ih with rfl | hmid
    · exact Or.inr (h.write hlast)
    · exact Or.inr (hmid.settled.write hlast)

theorem Written.run (h : Written plan s) (l : List TableRequest) :
    Written plan (l.foldl (TableSync.step hash shortestPath) s) := by
  induction l generalizing s with
  | nil => exact h
  | cons req l ih =>
    rcases h.settled.writes (exec_writes req s) with hsame | hlast
    · have hstep : TableSync.step hash shortestPath s req = s := hsame
      rw [List.foldl_cons, hstep]
      exact ih h
    · exact ih hlast

/-- 列は何も書かないか、最後に書いた表を残す。 -/
theorem Settled.run (h : Settled plan s) (l : List TableRequest) :
    l.foldl (TableSync.step hash shortestPath) s = s ∨
      Written plan (l.foldl (TableSync.step hash shortestPath) s) := by
  induction l generalizing s with
  | nil => exact Or.inl rfl
  | cons req l ih =>
    rcases h.writes (exec_writes req s) with hsame | hlast
    · have hstep : TableSync.step hash shortestPath s req = s := hsame
      rw [List.foldl_cons, hstep]
      exact ih h
    · exact Or.inr (Written.run hlast l)

/-- callback を含めた列は、logical device の表だけを見れば元の列である。 -/
theorem tables_run (plan : Plan hash shortestPath t) (l : List TableRequest) (s : System R) :
    (l.foldl (step hash shortestPath) s).tables = l.foldl (Tables.step hash) s.tables := by
  induction l generalizing s with
  | nil => rfl
  | cons req l ih =>
    have hproj : Projects System.tables (Follows plan) (exec hash shortestPath req)
      (req.exec hash) := exec_projects req
    rw [List.foldl_cons, List.foldl_cons, ih]
    exact congrArg (l.foldl (Tables.step hash)) (hproj s).2.1

/-- 空の表から始めて、列がどこかで表を変えていれば、一度は書いている。 -/
theorem written_of_changed (plan : Plan hash shortestPath t) (stored : String → Tables)
    {l l₁ : List TableRequest} (hl₁ : l₁ <+: l)
    (hchanged : l₁.foldl (Tables.step hash) Tables.empty ≠ Tables.empty) :
    Written plan
      (l.foldl (step hash shortestPath) ⟨AgentState.initial t, Tables.empty, stored⟩) := by
  obtain ⟨l₂, rfl⟩ := hl₁
  have hstart : Settled plan ⟨AgentState.initial t, Tables.empty, stored⟩ := ⟨rfl, Or.inl rfl⟩
  rw [List.foldl_append]
  rcases hstart.run l₁ with hsame | hmid
  · refine absurd ?_ hchanged
    rw [← tables_run plan l₁ ⟨AgentState.initial t, Tables.empty, stored⟩, hsame]
  · exact hmid.run l₂

end Follow

/--
**要求の列の後の device の表は、今の logical device の表だけで決まる。**

列がどこかで表を変えていて、今の表のどの flow も分解できるなら、途中で何が例外になっていても、topology の
どの device の表も、今の表を分解したものである。
-/
theorem device_tables_exact {t : Topology R} (plan : Plan hash shortestPath t)
    (stored : String → Tables) {l l₁ : List TableRequest} (hl₁ : l₁ <+: l)
    (hchanged : l₁.foldl (Tables.step hash) Tables.empty ≠ Tables.empty)
    (hd : plan.Decomposable (l.foldl (Tables.step hash) Tables.empty)) :
    let s := l.foldl (step hash shortestPath) ⟨AgentState.initial t, Tables.empty, stored⟩
    s.tables = l.foldl (Tables.step hash) Tables.empty ∧
      ∀ device ∈ plan.rules.map Prod.fst, s.stored device
        = tablesOfRules (((plan.expected (l.foldl (Tables.step hash) Tables.empty)).lookup
            device).getD ⟨[], []⟩) := by
  intro s
  have htables := tables_run plan l ⟨AgentState.initial t, Tables.empty, stored⟩
  have hloaded := (written_of_changed plan stored hl₁ hchanged).loaded (htables ▸ hd)
  refine ⟨htables, ?_⟩
  unfold Loaded at hloaded
  rw [htables] at hloaded
  exact hloaded

/-- flow を除く要求。 -/
def removeRequest (f : FlowStats) : TableRequest :=
  .flowMod ⟨f.cookie, 0, f.tableId, .deleteStrict, f.idleTimeout, f.hardTimeout, f.priority,
    OFPP_ANY, OFPG_ANY, f.flags, f.match, f.instructions⟩

/-- 経路の無い flow も、除かれた後には何も残さない。 -/
theorem device_tables_exact_recovered :
    let bad := upstreamFlow 999 101
    let l := [addRequest bad, addRequest (upstreamFlow 101 101), removeRequest bad]
    let s := l.foldl (step sampleHash ponPath) twoOnusSystem
    s.tables.flows = [upstreamFlow 101 101] ∧
      ∀ device ∈ ["olt", "onu1", "onu2"], s.stored device = tablesOfRules
        (((twoOnusPlan.expected s.tables).lookup device).getD ⟨[], []⟩) := by
  intro bad l s
  have hl : [addRequest bad] <+: l := List.prefix_append _ _
  have hchanged : [addRequest bad].foldl (Tables.step sampleHash) Tables.empty
      ≠ Tables.empty := by decide +kernel
  have hd : twoOnusPlan.Decomposable (l.foldl (Tables.step sampleHash) Tables.empty) := by
    unfold Plan.Decomposable
    decide +kernel
  obtain ⟨htables, hstored⟩ :=
    device_tables_exact twoOnusPlan (fun _ => Tables.empty) hl hchanged hd
  have hkeys : twoOnusPlan.rules.map Prod.fst = ["olt", "onu1", "onu2"] := by decide +kernel
  refine ⟨?_, fun device hdevice => ?_⟩
  · exact (congrArg Tables.flows htables).trans (by decide +kernel)
  · rw [show s.tables = _ from htables]
    exact hstored device (hkeys ▸ hdevice)

end Voltha.Core.TableSync
