import Voltha.Core.Properties.TableWrites
import Voltha.Ponsim.Forwarding

/-!
# controller の要求から frame の転送まで

logical device の表が書かれるたびに、変わった device の表が adapter を通して模擬の PON に送られる。
送り終えた PON の flow は、いつも device の表のものである（`Mirrored`）。

device の表は logical device の表だけで決まるので、どんな要求の列の後でも、frame の行き先は今の
logical device の表だけで決まる（`controller_to_wire`）。
-/

namespace Voltha.Ponsim

open Voltha.Flow Voltha.Core Voltha.Core.TableSync

variable {R : Type}

/-! ## PON へ送る -/

/-- `UpdateFlowTable(FlowTable(port, flows))`。 -/
def PonSim.updateFlowTable (sim : PonSim) (port : Nat) (flows : List FlowStats) :
    Except SimError PonSim :=
  -- by convention this is the olt port
  if port = 0 then .ok { sim with oltFlows := flows }
  else match sim.device port with
    | some (.onu i) => .ok { sim with onuFlows := sim.onuFlows.set i flows }
    | _ => .error (.flow .keyError)

/--
adapter の `update_flows_bulk(device, flows, groups)`。

OLT の port は 0、ONU の port は `proxy_address.channel_id` で、これは logical port の番号でもある。
-/
def updateFlowsBulk (T : PonTree R) (sim : PonSim) (id : String) (tables : Tables) :
    Except SimError PonSim :=
  if tables.groups ≠ [] then .error (.flow .assertionError)
  else if id = T.olt.id then sim.updateFlowTable 0 tables.flows
  else match T.onus.find? fun o => o.device.id = id with
    | some o => sim.updateFlowTable o.portNo.toNat tables.flows
    | none => .error (.flow .keyError)

/-- callback から送る。例外は、表を書いた側には伝わらない。 -/
def push (T : PonTree R) (sim : PonSim) (id : String) (tables : Tables) : PonSim :=
  match updateFlowsBulk T sim id tables with
  | .ok sim' => sim'
  | .error _ => sim

/-- `_flow_table_updated` と `_group_table_updated`。flow の表、group の表の順に書かれる。 -/
def pushChange (T : PonTree R) (before after : String → Tables) (sim : PonSim) (id : String) :
    PonSim :=
  let sim := if (after id).flows = (before id).flows then sim
    else push T sim id ⟨(after id).flows, (before id).groups⟩
  if (after id).groups = (before id).groups then sim else push T sim id (after id)

/-- OLT と ONU の id。 -/
def devicesOf (T : PonTree R) : List String := T.olt.id :: T.onus.map fun o => o.device.id

/-- 変わった表を送る。 -/
def pushChanges (T : PonTree R) (before after : String → Tables) (sim : PonSim) : PonSim :=
  (devicesOf T).foldl (pushChange T before after) sim

/-! ## 表と PON -/

/-- 表と、模擬の PON。 -/
structure Wired (R : Type) where
  system : System R
  sim : PonSim

/-- device ごとの flow を置いた模擬の PON。 -/
def simWith (T : PonTree R) (flows : String → List FlowStats) : PonSim :=
  ⟨flows T.olt.id, T.onus.map fun o => flows o.device.id⟩

namespace Wired

/-- 始めの状態。まだ flow は無い。 -/
def initial (T : PonTree R) (t : Topology R) : Wired R :=
  ⟨⟨AgentState.initial t, Tables.empty, fun _ => Tables.empty⟩, simWith T fun _ => []⟩

section Run

variable [DecidableEq R] (hash : FlowKey → Nat)
  (shortestPath : Graph R → NodeKey → NodeKey → Except FlowError (List NodeKey)) (T : PonTree R)

/-- 表を一度書く。変わった device の表は、その場で送られる。 -/
def Write (w w' : Wired R) : Prop :=
  TableSync.Write hash shortestPath w.system w'.system ∧
    w'.sim = pushChanges T w.system.stored w'.system.stored w.sim

/-- 一つの要求。書くたびに送られる。 -/
def Step (req : TableRequest) (w w' : Wired R) : Prop :=
  Relation.ReflTransGen (Write hash shortestPath T) w w' ∧
    w'.system = TableSync.step hash shortestPath w.system req

/-- 要求の列。 -/
inductive Run : List TableRequest → Wired R → Wired R → Prop where
  | nil (w : Wired R) : Run [] w w
  | cons {req : TableRequest} {l : List TableRequest} {w w₁ w₂ : Wired R}
    (step : Step hash shortestPath T req w w₁) (rest : Run l w₁ w₂) : Run (req :: l) w w₂

end Run

end Wired

/-- PON の flow は device の表のもので、device の表に group は無い。 -/
structure Mirrored (T : PonTree R) (w : Wired R) : Prop where
  sim : w.sim = simWith T fun id => (w.system.stored id).flows
  groups : ∀ id, (w.system.stored id).groups = []

/-- PON の木の番号。`ponsim_olt` と `ponsim_onu` が付けたものである。 -/
structure Numbered (T : PonTree R) (t : Topology R) : Prop where
  tree : T.Describes t
  typed : T.Typed t
  nniNo : T.nni.portNo = 2
  ponNo : T.pon.portNo = 1
  onuPonNo : ∀ o ∈ T.onus, o.pon.portNo = 1
  uniNo : ∀ o ∈ T.onus, o.uni.portNo = 2
  uniPortNo : ∀ i o, T.onus[i]? = some o → o.portNo.toNat = 128 + i
  rootPort : rootPortNo t = .ok T.portNo

/-! ## 送った後の PON -/

section Push

variable {T : PonTree R} {t : Topology R} {flows : String → List FlowStats} {id : String}
  {table : List FlowStats} {before after : String → Tables}

/-- ONU 一つの flow を置き換える。 -/
theorem updateFlowTable_onu (h : Numbered T t) {i : Nat} {o : Onu R} (hi : T.onus[i]? = some o) :
    (simWith T flows).updateFlowTable (128 + i) table
      = .ok (simWith T (Function.update flows o.device.id table)) := by
  have hlt : i < T.onus.length := (List.getElem?_eq_some_iff.mp hi).1
  have hdevice : (simWith T flows).device (128 + i) = some (.onu i) := by
    simp [PonSim.device, simWith, hlt]
  have hport : ¬ 128 + i = 0 := by omega
  have holt : T.olt.id ≠ o.device.id := (h.tree.olt_ne (List.mem_of_getElem? hi)).symm
  have honus : (T.onus.map fun o => flows o.device.id).set i table
      = T.onus.map fun o' => Function.update flows o.device.id table o'.device.id := by
    refine List.ext_getElem? fun j => ?_
    rw [List.getElem?_set, List.getElem?_map]
    by_cases hij : i = j
    · subst hij
      rw [if_pos rfl, List.getElem?_map, hi]
      simp [hlt]
    · rw [if_neg hij]
      cases hj : T.onus[j]? with
      | none => simp [hj]
      | some o' =>
        have hne : o'.device.id ≠ o.device.id := by
          intro hid
          have hnodup := (List.nodup_cons.mp h.tree.ids).2
          refine hij ((List.getElem?_inj (by simpa using hlt) hnodup).mp ?_)
          simp [hi, hj, hid]
        simp [hj, hne]
  rw [PonSim.updateFlowTable, if_neg hport, hdevice]
  simp [simWith, honus, holt]

/-- group の無い表を送ると、その device の flow だけが置き換わる。 -/
theorem push_simWith (h : Numbered T t) (hid : id ∈ devicesOf T) :
    push T (simWith T flows) id ⟨table, []⟩ = simWith T (Function.update flows id table) := by
  have hbulk : updateFlowsBulk T (simWith T flows) id ⟨table, []⟩
      = .ok (simWith T (Function.update flows id table)) := by
    unfold updateFlowsBulk
    rw [if_neg (not_not.mpr rfl)]
    rcases List.mem_cons.mp hid with rfl | hid
    · rw [if_pos rfl, PonSim.updateFlowTable, if_pos rfl]
      have honus : (T.onus.map fun o => flows o.device.id)
          = T.onus.map fun o => Function.update flows T.olt.id table o.device.id :=
        List.map_congr_left fun o ho => (Function.update_of_ne (h.tree.olt_ne ho) _ _).symm
      simp [simWith, honus]
    · obtain ⟨o, ho, rfl⟩ := List.mem_map.mp hid
      have hfind : (T.onus.find? fun o' => o'.device.id = o.device.id) = some o := by
        cases hf : T.onus.find? fun o' => o'.device.id = o.device.id with
        | none => exact absurd (List.find?_eq_none.mp hf o ho) (by simp)
        | some o' =>
          have hid' : o'.device.id = o.device.id := by simpa using List.find?_some hf
          rw [h.tree.onu_inj (List.mem_of_find?_eq_some hf) ho hid']
      obtain ⟨i, hi⟩ := List.getElem?_of_mem ho
      rw [if_neg (h.tree.olt_ne ho), hfind]
      dsimp only
      rw [h.uniPortNo i o hi, updateFlowTable_onu h hi]
  rw [push, hbulk]

theorem pushChange_simWith (h : Numbered T t) (hid : id ∈ devicesOf T)
    (hbefore : (before id).groups = []) (hafter : (after id).groups = [])
    (hflows : flows id = (before id).flows ∨ flows id = (after id).flows) :
    pushChange T before after (simWith T flows) id
      = simWith T (Function.update flows id (after id).flows) := by
  unfold pushChange
  dsimp only
  rw [hbefore, hafter, if_pos rfl]
  split
  · next hsame =>
    have hkept : (after id).flows = flows id := by
      rcases hflows with hflows | hflows
      · rw [hflows, hsame]
      · exact hflows.symm
    rw [hkept, Function.update_eq_self]
  · exact push_simWith h hid

/-- 送り終えると、PON の flow は後の表のものである。 -/
theorem foldl_pushChange (h : Numbered T t) (hbefore : ∀ id, (before id).groups = [])
    (hafter : ∀ id, (after id).groups = []) :
    ∀ (ids : List String) (flows : String → List FlowStats), (∀ id ∈ ids, id ∈ devicesOf T) →
      (∀ id, flows id = (before id).flows ∨ flows id = (after id).flows) →
      ids.foldl (pushChange T before after) (simWith T flows)
        = simWith T fun id => if id ∈ ids then (after id).flows else flows id
  | [], _, _, _ => by simp
  | id :: ids, flows, hids, hflows => by
    obtain ⟨hid, hids⟩ := List.forall_mem_cons.mp hids
    rw [List.foldl_cons, pushChange_simWith h hid (hbefore id) (hafter id) (hflows id),
      foldl_pushChange h hbefore hafter ids _ hids fun id' => ?_]
    · refine congrArg (simWith T) (funext fun id' => ?_)
      by_cases he : id' = id
      · subst he
        simp
      · simp [he]
    · by_cases he : id' = id
      · subst he
        exact .inr (Function.update_self _ _ _)
      · rw [Function.update_of_ne he]
        exact hflows id'

theorem pushChanges_simWith (h : Numbered T t) (hbefore : ∀ id, (before id).groups = [])
    (hafter : ∀ id, (after id).groups = []) :
    pushChanges T before after (simWith T fun id => (before id).flows)
      = simWith T fun id => (after id).flows := by
  rw [pushChanges, foldl_pushChange h hbefore hafter _ _ (fun _ hid => hid) fun _ => .inl rfl]
  have holt : T.olt.id ∈ devicesOf T := List.mem_cons_self
  have honu : ∀ o ∈ T.onus, o.device.id ∈ devicesOf T := fun o ho =>
    List.mem_cons_of_mem _ (List.mem_map.mpr ⟨o, ho, rfl⟩)
  have honus : (T.onus.map fun o => if o.device.id ∈ devicesOf T then (after o.device.id).flows
      else (before o.device.id).flows) = T.onus.map fun o => (after o.device.id).flows :=
    List.map_congr_left fun o ho => if_pos (honu o ho)
  rw [simWith, simWith, if_pos holt, honus]

end Push

/-! ## 要求の列 -/

section Writes

variable [DecidableEq R] {hash : FlowKey → Nat}
  {shortestPath : Graph R → NodeKey → NodeKey → Except FlowError (List NodeKey)} {T : PonTree R}
  {t : Topology R} {plan : Plan hash shortestPath t}

/-- 保たれること。 -/
structure Wired.Linked (T : PonTree R) (plan : Plan hash shortestPath t) (w : Wired R) : Prop where
  settled : Settled plan w.system
  mirrored : Mirrored T w

theorem Wired.Linked.write (hT : Numbered T t) {w w' : Wired R} (h : w.Linked T plan)
    (hw : Wired.Write hash shortestPath T w w') : w'.Linked T plan := by
  obtain ⟨⟨tables, hsystem⟩, hsim⟩ := hw
  have hs : Settled plan { w.system with tables } := h.settled
  have hgroups : ∀ id, (w'.system.stored id).groups = [] :=
    hsystem ▸ install_groups hs h.mirrored.groups
  refine ⟨hsystem ▸ hs.install.1, ⟨?_, hgroups⟩⟩
  rw [hsim, h.mirrored.sim]
  exact pushChanges_simWith hT h.mirrored.groups hgroups

theorem Wired.Linked.step (hT : Numbered T t) {req : TableRequest} {w w' : Wired R}
    (h : w.Linked T plan) (hw : Wired.Step hash shortestPath T req w w') : w'.Linked T plan := by
  obtain ⟨hwrites, -⟩ := hw
  induction hwrites with
  | refl => exact h
  | tail _ hlast ih => exact ih.write hT hlast

theorem Wired.Linked.run (hT : Numbered T t) {l : List TableRequest} {w w' : Wired R}
    (h : w.Linked T plan) (hrun : Wired.Run hash shortestPath T l w w') :
    w'.Linked T plan ∧ w'.system = l.foldl (TableSync.step hash shortestPath) w.system := by
  induction hrun with
  | nil w => exact ⟨h, rfl⟩
  | cons hstep _ ih =>
    obtain ⟨hlinked, hsystem⟩ := ih (h.step hT hstep)
    exact ⟨hlinked, by rw [hsystem, hstep.2, List.foldl_cons]⟩

omit [DecidableEq R] in
theorem Wired.initial_linked (T : PonTree R) (plan : Plan hash shortestPath t) :
    (Wired.initial T t).Linked T plan :=
  ⟨⟨rfl, Or.inl rfl⟩, ⟨rfl, fun _ => rfl⟩⟩

/-- 要求を処理する間に書いたものを、書くたびに送れる。 -/
theorem Wired.exists_step (req : TableRequest) (w : Wired R) :
    ∃ w', Wired.Step hash shortestPath T req w w' := by
  suffices h : ∀ s, Writes hash shortestPath w.system s →
      ∃ w', Relation.ReflTransGen (Wired.Write hash shortestPath T) w w' ∧ w'.system = s from
    h _ (exec_writes req w.system)
  intro s hs
  induction hs with
  | refl => exact ⟨w, .refl, rfl⟩
  | @tail s₁ s₂ _ hlast ih =>
    obtain ⟨mid, hmid, rfl⟩ := ih
    let w' : Wired R := ⟨s₂, pushChanges T mid.system.stored s₂.stored mid.sim⟩
    exact ⟨w', hmid.tail ⟨hlast, rfl⟩, rfl⟩

theorem Wired.exists_run (l : List TableRequest) (w : Wired R) :
    ∃ w', Wired.Run hash shortestPath T l w w' := by
  induction l generalizing w with
  | nil => exact ⟨w, .nil w⟩
  | cons req l ih =>
    obtain ⟨mid, hmid⟩ : ∃ mid, Wired.Step hash shortestPath T req w mid := Wired.exists_step req w
    obtain ⟨w', hw'⟩ := ih mid
    exact ⟨w', .cons hmid hw'⟩

/-! ## 分解した flow を置いた PON -/

omit [DecidableEq R] in
/-- 既定の規則は、どの device にもある。 -/
theorem Numbered.keys (hT : Numbered T t) (hsp : ReturnsShortest shortestPath)
    (plan : Plan hash shortestPath t)
    (hids : ∀ o ∈ T.onus, Collisionless hash (o.upRules hash ++ [o.downRule hash])) :
    ∀ id ∈ devicesOf T, id ∈ plan.rules.map Prod.fst := by
  have htables := hT.tree.tables hsp hT.typed hids plan.computed
  have hdefault : ∀ id, defaultFlows plan.rules id ≠ [] → id ∈ plan.rules.map Prod.fst := by
    intro id hne
    rw [← OrderedDict.lookup_isSome]
    unfold defaultFlows at hne
    cases hl : plan.rules.lookup id with
    | none =>
      rw [hl] at hne
      exact absurd rfl hne
    | some r => rfl
  intro id hid
  rcases List.mem_cons.mp hid with rfl | hid
  · refine hdefault _ ?_
    rw [htables.olt]
    exact List.cons_ne_nil _ _
  · obtain ⟨o, ho, rfl⟩ := List.mem_map.mp hid
    refine hdefault _ ?_
    rw [htables.onu o ho]
    exact List.cons_ne_nil _ _

theorem Numbered.deployed (hT : Numbered T t) (hsp : ReturnsShortest shortestPath)
    (plan : Plan hash shortestPath t) {tables : Tables} (hd : plan.Decomposable tables)
    (hmulticast : ∀ flow ∈ tables.flows, MulticastFromNni T flow)
    (holt : Collisionless hash ((oltTable T tables.flows).map (Entry.install hash)))
    (honu : ∀ o ∈ T.onus, Collisionless hash
      ((onuTable (groupDict tables.groups) o tables.flows).map (Entry.install hash))) :
    Deployed hash T plan.agent tables.flows tables.groups (plan.expected tables) where
  tree := hT.tree
  typed := hT.typed
  nniNo := hT.nniNo
  ponNo := hT.ponNo
  onuPonNo := hT.onuPonNo
  uniNo := hT.uniNo
  cached := rfl
  fresh := by
    refine ⟨shortestPath, hsp, fun routes hroutes => ?_⟩
    obtain rfl := Option.some.inj hroutes
    exact ⟨plan.rules, plan.nni, rfl, rfl, plan.computed⟩
  rootPort := by
    have hcomputed := plan.computed
    unfold tablesOf at hcomputed
    obtain ⟨⟨g, routes⟩, -, hcomputed⟩ := Py.bind_eq_ok.mp hcomputed
    obtain ⟨rules, -, hcomputed⟩ := Py.bind_eq_ok.mp hcomputed
    obtain ⟨nni, hnni, hcomputed⟩ := Py.bind_eq_ok.mp hcomputed
    have hport : T.portNo = plan.nni :=
      (Except.ok.inj (hT.rootPort.symm.trans hnni)).trans
        (congrArg (fun p => p.2.2) (Except.ok.inj hcomputed))
    exact congrArg Attr.value hport.symm
  multicast := hmulticast
  oltIds := holt
  onuIds := honu
  decomposed := ⟨plan.rules, rfl, decomposeRules_expected hd⟩

/-- 要求の列の後の PON には、今の表を分解した flow が置かれている。 -/
theorem Wired.Run.sim (hT : Numbered T t) (plan : Plan hash shortestPath t)
    (hkeys : ∀ id ∈ devicesOf T, id ∈ plan.rules.map Prod.fst) {l l₁ : List TableRequest}
    (hl₁ : l₁ <+: l) (hchanged : l₁.foldl (Tables.step hash) Tables.empty ≠ Tables.empty)
    {tables : Tables} (htables : l.foldl (Tables.step hash) Tables.empty = tables)
    (hd : plan.Decomposable tables) {w : Wired R}
    (hrun : Wired.Run hash shortestPath T l (Wired.initial T t) w) :
    w.sim = simOf T (plan.expected tables) := by
  obtain ⟨hlinked, hsystem⟩ := (Wired.initial_linked T plan).run hT hrun
  have hwritten := written_of_changed plan (fun _ => Tables.empty) hl₁ hchanged
  have hnow := tables_run plan l ⟨AgentState.initial t, Tables.empty, fun _ => Tables.empty⟩
  rw [htables] at hnow
  have hloaded := hwritten.loaded (hnow ▸ hd)
  have hflows : ∀ id ∈ devicesOf T,
      (w.system.stored id).flows = deviceFlows (plan.expected tables) id := by
    intro id hid
    rw [hsystem]
    refine (congrArg Tables.flows (hloaded id (hkeys id hid))).trans ?_
    rw [hnow, deviceFlows]
    cases (plan.expected tables).lookup id <;> rfl
  have holt := hflows T.olt.id List.mem_cons_self
  have honus : (T.onus.map fun o => (w.system.stored o.device.id).flows)
      = T.onus.map fun o => deviceFlows (plan.expected tables) o.device.id :=
    List.map_congr_left fun o ho =>
      hflows _ (List.mem_cons_of_mem _ (List.mem_map.mpr ⟨o, ho, rfl⟩))
  rw [hlinked.mirrored.sim, simWith, simOf, holt, honus]

/--
**controller の要求から、frame の行き先まで。**

どんな要求の列の後でも、表がどこかで変わっていて、残った flow がどれも分解できるなら、frame の行き先は
logical device の今の表だけで決まる。途中の要求が例外になっていても、分解できない flow が一時あっても、
後には残らない。

* UNI からの frame は、その ONU の `ingressTable` と OLT の `upstreamTable` を通って NNI から出る
* NNI からの frame は、OLT の `downstreamTable` を通り、ONU の `egressTable` を順に通って UNI から出る
-/
theorem controller_to_wire (hT : Numbered T t) (hsp : ReturnsShortest shortestPath)
    (plan : Plan hash shortestPath t) {l l₁ : List TableRequest} (hl₁ : l₁ <+: l)
    (hchanged : l₁.foldl (Tables.step hash) Tables.empty ≠ Tables.empty) {tables : Tables}
    (htables : l.foldl (Tables.step hash) Tables.empty = tables) (hd : plan.Decomposable tables)
    (hmulticast : ∀ flow ∈ tables.flows, MulticastFromNni T flow)
    (holt : Collisionless hash ((oltTable T tables.flows).map (Entry.install hash)))
    (honu : ∀ o ∈ T.onus, Collisionless hash
      ((onuTable (groupDict tables.groups) o tables.flows).map (Entry.install hash)))
    {w : Wired R} (hrun : Wired.Run hash shortestPath T l (Wired.initial T t) w) (depth : Nat)
    (frame : Frame) :
    (∀ i o, T.onus[i]? = some o → (w.sim.ingress (depth + 2) (128 + i) frame).delivered
      = (((through (ingressTable o tables.flows) frame).bind
          (through (upstreamTable T tables.flows))).map fun sent => (0, sent)).toList) ∧
    (w.sim.ingress (depth + 2) 0 frame).delivered
      = ((through (downstreamTable T tables.flows) frame).map
          (fanOut (fun o => egressTable (groupDict tables.groups) o tables.flows) 128
            T.onus)).getD [] := by
  have hdeployed := hT.deployed hsp plan hd hmulticast holt honu
  have hkeys := hT.keys hsp plan fun o ho => hdeployed.defaultIds ho
  rw [Wired.Run.sim hT plan hkeys hl₁ hchanged htables hd hrun]
  exact ⟨fun i o hi => hdeployed.upstream hi depth frame, hdeployed.downstream depth frame⟩

end Writes

/-! ## 二つの ONU -/

section Example

theorem ponsim_numbered : Numbered ponsimTree ponsimTopology where
  tree := ponsimTree_describes
  typed := ponsimTree_typed
  nniNo := rfl
  ponNo := rfl
  onuPonNo := by decide
  uniNo := by decide
  uniPortNo := by
    intro i o hi
    rcases i with _ | _ | i
    · obtain rfl := Option.some.inj hi
      rfl
    · obtain rfl := Option.some.inj hi
      rfl
    · cases hi
  rootPort := by decide +kernel

/-- 例の topology で計算した表。 -/
def ponsimPlan : Plan sampleHash someShortest ponsimTopology where
  routes := ponsimTree.pairs ponsimTree.ends
  rules := ponsimDefaults
  nni := 0
  computed := by
    obtain ⟨rules, nni, hrules, hnni, h⟩ := ponsimAgent_fresh _ rfl
    cases hrules
    cases hnni
    exact h

/-- group と、二人の加入者の flow を足す要求。経路の無い flow が、途中にだけある。 -/
def ponsimRequests : List TableRequest :=
  .groupMod ⟨.add, .all, 10, [⟨0, 0, 0, [popVlan, output 129]⟩]⟩ ::
    addRequest (upstreamFlow 999 101) :: ponsimFlows.map addRequest ++
      [removeRequest (upstreamFlow 999 101)]

/-- 要求を処理した後、UNI 128 からの frame は、外側の tag を付けて NNI から出る。 -/
theorem controller_to_wire_subscriber :
    ∃ w, Wired.Run sampleHash someShortest ponsimTree ponsimRequests
        (Wired.initial ponsimTree ponsimTopology) w ∧
      (w.sim.ingress 2 128 (subscriberFrame 0)).delivered = [(0, outerFrame)] := by
  obtain ⟨w, hrun⟩ := @Wired.exists_run Unit _ sampleHash someShortest ponsimTree ponsimRequests
    (Wired.initial ponsimTree ponsimTopology)
  refine ⟨w, hrun, ?_⟩
  have hl₁ : ponsimRequests.take 1 <+: ponsimRequests := List.take_prefix _ _
  have hchanged : (ponsimRequests.take 1).foldl (Tables.step sampleHash) Tables.empty
      ≠ Tables.empty := by decide +kernel
  have htables : ponsimRequests.foldl (Tables.step sampleHash) Tables.empty
      = ⟨ponsimFlows, [multicastGroup]⟩ := by decide +kernel
  have hd : ponsimPlan.Decomposable ⟨ponsimFlows, [multicastGroup]⟩ := by
    unfold Plan.Decomposable
    decide +kernel
  obtain ⟨hup, -⟩ := controller_to_wire ponsim_numbered someShortest_returnsShortest ponsimPlan hl₁
    hchanged htables hd (by decide +kernel) (by decide +kernel) (by decide +kernel) hrun 0
    (subscriberFrame 0)
  have honu : through (ingressTable (ponsimOnu "onu0" 128) ponsimFlows) (subscriberFrame 0)
      = some (subscriberFrame 128) := by
    have hbest := @best_head (subscriberFrame 0) [upUntagged (ponsimOnu "onu0" 128)]
      (upTagged (ponsimOnu "onu0" 128)) rfl (by decide)
    exact (through_of_best hbest rfl rfl).1
  have holt : through (upstreamTable ponsimTree ponsimFlows) (subscriberFrame 128)
      = some outerFrame := by
    have hbest := @best_of_outranked (subscriberFrame 128) [controllerRule trapFlow]
      [unicastRule (pushFlow 129 1001)] (unicastRule (pushFlow 128 1000)) (by decide) rfl
      (by decide)
    exact (through_of_best hbest rfl rfl).1
  rw [hup 0 (ponsimOnu "onu0" 128) rfl]
  show (((through (ingressTable (ponsimOnu "onu0" 128) ponsimFlows) (subscriberFrame 0)).bind
    (through (upstreamTable ponsimTree ponsimFlows))).map fun sent => (0, sent)).toList = _
  rw [honu, Option.bind_some, holt]
  rfl

end Example

end Voltha.Ponsim
