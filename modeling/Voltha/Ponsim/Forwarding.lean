import Voltha.Ponsim.Stage

/-!
# 模擬の PON での転送

logical device の flow を分解して模擬の PON に置いたとき、frame がどこから出るか。

* UNI から入った frame は、`ingressTable` と `upstreamTable` の二段を通って NNI から出る
  （`Deployed.upstream`）
* NNI から入った frame は、`downstreamTable` を通り、ONU の `egressTable` を順に通って
  UNI から出る（`Deployed.downstream`）。一つの frame の object を ONU が順に受け取る
-/

namespace Voltha.Ponsim

open Voltha.Flow Voltha.Core

variable {R : Type} {hash : FlowKey → Nat} {T : PonTree R} {t : Topology R} {o : Onu R}
  {flows : List FlowStats} {groupMap : List (UInt32 × GroupEntry)} {frame : Frame}

/-! ## 段の表 -/

/-- 一つの flow の、OLT の PON から NNI への規則。 -/
def upstreamRule (T : PonTree R) (flow : FlowStats) : List Rule :=
  if toController flow then [controllerRule flow]
  else if hasNextTable flow then []
  else if outPortOf flow = some T.portNo then [unicastRule flow]
  else []

/-- OLT の、PON から NNI への規則。どの UNI のものかは残らない。 -/
def upstreamTable (T : PonTree R) (flows : List FlowStats) : List Rule :=
  flows.flatMap (upstreamRule T)

/-- OLT の、NNI から PON への規則のうち、flow によるもの。 -/
def downstreamRules (T : PonTree R) (flows : List FlowStats) : List Rule :=
  flows.flatMap fun flow =>
    if toController flow then []
    else if hasNextTable flow then
      if inPortOf flow = some T.portNo then [unicastRule flow] else []
    else if outPortOf flow = none then [multicastRule flow]
    else []

/-- OLT の、NNI から PON への規則。 -/
def downstreamTable (T : PonTree R) (flows : List FlowStats) : List Rule :=
  oltDefault :: downstreamRules T flows

/-- ONU の、UNI から PON への規則のうち、flow によるもの。 -/
def ingressRules (o : Onu R) (flows : List FlowStats) : List Rule :=
  flows.flatMap fun flow =>
    if toController flow then []
    else if hasNextTable flow then
      if inPortOf flow = some o.portNo then [unicastRule flow] else []
    else []

/-- ONU の、UNI から PON への規則。 -/
def ingressTable (o : Onu R) (flows : List FlowStats) : List Rule :=
  upDefaults o ++ ingressRules o flows

/-- ONU の、PON から UNI への規則のうち、flow によるもの。 -/
def egressRules (groupMap : List (UInt32 × GroupEntry)) (o : Onu R) (flows : List FlowStats) :
    List Rule :=
  flows.flatMap fun flow =>
    if toController flow then []
    else if hasNextTable flow then []
    else if outPortOf flow = none then
      ((bucketPorts none (bucketsOf groupMap flow)).filter fun p => p.1 = some o.portNo).map
        fun p => bucketRule flow p.2
    else if outPortOf flow = some o.portNo then [unicastRule flow]
    else []

/-- ONU の、PON から UNI への規則。 -/
def egressTable (groupMap : List (UInt32 × GroupEntry)) (o : Onu R) (flows : List FlowStats) :
    List Rule :=
  downDefault o :: egressRules groupMap o flows

theorem rulesFrom_flatMap (port : UInt32) (place : FlowStats → List Entry)
    (flows : List FlowStats) :
    rulesFrom port (flows.flatMap place) = flows.flatMap fun flow => rulesFrom port (place flow) := by
  simp [rulesFrom, List.filter_flatMap, List.map_flatMap]

@[simp] theorem rulesFrom_nil (port : UInt32) : rulesFrom port [] = [] := rfl

theorem rulesFrom_map {α : Type} (port ingress egress : UInt32) (rule : α → Rule) (l : List α) :
    rulesFrom port (l.map fun a => ⟨ingress, egress, rule a⟩)
      = if ingress = port then l.map rule else [] := by
  unfold rulesFrom
  by_cases h : ingress = port <;> simp [List.filter_map, Function.comp_def, h]

theorem rulesFrom_singleton (port : UInt32) (e : Entry) :
    rulesFrom port [e] = if e.ingress = port then [e.rule] else [] := by
  unfold rulesFrom
  rw [List.filter_singleton]
  by_cases h : e.ingress = port <;> simp [h]

theorem rulesFrom_pon (h : T.nni.portNo ≠ T.pon.portNo) :
    rulesFrom T.pon.portNo (oltTable T flows) = upstreamTable T flows := by
  have hcons : rulesFrom T.pon.portNo (oltTable T flows)
      = rulesFrom T.pon.portNo (flows.flatMap (oltEntries T)) := by
    simp [rulesFrom, oltTable, h]
  rw [hcons, rulesFrom_flatMap]
  refine congrArg (flows.flatMap ·) (funext fun flow => ?_)
  cases hout : outPortOf flow with
  | none =>
    simp [oltEntries, upstreamRule, apply_ite (rulesFrom T.pon.portNo), rulesFrom_singleton, hout, h]
  | some port =>
    simp [oltEntries, upstreamRule, apply_ite (rulesFrom T.pon.portNo), rulesFrom_singleton, hout, h]

theorem rulesFrom_nni (h : T.nni.portNo ≠ T.pon.portNo) :
    rulesFrom T.nni.portNo (oltTable T flows) = downstreamTable T flows := by
  have hcons : rulesFrom T.nni.portNo (oltTable T flows)
      = oltDefault :: rulesFrom T.nni.portNo (flows.flatMap (oltEntries T)) := by
    simp [rulesFrom, oltTable]
  rw [hcons, rulesFrom_flatMap, downstreamTable, downstreamRules]
  refine congrArg (oltDefault :: flows.flatMap ·) (funext fun flow => ?_)
  simp [oltEntries, apply_ite (rulesFrom T.nni.portNo), rulesFrom_singleton, h.symm]

theorem rulesFrom_uni (h : o.pon.portNo ≠ o.uni.portNo) :
    rulesFrom o.uni.portNo (onuTable groupMap o flows) = ingressTable o flows := by
  have hcons : rulesFrom o.uni.portNo (onuTable groupMap o flows)
      = upDefaults o ++ rulesFrom o.uni.portNo (flows.flatMap (onuEntries groupMap o)) := by
    simp [rulesFrom, onuTable, upDefaults, h]
  rw [hcons, rulesFrom_flatMap, ingressTable, ingressRules]
  refine congrArg (upDefaults o ++ flows.flatMap ·) (funext fun flow => ?_)
  simp [onuEntries, apply_ite (rulesFrom o.uni.portNo), rulesFrom_singleton, rulesFrom_map, h]

theorem rulesFrom_onuPon (h : o.pon.portNo ≠ o.uni.portNo) :
    rulesFrom o.pon.portNo (onuTable groupMap o flows) = egressTable groupMap o flows := by
  have hcons : rulesFrom o.pon.portNo (onuTable groupMap o flows)
      = downDefault o :: rulesFrom o.pon.portNo (flows.flatMap (onuEntries groupMap o)) := by
    simp [rulesFrom, onuTable, upDefaults, h.symm]
  rw [hcons, rulesFrom_flatMap, egressTable, egressRules]
  refine congrArg (downDefault o :: flows.flatMap ·) (funext fun flow => ?_)
  simp [onuEntries, apply_ite (rulesFrom o.pon.portNo), rulesFrom_singleton, rulesFrom_map, h.symm]

/-! ## 規則の入口と出口 -/

/-- 二つの port の一方から他方への規則で、match field に `IN_PORT` は無い。 -/
structure Entry.Between (p q : UInt32) (e : Entry) : Prop where
  ports : (e.ingress = p ∧ e.egress = q) ∨ (e.ingress = q ∧ e.egress = p)
  fields : ∀ f ∈ e.rule.fields, f.type ≠ .inPort

theorem Rule.of_fields (flow : FlowStats) {drop : List OfbFieldType} (actions : List Action)
    (h : .inPort ∈ drop) : ∀ f ∈ (Rule.of flow drop actions).fields, f.type ≠ .inPort := by
  intro f hf htype
  have hdrop := (List.mem_filter.mp hf).2
  rw [htype] at hdrop
  exact of_decide_eq_true hdrop h

theorem oltTable_between : ∀ e ∈ oltTable T flows, e.Between T.pon.portNo T.nni.portNo := by
  intro e he
  rcases List.mem_cons.mp he with rfl | he
  · exact ⟨.inr ⟨rfl, rfl⟩, by simp [oltDefault, vlanVid, vlanPcp]⟩
  · obtain ⟨flow, -, he⟩ := List.mem_flatMap.mp he
    unfold oltEntries at he
    split_ifs at he with hcontroller hnext hin hnone hout
    · obtain rfl := List.mem_singleton.mp he
      exact ⟨.inl ⟨rfl, rfl⟩, Rule.of_fields flow _ (by simp)⟩
    · obtain rfl := List.mem_singleton.mp he
      exact ⟨.inr ⟨rfl, rfl⟩, Rule.of_fields flow _ (by simp)⟩
    · exact absurd he List.not_mem_nil
    · obtain rfl := List.mem_singleton.mp he
      exact ⟨.inr ⟨rfl, rfl⟩, Rule.of_fields flow _ (by simp)⟩
    · obtain rfl := List.mem_singleton.mp he
      exact ⟨.inl ⟨rfl, rfl⟩, Rule.of_fields flow _ (by simp)⟩
    · exact absurd he List.not_mem_nil

theorem onuTable_between : ∀ e ∈ onuTable groupMap o flows, e.Between o.pon.portNo o.uni.portNo := by
  intro e he
  rcases List.mem_append.mp he with he | he
  · obtain ⟨r, hr, rfl⟩ := List.mem_map.mp he
    refine ⟨.inr ⟨rfl, rfl⟩, ?_⟩
    simp only [upDefaults, List.mem_cons, List.not_mem_nil, or_false] at hr
    rcases hr with rfl | rfl <;> simp [upTagged, upUntagged, vlanVid]
  · rcases List.mem_cons.mp he with rfl | he
    · exact ⟨.inl ⟨rfl, rfl⟩, by simp [downDefault, vlanVid]⟩
    · obtain ⟨flow, -, he⟩ := List.mem_flatMap.mp he
      unfold onuEntries at he
      split_ifs at he with hcontroller hnext hin hnone hout
      · exact absurd he List.not_mem_nil
      · obtain rfl := List.mem_singleton.mp he
        exact ⟨.inr ⟨rfl, rfl⟩, Rule.of_fields flow _ (by simp)⟩
      · exact absurd he List.not_mem_nil
      · obtain ⟨p, -, rfl⟩ := List.mem_map.mp he
        exact ⟨.inl ⟨rfl, rfl⟩, Rule.of_fields flow _ (by simp)⟩
      · obtain rfl := List.mem_singleton.mp he
        exact ⟨.inl ⟨rfl, rfl⟩, Rule.of_fields flow _ (by simp)⟩
      · exact absurd he List.not_mem_nil

/-! ## 置いた後の模擬の PON -/

/-- 分解した flow を置いた模擬の PON。ONU の並びは、UNI の番号の順である。 -/
def simOf (T : PonTree R) (rules : Rules) : PonSim :=
  ⟨deviceFlows rules T.olt.id, T.onus.map fun o => deviceFlows rules o.device.id⟩

/-- `T` の logical device の `flows` を、覚えている表で分解した結果が `rules` である。
device の port は `ponsim_olt` と `ponsim_onu` が付けた番号である。 -/
structure Deployed [DecidableEq R] (hash : FlowKey → Nat) (T : PonTree R) (s : AgentState R)
    (flows : List FlowStats) (groups : List GroupEntry) (rules : Rules) : Prop where
  tree : T.Describes s.tree
  typed : T.Typed s.tree
  nniNo : T.nni.portNo = 2
  ponNo : T.pon.portNo = 1
  onuPonNo : ∀ o ∈ T.onus, o.pon.portNo = 1
  uniNo : ∀ o ∈ T.onus, o.uni.portNo = 2
  cached : s.routes.isSome
  fresh : ∃ shortestPath, ReturnsShortest shortestPath ∧ s.Fresh hash shortestPath
  rootPort : s.nniLogicalPortNo = .value T.portNo
  multicast : ∀ flow ∈ flows, MulticastFromNni T flow
  oltIds : Collisionless hash ((oltTable T flows).map (Entry.install hash))
  onuIds : ∀ o ∈ T.onus,
    Collisionless hash ((onuTable (groupDict groups) o flows).map (Entry.install hash))
  decomposed : ∃ defaults, s.defaultRules = .value defaults ∧
    decomposeRules hash s.routeFor defaults flows groups = .ok rules

theorem onuTable_eq : onuTable groupMap o flows
    = ((upDefaults o).map (Entry.mk o.uni.portNo o.pon.portNo) ++
        [Entry.mk o.pon.portNo o.uni.portNo (downDefault o)])
      ++ flows.flatMap (onuEntries groupMap o) := by
  rw [onuTable, List.append_assoc, List.singleton_append]

section Deployed

variable [DecidableEq R] {s : AgentState R} {groups : List GroupEntry} {rules : Rules}

theorem Deployed.defaultIds (h : Deployed hash T s flows groups rules) (ho : o ∈ T.onus) :
    Collisionless hash (o.upRules hash ++ [o.downRule hash]) := by
  have hsub : ∀ f ∈ o.upRules hash ++ [o.downRule hash],
      f ∈ (onuTable (groupDict groups) o flows).map (Entry.install hash) := by
    intro f hf
    rw [onuTable_eq, List.map_append]
    exact List.mem_append_left _ hf
  exact fun x hx y hy hxy => h.onuIds o ho x (hsub x hx) y (hsub y hy) hxy

theorem Deployed.tables (h : Deployed hash T s flows groups rules) :
    ∃ routes defaults, T.Tables hash routes defaults ∧
      decomposeRules hash (T.agent s.tree routes defaults).routeFor defaults flows groups
        = .ok rules := by
  obtain ⟨routes, hroutes⟩ := Option.isSome_iff_exists.mp h.cached
  obtain ⟨shortestPath, hsp, hfresh⟩ := h.fresh
  obtain ⟨defaults, nni, hdefaults, hnni, htables⟩ := hfresh routes hroutes
  obtain ⟨defaults', hdefaults', hok⟩ := h.decomposed
  obtain rfl : defaults = defaults' := Attr.value.inj (hdefaults.symm.trans hdefaults')
  have hagent : s = T.agent s.tree routes defaults := by
    rw [PonTree.agent, ← hroutes, ← hdefaults, ← h.rootPort]
  rw [hagent] at hok
  exact ⟨routes, defaults, h.tree.tables hsp h.typed (fun o ho => h.defaultIds ho) htables, hok⟩

/-- OLT に置かれた flow を引く。 -/
theorem Deployed.processFrame_olt (h : Deployed hash T s flows groups rules) {port exit : UInt32}
    (hexit : ∀ e ∈ oltTable T flows, e.ingress = port → e.egress = exit) :
    processFrame (installFlows (deviceFlows rules T.olt.id)) port frame
      = (stage (rulesFrom port (oltTable T flows)) frame).map
        (Option.map fun frames => (some exit, frames)) := by
  obtain ⟨routes, defaults, htables, hok⟩ := h.tables
  have hids := h.oltIds
  have hfields : ∀ e ∈ oltTable T flows, ∀ f ∈ e.rule.fields, f.type ≠ .inPort :=
    fun e he => (oltTable_between e he).fields
  rw [oltTable, ← List.singleton_append] at hids hexit hfields ⊢
  rw [deviceFlows_olt h.tree htables h.multicast hok]
  exact processFrame_installed hfields hexit hids

/-- ONU に置かれた flow を引く。 -/
theorem Deployed.processFrame_onu (h : Deployed hash T s flows groups rules) (ho : o ∈ T.onus)
    {port exit : UInt32}
    (hexit : ∀ e ∈ onuTable (groupDict groups) o flows, e.ingress = port → e.egress = exit) :
    processFrame (installFlows (deviceFlows rules o.device.id)) port frame
      = (stage (rulesFrom port (onuTable (groupDict groups) o flows)) frame).map
        (Option.map fun frames => (some exit, frames)) := by
  obtain ⟨routes, defaults, htables, hok⟩ := h.tables
  have hids := h.onuIds o ho
  have hfields : ∀ e ∈ onuTable (groupDict groups) o flows, ∀ f ∈ e.rule.fields, f.type ≠ .inPort :=
    fun e he => (onuTable_between e he).fields
  rw [onuTable_eq] at hids hexit hfields ⊢
  rw [deviceFlows_onu h.tree htables ho h.multicast hok]
  exact processFrame_installed hfields hexit hids

/-! ### 四つの port -/

theorem Deployed.ne (h : Deployed hash T s flows groups rules) :
    T.nni.portNo ≠ T.pon.portNo ∧ ∀ o ∈ T.onus, o.pon.portNo ≠ o.uni.portNo := by
  refine ⟨by rw [h.nniNo, h.ponNo]; decide, fun o ho => ?_⟩
  rw [h.onuPonNo o ho, h.uniNo o ho]
  decide

theorem Deployed.olt_pon (h : Deployed hash T s flows groups rules) (frame : Frame) :
    processFrame (installFlows (deviceFlows rules T.olt.id)) 1 frame
      = (stage (upstreamTable T flows) frame).map (Option.map fun frames => (some 2, frames)) := by
  have hne := h.ne.1
  rw [← rulesFrom_pon hne, ← h.ponNo, ← h.nniNo]
  refine h.processFrame_olt fun e he hport => ?_
  rcases (oltTable_between e he).ports with ⟨-, hexit⟩ | ⟨hingress, -⟩
  · exact hexit
  · exact absurd (hingress.symm.trans hport) hne

theorem Deployed.olt_nni (h : Deployed hash T s flows groups rules) (frame : Frame) :
    processFrame (installFlows (deviceFlows rules T.olt.id)) 2 frame
      = (stage (downstreamTable T flows) frame).map
        (Option.map fun frames => (some 1, frames)) := by
  have hne := h.ne.1
  rw [← rulesFrom_nni hne, ← h.ponNo, ← h.nniNo]
  refine h.processFrame_olt fun e he hport => ?_
  rcases (oltTable_between e he).ports with ⟨hingress, -⟩ | ⟨-, hexit⟩
  · exact absurd (hport.symm.trans hingress) hne
  · exact hexit

theorem Deployed.onu_uni (h : Deployed hash T s flows groups rules) (ho : o ∈ T.onus)
    (frame : Frame) : processFrame (installFlows (deviceFlows rules o.device.id)) 2 frame
      = (stage (ingressTable o flows) frame).map (Option.map fun frames => (some 1, frames)) := by
  have hne := h.ne.2 o ho
  rw [← rulesFrom_uni hne, ← h.onuPonNo o ho, ← h.uniNo o ho]
  refine h.processFrame_onu ho fun e he hport => ?_
  rcases (onuTable_between e he).ports with ⟨hingress, -⟩ | ⟨-, hexit⟩
  · exact absurd (hingress.symm.trans hport) hne
  · exact hexit

theorem Deployed.onu_pon (h : Deployed hash T s flows groups rules) (ho : o ∈ T.onus)
    (frame : Frame) : processFrame (installFlows (deviceFlows rules o.device.id)) 1 frame
      = (stage (egressTable (groupDict groups) o flows) frame).map
        (Option.map fun frames => (some 2, frames)) := by
  have hne := h.ne.2 o ho
  rw [← rulesFrom_onuPon hne, ← h.onuPonNo o ho, ← h.uniNo o ho]
  refine h.processFrame_onu ho fun e he hport => ?_
  rcases (onuTable_between e he).ports with ⟨-, hexit⟩ | ⟨hingress, -⟩
  · exact hexit
  · exact absurd (hport.symm.trans hingress) hne

/-! ## 上り -/

/-- 段を出る frame。合う規則が無いか、例外になれば出ない。 -/
def through (rules : List Rule) (frame : Frame) : Option Frame :=
  ((stage rules frame).toOption.bind id).map Frames.current

/-- 段の後の、受け取った frame の object。 -/
def left (rules : List Rule) (frame : Frame) : Except SimError Frame :=
  (stage rules frame).map fun found => (found.map Frames.received).getD frame

omit [DecidableEq R] in
theorem through_of_best {rules : List Rule} {r : Rule} {frames : Frames}
    (h : Precedence.Best Rule.rank (MatchTable.Stops (Rule.isMatch frame)) rules r)
    (hmatch : r.isMatch frame = .ok true) (hrun : r.run frame = .ok frames) :
    through rules frame = some frames.current ∧ left rules frame = .ok frames.received := by
  unfold through left
  rw [stage_of_best h hmatch, hrun]
  exact ⟨rfl, rfl⟩

theorem forward_ingress (call : Device → UInt32 → Frame → Run) (device : Device) (port : UInt32)
    (frame : Frame) :
    (forward call [.ingress device port] frame).delivered = (call device port frame).delivered := by
  rw [forward, Run.andThen]
  cases (call device port frame).result with
  | error e => rfl
  | ok sent => exact List.append_nil _

/-- device の中の段を通った frame が、port の先に渡る。 -/
theorem delivered_of_stage {sim : PonSim} {device : Device} {port exit : UInt32} {depth : Nat}
    {table : List Rule} (h : processFrame (sim.flows device) port frame
      = (stage table frame).map (Option.map fun frames => (some exit, frames))) :
    (sim.deviceIngress (depth + 1) device port frame).delivered
      = ((through table frame).map fun sent =>
          (forward (sim.deviceIngress depth) (sim.links device exit) sent).delivered).getD [] := by
  unfold PonSim.deviceIngress through
  rw [h]
  cases stage table frame with
  | error e => rfl
  | ok found =>
    cases found with
    | none => rfl
    | some frames => rfl

/-- UNI から入った frame は、ONU の段と OLT の段を通って NNI から出る。 -/
theorem Deployed.upstream (h : Deployed hash T s flows groups rules) {i : Nat}
    (hi : T.onus[i]? = some o) (depth : Nat) (frame : Frame) :
    ((simOf T rules).ingress (depth + 2) (128 + i) frame).delivered
      = (((through (ingressTable o flows) frame).bind (through (upstreamTable T flows))).map
          fun sent => (0, sent)).toList := by
  have ho : o ∈ T.onus := List.mem_of_getElem? hi
  have hlt : i < T.onus.length := (List.getElem?_eq_some_iff.mp hi).1
  have hdevice : (simOf T rules).device (128 + i) = some (.onu i) := by
    simp [PonSim.device, simOf, hlt]
  have huni : (simOf T rules).flows (.onu i) = installFlows (deviceFlows rules o.device.id) := by
    simp [PonSim.flows, simOf, List.getD_eq_getElem?_getD, hi]
  have hnni : (simOf T rules).flows .olt = installFlows (deviceFlows rules T.olt.id) := rfl
  unfold PonSim.ingress
  rw [hdevice]
  show ((simOf T rules).deviceIngress (depth + 2) (.onu i) 2 frame).delivered = _
  rw [delivered_of_stage (by rw [huni]; exact h.onu_uni ho frame)]
  cases through (ingressTable o flows) frame with
  | none => rfl
  | some sent =>
    have hlinks : (simOf T rules).links (.onu i) 1 = [.ingress .olt 1] := rfl
    rw [Option.map_some, Option.getD_some, Option.bind_some, hlinks, forward_ingress,
      delivered_of_stage (by rw [hnni]; exact h.olt_pon sent)]
    cases through (upstreamTable T flows) sent with
    | none => rfl
    | some out => rfl

/-! ## 下り -/

omit [DecidableEq R] in
/-- UNI の番号 `port` からの ONU が、同じ frame の object を順に受け取る。 -/
def fanOut (table : Onu R → List Rule) : Nat → List (Onu R) → Frame → List (Nat × Frame)
  | _, [], _ => []
  | port, o :: rest, frame =>
    ((through (table o) frame).map fun sent => (port, sent)).toList ++
      match left (table o) frame with
      | .error _ => []
      | .ok rewritten => fanOut table (port + 1) rest rewritten

omit [DecidableEq R] in
theorem uniFrames_of_stage {table : List FlowStats} {rules : List Rule}
    (h : processFrame (installFlows table) 1 frame
      = (stage rules frame).map (Option.map fun frames => (some 2, frames))) :
    uniFrames table frame = (through rules frame).toList := by
  unfold uniFrames through
  rw [h]
  cases stage rules frame with
  | error e => rfl
  | ok found => cases found <;> rfl

omit [DecidableEq R] in
theorem leaves_of_stage {table : List FlowStats} {rules : List Rule}
    (h : processFrame (installFlows table) 1 frame
      = (stage rules frame).map (Option.map fun frames => (some 2, frames))) :
    leaves table frame = left rules frame := by
  unfold leaves left
  rw [h]
  cases stage rules frame with
  | error e => rfl
  | ok found => cases found <;> rfl

/-- ONU は、PON から来た frame を PON へ送り返さない。 -/
theorem Deployed.neverBack (h : Deployed hash T s flows groups rules) (ho : o ∈ T.onus) :
    NeverBack (deviceFlows rules o.device.id) := by
  intro frame egressPort frames hproc
  rw [h.onu_pon ho] at hproc
  cases hstage : stage (egressTable (groupDict groups) o flows) frame with
  | error e =>
    rw [hstage] at hproc
    cases hproc
  | ok found =>
    rw [hstage] at hproc
    cases found with
    | none => cases hproc
    | some found =>
      cases hproc
      decide

theorem Deployed.visit_delivered (h : Deployed hash T s flows groups rules) :
    ∀ (onus : List (Onu R)) (k : Nat) (frame : Frame), (∀ o ∈ onus, o ∈ T.onus) →
      (visit k (onus.map fun o => deviceFlows rules o.device.id) frame).delivered
        = fanOut (fun o => egressTable (groupDict groups) o flows) (128 + k) onus frame
  | [], _, _, _ => rfl
  | o :: rest, k, frame, hmem => by
    obtain ⟨ho, hrest⟩ := List.forall_mem_cons.mp hmem
    have hproc := h.onu_pon ho frame
    rw [List.map_cons, visit, uniFrames_of_stage hproc, leaves_of_stage hproc, fanOut]
    cases through (egressTable (groupDict groups) o flows) frame <;>
      cases left (egressTable (groupDict groups) o flows) frame <;>
      simp [Run.andThen, h.visit_delivered rest (k + 1) _ hrest, Nat.add_assoc]

omit [DecidableEq R] in
/-- どの規則にも合わない ONU は、無いのと同じである。 -/
theorem fanOut_append {table : Onu R → List Rule} {before : List (Onu R)} (rest : List (Onu R))
    (port : Nat) (h : ∀ o ∈ before, stage (table o) frame = .ok none) :
    fanOut table port (before ++ rest) frame = fanOut table (port + before.length) rest frame := by
  induction before generalizing port with
  | nil => rfl
  | cons o before ih =>
    obtain ⟨ho, hbefore⟩ := List.forall_mem_cons.mp h
    have hthrough : through (table o) frame = none := by
      rw [through, ho]
      rfl
    have hleft : left (table o) frame = .ok frame := by
      rw [left, ho]
      rfl
    rw [List.cons_append, fanOut, hthrough, hleft, Option.map_none, Option.toList_none,
      List.nil_append, List.length_cons, Nat.add_comm before.length 1, ← Nat.add_assoc]
    exact ih (port + 1) hbefore

omit [DecidableEq R] in
/-- 一つの ONU だけが通す。 -/
theorem fanOut_single {table : Onu R → List Rule} {onus : List (Onu R)} {i : Nat} (port : Nat)
    (hi : onus[i]? = some o) (hbefore : ∀ o' ∈ onus.take i, stage (table o') frame = .ok none)
    (hafter : ∀ rewritten, left (table o) frame = .ok rewritten →
      ∀ o' ∈ onus.drop (i + 1), stage (table o') rewritten = .ok none) :
    fanOut table port onus frame
      = ((through (table o) frame).map fun sent => (port + i, sent)).toList := by
  obtain ⟨hlt, hget⟩ := List.getElem?_eq_some_iff.mp hi
  have hsplit : onus = onus.take i ++ o :: onus.drop (i + 1) := by
    rw [← hget, ← List.drop_eq_getElem_cons hlt, List.take_append_drop]
  rw [hsplit, fanOut_append _ _ hbefore, fanOut, List.length_take, Nat.min_eq_left hlt.le]
  cases hleft : left (table o) frame with
  | error e => exact List.append_nil _
  | ok rewritten =>
    have hrest := fanOut_append [] (port + i + 1) (hafter rewritten hleft)
    rw [List.append_nil] at hrest
    dsimp only
    rw [hrest]
    exact List.append_nil _

/-- NNI から入った frame は、OLT の段を通り、ONU の段を順に通って UNI から出る。 -/
theorem Deployed.downstream (h : Deployed hash T s flows groups rules) (depth : Nat)
    (frame : Frame) : ((simOf T rules).ingress (depth + 2) 0 frame).delivered
      = ((through (downstreamTable T flows) frame).map
          (fanOut (fun o => egressTable (groupDict groups) o flows) 128 T.onus)).getD [] := by
  have hnni : (simOf T rules).flows .olt = installFlows (deviceFlows rules T.olt.id) := rfl
  show ((simOf T rules).deviceIngress (depth + 2) .olt 2 frame).delivered = _
  rw [delivered_of_stage (by rw [hnni]; exact h.olt_nni frame)]
  cases through (downstreamTable T flows) frame with
  | none => rfl
  | some sent =>
    have hlinks : (simOf T rules).links .olt 1
        = (List.range' 0 (simOf T rules).onuFlows.length).map fun i => .ingress (.onu i) 1 := by
      rw [← List.range_eq_range']
      rfl
    have hback : ∀ table ∈ (simOf T rules).onuFlows, NeverBack table := by
      intro table htable
      obtain ⟨o, ho, rfl⟩ := List.mem_map.mp htable
      exact h.neverBack ho
    rw [Option.map_some, Option.getD_some, Option.map_some, Option.getD_some, hlinks,
      forward_onus (simOf T rules) depth hback (simOf T rules).onuFlows 0 sent rfl]
    exact h.visit_delivered T.onus 0 sent fun o ho => ho

/-! ## 加入者の分離 -/

omit [DecidableEq R] in
/-- その UNI の flow と、`IN_PORT` の無い flow。 -/
def ownFlows (o : Onu R) (flows : List FlowStats) : List FlowStats :=
  flows.filter fun flow => inPortOf flow = some o.portNo ∨ inPortOf flow = none

/--
**上りの frame は、logical device の flow のとおりに NNI から出る。**

OLT の規則にはどの UNI のものかが残らないので、他の UNI の flow が、ONU の段を出た frame に合わない
ことが要る。
-/
theorem upstream_isolated (h : Deployed hash T s flows groups rules) {i : Nat}
    (hi : T.onus[i]? = some o)
    (hothers : ∀ sent, through (ingressTable o flows) frame = some sent → ∀ flow ∈ flows,
      ¬(inPortOf flow = some o.portNo ∨ inPortOf flow = none) →
      ∀ r ∈ upstreamRule T flow, r.isMatch sent = .ok false) (depth : Nat) :
    ((simOf T rules).ingress (depth + 2) (128 + i) frame).delivered
      = (((through (ingressTable o flows) frame).bind
          (through (upstreamTable T (ownFlows o flows)))).map fun sent => (0, sent)).toList := by
  rw [h.upstream hi]
  cases hsent : through (ingressTable o flows) frame with
  | none => rfl
  | some sent =>
    have hstage := stage_flatMap_filter (hothers sent hsent)
    rw [Option.bind_some, Option.bind_some, through, through, upstreamTable, upstreamTable, ownFlows,
      hstage]

/--
**下りの frame は、合う flow の ONU の UNI からだけ出る。**

OLT の先では ONU が同じ frame の object を順に受け取るので、前の ONU の規則は送られた frame に、後の
ONU の規則はその ONU が残した frame に合わないことが要る。
-/
theorem downstream_isolated (h : Deployed hash T s flows groups rules) {i : Nat}
    (hi : T.onus[i]? = some o) {sent : Frame}
    (hsent : through (downstreamTable T flows) frame = some sent)
    (hbefore : ∀ o' ∈ T.onus.take i, ∀ r ∈ egressTable (groupDict groups) o' flows,
      r.isMatch sent = .ok false)
    (hafter : ∀ rewritten, left (egressTable (groupDict groups) o flows) sent = .ok rewritten →
      ∀ o' ∈ T.onus.drop (i + 1), ∀ r ∈ egressTable (groupDict groups) o' flows,
        r.isMatch rewritten = .ok false) (depth : Nat) :
    ((simOf T rules).ingress (depth + 2) 0 frame).delivered
      = ((through (egressTable (groupDict groups) o flows) sent).map
          fun out => (128 + i, out)).toList := by
  rw [h.downstream, hsent, Option.map_some, Option.getD_some]
  refine fanOut_single 128 hi (fun o' ho' => stage_of_none (hbefore o' ho')) ?_
  exact fun rewritten hleft o' ho' => stage_of_none (hafter rewritten hleft o' ho')

end Deployed

/-! ## 二つの ONU -/

section Example

/-- `ponsim_onu` の付ける port と logical port。 -/
def ponsimOnu (id : String) (channelId : UInt32) : Onu Unit :=
  ⟨⟨id, true, channelId, ()⟩,
    ⟨1, "PON port", .ponOnu, .enabled, .active, id, [⟨"olt", 1⟩]⟩,
    ⟨2, "UNI facing Ethernet port", .ethernetUni, .enabled, .active, id, []⟩, channelId⟩

/-- `ponsim_olt` の付ける port と logical port。 -/
def ponsimTree : PonTree Unit where
  olt := ⟨"olt", true, 0, ()⟩
  nni := ⟨2, "NNI facing Ethernet port", .ethernetNni, .enabled, .active, "olt", []⟩
  pon := ⟨1, "PON port", .ponOlt, .enabled, .active, "olt", [⟨"onu0", 1⟩, ⟨"onu1", 1⟩]⟩
  portNo := 0
  onus := [ponsimOnu "onu0" 128, ponsimOnu "onu1" 129]

def ponsimTopology : Topology Unit where
  rootDeviceId := "olt"
  logicalPorts := [⟨"nni", 0, "olt", 2, true⟩, ⟨"uni-128", 128, "onu0", 2, false⟩,
    ⟨"uni-129", 129, "onu1", 2, false⟩]
  devices := (ponsimTree.olt, [ponsimTree.nni, ponsimTree.pon]) ::
    ponsimTree.onus.map fun o => (o.device, [o.uni, o.pon])

theorem ponsimTree_describes : ponsimTree.Describes ponsimTopology where
  olt := by decide
  oltPorts := ⟨_, rfl, by decide⟩
  onu := by decide
  onuPorts := by
    intro o ho
    simp only [ponsimTree, List.mem_cons, List.not_mem_nil, or_false] at ho
    rcases ho with rfl | rfl
    · exact ⟨_, rfl, by decide⟩
    · exact ⟨_, rfl, by decide⟩
  nniPeers := rfl
  ponPeers := by decide
  onuPonPeers := by decide
  uniPeers := by decide
  logicalPorts := by decide
  ids := by decide
  oltPortNo := by decide
  onuPortNo := by decide
  portNos := by decide

theorem ponsimTree_typed : ponsimTree.Typed ponsimTopology := ⟨rfl, rfl, rfl, by decide, by decide⟩

/-- 別の table へ続ける flow。 -/
def goto (flow : FlowStats) : FlowStats :=
  { flow with instructions := flow.instructions ++ [⟨OFPIT_GOTO_TABLE, .gotoTable 1⟩] }

/-- EAPOL を controller へ送る flow。 -/
def trapFlow : FlowStats :=
  mkFlowStat sampleHash [inPort 128, intField .ethType 0x888e] [output OFPP_CONTROLLER] 2000 0

/-- 加入者の上りの flow。外側に tag `vid` を付ける。 -/
def pushFlow (port vid : UInt32) : FlowStats :=
  mkFlowStat sampleHash [inPort port, vlanVid (OFPVID_PRESENT ||| port)]
    [pushVlan 0x8100, setField (vlanVid (OFPVID_PRESENT ||| vid)), output 0] 500 0

/-- 外側の tag 1000 を外して続ける flow。 -/
def outerPopFlow : FlowStats :=
  goto (mkFlowStat sampleHash [inPort 0, vlanVid (OFPVID_PRESENT ||| 1000)] [popVlan] 500 0)

/-- 二人の加入者の flow。UNI 128 の外側の tag は 1000 である。 -/
def subscriberFlows : List FlowStats := [pushFlow 128 1000, pushFlow 129 1001,
  outerPopFlow,
  mkFlowStat sampleHash [inPort 0, vlanVid (OFPVID_PRESENT ||| 128)]
    [setField (vlanVid (OFPVID_PRESENT ||| 0)), output 128] 500 0]

/-- tag 140 の multicast を group 10 へ送る flow。 -/
def multicastFlow : FlowStats :=
  mkFlowStat sampleHash
    [inPort 0, vlanVid (OFPVID_PRESENT ||| 140), intField .ipv4Dst 0xe4010104]
    [⟨.group, .group 10⟩] 1000 0

/-- UNI 129 だけの group。 -/
def multicastGroup : GroupEntry :=
  groupEntryFromGroupMod ⟨.add, .all, 10, [⟨0, 0, 0, [popVlan, output 129]⟩]⟩

def ponsimFlows : List FlowStats := trapFlow :: multicastFlow :: subscriberFlows

/-- graph の既定の規則。 -/
def ponsimDefaults : Rules :=
  ((buildGraph ponsimTopology).bind (generateDefaultRules sampleHash ponsimTopology)).toOption.getD []

/-- 三つの表を覚えた agent。 -/
def ponsimAgent : AgentState Unit :=
  ponsimTree.agent ponsimTopology (ponsimTree.pairs ponsimTree.ends) ponsimDefaults

def ponsimRules : Rules :=
  (decomposeRules sampleHash ponsimAgent.routeFor ponsimDefaults ponsimFlows
    [multicastGroup]).toOption.getD []

theorem ponsimAgent_fresh : ponsimAgent.Fresh sampleHash someShortest := by
  intro routes hroutes
  obtain rfl := Option.some.inj hroutes
  refine ⟨ponsimDefaults, 0, rfl, rfl, ?_⟩
  obtain ⟨g, hok, hg, hv⟩ :=
    buildGraph_discovers ponsimTree_describes.peers_mutual ponsimTree_describes.grounded
  have hroutes := PonTree.buildRoutes_ends someShortest_returnsShortest ponsimTree_describes hg hv
    (List.Perm.refl ponsimTree.ends)
  have hboundary : boundaryPorts ponsimTopology.logicalPorts
      = ponsimTree.ends.map ponsimTree.boundary := by decide
  have hdefaults : (buildGraph ponsimTopology).bind (generateDefaultRules sampleHash ponsimTopology)
      = .ok ponsimDefaults := by decide +kernel
  rw [hok] at hdefaults
  have hgenerate : generateDefaultRules sampleHash ponsimTopology g = .ok ponsimDefaults := hdefaults
  have hcompute : computeRoutes someShortest ponsimTopology
      = .ok (g, ponsimTree.pairs ponsimTree.ends) := by
    unfold computeRoutes
    rw [hok, hboundary]
    show (do
      let routes ← buildRoutes someShortest (ponsimTree.ends.map ponsimTree.boundary) g
      return (g, routes)) = _
    rw [hroutes]
    rfl
  show tablesOf sampleHash someShortest ponsimTopology = _
  unfold tablesOf
  rw [hcompute]
  show (do
    let rules ← generateDefaultRules sampleHash ponsimTopology g
    return (ponsimTree.pairs ponsimTree.ends, rules, ← rootPortNo ponsimTopology)) = _
  rw [hgenerate]
  rfl

theorem ponsim_deployed : Deployed sampleHash ponsimTree ponsimAgent ponsimFlows [multicastGroup]
    ponsimRules where
  tree := ponsimTree_describes
  typed := ponsimTree_typed
  nniNo := rfl
  ponNo := rfl
  onuPonNo := by decide
  uniNo := by decide
  cached := rfl
  fresh := ⟨someShortest, someShortest_returnsShortest, ponsimAgent_fresh⟩
  rootPort := rfl
  multicast := by decide +kernel
  oltIds := by decide +kernel
  onuIds := by decide +kernel
  decomposed := ⟨ponsimDefaults, rfl, by decide +kernel⟩

/-- 加入者の、tag `vlan` の frame。 -/
def subscriberFrame (vlan : Nat) : Frame :=
  ⟨[0, 0, 0, 17, 17, 17], [0, 0, 0, 34, 34, 34], some 0x8100,
    [.dot1Q ⟨0, 0, vlan, 0x800⟩, .ip 6 "10.0.0.1" []]⟩

/-- 外側に tag 1000 を付けたもの。 -/
def outerFrame : Frame :=
  { subscriberFrame 128 with
    payload := .dot1Q ⟨0, 0, 1000, 0x8100⟩ :: (subscriberFrame 128).payload }

/-- UNI 128 からの frame は、外側の tag を付けて NNI から出る。 -/
theorem upstream_isolated_subscriber :
    ((simOf ponsimTree ponsimRules).ingress 2 128 (subscriberFrame 0)).delivered
      = [(0, outerFrame)] := by
  have honu : through (ingressTable (ponsimOnu "onu0" 128) ponsimFlows) (subscriberFrame 0)
      = some (subscriberFrame 128) := by
    have hbest := @best_head (subscriberFrame 0) [upUntagged (ponsimOnu "onu0" 128)]
      (upTagged (ponsimOnu "onu0" 128)) rfl (by decide)
    exact (through_of_best hbest rfl rfl).1
  have holt : through (upstreamTable ponsimTree (ownFlows (ponsimOnu "onu0" 128) ponsimFlows))
      (subscriberFrame 128) = some outerFrame := by
    have hbest := @best_of_outranked (subscriberFrame 128) [controllerRule trapFlow] []
      (unicastRule (pushFlow 128 1000)) (by decide) rfl (by decide)
    exact (through_of_best hbest rfl rfl).1
  have hothers : ∀ flow ∈ ponsimFlows, ¬(inPortOf flow = some 128 ∨ inPortOf flow = none) →
      ∀ r ∈ upstreamRule ponsimTree flow, r.isMatch (subscriberFrame 128) = .ok false := by
    decide +kernel
  have hdelivers := @upstream_isolated Unit sampleHash ponsimTree (ponsimOnu "onu0" 128) ponsimFlows
    (subscriberFrame 0) _ ponsimAgent [multicastGroup] ponsimRules ponsim_deployed 0 rfl
    (fun sent hsent => Option.some.inj (honu.symm.trans hsent) ▸ hothers) 0
  rw [honu, Option.bind_some, holt] at hdelivers
  exact hdelivers

/-- 外側の tag 1000 の frame は、UNI 128 からだけ出る。 -/
theorem downstream_isolated_subscriber :
    ((simOf ponsimTree ponsimRules).ingress 2 0 outerFrame).delivered
      = [(128, subscriberFrame 0)] := by
  have holt : through (downstreamTable ponsimTree ponsimFlows) outerFrame
      = some (subscriberFrame 128) := by
    have hbest := @best_of_outranked outerFrame [oltDefault, multicastRule multicastFlow] []
      (unicastRule outerPopFlow) (by decide) rfl (by decide)
    exact (through_of_best hbest rfl rfl).1
  have hfirst := @through_of_best (subscriberFrame 128)
    (egressTable (groupDict [multicastGroup]) (ponsimOnu "onu0" 128) ponsimFlows)
    (downDefault (ponsimOnu "onu0" 128)) ⟨subscriberFrame 0, none⟩ (best_head rfl (by decide)) rfl rfl
  have hafter : ∀ o' ∈ ponsimTree.onus.drop 1, ∀ r ∈ egressTable (groupDict [multicastGroup]) o'
      ponsimFlows, r.isMatch (subscriberFrame 0) = .ok false := by
    decide +kernel
  have hdelivers := @downstream_isolated Unit sampleHash ponsimTree (ponsimOnu "onu0" 128) ponsimFlows
    outerFrame _ ponsimAgent [multicastGroup] ponsimRules ponsim_deployed 0 rfl (subscriberFrame 128)
    holt (by decide) (fun rewritten h => Except.ok.inj (hfirst.2.symm.trans h) ▸ hafter) 0
  rw [hfirst.1] at hdelivers
  exact hdelivers

end Example

end Voltha.Ponsim
