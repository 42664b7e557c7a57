import Voltha.Core.Properties.PonTables
import Voltha.Lib.MatchTable
import Voltha.Ponsim.BestMatch

/-!
# 模擬の PON に入る flow

PON の木で分解した flow を、どの device のどの port の flow になるかで分ける。

device の flow はどれも、`IN_PORT` を device の port に付け替え、最後に `OUTPUT` を足したもの
（`Entry`）なので、port と port の間の規則（`Rule`）の表として読める。

logical flow の `IN_PORT` は、goto 文を持つ flow では残るが、OLT の PON から NNI への規則では
どの UNI のものかが失われる。
-/

namespace Voltha.Ponsim

open Voltha.Flow Voltha.Core

variable {R : Type} {hash : FlowKey → Nat} {T : PonTree R} {t : Topology R} {flow : FlowStats}
  {groupMap : List (UInt32 × GroupEntry)} {device : String}

/-! ## 規則 -/

/-- port と port の間の規則。`fields` に `IN_PORT` は無く、`actions` に最後の `OUTPUT` は無い。 -/
structure Rule where
  priority : UInt32
  cookie : UInt64
  fields : List OfbField
  actions : List Action
deriving DecidableEq, Repr

/-- device の port `ingress` から port `egress` への規則。 -/
structure Entry where
  ingress : UInt32
  egress : UInt32
  rule : Rule
deriving DecidableEq, Repr

/-- 規則の flow。 -/
def Entry.install (hash : FlowKey → Nat) (e : Entry) : FlowStats :=
  mkFlowStat hash (inPort e.ingress :: e.rule.fields) (e.rule.actions ++ [output e.egress])
    e.rule.priority e.rule.cookie

/-- `get_actions(flow)`。`None` なら空とする。 -/
def actionsOf (flow : FlowStats) : List Action := (getActions flow).getD []

def inPortOf (flow : FlowStats) : Option UInt32 :=
  ((fieldsOf flow).find? fun f => f.type = .inPort).map OfbField.port

def outPortOf (flow : FlowStats) : Option UInt32 :=
  ((actionsOf flow).find? fun a => a.type = .output).map Action.outputPort

def groupOf (flow : FlowStats) : Option UInt32 :=
  ((actionsOf flow).find? fun a => a.type = .group).map Action.groupId

/-- controller 行き。 -/
def toController (flow : FlowStats) : Bool := (outPortOf flow).any isController

/-- `drop` の match field を落とし、`actions` を行う規則。 -/
def Rule.of (flow : FlowStats) (drop : List OfbFieldType) (actions : List Action) : Rule :=
  ⟨flow.priority, flow.cookie, (fieldsOf flow).filter fun f => f.type ∉ drop, actions⟩

/-- 出口だけを除いた、もとの flow の規則。 -/
def unicastRule (flow : FlowStats) : Rule :=
  .of flow [.inPort] ((actionsOf flow).filter fun a => a.type ≠ .output)

/-- controller 行きの規則。tag 4000 を付ける。 -/
def controllerRule (flow : FlowStats) : Rule :=
  .of flow [.inPort, .vlanVid] [pushVlan 0x8100, setField (vlanVid (OFPVID_PRESENT ||| 4000))]

/-- multicast の、OLT の規則。 -/
def multicastRule (flow : FlowStats) : Rule :=
  .of flow [.inPort, .ethType, .ipv4Dst]
    ((actionsOf flow).filter (fun a => a.type ≠ .group) ++ [popVlan])

/-- multicast の、bucket 一つの規則。 -/
def bucketRule (flow : FlowStats) (bucket : Bucket) : Rule :=
  .of flow [.inPort, .vlanVid, .vlanPcp]
    (bucket.actions.filter fun a => a.type ≠ .popVlan ∧ a.type ≠ .output)

/-- 出口と bucket。`OUTPUT` の無い bucket は、前の bucket の出口を使う。 -/
def bucketPorts : Option UInt32 → List Bucket → List (Option UInt32 × Bucket)
  | _, [] => []
  | outPortNo, bucket :: rest =>
    (bucketOutPort bucket outPortNo, bucket) :: bucketPorts (bucketOutPort bucket outPortNo) rest

/-- multicast の group の bucket。 -/
def bucketsOf (groupMap : List (UInt32 × GroupEntry)) (flow : FlowStats) : List Bucket :=
  (((groupOf flow).bind fun id => groupMap.lookup id).map fun g => g.desc.buckets).getD []

/-! ## 置かれる規則 -/

/-- OLT の既定の規則。 -/
def oltDefault : Rule := ⟨2000, 0, [vlanVid (OFPVID_PRESENT ||| 4000), vlanPcp 0], [popVlan]⟩

/-- ONU の、番号 0 の tag のあるものの、上りの既定の規則。 -/
def upTagged (o : Onu R) : Rule :=
  ⟨500, 0, [vlanVid (OFPVID_PRESENT ||| 0)],
    [setField (vlanVid (OFPVID_PRESENT ||| o.device.vlan))]⟩

/-- ONU の、tag の無いものの、上りの既定の規則。 -/
def upUntagged (o : Onu R) : Rule :=
  ⟨500, 0, [vlanVid 0],
    [pushVlan 0x8100, setField (vlanVid (OFPVID_PRESENT ||| o.device.vlan))]⟩

def upDefaults (o : Onu R) : List Rule := [upTagged o, upUntagged o]

/-- ONU の下りの既定の規則。 -/
def downDefault (o : Onu R) : Rule :=
  ⟨500, 0, [vlanVid (OFPVID_PRESENT ||| o.device.vlan)],
    [setField (vlanVid (OFPVID_PRESENT ||| 0))]⟩

/-- 一つの flow から OLT に置かれるもの。 -/
def oltEntries (T : PonTree R) (flow : FlowStats) : List Entry :=
  if toController flow then [⟨T.pon.portNo, T.nni.portNo, controllerRule flow⟩]
  else if hasNextTable flow then
    if inPortOf flow = some T.portNo then [⟨T.nni.portNo, T.pon.portNo, unicastRule flow⟩] else []
  else if outPortOf flow = none then [⟨T.nni.portNo, T.pon.portNo, multicastRule flow⟩]
  else if outPortOf flow = some T.portNo then [⟨T.pon.portNo, T.nni.portNo, unicastRule flow⟩]
  else []

/-- 一つの flow から ONU に置かれるもの。 -/
def onuEntries (groupMap : List (UInt32 × GroupEntry)) (o : Onu R) (flow : FlowStats) :
    List Entry :=
  if toController flow then []
  else if hasNextTable flow then
    if inPortOf flow = some o.portNo then [⟨o.uni.portNo, o.pon.portNo, unicastRule flow⟩] else []
  else if outPortOf flow = none then
    ((bucketPorts none (bucketsOf groupMap flow)).filter fun p => p.1 = some o.portNo).map
      fun p => ⟨o.pon.portNo, o.uni.portNo, bucketRule flow p.2⟩
  else if outPortOf flow = some o.portNo then [⟨o.pon.portNo, o.uni.portNo, unicastRule flow⟩]
  else []

/-- 既定の規則と合わせた、OLT のもの。 -/
def oltTable (T : PonTree R) (flows : List FlowStats) : List Entry :=
  ⟨T.nni.portNo, T.pon.portNo, oltDefault⟩ :: flows.flatMap (oltEntries T)

/-- 既定の規則と合わせた、ONU のもの。 -/
def onuTable (groupMap : List (UInt32 × GroupEntry)) (o : Onu R) (flows : List FlowStats) :
    List Entry :=
  (upDefaults o).map (Entry.mk o.uni.portNo o.pon.portNo) ++
    ⟨o.pon.portNo, o.uni.portNo, downDefault o⟩ :: flows.flatMap (onuEntries groupMap o)

/-! ## 一つの flow の分解 -/

/-- multicast の flow は、NNI から来たものに合う。 -/
def MulticastFromNni (T : PonTree R) (flow : FlowStats) : Prop :=
  hasNextTable flow = false → outPortOf flow = none → inPortOf flow = some T.portNo

instance : Decidable (MulticastFromNni T flow) := inferInstanceAs (Decidable (_ → _ → _))

theorem fieldsOf_of_ok {fields : List OfbField} (h : getOfbFields flow = .ok fields) :
    fields = fieldsOf flow := by
  unfold getOfbFields at h
  split at h
  · exact (Except.ok.inj h).symm
  · cases h

theorem actionsOf_of_ok {actions : List Action} (h : eachAction flow = .ok actions) :
    actions = actionsOf flow := by
  unfold eachAction at h
  split at h
  · next acts hacts =>
    rw [actionsOf, hacts]
    exact (Except.ok.inj h).symm
  · cases h

theorem assert_ok {c : Prop} [Decidable c] {u : Unit} (h : assert c = .ok u) : c := by
  unfold assert at h
  split at h
  · assumption
  · cases h

theorem hop_ok {h : Option (RouteHop R)} {x : RouteHop R} (hx : hop h = .ok x) : h = some x := by
  unfold hop at hx
  cases h with
  | none => cases hx
  | some y =>
    cases hx
    rfl

/-- device に置かれる flow は、その device の `Entry` のものである。 -/
structure Placed (hash : FlowKey → Nat) (T : PonTree R) (groupMap : List (UInt32 × GroupEntry))
    (flow : FlowStats) (generated : List (String × List FlowStats)) : Prop where
  olt : generatedFor T.olt.id generated = (oltEntries T flow).map (Entry.install hash)
  onu : ∀ o ∈ T.onus,
    generatedFor o.device.id generated = (onuEntries groupMap o flow).map (Entry.install hash)

section Placed

variable {flows : List FlowStats} {o : Onu R} {generated rules : List (String × List FlowStats)}

theorem portNo_ne (h : T.Describes t) (ho : o ∈ T.onus) : o.portNo ≠ T.portNo := by
  intro he
  refine (List.nodup_cons.mp h.portNos).1 (List.mem_map.mpr ⟨.uni o, ?_, he⟩)
  exact List.mem_map_of_mem ho

theorem portNo_inj (h : T.Describes t) {o' : Onu R} (ho : o ∈ T.onus) (ho' : o' ∈ T.onus)
    (he : o.portNo = o'.portNo) : o = o' := by
  have hnodup : (T.onus.map Onu.portNo).Nodup := by
    have h := (List.nodup_cons.mp h.portNos).2
    rwa [List.map_map] at h
  exact List.inj_on_of_nodup_map hnodup ho ho' he

theorem generatedFor_singleton (device device' : String) (fs : List FlowStats) :
    generatedFor device [(device', fs)] = if device' = device then fs else [] := by
  simp [generatedFor]

theorem generatedFor_eq_lookup (h : (generated.map Prod.fst).Nodup) (device : String) :
    generatedFor device generated = (generated.lookup device).getD [] := by
  induction generated with
  | nil => rfl
  | cons p generated ih =>
    obtain ⟨hp, h⟩ := List.nodup_cons.mp h
    rw [OrderedDict.lookup_cons_eq]
    show (if p.1 = device then p.2 else []) ++ generatedFor device generated = _
    rw [ih h]
    by_cases hd : p.1 = device
    · subst hd
      have hnone : generated.lookup p.1 = none := by
        rw [← Option.not_isSome_iff_eq_none, OrderedDict.lookup_isSome]
        exact hp
      simp [hnone]
    · simp [hd, Ne.symm hd]

/-- 足した flow は、その device の最後に並ぶ。 -/
theorem generatedFor_appendRule (h : (generated.map Prod.fst).Nodup) (device device' : String)
    (f : FlowStats) : generatedFor device (appendRule generated device' f)
      = generatedFor device generated ++ if device' = device then [f] else [] := by
  unfold appendRule
  rw [generatedFor_eq_lookup (OrderedDict.nodup_keys_set h), generatedFor_eq_lookup h,
    OrderedDict.lookup_set]
  by_cases hd : device' = device
  · subst hd
    simp
  · simp [hd, Ne.symm hd]

/-- OLT だけに置かれる flow。 -/
theorem placed_olt (h : T.Describes t) {e : Entry} (holt : oltEntries T flow = [e])
    (honu : ∀ o ∈ T.onus, onuEntries groupMap o flow = []) :
    Placed hash T groupMap flow [(T.olt.id, [e.install hash])] where
  olt := by rw [generatedFor_singleton, if_pos rfl, holt, List.map_singleton]
  onu o ho := by rw [generatedFor_singleton, if_neg (h.olt_ne ho).symm, honu o ho, List.map_nil]

/-- 一つの ONU だけに置かれる flow。 -/
theorem placed_onu (h : T.Describes t) (ho : o ∈ T.onus) {e : Entry} (holt : oltEntries T flow = [])
    (honu : onuEntries groupMap o flow = [e])
    (hothers : ∀ o' ∈ T.onus, o' ≠ o → onuEntries groupMap o' flow = []) :
    Placed hash T groupMap flow [(o.device.id, [e.install hash])] where
  olt := by rw [generatedFor_singleton, if_neg (h.olt_ne ho), holt, List.map_nil]
  onu o' ho' := by
    rw [generatedFor_singleton]
    by_cases hid : o.device.id = o'.device.id
    · obtain rfl := h.onu_inj ho ho' hid
      rw [if_pos rfl, honu, List.map_singleton]
    · rw [if_neg hid, hothers o' ho' fun he => hid (congrArg (fun o => o.device.id) he).symm,
        List.map_nil]

end Placed

section Decompose

variable [DecidableEq R] {routes : Routes R} {defaults : Rules} {o : Onu R}
  {generated : List (String × List FlowStats)}

/-- bucket 一つの分解。 -/
theorem bucket_of_ok (h : T.Describes t) (htables : T.Tables hash routes defaults)
    {acc acc' : Option UInt32 × List (String × List FlowStats)} {bucket : Bucket}
    (hok : decomposeBucket hash (T.agent t routes defaults).routeFor flow (fieldsOf flow)
      (some T.portNo) ⟨T.olt, T.nni, T.pon⟩ acc bucket = .ok acc') :
    ∃ o ∈ T.onus, bucketOutPort bucket acc.1 = some o.portNo ∧
      acc' = (bucketOutPort bucket acc.1, appendRule acc.2 o.device.id
        (Entry.install hash ⟨o.pon.portNo, o.uni.portNo, bucketRule flow bucket⟩)) := by
  unfold decomposeBucket at hok
  obtain ⟨⟨ingress, egress⟩, hroute, hok⟩ := Py.bind_eq_ok.mp hok
  obtain ⟨i, -, hok⟩ := Py.bind_eq_ok.mp hok
  obtain ⟨u, -, hok⟩ := Py.bind_eq_ok.mp hok
  obtain ⟨e, he, hok⟩ := Py.bind_eq_ok.mp hok
  obtain rfl := hop_ok he
  cases hok
  rw [PonTree.routeFor_agent] at hroute
  have hrouted := htables.routed (fun o ho => portNo_ne h ho) hroute
  generalize hin : some T.portNo = inPortNo at hrouted
  generalize hexit : T.exit (bucketOutPort bucket acc.1) = port at hrouted
  cases hrouted with
  | upstream => cases hin
  | down ho =>
    refine ⟨_, ho, ?_, rfl⟩
    unfold PonTree.exit at hexit
    split at hexit
    · exact absurd (Option.some.inj hexit).symm (portNo_ne h ho)
    · exact hexit
  | up ho => exact absurd (Option.some.inj hin).symm (portNo_ne h ho)

theorem buckets_of_ok (h : T.Describes t) (htables : T.Tables hash routes defaults)
    {buckets : List Bucket} {acc acc' : Option UInt32 × List (String × List FlowStats)}
    (hnodup : (acc.2.map Prod.fst).Nodup)
    (hok : buckets.foldlM (decomposeBucket hash (T.agent t routes defaults).routeFor flow
      (fieldsOf flow) (some T.portNo) ⟨T.olt, T.nni, T.pon⟩) acc = .ok acc') :
    generatedFor T.olt.id acc'.2 = generatedFor T.olt.id acc.2 ∧ ∀ o ∈ T.onus,
      generatedFor o.device.id acc'.2 = generatedFor o.device.id acc.2 ++
        (((bucketPorts acc.1 buckets).filter fun p => p.1 = some o.portNo).map
          fun p => ⟨o.pon.portNo, o.uni.portNo, bucketRule flow p.2⟩).map (Entry.install hash) := by
  induction buckets generalizing acc with
  | nil =>
    cases hok
    exact ⟨rfl, fun o _ => by simp [bucketPorts]⟩
  | cons bucket buckets ih =>
    rw [List.foldlM_cons] at hok
    obtain ⟨mid, hmid, hok⟩ := Py.bind_eq_ok.mp hok
    obtain ⟨o, ho, hport, rfl⟩ := bucket_of_ok h htables hmid
    obtain ⟨holt, honu⟩ := ih (OrderedDict.nodup_keys_set hnodup) hok
    refine ⟨?_, fun o' ho' => ?_⟩
    · rw [holt, generatedFor_appendRule hnodup, if_neg (h.olt_ne ho), List.append_nil]
    · rw [honu o' ho', generatedFor_appendRule hnodup, bucketPorts, List.append_assoc]
      by_cases he : o = o'
      · subst he
        simp [hport]
      · have hid : o.device.id ≠ o'.device.id := fun hid => he (h.onu_inj ho ho' hid)
        have hno : o.portNo ≠ o'.portNo := fun hno => he (portNo_inj h ho ho' hno)
        simp [hport, hid, hno]

omit [DecidableEq R] in
/-- goto 文を持つ flow に `OUTPUT` は無い。 -/
theorem gotoFlow_eq (hnone : outPortOf flow = none) (ingress : RouteHop R) :
    gotoFlow hash flow (fieldsOf flow) (actionsOf flow) ingress
      = Entry.install hash
        ⟨ingress.ingressPort.portNo, ingress.egressPort.portNo, unicastRule flow⟩ := by
  have hall : ∀ a ∈ actionsOf flow, a.type ≠ .output := by
    simpa [outPortOf] using hnone
  have hfilter : ((actionsOf flow).filter fun a => a.type ≠ .output) = actionsOf flow :=
    List.filter_eq_self.mpr fun a ha => decide_eq_true (hall a ha)
  rw [gotoFlow, Entry.install, unicastRule, hfilter]
  rfl

omit [DecidableEq R] in
theorem egressFlow_eq (egress : RouteHop R) :
    egressFlow hash flow (fieldsOf flow) (actionsOf flow) egress = Entry.install hash
      ⟨egress.ingressPort.portNo, egress.egressPort.portNo, unicastRule flow⟩ := rfl

/-- multicast の分解。 -/
theorem multicast_of_ok (h : T.Describes t) (htables : T.Tables hash routes defaults)
    (hcontroller : toController flow = false) (hnext : hasNextTable flow = false)
    (hnone : outPortOf flow = none) (hactions : eachAction flow = .ok (actionsOf flow))
    (hok : decomposeMulticast hash (T.agent t routes defaults).routeFor groupMap flow
      (fieldsOf flow) (actionsOf flow) (some T.portNo) ⟨T.olt, T.nni, T.pon⟩ = .ok generated) :
    Placed hash T groupMap flow generated := by
  unfold decomposeMulticast at hok
  obtain ⟨group, hgroup, hok⟩ := Py.bind_eq_ok.mp hok
  have hgroup' : group = groupOf flow := by
    unfold getGroup at hgroup
    rw [hactions] at hgroup
    exact (Except.ok.inj hgroup).symm
  subst hgroup'
  cases hid : groupOf flow with
  | none =>
    rw [hid] at hok
    cases hok
  | some groupId =>
    rw [hid] at hok
    obtain ⟨acc, hacc, hok⟩ := Py.bind_eq_ok.mp hok
    cases hok
    have hbuckets : bucketsOf groupMap flow
        = ((groupMap.lookup groupId).map fun g => g.desc.buckets).getD [] := by
      rw [bucketsOf, hid, Option.bind_some]
    rw [← hbuckets] at hacc
    have hnodup : ((appendRule [] T.olt.id (Entry.install hash
        ⟨T.nni.portNo, T.pon.portNo, multicastRule flow⟩)).map Prod.fst).Nodup :=
      OrderedDict.nodup_keys_set List.nodup_nil
    have hfirst : deviceFlow hash flow (fieldsOf flow) T.nni.portNo [.inPort, .ethType, .ipv4Dst]
        ((actionsOf flow).filter (fun a => a.type ≠ .group) ++ [popVlan, output T.pon.portNo])
          = Entry.install hash ⟨T.nni.portNo, T.pon.portNo, multicastRule flow⟩ := by
      rw [Entry.install, multicastRule, Rule.of, List.append_assoc]
      rfl
    dsimp only at hacc
    rw [hfirst] at hacc
    obtain ⟨holt, honu⟩ := buckets_of_ok h htables hnodup hacc
    have hsingle : appendRule [] T.olt.id (Entry.install hash
        ⟨T.nni.portNo, T.pon.portNo, multicastRule flow⟩) = [(T.olt.id, [Entry.install hash
          ⟨T.nni.portNo, T.pon.portNo, multicastRule flow⟩])] := rfl
    refine ⟨?_, fun o ho => ?_⟩
    · rw [holt, hsingle, generatedFor_singleton, if_pos rfl, oltEntries]
      simp [hcontroller, hnext, hnone]
    · rw [honu o ho, hsingle, generatedFor_singleton, if_neg (h.olt_ne ho).symm, onuEntries]
      simp [hcontroller, hnext, hnone]

omit [DecidableEq R] in
/-- controller 行きの flow は、OLT に置かれる。 -/
theorem placed_controller (h : T.Describes t) (hcontroller : toController flow = true)
    {inPortNo : Option UInt32} {ingress : Option (RouteHop R)} {e : RouteHop R}
    (hrouted : T.Routed inPortNo (some T.portNo) (ingress, some e)) :
    Placed hash T groupMap flow [(e.device.id,
      [controllerFlow hash flow (fieldsOf flow) e])] := by
  have hplaced : Placed hash T groupMap flow [(T.olt.id,
      [Entry.install hash ⟨T.pon.portNo, T.nni.portNo, controllerRule flow⟩])] :=
    placed_olt h (by rw [oltEntries, if_pos hcontroller]) fun o _ => by
      rw [onuEntries, if_pos hcontroller]
  generalize hport : some T.portNo = port at hrouted
  cases hrouted with
  | upstream => exact hplaced
  | down ho => exact absurd (Option.some.inj hport).symm (portNo_ne h ho)
  | up ho => exact hplaced

omit [DecidableEq R] in
/-- goto 文を持つ flow は、来た方の device に置かれる。 -/
theorem placed_goto (h : T.Describes t) (hcontroller : toController flow = false)
    (hnext : hasNextTable flow = true) (hnone : outPortOf flow = none) {i : RouteHop R}
    {egress : Option (RouteHop R)} (hrouted : T.Routed (inPortOf flow) none (some i, egress)) :
    Placed hash T groupMap flow [(i.device.id,
      [gotoFlow hash flow (fieldsOf flow) (actionsOf flow) i])] := by
  rw [gotoFlow_eq hnone]
  generalize hin : inPortOf flow = inPortNo at hrouted
  cases hrouted with
  | fromNni =>
    refine placed_olt h ?_ fun o ho => ?_
    · simp [oltEntries, hcontroller, hnext, hin]
    · simp [onuEntries, hcontroller, hnext, hin, (portNo_ne h ho).symm]
  | fromUni ho =>
    refine placed_onu h ho ?_ ?_ fun o' ho' hne => ?_
    · simp [oltEntries, hcontroller, hnext, hin, portNo_ne h ho]
    · simp [onuEntries, hcontroller, hnext, hin]
    · have hno : ¬ _ = o'.portNo := fun hno => hne (portNo_inj h ho ho' hno).symm
      simp [onuEntries, hcontroller, hnext, hin, hno]

omit [DecidableEq R] in
/-- 出口のある flow は、出る方の device に置かれる。 -/
theorem placed_egress (h : T.Describes t) (hcontroller : toController flow = false)
    (hnext : hasNextTable flow = false) {inPortNo : Option UInt32} {i e : RouteHop R}
    (hrouted : T.Routed inPortNo (outPortOf flow) (some i, some e)) :
    Placed hash T groupMap flow [(e.device.id,
      [egressFlow hash flow (fieldsOf flow) (actionsOf flow) e])] := by
  rw [egressFlow_eq]
  generalize hout : outPortOf flow = outPortNo at hrouted
  cases hrouted with
  | down ho =>
    refine placed_onu h ho ?_ ?_ fun o' ho' hne => ?_
    · simp [oltEntries, hcontroller, hnext, hout, portNo_ne h ho]
    · simp [onuEntries, hcontroller, hnext, hout]
    · have hno : ¬ _ = o'.portNo := fun hno => hne (portNo_inj h ho ho' hno).symm
      simp [onuEntries, hcontroller, hnext, hout, hno]
  | up ho =>
    refine placed_olt h ?_ fun o ho => ?_
    · simp [oltEntries, hcontroller, hnext, hout]
    · simp [onuEntries, hcontroller, hnext, hout, (portNo_ne h ho).symm]

/-- group の flow は、NNI から来たものとして分解される。 -/
theorem placed_multicast (h : T.Describes t) (htables : T.Tables hash routes defaults)
    (hmulticast : MulticastFromNni T flow) (hcontroller : toController flow = false)
    (hnext : hasNextTable flow = false) (hnone : outPortOf flow = none)
    (hactions : eachAction flow = .ok (actionsOf flow)) {i : RouteHop R}
    {egress : Option (RouteHop R)} (hrouted : T.Routed (inPortOf flow) none (some i, egress))
    (hok : decomposeMulticast hash (T.agent t routes defaults).routeFor groupMap flow
      (fieldsOf flow) (actionsOf flow) (inPortOf flow) i = .ok generated) :
    Placed hash T groupMap flow generated := by
  rw [hmulticast hnext hnone] at hrouted hok
  generalize hno : some T.portNo = port at hrouted
  cases hrouted with
  | fromNni => exact multicast_of_ok h htables hcontroller hnext hnone hactions hok
  | fromUni ho => exact absurd (Option.some.inj hno).symm (portNo_ne h ho)

/-- 一つの flow の分解で置かれるもの。 -/
theorem placed_of_ok (h : T.Describes t) (htables : T.Tables hash routes defaults)
    (hmulticast : MulticastFromNni T flow)
    (hok : decomposeFlow hash (T.agent t routes defaults).routeFor groupMap flow = .ok generated) :
    Placed hash T groupMap flow generated := by
  unfold decomposeFlow at hok
  obtain ⟨fields, hfields, hok⟩ := Py.bind_eq_ok.mp hok
  obtain rfl := fieldsOf_of_ok hfields
  obtain ⟨inPortNo, hin, hok⟩ := Py.bind_eq_ok.mp hok
  obtain rfl : inPortNo = inPortOf flow := by
    unfold getInPort at hin
    rw [hfields] at hin
    exact (Except.ok.inj hin).symm
  obtain ⟨actions, hactions, hok⟩ := Py.bind_eq_ok.mp hok
  obtain rfl := actionsOf_of_ok hactions
  obtain ⟨outPortNo, hout, hok⟩ := Py.bind_eq_ok.mp hok
  obtain rfl : outPortNo = outPortOf flow := by
    unfold getOutPort at hout
    rw [hactions] at hout
    exact (Except.ok.inj hout).symm
  obtain ⟨⟨ingress, egress⟩, hroute, hok⟩ := Py.bind_eq_ok.mp hok
  rw [PonTree.routeFor_agent] at hroute
  have hrouted := htables.routed (fun o ho => portNo_ne h ho) hroute
  change (if toController flow = true then _ else _) = _ at hok
  unfold PonTree.exit at hrouted
  change T.Routed _ (if toController flow = true then _ else _) _ at hrouted
  cases hcontroller : toController flow with
  | true =>
    rw [hcontroller, if_pos rfl] at hok hrouted
    obtain ⟨e, he, hok⟩ := Py.bind_eq_ok.mp hok
    obtain rfl := hop_ok he
    cases hok
    exact placed_controller h hcontroller hrouted
  | false =>
    rw [hcontroller, if_neg Bool.false_ne_true] at hok hrouted
    obtain ⟨i, hi, hrest⟩ := Py.bind_eq_ok.mp hok
    obtain rfl := hop_ok hi
    cases hnext : hasNextTable flow with
    | true =>
      rw [hnext, if_pos rfl] at hrest
      obtain ⟨u, hassert, hrest⟩ := Py.bind_eq_ok.mp hrest
      have hnone : outPortOf flow = none := assert_ok hassert
      cases hrest
      exact placed_goto h hcontroller hnext hnone (hnone ▸ hrouted)
    | false =>
      rw [hnext, if_neg Bool.false_ne_true] at hrest
      by_cases hnone : outPortOf flow = none
      · have hok' : decomposeMulticast hash (T.agent t routes defaults).routeFor groupMap flow
            (fieldsOf flow) (actionsOf flow) (inPortOf flow) i = .ok generated := by
          split at hrest
          · obtain ⟨u, hassert, -⟩ := Py.bind_eq_ok.mp hrest
            exact absurd hnone (assert_ok hassert)
          · rwa [if_neg (not_not.mpr hnone)] at hrest
        exact placed_multicast h htables hmulticast hcontroller hnext hnone hactions
          (hnone ▸ hrouted) hok'
      · obtain ⟨e, he, rfl⟩ : ∃ e, hop egress = .ok e ∧ generated
            = [(e.device.id, [egressFlow hash flow (fieldsOf flow) (actionsOf flow) e])] := by
          split at hrest
          · obtain ⟨u, -, hrest⟩ := Py.bind_eq_ok.mp hrest
            obtain ⟨e, he, hrest⟩ := Py.bind_eq_ok.mp hrest
            cases hrest
            exact ⟨e, he, rfl⟩
          · obtain ⟨e, he, hrest⟩ := Py.bind_eq_ok.mp hrest
            cases hrest
            exact ⟨e, he, rfl⟩
        obtain rfl := hop_ok he
        exact placed_egress h hcontroller hnext hrouted

end Decompose

/-! ## 分解の全体 -/

/-- `flows.values()`。device に渡す flow の列。 -/
def deviceFlows (rules : Rules) (device : String) : List FlowStats :=
  ((rules.lookup device).map fun r => r.flows.map Prod.snd).getD []

/-- 規則の key は flow の id である。 -/
def KeyedById (rules : Rules) : Prop := ∀ p ∈ rules, ∀ q ∈ p.2.flows, q.1 = q.2.id

section Rules

variable [DecidableEq R] {route : Option UInt32 → Option UInt32 → Except FlowError (Route R)}
  {rules result : Rules} {groups : List GroupEntry}

theorem keepFirst_flows {r : DeviceRules} (h : ∀ q ∈ r.flows, q.1 = q.2.id) (f : FlowStats) :
    (keepFirst r f).flows.map Prod.snd
        = MatchTable.keepNew FlowStats.id (r.flows.map Prod.snd) f ∧
      ∀ q ∈ (keepFirst r f).flows, q.1 = q.2.id := by
  have hkeys : r.flows.map Prod.fst = (r.flows.map Prod.snd).map FlowStats.id := by
    rw [List.map_map]
    exact List.map_congr_left h
  unfold keepFirst MatchTable.keepNew
  rw [← hkeys]
  split
  · exact ⟨rfl, h⟩
  · next hnew =>
    refine ⟨?_, fun q hq => ?_⟩
    · show (OrderedDict.set r.flows f.id f).map Prod.snd = _
      rw [OrderedDict.set, if_neg hnew, List.map_append, List.map_singleton]
    · rcases OrderedDict.mem_set hq with hq | rfl
      · exact h q hq
      · rfl

theorem foldl_keepFirst_flows (fs : List FlowStats) {r : DeviceRules}
    (h : ∀ q ∈ r.flows, q.1 = q.2.id) :
    (fs.foldl keepFirst r).flows.map Prod.snd
        = fs.foldl (MatchTable.keepNew FlowStats.id) (r.flows.map Prod.snd) ∧
      ∀ q ∈ (fs.foldl keepFirst r).flows, q.1 = q.2.id := by
  induction fs generalizing r with
  | nil => exact ⟨rfl, h⟩
  | cons f fs ih =>
    obtain ⟨hone, hkeyed⟩ := keepFirst_flows h f
    obtain ⟨hall, hkeyed⟩ := ih hkeyed
    exact ⟨by rw [List.foldl_cons, hall, hone, List.foldl_cons], hkeyed⟩

/-- 一つの device の flow を足すと、その device にだけ、新しい id のものが加わる。 -/
theorem deviceFlows_mergeRules (h : KeyedById rules) (p : String × List FlowStats)
    (device : String) : deviceFlows (mergeRules rules p) device
        = (if p.1 = device then p.2 else []).foldl (MatchTable.keepNew FlowStats.id)
          (deviceFlows rules device) ∧
      KeyedById (mergeRules rules p) := by
  have hold : ∀ q ∈ ((rules.lookup p.1).getD ⟨[], []⟩).flows, q.1 = q.2.id := by
    cases hl : rules.lookup p.1 with
    | none => exact fun q hq => absurd hq List.not_mem_nil
    | some r => exact h _ (OrderedDict.mem_of_lookup hl)
  obtain ⟨hflows, hkeyed⟩ := foldl_keepFirst_flows p.2 hold
  refine ⟨?_, fun q hq => ?_⟩
  · unfold deviceFlows mergeRules
    rw [OrderedDict.lookup_set]
    by_cases hd : p.1 = device
    · subst hd
      rw [if_pos rfl, if_pos rfl, Option.map_some, Option.getD_some, hflows]
      cases rules.lookup p.1 <;> rfl
    · rw [if_neg (Ne.symm hd), if_neg hd, List.foldl_nil]
  · rcases OrderedDict.mem_set hq with hq | rfl
    · exact h q hq
    · exact hkeyed

theorem deviceFlows_foldl_mergeRules (generated : List (String × List FlowStats)) (device : String)
    (h : KeyedById rules) : deviceFlows (generated.foldl mergeRules rules) device
        = (generatedFor device generated).foldl (MatchTable.keepNew FlowStats.id)
          (deviceFlows rules device) ∧
      KeyedById (generated.foldl mergeRules rules) := by
  induction generated generalizing rules with
  | nil => exact ⟨rfl, h⟩
  | cons p generated ih =>
    obtain ⟨hone, hkeyed⟩ := deviceFlows_mergeRules h p device
    obtain ⟨hall, hkeyed⟩ := ih hkeyed
    refine ⟨?_, hkeyed⟩
    rw [List.foldl_cons, hall, hone, ← List.foldl_append]
    rfl

/-- 分解の結果の flow は、作られた順に、新しい id のものを足した列である。 -/
theorem deviceFlows_decomposeRules (device : String) (place : FlowStats → List FlowStats)
    {flows : List FlowStats} (h : KeyedById rules)
    (hok : decomposeRules hash route rules flows groups = .ok result)
    (hplace : ∀ flow ∈ flows, ∀ generated,
      decomposeFlow hash route (groupDict groups) flow = .ok generated →
      generatedFor device generated = place flow) :
    deviceFlows result device = (flows.flatMap place).foldl (MatchTable.keepNew FlowStats.id)
      (deviceFlows rules device) := by
  unfold decomposeRules at hok
  induction flows generalizing rules with
  | nil =>
    cases hok
    rfl
  | cons flow flows ih =>
    rw [List.foldlM_cons] at hok
    obtain ⟨mid, hmid, hok⟩ := Py.bind_eq_ok.mp hok
    obtain ⟨generated, hgenerated, hmid⟩ := Py.bind_eq_ok.mp hmid
    cases hmid
    obtain ⟨hhead, hplace⟩ := List.forall_mem_cons.mp hplace
    obtain ⟨hone, hkeyed⟩ := deviceFlows_foldl_mergeRules generated device h
    rw [ih hkeyed hok hplace, hone, hhead generated hgenerated, List.flatMap_cons,
      List.foldl_append]

variable {routes : Routes R} {defaults : Rules} {flows : List FlowStats} {o : Onu R}

omit [DecidableEq R] in
theorem keyedById_of_tables (htables : T.Tables hash routes defaults) : KeyedById defaults :=
  fun p hp q hq => (htables.keyed p hp q hq).1

/-- OLT に置かれる flow。 -/
theorem deviceFlows_olt (h : T.Describes t) (htables : T.Tables hash routes defaults)
    (hmulticast : ∀ flow ∈ flows, MulticastFromNni T flow)
    (hok : decomposeRules hash (T.agent t routes defaults).routeFor defaults flows groups
      = .ok result) : deviceFlows result T.olt.id
        = ((flows.flatMap (oltEntries T)).map (Entry.install hash)).foldl
          (MatchTable.keepNew FlowStats.id)
          [Entry.install hash ⟨T.nni.portNo, T.pon.portNo, oltDefault⟩] := by
  rw [deviceFlows_decomposeRules T.olt.id (fun flow => (oltEntries T flow).map (Entry.install hash))
    (keyedById_of_tables htables) hok fun flow hflow generated hgenerated =>
      (placed_of_ok h htables (hmulticast flow hflow) hgenerated).olt, List.map_flatMap]
  have hdefault : deviceFlows defaults T.olt.id = [T.oltRule hash] := htables.olt
  rw [hdefault]
  rfl

/-- ONU に置かれる flow。 -/
theorem deviceFlows_onu (h : T.Describes t) (htables : T.Tables hash routes defaults)
    (ho : o ∈ T.onus) (hmulticast : ∀ flow ∈ flows, MulticastFromNni T flow)
    (hok : decomposeRules hash (T.agent t routes defaults).routeFor defaults flows groups
      = .ok result) : deviceFlows result o.device.id
        = ((flows.flatMap (onuEntries (groupDict groups) o)).map (Entry.install hash)).foldl
          (MatchTable.keepNew FlowStats.id)
          (((upDefaults o).map (Entry.mk o.uni.portNo o.pon.portNo) ++
            [Entry.mk o.pon.portNo o.uni.portNo (downDefault o)]).map (Entry.install hash)) := by
  rw [deviceFlows_decomposeRules o.device.id
    (fun flow => (onuEntries (groupDict groups) o flow).map (Entry.install hash))
    (keyedById_of_tables htables) hok fun flow hflow generated hgenerated =>
      (placed_of_ok h htables (hmulticast flow hflow) hgenerated).onu o ho, List.map_flatMap]
  have hdefault : deviceFlows defaults o.device.id = o.upRules hash ++ [o.downRule hash] :=
    htables.onu o ho
  rw [hdefault]
  rfl

end Rules

end Voltha.Ponsim
