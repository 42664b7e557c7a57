import Voltha.Core.Properties.Cached
import Voltha.Core.Properties.Decomposed
import Voltha.Core.Properties.PonTree
import Voltha.Lib.KeyedList
import Voltha.Lib.Py

/-!
# PON の木の表

PON の木で agent が覚える三つの表。既定の規則は、OLT に一つと、ONU ごとに三つである。

* OLT は、controller からの packet に付いた tag 4000 を外して PON へ送る
* ONU は、tag の無いものと番号が 0 のものに device の番号を付けて PON へ送り、PON から来た
  その番号のものを 0 にして UNI へ送る

規則は graph の node ごとに作られるので、port の node が device を持たないことも要る。
-/

namespace Voltha.Core

open Voltha.Flow Fallible

variable {R : Type} {hash : FlowKey → Nat} {t : Topology R} {g : Graph R} {T : PonTree R}
  {shortestPath : Graph R → NodeKey → NodeKey → Except FlowError (List NodeKey)}

/-! ## device を持つ node -/

/-- device を持つのは、その device の node だけである。 -/
def Graph.Named (g : Graph R) : Prop := ∀ k d, (g.attrs k).device = some d → k = .device d.id

theorem Graph.Named.addDeviceNode (h : g.Named) (d : Device R) : (g.addDeviceNode d).Named := by
  intro k d' hd
  rw [attrs_addDeviceNode] at hd
  split at hd
  · next hk =>
    cases hd
    exact hk
  · exact h k d' hd

theorem Graph.Named.addPortNode (h : g.Named) (k : NodeKey) (port : Port) (boundary : Bool) :
    (g.addPortNode k port boundary).Named := by
  intro k' d hd
  rw [attrs_addPortNode] at hd
  split at hd
  · exact h k' d hd
  · exact h k' d hd

theorem Graph.Named.addEdge (h : g.Named) (u v : NodeKey) : (g.addEdge u v).Named := by
  intro k d hd
  rw [attrs_addEdge] at hd
  exact h k d hd

theorem followPorts_named {visit : Device R → Walk R → Except FlowError (Walk R)}
    (hvisit : ∀ d w, w.graph.Named → Ensures (visit d w) fun w' => w'.graph.Named)
    (id : String) (p : Port) {w : Walk R} (hw : w.graph.Named) :
    Ensures (followPorts t visit id w p) fun w' => w'.graph.Named := by
  refine Ensures.foldlM p.peers (fun w hw peer _ => ?_) ((hw.addPortNode _ _ _).addEdge _ _)
  unfold followPeers
  split
  · exact Ensures.bind fun d _ => hvisit d w hw
  · exact Ensures.ok (hw.addEdge _ _)

theorem addDevice_named (fuel : Nat) : ∀ (d : Device R) (w : Walk R), w.graph.Named →
    Ensures (addDevice t fuel d w) fun w' => w'.graph.Named := by
  induction fuel with
  | zero => exact fun d w _ => Ensures.error _
  | succ fuel ih =>
    intro d w hw
    unfold addDevice
    split
    · exact Ensures.ok hw
    · refine Ensures.bind fun ports _ => Ensures.foldlM ports (fun w hw p _ => ?_) ?_
      · exact followPorts_named ih d.id p hw
      · exact hw.addDeviceNode d

theorem buildGraph_named : Ensures (buildGraph t) Graph.Named := by
  rw [buildGraph_eq]
  refine Ensures.bind fun w hw => Ensures.ok ?_
  refine Ensures.foldlM (P := fun w => w.graph.Named) t.logicalPorts (fun w hw lp _ => ?_) ?_ w hw
  · exact Ensures.bind fun d _ => addDevice_named _ d w hw
  · intro k d hd
    cases hd

/-! ## 既定の規則 -/

/-- node 一つの規則を足す。 -/
def addDefaultRules (hash : FlowKey → Nat) (t : Topology R) (rules : Rules) :
    Option (Device R) → Except FlowError Rules
  | none => .ok rules
  | some device => do
    return OrderedDict.set rules device.id (← deviceDefaultRules hash t device)

theorem generateDefaultRules_eq (hash : FlowKey → Nat) (t : Topology R) (g : Graph R) :
    generateDefaultRules hash t g
      = g.nodes.foldlM (fun rules node => addDefaultRules hash t rules node.2.device) [] := rfl

theorem lookup_addDefaultRules {d : Device R} {rules : Rules} :
    ∀ {nodes : List (NodeKey × NodeAttrs R)} {acc : Rules},
      nodes.foldlM (fun rules node => addDefaultRules hash t rules node.2.device) acc = .ok rules →
      (∀ node ∈ nodes, ∀ d', node.2.device = some d' → d'.id = d.id → d' = d) →
      ((∃ node ∈ nodes, node.2.device = some d) ∨
        ∃ r, deviceDefaultRules hash t d = .ok r ∧ acc.lookup d.id = some r) →
      ∃ r, deviceDefaultRules hash t d = .ok r ∧ rules.lookup d.id = some r
  | [], acc, h, _, hin => by
    cases h
    simpa using hin
  | node :: nodes, acc, h, hsame, hin => by
    rw [List.foldlM_cons] at h
    obtain ⟨hhead, hsame⟩ := List.forall_mem_cons.mp hsame
    obtain ⟨next, hnext, h⟩ := Py.bind_eq_ok.mp h
    refine lookup_addDefaultRules h hsame ?_
    cases hd : node.2.device with
    | none =>
      rw [hd] at hnext
      cases hnext
      refine hin.imp_left ?_
      rintro ⟨n, hn, hdev⟩
      rcases List.mem_cons.mp hn with rfl | hn
      · rw [hd] at hdev
        cases hdev
      · exact ⟨n, hn, hdev⟩
    | some d' =>
      rw [hd] at hnext
      obtain ⟨r', hr', hnext⟩ := Py.bind_eq_ok.mp hnext
      cases hnext
      by_cases hid : d'.id = d.id
      · obtain rfl := hhead d' hd hid
        exact .inr ⟨r', hr', by rw [OrderedDict.lookup_set, if_pos rfl]⟩
      · rcases hin with ⟨n, hn, hdev⟩ | ⟨r, hr, hlookup⟩
        · rcases List.mem_cons.mp hn with rfl | hn
          · rw [hd] at hdev
            exact absurd (congrArg Device.id (Option.some.inj hdev)) hid
          · exact .inl ⟨n, hn, hdev⟩
        · exact .inr ⟨r, hr, by rw [OrderedDict.lookup_set, if_neg (Ne.symm hid), hlookup]⟩

/-- 既定の規則は、device ごとに計算したものである。 -/
theorem generateDefaultRules_lookup {rules : Rules} (hg : g.Discovers t) (hholds : g.Holds t)
    (hnamed : g.Named) (h : generateDefaultRules hash t g = .ok rules) {d : Device R}
    (hreach : t.Reachable d.id) (hd : t.device d.id = .ok d) :
    ∃ r, deviceDefaultRules hash t d = .ok r ∧ rules.lookup d.id = some r := by
  have hattrs : ∀ node ∈ g.nodes, g.attrs node.1 = node.2 := by
    intro node hnode
    unfold Graph.attrs
    rw [(KeyedList.lookup_eq_some_iff hg.nodup).mpr hnode, Option.getD_some]
  obtain ⟨d', hattr, hd'⟩ := hholds.device d.id hreach
  obtain rfl := Except.ok.inj (hd'.symm.trans hd)
  rw [generateDefaultRules_eq] at h
  refine lookup_addDefaultRules h (fun node hnode d' hdev hid => ?_) (.inl ?_)
  · have hkey := hnamed node.1 d' (by rw [hattrs node hnode, hdev])
    rw [← hattrs node hnode, hkey, hid, hattr] at hdev
    exact (Option.some.inj hdev).symm
  · obtain ⟨node, hnode, hkey⟩ := List.mem_map.mp ((hg.device d'.id).mpr hreach)
    refine ⟨node, hnode, ?_⟩
    rw [← hattrs node hnode, hkey, hattr]

/-! ## PON の木の規則 -/

namespace PonTree

/-- device と port の種類。 -/
structure Typed (T : PonTree R) (t : Topology R) : Prop where
  root : t.rootDeviceId = T.olt.id
  nni : T.nni.type = .ethernetNni
  pon : T.pon.type = .ponOlt
  onuPon : ∀ o ∈ T.onus, o.pon.type = .ponOnu
  uni : ∀ o ∈ T.onus, o.uni.type = .ethernetUni

/-- OLT の既定の規則。 -/
def oltRule (hash : FlowKey → Nat) (T : PonTree R) : FlowStats :=
  mkFlowStat hash [inPort T.nni.portNo, vlanVid (OFPVID_PRESENT ||| 4000), vlanPcp 0]
    [popVlan, output T.pon.portNo] 2000 0

end PonTree

namespace Onu

/-- UNI から来たものの、既定の規則。 -/
def upRules (hash : FlowKey → Nat) (o : Onu R) : List FlowStats :=
  [mkFlowStat hash [inPort o.uni.portNo, vlanVid (OFPVID_PRESENT ||| 0)]
      [setField (vlanVid (OFPVID_PRESENT ||| o.device.vlan)), output o.pon.portNo] 500 0,
    mkFlowStat hash [inPort o.uni.portNo, vlanVid 0]
      [pushVlan 0x8100, setField (vlanVid (OFPVID_PRESENT ||| o.device.vlan)),
        output o.pon.portNo] 500 0]

/-- PON から来たものの、既定の規則。 -/
def downRule (hash : FlowKey → Nat) (o : Onu R) : FlowStats :=
  mkFlowStat hash [inPort o.pon.portNo, vlanVid (OFPVID_PRESENT ||| o.device.vlan)]
    [setField (vlanVid (OFPVID_PRESENT ||| 0)), output o.uni.portNo] 500 0

end Onu

theorem onePort_of_perm {ports : List Port} {p q : Port} (h : ports.Perm [p, q]) {type : PortType}
    (hp : p.type = type) (hq : q.type ≠ type) : onePort ports type = .ok p := by
  have hfilter : (ports.filter fun x => x.type = type) = [p] := by
    have hperm := h.filter fun x => x.type = type
    rwa [List.filter_cons_of_pos (by simpa using hp), List.filter_cons_of_neg (by simpa using hq),
      List.filter_nil, List.perm_singleton] at hperm
  rw [onePort, hfilter]

namespace PonTree.Describes

variable {o : Onu R}

theorem deviceDefaultRules_olt (h : T.Describes t) (htyped : T.Typed t) :
    deviceDefaultRules hash t T.olt = .ok (rulesOf [T.oltRule hash]) := by
  obtain ⟨ps, hps, hperm⟩ := h.oltPorts
  have hup := onePort_of_perm hperm htyped.nni (by simp [htyped.pon])
  have hdown := onePort_of_perm (hperm.trans (List.Perm.swap _ _ _)) htyped.pon
    (by simp [htyped.nni])
  rw [deviceDefaultRules, if_pos htyped.root.symm]
  simp [rootDeviceDefaultRules, hps, hup, hdown, bind, Except.bind, pure, Except.pure,
    PonTree.oltRule]

theorem deviceDefaultRules_onu (h : T.Describes t) (htyped : T.Typed t) (ho : o ∈ T.onus) :
    deviceDefaultRules hash t o.device = .ok (rulesOf (o.upRules hash ++ [o.downRule hash])) := by
  obtain ⟨ps, hps, hperm⟩ := h.onuPorts o ho
  have hup := onePort_of_perm hperm (htyped.onuPon o ho) (by simp [htyped.uni o ho])
  have hdown := onePort_of_perm (hperm.trans (List.Perm.swap _ _ _)) (htyped.uni o ho)
    (by simp [htyped.onuPon o ho])
  have hroot : o.device.id ≠ t.rootDeviceId := by
    rw [htyped.root]
    exact h.olt_ne ho
  rw [deviceDefaultRules, if_neg hroot]
  simp [leafDeviceDefaultRules, hps, hup, hdown, bind, Except.bind, pure, Except.pure,
    Onu.upRules, Onu.downRule]

end PonTree.Describes

/-! ## 三つの表 -/

theorem map_snd_rulesOf {flows : List FlowStats} (h : (flows.map FlowStats.id).Nodup) :
    (rulesOf flows).flows.map Prod.snd = flows := by
  have hnodup : ((flows.map fun f => (f.id, f)).map Prod.fst).Nodup := by
    rwa [List.map_map]
  unfold rulesOf
  dsimp only
  rw [OrderedDict.ofList_of_nodup hnodup, List.map_map]
  exact List.map_id flows

theorem inPort_inj {p q : UInt32} (h : inPort p = inPort q) : p = q := by
  simpa [inPort] using h

/-- hash が衝突しない。 -/
def Collisionless (hash : FlowKey → Nat) (flows : List FlowStats) : Prop :=
  ∀ x ∈ flows, ∀ y ∈ flows, hash x.key = hash y.key → x.key = y.key

instance (hash : FlowKey → Nat) (flows : List FlowStats) : Decidable (Collisionless hash flows) :=
  haveI : ∀ x : FlowStats,
      Decidable (∀ y ∈ flows, hash x.key = hash y.key → x.key = y.key) :=
    fun _ => List.decidableBAll _ _
  List.decidableBAll _ _

theorem nodup_ids {flows : List FlowStats} (hid : ∀ f ∈ flows, f.id = hash f.key)
    (hcollision : Collisionless hash flows) (hkeys : (flows.map FlowStats.key).Nodup) :
    (flows.map FlowStats.id).Nodup := by
  have hmap : flows.map FlowStats.id = (flows.map FlowStats.key).map hash := by
    rw [List.map_map]
    exact List.map_congr_left hid
  rw [hmap]
  refine hkeys.map_on fun x hx y hy h => ?_
  obtain ⟨f, hf, rfl⟩ := List.mem_map.mp hx
  obtain ⟨f', hf', rfl⟩ := List.mem_map.mp hy
  exact hcollision f hf f' hf' h

/-- 作った flow の match と priority は、見分ける field から分かる。 -/
theorem key_mkFlowStat_inj {fields fields' : List OfbField} {actions actions' : List Action}
    {priority priority' : UInt32} {cookie cookie' : UInt64}
    (h : (mkFlowStat hash fields actions priority cookie).key
      = (mkFlowStat hash fields' actions' priority' cookie').key) :
    fields = fields' ∧ priority = priority' := by
  have hmatch := congrArg (fun k => k.match.oxmFields.map OxmField.ofbField) h
  refine ⟨?_, congrArg FlowKey.priority h⟩
  simpa [FlowStats.key, mkFlowStat, flowStatsEntryFromFlowModMessage, mkSimpleFlowMod,
    OxmField.ofbField, Function.comp_def] using hmatch

theorem Onu.nodup_rules {o : Onu R}
    (hcollision : Collisionless hash (o.upRules hash ++ [o.downRule hash]))
    (h : o.pon.portNo ≠ o.uni.portNo) :
    ((o.upRules hash ++ [o.downRule hash]).map FlowStats.id).Nodup := by
  have hfirst : ∀ {x y : UInt32} {fields fields' : List OfbField} {actions actions' : List Action},
      x ≠ y → (mkFlowStat hash (inPort x :: fields) actions 500 0).key
        ≠ (mkFlowStat hash (inPort y :: fields') actions' 500 0).key := by
    intro x y fields fields' actions actions' hne hkey
    exact hne (inPort_inj (List.cons.inj (key_mkFlowStat_inj hkey).1).1)
  refine nodup_ids (fun f hf => ?_) hcollision ?_
  · simp only [upRules, downRule, List.cons_append, List.nil_append, List.mem_cons,
      List.not_mem_nil, or_false] at hf
    rcases hf with rfl | rfl | rfl
    · exact id_mkFlowStat ..
    · exact id_mkFlowStat ..
    · exact id_mkFlowStat ..
  · simp only [upRules, downRule, List.cons_append, List.nil_append, List.map_cons, List.map_nil,
      List.nodup_cons, List.mem_cons, List.not_mem_nil, or_false, not_or, not_false_eq_true,
      List.nodup_nil, and_true]
    refine ⟨⟨fun hkey => ?_, hfirst h.symm⟩, hfirst h.symm⟩
    have hfields := (key_mkFlowStat_inj hkey).1
    have hvid : vlanVid (OFPVID_PRESENT ||| 0) ≠ vlanVid 0 := by decide
    exact hvid (List.cons.inj (List.cons.inj hfields).2).1

/-- PON の木で覚えている経路と既定の規則。 -/
structure PonTree.Tables (T : PonTree R) (hash : FlowKey → Nat) (routes : Routes R)
    (defaults : Rules) : Prop where
  routes : routes.Perm (T.onus.map T.down ++ T.onus.map T.up)
  keyed : ∀ p ∈ defaults, KeyedByHash hash p.2
  olt : defaultFlows defaults T.olt.id = [T.oltRule hash]
  onu : ∀ o ∈ T.onus, defaultFlows defaults o.device.id = o.upRules hash ++ [o.downRule hash]

/-- PON の木から計算した表。 -/
theorem PonTree.Describes.tables (hsp : ReturnsShortest shortestPath) (h : T.Describes t)
    (htyped : T.Typed t)
    (hcollision : ∀ o ∈ T.onus, Collisionless hash (o.upRules hash ++ [o.downRule hash]))
    {routes : Routes R} {defaults : Rules} {nni : UInt32}
    (htables : tablesOf hash shortestPath t = .ok (routes, defaults, nni)) :
    T.Tables hash routes defaults := by
  obtain ⟨g, routes', hroutes, hperm⟩ := computeRoutes_ponTree hsp h
  obtain ⟨g', hbuild, hdiscovers, hholds⟩ := buildGraph_discovers h.peers_mutual h.grounded
  -- 経路と既定の規則は、同じ graph から計算される
  have hgraph : g' = g := by
    have hok := hroutes
    unfold computeRoutes at hok
    obtain ⟨g₁, hg₁, hok⟩ := Py.bind_eq_ok.mp hok
    obtain ⟨rs, -, hok⟩ := Py.bind_eq_ok.mp hok
    cases hok
    exact Except.ok.inj (hbuild.symm.trans hg₁)
  subst hgraph
  unfold tablesOf at htables
  obtain ⟨pair, hpair, htables⟩ := Py.bind_eq_ok.mp htables
  obtain rfl := Except.ok.inj (hroutes.symm.trans hpair)
  obtain ⟨rules, hrules, htables⟩ := Py.bind_eq_ok.mp htables
  obtain ⟨port, -, htables⟩ := Py.bind_eq_ok.mp htables
  cases htables
  have hnamed := buildGraph_named _ hbuild
  have hlookup : ∀ d, t.Reachable d.id → t.device d.id = .ok d → ∀ flows,
      deviceDefaultRules hash t d = .ok (rulesOf flows) → (flows.map FlowStats.id).Nodup →
      defaultFlows defaults d.id = flows := by
    intro d hreach hd flows hflows hnodup
    obtain ⟨r, hr, hfound⟩ := generateDefaultRules_lookup hdiscovers hholds hnamed hrules hreach hd
    obtain rfl := Except.ok.inj (hflows.symm.trans hr)
    rw [defaultFlows, hfound, Option.map_some, Option.getD_some, map_snd_rulesOf hnodup]
  exact {
    routes := hperm
    keyed := generateDefaultRules_keyed t _ _ hrules
    olt := hlookup T.olt ((h.reachable_iff _).mpr (.inl rfl)) h.olt _
      (h.deviceDefaultRules_olt htyped) (List.nodup_singleton _)
    onu := fun o ho => hlookup o.device ((h.reachable_iff _).mpr (.inr ⟨o, ho, rfl⟩)) (h.onu o ho) _
      (h.deviceDefaultRules_onu htyped ho) (Onu.nodup_rules (hcollision o ho) (h.onuPortNo o ho)) }

/-! ## 経路を引く -/

/-- 経路を引いた結果。controller 行きは、NNI から出るものとして引く。 -/
inductive PonTree.Routed (T : PonTree R) : Option UInt32 → Option UInt32 → Route R → Prop where
  | upstream : Routed T none (some T.portNo) (none, some ⟨T.olt, T.pon, T.nni⟩)
  | fromNni : Routed T (some T.portNo) none (some ⟨T.olt, T.nni, T.pon⟩, none)
  | fromUni {o : Onu R} (ho : o ∈ T.onus) :
    Routed T (some o.portNo) none (some ⟨o.device, o.uni, o.pon⟩, none)
  | down {o : Onu R} (ho : o ∈ T.onus) : Routed T (some T.portNo) (some o.portNo)
    (some ⟨T.olt, T.nni, T.pon⟩, some ⟨o.device, o.pon, o.uni⟩)
  | up {o : Onu R} (ho : o ∈ T.onus) : Routed T (some o.portNo) (some T.portNo)
    (some ⟨o.device, o.uni, o.pon⟩, some ⟨T.olt, T.pon, T.nni⟩)

/-- controller 行きの出口は NNI とする。 -/
def PonTree.exit (T : PonTree R) (egress : Option UInt32) : Option UInt32 :=
  if egress.any isController then some T.portNo else egress

/-- 三つの表を覚えた agent。 -/
def PonTree.agent (T : PonTree R) (t : Topology R) (routes : Routes R) (defaults : Rules) :
    AgentState R := ⟨t, some routes, .value defaults, .value T.portNo⟩

/-- 入口と出口の組から経路を探す。 -/
def PonTree.find (T : PonTree R) (routes : Routes R) (ingress egress : Option UInt32) :
    Except FlowError (Route R) :=
  if ingress = none ∧ egress = some T.portNo then
    match routes.find? fun r => some r.1.2 = egress with
    | some r => .ok (none, some r.2.2)
    | none => .error (.exception "not a single upstream route")
  else
    match egress with
    | none =>
      match routes.find? fun r => some r.1.1 = ingress with
      | some r => .ok (some r.2.1, none)
      | none => .error (.exception "not a single downstream route")
    | some e =>
      match ingress.bind fun i => routes.lookup (i, e) with
      | some r => .ok (some r.1, some r.2)
      | none => .error .keyError

theorem PonTree.routeFor_agent (T : PonTree R) (routes : Routes R) (defaults : Rules)
    (ingress egress : Option UInt32) :
    (T.agent t routes defaults).routeFor ingress egress
      = T.find routes ingress (T.exit egress) := by
  unfold AgentState.routeFor exit
  cases hc : egress.any isController with
  | true =>
    rw [if_pos rfl, if_pos rfl]
    cases ingress with
    | none => exact ite_congr (by simp) (fun _ => rfl) fun _ => rfl
    | some i => exact (if_neg fun h => Option.some_ne_none i h.1).symm
  | false =>
    rw [if_neg Bool.false_ne_true, if_neg Bool.false_ne_true]
    cases ingress with
    | none => exact ite_congr (by simp) (fun _ => rfl) fun _ => rfl
    | some i => exact (if_neg fun h => Option.some_ne_none i h.1).symm

theorem PonTree.Tables.routed {routes : Routes R} {defaults : Rules}
    (h : T.Tables hash routes defaults) (hne : ∀ o ∈ T.onus, o.portNo ≠ T.portNo)
    {ingress egress : Option UInt32} {r : Route R} (hr : T.find routes ingress egress = .ok r) :
    T.Routed ingress egress r := by
  have hentry : ∀ e ∈ routes, (∃ o ∈ T.onus, T.down o = e) ∨ ∃ o ∈ T.onus, T.up o = e := by
    intro e he
    simpa using h.routes.mem_iff.mp he
  unfold find at hr
  split at hr
  · next hup =>
    obtain ⟨rfl, rfl⟩ := hup
    split at hr
    · next e he =>
      cases hr
      have hport : e.1.2 = T.portNo := by simpa using List.find?_some he
      rcases hentry e (List.mem_of_find?_eq_some he) with ⟨o, ho, rfl⟩ | ⟨o, ho, rfl⟩
      · exact absurd hport (hne o ho)
      · exact .upstream
    · cases hr
  · split at hr
    · split at hr
      · next e he =>
        cases hr
        have hport : some e.1.1 = ingress := by simpa using List.find?_some he
        rcases hentry e (List.mem_of_find?_eq_some he) with ⟨o, ho, rfl⟩ | ⟨o, ho, rfl⟩
        · rw [← hport]
          exact .fromNni
        · rw [← hport]
          exact .fromUni ho
      · cases hr
    · next e _ =>
      split at hr
      · next found hfound =>
        cases hr
        obtain ⟨i, rfl, hlookup⟩ := Option.bind_eq_some_iff.mp hfound
        rcases hentry _ (OrderedDict.mem_of_lookup hlookup) with ⟨o, ho, heq⟩ | ⟨o, ho, heq⟩
        · cases heq
          exact .down ho
        · cases heq
          exact .up ho
      · cases hr

end Voltha.Core
