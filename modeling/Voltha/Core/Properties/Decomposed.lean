import Voltha.Core.FlowDecomposer

/-!
# 分解で残る flow

device ごとに、既定の規則と、分解で作られた flow を並べた列を考える。
結果に残るのは、**id ごとに、その列で初めに現れた flow** である。
同じ id の flow の action が違えば、後のものは黙って失われる。
-/

namespace Voltha.Core

open Voltha.Flow Fallible

variable {R : Type} [DecidableEq R] {hash : FlowKey → Nat}
  {route : Option UInt32 → Option UInt32 → Except FlowError (Route R)}

/-! ## 並べた列 -/

/-- 一つの flow の分解のうち、その device のもの。 -/
def generatedFor (device : String) (generated : List (String × List FlowStats)) :
    List FlowStats :=
  generated.flatMap fun p => if p.1 = device then p.2 else []

/-- 分解で作られる、その device の flow。 -/
def generatedFlows (hash : FlowKey → Nat)
    (route : Option UInt32 → Option UInt32 → Except FlowError (Route R))
    (groups : List GroupEntry) (device : String) (flow : FlowStats) : List FlowStats :=
  match decomposeFlow hash route (groupDict groups) flow with
  | .ok generated => generatedFor device generated
  | .error _ => []

/-- 既定の規則の、その device の flow。 -/
def defaultFlows (defaults : Rules) (device : String) : List FlowStats :=
  ((defaults.lookup device).map fun r => r.flows.map Prod.snd).getD []

/-- 既定の規則と、作られた flow を、現れる順に並べたもの。 -/
def candidates (hash : FlowKey → Nat)
    (route : Option UInt32 → Option UInt32 → Except FlowError (Route R)) (defaults : Rules)
    (flows : List FlowStats) (groups : List GroupEntry) (device : String) : List FlowStats :=
  defaultFlows defaults device ++ flows.flatMap (generatedFlows hash route groups device)

/-- 規則の中の、その device の、その id の flow。 -/
def flowAt (rules : Rules) (device : String) (id : Nat) : Option FlowStats :=
  (rules.lookup device).bind fun r => r.flows.lookup id

/-! ## 初めのものが残る -/

theorem lookup_keepFirst {r : DeviceRules} {f : FlowStats} {id : Nat} :
    (keepFirst r f).flows.lookup id
      = (r.flows.lookup id).or (if f.id = id then some f else none) := by
  unfold keepFirst
  split
  · next hmem =>
    rw [← OrderedDict.lookup_isSome] at hmem
    split
    · next he =>
      subst he
      obtain ⟨x, hx⟩ := Option.isSome_iff_exists.mp hmem
      rw [hx]
      rfl
    · rw [Option.or_none]
  · next hmem =>
    rw [← OrderedDict.lookup_isSome, Option.not_isSome_iff_eq_none] at hmem
    show (OrderedDict.set r.flows f.id f).lookup id = _
    rw [OrderedDict.lookup_set]
    by_cases he : f.id = id
    · subst he
      simp [hmem]
    · simp [he, Ne.symm he]

/-- 列を順に足すと、既にあるもの、無ければ列の初めのものが残る。 -/
theorem lookup_foldl_keepFirst (fs : List FlowStats) (r : DeviceRules) (id : Nat) :
    (fs.foldl keepFirst r).flows.lookup id
      = (r.flows.lookup id).or (fs.find? fun f => f.id = id) := by
  induction fs generalizing r with
  | nil => simp
  | cons f fs ih =>
    rw [List.foldl_cons, ih, lookup_keepFirst, Option.or_assoc, List.find?_cons]
    by_cases he : f.id = id
    · simp [he]
    · simp [he]

theorem flowAt_mergeRules (rules : Rules) (p : String × List FlowStats) (device : String)
    (id : Nat) : flowAt (mergeRules rules p) device id
      = (flowAt rules device id).or
        ((if p.1 = device then p.2 else []).find? fun f => f.id = id) := by
  unfold flowAt mergeRules
  rw [OrderedDict.lookup_set]
  by_cases hd : p.1 = device
  · subst hd
    rw [if_pos rfl, if_pos rfl, Option.bind_some, lookup_foldl_keepFirst]
    cases rules.lookup p.1 with
    | none => simp
    | some r => simp
  · rw [if_neg (Ne.symm hd), if_neg hd, List.find?_nil, Option.or_none]

theorem flowAt_foldl_mergeRules (generated : List (String × List FlowStats)) (rules : Rules)
    (device : String) (id : Nat) : flowAt (generated.foldl mergeRules rules) device id
      = (flowAt rules device id).or
        ((generatedFor device generated).find? fun f => f.id = id) := by
  induction generated generalizing rules with
  | nil => simp [generatedFor]
  | cons p generated ih =>
    rw [List.foldl_cons, ih, flowAt_mergeRules, Option.or_assoc]
    simp only [generatedFor, List.flatMap_cons, List.find?_append]

/-- 分解の結果の、その id の flow は、既定の規則のもの、無ければ初めに作られたものである。 -/
theorem flowAt_decomposeRules {defaults result : Rules} {flows : List FlowStats}
    {groups : List GroupEntry} (h : decomposeRules hash route defaults flows groups = .ok result)
    (device : String) (id : Nat) : flowAt result device id = (flowAt defaults device id).or
      ((flows.flatMap (generatedFlows hash route groups device)).find? fun f => f.id = id) := by
  unfold decomposeRules at h
  induction flows generalizing defaults with
  | nil =>
    cases h
    simp
  | cons flow flows ih =>
    rw [List.foldlM_cons] at h
    cases hd : decomposeFlow hash route (groupDict groups) flow with
    | error e =>
      rw [hd] at h
      cases h
    | ok generated =>
      rw [hd] at h
      have hgen : generatedFlows hash route groups device flow = generatedFor device generated := by
        rw [generatedFlows, hd]
      rw [ih h, flowAt_foldl_mergeRules, Option.or_assoc, List.flatMap_cons, List.find?_append, hgen]

/-! ## id は field の hash -/

/-- 規則の key は flow の id で、id は見分ける field の hash である。 -/
def KeyedByHash (hash : FlowKey → Nat) (r : DeviceRules) : Prop :=
  ∀ p ∈ r.flows, p.1 = p.2.id ∧ p.2.id = hash p.2.key

theorem rulesOf_keyed {flows : List FlowStats} (h : ∀ f ∈ flows, f.id = hash f.key) :
    KeyedByHash hash (rulesOf flows) := by
  intro p hp
  obtain ⟨f, hf, rfl⟩ := List.mem_map.mp (OrderedDict.mem_ofList p hp)
  exact ⟨rfl, h f hf⟩

omit [DecidableEq R] in
theorem deviceDefaultRules_keyed (t : Topology R) (d : Device R) :
    Ensures (deviceDefaultRules hash t d) (KeyedByHash hash) := by
  unfold deviceDefaultRules
  split
  · refine Ensures.bind fun ports _ => Ensures.bind fun u _ => Ensures.bind fun v _ => ?_
    refine Ensures.ok (rulesOf_keyed fun f hf => ?_)
    rw [List.mem_singleton.mp hf, id_mkFlowStat]
  · refine Ensures.bind fun ports _ => Ensures.bind fun u _ => Ensures.bind fun v _ => ?_
    refine Ensures.ok (rulesOf_keyed fun f hf => ?_)
    simp only [List.mem_cons, List.not_mem_nil, or_false] at hf
    rcases hf with rfl | rfl | rfl
    · exact id_mkFlowStat ..
    · exact id_mkFlowStat ..
    · exact id_mkFlowStat ..

omit [DecidableEq R] in
theorem generateDefaultRules_keyed (t : Topology R) (g : Graph R) :
    Ensures (generateDefaultRules hash t g) fun rules => ∀ p ∈ rules, KeyedByHash hash p.2 := by
  refine Ensures.foldlM g.nodes (fun rules hrules node _ => ?_) fun p hp => absurd hp List.not_mem_nil
  cases node.2.device with
  | none => exact Ensures.ok hrules
  | some d =>
    refine Ensures.bind fun r hr => Ensures.ok fun p hp => ?_
    rcases OrderedDict.mem_set hp with hp | rfl
    · exact hrules p hp
    · exact deviceDefaultRules_keyed t d r hr

/-- key が id なら、辞書を引くのは、値の列から初めのものを探すのと同じ。 -/
theorem lookup_eq_find? {flows : List (Nat × FlowStats)} (h : ∀ p ∈ flows, p.1 = p.2.id)
    (id : Nat) : flows.lookup id = (flows.map Prod.snd).find? fun f => f.id = id := by
  induction flows with
  | nil => rfl
  | cons p flows ih =>
    rw [OrderedDict.lookup_cons_eq, List.map_cons, List.find?_cons, h p List.mem_cons_self,
      ih fun q hq => h q (List.mem_cons_of_mem _ hq)]
    by_cases he : p.2.id = id
    · simp [he]
    · simp [he, Ne.symm he]

theorem flowAt_defaults {defaults : Rules} (h : ∀ p ∈ defaults, KeyedByHash hash p.2)
    (device : String) (id : Nat) :
    flowAt defaults device id = (defaultFlows defaults device).find? fun f => f.id = id := by
  unfold flowAt defaultFlows
  cases hr : defaults.lookup device with
  | none => rfl
  | some r =>
    exact lookup_eq_find? (fun p hp => (h _ (OrderedDict.mem_of_lookup hr) p hp).1) id

/-- 作られた flow の id は、見分ける field の hash である。 -/
def Hashed (hash : FlowKey → Nat) (generated : List (String × List FlowStats)) : Prop :=
  ∀ p ∈ generated, ∀ f ∈ p.2, f.id = hash f.key

theorem Hashed.appendRule {rules : List (String × List FlowStats)} (h : Hashed hash rules)
    {device : String} {f : FlowStats} (hf : f.id = hash f.key) :
    Hashed hash (appendRule rules device f) := by
  intro p hp x hx
  rcases OrderedDict.mem_set hp with hp | rfl
  · exact h p hp x hx
  · rcases List.mem_append.mp hx with hx | hx
    · cases hl : rules.lookup device with
      | none => rw [hl] at hx; cases hx
      | some fs =>
        rw [hl] at hx
        exact h _ (OrderedDict.mem_of_lookup hl) x hx
    · rw [List.mem_singleton.mp hx]
      exact hf

theorem hashed_nil : Hashed hash [] := fun _ h => absurd h List.not_mem_nil

theorem decomposeMulticast_hashed (groupMap : List (UInt32 × GroupEntry)) (flow : FlowStats)
    (fields : List OfbField) (actions : List Action) (inPortNo : Option UInt32)
    (ingress : RouteHop R) :
    Ensures (decomposeMulticast hash route groupMap flow fields actions inPortNo ingress)
      (Hashed hash) := by
  refine Ensures.bind fun grp _ => ?_
  cases grp with
  | none => exact Ensures.error _
  | some groupId =>
    refine Ensures.bind fun acc hacc => Ensures.ok ?_
    refine Ensures.foldlM (P := fun acc => Hashed hash acc.2) _ (fun acc h bucket _ => ?_)
      (hashed_nil.appendRule rfl) acc hacc
    refine Ensures.bind fun r _ => Ensures.bind fun i _ => Ensures.bind fun _ _ => ?_
    exact Ensures.bind fun e _ => Ensures.ok (h.appendRule rfl)

theorem decomposeFlow_hashed (groupMap : List (UInt32 × GroupEntry)) (flow : FlowStats) :
    Ensures (decomposeFlow hash route groupMap flow) (Hashed hash) := by
  refine Ensures.bind fun fields _ => Ensures.bind fun inPortNo _ => Ensures.bind fun actions _ =>
    Ensures.bind fun outPortNo _ => Ensures.bind fun r _ => ?_
  have hone : ∀ (device : String) (f : FlowStats), f.id = hash f.key →
      Ensures (.ok (appendRule [] device f) : Except FlowError _) (Hashed hash) :=
    fun _ _ hf => Ensures.ok (hashed_nil.appendRule hf)
  dsimp only
  split
  · exact Ensures.bind fun e _ => hone _ _ rfl
  · refine Ensures.bind fun i _ => ?_
    split
    · exact Ensures.bind fun _ _ => hone _ _ rfl
    · split
      · exact Ensures.bind fun _ _ => Ensures.bind fun e _ => hone _ _ rfl
      · split
        · exact Ensures.bind fun e _ => hone _ _ rfl
        · exact decomposeMulticast_hashed groupMap flow fields actions inPortNo i

/-! ## 残る flow -/

/-- 並べた列の flow の id は、どれも見分ける field の hash である。 -/
theorem candidates_hashed {defaults : Rules} (hdef : ∀ p ∈ defaults, KeyedByHash hash p.2)
    {flows : List FlowStats} {groups : List GroupEntry} {device : String} {f : FlowStats}
    (hf : f ∈ candidates hash route defaults flows groups device) : f.id = hash f.key := by
  rcases List.mem_append.mp hf with hf | hf
  · unfold defaultFlows at hf
    cases hr : defaults.lookup device with
    | none =>
      rw [hr] at hf
      cases hf
    | some r =>
      rw [hr] at hf
      obtain ⟨p, hp, rfl⟩ := List.mem_map.mp hf
      exact (hdef _ (OrderedDict.mem_of_lookup hr) p hp).2
  · obtain ⟨flow, -, hf⟩ := List.mem_flatMap.mp hf
    unfold generatedFlows at hf
    split at hf
    · next generated hd =>
      obtain ⟨p, hp, hfp⟩ := List.mem_flatMap.mp hf
      split at hfp
      · exact decomposeFlow_hashed _ flow generated hd p hp f hfp
      · cases hfp
    · cases hf

/--
**分解で残る flow。**

正常に終わった分解の結果には、作られたどの flow についても、同じ id の flow が、その device に残る。
残るのは、既定の規則・作られた flow の順に並べて **初めに現れたもの** である。この二つの hash が
衝突しなければ table・priority・flags・cookie・match は同じで、同じ id の flow の instruction がどれも同じなら、
instruction も同じである。
-/
theorem decomposition_keeps_first (hash : FlowKey → Nat)
    (route : Option UInt32 → Option UInt32 → Except FlowError (Route R)) (t : Topology R)
    (g : Graph R) (defaults result : Rules) (flows : List FlowStats) (groups : List GroupEntry)
    (hdef : generateDefaultRules hash t g = .ok defaults)
    (h : decomposeRules hash route defaults flows groups = .ok result) (flow : FlowStats)
    (hflow : flow ∈ flows) (device : String) (f : FlowStats)
    (hf : f ∈ generatedFlows hash route groups device flow) :
    ∃ x, flowAt result device f.id = some x ∧
      (candidates hash route defaults flows groups device).find? (fun y => y.id = f.id) = some x ∧
      ((hash x.key = hash f.key → x.key = f.key) → x.key = f.key) ∧
      ((∀ y ∈ candidates hash route defaults flows groups device, y.id = f.id →
        y.instructions = f.instructions) → x.instructions = f.instructions) := by
  have hkeyed := generateDefaultRules_keyed t g defaults hdef
  have hat : flowAt result device f.id
      = (candidates hash route defaults flows groups device).find? fun y => y.id = f.id := by
    rw [flowAt_decomposeRules h, flowAt_defaults hkeyed, candidates, List.find?_append]
  have hmem : f ∈ candidates hash route defaults flows groups device :=
    List.mem_append_right _ (List.mem_flatMap.mpr ⟨flow, hflow, hf⟩)
  -- 列に `f` 自身があるので、初めのものは必ず見つかる
  have hfound : ((candidates hash route defaults flows groups device).find?
      fun y => y.id = f.id).isSome = true := by
    rw [List.find?_isSome]
    exact ⟨f, hmem, by simp⟩
  obtain ⟨x, hx⟩ := Option.isSome_iff_exists.mp hfound
  have hxid : x.id = f.id := by simpa using List.find?_some hx
  have hxmem := List.mem_of_find?_eq_some hx
  refine ⟨x, hat.trans hx, hx, fun hapart => hapart ?_, fun hall => hall x hxmem hxid⟩
  rw [← candidates_hashed hkeyed hxmem, ← candidates_hashed hkeyed hmem, hxid]

/-! ## 二つの ONU の例 -/

/-- 例で使う hash。小さな値では衝突しない。 -/
def sampleHash (k : FlowKey) : Nat :=
  k.match.oxmFields.foldl (fun n f => n * 65536 +
    match f.ofbField.value with
    | some (.port p) => p.toNat
    | some (.int _ v) => v.toNat
    | _ => 0) k.priority.toNat

/-- OLT と ONU を結ぶ port。 -/
def onuPorts (onu : String) : List Port :=
  [⟨1, "pon", .ponOnu, .enabled, .active, onu, [⟨"olt", 2⟩]⟩,
    ⟨2, "uni", .ethernetUni, .enabled, .active, onu, []⟩]

/-- 一つの PON に、二つの ONU がつながる。 -/
def twoOnus : Topology Unit where
  rootDeviceId := "olt"
  logicalPorts := [⟨"nni", 1, "olt", 1, true⟩, ⟨"uni1", 101, "onu1", 2, false⟩,
    ⟨"uni2", 102, "onu2", 2, false⟩]
  devices := [
    (⟨"olt", true, 0, ()⟩, [⟨1, "nni", .ethernetNni, .enabled, .active, "olt", []⟩,
      ⟨2, "pon", .ponOlt, .enabled, .active, "olt", [⟨"onu1", 1⟩, ⟨"onu2", 1⟩]⟩]),
    (⟨"onu1", false, 101, ()⟩, onuPorts "onu1"),
    (⟨"onu2", false, 102, ()⟩, onuPorts "onu2")]

/-- ONU から NNI への最短経路。 -/
def onuPath (onu : String) : List NodeKey :=
  [.port onu 2, .device onu, .port onu 1, .port "olt" 2, .device "olt", .port "olt" 1]

/-- 例の graph での `shortest_path`。ONU どうしの経路は 7 つの node を通る。 -/
def ponPath (_ : Graph Unit) : NodeKey → NodeKey → Except FlowError (List NodeKey)
  | .port u _, .port v _ =>
    if v = "olt" then .ok (onuPath u)
    else if u = "olt" then .ok (onuPath v).reverse
    else .ok [.port u 2, .device u, .port u 1, .port "olt" 2, .port v 1, .device v, .port v 2]
  | _, _ => .error .noPath

/-- 表を覚えた agent。 -/
def twoOnusAgent : AgentState Unit :=
  (assureCachedTablesUpToDate sampleHash ponPath (AgentState.initial twoOnus)).2

/-- ONU からの上りの flow。加入者ごとの外側の tag を付ける。 -/
def upstreamFlow (port vid : UInt32) : FlowStats :=
  mkFlowStat sampleHash [inPort port]
    [pushVlan 0x8100, setField (vlanVid (OFPVID_PRESENT ||| vid)), output 1] 500 0

/-- その既定の規則。 -/
def twoOnusRules : Rules :=
  match twoOnusAgent.defaultRules with
  | .value rules => rules
  | _ => []

/-- ONU 一つの上りの flow は、OLT に残る。 -/
theorem decomposition_keeps_first_upstream :
    ∃ result, decomposeRules sampleHash twoOnusAgent.routeFor twoOnusRules
        [upstreamFlow 101 101] [] = .ok result ∧
      ∀ f ∈ generatedFlows sampleHash twoOnusAgent.routeFor [] "olt" (upstreamFlow 101 101),
        ∃ x, flowAt result "olt" f.id = some x ∧ x.instructions = f.instructions := by
  have hgraph : ∃ g, buildGraph twoOnus = .ok g ∧
      generateDefaultRules sampleHash twoOnus g = .ok twoOnusRules := by
    refine ⟨(buildGraph twoOnus).toOption.getD .empty, by decide +kernel, by decide +kernel⟩
  have hok : ∃ result, decomposeRules sampleHash twoOnusAgent.routeFor twoOnusRules
      [upstreamFlow 101 101] [] = .ok result :=
    ⟨(decomposeRules sampleHash twoOnusAgent.routeFor twoOnusRules
      [upstreamFlow 101 101] []).toOption.getD [], by decide +kernel⟩
  obtain ⟨g, -, hdef⟩ := hgraph
  obtain ⟨result, h⟩ := hok
  refine ⟨result, h, fun f hf => ?_⟩
  obtain ⟨x, hx, -, -, hsame⟩ := decomposition_keeps_first sampleHash twoOnusAgent.routeFor twoOnus
    g twoOnusRules result [upstreamFlow 101 101] [] hdef h (upstreamFlow 101 101)
    List.mem_cons_self "olt" f hf
  refine ⟨x, hx, hsame ?_⟩
  have hall : ∀ f ∈ generatedFlows sampleHash twoOnusAgent.routeFor [] "olt"
      (upstreamFlow 101 101), ∀ y ∈ candidates sampleHash twoOnusAgent.routeFor twoOnusRules
        [upstreamFlow 101 101] [] "olt", y.id = f.id → y.instructions = f.instructions := by
    decide +kernel
  exact hall f hf

/-- 二つの ONU の上りの flow は、OLT では同じ id になり、二つ目の tag の付け方は失われる。 -/
theorem second_subscriber_flow_lost :
    let result := (decomposeRules sampleHash twoOnusAgent.routeFor twoOnusRules
      [upstreamFlow 101 101, upstreamFlow 102 102] []).toOption.getD []
    decomposeRules sampleHash twoOnusAgent.routeFor twoOnusRules
        [upstreamFlow 101 101, upstreamFlow 102 102] [] = .ok result ∧
      ∃ f ∈ generatedFlows sampleHash twoOnusAgent.routeFor [] "olt" (upstreamFlow 102 102),
        ∀ r, result.lookup "olt" = some r → ∀ p ∈ r.flows,
          ¬(p.2.key = f.key ∧ p.2.instructions = f.instructions) := by
  intro result
  refine ⟨by decide +kernel, ?_⟩
  have hnone : ∃ f ∈ generatedFlows sampleHash twoOnusAgent.routeFor [] "olt"
      (upstreamFlow 102 102), ∀ p ∈ ((result.lookup "olt").getD ⟨[], []⟩).flows,
        ¬(p.2.key = f.key ∧ p.2.instructions = f.instructions) := by
    decide +kernel
  obtain ⟨f, hf, hall⟩ := hnone
  refine ⟨f, hf, fun r hr p hp => hall p ?_⟩
  rw [hr]
  exact hp

end Voltha.Core
