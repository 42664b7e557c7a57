import Voltha.Core.Properties.Decomposed

/-!
# multicast の bucket の分解

GROUP へ送る下りの flow は、入口の device の flow と、group の bucket ごとの flow に分けられる。

bucket を回す loop は、出口の番号 `out_port_no` を **外側の変数に** 書く。`OUTPUT` を持つ bucket では
必ず書き直されるので、作られる flow はその bucket だけで決まる。`OUTPUT` を持たない bucket では、
前の bucket の出口が残っていればそこへの flow が作られ、残っていなければ出口の hop が `None` になって
例外で終わる。
-/

namespace Voltha.Core

open Voltha.Flow Fallible

variable {R : Type} [DecidableEq R] {hash : FlowKey → Nat}
  {route : Option UInt32 → Option UInt32 → Except FlowError (Route R)}

/-! ## 作られる flow の列 -/

/-- bucket に `OUTPUT` がある。 -/
def HasOutput (b : Bucket) : Prop := ∃ a ∈ b.actions, a.type = .output

instance : DecidablePred HasOutput := fun b =>
  inferInstanceAs (Decidable (∃ a ∈ b.actions, a.type = .output))

/-- 作られた flow の列を、device ごとにまとめたもの。 -/
def collectRules (gen : List (String × FlowStats)) : List (String × List FlowStats) :=
  gen.foldl (fun rules p => appendRule rules p.1 p.2) []

/-- 初めの flow の後に、bucket ごとの flow を順に並べてまとめる。 -/
def assembled (first : Except FlowError (List (String × FlowStats)))
    (gen : Bucket → Except FlowError (List (String × FlowStats))) (buckets : List Bucket) :
    Except FlowError (List (String × List FlowStats)) := do
  let first ← first
  let parts ← buckets.mapM gen
  return collectRules (first ++ parts.flatten)

/-- group の bucket だけを `buckets` に替えた表。 -/
def withBuckets (groupMap : List (UInt32 × GroupEntry)) (group : GroupEntry)
    (buckets : List Bucket) : List (UInt32 × GroupEntry) :=
  OrderedDict.set groupMap group.desc.groupId
    { group with desc := { group.desc with buckets } }

/--
bucket が独立に分解されること。`run` は、group の bucket の列から `decompose_flow` の結果を返す。

bucket の無い group の flow を `first`、bucket `b` だけの group で加わる flow を `gen b` とすると、
group 全体の flow は `first` に続けて、`gen b` を bucket の順に並べたものである。
`OUTPUT` の無い bucket の flow は無い。
-/
def BucketsIndependent (run : List Bucket → Except FlowError (List (String × List FlowStats)))
    (buckets : List Bucket) : Prop :=
  ∃ first gen, run [] = assembled first gen [] ∧
    (∀ b ∈ buckets, run [b] = assembled first gen [b]) ∧ run buckets = assembled first gen buckets ∧
    ∀ b ∈ buckets, ¬ HasOutput b → gen b = .ok []

/-- group `groupId` へ送る下りの flow。`decompose_flow` は、その bucket を一つずつ分解する。 -/
def Multicast (route : Option UInt32 → Option UInt32 → Except FlowError (Route R))
    (flow : FlowStats) (groupId : UInt32) : Prop :=
  ∃ fields inPortNo actions ingress egress, getOfbFields flow = .ok fields ∧
    getInPort flow = .ok inPortNo ∧ eachAction flow = .ok actions ∧ getOutPort flow = .ok none ∧
    route inPortNo none = .ok (some ingress, egress) ∧ hasNextTable flow = false ∧
    ingress.device.root = true ∧ getGroup flow = .ok (some groupId)

theorem collectRules_append (gen : List (String × FlowStats)) (p : String × FlowStats) :
    collectRules (gen ++ [p]) = appendRule (collectRules gen) p.1 p.2 := by
  unfold collectRules
  rw [List.foldl_append]
  rfl

/-! ## 一つの bucket -/

/-- `OUTPUT` があれば、出口はその bucket のもので、前の bucket に依らない。 -/
theorem bucketOutPort_of_hasOutput {b : Bucket} (h : HasOutput b) (o : Option UInt32) :
    bucketOutPort b o = bucketOutPort b none := by
  obtain ⟨a, ha, hty⟩ := h
  obtain ⟨pre, post, hb⟩ := List.append_of_mem ha
  unfold bucketOutPort
  rw [hb, List.foldl_append, List.foldl_append, List.foldl_cons, List.foldl_cons, if_pos hty,
    if_pos hty]

/-- `OUTPUT` が無ければ、前の bucket の出口が残る。 -/
theorem bucketOutPort_of_not_hasOutput {b : Bucket} (h : ¬ HasOutput b) (o : Option UInt32) :
    bucketOutPort b o = o := by
  have hall : ∀ a ∈ b.actions, a.type ≠ .output := fun a ha hty => h ⟨a, ha, hty⟩
  unfold bucketOutPort
  generalize b.actions = actions at hall
  induction actions generalizing o with
  | nil => rfl
  | cons a actions ih =>
    rw [List.foldl_cons, if_neg (hall a List.mem_cons_self)]
    exact ih o fun a ha => hall a (List.mem_cons_of_mem _ ha)

section Bucket

variable (hash : FlowKey → Nat)
  (route : Option UInt32 → Option UInt32 → Except FlowError (Route R))

/-- 入口の device の flow。tag を外して、出口の port へ送る。 -/
def ingressFlow (flow : FlowStats) (fields : List OfbField) (actions : List Action)
    (ingress : RouteHop R) : String × FlowStats :=
  (ingress.device.id, deviceFlow hash flow fields ingress.ingressPort.portNo
    [.inPort, .ethType, .ipv4Dst]
    (actions.filter (fun a => a.type ≠ .group) ++ [popVlan, output ingress.egressPort.portNo]))

/-- 一つの bucket だけで決まる flow。 -/
def bucketFlow (flow : FlowStats) (fields : List OfbField) (inPortNo : Option UInt32)
    (ingress : RouteHop R) (b : Bucket) : Except FlowError (String × FlowStats) := do
  let route2 ← route inPortNo (bucketOutPort b none)
  assert (ingress = (← hop route2.1))
  let egress ← hop route2.2
  return (egress.device.id,
    deviceFlow hash flow fields egress.ingressPort.portNo [.inPort, .vlanVid, .vlanPcp]
      ((b.actions.filter fun a => a.type ≠ .popVlan ∧ a.type ≠ .output) ++
        [output egress.egressPort.portNo]))

/-- bucket ごとの flow の列。 -/
def bucketFlows (flow : FlowStats) (fields : List OfbField) (inPortNo : Option UInt32)
    (ingress : RouteHop R) (b : Bucket) : Except FlowError (List (String × FlowStats)) :=
  if HasOutput b then (bucketFlow hash route flow fields inPortNo ingress b).map fun p => [p]
  else .ok []

end Bucket

/-- `OUTPUT` のある bucket では、その bucket だけで決まる flow が一つ加わる。 -/
theorem decomposeBucket_of_hasOutput {flow : FlowStats} {fields : List OfbField}
    {inPortNo : Option UInt32} {ingress : RouteHop R} {b : Bucket} (h : HasOutput b)
    (acc : Option UInt32 × List (String × List FlowStats)) :
    decomposeBucket hash route flow fields inPortNo ingress acc b
      = (bucketFlow hash route flow fields inPortNo ingress b).map fun p =>
          (bucketOutPort b none, appendRule acc.2 p.1 p.2) := by
  unfold decomposeBucket bucketFlow
  dsimp only
  rw [bucketOutPort_of_hasOutput h acc.1]
  cases route inPortNo (bucketOutPort b none) with
  | error e => rfl
  | ok r =>
    obtain ⟨i, e⟩ := r
    cases i with
    | none => rfl
    | some i =>
      by_cases hi : ingress = i
      · cases e with
        | none => simp [hop, assert, hi, bind, Except.bind, Except.map]
        | some e => simp [hop, assert, hi, bind, pure, Except.bind, Except.pure, Except.map]
      · simp [hop, assert, hi, bind, Except.bind, Except.map]

/-- すべての bucket に `OUTPUT` があれば、loop は bucket ごとの flow を順に足す。 -/
theorem foldlM_decomposeBucket {flow : FlowStats} {fields : List OfbField}
    {inPortNo : Option UInt32} {ingress : RouteHop R} {buckets : List Bucket}
    (h : ∀ b ∈ buckets, HasOutput b) (o : Option UInt32) (gen : List (String × FlowStats)) :
    (buckets.foldlM (decomposeBucket hash route flow fields inPortNo ingress)
        (o, collectRules gen)).map Prod.snd
      = (buckets.mapM (bucketFlows hash route flow fields inPortNo ingress)).map fun parts =>
          collectRules (gen ++ parts.flatten) := by
  induction buckets generalizing o gen with
  | nil => simp [pure, Except.pure, Except.map]
  | cons b buckets ih =>
    have hb := h b List.mem_cons_self
    have hrest := ih fun b hb => h b (List.mem_cons_of_mem _ hb)
    rw [List.foldlM_cons, List.mapM_cons, decomposeBucket_of_hasOutput hb, bucketFlows, if_pos hb]
    cases bucketFlow hash route flow fields inPortNo ingress b with
    | error e => rfl
    | ok p =>
      have hstep := hrest (bucketOutPort b none) (gen ++ [p])
      rw [collectRules_append] at hstep
      refine hstep.trans ?_
      show _ = Except.map _ ((buckets.mapM _) >>= fun rest => pure ([p] :: rest))
      cases buckets.mapM (bucketFlows hash route flow fields inPortNo ingress) with
      | error e => rfl
      | ok parts =>
        show Except.ok (collectRules ((gen ++ [p]) ++ parts.flatten))
          = Except.ok (collectRules (gen ++ ([p] :: parts).flatten))
        rw [List.flatten_cons, List.append_assoc]

/-! ## flow の全体 -/

/-- multicast の flow では、入口の flow の後に bucket を一つずつ分解する。 -/
theorem decomposeFlow_of_multicast {flow : FlowStats} {groupId : UInt32} {fields : List OfbField}
    {inPortNo : Option UInt32} {actions : List Action} {ingress : RouteHop R}
    {egress : Option (RouteHop R)} (hfields : getOfbFields flow = .ok fields)
    (hin : getInPort flow = .ok inPortNo) (hactions : eachAction flow = .ok actions)
    (hout : getOutPort flow = .ok none) (hroute : route inPortNo none = .ok (some ingress, egress))
    (hnext : hasNextTable flow = false) (hroot : ingress.device.root = true)
    (hgroup : getGroup flow = .ok (some groupId)) (groupMap : List (UInt32 × GroupEntry)) :
    decomposeFlow hash route groupMap flow
      = ((((groupMap.lookup groupId).map fun g => g.desc.buckets).getD []).foldlM
          (decomposeBucket hash route flow fields inPortNo ingress)
            (none, collectRules [ingressFlow hash flow fields actions ingress])).map Prod.snd := by
  unfold decomposeFlow decomposeMulticast
  rw [hfields, hin, hactions, hout]
  simp only [bind, Except.bind, hroute, Option.any_none, hop, hnext, hroot, hgroup, ne_eq,
    not_true_eq_false, Bool.false_eq_true, if_false, Bool.true_eq_false]
  rfl

/-- その group へ送る multicast の flow でなければ、group の bucket は見られない。 -/
theorem decomposeFlow_congr {flow : FlowStats} {groupId : UInt32}
    (h : ¬ Multicast route flow groupId) {groupMap groupMap' : List (UInt32 × GroupEntry)}
    (hlookup : ∀ g ≠ groupId, groupMap.lookup g = groupMap'.lookup g) :
    decomposeFlow hash route groupMap flow = decomposeFlow hash route groupMap' flow := by
  unfold decomposeFlow
  refine bind_congr_ok fun fields hfields => bind_congr_ok fun inPortNo hin =>
    bind_congr_ok fun actions hactions => bind_congr_ok fun outPortNo hout =>
    bind_congr_ok fun r hroute => ?_
  dsimp only
  split
  · rfl
  · refine bind_congr_ok fun ingress hhop => ?_
    split
    · rfl
    · next hnext =>
      split
      · rfl
      · next hroot =>
        split
        · rfl
        · next hnone =>
          unfold decomposeMulticast
          refine bind_congr_ok fun grp hgroup => ?_
          cases grp with
          | none => rfl
          | some g =>
            -- 別の group なら、その bucket は替えても同じである
            have hne : g ≠ groupId := by
              rintro rfl
              obtain ⟨i, e⟩ := r
              cases i with
              | none => cases hhop
              | some i =>
                cases hhop
                obtain rfl : outPortNo = none := not_not.mp hnone
                exact h ⟨fields, inPortNo, actions, ingress, e, hfields, hin, hactions, hout, hroute,
                  by simpa using hnext, by simpa using hroot, hgroup⟩
            dsimp only
            rw [hlookup g hne]

/-- 分解の結果は、作られた flow の列をまとめたものである。 -/
theorem decomposeFlow_collects (groupMap : List (UInt32 × GroupEntry)) (flow : FlowStats) :
    Ensures (decomposeFlow hash route groupMap flow) fun rules => ∃ gen, rules = collectRules gen := by
  have hone : ∀ (device : String) (f : FlowStats),
      Ensures (.ok (appendRule [] device f) : Except FlowError _) fun rules =>
        ∃ gen, rules = collectRules gen :=
    fun device f => Ensures.ok ⟨[(device, f)], rfl⟩
  refine Ensures.bind fun fields _ => Ensures.bind fun inPortNo _ => Ensures.bind fun actions _ =>
    Ensures.bind fun outPortNo _ => Ensures.bind fun r _ => ?_
  dsimp only
  split
  · exact Ensures.bind fun e _ => hone _ _
  · refine Ensures.bind fun i _ => ?_
    split
    · exact Ensures.bind fun _ _ => hone _ _
    · split
      · exact Ensures.bind fun _ _ => Ensures.bind fun e _ => hone _ _
      · split
        · exact Ensures.bind fun e _ => hone _ _
        · refine Ensures.bind fun grp _ => ?_
          cases grp with
          | none => exact Ensures.error _
          | some groupId =>
            refine Ensures.bind fun acc hacc => Ensures.ok ?_
            refine Ensures.foldlM (P := fun acc => ∃ gen, acc.2 = collectRules gen) _
              (fun acc h bucket _ => ?_) ⟨[ingressFlow hash flow fields actions i], rfl⟩ acc hacc
            refine Ensures.bind fun r _ => Ensures.bind fun i _ => Ensures.bind fun _ _ =>
              Ensures.bind fun e _ => Ensures.ok ?_
            obtain ⟨gen, hgen⟩ := h
            exact ⟨gen ++ [(_, _)], by rw [collectRules_append, ← hgen]⟩

/-! ## 独立になる条件 -/

/-- 結果が bucket に依らなければ、bucket は何も加えない。 -/
theorem BucketsIndependent.of_const
    {run : List Bucket → Except FlowError (List (String × List FlowStats))}
    (hconst : ∀ buckets, run buckets = run [])
    (hcollect : Ensures (run []) fun rules => ∃ gen, rules = collectRules gen)
    (buckets : List Bucket) : BucketsIndependent run buckets := by
  -- どの列についても、初めの flow だけが残る
  have hnone : ∀ (first : Except FlowError (List (String × FlowStats))) (bs : List Bucket),
      assembled first (fun _ => .ok []) bs = first.map collectRules := by
    intro first bs
    have hparts : bs.mapM (fun _ => (.ok [] : Except FlowError (List (String × FlowStats))))
        = .ok (bs.map fun _ => []) := by
      induction bs with
      | nil => rfl
      | cons b bs ih => rw [List.mapM_cons, ih]; rfl
    unfold assembled
    rw [hparts]
    cases first with
    | error e => rfl
    | ok first => simp [bind, pure, Except.bind, Except.pure, Except.map]
  have hfirst : ∃ first : Except FlowError (List (String × FlowStats)),
      run [] = first.map collectRules := by
    cases hrun : run [] with
    | error e => exact ⟨.error e, rfl⟩
    | ok rules =>
      obtain ⟨gen, hgen⟩ := hcollect rules hrun
      exact ⟨.ok gen, by rw [hgen]; rfl⟩
  obtain ⟨first, hfirst⟩ := hfirst
  refine ⟨first, fun _ => .ok [], ?_, fun b _ => ?_, ?_, fun _ _ _ => rfl⟩
  · rw [hnone, hfirst]
  · rw [hnone, hconst, hfirst]
  · rw [hnone, hconst, hfirst]

omit [DecidableEq R] in
/-- 出口を指定しない経路には、入口の hop だけがある。 -/
theorem AgentState.routeFor_none {s : AgentState R} {ingress : Option UInt32} {a : RouteHop R}
    {e : Option (RouteHop R)} (h : s.routeFor ingress none = .ok (some a, e)) : e = none := by
  -- 入口の hop があるのは、入口の番号で経路を引いたときである
  unfold AgentState.routeFor at h
  cases ingress with
  | some i =>
    simp only [Option.any_none, Option.isNone_some, bind, Except.bind, pure, Except.pure,
      Bool.false_eq_true, if_false] at h
    split at h
    · cases h
      rfl
    · cases h
  | none =>
    cases hn : s.nni with
    | error err =>
      simp only [hn, Option.any_none, Option.isNone_none, if_true, bind, Except.bind, Except.map,
        pure, Except.pure, Bool.false_eq_true, if_false] at h
      cases h
    | ok n =>
      simp only [hn, Option.any_none, Option.isNone_none, if_true, bind, Except.bind, Except.map,
        pure, Except.pure, Bool.false_eq_true, if_false] at h
      split at h
      · split at h <;> cases h
      · split at h
        · cases h
          rfl
        · cases h

/--
**multicast の bucket が独立に分解される条件。**

どの flow、どの group についても、その bucket が独立に分解されるのは、flow がその group へ送る
下りのものなら、どの bucket にも `OUTPUT` があるときに限る。
-/
theorem bucketsIndependent_iff (hash : FlowKey → Nat) (s : AgentState R)
    (groupMap : List (UInt32 × GroupEntry)) (group : GroupEntry) (flow : FlowStats)
    (buckets : List Bucket) :
    BucketsIndependent
        (fun bs => decomposeFlow hash s.routeFor (withBuckets groupMap group bs) flow) buckets ↔
      (Multicast s.routeFor flow group.desc.groupId → ∀ b ∈ buckets, HasOutput b) := by
  by_cases hm : Multicast s.routeFor flow group.desc.groupId
  · obtain ⟨fields, inPortNo, actions, ingress, egress, hfields, hin, hactions, hout, hroute, hnext,
      hroot, hgroup⟩ := hm
    have hrun : ∀ bs, decomposeFlow hash s.routeFor (withBuckets groupMap group bs) flow
        = (bs.foldlM (decomposeBucket hash s.routeFor flow fields inPortNo ingress)
            (none, collectRules [ingressFlow hash flow fields actions ingress])).map Prod.snd := by
      intro bs
      rw [decomposeFlow_of_multicast hfields hin hactions hout hroute hnext hroot hgroup,
        withBuckets, OrderedDict.lookup_set, if_pos rfl]
      rfl
    constructor
    · rintro ⟨first, gen, hnil, hone, -, hnone⟩ - b hb
      by_contra hno
      -- `OUTPUT` の無い bucket だけの group は、出口の hop が無いので例外になる
      have herror : (decomposeFlow hash s.routeFor (withBuckets groupMap group [b]) flow)
          = .error .attributeError := by
        obtain rfl := AgentState.routeFor_none hroute
        rw [hrun, List.foldlM_cons]
        unfold decomposeBucket
        dsimp only
        rw [bucketOutPort_of_not_hasOutput hno, hroute]
        simp [hop, assert, bind, Except.bind, Except.map]
      have hb1 := hone b hb
      dsimp only at hb1 hnil
      rw [herror] at hb1
      unfold assembled at hb1 hnil
      rw [List.mapM_cons, hnone b hb hno] at hb1
      rw [hrun] at hnil
      cases first with
      | error e => cases hnil
      | ok first => cases hb1
    · intro h
      have hall := h ⟨fields, inPortNo, actions, ingress, egress, hfields, hin, hactions, hout,
        hroute, hnext, hroot, hgroup⟩
      refine ⟨.ok [ingressFlow hash flow fields actions ingress],
        bucketFlows hash s.routeFor flow fields inPortNo ingress, ?_, fun b hb => ?_, ?_,
        fun b hb hno => absurd (hall b hb) hno⟩
      · dsimp only
        rw [hrun, foldlM_decomposeBucket (by simp)]
        rfl
      · dsimp only
        rw [hrun, foldlM_decomposeBucket (by simpa using hall b hb)]
        rfl
      · dsimp only
        rw [hrun, foldlM_decomposeBucket hall]
        rfl
  · refine ⟨fun _ h => absurd h hm, fun _ => BucketsIndependent.of_const (fun bs => ?_) ?_ buckets⟩
    · refine decomposeFlow_congr hm fun g hg => ?_
      unfold withBuckets
      rw [OrderedDict.lookup_set, OrderedDict.lookup_set, if_neg hg, if_neg hg]
    · exact decomposeFlow_collects _ flow

/-! ## `OUTPUT` の無い bucket -/

/-- NNI から入り、group 10 へ送る flow。 -/
def groupFlow : FlowStats :=
  mkFlowStat sampleHash [inPort 1] [⟨.group, .group 10⟩] 1000 0

/-- group 10。 -/
def sampleGroup : GroupEntry := ⟨⟨.all, 10, []⟩, ⟨10, 0, 0, 0, 0, 0, []⟩⟩

/-- 一つ目の ONU へ送る bucket と、tag を外すだけの bucket。 -/
def sampleBuckets : List Bucket :=
  [⟨0, 0, 0, [popVlan, output 101]⟩, ⟨0, 0, 0, [popVlan]⟩]

/--
**`OUTPUT` の無い bucket は、前の bucket の出口を使う。**

二つの bucket の group では、一つ目の ONU に同じ flow が二つできる。`OUTPUT` の無い bucket だけなら、
分解は例外で終わる。
-/
theorem bucket_reuses_port :
    ¬ BucketsIndependent (fun bs => decomposeFlow sampleHash twoOnusAgent.routeFor
        (withBuckets [] sampleGroup bs) groupFlow) sampleBuckets ∧
      ((decomposeFlow sampleHash twoOnusAgent.routeFor (withBuckets [] sampleGroup sampleBuckets)
        groupFlow).map fun rules => rules.map fun p => (p.1, p.2.length))
          = .ok [("olt", 1), ("onu1", 2)] := by
  refine ⟨?_, by decide +kernel⟩
  rintro ⟨first, gen, hnil, hone, -, hnone⟩
  have hb := hone ⟨0, 0, 0, [popVlan]⟩ (by decide)
  have herror : decomposeFlow sampleHash twoOnusAgent.routeFor
      (withBuckets [] sampleGroup [⟨0, 0, 0, [popVlan]⟩]) groupFlow = .error .attributeError := by
    decide +kernel
  have hok : (decomposeFlow sampleHash twoOnusAgent.routeFor (withBuckets [] sampleGroup [])
      groupFlow).isOk = true := by
    decide +kernel
  dsimp only at hb hnil
  rw [hnil] at hok
  rw [herror] at hb
  unfold assembled at hb hok
  rw [List.mapM_cons, hnone _ (by decide) (by decide)] at hb
  cases first with
  | error e => cases hok
  | ok first => cases hb

end Voltha.Core
