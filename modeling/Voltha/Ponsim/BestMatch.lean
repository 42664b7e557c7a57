import Mathlib.Data.List.TakeWhile
import Voltha.Ponsim.SimDevice

/-!
# 最も優先される flow

`install_flows` の後の `process_frame` が、合う flow のうち最も優先されるものの action を
行うのはいつか。

`is_match` は field を前から比べ、合わない field で終わる。だから読めない field
（`UDP_DST`、`type` の無い frame への `ETH_TYPE`）が例外になるのは、それより前の field が
すべて合うときだけである（`isMatch_cases`）。表の全体では、そのような flow と合う flow の
うちで最も優先されるものが、読める field だけを持てばよい（`best_match_iff`）。
-/

namespace Voltha.Ponsim

open Voltha.Flow Precedence

variable {flows before after : List FlowStats} {flow : FlowStats} {port : UInt32} {frame : Frame}
  {field : OfbField} {fields : List OfbField}

/-! ## 合うこと -/

/-- `is_match` が比べる型。 -/
def handledTypes : List OfbFieldType :=
  [.inPort, .ethType, .ipProto, .vlanVid, .vlanPcp, .ipv4Dst, .udpDst]

def fieldsOf (flow : FlowStats) : List OfbField := flow.match.oxmFields.map OxmField.ofbField

/-- `is_match` が比べる型の field だけを持つ flow。 -/
structure Handled (flow : FlowStats) : Prop where
  oxm : flow.match.type = .oxm
  basic : ∀ f ∈ flow.match.oxmFields, f.oxmClass = .openflowBasic
  types : ∀ field ∈ fieldsOf flow, field.type ∈ handledTypes

/-- field の値が frame の値と等しい。`VLAN_VID` は、tag の有無と、tag があればその番号。 -/
def Holds (port : UInt32) (frame : Frame) (field : OfbField) : Prop :=
  match field.type with
  | .inPort => field.port = port
  | .ethType => frame.nonShimEtherType = some (intValue .ethType field)
  | .ipProto => frame.ipProto = some (intValue .ipProto field)
  | .vlanVid => (intValue .vlanVid field &&& 4096 ≠ 0 ↔ frame.shim ≠ none) ∧
      ∀ shim, frame.shim = some shim → shim.vlan = intValue .vlanVid field &&& 4095
  | .vlanPcp => frame.vlanPcp = some (intValue .vlanPcp field)
  | .ipv4Dst => frame.ipv4Dst = some (ipv4int2str (intValue .ipv4Dst field))
  | .udpDst => frame.udpDst = some (intValue .udpDst field)
  | _ => False

/-- flow のすべての field が frame と合う。 -/
def Matches (port : UInt32) (frame : Frame) (flow : FlowStats) : Prop :=
  ∀ field ∈ fieldsOf flow, Holds port frame field

/-- 比べても例外にならない field。 -/
def Readable (frame : Frame) (field : OfbField) : Prop :=
  field.type ≠ .udpDst ∧ (field.type = .ethType → frame.nonShimEtherType ≠ none)

instance : Decidable (Readable frame field) := inferInstanceAs (Decidable (_ ∧ _))

/-- 読めない field までの、無ければ終わりまでの field が、すべて合う。 -/
def ReachedFields (port : UInt32) (frame : Frame) (fields : List OfbField) : Prop :=
  ∀ field ∈ fields.takeWhile fun f => decide (Readable frame f), Holds port frame field

def Reached (port : UInt32) (frame : Frame) (flow : FlowStats) : Prop :=
  ReachedFields port frame (fieldsOf flow)

theorem Matches.reached (h : Matches port frame flow) : Reached port frame flow :=
  fun field hfield => h field (List.takeWhile_subset _ hfield)

theorem Reached.matches (h : Reached port frame flow)
    (hread : ∀ field ∈ fieldsOf flow, Readable frame field) : Matches port frame flow := by
  intro field hfield
  apply h field
  rwa [List.takeWhile_eq_self_iff.mpr fun f hf => decide_eq_true (hread f hf)]

/-! ## `is_match` -/

theorem vlanVidMatches_iff {expected : Nat} {shim : Option Dot1Q} :
    vlanVidMatches expected shim = true ↔ (expected &&& 4096 ≠ 0 ↔ shim ≠ none) ∧
      ∀ s, shim = some s → s.vlan = expected &&& 4095 := by
  cases shim <;> simp [vlanVidMatches]

/-- 読める field の比較は、値が等しいかどうかを返す。 -/
theorem fieldMatches_of_readable (port : UInt32) (htype : field.type ∈ handledTypes)
    (hread : Readable frame field) :
    ∃ b, fieldMatches port frame field = .ok b ∧ (b = true ↔ Holds port frame field) := by
  obtain ⟨hudp, hether⟩ := hread
  unfold fieldMatches Holds
  simp only [handledTypes, List.mem_cons, List.not_mem_nil, or_false] at htype
  rcases htype with htype | htype | htype | htype | htype | htype | htype
  · rw [htype]
    exact ⟨_, rfl, by simp⟩
  · obtain ⟨type, hsome⟩ := Option.ne_none_iff_exists'.mp (hether htype)
    rw [htype, hsome]
    exact ⟨_, rfl, by simp [eq_comm]⟩
  · rw [htype]
    exact ⟨_, rfl, by simp [eq_comm]⟩
  · rw [htype]
    exact ⟨_, rfl, vlanVidMatches_iff⟩
  · rw [htype]
    exact ⟨_, rfl, by simp [eq_comm]⟩
  · rw [htype]
    exact ⟨_, rfl, by simp [eq_comm]⟩
  · exact absurd htype hudp

theorem fieldMatches_of_not_readable (port : UInt32) (hread : ¬ Readable frame field) :
    ∃ e, fieldMatches port frame field = .error e := by
  rw [Readable, not_and_or, not_not, Classical.not_imp, not_not] at hread
  unfold fieldMatches
  rcases hread with hudp | ⟨hether, hnone⟩
  · rw [hudp]
    exact ⟨_, rfl⟩
  · rw [hether, hnone]
    exact ⟨_, rfl⟩

/-- loop の結果。前から比べて、合わない field で終わる。 -/
theorem matchFields_cases : ∀ {fields : List OfbField},
    (∀ field ∈ fields, field.type ∈ handledTypes) →
    (¬ ReachedFields port frame fields ∧ matchFields port frame fields = .ok false) ∨
    (ReachedFields port frame fields ∧ (∀ field ∈ fields, Readable frame field) ∧
      matchFields port frame fields = .ok true) ∨
    (ReachedFields port frame fields ∧ (∃ field ∈ fields, ¬ Readable frame field) ∧
      ∃ e, matchFields port frame fields = .error e)
  | [], _ => .inr (.inl ⟨by simp [ReachedFields], by simp, rfl⟩)
  | field :: rest, htypes => by
    obtain ⟨htype, hrest⟩ := List.forall_mem_cons.mp htypes
    by_cases hread : Readable frame field
    · obtain ⟨b, hb, hholds⟩ := fieldMatches_of_readable port htype hread
      have hreached : ReachedFields port frame (field :: rest) ↔
          Holds port frame field ∧ ReachedFields port frame rest := by
        unfold ReachedFields
        rw [List.takeWhile_cons, if_pos (decide_eq_true hread), List.forall_mem_cons]
      have hstep : matchFields port frame (field :: rest)
          = if b then matchFields port frame rest else .ok false := by
        rw [matchFields, hb]
        rfl
      rw [hreached, hstep, ← hholds]
      cases b with
      | false => exact .inl ⟨by simp, rfl⟩
      | true =>
        rcases matchFields_cases hrest with ⟨hno, h⟩ | ⟨hyes, hall, h⟩ | ⟨hyes, ⟨f, hf, hbad⟩, e, h⟩
        · exact .inl ⟨fun hc => hno hc.2, h⟩
        · exact .inr (.inl ⟨⟨rfl, hyes⟩, List.forall_mem_cons.mpr ⟨hread, hall⟩, h⟩)
        · exact .inr (.inr ⟨⟨rfl, hyes⟩, ⟨f, List.mem_cons_of_mem _ hf, hbad⟩, e, h⟩)
    · obtain ⟨e, he⟩ := fieldMatches_of_not_readable port hread
      refine .inr (.inr ⟨?_, ⟨field, List.mem_cons_self, hread⟩, e, ?_⟩)
      · unfold ReachedFields
        rw [List.takeWhile_cons, if_neg (by simpa using hread)]
        exact fun f hf => absurd hf List.not_mem_nil
      · rw [matchFields, he]
        rfl

theorem isMatch_eq (h : Handled flow) :
    isMatch flow port frame = matchFields port frame (fieldsOf flow) := by
  unfold isMatch getOfbFields
  rw [if_pos ⟨h.oxm, h.basic⟩]
  rfl

/-- `is_match` の結果。 -/
theorem isMatch_cases (port : UInt32) (frame : Frame) (h : Handled flow) :
    (¬ Reached port frame flow ∧ isMatch flow port frame = .ok false) ∨
    (Reached port frame flow ∧ (∀ field ∈ fieldsOf flow, Readable frame field) ∧
      isMatch flow port frame = .ok true) ∨
    (Reached port frame flow ∧ (∃ field ∈ fieldsOf flow, ¬ Readable frame field) ∧
      ∃ e, isMatch flow port frame = .error e) := by
  rw [isMatch_eq h]
  exact matchFields_cases h.types

/-! ## 表の全体 -/

/-- 着かない flow は飛ばされる。 -/
theorem findMatch_append (hhandled : ∀ f ∈ before, Handled f)
    (hbefore : ∀ f ∈ before, ¬ Reached port frame f) (rest : List FlowStats) :
    findMatch port frame (before ++ rest) = findMatch port frame rest := by
  induction before with
  | nil => rfl
  | cons f before ih =>
    obtain ⟨hf, hhandled⟩ := List.forall_mem_cons.mp hhandled
    obtain ⟨hno, hbefore⟩ := List.forall_mem_cons.mp hbefore
    rcases isMatch_cases port frame hf with ⟨-, h⟩ | ⟨hyes, -⟩ | ⟨hyes, -⟩
    · rw [List.cons_append, findMatch, h]
      exact ih hhandled hbefore
    · exact absurd hyes hno
    · exact absurd hyes hno

/-- どの flow にも着かなければ、何も見つからない。 -/
theorem findMatch_none (hhandled : ∀ f ∈ flows, Handled f)
    (hno : ∀ f ∈ flows, ¬ Reached port frame f) : findMatch port frame flows = .ok none := by
  have h := findMatch_append hhandled hno []
  rwa [List.append_nil] at h

/-- 最も優先される着く flow で、探すのは終わる。 -/
theorem findMatch_best (hhandled : ∀ f ∈ flows, Handled f)
    (hbest : Best priorityOf (Reached port frame) flows flow) :
    ((∀ field ∈ fieldsOf flow, Readable frame field) ∧
      findMatch port frame (installFlows flows) = .ok (some flow)) ∨
    ((∃ field ∈ fieldsOf flow, ¬ Readable frame field) ∧
      ∃ e, findMatch port frame (installFlows flows) = .error e) := by
  classical
  obtain ⟨first, rest, hsort, hfirst⟩ := hbest.exists_split
  have hsorted : ∀ f ∈ first ++ flow :: rest, Handled f := by
    intro f hf
    rw [← hsort] at hf
    exact hhandled f (mem_installFlows.mp hf)
  have hskip : findMatch port frame (installFlows flows)
      = findMatch port frame (flow :: rest) := by
    unfold installFlows
    rw [hsort, findMatch_append (fun f hf => hsorted f (List.mem_append_left _ hf)) hfirst]
  have hflow := hhandled flow hbest.mem
  rw [hskip, findMatch]
  rcases isMatch_cases port frame hflow with
    ⟨hno, -⟩ | ⟨-, hread, h⟩ | ⟨-, hbad, e, h⟩
  · exact absurd hbest.holds hno
  · exact .inl ⟨hread, by rw [h]; rfl⟩
  · exact .inr ⟨hbad, e, by rw [h]; rfl⟩

/-- 最も優先される合う flow の action を行う。比べる間に例外は無く、合う flow が無いときに
限って `None` を返す。 -/
def Forwards (flows : List FlowStats) (port : UInt32) (frame : Frame) : Prop :=
  (∃ found, findMatch port frame (installFlows flows) = .ok found) ∧
  (processFrame (installFlows flows) port frame = .ok none ↔
    ∀ flow ∈ flows, ¬ Matches port frame flow) ∧
  ∀ flow, Best priorityOf (Matches port frame) flows flow →
    processFrame (installFlows flows) port frame = (processActions flow frame).map some

theorem processFrame_of_found
    (h : findMatch port frame (installFlows flows) = .ok (some flow)) :
    processFrame (installFlows flows) port frame = (processActions flow frame).map some := by
  unfold processFrame
  rw [h]
  cases hactions : processActions flow frame <;> simp [hactions, bind, Except.bind, pure,
    Except.pure, Except.map]

theorem processFrame_of_none (h : findMatch port frame (installFlows flows) = .ok none) :
    processFrame (installFlows flows) port frame = .ok none := by
  unfold processFrame
  rw [h]
  rfl

/-- **最も優先される flow で転送するのは、読めない field までの field がすべて合う flow の
うち最も優先されるものが、読めない field を持たないときに限る。** -/
theorem best_match_iff (hhandled : ∀ flow ∈ flows, Handled flow) :
    Forwards flows port frame ↔ ∀ flow, Best priorityOf (Reached port frame) flows flow →
      ∀ field ∈ fieldsOf flow, Readable frame field := by
  classical
  constructor
  · rintro ⟨⟨found, hfound⟩, -, -⟩ flow hbest
    rcases findMatch_best hhandled hbest with ⟨hread, -⟩ | ⟨-, e, he⟩
    · exact hread
    · rw [he] at hfound
      exact absurd hfound (by simp)
  · intro hbest
    by_cases hex : ∃ f ∈ flows, Reached port frame f
    · obtain ⟨f, hf, hreached⟩ := hex
      obtain ⟨first, best, rest, hsort, hfirst, hreached⟩ := exists_split priorityOf hf hreached
      have hb := best_of_split hsort hfirst hreached
      have hread := hbest best hb
      have hmatch : Matches port frame best := hb.holds.matches hread
      have hfound : findMatch port frame (installFlows flows) = .ok (some best) := by
        rcases findMatch_best hhandled hb with ⟨-, h⟩ | ⟨⟨field, hfield, hbad⟩, -⟩
        · exact h
        · exact absurd (hread field hfield) hbad
      refine ⟨⟨_, hfound⟩, ⟨fun hnone => ?_, fun hno => ?_⟩, fun flow hflow => ?_⟩
      · -- 見つかったら `None` は返らない
        rw [processFrame_of_found hfound] at hnone
        cases hactions : processActions best frame <;> simp [hactions, Except.map] at hnone
      · exact absurd hmatch (hno best hb.mem)
      · rw [processFrame_of_found hfound, hflow.unique (hb.mono (fun _ _ h => h.reached) hmatch)]
    · have hno : ∀ f ∈ installFlows flows, ¬ Reached port frame f :=
        fun f hf hreached => hex ⟨f, mem_installFlows.mp hf, hreached⟩
      have hnone := findMatch_none (fun f hf => hhandled f (mem_installFlows.mp hf)) hno
      refine ⟨⟨_, hnone⟩, ⟨fun _ f hf hmatch => hex ⟨f, hf, hmatch.reached⟩, fun _ => ?_⟩,
        fun flow hflow => absurd ⟨flow, hflow.mem, hflow.holds.reached⟩ hex⟩
      exact processFrame_of_none hnone

/-! ## 認証と DHCP の flow -/

/-- `eth_type(v)` など、数を値に持つ match field。 -/
def intField (type : OfbFieldType) (value : UInt64) : OfbField :=
  ⟨type, false, some (.int type value), none⟩

/-- PON から来た EAPOL を、tag 4000 を付けて NNI へ送る flow。 -/
def eapolFlow : FlowStats :=
  mkFlowStat (fun _ => 0) [inPort 1, intField .ethType 0x888e]
    [pushVlan 0x8100, setField (vlanVid (4096 + 4000)), output 2] 2000 0

/-- PON から来た DHCP を、tag 4000 を付けて NNI へ送る flow。 -/
def dhcpFlow : FlowStats :=
  mkFlowStat (fun _ => 0)
    [inPort 1, intField .ethType 0x800, intField .ipProto 17, intField .udpDst 67]
    [pushVlan 0x8100, setField (vlanVid (4096 + 4000)), output 2] 1000 0

def eapolFrame : Frame := ⟨[0, 0, 0, 17, 17, 17], [0, 0, 0, 34, 34, 34], some 0x888e, [.raw [1]]⟩

def dhcpFrame : Frame :=
  ⟨[0, 0, 0, 17, 17, 17], [0, 0, 0, 34, 34, 34], some 0x800,
    [.ip 17 "255.255.255.255" [], .udp 67 []]⟩

theorem eapolFlow_handled : Handled eapolFlow := ⟨rfl, by decide, by decide⟩

theorem dhcpFlow_handled : Handled dhcpFlow := ⟨rfl, by decide, by decide⟩

theorem best_match_iff_eapol : Forwards [eapolFlow] 1 eapolFrame := by
  refine (best_match_iff fun flow hflow => ?_).mpr fun flow hbest => ?_
  · obtain rfl := List.mem_singleton.mp hflow
    exact eapolFlow_handled
  · obtain rfl := List.mem_singleton.mp hbest.mem
    decide

/-- DHCP の frame が合うはずの flow で、比べる間に例外になる。 -/
theorem best_match_fails_dhcp : ¬ ∀ (flows : List FlowStats) (port : UInt32) (frame : Frame),
    (∀ flow ∈ flows, Handled flow) → Forwards flows port frame := by
  intro h
  obtain ⟨⟨found, hfound⟩, -⟩ := h [dhcpFlow] 1 dhcpFrame fun flow hflow => by
    obtain rfl := List.mem_singleton.mp hflow
    exact dhcpFlow_handled
  have hraise : findMatch 1 dhcpFrame (installFlows [dhcpFlow])
      = .error (.attributeError "udsp_dst") := by
    rw [installFlows_singleton]
    rfl
  rw [hraise] at hfound
  exact absurd hfound (by simp)

end Voltha.Ponsim
