import Voltha.Ponsim.Installed
import Voltha.Ponsim.PonSim

/-!
# 規則の表での転送

`install_flows` の後の `process_frame` は、port の規則の表を一度だけ引くことである
（`processFrame_installed`）。

* device の他の port の規則は、その port から来た frame に合わない
* id が同じために置かれなかった flow は、前にある同じ match の flow に隠れている
-/

namespace Voltha.Ponsim

open Voltha.Flow Voltha.Core Precedence

variable {R : Type} {hash : FlowKey → Nat} {frame : Frame} {port : UInt32} {rules : List Rule}

/-! ## 表を引く -/

/-- 規則が frame に合う。 -/
def Rule.isMatch (frame : Frame) (r : Rule) : Except SimError Bool := matchFields 0 frame r.fields

/-- 規則の action を行った frame。 -/
def Rule.run (frame : Frame) (r : Rule) : Except SimError Frames :=
  (r.actions.foldlM applyAction (none, ⟨frame, none⟩)).map Prod.snd

def Rule.rank (r : Rule) : Nat := r.priority.toNat

/-- 規則の表を一度引く。合う規則が無ければ `none`。 -/
def stage (rules : List Rule) (frame : Frame) : Except SimError (Option Frames) := do
  match ← MatchTable.lookup Rule.rank (Rule.isMatch frame) rules with
  | none => return none
  | some r => return some (← r.run frame)

/-- 合わない規則だけの flow は、無くてもよい。 -/
theorem stage_flatMap_filter {q : FlowStats → Prop} [DecidablePred q] {place : FlowStats → List Rule}
    {flows : List FlowStats}
    (h : ∀ flow ∈ flows, ¬q flow → ∀ r ∈ place flow, r.isMatch frame = .ok false) :
    stage ((flows.filter q).flatMap place) frame = stage (flows.flatMap place) frame := by
  unfold stage
  rw [MatchTable.lookup_flatMap_filter h]

/-- 最も優先される規則の action を行う。 -/
theorem stage_of_best {r : Rule}
    (h : Best Rule.rank (MatchTable.Stops (Rule.isMatch frame)) rules r)
    (hmatch : r.isMatch frame = .ok true) : stage rules frame = (r.run frame).map some := by
  unfold stage
  rw [MatchTable.lookup_of_best h, MatchTable.answer, hmatch]
  show (do return some (← r.run frame)) = _
  cases r.run frame <;> rfl

/-- 先頭の規則より優先される規則が、どれも合わない。 -/
theorem best_of_outranked {before after : List Rule} {r : Rule}
    (hbefore : ∀ r' ∈ before, r'.isMatch frame = .ok false)
    (hmatch : r.isMatch frame = .ok true)
    (hafter : ∀ r' ∈ after, r.rank < r'.rank → r'.isMatch frame = .ok false) :
    Best Rule.rank (MatchTable.Stops (Rule.isMatch frame)) (before ++ r :: after) r := by
  refine Best.intro ?_ (fun r' hr' hstops => hstops (hbefore r' hr')) fun r' hr' hstops => ?_
  · unfold MatchTable.Stops
    rw [hmatch]
    simp
  · exact not_lt.mp fun hlt => hstops (hafter r' hr' hlt)

/-- 先頭の規則は、優先されるどの規則にも合わないなら選ばれる。 -/
theorem best_head {after : List Rule} {r : Rule} (hmatch : r.isMatch frame = .ok true)
    (hafter : ∀ r' ∈ after, r.rank < r'.rank → r'.isMatch frame = .ok false) :
    Best Rule.rank (MatchTable.Stops (Rule.isMatch frame)) (r :: after) r :=
  @best_of_outranked frame [] after r (fun _ hr' => absurd hr' List.not_mem_nil) hmatch hafter

/-- どの規則にも合わない。 -/
theorem stage_of_none (h : ∀ r ∈ rules, r.isMatch frame = .ok false) :
    stage rules frame = .ok none := by
  unfold stage
  rw [MatchTable.lookup_of_none fun r hr hstops => hstops (h r hr)]
  rfl

/-! ## 置かれた flow -/

section Install

variable {e : Entry}

theorem fieldsOf_install : getOfbFields (e.install hash) = .ok (inPort e.ingress :: e.rule.fields) := by
  have hbasic : ∀ f ∈ (e.install hash).match.oxmFields, f.oxmClass = .openflowBasic := by
    intro f hf
    obtain ⟨field, -, rfl⟩ := List.mem_map.mp hf
    rfl
  unfold getOfbFields
  rw [if_pos ⟨rfl, hbasic⟩]
  simp [Entry.install, mkFlowStat, mkSimpleFlowMod, flowStatsEntryFromFlowModMessage,
    OxmField.ofbField, Function.comp_def]

theorem eachAction_install :
    eachAction (e.install hash) = .ok (e.rule.actions ++ [output e.egress]) := rfl

/-- `IN_PORT` が無ければ、port を見ない。 -/
theorem matchFields_port {fields : List OfbField} (h : ∀ f ∈ fields, f.type ≠ .inPort)
    (port port' : UInt32) : matchFields port frame fields = matchFields port' frame fields := by
  induction fields with
  | nil => rfl
  | cons f fields ih =>
    obtain ⟨hf, hfields⟩ := List.forall_mem_cons.mp h
    have hone : fieldMatches port frame f = fieldMatches port' frame f := by
      unfold fieldMatches
      split
      · next htype => exact absurd htype hf
      all_goals rfl
    rw [matchFields, matchFields, hone, ih hfields]

theorem isMatch_install (h : ∀ f ∈ e.rule.fields, f.type ≠ .inPort) :
    isMatch (e.install hash) port frame
      = if e.ingress = port then e.rule.isMatch frame else .ok false := by
  unfold isMatch Rule.isMatch
  rw [fieldsOf_install, lift_ok]
  show matchFields port frame (inPort e.ingress :: e.rule.fields) = _
  rw [matchFields, ← matchFields_port h port 0]
  by_cases hport : e.ingress = port
  · simp [fieldMatches, inPort, OfbField.port, hport, bind, Except.bind]
  · simp [fieldMatches, inPort, OfbField.port, hport, bind, Except.bind, pure, Except.pure]

/-- 最後の `OUTPUT` で、出口が決まる。 -/
theorem processActions_install : processActions (e.install hash) frame
    = (e.rule.run frame).map fun frames => (some e.egress, frames) := by
  unfold processActions Rule.run
  rw [eachAction_install, lift_ok]
  show (e.rule.actions ++ [output e.egress]).foldlM applyAction (none, ⟨frame, none⟩) = _
  rw [List.foldlM_append]
  cases e.rule.actions.foldlM applyAction (none, ⟨frame, none⟩) with
  | error err => rfl
  | ok state => rfl

end Install

/-! ## device の表 -/

section Table

variable {entries : List Entry}

theorem findMatch_eq (frame : Frame) (port : UInt32) : ∀ flows : List FlowStats,
    findMatch port frame flows = MatchTable.search (fun f => isMatch f port frame) flows
  | [] => rfl
  | flow :: rest => by rw [findMatch, MatchTable.search, findMatch_eq frame port rest]

/-- 見分ける field が同じ flow は、同じに扱われる。 -/
theorem isMatch_of_key {x y : FlowStats} (h : x.key = y.key) (port : UInt32) (frame : Frame) :
    priorityOf x = priorityOf y ∧ isMatch x port frame = isMatch y port frame := by
  have hmatch : x.match = y.match := congrArg FlowKey.match h
  have hpriority : x.priority = y.priority := congrArg FlowKey.priority h
  unfold priorityOf isMatch getOfbFields
  rw [hmatch, hpriority]
  exact ⟨rfl, rfl⟩

/-- id ごとに初めのものだけを置いても、すべて置くのと同じである。 -/
theorem findMatch_keepNew {before after : List FlowStats}
    (hid : ∀ f ∈ before ++ after, f.id = hash f.key)
    (hcollision : Collisionless hash (before ++ after)) :
    findMatch port frame (installFlows (after.foldl (MatchTable.keepNew FlowStats.id) before))
      = MatchTable.lookup priorityOf (fun f => isMatch f port frame) (before ++ after) := by
  rw [findMatch_eq]
  refine MatchTable.lookup_foldl_keepNew fun x hx y hy h => isMatch_of_key ?_ port frame
  rw [hid x hx, hid y hy] at h
  exact hcollision x hx y hy h

/-- `port` から来た frame の規則。 -/
def rulesFrom (port : UInt32) (entries : List Entry) : List Rule :=
  (entries.filter fun e => e.ingress = port).map Entry.rule

/-- 置いた flow を引くのは、その port の規則を引くことである。 -/
theorem lookup_install (h : ∀ e ∈ entries, ∀ f ∈ e.rule.fields, f.type ≠ .inPort) :
    MatchTable.lookup priorityOf (fun f => isMatch f port frame) (entries.map (Entry.install hash))
      = (MatchTable.lookup (Rule.rank ∘ Entry.rule) (Rule.isMatch frame ∘ Entry.rule)
          (entries.filter fun e => e.ingress = port)).map (Option.map (Entry.install hash)) := by
  have hother : ∀ e ∈ entries, ¬e.ingress = port → isMatch (e.install hash) port frame = .ok false :=
    fun e he hne => by rw [isMatch_install (h e he), if_neg hne]
  have hsame : ∀ e ∈ entries.filter fun e => e.ingress = port,
      isMatch (e.install hash) port frame = e.rule.isMatch frame := by
    intro e he
    obtain ⟨he, hport⟩ := List.mem_filter.mp he
    rw [isMatch_install (h e he), if_pos (of_decide_eq_true hport)]
  rw [MatchTable.lookup_map]
  exact congrArg _ ((MatchTable.lookup_filter hother).symm.trans (MatchTable.lookup_of_eq hsame))

/-- 置いた flow の `process_frame` は、port の規則の表を一度引くことである。 -/
theorem processFrame_installed {before after : List Entry} {exit : UInt32}
    (h : ∀ e ∈ before ++ after, ∀ f ∈ e.rule.fields, f.type ≠ .inPort)
    (hexit : ∀ e ∈ before ++ after, e.ingress = port → e.egress = exit)
    (hcollision : Collisionless hash ((before ++ after).map (Entry.install hash))) :
    processFrame (installFlows ((after.map (Entry.install hash)).foldl
        (MatchTable.keepNew FlowStats.id) (before.map (Entry.install hash)))) port frame
      = (stage (rulesFrom port (before ++ after)) frame).map
        (Option.map fun frames => (some exit, frames)) := by
  have hid : ∀ f ∈ (before ++ after).map (Entry.install hash), f.id = hash f.key := by
    intro f hf
    obtain ⟨e, -, rfl⟩ := List.mem_map.mp hf
    rfl
  rw [List.map_append] at hid hcollision
  unfold processFrame stage rulesFrom
  rw [findMatch_keepNew hid hcollision, ← List.map_append, lookup_install h, MatchTable.lookup_map]
  cases hfound : MatchTable.lookup (Rule.rank ∘ Entry.rule) (Rule.isMatch frame ∘ Entry.rule)
      ((before ++ after).filter fun e => e.ingress = port) with
  | error err => rfl
  | ok found =>
    cases found with
    | none => rfl
    | some e =>
      obtain ⟨he, hport⟩ := List.mem_filter.mp (MatchTable.mem_of_lookup hfound)
      have hegress := hexit e he (of_decide_eq_true hport)
      show (do return some (← processActions (e.install hash) frame)) = _
      rw [processActions_install, hegress]
      cases hrun : e.rule.run frame <;> simp [hrun, bind, Except.bind, pure, Except.pure, Except.map]

end Table

end Voltha.Ponsim
