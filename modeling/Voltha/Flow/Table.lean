import Mathlib.Data.List.Nodup
import Voltha.Lib.Exec
import Voltha.Lib.OrderedDict
import Voltha.Flow.Ofp

/-!
# logical device の flow table と group table

`voltha/core/logical_device_agent.py` の `update_flow_table` と `update_group_table`。
二つの表は config の木に置かれ、proxy を通して **表ごと** 読み書きする。
書き込みの後に走る callback（device への分解）は、二つの表を変えず、例外も外へ出さない。

例外が飛んでも、それまでに書いた表は残る。したがって、いつ書き、いつ通知するかが効いてくる。
-/

namespace Voltha.Flow

open Exec

/-- flow table と group table。 -/
structure Tables where
  flows : List FlowStats
  groups : List GroupEntry
deriving DecidableEq, Repr

/-- handler が投げる例外。 -/
inductive TableError where
  | assertionError
  | notImplementedError
deriving DecidableEq, Repr

abbrev TableOp := Exec Tables TableError

namespace Tables

/-- `flows_proxy.update('/', Flows(items=flows))`。 -/
def putFlows (flows : List FlowStats) : TableOp Unit := modify fun s => { s with flows }

/-- `groups_proxy.update('/', FlowGroups(items=groups))`。 -/
def putGroups (groups : List GroupEntry) : TableOp Unit := modify fun s => { s with groups }

end Tables

/-! ## flow の判定 -/

/-- `flow_match(f1, f2)`。 -/
def flowMatch (f1 f2 : FlowStats) : Bool := f1.key = f2.key

/-- `find_flow(flows, flow)`。見つからなければ `none`（source では -1）。 -/
def findFlow (flows : List FlowStats) (flow : FlowStats) : Option Nat :=
  flows.findIdx? fun f => flowMatch f flow

/-- `find_overlapping_flows(flows, mod, return_on_first)`。中身はまだ無く、空の列を返す。 -/
def findOverlappingFlows (_flows : List FlowStats) (_mod : FlowMod) (_returnOnFirst : Bool) :
    List FlowStats :=
  []

/-- `flow_has_out_port` と `flow_has_out_group` の共通の形。 -/
def flowHasAction (p : Action → Bool) (flow : FlowStats) : Bool :=
  flow.instructions.any fun i => i.type = OFPIT_APPLY_ACTIONS && i.actions.any p

/-- `flow_has_out_port(flow, out_port)`。 -/
def flowHasOutPort (flow : FlowStats) (outPort : UInt32) : Bool :=
  flowHasAction (fun a => a.type = .output && a.outputPort = outPort) flow

/-- `flow_has_out_group(flow, group_id)`。 -/
def flowHasOutGroup (flow : FlowStats) (groupId : UInt32) : Bool :=
  flowHasAction (fun a => a.type = .group && a.groupId = groupId) flow

/-- `flow_matches_spec` のうち、match を見る前までの条件。 -/
def coveredBy (flow : FlowStats) (mod : FlowMod) : Bool :=
  flow.cookie &&& mod.cookieMask = mod.cookie &&& mod.cookieMask &&
  (mod.tableId = OFPTT_ALL || flow.tableId = mod.tableId) &&
  (mod.outPort = OFPP_ANY || flowHasOutPort flow mod.outPort) &&
  (mod.outGroup = OFPG_ANY || flowHasOutGroup flow mod.outGroup)

/-- `flow_matches_spec(flow, flow_mod)`。match が空でなければ、まだ判定できない。 -/
def flowMatchesSpec (flow : FlowStats) (mod : FlowMod) : Except TableError Bool :=
  if coveredBy flow mod then
    if mod.match.oxmFields = [] then .ok true else .error .notImplementedError
  else .ok false

/-! ## 通知 -/

/-- `announce_flow_deleted(flow)` が例外を投げる flow。 -/
def asksRemoval (flow : FlowStats) : Bool := flow.flags &&& OFPFF_SEND_FLOW_REM ≠ 0

/-- `announce_flows_deleted(flows)`。 -/
def announceFlowsDeleted (flows : List FlowStats) : TableOp Unit :=
  if flows.any asksRemoval then raise .notImplementedError else pure ()

/-! ## flow の handler -/

section Flows

variable (hash : FlowKey → Nat)

/-- 既にある flow を置き換える。counter は、求められない限り引き継ぐ。 -/
def replacement (mod : FlowMod) (old : FlowStats) : FlowStats :=
  let flow := flowStatsEntryFromFlowModMessage hash mod
  if mod.flags &&& OFPFF_RESET_COUNTS = 0 then
    { flow with byteCount := old.byteCount, packetCount := old.packetCount }
  else flow

/-- `flow_add(mod)`。 -/
def flowAdd (mod : FlowMod) : TableOp Unit := do
  require (mod.cookieMask = 0) .assertionError
  let flows := (← read).flows
  let flow := flowStatsEntryFromFlowModMessage hash mod
  if mod.flags &&& OFPFF_CHECK_OVERLAP ≠ 0 then
    if findOverlappingFlows flows mod true = [] then
      Tables.putFlows (flows ++ [flow])
    else pure ()
  else
    match findFlow flows flow with
    | some idx =>
      match flows[idx]? with
      | some old => Tables.putFlows (flows.set idx (replacement hash mod old))
      | none => pure ()
    | none => Tables.putFlows (flows ++ [flow])

/-- `flow_delete` の、残すものと消すものに分ける loop。 -/
def splitBySpec (mod : FlowMod) :
    List FlowStats → Except TableError (List FlowStats × List FlowStats)
  | [] => .ok ([], [])
  | f :: fs => do
    let b ← flowMatchesSpec f mod
    let (keep, delete) ← splitBySpec mod fs
    return if b then (keep, f :: delete) else (f :: keep, delete)

/-- `flow_delete(mod)`。表を書いてから通知する。 -/
def flowDelete (mod : FlowMod) : TableOp Unit := do
  match splitBySpec mod (← read).flows with
  | .error e => raise e
  | .ok (toKeep, toDelete) =>
    if toDelete = [] then pure () else Tables.putFlows toKeep
    announceFlowsDeleted toDelete

/-- `flow_delete_strict(mod)`。 -/
def flowDeleteStrict (mod : FlowMod) : TableOp Unit := do
  let flows := (← read).flows
  match findFlow flows (flowStatsEntryFromFlowModMessage hash mod) with
  | some idx => Tables.putFlows (flows.eraseIdx idx)
  | none => pure ()

/-- `flow_modify(mod)`。 -/
def flowModify (_mod : FlowMod) : TableOp Unit := raise .notImplementedError

/-- `flow_modify_strict(mod)`。 -/
def flowModifyStrict (_mod : FlowMod) : TableOp Unit := raise .notImplementedError

/-- `update_flow_table(flow_mod)`。 -/
def updateFlowTable (mod : FlowMod) : TableOp Unit :=
  match mod.command with
  | .add => flowAdd hash mod
  | .delete => flowDelete mod
  | .deleteStrict => flowDeleteStrict hash mod
  | .modify => flowModify mod
  | .modifyStrict => flowModifyStrict mod
  | .other _ => pure ()

end Flows

/-! ## group の handler -/

/-- `flows_delete_by_group_id(flows, group_id)`。通知してから、残す flow を返す。 -/
def flowsDeleteByGroupId (flows : List FlowStats) (groupId : UInt32) :
    TableOp (Bool × List FlowStats) := do
  let toKeep := flows.filter fun f => !flowHasOutGroup f groupId
  let toDelete := flows.filter fun f => flowHasOutGroup f groupId
  announceFlowsDeleted toDelete
  return (!toDelete.isEmpty, toKeep)

/-- `OrderedDict((g.desc.group_id, g) for g in groups)`。 -/
def groupDict (groups : List GroupEntry) : List (UInt32 × GroupEntry) :=
  OrderedDict.ofList (groups.map fun g => (g.desc.groupId, g))

/-- `group_add(group_mod)`。 -/
def groupAdd (mod : GroupMod) : TableOp Unit := do
  let groups := groupDict (← read).groups
  if mod.groupId ∈ groups.map Prod.fst then pure ()
  else
    Tables.putGroups
      ((OrderedDict.set groups mod.groupId (groupEntryFromGroupMod mod)).map Prod.snd)

/-- `group_delete(group_mod)`。 -/
def groupDelete (mod : GroupMod) : TableOp Unit := do
  let groups := groupDict (← read).groups
  -- すべての group を消すときは、指している flow には触れない
  if mod.groupId = OFPG_ALL then Tables.putGroups []
  else if mod.groupId ∈ groups.map Prod.fst then
    let (changed, flows) ← flowsDeleteByGroupId (← read).flows mod.groupId
    Tables.putGroups ((OrderedDict.del groups mod.groupId).map Prod.snd)
    if changed then Tables.putFlows flows else pure ()
  else pure ()

/-- `group_modify(group_mod)`。 -/
def groupModify (mod : GroupMod) : TableOp Unit := do
  let groups := groupDict (← read).groups
  if mod.groupId ∈ groups.map Prod.fst then
    Tables.putGroups
      ((OrderedDict.set groups mod.groupId (groupEntryFromGroupMod mod)).map Prod.snd)
  else pure ()

/-- `update_group_table(group_mod)`。 -/
def updateGroupTable (mod : GroupMod) : TableOp Unit :=
  match mod.command with
  | .delete => groupDelete mod
  | .add => groupAdd mod
  | .modify => groupModify mod
  | .other _ => pure ()

/-! ## 要求の列 -/

/-- 一つの要求。 -/
inductive TableRequest where
  | flowMod (mod : FlowMod)
  | groupMod (mod : GroupMod)
deriving DecidableEq, Repr

/-- 要求を一つ処理する。 -/
def TableRequest.exec (hash : FlowKey → Nat) : TableRequest → TableOp Unit
  | .flowMod mod => updateFlowTable hash mod
  | .groupMod mod => updateGroupTable mod

/-- 要求の後の表。例外が飛んでも、次の要求は届く。 -/
def Tables.step (hash : FlowKey → Nat) (s : Tables) (req : TableRequest) : Tables :=
  (req.exec hash s).2

def Tables.empty : Tables := ⟨[], []⟩

end Voltha.Flow
