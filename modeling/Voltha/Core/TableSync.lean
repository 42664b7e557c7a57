import Voltha.Core.FlowDecomposer
import Voltha.Lib.Exec

/-!
# logical device の表と device の表

`voltha/core/logical_device_agent.py` の `update_flow_table` と `update_group_table` を、
書き込みの後に走る callback まで含めて写したもの。

表を書くと、中身が変わったときに限り `POST_UPDATE` の callback が走る。callback は logical device の
表を分解し、device ごとの規則を `/devices/<id>/flows` と `/devices/<id>/flow_groups` に書く。

* callback の例外は `invoke_callbacks` が捨てる（`proceed_on_errors`）。要求は正常に終わる
* 分解は **一つの flow で例外になれば全体が例外になり**、device の表には何も書かれない
-/

namespace Voltha.Core.TableSync

open Exec Voltha.Flow

variable {R : Type}

/-- agent が覚えている表、logical device の表、device ごとに木に置かれた表。 -/
structure System (R : Type) where
  agent : AgentState R
  tables : Tables
  stored : String → Tables

/-! ## callback -/

/-- device が木にあれば、その表を書き換える。 -/
def updateDevice (id : String) (f : Tables → Tables) : Exec (System R) FlowError Unit := do
  require (id ∈ (← read).agent.tree.devices.map fun e => e.1.id) .keyError
  modify fun s => { s with stored := Function.update s.stored id (f (s.stored id)) }

/-- `root_proxy.update('/devices/{}/flows', Flows(items=flows))`。 -/
def updateDeviceFlows (id : String) (flows : List FlowStats) : Exec (System R) FlowError Unit :=
  updateDevice id fun t => { t with flows }

/-- `root_proxy.update('/devices/{}/flow_groups', FlowGroups(items=groups))`。 -/
def updateDeviceGroups (id : String) (groups : List GroupEntry) :
    Exec (System R) FlowError Unit :=
  updateDevice id fun t => { t with groups }

/-- `_flow_table_updated` と `_group_table_updated` に共通の loop。 -/
def storeRules : Rules → Exec (System R) FlowError Unit
  | [] => pure ()
  | (id, rules) :: rest => do
    updateDeviceFlows id (rules.flows.map Prod.snd)
    updateDeviceGroups id (rules.groups.map Prod.snd)
    storeRules rest

/-- agent の計算。 -/
def onAgent {α : Type} (m : AgentOp R α) : Exec (System R) FlowError α :=
  fun s => ((m s.agent).1, { s with agent := (m s.agent).2 })

variable [DecidableEq R]

section Callbacks

variable (hash : FlowKey → Nat)
  (shortestPath : Graph R → NodeKey → NodeKey → Except FlowError (List NodeKey))

/-- agent が覚えている経路と既定の規則で、`decompose_rules(flows, groups)` を動かす。 -/
def deviceRules (flows : List FlowStats) (groups : List GroupEntry) : AgentOp R Rules := do
  match ← getAllDefaultRules hash shortestPath with
  | none => raise .attributeError
  | some defaults => liftExcept (decomposeRules hash (← read).routeFor defaults flows groups)

/-- `_flow_table_updated(flows)`。 -/
def flowTableUpdated (flows : List FlowStats) : Exec (System R) FlowError Unit := do
  let groups := (← read).tables.groups
  storeRules (← onAgent (deviceRules hash shortestPath flows groups))

/-- `_group_table_updated(flow_groups)`。 -/
def groupTableUpdated (groups : List GroupEntry) : Exec (System R) FlowError Unit := do
  let flows := (← read).tables.flows
  storeRules (← onAgent (deviceRules hash shortestPath flows groups))

/-- `flows_proxy.update('/', Flows(items=flows))`。callback の例外は捨てられる。 -/
def putFlows (flows : List FlowStats) : Exec (System R) TableError Unit := fun s =>
  if s.tables.flows = flows then (.ok (), s)
  else (.ok (), (flowTableUpdated hash shortestPath flows
    { s with tables := { s.tables with flows } }).2)

/-- `groups_proxy.update('/', FlowGroups(items=groups))`。 -/
def putGroups (groups : List GroupEntry) : Exec (System R) TableError Unit := fun s =>
  if s.tables.groups = groups then (.ok (), s)
  else (.ok (), (groupTableUpdated hash shortestPath groups
    { s with tables := { s.tables with groups } }).2)

/-! ## handler -/

/-- `announce_flows_deleted(flows)`。 -/
def announceFlowsDeleted (flows : List FlowStats) : Exec (System R) TableError Unit :=
  if flows.any asksRemoval then raise .notImplementedError else pure ()

/-- `flow_add(mod)`。 -/
def flowAdd (mod : FlowMod) : Exec (System R) TableError Unit := do
  require (mod.cookieMask = 0) .assertionError
  let flows := (← read).tables.flows
  let flow := flowStatsEntryFromFlowModMessage hash mod
  if mod.flags &&& OFPFF_CHECK_OVERLAP ≠ 0 then
    if findOverlappingFlows flows mod true = [] then
      putFlows hash shortestPath (flows ++ [flow])
    else pure ()
  else
    match findFlow flows flow with
    | some idx =>
      match flows[idx]? with
      | some old => putFlows hash shortestPath (flows.set idx (replacement hash mod old))
      | none => pure ()
    | none => putFlows hash shortestPath (flows ++ [flow])

/-- `flow_delete(mod)`。表を書き、callback が走ってから、通知する。 -/
def flowDelete (mod : FlowMod) : Exec (System R) TableError Unit := do
  match splitBySpec mod (← read).tables.flows with
  | .error e => raise e
  | .ok (toKeep, toDelete) =>
    if toDelete = [] then pure () else putFlows hash shortestPath toKeep
    announceFlowsDeleted toDelete

/-- `flow_delete_strict(mod)`。 -/
def flowDeleteStrict (mod : FlowMod) : Exec (System R) TableError Unit := do
  let flows := (← read).tables.flows
  match findFlow flows (flowStatsEntryFromFlowModMessage hash mod) with
  | some idx => putFlows hash shortestPath (flows.eraseIdx idx)
  | none => pure ()

/-- `update_flow_table(flow_mod)`。`MODIFY` の二つは、まだ書かれていない。 -/
def updateFlowTable (mod : FlowMod) : Exec (System R) TableError Unit :=
  match mod.command with
  | .add => flowAdd hash shortestPath mod
  | .delete => flowDelete hash shortestPath mod
  | .deleteStrict => flowDeleteStrict hash shortestPath mod
  | .modify => raise .notImplementedError
  | .modifyStrict => raise .notImplementedError
  | .other _ => pure ()

/-- `flows_delete_by_group_id(flows, group_id)`。 -/
def flowsDeleteByGroupId (flows : List FlowStats) (groupId : UInt32) :
    Exec (System R) TableError (Bool × List FlowStats) := do
  let toKeep := flows.filter fun f => !flowHasOutGroup f groupId
  let toDelete := flows.filter fun f => flowHasOutGroup f groupId
  announceFlowsDeleted toDelete
  return (!toDelete.isEmpty, toKeep)

/-- `group_add(group_mod)`。 -/
def groupAdd (mod : GroupMod) : Exec (System R) TableError Unit := do
  let groups := groupDict (← read).tables.groups
  if mod.groupId ∈ groups.map Prod.fst then pure ()
  else
    putGroups hash shortestPath
      ((OrderedDict.set groups mod.groupId (groupEntryFromGroupMod mod)).map Prod.snd)

/-- `group_delete(group_mod)`。group を書いたときの callback は、まだ消していない flow を見る。 -/
def groupDelete (mod : GroupMod) : Exec (System R) TableError Unit := do
  let groups := groupDict (← read).tables.groups
  if mod.groupId = OFPG_ALL then putGroups hash shortestPath []
  else if mod.groupId ∈ groups.map Prod.fst then
    let (changed, flows) ← flowsDeleteByGroupId (← read).tables.flows mod.groupId
    putGroups hash shortestPath ((OrderedDict.del groups mod.groupId).map Prod.snd)
    if changed then putFlows hash shortestPath flows else pure ()
  else pure ()

/-- `group_modify(group_mod)`。 -/
def groupModify (mod : GroupMod) : Exec (System R) TableError Unit := do
  let groups := groupDict (← read).tables.groups
  if mod.groupId ∈ groups.map Prod.fst then
    putGroups hash shortestPath
      ((OrderedDict.set groups mod.groupId (groupEntryFromGroupMod mod)).map Prod.snd)
  else pure ()

/-- `update_group_table(group_mod)`。 -/
def updateGroupTable (mod : GroupMod) : Exec (System R) TableError Unit :=
  match mod.command with
  | .delete => groupDelete hash shortestPath mod
  | .add => groupAdd hash shortestPath mod
  | .modify => groupModify hash shortestPath mod
  | .other _ => pure ()

/-- 要求を一つ処理する。 -/
def exec : TableRequest → Exec (System R) TableError Unit
  | .flowMod mod => updateFlowTable hash shortestPath mod
  | .groupMod mod => updateGroupTable hash shortestPath mod

/-- 要求の後の状態。例外が飛んでも、次の要求は届く。 -/
def step (s : System R) (req : TableRequest) : System R := (exec hash shortestPath req s).2

end Callbacks

end Voltha.Core.TableSync
