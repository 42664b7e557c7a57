import Voltha.Flow.Ofp

/-!
# flow の組み立てと読み取り

`voltha/core/flow_decomposer.py` の前半。action や match field を作る関数と、
flow からよく使う値を取り出す関数。
-/

namespace Voltha.Flow

/-- 分解と経路の計算が投げる例外。`noPath` は networkx のもの。 -/
inductive FlowError where
  | assertionError
  | attributeError
  | keyError
  | typeError
  | noPath
  | recursionError
  | exception (message : String)
deriving DecidableEq, Repr

/-! ## action -/

def OFPCML_MAX : UInt32 := 0xffe5
def OFPVID_PRESENT : UInt32 := 0x1000

/-- `output(port)`。 -/
def output (port : UInt32) : Action := ⟨.output, .output port OFPCML_MAX⟩

/-- `push_vlan(eth_type)`。 -/
def pushVlan (ethType : UInt32) : Action := ⟨.pushVlan, .push ethType⟩

/-- `pop_vlan()`。 -/
def popVlan : Action := ⟨.popVlan, .unset⟩

/-- `set_field(field)`。 -/
def setField (field : OfbField) : Action :=
  ⟨.setField, .setField ⟨.openflowBasic, .ofbField field⟩⟩

/-! ## match field -/

/-- `in_port(port)`。 -/
def inPort (port : UInt32) : OfbField := ⟨.inPort, false, some (.port port), none⟩

/-- `vlan_vid(vid)`。 -/
def vlanVid (vid : UInt32) : OfbField := ⟨.vlanVid, false, some (.int .vlanVid vid.toUInt64), none⟩

/-- `vlan_pcp(pcp)`。 -/
def vlanPcp (pcp : UInt32) : OfbField := ⟨.vlanPcp, false, some (.int .vlanPcp pcp.toUInt64), none⟩

/-! ## 組み立て -/

/-- `mk_simple_flow_mod(match_fields, actions, priority, cookie)`。他は既定値。 -/
def mkSimpleFlowMod (matchFields : List OfbField) (actions : List Action) (priority : UInt32)
    (cookie : UInt64) : FlowMod where
  cookie := cookie
  cookieMask := 0
  tableId := 0
  command := .add
  idleTimeout := 0
  hardTimeout := 0
  priority := priority
  outPort := 0
  outGroup := 0
  flags := 0
  «match» := ⟨.oxm, matchFields.map fun field => ⟨.openflowBasic, .ofbField field⟩⟩
  instructions := [⟨OFPIT_APPLY_ACTIONS, .actions actions⟩]

/-- `mk_flow_stat(match_fields, actions, priority, cookie)`。 -/
def mkFlowStat (hash : FlowKey → Nat) (matchFields : List OfbField) (actions : List Action)
    (priority : UInt32) (cookie : UInt64) : FlowStats :=
  flowStatsEntryFromFlowModMessage hash (mkSimpleFlowMod matchFields actions priority cookie)

/-- 作った flow の id は、見分ける field の hash である。 -/
theorem id_mkFlowStat (hash : FlowKey → Nat) (matchFields : List OfbField) (actions : List Action)
    (priority : UInt32) (cookie : UInt64) :
    (mkFlowStat hash matchFields actions priority cookie).id
      = hash (mkFlowStat hash matchFields actions priority cookie).key := rfl

/-! ## 読み取り -/

/-- `get_actions(flow)`。`APPLY_ACTIONS` が無ければ `None`。 -/
def getActions (flow : FlowStats) : Option (List Action) :=
  (flow.instructions.find? fun i => i.type = OFPIT_APPLY_ACTIONS).map Instruction.actions

/-- `for action in get_actions(flow)`。`None` は回せない。 -/
def eachAction (flow : FlowStats) : Except FlowError (List Action) :=
  match getActions flow with
  | some actions => .ok actions
  | none => .error .typeError

/-- `get_ofb_fields(flow)`。 -/
def getOfbFields (flow : FlowStats) : Except FlowError (List OfbField) :=
  if flow.match.type = .oxm ∧ ∀ f ∈ flow.match.oxmFields, f.oxmClass = .openflowBasic then
    .ok (flow.match.oxmFields.map OxmField.ofbField)
  else .error .assertionError

/-- `get_out_port(flow)`。 -/
def getOutPort (flow : FlowStats) : Except FlowError (Option UInt32) := do
  let actions ← eachAction flow
  return (actions.find? fun a => a.type = .output).map Action.outputPort

/-- `get_in_port(flow)`。 -/
def getInPort (flow : FlowStats) : Except FlowError (Option UInt32) := do
  let fields ← getOfbFields flow
  return (fields.find? fun f => f.type = .inPort).map OfbField.port

/-- `get_goto_table_id(flow)`。 -/
def getGotoTableId (flow : FlowStats) : Option UInt32 :=
  (flow.instructions.find? fun i => i.type = OFPIT_GOTO_TABLE).map Instruction.gotoTableId

/-- `has_next_table(flow)`。 -/
def hasNextTable (flow : FlowStats) : Bool := (getGotoTableId flow).isSome

/-- `get_group(flow)`。 -/
def getGroup (flow : FlowStats) : Except FlowError (Option UInt32) := do
  let actions ← eachAction flow
  return (actions.find? fun a => a.type = .group).map Action.groupId

/-- `(port_no & 0x7fffffff) == OFPP_CONTROLLER`。 -/
def isController (portNo : UInt32) : Bool := portNo &&& 0x7fffffff = OFPP_CONTROLLER

end Voltha.Flow
