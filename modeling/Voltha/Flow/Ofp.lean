import Mathlib.Tactic.TypeStar

/-!
# OpenFlow の data

`voltha/protos/openflow_13.proto` のうち、flow と group の表が扱う message。
整数の幅は proto のとおりで、`oneof` は場合分けになる。

`ofp_flow_stats.id` は他の field から計算する hash である。衝突は扱わないので、
hash は変数 `hash` のままにして、値を `Nat` とする。
-/

namespace Voltha.Flow

/-! ## match -/

/-- `oxm_ofb_field_types`。 -/
inductive OfbFieldType where
  | inPort | inPhyPort | metadata | ethDst | ethSrc | ethType | vlanVid | vlanPcp | ipDscp | ipEcn
  | ipProto | ipv4Src | ipv4Dst | tcpSrc | tcpDst | udpSrc | udpDst | sctpSrc | sctpDst
  | icmpv4Type | icmpv4Code | arpOp | arpSpa | arpTpa | arpSha | arpTha | ipv6Src | ipv6Dst
  | ipv6Flabel | icmpv6Type | icmpv6Code | ipv6NdTarget | ipv6NdSll | ipv6NdTll | mplsLabel
  | mplsTc | mplsBos | pbbIsid | tunnelId | ipv6Exthdr
deriving DecidableEq, Repr

/-- `oneof value`。`port` の他は、どの field のものかと値だけを持つ。 -/
inductive OfbValue where
  | port (port : UInt32)
  | int (field : OfbFieldType) (value : UInt64)
  | bytes (field : OfbFieldType) (value : List UInt8)
deriving DecidableEq, Repr

/-- `ofp_oxm_ofb_field`。 -/
structure OfbField where
  type : OfbFieldType
  hasMask : Bool
  value : Option OfbValue
  mask : Option OfbValue
deriving DecidableEq, Repr

/-- `field.port`。`oneof` が他の値なら既定値の 0。 -/
def OfbField.port (f : OfbField) : UInt32 :=
  match f.value with
  | some (.port port) => port
  | _ => 0

/-- `ofp_oxm_class`。 -/
inductive OxmClass where
  | nxm0 | nxm1 | openflowBasic | experimenter
deriving DecidableEq, Repr

/-- `oneof field`。 -/
inductive OxmBody where
  | unset
  | ofbField (field : OfbField)
  | experimenterField (oxmHeader experimenter : UInt32)
deriving DecidableEq, Repr

/-- `ofp_oxm_field`。 -/
structure OxmField where
  oxmClass : OxmClass
  body : OxmBody
deriving DecidableEq, Repr

/-- `field.ofb_field`。設定されていなければ、型が `IN_PORT`（0 番）の空の message。 -/
def OxmField.ofbField (f : OxmField) : OfbField :=
  match f.body with
  | .ofbField field => field
  | _ => ⟨.inPort, false, none, none⟩

/-- `ofp_match_type`。 -/
inductive MatchType where
  | standard | oxm
deriving DecidableEq, Repr

/-- `ofp_match`。 -/
structure Match where
  type : MatchType
  oxmFields : List OxmField
deriving DecidableEq, Repr

/-! ## action と instruction -/

/-- `ofp_action_type`。 -/
inductive ActionType where
  | output | copyTtlOut | copyTtlIn | setMplsTtl | decMplsTtl | pushVlan | popVlan | pushMpls
  | popMpls | setQueue | group | setNwTtl | decNwTtl | setField | pushPbb | popPbb | experimenter
deriving DecidableEq, Repr

/-- `oneof action`。 -/
inductive ActionBody where
  | unset
  | output (port maxLen : UInt32)
  | mplsTtl (mplsTtl : UInt32)
  | push (ethertype : UInt32)
  | popMpls (ethertype : UInt32)
  | group (groupId : UInt32)
  | nwTtl (nwTtl : UInt32)
  | setField (field : OxmField)
  | experimenter (experimenter : UInt32) (data : List UInt8)
deriving DecidableEq, Repr

/-- `ofp_action`。 -/
structure Action where
  type : ActionType
  body : ActionBody
deriving DecidableEq, Repr

namespace Action

/-- `action.output.port`。 -/
def outputPort (a : Action) : UInt32 :=
  match a.body with
  | .output port _ => port
  | _ => 0

/-- `action.group.group_id`。 -/
def groupId (a : Action) : UInt32 :=
  match a.body with
  | .group groupId => groupId
  | _ => 0

end Action

/-- `oneof data`。 -/
inductive InstructionBody where
  | unset
  | gotoTable (tableId : UInt32)
  | writeMetadata (metadata metadataMask : UInt64)
  | actions (actions : List Action)
  | meter (meterId : UInt32)
  | experimenter (experimenter : UInt32) (data : List UInt8)
deriving DecidableEq, Repr

/-- `ofp_instruction`。`type` は `uint32` である。 -/
structure Instruction where
  type : UInt32
  body : InstructionBody
deriving DecidableEq, Repr

def OFPIT_GOTO_TABLE : UInt32 := 1
def OFPIT_APPLY_ACTIONS : UInt32 := 4

/-- `instruction.actions.actions`。 -/
def Instruction.actions (i : Instruction) : List Action :=
  match i.body with
  | .actions actions => actions
  | _ => []

/-- `instruction.goto_table.table_id`。 -/
def Instruction.gotoTableId (i : Instruction) : UInt32 :=
  match i.body with
  | .gotoTable tableId => tableId
  | _ => 0

/-! ## flow -/

/-- `ofp_flow_mod_command`。`other` は知らない番号。 -/
inductive FlowModCommand where
  | add | modify | modifyStrict | delete | deleteStrict
  | other (number : Nat)
deriving DecidableEq, Repr

/-- `ofp_flow_mod`。 -/
structure FlowMod where
  cookie : UInt64
  cookieMask : UInt64
  tableId : UInt32
  command : FlowModCommand
  idleTimeout : UInt32
  hardTimeout : UInt32
  priority : UInt32
  outPort : UInt32
  outGroup : UInt32
  flags : UInt32
  «match» : Match
  instructions : List Instruction
deriving DecidableEq, Repr

/-- `ofp_flow_stats`。 -/
structure FlowStats where
  id : Nat
  tableId : UInt32
  durationSec : UInt32
  durationNsec : UInt32
  priority : UInt32
  idleTimeout : UInt32
  hardTimeout : UInt32
  flags : UInt32
  cookie : UInt64
  packetCount : UInt64
  byteCount : UInt64
  «match» : Match
  instructions : List Instruction
deriving DecidableEq, Repr

def OFPFF_SEND_FLOW_REM : UInt32 := 1
def OFPFF_CHECK_OVERLAP : UInt32 := 2
def OFPFF_RESET_COUNTS : UInt32 := 4
def OFPTT_ALL : UInt32 := 0xff
def OFPP_CONTROLLER : UInt32 := 0x7ffffffd
def OFPP_ANY : UInt32 := 0x7fffffff
def OFPG_ALL : UInt32 := 0x7ffffffc
def OFPG_ANY : UInt32 := 0x7fffffff

/-- flow を見分ける field。`hash_flow_stats` と `flow_match` は、どちらもこの五つを見る。 -/
structure FlowKey where
  tableId : UInt32
  priority : UInt32
  flags : UInt32
  cookie : UInt64
  «match» : Match
deriving DecidableEq, Repr

def FlowStats.key (f : FlowStats) : FlowKey := ⟨f.tableId, f.priority, f.flags, f.cookie, f.match⟩

def FlowMod.key (m : FlowMod) : FlowKey := ⟨m.tableId, m.priority, m.flags, m.cookie, m.match⟩

/-- `hash_flow_stats(flow)`。`hash` は五つの field を並べた文字列の md5。 -/
def hashFlowStats (hash : FlowKey → Nat) (f : FlowStats) : Nat := hash f.key

/-- `flow_stats_entry_from_flow_mod_message(mod)`。 -/
def flowStatsEntryFromFlowModMessage (hash : FlowKey → Nat) (mod : FlowMod) : FlowStats :=
  let flow : FlowStats :=
    { id := 0, tableId := mod.tableId, durationSec := 0, durationNsec := 0
      priority := mod.priority, idleTimeout := mod.idleTimeout, hardTimeout := mod.hardTimeout
      flags := mod.flags, cookie := mod.cookie, packetCount := 0, byteCount := 0
      «match» := mod.match, instructions := mod.instructions }
  { flow with id := hashFlowStats hash flow }

@[simp] theorem key_flowStatsEntry (hash : FlowKey → Nat) (mod : FlowMod) :
    (flowStatsEntryFromFlowModMessage hash mod).key = mod.key := rfl

@[simp] theorem id_flowStatsEntry (hash : FlowKey → Nat) (mod : FlowMod) :
    (flowStatsEntryFromFlowModMessage hash mod).id = hash mod.key := rfl

/-! ## group -/

/-- `ofp_group_type`。 -/
inductive GroupType where
  | all | select | indirect | ff
deriving DecidableEq, Repr

/-- `ofp_bucket`。 -/
structure Bucket where
  weight : UInt32
  watchPort : UInt32
  watchGroup : UInt32
  actions : List Action
deriving DecidableEq, Repr

/-- `ofp_group_mod_command`。 -/
inductive GroupModCommand where
  | add | modify | delete
  | other (number : Nat)
deriving DecidableEq, Repr

/-- `ofp_group_mod`。 -/
structure GroupMod where
  command : GroupModCommand
  type : GroupType
  groupId : UInt32
  buckets : List Bucket
deriving DecidableEq, Repr

/-- `ofp_group_desc`。 -/
structure GroupDesc where
  type : GroupType
  groupId : UInt32
  buckets : List Bucket
deriving DecidableEq, Repr

/-- `ofp_group_stats`。`bucketStats` は bucket ごとの packet 数と byte 数。 -/
structure GroupStats where
  groupId : UInt32
  refCount : UInt32
  packetCount : UInt64
  byteCount : UInt64
  durationSec : UInt32
  durationNsec : UInt32
  bucketStats : List (UInt64 × UInt64)
deriving DecidableEq, Repr

/-- `ofp_group_entry`。 -/
structure GroupEntry where
  desc : GroupDesc
  stats : GroupStats
deriving DecidableEq, Repr

/-- `group_entry_from_group_mod(mod)`。 -/
def groupEntryFromGroupMod (mod : GroupMod) : GroupEntry where
  desc := ⟨mod.type, mod.groupId, mod.buckets⟩
  stats := ⟨mod.groupId, 0, 0, 0, 0, 0, []⟩

end Voltha.Flow
