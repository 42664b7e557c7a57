import Voltha.Flow.Ofp
import Voltha.Lib.Py

/-!
# loxi の object と openflow_13 の message

`ofagent/converter.py`。controller から届く loxi の object は `to_grpc` で protobuf の message になり、
Voltha から得た message は `to_loxi` で loxi の object に戻る。

二つの変換は別々の表で、戻す側は message を一度 **辞書** にする（`pb2dict`）。辞書からは、既定値の field と
空の列が落ち、設定された `oneof` は残る。
-/

namespace Voltha.Ofagent

open Voltha.Flow Py

/-! ## loxi の object -/

namespace Loxi

/-- match の field。`other` は変換の表に無い class で、pack した byte で表す。 -/
inductive Oxm where
  | ethType (value : Nat)
  | inPort (value : Nat)
  | ipProto (value : Nat)
  | vlanVid (value : Nat)
  | vlanPcp (value : Nat)
  | ipv4Dst (value : Nat)
  | other (packed : List UInt8)
deriving DecidableEq, Repr

/-- action。 -/
inductive Action where
  | output (port maxLen : Nat)
  | group (groupId : Nat)
  | setField (field : Oxm)
  | popVlan
  | pushVlan (ethertype : Nat)
  | other (packed : List UInt8)
deriving DecidableEq, Repr

/-- instruction。 -/
inductive Instruction where
  | applyActions (actions : List Action)
  | gotoTable (tableId : Nat)
  | other (packed : List UInt8)
deriving DecidableEq, Repr

/-- `of13.message.flow_add`。 -/
structure FlowAdd where
  cookie : Nat
  cookieMask : Nat
  tableId : Nat
  idleTimeout : Nat
  hardTimeout : Nat
  priority : Nat
  bufferId : Nat
  outPort : Nat
  outGroup : Nat
  flags : Nat
  oxmList : List Oxm
  instructions : List Instruction
deriving DecidableEq, Repr

/-- `of13.flow_stats_entry`。 -/
structure FlowStatsEntry where
  tableId : Nat
  durationSec : Nat
  durationNsec : Nat
  priority : Nat
  idleTimeout : Nat
  hardTimeout : Nat
  flags : Nat
  cookie : Nat
  packetCount : Nat
  byteCount : Nat
  oxmList : List Oxm
  instructions : List Instruction
deriving DecidableEq, Repr

end Loxi

/-! ## `to_grpc` -/

/-- protobuf の `uint32` の field への代入。 -/
def uint32 (n : Nat) : Except Error UInt32 :=
  if n < UInt32.size then .ok (UInt32.ofNat n) else .error .valueError

/-- protobuf の `uint64` の field への代入。 -/
def uint64 (n : Nat) : Except Error UInt64 :=
  if n < UInt64.size then .ok (UInt64.ofNat n) else .error .valueError

/-- `OFPXMC_OPENFLOW_BASIC` の field。 -/
def ofbField (type : OfbFieldType) (value : OfbValue) : OxmField :=
  ⟨.openflowBasic, .ofbField ⟨type, false, some value, none⟩⟩

/-- 値の名が型の名と同じ、`uint32` の field。 -/
def ofbInt (type : OfbFieldType) (value : Nat) : Except Error OxmField := do
  let v ← uint32 value
  return ofbField type (.int type v.toUInt64)

def loxiOxmEthTypeToOfpOxm (value : Nat) : Except Error OxmField := ofbInt .ethType value

def loxiOxmInPortToOfpOxm (value : Nat) : Except Error OxmField := do
  let v ← uint32 value
  return ofbField .inPort (.port v)

def loxiOxmIpProtoToOfpOxm (value : Nat) : Except Error OxmField := ofbInt .ipProto value

def loxiOxmVlanVidToOfpOxm (value : Nat) : Except Error OxmField := ofbInt .vlanVid value

def loxiOxmVlanPcpToOfpOxm (value : Nat) : Except Error OxmField := ofbInt .vlanPcp value

def loxiOxmIpv4DstToOfpOxm (value : Nat) : Except Error OxmField := ofbInt .ipv4Dst value

/-- `to_grpc` の、match の field。表に無い class は `KeyError`。 -/
def toGrpcOxm : Loxi.Oxm → Except Error OxmField
  | .ethType value => loxiOxmEthTypeToOfpOxm value
  | .inPort value => loxiOxmInPortToOfpOxm value
  | .ipProto value => loxiOxmIpProtoToOfpOxm value
  | .vlanVid value => loxiOxmVlanVidToOfpOxm value
  | .vlanPcp value => loxiOxmVlanPcpToOfpOxm value
  | .ipv4Dst value => loxiOxmIpv4DstToOfpOxm value
  | .other _ => .error .keyError

/-- `to_grpc` の、action。 -/
def toGrpcAction : Loxi.Action → Except Error Action
  | .output port maxLen => do
    let port ← uint32 port
    let maxLen ← uint32 maxLen
    return ⟨.output, .output port maxLen⟩
  | .group groupId => do
    let groupId ← uint32 groupId
    return ⟨.group, .group groupId⟩
  | .setField field => do
    let field ← toGrpcOxm field
    return ⟨.setField, .setField field⟩
  | .popVlan => .ok ⟨.popVlan, .unset⟩
  | .pushVlan ethertype => do
    let ethertype ← uint32 ethertype
    return ⟨.pushVlan, .push ethertype⟩
  | .other _ => .error .keyError

/-- `to_grpc` の、instruction。 -/
def toGrpcInstruction : Loxi.Instruction → Except Error Instruction
  | .applyActions actions => do
    let actions ← actions.mapM toGrpcAction
    return ⟨OFPIT_APPLY_ACTIONS, .actions actions⟩
  | .gotoTable tableId => do
    let tableId ← uint32 tableId
    return ⟨OFPIT_GOTO_TABLE, .gotoTable tableId⟩
  | .other _ => .error .keyError

/-- `loxi_match_v3_to_ofp_match(lo)`。 -/
def loxiMatchV3ToOfpMatch (oxmList : List Loxi.Oxm) : Except Error Match := do
  let oxmFields ← oxmList.mapM toGrpcOxm
  return ⟨.oxm, oxmFields⟩

/-- `loxi_flow_mod_to_ofp_flow_mod(lo)`。`buffer_id` は範囲だけが見られ、後では使われない。 -/
def loxiFlowModToOfpFlowMod (lo : Loxi.FlowAdd) : Except Error FlowMod := do
  let «match» ← loxiMatchV3ToOfpMatch lo.oxmList
  let instructions ← lo.instructions.mapM toGrpcInstruction
  let _ ← uint32 lo.bufferId
  return {
    cookie := ← uint64 lo.cookie
    cookieMask := ← uint64 lo.cookieMask
    tableId := ← uint32 lo.tableId
    command := .add
    idleTimeout := ← uint32 lo.idleTimeout
    hardTimeout := ← uint32 lo.hardTimeout
    priority := ← uint32 lo.priority
    outPort := ← uint32 lo.outPort
    outGroup := ← uint32 lo.outGroup
    flags := ← uint32 lo.flags
    «match», instructions }

/-! ## `pb2dict` -/

/-- 既定値なら落ちる field。 -/
def plain (name : String) (n : Nat) : Dict := if n = 0 then [] else [(name, .int n)]

def flag (name : String) (b : Bool) : Dict := if b then [(name, .bool true)] else []

def bytesField (name : String) (b : List UInt8) : Dict := if b = [] then [] else [(name, .bytes b)]

/-- 空なら落ちる `repeated`。 -/
def repeated (name : String) (l : List Dict) : Dict :=
  if l.isEmpty then [] else [(name, .list (l.map .dict))]

/-- `oxm_ofb_field_types` の番号。 -/
def ofbFieldTypeNumber (t : OfbFieldType) : Nat := t.ctorIdx

/-- `oneof value` の field の名。 -/
def ofbValueName : OfbFieldType → String
  | .inPort => "port" | .inPhyPort => "physical_port" | .metadata => "table_metadata"
  | .ethDst => "eth_dst" | .ethSrc => "eth_src" | .ethType => "eth_type" | .vlanVid => "vlan_vid"
  | .vlanPcp => "vlan_pcp" | .ipDscp => "ip_dscp" | .ipEcn => "ip_ecn" | .ipProto => "ip_proto"
  | .ipv4Src => "ipv4_src" | .ipv4Dst => "ipv4_dst" | .tcpSrc => "tcp_src" | .tcpDst => "tcp_dst"
  | .udpSrc => "udp_src" | .udpDst => "udp_dst" | .sctpSrc => "sctp_src" | .sctpDst => "sctp_dst"
  | .icmpv4Type => "icmpv4_type" | .icmpv4Code => "icmpv4_code" | .arpOp => "arp_op"
  | .arpSpa => "arp_spa" | .arpTpa => "arp_tpa" | .arpSha => "arp_sha" | .arpTha => "arp_tha"
  | .ipv6Src => "ipv6_src" | .ipv6Dst => "ipv6_dst" | .ipv6Flabel => "ipv6_flabel"
  | .icmpv6Type => "icmpv6_type" | .icmpv6Code => "icmpv6_code"
  | .ipv6NdTarget => "ipv6_nd_target" | .ipv6NdSll => "ipv6_nd_ssl" | .ipv6NdTll => "ipv6_nd_tll"
  | .mplsLabel => "mpls_label" | .mplsTc => "mpls_tc" | .mplsBos => "mpls_bos"
  | .pbbIsid => "pbb_isid" | .tunnelId => "tunnel_id" | .ipv6Exthdr => "ipv6_exthdr"

/-- 設定された `oneof` の値。既定値でも残る。 -/
def ofbValueDict (suffix : String) : Option OfbValue → Dict
  | none => []
  | some (.port port) => [("port" ++ suffix, .int port.toNat)]
  | some (.int field value) => [(ofbValueName field ++ suffix, .int value.toNat)]
  | some (.bytes field value) => [(ofbValueName field ++ suffix, .bytes value)]

def ofbFieldDict (f : OfbField) : Dict :=
  plain "type" (ofbFieldTypeNumber f.type) ++ flag "has_mask" f.hasMask ++
    ofbValueDict "" f.value ++ ofbValueDict "_mask" f.mask

def oxmClassNumber : OxmClass → Nat
  | .nxm0 => 0 | .nxm1 => 1 | .openflowBasic => 0x8000 | .experimenter => 0xffff

def oxmFieldDict (f : OxmField) : Dict :=
  plain "oxm_class" (oxmClassNumber f.oxmClass) ++
  match f.body with
  | .unset => []
  | .ofbField field => [("ofb_field", .dict (ofbFieldDict field))]
  | .experimenterField oxmHeader experimenter =>
    [("experimenter_field",
      .dict (plain "oxm_header" oxmHeader.toNat ++ plain "experimenter" experimenter.toNat))]

def matchTypeNumber : MatchType → Nat
  | .standard => 0 | .oxm => 1

def matchDict (m : Match) : Dict :=
  plain "type" (matchTypeNumber m.type) ++ repeated "oxm_fields" (m.oxmFields.map oxmFieldDict)

def actionTypeNumber : ActionType → Nat
  | .output => 0 | .copyTtlOut => 11 | .copyTtlIn => 12 | .setMplsTtl => 15 | .decMplsTtl => 16
  | .pushVlan => 17 | .popVlan => 18 | .pushMpls => 19 | .popMpls => 20 | .setQueue => 21
  | .group => 22 | .setNwTtl => 23 | .decNwTtl => 24 | .setField => 25 | .pushPbb => 26
  | .popPbb => 27 | .experimenter => 0xffff

def actionBodyDict : ActionBody → Dict
  | .unset => []
  | .output port maxLen =>
    [("output", .dict (plain "port" port.toNat ++ plain "max_len" maxLen.toNat))]
  | .mplsTtl mplsTtl => [("mpls_ttl", .dict (plain "mpls_ttl" mplsTtl.toNat))]
  | .push ethertype => [("push", .dict (plain "ethertype" ethertype.toNat))]
  | .popMpls ethertype => [("pop_mpls", .dict (plain "ethertype" ethertype.toNat))]
  | .group groupId => [("group", .dict (plain "group_id" groupId.toNat))]
  | .nwTtl nwTtl => [("nw_ttl", .dict (plain "nw_ttl" nwTtl.toNat))]
  | .setField field => [("set_field", .dict [("field", .dict (oxmFieldDict field))])]
  | .experimenter experimenter data =>
    [("experimenter", .dict (plain "experimenter" experimenter.toNat ++ bytesField "data" data))]

def actionDict (a : Action) : Dict :=
  plain "type" (actionTypeNumber a.type) ++ actionBodyDict a.body

def instructionBodyDict : InstructionBody → Dict
  | .unset => []
  | .gotoTable tableId => [("goto_table", .dict (plain "table_id" tableId.toNat))]
  | .writeMetadata metadata metadataMask =>
    [("write_metadata", .dict (plain "metadata" metadata.toNat ++
      plain "metadata_mask" metadataMask.toNat))]
  | .actions actions => [("actions", .dict (repeated "actions" (actions.map actionDict)))]
  | .meter meterId => [("meter", .dict (plain "meter_id" meterId.toNat))]
  | .experimenter experimenter data =>
    [("experimenter", .dict (plain "experimenter" experimenter.toNat ++ bytesField "data" data))]

def instructionDict (i : Instruction) : Dict :=
  plain "type" i.type.toNat ++ instructionBodyDict i.body

/-- `pb2dict(pb)` の、`ofp_flow_stats`。`match` は必ず設定されている。 -/
def flowStatsDict (pb : FlowStats) : Dict :=
  plain "id" pb.id ++ plain "table_id" pb.tableId.toNat ++
    plain "duration_sec" pb.durationSec.toNat ++ plain "duration_nsec" pb.durationNsec.toNat ++
    plain "priority" pb.priority.toNat ++ plain "idle_timeout" pb.idleTimeout.toNat ++
    plain "hard_timeout" pb.hardTimeout.toNat ++ plain "flags" pb.flags.toNat ++
    plain "cookie" pb.cookie.toNat ++ plain "packet_count" pb.packetCount.toNat ++
    plain "byte_count" pb.byteCount.toNat ++ [("match", .dict (matchDict pb.match))] ++
    repeated "instructions" (pb.instructions.map instructionDict)

/-! ## `to_loxi` -/

def OFPMT_OXM : Nat := 1
def OFPXMC_OPENFLOW_BASIC : Nat := 0x8000
def OFPXMT_OFB_IN_PORT : Nat := 0
def OFPXMT_OFB_ETH_TYPE : Nat := 5
def OFPAT_OUTPUT : Nat := 0

/-- 辞書の、名のついた整数。無ければ 0。 -/
def intArg (d : Dict) (name : String) : Except Error Nat := (get d name (.int 0)).asInt

/-- `make_loxi_match` の loop の一回。 -/
def makeLoxiOxm (v : Val) : Except Error Loxi.Oxm := do
  let oxmField ← v.asDict
  let oxmClass ← (← item oxmField "oxm_class").asInt
  assert (oxmClass = OFPXMC_OPENFLOW_BASIC)
  let ofb ← (← item oxmField "ofb_field").asDict
  let fieldType ← intArg ofb "type"
  if fieldType = OFPXMT_OFB_ETH_TYPE then
    return .ethType (← (← item ofb "eth_type").asInt)
  else if fieldType = OFPXMT_OFB_IN_PORT then
    return .inPort (← (← item ofb "port").asInt)
  else throw .notImplementedError

/-- `make_loxi_match(match)`。 -/
def makeLoxiMatch (d : Dict) : Except Error (List Loxi.Oxm) := do
  let type ← intArg d "type"
  assert (type = OFPMT_OXM)
  let fields ← (get d "oxm_fields" (.list [])).asList
  fields.mapM makeLoxiOxm

/-- `make_loxi_action(a)`。 -/
def makeLoxiAction (v : Val) : Except Error Loxi.Action := do
  let a ← v.asDict
  let type ← intArg a "type"
  if type = OFPAT_OUTPUT then
    let output ← (← item a "output").asDict
    return .output (← intArg output "port") (← intArg output "max_len")
  else throw .notImplementedError

/-- `make_loxi_instruction(inst)`。 -/
def makeLoxiInstruction (v : Val) : Except Error Loxi.Instruction := do
  let inst ← v.asDict
  let type ← (← item inst "type").asInt
  if type = OFPIT_APPLY_ACTIONS.toNat then
    let data ← (← item inst "actions").asDict
    let actions ← (← item data "actions").asList
    return .applyActions (← actions.mapM makeLoxiAction)
  else throw .notImplementedError

/-- `ofp_flow_stats_to_loxi_flow_stats(pb)`。 -/
def ofpFlowStatsToLoxiFlowStats (pb : FlowStats) : Except Error Loxi.FlowStatsEntry := do
  let kw := flowStatsDict pb
  let oxmList ← makeLoxiMatch (← (← item kw "match").asDict)
  let instructions ← (← (← item kw "instructions").asList).mapM makeLoxiInstruction
  -- `del kw['id']`
  let _ ← item kw "id"
  return {
    tableId := ← intArg kw "table_id"
    durationSec := ← intArg kw "duration_sec"
    durationNsec := ← intArg kw "duration_nsec"
    priority := ← intArg kw "priority"
    idleTimeout := ← intArg kw "idle_timeout"
    hardTimeout := ← intArg kw "hard_timeout"
    flags := ← intArg kw "flags"
    cookie := ← intArg kw "cookie"
    packetCount := ← intArg kw "packet_count"
    byteCount := ← intArg kw "byte_count"
    oxmList, instructions }

end Voltha.Ofagent
