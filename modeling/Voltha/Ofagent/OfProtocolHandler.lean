import Voltha.Lib.Steps
import Voltha.Ofagent.Pack

/-!
# OpenFlow の要求への返事

`ofagent/of_protocol_handler.py`。hello の後、loop が message を一つずつ取り出し、種類ごとの handler を呼ぶ。

* 普通の handler は loop の `try` の中で動き、例外は **loop を終わらせる**
* `inlineCallbacks` の handler は RPC の結果を待ち、例外は Deferred に入って loop に届かない

知らない種類の message は log だけで済むが、`NotImplementedError` を投げるだけの handler が表に並んでいるので、
その種類の要求が一つ来ると、後の要求はどれも返事を得られない。

接続は保たれているとする。
-/

namespace Voltha.Ofagent

open Voltha.Flow Py

/-! ## 要求 -/

/-- `stats_type`。 -/
inductive StatsType where
  | aggregate | desc | experimenter | flow | group | groupDesc | groupFeatures | meter | meterConfig
  | meterFeatures | port | portDesc | queue | table | tableFeatures
  | other (number : UInt16)
deriving DecidableEq, Repr

/-- `of13.message.packet_out`。 -/
structure Loxi.PacketOut where
  bufferId : Nat
  inPort : Nat
  actions : List Loxi.Action
  data : List UInt8
deriving DecidableEq, Repr

/-- 要求の種類と、handler が読む中身。`flow_mod` と `group_mod` の中身は RPC に渡るだけである。 -/
inductive Body where
  | barrier | echo | features | experimenter | flowMod | getAsync | getConfig | groupMod | meterMod
  | packetOut (lo : Loxi.PacketOut)
  | portMod | queueGetConfig
  | role (role : UInt32) (generationId : UInt64)
  | setAsync | setConfig
  | stats (type : StatsType)
  | tableMod
  | other (type : UInt8)
deriving DecidableEq, Repr

structure Request where
  xid : UInt32
  body : Body
deriving DecidableEq, Repr

def OFPCR_ROLE_MASTER : UInt32 := 2

/-- `loxi_packet_out_to_ofp_packet_out(lo)` が成り立つこと。 -/
def toGrpcPacketOut (lo : Loxi.PacketOut) : Except Error (UInt32 × UInt32 × List Action) := do
  let actions ← lo.actions.mapM toGrpcAction
  return (← uint32 lo.bufferId, ← uint32 lo.inPort, actions)

/-! ## handler -/

/-- handler を呼んだ結果。 -/
inductive Outcome where
  /-- その場で返事を送る。 -/
  | replies
  /-- RPC の結果を待って返事を送る。 -/
  | calls
  /-- 返事をしない。 -/
  | nothing
  /-- 新しい xid の error を送る。 -/
  | errors
  | raises
deriving DecidableEq, Repr

/-- `stats_handlers`。 -/
def statsHandlers : StatsType → Outcome
  | .aggregate => .raises
  | .desc => .calls
  | .experimenter => .raises
  | .flow => .calls
  | .group => .calls
  | .groupDesc => .replies
  | .groupFeatures => .raises
  | .meter => .replies
  | .meterConfig => .raises
  | .meterFeatures => .errors
  | .port => .replies
  | .portDesc => .calls
  | .queue => .raises
  | .table => .replies
  | .tableFeatures => .raises
  -- `OpenFlowProtocolError`
  | .other _ => .raises

/-- `main_handlers`。 -/
def mainHandlers : Body → Outcome
  | .barrier => .replies
  | .echo => .replies
  | .features => .calls
  | .experimenter => .raises
  | .flowMod => .nothing
  | .getAsync => .raises
  | .getConfig => .replies
  | .groupMod => .nothing
  | .meterMod => .raises
  | .packetOut lo =>
    match toGrpcPacketOut lo with
    | .ok _ => .nothing
    | .error _ => .raises
  | .portMod => .raises
  | .queueGetConfig => .raises
  | .role role _ => if role ≠ OFPCR_ROLE_MASTER then .raises else .replies
  | .setAsync => .raises
  | .setConfig => .nothing
  | .stats type => statsHandlers type
  | .tableMod => .raises
  -- `log.error('cannot-handle', …)`
  | .other _ => .nothing

/-- RPC の結果。`get_device_info` は logical device の `switch_features` と `desc` を返す。 -/
inductive RpcResult where
  | device (switchFeatures : SwitchFeatures) (desc : Desc)
  | flows (flows : List FlowStats)
  | groups (groups : List GroupEntry)
  | ports (ports : List OfpPort)
deriving DecidableEq, Repr

/-- RPC の結果からの返事。要求の呼ばない RPC の結果は来ない。 -/
def answer (datapathId : UInt64) : Body → RpcResult → Option (Except Error Nat)
  | .features, .device switchFeatures _ => some (featuresReply datapathId switchFeatures)
  | .stats .desc, .device _ desc => some (descStatsReply desc)
  | .stats .flow, .flows flows => some (flowStatsReply flows)
  | .stats .group, .groups groups => some (groupStatsReply groups)
  | .stats .portDesc, .ports ports => some (portDescStatsReply ports)
  | _, _ => none

/-! ## loop -/

/-- 要求の進み具合。 -/
inductive Progress where
  /-- 取り出されずに残っている。 -/
  | queued
  /-- RPC の結果を待っている。 -/
  | calling
  /-- RPC が失敗した。 -/
  | failed
  | done
deriving DecidableEq, Repr

/-- 一つの要求と、それに答えて送られた message の xid。 -/
structure Exchange where
  request : Request
  progress : Progress
  replies : List UInt32
deriving DecidableEq, Repr

/-- RPC の結果が届いた要求。返事を作れなければ、例外は Deferred に入る。 -/
def Exchange.finish (x : Exchange) : Except Error Nat → Exchange
  | .ok _ => { x with progress := .done, replies := x.replies ++ [x.request.xid] }
  | .error _ => { x with progress := .done }

/-- hello の後の handler。`nextXid` は `_gen_xid` の次の値。 -/
structure Session where
  waiting : Bool
  nextXid : Nat
  exchanges : List Exchange
deriving DecidableEq, Repr

/-- hello を送り、受け取ったところ。 -/
def Session.init : Session := ⟨true, 2, []⟩

namespace Session

def add (s : Session) (x : Exchange) : Session := { s with exchanges := s.exchanges ++ [x] }

/-- message が届き、loop が handler を呼ぶ。 -/
def receive (s : Session) (req : Request) : Session :=
  if s.waiting = false then s.add ⟨req, .queued, []⟩
  else
    match mainHandlers req.body with
    | .replies => s.add ⟨req, .done, [req.xid]⟩
    | .calls => s.add ⟨req, .calling, []⟩
    | .nothing => s.add ⟨req, .done, []⟩
    | .errors =>
      -- `_gen_xid` に上限は無く、4 byte に入らなければ `pack` が失敗する
      match struct 4 s.nextXid with
      | .ok _ => { s.add ⟨req, .done, [UInt32.ofNat s.nextXid]⟩ with nextXid := s.nextXid + 1 }
      | .error _ => { s.add ⟨req, .done, []⟩ with waiting := false }
    | .raises => { s.add ⟨req, .done, []⟩ with waiting := false }

end Session

/-- 出来事。 -/
inductive HandlerEvent where
  | receive (req : Request)
  /-- `i` 番目の要求の RPC の結果。 -/
  | rpc (i : Nat) (result : RpcResult)
  /-- `i` 番目の要求の RPC が失敗する。 -/
  | rpcFailed (i : Nat)
  /-- 要求によらない message（packet-in や port の変化）を送る。 -/
  | forward

/-- 一つの出来事。 -/
def handlerStep (datapathId : UInt64) (s : Session) : HandlerEvent → Session
  | .receive req => s.receive req
  | .rpc i result =>
    match s.exchanges[i]? with
    | none => s
    | some x =>
      if x.progress ≠ .calling then s
      else
        match answer datapathId x.request.body result with
        | none => s
        | some reply => { s with exchanges := s.exchanges.set i (x.finish reply) }
  | .rpcFailed i =>
    match s.exchanges[i]? with
    | none => s
    | some x =>
      if x.progress ≠ .calling then s
      else { s with exchanges := s.exchanges.set i { x with progress := .failed } }
  | .forward => { s with nextXid := s.nextXid + 1 }

/-! ## 約束 -/

/-- 返事をするはずの要求。 -/
def Body.Supported : Body → Prop
  | .barrier | .echo | .features | .getConfig => True
  | .role r _ => r = OFPCR_ROLE_MASTER
  | .stats .desc | .stats .flow | .stats .group | .stats .portDesc => True
  | .stats .table | .stats .port | .stats .meter => True
  | _ => False

/-- 要求は、RPC を待つ間は返事を得ず、その後は自分の xid の返事をちょうど一つ得ている。 -/
def Exchange.Answered (x : Exchange) : Prop :=
  match x.progress with
  | .calling | .failed => x.replies = []
  | .queued | .done => x.replies = [x.request.xid]

/-- loop は次の message を待っていて、返事をするはずの要求はみな返事を得ている。 -/
structure Session.Kept (s : Session) : Prop where
  waiting : s.waiting = true
  answered : ∀ x ∈ s.exchanges, x.request.body.Supported → x.Answered

/-- handler が例外を投げない要求。 -/
def Body.Tolerated (nextXid : Nat) : Body → Prop
  | .experimenter | .getAsync | .meterMod | .portMod | .queueGetConfig | .setAsync | .tableMod =>
    False
  | .packetOut lo =>
    lo.bufferId < UInt32.size ∧ lo.inPort < UInt32.size ∧
      ∀ a ∈ lo.actions, Succeeds (toGrpcAction a)
  | .role r _ => r = OFPCR_ROLE_MASTER
  | .stats .aggregate | .stats .experimenter | .stats .groupFeatures | .stats .meterConfig => False
  | .stats .queue | .stats .tableFeatures | .stats (.other _) => False
  | .stats .meterFeatures => nextXid < UInt32.size
  | _ => True

/-- 返事に書ける RPC の結果。 -/
def RpcResult.Encodable : Body → RpcResult → Prop
  | .features, .device f _ => f.datapathId = 0 ∧ f.nTables.toNat < 256 ∧ f.auxiliaryId.toNat < 256
  | .stats .desc, .device _ d => ∀ s ∈ d.strings, Ascii s
  | .stats .flow, .flows fs => ∃ es, fs.mapM ofpFlowStatsToLoxiFlowStats = .ok es ∧
      Succeeds (packStatsReply (Loxi.packList Loxi.FlowStatsEntry.pack es))
  | .stats .group, .groups gs =>
    16 + (gs.map fun g => 40 + 16 * g.stats.bucketStats.length).sum < 65536
  | .stats .portDesc, .ports ps => (∀ p ∈ ps, p.Packs) ∧ 16 + 64 * ps.length < 65536
  | _, _ => True

/-- 約束が守られる一歩。 -/
def HandlerEvent.Safe (s : Session) : HandlerEvent → Prop
  | .receive req => req.body.Tolerated s.nextXid
  | .rpc i result => ∀ x, s.exchanges[i]? = some x → x.progress = .calling →
      RpcResult.Encodable x.request.body result
  | .rpcFailed _ | .forward => True

/-! ## 一つの出来事 -/

theorem succeeds_uint32 {n : Nat} : Succeeds (uint32 n) ↔ n < UInt32.size := by
  unfold uint32
  split
  · next h => simp [h]
  · next h => simp [h]

theorem succeeds_toGrpcPacketOut (lo : Loxi.PacketOut) :
    Succeeds (toGrpcPacketOut lo) ↔
      lo.bufferId < UInt32.size ∧ lo.inPort < UInt32.size ∧
        ∀ a ∈ lo.actions, Succeeds (toGrpcAction a) := by
  have hrest : ∀ actions : List Action, Succeeds (do
      return (← uint32 lo.bufferId, ← uint32 lo.inPort, actions) :
        Except Error (UInt32 × UInt32 × List Action)) ↔
      lo.bufferId < UInt32.size ∧ lo.inPort < UInt32.size := by
    intro actions
    rw [succeeds_bind_iff fun _ => succeeds_bind_iff fun _ => iff_true_intro (succeeds_pure _),
      succeeds_uint32, succeeds_uint32, and_true]
  unfold toGrpcPacketOut
  rw [succeeds_bind_iff hrest, succeeds_mapM]
  tauto

/-- 例外を投げる要求と、xid の要る要求を除いたもの。 -/
theorem tolerated_iff (n : Nat) (b : Body) :
    b.Tolerated n ↔ mainHandlers b ≠ .raises ∧ (mainHandlers b = .errors → n < UInt32.size) := by
  unfold Body.Tolerated
  cases b with
  | packetOut lo =>
    show _ ∧ _ ↔ _
    rw [← succeeds_toGrpcPacketOut]
    cases h : toGrpcPacketOut lo <;> simp [mainHandlers, h]
  | role r g => by_cases h : r = OFPCR_ROLE_MASTER <;> simp [mainHandlers, h]
  | stats type => cases type <;> simp [mainHandlers, statsHandlers]
  | _ => simp [mainHandlers]

/-- 返事をするはずの要求は、その場で返事を得るか、RPC を待つ。 -/
theorem Body.Supported.outcome {b : Body} (h : b.Supported) :
    mainHandlers b = .replies ∨ mainHandlers b = .calls := by
  cases b with
  | role r g => simp [mainHandlers, show r = OFPCR_ROLE_MASTER from h]
  | stats type =>
    cases type with
    | desc | flow | group | portDesc | table | port | meter => simp [mainHandlers, statsHandlers]
    | _ => cases h
  | barrier | echo | features | getConfig => simp [mainHandlers]
  | _ => cases h

theorem succeeds_flowStatsReply (fs : List FlowStats) :
    Succeeds (flowStatsReply fs) ↔ ∃ es, fs.mapM ofpFlowStatsToLoxiFlowStats = .ok es ∧
      Succeeds (packStatsReply (Loxi.packList Loxi.FlowStatsEntry.pack es)) :=
  succeeds_bind

/-- 返事が作れるのは、RPC の結果が返事に書けるときに限る。 -/
theorem answer_some {datapathId : UInt64} {b : Body} {r : RpcResult} {reply : Except Error Nat}
    (h : answer datapathId b r = some reply) :
    b.Supported ∧ (Succeeds reply ↔ RpcResult.Encodable b r) := by
  unfold answer at h
  split at h
  · cases h
    exact ⟨trivial, succeeds_featuresReply _ _⟩
  · cases h
    exact ⟨trivial, succeeds_descStatsReply _⟩
  · cases h
    exact ⟨trivial, succeeds_flowStatsReply _⟩
  · cases h
    exact ⟨trivial, succeeds_groupStatsReply _⟩
  · cases h
    exact ⟨trivial, succeeds_portDescStatsReply _⟩
  · cases h

theorem answer_none {datapathId : UInt64} {b : Body} {r : RpcResult}
    (h : answer datapathId b r = none) : RpcResult.Encodable b r := by
  unfold RpcResult.Encodable
  split <;> simp_all [answer]

variable {s : Session}

/-- 届いた要求が約束どおりなら、加えても約束は守られる。 -/
theorem Session.Kept.add (hk : s.Kept) {x : Exchange}
    (hx : x.request.body.Supported → x.Answered) : (s.add x).Kept where
  waiting := hk.waiting
  answered := by
    intro y hy
    rcases List.mem_append.mp hy with hy | hy
    · exact hk.answered y hy
    · obtain rfl := List.mem_singleton.mp hy
      exact hx

theorem receive_kept (hk : s.Kept) (req : Request) :
    (s.receive req).Kept ↔ req.body.Tolerated s.nextXid := by
  rw [tolerated_iff]
  have hnot : mainHandlers req.body ≠ .replies → mainHandlers req.body ≠ .calls →
      ¬req.body.Supported := fun hr hc h => h.outcome.elim hr hc
  unfold Session.receive
  rw [if_neg (by simp [hk.waiting])]
  cases hb : mainHandlers req.body with
  | replies => exact iff_of_true (hk.add fun _ => rfl) (by simp)
  | calls => exact iff_of_true (hk.add fun _ => rfl) (by simp)
  | nothing =>
    have hkept := hk.add (x := ⟨req, .done, []⟩) fun h =>
      absurd h (hnot (by simp [hb]) (by simp [hb]))
    exact iff_of_true hkept (by simp)
  | errors =>
    dsimp only
    by_cases hxid : s.nextXid < UInt32.size
    · have hkept := hk.add (x := ⟨req, .done, [UInt32.ofNat s.nextXid]⟩)
        fun h => absurd h (hnot (by simp [hb]) (by simp [hb]))
      have hstruct : struct 4 s.nextXid = .ok 4 := struct_eq_ok.mpr ⟨hxid, rfl⟩
      rw [hstruct]
      exact iff_of_true ⟨hkept.waiting, hkept.answered⟩ ⟨by simp, fun _ => hxid⟩
    · have hstruct : struct 4 s.nextXid = .error .structError := if_neg hxid
      rw [hstruct]
      exact iff_of_false (fun h => by simpa using h.waiting) (fun h => hxid (h.2 rfl))
  | raises => exact iff_of_false (fun h => by simpa using h.waiting) (by simp)

/-- 一つの要求を進めた後の約束は、その要求だけで決まる。 -/
theorem Session.Kept.set_iff (hk : s.Kept) {i : Nat} {x : Exchange} (hx : s.exchanges[i]? = some x)
    (y : Exchange) :
    Session.Kept { s with exchanges := s.exchanges.set i y } ↔
      (y.request.body.Supported → y.Answered) := by
  constructor
  · intro h
    have hlt := (List.getElem?_eq_some_iff.mp hx).1
    exact h.answered y (List.mem_set hlt y)
  · intro hy
    refine ⟨hk.waiting, fun z hz => ?_⟩
    rcases List.mem_or_eq_of_mem_set hz with hz | rfl
    · exact hk.answered z hz
    · exact hy

theorem rpc_kept (datapathId : UInt64) (hk : s.Kept) (i : Nat) (r : RpcResult) :
    (handlerStep datapathId s (.rpc i r)).Kept ↔ (HandlerEvent.rpc i r).Safe s := by
  simp only [handlerStep, HandlerEvent.Safe]
  cases hx : s.exchanges[i]? with
  | none => simpa using hk
  | some x =>
    by_cases hcall : x.progress = .calling
    · simp only [Option.some.injEq, forall_eq', hcall, ne_eq, not_true_eq_false, if_false,
        forall_true_left]
      cases ha : answer datapathId x.request.body r with
      | none => simpa [answer_none ha] using hk
      | some reply =>
        obtain ⟨hsup, hiff⟩ := answer_some ha
        have hempty : x.replies = [] := by
          have := hk.answered x (List.mem_of_getElem? hx) hsup
          simpa [Exchange.Answered, hcall] using this
        simp only [hk.set_iff hx]
        rw [← hiff]
        cases reply with
        | ok n => simp [Exchange.finish, Exchange.Answered, hempty]
        | error e => simpa [Exchange.finish, Exchange.Answered, hempty] using hsup
    · simpa [hcall] using hk

/-- RPC の失敗は約束を破らない。 -/
theorem rpcFailed_kept (datapathId : UInt64) (hk : s.Kept) (i : Nat) :
    (handlerStep datapathId s (.rpcFailed i)).Kept := by
  simp only [handlerStep]
  cases hx : s.exchanges[i]? with
  | none => exact hk
  | some x =>
    by_cases hcall : x.progress = .calling
    · simp only [hcall, ne_eq, not_true_eq_false, if_false, hk.set_iff hx]
      intro hsup
      have := hk.answered x (List.mem_of_getElem? hx) hsup
      simpa [Exchange.Answered, hcall] using this
    · simpa [hcall] using hk

theorem handlerStep_kept (datapathId : UInt64) (hk : s.Kept) (e : HandlerEvent) :
    (handlerStep datapathId s e).Kept ↔ e.Safe s := by
  cases e with
  | receive req => exact receive_kept hk req
  | rpc i r => exact rpc_kept datapathId hk i r
  | rpcFailed i => exact iff_of_true (rpcFailed_kept datapathId hk i) trivial
  | forward => exact iff_of_true ⟨hk.waiting, hk.answered⟩ trivial

end Voltha.Ofagent
