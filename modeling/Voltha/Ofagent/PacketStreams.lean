import Voltha.Lib.Steps
import Voltha.Ofagent.ConnectionMgr
import Voltha.Ofagent.Pack

/-!
# packet の流れ

packet-in は、agent の `packet_in_forwarder_loop`（`ofagent/grpc_client.py`）が一つずつ取り出し、
connection manager と agent を通して controller へ送る。packet-out は、`StreamPacketsOut`
（`voltha/core/local_handler.py`）が一つずつ取り出し、logical device の agent を通して event bus へ流す。

どちらの loop にも `try` が無い。届けられない packet の例外は loop に届き、**後の packet もすべて失われる**。
隣の `change_event_processing_loop` は、例外を loop の中で受けている。
-/

namespace Voltha.Ofagent

open Voltha.Flow Py

/-! ## packet-in の変換 -/

/-- `ofp_packet_in`。 -/
structure PacketIn where
  bufferId : UInt32
  reason : Nat
  tableId : UInt32
  cookie : UInt64
  «match» : Match
  data : List UInt8
deriving DecidableEq, Repr

/-- `ofp_packet_in_to_loxi_packet_in(pb)` と、その `pack`。 -/
def packPacketIn (xid : Nat) (pb : PacketIn) : Except Error Nat := do
  let oxmList ← makeLoxiMatch (matchDict pb.match)
  let fields ← Loxi.packList (fun p => struct p.1 p.2) [(4, xid), (4, pb.bufferId.toNat), (2, 0),
    (1, pb.reason), (1, pb.tableId.toNat), (8, pb.cookie.toNat)]
  let «match» ← Loxi.packMatch oxmList
  Loxi.filled (4 + fields + «match» + 2 + pb.data.length)

/-! ## packet-in の loop -/

/-- agent の `proto_handler` の接続。数は `_gen_xid` の次の値。 -/
inductive Link where
  /-- まだ `proto_handler` が無い。 -/
  | absent
  | up (nextXid : Nat)
  | down (nextXid : Nat)
deriving DecidableEq, Repr

/--
`packet_in_forwarder_loop` と、その下の manager と agent。

`sent` は controller へ送った packet、`due` は送るべき packet である。
-/
structure Forwarder where
  running : Bool
  stopped : Bool
  manager : ConnectionManager
  links : UInt64 → Link
  sent : List (UInt64 × PacketIn)
  due : List (UInt64 × PacketIn)

def Forwarder.init : Forwarder := ⟨true, false, .initial, fun _ => .absent, [], []⟩

/-- packet-in を送ろうとした結果。 -/
inductive Delivery where
  | sent (k : UInt64)
  /-- 切れた接続に書かれ、捨てられた。 -/
  | lost (k : UInt64)
  | ignored
  | raised
deriving DecidableEq, Repr

/--
`cxn.send(to_loxi(pb))`。

`clears` は、接続が切れたときに twisted が `Protocol.connected` を戻すかである。戻さなければ `assert` は
通り、書いた byte は捨てられる。
-/
def sendPacketIn (clears : Bool) (k : UInt64) (link : Link) (pb : PacketIn) : Delivery :=
  match link with
  | .absent => .ignored
  | .up nextXid =>
    match packPacketIn nextXid pb with
    | .ok _ => .sent k
    | .error _ => .raised
  | .down nextXid =>
    if clears then .raised
    else
      match packPacketIn nextXid pb with
      | .ok _ => .lost k
      | .error _ => .raised

/-- `_gen_xid`。 -/
def Link.genXid : Link → Link
  | .absent => .absent
  | .up n => .up (n + 1)
  | .down n => .down (n + 1)

namespace Forwarder

/-- 接続 `k` で xid を一つ使う。 -/
def genXid (s : Forwarder) (k : UInt64) : UInt64 → Link :=
  fun j => if j = k then (s.links j).genXid else s.links j

/-- `connection_manager.forward_packet_in(device_id, ofp_packet_in)`。 -/
def forward (clears : Bool) (s : Forwarder) (deviceId : String) (pb : PacketIn) : Delivery :=
  match forwardPacketIn s.manager deviceId pb with
  | .error _ => .raised
  | .ok none => .ignored
  | .ok (some (agent, pb)) => sendPacketIn clears agent.datapathId (s.links agent.datapathId) pb

/-- packet の logical device が知られ、その agent がつながっていて、packet を書けるときの、datapath。 -/
def owed (s : Forwarder) (deviceId : String) (pb : PacketIn) : Option UInt64 :=
  match s.manager.deviceIdToDatapathIdMap.lookup deviceId with
  | none => none
  | some k =>
    match s.manager.agentMap.lookup k with
    | none => none
    | some agent =>
      match s.links agent.datapathId with
      | .up nextXid =>
        match packPacketIn nextXid pb with
        | .ok _ => some agent.datapathId
        | .error _ => none
      | _ => none

/-- packet-in が届き、loop が取り出す。 -/
def receive (clears : Bool) (s : Forwarder) (deviceId : String) (pb : PacketIn) : Forwarder :=
  let due := s.due ++ ((s.owed deviceId pb).map fun k => (k, pb)).toList
  if s.running = false then { s with due }
  else
    match s.forward clears deviceId pb with
    | .sent k =>
      { s with sent := s.sent ++ [(k, pb)], due, links := s.genXid k, running := !s.stopped }
    | .lost k => { s with due, links := s.genXid k, running := !s.stopped }
    | .ignored => { s with due, running := !s.stopped }
    | .raised => { s with due, running := false }

end Forwarder

/-- 出来事。 -/
inductive ForwarderEvent where
  | packetIn (deviceId : String) (pb : PacketIn)
  /-- `refresh_agent_connections(devices)`。 -/
  | refresh (devices : List LogicalDevice)
  /-- agent の接続ができる。 -/
  | made (k : UInt64)
  /-- agent の接続が切れる。 -/
  | lost (k : UInt64)
  /-- ほかの message を送る。 -/
  | other (k : UInt64)
  | stop

/-- 一つの出来事。作り直された agent に `proto_handler` は無い。 -/
def forwarderStep (clears : Bool) (s : Forwarder) : ForwarderEvent → Forwarder
  | .packetIn deviceId pb => s.receive clears deviceId pb
  | .refresh devices =>
    let manager := s.manager.step devices
    { s with
      manager
      links := fun k =>
        if (s.manager.agentMap.lookup k).isSome ∧ (manager.agentMap.lookup k).isSome then s.links k
        else .absent }
  | .made k => { s with links := fun j => if j = k then .up 1 else s.links j }
  | .lost k =>
    { s with links := fun j =>
        if j = k then (match s.links k with | .up n => .down n | l => l) else s.links j }
  | .other k => { s with links := s.genXid k }
  | .stop => { s with stopped := true }

/-! ## packet-out の loop -/

/--
`StreamPacketsOut` と、core の `logical_device_agents`。

`published` は event bus へ流した packet、`due` は流すべき packet である。
-/
structure OutStream (Pkt : Type) where
  running : Bool
  agents : List String
  published : List (String × Pkt)
  due : List (String × Pkt)
deriving DecidableEq, Repr

variable {Pkt : Type}

def OutStream.init : OutStream Pkt := ⟨true, [], [], []⟩

/-- 出来事。 -/
inductive OutEvent (Pkt : Type) where
  | packetOut (id : String) (pkt : Pkt)
  | addAgent (id : String)
  | removeAgent (id : String)

/-- `forward_packet_out` の例外は `twisted_async` がそのまま投げ直し、stream が終わる。 -/
def outStep (s : OutStream Pkt) : OutEvent Pkt → OutStream Pkt
  | .packetOut id pkt =>
    let due := s.due ++ if id ∈ s.agents then [(id, pkt)] else []
    if s.running = false then { s with due }
    -- `self.logical_device_agents[logical_device_id]`
    else if id ∈ s.agents then { s with published := s.published ++ [(id, pkt)], due }
    else { s with due, running := false }
  | .addAgent id => { s with agents := s.agents ++ [id] }
  | .removeAgent id => { s with agents := s.agents.filter (· ≠ id) }

/-! ## 約束 -/

/-- 止められるまで loop は動いていて、送るべき packet をちょうど一度ずつ、順に送っている。 -/
def Forwarder.Kept (s : Forwarder) : Prop :=
  s.stopped = true ∨ s.running = true ∧ s.sent = s.due

/-- stream は続いていて、流すべき packet をちょうど一度ずつ、順に流している。 -/
def OutStream.Kept (s : OutStream Pkt) : Prop := s.running = true ∧ s.published = s.due

/-- 接続に書いても例外にならない。 -/
def Link.Writable (clears : Bool) (pb : PacketIn) : Link → Prop
  | .absent => True
  | .up nextXid => Succeeds (packPacketIn nextXid pb)
  | .down nextXid => clears = false ∧ Succeeds (packPacketIn nextXid pb)

/-- 約束が守られる一歩。datapath の id が 0 の agent は、つながっていてはならない。 -/
def ForwarderEvent.Safe (clears : Bool) (s : Forwarder) : ForwarderEvent → Prop
  | .packetIn deviceId pb => s.stopped = false →
    ∀ k, s.manager.deviceIdToDatapathIdMap.lookup deviceId = some k →
      (k = 0 → s.owed deviceId pb = none) ∧
      (k ≠ 0 → ∃ agent, s.manager.agentMap.lookup k = some agent ∧
        (s.links agent.datapathId).Writable clears pb)
  | _ => True

/-- 約束が守られる一歩。 -/
def OutEvent.Safe (s : OutStream Pkt) : OutEvent Pkt → Prop
  | .packetOut id _ => id ∈ s.agents
  | _ => True

/-! ## 一つの出来事 -/

theorem packetIn_kept {clears : Bool} {s : Forwarder} (hk : s.Kept) (deviceId : String)
    (pb : PacketIn) :
    (s.receive clears deviceId pb).Kept ↔ (ForwarderEvent.packetIn deviceId pb).Safe clears s := by
  by_cases hstop : s.stopped = true
  · have hkeep : (s.receive clears deviceId pb).stopped = true := by
      unfold Forwarder.receive
      dsimp only
      split
      · exact hstop
      · split <;> exact hstop
    exact iff_of_true (Or.inl hkeep) (fun h => by simp [hstop] at h)
  · rw [Bool.not_eq_true] at hstop
    obtain ⟨hrun, hsent⟩ := hk.resolve_left (by simp [hstop])
    unfold Forwarder.receive ForwarderEvent.Safe Forwarder.Kept
    simp only [hrun, Bool.true_eq_false, if_false, hstop, forall_true_left]
    cases hid : s.manager.deviceIdToDatapathIdMap.lookup deviceId with
    | none =>
      have hf : s.forward clears deviceId pb = .ignored := by
        simp [Forwarder.forward, forwardPacketIn, hid]
      have ho : s.owed deviceId pb = none := by simp [Forwarder.owed, hid]
      simp [hf, ho, hsent]
    | some k =>
      simp only [Option.some.injEq, forall_eq']
      by_cases hzero : k = 0
      · -- id が 0 の packet は、つながっていても捨てられる
        have hf : s.forward clears deviceId pb = .ignored := by
          simp [Forwarder.forward, forwardPacketIn, hid, hzero]
        cases ho : s.owed deviceId pb <;> simp [hf, hzero, hsent]
      · cases hagent : s.manager.agentMap.lookup k with
        | none =>
          have hf : s.forward clears deviceId pb = .raised := by
            simp [Forwarder.forward, forwardPacketIn, hid, hzero, hagent]
          simp [hf, hzero]
        | some agent =>
          have hf : s.forward clears deviceId pb =
              sendPacketIn clears agent.datapathId (s.links agent.datapathId) pb := by
            simp [Forwarder.forward, forwardPacketIn, hid, hzero, hagent]
          cases hlink : s.links agent.datapathId with
          | absent =>
            have ho : s.owed deviceId pb = none := by simp [Forwarder.owed, hid, hagent, hlink]
            simp [hf, hlink, ho, hzero, hsent, sendPacketIn, Link.Writable]
          | up n =>
            cases hpack : packPacketIn n pb with
            | ok m =>
              have ho : s.owed deviceId pb = some agent.datapathId := by
                simp [Forwarder.owed, hid, hagent, hlink, hpack]
              simp [hf, hlink, hpack, ho, hzero, hsent, sendPacketIn, Link.Writable]
            | error e => simp [hf, hlink, hpack, hzero, sendPacketIn, Link.Writable]
          | down n =>
            have ho : s.owed deviceId pb = none := by simp [Forwarder.owed, hid, hagent, hlink]
            cases clears with
            | true => simp [hf, hlink, hzero, sendPacketIn, Link.Writable]
            | false =>
              cases hpack : packPacketIn n pb <;>
                simp [hf, hlink, hpack, ho, hzero, hsent, sendPacketIn, Link.Writable]

theorem forwarderStep_kept {clears : Bool} {s : Forwarder} (hk : s.Kept) (e : ForwarderEvent) :
    (forwarderStep clears s e).Kept ↔ e.Safe clears s := by
  cases e with
  | packetIn deviceId pb => exact packetIn_kept hk deviceId pb
  | refresh devices => exact iff_of_true hk trivial
  | made k => exact iff_of_true hk trivial
  | lost k => exact iff_of_true hk trivial
  | other k => exact iff_of_true hk trivial
  | stop => exact iff_of_true (Or.inl rfl) trivial

theorem outStep_kept {s : OutStream Pkt} (hk : s.Kept) (e : OutEvent Pkt) :
    (outStep s e).Kept ↔ e.Safe s := by
  cases e with
  | packetOut id pkt =>
    by_cases hid : id ∈ s.agents
    · simp [outStep, OutStream.Kept, OutEvent.Safe, hk.1, hk.2, hid]
    · simp [outStep, OutStream.Kept, OutEvent.Safe, hk.1, hid]
  | addAgent id => exact iff_of_true hk trivial
  | removeAgent id => exact iff_of_true hk trivial

/-! ## 出来事の列 -/

/--
**届けられない packet は流れを止めない。** packet-in の loop と packet-out の stream が約束を守るのは、
どの packet-in も書けない接続や表に無い agent に当たらず、id が 0 の agent がつながらず、どの packet-out の
logical device にも agent があるときに限る。
-/
theorem packet_streams_survive_iff (clears : Bool) :
    (∀ l : List ForwarderEvent,
      Steps.Always (forwarderStep clears) Forwarder.Kept Forwarder.init l ↔
        Steps.Each (forwarderStep clears) (fun s e => e.Safe clears s) Forwarder.init l) ∧
    ∀ l : List (OutEvent Pkt), Steps.Always outStep OutStream.Kept OutStream.init l ↔
      Steps.Each outStep (fun s e => e.Safe s) OutStream.init l := by
  refine ⟨fun l => ?_, fun l => ?_⟩
  · exact Steps.always_iff_each (A := fun _ => True) (I := fun _ => True)
      (fun s e _ _ hk => ⟨forwarderStep_kept hk e, fun _ => trivial⟩) (fun _ _ => trivial) trivial
      (Or.inr ⟨rfl, rfl⟩)
  · exact Steps.always_iff_each (A := fun _ => True) (I := fun _ => True)
      (fun s e _ _ hk => ⟨outStep_kept hk e, fun _ => trivial⟩) (fun _ _ => trivial) trivial
      ⟨rfl, rfl⟩

/-- match が空の packet-in。 -/
def barePacketIn : PacketIn := ⟨0, 1, 0, 0, ⟨.oxm, []⟩, []⟩

/-- 読めない match の packet-in。 -/
def vlanPacketIn : PacketIn :=
  ⟨0, 1, 0, 0, ⟨.oxm, [ofbField .vlanVid (.int .vlanVid 1)]⟩, []⟩

/-- 変換できない packet-in も、知らない logical device への packet-out も、流れを止める。 -/
theorem undeliverable_packet_stops_streams :
    (¬∃ clears : Bool, ∀ l : List ForwarderEvent,
      Steps.Always (forwarderStep clears) Forwarder.Kept Forwarder.init l) ∧
    ¬∀ l : List (OutEvent Unit), Steps.Always outStep OutStream.Kept OutStream.init l := by
  constructor
  · rintro ⟨clears, h⟩
    have hkept := (h [.refresh [⟨"ld", 5⟩], .made 5, .packetIn "ld" vlanPacketIn,
      .packetIn "ld" barePacketIn]).last
    rcases hkept with hstop | ⟨hrun, -⟩
    · cases hstop
    · cases hrun
  · intro h
    have hkept := (h [.packetOut "gone" (), .addAgent "ld", .packetOut "ld" ()]).last
    exact absurd hkept.1 (by decide)

end Voltha.Ofagent
