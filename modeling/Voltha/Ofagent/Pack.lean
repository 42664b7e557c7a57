import Mathlib.Algebra.GroupWithZero.Nat
import Mathlib.Algebra.Order.BigOperators.Group.List
import Mathlib.Algebra.Order.Group.Nat
import Voltha.Ofagent.RoundTrip

/-!
# loxi の object の pack

`ofagent/loxi/of13` の `pack` のうち、controller への返事に使うもの。byte 列の代わりに **長さ** を求める。
`struct.pack` の例外は二つの所から来る。

* `!B` や `!H` の field に入らない値。protobuf の側では `uint32` なので、入ってしまう
* 2 byte の長さの field に入らない長さ。一つの message は 65535 byte までである
-/

namespace Voltha.Ofagent

open Voltha.Flow Py

namespace Loxi

/-- `pack_list(values)`。 -/
def packList {α : Type} (pack : α → Except Error Nat) (values : List α) : Except Error Nat := do
  let lengths ← values.mapM pack
  return lengths.sum

/-- `pad_to(8, length)` を足した長さ。 -/
def padded (length : Nat) : Nat := (length + 7) / 8 * 8

/-- 長さの field を埋める。 -/
def filled (length : Nat) : Except Error Nat := do
  let _ ← struct 2 length
  return length

def Oxm.pack : Oxm → Except Error Nat
  | .ethType value => do return 4 + (← struct 2 value)
  | .inPort value => do return 4 + (← struct 4 value)
  | .ipProto value => do return 4 + (← struct 1 value)
  | .vlanVid value => do return 4 + (← struct 2 value)
  | .vlanPcp value => do return 4 + (← struct 1 value)
  | .ipv4Dst value => do return 4 + (← struct 4 value)
  | .other packed => .ok packed.length

/-- `match_v3.pack()`。長さの field には、詰め物を含めない。 -/
def packMatch (oxmList : List Oxm) : Except Error Nat := do
  let length ← filled (4 + (← packList Oxm.pack oxmList))
  return padded length

def Action.pack : Action → Except Error Nat
  | .output port maxLen => do return 10 + (← struct 4 port) + (← struct 2 maxLen)
  | .group groupId => do return 4 + (← struct 4 groupId)
  | .setField field => do filled (padded (4 + (← field.pack)))
  | .popVlan => .ok 8
  | .pushVlan ethertype => do return 6 + (← struct 2 ethertype)
  | .other packed => .ok packed.length

def Instruction.pack : Instruction → Except Error Nat
  | .applyActions actions => do filled (8 + (← packList Action.pack actions))
  | .gotoTable tableId => do return 7 + (← struct 1 tableId)
  | .other packed => .ok packed.length

def FlowStatsEntry.pack (e : FlowStatsEntry) : Except Error Nat := do
  let fields ← packList (fun p => struct p.1 p.2) [(1, e.tableId), (4, e.durationSec),
    (4, e.durationNsec), (2, e.priority), (2, e.idleTimeout), (2, e.hardTimeout), (2, e.flags),
    (8, e.cookie), (8, e.packetCount), (8, e.byteCount)]
  let «match» ← packMatch e.oxmList
  let instructions ← packList Instruction.pack e.instructions
  filled (2 + 1 + 4 + fields + «match» + instructions)

end Loxi

/-! ## 統計の返事 -/

/-- entry の列を持つ統計の返事。 -/
def packStatsReply (entries : Except Error Nat) : Except Error Nat := do
  Loxi.filled (16 + (← entries))

/-- `flow_stats_reply(xid, entries=[to_loxi(f) for f in flow_stats])`。 -/
def flowStatsReply (flowStats : List FlowStats) : Except Error Nat := do
  let entries ← flowStats.mapM ofpFlowStatsToLoxiFlowStats
  packStatsReply (Loxi.packList Loxi.FlowStatsEntry.pack entries)

/-- `ofp_group_entry_to_loxi_group_entry(pb)` と、その `pack`。数の field は幅が同じで、必ず入る。 -/
def packGroupEntry (pb : GroupEntry) : Except Error Nat :=
  Loxi.filled (40 + 16 * pb.stats.bucketStats.length)

/-- `group_stats_reply(xid, entries=[to_loxi(g) for g in group_stats])`。 -/
def groupStatsReply (groupStats : List GroupEntry) : Except Error Nat :=
  packStatsReply (Loxi.packList packGroupEntry groupStats)

/-- `ofp_port` のうち、変換で例外になりうる field。残りは `uint32` である。 -/
structure OfpPort where
  hwAddr : List UInt32
  name : String
deriving DecidableEq, Repr

/-- loxi の `hw_addr`。空の列は辞書から落ち、既定値になる。 -/
def OfpPort.hwBytes (pb : OfpPort) : List Nat :=
  if pb.hwAddr = [] then List.replicate 6 0 else pb.hwAddr.map UInt32.toNat

/-- `struct.pack("!6B", *hw_addr)`。 -/
def pack6B (hwAddr : List Nat) : Except Error Nat :=
  if hwAddr.length = 6 then Loxi.packList (struct 1) hwAddr else .error .structError

/-- `ofp_port_to_loxi_port_desc(pb)` と、その `pack`。 -/
def packPortDesc (pb : OfpPort) : Except Error Nat := do
  let _ ← str pb.name
  let hw ← pack6B pb.hwBytes
  return 4 + 4 + hw + 2 + 16 + 32

/-- `port_desc_stats_reply(xid, entries=[to_loxi(port.ofp_port) for port in port_list])`。 -/
def portDescStatsReply (ports : List OfpPort) : Except Error Nat :=
  packStatsReply (Loxi.packList packPortDesc ports)

/-- `ofp_switch_features`。 -/
structure SwitchFeatures where
  datapathId : UInt64
  nBuffers : UInt32
  nTables : UInt32
  auxiliaryId : UInt32
  capabilities : UInt32
deriving DecidableEq, Repr

def switchFeaturesDict (pb : SwitchFeatures) : Dict :=
  plain "datapath_id" pb.datapathId.toNat ++ plain "n_buffers" pb.nBuffers.toNat ++
    plain "n_tables" pb.nTables.toNat ++ plain "auxiliary_id" pb.auxiliaryId.toNat ++
    plain "capabilities" pb.capabilities.toNat

/-- `features_reply(xid, datapath_id=self.datapath_id, **kw)`。同じ名の引数が二つあると `TypeError`。 -/
def featuresReply (datapathId : UInt64) (pb : SwitchFeatures) : Except Error Nat := do
  let kw := switchFeaturesDict pb
  if (kw.lookup "datapath_id").isSome then throw .typeError
  let fields ← Loxi.packList (fun p => struct p.1 p.2) [(8, datapathId.toNat),
    (4, ← intArg kw "n_buffers"), (1, ← intArg kw "n_tables"), (1, ← intArg kw "auxiliary_id"),
    (4, ← intArg kw "capabilities")]
  Loxi.filled (8 + fields + 2 + 4)

/-- `ofp_desc`。 -/
structure Desc where
  mfrDesc : String
  hwDesc : String
  swDesc : String
  serialNum : String
  dpDesc : String
deriving DecidableEq, Repr

def Desc.strings (d : Desc) : List String :=
  [d.mfrDesc, d.hwDesc, d.swDesc, d.serialNum, d.dpDesc]

/-- `desc_stats_reply(xid, **kw)`。長い文字列は切り詰められる。 -/
def descStatsReply (d : Desc) : Except Error Nat := do
  let _ ← d.strings.mapM str
  Loxi.filled (16 + 256 + 256 + 256 + 32 + 256)

/-! ## 返事が作れる条件 -/

/-- 例外なしに終わる。 -/
def Succeeds {α : Type} (m : Except Error α) : Prop := ∃ a, m = .ok a

theorem succeeds_bind {α β : Type} {m : Except Error α} {f : α → Except Error β} :
    Succeeds (m >>= f) ↔ ∃ a, m = .ok a ∧ Succeeds (f a) := by
  unfold Succeeds
  simp only [bind_eq_ok]
  constructor
  · rintro ⟨b, a, hm, hf⟩
    exact ⟨a, hm, b, hf⟩
  · rintro ⟨a, hm, b, hf⟩
    exact ⟨b, a, hm, hf⟩

@[simp] theorem succeeds_ok {α : Type} (a : α) : Succeeds (.ok a) := ⟨a, rfl⟩

@[simp] theorem succeeds_pure {α : Type} (a : α) : Succeeds (pure a) := ⟨a, rfl⟩

@[simp] theorem not_succeeds_error {α : Type} (e : Error) :
    ¬Succeeds (.error e : Except Error α) := by
  simp [Succeeds]

/-- 続きの成否が前の値によらない。 -/
theorem succeeds_bind_iff {α β : Type} {m : Except Error α} {f : α → Except Error β} {Q : Prop}
    (hf : ∀ a, Succeeds (f a) ↔ Q) : Succeeds (m >>= f) ↔ Succeeds m ∧ Q := by
  simp only [succeeds_bind, hf]
  exact exists_and_right

theorem succeeds_mapM {α β : Type} {f : α → Except Error β} {xs : List α} :
    Succeeds (xs.mapM f) ↔ ∀ x ∈ xs, Succeeds (f x) := by
  induction xs with
  | nil => simp
  | cons x xs ih =>
    simp only [List.mapM_cons, succeeds_bind, succeeds_pure, and_true, List.forall_mem_cons, ← ih]
    exact exists_and_right

theorem struct_eq_ok {width n m : Nat} : struct width n = .ok m ↔ n < 256 ^ width ∧ m = width := by
  unfold struct
  split
  · next h => simp [h, eq_comm]
  · next h => simp [h]

theorem filled_eq_ok {n m : Nat} : Loxi.filled n = .ok m ↔ n < 65536 ∧ m = n := by
  simp only [Loxi.filled, bind_eq_ok, struct_eq_ok, pure, Except.pure, Except.ok.injEq]
  constructor
  · rintro ⟨_, ⟨hlt, rfl⟩, rfl⟩
    exact ⟨hlt, rfl⟩
  · rintro ⟨hlt, rfl⟩
    exact ⟨2, ⟨hlt, rfl⟩, rfl⟩

@[simp] theorem succeeds_filled {n : Nat} : Succeeds (Loxi.filled n) ↔ n < 65536 := by
  simp [Succeeds, filled_eq_ok]

/-- どれも成功する列は、長さの和になる。 -/
theorem packList_eq_ok {α : Type} {pack : α → Except Error Nat} {P : α → Prop} {len : α → Nat}
    (hpack : ∀ x n, pack x = .ok n ↔ P x ∧ n = len x) {xs : List α} {n : Nat} :
    Loxi.packList pack xs = .ok n ↔ (∀ x ∈ xs, P x) ∧ n = (xs.map len).sum := by
  unfold Loxi.packList
  induction xs generalizing n with
  | nil => simp [pure, Except.pure, bind, Except.bind, eq_comm]
  | cons x xs ih =>
    simp only [List.mapM_cons, bind_eq_ok, pure, Except.pure, Except.ok.injEq] at ih ⊢
    constructor
    · rintro ⟨l, ⟨a, ha, as, has, rfl⟩, rfl⟩
      obtain ⟨hx, rfl⟩ := (hpack x a).mp ha
      obtain ⟨hall, hsum⟩ := ih.mp ⟨as, has, rfl⟩
      exact ⟨by simpa [hx] using hall, by simp [hsum]⟩
    · rintro ⟨hall, rfl⟩
      obtain ⟨as, has, hsum⟩ := ih.mpr ⟨fun y hy => hall y (List.mem_cons_of_mem _ hy), rfl⟩
      exact ⟨len x :: as, ⟨len x, (hpack x _).mpr ⟨hall x List.mem_cons_self, rfl⟩, as, has, rfl⟩,
        by simp [hsum]⟩

/-- entry の列を持つ返事は、合わせて 65535 byte までである。 -/
theorem succeeds_packStatsReply {α : Type} {pack : α → Except Error Nat} {P : α → Prop}
    {len : α → Nat} (hpack : ∀ x n, pack x = .ok n ↔ P x ∧ n = len x) (xs : List α) :
    Succeeds (packStatsReply (Loxi.packList pack xs)) ↔
      (∀ x ∈ xs, P x) ∧ 16 + (xs.map len).sum < 65536 := by
  simp only [packStatsReply, succeeds_bind, packList_eq_ok hpack, succeeds_filled]
  constructor
  · rintro ⟨_, ⟨hall, rfl⟩, hlt⟩
    exact ⟨hall, hlt⟩
  · rintro ⟨hall, hlt⟩
    exact ⟨_, ⟨hall, rfl⟩, hlt⟩

theorem succeeds_groupStatsReply (gs : List GroupEntry) :
    Succeeds (groupStatsReply gs) ↔
      16 + (gs.map fun g => 40 + 16 * g.stats.bucketStats.length).sum < 65536 := by
  have hpack : ∀ (g : GroupEntry) (n : Nat), packGroupEntry g = .ok n ↔
      40 + 16 * g.stats.bucketStats.length < 65536 ∧ n = 40 + 16 * g.stats.bucketStats.length :=
    fun g n => filled_eq_ok
  unfold groupStatsReply
  rw [succeeds_packStatsReply hpack]
  refine and_iff_right_of_imp fun h g hg => ?_
  -- 一つの entry は全体より短い
  have hmem : 40 + 16 * g.stats.bucketStats.length
      ∈ gs.map fun g => 40 + 16 * g.stats.bucketStats.length := List.mem_map_of_mem hg
  have hle := List.single_le_sum (fun _ _ => Nat.zero_le _) _ hmem
  omega

/-- ASCII の文字列。 -/
def Ascii (s : String) : Prop := (s.toList.all fun c => c.toNat < 128) = true

theorem str_eq_ok {s t : String} : str s = .ok t ↔ Ascii s ∧ t = s := by
  unfold str Ascii
  split
  · next h => simp [h, eq_comm]
  · next h => simp [h]

/-- port の名と MAC address が pack できる。 -/
def OfpPort.Packs (p : OfpPort) : Prop :=
  Ascii p.name ∧ (p.hwAddr = [] ∨ p.hwAddr.length = 6 ∧ ∀ b ∈ p.hwAddr, b.toNat < 256)

theorem pack6B_eq_ok {l : List Nat} {m : Nat} :
    pack6B l = .ok m ↔ (l.length = 6 ∧ ∀ b ∈ l, b < 256) ∧ m = 6 := by
  have hpack : ∀ b n : Nat, struct 1 b = .ok n ↔ b < 256 ∧ n = 1 := fun b n => struct_eq_ok
  unfold pack6B
  split
  · next hlen =>
    rw [packList_eq_ok hpack, List.map_const', List.sum_replicate_nat, hlen]
    simp
  · next hlen => simp [hlen]

theorem packPortDesc_eq_ok (p : OfpPort) (n : Nat) :
    packPortDesc p = .ok n ↔ p.Packs ∧ n = 64 := by
  have hbytes : (p.hwBytes.length = 6 ∧ ∀ b ∈ p.hwBytes, b < 256) ↔
      p.hwAddr = [] ∨ p.hwAddr.length = 6 ∧ ∀ b ∈ p.hwAddr, b.toNat < 256 := by
    unfold OfpPort.hwBytes
    split
    · next hnil => simp [hnil]
    · next hnil => simp [hnil]
  simp only [packPortDesc, bind_eq_ok, str_eq_ok, pack6B_eq_ok, hbytes, OfpPort.Packs, pure,
    Except.pure, Except.ok.injEq]
  constructor
  · rintro ⟨_, ⟨hname, rfl⟩, _, ⟨hhw, rfl⟩, rfl⟩
    exact ⟨⟨hname, hhw⟩, rfl⟩
  · rintro ⟨⟨hname, hhw⟩, rfl⟩
    exact ⟨_, ⟨hname, rfl⟩, 6, ⟨hhw, rfl⟩, rfl⟩

theorem succeeds_portDescStatsReply (ps : List OfpPort) :
    Succeeds (portDescStatsReply ps) ↔ (∀ p ∈ ps, p.Packs) ∧ 16 + 64 * ps.length < 65536 := by
  unfold portDescStatsReply
  rw [succeeds_packStatsReply packPortDesc_eq_ok, List.map_const', List.sum_replicate_nat,
    Nat.mul_comm]

theorem succeeds_descStatsReply (d : Desc) :
    Succeeds (descStatsReply d) ↔ ∀ s ∈ d.strings, Ascii s := by
  have hlist : ∀ (l : List String) (l' : List String),
      l.mapM str = .ok l' ↔ (∀ s ∈ l, Ascii s) ∧ l' = l := by
    intro l l'
    have henc : l.mapM (fun s => (.ok s : Except Error String)) = .ok l := by
      induction l with
      | nil => rfl
      | cons s l ih => simp [List.mapM_cons, ih, bind, Except.bind, pure, Except.pure]
    refine mapM_ok_iff (R := Ascii) (fun x y hxy x' => ?_) henc l'
    cases hxy
    exact str_eq_ok
  simp only [descStatsReply, succeeds_bind, hlist, succeeds_filled]
  simp

theorem succeeds_featuresReply (datapathId : UInt64) (pb : SwitchFeatures) :
    Succeeds (featuresReply datapathId pb) ↔
      pb.datapathId = 0 ∧ pb.nTables.toNat < 256 ∧ pb.auxiliaryId.toNat < 256 := by
  have hlookup : ((switchFeaturesDict pb).lookup "datapath_id").isSome = true ↔
      pb.datapathId ≠ 0 := by
    simp (disch := decide) [switchFeaturesDict, List.lookup_append, lookup_plain_self,
      lookup_plain_ne, ← UInt64.toNat_inj]
  have harg : ∀ (name : String) (n : Nat), (switchFeaturesDict pb).lookup name
      = (if n = 0 then none else some (.int n)) → intArg (switchFeaturesDict pb) name = .ok n :=
    fun name n h => intArg_of_lookup h
  have hpack : ∀ (x : Nat × Nat) (n : Nat), struct x.1 x.2 = .ok n ↔ x.2 < 256 ^ x.1 ∧ n = x.1 :=
    fun x n => struct_eq_ok
  simp only [featuresReply]
  rw [harg "n_buffers" pb.nBuffers.toNat ?_, harg "n_tables" pb.nTables.toNat ?_,
    harg "auxiliary_id" pb.auxiliaryId.toNat ?_, harg "capabilities" pb.capabilities.toNat ?_]
  · by_cases hid : pb.datapathId = 0
    · rw [if_neg (by simp [hlookup, hid])]
      simp only [succeeds_bind, packList_eq_ok hpack, succeeds_filled, Except.ok.injEq,
        exists_eq_left']
      have hdatapath : datapathId.toNat < 256 ^ 8 := datapathId.toNat_lt
      have hbuffers : pb.nBuffers.toNat < 256 ^ 4 := pb.nBuffers.toNat_lt
      have hcapabilities : pb.capabilities.toNat < 256 ^ 4 := pb.capabilities.toNat_lt
      constructor
      · rintro ⟨n, ⟨hall, rfl⟩, -⟩
        exact ⟨hid, hall (1, _) (by simp), hall (1, pb.auxiliaryId.toNat) (by simp)⟩
      · rintro ⟨-, htables, haux⟩
        exact ⟨_, ⟨by simp_all, rfl⟩, by simp⟩
    · rw [if_pos (hlookup.mpr hid)]
      simp [hid, throw, throwThe, MonadExceptOf.throw, bind, Except.bind]
  all_goals
    simp (disch := decide) [switchFeaturesDict, List.lookup_append, lookup_plain_self,
      lookup_plain_ne]

end Voltha.Ofagent
