import Voltha.Ofagent.Converter

/-!
# 入れた flow を読み戻す

controller が flow を入れると、`to_grpc` と `flow_stats_entry_from_flow_mod_message` を通って表に入り、
flow の統計を求めると `to_loxi` を通って戻る。戻るものが入れたものと同じになる条件を調べる。

戻す側が知るのは、match の `eth_type` と `in_port`、`apply_actions` と `output` だけである。さらに、辞書から
落ちた **空の列** と **0 の id** を添字で読むと `KeyError` になる。match の field の列だけは `get` で読むので、
空でもよい。
-/

namespace Voltha.Ofagent

open Voltha.Flow Py

/-! ## 辞書を引く -/

theorem lookup_plain_self (name : String) (n : Nat) :
    (plain name n).lookup name = if n = 0 then none else some (.int n) := by
  unfold plain
  split <;> simp

theorem lookup_plain_ne {name k : String} (h : name ≠ k) (n : Nat) :
    (plain name n).lookup k = none := by
  unfold plain
  split
  · rfl
  · simp [List.lookup_cons, beq_eq_false_iff_ne.mpr (Ne.symm h)]

theorem lookup_repeated_self (name : String) (l : List Dict) :
    (repeated name l).lookup name = if l = [] then none else some (.list (l.map .dict)) := by
  unfold repeated
  cases l <;> simp

theorem lookup_repeated_ne {name k : String} (h : name ≠ k) (l : List Dict) :
    (repeated name l).lookup k = none := by
  unfold repeated
  split
  · rfl
  · simp [List.lookup_cons, beq_eq_false_iff_ne.mpr (Ne.symm h)]

theorem lookup_cons_ne {name k : String} (h : name ≠ k) (v : Val) (d : Dict) :
    List.lookup k ((name, v) :: d) = d.lookup k := by
  simp [List.lookup_cons, beq_eq_false_iff_ne.mpr (Ne.symm h)]

/-- 落ちた既定値は、引数の既定値で補われる。 -/
theorem intArg_of_lookup {d : Dict} {name : String} {n : Nat}
    (h : d.lookup name = if n = 0 then none else some (.int n)) : intArg d name = .ok n := by
  unfold intArg Py.get
  rw [h]
  split
  · next hn => simp [hn, Val.asInt]
  · rfl

theorem item_of_lookup {d : Dict} {name : String} {v : Val} (h : d.lookup name = some v) :
    item d name = .ok v := by
  simp [item, h]

theorem uint32_eq_ok {n : Nat} {v : UInt32} (h : uint32 n = .ok v) : v.toNat = n := by
  unfold uint32 at h
  split at h
  · next hn =>
    cases h
    simp [Nat.mod_eq_of_lt hn]
  · cases h

/-! ## 一つずつの往復 -/

namespace Loxi

/-- 戻す側の知る match の field。 -/
def Oxm.Readable : Oxm → Prop
  | .ethType _ | .inPort _ => True
  | _ => False

/-- 戻す側の知る action。 -/
def Action.Readable : Action → Prop
  | .output _ _ => True
  | _ => False

/-- 戻す側の知る instruction。空の action の列は読めない。 -/
def Instruction.Readable : Instruction → Prop
  | .applyActions actions => actions ≠ [] ∧ ∀ a ∈ actions, a.Readable
  | _ => False

end Loxi

/-- 戻す側の知らないものは、例外になる。 -/
theorem unknown_ok_iff {α : Type} {m : Except Error α} {P : Prop} {a a' : α}
    (hrun : m = .error .notImplementedError) (hP : ¬P) : m = .ok a' ↔ P ∧ a' = a := by
  simp [hrun, hP]

/-- 戻す側の知らない型の field。 -/
theorem makeLoxiOxm_unknown {type : OfbFieldType} {n : Nat} {o : Loxi.Oxm} {f : OxmField}
    (h : ofbInt type n = .ok f) (ho : ¬o.Readable)
    (hrun : ∀ v, makeLoxiOxm (.dict (oxmFieldDict (ofbField type (.int type v))))
      = .error .notImplementedError) (o' : Loxi.Oxm) :
    makeLoxiOxm (.dict (oxmFieldDict f)) = .ok o' ↔ o.Readable ∧ o' = o := by
  obtain ⟨v, -, hf⟩ := bind_eq_ok.mp h
  cases hf
  exact unknown_ok_iff (hrun v.toUInt64) ho

theorem makeLoxiOxm_iff (o : Loxi.Oxm) (f : OxmField) (h : toGrpcOxm o = .ok f) (o' : Loxi.Oxm) :
    makeLoxiOxm (.dict (oxmFieldDict f)) = .ok o' ↔ o.Readable ∧ o' = o := by
  cases o with
  | ethType n =>
    obtain ⟨v, hv, hf⟩ := bind_eq_ok.mp h
    cases hf
    have hrun : makeLoxiOxm (.dict (oxmFieldDict (ofbField .ethType (.int .ethType v.toUInt64))))
        = .ok (.ethType v.toUInt64.toNat) := rfl
    simp [hrun, uint32_eq_ok hv, Loxi.Oxm.Readable, eq_comm]
  | inPort n =>
    obtain ⟨v, hv, hf⟩ := bind_eq_ok.mp h
    cases hf
    have hrun : makeLoxiOxm (.dict (oxmFieldDict (ofbField .inPort (.port v))))
        = .ok (.inPort v.toNat) := rfl
    simp [hrun, uint32_eq_ok hv, Loxi.Oxm.Readable, eq_comm]
  | ipProto n => exact makeLoxiOxm_unknown h id (fun _ => rfl) o'
  | vlanVid n => exact makeLoxiOxm_unknown h id (fun _ => rfl) o'
  | vlanPcp n => exact makeLoxiOxm_unknown h id (fun _ => rfl) o'
  | ipv4Dst n => exact makeLoxiOxm_unknown h id (fun _ => rfl) o'
  | other packed => cases h

theorem makeLoxiAction_iff (a : Loxi.Action) (pb : Action) (h : toGrpcAction a = .ok pb)
    (a' : Loxi.Action) :
    makeLoxiAction (.dict (actionDict pb)) = .ok a' ↔ a.Readable ∧ a' = a := by
  cases a with
  | output port maxLen =>
    obtain ⟨p, hp, h⟩ := bind_eq_ok.mp h
    obtain ⟨m, hm, h⟩ := bind_eq_ok.mp h
    cases h
    -- 0 の port や長さは辞書から落ち、引数の既定値で戻る
    have hport : intArg (plain "port" p.toNat ++ plain "max_len" m.toNat) "port" = .ok p.toNat := by
      apply intArg_of_lookup
      simp (disch := decide) [List.lookup_append, lookup_plain_self, lookup_plain_ne]
    have hlen : intArg (plain "port" p.toNat ++ plain "max_len" m.toNat) "max_len"
        = .ok m.toNat := by
      apply intArg_of_lookup
      simp (disch := decide) [List.lookup_append, lookup_plain_self, lookup_plain_ne]
    have hrun : makeLoxiAction (.dict (actionDict ⟨.output, .output p m⟩))
        = .ok (.output p.toNat m.toNat) := by
      show (do
        return Loxi.Action.output
          (← intArg (plain "port" p.toNat ++ plain "max_len" m.toNat) "port")
          (← intArg (plain "port" p.toNat ++ plain "max_len" m.toNat) "max_len")
          : Except Error Loxi.Action) = _
      rw [hport, hlen]
      rfl
    simp [hrun, uint32_eq_ok hp, uint32_eq_ok hm, Loxi.Action.Readable, eq_comm]
  | group groupId =>
    obtain ⟨g, -, h⟩ := bind_eq_ok.mp h
    cases h
    exact unknown_ok_iff rfl id
  | setField field =>
    obtain ⟨f, -, h⟩ := bind_eq_ok.mp h
    cases h
    exact unknown_ok_iff rfl id
  | popVlan =>
    cases h
    exact unknown_ok_iff rfl id
  | pushVlan ethertype =>
    obtain ⟨e, -, h⟩ := bind_eq_ok.mp h
    cases h
    exact unknown_ok_iff rfl id
  | other packed => cases h

theorem makeLoxiInstruction_iff (i : Loxi.Instruction) (pb : Instruction)
    (h : toGrpcInstruction i = .ok pb) (i' : Loxi.Instruction) :
    makeLoxiInstruction (.dict (instructionDict pb)) = .ok i' ↔ i.Readable ∧ i' = i := by
  cases i with
  | applyActions actions =>
    obtain ⟨acts, hacts, h⟩ := bind_eq_ok.mp h
    cases h
    have hrun : makeLoxiInstruction (.dict (instructionDict ⟨OFPIT_APPLY_ACTIONS, .actions acts⟩))
        = (do
          let l ← (← item (repeated "actions" (acts.map actionDict)) "actions").asList
          return .applyActions (← l.mapM makeLoxiAction) : Except Error Loxi.Instruction) := rfl
    have hempty := empty_iff_of_mapM hacts
    rw [hrun]
    by_cases hnil : acts = []
    · -- 空の列は辞書から落ちている
      have hitem : item (repeated "actions" (acts.map actionDict)) "actions"
          = .error .keyError := by
        simp [hnil, item, repeated]
      simp [hitem, bind, Except.bind, hempty.mp hnil, Loxi.Instruction.Readable]
    · have hitem : item (repeated "actions" (acts.map actionDict)) "actions"
          = .ok (.list ((acts.map actionDict).map .dict)) :=
        item_of_lookup (by simp [lookup_repeated_self, hnil])
      have hlist := mapM_ok_iff (R := Loxi.Action.Readable) makeLoxiAction_iff hacts
      simp only [hitem, Val.asList, bind_eq_ok, Except.ok.injEq, exists_eq_left', List.mapM_map]
      constructor
      · rintro ⟨l, hl, hi⟩
        cases hi
        obtain ⟨hall, rfl⟩ := (hlist l).mp hl
        exact ⟨⟨fun h => hnil (hempty.mpr h), hall⟩, rfl⟩
      · rintro ⟨⟨-, hall⟩, rfl⟩
        exact ⟨actions, (hlist actions).mpr ⟨hall, rfl⟩, rfl⟩
  | gotoTable tableId =>
    obtain ⟨t, -, h⟩ := bind_eq_ok.mp h
    cases h
    exact unknown_ok_iff rfl id
  | other packed => cases h

/-! ## flow の往復 -/

theorem makeLoxiMatch_iff {oxmList : List Loxi.Oxm} {m : Match}
    (h : loxiMatchV3ToOfpMatch oxmList = .ok m) (oxmList' : List Loxi.Oxm) :
    makeLoxiMatch (matchDict m) = .ok oxmList' ↔
      (∀ o ∈ oxmList, o.Readable) ∧ oxmList' = oxmList := by
  obtain ⟨fields, hfields, h⟩ := bind_eq_ok.mp h
  cases h
  have hget : Py.get (matchDict ⟨.oxm, fields⟩) "oxm_fields" (.list [])
      = .list ((fields.map oxmFieldDict).map .dict) := by
    have hlookup : (matchDict ⟨.oxm, fields⟩).lookup "oxm_fields"
        = if fields.map oxmFieldDict = [] then none
          else some (.list ((fields.map oxmFieldDict).map .dict)) := by
      simp (disch := decide) [matchDict, List.lookup_append, lookup_plain_ne, lookup_repeated_self]
    unfold Py.get
    rw [hlookup]
    split
    · next hnil => simp [hnil]
    · rfl
  have hrun : makeLoxiMatch (matchDict ⟨.oxm, fields⟩) = (do
      let l ← (Py.get (matchDict ⟨.oxm, fields⟩) "oxm_fields" (.list [])).asList
      l.mapM makeLoxiOxm : Except Error (List Loxi.Oxm)) := rfl
  have hlist := mapM_ok_iff (R := Loxi.Oxm.Readable) makeLoxiOxm_iff hfields
  rw [hrun, hget]
  simp only [Val.asList, bind_eq_ok, Except.ok.injEq, exists_eq_left', List.mapM_map]
  exact hlist oxmList'

/-- 数の field をそのまま持つ entry。 -/
def flowStatsEntryOf (pb : FlowStats) (oxmList : List Loxi.Oxm)
    (instructions : List Loxi.Instruction) : Loxi.FlowStatsEntry where
  tableId := pb.tableId.toNat
  durationSec := pb.durationSec.toNat
  durationNsec := pb.durationNsec.toNat
  priority := pb.priority.toNat
  idleTimeout := pb.idleTimeout.toNat
  hardTimeout := pb.hardTimeout.toNat
  flags := pb.flags.toNat
  cookie := pb.cookie.toNat
  packetCount := pb.packetCount.toNat
  byteCount := pb.byteCount.toNat
  oxmList := oxmList
  instructions := instructions

/-- `ofp_flow_stats` の辞書を引く。 -/
theorem ofpFlowStats_run (pb : FlowStats) : ofpFlowStatsToLoxiFlowStats pb = (do
    let oxmList ← makeLoxiMatch (matchDict pb.match)
    let l ← (← item (flowStatsDict pb) "instructions").asList
    let instructions ← l.mapM makeLoxiInstruction
    let _ ← item (flowStatsDict pb) "id"
    return flowStatsEntryOf pb oxmList instructions) := by
  have hmatch : item (flowStatsDict pb) "match" = .ok (.dict (matchDict pb.match)) := by
    apply item_of_lookup
    simp (disch := decide) [flowStatsDict, List.lookup_append, lookup_plain_ne]
  have harg : ∀ (name : String) (n : Nat), (flowStatsDict pb).lookup name
      = (if n = 0 then none else some (.int n)) → intArg (flowStatsDict pb) name = .ok n :=
    fun name n h => intArg_of_lookup h
  simp only [ofpFlowStatsToLoxiFlowStats]
  rw [hmatch, harg "table_id" pb.tableId.toNat ?_, harg "duration_sec" pb.durationSec.toNat ?_,
    harg "duration_nsec" pb.durationNsec.toNat ?_, harg "priority" pb.priority.toNat ?_,
    harg "idle_timeout" pb.idleTimeout.toNat ?_, harg "hard_timeout" pb.hardTimeout.toNat ?_,
    harg "flags" pb.flags.toNat ?_, harg "cookie" pb.cookie.toNat ?_,
    harg "packet_count" pb.packetCount.toNat ?_, harg "byte_count" pb.byteCount.toNat ?_]
  · rfl
  all_goals
    simp (disch := decide) [flowStatsDict, List.lookup_append, lookup_plain_ne, lookup_plain_self,
      lookup_cons_ne, lookup_repeated_ne]

theorem item_instructions (pb : FlowStats) : item (flowStatsDict pb) "instructions"
    = if pb.instructions = [] then .error .keyError
      else .ok (.list ((pb.instructions.map instructionDict).map .dict)) := by
  have hlookup : (flowStatsDict pb).lookup "instructions"
      = if pb.instructions = [] then none
        else some (.list ((pb.instructions.map instructionDict).map .dict)) := by
    simp (disch := decide) [flowStatsDict, List.lookup_append, lookup_plain_ne, lookup_cons_ne,
      lookup_repeated_self]
  unfold item
  rw [hlookup]
  split <;> simp_all

theorem item_id (pb : FlowStats) : item (flowStatsDict pb) "id"
    = if pb.id = 0 then .error .keyError else .ok (.int pb.id) := by
  have hlookup : (flowStatsDict pb).lookup "id"
      = if pb.id = 0 then none else some (.int pb.id) := by
    simp (disch := decide) [flowStatsDict, List.lookup_append, lookup_plain_ne, lookup_plain_self,
      lookup_cons_ne, lookup_repeated_ne]
  unfold item
  rw [hlookup]
  split <;> simp_all

/-- `to_grpc` は match と instruction をそれぞれ変換する。 -/
theorem ofpFlowMod_parts {lo : Loxi.FlowAdd} {mod : FlowMod}
    (h : loxiFlowModToOfpFlowMod lo = .ok mod) :
    loxiMatchV3ToOfpMatch lo.oxmList = .ok mod.match ∧
      lo.instructions.mapM toGrpcInstruction = .ok mod.instructions := by
  simp only [loxiFlowModToOfpFlowMod, bind_eq_ok] at h
  obtain ⟨m, hm, insts, hinsts, h⟩ := h
  obtain ⟨_, -, _, -, _, -, _, -, _, -, _, -, _, -, _, -, _, -, _, -, h⟩ := h
  cases h
  exact ⟨hm, hinsts⟩

/-- 戻るのは、match と instruction が読め、instruction の列が空でなく、id が 0 でないときである。 -/
theorem ofpFlowStats_ok_iff (pb : FlowStats) (oxmList : List Loxi.Oxm)
    (instructions : List Loxi.Instruction) :
    (∃ e, ofpFlowStatsToLoxiFlowStats pb = .ok e ∧ e.oxmList = oxmList ∧
        e.instructions = instructions) ↔
      makeLoxiMatch (matchDict pb.match) = .ok oxmList ∧ pb.instructions ≠ [] ∧
        pb.instructions.mapM (fun i => makeLoxiInstruction (.dict (instructionDict i)))
          = .ok instructions ∧ pb.id ≠ 0 := by
  rw [ofpFlowStats_run, item_instructions, item_id]
  constructor
  · rintro ⟨e, he, rfl, rfl⟩
    obtain ⟨oxms, hoxms, he⟩ := bind_eq_ok.mp he
    obtain ⟨v, hv, he⟩ := bind_eq_ok.mp he
    split at hv
    · cases hv
    · next hnil =>
      cases hv
      obtain ⟨l, hl, he⟩ := bind_eq_ok.mp he
      cases hl
      obtain ⟨insts, hinsts, he⟩ := bind_eq_ok.mp he
      obtain ⟨id, hid, he⟩ := bind_eq_ok.mp he
      split at hid
      · cases hid
      · next hid0 =>
        cases he
        rw [List.mapM_map, List.mapM_map] at hinsts
        exact ⟨hoxms, hnil, hinsts, hid0⟩
  · rintro ⟨hoxms, hnil, hinsts, hid⟩
    have hmapM : ((pb.instructions.map instructionDict).map Val.dict).mapM makeLoxiInstruction
        = .ok instructions := by
      rw [List.mapM_map, List.mapM_map]
      exact hinsts
    rw [hoxms, if_neg hnil, if_neg hid]
    refine ⟨flowStatsEntryOf pb oxmList instructions, ?_, rfl, rfl⟩
    simp only [bind_eq_ok, Val.asList, Except.ok.injEq, exists_eq_left', hmapM]
    rfl

/--
**読み戻し。** `to_grpc` が受けた flow が同じ match と instruction で戻るのは、match の field がみな
`eth_type` か `in_port`、instruction が空でない列で、みな空でない `output` の列の `apply_actions` であり、
flow の hash が 0 でないときに限る。
-/
theorem flow_reads_back_iff (hash : FlowKey → Nat) {lo : Loxi.FlowAdd} {mod : FlowMod}
    (h : loxiFlowModToOfpFlowMod lo = .ok mod) :
    (∃ e, ofpFlowStatsToLoxiFlowStats (flowStatsEntryFromFlowModMessage hash mod) = .ok e ∧
        e.oxmList = lo.oxmList ∧ e.instructions = lo.instructions) ↔
      (∀ o ∈ lo.oxmList, o.Readable) ∧ lo.instructions ≠ [] ∧
        (∀ i ∈ lo.instructions, i.Readable) ∧ hash mod.key ≠ 0 := by
  obtain ⟨hm, hinsts⟩ := ofpFlowMod_parts h
  have hlist := mapM_ok_iff (R := Loxi.Instruction.Readable) makeLoxiInstruction_iff hinsts
  rw [ofpFlowStats_ok_iff, id_flowStatsEntry]
  show makeLoxiMatch (matchDict mod.match) = _ ∧ mod.instructions ≠ [] ∧
    mod.instructions.mapM _ = _ ∧ _ ↔ _
  rw [makeLoxiMatch_iff hm, hlist, ne_eq, empty_iff_of_mapM hinsts]
  simp only [and_true, ne_eq]

/-- match と instruction の他は 0 の flow。 -/
def bareFlowAdd (oxmList : List Loxi.Oxm) (instructions : List Loxi.Instruction) : Loxi.FlowAdd :=
  ⟨0, 0, 0, 0, 0, 0, 0, 0, 0, 0, oxmList, instructions⟩

/-- 値が 0 の `in_port` と `output` は読み戻せる。 -/
theorem flow_reads_back_in_port :
    (loxiFlowModToOfpFlowMod (bareFlowAdd [.inPort 0] [.applyActions [.output 0 0]])).isOk = true ∧
    ∀ mod, loxiFlowModToOfpFlowMod (bareFlowAdd [.inPort 0] [.applyActions [.output 0 0]]) = .ok mod →
      ∃ e, ofpFlowStatsToLoxiFlowStats (flowStatsEntryFromFlowModMessage (fun _ => 1) mod) = .ok e ∧
        e.oxmList = [.inPort 0] ∧ e.instructions = [.applyActions [.output 0 0]] := by
  refine ⟨rfl, fun mod h => (flow_reads_back_iff (fun _ => 1) h).mpr ?_⟩
  simp [bareFlowAdd, Loxi.Oxm.Readable, Loxi.Instruction.Readable, Loxi.Action.Readable]

/-- instruction の無い flow は、受け取られても読み戻せない。 -/
theorem flow_without_instructions_lost :
    ¬∃ hash : FlowKey → Nat, ∀ (lo : Loxi.FlowAdd) (mod : FlowMod),
      loxiFlowModToOfpFlowMod lo = .ok mod →
      ∃ e, ofpFlowStatsToLoxiFlowStats (flowStatsEntryFromFlowModMessage hash mod) = .ok e ∧
        e.oxmList = lo.oxmList ∧ e.instructions = lo.instructions := by
  rintro ⟨hash, h⟩
  have hback := (ofpFlowStats_ok_iff _ _ _).mp (h (bareFlowAdd [] []) _ rfl)
  exact hback.2.1 rfl

end Voltha.Ofagent
