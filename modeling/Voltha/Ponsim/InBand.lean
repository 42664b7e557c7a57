import Voltha.Ponsim.Forwarding

/-!
# controller との間の packet

`ponsim_olt.py` の `packet_out` と `rcv_io`。controller との間の packet は、外側に tag 4000、
内側に UNI の番号の tag を付けて NNI を通る。

* UNI への packet は、その UNI からだけ出る（`packetOut_delivers`）。OLT の既定の規則が外側の tag を
  外し、ONU の既定の規則が内側の番号を 0 にする
* controller 行きの flow に合う packet は、`packet_out` が付けるのと同じ tag を付けて NNI から出て、
  `rcv_io` はその UNI の番号ともとの packet を controller に渡す（`packetIn_delivers`）
-/

namespace Voltha.Ponsim

open Voltha.Flow Voltha.Core Precedence

variable {R : Type} {hash : FlowKey → Nat} {T : PonTree R} {o : Onu R} {frame pkt out : Frame}
  {type : Nat}

/-! ## tag -/

/-- `Ether(src, dst) / Dot1Q(vlan, type) / payload`。`Ether` の `type` は 0x8100 になる。 -/
def Frame.tag (vlan type : Nat) (pkt : Frame) : Frame :=
  { pkt with type := some 0x8100, payload := .dot1Q ⟨0, 0, vlan, type⟩ :: pkt.payload }

/-- `packet_out(egress_port, msg)` の `out_pkt`。 -/
def packetOut (egressPort : Nat) (pkt : Frame) : Except SimError Frame :=
  match pkt.type with
  | none => .error (.attributeError "type")
  | some type => .ok ((pkt.tag egressPort type).tag 4000 0x8100)

/-- `rcv_io(port, frame)` が `send_packet_in` に渡す、logical port の番号と packet。 -/
def rcvIo (pkt : Frame) : Option (Nat × Frame) :=
  match afterShim pkt.payload with
  | .dot1Q innerShim :: rest =>
    some (innerShim.vlan, { pkt with type := some innerShim.type, payload := rest })
  | _ => none

/-- `packet_out` の tag は、`rcv_io` で元に戻る。 -/
theorem rcvIo_packetOut {egressPort : Nat} (h : packetOut egressPort pkt = .ok out) :
    rcvIo out = some (egressPort, pkt) := by
  unfold packetOut at h
  cases htype : pkt.type with
  | none =>
    rw [htype] at h
    cases h
  | some type =>
    rw [htype] at h
    cases h
    show some (egressPort, { pkt with type := some type }) = _
    rw [← htype]

/-! ## 既定の規則 -/

theorem or_and_mask (n : Nat) (h : n < 4096) :
    (4096 ||| n) &&& 4095 = n ∧ (4096 ||| n) &&& 4096 ≠ 0 := by
  have hlow : n &&& 4095 = n := (Nat.and_two_pow_sub_one_eq_mod n 12).trans (Nat.mod_eq_of_lt h)
  have hhigh : n &&& 4096 = 0 := by
    rw [← hlow, Nat.and_assoc]
    simp
  rw [Nat.and_or_distrib_right, Nat.and_or_distrib_right, hlow, hhigh]
  simp

theorem intValue_present (vid : UInt32) :
    intValue .vlanVid (vlanVid (OFPVID_PRESENT ||| vid)) = 4096 ||| vid.toNat := by
  simp [intValue, vlanVid, OFPVID_PRESENT]

/-- `vlan_vid(PRESENT | vid)` だけの規則は、その番号の tag に合う。 -/
theorem isMatch_present {r : Rule} {vid : UInt32}
    (hr : r.fields = [vlanVid (OFPVID_PRESENT ||| vid)]) (h : vid.toNat < 4096) (frame : Frame) :
    r.isMatch frame = .ok (decide (frame.shim.map Dot1Q.vlan = some vid.toNat)) := by
  have hvid : vlanVidMatches (4096 ||| vid.toNat) frame.shim
      = decide (frame.shim.map Dot1Q.vlan = some vid.toNat) := by
    obtain ⟨hlow, hhigh⟩ := or_and_mask vid.toNat h
    cases frame.shim with
    | none => simp [vlanVidMatches, hhigh]
    | some shim => simp [vlanVidMatches, hhigh, hlow]
  have hfield : fieldMatches 0 frame (vlanVid (OFPVID_PRESENT ||| vid))
      = .ok (decide (frame.shim.map Dot1Q.vlan = some vid.toNat)) := by
    rw [← hvid, ← intValue_present]
    rfl
  rw [Rule.isMatch, hr, matchFields, hfield]
  cases decide (frame.shim.map Dot1Q.vlan = some vid.toNat) <;> rfl

theorem isMatch_downDefault (h : o.device.vlan.toNat < 4096) (frame : Frame) :
    (downDefault o).isMatch frame
      = .ok (decide (frame.shim.map Dot1Q.vlan = some o.device.vlan.toNat)) :=
  isMatch_present rfl h frame

theorem isMatch_oltDefault (vlan : Nat) :
    oltDefault.isMatch ((pkt.tag vlan type).tag 4000 0x8100) = .ok true := rfl

/-- 外側の tag を外す。 -/
theorem run_oltDefault (vlan : Nat) : oltDefault.run ((pkt.tag vlan type).tag 4000 0x8100)
    = .ok ⟨(pkt.tag vlan type).tag 4000 0x8100, some (pkt.tag vlan type)⟩ := rfl

/-- 受け取った frame の object の番号を 0 にする。 -/
theorem run_downDefault (vlan : Nat) :
    (downDefault o).run (pkt.tag vlan type) = .ok ⟨pkt.tag 0 type, none⟩ := rfl

/-- 番号の違う tag の frame は、他の規則に合わなければ、どこへも出ない。 -/
theorem stage_of_other {groupMap : List (UInt32 × GroupEntry)} {flows : List FlowStats}
    {vlan : Nat} (hlow : o.device.vlan.toNat < 4096) (hvlan : vlan ≠ o.device.vlan.toNat)
    (h : ∀ r ∈ egressRules groupMap o flows, r.isMatch (pkt.tag vlan type) = .ok false) :
    stage (egressTable groupMap o flows) (pkt.tag vlan type) = .ok none := by
  refine stage_of_none fun r hr => ?_
  rcases List.mem_cons.mp hr with rfl | hr
  · rw [isMatch_downDefault hlow]
    exact congrArg Except.ok (decide_eq_false fun heq => hvlan (Option.some.inj heq))
  · exact h r hr

/-! ## controller から -/

section Deployed

variable [DecidableEq R] {s : AgentState R} {flows : List FlowStats} {groups : List GroupEntry}
  {rules : Rules}

/-- **controller から UNI への packet は、その UNI からだけ、番号 0 の tag を付けて出る。** -/
theorem packetOut_delivers (h : Deployed hash T s flows groups rules) {i : Nat}
    (hi : T.onus[i]? = some o)
    (hvlan : ∀ (j : Nat) (o' : Onu R), T.onus[j]? = some o' → o'.device.vlan.toNat = 128 + j)
    (hcount : 128 + T.onus.length ≤ 4096) (htype : pkt.type = some type)
    (hout : packetOut (128 + i) pkt = .ok out)
    (hnni : ∀ r ∈ downstreamRules T flows, 2000 < r.rank → r.isMatch out = .ok false)
    (hown : ∀ r ∈ egressRules (groupDict groups) o flows, 500 < r.rank →
      r.isMatch (pkt.tag (128 + i) type) = .ok false)
    (hbefore : ∀ o' ∈ T.onus.take i, ∀ r ∈ egressRules (groupDict groups) o' flows,
      r.isMatch (pkt.tag (128 + i) type) = .ok false)
    (hafter : ∀ o' ∈ T.onus.drop (i + 1), ∀ r ∈ egressRules (groupDict groups) o' flows,
      r.isMatch (pkt.tag 0 type) = .ok false) (depth : Nat) :
    ((simOf T rules).ingress (depth + 2) 0 out).delivered = [(128 + i, pkt.tag 0 type)] := by
  obtain rfl : (pkt.tag (128 + i) type).tag 4000 0x8100 = out := by
    rw [packetOut, htype] at hout
    exact Except.ok.inj hout
  obtain ⟨hlt, hget⟩ := List.getElem?_eq_some_iff.mp hi
  have hlow : ∀ (j : Nat) (o' : Onu R), T.onus[j]? = some o' → o'.device.vlan.toNat < 4096 := by
    intro j o' hj
    have hj' := (List.getElem?_eq_some_iff.mp hj).1
    have hno := hvlan j o' hj
    omega
  -- OLT の段
  have holt : through (downstreamTable T flows) ((pkt.tag (128 + i) type).tag 4000 0x8100)
      = some (pkt.tag (128 + i) type) :=
    (through_of_best (best_head (isMatch_oltDefault _) hnni) (isMatch_oltDefault _)
      (run_oltDefault _)).1
  -- `i` 番の ONU の段
  have hmatch : (downDefault o).isMatch (pkt.tag (128 + i) type) = .ok true := by
    rw [isMatch_downDefault (hlow i o hi), hvlan i o hi]
    exact congrArg Except.ok (decide_eq_true rfl)
  obtain ⟨honu, hleft⟩ := through_of_best (best_head hmatch hown) hmatch (run_downDefault _)
  have hbefore' : ∀ o' ∈ T.onus.take i,
      stage (egressTable (groupDict groups) o' flows) (pkt.tag (128 + i) type) = .ok none := by
    intro o' ho'
    obtain ⟨j, hj, rfl⟩ := List.mem_take_iff_getElem.mp ho'
    have hj' : T.onus[j]? = some T.onus[j] := List.getElem?_eq_getElem (by omega)
    refine stage_of_other (hlow j _ hj') ?_ (hbefore _ ho')
    rw [hvlan j _ hj']
    omega
  have hafter' : ∀ o' ∈ T.onus.drop (i + 1),
      stage (egressTable (groupDict groups) o' flows) (pkt.tag 0 type) = .ok none := by
    intro o' ho'
    obtain ⟨j, hj, rfl⟩ := List.mem_drop_iff_getElem.mp ho'
    have hj' : T.onus[i + 1 + j]? = some T.onus[i + 1 + j] := List.getElem?_eq_getElem (by omega)
    refine stage_of_other (hlow _ _ hj') ?_ (hafter _ ho')
    rw [hvlan _ _ hj']
    omega
  rw [h.downstream, holt, Option.map_some, Option.getD_some]
  refine (fanOut_single 128 hi hbefore' fun rewritten hrewritten => ?_).trans ?_
  · obtain rfl := Except.ok.inj (hleft.symm.trans hrewritten)
    exact hafter'
  · rw [egressTable, honu]
    rfl

/-- controller から UNI 129 への packet は、UNI 129 からだけ出る。 -/
theorem packetOut_delivers_second :
    ((simOf ponsimTree ponsimRules).ingress 2 0
        ((eapolFrame.tag 129 0x888e).tag 4000 0x8100)).delivered
      = [(129, eapolFrame.tag 0 0x888e)] := by
  have hvlan : ∀ (j : Nat) (o' : Onu Unit), ponsimTree.onus[j]? = some o' →
      o'.device.vlan.toNat = 128 + j := by
    intro j o' hj
    rcases j with _ | _ | j
    · obtain rfl := Option.some.inj hj
      rfl
    · obtain rfl := Option.some.inj hj
      rfl
    · cases hj
  have hdelivers := @packetOut_delivers Unit sampleHash ponsimTree (ponsimOnu "onu1" 129) eapolFrame
    ((eapolFrame.tag 129 0x888e).tag 4000 0x8100) 0x888e _ ponsimAgent ponsimFlows [multicastGroup]
    ponsimRules ponsim_deployed 1 rfl hvlan (by decide) rfl rfl (by decide) (by decide) (by decide)
    (by decide) 0
  exact hdelivers

/-! ## controller へ -/

omit [DecidableEq R] in
/-- tag の無いものに、device の番号の tag を付ける。 -/
theorem run_upUntagged (hlow : o.device.vlan.toNat < 4096) (htype : pkt.type = some type) :
    (upUntagged o).run pkt = .ok ⟨pkt, some (pkt.tag o.device.vlan.toNat type)⟩ := by
  have hpush : applyAction (none, ⟨pkt, none⟩) (pushVlan 0x8100)
      = .ok (none, ⟨pkt, some (pkt.tag 1 type)⟩) := by
    show (do return ((none : Option UInt32), ← applyPushVlan (pushVlan 0x8100) ⟨pkt, none⟩)) = _
    rw [applyPushVlan, Frames.current, Option.getD_none, htype]
    rfl
  have hset : applyAction (none, ⟨pkt, some (pkt.tag 1 type)⟩)
      (setField (vlanVid (OFPVID_PRESENT ||| o.device.vlan)))
        = .ok (none, ⟨pkt, some (pkt.tag o.device.vlan.toNat type)⟩) := by
    rw [← (or_and_mask _ hlow).1, ← intValue_present]
    rfl
  unfold Rule.run upUntagged
  rw [List.foldlM_cons, hpush]
  show (([setField (vlanVid (OFPVID_PRESENT ||| o.device.vlan))].foldlM applyAction
    (none, ⟨pkt, some (pkt.tag 1 type)⟩)).map Prod.snd) = _
  rw [List.foldlM_cons, hset]
  rfl

omit [DecidableEq R] in
/-- 番号 0 の tag を、device の番号に書き換える。 -/
theorem run_upTagged (hlow : o.device.vlan.toNat < 4096) :
    (upTagged o).run (pkt.tag 0 type) = .ok ⟨pkt.tag o.device.vlan.toNat type, none⟩ := by
  have hset : applyAction (none, ⟨pkt.tag 0 type, none⟩)
      (setField (vlanVid (OFPVID_PRESENT ||| o.device.vlan)))
        = .ok (none, ⟨pkt.tag o.device.vlan.toNat type, none⟩) := by
    rw [← (or_and_mask _ hlow).1, ← intValue_present]
    rfl
  unfold Rule.run upTagged
  rw [List.foldlM_cons, hset]
  rfl

omit [DecidableEq R] in
/-- tag の無いものと番号が 0 のものは、ONU の段で device の番号の tag を持つ。 -/
theorem ingress_tags (hlow : o.device.vlan.toNat < 4096)
    (hframe : (frame = pkt ∧ pkt.shim = none ∧ pkt.type = some type) ∨ frame = pkt.tag 0 type)
    (hown : ∀ r ∈ ingressRules o flows, 500 < r.rank → r.isMatch frame = .ok false) :
    through (ingressTable o flows) frame = some (pkt.tag o.device.vlan.toNat type) := by
  have hzero : (0 : UInt32).toNat < 4096 := by decide
  rcases hframe with ⟨rfl, hshim, htype⟩ | rfl
  · have htagged : (upTagged o).isMatch frame = .ok false := by
      rw [isMatch_present rfl hzero, hshim]
      rfl
    have huntagged : (upUntagged o).isMatch frame = .ok true := by
      have hfield : fieldMatches 0 frame (vlanVid 0) = .ok (vlanVidMatches 0 frame.shim) := rfl
      rw [Rule.isMatch, upUntagged, matchFields, hfield, hshim]
      rfl
    have hbest := @best_of_outranked frame [upTagged o] (ingressRules o flows) (upUntagged o)
      (by simpa using htagged) huntagged hown
    exact (through_of_best hbest huntagged (run_upUntagged hlow htype)).1
  · have htagged : (upTagged o).isMatch (pkt.tag 0 type) = .ok true := isMatch_present rfl hzero _
    have hbest := @best_head (pkt.tag 0 type) (upUntagged o :: ingressRules o flows) (upTagged o)
      htagged fun r hr hlt => by
        rcases List.mem_cons.mp hr with rfl | hr
        · exact absurd hlt (lt_irrefl _)
        · exact hown r hr hlt
    exact (through_of_best hbest htagged (run_upTagged hlow)).1

/-- controller 行きの規則は、`packet_out` と同じ tag を付ける。 -/
theorem run_controllerRule (flow : FlowStats) (vlan : Nat) :
    (controllerRule flow).run (pkt.tag vlan type)
      = .ok ⟨pkt.tag vlan type, some ((pkt.tag vlan type).tag 4000 0x8100)⟩ := rfl

/--
**controller 行きの flow に合う packet は、NNI からだけ出て、`rcv_io` で UNI の番号ともとの packet に
戻る。** もとの packet の番号 0 の tag は外れる。
-/
theorem packetIn_delivers (h : Deployed hash T s flows groups rules) {i : Nat}
    (hi : T.onus[i]? = some o) (hvlan : o.device.vlan.toNat = 128 + i) (hlow : 128 + i < 4096)
    (htype : pkt.type = some type)
    (hframe : (frame = pkt ∧ pkt.shim = none) ∨ frame = pkt.tag 0 type)
    (hown : ∀ r ∈ ingressRules o flows, 500 < r.rank → r.isMatch frame = .ok false)
    {trap : FlowStats} (hbest : Best Rule.rank
      (MatchTable.Stops (Rule.isMatch (pkt.tag (128 + i) type))) (upstreamTable T flows)
      (controllerRule trap))
    (hmatch : (controllerRule trap).isMatch (pkt.tag (128 + i) type) = .ok true) (depth : Nat) :
    ∃ out, ((simOf T rules).ingress (depth + 2) (128 + i) frame).delivered = [(0, out)] ∧
      out.shim.map Dot1Q.vlan = some 4000 ∧ rcvIo out = some (128 + i, pkt) := by
  have hout : packetOut (128 + i) pkt = .ok ((pkt.tag (128 + i) type).tag 4000 0x8100) := by
    rw [packetOut, htype]
  refine ⟨_, ?_, rfl, rcvIo_packetOut hout⟩
  have hframe' : (frame = pkt ∧ pkt.shim = none ∧ pkt.type = some type) ∨ frame = pkt.tag 0 type :=
    hframe.imp_left fun ⟨he, hshim⟩ => ⟨he, hshim, htype⟩
  have honu := ingress_tags (hvlan ▸ hlow) hframe' hown
  rw [hvlan] at honu
  rw [h.upstream hi, honu, Option.bind_some,
    (through_of_best hbest hmatch (run_controllerRule trap _)).1]
  rfl

/-- UNI 128 の EAPOL は、controller に UNI 128 のものとして渡る。 -/
theorem packetIn_delivers_eapol :
    ∃ out, ((simOf ponsimTree ponsimRules).ingress 2 128 eapolFrame).delivered = [(0, out)] ∧
      out.shim.map Dot1Q.vlan = some 4000 ∧ rcvIo out = some (128, eapolFrame) := by
  have hbest := @best_head (eapolFrame.tag 128 0x888e)
    [unicastRule (pushFlow 128 1000), unicastRule (pushFlow 129 1001)] (controllerRule trapFlow)
    rfl (by decide)
  exact @packetIn_delivers Unit sampleHash ponsimTree (ponsimOnu "onu0" 128) eapolFrame eapolFrame
    0x888e _ ponsimAgent ponsimFlows [multicastGroup] ponsimRules ponsim_deployed 0 rfl rfl
    (by decide) rfl (.inl ⟨rfl, rfl⟩) (by decide) trapFlow hbest rfl 0

end Deployed

end Voltha.Ponsim
