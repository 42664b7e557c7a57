import Mathlib.Data.List.ReduceOption
import Voltha.Lib.Steps
import Voltha.Microsemi.ActivationWatcher

/-!
# ONU ごとの port

応答を返した ONU ごとに、device の port と logical device の port が一つずつあり、ある ONU の応答が別の ONU の
`ActivationManager` を進めることは無い。ただし、次の二つが要る。

* `wait_send_frame` と `wait_omci_get` で読む応答は、自分の ONU のものであり、`wait_send_frame` で識別の応答を
  読み捨てない
* 識別の応答を読むとき、その `vendor_id` は ASCII で、logical device はあり、port をまだ持たない

二つ目のため、約束が保たれるのは、port を作る ONU が一つまでの間に限る。
-/

namespace Voltha.Microsemi.Activation

open Voltha.Core (Port PortTree PeerPort addPort)

variable {env : Env} {m m' : Manager} {w : World} {pkt : Packet} {i : Nat}

/-! ## 約束 -/

/-- ONU の port の番号。 -/
def Manager.portNo (m : Manager) : UInt32 := UInt32.ofNat m.portId.toInt.toNat

/-- 応答を返した ONU なら、その番号。 -/
def Manager.answer (m : Manager) : Option UInt32 := if m.answered then some m.portNo else none

namespace World

/-- 応答を返した ONU の番号。 -/
def answered (w : World) : List UInt32 := (w.managers.map Manager.answer).reduceOption

/-- device の port の番号。 -/
def ports (w : World) : List UInt32 :=
  ((w.device.devices.lookup w.device.deviceId).getD []).map Prod.fst

/-- logical device の port の番号。 -/
def logicalPorts (w : World) : List UInt32 :=
  (w.device.logicalPorts.getD []).map fun p => p.2.portNo

end World

/-- 応答を返した ONU ごとに、port と logical port が一つずつある。 -/
structure OnePortEach (w : World) : Prop where
  ports : w.ports.Perm w.answered
  logicalPorts : w.logicalPorts.Perm w.answered

/-- 一つの ONU からの応答。 -/
def Packet.IsResponse (pkt : Packet) : Prop :=
  pkt.opcode = setOnuOmciPortIdResponse ∨ pkt.opcode = sendFrameResponse ∨
    pkt.isOmciGetResponse = true

/-- 次に読む packet。 -/
def Manager.reads (m : Manager) : Option Packet :=
  if m.alive && (receiveCondition m.state).isSome then m.inbox.head? else none

/-- 一歩の後も port は ONU ごとに一つずつで、別の ONU の応答では何も進まない。 -/
structure Keeps (w : World) (e : Event) : Prop where
  own : ∀ i m pkt, e = .run i → w.managers[i]? = some m → m.reads = some pkt →
    pkt.IsResponse → ¬pkt.IsOf m →
      (w.step e).managers[i]? = some { m with inbox := m.inbox.tail } ∧
        (w.step e).device = w.device
  onePort : OnePortEach (w.step e)

/-- 読む packet の条件。 -/
def ReadOk (device : DeviceManager) (m : Manager) (pkt : Packet) : Prop :=
  match m.state with
  | .waitSendFrame => (pkt.opcode = sendFrameResponse → pkt.IsOf m) ∧
    ¬(pkt.isOmciGetResponse = true ∧ pkt.IsOf m)
  | .waitOmciGet => ∀ vendorId, pkt.layer = .omciGetResponse vendorId →
    pkt.IsOf m ∧ vendorId.any Ascii.bytes = true ∧ device.logicalPorts = some []
  | _ => True

/-- 一歩の条件。 -/
def Meets (w : World) : Event → Prop
  | .run i => ∀ m pkt, w.managers[i]? = some m → m.reads = some pkt → ReadOk w.device m pkt
  | _ => True

/-! ## port を足す -/

/-- 相手の無い port は、そのまま書かれる。 -/
theorem addPort_of_no_peers {deviceId : String} {port : Port} {s : PortTree}
    (hp : port.peers = []) (hd : (s.lookup deviceId).isSome = true) :
    addPort deviceId port s =
      (.ok (), s.setPort ⟨deviceId, port.portNo⟩ { port with deviceId }) := by
  unfold addPort
  rw [hp]
  exact Core.makeUpToDate_ok hd

/-- `create_port` が書く port。 -/
def onuPort (m : Manager) (deviceId label : String) : Port where
  portNo := m.portNo
  label
  type := .ethernetUni
  adminState := .enabled
  operStatus := .active
  deviceId
  peers := []

/-- `create_port` が書く logical port。 -/
def onuLogicalPort (m : Manager) (label : String) : LogicalPort where
  id := "uni"
  portNo := m.portNo
  name := label ++ "-" ++ toString m.portNo

/-- port を書いた device。 -/
def DeviceManager.withPort (device : DeviceManager) (m : Manager) (label : String) :
    DeviceManager :=
  let port := onuPort m device.deviceId label
  { device with devices := device.devices.setPort ⟨device.deviceId, m.portNo⟩ port }

/-- logical port も書いた device。 -/
def DeviceManager.withPorts (device : DeviceManager) (m : Manager) (label : String)
    (ports : List (String × LogicalPort)) : DeviceManager :=
  { device.withPort m label with
    logicalPorts := some (OrderedDict.set ports "uni" (onuLogicalPort m label)) }

theorem ascii_portLabel (vendor : List UInt8) :
    Ascii.bytes (portLabel vendor) = Ascii.bytes vendor := by
  rw [portLabel, Ascii.bytes_append, show Ascii.bytes [32, 79, 78, 85] = true by decide,
    Bool.and_true]

theorem addDevicePort_onuPort (env : Env) (label : String)
    (hd : (env.device.devices.lookup env.device.deviceId).isSome = true) :
    addDevicePort (onuPort env.self "" label) env =
      (.ok (), { env with device := env.device.withPort env.self label }) := by
  unfold addDevicePort
  rw [Exec.read_bind_apply, addPort_of_no_peers rfl hd]
  rfl

theorem createPort_decoded (env : Env) {vendor : List UInt8} {label : String}
    (hlabel : Ascii.decode (portLabel vendor) = some label) :
    createPort vendor env = addPortPair (onuPort env.self "" label) env := by
  unfold createPort
  rw [Exec.read_bind_apply, hlabel, Exec.ofOption_some, Exec.pure_bind_apply]
  rfl

/-- ASCII の `vendor_id` からは、device の port が書かれ、logical device があればその port も書かれる。 -/
theorem createPort_ascii (env : Env) {vendor : List UInt8} (hv : Ascii.bytes vendor = true)
    (hd : (env.device.devices.lookup env.device.deviceId).isSome = true) :
    ∃ label, createPort vendor env = match env.device.logicalPorts with
      | none => (.error .attributeError, { env with device := env.device.withPort env.self label })
      | some ports =>
        (.ok (), { env with device := env.device.withPorts env.self label ports }) := by
  obtain ⟨label, hlabel⟩ := Ascii.decode_ascii ((ascii_portLabel vendor).trans hv)
  have hchars : Ascii.chars label.toList = true := by
    rw [Ascii.chars_of_decode hlabel, ascii_portLabel, hv]
  refine ⟨label, ?_⟩
  have hname : addPortPair (onuPort env.self "" label) env
      = addLogicalPort (onuLogicalPort env.self label)
          { env with device := env.device.withPort env.self label } := by
    refine (Exec.bind_ok (addDevicePort_onuPort env label hd)).trans ?_
    exact Exec.bind_ok (Exec.require_pos hchars _)
  rw [createPort_decoded env hlabel, hname]
  unfold addLogicalPort
  rw [Exec.read_bind_apply]
  simp only [DeviceManager.withPort]
  cases env.device.logicalPorts with
  | none => rfl
  | some ports => rfl

/-- ASCII でない `vendor_id` では例外が飛び、logical port は書かれない。 -/
theorem createPort_fails (env : Env) {vendor : List UInt8} (hv : Ascii.bytes vendor = false)
    (hd : (env.device.devices.lookup env.device.deviceId).isSome = true) :
    ∃ e device, createPort vendor env = (.error e, { env with device }) ∧
      device.logicalPorts = env.device.logicalPorts := by
  cases hlabel : Ascii.decode (portLabel vendor) with
  | none =>
    refine ⟨.valueError, env.device, ?_, rfl⟩
    unfold createPort
    rw [Exec.read_bind_apply, hlabel]
    rfl
  | some label =>
    have hchars : ¬Ascii.chars label.toList = true := by
      rw [Ascii.chars_of_decode hlabel, ascii_portLabel, hv]
      exact Bool.false_ne_true
    refine ⟨.unicodeEncodeError, env.device.withPort env.self label, ?_, rfl⟩
    rw [createPort_decoded env hlabel, addPortPair,
      Exec.bind_ok (addDevicePort_onuPort env label hd)]
    exact Exec.bind_error (Exec.require_neg hchars _)

/-! ## automaton の一歩 -/

/-- 応答に数えられた automaton は、もう packet を読まない。 -/
def Manager.Settled (m : Manager) : Prop := m.answered = true → m.alive = true → m.state = .ended

/-- 識別の要求への応答として数える packet。 -/
def Manager.Hears (m : Manager) (pkt : Packet) : Prop :=
  m.state.afterIdentity = true ∧ pkt.isOmciGetResponse = true ∧ pkt.IsOf m

theorem Manager.read_of_not_hears {rest : List Packet} (h : ¬m.Hears pkt) :
    m.read pkt rest = { m with inbox := rest } := by
  have hfalse :
      (m.state.afterIdentity && pkt.isOmciGetResponse && decide (pkt.IsOf m)) = false := by
    rw [Bool.eq_false_iff]
    intro htrue
    simp only [Bool.and_eq_true, decide_eq_true_eq] at htrue
    exact h ⟨htrue.1.1, htrue.1.2, htrue.2⟩
  unfold Manager.read
  rw [hfalse, Bool.or_false]

theorem Manager.read_of_hears (rest : List Packet) (h : m.Hears pkt) :
    (m.read pkt rest).answer = some m.portNo := by
  obtain ⟨hst, hres, hof⟩ := h
  simp [Manager.answer, Manager.read, hst, hres, hof, Manager.portNo, Manager.portId]

/-- device も、応答の数も変えない。 -/
structure Quiet (env env' : Env) : Prop where
  device : env'.device = env.device
  answer : env'.self.answer = env.self.answer
  settled : env'.self.Settled

theorem run_quiet {handler : Handler} {r : Except AtmtError (Option State)}
    (h : handler env = (r, env)) (ha : env.self.answered = false) :
    Quiet env (env.run handler) := by
  unfold Env.run
  rw [h]
  have hno : ∀ m : Manager, m.answered = false → m.Settled := fun m hm hans => by
    rw [hm] at hans
    cases hans
  rcases r with _ | _ | state
  · exact ⟨rfl, rfl, hno _ ha⟩
  · exact ⟨rfl, rfl, hno _ ha⟩
  · exact ⟨rfl, rfl, hno _ ha⟩

theorem condition_apply {state : State} {handler : Handler} (h : condition state = some handler)
    (env : Env) : ∃ r, handler env = (r, env) := by
  cases state <;> simp only [condition, reduceCtorEq, Option.some.injEq] at h
  · subst h
    exact ⟨_, rfl⟩
  · subst h
    unfold sendOmciPortId
    rw [Exec.read_bind_apply]
    by_cases hp : 0 ≤ env.self.portId.toInt
    · exact ⟨_, Exec.bind_ok (Exec.require_pos hp env)⟩
    · exact ⟨_, Exec.bind_error (Exec.require_neg hp env)⟩
  · subst h
    exact ⟨_, rfl⟩

theorem timeout_apply {state : State} {handler : Handler} (h : timeout state = some handler)
    (env : Env) : ∃ r, handler env = (r, env) := by
  cases state <;> simp only [timeout, reduceCtorEq, Option.some.injEq] at h
  all_goals
    subst h
    exact ⟨_, rfl⟩

/-- port を作る状態の他では、packet を読んでも状態を移るだけである。 -/
theorem receive_apply {state : State} {handler : Packet → Handler}
    (h : receiveCondition state = some handler) (hne : state ≠ .waitOmciGet)
    (pkt : Packet) (env : Env) : ∃ r, handler pkt env = (r, env) := by
  cases state <;> simp only [receiveCondition, reduceCtorEq, Option.some.injEq] at h
  · subst h
    unfold waitForGetAuthMode
    cases pkt.layer <;> exact ⟨_, rfl⟩
  · subst h
    unfold waitForOmciPortId
    rw [Exec.read_bind_apply]
    split <;> exact ⟨_, rfl⟩
  · subst h
    unfold waitForSendFrame
    split <;> exact ⟨_, rfl⟩
  · exact absurd rfl hne

/-- 止まっておらず、状態に handler があれば、まだ応答に数えられていない。 -/
theorem Manager.Settled.not_answered (h : m.Settled) (ha : m.alive = true)
    (hst : m.state ≠ .ended) : m.answered = false :=
  Bool.eq_false_iff.mpr fun hans => hst (h hans ha)

theorem Env.expire_quiet (env : Env) (h : env.self.Settled) : Quiet env env.expire := by
  unfold Env.expire
  split
  · next ha =>
    split
    · next handler ht =>
      obtain ⟨r, hr⟩ := timeout_apply ht env
      refine run_quiet hr (h.not_answered ha fun hst => ?_)
      rw [hst] at ht
      cases ht
    · exact ⟨rfl, rfl, h⟩
  · exact ⟨rfl, rfl, h⟩

/-- packet を読まない一歩。 -/
theorem Env.step_quiet (h : env.self.Settled) (hr : env.self.reads = none) :
    Quiet env env.step := by
  unfold Env.step
  split
  · next ha =>
    split
    · next handler hc =>
      obtain ⟨r, hr⟩ := condition_apply hc env
      refine run_quiet hr (h.not_answered ha fun hst => ?_)
      rw [hst] at hc
      cases hc
    · next handler pkt rest hc hrc hin =>
      simp [Manager.reads, ha, hrc, hin] at hr
    · exact ⟨rfl, rfl, h⟩
  · exact ⟨rfl, rfl, h⟩

/-- packet を読む一歩。 -/
theorem Env.step_of_reads (env : Env) (h : env.self.reads = some pkt) :
    ∃ handler rest, env.self.alive = true ∧ receiveCondition env.self.state = some handler ∧
      env.self.inbox = pkt :: rest ∧
      env.step = Env.run { env with self := env.self.read pkt rest } (handler pkt) := by
  unfold Manager.reads at h
  split at h
  · next hboth =>
    rw [Bool.and_eq_true] at hboth
    obtain ⟨handler, hrc⟩ := Option.isSome_iff_exists.mp hboth.2
    obtain ⟨rest, hin⟩ := List.head?_eq_some_iff.mp h
    have hc : condition env.self.state = none := by
      cases hst : env.self.state <;> simp [hst, receiveCondition, condition] at hrc ⊢
    refine ⟨handler, rest, hboth.1, hrc, hin, ?_⟩
    simp [Env.step, hboth.1, hc, hrc, hin]
  · cases h

theorem waitForOmciGet_ignores (env : Env) (h : pkt.isOmciGetResponse = false) :
    waitForOmciGet pkt env = (.ok none, env) := by
  unfold waitForOmciGet
  unfold Packet.isOmciGetResponse at h
  cases hl : pkt.layer <;> simp_all

/-- 別の ONU の応答は、条件の下では読み捨てられる。 -/
theorem Env.step_of_foreign (env : Env) (h : env.self.reads = some pkt)
    (hok : ReadOk env.device env.self pkt) (hres : pkt.IsResponse) (hfor : ¬pkt.IsOf env.self) :
    env.step = { env with self := { env.self with inbox := env.self.inbox.tail } } := by
  obtain ⟨handler, rest, ha, hrc, hin, hstep⟩ := Env.step_of_reads env h
  have hnot : ¬env.self.Hears pkt := fun hh => hfor hh.2.2
  rw [Manager.read_of_not_hears hnot] at hstep
  rw [hstep, hin, List.tail_cons]
  suffices hnone : ∀ env', env'.self.channelId = env.self.channelId →
      env'.self.onuId = env.self.onuId → handler pkt env' = (.ok none, env') by
    unfold Env.run
    rw [hnone { env with self := { env.self with inbox := rest } } rfl rfl]
  intro env' hch hid
  unfold ReadOk at hok
  cases hst : env.self.state <;> rw [hst] at hrc hok <;>
    simp only [receiveCondition, reduceCtorEq, Option.some.injEq] at hrc <;> subst hrc
  · unfold waitForGetAuthMode
    unfold Packet.IsResponse Packet.opcode Packet.isOmciGetResponse at hres
    cases hl : pkt.layer with
    | getActivationAuthModeResponse mode =>
      rw [hl] at hres
      simp [Layer.opcode, setOnuOmciPortIdResponse, sendFrameResponse] at hres
    | _ => rfl
  · unfold waitForOmciPortId
    rw [Exec.read_bind_apply, if_neg]
    · rfl
    · rintro ⟨-, hid', -, hch'⟩
      exact hfor ⟨hch'.trans hch, hid'.trans hid⟩
  · unfold waitForSendFrame
    rw [if_neg fun hop => hfor (hok.1 hop)]
    rfl
  · refine waitForOmciGet_ignores env' ?_
    unfold Packet.isOmciGetResponse
    cases hl : pkt.layer with
    | omciGetResponse vendorId => exact absurd (hok vendorId hl).1 hfor
    | _ => rfl

/-- 識別の応答を `wait_omci_get` で読むのでなければ、port に触れない。 -/
theorem Env.read_quiet (hs : env.self.Settled) (h : env.self.reads = some pkt)
    (hnot : ¬env.self.Hears pkt)
    (hne : env.self.state = .waitOmciGet → pkt.isOmciGetResponse = false) :
    Quiet env env.step := by
  obtain ⟨handler, rest, ha, hrc, hin, hstep⟩ := Env.step_of_reads env h
  rw [Manager.read_of_not_hears hnot] at hstep
  have hans : env.self.answered = false := hs.not_answered ha fun hst => by
    rw [hst] at hrc
    cases hrc
  have hrun : ∃ r, handler pkt { env with self := { env.self with inbox := rest } }
      = (r, { env with self := { env.self with inbox := rest } }) := by
    by_cases hst : env.self.state = .waitOmciGet
    · rw [hst] at hrc
      cases hrc
      exact ⟨_, waitForOmciGet_ignores _ (hne hst)⟩
    · exact receive_apply hrc hst pkt _
  obtain ⟨r, hr⟩ := hrun
  have hq := run_quiet hr hans
  rw [hstep]
  exact ⟨hq.device, hq.answer, hq.settled⟩

/-- `vendor_id` が無いか ASCII でない応答を読めば、logical port を書かずに止まる。 -/
theorem Env.read_no_vendor {vendorId : Option (List UInt8)} (h : env.self.reads = some pkt)
    (hst : env.self.state = .waitOmciGet) (hl : pkt.layer = .omciGetResponse vendorId)
    (hv : vendorId.any Ascii.bytes = false)
    (hd : (env.device.devices.lookup env.device.deviceId).isSome = true) :
    ∃ rest device, env.self.inbox = pkt :: rest ∧
      env.step = ⟨{ env.self.read pkt rest with alive := false }, device⟩ ∧
      device.logicalPorts = env.device.logicalPorts := by
  obtain ⟨handler, rest, ha, hrc, hin, hstep⟩ := Env.step_of_reads env h
  rw [hst] at hrc
  cases hrc
  cases vendorId with
  | none =>
    refine ⟨rest, env.device, hin, hstep.trans ?_, rfl⟩
    simp only [Env.run, waitForOmciGet, hl]
    rfl
  | some vendor =>
    obtain ⟨e, device, hcreate, hlog⟩ := createPort_fails ⟨env.self.read pkt rest, env.device⟩
      (by simpa using hv) hd
    refine ⟨rest, device, hin, hstep.trans ?_, hlog⟩
    simp only [Env.run, waitForOmciGet, hl, Exec.ofOption_some, Exec.pure_bind_apply]
    rw [Exec.bind_error hcreate]

/--
`vendor_id` が ASCII の応答を読めば、device の port を書き、logical device があればその port も書く。
-/
theorem Env.read_vendor {vendor : List UInt8} (h : env.self.reads = some pkt)
    (hst : env.self.state = .waitOmciGet) (hl : pkt.layer = .omciGetResponse (some vendor))
    (hv : Ascii.bytes vendor = true)
    (hd : (env.device.devices.lookup env.device.deviceId).isSome = true) :
    ∃ rest label, env.self.inbox = pkt :: rest ∧ env.step = match env.device.logicalPorts with
      | none =>
        ⟨{ env.self.read pkt rest with alive := false }, env.device.withPort env.self label⟩
      | some ports =>
        ⟨{ env.self.read pkt rest with state := .ended },
          env.device.withPorts env.self label ports⟩ := by
  obtain ⟨handler, rest, ha, hrc, hin, hstep⟩ := Env.step_of_reads env h
  rw [hst] at hrc
  cases hrc
  obtain ⟨label, hcreate⟩ := createPort_ascii ⟨env.self.read pkt rest, env.device⟩ hv hd
  refine ⟨rest, label, hin, hstep.trans ?_⟩
  simp only [Env.run, waitForOmciGet, hl, Exec.ofOption_some, Exec.pure_bind_apply]
  cases hports : env.device.logicalPorts with
  | none =>
    simp only [hports] at hcreate
    rw [Exec.bind_error hcreate]
    rfl
  | some ports =>
    simp only [hports] at hcreate
    rw [Exec.bind_ok hcreate]
    rfl

/-! ## 全体の一歩 -/

/-- 不変条件。logical port の id は、いつも `'uni'` である。 -/
structure WorldInv (w : World) : Prop where
  onePort : OnePortEach w
  settled : ∀ m ∈ w.managers, m.Settled
  device : ∃ ports, w.device.devices = [(w.device.deviceId, ports)]
  uni : ∀ p ∈ w.device.logicalPorts.getD [], p.1 = "uni"

/-- `i` 番の automaton を書き込む。 -/
def World.put (w : World) (i : Nat) (env : Env) : World :=
  { w with device := env.device, managers := w.managers.set i env.self }

theorem World.update_eq (hm : w.managers[i]? = some m) (f : Env → Env) :
    w.update i f = w.put i (f ⟨m, w.device⟩) := by
  simp [World.update, World.put, hm]

theorem World.update_eq_self (hm : w.managers[i]? = none) (f : Env → Env) : w.update i f = w := by
  simp [World.update, hm]

/-- `none` を `some a` に替えれば、一つ増える。 -/
theorem reduceOption_set {α : Type} {a : α} {l : List (Option α)} (h : l[i]? = some none) :
    ∃ l₁ l₂, l.reduceOption = l₁ ++ l₂ ∧ (l.set i (some a)).reduceOption = l₁ ++ a :: l₂ := by
  induction l generalizing i with
  | nil => simp at h
  | cons o l ih =>
    cases i with
    | zero =>
      simp only [List.getElem?_cons_zero, Option.some.injEq] at h
      subst h
      exact ⟨[], l.reduceOption, rfl, rfl⟩
    | succ i =>
      obtain ⟨l₁, l₂, hl, hset⟩ := ih (by simpa using h)
      cases o with
      | none => exact ⟨l₁, l₂, by simp [hl], by simp [hset]⟩
      | some b => exact ⟨b :: l₁, l₂, by simp [hl], by simp [hset]⟩

theorem World.answered_put (hm : w.managers[i]? = some m)
    (h : env.self.answer = m.answer) : (w.put i env).answered = w.answered := by
  obtain ⟨hlt, hget⟩ := List.getElem?_eq_some_iff.mp hm
  have hlt' : i < (w.managers.map Manager.answer).length := by simpa using hlt
  have hself : m.answer = (w.managers.map Manager.answer)[i] := by simp [hget]
  unfold World.answered World.put
  rw [List.map_set, h, hself, List.set_getElem_self hlt']

theorem World.answered_put_new {n : UInt32} (hm : w.managers[i]? = some m)
    (hno : m.answered = false) (h : env.self.answer = some n) :
    ∃ l₁ l₂, w.answered = l₁ ++ l₂ ∧ (w.put i env).answered = l₁ ++ n :: l₂ := by
  unfold World.answered World.put
  rw [List.map_set, h]
  refine reduceOption_set ?_
  simp [hm, Manager.answer, hno]

/-- port に触れない一歩。 -/
theorem WorldInv.quiet (h : WorldInv w) (hm : w.managers[i]? = some m)
    (hq : Quiet ⟨m, w.device⟩ env) : WorldInv (w.put i env) := by
  have hans := World.answered_put hm hq.answer
  have hdev : (w.put i env).device = w.device := hq.device
  refine ⟨⟨?_, ?_⟩, ?_, ?_, ?_⟩
  · rw [hans, World.ports, hdev]
    exact h.onePort.ports
  · rw [hans, World.logicalPorts, hdev]
    exact h.onePort.logicalPorts
  · intro m' hm'
    rcases List.mem_or_eq_of_mem_set hm' with hm' | rfl
    · exact h.settled m' hm'
    · exact hq.settled
  · rw [hdev]
    exact h.device
  · rw [hdev]
    exact h.uni

/-- 応答に数えられたのに port が増えなければ、約束は破れている。 -/
theorem not_onePort_of_length {n : UInt32} (h : WorldInv w) (hm : w.managers[i]? = some m)
    (hno : m.answered = false) (hans : env.self.answer = some n)
    (hlen : (w.put i env).logicalPorts.length = w.logicalPorts.length) :
    ¬OnePortEach (w.put i env) := by
  intro hone
  obtain ⟨l₁, l₂, hold, hnew⟩ := World.answered_put_new hm hno hans
  have hbefore := h.onePort.logicalPorts.length_eq
  have hafter := hone.logicalPorts.length_eq
  rw [hold, List.length_append] at hbefore
  rw [hnew, List.length_append, List.length_cons] at hafter
  omega

/-- logical port の id がいつも同じなので、二つ目からは増えない。 -/
theorem length_set_uni {ports : List (String × LogicalPort)} {port : LogicalPort}
    (hne : ports ≠ []) (huni : ∀ p ∈ ports, p.1 = "uni") :
    (OrderedDict.set ports "uni" port).length = ports.length := by
  obtain ⟨p, rest, rfl⟩ := List.exists_cons_of_ne_nil hne
  have hmem : "uni" ∈ (p :: rest).map Prod.fst :=
    List.mem_map.mpr ⟨p, List.mem_cons_self, huni p List.mem_cons_self⟩
  unfold OrderedDict.set
  rw [if_pos hmem, List.length_map]

/-- 条件の下で、初めての port を作る一歩。 -/
theorem WorldInv.create {label : String} {rest : List Packet} (h : WorldInv w)
    (hm : w.managers[i]? = some m) (hno : m.answered = false)
    (hears : m.Hears pkt) (hl : w.device.logicalPorts = some []) :
    WorldInv (w.put i
      ⟨{ m.read pkt rest with state := .ended }, w.device.withPorts m label []⟩) := by
  let env : Env := ⟨{ m.read pkt rest with state := .ended }, w.device.withPorts m label []⟩
  have hans : env.self.answer = some m.portNo := Manager.read_of_hears rest hears
  obtain ⟨l₁, l₂, hold, hnew⟩ := World.answered_put_new hm hno hans
  have hempty : w.answered = [] := by
    have hperm := h.onePort.logicalPorts
    unfold World.logicalPorts at hperm
    rw [hl] at hperm
    exact List.nil_perm.mp hperm
  rw [hempty, eq_comm, List.append_eq_nil_iff] at hold
  rw [hold.1, hold.2, List.nil_append] at hnew
  obtain ⟨ports, hports⟩ := h.device
  have hnil : ports = [] := by
    have hperm := h.onePort.ports
    unfold World.ports at hperm
    rw [hempty, hports] at hperm
    simpa using hperm
  have hdev : (w.device.withPorts m label []).devices =
      [(w.device.deviceId, [(m.portNo, onuPort m w.device.deviceId label)])] := by
    simp [DeviceManager.withPorts, DeviceManager.withPort, PortTree.setPort, hports, hnil,
      OrderedDict.set]
  refine ⟨⟨?_, ?_⟩, ?_, ⟨_, hdev⟩, ?_⟩
  · rw [hnew]
    unfold World.ports World.put
    rw [hdev]
    simp [DeviceManager.withPorts, DeviceManager.withPort]
  · rw [hnew]
    exact List.Perm.refl _
  · intro m' hm'
    rcases List.mem_or_eq_of_mem_set hm' with hm' | rfl
    · exact h.settled m' hm'
    · exact fun _ _ => rfl
  · intro p hp
    have hp' : p ∈ OrderedDict.set [] "uni" (onuLogicalPort m label) := hp
    rcases OrderedDict.mem_set hp' with hp' | rfl
    · exact absurd hp' List.not_mem_nil
    · rfl

theorem World.put_get (hm : w.managers[i]? = some m) :
    (w.put i env).managers[i]? = some env.self := by
  obtain ⟨hlt, -⟩ := List.getElem?_eq_some_iff.mp hm
  simp [World.put, hlt]

theorem World.step_run (hm : w.managers[i]? = some m) :
    w.step (.run i) = w.put i (Env.step ⟨m, w.device⟩) := World.update_eq hm Env.step

/-- 別の ONU の応答を読んでも状態は変わらない。 -/
theorem Keeps.state_eq (hk : Keeps w (.run i)) (hm : w.managers[i]? = some m)
    (hr : m.reads = some pkt) (hres : pkt.IsResponse) (hfor : ¬pkt.IsOf m) :
    (Env.step ⟨m, w.device⟩).self = { m with inbox := m.inbox.tail } := by
  have hsame := (hk.own i m pkt rfl hm hr hres hfor).1
  rw [World.step_run hm, World.put_get hm, Option.some.injEq] at hsame
  exact hsame

theorem Manager.reads_alive (hr : m.reads = some pkt) :
    m.alive = true ∧ m.state ≠ .ended := by
  obtain ⟨handler, rest, ha, hrc, -⟩ := Env.step_of_reads ⟨m, ⟨"", [], none⟩⟩ hr
  refine ⟨ha, fun hst => ?_⟩
  simp only at hrc
  rw [hst] at hrc
  cases hrc

/-- `wait_send_frame` で読む packet の条件は要る。 -/
theorem Keeps.sendFrame (hk : Keeps w (.run i)) (h : WorldInv w) (hm : w.managers[i]? = some m)
    (hr : m.reads = some pkt) (hst : m.state = .waitSendFrame) :
    (pkt.opcode = sendFrameResponse → pkt.IsOf m) ∧
      ¬(pkt.isOmciGetResponse = true ∧ pkt.IsOf m) := by
  obtain ⟨ha, hend⟩ := Manager.reads_alive hr
  have hno := (h.settled m (List.mem_of_getElem? hm)).not_answered ha hend
  obtain ⟨handler, rest, -, hrc, hin, hstep⟩ := Env.step_of_reads ⟨m, w.device⟩ hr
  simp only at hrc hin hstep
  rw [hst] at hrc
  cases hrc
  constructor
  · intro hop
    by_contra hfor
    have hsame := congrArg Manager.state (hk.state_eq hm hr (Or.inr (Or.inl hop)) hfor)
    rw [hstep] at hsame
    simp [Env.run, waitForSendFrame, hop, hst] at hsame
  · rintro ⟨hres, hof⟩
    have hears : m.Hears pkt := ⟨by rw [hst]; rfl, hres, hof⟩
    have hrc : receiveCondition .waitSendFrame = some waitForSendFrame := rfl
    obtain ⟨r, hrun⟩ := receive_apply hrc nofun pkt { self := m.read pkt rest, device := w.device }
    have hself : (Env.step ⟨m, w.device⟩).device = w.device ∧
        (Env.step ⟨m, w.device⟩).self.answer = some m.portNo := by
      rw [hstep, Env.run, hrun]
      have hans := Manager.read_of_hears rest hears
      rcases r with _ | _ | state <;> exact ⟨rfl, hans⟩
    refine not_onePort_of_length h hm hno hself.2 ?_ (World.step_run hm ▸ hk.onePort)
    unfold World.logicalPorts World.put
    rw [hself.1]

/-- `wait_omci_get` で読む packet の条件は要る。 -/
theorem Keeps.omciGet {vendorId : Option (List UInt8)} (hk : Keeps w (.run i)) (h : WorldInv w)
    (hm : w.managers[i]? = some m) (hr : m.reads = some pkt) (hst : m.state = .waitOmciGet)
    (hl : pkt.layer = .omciGetResponse vendorId) :
    pkt.IsOf m ∧ vendorId.any Ascii.bytes = true ∧ w.device.logicalPorts = some [] := by
  obtain ⟨ha, hend⟩ := Manager.reads_alive hr
  have hno := (h.settled m (List.mem_of_getElem? hm)).not_answered ha hend
  have hres : pkt.isOmciGetResponse = true := by simp [Packet.isOmciGetResponse, hl]
  obtain ⟨ports, hports⟩ := h.device
  have hd : (w.device.devices.lookup w.device.deviceId).isSome = true := by simp [hports]
  have hr' : (Env.mk m w.device).self.reads = some pkt := hr
  have hone := World.step_run hm ▸ hk.onePort
  have hstate := fun hfor => hk.state_eq hm hr (Or.inr (Or.inr hres)) hfor
  have hears : pkt.IsOf m → m.Hears pkt := fun hof => ⟨by rw [hst]; rfl, hres, hof⟩
  cases hv : vendorId.any Ascii.bytes with
  | false =>
    obtain ⟨rest, device, hin, hstep, hlog⟩ := Env.read_no_vendor hr' hst hl hv hd
    rw [hstep] at hone hstate
    by_cases hof : pkt.IsOf m
    · have hans := Manager.read_of_hears rest (hears hof)
      refine absurd hone (not_onePort_of_length h hm hno hans ?_)
      unfold World.logicalPorts World.put
      rw [hlog]
    · have halive := congrArg Manager.alive (hstate hof)
      simp [ha] at halive
  | true =>
    obtain ⟨vendor, rfl, hascii⟩ := (Option.any_eq_true _ _).mp hv
    obtain ⟨rest, label, hin, hstep⟩ := Env.read_vendor hr' hst hl hascii hd
    simp only at hstep
    cases hlog : w.device.logicalPorts with
    | none =>
      simp only [hlog] at hstep
      rw [hstep] at hone hstate
      by_cases hof : pkt.IsOf m
      · have hans := Manager.read_of_hears rest (hears hof)
        exact absurd hone (not_onePort_of_length h hm hno hans rfl)
      · have halive := congrArg Manager.alive (hstate hof)
        simp [ha] at halive
    | some logical =>
      simp only [hlog] at hstep
      rw [hstep] at hone hstate
      by_cases hof : pkt.IsOf m
      · refine ⟨hof, rfl, ?_⟩
        by_contra hne
        have hne' : logical ≠ [] := fun he => hne (by rw [he])
        have huni := h.uni
        rw [hlog, Option.getD_some] at huni
        have hans := Manager.read_of_hears rest (hears hof)
        refine not_onePort_of_length h hm hno hans ?_ hone
        unfold World.logicalPorts World.put
        rw [hlog]
        simp only [DeviceManager.withPorts, Option.getD_some, List.length_map]
        exact length_set_uni hne' huni
      · have hended := congrArg Manager.state (hstate hof)
        simp [hst] at hended

/-- packet を読む一歩。 -/
theorem WorldInv.read (h : WorldInv w) (hm : w.managers[i]? = some m) (hr : m.reads = some pkt)
    (hok : ReadOk w.device m pkt) : WorldInv (w.step (.run i)) := by
  obtain ⟨ha, hend⟩ := Manager.reads_alive hr
  have hsettled := h.settled m (List.mem_of_getElem? hm)
  have hr' : (Env.mk m w.device).self.reads = some pkt := hr
  rw [World.step_run hm]
  unfold ReadOk at hok
  by_cases hget : m.state = .waitOmciGet ∧ pkt.isOmciGetResponse = true
  · obtain ⟨hst, hres⟩ := hget
    rw [hst] at hok
    unfold Packet.isOmciGetResponse at hres
    cases hl : pkt.layer with
    | omciGetResponse vendorId =>
      obtain ⟨hof, hsome, hlog⟩ := hok vendorId hl
      obtain ⟨vendor, rfl, hascii⟩ := (Option.any_eq_true _ _).mp hsome
      obtain ⟨ports, hports⟩ := h.device
      have hd : (w.device.devices.lookup w.device.deviceId).isSome = true := by simp [hports]
      obtain ⟨rest, label, hin, hstep⟩ := Env.read_vendor hr' hst hl hascii hd
      simp only [hlog] at hstep
      rw [hstep]
      have hears : m.Hears pkt := ⟨by rw [hst]; rfl, by simp [Packet.isOmciGetResponse, hl], hof⟩
      exact h.create hm (hsettled.not_answered ha hend) hears hlog
    | _ => simp [hl] at hres
  · have hnot : ¬m.Hears pkt := by
      rintro ⟨hafter, hres, hof⟩
      cases hst : m.state <;> simp only [hst, State.afterIdentity, reduceCtorEq] at hafter hok
      · exact hok.2 ⟨hres, hof⟩
      · exact hget ⟨hst, hres⟩
    exact h.quiet hm (Env.read_quiet hsettled hr' hnot
      fun hst => Bool.eq_false_iff.mpr fun hres => hget ⟨hst, hres⟩)

theorem World.answered_append {watcher : List Packet} (hm : m.answered = false) :
    World.answered { w with watcher, managers := w.managers ++ [m] } = w.answered := by
  unfold World.answered
  rw [List.map_append, List.reduceOption_append]
  simp [Manager.answer, hm]

/-- `inbox` に packet が入るだけの一歩と、activation の event を読む一歩。 -/
theorem WorldInv.observe (h : WorldInv w) (e : Event) (he : ∀ i, e ≠ .run i) :
    WorldInv (w.step e) := by
  cases e with
  | packet pkt =>
    have hans : (w.step (.packet pkt)).answered = w.answered := by
      unfold World.answered World.step
      rw [List.map_map]
      rfl
    refine ⟨⟨hans ▸ h.onePort.ports, hans ▸ h.onePort.logicalPorts⟩, ?_, h.device, h.uni⟩
    intro m hm
    obtain ⟨m', hm', rfl⟩ := List.mem_map.mp hm
    exact h.settled m' hm'
  | watch =>
    cases hw : w.watcher with
    | nil => simpa [World.step, hw] using h
    | cons pkt rest =>
      simp only [World.step, hw, World.waitForOnuActivationEvent]
      split
      · refine ⟨⟨?_, ?_⟩, ?_, h.device, h.uni⟩
        · rw [World.answered_append]
          · exact h.onePort.ports
          · rfl
        · rw [World.answered_append]
          · exact h.onePort.logicalPorts
          · rfl
        · intro m hm
          rcases List.mem_append.mp hm with hm | hm
          · exact h.settled m hm
          · rw [List.mem_singleton.mp hm]
            exact fun hans => absurd hans Bool.false_ne_true
      · exact ⟨⟨h.onePort.ports, h.onePort.logicalPorts⟩, h.settled, h.device, h.uni⟩
  | run i => exact absurd rfl (he i)
  | timeout i =>
    cases hm : w.managers[i]? with
    | none => simpa [World.step, World.update_eq_self hm] using h
    | some m =>
      have hsettled := h.settled m (List.mem_of_getElem? hm)
      have hquiet := h.quiet hm (Env.expire_quiet ⟨m, w.device⟩ hsettled)
      rwa [← World.update_eq hm] at hquiet
  | createLogicalDevice =>
    cases hl : w.device.logicalPorts with
    | some _ => simpa [World.step, hl] using h
    | none =>
      have hlog := h.onePort.logicalPorts
      unfold World.logicalPorts at hlog
      simp only [hl, Option.getD_none] at hlog
      simp only [World.step, hl]
      exact ⟨⟨h.onePort.ports, hlog⟩, h.settled, h.device, nofun⟩

/-- 一歩で約束が保たれるのは、条件を満たすときに限る。条件を満たす一歩は不変条件を保つ。 -/
theorem step_ok (h : WorldInv w) (e : Event) :
    (Keeps w e ↔ Meets w e) ∧ (Meets w e → WorldInv (w.step e)) := by
  have hidle : ∀ {e}, (∀ i m pkt, e = .run i → w.managers[i]? = some m → m.reads ≠ some pkt) →
      Meets w e → WorldInv (w.step e) → (Keeps w e ↔ Meets w e) := by
    intro e hno hmeets hinv
    refine iff_of_true ⟨?_, hinv.onePort⟩ hmeets
    exact fun i m pkt he hm hr => absurd hr (hno i m pkt he hm)
  have hother : ∀ {e}, Meets w e → (∀ i, e ≠ .run i) →
      (Keeps w e ↔ Meets w e) ∧ (Meets w e → WorldInv (w.step e)) := fun hmeets hne =>
    have hinv := h.observe _ hne
    ⟨hidle (fun i _ _ he => absurd he (hne i)) hmeets hinv, fun _ => hinv⟩
  cases e with
  | run i =>
    cases hm : w.managers[i]? with
    | none =>
      have hsame : w.step (.run i) = w := World.update_eq_self hm Env.step
      have hmeets : Meets w (.run i) := fun m pkt hm' => by
        rw [hm] at hm'
        cases hm'
      refine ⟨hidle (fun j m pkt he hm' => ?_) hmeets (hsame.symm ▸ h), fun _ => hsame.symm ▸ h⟩
      cases he
      rw [hm] at hm'
      cases hm'
    | some m =>
      cases hr : m.reads with
      | none =>
        have hmeets : Meets w (.run i) := fun m' pkt hm' hr' => by
          rw [hm, Option.some.injEq] at hm'
          rw [← hm', hr] at hr'
          cases hr'
        have hinv : WorldInv (w.step (.run i)) := by
          rw [World.step_run hm]
          exact h.quiet hm (Env.step_quiet (h.settled m (List.mem_of_getElem? hm)) hr)
        refine ⟨hidle (fun j m' pkt he hm' => ?_) hmeets hinv, fun _ => hinv⟩
        cases he
        rw [hm, Option.some.injEq] at hm'
        rw [← hm', hr]
        nofun
      | some pkt =>
        have hmeets : Meets w (.run i) ↔ ReadOk w.device m pkt :=
          ⟨fun hall => hall m pkt hm hr, fun hok m' pkt' hm' hr' => by
            rw [hm, Option.some.injEq] at hm'
            subst hm'
            rw [hr, Option.some.injEq] at hr'
            exact hr' ▸ hok⟩
        rw [hmeets]
        refine ⟨⟨fun hk => ?_, fun hok => ⟨?_, (h.read hm hr hok).onePort⟩⟩, h.read hm hr⟩
        · unfold ReadOk
          split
          · next hst => exact hk.sendFrame h hm hr hst
          · next hst => exact fun vendorId hl => hk.omciGet h hm hr hst hl
          · trivial
        · intro j m' pkt' he hm' hr' hres hfor
          cases he
          rw [hm, Option.some.injEq] at hm'
          subst hm'
          rw [hr, Option.some.injEq] at hr'
          subst hr'
          have hstep := Env.step_of_foreign ⟨m, w.device⟩ hr hok hres hfor
          rw [World.step_run hm, hstep]
          exact ⟨World.put_get hm, rfl⟩
  | packet pkt => exact hother trivial nofun
  | watch => exact hother trivial nofun
  | timeout i => exact hother trivial nofun
  | createLogicalDevice => exact hother trivial nofun

theorem worldInv_initial (deviceId : String) : WorldInv (World.initial deviceId) where
  onePort := ⟨by simp [World.ports, World.answered, World.initial], .nil⟩
  settled := nofun
  device := ⟨[], rfl⟩
  uni := nofun

/--
**応答を返した ONU ごとに port が一つずつある。** どの一歩でも約束が保たれるのは、`wait_send_frame` と
`wait_omci_get` で読む応答がどれも自分の ONU のもので、識別の応答を読むときにその `vendor_id` が ASCII で、
logical device の port がまだ無いときに限る。
-/
theorem onu_ports_iff (deviceId : String) (es : List Event) :
    Steps.Each World.step Keeps (World.initial deviceId) es ↔
      Steps.Each World.step Meets (World.initial deviceId) es :=
  Steps.each_iff_each (I := WorldInv) (A := fun _ => True) (fun _ e _ h => step_ok h e)
    (fun _ _ => trivial) (worldInv_initial deviceId)

/-! ## 二つ目の ONU -/

section Runs

/-- `onuId` 番の ONU からの packet。 -/
def fromOnu (onuId : Int16) (layer : Layer) : Packet := ⟨0, onuId, 1, layer⟩

/-- `i` 番の ONU の activation。応答はどれも、その ONU のものである。 -/
def activate (i : Nat) (onuId : Int16) : List Event :=
  [.packet (fromOnu onuId (.eventOnuActivation "serial")), .watch,
    .run i, .packet ⟨-1, -1, -1, .getActivationAuthModeResponse 0⟩, .watch, .run i,
    .run i, .packet (fromOnu onuId (.other 10281)), .watch, .run i,
    .run i, .packet (fromOnu onuId (.other 10282)), .watch, .run i,
    -- `vendor_id` は `CLSC`
    .packet (fromOnu onuId (.omciGetResponse (some [67, 76, 83, 67]))), .watch, .run i]

/-- activation の event の `channel_id` と `onu_id`。 -/
def activations (es : List Event) : List (Int16 × Int16) :=
  es.filterMap fun
    | .packet ⟨channelId, onuId, _, .eventOnuActivation _⟩ => some (channelId, onuId)
    | _ => none

/-- 二つの ONU が順に activation を終えると、logical port は後の一つだけになる。 -/
theorem second_onu_overwrites : ¬∀ es : List Event, (activations es).Nodup →
    Steps.Each World.step Keeps (World.initial "olt") es := by
  intro hall
  have htwo := hall (.createLogicalDevice :: activate 0 1 ++ activate 1 2) (by decide)
  have hlast : activate 1 2 = (activate 1 2).dropLast ++ [.run 1] := rfl
  rw [hlast, ← List.append_assoc, Steps.each_append] at htwo
  have hlen := htwo.2.1.onePort.logicalPorts.length_eq
  exact absurd hlen (by decide +kernel)

end Runs

end Voltha.Microsemi.Activation
