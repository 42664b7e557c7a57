import Mathlib.Algebra.Order.BigOperators.Group.List
import Mathlib.Algebra.Order.Group.Nat
import Mathlib.Data.Nat.Find
import Voltha.Common.EventBus
import Voltha.Core.Device
import Voltha.Flow.Ofp
import Voltha.Lib.Exec

/-!
# AdapterAgent と event bus

`voltha/core/adapter_agent.py` のうち、adapter への message を event bus から受ける部分。

| 登録する呼び出し | topic | adapter の method |
| --- | --- | --- |
| `create_logical_device` | `packet-out:` と id | `receive_packet_out` |
| `child_device_detected` | `tx:` と address | `send_proxied_message` |
| `register_for_proxied_messages` | `rx:` と address | `receive_proxied_message` |

木の側は `_make_up_to_date` が **在れば書き換え、無ければ足す** ので、同じ id で何度呼んでもよい。
bus の側は呼ぶたびに subscription が増え、前のものは外されない。`tx` と `rx` の記録は上書きされ、
`packet-out` は記録されない。
-/

namespace Voltha.Core

open Common Voltha.Flow

/-- `Device.ProxyAddress`。 -/
structure ProxyAddress where
  deviceId : String
  channelId : UInt32
deriving DecidableEq, Repr

/-- `LogicalDevice` のうち、`create_logical_device` が読み書きする field。 -/
structure LogicalDevice where
  id : String
  datapathId : Nat
deriving DecidableEq, Repr

/-- `child_device_detected` が作る `Device`。`id` は `uuid4().hex[:12]`。 -/
structure ChildDevice where
  id : String
  type : String
  parentId : String
  parentPortNo : UInt32
  adminState : AdminState
  proxyAddress : ProxyAddress
deriving DecidableEq, Repr

/-- `ofp_packet_out`。 -/
structure PacketOut where
  bufferId : UInt32
  inPort : UInt32
  actions : List Action
  data : List UInt8
deriving DecidableEq, Repr

/-- bus に流れる message。proxied message は何でもよい。 -/
inductive BusMsg (Data : Type) where
  | packetOut (opo : PacketOut)
  | proxied (msg : Data)
deriving DecidableEq, Repr

/-- `subscribe` に渡す lambda。 -/
inductive BusCallback where
  | receivePacketOut (logicalDeviceId : String)
  | sendProxiedMessage (proxyAddress : ProxyAddress)
  | receiveProxiedMessage (proxyAddress : ProxyAddress)
deriving DecidableEq, Repr

/-- adapter の method の呼び出し。 -/
inductive AdapterCall (Data : Type) where
  | receivePacketOut (logicalDeviceId : String) (outPort : Option UInt32) (frame : List UInt8)
  | sendProxiedMessage (proxyAddress : ProxyAddress) (msg : BusMsg Data)
  | receiveProxiedMessage (proxyAddress : ProxyAddress) (msg : BusMsg Data)
deriving DecidableEq, Repr

variable {Data : Type}

/-- `receive_packet_out` の中の `get_port_out`。 -/
def getPortOut (opo : PacketOut) : Option UInt32 :=
  (opo.actions.find? fun a => a.type = .output).map Action.outputPort

/--
callback が adapter を呼ぶ。

`receive_packet_out` に `ofp_packet_out` でないものが来れば、field が無い例外で終わる。
-/
def BusCallback.call : BusCallback → BusMsg Data → Option (AdapterCall Data)
  | .receivePacketOut id, .packetOut opo => some (.receivePacketOut id (getPortOut opo) opo.data)
  | .receivePacketOut _, .proxied _ => none
  | .sendProxiedMessage address, msg => some (.sendProxiedMessage address msg)
  | .receiveProxiedMessage address, msg => some (.receiveProxiedMessage address msg)

/-- `AdapterAgent`。木は `/logical_devices` と `/devices` だけを持つ。 -/
structure AdapterAgent (Data : Type) where
  logicalDevices : List (String × LogicalDevice)
  devices : List (String × ChildDevice)
  bus : EventBus (BusMsg Data) BusCallback
  txEventSubscriptions : List (String × Subscription (BusMsg Data) BusCallback)
  rxEventSubscriptions : List (String × Subscription (BusMsg Data) BusCallback)

/-- 呼び出しが投げる例外。`tree` は `_make_up_to_date` から出るもの。 -/
inductive AdapterError where
  | tree
  | bus (e : BusError)
deriving DecidableEq, Repr

abbrev AdapterOp (Data : Type) := Exec (AdapterAgent Data) AdapterError

/-! ## 空いている id -/

/-- `_find_first_available_id` の loop が止まる `i`。 -/
def Available (logicalDevices : List LogicalDevice) (i : Nat) : Prop :=
  1 ≤ i ∧ i ∉ logicalDevices.map LogicalDevice.datapathId ∧
    toString i ∉ logicalDevices.map LogicalDevice.id

instance (logicalDevices : List LogicalDevice) : DecidablePred (Available logicalDevices) :=
  fun _ => inferInstanceAs (Decidable (_ ∧ _ ∧ _))

/-- どの datapath id よりも大きく、どの id よりも桁の多い数は空いている。 -/
theorem exists_available (logicalDevices : List LogicalDevice) :
    ∃ i, Available logicalDevices i := by
  let width := (logicalDevices.map fun ld => ld.id.length).sum + 1
  let top := (logicalDevices.map LogicalDevice.datapathId).sum
  have hpos : 0 < 10 ^ width := Nat.pow_pos (by decide)
  refine ⟨10 ^ width + top, by omega, fun hmem => ?_, fun hmem => ?_⟩
  · have hle : 10 ^ width + top ≤ top := List.le_sum_of_mem hmem
    omega
  · obtain ⟨ld, hld, hid⟩ := List.mem_map.mp hmem
    have hle : ld.id.length ≤ width - 1 := List.le_sum_of_mem (List.mem_map_of_mem hld)
    have hlen : (Nat.repr (10 ^ width + top)).length ≤ width := by
      rw [show Nat.repr (10 ^ width + top) = ld.id from hid.symm]
      omega
    have hlt := (Nat.length_repr_le_iff (by omega)).mp hlen
    omega

/-- `_find_first_available_id`。`i` を 1 から順に試す。 -/
def findFirstAvailableId (logicalDevices : List LogicalDevice) : Nat :=
  Nat.find (exists_available logicalDevices)

/-! ## 呼び出し -/

section Calls

open Exec

/-- `_make_up_to_date(container, key, data)`。木が拒めば（`writes` が偽）例外で終わる。 -/
def makeEntryUpToDate {α : Type} (writes : Bool) (key : String) (data : α)
    (get : AdapterAgent Data → List (String × α))
    (put : AdapterAgent Data → List (String × α) → AdapterAgent Data) : AdapterOp Data Unit := do
  require (writes = true) .tree
  modify fun s => put s (OrderedDict.set (get s) key data)

/-- `event_bus.subscribe(topic, callback)`。 -/
def subscribe (topic : String) (callback : BusCallback) :
    AdapterOp Data (Subscription (BusMsg Data) BusCallback) := fun s =>
  match s.bus.subscribe (.explicit topic) callback none with
  | .ok (subscription, bus) => (.ok subscription, { s with bus })
  | .error e => (.error (.bus e), s)

/-- `create_logical_device` の前半。id が空なら、空いているものを割り当てる。 -/
def AdapterAgent.assignId (s : AdapterAgent Data) (logicalDevice : LogicalDevice) :
    LogicalDevice :=
  if logicalDevice.id = "" then
    let id := findFirstAvailableId (s.logicalDevices.map Prod.snd)
    { logicalDevice with id := toString id, datapathId := id }
  else logicalDevice

/-- `create_logical_device(logical_device)`。 -/
def createLogicalDevice (logicalDevice : LogicalDevice) (writes : Bool) :
    AdapterOp Data LogicalDevice := do
  let logicalDevice := (← read).assignId logicalDevice
  makeEntryUpToDate writes logicalDevice.id logicalDevice AdapterAgent.logicalDevices
    fun s logicalDevices => { s with logicalDevices }
  let _ ← subscribe ("packet-out:" ++ logicalDevice.id) (.receivePacketOut logicalDevice.id)
  return logicalDevice

variable (serializeToString : ProxyAddress → String)

/-- `_gen_tx_proxy_address_topic`。 -/
def genTxProxyAddressTopic (proxyAddress : ProxyAddress) : String :=
  "tx:" ++ serializeToString proxyAddress

/-- `_gen_rx_proxy_address_topic`。 -/
def genRxProxyAddressTopic (proxyAddress : ProxyAddress) : String :=
  "rx:" ++ serializeToString proxyAddress

/-- `child_device_detected(…)`。`id` は新しい device の id。 -/
def childDeviceDetected (id parentDeviceId : String) (parentPortNo : UInt32)
    (childDeviceType : String) (proxyAddress : ProxyAddress) (writes : Bool) :
    AdapterOp Data Unit := do
  let device : ChildDevice :=
    { id, type := childDeviceType, parentId := parentDeviceId, parentPortNo,
      adminState := .enabled, proxyAddress }
  makeEntryUpToDate writes id device AdapterAgent.devices fun s devices => { s with devices }
  let topic := genTxProxyAddressTopic serializeToString proxyAddress
  let subscription ← subscribe topic (.sendProxiedMessage proxyAddress)
  modify fun s => { s with
    txEventSubscriptions := OrderedDict.set s.txEventSubscriptions topic subscription }

/-- `register_for_proxied_messages(proxy_address)`。 -/
def registerForProxiedMessages (proxyAddress : ProxyAddress) : AdapterOp Data Unit := do
  let topic := genRxProxyAddressTopic serializeToString proxyAddress
  let subscription ← subscribe topic (.receiveProxiedMessage proxyAddress)
  modify fun s => { s with
    rxEventSubscriptions := OrderedDict.set s.rxEventSubscriptions topic subscription }

end Calls

/-- bus に `publish` したとき、adapter が受ける呼び出しと、後の agent。 -/
def AdapterAgent.publish (s : AdapterAgent Data) (topic : String) (msg : BusMsg Data) :
    List (AdapterCall Data) × AdapterAgent Data :=
  ((s.bus.publish topic msg).1.filterMap fun subscription => subscription.callback.call msg,
    { s with bus := (s.bus.publish topic msg).2 })

/-! ## 登録と配信 -/

/-- 登録する呼び出しと、topic へ流れる message。 -/
inductive AdapterEvent (Data : Type) where
  | createLogicalDevice (logicalDevice : LogicalDevice) (writes : Bool)
  | childDeviceDetected (id parentDeviceId : String) (parentPortNo : UInt32)
      (childDeviceType : String) (proxyAddress : ProxyAddress) (writes : Bool)
  | registerForProxiedMessages (proxyAddress : ProxyAddress)
  /-- topic に message が流れる。 -/
  | publish (topic : String) (msg : BusMsg Data)

/-- agent と、これまでに正常に終わった登録。 -/
structure Registrations (Data : Type) where
  agent : AdapterAgent Data
  registered : List BusCallback

namespace Registrations

/-- まだ何も登録していない agent。木は既に何かを持っていてよい。 -/
def initial (logicalDevices : List (String × LogicalDevice))
    (devices : List (String × ChildDevice)) : Registrations Data :=
  ⟨⟨logicalDevices, devices, .initial, [], []⟩, []⟩

/-- 呼び出しの後の agent。正常に終われば、`callback` が登録される。 -/
def record {α : Type} (s : Registrations Data) (op : AdapterOp Data α)
    (callback : α → BusCallback) : Registrations Data :=
  match op s.agent with
  | (.ok a, agent) => ⟨agent, s.registered ++ [callback a]⟩
  | (.error _, agent) => ⟨agent, s.registered⟩

section Run

variable (serializeToString : ProxyAddress → String)

def step (s : Registrations Data) : AdapterEvent Data → Registrations Data
  | .createLogicalDevice logicalDevice writes =>
    s.record (createLogicalDevice logicalDevice writes) fun ld => .receivePacketOut ld.id
  | .childDeviceDetected id parent portNo type address writes =>
    s.record (childDeviceDetected serializeToString id parent portNo type address writes)
      fun _ => .sendProxiedMessage address
  | .registerForProxiedMessages address =>
    s.record (registerForProxiedMessages serializeToString address)
      fun _ => .receiveProxiedMessage address
  | .publish topic msg => ⟨(s.agent.publish topic msg).2, s.registered⟩

end Run

end Registrations

/-- callback が登録される topic。 -/
def BusCallback.topic (serializeToString : ProxyAddress → String) : BusCallback → String
  | .receivePacketOut id => "packet-out:" ++ id
  | .sendProxiedMessage address => genTxProxyAddressTopic serializeToString address
  | .receiveProxiedMessage address => genRxProxyAddressTopic serializeToString address

namespace Registrations

variable (serializeToString : ProxyAddress → String)

/-- 登録されたどの相手への message も、adapter をちょうど一度、その相手と message で呼ぶ。 -/
def Delivered (s : Registrations Data) : Prop :=
  ∀ callback ∈ s.registered, ∀ msg call, callback.call msg = some call →
    (s.agent.publish (callback.topic serializeToString) msg).1 = [call]

/-- `callback` の topic に、まだ登録が無い。 -/
def Fresh (s : Registrations Data) (callback : BusCallback) : Prop :=
  ∀ earlier ∈ s.registered,
    earlier.topic serializeToString ≠ callback.topic serializeToString

/-- 木に書けた登録は、その topic への初めての登録である。id が空の logical device は問わない。 -/
def FirstTime (s : Registrations Data) : AdapterEvent Data → Prop
  | .createLogicalDevice logicalDevice writes =>
    writes = true → logicalDevice.id ≠ "" →
      s.Fresh serializeToString (.receivePacketOut logicalDevice.id)
  | .childDeviceDetected _ _ _ _ address writes =>
    writes = true → s.Fresh serializeToString (.sendProxiedMessage address)
  | .registerForProxiedMessages address =>
    s.Fresh serializeToString (.receiveProxiedMessage address)
  | .publish _ _ => True

/-! ### 不変条件 -/

variable {serializeToString} {s : Registrations Data} {callback : BusCallback}

/-- bus が持つのは、登録された callback の subscription で、名指しであり、predicate が無い。 -/
structure Wired (serializeToString : ProxyAddress → String)
    (bus : EventBus (BusMsg Data) BusCallback) (registered : List BusCallback)
    (active : List (Subscription (BusMsg Data) BusCallback)) : Prop where
  kept : Audience.Kept ⟨bus, active⟩
  callbacks : active.map Subscription.callback = registered
  topic : ∀ x ∈ active, x.topic = .explicit (x.callback.topic serializeToString)
  predicate : ∀ x ∈ active, x.predicate = none

/-- 登録された logical device は木にある。 -/
def Listed (logicalDevices : List (String × LogicalDevice)) (registered : List BusCallback) :
    Prop :=
  ∀ id, .receivePacketOut id ∈ registered → ∃ ld, logicalDevices.lookup id = some ld ∧ ld.id = id

/-- bus と木の両方についての不変条件。 -/
structure Kept (serializeToString : ProxyAddress → String) (s : Registrations Data) : Prop where
  wired : ∃ active, Wired serializeToString s.agent.bus s.registered active
  listed : Listed s.agent.logicalDevices s.registered

theorem kept_initial (logicalDevices : List (String × LogicalDevice))
    (devices : List (String × ChildDevice)) :
    (initial logicalDevices devices : Registrations Data).Kept serializeToString where
  wired := ⟨[], Audience.kept_initial, rfl, by simp, by simp⟩
  listed _ h := by cases h

section Wired

variable {bus bus' : EventBus (BusMsg Data) BusCallback} {registered : List BusCallback}
  {active : List (Subscription (BusMsg Data) BusCallback)}
  {subscription : Subscription (BusMsg Data) BusCallback}

/-- 一つ登録すると、その callback が末尾に加わる。 -/
theorem Wired.subscribe (h : Wired serializeToString bus registered active)
    (hs : bus.subscribe (.explicit (callback.topic serializeToString)) callback none
      = .ok (subscription, bus')) :
    Wired serializeToString bus' (registered ++ [callback]) (active ++ [subscription]) := by
  cases hs
  refine ⟨h.kept.subscribe (.explicit (callback.topic serializeToString)) callback none, ?_,
    List.forall_mem_append.mpr ⟨h.topic, List.forall_mem_singleton.mpr rfl⟩,
    List.forall_mem_append.mpr ⟨h.predicate, List.forall_mem_singleton.mpr rfl⟩⟩
  rw [List.map_append, h.callbacks]
  rfl

theorem Wired.no_pattern (h : Wired serializeToString bus registered active) (topic : String) :
    ¬∃ x ∈ active, ∃ hit, x.topic = .pattern hit ∧ hit topic = true := by
  rintro ⟨x, hx, hit, hpattern, -⟩
  rw [h.topic x hx] at hpattern
  cases hpattern

/-- `publish` は bus を変えない。 -/
theorem Wired.publish_bus (h : Wired serializeToString bus registered active) (topic : String)
    (msg : BusMsg Data) : (bus.publish topic msg).2 = bus :=
  h.kept.publish_bus fun hex => absurd hex (h.no_pattern topic)

/-- `publish` が呼ぶのは、その topic に登録された callback である。 -/
theorem Wired.publish_callbacks (h : Wired serializeToString bus registered active)
    (topic : String) (msg : BusMsg Data) :
    (bus.publish topic msg).1.map Subscription.callback
      = registered.filter fun callback => callback.topic serializeToString = topic := by
  have hsubs : bus.subscribers topic
      = active.filter fun x => x.callback.topic serializeToString = topic := by
    rw [h.kept.subscribers_eq (h.no_pattern topic), h.kept.subs]
    refine List.filter_congr fun x hx => ?_
    rw [h.topic x hx]
    simp [Topic.keyed, eq_comm]
  have hpass : (bus.publish topic msg).1 = bus.subscribers topic := by
    refine List.filter_eq_self.mpr fun x hx => ?_
    rw [hsubs] at hx
    simp [Subscription.passes, h.predicate x (List.mem_of_mem_filter hx)]
  rw [hpass, hsubs, ← h.callbacks, List.filter_map]
  rfl

end Wired

/-- `publish` が adapter に届けるもの。 -/
theorem Kept.publish_calls (h : s.Kept serializeToString) (topic : String) (msg : BusMsg Data) :
    (s.agent.publish topic msg).1
      = (s.registered.filter fun callback => callback.topic serializeToString = topic).filterMap
          fun callback => callback.call msg := by
  obtain ⟨active, hw⟩ := h.wired
  rw [← hw.publish_callbacks topic msg, List.filterMap_map]
  rfl

/-! ### 一歩 -/

/-- どの callback も受け取れる message。 -/
theorem call_packetOut_isSome (callback : BusCallback) (opo : PacketOut) :
    (callback.call (.packetOut opo : BusMsg Data)).isSome = true := by
  cases callback <;> rfl

/--
一つ登録した後も一度ずつ届くのは、その topic への初めての登録のときに限る。

二度目なら、その topic への packet-out は二つの callback を呼ぶ。
-/
theorem Kept.delivered_iff {s' : Registrations Data} (h : s.Kept serializeToString)
    (h' : s'.Kept serializeToString) (hd : s.Delivered serializeToString)
    (hr : s'.registered = s.registered ++ [callback]) :
    s'.Delivered serializeToString ↔ s.Fresh serializeToString callback := by
  constructor
  · intro hd' earlier hmem heq
    let msg : BusMsg Data := .packetOut ⟨0, 0, [], []⟩
    have hsome : (callback.call msg).isSome = true := call_packetOut_isSome callback _
    obtain ⟨call, hcall⟩ := Option.isSome_iff_exists.mp (call_packetOut_isSome earlier _)
    have hone := hd earlier hmem msg call hcall
    have htwo := hd' earlier (by rw [hr]; exact List.mem_append_left _ hmem) msg call hcall
    rw [h.publish_calls] at hone
    rw [h'.publish_calls, hr, List.filter_append, List.filterMap_append, hone] at htwo
    simp only [heq, decide_true, List.filter_cons_of_pos, List.filter_nil, List.singleton_append,
      List.cons.injEq, true_and, List.filterMap_eq_nil_iff, List.mem_singleton, forall_eq] at htwo
    rw [htwo] at hsome
    cases hsome
  · intro hfresh x hx msg call hcall
    rw [h'.publish_calls, hr, List.filter_append, List.filterMap_append]
    rw [hr] at hx
    rcases List.mem_append.mp hx with hx | hx
    · have hne : callback.topic serializeToString ≠ x.topic serializeToString :=
        fun he => hfresh x hx he.symm
      have hone := hd x hx msg call hcall
      rw [h.publish_calls] at hone
      simp [hone, hne]
    · cases List.mem_singleton.mp hx
      have hnone : s.registered.filter
          (fun y => y.topic serializeToString = callback.topic serializeToString) = [] := by
        refine List.filter_eq_nil_iff.mpr fun y hy => ?_
        simpa using hfresh y hy
      simp [hnone, hcall]

/-! ### 呼び出しごとに -/

/-- 登録の結果。木の他の部分は、登録された logical device を失わない。 -/
theorem Kept.register {s' : Registrations Data} {subscription} (h : s.Kept serializeToString)
    (hs : s.agent.bus.subscribe (.explicit (callback.topic serializeToString)) callback none
      = .ok (subscription, s'.agent.bus))
    (hr : s'.registered = s.registered ++ [callback])
    (hl : Listed s'.agent.logicalDevices (s.registered ++ [callback])) :
    s'.Kept serializeToString := by
  obtain ⟨active, hw⟩ := h.wired
  refine ⟨⟨active ++ [subscription], ?_⟩, by rw [hr]; exact hl⟩
  rw [hr]
  exact hw.subscribe hs

theorem Listed.append {lds : List (String × LogicalDevice)} {l : List BusCallback}
    (h : Listed lds l) (hc : ∀ id, callback ≠ .receivePacketOut id) :
    Listed lds (l ++ [callback]) := by
  intro id hid
  rcases List.mem_append.mp hid with hid | hid
  · exact h id hid
  · exact absurd (List.mem_singleton.mp hid).symm (hc id)

/-- 書いた logical device は木にあり、他のものは残る。 -/
theorem Listed.set {lds : List (String × LogicalDevice)} {l : List BusCallback}
    (h : Listed lds l) (ld : LogicalDevice) :
    Listed (OrderedDict.set lds ld.id ld) (l ++ [.receivePacketOut ld.id]) := by
  intro id hid
  rw [OrderedDict.lookup_set]
  split
  · next heq => exact ⟨ld, rfl, heq.symm⟩
  · next hne =>
    rcases List.mem_append.mp hid with hid | hid
    · exact h id hid
    · cases List.mem_singleton.mp hid
      exact absurd rfl hne

/-- 他の種類の topic とは、頭が違う。 -/
theorem topic_eq_packetOut {id : String}
    (h : callback.topic serializeToString
      = BusCallback.topic serializeToString (.receivePacketOut id)) :
    callback = .receivePacketOut id := by
  have hchars := congrArg String.toList h
  cases callback with
  | receivePacketOut id' =>
    simp only [BusCallback.topic, String.toList_append, List.append_cancel_left_eq,
      String.toList_inj] at hchars
    rw [hchars]
  | sendProxiedMessage address =>
    simp [BusCallback.topic, genTxProxyAddressTopic, String.toList_append] at hchars
  | receiveProxiedMessage address =>
    simp [BusCallback.topic, genRxProxyAddressTopic, String.toList_append] at hchars

/-- 割り当てる id は、登録されたどの logical device の id でもない。 -/
theorem Kept.fresh_assigned (h : s.Kept serializeToString) {ld : LogicalDevice} (hid : ld.id = "") :
    s.Fresh serializeToString (.receivePacketOut (s.agent.assignId ld).id) := by
  intro earlier hmem heq
  rw [topic_eq_packetOut heq] at hmem
  obtain ⟨other, hlookup, hother⟩ := h.listed _ hmem
  have hfree : Available (s.agent.logicalDevices.map Prod.snd)
      (findFirstAvailableId (s.agent.logicalDevices.map Prod.snd)) := Nat.find_spec _
  refine hfree.2.2 (List.mem_map.mpr ⟨other, List.mem_map.mpr ⟨_, OrderedDict.mem_of_lookup hlookup,
    rfl⟩, ?_⟩)
  rw [hother, AdapterAgent.assignId, if_pos hid]

/-- 一つの登録について、不変条件と条件をまとめる。 -/
theorem Kept.registered_iff {s' : Registrations Data} {subscription}
    (h : s.Kept serializeToString) (hd : s.Delivered serializeToString)
    (hs : s.agent.bus.subscribe (.explicit (callback.topic serializeToString)) callback none
      = .ok (subscription, s'.agent.bus))
    (hr : s'.registered = s.registered ++ [callback])
    (hl : Listed s'.agent.logicalDevices (s.registered ++ [callback])) :
    (s'.Delivered serializeToString ↔ s.Fresh serializeToString callback) ∧
      s'.Kept serializeToString :=
  have h' := h.register hs hr hl
  ⟨h.delivered_iff h' hd hr, h'⟩

theorem Kept.createLogicalDevice (h : s.Kept serializeToString)
    (hd : s.Delivered serializeToString) (ld : LogicalDevice) (writes : Bool) :
    ((s.step serializeToString (.createLogicalDevice ld writes)).Delivered serializeToString
      ↔ s.FirstTime serializeToString (.createLogicalDevice ld writes)) ∧
      (s.step serializeToString (.createLogicalDevice ld writes)).Kept serializeToString := by
  cases writes with
  | false =>
    -- 木が拒んだ呼び出しは、何も登録しない
    have hsame : s.step serializeToString (.createLogicalDevice ld false) = s := rfl
    rw [hsame]
    exact ⟨⟨fun _ hw => (by cases hw), fun _ => hd⟩, h⟩
  | true =>
    have hstep :
        ((s.step serializeToString (.createLogicalDevice ld true)).Delivered serializeToString
          ↔ s.Fresh serializeToString (.receivePacketOut (s.agent.assignId ld).id)) ∧
        (s.step serializeToString (.createLogicalDevice ld true)).Kept serializeToString :=
      h.registered_iff hd rfl rfl (h.listed.set _)
    obtain ⟨hiff, hkept⟩ := hstep
    refine ⟨hiff.trans ?_, hkept⟩
    by_cases hid : ld.id = ""
    · exact ⟨fun _ _ hne => absurd hid hne, fun _ => h.fresh_assigned hid⟩
    · rw [AdapterAgent.assignId, if_neg hid]
      exact ⟨fun hf _ _ => hf, fun hf => hf rfl hid⟩

theorem Kept.childDeviceDetected (h : s.Kept serializeToString)
    (hd : s.Delivered serializeToString) (id parent : String) (portNo : UInt32) (type : String)
    (address : ProxyAddress) (writes : Bool) :
    ((s.step serializeToString
        (.childDeviceDetected id parent portNo type address writes)).Delivered serializeToString
      ↔ s.FirstTime serializeToString
          (.childDeviceDetected id parent portNo type address writes)) ∧
      (s.step serializeToString
        (.childDeviceDetected id parent portNo type address writes)).Kept serializeToString := by
  cases writes with
  | false =>
    have hsame : s.step serializeToString
      (.childDeviceDetected id parent portNo type address false) = s := rfl
    rw [hsame]
    exact ⟨⟨fun _ hw => (by cases hw), fun _ => hd⟩, h⟩
  | true =>
    have hstep :
        ((s.step serializeToString
            (.childDeviceDetected id parent portNo type address true)).Delivered serializeToString
          ↔ s.Fresh serializeToString (.sendProxiedMessage address)) ∧
        (s.step serializeToString
          (.childDeviceDetected id parent portNo type address true)).Kept serializeToString :=
      h.registered_iff hd rfl rfl (h.listed.append (by simp))
    obtain ⟨hiff, hkept⟩ := hstep
    exact ⟨hiff.trans ⟨fun hf _ => hf, fun hf => hf rfl⟩, hkept⟩

theorem Kept.registerForProxiedMessages (h : s.Kept serializeToString)
    (hd : s.Delivered serializeToString) (address : ProxyAddress) :
    ((s.step serializeToString (.registerForProxiedMessages address)).Delivered serializeToString
      ↔ s.FirstTime serializeToString (.registerForProxiedMessages address)) ∧
      (s.step serializeToString (.registerForProxiedMessages address)).Kept serializeToString :=
  h.registered_iff hd rfl rfl (h.listed.append (by simp))

theorem Kept.publish (h : s.Kept serializeToString) (topic : String) (msg : BusMsg Data) :
    s.step serializeToString (.publish topic msg) = s := by
  obtain ⟨active, hw⟩ := h.wired
  show (⟨{ s.agent with bus := (s.agent.bus.publish topic msg).2 }, s.registered⟩ :
    Registrations Data) = s
  rw [hw.publish_bus]

end Registrations

/--
**一つの message が一度だけ adapter に届く条件。**

どの木から始めて、登録と message がどの順に来ても、登録されたどの相手への message も adapter を
ちょうど一度だけ呼ぶのは、**id を与えた logical device の作成、子の検出、proxy address の登録が、
どれもその topic への初めての登録である** ときに限る。
-/
theorem delivered_once_iff (serializeToString : ProxyAddress → String)
    (logicalDevices : List (String × LogicalDevice)) (devices : List (String × ChildDevice))
    (l : List (AdapterEvent Data)) :
    Steps.Always (Registrations.step serializeToString)
        (Registrations.Delivered serializeToString) (.initial logicalDevices devices) l
      ↔ Steps.Each (Registrations.step serializeToString)
          (Registrations.FirstTime serializeToString) (.initial logicalDevices devices) l := by
  refine Steps.always_iff_each (A := fun _ => True)
    (I := Registrations.Kept serializeToString) (fun s e _ h hd => ?_) (fun _ _ => trivial)
    (Registrations.kept_initial _ _) fun _ hc => by cases hc
  cases e with
  | createLogicalDevice ld writes =>
    exact ⟨(h.createLogicalDevice hd ld writes).1, fun _ => (h.createLogicalDevice hd ld writes).2⟩
  | childDeviceDetected id parent portNo type address writes =>
    have hstep := h.childDeviceDetected hd id parent portNo type address writes
    exact ⟨hstep.1, fun _ => hstep.2⟩
  | registerForProxiedMessages address =>
    have hstep := h.registerForProxiedMessages hd address
    exact ⟨hstep.1, fun _ => hstep.2⟩
  | publish topic msg =>
    rw [h.publish topic msg]
    exact ⟨⟨fun _ => trivial, fun _ => hd⟩, fun _ => h⟩

/--
同じ id の logical device を作り直すと、木の中は一つのままだが、packet-out は二度届く。

同じ proxy address を登録し直しても、受け取る message は二度届く。address の wire 形式は
`device_id` が `olt`、`channel_id` が 1 のもの。
-/
theorem recreated_device_called_twice :
    let serializeToString : ProxyAddress → String := fun _ => "\n\x03olt\x10\x01"
    let address : ProxyAddress := ⟨"olt", 1⟩
    let events : List (AdapterEvent Unit) :=
      [.createLogicalDevice ⟨"olt", 1⟩ true, .createLogicalDevice ⟨"olt", 1⟩ true,
        .registerForProxiedMessages address, .registerForProxiedMessages address]
    let s := events.foldl (Registrations.step serializeToString) (.initial [] [])
    s.agent.logicalDevices.length = 1 ∧
      (s.agent.publish "packet-out:olt" (.packetOut ⟨0, 0, [], [1]⟩)).1
        = [.receivePacketOut "olt" none [1], .receivePacketOut "olt" none [1]] ∧
      (s.agent.publish "rx:\n\x03olt\x10\x01" (.proxied ())).1
        = [.receiveProxiedMessage address (.proxied ()),
          .receiveProxiedMessage address (.proxied ())] ∧
      ¬Steps.Always (Registrations.step serializeToString)
        (Registrations.Delivered serializeToString) (.initial [] []) events := by
  intro serializeToString address events s
  have htwice : (s.agent.publish "packet-out:olt" (.packetOut ⟨0, 0, [], [1]⟩)).1
      = [.receivePacketOut "olt" none [1], .receivePacketOut "olt" none [1]] := by decide
  refine ⟨by decide, htwice, by decide, fun h => ?_⟩
  have hone := h.last (.receivePacketOut "olt") (by decide) (.packetOut ⟨0, 0, [], [1]⟩) _ rfl
  cases htwice.symm.trans hone

end Voltha.Core
