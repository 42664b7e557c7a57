import Mathlib.Data.List.Nodup
import Mathlib.Data.List.TakeWhile
import Voltha.Core.VolthaCore
import Voltha.Lib.Steps

/-!
# agent は木を写すか

木への追加と削除のたびに、`device_agents` と `logical_device_agents` の key が木の key と一致し、
止めた agent が木からも event bus からも呼ばれず、packet-in が一度ずつ転送されるか。

崩れるのは、agent が始まらなかった追加と、**logical device の削除すべて** である。
-/

namespace Voltha.Core.VolthaCore

open Common Exec Voltha.Flow

/-- 木にある node。 -/
def System.liveNodes (s : System) : List Nat :=
  s.devices.map Prod.snd ++ s.logicalDevices.map Prod.snd

/-- agent が木を写している。 -/
structure Mirrors (s : System) : Prop where
  devices : ∀ id, id ∈ s.deviceAgents.map Prod.fst ↔ id ∈ s.devices.map Prod.fst
  logicalDevices : ∀ id,
    id ∈ s.logicalDeviceAgents.map Prod.fst ↔ id ∈ s.logicalDevices.map Prod.fst
  /-- 木が呼ぶのは、止まっていない agent だけ。 -/
  tree : ∀ r ∈ s.callbacks, r.node ∈ s.liveNodes → r.agent ∉ s.stopped
  /-- event bus が呼ぶのは、止まっていない agent だけ。 -/
  bus : ∀ topic msg, ∀ x ∈ (s.bus.publish topic msg).1, x.callback.ref ∉ s.stopped
  forwards : ∀ id ∈ s.logicalDevices.map Prod.fst, ∀ msg,
    s.forwarded id msg = [(id, ofpPacketIn msg)]

section Condition

variable (deviceTypes : List (String × String)) (adapters : List String)

/--
新しく加える device の agent が始まる条件。

path が node に行き着き、型が `/device_types` にあり、adapter が読み込まれていて、
`ENABLED` なら `_activate_device` が成功する。
-/
structure Starts (s : System) (device : NewDevice) (activates : Bool) : Prop where
  path : (resolve (s.devices ++ [(device.id, s.fresh)]) device.id).isSome = true
  type : (resolve deviceTypes device.type).isSome = true
  adapter : ∃ name, adapterName deviceTypes device = some name ∧ name ≠ "" ∧ name ∈ adapters
  activation : device.adminState = some .enabled → activates = true

/-- 加える agent は始まり、木にある logical device は消さない。 -/
def Harmless (s : System) : TreeEvent → Prop
  | .addDevice device activates =>
    device.id ∉ s.devices.map Prod.fst → Starts deviceTypes adapters s device activates
  | .removeDevice _ => True
  | .addLogicalDevice id =>
    id ∉ s.logicalDevices.map Prod.fst →
      (resolve (s.logicalDevices ++ [(id, s.fresh)]) id).isSome = true
  | .removeLogicalDevice path =>
    ∀ key, removedKey path = some key → key ∉ s.logicalDevices.map Prod.fst

end Condition

/-! ## 不変条件 -/

/-- 木の node、掛けられた callback、止めた agent の間の関係。 -/
structure Grounded (live : List Nat) (callbacks : List Registration) (stopped : List Nat)
    (fresh : Nat) : Prop where
  nodes : live.Nodup
  nodesBelow : ∀ n ∈ live, n < fresh
  callbacksBelow : ∀ r ∈ callbacks, r.node < fresh ∧ r.agent < fresh
  stoppedBelow : ∀ a ∈ stopped, a < fresh
  detached : ∀ r ∈ callbacks, r.node ∈ live → r.agent ∉ stopped
  method : ∀ r ∈ callbacks, r.method ≠ .portListUpdated

/-- `device_agents` にある agent。 -/
structure AgentKept (s : System) (id : String) (a : Agent) : Prop where
  validate : ⟨a.node, .self, .preUpdate, a.ref, .validateUpdate⟩ ∈ s.callbacks
  process : ⟨a.node, .self, .postUpdate, a.ref, .processUpdate⟩ ∈ s.callbacks
  /-- `/` の無い id なら、node は自分の device のものである。 -/
  own : (partition id).1 = id → (id, a.node) ∈ s.devices
  home : ∀ r ∈ s.callbacks, r.agent = a.ref → r.node = a.node
  below : a.ref < s.fresh

/-- bus の subscription は、木にある logical device と一つずつ対応する。 -/
structure Wired (s : System) (active : List (Subscription PacketInMsg Agent)) : Prop where
  kept : Audience.Kept ⟨s.bus, active⟩
  ids : active.map (fun x => x.callback.id) = s.logicalDevices.map Prod.fst
  topic : ∀ x ∈ active, x.topic = .explicit ("packet-in:" ++ x.callback.id)
  predicate : ∀ x ∈ active, x.predicate = none
  running : ∀ x ∈ active, x.callback.ref ∉ s.stopped
  apart : ∀ x ∈ active, ∀ id a, s.deviceAgents.lookup id = some a → x.callback.ref ≠ a.ref
  below : ∀ x ∈ active, x.callback.ref < s.fresh

/-- logical device が消されない間の不変条件。 -/
structure Kept (s : System) : Prop where
  devices : ∀ id, id ∈ s.deviceAgents.map Prod.fst ↔ id ∈ s.devices.map Prod.fst
  logicalDevices : ∀ id,
    id ∈ s.logicalDeviceAgents.map Prod.fst ↔ id ∈ s.logicalDevices.map Prod.fst
  keys : (s.logicalDevices.map Prod.fst).Nodup
  ground : Grounded s.liveNodes s.callbacks s.stopped s.fresh
  agents : ∀ id a, s.deviceAgents.lookup id = some a → AgentKept s id a
  apart : ∀ id id' a a', s.deviceAgents.lookup id = some a →
    s.deviceAgents.lookup id' = some a' → a.ref = a'.ref → id = id'
  wired : ∃ active, Wired s active

theorem kept_initial : Kept System.initial where
  devices _ := Iff.rfl
  logicalDevices _ := Iff.rfl
  keys := List.nodup_nil
  ground := ⟨List.nodup_nil, nofun, nofun, nofun, nofun, nofun⟩
  agents _ _ h := by cases h
  apart _ _ _ _ h := by cases h
  wired := ⟨[], Audience.kept_initial, rfl, by simp, by simp, by simp, by simp, by simp⟩

variable {s : System}

section Wired

variable {active : List (Subscription PacketInMsg Agent)}

theorem Wired.no_pattern (h : Wired s active) (topic : String) :
    ¬∃ x ∈ active, ∃ hit, x.topic = .pattern hit ∧ hit topic = true := by
  rintro ⟨x, hx, hit, hpattern, -⟩
  rw [h.topic x hx] at hpattern
  cases hpattern

/-- bus が呼ぶのは、掛けられている subscription である。 -/
theorem Wired.mem_of_publish (h : Wired s active) {topic : String} {msg : PacketInMsg}
    {x : Subscription PacketInMsg Agent} (hx : x ∈ (s.bus.publish topic msg).1) : x ∈ active :=
  (h.kept.mem_subscribers.mp (List.mem_of_mem_filter hx)).1

/-- `packet-in:<id>` が呼ぶのは、その id の agent である。 -/
theorem Wired.publish_ids (h : Wired s active) (id : String) (msg : PacketInMsg) :
    (s.bus.publish ("packet-in:" ++ id) msg).1.map (fun x => x.callback.id)
      = (s.logicalDevices.map Prod.fst).filter fun key => key = id := by
  have hsubs : s.bus.subscribers ("packet-in:" ++ id)
      = active.filter fun x => x.callback.id = id := by
    rw [h.kept.subscribers_eq (h.no_pattern _), h.kept.subs]
    refine List.filter_congr fun x hx => ?_
    rw [h.topic x hx]
    simp [Topic.keyed, eq_comm, String.append_right_inj]
  have hpass : (s.bus.publish ("packet-in:" ++ id) msg).1
      = s.bus.subscribers ("packet-in:" ++ id) := by
    refine List.filter_eq_self.mpr fun x hx => ?_
    rw [hsubs] at hx
    simp [Subscription.passes, h.predicate x (List.mem_of_mem_filter hx)]
  rw [hpass, hsubs, ← h.ids, List.filter_map]
  rfl

end Wired

theorem Kept.mirrors (h : Kept s) : Mirrors s where
  devices := h.devices
  logicalDevices := h.logicalDevices
  tree := h.ground.detached
  bus topic msg x hx := by
    obtain ⟨active, hw⟩ := h.wired
    exact hw.running x (hw.mem_of_publish hx)
  forwards id hid msg := by
    obtain ⟨active, hw⟩ := h.wired
    have hone : (s.logicalDevices.map Prod.fst).filter (fun key => key = id) = [id] := by
      rw [List.filter_eq, h.keys.count, if_pos hid]
      rfl
    have hids := hw.publish_ids id msg
    rw [hone, List.map_eq_singleton_iff] at hids
    obtain ⟨x, hx, hxid⟩ := hids
    rw [System.forwarded, hx, List.map_singleton, handlePacketInEvent, hxid]

/-! ## 作ることと止めること -/

/-- `DeviceAgent.__init__` が掛ける callback。 -/
def deviceCallbacks (node ref : Nat) : List Registration :=
  [⟨node, .self, .preUpdate, ref, .validateUpdate⟩, ⟨node, .self, .postUpdate, ref, .processUpdate⟩,
    ⟨node, .flows, .postUpdate, ref, .flowTableUpdated⟩,
    ⟨node, .flowGroups, .postUpdate, ref, .groupTableUpdated⟩]

/-- `LogicalDeviceAgent.__init__` が掛ける callback。 -/
def logicalDeviceCallbacks (node ref : Nat) : List Registration :=
  [⟨node, .flows, .postUpdate, ref, .flowTableUpdated⟩,
    ⟨node, .flowGroups, .postUpdate, ref, .groupTableUpdated⟩,
    ⟨node, .self, .postAdd, ref, .portAdded⟩, ⟨node, .self, .postRemove, ref, .portRemoved⟩]

/-- 新しい agent が callback を掛けた状態。 -/
def System.attached (s : System) (callbacks : List Registration) : System :=
  { s with callbacks := s.callbacks ++ callbacks, fresh := s.fresh + 1 }

section DeviceAgent

variable (s : System) (deviceTypes : List (String × String)) (adapters : List String)
  (device : NewDevice) (activates : Bool)

variable {s device} in
theorem newDeviceAgent_apply {node : Nat} (h : resolve s.devices device.id = some node) :
    newDeviceAgent deviceTypes device s
      = (match resolve deviceTypes device.type with
          | some _ => .ok ⟨s.fresh, device.id, node⟩
          | none => .error .keyError,
        s.attached (deviceCallbacks node s.fresh)) := by
  cases hr : resolve deviceTypes device.type <;>
    simp [newDeviceAgent, bind_apply, h, hr, newRef, registerCallback, System.attached,
      deviceCallbacks, ofOption]

/-- `UNKNOWN` からの遷移で処理があるのは `ENABLED` だけである。 -/
theorem processInitial_apply :
    processInitial device activates s
      = (if device.adminState = some .enabled → activates = true then .ok ()
          else .error .activation, s) := by
  unfold processInitial
  rcases device.adminState with _ | _ | _ | _ | _ <;> cases activates <;> rfl

open Classical in
theorem setAdapterAgent_apply :
    ∃ e, setAdapterAgent deviceTypes adapters device s
      = (if ∃ name, adapterName deviceTypes device = some name ∧ name ≠ "" ∧ name ∈ adapters
          then .ok () else .error e, s) := by
  unfold setAdapterAgent
  cases hn : adapterName deviceTypes device with
  | none => exact ⟨.keyError, by simp [bind_apply, ofOption]⟩
  | some name =>
    by_cases he : name = ""
    · exact ⟨.assertionError, by simp [bind_apply, ofOption, require, he]⟩
    · by_cases hm : name ∈ adapters
      · exact ⟨.keyError, by simp [bind_apply, ofOption, require, he, hm]⟩
      · exact ⟨.keyError, by simp [bind_apply, ofOption, require, he, hm]⟩

open Classical in
theorem startDeviceAgent_apply :
    ∃ e, startDeviceAgent deviceTypes adapters device activates s
      = (if (∃ name, adapterName deviceTypes device = some name ∧ name ≠ "" ∧ name ∈ adapters) ∧
            (device.adminState = some .enabled → activates = true)
          then .ok () else .error e, s) := by
  obtain ⟨e, he⟩ := setAdapterAgent_apply s deviceTypes adapters device
  unfold startDeviceAgent
  by_cases hname : ∃ name, adapterName deviceTypes device = some name ∧ name ≠ "" ∧ name ∈ adapters
  · rw [if_pos hname] at he
    refine ⟨.activation, ?_⟩
    rw [bind_ok he, processInitial_apply]
    simp [hname]
  · rw [if_neg hname] at he
    refine ⟨e, ?_⟩
    rw [bind_error he]
    simp [hname]

variable {s deviceTypes adapters device activates} in
/-- 追加の callback は、agent を始めて `device_agents` に入れるか、`device_agents` を変えない。 -/
theorem handleAddDevice_cases (hid : device.id ∉ s.deviceAgents.map Prod.fst) :
    let s₁ : System :=
      { s with devices := s.devices ++ [(device.id, s.fresh)], fresh := s.fresh + 1 }
    let s₂ := (handleAddDevice deviceTypes adapters device activates s₁).2
    (∃ node, resolve s₁.devices device.id = some node ∧
        Starts deviceTypes adapters s device activates ∧
        s₂ = { s₁.attached (deviceCallbacks node s₁.fresh) with
          deviceAgents := OrderedDict.set s.deviceAgents device.id
            ⟨s₁.fresh, device.id, node⟩ }) ∨
      (¬Starts deviceTypes adapters s device activates ∧ s₂.deviceAgents = s.deviceAgents ∧
        s₂.devices = s₁.devices) := by
  intro s₁ s₂
  let launch : CoreOp Unit := do
    let agent ← newDeviceAgent deviceTypes device
    startDeviceAgent deviceTypes adapters device activates
    modify fun s => { s with deviceAgents := OrderedDict.set s.deviceAgents device.id agent }
  have hs₂ : s₂ = (launch s₁).2 := congrArg Prod.snd (bind_ok (require_pos hid s₁))
  cases hnode : resolve s₁.devices device.id with
  | none =>
    have hnew : newDeviceAgent deviceTypes device s₁ = (.error .keyError, s₁) := by
      simp [newDeviceAgent, bind_apply, hnode, ofOption]
    have hpath : ¬(resolve s₁.devices device.id).isSome = true := by simp [hnode]
    have hl : launch s₁ = (.error .keyError, s₁) := bind_error hnew
    rw [hs₂, hl]
    exact Or.inr ⟨fun h => hpath h.path, rfl, rfl⟩
  | some node =>
    have hnew := newDeviceAgent_apply deviceTypes hnode
    cases htype : resolve deviceTypes device.type with
    | none =>
      rw [htype] at hnew
      have hl : launch s₁ = (.error .keyError, s₁.attached (deviceCallbacks node s₁.fresh)) :=
        bind_error hnew
      rw [hs₂, hl]
      exact Or.inr ⟨fun h => by simpa [htype] using h.type, rfl, rfl⟩
    | some adapter =>
      rw [htype] at hnew
      obtain ⟨e, he⟩ := startDeviceAgent_apply (s₁.attached (deviceCallbacks node s₁.fresh))
        deviceTypes adapters device activates
      rw [hs₂]
      split at he
      · next hstart =>
        have hl : launch s₁ = (.ok (), { s₁.attached (deviceCallbacks node s₁.fresh) with
            deviceAgents := OrderedDict.set s.deviceAgents device.id
              ⟨s₁.fresh, device.id, node⟩ }) := (bind_ok hnew).trans (bind_ok he)
        rw [hl]
        have hpath : (resolve s₁.devices device.id).isSome = true := by rw [hnode]; rfl
        exact Or.inl ⟨node, rfl, ⟨hpath, by rw [htype]; rfl, hstart.1, hstart.2⟩, rfl⟩
      · next hstart =>
        have hl : launch s₁ = (.error e, s₁.attached (deviceCallbacks node s₁.fresh)) :=
          (bind_ok hnew).trans (bind_error he)
        rw [hl]
        exact Or.inr ⟨fun h => hstart ⟨h.adapter, h.activation⟩, rfl, rfl⟩

end DeviceAgent

theorem unregisterCallback_pos {r : Registration} (h : r ∈ s.callbacks) :
    unregisterCallback r s = (.ok (), { s with callbacks := s.callbacks.erase r }) :=
  bind_ok (require_pos h s)

theorem unregisterCallback_neg {r : Registration} (h : r ∉ s.callbacks) :
    unregisterCallback r s = (.error .valueError, s) :=
  (bind_ok (read_apply s)).trans (bind_error (require_neg h s))

/-- 掛けた二つを外し、`device_agents` から消す。 -/
theorem handleRemoveDevice_apply {id : String} {a : Agent}
    (hl : s.deviceAgents.lookup id = some a)
    (hv : ⟨a.node, .self, .preUpdate, a.ref, .validateUpdate⟩ ∈ s.callbacks)
    (hp : ⟨a.node, .self, .postUpdate, a.ref, .processUpdate⟩ ∈ s.callbacks) :
    (handleRemoveDevice id s).2 = { s with
      stopped := s.stopped ++ [a.ref]
      callbacks := (s.callbacks.erase ⟨a.node, .self, .preUpdate, a.ref, .validateUpdate⟩).erase
        ⟨a.node, .self, .postUpdate, a.ref, .processUpdate⟩
      deviceAgents := OrderedDict.del s.deviceAgents id } := by
  let s₁ : System := { s with stopped := s.stopped ++ [a.ref] }
  have hv₁ := unregisterCallback_pos (s := s₁) hv
  have hp₁ : (⟨a.node, .self, .postUpdate, a.ref, .processUpdate⟩ : Registration) ∈
      s.callbacks.erase ⟨a.node, .self, .preUpdate, a.ref, .validateUpdate⟩ :=
    (List.mem_erase_of_ne (by simp)).mpr hp
  have hstop : stopDeviceAgent a s = _ := (bind_ok hv₁).trans (unregisterCallback_pos hp₁)
  have hrun : handleRemoveDevice id s = (do
      stopDeviceAgent a
      modify fun s => { s with deviceAgents := OrderedDict.del s.deviceAgents id } :
      CoreOp Unit) s := by
    simp only [handleRemoveDevice, bind_apply, read_apply, hl]
  rw [hrun, bind_ok hstop]
  rfl

/-! ### LogicalDeviceAgent -/

/-- path が node に行き着かなければ、何も起きない。 -/
theorem handleAddLogicalDevice_none {id : String} (hr : resolve s.logicalDevices id = none) :
    (handleAddLogicalDevice id s).2 = s := by
  by_cases hid : id ∈ s.logicalDeviceAgents.map Prod.fst
  · rw [handleAddLogicalDevice, bind_ok (read_apply s),
      bind_error (require_neg (not_not_intro hid) s)]
  · rw [handleAddLogicalDevice, bind_ok (read_apply s), bind_ok (require_pos hid s)]
    simp [newLogicalDeviceAgent, bind_apply, hr, ofOption]

/-- 四つの callback と subscription を掛けて、`logical_device_agents` に入れる。 -/
theorem handleAddLogicalDevice_some {id : String} {node : Nat}
    (hid : id ∉ s.logicalDeviceAgents.map Prod.fst)
    (hr : resolve s.logicalDevices id = some node) :
    ∃ x bus, s.bus.subscribe (.explicit ("packet-in:" ++ id)) ⟨s.fresh, id, node⟩ none
        = .ok (x, bus) ∧
      (handleAddLogicalDevice id s).2
        = { s.attached (logicalDeviceCallbacks node s.fresh) with
            bus := bus
            logicalDeviceAgents := OrderedDict.set s.logicalDeviceAgents id
              ⟨s.fresh, id, node⟩ } := by
  refine ⟨_, _, rfl, ?_⟩
  simp [handleAddLogicalDevice, newLogicalDeviceAgent, bind_apply, require, hid, hr, ofOption,
    newRef, registerCallback, subscribePacketIn, System.attached, logicalDeviceCallbacks]
  rfl

/--
`LogicalDeviceAgent.stop` は必ず例外になる。

`_port_list_updated` を掛けた agent は無い。そこまでに外したものがあっても、agent の表は変わらない。
-/
theorem stopLogicalDeviceAgent_error (a : Agent)
    (hm : ∀ r ∈ s.callbacks, r.method ≠ .portListUpdated) :
    ∃ s', stopLogicalDeviceAgent a s = (.error .valueError, s') ∧
      s'.logicalDeviceAgents = s.logicalDeviceAgents ∧ s'.logicalDevices = s.logicalDevices := by
  let s₁ : System := { s with stopped := s.stopped ++ [a.ref] }
  have hrun : stopLogicalDeviceAgent a s = (do
      unregisterCallback ⟨a.node, .flows, .postUpdate, a.ref, .flowTableUpdated⟩
      unregisterCallback ⟨a.node, .flowGroups, .postUpdate, a.ref, .groupTableUpdated⟩
      unregisterCallback ⟨a.node, .self, .postAdd, a.ref, .portListUpdated⟩
      unregisterCallback ⟨a.node, .self, .postRemove, a.ref, .portListUpdated⟩ :
      CoreOp Unit) s₁ := rfl
  rw [hrun]
  by_cases hf : (⟨a.node, .flows, .postUpdate, a.ref, .flowTableUpdated⟩ : Registration) ∈
      s₁.callbacks
  · rw [bind_ok (unregisterCallback_pos hf)]
    let s₂ : System := { s₁ with
      callbacks := s₁.callbacks.erase ⟨a.node, .flows, .postUpdate, a.ref, .flowTableUpdated⟩ }
    by_cases hg : (⟨a.node, .flowGroups, .postUpdate, a.ref, .groupTableUpdated⟩ : Registration) ∈
        s₂.callbacks
    · rw [bind_ok (unregisterCallback_pos (s := s₂) hg)]
      have hno : (⟨a.node, .self, .postAdd, a.ref, .portListUpdated⟩ : Registration) ∉
          s₂.callbacks.erase ⟨a.node, .flowGroups, .postUpdate, a.ref, .groupTableUpdated⟩ :=
        fun hmem => hm _ (List.mem_of_mem_erase (List.mem_of_mem_erase hmem)) rfl
      rw [bind_error (unregisterCallback_neg hno)]
      exact ⟨_, rfl, rfl, rfl⟩
    · rw [bind_error (unregisterCallback_neg (s := s₂) hg)]
      exact ⟨_, rfl, rfl, rfl⟩
  · rw [bind_error (unregisterCallback_neg hf)]
    exact ⟨_, rfl, rfl, rfl⟩

/-- 例外は捕まえられ、`logical_device_agents` は変わらない。 -/
theorem handleRemoveLogicalDevice_keeps (id : String)
    (hm : ∀ r ∈ s.callbacks, r.method ≠ .portListUpdated) :
    (handleRemoveLogicalDevice id s).2.logicalDeviceAgents = s.logicalDeviceAgents ∧
      (handleRemoveLogicalDevice id s).2.logicalDevices = s.logicalDevices := by
  cases hl : s.logicalDeviceAgents.lookup id with
  | none => simp [handleRemoveLogicalDevice, bind_apply, hl]
  | some a =>
    obtain ⟨s', hstop, hagents, hdevices⟩ := stopLogicalDeviceAgent_error a hm
    have hrun : handleRemoveLogicalDevice id s = (.error .valueError, s') := by
      simp [handleRemoveLogicalDevice, bind_apply, hl, hstop]
    rw [hrun]
    exact ⟨hagents, hdevices⟩

/-! ## 不変条件が保たれること -/

section Grounded

variable {live live' stopped : List Nat} {callbacks callbacks' : List Registration} {fresh ref : Nat}

/-- node を一つ加え、新しい agent の callback を掛ける。 -/
theorem Grounded.attach (h : Grounded live callbacks stopped fresh)
    (hlive : live'.Perm (fresh :: live))
    (hnew : ∀ r ∈ callbacks', r.node ∈ live' ∧ r.agent = fresh + 1 ∧ r.method ≠ .portListUpdated) :
    Grounded live' (callbacks ++ callbacks') stopped (fresh + 1 + 1) := by
  have hbelow : ∀ n ∈ live', n < fresh + 1 := by
    intro n hn
    rcases List.mem_cons.mp (hlive.mem_iff.mp hn) with rfl | hn
    · exact Nat.lt_succ_self _
    · exact Nat.lt_succ_of_lt (h.nodesBelow n hn)
  have hfresh : fresh ∉ live := fun hn => Nat.lt_irrefl _ (h.nodesBelow _ hn)
  refine ⟨hlive.nodup_iff.mpr (List.nodup_cons.mpr ⟨hfresh, h.nodes⟩),
    fun n hn => Nat.lt_succ_of_lt (hbelow n hn), fun r hr => ?_,
    fun a ha => Nat.lt_succ_of_lt (Nat.lt_succ_of_lt (h.stoppedBelow a ha)), fun r hr hn => ?_,
    fun r hr => ?_⟩
  · rcases List.mem_append.mp hr with hr | hr
    · have := h.callbacksBelow r hr
      omega
    · have := hbelow _ (hnew r hr).1
      have := (hnew r hr).2.1
      omega
  · rcases List.mem_append.mp hr with hr | hr
    · -- 古い callback の node は、新しい node ではない
      rcases List.mem_cons.mp (hlive.mem_iff.mp hn) with he | hn
      · exact absurd (h.callbacksBelow r hr).1 (by omega)
      · exact h.detached r hr hn
    · intro hs
      have := h.stoppedBelow _ hs
      have := (hnew r hr).2.1
      omega
  · rcases List.mem_append.mp hr with hr | hr
    · exact h.method r hr
    · exact (hnew r hr).2.2

/-- agent を一つ止める。残る callback は、木から外れた node のものである。 -/
theorem Grounded.detach (h : Grounded live callbacks stopped fresh) (hlive : live'.Sublist live)
    (hsub : ∀ r ∈ callbacks', r ∈ callbacks) (href : ref < fresh)
    (hout : ∀ r ∈ callbacks', r.agent = ref → r.node ∉ live') :
    Grounded live' callbacks' (stopped ++ [ref]) fresh := by
  refine ⟨h.nodes.sublist hlive, fun n hn => h.nodesBelow n (hlive.subset hn),
    fun r hr => h.callbacksBelow r (hsub r hr), fun a ha => ?_, fun r hr hn hs => ?_,
    fun r hr => h.method r (hsub r hr)⟩
  · rcases List.mem_append.mp ha with ha | ha
    · exact h.stoppedBelow a ha
    · rw [List.mem_singleton.mp ha]
      exact href
  · rcases List.mem_append.mp hs with hs | hs
    · exact h.detached r (hsub r hr) (hlive.subset hn) hs
    · exact hout r hr (List.mem_singleton.mp hs) hn

end Grounded

theorem mem_of_resolve {α : Type} {children : List (String × α)} {id : String} {v : α}
    (h : resolve children id = some v) : ((partition id).1, v) ∈ children := by
  unfold resolve at h
  split at h
  · exact OrderedDict.mem_of_lookup h
  · cases h

/-- `/` の無い新しい id は、加えた node に行き着く。 -/
theorem resolve_append_self {α : Type} {children : List (String × α)} {id : String} {v w : α}
    (h : resolve (children ++ [(id, w)]) id = some v) (hid : (partition id).1 = id)
    (hnew : id ∉ children.map Prod.fst) : v = w := by
  unfold resolve at h
  split at h
  · have hnone : children.lookup id = none := by
      rw [← Option.not_isSome_iff_eq_none, OrderedDict.lookup_isSome]
      exact hnew
    rw [hid, List.lookup_append, hnone] at h
    simpa [eq_comm] using h
  · cases h

theorem mem_deviceCallbacks {r : Registration} {node ref : Nat}
    (h : r ∈ deviceCallbacks node ref) :
    r.node = node ∧ r.agent = ref ∧ r.method ≠ .portListUpdated := by
  simp only [deviceCallbacks, List.mem_cons, List.not_mem_nil, or_false] at h
  rcases h with rfl | rfl | rfl | rfl <;> simp

theorem mem_logicalDeviceCallbacks {r : Registration} {node ref : Nat}
    (h : r ∈ logicalDeviceCallbacks node ref) :
    r.node = node ∧ r.agent = ref ∧ r.method ≠ .portListUpdated := by
  simp only [logicalDeviceCallbacks, List.mem_cons, List.not_mem_nil, or_false] at h
  rcases h with rfl | rfl | rfl | rfl <;> simp

/-- 始まっている agent は、新しい agent の callback が加わっても変わらない。 -/
theorem AgentKept.attach {s' : System} {id : String} {a : Agent} {new : List Registration}
    (h : AgentKept s id a) (hc : s'.callbacks = s.callbacks ++ new)
    (hd : ∀ p ∈ s.devices, p ∈ s'.devices) (hf : s.fresh ≤ s'.fresh)
    (hnew : ∀ r ∈ new, s.fresh ≤ r.agent) : AgentKept s' id a := by
  refine ⟨?_, ?_, fun hid => hd _ (h.own hid), fun r hr ha => ?_, Nat.lt_of_lt_of_le h.below hf⟩
  · rw [hc]
    exact List.mem_append_left _ h.validate
  · rw [hc]
    exact List.mem_append_left _ h.process
  · rw [hc] at hr
    rcases List.mem_append.mp hr with hr | hr
    · exact h.home r hr ha
    · have := hnew r hr
      have := h.below
      omega

theorem Kept.addDevice (h : Kept s) {id : String} {node : Nat}
    (hid : id ∉ s.devices.map Prod.fst)
    (hr : resolve (s.devices ++ [(id, s.fresh)]) id = some node) :
    Kept { s with
      devices := s.devices ++ [(id, s.fresh)]
      callbacks := s.callbacks ++ deviceCallbacks node (s.fresh + 1)
      fresh := s.fresh + 1 + 1
      deviceAgents := OrderedDict.set s.deviceAgents id ⟨s.fresh + 1, id, node⟩ } := by
  have hno : id ∉ s.deviceAgents.map Prod.fst := fun hmem => hid ((h.devices id).mp hmem)
  have hmem := mem_of_resolve hr
  have hold : ∀ id' a, s.deviceAgents.lookup id' = some a → a.ref < s.fresh :=
    fun id' a hl => (h.agents id' a hl).below
  constructor
  · intro key
    show key ∈ (OrderedDict.set _ _ _).map Prod.fst ↔ _
    rw [OrderedDict.keys_set, if_neg hno, List.map_append, List.mem_append, List.mem_append,
      h.devices]
    rfl
  · exact h.logicalDevices
  · exact h.keys
  · refine h.ground.attach ?_ fun r hr => ?_
    · show ((s.devices ++ [(id, s.fresh)]).map Prod.snd ++ s.logicalDevices.map Prod.snd).Perm _
      rw [List.map_append, List.append_assoc]
      exact List.perm_middle
    · obtain ⟨hn, ha, hm⟩ := mem_deviceCallbacks hr
      refine ⟨List.mem_append_left _ ?_, ha, hm⟩
      rw [hn]
      exact List.mem_map.mpr ⟨_, hmem, rfl⟩
  · intro id' a hl
    change (OrderedDict.set _ _ _).lookup id' = some a at hl
    rw [OrderedDict.lookup_set] at hl
    split at hl
    · next he =>
      subst he
      cases hl
      refine ⟨?_, ?_, fun hown => ?_, fun r hr ha => ?_, Nat.lt_succ_self _⟩
      · exact List.mem_append_right _ (by simp [deviceCallbacks])
      · exact List.mem_append_right _ (by simp [deviceCallbacks])
      · rw [resolve_append_self hr hown hid]
        exact List.mem_append_right _ (List.mem_singleton.mpr rfl)
      · rcases List.mem_append.mp hr with hr | hr
        · have := (h.ground.callbacksBelow r hr).2
          change r.agent = s.fresh + 1 at ha
          omega
        · exact (mem_deviceCallbacks hr).1
    · refine (h.agents id' a hl).attach rfl (fun p hp => List.mem_append_left _ hp)
        (Nat.le_succ_of_le (Nat.le_succ _)) fun r hr => ?_
      rw [(mem_deviceCallbacks hr).2.1]
      exact Nat.le_succ _
  · intro id₁ id₂ a₁ a₂ h₁ h₂ href
    change (OrderedDict.set _ _ _).lookup _ = _ at h₁ h₂
    rw [OrderedDict.lookup_set] at h₁ h₂
    split at h₁ <;> split at h₂
    · next he₁ he₂ => rw [he₁, he₂]
    · have := hold _ _ h₂
      cases h₁
      change s.fresh + 1 = a₂.ref at href
      omega
    · have := hold _ _ h₁
      cases h₂
      change a₁.ref = s.fresh + 1 at href
      omega
    · exact h.apart _ _ _ _ h₁ h₂ href
  · obtain ⟨active, hw⟩ := h.wired
    refine ⟨active, hw.kept, hw.ids, hw.topic, hw.predicate, hw.running, fun x hx id' a hl => ?_,
      fun x hx => Nat.lt_succ_of_lt (Nat.lt_succ_of_lt (hw.below x hx))⟩
    change (OrderedDict.set _ _ _).lookup id' = some a at hl
    rw [OrderedDict.lookup_set] at hl
    split at hl
    · cases hl
      have := hw.below x hx
      show x.callback.ref ≠ s.fresh + 1
      omega
    · exact hw.apart x hx id' a hl

theorem partition_of_removedKey {path key : String} (h : removedKey path = some key) :
    (partition key).1 = key := by
  unfold removedKey at h
  split at h
  · cases h
    simp [partition, List.takeWhile_takeWhile]
  · cases h

/-- 消えた device の node は、もう木に無い。 -/
theorem Kept.node_removed (h : Kept s) {key : String} {node : Nat} (hmem : (key, node) ∈ s.devices) :
    node ∉ (OrderedDict.del s.devices key).map Prod.snd ++ s.logicalDevices.map Prod.snd := by
  obtain ⟨hnd, -, hdisj⟩ := List.nodup_append.mp h.ground.nodes
  intro hn
  rcases List.mem_append.mp hn with hn | hn
  · obtain ⟨p, hp, hnode⟩ := List.mem_map.mp hn
    obtain ⟨hp, hne⟩ := List.mem_filter.mp hp
    have heq : p = (key, node) := List.inj_on_of_nodup_map hnd hp hmem hnode
    rw [heq] at hne
    simp at hne
  · exact hdisj node (List.mem_map.mpr ⟨_, hmem, rfl⟩) node hn rfl

theorem Kept.removeDevice (h : Kept s) {key : String} {a : Agent} (hk : (partition key).1 = key)
    (hl : s.deviceAgents.lookup key = some a) :
    Kept { s with
      devices := OrderedDict.del s.devices key
      stopped := s.stopped ++ [a.ref]
      callbacks := (s.callbacks.erase ⟨a.node, .self, .preUpdate, a.ref, .validateUpdate⟩).erase
        ⟨a.node, .self, .postUpdate, a.ref, .processUpdate⟩
      deviceAgents := OrderedDict.del s.deviceAgents key } := by
  have ha := h.agents key a hl
  have hsub : ∀ r ∈ (s.callbacks.erase
      ⟨a.node, .self, .preUpdate, a.ref, .validateUpdate⟩).erase
        ⟨a.node, .self, .postUpdate, a.ref, .processUpdate⟩, r ∈ s.callbacks :=
    fun r hr => List.mem_of_mem_erase (List.mem_of_mem_erase hr)
  have hdel : ∀ id' a', (OrderedDict.del s.deviceAgents key).lookup id' = some a' →
      id' ≠ key ∧ s.deviceAgents.lookup id' = some a' := by
    intro id' a' hl'
    rw [OrderedDict.lookup_del] at hl'
    split at hl'
    · cases hl'
    · next hne => exact ⟨hne, hl'⟩
  constructor
  · intro id'
    rw [OrderedDict.mem_keys_del, OrderedDict.mem_keys_del, h.devices]
  · exact h.logicalDevices
  · exact h.keys
  · refine h.ground.detach ((List.filter_sublist.map _).append_right _) hsub ha.below ?_
    intro r hr href
    rw [ha.home r (hsub r hr) href]
    exact h.node_removed (ha.own hk)
  · intro id' a' hl'
    obtain ⟨hne, hl'⟩ := hdel id' a' hl'
    have ha' := h.agents id' a' hl'
    have href : a'.ref ≠ a.ref := fun he => hne (h.apart _ _ _ _ hl' hl he)
    refine ⟨?_, ?_, fun hown => ?_, fun r hr => ha'.home r (hsub r hr), ha'.below⟩
    · refine (List.mem_erase_of_ne ?_).mpr ((List.mem_erase_of_ne ?_).mpr ha'.validate) <;>
        simp [href]
    · refine (List.mem_erase_of_ne ?_).mpr ((List.mem_erase_of_ne ?_).mpr ha'.process) <;>
        simp [href]
    · exact List.mem_filter.mpr ⟨ha'.own hown, by simpa using hne⟩
  · intro id₁ id₂ a₁ a₂ h₁ h₂ href
    exact h.apart _ _ _ _ (hdel _ _ h₁).2 (hdel _ _ h₂).2 href
  · obtain ⟨active, hw⟩ := h.wired
    refine ⟨active, hw.kept, hw.ids, hw.topic, hw.predicate, fun x hx hs => ?_,
      fun x hx id' a' hl' => hw.apart x hx id' a' (hdel _ _ hl').2, hw.below⟩
    rcases List.mem_append.mp hs with hs | hs
    · exact hw.running x hx hs
    · exact hw.apart x hx key a hl (List.mem_singleton.mp hs)

theorem Kept.addLogicalDevice (h : Kept s) {id : String} {node : Nat}
    {x : Subscription PacketInMsg Agent} {bus : EventBus PacketInMsg Agent}
    (hid : id ∉ s.logicalDevices.map Prod.fst)
    (hr : resolve (s.logicalDevices ++ [(id, s.fresh)]) id = some node)
    (hs : s.bus.subscribe (.explicit ("packet-in:" ++ id)) ⟨s.fresh + 1, id, node⟩ none
      = .ok (x, bus)) :
    Kept { s with
      logicalDevices := s.logicalDevices ++ [(id, s.fresh)]
      callbacks := s.callbacks ++ logicalDeviceCallbacks node (s.fresh + 1)
      fresh := s.fresh + 1 + 1
      bus := bus
      logicalDeviceAgents := OrderedDict.set s.logicalDeviceAgents id
        ⟨s.fresh + 1, id, node⟩ } := by
  have hno : id ∉ s.logicalDeviceAgents.map Prod.fst :=
    fun hmem => hid ((h.logicalDevices id).mp hmem)
  have hmem := mem_of_resolve hr
  constructor
  · exact h.devices
  · intro key
    show key ∈ (OrderedDict.set _ _ _).map Prod.fst ↔ _
    rw [OrderedDict.keys_set, if_neg hno, List.map_append, List.mem_append, List.mem_append,
      h.logicalDevices]
    rfl
  · show ((s.logicalDevices ++ [(id, s.fresh)]).map Prod.fst).Nodup
    rw [List.map_append, List.map_singleton]
    refine List.nodup_append.mpr ⟨h.keys, List.nodup_singleton _, ?_⟩
    rintro key hkey key' hkey' rfl
    have heq : key = id := List.mem_singleton.mp hkey'
    exact hid (heq ▸ hkey)
  · refine h.ground.attach ?_ fun r hr => ?_
    · show (s.devices.map Prod.snd ++ (s.logicalDevices ++ [(id, s.fresh)]).map Prod.snd).Perm _
      rw [List.map_append, ← List.append_assoc]
      exact List.perm_append_singleton _ _
    · obtain ⟨hn, ha, hm⟩ := mem_logicalDeviceCallbacks hr
      refine ⟨List.mem_append_right _ ?_, ha, hm⟩
      rw [hn]
      exact List.mem_map.mpr ⟨_, hmem, rfl⟩
  · intro id' a hl
    refine (h.agents id' a hl).attach rfl (fun p hp => hp)
      (Nat.le_succ_of_le (Nat.le_succ _)) fun r hr => ?_
    rw [(mem_logicalDeviceCallbacks hr).2.1]
    exact Nat.le_succ _
  · exact h.apart
  · obtain ⟨active, hw⟩ := h.wired
    cases hs
    have hstopped : s.fresh + 1 ∉ s.stopped := by
      intro hstop
      have := h.ground.stoppedBelow _ hstop
      omega
    have hagents : ∀ id' a, s.deviceAgents.lookup id' = some a → s.fresh + 1 ≠ a.ref := by
      intro id' a hl
      have := (h.agents id' a hl).below
      omega
    refine ⟨_, hw.kept.subscribe (.explicit ("packet-in:" ++ id)) ⟨s.fresh + 1, id, node⟩ none,
      ?_, List.forall_mem_append.mpr ⟨hw.topic, List.forall_mem_singleton.mpr rfl⟩,
      List.forall_mem_append.mpr ⟨hw.predicate, List.forall_mem_singleton.mpr rfl⟩,
      List.forall_mem_append.mpr ⟨hw.running, List.forall_mem_singleton.mpr hstopped⟩,
      List.forall_mem_append.mpr ⟨hw.apart, List.forall_mem_singleton.mpr hagents⟩,
      List.forall_mem_append.mpr ⟨fun y hy => ?_, List.forall_mem_singleton.mpr ?_⟩⟩
    · rw [List.map_append, hw.ids, List.map_append]
      rfl
    · exact Nat.lt_succ_of_lt (Nat.lt_succ_of_lt (hw.below y hy))
    · exact Nat.lt_succ_self _

/-! ## 一歩 -/

section Step

variable {deviceTypes : List (String × String)} {adapters : List String}

/-- 条件を満たす一歩は不変条件を保ち、破る一歩の後は木を写していない。 -/
def Decides (deviceTypes : List (String × String)) (adapters : List String) (s : System)
    (e : TreeEvent) : Prop :=
  (Harmless deviceTypes adapters s e → Kept (step deviceTypes adapters s e)) ∧
    (¬Harmless deviceTypes adapters s e → ¬Mirrors (step deviceTypes adapters s e))

theorem Kept.decides_addDevice (h : Kept s) (device : NewDevice) (activates : Bool) :
    Decides deviceTypes adapters s (.addDevice device activates) := by
  simp only [Decides, step, Harmless]
  by_cases hid : device.id ∈ s.devices.map Prod.fst
  · rw [if_pos hid]
    exact ⟨fun _ => h, fun hno => absurd (fun hnew => absurd hid hnew) hno⟩
  · have hno : device.id ∉ s.deviceAgents.map Prod.fst :=
      fun hmem => hid ((h.devices _).mp hmem)
    rw [if_neg hid]
    rcases handleAddDevice_cases hno with ⟨node, hnode, hstarts, hs₂⟩ | ⟨hstarts, hagents, hdevices⟩
    · rw [hs₂]
      exact ⟨fun _ => h.addDevice hid hnode, fun hbad => absurd (fun _ => hstarts) hbad⟩
    · refine ⟨fun hok => absurd (hok hid) hstarts, fun _ hm => ?_⟩
      have hmem := (hm.devices device.id).mpr (by rw [hdevices]; simp)
      rw [hagents] at hmem
      exact hno hmem

theorem Kept.decides_removeDevice (h : Kept s) (path : String) :
    Decides deviceTypes adapters s (.removeDevice path) := by
  refine ⟨fun _ => ?_, fun hno => absurd trivial hno⟩
  simp only [step]
  cases hkey : removedKey path with
  | none => exact h
  | some key =>
    dsimp only
    by_cases hmem : key ∈ s.devices.map Prod.fst
    · obtain ⟨a, hl⟩ := Option.isSome_iff_exists.mp
        (OrderedDict.lookup_isSome.mpr ((h.devices key).mpr hmem))
      have ha := h.agents key a hl
      let s₁ : System := { s with devices := OrderedDict.del s.devices key }
      rw [if_pos hmem, handleRemoveDevice_apply (s := s₁) hl ha.validate ha.process]
      exact h.removeDevice (partition_of_removedKey hkey) hl
    · rw [if_neg hmem]
      exact h

theorem Kept.decides_addLogicalDevice (h : Kept s) (id : String) :
    Decides deviceTypes adapters s (.addLogicalDevice id) := by
  simp only [Decides, step, Harmless]
  by_cases hid : id ∈ s.logicalDevices.map Prod.fst
  · rw [if_pos hid]
    exact ⟨fun _ => h, fun hno => absurd (fun hnew => absurd hid hnew) hno⟩
  · have hno : id ∉ s.logicalDeviceAgents.map Prod.fst :=
      fun hmem => hid ((h.logicalDevices _).mp hmem)
    let s₁ : System :=
      { s with logicalDevices := s.logicalDevices ++ [(id, s.fresh)], fresh := s.fresh + 1 }
    rw [if_neg hid]
    cases hnode : resolve (s.logicalDevices ++ [(id, s.fresh)]) id with
    | some node =>
      obtain ⟨x, bus, hsub, hs₂⟩ := handleAddLogicalDevice_some (s := s₁) hno hnode
      rw [hs₂]
      exact ⟨fun _ => h.addLogicalDevice hid hnode hsub, fun hbad => absurd (fun _ => rfl) hbad⟩
    | none =>
      rw [handleAddLogicalDevice_none (s := s₁) hnode]
      refine ⟨fun hok => absurd (hok hid) (by simp), fun _ hm => ?_⟩
      exact hno ((hm.logicalDevices id).mpr (by simp [s₁]))

/-- 木にある logical device の削除は、止めた agent を `logical_device_agents` に残す。 -/
theorem Kept.decides_removeLogicalDevice (h : Kept s) (path : String) :
    Decides deviceTypes adapters s (.removeLogicalDevice path) := by
  simp only [Decides, step, Harmless]
  cases hkey : removedKey path with
  | none => exact ⟨fun _ => h, fun hno => absurd (by simp) hno⟩
  | some key =>
    dsimp only
    by_cases hmem : key ∈ s.logicalDevices.map Prod.fst
    · let s₁ : System := { s with logicalDevices := OrderedDict.del s.logicalDevices key }
      obtain ⟨hagents, hdevices⟩ := handleRemoveLogicalDevice_keeps (s := s₁) key h.ground.method
      rw [if_pos hmem]
      refine ⟨fun hok => absurd hmem (hok key rfl), fun _ hm => ?_⟩
      have hleft := (hm.logicalDevices key).mp (by
        rw [hagents]
        exact (h.logicalDevices key).mpr hmem)
      rw [hdevices] at hleft
      exact (OrderedDict.mem_keys_del.mp hleft).1 rfl
    · rw [if_neg hmem]
      refine ⟨fun _ => h, fun hno => absurd (fun k hk => ?_) hno⟩
      cases hk
      exact hmem

theorem Kept.decides (h : Kept s) (e : TreeEvent) : Decides deviceTypes adapters s e := by
  cases e with
  | addDevice device activates => exact h.decides_addDevice device activates
  | removeDevice path => exact h.decides_removeDevice path
  | addLogicalDevice id => exact h.decides_addLogicalDevice id
  | removeLogicalDevice path => exact h.decides_removeLogicalDevice path

end Step

/--
**agent が木を写し続ける条件。**

device の無い core に、どの順で device と logical device を加え、消しても、agent の表の key が木と
一致し、止めた agent が呼ばれず、packet-in がちょうど一度転送されるのは、
**新しく加える device と logical device の agent が始まり、木にある logical device を消さない** ときに限る。
-/
theorem agents_mirror_tree_iff (deviceTypes : List (String × String)) (adapters : List String)
    (l : List TreeEvent) :
    Steps.Always (step deviceTypes adapters) Mirrors System.initial l
      ↔ Steps.Each (step deviceTypes adapters) (Harmless deviceTypes adapters)
          System.initial l := by
  refine Steps.always_iff_each (A := fun _ => True) (I := Kept) (fun s e _ h _ => ?_)
    (fun _ _ => trivial) kept_initial kept_initial.mirrors
  obtain ⟨hkeep, hbreak⟩ := h.decides e
  exact ⟨⟨fun hm => by_contra fun hbad => hbreak hbad hm, fun hC => (hkeep hC).mirrors⟩, hkeep⟩

/--
logical device を加えて消し、また加える。

消した後も `logical_device_agents` に agent が残り、packet-in はその止めた agent が転送する。
加え直しても、新しい agent は作られない。
-/
theorem removed_logical_device_left :
    let run := List.foldl (step [] []) System.initial
    let removed := run [.addLogicalDevice "ld", .removeLogicalDevice "ld"]
    let again := run [.addLogicalDevice "ld", .removeLogicalDevice "ld", .addLogicalDevice "ld"]
    removed.logicalDevices = [] ∧ removed.logicalDeviceAgents = [("ld", ⟨1, "ld", 0⟩)] ∧
      removed.stopped = [1] ∧ (removed.forwarded "ld" (7, [])).length = 1 ∧
      again.logicalDeviceAgents = [("ld", ⟨1, "ld", 0⟩)] ∧
      ¬Steps.Always (step [] []) Mirrors System.initial
        [.addLogicalDevice "ld", .removeLogicalDevice "ld"] := by
  intro run removed again
  have hagents : removed.logicalDeviceAgents = [("ld", ⟨1, "ld", 0⟩)] := by decide
  have hdevices : removed.logicalDevices = [] := by decide
  refine ⟨hdevices, hagents, by decide, by decide, by decide, fun h => ?_⟩
  have hm : Mirrors removed := h.last
  have hmem := (hm.logicalDevices "ld").mp (by rw [hagents]; simp)
  rw [hdevices] at hmem
  cases hmem

end Voltha.Core.VolthaCore
