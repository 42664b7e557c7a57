import Mathlib.Data.List.Dedup
import Voltha.Lib.Exec
import Voltha.Lib.OrderedDict
import Voltha.Lib.Steps
import Voltha.Ofagent.Agent

/-!
# OpenFlow agent の connection manager

`ofagent/connection_mgr.py`。Voltha から得た logical device の一覧に合わせて、datapath ごとの agent と、
device の id から datapath の id への対応を保つ。

* 増減は **datapath の id だけ** で決める。id の組み合わせが変わっても気付かない
* `forward_packet_in` は対応を **真偽値として** 見るので、datapath の id が 0 の packet を捨てる

`Agent` はここでは id の組だけで、接続を保つ側は `Reconnect.Agent` である。poll の間には間が空き、その間に
`keep_connected` の最初の一回が済むので、`delete_agent` の `agent.stop()` は例外を投げない
（`stop_connection`）。
-/

namespace Voltha.Ofagent

open Exec

/-- 一覧の logical device のうち、manager が読む field。 -/
structure LogicalDevice where
  id : String
  datapathId : UInt64
deriving DecidableEq, Repr

/-- controller とつながる agent のうち、manager が読む field。接続の側は `connection`。 -/
structure Agent where
  datapathId : UInt64
  deviceId : String
deriving DecidableEq, Repr

/-- `ConnectionManager`。 -/
structure ConnectionManager where
  agentMap : List (UInt64 × Agent)
  deviceIdToDatapathIdMap : List (String × UInt64)
deriving DecidableEq, Repr

/-- 辞書に無い key。 -/
inductive ManagerError where
  | keyError
deriving DecidableEq, Repr

abbrev ManagerOp := Exec ConnectionManager ManagerError

/-- 起動したばかりの manager。 -/
def ConnectionManager.initial : ConnectionManager := ⟨[], []⟩

/-- `create_agent(device)`。 -/
def createAgent (device : LogicalDevice) : ManagerOp Unit := modify fun s =>
  { agentMap := OrderedDict.set s.agentMap device.datapathId ⟨device.datapathId, device.id⟩
    deviceIdToDatapathIdMap :=
      OrderedDict.set s.deviceIdToDatapathIdMap device.id device.datapathId }

/--
`create_agent` が作って `start` した agent の、controller への接続。次の poll までに、最初の
`keep_connected` と `events` が済む。
-/
def connection (controllerEndpoint : List Char) (events : List Reconnect.Event) :
    Reconnect.Agent :=
  (Reconnect.Event.start :: .keepConnected 0 :: events).foldl Reconnect.step
    (.init controllerEndpoint)

/-- `delete_agent` の中の `agent.stop()` は、endpoint が読めれば、いつ呼んでも例外を投げない。 -/
theorem stop_connection {controllerEndpoint : List Char}
    (h : (Reconnect.resolveEndpoint controllerEndpoint).isSome = true)
    (events : List Reconnect.Event) :
    (connection controllerEndpoint events).stop.raised = false := by
  obtain ⟨address, haddress⟩ := Option.isSome_iff_exists.mp h
  -- 最初の一回で `connector` ができる
  have hfirst : ([Reconnect.Event.start, .keepConnected 0].foldl Reconnect.step
      (.init controllerEndpoint)).connector = some 0 ∧
      ([Reconnect.Event.start, .keepConnected 0].foldl Reconnect.step
        (.init controllerEndpoint)).raised = false := by
    simp [Reconnect.step, Reconnect.Agent.start, Reconnect.Agent.init,
      Reconnect.Agent.keepConnected, haddress]
  obtain ⟨hc, hr⟩ := Reconnect.run_connector (Option.isSome_iff_exists.mpr ⟨0, hfirst.1⟩) events
  exact (Reconnect.step_connector hc .stop).2.trans (hr.trans hfirst.2)

/-- `delete_agent(datapath_id)`。 -/
def deleteAgent (datapathId : UInt64) : ManagerOp Unit := do
  let agent ← ofOption .keyError ((← read).agentMap.lookup datapathId)
  modify fun s => { s with agentMap := OrderedDict.del s.agentMap datapathId }
  let s ← read
  require ((s.deviceIdToDatapathIdMap.lookup agent.deviceId).isSome = true) .keyError
  modify fun s => { s with
    deviceIdToDatapathIdMap := OrderedDict.del s.deviceIdToDatapathIdMap agent.deviceId }

/-- `refresh_agent_connections(devices)`。消す順は集合の順で、結果には効かない。 -/
def refreshAgentConnections (devices : List LogicalDevice) : ManagerOp Unit := do
  let desired := devices.map LogicalDevice.datapathId
  let current := ((← read).agentMap.map Prod.fst).dedup
  if desired ⊆ current ∧ current ⊆ desired then pure ()
  else
    let _ ← mapList deleteAgent (current.filter fun k => k ∉ desired)
    let _ ← mapList createAgent (devices.filter fun d => d.datapathId ∉ current)
    pure ()

/-- `forward_packet_in(device_id, pkt)`。packet を渡した agent。 -/
def forwardPacketIn {Pkt : Type} (s : ConnectionManager) (deviceId : String) (pkt : Pkt) :
    Except ManagerError (Option (Agent × Pkt)) :=
  match s.deviceIdToDatapathIdMap.lookup deviceId with
  | none => .ok none
  | some datapathId =>
    -- `if datapath_id:`
    if datapathId = 0 then .ok none
    else
      match s.agentMap.lookup datapathId with
      | some agent => .ok (some (agent, pkt))
      | none => .error .keyError

/-! ## 一覧との一致 -/

/-- id も datapath の id も重ならない一覧。 -/
structure Distinct (devices : List LogicalDevice) : Prop where
  ids : (devices.map LogicalDevice.id).Nodup
  datapathIds : (devices.map LogicalDevice.datapathId).Nodup

variable {L M : List LogicalDevice}

theorem Distinct.eq_of_id (h : Distinct L) {x y : LogicalDevice} (hx : x ∈ L) (hy : y ∈ L)
    (he : x.id = y.id) : x = y :=
  List.inj_on_of_nodup_map h.ids hx hy he

theorem Distinct.eq_of_datapathId (h : Distinct L) {x y : LogicalDevice} (hx : x ∈ L) (hy : y ∈ L)
    (he : x.datapathId = y.datapathId) : x = y :=
  List.inj_on_of_nodup_map h.datapathIds hx hy he

theorem Distinct.sublist (h : Distinct L) (hsub : M.Sublist L) : Distinct M where
  ids := h.ids.sublist (hsub.map _)
  datapathIds := h.datapathIds.sublist (hsub.map _)

namespace ConnectionManager

/-- manager の二つの辞書が、一覧のとおりであること。 -/
structure Mirrors (s : ConnectionManager) (devices : List LogicalDevice) : Prop where
  agents : ∀ k a, s.agentMap.lookup k = some a ↔
    ∃ d ∈ devices, d.datapathId = k ∧ a = ⟨d.datapathId, d.id⟩
  deviceIds : ∀ i k, s.deviceIdToDatapathIdMap.lookup i = some k ↔
    ∃ d ∈ devices, d.id = i ∧ d.datapathId = k

/-- 一覧のどの device への packet も、その datapath の agent に渡る。 -/
def Forwards (s : ConnectionManager) (devices : List LogicalDevice) : Prop :=
  ∀ d ∈ devices, ∀ {Pkt : Type} (pkt : Pkt),
    ∃ a, s.agentMap.lookup d.datapathId = some a ∧
      forwardPacketIn s d.id pkt = .ok (some (a, pkt))

/-- 一覧を一つ受け取る。 -/
def step (s : ConnectionManager) (devices : List LogicalDevice) : ConnectionManager :=
  (refreshAgentConnections devices s).2

/-- 一覧を受け取った後、辞書は一覧のとおりで、packet も届く。 -/
def Follows (s : ConnectionManager) (devices : List LogicalDevice) : Prop :=
  (s.step devices).Mirrors devices ∧ (s.step devices).Forwards devices

/-- どの datapath の id も 0 でなく、既に agent があれば、その agent は同じ device のものである。 -/
def SamePairs (s : ConnectionManager) (devices : List LogicalDevice) : Prop :=
  ∀ d ∈ devices, d.datapathId ≠ 0 ∧
    ∀ a, s.agentMap.lookup d.datapathId = some a → a.deviceId = d.id

variable {s s' : ConnectionManager} {d : LogicalDevice}

theorem mirrors_initial : initial.Mirrors [] :=
  ⟨fun _ _ => by simp [initial], fun _ _ => by simp [initial]⟩

theorem Mirrors.congr (h : s.Mirrors L) (hmem : ∀ d, d ∈ L ↔ d ∈ M) : s.Mirrors M := by
  constructor
  · intro k a
    rw [h.agents]
    simp only [hmem]
  · intro i k
    rw [h.deviceIds]
    simp only [hmem]

theorem Mirrors.mem_current (h : s.Mirrors L) {k : UInt64} :
    k ∈ (s.agentMap.map Prod.fst).dedup ↔ ∃ d ∈ L, d.datapathId = k := by
  rw [List.mem_dedup, ← OrderedDict.lookup_isSome, Option.isSome_iff_exists]
  constructor
  · rintro ⟨a, ha⟩
    obtain ⟨d, hd, hk, -⟩ := (h.agents k a).mp ha
    exact ⟨d, hd, hk⟩
  · rintro ⟨d, hd, hk⟩
    exact ⟨_, (h.agents k _).mpr ⟨d, hd, hk, rfl⟩⟩

/-! ## 消す -/

/-- 一覧にある device の agent を消す。 -/
theorem Mirrors.deleteAgent (h : s.Mirrors L) (hL : Distinct L) (hd : d ∈ L) :
    ∃ s', Ofagent.deleteAgent d.datapathId s = (.ok (), s') ∧
      s'.Mirrors (L.filter fun x => x.datapathId ≠ d.datapathId) := by
  have ha : s.agentMap.lookup d.datapathId = some ⟨d.datapathId, d.id⟩ :=
    (h.agents _ _).mpr ⟨d, hd, rfl, rfl⟩
  have hi : s.deviceIdToDatapathIdMap.lookup d.id = some d.datapathId :=
    (h.deviceIds _ _).mpr ⟨d, hd, rfl, rfl⟩
  refine ⟨⟨OrderedDict.del s.agentMap d.datapathId,
    OrderedDict.del s.deviceIdToDatapathIdMap d.id⟩, ?_, ?_, ?_⟩
  · have hlisted : (s.deviceIdToDatapathIdMap.lookup d.id).isSome = true := by rw [hi]; rfl
    unfold Ofagent.deleteAgent
    rw [read_bind_apply, ha, ofOption_some, pure_bind_apply, modify_bind_apply, read_bind_apply]
    exact bind_ok (require_pos hlisted _)
  · intro k a
    rw [OrderedDict.lookup_del]
    simp only [List.mem_filter, decide_eq_true_eq]
    constructor
    · intro hk
      split at hk
      · cases hk
      · next hne =>
        obtain ⟨x, hx, rfl, rfl⟩ := (h.agents k a).mp hk
        exact ⟨x, ⟨hx, hne⟩, rfl, rfl⟩
    · rintro ⟨x, ⟨hx, hne⟩, rfl, rfl⟩
      rw [if_neg hne]
      exact (h.agents _ _).mpr ⟨x, hx, rfl, rfl⟩
  · intro i k
    rw [OrderedDict.lookup_del]
    simp only [List.mem_filter, decide_eq_true_eq]
    constructor
    · intro hk
      split at hk
      · cases hk
      · next hne =>
        obtain ⟨x, hx, rfl, rfl⟩ := (h.deviceIds i k).mp hk
        refine ⟨x, ⟨hx, fun he => hne ?_⟩, rfl, rfl⟩
        rw [hL.eq_of_datapathId hx hd he]
    · rintro ⟨x, ⟨hx, hne⟩, rfl, rfl⟩
      rw [if_neg fun he => hne (by rw [hL.eq_of_id hx hd he])]
      exact (h.deviceIds _ _).mpr ⟨x, hx, rfl, rfl⟩

/-- 要らない agent をすべて消す。 -/
theorem Mirrors.deleteAgents (hL : Distinct L) {ks : List UInt64} (hks : ks.Nodup)
    (hmem : ∀ k ∈ ks, ∃ d ∈ L, d.datapathId = k) (h : s.Mirrors L) :
    ∃ r s', mapList Ofagent.deleteAgent ks s = (.ok r, s') ∧
      s'.Mirrors (L.filter fun x => x.datapathId ∉ ks) := by
  induction ks generalizing s L with
  | nil => exact ⟨[], s, rfl, h.congr fun d => by simp⟩
  | cons k ks ih =>
    obtain ⟨hk, hnd⟩ := List.nodup_cons.mp hks
    obtain ⟨d, hd, rfl⟩ := hmem _ List.mem_cons_self
    obtain ⟨s₁, he, h₁⟩ := h.deleteAgent hL hd
    have hmem₁ : ∀ k ∈ ks, ∃ x ∈ L.filter (fun x => x.datapathId ≠ d.datapathId),
        x.datapathId = k := by
      intro k hkin
      obtain ⟨x, hx, rfl⟩ := hmem k (List.mem_cons_of_mem _ hkin)
      exact ⟨x, List.mem_filter.mpr ⟨hx, decide_eq_true fun he => hk (he ▸ hkin)⟩, rfl⟩
    obtain ⟨r, s', he', h'⟩ := ih (hL.sublist List.filter_sublist) hnd hmem₁ h₁
    refine ⟨() :: r, s', ?_, h'.congr fun x => ?_⟩
    · rw [mapList, bind_ok he, bind_ok he']
      rfl
    · simp only [List.mem_filter, decide_eq_true_eq, List.mem_cons, not_or]
      tauto

/-! ## 作る -/

/-- 一覧に無い device の agent を作る。 -/
theorem Mirrors.createAgent (h : s.Mirrors L) (hid : ∀ x ∈ L, x.id ≠ d.id)
    (hdp : ∀ x ∈ L, x.datapathId ≠ d.datapathId) :
    ((Ofagent.createAgent d s).2).Mirrors (L ++ [d]) := by
  constructor
  · intro k a
    show (OrderedDict.set s.agentMap _ _).lookup k = some a ↔ _
    rw [OrderedDict.lookup_set]
    simp only [List.mem_append, List.mem_singleton]
    by_cases hk : k = d.datapathId
    · rw [if_pos hk, Option.some.injEq]
      constructor
      · rintro rfl
        exact ⟨d, Or.inr rfl, hk.symm, rfl⟩
      · rintro ⟨x, hx | rfl, hxk, rfl⟩
        · exact absurd (hxk.trans hk) (hdp x hx)
        · rfl
    · rw [if_neg hk, h.agents]
      constructor
      · rintro ⟨x, hx, hxk⟩
        exact ⟨x, Or.inl hx, hxk⟩
      · rintro ⟨x, hx | rfl, hxk, ha⟩
        · exact ⟨x, hx, hxk, ha⟩
        · exact absurd hxk.symm hk
  · intro i k
    show (OrderedDict.set s.deviceIdToDatapathIdMap _ _).lookup i = some k ↔ _
    rw [OrderedDict.lookup_set]
    simp only [List.mem_append, List.mem_singleton]
    by_cases hi : i = d.id
    · rw [if_pos hi, Option.some.injEq]
      constructor
      · rintro rfl
        exact ⟨d, Or.inr rfl, hi.symm, rfl⟩
      · rintro ⟨x, hx | rfl, hxi, hxk⟩
        · exact absurd (hxi.trans hi) (hid x hx)
        · exact hxk
    · rw [if_neg hi, h.deviceIds]
      constructor
      · rintro ⟨x, hx, hxi⟩
        exact ⟨x, Or.inl hx, hxi⟩
      · rintro ⟨x, hx | rfl, hxi, hxk⟩
        · exact ⟨x, hx, hxi, hxk⟩
        · exact absurd hxi.symm hi

/-- 新しい agent をすべて作る。 -/
theorem Mirrors.createAgents {N : List LogicalDevice} (hN : Distinct (L ++ N))
    (h : s.Mirrors L) :
    ∃ r s', mapList Ofagent.createAgent N s = (.ok r, s') ∧ s'.Mirrors (L ++ N) := by
  induction N generalizing s L with
  | nil => exact ⟨[], s, rfl, by rw [List.append_nil]; exact h⟩
  | cons d N ih =>
    have hapart : ∀ x ∈ L, x.id ≠ d.id ∧ x.datapathId ≠ d.datapathId := by
      intro x hx
      have hids := hN.ids
      have hdps := hN.datapathIds
      rw [List.map_append, List.nodup_append] at hids hdps
      exact ⟨hids.2.2 _ (List.mem_map_of_mem hx) _ List.mem_cons_self,
        hdps.2.2 _ (List.mem_map_of_mem hx) _ List.mem_cons_self⟩
    have h₁ := h.createAgent (fun x hx => (hapart x hx).1) fun x hx => (hapart x hx).2
    have hassoc : L ++ [d] ++ N = L ++ d :: N := by simp
    obtain ⟨r, s', he, h'⟩ := ih (hassoc ▸ hN) h₁
    refine ⟨() :: r, s', ?_, hassoc ▸ h'⟩
    have hstep : Ofagent.createAgent d s = (.ok (), (Ofagent.createAgent d s).2) := rfl
    rw [mapList, bind_ok hstep, bind_ok he]
    rfl

/-! ## 一覧を受け取る -/

/-- 条件が成り立てば、残る agent はちょうど一覧にあるものである。 -/
theorem Mirrors.mem_kept (h : s.Mirrors L) (hC : s.SamePairs M) {x : LogicalDevice} (hx : x ∈ L)
    (hk : x.datapathId ∈ M.map LogicalDevice.datapathId) : x ∈ M := by
  obtain ⟨d, hd, hdp⟩ := List.mem_map.mp hk
  have ha : s.agentMap.lookup d.datapathId = some ⟨x.datapathId, x.id⟩ :=
    (h.agents _ _).mpr ⟨x, hx, hdp.symm, rfl⟩
  have hid : x.id = d.id := (hC d hd).2 _ ha
  have he : x = d := by
    cases x
    cases d
    simp_all
  exact he ▸ hd

/-- 条件が成り立てば、一覧のとおりになる。 -/
theorem Mirrors.refresh (h : s.Mirrors L) (hL : Distinct L) (hM : Distinct M)
    (hC : s.SamePairs M) : (s.step M).Mirrors M := by
  unfold step refreshAgentConnections
  rw [read_bind_apply]
  have hcur : ∀ k, k ∈ (s.agentMap.map Prod.fst).dedup ↔ ∃ d ∈ L, d.datapathId = k :=
    fun k => h.mem_current
  split
  · next hsame =>
    -- datapath の id が同じなら、組み合わせも同じ
    refine h.congr fun x => ⟨fun hx => ?_, fun hx => ?_⟩
    · exact h.mem_kept hC hx (hsame.2 ((hcur _).mpr ⟨x, hx, rfl⟩))
    · obtain ⟨y, hy, hdp⟩ := (hcur _).mp (hsame.1 (List.mem_map_of_mem hx))
      have hyM := h.mem_kept hC hy (hdp ▸ List.mem_map_of_mem hx)
      exact hM.eq_of_datapathId hyM hx hdp ▸ hy
  · obtain ⟨r, s₁, he₁, h₁⟩ := h.deleteAgents hL
      (((List.nodup_dedup (s.agentMap.map Prod.fst))).filter
        fun k => k ∉ M.map LogicalDevice.datapathId)
      fun k hk => (hcur k).mp (List.mem_filter.mp hk).1
    -- 残ったものと、これから作るもの
    have hkept : ∀ x, x ∈ L.filter (fun x => x.datapathId ∉
        (s.agentMap.map Prod.fst).dedup.filter fun k => k ∉ M.map LogicalDevice.datapathId)
        ↔ x ∈ M.filter fun d => d.datapathId ∈ (s.agentMap.map Prod.fst).dedup := by
      intro x
      simp only [List.mem_filter, decide_eq_true_eq, not_and, not_not]
      constructor
      · rintro ⟨hx, hin⟩
        have hc := (hcur _).mpr ⟨x, hx, rfl⟩
        exact ⟨h.mem_kept hC hx (hin hc), hc⟩
      · rintro ⟨hx, hc⟩
        obtain ⟨y, hy, hdp⟩ := (hcur _).mp hc
        have hyM := h.mem_kept hC hy (hdp ▸ List.mem_map_of_mem hx)
        obtain rfl := hM.eq_of_datapathId hyM hx hdp
        exact ⟨hy, fun _ => List.mem_map_of_mem hx⟩
    have hperm : (M.filter (fun d => d.datapathId ∈ (s.agentMap.map Prod.fst).dedup) ++
        M.filter fun d => d.datapathId ∉ (s.agentMap.map Prod.fst).dedup).Perm M := by
      simpa using List.filter_append_perm
        (fun d : LogicalDevice => decide (d.datapathId ∈ (s.agentMap.map Prod.fst).dedup)) M
    have hdist : Distinct (M.filter (fun d => d.datapathId ∈ (s.agentMap.map Prod.fst).dedup) ++
        M.filter fun d => d.datapathId ∉ (s.agentMap.map Prod.fst).dedup) :=
      ⟨((hperm.map _).nodup_iff).mpr hM.ids, ((hperm.map _).nodup_iff).mpr hM.datapathIds⟩
    obtain ⟨r', s₂, he₂, h₂⟩ := (h₁.congr hkept).createAgents hdist
    rw [bind_ok he₁, bind_ok he₂]
    exact h₂.congr fun x => hperm.mem_iff

/-- どの一覧でも、両方にある datapath の agent はそのまま残る。 -/
theorem step_agent {k : UInt64} (hM : k ∈ M.map LogicalDevice.datapathId)
    (hcur : k ∈ (s.agentMap.map Prod.fst).dedup) :
    (s.step M).agentMap.lookup k = s.agentMap.lookup k := by
  unfold step refreshAgentConnections
  rw [read_bind_apply]
  split
  · rfl
  · have hkeep : ∀ k' ∈ (s.agentMap.map Prod.fst).dedup.filter
        (fun k => k ∉ M.map LogicalDevice.datapathId),
        Keeps (Unchanged fun s : ConnectionManager => s.agentMap.lookup k)
          (Ofagent.deleteAgent k') := by
      intro k' hk'
      have hne : k ≠ k' := fun he => of_decide_eq_true (List.mem_filter.mp hk').2 (he ▸ hM)
      refine Keeps.read.bind fun s => (Keeps.ofOption _ _).bind fun a => ?_
      refine Keeps.bind (fun s => ?_) fun _ => ?_
      · show (OrderedDict.del s.agentMap k').lookup k = _
        rw [OrderedDict.lookup_del, if_neg hne]
      · exact Keeps.read.bind fun s => (Keeps.require _ _).bind fun _ => fun s => rfl
    have hadd : ∀ d ∈ M.filter (fun d => d.datapathId ∉ (s.agentMap.map Prod.fst).dedup),
        Keeps (Unchanged fun s : ConnectionManager => s.agentMap.lookup k)
          (Ofagent.createAgent d) := by
      intro d hd s'
      have hne : k ≠ d.datapathId :=
        fun he => of_decide_eq_true (List.mem_filter.mp hd).2 (he ▸ hcur)
      show (OrderedDict.set s'.agentMap d.datapathId _).lookup k = _
      rw [OrderedDict.lookup_set, if_neg hne]
    exact ((Keeps.mapList_of_mem _ hkeep).bind fun _ =>
      (Keeps.mapList_of_mem _ hadd).bind fun _ => Keeps.pure _) s

/-- 一覧のとおりなら、packet が届くのは datapath の id が 0 でないときに限る。 -/
theorem Mirrors.forwards_iff (h : s.Mirrors M) :
    s.Forwards M ↔ ∀ d ∈ M, d.datapathId ≠ 0 := by
  have hi : ∀ d ∈ M, s.deviceIdToDatapathIdMap.lookup d.id = some d.datapathId :=
    fun d hd => (h.deviceIds _ _).mpr ⟨d, hd, rfl, rfl⟩
  have ha : ∀ d ∈ M, s.agentMap.lookup d.datapathId = some ⟨d.datapathId, d.id⟩ :=
    fun d hd => (h.agents _ _).mpr ⟨d, hd, rfl, rfl⟩
  constructor
  · intro hf d hd hzero
    obtain ⟨a, -, hfwd⟩ := hf d hd ()
    simp [forwardPacketIn, hi d hd, hzero] at hfwd
  · intro hne d hd Pkt pkt
    exact ⟨_, ha d hd, by simp [forwardPacketIn, hi d hd, hne d hd, ha d hd]⟩

/-- 一覧を一つ受け取る間の、性質と条件の同値。 -/
theorem Mirrors.follows_iff (h : s.Mirrors L) (hL : Distinct L) (hM : Distinct M) :
    s.Follows M ↔ s.SamePairs M := by
  constructor
  · rintro ⟨hmir, hfwd⟩ d hd
    refine ⟨hmir.forwards_iff.mp hfwd d hd, fun a ha => ?_⟩
    have hcur : d.datapathId ∈ (s.agentMap.map Prod.fst).dedup := by
      rw [List.mem_dedup, ← OrderedDict.lookup_isSome, ha]
      rfl
    -- 残った agent が一覧の id を持つなら、初めから持っている
    have hnew : (s.step M).agentMap.lookup d.datapathId = some ⟨d.datapathId, d.id⟩ :=
      (hmir.agents _ _).mpr ⟨d, hd, rfl, rfl⟩
    rw [step_agent (List.mem_map_of_mem hd) hcur, ha, Option.some.injEq] at hnew
    rw [hnew]
  · intro hC
    have hmir := h.refresh hL hM hC
    exact ⟨hmir, hmir.forwards_iff.mpr fun d hd => (hC d hd).1⟩

end ConnectionManager

/--
**device の対応が一覧に従う条件。**

重なりの無い一覧をどの順で受け取っても、その度に agent と対応が一覧のとおりになり、packet が届くのは、
**一覧の datapath の id が 0 でなく、既に agent のある datapath はその agent の device のままである**
ときに限る。
-/
theorem agents_follow_list_iff (l : List (List LogicalDevice)) (hl : ∀ M ∈ l, Distinct M) :
    Steps.Each ConnectionManager.step ConnectionManager.Follows ConnectionManager.initial l
      ↔ Steps.Each ConnectionManager.step ConnectionManager.SamePairs
        ConnectionManager.initial l := by
  refine Steps.each_iff_each (I := fun s => ∃ L, Distinct L ∧ s.Mirrors L) (A := Distinct)
    (fun s M hM hI => ?_) hl ⟨[], ⟨List.nodup_nil, List.nodup_nil⟩,
      ConnectionManager.mirrors_initial⟩
  obtain ⟨L, hL, h⟩ := hI
  have hiff := h.follows_iff hL hM
  exact ⟨hiff, fun hC => ⟨M, hM, (hiff.mpr hC).1⟩⟩

/-- 一つの device が消え、もう一つが別の datapath で現れる。 -/
theorem agents_follow_list_iff_moved :
    Steps.Each ConnectionManager.step ConnectionManager.Follows ConnectionManager.initial
      [[⟨"a", 1⟩, ⟨"b", 2⟩], [⟨"b", 2⟩, ⟨"a", 3⟩]] := by
  have hl : ∀ M ∈ [[(⟨"a", 1⟩ : LogicalDevice), ⟨"b", 2⟩], [⟨"b", 2⟩, ⟨"a", 3⟩]], Distinct M := by
    intro M hM
    simp only [List.mem_cons, List.not_mem_nil, or_false] at hM
    rcases hM with rfl | rfl
    · exact ⟨by decide, by decide⟩
    · exact ⟨by decide, by decide⟩
  refine (agents_follow_list_iff _ hl).mpr ⟨?_, ?_, trivial⟩
  · intro d hd
    exact ⟨by revert d; decide, fun a ha => by cases ha⟩
  · intro d hd
    simp only [List.mem_cons, List.not_mem_nil, or_false] at hd
    rcases hd with rfl | rfl
    · refine ⟨by decide, fun a ha => ?_⟩
      have hb : (ConnectionManager.initial.step [⟨"a", 1⟩, ⟨"b", 2⟩]).agentMap.lookup 2
          = some ⟨2, "b"⟩ := by decide
      rw [hb] at ha
      cases ha
      rfl
    · refine ⟨by decide, fun a ha => ?_⟩
      have hnone : (ConnectionManager.initial.step [⟨"a", 1⟩, ⟨"b", 2⟩]).agentMap.lookup 3
          = none := by decide
      rw [hnone] at ha
      cases ha

/-- 二つの device の datapath が入れ替わっても、agent は元の device のまま残る。id 0 への packet は消える。 -/
theorem repaired_ids_go_unnoticed :
    let s := [[(⟨"a", 1⟩ : LogicalDevice), ⟨"b", 2⟩], [⟨"a", 2⟩, ⟨"b", 1⟩]].foldl
      ConnectionManager.step ConnectionManager.initial
    let s₀ := ConnectionManager.initial.step [⟨"c", 0⟩]
    s.agentMap.lookup 1 = some ⟨1, "a"⟩ ∧
      s.deviceIdToDatapathIdMap.lookup "a" = some 1 ∧
      s₀.agentMap.lookup 0 = some ⟨0, "c"⟩ ∧ forwardPacketIn s₀ "c" () = .ok none ∧
      ¬Steps.Each ConnectionManager.step ConnectionManager.Follows ConnectionManager.initial
        [[⟨"a", 1⟩, ⟨"b", 2⟩], [⟨"a", 2⟩, ⟨"b", 1⟩]] := by
  refine ⟨by decide, by decide, by decide, rfl, ?_⟩
  rintro ⟨-, ⟨hmir, -⟩, -⟩
  have hnew := (hmir.deviceIds "a" 2).mpr ⟨⟨"a", 2⟩, List.mem_cons_self, rfl, rfl⟩
  exact absurd hnew (by decide)

end Voltha.Ofagent
