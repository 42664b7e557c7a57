import Voltha.Core.Properties.Discovery

/-!
# PON の木の経路

OLT が一つと、その PON port につながる ONU が並ぶ logical device。graph は木で、端の port の間の道は
一通りしかない。

* NNI と UNI の間の道は node が六つで、経路になる
* UNI どうしの間の道は node が七つで、3 の倍数でないので捨てられる

`shortestPath` には、最短の道のどれかを返すことだけを求める。
-/

namespace Voltha.Core

open Voltha.Flow Fallible

variable {R : Type}

/-! ## PON の木 -/

/-- ONU。`portNo` は UNI の logical port の番号。 -/
structure Onu (R : Type) where
  device : Device R
  pon : Port
  uni : Port
  portNo : UInt32

namespace Onu

def key (o : Onu R) : NodeKey := .device o.device.id

def ponKey (o : Onu R) : NodeKey := .port o.device.id o.pon.portNo

def uniKey (o : Onu R) : NodeKey := .port o.device.id o.uni.portNo

end Onu

/-- OLT と ONU。`portNo` は NNI の logical port の番号。 -/
structure PonTree (R : Type) where
  olt : Device R
  nni : Port
  pon : Port
  portNo : UInt32
  onus : List (Onu R)

/-- 端の port。 -/
inductive End (R : Type) where
  | nni
  | uni (o : Onu R)

namespace PonTree

variable (T : PonTree R)

def key : NodeKey := .device T.olt.id

def nniKey : NodeKey := .port T.olt.id T.nni.portNo

def ponKey : NodeKey := .port T.olt.id T.pon.portNo

def ends : List (End R) := .nni :: T.onus.map .uni

/-- 端の port の node と、logical port の番号。 -/
def boundary : End R → NodeKey × UInt32
  | .nni => (T.nniKey, T.portNo)
  | .uni o => (o.uniKey, o.portNo)

/-- NNI から UNI への道の node。 -/
def trunk (o : Onu R) : List NodeKey :=
  [T.nniKey, T.key, T.ponKey, o.ponKey, o.key, o.uniKey]

/-- NNI から UNI への経路。 -/
def down (o : Onu R) : (UInt32 × UInt32) × (RouteHop R × RouteHop R) :=
  ((T.portNo, o.portNo), (⟨T.olt, T.nni, T.pon⟩, ⟨o.device, o.pon, o.uni⟩))

/-- UNI から NNI への経路。 -/
def up (o : Onu R) : (UInt32 × UInt32) × (RouteHop R × RouteHop R) :=
  ((o.portNo, T.portNo), (⟨o.device, o.uni, o.pon⟩, ⟨T.olt, T.pon, T.nni⟩))

/-- 端の組の経路。 -/
def route : End R → End R → Option ((UInt32 × UInt32) × (RouteHop R × RouteHop R))
  | .nni, .uni o => some (T.down o)
  | .uni o, .nni => some (T.up o)
  | _, _ => none

/-- `T` の device と port と logical port が、何かの順に並ぶ木。 -/
structure Describes (t : Topology R) : Prop where
  olt : t.device T.olt.id = .ok T.olt
  oltPorts : ∃ ps, t.ports T.olt.id = .ok ps ∧ ps.Perm [T.nni, T.pon]
  onu : ∀ o ∈ T.onus, t.device o.device.id = .ok o.device
  onuPorts : ∀ o ∈ T.onus, ∃ ps, t.ports o.device.id = .ok ps ∧ ps.Perm [o.pon, o.uni]
  nniPeers : T.nni.peers = []
  ponPeers : T.pon.peers.Perm (T.onus.map fun o => ⟨o.device.id, o.pon.portNo⟩)
  onuPonPeers : ∀ o ∈ T.onus, o.pon.peers = [⟨T.olt.id, T.pon.portNo⟩]
  uniPeers : ∀ o ∈ T.onus, o.uni.peers = []
  logicalPorts : (t.logicalPorts.map fun lp =>
    (NodeKey.port lp.deviceId lp.devicePortNo, lp.ofpPortNo)).Perm (T.ends.map T.boundary)
  ids : (T.olt.id :: T.onus.map fun o => o.device.id).Nodup
  oltPortNo : T.nni.portNo ≠ T.pon.portNo
  onuPortNo : ∀ o ∈ T.onus, o.pon.portNo ≠ o.uni.portNo
  portNos : (T.ends.map fun e => (T.boundary e).2).Nodup

/-- 木の辺。 -/
inductive Edge : NodeKey → NodeKey → Prop where
  | nni : Edge T.key T.nniKey
  | pon : Edge T.key T.ponKey
  | onuPon {o : Onu R} (ho : o ∈ T.onus) : Edge o.key o.ponKey
  | uni {o : Onu R} (ho : o ∈ T.onus) : Edge o.key o.uniKey
  | fiber {o : Onu R} (ho : o ∈ T.onus) : Edge T.ponKey o.ponKey

end PonTree

namespace PonTree.Describes

variable {T : PonTree R} {t : Topology R} {g : Graph R} {o o' : Onu R}

/-! ## 木の port と device -/

theorem olt_ne (h : T.Describes t) (ho : o ∈ T.onus) : o.device.id ≠ T.olt.id := by
  intro he
  exact (List.nodup_cons.mp h.ids).1 (List.mem_map.mpr ⟨o, ho, he⟩)

theorem onu_inj (h : T.Describes t) (ho : o ∈ T.onus) (ho' : o' ∈ T.onus)
    (he : o.device.id = o'.device.id) : o = o' :=
  List.inj_on_of_nodup_map (List.nodup_cons.mp h.ids).2 ho ho' he

theorem hasPort_olt (h : T.Describes t) {p : Port} :
    t.HasPort T.olt.id p ↔ p = T.nni ∨ p = T.pon := by
  obtain ⟨ps, hps, hperm⟩ := h.oltPorts
  simp [Topology.HasPort, hps, hperm.mem_iff]

theorem hasPort_onu (h : T.Describes t) (ho : o ∈ T.onus) {p : Port} :
    t.HasPort o.device.id p ↔ p = o.pon ∨ p = o.uni := by
  obtain ⟨ps, hps, hperm⟩ := h.onuPorts o ho
  simp [Topology.HasPort, hps, hperm.mem_iff]

theorem mem_ponPeers (h : T.Describes t) {peer : PeerPort} :
    peer ∈ T.pon.peers ↔ ∃ o ∈ T.onus, peer = ⟨o.device.id, o.pon.portNo⟩ := by
  rw [h.ponPeers.mem_iff, List.mem_map]
  simp only [eq_comm]

/-- logical port の device は、OLT と ONU である。 -/
theorem logicalPort_device (h : T.Describes t) (id : String) :
    (∃ lp ∈ t.logicalPorts, lp.deviceId = id) ↔ id = T.olt.id ∨ ∃ o ∈ T.onus, id = o.device.id := by
  have hmem : (∃ lp ∈ t.logicalPorts, lp.deviceId = id) ↔
      ∃ e ∈ t.logicalPorts.map fun lp => (NodeKey.port lp.deviceId lp.devicePortNo, lp.ofpPortNo),
        ∃ n, e.1 = .port id n := by
    constructor
    · rintro ⟨lp, hlp, rfl⟩
      exact ⟨_, List.mem_map.mpr ⟨lp, hlp, rfl⟩, lp.devicePortNo, rfl⟩
    · rintro ⟨e, he, n, hn⟩
      obtain ⟨lp, hlp, rfl⟩ := List.mem_map.mp he
      cases hn
      exact ⟨lp, hlp, rfl⟩
  rw [hmem]
  simp only [h.logicalPorts.mem_iff, ends, List.map_cons, List.map_map, List.mem_cons,
    exists_eq_or_imp, List.mem_map, Function.comp_apply, boundary, nniKey, Onu.uniKey,
    NodeKey.port.injEq, exists_exists_and_eq_and, exists_and_left, exists_eq', and_true]
  simp only [eq_comm]

theorem next_mem (h : T.Describes t) {id id' : String}
    (hid : id = T.olt.id ∨ ∃ o ∈ T.onus, id = o.device.id) (hn : t.Next id id') :
    id' = T.olt.id ∨ ∃ o ∈ T.onus, id' = o.device.id := by
  obtain ⟨p, hp, peer, hpeer, rfl⟩ := hn
  rcases hid with rfl | ⟨o, ho, rfl⟩
  · rcases h.hasPort_olt.mp hp with rfl | rfl
    · simp [h.nniPeers] at hpeer
    · obtain ⟨o, ho, rfl⟩ := h.mem_ponPeers.mp hpeer
      exact Or.inr ⟨o, ho, rfl⟩
  · rcases (h.hasPort_onu ho).mp hp with rfl | rfl
    · rw [h.onuPonPeers o ho, List.mem_singleton] at hpeer
      exact Or.inl (by rw [hpeer])
    · simp [h.uniPeers o ho] at hpeer

theorem reachable_iff (h : T.Describes t) (id : String) :
    t.Reachable id ↔ id = T.olt.id ∨ ∃ o ∈ T.onus, id = o.device.id := by
  constructor
  · rintro ⟨lp, hlp, hpath⟩
    induction hpath with
    | refl => exact (h.logicalPort_device _).mp ⟨lp, hlp, rfl⟩
    | tail _ hn ih => exact h.next_mem ih hn
  · intro hid
    obtain ⟨lp, hlp, rfl⟩ := (h.logicalPort_device id).mpr hid
    exact ⟨lp, hlp, .refl⟩

theorem peers_mutual (h : T.Describes t) : t.Mutual := by
  intro id p hid hp peer hpeer
  rcases (h.reachable_iff id).mp hid with rfl | ⟨o, ho, rfl⟩
  · rcases h.hasPort_olt.mp hp with rfl | rfl
    · simp [h.nniPeers] at hpeer
    · obtain ⟨o, ho, rfl⟩ := h.mem_ponPeers.mp hpeer
      exact ⟨o.pon, (h.hasPort_onu ho).mpr (Or.inl rfl), rfl, by simp [h.onuPonPeers o ho]⟩
  · rcases (h.hasPort_onu ho).mp hp with rfl | rfl
    · rw [h.onuPonPeers o ho, List.mem_singleton] at hpeer
      subst hpeer
      exact ⟨T.pon, h.hasPort_olt.mpr (Or.inr rfl), rfl, h.mem_ponPeers.mpr ⟨o, ho, rfl⟩⟩
    · simp [h.uniPeers o ho] at hpeer

theorem grounded (h : T.Describes t) : t.Grounded := by
  intro lp hlp
  rcases (h.logicalPort_device _).mp ⟨lp, hlp, rfl⟩ with hid | ⟨o, ho, hid⟩
  · exact ⟨T.olt, by rw [hid, h.olt]⟩
  · exact ⟨o.device, by rw [hid, h.onu o ho]⟩

/-! ## graph の辺 -/

theorem edge_of_link (h : T.Describes t) {u v : NodeKey} (huv : t.Link u v) :
    T.Edge u v ∨ T.Edge v u := by
  cases huv with
  | owns hr hp =>
    rcases (h.reachable_iff _).mp hr with rfl | ⟨o, ho, rfl⟩
    · rcases h.hasPort_olt.mp hp with rfl | rfl
      · exact Or.inl .nni
      · exact Or.inl .pon
    · rcases (h.hasPort_onu ho).mp hp with rfl | rfl
      · exact Or.inl (.onuPon ho)
      · exact Or.inl (.uni ho)
  | peered hr hp hpeer =>
    rcases (h.reachable_iff _).mp hr with rfl | ⟨o, ho, rfl⟩
    · rcases h.hasPort_olt.mp hp with rfl | rfl
      · simp [h.nniPeers] at hpeer
      · obtain ⟨o, ho, rfl⟩ := h.mem_ponPeers.mp hpeer
        exact Or.inl (.fiber ho)
    · rcases (h.hasPort_onu ho).mp hp with rfl | rfl
      · rw [h.onuPonPeers o ho, List.mem_singleton] at hpeer
        subst hpeer
        exact Or.inr (.fiber ho)
      · simp [h.uniPeers o ho] at hpeer

theorem link_of_edge (h : T.Describes t) {u v : NodeKey} (huv : T.Edge u v) : t.Link u v := by
  have holt := (h.reachable_iff T.olt.id).mpr (Or.inl rfl)
  have honu : ∀ {o}, o ∈ T.onus → t.Reachable o.device.id := fun ho =>
    (h.reachable_iff _).mpr (Or.inr ⟨_, ho, rfl⟩)
  cases huv with
  | nni => exact .owns holt (h.hasPort_olt.mpr (Or.inl rfl))
  | pon => exact .owns holt (h.hasPort_olt.mpr (Or.inr rfl))
  | onuPon ho => exact .owns (honu ho) ((h.hasPort_onu ho).mpr (Or.inl rfl))
  | uni ho => exact .owns (honu ho) ((h.hasPort_onu ho).mpr (Or.inr rfl))
  | fiber ho =>
    exact .peered holt (h.hasPort_olt.mpr (Or.inr rfl)) (h.mem_ponPeers.mpr ⟨_, ho, rfl⟩)

theorem adj_iff (h : T.Describes t) (hg : g.Discovers t) {u v : NodeKey} :
    g.Adj u v ↔ T.Edge u v ∨ T.Edge v u := by
  rw [hg.adj]
  constructor
  · rintro (huv | huv)
    · exact h.edge_of_link huv
    · exact (h.edge_of_link huv).symm
  · rintro (huv | huv)
    · exact Or.inl (h.link_of_edge huv)
    · exact Or.inr (h.link_of_edge huv)

/-! ### 隣の node -/

theorem adj_nni (h : T.Describes t) (hg : g.Discovers t) {v : NodeKey} (ha : g.Adj T.nniKey v) :
    v = T.key := by
  generalize hu : T.nniKey = u at ha
  rcases (h.adj_iff hg).mp ha with he | he
  · cases he with
    | fiber ho => exact absurd (NodeKey.port.inj hu).2 h.oltPortNo
    | _ => cases hu
  · cases he with
    | nni => rfl
    | pon => rfl
    | onuPon ho => exact absurd (NodeKey.port.inj hu).1.symm (h.olt_ne ho)
    | uni ho => exact absurd (NodeKey.port.inj hu).1.symm (h.olt_ne ho)
    | fiber ho => exact absurd (NodeKey.port.inj hu).1.symm (h.olt_ne ho)

theorem adj_olt (h : T.Describes t) (hg : g.Discovers t) {v : NodeKey} (ha : g.Adj T.key v) :
    v = T.nniKey ∨ v = T.ponKey := by
  generalize hu : T.key = u at ha
  rcases (h.adj_iff hg).mp ha with he | he
  · cases he with
    | nni => exact Or.inl rfl
    | pon => exact Or.inr rfl
    | onuPon ho => exact absurd (NodeKey.device.inj hu).symm (h.olt_ne ho)
    | uni ho => exact absurd (NodeKey.device.inj hu).symm (h.olt_ne ho)
    | fiber ho => cases hu
  · cases he <;> cases hu

theorem adj_uni (h : T.Describes t) (hg : g.Discovers t) (ho : o ∈ T.onus) {v : NodeKey}
    (ha : g.Adj o.uniKey v) : v = o.key := by
  generalize hu : o.uniKey = u at ha
  rcases (h.adj_iff hg).mp ha with he | he
  · cases he with
    | fiber _ => exact absurd (NodeKey.port.inj hu).1 (h.olt_ne ho)
    | _ => cases hu
  · cases he with
    | nni => exact absurd (NodeKey.port.inj hu).1 (h.olt_ne ho)
    | pon => exact absurd (NodeKey.port.inj hu).1 (h.olt_ne ho)
    | uni ho' =>
      obtain rfl := h.onu_inj ho ho' (NodeKey.port.inj hu).1
      rfl
    | onuPon ho' | fiber ho' =>
      obtain rfl := h.onu_inj ho ho' (NodeKey.port.inj hu).1
      exact absurd (NodeKey.port.inj hu).2.symm (h.onuPortNo _ ho)

theorem adj_onu (h : T.Describes t) (hg : g.Discovers t) (ho : o ∈ T.onus) {v : NodeKey}
    (ha : g.Adj o.key v) : v = o.ponKey ∨ v = o.uniKey := by
  generalize hu : o.key = u at ha
  rcases (h.adj_iff hg).mp ha with he | he
  · cases he with
    | nni => exact absurd (NodeKey.device.inj hu) (h.olt_ne ho)
    | pon => exact absurd (NodeKey.device.inj hu) (h.olt_ne ho)
    | onuPon ho' =>
      obtain rfl := h.onu_inj ho ho' (NodeKey.device.inj hu)
      exact Or.inl rfl
    | uni ho' =>
      obtain rfl := h.onu_inj ho ho' (NodeKey.device.inj hu)
      exact Or.inr rfl
    | fiber ho' => cases hu
  · cases he <;> cases hu

theorem adj_onuPon (h : T.Describes t) (hg : g.Discovers t) (ho : o ∈ T.onus) {v : NodeKey}
    (ha : g.Adj o.ponKey v) : v = T.ponKey ∨ v = o.key := by
  generalize hu : o.ponKey = u at ha
  rcases (h.adj_iff hg).mp ha with he | he
  · cases he with
    | fiber _ => exact absurd (NodeKey.port.inj hu).1 (h.olt_ne ho)
    | _ => cases hu
  · cases he with
    | nni => exact absurd (NodeKey.port.inj hu).1 (h.olt_ne ho)
    | pon => exact absurd (NodeKey.port.inj hu).1 (h.olt_ne ho)
    | uni ho' | onuPon ho' =>
      obtain rfl := h.onu_inj ho ho' (NodeKey.port.inj hu).1
      exact Or.inr rfl
    | fiber ho' => exact Or.inl rfl

end PonTree.Describes

/-! ## 道 -/

/-- `u` から `v` への道。 -/
structure Graph.IsPath (g : Graph R) (u v : NodeKey) (p : List NodeKey) : Prop where
  head : p.head? = some u
  last : p.getLast? = some v
  chain : p.IsChain g.Adj

/-- `shortestPath` は、graph にある node の間の道があれば、最短のものを一つ返す。 -/
def ReturnsShortest
    (shortestPath : Graph R → NodeKey → NodeKey → Except FlowError (List NodeKey)) : Prop :=
  ∀ g u v, u ∈ g.keys → v ∈ g.keys → (∃ p, g.IsPath u v p) →
    ∃ p, shortestPath g u v = .ok p ∧ g.IsPath u v p ∧ ∀ q, g.IsPath u v q → p.length ≤ q.length

theorem Graph.IsPath.reverse {g : Graph R} {u v : NodeKey} {p : List NodeKey}
    (h : g.IsPath u v p) : g.IsPath v u p.reverse where
  head := by rw [List.head?_reverse, h.last]
  last := by rw [List.getLast?_reverse, h.head]
  chain := by
    rw [List.isChain_reverse]
    exact h.chain.imp fun _ _ => Graph.Adj.symm

namespace PonTree.Describes

variable {T : PonTree R} {t : Topology R} {g : Graph R} {o o' : Onu R}

theorem adj_of_edge (h : T.Describes t) (hg : g.Discovers t) {u v : NodeKey} (he : T.Edge u v) :
    g.Adj u v := (h.adj_iff hg).mpr (Or.inl he)

theorem trunk_isPath (h : T.Describes t) (hg : g.Discovers t) (ho : o ∈ T.onus) :
    g.IsPath T.nniKey o.uniKey (T.trunk o) where
  head := rfl
  last := rfl
  chain := by
    have h₁ := (h.adj_of_edge hg .nni).symm
    have h₂ := h.adj_of_edge hg .pon
    have h₃ := h.adj_of_edge hg (.fiber ho)
    have h₄ := (h.adj_of_edge hg (.onuPon ho)).symm
    have h₅ := h.adj_of_edge hg (.uni ho)
    simp [PonTree.trunk, h₁, h₂, h₃, h₄, h₅]

/-- 別の ONU の UNI への道。 -/
theorem across_isPath (h : T.Describes t) (hg : g.Discovers t) (ho : o ∈ T.onus)
    (ho' : o' ∈ T.onus) : g.IsPath o.uniKey o'.uniKey
      [o.uniKey, o.key, o.ponKey, T.ponKey, o'.ponKey, o'.key, o'.uniKey] where
  head := rfl
  last := rfl
  chain := by
    have h₁ := (h.adj_of_edge hg (.uni ho)).symm
    have h₂ := h.adj_of_edge hg (.onuPon ho)
    have h₃ := (h.adj_of_edge hg (.fiber ho)).symm
    have h₄ := h.adj_of_edge hg (.fiber ho')
    have h₅ := (h.adj_of_edge hg (.onuPon ho')).symm
    have h₆ := h.adj_of_edge hg (.uni ho')
    simp [h₁, h₂, h₃, h₄, h₅, h₆]

/-- 端から二つ目までの node が決まるので、短い道は一通りに決まる。 -/
theorem path_down (h : T.Describes t) (hg : g.Discovers t) (ho : o ∈ T.onus) {p : List NodeKey}
    (hp : g.IsPath T.nniKey o.uniKey p) (hlen : p.length ≤ 6) : p = T.trunk o := by
  have hne := h.olt_ne ho
  obtain ⟨hhead, hlast, hchain⟩ := hp
  match p, hlen with
  | [], _ => cases hhead
  | [a], _ =>
    cases hhead
    exact absurd (NodeKey.port.inj (Option.some.inj hlast)).1.symm hne
  | [a, b], _ =>
    cases hhead
    cases hlast
    have hb := h.adj_nni hg (List.isChain_pair.mp hchain)
    cases hb
  | [a, b, c], _ =>
    cases hhead
    cases hlast
    simp only [List.isChain_cons_cons, List.isChain_singleton, and_true] at hchain
    obtain ⟨hab, hbc⟩ := hchain
    have hb := h.adj_nni hg hab
    rw [h.adj_uni hg ho hbc.symm] at hb
    exact absurd (NodeKey.device.inj hb) hne
  | [a, b, c, d], _ =>
    cases hhead
    cases hlast
    simp only [List.isChain_cons_cons, List.isChain_singleton, and_true] at hchain
    obtain ⟨hab, hbc, hcd⟩ := hchain
    obtain rfl := h.adj_nni hg hab
    obtain rfl := h.adj_uni hg ho hcd.symm
    rcases h.adj_olt hg hbc with he | he <;> cases he
  | [a, b, c, d, e], _ =>
    cases hhead
    cases hlast
    simp only [List.isChain_cons_cons, List.isChain_singleton, and_true] at hchain
    obtain ⟨hab, hbc, hcd, hde⟩ := hchain
    obtain rfl := h.adj_nni hg hab
    obtain rfl := h.adj_uni hg ho hde.symm
    rcases h.adj_olt hg hbc with rfl | rfl
    · rcases h.adj_onu hg ho hcd.symm with he | he <;>
        exact absurd (NodeKey.port.inj he).1.symm hne
    · rcases h.adj_onu hg ho hcd.symm with he | he <;>
        exact absurd (NodeKey.port.inj he).1.symm hne
  | [a, b, c, d, e, f], _ =>
    cases hhead
    cases hlast
    simp only [List.isChain_cons_cons, List.isChain_singleton, and_true] at hchain
    obtain ⟨hab, hbc, hcd, hde, hef⟩ := hchain
    obtain rfl := h.adj_nni hg hab
    obtain rfl := h.adj_uni hg ho hef.symm
    rcases h.adj_onu hg ho hde.symm with rfl | rfl
    · rcases h.adj_olt hg hbc with rfl | rfl
      · cases h.adj_nni hg hcd
      · rfl
    · have hc := h.adj_uni hg ho hcd.symm
      rcases h.adj_olt hg hbc with rfl | rfl <;> cases hc
  | _ :: _ :: _ :: _ :: _ :: _ :: _ :: _, hlen =>
    simp only [List.length_cons] at hlen
    omega

/-- 別の ONU の UNI への短い道は、長さが 3 の倍数でない。 -/
theorem path_across (h : T.Describes t) (hg : g.Discovers t) (ho : o ∈ T.onus) (ho' : o' ∈ T.onus)
    (hne : o.device.id ≠ o'.device.id) {p : List NodeKey} (hp : g.IsPath o.uniKey o'.uniKey p)
    (hlen : p.length ≤ 7) : p.length % 3 ≠ 0 := by
  obtain ⟨hhead, hlast, hchain⟩ := hp
  match p, hlen with
  | [], _ => cases hhead
  | [a], _ | [a, b], _ | [a, b, c, d], _ | [a, b, c, d, e], _ | [a, b, c, d, e, f, k], _ => simp
  | [a, b, c], _ =>
    cases hhead
    cases hlast
    simp only [List.isChain_cons_cons, List.isChain_singleton, and_true] at hchain
    obtain ⟨hab, hbc⟩ := hchain
    have hb := h.adj_uni hg ho hab
    rw [h.adj_uni hg ho' hbc.symm] at hb
    exact absurd (NodeKey.device.inj hb).symm hne
  | [a, b, c, d, e, f], _ =>
    cases hhead
    cases hlast
    simp only [List.isChain_cons_cons, List.isChain_singleton, and_true] at hchain
    obtain ⟨hab, hbc, hcd, hde, hef⟩ := hchain
    obtain rfl := h.adj_uni hg ho hab
    obtain rfl := h.adj_uni hg ho' hef.symm
    rcases h.adj_onu hg ho hbc with rfl | rfl
    · rcases h.adj_onuPon hg ho hcd with rfl | rfl
      · rcases h.adj_onu hg ho' hde.symm with he | he <;>
          exact absurd (NodeKey.port.inj he).1.symm (h.olt_ne ho')
      · rcases h.adj_onu hg ho' hde.symm with he | he <;> cases he
    · obtain rfl := h.adj_uni hg ho hcd
      rcases h.adj_onu hg ho' hde.symm with he | he <;> cases he
  | _ :: _ :: _ :: _ :: _ :: _ :: _ :: _ :: _, hlen =>
    simp only [List.length_cons] at hlen
    omega

/-! ## 経路 -/

theorem hasPort_inj_olt (h : T.Describes t) {p q : Port} (hp : t.HasPort T.olt.id p)
    (hq : t.HasPort T.olt.id q) (hn : p.portNo = q.portNo) : p = q := by
  have hne := h.oltPortNo
  rcases h.hasPort_olt.mp hp with rfl | rfl <;> rcases h.hasPort_olt.mp hq with rfl | rfl
  · rfl
  · exact absurd hn hne
  · exact absurd hn.symm hne
  · rfl

theorem hasPort_inj_onu (h : T.Describes t) (ho : o ∈ T.onus) {p q : Port}
    (hp : t.HasPort o.device.id p) (hq : t.HasPort o.device.id q) (hn : p.portNo = q.portNo) :
    p = q := by
  have hne := h.onuPortNo o ho
  rcases (h.hasPort_onu ho).mp hp with rfl | rfl <;>
    rcases (h.hasPort_onu ho).mp hq with rfl | rfl
  · rfl
  · exact absurd hn hne
  · exact absurd hn.symm hne
  · rfl

/-- OLT の hop。 -/
theorem routeHop_olt (h : T.Describes t) (hg : g.Holds t) {p q : Port}
    (hp : t.HasPort T.olt.id p) (hq : t.HasPort T.olt.id q) :
    routeHop g T.key (.port T.olt.id p.portNo) (.port T.olt.id q.portNo) = .ok ⟨T.olt, p, q⟩ := by
  have hr := (h.reachable_iff T.olt.id).mpr (Or.inl rfl)
  obtain ⟨d, hd, hd'⟩ := hg.device _ hr
  obtain ⟨p', hp', hmemp, hnop⟩ := hg.port _ p hp hr
  obtain ⟨q', hq', hmemq, hnoq⟩ := hg.port _ q hq hr
  rw [h.olt] at hd'
  cases hd'
  obtain rfl := h.hasPort_inj_olt hmemp hp hnop
  obtain rfl := h.hasPort_inj_olt hmemq hq hnoq
  simp only [routeHop, Graph.deviceAt, Graph.portAt, PonTree.key, hd, hp', hq']
  rfl

/-- ONU の hop。 -/
theorem routeHop_onu (h : T.Describes t) (hg : g.Holds t) (ho : o ∈ T.onus) {p q : Port}
    (hp : t.HasPort o.device.id p) (hq : t.HasPort o.device.id q) :
    routeHop g o.key (.port o.device.id p.portNo) (.port o.device.id q.portNo)
      = .ok ⟨o.device, p, q⟩ := by
  have hr := (h.reachable_iff o.device.id).mpr (Or.inr ⟨o, ho, rfl⟩)
  obtain ⟨d, hd, hd'⟩ := hg.device _ hr
  obtain ⟨p', hp', hmemp, hnop⟩ := hg.port _ p hp hr
  obtain ⟨q', hq', hmemq, hnoq⟩ := hg.port _ q hq hr
  rw [h.onu o ho] at hd'
  cases hd'
  obtain rfl := h.hasPort_inj_onu ho hmemp hp hnop
  obtain rfl := h.hasPort_inj_onu ho hmemq hq hnoq
  simp only [routeHop, Graph.deviceAt, Graph.portAt, Onu.key, hd, hp', hq']
  rfl

theorem nniKey_mem (h : T.Describes t) (hg : g.Discovers t) : T.nniKey ∈ g.keys :=
  (hg.port _ _).mpr ⟨(h.reachable_iff _).mpr (Or.inl rfl), _, h.hasPort_olt.mpr (Or.inl rfl), rfl⟩

theorem uniKey_mem (h : T.Describes t) (hg : g.Discovers t) (ho : o ∈ T.onus) :
    o.uniKey ∈ g.keys :=
  (hg.port _ _).mpr ⟨(h.reachable_iff _).mpr (Or.inr ⟨o, ho, rfl⟩), _,
    (h.hasPort_onu ho).mpr (Or.inr rfl), rfl⟩

section ShortestPath

variable {shortestPath : Graph R → NodeKey → NodeKey → Except FlowError (List NodeKey)}

theorem shortestPath_down (hsp : ReturnsShortest shortestPath) (h : T.Describes t)
    (hg : g.Discovers t) (ho : o ∈ T.onus) :
    shortestPath g T.nniKey o.uniKey = .ok (T.trunk o) := by
  have htrunk := h.trunk_isPath hg ho
  obtain ⟨p, hp, hpath, hmin⟩ := hsp g _ _ (h.nniKey_mem hg) (h.uniKey_mem hg ho) ⟨_, htrunk⟩
  rw [hp, h.path_down hg ho hpath (hmin _ htrunk)]

/-- 逆向きの道は、裏返したものである。 -/
theorem shortestPath_up (hsp : ReturnsShortest shortestPath) (h : T.Describes t)
    (hg : g.Discovers t) (ho : o ∈ T.onus) :
    shortestPath g o.uniKey T.nniKey = .ok (T.trunk o).reverse := by
  have htrunk := (h.trunk_isPath hg ho).reverse
  obtain ⟨p, hp, hpath, hmin⟩ := hsp g _ _ (h.uniKey_mem hg ho) (h.nniKey_mem hg) ⟨_, htrunk⟩
  have hlen : p.reverse.length ≤ 6 := by
    rw [List.length_reverse]
    exact hmin _ htrunk
  rw [hp, ← h.path_down hg ho hpath.reverse hlen, List.reverse_reverse]

theorem shortestPath_across (hsp : ReturnsShortest shortestPath) (h : T.Describes t)
    (hg : g.Discovers t) (ho : o ∈ T.onus) (ho' : o' ∈ T.onus)
    (hne : o.device.id ≠ o'.device.id) :
    ∃ p, shortestPath g o.uniKey o'.uniKey = .ok p ∧ p.length % 3 ≠ 0 := by
  have hacross := h.across_isPath hg ho ho'
  obtain ⟨p, hp, hpath, hmin⟩ := hsp g _ _ (h.uniKey_mem hg ho) (h.uniKey_mem hg ho') ⟨_, hacross⟩
  exact ⟨p, hp, h.path_across hg ho ho' hne hpath (hmin _ hacross)⟩

end ShortestPath

end PonTree.Describes

/-! ## 端の組ごとの経路 -/

namespace PonTree

variable {T : PonTree R} {t : Topology R} {g : Graph R} {e e' : End R}
variable {shortestPath : Graph R → NodeKey → NodeKey → Except FlowError (List NodeKey)}

/-- 経路があれば足す。 -/
def store (routes : Routes R) (r : Option ((UInt32 × UInt32) × (RouteHop R × RouteHop R))) :
    Routes R :=
  match r with
  | some r => OrderedDict.set routes r.1 r.2
  | none => routes

/-- ある経路だけを順に足すのと同じ。 -/
theorem foldl_store {α : Type} (f : α → Option ((UInt32 × UInt32) × (RouteHop R × RouteHop R)))
    (l : List α) (routes : Routes R) :
    l.foldl (fun routes a => store routes (f a)) routes
      = (l.filterMap f).foldl (fun d p => OrderedDict.set d p.1 p.2) routes := by
  rw [List.foldl_filterMap]
  congr 1
  funext routes a
  cases hf : f a <;> rfl

theorem mem_ends : e ∈ T.ends ↔ e = .nni ∨ ∃ o ∈ T.onus, e = .uni o := by
  simp only [ends, List.mem_cons, List.mem_map, eq_comm]

section AddRoute

variable {source target : NodeKey × UInt32} {routes : Routes R}

theorem addRoute_self (he : source.1 = target.1) :
    addRoute shortestPath g source routes target = .ok routes := by
  rw [addRoute, if_pos he]
  rfl

/-- 長さが 3 の倍数でない道は、経路にならない。 -/
theorem addRoute_dropped (hne : source.1 ≠ target.1) {p : List NodeKey}
    (hp : shortestPath g source.1 target.1 = .ok p) (hlen : p.length % 3 ≠ 0) :
    addRoute shortestPath g source routes target = .ok routes := by
  rw [addRoute, if_neg hne, hp]
  exact if_pos hlen

/-- 六つの node の道は、二つの hop になる。 -/
theorem addRoute_hops (hne : source.1 ≠ target.1) {p1 d1 p2 p3 d2 p4 : NodeKey}
    (hp : shortestPath g source.1 target.1 = .ok [p1, d1, p2, p3, d2, p4])
    {ingressHop egressHop : RouteHop R} (hin : routeHop g d1 p1 p2 = .ok ingressHop)
    (hout : routeHop g d2 p3 p4 = .ok egressHop) :
    addRoute shortestPath g source routes target
      = .ok (OrderedDict.set routes (source.2, target.2) (ingressHop, egressHop)) := by
  rw [addRoute, if_neg hne, hp]
  refine (if_neg (by simp)).trans ?_
  simp only [hin, hout]
  rfl

end AddRoute

theorem addRoute_down (hsp : ReturnsShortest shortestPath) (h : T.Describes t)
    (hg : g.Discovers t) (hv : g.Holds t) {o : Onu R} (ho : o ∈ T.onus) (routes : Routes R) :
    addRoute shortestPath g (T.boundary .nni) routes (T.boundary (.uni o))
      = .ok (store routes (some (T.down o))) := by
  have hne : T.nniKey ≠ o.uniKey := fun he => h.olt_ne ho (NodeKey.port.inj he).1.symm
  have hin := h.routeHop_olt hv (h.hasPort_olt.mpr (Or.inl rfl)) (h.hasPort_olt.mpr (Or.inr rfl))
  have hout := h.routeHop_onu hv ho ((h.hasPort_onu ho).mpr (Or.inl rfl))
    ((h.hasPort_onu ho).mpr (Or.inr rfl))
  exact addRoute_hops hne (h.shortestPath_down hsp hg ho) hin hout

theorem addRoute_up (hsp : ReturnsShortest shortestPath) (h : T.Describes t)
    (hg : g.Discovers t) (hv : g.Holds t) {o : Onu R} (ho : o ∈ T.onus) (routes : Routes R) :
    addRoute shortestPath g (T.boundary (.uni o)) routes (T.boundary .nni)
      = .ok (store routes (some (T.up o))) := by
  have hne : o.uniKey ≠ T.nniKey := fun he => h.olt_ne ho (NodeKey.port.inj he).1
  have hin := h.routeHop_onu hv ho ((h.hasPort_onu ho).mpr (Or.inr rfl))
    ((h.hasPort_onu ho).mpr (Or.inl rfl))
  have hout := h.routeHop_olt hv (h.hasPort_olt.mpr (Or.inr rfl)) (h.hasPort_olt.mpr (Or.inl rfl))
  exact addRoute_hops hne (h.shortestPath_up hsp hg ho) hin hout

/-- UNI どうしの組は、経路にならない。 -/
theorem addRoute_across (hsp : ReturnsShortest shortestPath) (h : T.Describes t)
    (hg : g.Discovers t) {o o' : Onu R} (ho : o ∈ T.onus) (ho' : o' ∈ T.onus)
    (routes : Routes R) :
    addRoute shortestPath g (T.boundary (.uni o)) routes (T.boundary (.uni o')) = .ok routes := by
  by_cases hkey : o.uniKey = o'.uniKey
  · exact addRoute_self hkey
  · have hne : o.device.id ≠ o'.device.id := by
      intro he
      obtain rfl := h.onu_inj ho ho' he
      exact hkey rfl
    obtain ⟨p, hp, hlen⟩ := h.shortestPath_across hsp hg ho ho' hne
    exact addRoute_dropped hkey hp hlen

theorem addRoute_ends (hsp : ReturnsShortest shortestPath) (h : T.Describes t)
    (hg : g.Discovers t) (hv : g.Holds t) (he : e ∈ T.ends) (he' : e' ∈ T.ends)
    (routes : Routes R) :
    addRoute shortestPath g (T.boundary e) routes (T.boundary e')
      = .ok (store routes (T.route e e')) := by
  rcases mem_ends.mp he with rfl | ⟨o, ho, rfl⟩ <;> rcases mem_ends.mp he' with rfl | ⟨o', ho', rfl⟩
  · exact addRoute_self rfl
  · exact addRoute_down hsp h hg hv ho' routes
  · exact addRoute_up hsp h hg hv ho routes
  · exact addRoute_across hsp h hg ho ho' routes

/-! ## 経路の全体 -/

/-- 並べた端の、すべての組の経路。 -/
def pairs (T : PonTree R) (es : List (End R)) : Routes R :=
  es.flatMap fun e => es.filterMap (T.route e)

theorem pairs_ends : T.pairs T.ends = T.onus.map T.down ++ T.onus.map T.up := by
  have hdown : ∀ os : List (Onu R), (os.map End.uni).filterMap (T.route .nni) = os.map T.down := by
    intro os
    simp [List.filterMap_map, Function.comp_def, route]
  have hnone : ∀ (o : Onu R) (os : List (Onu R)),
      (os.map End.uni).filterMap (T.route (.uni o)) = [] := by
    intro o os
    simp [List.filterMap_map, Function.comp_def, route]
  have hup : ∀ o : Onu R, T.ends.filterMap (T.route (.uni o)) = [T.up o] := by
    intro o
    simp [ends, route, hnone]
  simp only [pairs, ends, List.flatMap_cons, List.flatMap_map]
  congr 1
  · simp only [← hdown]
    rfl
  · exact (List.flatMap_congr fun o _ => hup o).trans (List.flatMap_pure_eq_map T.up T.onus)

theorem pairs_perm {es es' : List (End R)} (h : es.Perm es') : (T.pairs es).Perm (T.pairs es') :=
  h.flatMap fun _ _ => h.filterMap _

/-- 端の番号が違うので、経路の key は重ならない。 -/
theorem pairs_keys_nodup (h : T.Describes t) : ((T.pairs T.ends).map Prod.fst).Nodup := by
  have hnos := h.portNos
  simp only [ends, List.map_cons, List.map_map, List.nodup_cons, boundary] at hnos
  obtain ⟨hnni, huni⟩ := hnos
  have hne : ∀ o ∈ T.onus, o.portNo ≠ T.portNo := fun o ho he =>
    hnni (List.mem_map.mpr ⟨o, ho, he⟩)
  rw [pairs_ends, List.map_append, List.map_map, List.map_map, List.nodup_append]
  refine ⟨?_, ?_, ?_⟩
  · have := huni.map (Prod.mk_right_injective T.portNo)
    rwa [List.map_map] at this
  · have := huni.map (Prod.mk_left_injective T.portNo)
    rwa [List.map_map] at this
  · intro a ha b hb hab
    obtain ⟨o, ho, rfl⟩ := List.mem_map.mp ha
    obtain ⟨o', ho', rfl⟩ := List.mem_map.mp hb
    exact hne o' ho' (congrArg Prod.fst hab).symm

/-- 端を並べた順に、経路を足していく。 -/
theorem buildRoutes_ends (hsp : ReturnsShortest shortestPath) (h : T.Describes t)
    (hg : g.Discovers t) (hv : g.Holds t) {es : List (End R)} (hes : es.Perm T.ends) :
    buildRoutes shortestPath (es.map T.boundary) g = .ok (T.pairs es) := by
  have hmem : ∀ e ∈ es, e ∈ T.ends := fun e he => hes.mem_iff.mp he
  have hinner : ∀ routes : Routes R, ∀ e ∈ es,
      es.foldlM (fun routes e' => addRoute shortestPath g (T.boundary e) routes (T.boundary e'))
        routes = .ok (es.foldl (fun routes e' => store routes (T.route e e')) routes) :=
    fun routes e he => foldlM_eq_ok (fun routes e' he' =>
      addRoute_ends hsp h hg hv (hmem e he) (hmem e' he') routes) routes
  have hnodup : ((T.pairs es).map Prod.fst).Nodup :=
    ((pairs_perm hes).map Prod.fst).nodup_iff.mpr (pairs_keys_nodup h)
  unfold buildRoutes
  simp only [List.foldlM_map]
  rw [foldlM_eq_ok hinner, ← OrderedDict.ofList_of_nodup hnodup]
  simp only [OrderedDict.ofList, pairs, List.foldl_flatMap, foldl_store]

end PonTree

variable {T : PonTree R} {t : Topology R}
variable {shortestPath : Graph R → NodeKey → NodeKey → Except FlowError (List NodeKey)}

/-- 並べ替えた列の像は、並べ替えた列の像である。 -/
theorem exists_perm_of_perm_map {α β : Type} {f : α → β} {l : List β} {m : List α}
    (h : l.Perm (m.map f)) : ∃ m' : List α, m'.Perm m ∧ l = m'.map f := by
  have hcomp := (congrFun₂ (List.eq_map_comp_perm f) l m).mpr h
  obtain ⟨m', hmap, hperm⟩ := hcomp
  exact ⟨m', hperm, hmap⟩

/-- logical port の並びは、端の並べ替えになる。 -/
theorem PonTree.Describes.boundaryPorts_eq (h : T.Describes t) :
    ∃ es : List (End R), es.Perm T.ends ∧ boundaryPorts t.logicalPorts = es.map T.boundary := by
  obtain ⟨es, hperm, hmap⟩ := exists_perm_of_perm_map h.logicalPorts
  refine ⟨es, hperm, ?_⟩
  have hkeys : ((T.ends.map T.boundary).map Prod.fst).Nodup := by
    have huni := (List.nodup_cons.mp h.ids).2
    simp only [PonTree.ends, List.map_cons, List.map_map, List.nodup_cons]
    constructor
    · intro hm
      obtain ⟨o, ho, he⟩ := List.mem_map.mp hm
      exact h.olt_ne ho (NodeKey.port.inj he).1
    · refine List.Nodup.map_on (fun o ho o' ho' he => ?_) (List.Nodup.of_map _ huni)
      exact h.onu_inj ho ho' (NodeKey.port.inj he).1
  unfold boundaryPorts
  rw [OrderedDict.ofList_of_nodup, hmap]
  rw [hmap]
  exact ((hperm.map T.boundary).map Prod.fst).nodup_iff.mpr hkeys

/-- PON の木の経路は、ちょうど NNI と UNI の間の往復である。 -/
theorem computeRoutes_ponTree (hsp : ReturnsShortest shortestPath) (h : T.Describes t) :
    ∃ g routes, computeRoutes shortestPath t = .ok (g, routes) ∧
      routes.Perm (T.onus.map T.down ++ T.onus.map T.up) := by
  obtain ⟨g, hok, hg, hv⟩ := buildGraph_discovers h.peers_mutual h.grounded
  obtain ⟨es, hperm, hb⟩ := h.boundaryPorts_eq
  have hroutes := PonTree.buildRoutes_ends hsp h hg hv hperm
  refine ⟨g, T.pairs es, ?_, ?_⟩
  · unfold computeRoutes
    rw [hok, hb]
    show (do
      let routes ← buildRoutes shortestPath (es.map T.boundary) g
      return (g, routes)) = _
    rw [hroutes]
    rfl
  · rw [← PonTree.pairs_ends]
    exact PonTree.pairs_perm hperm

section Example

open Classical in
/-- 最短の道を一つ選ぶ。 -/
noncomputable def someShortest (g : Graph R) (u v : NodeKey) : Except FlowError (List NodeKey) :=
  if h : ∃ p, g.IsPath u v p then
    .ok (Function.argminOn List.length (fun p => g.IsPath u v p) h)
  else .error .noPath

theorem someShortest_returnsShortest : ReturnsShortest (R := R) someShortest := by
  intro g u v _ _ hpath
  refine ⟨_, dif_pos hpath, ?_, fun q hq => ?_⟩
  · exact Function.argminOn_mem List.length (fun p => g.IsPath u v p) hpath
  · exact Function.argminOn_le List.length (fun p => g.IsPath u v p) hq

def examplePort (deviceId : String) (portNo : UInt32) (peers : List PeerPort) : Port :=
  ⟨portNo, "", .unknown, .unknown, .unknown, deviceId, peers⟩

def exampleOnu (id : String) (portNo : UInt32) : Onu Unit :=
  ⟨⟨id, false, 0, ()⟩, examplePort id 1 [⟨"olt", 2⟩], examplePort id 2 [], portNo⟩

/-- ONU が二つの木。 -/
def exampleTree : PonTree Unit where
  olt := ⟨"olt", true, 0, ()⟩
  nni := examplePort "olt" 1 []
  pon := examplePort "olt" 2 [⟨"onu1", 1⟩, ⟨"onu2", 1⟩]
  portNo := 10
  onus := [exampleOnu "onu1" 101, exampleOnu "onu2" 102]

/-- `exampleTree` を、別の順に並べたもの。 -/
def exampleTopology : Topology Unit where
  rootDeviceId := "olt"
  logicalPorts := [⟨"uni2", 102, "onu2", 2, false⟩, ⟨"nni", 10, "olt", 1, true⟩,
    ⟨"uni1", 101, "onu1", 2, false⟩]
  devices := [
    (⟨"onu2", false, 0, ()⟩, [examplePort "onu2" 2 [], examplePort "onu2" 1 [⟨"olt", 2⟩]]),
    (⟨"olt", true, 0, ()⟩,
      [examplePort "olt" 2 [⟨"onu1", 1⟩, ⟨"onu2", 1⟩], examplePort "olt" 1 []]),
    (⟨"onu1", false, 0, ()⟩, [examplePort "onu1" 1 [⟨"olt", 2⟩], examplePort "onu1" 2 []])]

theorem exampleTree_describes : exampleTree.Describes exampleTopology where
  olt := by decide
  oltPorts := ⟨_, rfl, by decide⟩
  onu := by decide
  onuPorts := by
    intro o ho
    simp only [exampleTree, List.mem_cons, List.not_mem_nil, or_false] at ho
    rcases ho with rfl | rfl
    · exact ⟨_, rfl, by decide⟩
    · exact ⟨_, rfl, by decide⟩
  nniPeers := rfl
  ponPeers := by decide
  onuPonPeers := by decide
  uniPeers := by decide
  logicalPorts := by decide
  ids := by decide
  oltPortNo := by decide
  onuPortNo := by decide
  portNos := by decide

/-- 二つの ONU なら、経路は四つ。 -/
theorem computeRoutes_ponTree_example : ∃ g routes,
    computeRoutes someShortest exampleTopology = .ok (g, routes) ∧
      routes.Perm (exampleTree.onus.map exampleTree.down ++ exampleTree.onus.map exampleTree.up) :=
  computeRoutes_ponTree someShortest_returnsShortest exampleTree_describes

end Example

end Voltha.Core
