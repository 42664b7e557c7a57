import Mathlib.Data.Sym.Sym2
import Mathlib.Logic.Relation
import Voltha.Core.DeviceGraph
import Voltha.Lib.Exec

/-!
# device graph の完全さ

`_build_graph` は、まだの device を見つけるとその場でたどり、**そのときの辺は足さない**。
辺は、たどった先の device が相手の port を見返すときに足される。したがって、相手の関係が互いでなければ
辺は落ちる。互いならば、関係に輪があっても、どの順に並んでいても、辺は揃う。

たどり終えた device では、port も辺もみな揃っている（`Done`）。途中の device は揃っていないが、
その loop の中で新しく足された device はどれもたどり終えている（`Extends`）。
-/

namespace Voltha.Core

open Voltha.Flow Fallible

variable {R : Type} {t : Topology R}

/-! ## 木の上の関係 -/

namespace Topology

/-- device の port。 -/
def HasPort (t : Topology R) (id : String) (p : Port) : Prop :=
  ∃ ps, t.ports id = .ok ps ∧ p ∈ ps

/-- 相手の device。 -/
def Next (t : Topology R) (id id' : String) : Prop :=
  ∃ p, t.HasPort id p ∧ ∃ peer ∈ p.peers, peer.deviceId = id'

/-- logical port の device から、相手をたどって着く device。 -/
def Reachable (t : Topology R) (id : String) : Prop :=
  ∃ lp ∈ t.logicalPorts, Relation.ReflTransGen t.Next lp.deviceId id

/-- たどり着く device では、どの port の相手も、あって、こちらを相手に持つ。 -/
def Mutual (t : Topology R) : Prop :=
  ∀ id p, t.Reachable id → t.HasPort id p → ∀ peer ∈ p.peers, ∃ q, t.HasPort peer.deviceId q ∧
    q.portNo = peer.portNo ∧ ⟨id, p.portNo⟩ ∈ q.peers

/-- たどり着く device の、device と port の間と、相手の port との間。 -/
inductive Link (t : Topology R) : NodeKey → NodeKey → Prop where
  | owns {id : String} {p : Port} (hr : t.Reachable id) (hp : t.HasPort id p) :
    Link t (.device id) (.port id p.portNo)
  | peered {id : String} {p : Port} {peer : PeerPort} (hr : t.Reachable id) (hp : t.HasPort id p)
    (hpeer : peer ∈ p.peers) : Link t (.port id p.portNo) (.port peer.deviceId peer.portNo)

theorem Reachable.next {id id' : String} (h : t.Reachable id) (hn : t.Next id id') :
    t.Reachable id' := by
  obtain ⟨lp, hlp, hpath⟩ := h
  exact ⟨lp, hlp, hpath.tail hn⟩

theorem device_of_hasPort {id : String} {p : Port} (h : t.HasPort id p) :
    ∃ d, t.device id = .ok d ∧ d.id = id := by
  obtain ⟨ps, hps, -⟩ := h
  unfold ports at hps
  unfold device
  split at hps
  · next e he =>
    have hid : e.1.id = id := by simpa using List.find?_some he
    exact ⟨e.1, rfl, hid⟩
  · cases hps

theorem ports_of_device {id : String} {d : Device R} (h : t.device id = .ok d) :
    d.id = id ∧ ∃ ps, t.ports id = .ok ps := by
  unfold device at h
  unfold ports
  split at h
  · next e he =>
    cases h
    exact ⟨by simpa using List.find?_some he, e.2, rfl⟩
  · cases h

/-- 木に並ぶ port だけを調べればよい。 -/
theorem mutual_of_listed (h : ∀ e ∈ t.devices, ∀ p ∈ e.2, ∀ peer ∈ p.peers,
    ∃ e' ∈ t.devices.find? fun e' => e'.1.id = peer.deviceId, ∃ q ∈ e'.2,
      q.portNo = peer.portNo ∧ ⟨e.1.id, p.portNo⟩ ∈ q.peers) : t.Mutual := by
  rintro id p - ⟨ps, hps, hp⟩ peer hpeer
  unfold ports at hps
  split at hps
  · next e he =>
    cases hps
    obtain rfl : e.1.id = id := by simpa using List.find?_some he
    obtain ⟨e', he', q, hq, hno, hback⟩ := h e (List.mem_of_find?_eq_some he) p hp peer hpeer
    exact ⟨q, ⟨e'.2, by simp only [ports, Option.mem_def.mp he'], hq⟩, hno, hback⟩
  · cases hps

end Topology

/-! ## graph の node と辺 -/

namespace Graph

def keys (g : Graph R) : List NodeKey := g.nodes.map Prod.fst

/-- 辺でつながる。向きは無い。 -/
def Adj (g : Graph R) (u v : NodeKey) : Prop := (u, v) ∈ g.edges ∨ (v, u) ∈ g.edges

variable {g : Graph R} {k u v : NodeKey}

theorem Adj.symm (h : g.Adj u v) : g.Adj v u := Or.symm h

@[simp] theorem mem_keys_addDeviceNode {d : Device R} :
    k ∈ (g.addDeviceNode d).keys ↔ k = .device d.id ∨ k ∈ g.keys := OrderedDict.mem_keys_set

@[simp] theorem mem_keys_addPortNode {port : Port} {boundary : Bool} :
    k ∈ (g.addPortNode u port boundary).keys ↔ k = u ∨ k ∈ g.keys := OrderedDict.mem_keys_set

@[simp] theorem mem_keys_addEdge : k ∈ (g.addEdge u v).keys ↔ k = v ∨ k = u ∨ k ∈ g.keys :=
  OrderedDict.mem_keys_set.trans (or_congr_right OrderedDict.mem_keys_set)

theorem attrs_set {nodes : List (NodeKey × NodeAttrs R)} {edges : List (NodeKey × NodeKey)}
    {new : NodeAttrs R} :
    attrs ⟨OrderedDict.set nodes u new, edges⟩ k = if k = u then new else attrs ⟨nodes, []⟩ k := by
  unfold attrs
  rw [OrderedDict.lookup_set]
  split <;> rfl

/-- 辺を足しても、node の属性は変わらない。 -/
@[simp] theorem attrs_addEdge : (g.addEdge u v).attrs k = g.attrs k := by
  unfold addEdge
  rw [attrs_set]
  split
  · next h => rw [h]
  · rw [attrs_set]
    split
    · next h => rw [h]
    · rfl

theorem attrs_addDeviceNode {d : Device R} : (g.addDeviceNode d).attrs k
    = if k = .device d.id then { g.attrs k with device := some d } else g.attrs k := by
  unfold addDeviceNode
  rw [attrs_set]
  split
  · next h => rw [h]
  · rfl

theorem attrs_addPortNode {port : Port} {boundary : Bool} : (g.addPortNode u port boundary).attrs k
    = if k = u then { g.attrs k with port := some port, boundary := some boundary }
      else g.attrs k := by
  unfold addPortNode
  rw [attrs_set]
  split
  · next h => rw [h]
  · rfl

@[simp] theorem adj_addDeviceNode {d : Device R} : (g.addDeviceNode d).Adj u v ↔ g.Adj u v := Iff.rfl

@[simp] theorem adj_addPortNode {port : Port} {boundary : Bool} :
    (g.addPortNode k port boundary).Adj u v ↔ g.Adj u v := Iff.rfl

@[simp] theorem adj_addEdge {x y : NodeKey} :
    (g.addEdge u v).Adj x y ↔ (x = u ∧ y = v ∨ x = v ∧ y = u) ∨ g.Adj x y := by
  unfold Adj addEdge
  dsimp only
  split
  · next h =>
    constructor
    · exact Or.inr
    · rintro ((⟨rfl, rfl⟩ | ⟨rfl, rfl⟩) | h')
      · exact h
      · exact h.symm
      · exact h'
  · simp only [List.mem_append, List.mem_singleton, Prod.mk.injEq]
    tauto

/-- どの辺も一つずつである。 -/
def Simple (g : Graph R) : Prop := (g.edges.map fun e => s(e.1, e.2)).Nodup

theorem Simple.addEdge (h : g.Simple) (u v : NodeKey) : (g.addEdge u v).Simple := by
  unfold Simple Graph.addEdge
  dsimp only
  split
  · exact h
  · next hnew =>
    rw [List.map_append, List.nodup_append']
    refine ⟨h, List.nodup_singleton _, fun e he he' => hnew ?_⟩
    obtain ⟨⟨x, y⟩, hmem, rfl⟩ := List.mem_map.mp he
    rw [List.map_singleton, List.mem_singleton, Sym2.eq_iff] at he'
    rcases he' with ⟨rfl, rfl⟩ | ⟨rfl, rfl⟩
    · exact Or.inl hmem
    · exact Or.inr hmem

end Graph

/-! ## たどる途中 -/

/-- たどり終えた port。相手の device はどれも足してあり、辺もある。 -/
structure PortDone (id : String) (p : Port) (w : Walk R) : Prop where
  attr : (w.graph.attrs (.port id p.portNo)).port.isSome = true
  owned : w.graph.Adj (.device id) (.port id p.portNo)
  peers : ∀ peer ∈ p.peers, peer.deviceId ∈ w.devicesAdded ∧
    w.graph.Adj (.port id p.portNo) (.port peer.deviceId peer.portNo)

/-- たどり終えた device。 -/
structure Done (t : Topology R) (w : Walk R) (id : String) : Prop where
  attr : (w.graph.attrs (.device id)).device.isSome = true
  ports : ∀ p, t.HasPort id p → PortDone id p w

/-- 足したものは失われない。 -/
structure Grown (w w' : Walk R) : Prop where
  added : w.devicesAdded ⊆ w'.devicesAdded
  keys : w.graph.keys ⊆ w'.graph.keys
  adj : ∀ u v, w.graph.Adj u v → w'.graph.Adj u v
  device : ∀ k, (w.graph.attrs k).device.isSome = true → (w'.graph.attrs k).device.isSome = true
  port : ∀ k, (w.graph.attrs k).port.isSome = true → (w'.graph.attrs k).port.isSome = true

theorem Grown.refl (w : Walk R) : Grown w w :=
  ⟨List.Subset.refl _, List.Subset.refl _, fun _ _ => id, fun _ => id, fun _ => id⟩

theorem Grown.trans {w w' w'' : Walk R} (h : Grown w w') (h' : Grown w' w'') : Grown w w'' where
  added := List.Subset.trans h.added h'.added
  keys := List.Subset.trans h.keys h'.keys
  adj u v hu := h'.adj u v (h.adj u v hu)
  device k hk := h'.device k (h.device k hk)
  port k hk := h'.port k (h.port k hk)

theorem PortDone.grown {id : String} {p : Port} {w w' : Walk R} (h : PortDone id p w)
    (hw : Grown w w') : PortDone id p w' where
  attr := hw.port _ h.attr
  owned := hw.adj _ _ h.owned
  peers peer hpeer := ⟨hw.added (h.peers peer hpeer).1, hw.adj _ _ (h.peers peer hpeer).2⟩

theorem Done.grown {id : String} {w w' : Walk R} (h : Done t w id) (hw : Grown w w') :
    Done t w' id :=
  ⟨hw.device _ h.attr, fun p hp => (h.ports p hp).grown hw⟩

/-- 新しく足した device は、どれもたどり終えている。 -/
structure Extends (t : Topology R) (w w' : Walk R) : Prop extends Grown w w' where
  done : ∀ id ∈ w'.devicesAdded, id ∉ w.devicesAdded → Done t w' id

instance : Std.Refl (Extends t) := ⟨fun w => ⟨Grown.refl w, fun _ h h' => absurd h h'⟩⟩

instance : IsTrans (Walk R) (Extends t) where
  trans w w' w'' h h' := by
    refine ⟨h.toGrown.trans h'.toGrown, fun id hid hnew => ?_⟩
    by_cases hmem : id ∈ w'.devicesAdded
    · exact (h.done id hmem hnew).grown h'.toGrown
    · exact h'.done id hid hmem

/-- 途中の graph にあるものは、どれもたどり着くものである。 -/
structure Sound (t : Topology R) (w : Walk R) : Prop where
  nodup : w.graph.keys.Nodup
  simple : w.graph.Simple
  reachable : ∀ id ∈ w.devicesAdded, t.Reachable id
  device : ∀ id, .device id ∈ w.graph.keys → t.Reachable id
  port : ∀ id n, .port id n ∈ w.graph.keys → t.Reachable id ∧ ∃ p, t.HasPort id p ∧ p.portNo = n
  adj : ∀ u v, w.graph.Adj u v → t.Link u v ∨ t.Link v u
  deviceAttr : ∀ id d, (w.graph.attrs (.device id)).device = some d → t.device id = .ok d
  portAttr : ∀ id n p, (w.graph.attrs (.port id n)).port = some p → t.HasPort id p ∧ p.portNo = n

theorem Grown.extends {w w' : Walk R} (h : Grown w w') (he : w'.devicesAdded = w.devicesAdded) :
    Extends t w w' :=
  ⟨h, fun _ hid hnew => absurd (he ▸ hid) hnew⟩

/-! ### 一つずつの操作 -/

section Operations

variable {w : Walk R} {id : String} {p : Port}

theorem grown_addPort (w : Walk R) (id : String) (p : Port) : Grown w (w.addPort t id p) where
  added := List.Subset.refl _
  keys k hk := by simp [Walk.addPort, hk]
  adj u v h := by simp [Walk.addPort, h]
  device k h := by
    simp only [Walk.addPort, Graph.attrs_addEdge, Graph.attrs_addPortNode]
    split
    · exact h
    · exact h
  port k h := by
    simp only [Walk.addPort, Graph.attrs_addEdge, Graph.attrs_addPortNode]
    split
    · rfl
    · exact h

theorem Sound.addPort (h : Sound t w) (hid : t.Reachable id) (hp : t.HasPort id p) :
    Sound t (w.addPort t id p) where
  nodup := OrderedDict.nodup_keys_set (OrderedDict.nodup_keys_set (OrderedDict.nodup_keys_set h.nodup))
  simple := Graph.Simple.addEdge h.simple _ _
  reachable := h.reachable
  device x hx := by
    simp only [Walk.addPort, Graph.mem_keys_addEdge, Graph.mem_keys_addPortNode, reduceCtorEq,
      false_or, NodeKey.device.injEq] at hx
    rcases hx with rfl | hx
    · exact hid
    · exact h.device x hx
  port x n hx := by
    simp only [Walk.addPort, Graph.mem_keys_addEdge, Graph.mem_keys_addPortNode, reduceCtorEq,
      false_or, or_self_left, NodeKey.port.injEq] at hx
    rcases hx with ⟨rfl, rfl⟩ | hx
    · exact ⟨hid, p, hp, rfl⟩
    · exact h.port x n hx
  adj u v huv := by
    simp only [Walk.addPort, Graph.adj_addEdge, Graph.adj_addPortNode] at huv
    rcases huv with (⟨rfl, rfl⟩ | ⟨rfl, rfl⟩) | huv
    · exact Or.inl (.owns hid hp)
    · exact Or.inr (.owns hid hp)
    · exact h.adj u v huv
  deviceAttr x d hd := by
    simp only [Walk.addPort, Graph.attrs_addEdge, Graph.attrs_addPortNode, reduceCtorEq,
      if_false] at hd
    exact h.deviceAttr x d hd
  portAttr x n q hq := by
    simp only [Walk.addPort, Graph.attrs_addEdge, Graph.attrs_addPortNode] at hq
    split at hq
    · next he =>
      cases he
      cases hq
      exact ⟨hp, rfl⟩
    · exact h.portAttr x n q hq

/-- 相手の port への辺を足す。 -/
def Walk.link (w : Walk R) (id : String) (p : Port) (peer : PeerPort) : Walk R :=
  { w with graph := w.graph.addEdge (.port id p.portNo) (.port peer.deviceId peer.portNo) }

theorem grown_link (w : Walk R) (id : String) (p : Port) (peer : PeerPort) :
    Grown w (w.link id p peer) where
  added := List.Subset.refl _
  keys k hk := by simp [Walk.link, hk]
  adj u v h := by simp [Walk.link, h]
  device k h := by simpa [Walk.link] using h
  port k h := by simpa [Walk.link] using h

theorem Sound.link (h : Sound t w) (hm : t.Mutual) (hid : t.Reachable id) (hp : t.HasPort id p)
    {peer : PeerPort} (hpeer : peer ∈ p.peers) : Sound t (w.link id p peer) where
  nodup := OrderedDict.nodup_keys_set (OrderedDict.nodup_keys_set h.nodup)
  simple := h.simple.addEdge _ _
  reachable := h.reachable
  device x hx := by
    simp only [Walk.link, Graph.mem_keys_addEdge, reduceCtorEq, false_or] at hx
    exact h.device x hx
  port x n hx := by
    simp only [Walk.link, Graph.mem_keys_addEdge, NodeKey.port.injEq] at hx
    rcases hx with ⟨rfl, rfl⟩ | ⟨rfl, rfl⟩ | hx
    · obtain ⟨q, hq, hno, -⟩ := hm id p hid hp peer hpeer
      exact ⟨hid.next ⟨p, hp, peer, hpeer, rfl⟩, q, hq, hno⟩
    · exact ⟨hid, p, hp, rfl⟩
    · exact h.port x n hx
  adj u v huv := by
    simp only [Walk.link, Graph.adj_addEdge] at huv
    rcases huv with (⟨rfl, rfl⟩ | ⟨rfl, rfl⟩) | huv
    · exact Or.inl (.peered hid hp hpeer)
    · exact Or.inr (.peered hid hp hpeer)
    · exact h.adj u v huv
  deviceAttr x d hd := h.deviceAttr x d (by simpa [Walk.link] using hd)
  portAttr x n q hq := h.portAttr x n q (by simpa [Walk.link] using hq)

/-- device を足す。 -/
def Walk.enter (w : Walk R) (d : Device R) : Walk R :=
  ⟨w.graph.addDeviceNode d, w.devicesAdded ++ [d.id]⟩

theorem grown_enter (w : Walk R) (d : Device R) : Grown w (w.enter d) where
  added := List.subset_append_left _ _
  keys k hk := by simp [Walk.enter, hk]
  adj u v h := by simp [Walk.enter, h]
  device k h := by
    simp only [Walk.enter, Graph.attrs_addDeviceNode]
    split
    · rfl
    · exact h
  port k h := by
    simp only [Walk.enter, Graph.attrs_addDeviceNode]
    split
    · exact h
    · exact h

theorem Sound.enter (h : Sound t w) {d : Device R} (hd : t.device d.id = .ok d)
    (hid : t.Reachable d.id) : Sound t (w.enter d) where
  nodup := OrderedDict.nodup_keys_set h.nodup
  simple := h.simple
  reachable x hx := by
    rcases List.mem_append.mp hx with hx | hx
    · exact h.reachable x hx
    · rw [List.mem_singleton.mp hx]
      exact hid
  device x hx := by
    simp only [Walk.enter, Graph.mem_keys_addDeviceNode, NodeKey.device.injEq] at hx
    rcases hx with rfl | hx
    · exact hid
    · exact h.device x hx
  port x n hx := by
    simp only [Walk.enter, Graph.mem_keys_addDeviceNode, reduceCtorEq, false_or] at hx
    exact h.port x n hx
  adj := h.adj
  deviceAttr x d' hd' := by
    simp only [Walk.enter, Graph.attrs_addDeviceNode] at hd'
    split at hd'
    · next he =>
      cases he
      cases hd'
      exact hd
    · exact h.deviceAttr x d' hd'
  portAttr x n q hq := by
    simp only [Walk.enter, Graph.attrs_addDeviceNode, reduceCtorEq, if_false] at hq
    exact h.portAttr x n q hq

end Operations

/-! ### loop と再帰 -/

/-- 再帰の一回がすること。 -/
def Visits (t : Topology R) (fuel : Nat) : Prop :=
  ∀ (d : Device R) (w : Walk R), Sound t w → t.device d.id = .ok d → t.Reachable d.id →
    t.unseen w.devicesAdded < fuel →
    Yields (addDevice t fuel d w) fun w' => Sound t w' ∧ Extends t w w' ∧ d.id ∈ w'.devicesAdded

section Loops

variable {fuel : Nat} {id : String} {p : Port} {B : List String} {w : Walk R}

/-- 相手を一つたどる。新しい device なら、辺はその device の側から足される。 -/
theorem followPeers_done (hm : t.Mutual) (hvisit : Visits t fuel) (hB : t.unseen B < fuel)
    (hidB : id ∈ B) (hp : t.HasPort id p) (h : Sound t w ∧ B ⊆ w.devicesAdded) (peer : PeerPort)
    (hpeer : peer ∈ p.peers) :
    Yields (followPeers t (addDevice t fuel) (.port id p.portNo) w peer) fun w' =>
      (Sound t w' ∧ B ⊆ w'.devicesAdded) ∧ Extends t w w' ∧ (peer.deviceId ∈ w'.devicesAdded ∧
        w'.graph.Adj (.port id p.portNo) (.port peer.deviceId peer.portNo)) := by
  obtain ⟨hs, hBw⟩ := h
  have hid := hs.reachable id (hBw hidB)
  obtain ⟨q, hq, hno, hback⟩ := hm id p hid hp peer hpeer
  unfold followPeers
  split
  · next hnew =>
    obtain ⟨d, hd, hdid⟩ := Topology.device_of_hasPort hq
    rw [hd]
    have hreach : t.Reachable d.id := hid.next ⟨p, hp, peer, hpeer, hdid.symm⟩
    have hfuel := Nat.lt_of_le_of_lt (Topology.unseen_mono (t := t) hBw) hB
    refine (hvisit d w hs (by rw [hdid, hd]) hreach hfuel).mono fun w' hw' => ?_
    obtain ⟨hs', hext, hmem⟩ := hw'
    rw [hdid] at hmem
    refine ⟨⟨hs', List.Subset.trans hBw hext.added⟩, hext, hmem, ?_⟩
    -- 相手の device はたどり終えていて、こちらを見返している
    have hdone := ((hext.done _ hmem hnew).ports q hq).peers _ hback
    rw [hno] at hdone
    exact hdone.2.symm
  · next hmem =>
    rw [not_not] at hmem
    refine Yields.ok ⟨⟨hs.link hm hid hp hpeer, hBw⟩, ?_, hmem, ?_⟩
    · exact (grown_link w id p peer).extends rfl
    · simp

/-- port を一つたどり終える。 -/
theorem followPorts_done (hm : t.Mutual) (hvisit : Visits t fuel) (hB : t.unseen B < fuel)
    (hidB : id ∈ B) (hp : t.HasPort id p) (h : Sound t w ∧ B ⊆ w.devicesAdded) :
    Yields (followPorts t (addDevice t fuel) id w p) fun w' =>
      (Sound t w' ∧ B ⊆ w'.devicesAdded) ∧ Extends t w w' ∧ PortDone id p w' := by
  have hs := h.1.addPort (h.1.reachable id (h.2 hidB)) hp
  have hgrown := grown_addPort (t := t) w id p
  refine (Yields.foldlM (P := fun w => Sound t w ∧ B ⊆ w.devicesAdded) (R := Extends t)
    (D := fun (peer : PeerPort) w => peer.deviceId ∈ w.devicesAdded ∧
      w.graph.Adj (.port id p.portNo) (.port peer.deviceId peer.portNo))
    (fun peer a a' hD hR => ⟨hR.added hD.1, hR.adj _ _ hD.2⟩) p.peers
    (fun a ha peer hpeer => followPeers_done hm hvisit hB hidB hp ha peer hpeer)
    ⟨hs, h.2⟩).mono fun w' hw' => ?_
  obtain ⟨hsound, hext, hall⟩ := hw'
  refine ⟨hsound, IsTrans.trans _ _ _ (hgrown.extends rfl) hext, ?_, ?_, hall⟩
  · exact hext.port _ (by simp [Walk.addPort, Graph.attrs_addPortNode])
  · exact hext.adj _ _ (by simp [Walk.addPort])

/-- 残りの device より深い `fuel` があれば、device を一つたどり終える。 -/
theorem addDevice_visits (hm : t.Mutual) (fuel : Nat) : Visits t fuel := by
  induction fuel with
  | zero => exact fun d w _ _ _ hfuel => absurd hfuel (Nat.not_lt_zero _)
  | succ fuel ih =>
    intro d w hs hd hid hfuel
    rw [addDevice]
    split
    · next hmem => exact Yields.ok ⟨hs, Std.Refl.refl w, hmem⟩
    · next hnew =>
      obtain ⟨-, ps, hps⟩ := Topology.ports_of_device hd
      have hlt : t.unseen (w.devicesAdded ++ [d.id]) < fuel := by
        have := Topology.unseen_lt hnew (Topology.device_ok hd)
        omega
      have hmem : d.id ∈ w.devicesAdded ++ [d.id] := by simp
      have hloop := Yields.foldlM (R := Extends t) (D := fun p w => PortDone d.id p w)
        (fun p a a' hD hR => hD.grown hR.toGrown) ps
        (fun a ha p hp => followPorts_done hm ih hlt hmem ⟨ps, hps, hp⟩ ha)
        (a := w.enter d) ⟨hs.enter hd hid, List.Subset.refl _⟩
      rw [hps]
      refine hloop.mono fun w' hw' => ?_
      obtain ⟨⟨hs', hB⟩, hext, hall⟩ := hw'
      have hgrown := (grown_enter w d).trans hext.toGrown
      refine ⟨hs', ⟨hgrown, fun x hx hxnew => ?_⟩, hB hmem⟩
      by_cases hxd : x = d.id
      · subst hxd
        refine ⟨hext.device _ (by simp [Walk.enter, Graph.attrs_addDeviceNode]), fun p hp => ?_⟩
        obtain ⟨ps', hps', hp⟩ := hp
        rw [hps] at hps'
        cases hps'
        exact hall p hp
      · exact hext.done x hx (by simp [Walk.enter, hxnew, hxd])

end Loops

/-! ## graph の全体 -/

/-- graph の node はたどり着く device とその port、辺はその間の関係であり、どれも一つずつある。 -/
structure Graph.Discovers (t : Topology R) (g : Graph R) : Prop where
  nodup : g.keys.Nodup
  simple : g.Simple
  device : ∀ id, .device id ∈ g.keys ↔ t.Reachable id
  port : ∀ id n, .port id n ∈ g.keys ↔ t.Reachable id ∧ ∃ p, t.HasPort id p ∧ p.portNo = n
  adj : ∀ u v, g.Adj u v ↔ t.Link u v ∨ t.Link v u

/-- たどり着く device と port の node は、木にある device と port を属性に持つ。 -/
structure Graph.Holds (t : Topology R) (g : Graph R) : Prop where
  device : ∀ id, t.Reachable id → ∃ d, (g.attrs (.device id)).device = some d ∧ t.device id = .ok d
  port : ∀ id p, t.HasPort id p → t.Reachable id →
    ∃ q, (g.attrs (.port id p.portNo)).port = some q ∧ t.HasPort id q ∧ q.portNo = p.portNo

/-- どの logical port の device もある。 -/
def Topology.Grounded (t : Topology R) : Prop :=
  ∀ lp ∈ t.logicalPorts, ∃ d, t.device lp.deviceId = .ok d

theorem sound_empty (t : Topology R) : Sound t ⟨.empty, []⟩ where
  nodup := List.nodup_nil
  simple := List.nodup_nil
  reachable := nofun
  device := nofun
  port := nofun
  adj := fun _ _ h => h.elim nofun nofun
  deviceAttr := nofun
  portAttr := nofun

/-- logical port を一つたどる。 -/
def visitLogicalPort (t : Topology R) (w : Walk R) (lp : LogicalPort) :
    Except FlowError (Walk R) := do
  addDevice t (t.devices.length + 1) (← t.device lp.deviceId) w

theorem buildGraph_eq (t : Topology R) : buildGraph t
    = t.logicalPorts.foldlM (visitLogicalPort t) ⟨.empty, []⟩ >>= fun w => .ok w.graph := rfl

theorem visitLogicalPort_visits (hm : t.Mutual) {lp : LogicalPort} (hlp : lp ∈ t.logicalPorts)
    {d : Device R} (hd : t.device lp.deviceId = .ok d) {w : Walk R} (hs : Sound t w) :
    Yields (visitLogicalPort t w lp) fun w' =>
      Sound t w' ∧ Extends t w w' ∧ lp.deviceId ∈ w'.devicesAdded := by
  obtain ⟨hid, -⟩ := Topology.ports_of_device hd
  unfold visitLogicalPort
  rw [hd, ← hid]
  refine addDevice_visits hm _ d w hs (by rw [hid, hd]) ?_ ?_
  · rw [hid]
    exact ⟨lp, hlp, .refl⟩
  · exact Nat.lt_succ_of_le (List.length_filter_le _ _)

theorem buildGraph_discovers (hm : t.Mutual) (hg : t.Grounded) :
    Yields (buildGraph t) fun g => g.Discovers t ∧ g.Holds t := by
  have hloop := Yields.foldlM (P := Sound t) (R := Extends t)
    (D := fun (lp : LogicalPort) w => lp.deviceId ∈ w.devicesAdded) (fun _ _ _ hD hR => hR.added hD)
    t.logicalPorts (fun w hs lp hlp => by
      obtain ⟨d, hd⟩ := hg lp hlp
      exact visitLogicalPort_visits hm hlp hd hs) (sound_empty t)
  rw [buildGraph_eq]
  refine hloop.bind fun w hw => Yields.ok ?_
  obtain ⟨hs, hext, hall⟩ := hw
  -- たどり着く device はどれも足してある
  have hdone : ∀ id, t.Reachable id → Done t w id := by
    rintro id ⟨lp, hlp, hpath⟩
    refine hext.done id ?_ nofun
    induction hpath with
    | refl => exact hall lp hlp
    | tail _ hnext ih =>
      obtain ⟨p, hp, peer, hpeer, rfl⟩ := hnext
      exact (((hext.done _ ih nofun).ports p hp).peers peer hpeer).1
  have hmem : ∀ k, (w.graph.attrs k).device.isSome = true ∨ (w.graph.attrs k).port.isSome = true →
      k ∈ w.graph.keys := by
    intro k hk
    unfold Graph.keys
    rw [← OrderedDict.lookup_isSome]
    unfold Graph.attrs at hk
    cases hl : w.graph.nodes.lookup k with
    | none => simp [hl] at hk
    | some a => rfl
  have hlink : ∀ u v, t.Link u v → w.graph.Adj u v := by
    intro u v h
    cases h with
    | owns hr hp => exact ((hdone _ hr).ports _ hp).owned
    | peered hr hp hpeer => exact (((hdone _ hr).ports _ hp).peers _ hpeer).2
  refine ⟨⟨hs.nodup, hs.simple, fun id => ⟨hs.device id, fun hr => ?_⟩, fun id n =>
    ⟨hs.port id n, ?_⟩, fun u v => ⟨hs.adj u v, ?_⟩⟩, fun id hr => ?_, fun id p hp hr => ?_⟩
  · exact hmem _ (Or.inl (hdone id hr).attr)
  · rintro ⟨hr, p, hp, rfl⟩
    exact hmem _ (Or.inr ((hdone id hr).ports p hp).attr)
  · rintro (h | h)
    · exact hlink u v h
    · exact (hlink v u h).symm
  · obtain ⟨d, hd⟩ := Option.isSome_iff_exists.mp (hdone id hr).attr
    exact ⟨d, hd, hs.deviceAttr id d hd⟩
  · obtain ⟨q, hq⟩ := Option.isSome_iff_exists.mp ((hdone id hr).ports p hp).attr
    exact ⟨q, hq, hs.portAttr id _ q hq⟩

/-- device の無い logical port に当たれば、`KeyError` になる。 -/
theorem buildGraph_keyError (hm : t.Mutual) (hg : ¬t.Grounded) :
    buildGraph t = .error .keyError := by
  have hloop : ∀ l ⊆ t.logicalPorts, (∃ lp ∈ l, ¬∃ d, t.device lp.deviceId = .ok d) →
      ∀ w, Sound t w → l.foldlM (visitLogicalPort t) w = .error .keyError := by
    intro l
    induction l with
    | nil => exact fun _ ⟨lp, hlp, _⟩ => absurd hlp List.not_mem_nil
    | cons lp l ih =>
      intro hl hbad w hs
      rw [List.foldlM_cons]
      cases hd : t.device lp.deviceId with
      | error e =>
        obtain rfl : e = .keyError := by
          unfold Topology.device at hd
          split at hd <;> cases hd
          rfl
        simp [visitLogicalPort, hd, bind, Except.bind]
      | ok d =>
        obtain ⟨w', hw', hs', -, -⟩ := visitLogicalPort_visits hm (hl List.mem_cons_self) hd hs
        rw [hw']
        obtain ⟨lp', hlp', hno⟩ := hbad
        refine ih (fun x hx => hl (List.mem_cons_of_mem _ hx)) ⟨lp', ?_, hno⟩ w' hs'
        rcases List.mem_cons.mp hlp' with rfl | hlp'
        · exact absurd ⟨d, hd⟩ hno
        · exact hlp'
  unfold Topology.Grounded at hg
  push Not at hg
  obtain ⟨lp, hlp, hno⟩ := hg
  rw [buildGraph_eq, hloop t.logicalPorts (List.Subset.refl _) ⟨lp, hlp, ?_⟩ _ (sound_empty t)]
  · rfl
  · rintro ⟨d, hd⟩
    exact hno d hd

/--
**graph は完全で、並びに依らない。** 相手の関係が互いなら、logical port の device がみなあるときは、node も
辺もたどり着くものとちょうど一致し、無いものがあるときは `KeyError` になる。
-/
theorem graph_complete (hm : t.Mutual) :
    (t.Grounded → ∃ g, buildGraph t = .ok g ∧ g.Discovers t) ∧
      (¬t.Grounded → buildGraph t = .error .keyError) := by
  refine ⟨fun hg => ?_, buildGraph_keyError hm⟩
  obtain ⟨g, hok, hg, -⟩ := buildGraph_discovers hm hg
  exact ⟨g, hok, hg⟩

/-- 三つの device が輪につながる木。 -/
def ring : Topology Unit where
  rootDeviceId := "a"
  logicalPorts := [⟨"1", 1, "b", 1, true⟩]
  devices := [("a", "b", "c"), ("b", "c", "a"), ("c", "a", "b")].map fun (id, next, prev) =>
    (⟨id, false, 0, ()⟩,
      [⟨1, "", .unknown, .unknown, .unknown, id, [⟨next, 2⟩]⟩,
        ⟨2, "", .unknown, .unknown, .unknown, id, [⟨prev, 1⟩]⟩])

/-- 輪でも、node は九つ、辺は device との六つと port の間の三つである。 -/
theorem graph_complete_ring : (∃ g, buildGraph ring = .ok g ∧ g.Discovers ring) ∧
    (buildGraph ring).toOption.map (fun g => (g.nodes.length, g.edges.length)) = some (9, 9) := by
  have hm : ring.Mutual := Topology.mutual_of_listed (by decide)
  have hg : ring.Grounded := by
    intro lp hlp
    rw [List.mem_singleton.mp hlp]
    exact ⟨_, rfl⟩
  exact ⟨(graph_complete hm).1 hg, by decide⟩

end Voltha.Core
