import Mathlib.Data.List.TakeWhile
import Voltha.Lib.Exec
import Voltha.Lib.OrderedDict
import Voltha.Lib.Steps
import Voltha.Core.Device

/-!
# AdapterAgent の port

`voltha/core/adapter_agent.py` の `add_port`。port を足すとき、「for referential integrity」
として、相手の port の `peers` に自分を書き足す。

* 相手を **一つずつ** 書き、最後に自分の port を書く。途中で例外が飛べば、書いた分は残る
* 既にある port は丸ごと置き換える。前の `peers` にあった相手の側は直さない
-/

namespace Voltha.Core

open Exec

/-- device の木のうち、device ごとの port の表。key は device の id と port の番号。 -/
abbrev PortTree := List (String × List (UInt32 × Port))

/-- proxy が投げる例外。 -/
inductive TreeError where
  | keyError
deriving DecidableEq, Repr

abbrev TreeOp := Exec PortTree TreeError

namespace PortTree

/-- `root_proxy.get('/devices/{}/ports/{}')`。 -/
def port? (s : PortTree) (p : PeerPort) : Option Port :=
  (s.lookup p.deviceId).bind fun ports => ports.lookup p.portNo

/-- 既にある device の port を書く。 -/
def setPort (s : PortTree) (p : PeerPort) (port : Port) : PortTree :=
  match s.lookup p.deviceId with
  | some ports => OrderedDict.set s p.deviceId (OrderedDict.set ports p.portNo port)
  | none => s

end PortTree

/-- 相手の `peers` に `me` が無ければ、末尾に足す。 -/
def Port.augment (port : Port) (me : PeerPort) : Port :=
  if me ∈ port.peers then port else { port with peers := port.peers ++ [me] }

/-- `add_port` の loop の一回。 -/
def addReference (me peer : PeerPort) : TreeOp Unit := do
  let peerPort ← ofOption .keyError ((← read).port? peer)
  modify fun s => s.setPort peer (peerPort.augment me)

/-- `add_port` の loop。 -/
def addReferences (me : PeerPort) : List PeerPort → TreeOp Unit
  | [] => pure ()
  | peer :: peers => do
    addReference me peer
    addReferences me peers

/-- `_make_up_to_date('/devices/{}/ports', port_no, port)`。 -/
def makeUpToDate (deviceId : String) (port : Port) : TreeOp Unit := do
  let s ← read
  match s.port? ⟨deviceId, port.portNo⟩ with
  | some _ => modify fun s => s.setPort ⟨deviceId, port.portNo⟩ port
  | none =>
    require ((s.lookup deviceId).isSome = true) .keyError
    modify fun s => s.setPort ⟨deviceId, port.portNo⟩ port

/-- `add_port(device_id, port)`。 -/
def addPort (deviceId : String) (port : Port) : TreeOp Unit := do
  let port := { port with deviceId }
  addReferences ⟨deviceId, port.portNo⟩ port.peers
  makeUpToDate deviceId port

/-! ## 読み書きの規則 -/

namespace PortTree

variable {s s' : PortTree} {p q me : PeerPort} {port : Port}

theorem port?_setPort (h : (s.lookup p.deviceId).isSome = true) :
    (s.setPort p port).port? q = if q = p then some port else s.port? q := by
  obtain ⟨ports, hports⟩ := Option.isSome_iff_exists.mp h
  unfold setPort port?
  rw [hports]
  dsimp only
  rw [OrderedDict.lookup_set]
  by_cases hd : q.deviceId = p.deviceId
  · rw [if_pos hd, Option.bind_some, OrderedDict.lookup_set]
    by_cases hn : q.portNo = p.portNo
    · have hq : q = p := by
        cases q
        cases p
        simp_all
      simp [hq]
    · have hq : q ≠ p := fun he => hn (he ▸ rfl)
      rw [if_neg hn, if_neg hq, hd, hports, Option.bind_some]
  · have hq : q ≠ p := fun he => hd (he ▸ rfl)
    rw [if_neg hd, if_neg hq]

theorem lookup_setPort (d : String) :
    ((s.setPort p port).lookup d).isSome = (s.lookup d).isSome := by
  unfold setPort
  split
  · next ports hports =>
    rw [OrderedDict.lookup_set]
    split
    · next hd => rw [hd, hports]; rfl
    · rfl
  · rfl

theorem device_of_port (h : s.port? p = some port) : (s.lookup p.deviceId).isSome = true := by
  unfold port? at h
  cases hl : s.lookup p.deviceId with
  | none => rw [hl] at h; cases h
  | some ports => rfl

end PortTree

@[simp] theorem augment_augment (port : Port) (me : PeerPort) :
    (port.augment me).augment me = port.augment me := by
  unfold Port.augment
  by_cases h : me ∈ port.peers
  · simp [h]
  · simp [h]

theorem mem_augment {port : Port} {me q : PeerPort} :
    q ∈ (port.augment me).peers ↔ q ∈ port.peers ∨ q = me := by
  unfold Port.augment
  split
  · next h => exact ⟨Or.inl, fun hq => hq.elim id fun he => he ▸ h⟩
  · simp

theorem augment_eq_self {port : Port} {me : PeerPort} :
    port.augment me = port ↔ me ∈ port.peers := by
  constructor
  · intro h
    rw [← h]
    exact mem_augment.mpr (Or.inr rfl)
  · exact fun h => if_pos h

/-! ## loop が書くもの -/

/-- `ps` の port だけが、`me` を書き足されている。 -/
structure Referred (me : PeerPort) (ps : List PeerPort) (s s' : PortTree) : Prop where
  port : ∀ q, s'.port? q = if q ∈ ps then (s.port? q).map (·.augment me) else s.port? q
  device : ∀ d, (s'.lookup d).isSome = (s.lookup d).isSome

variable {s s' : PortTree} {p q me : PeerPort} {ps : List PeerPort}

theorem Referred.nil : Referred me [] s s := ⟨fun _ => by simp, fun _ => rfl⟩

theorem Referred.isSome (h : Referred me ps s s') (q : PeerPort) :
    (s'.port? q).isSome = (s.port? q).isSome := by
  rw [h.port]
  split
  · exact Option.isSome_map
  · rfl

/-- 先頭の相手を書いてから、残りを書く。 -/
theorem Referred.cons {port : Port} (hp : s.port? p = some port)
    (h : Referred me ps (s.setPort p (port.augment me)) s') : Referred me (p :: ps) s s' := by
  have hset : ∀ q, (s.setPort p (port.augment me)).port? q
      = if q = p then some (port.augment me) else s.port? q :=
    fun q => PortTree.port?_setPort (PortTree.device_of_port hp)
  constructor
  · intro q
    rw [h.port q, hset q]
    by_cases hq : q = p
    · subst hq
      simp [hp]
    · simp [hq]
  · intro d
    rw [h.device d, PortTree.lookup_setPort]

/-- loop は、すべての相手を書くか、初めの無い相手で止まる。 -/
theorem addReferences_cases (me : PeerPort) (ps : List PeerPort) (s : PortTree) :
    ((∀ p ∈ ps, (s.port? p).isSome = true) ∧
      ∃ s', addReferences me ps s = (.ok (), s') ∧ Referred me ps s s') ∨
    ((∃ p ∈ ps, s.port? p = none) ∧ ∃ s', addReferences me ps s = (.error .keyError, s') ∧
      Referred me (ps.takeWhile fun p => (s.port? p).isSome) s s') := by
  induction ps generalizing s with
  | nil => exact Or.inl ⟨fun p h => absurd h List.not_mem_nil, s, rfl, Referred.nil⟩
  | cons p ps ih =>
    rw [addReferences]
    cases hp : s.port? p with
    | none =>
      refine Or.inr ⟨⟨p, List.mem_cons_self, hp⟩, s, ?_, ?_⟩
      · simp [addReference, bind_apply, hp]
      · rw [List.takeWhile_cons, hp]
        exact Referred.nil
    | some port =>
      have hstep : addReference me p s = (.ok (), s.setPort p (port.augment me)) := by
        simp [addReference, hp]
      have hone : Referred me [p] s (s.setPort p (port.augment me)) :=
        Referred.cons hp Referred.nil
      rw [bind_ok hstep]
      rcases ih (s.setPort p (port.augment me)) with ⟨hall, s', he, h⟩ | ⟨hex, s', he, h⟩
      · refine Or.inl ⟨fun q hq => ?_, s', he, h.cons hp⟩
        rcases List.mem_cons.mp hq with rfl | hq
        · rw [hp]; rfl
        · rw [← hone.isSome]; exact hall q hq
      · refine Or.inr ⟨?_, s', he, ?_⟩
        · obtain ⟨q, hq, hnone⟩ := hex
          refine ⟨q, List.mem_cons_of_mem _ hq, ?_⟩
          rw [← Option.not_isSome_iff_eq_none, ← hone.isSome, hnone]
          simp
        · -- 書いても port の有無は変わらないので、止まる所も変わらない
          rw [List.takeWhile_cons, hp]
          simp only [hone.isSome] at h
          exact h.cons hp

/-! ## `add_port` の場合分け -/

/-- 相手が無いか、自分の device が無いので、例外になる。 -/
def AddRaises (s : PortTree) (deviceId : String) (port : Port) : Prop :=
  (∃ p ∈ port.peers, s.port? p = none) ∨ s.lookup deviceId = none

/-- 例外が飛ぶまでに書かれる相手。 -/
def writtenPeers (s : PortTree) (port : Port) : List PeerPort :=
  port.peers.takeWhile fun p => (s.port? p).isSome

theorem makeUpToDate_ok {deviceId : String} {port : Port} (h : (s.lookup deviceId).isSome = true) :
    makeUpToDate deviceId port s = (.ok (), s.setPort ⟨deviceId, port.portNo⟩ port) := by
  unfold makeUpToDate
  rw [read_bind_apply]
  cases s.port? ⟨deviceId, port.portNo⟩ with
  | some _ => rfl
  | none => simp [require, h]

theorem makeUpToDate_error {deviceId : String} {port : Port} (h : s.lookup deviceId = none) :
    makeUpToDate deviceId port s = (.error .keyError, s) := by
  have hnone : s.port? ⟨deviceId, port.portNo⟩ = none := by simp [PortTree.port?, h]
  simp [makeUpToDate, hnone, require, h]

/-- `add_port` は、途中まで書いて例外になるか、相手と自分を書く。 -/
theorem addPort_cases (deviceId : String) (port : Port) (s : PortTree) :
    (AddRaises s deviceId port ∧ ∃ s', addPort deviceId port s = (.error .keyError, s') ∧
      Referred ⟨deviceId, port.portNo⟩ (writtenPeers s port) s s') ∨
    (¬AddRaises s deviceId port ∧ ∃ s', addPort deviceId port s = (.ok (), s') ∧
      ∀ q, s'.port? q = if q = ⟨deviceId, port.portNo⟩ then some { port with deviceId }
        else if q ∈ port.peers then (s.port? q).map (·.augment ⟨deviceId, port.portNo⟩)
        else s.port? q) := by
  unfold addPort
  dsimp only
  rcases addReferences_cases ⟨deviceId, port.portNo⟩ port.peers s with
    ⟨hall, s₁, he, h⟩ | ⟨hex, s₁, he, h⟩
  · rw [bind_ok he]
    cases hd : s.lookup deviceId with
    | none =>
      have hd₁ : s₁.lookup deviceId = none := by
        rw [← Option.not_isSome_iff_eq_none, h.device, hd]
        simp
      have hwritten : writtenPeers s port = port.peers := List.takeWhile_eq_self_iff.mpr hall
      refine Or.inl ⟨Or.inr hd, s₁, makeUpToDate_error hd₁, ?_⟩
      rw [hwritten]
      exact h
    | some ports =>
      have hd₁ : (s₁.lookup deviceId).isSome = true := by rw [h.device, hd]; rfl
      refine Or.inr ⟨?_, _, makeUpToDate_ok hd₁, fun q => ?_⟩
      · rintro (⟨p, hp, hnone⟩ | hnone)
        · have := hall p hp
          rw [hnone] at this
          cases this
        · rw [hd] at hnone
          cases hnone
      · rw [PortTree.port?_setPort hd₁, h.port q]
  · rw [bind_error he]
    exact Or.inl ⟨Or.inl hex, s₁, rfl, h⟩

/-! ## 対称性 -/

namespace PortTree

/-- `p` の port の `peers` に `q` がある。 -/
def Lists (s : PortTree) (p q : PeerPort) : Prop := ∃ port, s.port? p = some port ∧ q ∈ port.peers

/-- 互いに名指している。 -/
def Symmetric (s : PortTree) : Prop := ∀ p q, s.Lists p q ↔ s.Lists q p

/-- 一つの `add_port`。例外が飛んでも、書かれた分は残る。 -/
def step (s : PortTree) (call : String × Port) : PortTree := (addPort call.1 call.2 s).2

/-- 後の木も対称で、例外で終わった呼び出しは port を変えない。 -/
def KeepsIntegrity (s : PortTree) (call : String × Port) : Prop :=
  (s.step call).Symmetric ∧
    ((addPort call.1 call.2 s).1.isOk = false → ∀ p, (s.step call).port? p = s.port? p)

open Classical in
/--
対称性を保つ呼び出し。

例外になるなら、それまでに書く相手は既に自分を名指している。
正常に終わるなら、今の相手は（自分自身の他は）新しい `peers` に残る。
-/
def Respects (s : PortTree) (call : String × Port) : Prop :=
  if AddRaises s call.1 call.2 then
    ∀ p ∈ writtenPeers s call.2, s.Lists p ⟨call.1, call.2.portNo⟩
  else
    ∀ q, q ≠ ⟨call.1, call.2.portNo⟩ → s.Lists ⟨call.1, call.2.portNo⟩ q → q ∈ call.2.peers

theorem Lists.congr (h : ∀ p, s'.port? p = s.port? p) : s'.Lists p q ↔ s.Lists p q := by
  unfold Lists
  rw [h]

theorem exists_of_mem_writtenPeers {port : Port} (h : p ∈ writtenPeers s port) :
    ∃ x, s.port? p = some x := by
  have hsome := List.mem_takeWhile_imp h
  exact Option.isSome_iff_exists.mp hsome

/-- 途中まで書いた木が元と同じなのは、書いた相手が既に自分を名指していたときに限る。 -/
theorem referred_unchanged_iff {port : Port}
    (h : Referred me (writtenPeers s port) s s') :
    (∀ p, s'.port? p = s.port? p) ↔ ∀ p ∈ writtenPeers s port, s.Lists p me := by
  constructor
  · intro hsame p hp
    obtain ⟨x, hx⟩ := exists_of_mem_writtenPeers hp
    have haug := hsame p
    rw [h.port, if_pos hp, hx, Option.map_some, Option.some.injEq, augment_eq_self] at haug
    exact ⟨x, hx, haug⟩
  · intro hlists p
    rw [h.port]
    split
    · next hp =>
      obtain ⟨x, hx, hmem⟩ := hlists p hp
      rw [hx, Option.map_some, augment_eq_self.mpr hmem]
    · rfl

section Returned

variable {port : Port} (hno : ∀ p ∈ port.peers, ∃ x, s.port? p = some x)
  {deviceId : String}
  (hport : ∀ q, s'.port? q = if q = ⟨deviceId, port.portNo⟩ then some { port with deviceId }
    else if q ∈ port.peers then (s.port? q).map (·.augment ⟨deviceId, port.portNo⟩)
    else s.port? q)

include hport in
/-- 書いた後、自分は新しい `peers` を名指す。 -/
theorem lists_me : s'.Lists ⟨deviceId, port.portNo⟩ q ↔ q ∈ port.peers := by
  unfold Lists
  rw [hport, if_pos rfl]
  simp

include hno hport in
/-- 書いた後の他の port は、元の相手と、新しく相手になった自分を名指す。 -/
theorem lists_other (hp : p ≠ ⟨deviceId, port.portNo⟩) :
    s'.Lists p q ↔ s.Lists p q ∨ (p ∈ port.peers ∧ q = ⟨deviceId, port.portNo⟩) := by
  unfold Lists
  rw [hport, if_neg hp]
  split
  · next hmem =>
    obtain ⟨x, hx⟩ := hno p hmem
    rw [hx]
    simp [mem_augment, hmem]
  · next hmem => simp [hmem]

include hno hport in
/-- 正常に終わった後で対称なのは、今の相手が新しい `peers` に残るときに限る。 -/
theorem Symmetric.returned_iff (hs : s.Symmetric) :
    s'.Symmetric ↔ ∀ q, q ≠ ⟨deviceId, port.portNo⟩ → s.Lists ⟨deviceId, port.portNo⟩ q →
      q ∈ port.peers := by
  have hback : ∀ q, q ≠ ⟨deviceId, port.portNo⟩ →
      (s'.Lists q ⟨deviceId, port.portNo⟩ ↔
        s.Lists ⟨deviceId, port.portNo⟩ q ∨ q ∈ port.peers) := by
    intro q hq
    rw [lists_other hno hport hq, hs q]
    simp
  constructor
  · intro h q hq hl
    exact (lists_me hport).mp ((h _ q).mpr ((hback q hq).mpr (Or.inl hl)))
  · intro h p q
    by_cases hp : p = ⟨deviceId, port.portNo⟩ <;> by_cases hq : q = ⟨deviceId, port.portNo⟩
    · rw [hp, hq]
    · rw [hp, lists_me hport, hback q hq]
      exact ⟨Or.inr, fun hl => hl.elim (h q hq) id⟩
    · rw [hq, lists_me hport, hback p hp]
      exact ⟨fun hl => hl.elim (h p hp) id, Or.inr⟩
    · rw [lists_other hno hport hp, lists_other hno hport hq]
      simp only [hp, hq, and_false, or_false]
      exact hs p q

end Returned

/-- 対称な木では、一つの呼び出しの性質と条件は同値である。 -/
theorem Symmetric.keepsIntegrity_iff (hs : s.Symmetric) (call : String × Port) :
    s.KeepsIntegrity call ↔ s.Respects call := by
  obtain ⟨deviceId, port⟩ := call
  unfold KeepsIntegrity Respects step
  rcases addPort_cases deviceId port s with ⟨hr, s', he, h⟩ | ⟨hr, s', he, hport⟩
  · rw [if_pos hr, he, ← referred_unchanged_iff h]
    constructor
    · exact fun hk => hk.2 rfl
    · refine fun hsame => ⟨fun p q => ?_, fun _ => hsame⟩
      rw [Lists.congr hsame, Lists.congr hsame]
      exact hs p q
  · have hno : ∀ p ∈ port.peers, ∃ x, s.port? p = some x := by
      intro p hp
      rw [← Option.isSome_iff_exists, ← Option.ne_none_iff_isSome]
      exact fun hnone => hr (Or.inl ⟨p, hp, hnone⟩)
    rw [if_neg hr, he, ← hs.returned_iff hno hport]
    constructor
    · exact fun hk => hk.1
    · exact fun hk => ⟨hk, fun hbad => by cases hbad⟩

end PortTree

/-- 相手を持つ PON の port。 -/
def ponPort (portNo : UInt32) (type : PortType) (peers : List PeerPort) : Port where
  portNo := portNo
  label := "pon"
  type := type
  adminState := .enabled
  operStatus := .active
  deviceId := ""
  peers := peers

/-- port の無い `onu` と、PON の port を一つ持つ `olt`。 -/
def oltTree : PortTree :=
  [("olt", [(1, { ponPort 1 .ponOlt [] with deviceId := "olt" })]), ("onu", [])]

theorem oltTree_symmetric : oltTree.Symmetric := by
  have hno : ∀ p q, ¬oltTree.Lists p q := by
    rintro ⟨d, n⟩ q ⟨port, hport, hq⟩
    simp only [oltTree, PortTree.port?, OrderedDict.lookup_cons_eq, List.lookup_nil] at hport
    split at hport
    · simp only [Option.bind_some, OrderedDict.lookup_cons_eq, List.lookup_nil] at hport
      split at hport
      · cases hport
        cases hq
      · cases hport
    · split at hport
      · cases hport
      · cases hport
  exact fun p q => ⟨fun h => absurd h (hno p q), fun h => absurd h (hno q p)⟩

end Voltha.Core
