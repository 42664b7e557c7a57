import Voltha.Config.Properties.Apart
import Voltha.Config.Properties.Cleanup
import Voltha.Config.Properties.Coherent

/-!
# 枝分かれした版と最新の版

transaction の branch は、枝分かれした版（`origin`）から始めて、local data を書き換えるか、
keyed な列を入れ替えるか、単独の子を同じ node の版に替えるかしていく。
この三つで保たれる二つの版の関係は、開いている transaction のどの branch でも成り立つ。
-/

namespace Voltha.Config

open Exec

variable {S : Schema} {κ : Mode} {X : State → Rev → Prop}
variable {s s' s₁ : State} {n : NodeId} {b : Branch} {t : TxId}
variable {Ok : List Seg → Act → Prop} {route : List Seg} {res : Except Err Rev}

/-- `t` の操作で保たれる、枝分かれした版と最新の版の関係。 -/
structure Follows (S : Schema) (t : TxId) (P : Option Rev → Rev → Prop) : Prop where
  fork : ∀ {r : Rev}, Untagged t r → P (some r) r
  config : ∀ {o : Option Rev} {r : Rev} {i : RevInfo}, P o r →
    i.config.type = (Rev.config r).type → P o (.mk i r.children)
  keyed : ∀ {o : Option Rev} {r : Rev} {f : ChildField} {l : List Rev} {i : RevInfo}, P o r →
    f ∈ S.fields (Rev.config r).type → f.key ≠ none → i.config = Rev.config r →
    P o (.mk i (FieldTree.setField r.children f.name l))
  single : ∀ {o : Option Rev} {r : Rev} {f : ChildField} {c c' : Rev} {i : RevInfo}, P o r →
    f ∈ S.fields (Rev.config r).type → f.key = none → c ∈ r.child f.name →
    Rev.node c' = Rev.node c → i.config = Rev.config r →
    P o (.mk i (FieldTree.setField r.children f.name [c']))

/-- `t` のどの branch でも `P` が成り立つ。 -/
def Branchwise (t : TxId) (P : Option Rev → Rev → Prop) (s : State) : Prop :=
  ∀ n b, (s.node n).branches (some t) = some b → P b.origin b.latest

variable {P : Option Rev → Rev → Prop}

theorem Branchwise.aside (h : Branchwise t P s) (ha : Aside t s s') : Branchwise t P s' := by
  intro n b hb
  rw [ha.branch] at hb
  exact h n b hb

theorem Branchwise.setBranch (h : Branchwise t P s) (hb : P b.origin b.latest)
    (hnode : s'.node = (s.setBranch n (some t) (some b)).node) : Branchwise t P s' := by
  intro m b' hb'
  rw [hnode, setBranch_branches] at hb'
  split at hb'
  · cases hb'; exact hb
  · exact h m b' hb'

theorem branchFor_branchwise (hP : Follows S t P) (h : Branchwise t P s) (hc : Clean t s)
    (hb : branchFor n (some t) s = (.ok b, s₁)) : Branchwise t P s₁ ∧ P b.origin b.latest := by
  rcases branchFor_cases hb with ⟨hbr, rfl⟩ | ⟨t', point, ht, -, hp, rfl, rfl⟩
  · exact ⟨h, h n b hbr⟩
  · obtain rfl := Option.some.inj ht
    have hr : P (some point) point := hP.fork (hc.latest hp)
    exact ⟨Branchwise.setBranch (s := s.addDirty n t) h hr rfl, hr⟩

theorem replaceLatest_branchwise (h : Branchwise t P s) {config : Data}
    {children : List (String × List Rev)} {anns : List (CallbackType × Context)} {r : Rev}
    (hr : replaceLatest n (some t) b config children anns s = (.ok r, s'))
    (hlatest : P b.origin r) : Branchwise t P s' :=
  h.setBranch hlatest (replaceLatest_spec hr).2.2.2

theorem mknode_branchwise (hg : Good S κ X s) (h : Branchwise t P s) {m : Msg}
    {slot : Option Slot} {o : Except Err Rev} (hm : mknode S m slot s = (o, s')) :
    Branchwise t P s' := by
  have hf := mknode_keeps S m slot s
  rw [hm] at hf
  intro n b hb
  rw [hf.branches_eq hg trivial] at hb
  exact h n b hb

/-- 操作の返す版は、始めた node のものである。 -/
theorem Effect.node_eq {k : Option TxId} {r : Rev} (hX : Closed X)
    (h : Effect S k Ok route n s (.ok r) s') (hg : Good S κ X s) : Rev.node r = n := by
  cases h with
  | same hb _ => exact (branchFor_good hX hg hb).2.node_latest
  | downSame hb _ _ _ _ => exact (branchFor_good hX hg hb).2.node_latest
  | write _ _ _ _ hr => rw [(replaceLatest_spec hr).1]; rfl
  | insert _ _ _ _ _ _ _ _ hr => rw [(replaceLatest_spec hr).1]; rfl
  | erase _ _ _ _ _ hr => rw [(replaceLatest_spec hr).1]; rfl
  | down _ _ _ _ _ hr => rw [(replaceLatest_spec hr).1]; rfl

/-- 子を差し替えた版も `P` を満たす。 -/
theorem Follows.replaceChild (hP : Follows S t P) {o : Option Rev} {r : Rev} (h : P o r)
    {f : ChildField} (hf : f ∈ S.fields (Rev.config r).type) {idx : Nat} {c c' : Rev}
    {v : Option Value} (hc : Found f (r.child f.name) idx c v) (hn : Rev.node c' = Rev.node c)
    {i : RevInfo} (hi : i.config = Rev.config r) :
    P o (.mk i (FieldTree.setField r.children f.name (replaceChild f (r.child f.name) idx c'))) := by
  by_cases hk : f.key = none
  · have hsingle : Voltha.Config.replaceChild f (r.child f.name) idx c' = [c'] := by
      unfold Voltha.Config.replaceChild
      rw [(hc.go hk).1]
    rw [hsingle]
    exact hP.single h hf hk hc.mem hn hi
  · exact hP.keyed h hf hk hi

/-- `t` の操作は、`t` の branch の `P` を保つ。 -/
theorem Effect.branchwise (hX : Closed X) (hP : Follows S t P)
    (h : Effect S (some t) Ok route n s res s') :
    Good S κ X s → Alive s n → Clean t s → Branchwise t P s → Branchwise t P s' := by
  have field : ∀ {s₁ : State} {n : NodeId} {b : Branch} {f : ChildField},
      BranchOk S κ X s₁ n (some t) b → f ∈ S.fields (s₁.node n).type →
      f ∈ S.fields (Rev.config b.latest).type := by
    intro s₁ n b f hb hf
    rw [hb.config_type]; exact hf
  induction h with
  | fail e h =>
    intro hg hn hc hl
    rcases h with rfl | rfl
    · exact hl
    · obtain ⟨b, s₁, hb⟩ := branchFor_isOk hn (some t)
      rw [hb]
      exact (branchFor_branchwise hP hl hc hb).1
  | same hb _ => exact fun _ _ hc hl => (branchFor_branchwise hP hl hc hb).1
  | write anns hb hty _ hr =>
    intro hg hn hc hl
    obtain ⟨hl1, hr1⟩ := branchFor_branchwise hP hl hc hb
    have hbok := (branchFor_good hX hg hb).2
    refine replaceLatest_branchwise hl1 hr ?_
    rw [(replaceLatest_spec hr).1]
    exact hP.config hr1 (hty.trans hbok.config_type.symm)
  | insert anns hb hf hkey _ _ _ hm hr =>
    intro hg hn hc hl
    obtain ⟨hl1, hr1⟩ := branchFor_branchwise hP hl hc hb
    obtain ⟨hg1, hbok⟩ := branchFor_good hX hg hb
    refine replaceLatest_branchwise (mknode_branchwise hg1 hl1 hm) hr ?_
    rw [(replaceLatest_spec hr).1]
    exact hP.keyed hr1 (field hbok hf) (by simp [hkey]) rfl
  | insertFail hb _ _ _ _ hm =>
    intro hg hn hc hl
    exact mknode_branchwise (branchFor_good hX hg hb).1 (branchFor_branchwise hP hl hc hb).1 hm
  | erase anns hb hf hfound _ hr =>
    intro hg hn hc hl
    obtain ⟨hl1, hr1⟩ := branchFor_branchwise hP hl hc hb
    have hbok := (branchFor_good hX hg hb).2
    obtain ⟨key, hkey, -⟩ := hfound
    refine replaceLatest_branchwise hl1 hr ?_
    rw [(replaceLatest_spec hr).1]
    exact hP.keyed hr1 (field hbok hf) (by simp [hkey]) rfl
  | down anns hb hf hfound heff hr ih =>
    intro hg hn hc hl
    obtain ⟨hl1, hr1⟩ := branchFor_branchwise hP hl hc hb
    obtain ⟨hg1, hbok⟩ := branchFor_good hX hg hb
    have hl2 := ih hg1 (hfound.childAt hbok hf).2.self.alive (branchFor_clean hc hb).1 hl1
    refine replaceLatest_branchwise hl2 hr ?_
    rw [(replaceLatest_spec hr).1]
    exact hP.replaceChild hr1 (field hbok hf) hfound (heff.node_eq hX hg1) rfl
  | downSame hb hf hfound _ _ ih =>
    intro hg hn hc hl
    obtain ⟨hg1, hbok⟩ := branchFor_good hX hg hb
    exact ih hg1 (hfound.childAt hbok hf).2.self.alive (branchFor_clean hc hb).1
      (branchFor_branchwise hP hl hc hb).1
  | keyChange _ hb hf _ hfound _ _ ih =>
    intro hg hn hc hl
    obtain ⟨hg1, hbok⟩ := branchFor_good hX hg hb
    exact ih hg1 (hfound.childAt hbok hf).2.self.alive (branchFor_clean hc hb).1
      (branchFor_branchwise hP hl hc hb).1
  | failBelow hb hf hfound _ ih =>
    intro hg hn hc hl
    obtain ⟨hg1, hbok⟩ := branchFor_good hX hg hb
    exact ih hg1 (hfound.childAt hbok hf).2.self.alive (branchFor_clean hc hb).1
      (branchFor_branchwise hP hl hc hb).1

/-! ## 実行 -/

theorem Branchwise.guarded (hP : Follows S t P) (hs : Basic S s) (hc : Clean t s)
    (h : Branchwise t P s) {op : Op Rev}
    (heff : Effect S (some t) Ok [] rootId s (op s).1 (op s).2) :
    Branchwise t P (inTransaction (some t) (rootOp (some t) op) s).2 := by
  rcases guarded_cases op (some t) s with ⟨he, -⟩ | ⟨-, -, he⟩ <;> rw [he]
  · exact h
  · exact (heff.branchwise closed_true hP hs.good hs.root hc h).aside (aside_executeDeferred _)

/-- 閉じる操作でなければ、開いている transaction の branch の `P` を保つ。 -/
theorem Branchwise.step (hP : Follows S t P) (hs : Basic S s) (hc : Clean t s)
    (h : Branchwise t P s) {st : Step} (ho : st.owner = some t) (hst : ¬st.Closes t) :
    Branchwise t P (step S s st) := by
  obtain ⟨op, he, heff⟩ := Step.owned_cases (S := S) (κ := ⟨False, False⟩) ho hst s
  refine Branchwise.aside ?_ (collect_aside _)
  rw [he]
  exact h.guarded hP hs hc (heff (Basic.allowed st))

theorem openTransaction_branchwise (hP : Follows S s.nextTx P) (hs : Basic S s)
    (ha : Absent s.nextTx s) (hc : Clean s.nextTx s) :
    Branchwise s.nextTx P (openTransaction s).2 := by
  obtain ⟨b, hb⟩ := Option.isSome_iff_exists.mp hs.root.born
  have hp := latest?_of_branch hb
  rw [openTransaction_eq hp]
  intro n b' hb'
  rw [opened_branches] at hb'
  split at hb'
  · cases hb'
    exact hP.fork (hc.latest hp)
  · rw [ha.branch] at hb'
    cases hb'

/-- 一歩の後で開いているどの transaction の branch でも、`P` が成り立つ。 -/
theorem step_branchwise {P : TxId → Option Rev → Rev → Prop} (hP : ∀ t, Follows S t (P t))
    (h : Tidy S s) (hbw : ∀ t ∈ s.txns, Branchwise t (P t) s) (st : Step) :
    ∀ t ∈ (step S s st).txns, Branchwise t (P t) (step S s st) := by
  intro t ht
  rcases h.open_cases ht with ⟨rfl, rfl⟩ | ⟨ht', ho, hcl⟩ | ⟨ht', ha⟩
  · obtain ⟨ha, hc⟩ := h.fresh s.nextTx (Nat.le_refl _)
    refine Branchwise.aside ?_ (collect_aside _)
    rw [perform, discard_state]
    exact openTransaction_branchwise (hP _) h.basic ha hc
  · exact (hbw t ht').step (hP t) h.basic (h.tended t ht').clean ho hcl
  · exact (hbw t ht').aside ha

end Voltha.Config
