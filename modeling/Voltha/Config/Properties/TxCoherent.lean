import Voltha.Config.Properties.Branchwise

/-!
# transaction の枝の中の揃い方

transaction `t` の操作も、子の node の `t` の branch を書き換えてから、親の `t` の branch の版を
作り直していく。したがって、親の枝の版にある `t` の枝の版は、その node の `t` の branch の
最新の版と同じ中身を持つ（`TxCoherent`）。merge はこの最新の版のほうを混ぜるので、
列にある版と混ざる版が食い違わないことが、ここから言える。
-/

namespace Voltha.Config

open Exec

variable {S : Schema} {κ : Mode} {X : State → Rev → Prop}
variable {s s' s₁ : State} {n : NodeId} {b : Branch} {t : TxId}
variable {Ok : List Seg → Act → Prop} {route : List Seg} {res : Except Err Rev}

/-- 版 `x` は、その node の `t` の branch の最新の版と同じ中身を持つ。 -/
def TxInStep (t : TxId) (s : State) (x : Rev) : Prop :=
  ∃ b, (s.node (Rev.node x)).branches (some t) = some b ∧ Rev.content b.latest = Rev.content x

/-- `t` の branch の最新の版にある `t` の枝の版は、`p` の node のものを除いて揃っている。 -/
def TxCoherentBut (S : Schema) (t : TxId) (p : NodeId → Prop) (s : State) : Prop :=
  ∀ n b, (s.node n).branches (some t) = some b → ∀ f ∈ S.fields (Rev.config b.latest).type,
    ∀ x ∈ b.latest.child f.name, Rev.tag x = .tx t → ¬p (Rev.node x) → TxInStep t s x

/-- `t` の branch の最新の版にある `t` の枝の版は、どれも揃っている。 -/
def TxCoherent (S : Schema) (t : TxId) (s : State) : Prop := TxCoherentBut S t (fun _ => False) s

theorem TxCoherent.but (h : TxCoherent S t s) (p : NodeId → Prop) : TxCoherentBut S t p s :=
  fun n b hb f hf x hx htag _ => h n b hb f hf x hx htag id

theorem TxInStep.congr {x : Rev} (h : TxInStep t s x)
    (he : (s'.node (Rev.node x)).branches (some t) = (s.node (Rev.node x)).branches (some t)) :
    TxInStep t s' x := by
  obtain ⟨b, hb, hc⟩ := h
  exact ⟨b, he.trans hb, hc⟩

theorem TxCoherentBut.congr {p : NodeId → Prop} (h : TxCoherentBut S t p s)
    (hb : ∀ m, (s'.node m).branches (some t) = (s.node m).branches (some t)) :
    TxCoherentBut S t p s' := by
  intro m b hbm f hf x hx htag hp
  rw [hb] at hbm
  exact (h m b hbm f hf x hx htag hp).congr (hb _)

theorem branchFor_txCoherent (hc : Clean t s) (h : TxCoherent S t s)
    (hb : branchFor n (some t) s = (.ok b, s₁)) : TxCoherent S t s₁ := by
  rcases branchFor_cases hb with ⟨-, rfl⟩ | ⟨t', point, ht, hnone, hp, rfl, rfl⟩
  · exact h
  obtain rfl := Option.some.inj ht
  intro m b' hb' f hf x hx htag _
  rw [fork_branches] at hb'
  split at hb'
  · -- 枝分かれしたばかりの版に、`t` の枝の版は無い
    cases hb'
    exact absurd htag (((hc.latest hp).child hx) x (FieldTree.Sub.refl x))
  · obtain ⟨bx, hbx, hcontent⟩ := h m b' hb' f hf x hx htag id
    refine ⟨bx, ?_, hcontent⟩
    rw [fork_branches, if_neg fun he => ?_]
    · exact hbx
    · rw [he.1, hnone] at hbx
      cases hbx

/-- node `n` の版を作り直した後に食い違うのは、`n` を指す版だけである。 -/
theorem TxCoherentBut.replace {config : Data} {children : List (String × List Rev)}
    {anns : List (CallbackType × Context)} {r : Rev}
    (h : replaceLatest n (some t) b config children anns s = (.ok r, s'))
    (hother : ∀ m b', m ≠ n → (s.node m).branches (some t) = some b' →
      ∀ f ∈ S.fields (Rev.config b'.latest).type, ∀ x ∈ b'.latest.child f.name,
        Rev.tag x = .tx t → Rev.node x ≠ n → TxInStep t s x)
    (hself : ∀ f ∈ S.fields (Rev.config r).type, ∀ x ∈ r.child f.name,
      Rev.tag x = .tx t → Rev.node x ≠ n → TxInStep t s x) : TxCoherentBut S t (· = n) s' := by
  obtain ⟨-, -, -, hnode⟩ := replaceLatest_spec h
  have hbr : ∀ m, m ≠ n → (s'.node m).branches (some t) = (s.node m).branches (some t) := by
    intro m hm; rw [hnode, setBranch_branches, if_neg fun he => hm he.1]
  intro m b' hb' f hf x hx htag hne
  refine TxInStep.congr ?_ (hbr _ hne)
  by_cases hm : m = n
  · subst hm
    rw [hnode, setBranch_branches, if_pos ⟨rfl, rfl⟩] at hb'
    cases hb'
    exact hself f hf x hx htag hne
  · rw [hbr m hm] at hb'
    exact hother m b' hm hb' f hf x hx htag hne

/-- 操作の後の揃い方。正常に終われば、食い違うのは `n` を指す親の版だけである。 -/
def TxSettled (S : Schema) (t : TxId) (n : NodeId) (s : State) : Except Err Rev → Prop
  | .ok _ => TxCoherentBut S t (· = n) s
  | .error _ => TxCoherent S t s

theorem mknode_txCoherent (hg : Good S κ X s) (h : TxCoherent S t s) {m : Msg}
    {slot : Option Slot} {o : Except Err Rev} (hm : mknode S m slot s = (o, s')) :
    TxCoherent S t s' := by
  have hf := mknode_keeps S m slot s
  rw [hm] at hf
  exact TxCoherentBut.congr h (hf.branches_eq hg trivial)

theorem write_txCoherent (hbok : BranchOk S κ X s n (some t) b)
    (hbr : (s.node n).branches (some t) = some b) (hl : TxCoherent S t s) {d : Data} {r : Rev}
    {anns : List (CallbackType × Context)} (hty : d.type = (s.node n).type)
    (hr : replaceLatest n (some t) b d b.latest.children anns s = (.ok r, s')) :
    TxCoherentBut S t (· = n) s' := by
  refine TxCoherentBut.replace hr (fun m b' _ hb' f hf x hx htag _ =>
    hl m b' hb' f hf x hx htag id) fun f hf x hx htag _ => ?_
  rw [(replaceLatest_spec hr).1] at hf hx
  have hf : f ∈ S.fields d.type := hf
  rw [hty, ← hbok.config_type] at hf
  exact hl n b hbr f hf x hx htag id

theorem insert_txCoherent (hg : Good S κ X s) (hbok : BranchOk S κ X s n (some t) b)
    (hbr : (s.node n).branches (some t) = some b) (hc : Clean t s) (hl : TxCoherent S t s)
    {s₂ : State} {f : ChildField} {slot : Option Slot} {m : Msg} {c r : Rev}
    {anns : List (CallbackType × Context)} (hm : mknode S m slot s = (.ok c, s₂))
    (hr : install n (some t) b f.name (b.latest.child f.name ++ [c]) anns s₂ = (.ok r, s')) :
    TxCoherentBut S t (· = n) s' := by
  have hl2 := mknode_txCoherent hg hl hm
  have hbr2 : (s₂.node n).branches (some t) = some b := by
    rw [mknode_other hm hbok.lt]
    exact hbr
  -- 作ったばかりの node の版は、`t` の枝のものではない
  have hnew := (wp_ok (mknode_clean S t m slot s hc) hm).2
  refine TxCoherentBut.replace hr (fun m b' _ hb' f hf x hx htag _ =>
    hl2 m b' hb' f hf x hx htag id) fun g hg' x hx htag _ => ?_
  rw [(replaceLatest_spec hr).1] at hg' hx
  rcases mem_child_setField hx with ⟨hgf, hx⟩ | ⟨-, hx⟩
  · rcases List.mem_append.mp hx with hx | hx
    · exact hl2 n b hbr2 g hg' x (by rw [hgf]; exact hx) htag id
    · rw [List.mem_singleton.mp hx] at htag
      exact absurd htag (hnew c (FieldTree.Sub.refl c))
  · exact hl2 n b hbr2 g hg' x hx htag id

theorem erase_txCoherent (hbr : (s.node n).branches (some t) = some b) (hl : TxCoherent S t s)
    {f : ChildField} {idx : Nat} {r : Rev} {anns : List (CallbackType × Context)}
    (hr : install n (some t) b f.name ((b.latest.child f.name).eraseIdx idx) anns s
      = (.ok r, s')) : TxCoherentBut S t (· = n) s' := by
  refine TxCoherentBut.replace hr (fun m b' _ hb' f hf x hx htag _ =>
    hl m b' hb' f hf x hx htag id) fun g hg' x hx htag _ => ?_
  rw [(replaceLatest_spec hr).1] at hg' hx
  rcases mem_child_setField hx with ⟨hgf, hx⟩ | ⟨-, hx⟩
  · exact hl n b hbr g hg' x (by rw [hgf]; exact List.mem_of_mem_eraseIdx hx) htag id
  · exact hl n b hbr g hg' x hx htag id

/-- ある版の子の列にある node の版は、その node の親の版にしか無い。 -/
theorem Good.parent_of_child (hg : Good S κ X s) {f g : ChildField} {c : NodeId} {m : NodeId}
    {b' : Branch} (hat : ChildAt s n f c) (hb' : (s.node m).branches k = some b')
    (hgm : g ∈ S.fields (Rev.config b'.latest).type) {x : Rev} (hx : x ∈ b'.latest.child g.name)
    (he : Rev.node x = c) : m = n ∧ g.name = f.name := by
  have hbm := hg.branch m k b' hb'
  rw [hbm.config_type] at hgm
  have hax := (hbm.childAt hgm hx).1
  rw [he] at hax
  exact hax.unique hat

theorem down_txCoherent (hκ : κ.keys) (hbok : BranchOk S κ X s n (some t) b) {s₂ : State}
    {f : ChildField} {idx : Nat} {v : Option Value} {c c' r : Rev}
    {anns : List (CallbackType × Context)} (hf : f ∈ S.fields (s.node n).type)
    (hfound : Found f (b.latest.child f.name) idx c v) (hf2 : Frame (· ≠ some t) s s₂)
    (hland : Landed S κ X (some t) (Rev.node c) s₂ (.ok c'))
    (hbr2 : (s₂.node n).branches (some t) = some b)
    (hl2 : TxCoherentBut S t (· = Rev.node c) s₂)
    (hr : install n (some t) b f.name (replaceChild f (b.latest.child f.name) idx c') anns s₂
      = (.ok r, s')) : TxCoherentBut S t (· = n) s' := by
  obtain ⟨hg2, hnode, -, bc, hbc, hbcl⟩ := hland
  have hat2 : ChildAt s₂ n f (Rev.node c) := (hfound.childAt hbok hf).1.mono hf2
  refine TxCoherentBut.replace hr ?_ ?_
  · -- 降りた先の node を指すのは、その親である自分の版だけである
    intro m b' hm hb' g hgm x hx htag _
    exact hl2 m b' hb' g hgm x hx htag fun he => hm (hg2.parent_of_child hat2 hb' hgm hx he).1
  · intro g hgn x hx htag _
    rw [(replaceLatest_spec hr).1] at hgn hx
    rcases mem_child_setField hx with ⟨hgf, hx⟩ | ⟨hgf, hx⟩
    · rcases hfound.replaceChild_cases hκ hbok hf hx with rfl | ⟨hx, hne⟩
      · refine ⟨bc, ?_, by rw [hbcl]⟩
        rw [hnode]; exact hbc
      · exact hl2 n b hbr2 g hgn x (by rw [hgf]; exact hx) htag hne
    · exact hl2 n b hbr2 g hgn x hx htag fun he =>
        hgf (hg2.parent_of_child hat2 hbr2 hgn hx he).2

theorem downSame_txCoherent (hκ : κ.keys) (hτ : κ.typed) (hbok : BranchOk S κ X s n (some t) b)
    {s₂ : State} {f : ChildField} {idx : Nat} {v : Value} {c c' : Rev}
    (hf : f ∈ S.fields (s.node n).type)
    (hfound : Found f (b.latest.child f.name) idx c (some v)) (hf2 : Frame (· ≠ some t) s s₂)
    (hland : Landed S κ X (some t) (Rev.node c) s₂ (.ok c'))
    (hbr2 : (s₂.node n).branches (some t) = some b)
    (hl2 : TxCoherentBut S t (· = Rev.node c) s₂) (hh : Rev.hash c' = Rev.hash c) :
    TxCoherentBut S t (· = n) s₂ := by
  obtain ⟨hat, hdc⟩ := hfound.childAt hbok hf
  obtain ⟨hg2, hnode, hdeep, bc, hbc, hbcl⟩ := hland
  have hat2 : ChildAt s₂ n f (Rev.node c) := hat.mono hf2
  have hsame : Rev.content c' = Rev.content c := hdeep.content_eq_of_hash hτ hdc hh
  intro m b' hb' g hgm x hx htag _
  by_cases he : Rev.node x = Rev.node c
  · -- hash が同じなので、親の版にある子の版は、いまも子の node の最新の版と揃う
    obtain ⟨rfl, hname⟩ := hg2.parent_of_child hat2 hb' hgm hx he
    rw [hbr2] at hb'
    cases hb'
    rw [hname] at hx
    obtain rfl := hfound.eq_of_node hκ hbok hf hx he
    exact ⟨bc, hbc, by rw [hbcl, hsame]⟩
  · exact hl2 m b' hb' g hgm x hx htag he

/-- `t` の操作の後も、`t` の枝の版は揃っている。 -/
theorem Effect.txCoherent (hX : Closed X) (hκ : κ.keys) (hτ : κ.typed)
    (hOk : ∀ route act, Ok route act → Keeping S κ route act)
    (h : Effect S (some t) Ok route n s res s') : Good S κ X s → Alive s n →
    SlotRoute s n route → Clean t s → TxCoherent S t s → TxSettled S t n s' res := by
  induction h with
  | fail e h =>
    intro hg hn _ hc hl
    rcases h with rfl | rfl
    · exact hl
    · obtain ⟨b, s₁, hb⟩ := branchFor_isOk hn (some t)
      rw [hb]
      exact branchFor_txCoherent hc hl hb
  | @same route n s s₁ b hb _ =>
    intro hg hn _ hc hl
    exact (branchFor_txCoherent hc hl hb).but (· = n)
  | write anns hb hty _ hr =>
    intro hg hn _ hc hl
    exact write_txCoherent (branchFor_good hX hg hb).2 (branchFor_sameView hb).2.2
      (branchFor_txCoherent hc hl hb) hty hr
  | insert anns hb hf hkey hv _ hok hm hr =>
    intro hg hn _ hc hl
    obtain ⟨hg1, hbok⟩ := branchFor_good hX hg hb
    exact insert_txCoherent hg1 hbok (branchFor_sameView hb).2.2 (branchFor_clean hc hb).1
      (branchFor_txCoherent hc hl hb) hm hr
  | insertFail hb _ _ _ _ hm =>
    intro hg hn _ hc hl
    exact mknode_txCoherent (branchFor_good hX hg hb).1 (branchFor_txCoherent hc hl hb) hm
  | erase anns hb _ _ _ hr =>
    intro hg hn _ hc hl
    exact erase_txCoherent (branchFor_sameView hb).2.2 (branchFor_txCoherent hc hl hb) hr
  | down anns hb hf hfound heff hr ih =>
    intro hg hn _ hc hl
    obtain ⟨hg1, hbok⟩ := branchFor_good hX hg hb
    obtain ⟨halive, hsl⟩ := hfound.below hκ hbok hf
    have hbr2 := heff.parent_branches hX hbok hg1 hf hfound
    exact down_txCoherent hκ hbok hf hfound heff.frame (heff.good hX hOk hg1 halive fun _ => hsl)
      (by rw [hbr2]; exact (branchFor_sameView hb).2.2)
      (ih hg1 halive hsl (branchFor_clean hc hb).1 (branchFor_txCoherent hc hl hb)) hr
  | downSame hb hf hfound heff hh ih =>
    intro hg hn _ hc hl
    obtain ⟨hg1, hbok⟩ := branchFor_good hX hg hb
    obtain ⟨halive, hsl⟩ := hfound.below hκ hbok hf
    have hbr2 := heff.parent_branches hX hbok hg1 hf hfound
    exact downSame_txCoherent hκ hτ hbok hf hfound heff.frame
      (heff.good hX hOk hg1 halive fun _ => hsl)
      (by rw [hbr2]; exact (branchFor_sameView hb).2.2)
      (ih hg1 halive hsl (branchFor_clean hc hb).1 (branchFor_txCoherent hc hl hb)) hh
  | keyChange e hb hf hkey hfound heff hne ih =>
    intro hg hn _ hc hl
    obtain ⟨hg1, hbok⟩ := branchFor_good hX hg hb
    obtain ⟨halive, hsl⟩ := hfound.below hκ hbok hf
    exact absurd (Landed.keyIn_eq hκ hbok hf hkey hfound heff.frame
      (heff.good hX hOk hg1 halive fun _ => hsl)) hne
  | failBelow hb hf hfound heff ih =>
    intro hg hn _ hc hl
    obtain ⟨hg1, hbok⟩ := branchFor_good hX hg hb
    obtain ⟨halive, hsl⟩ := hfound.below hκ hbok hf
    exact ih hg1 halive hsl
      (branchFor_clean hc hb).1 (branchFor_txCoherent hc hl hb)

/-! ## 実行 -/

/-- root を指す版は無い。 -/
theorem TxCoherentBut.root (hg : Good S κ X s) (h : TxCoherentBut S t (· = rootId) s) :
    TxCoherent S t s := by
  intro n b hb f hf x hx htag _
  refine h n b hb f hf x hx htag fun he => ?_
  have hbok := hg.branch n (some t) b hb
  rw [hbok.config_type] at hf
  have hlt := (hbok.childAt hf hx).1.younger
  rw [he] at hlt
  exact Nat.not_lt_zero _ hlt

theorem TxCoherent.aside (h : TxCoherent S t s) (ha : Aside t s s') : TxCoherent S t s' :=
  TxCoherentBut.congr h ha.branch

/-- 閉じる操作でなければ、開いている transaction の枝の版は揃っている。 -/
theorem TxCoherent.step (hX : Closed X) (hκ : κ.keys) (hτ : κ.typed) (hs : Sound S κ X s)
    (hc : Clean t s) (h : TxCoherent S t s) {st : Step} (ho : st.owner = some t)
    (hst : ¬st.Closes t) (hal : st.Allowed S κ s) : TxCoherent S t (step S s st) := by
  obtain ⟨op, he, heff⟩ := Step.owned_cases (S := S) (κ := κ) ho hst s
  refine TxCoherent.aside ?_ (collect_aside _)
  rw [he]
  rcases guarded_cases op (some t) s with ⟨hg, -⟩ | ⟨-, -, hg⟩ <;> rw [hg]
  · exact h
  · have hland := (heff hal).good hX (fun _ _ h => h) hs.good hs.root fun _ => hs.slotRoute []
    have hset := (heff hal).txCoherent hX hκ hτ (fun _ _ h => h) hs.good hs.root (hs.slotRoute [])
      hc h
    refine TxCoherent.aside ?_ (aside_executeDeferred _)
    cases hres : (op s).1 with
    | ok r => rw [hres] at hset; exact TxCoherentBut.root hland.good hset
    | error e => rw [hres] at hset; exact hset

theorem openTransaction_txCoherent (hs : Sound S κ X s) (ha : Absent s.nextTx s)
    (hc : Clean s.nextTx s) : TxCoherent S s.nextTx (openTransaction s).2 := by
  obtain ⟨b, hb⟩ := Option.isSome_iff_exists.mp hs.root.born
  have hp := latest?_of_branch hb
  rw [openTransaction_eq hp]
  intro n b' hb' f hf x hx htag _
  rw [opened_branches] at hb'
  split at hb'
  · cases hb'
    exact absurd htag (((hc.latest hp).child hx) x (FieldTree.Sub.refl x))
  · rw [ha.branch] at hb'
    cases hb'

/-- 一歩の後で開いているどの transaction でも、枝の版は揃っている。 -/
theorem step_txCoherent (hX : Closed X) (hκ : κ.keys) (hτ : κ.typed) (hs : Sound S κ X s)
    (h : Tidy S s) (htc : ∀ t ∈ s.txns, TxCoherent S t s) {st : Step} (hal : st.Allowed S κ s) :
    ∀ t ∈ (step S s st).txns, TxCoherent S t (step S s st) := by
  intro t ht
  rcases h.open_cases ht with ⟨rfl, rfl⟩ | ⟨ht', ho, hcl⟩ | ⟨ht', ha⟩
  · obtain ⟨ha, hc⟩ := h.fresh s.nextTx (Nat.le_refl _)
    refine TxCoherent.aside ?_ (collect_aside _)
    rw [perform, discard_state]
    exact openTransaction_txCoherent hs ha hc
  · exact (htc t ht').step hX hκ hτ hs (h.tended t ht').clean ho hcl hal
  · exact (htc t ht').aside ha

end Voltha.Config
