import Voltha.Config.Properties.WellFormed

/-!
# 不変条件の保存：`update` / `add` / `remove`

版を作る・据えるという基本の操作について `Good` の保存を示し、
path に沿った帰納法で `update` / `add` / `remove` に広げる。
操作が例外で終わる場合も含む。
-/

namespace Voltha.Config

open Exec

variable {S : Schema} {κ : Mode} {X : State → Rev → Prop}
variable {s s' : State} {n : NodeId} {k : Option TxId}

/-! ## 版を作る -/

/-- `newRev` の結果。node の表は変わらない。 -/
theorem newRev_spec (hX : Closed X) {tag : BranchTag} {store : StoreRef}
    (hstore : Inherits X s store) (config : Data) (children : List (String × List Rev))
    (K : Option TxId → Prop) :
    wp (newRev n tag store config children)
      (fun r s' => Frame K s s' ∧ s'.node = s.node ∧ s'.detached = s.detached ∧
        s'.dirty = s.dirty ∧ X s' r ∧
        r = .mk { uid := s.nextUid, node := n, tag, store, config } children)
      (fun _ _ => False) s := by
  have hkeep := newRev_keeps (K := K) n tag store config children s
  have hnew := hX.new s (newRev n tag store config children s).2 n tag store config children _
    hstore rfl
  refine ⟨hkeep, ?_, ?_, ?_, hnew, rfl⟩
  · exact finalizeRev_node _ _
  · simp only [State.finalizeRev]; split <;> rfl
  · simp only [State.finalizeRev]; split <;> rfl

/-- 子の辞書を差し替えた版を、その子の列で読む。 -/
theorem child_setField {r : Rev} {i : RevInfo} {f : String} {l : List Rev}
    (hf : f ∈ r.children.map Prod.fst) (g : String) :
    FieldTree.child (.mk i (FieldTree.setField r.children f l)) g
      = if g = f then l else r.child g := by
  unfold FieldTree.child
  rw [FieldTree.children_mk, FieldTree.lookup_setField]
  split
  · obtain ⟨m, hm⟩ := FieldTree.lookup_isSome_of_mem hf
    rw [hm]; rfl
  · rfl

/-- 差し替えた後の子の列。元の版にその field が無ければ空のままである。 -/
theorem child_setField_cases {r : Rev} {i : RevInfo} {f : String} {l : List Rev} (g : String) :
    FieldTree.child (.mk i (FieldTree.setField r.children f l)) g = [] ∨
    (g = f ∧ FieldTree.child (.mk i (FieldTree.setField r.children f l)) g = l) ∨
    (g ≠ f ∧ FieldTree.child (.mk i (FieldTree.setField r.children f l)) g = r.child g) := by
  unfold FieldTree.child
  rw [FieldTree.children_mk, FieldTree.lookup_setField]
  split
  · next he =>
    cases r.children.lookup f with
    | none => exact Or.inl rfl
    | some m => exact Or.inr (Or.inl ⟨he, rfl⟩)
  · next he => exact Or.inr (Or.inr ⟨he, rfl⟩)

/-- 差し替えた後の子は、新しい列のものか、元の版の子である。 -/
theorem mem_child_setField {r : Rev} {i : RevInfo} {f g : String} {l : List Rev} {c : Rev}
    (h : c ∈ FieldTree.child (.mk i (FieldTree.setField r.children f l)) g) :
    g = f ∧ c ∈ l ∨ g ≠ f ∧ c ∈ r.child g := by
  rcases child_setField_cases (r := r) (i := i) (f := f) (l := l) g with hn | ⟨he, hc⟩ | ⟨he, hc⟩
  · rw [hn] at h; cases h
  · rw [hc] at h; exact Or.inl ⟨he, h⟩
  · rw [hc] at h; exact Or.inr ⟨he, h⟩

/-- 一つの field の子の列が、field の型のとおりであること。 -/
structure ShapeList (f : ChildField) (l : List Rev) : Prop where
  typed : ∀ c ∈ l, (Rev.config c).type = f.type
  single : f.kind = .single → ∃ c, l = [c]

/-- 一つの field の子の列で、key が重ならないこと。 -/
def DistinctKeys (f : ChildField) (l : List Rev) : Prop :=
  ∀ key, f.key = some key → (l.map (Rev.keyIn key)).Nodup

theorem Shape.list {r : Rev} (h : Shape S r) {f : ChildField}
    (hf : f ∈ S.fields (Rev.config r).type) : ShapeList f (r.child f.name) :=
  ⟨h.typed f hf, h.single f hf⟩

/-- 一つの field の子を差し替えても、schema のとおりの形である。 -/
theorem Shape.setField {r : Rev} (h : Shape S r) {f : ChildField}
    (hf : f ∈ S.fields (Rev.config r).type) {l : List Rev} {i : RevInfo} (hl : ShapeList f l)
    (hcfg : i.config = Rev.config r) :
    Shape S (.mk i (FieldTree.setField r.children f.name l)) := by
  have hmem : f.name ∈ r.children.map Prod.fst := by
    rw [h.names]; exact List.mem_map.mpr ⟨f, hf, rfl⟩
  have e2 : Rev.config (.mk i (FieldTree.setField r.children f.name l)) = Rev.config r := hcfg
  -- 差し替えた field は `hl` から、それ以外の field は元の版から
  have hlist : ∀ g ∈ S.fields (Rev.config r).type,
      ShapeList g (FieldTree.child (.mk i (FieldTree.setField r.children f.name l)) g.name) := by
    intro g hg
    rw [child_setField hmem]
    split
    · next he => rw [S.field_unique hg hf he]; exact hl
    · exact h.list hg
  refine ⟨?_, ?_, ?_⟩
  · rw [e2, FieldTree.children_mk, FieldTree.setField_keys]; exact h.names
  · rw [e2]; exact fun g hg => (hlist g hg).typed
  · rw [e2]; exact fun g hg => (hlist g hg).single

/-- 一つの field の子を差し替えても、key は重ならない。 -/
theorem Keyed.setField {r : Rev} (h : Keyed S s r) {f : ChildField}
    (hf : f ∈ S.fields (Rev.config r).type) {l : List Rev} {i : RevInfo} (hl : DistinctKeys f l)
    (hnode : i.node = Rev.node r) (hcfg : i.config = Rev.config r) :
    Keyed S s (.mk i (FieldTree.setField r.children f.name l)) := by
  have e1 : Rev.node (.mk i (FieldTree.setField r.children f.name l)) = Rev.node r := hnode
  have e2 : Rev.config (.mk i (FieldTree.setField r.children f.name l)) = Rev.config r := hcfg
  refine ⟨by rw [e1, e2]; exact h.own, ?_⟩
  rw [e2]
  intro g hg key hkey
  rcases child_setField_cases (r := r) (i := i) (f := f.name) (l := l) g.name with
    hnil | ⟨he, hc⟩ | ⟨-, hc⟩
  · rw [hnil]; exact List.nodup_nil
  · rw [hc]; exact hl key (by rw [← S.field_unique hg hf he]; exact hkey)
  · rw [hc]; exact h.nodup g hg key hkey

/-- 一つの field の子を差し替えても、版の条件は保たれる。 -/
theorem Fits.setField {r : Rev} (h : Fits S κ X s r) {f : ChildField}
    (hf : f ∈ S.fields (Rev.config r).type) {l : List Rev} {i : RevInfo}
    (hl : ∀ c ∈ l, ChildAt s (Rev.node r) f (Rev.node c)) (hk : κ.keys → DistinctKeys f l)
    (hp : κ.typed → ShapeList f l)
    (hnode : i.node = Rev.node r) (hcfg : i.config = Rev.config r)
    (hx : X s (.mk i (FieldTree.setField r.children f.name l))) :
    Fits S κ X s (.mk i (FieldTree.setField r.children f.name l)) := by
  have e1 : Rev.node (.mk i (FieldTree.setField r.children f.name l)) = Rev.node r := hnode
  have e2 : Rev.config (.mk i (FieldTree.setField r.children f.name l)) = Rev.config r := hcfg
  refine ⟨?_, ?_, ?_, ?_, fun hκ => (h.keyed hκ).setField hf (hk hκ) hnode hcfg,
    fun hκ => (h.shape hκ).setField hf (hp hκ) hcfg, hx⟩
  · rw [e1]; exact h.lt
  · rw [e1]; exact h.born
  · rw [e1, e2]; exact h.type_eq
  · rw [e1, e2]
    intro g hg c hc
    rcases mem_child_setField hc with ⟨he, hc⟩ | ⟨-, hc⟩
    · rw [S.field_unique hg hf he]; exact hl c hc
    · exact h.child g hg c hc

/-- 子孫まで含めて。 -/
theorem Deep.setField {r : Rev} (h : Deep S κ X s r) {f : String} {l : List Rev} {i : RevInfo}
    (hl : ∀ c ∈ l, Deep S κ X s c) (hself : Fits S κ X s (.mk i (FieldTree.setField r.children f l))) :
    Deep S κ X s (.mk i (FieldTree.setField r.children f l)) := by
  intro r' hr
  rcases FieldTree.sub_mk_iff.mp hr with rfl | ⟨g, m, c, hg, hc, hsub⟩
  · exact hself
  · rcases FieldTree.mem_setField hg with ⟨rfl, rfl⟩ | ⟨-, hm⟩
    · exact hl c hc r' hsub
    · exact h r' (FieldTree.Sub.down hm hc hsub)

/-! ## branch に据える -/

theorem announce_node (n : NodeId) (b : Branch) (anns : List (CallbackType × Context)) (s : State) :
    (announce n b anns s).node = s.node := by
  unfold announce; split <;> rfl

theorem persistRoot_node (n : NodeId) (b : Branch) (r : Rev) (s : State) :
    (persistRoot n b r s).node = s.node := by
  unfold persistRoot; split <;> rfl

theorem makeLatest_node (n : NodeId) (k : Option TxId) (b : Branch) (r : Rev)
    (anns : List (CallbackType × Context)) (s : State) :
    (makeLatest n k b r anns s).2.node
      = (s.setBranch n k (some { b with latest := r, revs := insertRev b.revs r })).node := by
  simp only [makeLatest, modify_apply, persistRoot_node, announce_node]

theorem makeLatest_detached (n : NodeId) (k : Option TxId) (b : Branch) (r : Rev)
    (anns : List (CallbackType × Context)) (s : State) :
    (makeLatest n k b r anns s).2.detached = s.detached := by
  have h1 : ∀ s : State, (persistRoot n b r s).detached = s.detached := by
    intro s; unfold persistRoot; split <;> rfl
  have h2 : ∀ s : State, (announce n b anns s).detached = s.detached := by
    intro s; unfold announce; split <;> rfl
  simp only [makeLatest, modify_apply, h1, h2]
  rfl

theorem setBranch_tags (s : State) (n m : NodeId) (k : Option TxId) (b : Option Branch) :
    ((s.setBranch n k b).node m).tags = (s.node m).tags := by
  by_cases hm : m = n
  · subst hm; simp [State.setBranch, State.setNode]
  · rw [setBranch_node_ne s k b hm]

theorem mem_insertRev {revs : List (Hash × Rev)} {r : Rev} {p : Hash × Rev}
    (h : p ∈ insertRev revs r) : p ∈ revs ∨ p.2 = r := by
  unfold insertRev at h
  split at h
  · exact Or.inl h
  · rcases List.mem_append.mp h with h | h
    · exact Or.inl h
    · rw [List.mem_singleton] at h; exact Or.inr (by rw [h])

/-- 最新の版を替えた branch の版は、元の版か、新しい版である。 -/
theorem Branch.mem_held_latest {b : Branch} {r r' : Rev}
    (h : r' ∈ ({ b with latest := r, revs := insertRev b.revs r } : Branch).held) :
    r' ∈ b.held ∨ r' = r := by
  simp only [Branch.held, List.mem_cons, List.mem_append, List.cons_append] at h ⊢
  rcases h with rfl | h | h
  · exact Or.inr rfl
  · exact Or.inl (Or.inr (Or.inl h))
  · split at h
    · cases h
    · next hprune =>
      obtain ⟨p, hp, rfl⟩ := List.mem_map.mp h
      rcases mem_insertRev hp with hp | hp
      · exact Or.inl (Or.inr (Or.inr (by
          rw [if_neg hprune]; exact List.mem_map.mpr ⟨p, hp, rfl⟩)))
      · exact Or.inr hp

/-- `_make_latest` の後の branch の条件。 -/
theorem BranchOk.makeLatest {b : Branch} {r : Rev} (hb : BranchOk S κ X s n k b)
    (hn : Rev.node r = n) (hr : Deep S κ X s r) :
    BranchOk S κ X s n k { b with latest := r, revs := insertRev b.revs r } where
  lt := hb.lt
  born := hb.born
  tag := hb.tag
  origin := hb.origin
  strong := hb.strong
  revs r' h := by
    rcases Branch.mem_held_latest h with h | rfl
    · exact hb.revs r' h
    · exact ⟨hn, hr⟩

/-- 一つの branch の書き換え。 -/
theorem Good.setBranch (hX : Closed X) {K : Option TxId → Prop} (hg : Good S κ X s)
    {b : Option Branch} (hf : Frame K s s') (hnode : s'.node = (s.setBranch n k b).node)
    (hd : s'.detached = s.detached) (hb : ∀ b', b = some b' → BranchOk S κ X s' n k b') :
    Good S κ X s' := by
  refine hg.extend hX hf.grows ?_ ?_ ?_
  · intro m k' b' h
    rw [hnode, setBranch_branches] at h
    split at h
    · next hc =>
      obtain ⟨rfl, rfl⟩ := hc
      exact Or.inr (hb b' h)
    · exact Or.inl h
  · intro m p hp
    rw [hnode, setBranch_tags] at hp
    exact Or.inl hp
  · intro r hr
    rw [hd] at hr
    exact Or.inl hr

theorem makeLatest_good (hX : Closed X) (hg : Good S κ X s) {b : Branch} {r : Rev}
    (hb : BranchOk S κ X s n k b) (hn : Rev.node r = n) (hr : Deep S κ X s r)
    (anns : List (CallbackType × Context)) : Good S κ X (makeLatest n k b r anns s).2 := by
  have hf := makeLatest_keeps n k b r anns s
  refine hg.setBranch hX hf (makeLatest_node n k b r anns s) (makeLatest_detached n k b r anns s) ?_
  intro b' he
  rw [← Option.some.inj he]
  exact (hb.makeLatest hn hr).mono hX hf

/-- `replaceLatest` の結果。作った版は、その場の branch に据えられる。 -/
theorem replaceLatest_spec {b : Branch} {config : Data} {children : List (String × List Rev)}
    {anns : List (CallbackType × Context)} {r : Rev}
    (h : replaceLatest n k b config children anns s = (.ok r, s')) :
    r = .mk { uid := s.nextUid, node := n, tag := b.tag, store := b.latest.label.store, config }
        children ∧ Frame (· ≠ k) s s' ∧ s'.detached = s.detached ∧
      s'.node = (s.setBranch n k (some { b with latest := r, revs := insertRev b.revs r })).node := by
  unfold replaceLatest at h
  obtain ⟨r₁, s₁, h1, h⟩ := bind_eq_ok h
  obtain ⟨u, s₂, h2, h⟩ := bind_eq_ok h
  obtain ⟨he, rfl⟩ := Prod.mk.inj h
  obtain rfl := Except.ok.inj he
  have hf1 := newRev_keeps (K := (· ≠ k)) n b.tag b.latest.label.store config children s
  have hf2 := makeLatest_keeps n k b r₁ anns s₁
  have hn2 := makeLatest_node n k b r₁ anns s₁
  have hd2 := makeLatest_detached n k b r₁ anns s₁
  rw [h1] at hf1
  rw [h2] at hf2 hn2 hd2
  have hs1 : s₁ = ({ s with nextUid := s.nextUid + 1 }).finalizeRev r₁ := by
    have e1 := congrArg Prod.fst h1
    have e2 := congrArg Prod.snd h1
    rw [← Except.ok.inj e1]; exact e2.symm
  have hn1 : s₁.node = s.node := by rw [hs1, finalizeRev_node]
  have hd1 : s₁.detached = s.detached := by
    rw [hs1]; unfold State.finalizeRev; split <;> rfl
  refine ⟨(Except.ok.inj (congrArg Prod.fst h1)).symm, hf1.trans hf2, hd2.trans hd1, ?_⟩
  rw [hn2]
  unfold State.setBranch State.setNode
  rw [hn1]

/-- 新しい版が条件を満たせば、据えた後も `Good` である。 -/
theorem replaceLatest_good (hX : Closed X) (hg : Good S κ X s) {b : Branch} {config : Data}
    {children : List (String × List Rev)} {anns : List (CallbackType × Context)} {r : Rev}
    (hb : BranchOk S κ X s n k b)
    (h : replaceLatest n k b config children anns s = (.ok r, s'))
    (hdeep : ∀ s₁, Frame (· ≠ k) s s₁ → X s₁ r → Deep S κ X s₁ r) :
    Good S κ X s' ∧ Rev.node r = n ∧ Deep S κ X s' r ∧
      ∃ b', (s'.node n).branches k = some b' ∧ b'.latest = r := by
  obtain ⟨hr, hf, hd, hnode⟩ := replaceLatest_spec h
  have hx : X s' r := by
    unfold replaceLatest at h
    obtain ⟨r₁, s₁, h1, h⟩ := bind_eq_ok h
    obtain ⟨u, s₂, h2, h⟩ := bind_eq_ok h
    obtain ⟨he, rfl⟩ := Prod.mk.inj h
    obtain rfl := Except.ok.inj he
    have hf2 := makeLatest_keeps n k b r₁ anns s₁
    rw [h2] at hf2
    exact hX.mono hf2.grows (hX.new s s₁ n b.tag b.latest.label.store config children r₁
      (Or.inr ⟨_, hb.latest.self.extra, rfl⟩) h1)
  have hn : Rev.node r = n := by rw [hr]; rfl
  have hdr := hdeep s' hf hx
  refine ⟨?_, hn, hdr, _, by rw [hnode, setBranch_branches, if_pos ⟨rfl, rfl⟩], rfl⟩
  refine hg.setBranch hX hf hnode hd ?_
  intro b' he
  rw [← Option.some.inj he]
  exact (hb.mono hX hf).makeLatest hn hdr

/-- 子を差し替えた版を据える。 -/
theorem install_good (hX : Closed X) (hg : Good S κ X s) {b : Branch} {f : ChildField}
    {l : List Rev} {anns : List (CallbackType × Context)} {r : Rev} (hb : BranchOk S κ X s n k b)
    (hf : f ∈ S.fields (s.node n).type)
    (hl : ∀ c ∈ l, ChildAt s n f (Rev.node c) ∧ Deep S κ X s c)
    (hk : κ.keys → DistinctKeys f l) (hp : κ.typed → ShapeList f l)
    (h : install n k b f.name l anns s = (.ok r, s')) :
    Good S κ X s' ∧ Rev.node r = n ∧ Deep S κ X s' r ∧
      ∃ b', (s'.node n).branches k = some b' ∧ b'.latest = r := by
  refine replaceLatest_good hX hg hb h fun s₁ hf1 hx => ?_
  obtain ⟨hr, -, -, -⟩ := replaceLatest_spec h
  subst hr
  have hb1 := hb.mono hX hf1
  have hn1 := hb1.node_latest
  rw [hb.config_type.symm] at hf
  refine hb1.latest.setField (fun c hc => ((hl c hc).2).mono hX hf1) ?_
  exact hb1.latest.self.setField hf (fun c hc => by rw [hn1]; exact ((hl c hc).1).mono hf1) hk hp
    hn1.symm rfl hx

end Voltha.Config
