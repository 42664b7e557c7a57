import Voltha.Config.Properties.Preserve

/-!
# 不変条件の保存：node の生成

`mknode` は message を node の木にする。作った版は message と同じ中身を持ち、
どの node も新しい番号で、親の番号は子より小さい。
途中で例外が飛べば、作りかけの node は branch を持たないまま残るが、どこからも指されない。
-/

namespace Voltha.Config

open Exec

variable {S : Schema} {κ : Mode} {X : State → Rev → Prop}
variable {s s' : State} {n : NodeId} {k : Option TxId}

/-! ## message の形 -/

theorem full_mk_iff {fields : String → List ChildField} {d : Data} {cs : List (String × List Msg)} :
    Full fields (.mk d cs) ↔ (LocalShape fields (.mk d cs) ∧ HasSingles fields (.mk d cs)) ∧
      ∀ f l, (f, l) ∈ cs → ∀ c ∈ l, Full fields c :=
  FieldTree.forall_subtrees_mk

theorem shaped_mk_iff {fields : String → List ChildField} {d : Data}
    {cs : List (String × List Msg)} :
    Shaped fields (.mk d cs) ↔ LocalShape fields (.mk d cs) ∧
      ∀ f l, (f, l) ∈ cs → ∀ c ∈ l, Shaped fields c :=
  FieldTree.forall_subtrees_mk

/-- field `name` の列を埋めたもの。 -/
def fillField (S : Schema) (ty name : String) (l : List Msg) : List Msg :=
  match S.field? ty name, l with
  | some f, [] => if f.kind = .single then [S.default f.type] else []
  | _, l => l

theorem completeList_eq (S : Schema) : ∀ ms : List Msg, completeList S ms = ms.map (complete S)
  | [] => by rw [completeList, List.map_nil]
  | m :: ms => by rw [completeList, completeList_eq S ms, List.map_cons]

theorem completeFields_eq (S : Schema) (ty : String) (cs : List (String × List Msg)) :
    completeFields S ty cs
      = cs.map fun p => (p.1, fillField S ty p.1 (p.2.map (complete S))) := by
  induction cs with
  | nil => rw [completeFields, List.map_nil]
  | cons p cs ih =>
    rw [completeFields, ih, completeList_eq, List.map_cons]
    rfl

theorem complete_mk (S : Schema) (d : Data) (cs : List (String × List Msg)) :
    complete S (.mk d cs)
      = .mk d (cs.map fun p => (p.1, fillField S d.type p.1 (p.2.map (complete S)))) := by
  rw [complete, completeFields_eq]

@[simp] theorem label_complete (S : Schema) (m : Msg) : (complete S m).label = m.label := by
  cases m; rw [complete_mk]; rfl

theorem mem_fillField {ty name : String} {l : List Msg} {m : Msg} (h : m ∈ fillField S ty name l) :
    m ∈ l ∨ ∃ f ∈ S.fields ty, f.kind = .single ∧ m = S.default f.type := by
  unfold fillField at h
  split at h
  · next f hf =>
    split at h
    · next hk => exact Or.inr ⟨f, (S.field?_eq_some hf).1, hk, List.mem_singleton.mp h⟩
    · simp at h
  · exact Or.inl h

theorem length_fillField {ty name : String} {l : List Msg} (hl : l.length ≤ 1) :
    (fillField S ty name l).length ≤ 1 := by
  unfold fillField
  split
  · split <;> simp
  · exact hl

theorem fillField_ne_nil {ty : String} {f : ChildField} {l : List Msg} (hf : f ∈ S.fields ty)
    (hk : f.kind = .single) : fillField S ty f.name l ≠ [] := by
  unfold fillField
  rw [S.field?_of_mem hf]
  cases l with
  | nil => simp [hk]
  | cons m l => simp

/-- 埋めた後の子の列。 -/
theorem child_complete {d : Data} {cs : List (String × List Msg)} {f : String}
    (hf : f ∈ cs.map Prod.fst) :
    FieldTree.child (complete S (.mk d cs)) f
      = fillField S d.type f ((FieldTree.child (.mk d cs) f).map (complete S)) := by
  obtain ⟨l, hl⟩ := FieldTree.lookup_isSome_of_mem hf
  unfold FieldTree.child
  rw [complete_mk, FieldTree.children_mk, FieldTree.children_mk, hl,
    FieldTree.lookup_map_snd fun name (ms : List Msg) => fillField S d.type name (ms.map (complete S)),
    hl]
  rfl

theorem LocalShape.complete {d : Data} {cs : List (String × List Msg)}
    (h : LocalShape S.fields (.mk d cs)) :
    LocalShape S.fields (Voltha.Config.complete S (.mk d cs)) ∧
      HasSingles S.fields (Voltha.Config.complete S (.mk d cs)) := by
  obtain ⟨hnames, hfields⟩ := h
  have hmem : ∀ f ∈ S.fields d.type, f.name ∈ cs.map Prod.fst := by
    intro f hf
    have hn : cs.map Prod.fst = (S.fields d.type).map ChildField.name := hnames
    rw [hn]; exact List.mem_map.mpr ⟨f, hf, rfl⟩
  refine ⟨⟨?_, ?_⟩, ?_⟩
  · rw [label_complete, complete_mk, FieldTree.children_mk, List.map_map]; exact hnames
  · rw [label_complete]
    intro f hf
    rw [child_complete (hmem f hf)]
    refine ⟨?_, fun hk => length_fillField (by simpa using (hfields f hf).2 hk)⟩
    intro c hc
    unfold fillField at hc
    have hfield : S.field? d.type f.name = some f := S.field?_of_mem hf
    rw [hfield] at hc
    split at hc
    · next g _ hg _ =>
      cases hg
      split at hc
      · rw [List.mem_singleton.mp hc, S.default_type]
      · simp at hc
    · obtain ⟨m, hm, rfl⟩ := List.mem_map.mp hc
      rw [label_complete]; exact (hfields f hf).1 m hm
  · intro f hf hk
    rw [label_complete] at hf
    rw [child_complete (hmem f hf)]
    exact fillField_ne_nil hf hk

/-- protobuf の message は、既定値で埋めれば欠けの無い message になる。 -/
theorem Shaped.complete {m : Msg} (h : Shaped S.fields m) :
    Full S.fields (Voltha.Config.complete S m) := by
  induction m using FieldTree.induct with
  | h d cs ih =>
    rw [shaped_mk_iff] at h
    obtain ⟨hlocal, hsub⟩ := h
    have hc := hlocal.complete
    rw [complete_mk] at hc ⊢
    rw [full_mk_iff]
    refine ⟨hc, ?_⟩
    intro f l hl c hc
    obtain ⟨p, hp, he⟩ := List.mem_map.mp hl
    obtain ⟨rfl, rfl⟩ := Prod.mk.inj he
    rcases mem_fillField hc with hc | ⟨g, hg, hk, rfl⟩
    · obtain ⟨m, hm, rfl⟩ := List.mem_map.mp hc
      exact ih p.1 p.2 hp m hm (hsub p.1 p.2 hp m hm)
    · exact S.full_default _ g hg hk

/-! ## 作った子 -/

section

variable (S : Schema) (κ : Mode) (X : State → Rev → Prop)

/-- `c` は、node `n` の field `name` の子として作られた node の版である。 -/
structure Born (s : State) (n : NodeId) (name : String) (key : Option String) (c : Rev) :
    Prop where
  deep : Deep S κ X s c
  younger : n < Rev.node c
  slot : ∃ v, (s.node (Rev.node c)).slot = some ⟨n, name, key, v⟩

end

theorem Born.mono (hX : Closed X) {K : Option TxId → Prop} (hf : Frame K s s') {name : String}
    {key : Option String} {c : Rev} (h : Born S κ X s n name key c) :
    Born S κ X s' n name key c where
  deep := h.deep.mono hX hf
  younger := h.younger
  slot := by rw [hf.slot _ h.deep.self.lt]; exact h.slot

theorem newNode_branches (type : String) (slot : Option Slot) (s : State) (m : NodeId)
    (k : Option TxId) {b : Branch}
    (h : ((newNode type slot s).2.node m).branches k = some b) :
    (s.node m).branches k = some b := by
  by_cases hm : m = s.nextNode
  · subst hm; simp [newNode, State.setNode] at h
  · simpa [newNode, State.setNode, hm] using h

theorem newNode_tags (type : String) (slot : Option Slot) (s : State) (m : NodeId)
    {p : String × Rev} (h : p ∈ ((newNode type slot s).2.node m).tags) : p ∈ (s.node m).tags := by
  by_cases hm : m = s.nextNode
  · subst hm; simp [newNode, State.setNode] at h
  · simpa [newNode, State.setNode, hm] using h

theorem newNode_good (hX : Closed X) (hg : Good S κ X s) (type : String) (slot : Option Slot) :
    Good S κ X (newNode type slot s).2 :=
  hg.extend hX (newNode_keeps (K := fun _ => True) type slot s).grows
    (fun m k' _ h => Or.inl (newNode_branches type slot s m k' h))
    (fun m _ h => Or.inl (newNode_tags type slot s m h))
    (fun _ h => Or.inl h)

/-! ## 自分の版を据える -/

/-- 作り終えた子から、自分の最初の版を作って据える。 -/
def installFirst (n : NodeId) (d : Data) (children : List (String × List Rev)) : Op Rev := do
  let rev ← mkrev n .committed d children
  let s ← Exec.read
  let b : Branch :=
    { tag := .committed, origin := none, revs := [], latest := rev
      autoPrune := (s.node n).autoPrune }
  makeLatest n none b rev []
  pure rev

theorem mknode_mk (S : Schema) (d : Data) (cs : List (String × List Msg)) (slot : Option Slot) :
    mknode S (.mk d cs) slot = (do
      let n ← newNode d.type slot
      let children ← mknodeFields S n d.type cs
      installFirst n d children) := by
  rw [mknode]; rfl

/-- 子の辞書の条件。`mknodeFields` が作るもの。 -/
structure BornFields (S : Schema) (κ : Mode) (X : State → Rev → Prop) (s : State) (n : NodeId)
    (ty : String) (l : List (String × List Rev)) : Prop where
  born : ∀ p ∈ l, ∀ c ∈ p.2, Born S κ X s n p.1 (S.keyOf ty p.1) c
  nodup : ∀ p ∈ l, ∀ key, S.keyOf ty p.1 = some key → (p.2.map (Rev.keyIn key)).Nodup

theorem BornFields.mono (hX : Closed X) {K : Option TxId → Prop} (hf : Frame K s s') {ty : String}
    {l : List (String × List Rev)} (h : BornFields S κ X s n ty l) :
    BornFields S κ X s' n ty l where
  born p hp c hc := (h.born p hp c hc).mono hX hf
  nodup := h.nodup

theorem keyOf_eq {ty : String} {f : ChildField} (hf : f ∈ S.fields ty) :
    S.keyOf ty f.name = f.key := by
  unfold Schema.keyOf
  rw [S.field?_of_mem hf]; rfl

/-- 子の揃った最初の版の key は重ならない。 -/
theorem BornFields.keyed {r : Rev}
    (h : BornFields S κ X s (Rev.node r) (Rev.config r).type r.children)
    (hown : OwnKey s (Rev.node r) (Rev.config r)) : Keyed S s r := by
  refine ⟨hown, ?_⟩
  intro f hf key hkey
  cases hc : r.child f.name with
  | nil => simp
  | cons c cs =>
    rw [← hc]
    refine h.nodup _ (FieldTree.mem_children_of_mem_child (c := c) ?_) key
      ((keyOf_eq hf).trans hkey)
    rw [hc]; exact List.mem_cons_self

/-- 欠けの無い message を中身とする版は、schema のとおりの形である。 -/
theorem Shape.of_full {r : Rev} (hfull : Full S.fields (Rev.content r)) : Shape S r := by
  obtain ⟨i, l⟩ := r
  rw [Rev.content_mk, full_mk_iff, ← Rev.content_mk] at hfull
  obtain ⟨⟨⟨hnames, hfields⟩, hsingle⟩, -⟩ := hfull
  rw [Rev.label_content] at hnames hfields
  have hchild := Rev.child_content (.mk i l)
  refine ⟨?_, ?_, ?_⟩
  · rw [← hnames, Rev.content_mk, FieldTree.children_mk, FieldTree.children_mk, List.map_map]; rfl
  · intro f hf c hc
    have := (hfields f hf).1 (Rev.content c) (by rw [hchild]; exact List.mem_map.mpr ⟨c, hc, rfl⟩)
    rwa [Rev.label_content] at this
  · intro f hf hk
    have h1 := (hfields f hf).2 hk
    have h2 := hsingle f (by rw [Rev.label_content]; exact hf) hk
    rw [hchild, List.length_map] at h1
    rw [hchild, ne_eq, List.map_eq_nil_iff, ← List.length_eq_zero_iff] at h2
    exact List.length_eq_one_iff.mp (by omega)

/-- 子が揃えば、最初の版は条件を満たす。 -/
theorem BornFields.fits {r : Rev}
    (h : BornFields S κ X s (Rev.node r) (Rev.config r).type r.children)
    (hlt : Rev.node r < s.nextNode) (hborn : ((s.node (Rev.node r)).branches none).isSome)
    (hty : (s.node (Rev.node r)).type = (Rev.config r).type)
    (hown : OwnKey s (Rev.node r) (Rev.config r)) (hx : X s r)
    (hfull : κ.typed → Full S.fields (Rev.content r)) : Fits S κ X s r := by
  refine ⟨hlt, hborn, hty, ?_, fun _ => h.keyed hown, fun hκ => Shape.of_full (hfull hκ), hx⟩
  intro f hf c hc
  have hb := h.born _ (FieldTree.mem_children_of_mem_child hc) c hc
  refine ⟨hb.deep.self.lt, hb.younger, ?_⟩
  rw [← keyOf_eq hf]; exact hb.slot

/-- 子孫まで含めて。 -/
theorem BornFields.deep {r : Rev}
    (h : BornFields S κ X s (Rev.node r) (Rev.config r).type r.children)
    (hself : Fits S κ X s r) : Deep S κ X s r := by
  intro r' hr
  obtain ⟨i, l⟩ := r
  rcases FieldTree.sub_mk_iff.mp hr with rfl | ⟨f, m, c, hf, hc, hsub⟩
  · exact hself
  · exact (h.born (f, m) hf c hc).deep r' hsub

theorem installFirst_keeps (n : NodeId) (d : Data) (l : List (String × List Rev)) :
    Keeps (Frame fun _ => False) (installFirst n d l) :=
  (mkrev_keeps n .committed d l).bind fun _ => Keeps.read.bind fun _ =>
    (Keeps.weaken (makeLatest_keeps _ _ _ _ _) fun _ h => h.elim).bind fun _ => Keeps.pure _

theorem installFirst_good (hX : Closed X) (hg : Good S κ X s) {d : Data}
    {l : List (String × List Rev)} (hlt : n < s.nextNode) (hty : (s.node n).type = d.type)
    (hown : OwnKey s n d) (hprune : n = rootId → (s.node n).autoPrune = false)
    (hl : BornFields S κ X s n d.type l)
    (hfull : κ.typed → Full S.fields (.mk d (l.map fun p => (p.1, p.2.map Rev.content)))) :
    wp (installFirst n d l)
      (fun r s' => Good S κ X s' ∧ Deep S κ X s' r ∧ Rev.node r = n ∧
        Rev.content r = .mk d (l.map fun p => (p.1, p.2.map Rev.content)) ∧
        s'.latest? n = some r)
      (fun _ _ => False) s := by
  unfold installFirst mkrev
  rw [wp_bind, wp_bind, wp_read]
  refine wp_mono (newRev_spec hX (Or.inl rfl) d l fun _ => True) ?_ fun _ _ h => h
  rintro r s₁ ⟨hf1, hnode1, hdet1, -, hx1, rfl⟩
  rw [wp_bind, wp_read]
  have hg1 := hg.of_node_eq hX hf1.grows hnode1 hdet1
  generalize hr : (FieldTree.mk _ l : Rev) = r
  have hrn : Rev.node r = n := by rw [← hr]; rfl
  have hrc : Rev.config r = d := by rw [← hr]; rfl
  have hrl : r.children = l := by rw [← hr]; rfl
  have hcont : Rev.content r = .mk d (l.map fun p => (p.1, p.2.map Rev.content)) := by
    rw [← hr, Rev.content_mk]
  rw [hr] at hx1
  have hlt1 : n < s₁.nextNode := Nat.lt_of_lt_of_le hlt hf1.next
  have hf2 := makeLatest_keeps n none
    { tag := .committed, origin := none, revs := [], latest := r
      autoPrune := (s₁.node n).autoPrune } r [] s₁
  have hnode2 := makeLatest_node n none
    { tag := .committed, origin := none, revs := [], latest := r
      autoPrune := (s₁.node n).autoPrune } r [] s₁
  have hdet2 := makeLatest_detached n none
    { tag := .committed, origin := none, revs := [], latest := r
      autoPrune := (s₁.node n).autoPrune } r [] s₁
  rw [wp_bind]
  generalize hs2 : makeLatest n none _ r [] s₁ = p at hf2 hnode2 hdet2
  obtain ⟨o, s₂⟩ := p
  have ho : o = .ok () := by
    have := congrArg Prod.fst hs2
    exact this.symm
  subst ho
  unfold wp
  rw [hs2]
  have hborn : ((s₂.node n).branches none).isSome := by
    rw [hnode2, setBranch_branches, if_pos ⟨rfl, rfl⟩]; rfl
  have hl2 : BornFields S κ X s₂ (Rev.node r) (Rev.config r).type r.children := by
    rw [hrn, hrc, hrl]
    exact (hl.mono hX hf1).mono hX hf2
  have hfits : Fits S κ X s₂ r := by
    refine hl2.fits ?_ ?_ ?_ ?_ (hX.mono hf2.grows hx1) (hcont ▸ hfull)
    · rw [hrn]; exact Nat.lt_of_lt_of_le hlt1 hf2.next
    · rw [hrn]; exact hborn
    · rw [hrn, hrc, hf2.type n hlt1, hf1.type n hlt, hty]
    · rw [hrn, hrc]; exact (hown.mono hf1 hlt).mono hf2 hlt1
  have hdeep := hl2.deep hfits
  have hlat : s₂.latest? n = some r := by
    unfold State.latest?
    rw [hnode2, setBranch_branches, if_pos ⟨rfl, rfl⟩]; rfl
  refine ⟨?_, hdeep, hrn, hcont, hlat⟩
  refine hg1.setBranch hX hf2 hnode2 hdet2 ?_
  rintro b' he
  rw [← Option.some.inj he]
  refine ⟨Nat.lt_of_lt_of_le hlt1 hf2.next, hborn, ?_, ?_, ?_, ?_⟩
  · intro t; simp
  · intro h; simp at h
  · intro he _
    show (s₁.node n).autoPrune = false
    rw [hf1.prune n hlt]; exact hprune he
  · intro r' hr'
    have : r' = r := by
      rcases Branch.mem_held_latest hr' with h | h
      · simpa [Branch.held] using h
      · exact h
    rw [this]; exact ⟨hrn, hdeep⟩

/-! ## 前後の状態の関係 -/

section Keeps

variable {R : State → State → Prop} [IsTrans State R]

mutual

/-- 一つの node を作る間に保たれることは、木全体を作る間も保たれる。 -/
theorem mknode_keeps_of [Std.Refl R] (hnew : ∀ type slot, Keeps R (newNode type slot))
    (hfirst : ∀ n d l, Keeps R (installFirst n d l)) (S : Schema) : ∀ (m : Msg) (slot : Option Slot),
    Keeps R (mknode S m slot)
  | .mk d cs, slot => by
    rw [mknode_mk]
    exact (hnew _ _).bind fun n => (mknodeFields_keeps_of hnew hfirst S n d.type cs).bind fun l =>
      hfirst n d l

theorem mknodeFields_keeps_of [Std.Refl R] (hnew : ∀ type slot, Keeps R (newNode type slot))
    (hfirst : ∀ n d l, Keeps R (installFirst n d l)) (S : Schema) (n : NodeId) (ty : String) :
    ∀ cs : List (String × List Msg), Keeps R (mknodeFields S n ty cs)
  | [] => by rw [mknodeFields]; exact Keeps.pure _
  | (name, ms) :: cs => by
    rw [mknodeFields]
    exact (mknodeList_keeps_of hnew hfirst S n name _ [] ms).bind fun _ =>
      (mknodeFields_keeps_of hnew hfirst S n ty cs).bind fun _ => Keeps.pure _

theorem mknodeList_keeps_of [Std.Refl R] (hnew : ∀ type slot, Keeps R (newNode type slot))
    (hfirst : ∀ n d l, Keeps R (installFirst n d l)) (S : Schema) (n : NodeId) (name : String) :
    ∀ (key : Option String)
    (seen : List Value) (ms : List Msg), Keeps R (mknodeList S n name key seen ms)
  | _, _, [] => by rw [mknodeList]; exact Keeps.pure _
  | none, seen, m :: ms => by
    rw [mknodeList]
    exact (mknode_keeps_of hnew hfirst S m _).bind fun _ =>
      (mknodeList_keeps_of hnew hfirst S n name none seen ms).bind fun _ => Keeps.pure _
  | some k, seen, m :: ms => by
    rw [mknodeList]
    refine (mknode_keeps_of hnew hfirst S m _).bind fun _ => (Keeps.ofOption _ _).bind fun v => ?_
    split
    · exact Keeps.raise _
    · exact (mknodeList_keeps_of hnew hfirst S n name (some k) (v :: seen) ms).bind fun _ => Keeps.pure _

end

end Keeps

/-- callback の queue と、呼び出した記録。 -/
def State.calls (s : State) :
    List (NodeId × CallbackType × Context) × List (NodeId × CallbackType × Context) :=
  (s.queue, s.announced)

/-- 通知の無い `_make_latest` は、queue に触らない。 -/
theorem makeLatest_calls (n : NodeId) (k : Option TxId) (b : Branch) (r : Rev) :
    Keeps (Unchanged State.calls) (makeLatest n k b r []) := by
  intro s
  have h1 : ∀ s : State, (persistRoot n b r s).calls = s.calls := by
    intro s; unfold persistRoot; split <;> rfl
  have h2 : ∀ s : State, (announce n b [] s).calls = s.calls := by
    intro s
    unfold announce
    split
    · simp [State.calls]
    · rfl
  exact (h1 _).trans (h2 _)

/-- node の生成は、queue に触らない。 -/
theorem mknode_calls (S : Schema) (m : Msg) (slot : Option Slot) :
    Keeps (Unchanged State.calls) (mknode S m slot) :=
  mknode_keeps_of (fun _ _ _ => rfl)
    (fun n _ _ => (Keeps.read.bind fun _ => newRev_unchanged (fun _ _ _ _ => rfl) n _ _ _ _).bind fun _ =>
      Keeps.read.bind fun _ => (makeLatest_calls n none _ _).bind fun _ => Keeps.pure _) S m slot

/-! ## 木全体 -/

/-- 渡された置き場所の key は、message の key である。 -/
def SlotOk (m : Msg) (slot : Option Slot) : Prop :=
  ∀ sl key, slot = some sl → sl.keyName = some key → m.label.attr key = sl.key

theorem slotOk_complete {n : NodeId} {name key : String} {v : Value} {data : Msg}
    (hv : data.label.attr key = some v) :
    SlotOk (complete S data) (some ⟨n, name, some key, some v⟩) := by
  rintro sl key' ⟨rfl⟩ hk
  rw [label_complete, ← Option.some.inj hk]; exact hv

mutual

/-- `mknode` の結果。 -/
theorem mknode_good (hX : Closed X) : ∀ (m : Msg) (slot : Option Slot) (s : State),
    Good S κ X s → (κ.typed → Full S.fields m) → SlotOk m slot →
    wp (mknode S m slot)
      (fun r s' => Good S κ X s' ∧ Deep S κ X s' r ∧ Rev.node r = s.nextNode ∧
        (s'.node (Rev.node r)).slot = slot ∧ Rev.content r = m ∧ s'.latest? (Rev.node r) = some r)
      (fun _ s' => Good S κ X s') s
  | .mk d cs, slot, s, hg, hfull, hslot => by
    rw [mknode_mk, wp_bind]
    have hg0 := newNode_good hX hg d.type slot
    have hf0 := newNode_keeps (K := fun _ => True) d.type slot s
    have hnode : (newNode d.type slot s).2.node s.nextNode
        = { type := d.type, branches := fun _ => none, tags := [], proxy := none
            autoPrune := decide (s.nextNode ≠ rootId), slot } := by
      simp [newNode, State.setNode]
    have hlt : s.nextNode < (newNode d.type slot s).2.nextNode := Nat.lt_succ_self _
    show wp (mknodeFields S s.nextNode d.type cs >>= _) _ _ (newNode d.type slot s).2
    generalize (newNode d.type slot s).2 = s₀ at hg0 hf0 hnode hlt
    rw [wp_bind]
    refine wp_mono (wp_and (mknodeFields_good hX s.nextNode d.type cs s₀ hg0 hlt
      fun hκ => (full_mk_iff.mp (hfull hκ)).2) ((mknodeFields_keeps S s.nextNode d.type cs).toWp s₀)) ?_
      fun _ _ h => h.1
    rintro l s₁ ⟨⟨hg1, hl, hcs⟩, hf1⟩
    have hown : OwnKey s₁ s.nextNode d := by
      intro sl key hsl hk
      rw [hf1.slot _ hlt, hnode] at hsl
      exact hslot sl key hsl hk
    have hlt1 : s.nextNode < s₁.nextNode := Nat.lt_of_lt_of_le hlt hf1.next
    have hty : (s₁.node s.nextNode).type = d.type := by rw [hf1.type _ hlt, hnode]
    have hprune : s.nextNode = rootId → (s₁.node s.nextNode).autoPrune = false := by
      intro he
      rw [hf1.prune _ hlt, hnode]
      simpa using he
    refine wp_mono (wp_and (installFirst_good hX hg1 hlt1 hty hown hprune hl
        (by rw [hcs]; exact hfull))
      ((installFirst_keeps s.nextNode d l).toWp s₁)) ?_ fun _ _ h => h.1.elim
    rintro r s₂ ⟨⟨hg2, hdeep, hrn, hcont, hlat⟩, hf2⟩
    refine ⟨hg2, hdeep, hrn, ?_, hcont.trans (by rw [hcs]), hrn ▸ hlat⟩
    rw [hrn, hf2.slot _ hlt1, hf1.slot _ hlt, hnode]

theorem mknodeFields_good (hX : Closed X) (n : NodeId) (ty : String) :
    ∀ (cs : List (String × List Msg)) (s : State), Good S κ X s → n < s.nextNode →
    (κ.typed → ∀ f l, (f, l) ∈ cs → ∀ c ∈ l, Full S.fields c) →
    wp (mknodeFields S n ty cs)
      (fun l s' => Good S κ X s' ∧ BornFields S κ X s' n ty l ∧
        l.map (fun p => (p.1, p.2.map Rev.content)) = cs)
      (fun _ s' => Good S κ X s') s
  | [], s, hg, _, _ => by
    rw [mknodeFields, wp_pure]
    exact ⟨hg, ⟨by simp, by simp⟩, rfl⟩
  | (name, ms) :: cs, s, hg, hn, hfull => by
    rw [mknodeFields, wp_bind]
    refine wp_mono (wp_and (mknodeList_good hX n name (S.keyOf ty name) [] ms s hg hn
      fun hκ => hfull hκ name ms List.mem_cons_self) ((mknodeList_keeps S n name _ [] ms).toWp s)) ?_
      fun _ _ h => h.1
    rintro l s₁ ⟨⟨hg1, hborn, hms, hnd⟩, hf1⟩
    have hn1 : n < s₁.nextNode := Nat.lt_of_lt_of_le hn hf1.next
    rw [wp_bind]
    refine wp_mono (wp_and (mknodeFields_good hX n ty cs s₁ hg1 hn1
      fun hκ f l hf => hfull hκ f l (List.mem_cons_of_mem _ hf)) ((mknodeFields_keeps S n ty cs).toWp s₁))
      ?_ fun _ _ h => h.1
    rintro rest s₂ ⟨⟨hg2, hrest, hcs⟩, hf2⟩
    refine ⟨hg2, ⟨?_, ?_⟩, ?_⟩
    · intro p hp c hc
      rcases List.mem_cons.mp hp with rfl | hp
      · exact (hborn c hc).mono hX hf2
      · exact hrest.born p hp c hc
    · intro p hp key hkey
      rcases List.mem_cons.mp hp with rfl | hp
      · exact (hnd key hkey).1
      · exact hrest.nodup p hp key hkey
    · rw [List.map_cons, hcs, hms]

theorem mknodeList_good (hX : Closed X) (n : NodeId) (name : String) :
    ∀ (key : Option String) (seen : List Value) (ms : List Msg) (s : State), Good S κ X s →
    n < s.nextNode → (κ.typed → ∀ m ∈ ms, Full S.fields m) →
    wp (mknodeList S n name key seen ms)
      (fun l s' => Good S κ X s' ∧ (∀ c ∈ l, Born S κ X s' n name key c) ∧
        l.map Rev.content = ms ∧
        ∀ k, key = some k → (l.map (Rev.keyIn k)).Nodup ∧
          ∀ v ∈ seen, some v ∉ l.map (Rev.keyIn k))
      (fun _ s' => Good S κ X s') s
  | key, seen, [], s, hg, _, _ => by
    rw [mknodeList, wp_pure]
    exact ⟨hg, by simp, rfl, by simp⟩
  | none, seen, m :: ms, s, hg, hn, hfull => by
    rw [mknodeList, wp_bind]
    refine wp_mono (wp_and (mknode_good hX m (some ⟨n, name, none, none⟩) s hg
      (fun hκ => hfull hκ m List.mem_cons_self) (by rintro sl key h hk; cases h; simp at hk))
      ((mknode_keeps S m _).toWp s)) ?_ fun _ _ h => h.1
    rintro r s₁ ⟨⟨hg1, hdeep, hfresh, hslot, hcont, -⟩, hf1⟩
    rw [wp_bind]
    refine wp_mono (wp_and (mknodeList_good hX n name none seen ms s₁ hg1
      (Nat.lt_of_lt_of_le hn hf1.next) fun hκ m hm => hfull hκ m (List.mem_cons_of_mem _ hm))
      ((mknodeList_keeps S n name none seen ms).toWp s₁)) ?_ fun _ _ h => h.1
    rintro l s₂ ⟨⟨hg2, hborn, hms, -⟩, hf2⟩
    have hr : Born S κ X s₁ n name none r :=
      ⟨hdeep, hfresh ▸ hn, ⟨_, hslot⟩⟩
    refine ⟨hg2, ?_, ?_, by simp⟩
    · intro c hc
      rcases List.mem_cons.mp hc with rfl | hc
      · exact hr.mono hX hf2
      · exact hborn c hc
    · rw [List.map_cons, hcont, hms]
  | some k, seen, m :: ms, s, hg, hn, hfull => by
    rw [mknodeList, wp_bind]
    refine wp_mono (wp_and (mknode_good hX m (some ⟨n, name, some k, m.label.attr k⟩) s hg
      (fun hκ => hfull hκ m List.mem_cons_self)
      (by rintro sl key h hk; cases h; simp only [Option.some.injEq] at hk; rw [hk]))
      ((mknode_keeps S m _).toWp s)) ?_ fun _ _ h => h.1
    rintro r s₁ ⟨⟨hg1, hdeep, hfresh, hslot, hcont, -⟩, hf1⟩
    have hr : Born S κ X s₁ n name (some k) r :=
      ⟨hdeep, hfresh ▸ hn, ⟨_, hslot⟩⟩
    have hkey : Rev.keyIn k r = m.label.attr k := by
      unfold Rev.keyIn; rw [← Rev.label_content, hcont]
    rw [wp_bind]
    refine wp_ofOption (fun v hv => ?_) fun _ => hg1
    split
    · exact hg1
    · next hseen =>
      rw [wp_bind]
      refine wp_mono (wp_and (mknodeList_good hX n name (some k) (v :: seen) ms s₁ hg1
        (Nat.lt_of_lt_of_le hn hf1.next) fun hκ m hm => hfull hκ m (List.mem_cons_of_mem _ hm))
        ((mknodeList_keeps S n name (some k) (v :: seen) ms).toWp s₁)) ?_ fun _ _ h => h.1
      rintro l s₂ ⟨⟨hg2, hborn, hms, hnd⟩, hf2⟩
      refine ⟨hg2, ?_, ?_, ?_⟩
      · intro c hc
        rcases List.mem_cons.mp hc with rfl | hc
        · exact hr.mono hX hf2
        · exact hborn c hc
      · rw [List.map_cons, hcont, hms]
      · rintro k' ⟨rfl⟩
        obtain ⟨h1, h2⟩ := hnd k rfl
        rw [List.map_cons, hkey, hv]
        refine ⟨List.nodup_cons.mpr ⟨h2 v List.mem_cons_self, h1⟩, ?_⟩
        intro w hw hm
        rcases List.mem_cons.mp hm with he | hm
        · rw [Option.some.injEq] at he
          exact hseen (he ▸ hw)
        · exact h2 w (List.mem_cons_of_mem _ hw) hm

end

end Voltha.Config
