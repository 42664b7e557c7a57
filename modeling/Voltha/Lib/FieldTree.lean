import Mathlib.Data.List.Basic

/-!
# Field 名つきの木

各 node が label と「field 名 → 子の列」の辞書を持つ木。
protobuf の message も、その版（revision）も、hash の入力もこの形をしている。

* `map` — label だけを写す
* `subtrees` / `Sub` — 自分自身を含む部分木
* `child` / `setChild` — 辞書の読みと差し替え

入れ子の帰納型なので、関数は木・辞書・列の三つ組の相互再帰で書き、
証明には `FieldTree.induct` を使う。
-/

/-- label と、field 名ごとの子の列を持つ木。 -/
inductive FieldTree (α : Type) where
  | mk (label : α) (children : List (String × List (FieldTree α)))

namespace FieldTree

variable {α β γ : Type}

def label : FieldTree α → α
  | mk a _ => a

def children : FieldTree α → List (String × List (FieldTree α))
  | mk _ cs => cs

@[simp] theorem label_mk (a : α) (cs : List (String × List (FieldTree α))) :
    (mk a cs).label = a := rfl

@[simp] theorem children_mk (a : α) (cs : List (String × List (FieldTree α))) :
    (mk a cs).children = cs := rfl

@[simp] theorem mk_label_children (t : FieldTree α) : mk t.label t.children = t := by
  cases t; rfl

/-! ## 帰納法 -/

theorem sizeOf_lt_of_mem {a : α} {cs : List (String × List (FieldTree α))} {f : String}
    {l : List (FieldTree α)} {c : FieldTree α} (hf : (f, l) ∈ cs) (hc : c ∈ l) :
    sizeOf c < sizeOf (mk a cs) := by
  have h1 := List.sizeOf_lt_of_mem hf
  have h2 := List.sizeOf_lt_of_mem hc
  simp only [Prod.mk.sizeOf_spec] at h1
  simp only [mk.sizeOf_spec]
  omega

/-- 木の帰納法。子すべてについて成り立てば親でも成り立つ、という形にしたもの。 -/
theorem induct {P : FieldTree α → Prop}
    (h : ∀ a cs, (∀ f l, (f, l) ∈ cs → ∀ c ∈ l, P c) → P (mk a cs)) (t : FieldTree α) : P t := by
  induction ht : sizeOf t using Nat.strongRecOn generalizing t with
  | _ n ih =>
    obtain ⟨a, cs⟩ := t
    refine h a cs fun f l hf c hc => ?_
    exact ih (sizeOf c) (ht ▸ sizeOf_lt_of_mem hf hc) c rfl

/-! ## 等しさの判定 -/

section Decidable

variable [DecidableEq α]

mutual

/-- 構造としての等しさ。 -/
def beq : FieldTree α → FieldTree α → Bool
  | mk a cs, mk b ds => decide (a = b) && beqFields cs ds

def beqFields : List (String × List (FieldTree α)) → List (String × List (FieldTree α)) → Bool
  | [], [] => true
  | (f, l) :: cs, (g, m) :: ds => decide (f = g) && beqList l m && beqFields cs ds
  | _, _ => false

def beqList : List (FieldTree α) → List (FieldTree α) → Bool
  | [], [] => true
  | t :: ts, u :: us => beq t u && beqList ts us
  | _, _ => false

end

mutual

theorem eq_of_beq : ∀ (t u : FieldTree α), beq t u = true → t = u
  | mk a cs, mk b ds, h => by
    simp only [beq, Bool.and_eq_true, decide_eq_true_eq] at h
    rw [h.1, eq_of_beqFields cs ds h.2]

theorem eq_of_beqFields : ∀ (cs ds : List (String × List (FieldTree α))),
    beqFields cs ds = true → cs = ds
  | [], [], _ => rfl
  | [], _ :: _, h => by simp [beqFields] at h
  | _ :: _, [], h => by simp [beqFields] at h
  | (f, l) :: cs, (g, m) :: ds, h => by
    simp only [beqFields, Bool.and_eq_true, decide_eq_true_eq] at h
    rw [h.1.1, eq_of_beqList l m h.1.2, eq_of_beqFields cs ds h.2]

theorem eq_of_beqList : ∀ (ts us : List (FieldTree α)), beqList ts us = true → ts = us
  | [], [], _ => rfl
  | [], _ :: _, h => by simp [beqList] at h
  | _ :: _, [], h => by simp [beqList] at h
  | t :: ts, u :: us, h => by
    simp only [beqList, Bool.and_eq_true] at h
    rw [eq_of_beq t u h.1, eq_of_beqList ts us h.2]

end

mutual

theorem beq_refl : ∀ t : FieldTree α, beq t t = true
  | mk a cs => by simp [beq, beqFields_refl cs]

theorem beqFields_refl : ∀ cs : List (String × List (FieldTree α)), beqFields cs cs = true
  | [] => rfl
  | (f, l) :: cs => by simp [beqFields, beqList_refl l, beqFields_refl cs]

theorem beqList_refl : ∀ ts : List (FieldTree α), beqList ts ts = true
  | [] => rfl
  | t :: ts => by simp [beqList, beq_refl t, beqList_refl ts]

end

instance instDecidableEq : DecidableEq (FieldTree α) := fun t u =>
  if h : beq t u = true then isTrue (eq_of_beq t u h)
  else isFalse fun e => h (e ▸ beq_refl t)

end Decidable

/-! ## label の写像 -/

mutual

/-- 形を変えずに label を写す。 -/
def map (f : α → β) : FieldTree α → FieldTree β
  | mk a cs => mk (f a) (mapFields f cs)

def mapFields (f : α → β) :
    List (String × List (FieldTree α)) → List (String × List (FieldTree β))
  | [] => []
  | (n, l) :: cs => (n, mapList f l) :: mapFields f cs

def mapList (f : α → β) : List (FieldTree α) → List (FieldTree β)
  | [] => []
  | t :: ts => map f t :: mapList f ts

end

theorem mapList_eq (f : α → β) : ∀ l : List (FieldTree α), mapList f l = l.map (map f)
  | [] => rfl
  | t :: ts => by simp [mapList, mapList_eq f ts]

theorem mapFields_eq (f : α → β) : ∀ cs : List (String × List (FieldTree α)),
    mapFields f cs = cs.map fun p => (p.1, p.2.map (map f))
  | [] => rfl
  | (n, l) :: cs => by simp [mapFields, mapList_eq, mapFields_eq f cs]

@[simp] theorem map_mk (f : α → β) (a : α) (cs : List (String × List (FieldTree α))) :
    map f (mk a cs) = mk (f a) (cs.map fun p => (p.1, p.2.map (map f))) := by
  rw [map, mapFields_eq]

@[simp] theorem label_map (f : α → β) (t : FieldTree α) : (map f t).label = f t.label := by
  cases t; simp

theorem children_map (f : α → β) (t : FieldTree α) :
    (map f t).children = t.children.map fun p => (p.1, p.2.map (map f)) := by
  cases t; simp

theorem map_map (f : α → β) (g : β → γ) (t : FieldTree α) : map g (map f t) = map (g ∘ f) t := by
  induction t using induct with
  | h a cs ih =>
    simp only [map_mk, List.map_map, mk.injEq, Function.comp_apply, true_and]
    refine List.map_congr_left ?_
    rintro ⟨n, l⟩ hm
    simp only [Function.comp_apply, List.map_map, Prod.mk.injEq, true_and]
    exact List.map_congr_left fun c hc => ih n l hm c hc

/-! ## 部分木 -/

/-- `Sub t u` は、`t` が `u` 自身か、その下のどこかにあること。 -/
inductive Sub : FieldTree α → FieldTree α → Prop
  | refl (t : FieldTree α) : Sub t t
  | down {t c u : FieldTree α} {f : String} {l : List (FieldTree α)}
      (hf : (f, l) ∈ u.children) (hc : c ∈ l) (h : Sub t c) : Sub t u

theorem sub_mk_iff {t : FieldTree α} {a : α} {cs : List (String × List (FieldTree α))} :
    Sub t (mk a cs) ↔ t = mk a cs ∨ ∃ f l c, (f, l) ∈ cs ∧ c ∈ l ∧ Sub t c := by
  constructor
  · intro h
    cases h with
    | refl => exact Or.inl rfl
    | down hf hc h => exact Or.inr ⟨_, _, _, hf, hc, h⟩
  · rintro (rfl | ⟨f, l, c, hf, hc, h⟩)
    · exact Sub.refl _
    · exact Sub.down (u := mk a cs) hf hc h

theorem Sub.trans {t u v : FieldTree α} (h₁ : Sub t u) (h₂ : Sub u v) : Sub t v := by
  induction h₂ with
  | refl => exact h₁
  | down hf hc _ ih => exact Sub.down hf hc ih

theorem Sub.map {f : α → β} {t u : FieldTree α} (h : Sub t u) : Sub (map f t) (map f u) := by
  induction h with
  | refl => exact Sub.refl _
  | @down c u g l hg hc h ih =>
    refine Sub.down (f := g) (l := l.map (FieldTree.map f)) ?_ (List.mem_map.mpr ⟨c, hc, rfl⟩) ih
    rw [children_map]
    exact List.mem_map.mpr ⟨(g, l), hg, rfl⟩

/-- 写した木の部分木は、部分木を写したものである。 -/
theorem sub_map_iff {f : α → β} {u : FieldTree α} {v : FieldTree β} :
    Sub v (map f u) ↔ ∃ t, Sub t u ∧ map f t = v := by
  constructor
  · intro h
    induction u using induct with
    | h a cs ih =>
      rw [map_mk, sub_mk_iff] at h
      rcases h with rfl | ⟨g, l, c, hg, hc, h⟩
      · exact ⟨_, Sub.refl _, map_mk ..⟩
      · obtain ⟨p, hp, he⟩ := List.mem_map.mp hg
        obtain ⟨rfl, rfl⟩ := Prod.mk.inj he
        obtain ⟨c', hc', rfl⟩ := List.mem_map.mp hc
        obtain ⟨t, ht, rfl⟩ := ih p.1 p.2 hp c' hc' h
        exact ⟨t, Sub.down (u := mk a cs) hp hc' ht, rfl⟩
  · rintro ⟨t, ht, rfl⟩
    exact ht.map

theorem Sub.of_child {c u : FieldTree α} {f : String} {l : List (FieldTree α)}
    (hf : (f, l) ∈ u.children) (hc : c ∈ l) : Sub c u :=
  Sub.down hf hc (Sub.refl c)

mutual

/-- 自分自身を先頭にした部分木の列。 -/
def subtrees : FieldTree α → List (FieldTree α)
  | mk a cs => mk a cs :: subtreesFields cs

def subtreesFields : List (String × List (FieldTree α)) → List (FieldTree α)
  | [] => []
  | (_, l) :: cs => subtreesList l ++ subtreesFields cs

def subtreesList : List (FieldTree α) → List (FieldTree α)
  | [] => []
  | t :: ts => subtrees t ++ subtreesList ts

end

theorem mem_subtreesList {t : FieldTree α} : ∀ {l : List (FieldTree α)},
    t ∈ subtreesList l ↔ ∃ c ∈ l, t ∈ subtrees c
  | [] => by simp [subtreesList]
  | u :: us => by simp [subtreesList, mem_subtreesList (l := us)]

theorem mem_subtreesFields {t : FieldTree α} : ∀ cs : List (String × List (FieldTree α)),
    t ∈ subtreesFields cs ↔ ∃ f l c, (f, l) ∈ cs ∧ c ∈ l ∧ t ∈ subtrees c
  | [] => by simp [subtreesFields]
  | (g, m) :: cs => by
    simp only [subtreesFields, List.mem_append, mem_subtreesList, mem_subtreesFields cs,
      List.mem_cons, Prod.mk.injEq]
    constructor
    · rintro (⟨c, hc, h⟩ | ⟨f, l, c, hf, hc, h⟩)
      · exact ⟨g, m, c, Or.inl ⟨rfl, rfl⟩, hc, h⟩
      · exact ⟨f, l, c, Or.inr hf, hc, h⟩
    · rintro ⟨f, l, c, ⟨rfl, rfl⟩ | hf, hc, h⟩
      · exact Or.inl ⟨c, hc, h⟩
      · exact Or.inr ⟨f, l, c, hf, hc, h⟩

theorem mem_subtrees_iff {t u : FieldTree α} : t ∈ subtrees u ↔ Sub t u := by
  induction u using induct with
  | h a cs ih =>
    rw [subtrees, List.mem_cons, mem_subtreesFields, sub_mk_iff]
    refine or_congr Iff.rfl ⟨?_, ?_⟩
    · rintro ⟨f, l, c, hf, hc, h⟩
      exact ⟨f, l, c, hf, hc, (ih f l hf c hc).mp h⟩
    · rintro ⟨f, l, c, hf, hc, h⟩
      exact ⟨f, l, c, hf, hc, (ih f l hf c hc).mpr h⟩

/-- 部分木すべての条件は、自分の条件と、子の部分木すべての条件に分かれる。 -/
theorem forall_subtrees_mk {P : FieldTree α → Prop} {a : α}
    {cs : List (String × List (FieldTree α))} :
    (∀ t ∈ (mk a cs).subtrees, P t) ↔
      P (mk a cs) ∧ ∀ f l, (f, l) ∈ cs → ∀ c ∈ l, ∀ t ∈ c.subtrees, P t := by
  simp only [mem_subtrees_iff, sub_mk_iff]
  constructor
  · exact fun h => ⟨h _ (Or.inl rfl), fun f l hf c hc t ht => h t (Or.inr ⟨f, l, c, hf, hc, ht⟩)⟩
  · rintro ⟨h, hc⟩ t (rfl | ⟨f, l, c, hf, hm, ht⟩)
    · exact h
    · exact hc f l hf c hm t ht

/-! ## 辞書の読みと差し替え -/

/-- field `f` の子の列。無ければ空。 -/
def child (t : FieldTree α) (f : String) : List (FieldTree α) :=
  (t.children.lookup f).getD []

/-- field `f` の項目を `l` に差し替えた辞書。他の項目と並びはそのまま。 -/
def setField (cs : List (String × β)) (f : String) (l : β) : List (String × β) :=
  cs.map fun p => if p.1 = f then (p.1, l) else p

/-- 辞書の値だけを写したときの読み。 -/
theorem lookup_map_snd (g : String → β → γ) (cs : List (String × β)) (f : String) :
    (cs.map fun p => (p.1, g p.1 p.2)).lookup f = (cs.lookup f).map (g f) := by
  induction cs with
  | nil => rfl
  | cons p cs ih =>
    obtain ⟨a, b⟩ := p
    rw [List.map_cons, List.lookup_cons, List.lookup_cons]
    by_cases h : f = a
    · subst h; simp
    · have hb : (f == a) = false := by simpa using h
      rw [hb]; exact ih

theorem lookup_isSome_of_mem {ι : Type} [BEq ι] [LawfulBEq ι] {cs : List (ι × β)} {f : ι}
    (h : f ∈ cs.map Prod.fst) : ∃ l, cs.lookup f = some l := by
  cases hq : cs.lookup f with
  | some l => exact ⟨l, rfl⟩
  | none =>
    obtain ⟨p, hp, he⟩ := List.mem_map.mp h
    rw [List.lookup_eq_none_iff] at hq
    have := hq p hp
    simp [he] at this

theorem setField_keys (cs : List (String × β)) (f : String) (l : β) :
    (setField cs f l).map Prod.fst = cs.map Prod.fst := by
  simp only [setField, List.map_map]
  refine List.map_congr_left fun p _ => ?_
  by_cases h : p.1 = f <;> simp [h]

theorem lookup_setField (cs : List (String × β)) (f g : String) (l : β) :
    (setField cs f l).lookup g = if g = f then (cs.lookup f).map fun _ => l else cs.lookup g := by
  induction cs with
  | nil => simp [setField]
  | cons p cs ih =>
    obtain ⟨n, m⟩ := p
    have hstep : setField ((n, m) :: cs) f l
        = (if n = f then (n, l) else (n, m)) :: setField cs f l := rfl
    rw [hstep]
    by_cases hn : n = f
    · subst hn
      by_cases hg : g = n
      · subst hg; simp
      · have hb : (g == n) = false := by simpa using hg
        simp [List.lookup_cons, hb, ih, hg]
    · rw [if_neg hn, List.lookup_cons, List.lookup_cons]
      by_cases hg : g = n
      · subst hg; simp [hn]
      · have hb : (g == n) = false := by simpa using hg
        rw [hb, ih]
        by_cases hgf : g = f
        · subst hgf
          simp [hb]
        · simp [hgf, List.lookup_cons, hb]

theorem mem_setField {cs : List (String × β)} {f g : String} {l m : β}
    (h : (g, m) ∈ setField cs f l) :
    (g = f ∧ m = l) ∨ (g ≠ f ∧ (g, m) ∈ cs) := by
  simp only [setField, List.mem_map] at h
  obtain ⟨⟨n, k⟩, hp, he⟩ := h
  by_cases hn : n = f
  · simp only [hn, if_true, Prod.mk.injEq] at he
    exact Or.inl ⟨he.1.symm, he.2.symm⟩
  · simp only [hn, if_false, Prod.mk.injEq] at he
    exact Or.inr ⟨he.1 ▸ hn, by rw [← he.1, ← he.2]; exact hp⟩

theorem child_eq_of_mem {t : FieldTree α} (hnd : (t.children.map Prod.fst).Nodup) {f : String}
    {l : List (FieldTree α)} (h : (f, l) ∈ t.children) : t.child f = l := by
  unfold child
  generalize t.children = cs at hnd h
  induction cs with
  | nil => simp at h
  | cons p cs ih =>
    obtain ⟨n, m⟩ := p
    simp only [List.map_cons, List.nodup_cons] at hnd
    rcases List.mem_cons.mp h with he | hm
    · obtain ⟨rfl, rfl⟩ := Prod.mk.inj he
      simp
    · have hne : f ≠ n := by
        rintro rfl
        exact hnd.1 (List.mem_map.mpr ⟨_, hm, rfl⟩)
      have hb : (f == n) = false := by simpa using hne
      rw [List.lookup_cons, hb]
      exact ih hnd.2 hm

theorem mem_children_of_mem_child {t : FieldTree α} {f : String} {c : FieldTree α}
    (h : c ∈ t.child f) : (f, t.child f) ∈ t.children := by
  unfold child at *
  generalize t.children = cs at h ⊢
  induction cs with
  | nil => simp at h
  | cons p cs ih =>
    obtain ⟨n, m⟩ := p
    rw [List.lookup_cons] at h ⊢
    by_cases hn : f = n
    · subst hn; simp
    · have hb : (f == n) = false := by simpa using hn
      rw [hb] at h ⊢
      exact List.mem_cons_of_mem _ (ih h)

theorem Sub.of_mem_child {t : FieldTree α} {f : String} {c : FieldTree α} (h : c ∈ t.child f) :
    Sub c t :=
  Sub.of_child (mem_children_of_mem_child h) h

theorem child_map (g : α → β) (t : FieldTree α) (f : String) :
    (map g t).child f = (t.child f).map (map g) := by
  unfold child
  rw [children_map]
  generalize t.children = cs
  induction cs with
  | nil => rfl
  | cons p cs ih =>
    obtain ⟨n, m⟩ := p
    rw [List.map_cons, List.lookup_cons, List.lookup_cons]
    by_cases hn : f = n
    · subst hn; simp
    · have hb : (f == n) = false := by simpa using hn
      rw [hb]
      exact ih

end FieldTree
