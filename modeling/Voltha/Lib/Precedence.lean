import Mathlib.Data.List.Sort

/-!
# 優先順

値の大きい順の安定な整列と、条件に合う要素のうちで最も優先されるもの。

`Best key p l x` は「`p` に合う要素のうち、`key` が最大で、その中で最初のもの」を、
整列を使わずに言う。整列した列を前から探すと、見つかるのはこの要素である
（`best_of_split` と `Best.exists_split`）。
-/

namespace Precedence

variable {α β : Type*} [LinearOrder β] {key : α → β} {p q : α → Prop} {l : List α} {x y : α}

/-- `sorted(l, key=key, reverse=True)`。`key` の等しいものは元の順のまま残る。 -/
def byPriority (key : α → β) (l : List α) : List α :=
  l.mergeSort fun a b => decide (key b ≤ key a)

@[simp] theorem byPriority_nil : byPriority key [] = [] := List.mergeSort_nil

@[simp] theorem byPriority_singleton : byPriority key [x] = [x] := List.mergeSort_singleton x

@[simp] theorem mem_byPriority : x ∈ byPriority key l ↔ x ∈ l := List.mem_mergeSort

theorem byPriority_trans (a b c : α) (hab : decide (key b ≤ key a) = true)
    (hbc : decide (key c ≤ key b) = true) : decide (key c ≤ key a) = true :=
  decide_eq_true ((of_decide_eq_true hbc).trans (of_decide_eq_true hab))

theorem byPriority_total (a b : α) : (decide (key b ≤ key a) || decide (key a ≤ key b)) = true := by
  rw [Bool.or_eq_true, decide_eq_true_eq, decide_eq_true_eq]
  exact le_total _ _

/-- 前にあるものほど `key` が大きい。 -/
theorem pairwise_byPriority (key : α → β) (l : List α) :
    (byPriority key l).Pairwise fun a b => key b ≤ key a := by
  have h := List.pairwise_mergeSort (@byPriority_trans _ _ _ key) byPriority_total l
  exact h.imp fun hab => of_decide_eq_true hab

/-- 安定性。`key` が同じものだけを残すと、整列しても順は変わらない。 -/
theorem filter_byPriority [DecidablePred q] (key : α → β) {c : β} (hq : ∀ y, q y → key y = c)
    (l : List α) :
    (byPriority key l).filter q = l.filter q := by
  have hpair : (l.filter q).Pairwise fun a b => decide (key b ≤ key a) = true := by
    refine List.pairwise_of_forall_mem_list fun a ha b hb => decide_eq_true ?_
    rw [List.mem_filter, decide_eq_true_eq] at ha hb
    rw [hq a ha.2, hq b hb.2]
  have hsub : (l.filter q).Sublist (byPriority key l) :=
    List.sublist_mergeSort byPriority_trans byPriority_total hpair List.filter_sublist
  have hfilter : (l.filter q).Sublist ((byPriority key l).filter q) := by
    have h := hsub.filter q
    rwa [List.filter_filter, List.filter_congr fun a _ => Bool.and_self _] at h
  have hlen : (l.filter q).length = ((byPriority key l).filter q).length :=
    ((List.mergeSort_perm l _).filter q).length_eq.symm
  exact (hfilter.eq_of_length hlen).symm

/-- `p` に合う要素のうち、`key` が最大で、その中で最初のもの。 -/
def Best (key : α → β) (p : α → Prop) (l : List α) (x : α) : Prop :=
  p x ∧ ∃ before after, l = before ++ x :: after ∧
    (∀ y ∈ before, p y → key y < key x) ∧ ∀ y ∈ after, p y → key y ≤ key x

theorem Best.mem (h : Best key p l x) : x ∈ l := by
  obtain ⟨-, before, after, rfl, -, -⟩ := h
  simp

theorem Best.holds (h : Best key p l x) : p x := h.1

/-- 前のどれも合わず、後のどれにも負けない。 -/
theorem Best.intro {before after : List α} (hx : p x) (hbefore : ∀ y ∈ before, ¬p y)
    (hafter : ∀ y ∈ after, p y → key y ≤ key x) : Best key p (before ++ x :: after) x :=
  ⟨hx, before, after, rfl, fun y hy hpy => absurd hpy (hbefore y hy), hafter⟩

theorem Best.key_le (h : Best key p l x) (hy : y ∈ l) (hpy : p y) : key y ≤ key x := by
  obtain ⟨-, before, after, rfl, hbefore, hafter⟩ := h
  rcases List.mem_append.mp hy with hy | hy
  · exact (hbefore y hy hpy).le
  · rcases List.mem_cons.mp hy with rfl | hy
    · exact le_rfl
    · exact hafter y hy hpy

/-- 条件を狭めても、まだ合うなら最も優先される。 -/
theorem Best.mono (h : Best key p l x) (hqp : ∀ y ∈ l, q y → p y) (hx : q x) :
    Best key q l x := by
  obtain ⟨-, before, after, rfl, hbefore, hafter⟩ := h
  refine ⟨hx, before, after, rfl, fun y hy hqy => hbefore y hy (hqp y ?_ hqy),
    fun y hy hqy => hafter y hy (hqp y ?_ hqy)⟩
  · exact List.mem_append_left _ hy
  · exact List.mem_append_right _ (List.mem_cons_of_mem _ hy)

/-- 合わない要素を除いても、最も優先される。 -/
theorem Best.filter [DecidablePred q] (h : Best key p l x) (hq : ∀ y ∈ l, p y → q y) :
    Best key p (l.filter q) x := by
  have hqx := hq x h.mem h.holds
  obtain ⟨hx, before, after, rfl, hbefore, hafter⟩ := h
  refine ⟨hx, before.filter q, after.filter q, ?_, fun y hy => hbefore y (List.mem_of_mem_filter hy),
    fun y hy => hafter y (List.mem_of_mem_filter hy)⟩
  rw [List.filter_append, List.filter_cons_of_pos (by simpa using hqx)]

theorem Best.map {γ : Type*} (f : γ → α) {l : List γ} {x : γ}
    (h : Best (key ∘ f) (p ∘ f) l x) : Best key p (l.map f) (f x) := by
  obtain ⟨hx, before, after, rfl, hbefore, hafter⟩ := h
  refine ⟨hx, before.map f, after.map f, by simp, fun y hy => ?_, fun y hy => ?_⟩
  · obtain ⟨z, hz, rfl⟩ := List.mem_map.mp hy
    exact hbefore z hz
  · obtain ⟨z, hz, rfl⟩ := List.mem_map.mp hy
    exact hafter z hz

/-- 前に同じだけ優先されるものがある要素は、最も優先されることがない。 -/
theorem Best.shadowed {before after : List α} (h : Best key p (before ++ y :: after) x)
    {z : α} (hz : z ∈ before) (hkey : key y ≤ key z) (hp : p y → p z) :
    Best key p (before ++ after) x := by
  obtain ⟨hx, first, rest, heq, hfirst, hrest⟩ := h
  rcases List.append_eq_append_iff.mp heq with ⟨mid, rfl, hmid⟩ | ⟨mid, rfl, hmid⟩
  · cases mid with
    | nil =>
      obtain ⟨rfl, rfl⟩ := List.cons.inj hmid
      exact absurd (hfirst z (by simpa using hz) (hp hx)) hkey.not_gt
    | cons w mid =>
      obtain ⟨rfl, rfl⟩ := List.cons.inj hmid
      refine ⟨hx, before ++ mid, rest, by simp, fun w hw => hfirst w ?_, hrest⟩
      rcases List.mem_append.mp hw with hw | hw <;> simp [hw]
  · cases mid with
    | nil =>
      obtain ⟨rfl, rfl⟩ := List.cons.inj hmid
      exact absurd (hfirst z (by simpa using hz) (hp hx)) hkey.not_gt
    | cons w mid =>
      obtain ⟨rfl, rfl⟩ := List.cons.inj hmid
      refine ⟨hx, first, mid ++ after, by simp, hfirst, fun w hw => hrest w ?_⟩
      rcases List.mem_append.mp hw with hw | hw <;> simp [hw]

/-- 整列した列を前から探して最初に合うものは、最も優先されるものである。 -/
theorem best_of_split {first rest : List α} (hsort : byPriority key l = first ++ x :: rest)
    (hfirst : ∀ y ∈ first, ¬ p y) (hx : p x) : Best key p l x := by
  classical
  have hle : ∀ y ∈ l, p y → key y ≤ key x := by
    intro y hy hpy
    have hpair := pairwise_byPriority key l
    rw [hsort, List.pairwise_append, List.pairwise_cons] at hpair
    have hmem : y ∈ byPriority key l := mem_byPriority.mpr hy
    rw [hsort, List.mem_append, List.mem_cons] at hmem
    rcases hmem with hy | rfl | hy
    · exact absurd hpy (hfirst y hy)
    · exact le_rfl
    · exact hpair.2.1.1 y hy
  -- `x` と同じ `key` の合うものは、元の列と同じ順に並んでいる
  have hsame : (l.filter fun y => decide (p y ∧ key y = key x))
      = x :: rest.filter fun y => decide (p y ∧ key y = key x) := by
    rw [← filter_byPriority key (fun y hy => hy.2) l, hsort, List.filter_append,
      List.filter_eq_nil_iff.mpr fun y hy hpy => hfirst y hy (of_decide_eq_true hpy).1,
      List.nil_append, List.filter_cons, if_pos (decide_eq_true (And.intro hx rfl))]
  obtain ⟨before, after, rfl, hbefore, -, -⟩ := List.filter_eq_cons_iff.mp hsame
  refine ⟨hx, before, after, rfl, fun y hy hpy => ?_, fun y hy hpy => ?_⟩
  · refine lt_of_le_of_ne (hle y (List.mem_append_left _ hy) hpy) fun hkey => ?_
    exact hbefore y hy (decide_eq_true ⟨hpy, hkey⟩)
  · exact hle y (List.mem_append_right _ (List.mem_cons_of_mem _ hy)) hpy

/-- 最も優先されるものは一つである。 -/
theorem Best.unique (hx : Best key p l x) (hy : Best key p l y) : x = y := by
  have hkey : key x = key y :=
    le_antisymm (hy.key_le hx.mem hx.holds) (hx.key_le hy.mem hy.holds)
  obtain ⟨hpx, before, after, rfl, hbefore, -⟩ := hx
  obtain ⟨hpy, before', after', heq, hbefore', -⟩ := hy
  rcases List.append_eq_append_iff.mp heq with ⟨mid, rfl, hmid⟩ | ⟨mid, rfl, hmid⟩
  · cases mid with
    | nil => exact (List.cons.inj hmid).1
    | cons z mid =>
      obtain ⟨rfl, -⟩ := List.cons.inj hmid
      exact absurd hkey (hbefore' x (by simp) hpx).ne
  · cases mid with
    | nil => exact (List.cons.inj hmid).1.symm
    | cons z mid =>
      obtain ⟨rfl, -⟩ := List.cons.inj hmid
      exact absurd hkey.symm (hbefore y (by simp) hpy).ne

/-- 合うものがあれば、整列した列の初めの合うものがある。 -/
theorem exists_split [DecidablePred p] (key : α → β) (hx : x ∈ l) (hpx : p x) :
    ∃ first y rest, byPriority key l = first ++ y :: rest ∧ (∀ z ∈ first, ¬ p z) ∧ p y := by
  have hex : ((byPriority key l).find? fun z => decide (p z)).isSome := by
    rw [List.find?_isSome]
    exact ⟨x, mem_byPriority.mpr hx, decide_eq_true hpx⟩
  obtain ⟨y, hy⟩ := Option.isSome_iff_exists.mp hex
  obtain ⟨hpy, first, rest, hsort, hfirst⟩ := List.find?_eq_some_iff_append.mp hy
  refine ⟨first, y, rest, hsort, fun z hz hpz => ?_, of_decide_eq_true hpy⟩
  have h := hfirst z hz
  rw [decide_eq_true hpz] at h
  exact Bool.noConfusion h

/-- 最も優先されるものの前には、整列した列で合うものが無い。 -/
theorem Best.exists_split [DecidablePred p] (h : Best key p l x) :
    ∃ first rest, byPriority key l = first ++ x :: rest ∧ ∀ y ∈ first, ¬ p y := by
  obtain ⟨first, y, rest, hsort, hfirst, hpy⟩ := Precedence.exists_split key h.mem h.holds
  obtain rfl := h.unique (best_of_split hsort hfirst hpy)
  exact ⟨first, rest, hsort, hfirst⟩

end Precedence
