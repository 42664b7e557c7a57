import Mathlib.Data.List.Sort
import Mathlib.Data.String.Basic

/-!
# Python の文字列の操作

* `replace` — `s.replace(old, new)`。左から探し、重ならないものをすべて置き換える
* `rpartition` — `s.rpartition(c)` の前と後
* `find?_sorted` — 並べ替えた表を先頭から探すと、最大のものが見つかる
-/

namespace PyString

/-- 前から見ていく。`skip` は、置き換えた部分の残り。 -/
def replaceFrom (old new : List Char) : Nat → List Char → List Char
  | _, [] => []
  | skip + 1, _ :: s => replaceFrom old new skip s
  | 0, c :: s =>
    if old <+: c :: s then new ++ replaceFrom old new (old.length - 1) s
    else c :: replaceFrom old new 0 s

/-- `s.replace(old, new)`。`old` は空でない。 -/
def replace (s old new : String) : String :=
  .ofList (replaceFrom old.toList new.toList 0 s.toList)

section Replace

variable {old new : List Char}

theorem replaceFrom_skip (u s : List Char) :
    replaceFrom old new u.length (u ++ s) = replaceFrom old new 0 s := by
  induction u with
  | nil => rfl
  | cons c u ih => exact ih

theorem replaceFrom_append (h : old ≠ []) (s : List Char) :
    replaceFrom old new 0 (old ++ s) = new ++ replaceFrom old new 0 s := by
  cases old with
  | nil => exact absurd rfl h
  | cons c u =>
    rw [List.cons_append, replaceFrom, if_pos (by simp), List.length_cons, Nat.add_sub_cancel,
      replaceFrom_skip]

/-- 連結で足される量が同じ文字列で置き換えても、全体の量は変わらない。 -/
theorem replaceFrom_additive {M : Type} [Add M] {f : List Char → M}
    (hf : ∀ s t, f (s ++ t) = f s + f t) (h : old ≠ []) (heq : f new = f old) (s : List Char) :
    f (replaceFrom old new 0 s) = f s := by
  induction hn : s.length using Nat.strong_induction_on generalizing s with
  | _ n ih =>
    by_cases hold : old <+: s
    · obtain ⟨t, rfl⟩ := hold
      have hlength : t.length < n := by
        have hpos := List.length_pos_of_ne_nil h
        rw [List.length_append] at hn
        omega
      rw [replaceFrom_append h, hf, hf, heq, ih _ hlength t rfl]
    · cases s with
      | nil => rfl
      | cons c s =>
        have hlength : s.length < n := by simp [← hn]
        rw [replaceFrom, if_neg hold, ← List.singleton_append, hf, ih _ hlength s rfl,
          ← List.singleton_append (l := s), hf]

end Replace

/-- `s.rpartition(c)` の、区切りの前と後。区切りが無ければ、前が空になる。 -/
def rpartition (s : String) (c : Char) : String × String :=
  if c ∈ s.toList then
    (.ofList (s.toList.reverse.dropWhile (· ≠ c)).tail.reverse,
      .ofList (s.toList.reverse.takeWhile (· ≠ c)).reverse)
  else ("", s)

section Rpartition

variable {c : Char} {s t : List Char}

theorem all_ne_reverse (h : c ∉ t) : ∀ x ∈ t.reverse, decide (x ≠ c) = true := by
  intro x hx
  refine decide_eq_true fun he => h ?_
  rw [← he]
  exact List.mem_reverse.mp hx

/-- 最後の区切りで分ける。 -/
theorem rpartition_append (h : c ∉ t) :
    rpartition (.ofList (s ++ c :: t)) c = (.ofList s, .ofList t) := by
  have hreverse : (s ++ c :: t).reverse = t.reverse ++ c :: s.reverse := by simp
  have hmem : c ∈ s ++ c :: t := by simp
  rw [rpartition, String.toList_ofList, if_pos hmem, hreverse,
    List.dropWhile_append_of_pos (all_ne_reverse h),
    List.takeWhile_append_of_pos (all_ne_reverse h)]
  simp

end Rpartition

/-- `c` の無い終わりの前の `c` で分けると、分け方が決まる。 -/
theorem split_last {c : Char} {a b p u : List Char} (hu : c ∉ u)
    (h : a ++ c :: b = p ++ c :: u) : (p = a ∧ b = u) ∨ a ++ [c] <+: p := by
  rcases List.append_eq_append_iff.mp h with ⟨r, rfl, hr⟩ | ⟨r, rfl, hr⟩
  · cases r with
    | nil =>
      rw [List.nil_append, List.cons_inj_right] at hr
      exact .inl ⟨by simp, hr⟩
    | cons x r =>
      obtain ⟨rfl, -⟩ := List.cons.inj hr
      exact .inr ⟨r, by simp⟩
  · cases r with
    | nil =>
      rw [List.nil_append, List.cons_inj_right] at hr
      exact .inl ⟨by simp, hr.symm⟩
    | cons x r =>
      obtain ⟨-, hr⟩ := List.cons.inj hr
      exact absurd (hr ▸ by simp) hu

/-- どちらの終わりにも `c` が無ければ、分け方は一つである。 -/
theorem split_unique {c : Char} {a b p u : List Char} (hb : c ∉ b) (hu : c ∉ u)
    (h : a ++ c :: b = p ++ c :: u) : a = p ∧ b = u := by
  rcases split_last hu h with ⟨rfl, rfl⟩ | ⟨r, rfl⟩
  · exact ⟨rfl, rfl⟩
  · rw [List.append_assoc, List.append_assoc, List.append_cancel_left_eq, List.singleton_append,
      List.cons_inj_right] at h
    exact absurd (h ▸ by simp) hb

/-- 前に付く文字列は、文字列の順で大きくない。 -/
theorem le_of_prefix {p q : String} (h : p.toList <+: q.toList) : p ≤ q := by
  obtain ⟨w, hw⟩ := h
  have hle : ¬p.toList ++ w < p.toList := List.le_append_left
  rw [← not_lt, String.lt_iff_toList_lt, ← hw]
  exact hle

/-- 並べ替えた表を先頭から探すと、`p` を満たすものの最大が見つかる。 -/
theorem find?_sorted {α : Type} {r : α → α → Prop} [Std.Antisymm r] {p : α → Bool} {l : List α}
    (hl : l.Pairwise r) {a : α} (ha : a ∈ l) (hp : p a = true)
    (hmax : ∀ b ∈ l, p b = true → r a b) : l.find? p = some a := by
  induction l with
  | nil => simp at ha
  | cons b l ih =>
    obtain ⟨hb, hl⟩ := List.pairwise_cons.mp hl
    rw [List.find?_cons]
    cases hpb : p b with
    | true =>
      rcases List.mem_cons.mp ha with rfl | ha
      · rfl
      · have hba : r b a := hb a ha
        have hab : r a b := hmax b List.mem_cons_self hpb
        rw [Std.Antisymm.antisymm a b hab hba]
    | false =>
      rcases List.mem_cons.mp ha with rfl | ha
      · rw [hp] at hpb
        cases hpb
      · exact ih hl ha fun x hx => hmax x (List.mem_cons_of_mem _ hx)

end PyString
