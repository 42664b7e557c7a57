import Mathlib.Data.List.Basic

/-!
# つないだ列の切れ目

部分列 `ms` をつなぎ、末尾に `tail` を付けた列を考える。その先頭を切り取ると、
いくつかの完全な部分列と、次の部分列の途中までになる。

切り取る長さだけで場合を分けるので、部分列の中身には何も仮定しない。

* `first_mark_inj` — 最初の印での分け方は一つ
* `flatten_inj_of_length` — どの部分列も同じ長さなら、切れ目の印が無くても分け方は一つ
-/

namespace List

variable {α : Type*}

/-- `t` は `m` の先頭で、`m` の全体ではない。 -/
def ProperPrefix (t m : List α) : Prop := ∃ u, u ≠ [] ∧ m = t ++ u

theorem ProperPrefix.length_lt {t m : List α} (h : t.ProperPrefix m) : t.length < m.length := by
  obtain ⟨u, hu, rfl⟩ := h
  have := length_pos_of_ne_nil hu
  simp only [length_append]
  omega

/-- つないだ列の先頭は、完全な部分列を `k` 個と、その次の途中までである。 -/
theorem cut_flatten (ms : List (List α)) {tail b rest : List α}
    (h : b ++ rest = ms.flatten ++ tail) :
    ∃ k t, b = (ms.take k).flatten ++ t ∧ t ++ rest = (ms.drop k).flatten ++ tail ∧
      ((∃ m ∈ ms, t.ProperPrefix m) ∨ t <+: tail) := by
  induction ms generalizing b with
  | nil => exact ⟨0, b, by simp, by simpa using h, Or.inr ⟨rest, by simpa using h⟩⟩
  | cons m ms ih =>
    rw [flatten_cons, append_assoc] at h
    rcases append_eq_append_iff.mp h with ⟨u, hm, hrest⟩ | ⟨b', hb, hrest⟩
    · by_cases hu : u = []
      · -- ちょうど `m` の終わりで切れている
        subst hu
        have hm' : m = b := by simpa using hm
        have hrest' : [] ++ rest = ms.flatten ++ tail := by simpa using hrest
        obtain ⟨k, t, hk, ht, hproper⟩ := ih hrest'
        refine ⟨k + 1, t, by simp [← hm', ← hk], by simpa using ht, ?_⟩
        exact hproper.imp (fun ⟨x, hx, hxt⟩ => ⟨x, mem_cons_of_mem _ hx, hxt⟩) id
      · refine ⟨0, b, by simp, by simp [hm, hrest], Or.inl ⟨m, mem_cons_self, u, hu, hm⟩⟩
    · obtain ⟨k, t, hk, ht, hproper⟩ := ih hrest.symm
      refine ⟨k + 1, t, by simp [hb, hk], by simpa using ht, ?_⟩
      exact hproper.imp (fun ⟨x, hx, hxt⟩ => ⟨x, mem_cons_of_mem _ hx, hxt⟩) id

/-- 最初の印での分け方は一つ。 -/
theorem first_mark_inj {c : α} {p q r t : List α} (hp : c ∉ p) (hq : c ∉ q)
    (h : p ++ c :: r = q ++ c :: t) : p = q ∧ r = t := by
  rcases append_eq_append_iff.mp h with ⟨a, rfl, hr⟩ | ⟨a, rfl, hr⟩
  · cases a with
    | nil => simpa using hr
    | cons d a =>
      obtain ⟨rfl, -⟩ := cons.inj hr
      simp at hq
  · cases a with
    | nil => simpa [eq_comm] using hr
    | cons d a =>
      obtain ⟨rfl, -⟩ := cons.inj hr
      simp at hp

/-- どの部分列も同じ長さなら、つないだ列の分け方は一つ。 -/
theorem flatten_inj_of_length {n : Nat} {ms ms' : List (List α)} (hn : 0 < n)
    (h : ∀ m ∈ ms, m.length = n) (h' : ∀ m ∈ ms', m.length = n)
    (he : ms.flatten = ms'.flatten) : ms = ms' := by
  have hpos : ∀ {m : List α} {rest : List α}, m.length = n → [] ≠ m ++ rest := by
    intro m rest hm hnil
    have := congrArg length hnil
    simp only [length_nil, length_append] at this
    omega
  induction ms generalizing ms' with
  | nil =>
    cases ms' with
    | nil => rfl
    | cons m' ms' => exact absurd he (hpos (h' m' mem_cons_self))
  | cons m ms ih =>
    cases ms' with
    | nil => exact absurd he.symm (hpos (h m mem_cons_self))
    | cons m' ms' =>
      have hlen := (h m mem_cons_self).trans (h' m' mem_cons_self).symm
      obtain ⟨rfl, hrest⟩ := append_inj he hlen
      rw [ih (fun x hx => h x (mem_cons_of_mem _ hx))
        (fun x hx => h' x (mem_cons_of_mem _ hx)) hrest]

end List
