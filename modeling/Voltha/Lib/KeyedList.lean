import Voltha.Lib.OrderedDict

/-!
# key の付いた列

要素ごとに key を持つ列と、key から位置への辞書。
key が重ならなければ、辞書の読みは「その key を持つ要素の位置」である。
-/

namespace KeyedList

variable {α κ : Type} {key : α → κ} {l : List α}

/-- key から位置への対応を、列の順に並べたもの。 -/
def positions (key : α → κ) (l : List α) : List (κ × Nat) :=
  l.zipIdx.map fun p => (key p.1, p.2)

theorem positions_keys (key : α → κ) (l : List α) : (positions key l).map Prod.fst = l.map key := by
  unfold positions
  rw [List.map_map]
  conv_rhs => rw [← List.zipIdx_map_fst 0 l, List.map_map]
  rfl

theorem mem_positions {k : κ} {i : Nat} :
    (k, i) ∈ positions key l ↔ ∃ a, l[i]? = some a ∧ key a = k := by
  unfold positions
  simp only [List.mem_map, Prod.mk.injEq, Prod.exists]
  constructor
  · rintro ⟨a, j, hm, rfl, rfl⟩
    exact ⟨a, List.mem_zipIdx_iff_getElem?.mp hm, rfl⟩
  · rintro ⟨a, ha, rfl⟩
    exact ⟨a, i, List.mem_zipIdx_iff_getElem?.mpr ha, rfl, rfl⟩

variable [BEq κ] [LawfulBEq κ]

theorem lookup_eq_some_iff {β : Type} {d : List (κ × β)} (h : (d.map Prod.fst).Nodup) {k : κ}
    {v : β} : d.lookup k = some v ↔ (k, v) ∈ d := by
  induction d with
  | nil => simp
  | cons p d ih =>
    obtain ⟨a, b⟩ := p
    rw [List.map_cons, List.nodup_cons] at h
    rw [List.lookup_cons, List.mem_cons, Prod.mk.injEq]
    by_cases ha : k = a
    · subst ha
      have hnot : (k, v) ∉ d := fun hm => h.1 (List.mem_map.mpr ⟨_, hm, rfl⟩)
      simp [hnot, eq_comm]
    · have hb : (k == a) = false := by simpa using ha
      rw [hb, ih h.2]
      simp [ha]

/-- key が重ならなければ、辞書はその key を持つ要素の位置を返す。 -/
theorem lookup_positions (h : (l.map key).Nodup) {k : κ} {i : Nat} :
    (positions key l).lookup k = some i ↔ ∃ a, l[i]? = some a ∧ key a = k := by
  rw [lookup_eq_some_iff (by rw [positions_keys]; exact h), mem_positions]

/-- key が重ならなければ、同じ key の要素は同じ位置にある。 -/
theorem index_unique (h : (l.map key).Nodup) {i j : Nat} {a b : α} (hi : l[i]? = some a)
    (hj : l[j]? = some b) (hk : key a = key b) : i = j := by
  have h1 := (lookup_positions h (k := key a)).mpr ⟨a, hi, rfl⟩
  have h2 := (lookup_positions h (k := key a)).mpr ⟨b, hj, hk.symm⟩
  rw [h1] at h2
  exact Option.some.inj h2

end KeyedList
