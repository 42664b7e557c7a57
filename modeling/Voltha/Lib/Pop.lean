import Mathlib.Algebra.Order.Group.Nat
import Mathlib.Algebra.Ring.Nat
import Mathlib.Algebra.BigOperators.Group.List.Basic
import Mathlib.Data.List.Nodup
import Mathlib.Data.List.Perm.Subperm

/-!
# 位置を決めておいて順に pop する

列の位置をはじめに数えておき、その位置を一つずつ `pop` していく loop の数学。
一つ `pop` するたびに後ろの要素は詰まるので、数えておいた位置の要素が抜けるとは限らない。

* 位置が大きい順に並んでいれば、抜けるのはちょうどその位置の要素である。
* 逆に、抜けた要素がちょうどその位置の要素なら、位置は大きい順に並んでいる。

逆向きは、要素をはじめの番号に置き換えて番号の和を比べる。
`p` 番目の番号は `p` 以上なので、和が合うのは毎回ちょうど `p` が抜けるときだけである。
-/

namespace Pop

variable {α β : Type} {l l' : List α} {p : Nat} {ps qs : List Nat}

/-- 位置 `ps` を順に `pop` した残り。範囲を外れたら `none`。 -/
def popAll : List α → List Nat → Option (List α)
  | l, [] => some l
  | l, p :: ps => if p < l.length then popAll (l.eraseIdx p) ps else none

/-- 長さ `n` の列から `ps` を順に `pop` しても、範囲を外れない。 -/
def InRange : Nat → List Nat → Prop
  | _, [] => True
  | n, p :: ps => p < n ∧ InRange (n - 1) ps

instance decidableInRange : ∀ (n : Nat) (ps : List Nat), Decidable (InRange n ps)
  | _, [] => .isTrue trivial
  | n, p :: ps =>
    have := decidableInRange (n - 1) ps
    inferInstanceAs (Decidable (p < n ∧ InRange (n - 1) ps))

theorem popAll_isSome : ∀ (l : List α) (ps : List Nat),
    (popAll l ps).isSome ↔ InRange l.length ps
  | l, [] => by simp [popAll, InRange]
  | l, p :: ps => by
    rw [popAll, InRange]
    split
    · next hp => rw [popAll_isSome, List.length_eraseIdx_of_lt hp]; simp [hp]
    · next hp => simp [hp]

theorem popAll_append : ∀ (l : List α) (ps qs : List Nat),
    popAll l (ps ++ qs) = (popAll l ps).bind fun m => popAll m qs
  | l, [], qs => rfl
  | l, p :: ps, qs => by
    rw [List.cons_append, popAll, popAll]
    split
    · exact popAll_append _ ps qs
    · rfl

theorem popAll_map (f : α → β) : ∀ (l : List α) (ps : List Nat),
    popAll (l.map f) ps = (popAll l ps).map (List.map f)
  | l, [] => rfl
  | l, p :: ps => by
    rw [popAll, popAll, List.length_map]
    split
    · rw [← popAll_map f, List.eraseIdx_map]
    · rfl

theorem popAll_sublist : ∀ {l l' : List α} {ps : List Nat}, popAll l ps = some l' → l'.Sublist l
  | l, l', [], h => by cases h; exact List.Sublist.refl _
  | l, l', p :: ps, h => by
    rw [popAll] at h
    split at h
    · exact (popAll_sublist h).trans (List.eraseIdx_sublist ..)
    · cases h

theorem length_popAll : ∀ {l l' : List α} {ps : List Nat}, popAll l ps = some l' →
    l'.length + ps.length = l.length
  | l, l', [], h => by cases h; rfl
  | l, l', p :: ps, h => by
    rw [popAll] at h
    split at h
    · next hp =>
      have ih := length_popAll h
      rw [List.length_eraseIdx_of_lt hp] at ih
      rw [List.length_cons]
      omega
    · cases h

/-! ## 大きい順 -/

/-- 大きい順なら、範囲を外れることはない。 -/
theorem inRange_of_pairwise : ∀ {n : Nat} {ps : List Nat}, ps.Pairwise (· > ·) →
    (∀ p ∈ ps, p < n) → InRange n ps
  | _, [], _, _ => trivial
  | n, p :: ps, h, hlt => by
    obtain ⟨hp, hps⟩ := List.pairwise_cons.mp h
    have hpn := hlt p List.mem_cons_self
    exact ⟨hpn, inRange_of_pairwise hps fun q hq => by have := hp q hq; omega⟩

/-- 大きい順に `pop` すれば、抜けるのはちょうどその位置の要素である。 -/
theorem mem_popAll_of_pairwise : ∀ {l l' : List α} {ps : List Nat}, l.Nodup →
    ps.Pairwise (· > ·) → popAll l ps = some l' →
    ∀ a, a ∈ l' ↔ a ∈ l ∧ ∀ p ∈ ps, l[p]? ≠ some a
  | l, l', [], _, _, h, a => by cases h; simp
  | l, l', p :: ps, hnd, hps, h, a => by
    obtain ⟨hp, hps⟩ := List.pairwise_cons.mp hps
    rw [popAll] at h
    split at h
    · next hlt =>
      rw [mem_popAll_of_pairwise (hnd.sublist (List.eraseIdx_sublist ..)) hps h a]
      -- 残りの位置は `p` より前なので、`p` を抜いても動かない
      have hsame : ∀ q ∈ ps, (l.eraseIdx p)[q]? = l[q]? := fun q hq =>
        List.getElem?_eraseIdx_of_lt (hp q hq)
      have hmem : a ∈ l.eraseIdx p ↔ a ∈ l ∧ l[p]? ≠ some a := by
        rw [List.mem_eraseIdx_iff_getElem?]
        constructor
        · rintro ⟨i, hi, ha⟩
          refine ⟨List.mem_of_getElem? ha, fun hpa => hi ?_⟩
          exact ((List.getElem?_inj hlt hnd).mp (hpa.trans ha.symm)).symm
        · rintro ⟨ha, hne⟩
          obtain ⟨i, hi⟩ := List.mem_iff_getElem?.mp ha
          exact ⟨i, fun he => hne (he ▸ hi), hi⟩
      rw [hmem, List.forall_mem_cons, and_assoc]
      refine and_congr_right fun _ => and_congr_right fun _ => ?_
      exact forall₂_congr fun q hq => by rw [hsame q hq]
    · cases h

/-! ## 逆向き -/

/-- 増えていく番号の列では、`i` 番目の番号は `i` 以上である。 -/
theorem le_of_pairwise_lt : ∀ {cur : List Nat}, cur.Pairwise (· < ·) → ∀ {i v : Nat},
    cur[i]? = some v → i ≤ v
  | cur, h, 0, v, _ => Nat.zero_le v
  | cur, h, i + 1, v, hv => by
    obtain ⟨hlt, he⟩ := List.getElem?_eq_some_iff.mp hv
    have ih := le_of_pairwise_lt h (i := i) (List.getElem?_eq_getElem (by omega))
    have := List.pairwise_iff_getElem.mp h i (i + 1) (by omega) hlt (by omega)
    omega

theorem sum_eraseIdx {cur : List Nat} {v : Nat} (h : cur[p]? = some v) :
    (cur.eraseIdx p).sum + v = cur.sum := by
  obtain ⟨hlt, rfl⟩ := List.getElem?_eq_some_iff.mp h
  rw [List.eraseIdx_eq_take_drop_succ, List.sum_append]
  conv_rhs => rw [← List.take_append_drop p cur, List.drop_eq_getElem_cons hlt, List.sum_append,
    List.sum_cons]
  omega

/-- 残りの番号の和。合うのは、毎回その位置の番号が抜け、位置が大きい順に並ぶときだけである。 -/
theorem sum_popAll : ∀ {cur rest : List Nat} {ps : List Nat}, cur.Pairwise (· < ·) →
    popAll cur ps = some rest → rest.sum + ps.sum ≤ cur.sum ∧
      (rest.sum + ps.sum = cur.sum → ps.Pairwise (· > ·) ∧ ∀ p ∈ ps, cur[p]? = some p)
  | cur, rest, [], _, h => by cases h; simp
  | cur, rest, p :: ps, hcur, h => by
    rw [popAll] at h
    split at h
    · next hlt =>
      obtain ⟨hle, heq⟩ := sum_popAll (hcur.sublist (List.eraseIdx_sublist ..)) h
      have hget : cur[p]? = some cur[p] := List.getElem?_eq_getElem hlt
      have hv := le_of_pairwise_lt hcur hget
      have hsum := sum_eraseIdx hget
      rw [List.sum_cons]
      refine ⟨by omega, fun hall => ?_⟩
      obtain ⟨hpw, hself⟩ := heq (by omega)
      have hpv : cur[p] = p := by omega
      -- `p` から後ろは番号が位置より大きくなるので、残りの位置は `p` より前にある
      have hbefore : ∀ q ∈ ps, q < p := by
        intro q hq
        by_contra hge
        have hq' := hself q hq
        rw [List.getElem?_eraseIdx_of_ge (by omega)] at hq'
        have := le_of_pairwise_lt hcur hq'
        omega
      refine ⟨List.pairwise_cons.mpr ⟨hbefore, hpw⟩, ?_⟩
      intro q hq
      rcases List.mem_cons.mp hq with rfl | hq
      · rw [hget, hpv]
      · rw [← List.getElem?_eraseIdx_of_lt (hbefore q hq)]
        exact hself q hq
    · cases h

/-- 数えておいた位置の要素が一つも残らないなら、位置は大きい順に並んでいる。 -/
theorem pairwise_of_popAll (hps : ps.Nodup) (hlt : ∀ p ∈ ps, p < l.length)
    (h : popAll l ps = some l') (hmiss : ∀ a ∈ l', ∀ p ∈ ps, l[p]? ≠ some a) :
    ps.Pairwise (· > ·) := by
  -- 要素に番号を付けて同じ `pop` をする
  obtain ⟨z, hz, rfl⟩ : ∃ z, popAll l.zipIdx ps = some z ∧ z.map Prod.fst = l' := by
    have hm := popAll_map Prod.fst l.zipIdx ps
    rw [List.zipIdx_map_fst, h, eq_comm, Option.map_eq_some_iff] at hm
    exact hm
  have hnum : popAll (List.range l.length) ps = some (z.map Prod.snd) := by
    have hm := popAll_map Prod.snd l.zipIdx ps
    rwa [List.zipIdx_map_snd, hz, Option.map_some, ← List.range_eq_range'] at hm
  have hsub := popAll_sublist hz
  have hrest : ∀ i ∈ z.map Prod.snd, i ∉ ps := by
    intro i hi hip
    obtain ⟨⟨a, j⟩, hm, rfl⟩ := List.mem_map.mp hi
    have ha : l[j]? = some a := List.mem_zipIdx_iff_getElem?.mp (hsub.subset hm)
    exact hmiss a (List.mem_map.mpr ⟨_, hm, rfl⟩) j hip ha
  -- 残りの番号と抜いた位置を合わせると、ちょうど全部の番号になる
  have hnd : (z.map Prod.snd ++ ps).Nodup := by
    rw [List.nodup_append]
    refine ⟨List.nodup_range.sublist (popAll_sublist hnum), hps, ?_⟩
    rintro i hi j hj rfl
    exact hrest i hi hj
  have hperm : (z.map Prod.snd ++ ps).Perm (List.range l.length) := by
    refine (List.subperm_of_subset hnd fun i hi => ?_).perm_of_length_le ?_
    · rcases List.mem_append.mp hi with hi | hi
      · exact (popAll_sublist hnum).subset hi
      · exact List.mem_range.mpr (hlt i hi)
    · rw [List.length_append, length_popAll hnum]
  have hsum := hperm.sum_eq
  rw [List.sum_append] at hsum
  exact ((sum_popAll List.pairwise_lt_range hnum).2 hsum).1

end Pop
