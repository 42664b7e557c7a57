import Voltha.Lib.Precedence

/-!
# 優先順に引く表

`lookup key m l` は、`l` を優先順に並べ、`m` が真になる最初の要素を返す。`m` は例外を投げることもあり、
そこで探すのは終わる。

答えは、`m` が偽でない要素のうち最も優先されるものだけで決まる（`lookup_of_best`）。だから、

* `m` が偽になる要素を除いても変わらない（`lookup_filter`）
* 要素を写像で写してから引いても変わらない（`lookup_map`）
* 優先順も `m` も同じ要素が前にあれば、除いても変わらない（`lookup_foldl_keepNew`）
-/

namespace MatchTable

open Precedence

variable {α γ ε β ι : Type} [LinearOrder β] {key : α → β} {m : α → Except ε Bool} {l l' : List α}
  {x y : α}

/-- 前から順に `m` を呼ぶ。 -/
def search (m : α → Except ε Bool) : List α → Except ε (Option α)
  | [] => .ok none
  | x :: rest => do if ← m x then return some x else search m rest

/-- 優先順に並べて探す。 -/
def lookup (key : α → β) (m : α → Except ε Bool) (l : List α) : Except ε (Option α) :=
  search m (byPriority key l)

/-- `x` で探すのが終わる。 -/
def Stops (m : α → Except ε Bool) (x : α) : Prop := m x ≠ .ok false

/-- `x` で終わったときの答え。 -/
def answer (m : α → Except ε Bool) (x : α) : Except ε (Option α) := (m x).map fun _ => some x

theorem search_append {first : List α} (h : ∀ y ∈ first, ¬Stops m y) (rest : List α) :
    search m (first ++ rest) = search m rest := by
  induction first with
  | nil => rfl
  | cons y first ih =>
    obtain ⟨hy, hfirst⟩ := List.forall_mem_cons.mp h
    rw [List.cons_append, search, not_not.mp hy]
    exact ih hfirst

theorem search_stops (h : Stops m x) (rest : List α) : search m (x :: rest) = answer m x := by
  unfold search answer
  cases hm : m x with
  | error e => rfl
  | ok b =>
    cases b with
    | false => exact absurd hm h
    | true => rfl

/-- 終わるもののうち最も優先されるものが答えになる。 -/
theorem lookup_of_best (h : Best key (Stops m) l x) : lookup key m l = answer m x := by
  classical
  obtain ⟨first, rest, hsort, hfirst⟩ := h.exists_split
  rw [lookup, hsort, search_append hfirst, search_stops h.holds]

theorem lookup_of_none (h : ∀ x ∈ l, ¬Stops m x) : lookup key m l = .ok none := by
  have hnone : ∀ y ∈ byPriority key l, ¬Stops m y := fun y hy => h y (mem_byPriority.mp hy)
  have hsorted := search_append hnone []
  rwa [List.append_nil] at hsorted

/-- 終わるものが無いか、最も優先されるものがある。 -/
theorem none_or_best (key : α → β) (m : α → Except ε Bool) (l : List α) :
    (∀ x ∈ l, ¬Stops m x) ∨ ∃ x, Best key (Stops m) l x := by
  classical
  by_cases h : ∃ x ∈ l, Stops m x
  · obtain ⟨x, hx, hstops⟩ := h
    obtain ⟨first, y, rest, hsort, hfirst, hy⟩ := exists_split key hx hstops
    exact .inr ⟨y, best_of_split hsort hfirst hy⟩
  · exact .inl fun x hx hstops => h ⟨x, hx, hstops⟩

/-- 最も優先されるものが同じなら、答えも同じである。 -/
theorem lookup_congr (hnone : (∀ x ∈ l, ¬Stops m x) → ∀ x ∈ l', ¬Stops m x)
    (hbest : ∀ x, Best key (Stops m) l x → Best key (Stops m) l' x) :
    lookup key m l = lookup key m l' := by
  rcases none_or_best key m l with hno | ⟨x, hx⟩
  · rw [lookup_of_none hno, lookup_of_none (hnone hno)]
  · rw [lookup_of_best hx, lookup_of_best (hbest x hx)]

/-- 答えは、列の要素の `m` だけで決まる。 -/
theorem lookup_of_eq {m' : α → Except ε Bool} (h : ∀ x ∈ l, m x = m' x) :
    lookup key m l = lookup key m' l := by
  have hsearch : ∀ l' : List α, (∀ x ∈ l', m x = m' x) → search m l' = search m' l' := by
    intro l' hl'
    induction l' with
    | nil => rfl
    | cons x rest ih =>
      obtain ⟨hx, hrest⟩ := List.forall_mem_cons.mp hl'
      rw [search, search, hx, ih hrest]
  exact hsearch _ fun x hx => h x (mem_byPriority.mp hx)

theorem mem_of_search : ∀ {l : List α}, search m l = .ok (some x) → x ∈ l
  | y :: rest, h => by
    unfold search at h
    cases hm : m y with
    | error e =>
      rw [hm] at h
      cases h
    | ok b =>
      rw [hm] at h
      cases b with
      | true =>
        cases h
        exact List.mem_cons_self
      | false => exact List.mem_cons_of_mem _ (mem_of_search h)

theorem mem_of_lookup (h : lookup key m l = .ok (some x)) : x ∈ l :=
  mem_byPriority.mp (mem_of_search h)

/-- 真になる要素が一つの値だけなら、それが答えになる。 -/
theorem lookup_of_only (hx : x ∈ l) (hm : m x = .ok true) (h : ∀ y ∈ l, y = x ∨ m y = .ok false) :
    lookup key m l = .ok (some x) := by
  rcases none_or_best key m l with hno | ⟨y, hy⟩
  · refine absurd (hno x hx) (not_not.mpr ?_)
    rw [Stops, hm]
    simp
  · obtain rfl := (h y hy.mem).resolve_right hy.holds
    rw [lookup_of_best hy, answer, hm]
    rfl

/-- 偽になる要素は、除いてもよい。 -/
theorem lookup_filter {q : α → Prop} [DecidablePred q] (h : ∀ x ∈ l, ¬q x → m x = .ok false) :
    lookup key m (l.filter q) = lookup key m l := by
  have hq : ∀ x ∈ l, Stops m x → q x := fun x hx hstops =>
    not_not.mp fun hnot => hstops (h x hx hnot)
  refine (lookup_congr (fun hno x hx => hno x (List.mem_filter.mp hx).1) fun x hx => ?_).symm
  exact hx.filter hq

/-- 偽になる要素だけを作るものは、無くてもよい。 -/
theorem lookup_flatMap_filter {q : γ → Prop} [DecidablePred q] {g : γ → List α} {l : List γ}
    (h : ∀ a ∈ l, ¬q a → ∀ x ∈ g a, m x = .ok false) :
    lookup key m ((l.filter q).flatMap g) = lookup key m (l.flatMap g) := by
  classical
  have hkept : ((l.filter q).flatMap g).filter (Stops m) = (l.flatMap g).filter (Stops m) := by
    induction l with
    | nil => rfl
    | cons a l ih =>
      obtain ⟨ha, hl⟩ := List.forall_mem_cons.mp h
      rw [List.flatMap_cons, List.filter_append, ← ih hl, List.filter_cons]
      by_cases hq : q a
      · rw [if_pos (decide_eq_true hq), List.flatMap_cons, List.filter_append]
      · have hnil : (g a).filter (Stops m) = [] :=
          List.filter_eq_nil_iff.mpr fun x hx hstops => of_decide_eq_true hstops (ha hq x hx)
        rw [if_neg (by simpa using hq), hnil, List.nil_append]
  have hstops : ∀ l : List α, lookup key m (l.filter (Stops m)) = lookup key m l :=
    fun l => lookup_filter fun x _ hx => not_not.mp hx
  rw [← hstops, hkept, hstops]

/-- 写像で写してから引く。 -/
theorem lookup_map (f : γ → α) (l : List γ) :
    lookup key m (l.map f) = (lookup (key ∘ f) (m ∘ f) l).map (Option.map f) := by
  rcases none_or_best (key ∘ f) (m ∘ f) l with hno | ⟨x, hx⟩
  · rw [lookup_of_none hno, lookup_of_none]
    · rfl
    · intro y hy
      obtain ⟨x, hx, rfl⟩ := List.mem_map.mp hy
      exact hno x hx
  · rw [lookup_of_best hx, lookup_of_best (hx.map f)]
    unfold answer
    cases hm : m (f x) <;> simp [hm, Except.map]

/-- 優先順も `m` も同じ要素が前にある。 -/
theorem lookup_shadowed {before after : List α} (hx : x ∈ before) (hkey : key x = key y)
    (hm : m x = m y) : lookup key m (before ++ y :: after) = lookup key m (before ++ after) := by
  refine lookup_congr (fun hno z hz => hno z ?_) fun z hz => hz.shadowed hx hkey.ge fun h => ?_
  · rcases List.mem_append.mp hz with hz | hz
    · exact List.mem_append_left _ hz
    · exact List.mem_append_right _ (List.mem_cons_of_mem _ hz)
  · unfold Stops at h ⊢
    rwa [hm]

/-- 同じ `id` の要素が無ければ、後に足す。 -/
def keepNew [DecidableEq ι] (id : α → ι) (l : List α) (x : α) : List α :=
  if id x ∈ l.map id then l else l ++ [x]

/-- `id` が同じなら優先順も `m` も同じなので、初めのものだけを残してよい。 -/
theorem lookup_foldl_keepNew [DecidableEq ι] {id : α → ι}
    (h : ∀ x ∈ l ++ l', ∀ y ∈ l ++ l', id x = id y → key x = key y ∧ m x = m y) :
    lookup key m (l'.foldl (keepNew id) l) = lookup key m (l ++ l') := by
  induction l' generalizing l with
  | nil => rw [List.append_nil]; rfl
  | cons y l' ih =>
    rw [List.foldl_cons]
    unfold keepNew
    split
    · next hmem =>
      obtain ⟨x, hx, hid⟩ := List.mem_map.mp hmem
      obtain ⟨hkey, hm⟩ := h x (List.mem_append_left _ hx) y (by simp) hid
      rw [lookup_shadowed hx hkey hm]
      refine ih fun a ha b hb => h a ?_ b ?_
      · rcases List.mem_append.mp ha with ha | ha <;> simp [ha]
      · rcases List.mem_append.mp hb with hb | hb <;> simp [hb]
    · have hassoc : l ++ y :: l' = l ++ [y] ++ l' := by simp
      rw [hassoc] at h ⊢
      exact ih h

end MatchTable
