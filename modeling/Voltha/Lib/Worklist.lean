import Mathlib.Data.List.Nodup
import Mathlib.Data.List.Perm.Subperm
import Mathlib.Logic.Relation
import Voltha.Lib.OrderedDict

/-!
# 仕事の集合を空にする loop

`while wanted: k = wanted.pop()` の形の loop。取り出した key を `visit` し、得た値を辞書に入れ、見つけた
key のうち辞書に無いものを集合に足す。どの key が取り出されるかは、`choice` に任せる。

* `Inv.mem_keys_iff` — 終われば、辞書の key ははじめの集合から `visit` でたどり着くもの全部である
* `run_ne_exhausted` — `visit` できる key が有限なら、loop は終わる
-/

namespace Worklist

variable {κ β ε : Type} [DecidableEq κ]

/-- `wanted.pop()`。 -/
def pop (choice : List κ → Nat) (wanted : List κ) : Option κ :=
  wanted[choice wanted % wanted.length]?

/-- `if not done.has_key(k): wanted.add(k)`。 -/
def add (done : List (κ × β)) (wanted : List κ) (k : κ) : List κ :=
  if k ∈ done.map Prod.fst then wanted else wanted.insert k

/-- loop。`exhausted` は、`fuel` が足りないときの誤り。 -/
def run (visit : κ → Except ε (β × List κ)) (choice : List κ → Nat) (exhausted : ε) :
    Nat → List (κ × β) → List κ → Except ε (List (κ × β))
  | 0, _, _ => .error exhausted
  | fuel + 1, done, wanted =>
    match pop choice wanted with
    | none => .ok done
    | some k => do
      let (b, found) ← visit k
      let done := OrderedDict.set done k b
      run visit choice exhausted fuel done (found.foldl (add done) (wanted.erase k))

variable {visit : κ → Except ε (β × List κ)} {choice : List κ → Nat} {exhausted : ε}
variable {done : List (κ × β)} {wanted roots found : List κ} {k k' : κ}

omit [DecidableEq κ] in
theorem pop_none (h : pop choice wanted = none) : wanted = [] := by
  unfold pop at h
  rw [List.getElem?_eq_none_iff] at h
  by_contra hne
  exact absurd (Nat.mod_lt (choice wanted) (List.length_pos_of_ne_nil hne)) (Nat.not_lt.mpr h)

omit [DecidableEq κ] in
theorem mem_of_pop (h : pop choice wanted = some k) : k ∈ wanted := List.mem_of_getElem? h

theorem mem_foldl_add :
    k ∈ found.foldl (add done) wanted ↔ k ∈ wanted ∨ (k ∈ found ∧ k ∉ done.map Prod.fst) := by
  induction found generalizing wanted with
  | nil => simp
  | cons c found ih =>
    rw [List.foldl_cons, ih]
    unfold add
    by_cases hc : c ∈ done.map Prod.fst
    · rw [if_pos hc]
      grind
    · rw [if_neg hc, List.mem_insert_iff]
      grind

theorem nodup_foldl_add (h : wanted.Nodup) : (found.foldl (add done) wanted).Nodup := by
  induction found generalizing wanted with
  | nil => exact h
  | cons c found ih =>
    rw [List.foldl_cons]
    refine ih ?_
    unfold add
    split
    · exact h
    · exact h.insert

/-! ## たどり着く key -/

/-- `k` を `visit` すると `k'` が見つかる。 -/
def Finds (visit : κ → Except ε (β × List κ)) (k k' : κ) : Prop :=
  ∃ b found, visit k = .ok (b, found) ∧ k' ∈ found

/-- `roots` から見つけていって着く。 -/
def Reaches (visit : κ → Except ε (β × List κ)) (roots : List κ) (k : κ) : Prop :=
  ∃ r ∈ roots, Relation.ReflTransGen (Finds visit) r k

omit [DecidableEq κ] in
theorem Reaches.step (h : Reaches visit roots k) (hf : Finds visit k k') :
    Reaches visit roots k' := by
  obtain ⟨r, hr, hpath⟩ := h
  exact ⟨r, hr, hpath.tail hf⟩

/-- loop の不変条件。 -/
structure Inv (visit : κ → Except ε (β × List κ)) (roots : List κ) (done : List (κ × β))
    (wanted : List κ) : Prop where
  nodup : wanted.Nodup
  nodupKeys : (done.map Prod.fst).Nodup
  disjoint : ∀ k ∈ wanted, k ∉ done.map Prod.fst
  covers : ∀ k ∈ roots, k ∈ wanted ∨ k ∈ done.map Prod.fst
  reaches : ∀ k, k ∈ wanted ∨ k ∈ done.map Prod.fst → Reaches visit roots k
  visited : ∀ p ∈ done, ∃ found, visit p.1 = .ok (p.2, found) ∧
    ∀ k ∈ found, k ∈ wanted ∨ k ∈ done.map Prod.fst

omit [DecidableEq κ] in
theorem inv_init (h : roots.Nodup) : Inv visit roots ([] : List (κ × β)) roots where
  nodup := h
  nodupKeys := List.nodup_nil
  disjoint := by simp
  covers := fun _ hk => Or.inl hk
  reaches := fun k hk => hk.elim (fun hk => ⟨k, hk, .refl⟩) (by simp)
  visited := by simp

/-- 新しい key を入れるので、辞書は後ろに伸びる。 -/
theorem set_eq_append {b : β} (h : k ∉ done.map Prod.fst) :
    OrderedDict.set done k b = done ++ [(k, b)] := by
  rw [OrderedDict.set, if_neg h]

theorem Inv.step {b : β} (h : Inv visit roots done wanted) (hk : k ∈ wanted)
    (hv : visit k = .ok (b, found)) : Inv visit roots (OrderedDict.set done k b)
      (found.foldl (add (OrderedDict.set done k b)) (wanted.erase k)) := by
  have hnew := h.disjoint k hk
  have hkeys : ∀ k', k' ∈ (OrderedDict.set done k b).map Prod.fst ↔
      k' = k ∨ k' ∈ done.map Prod.fst := fun _ => OrderedDict.mem_keys_set
  have herase : ∀ k', k' ∈ wanted.erase k ↔ k' ≠ k ∧ k' ∈ wanted := fun _ => h.nodup.mem_erase_iff
  -- もとからあった key は、なくならない
  have hkept : ∀ k', k' ∈ wanted ∨ k' ∈ done.map Prod.fst →
      k' ∈ found.foldl (add (OrderedDict.set done k b)) (wanted.erase k) ∨
        k' ∈ (OrderedDict.set done k b).map Prod.fst := by
    intro k' hk'
    rw [mem_foldl_add, hkeys, herase]
    by_cases hkk : k' = k
    · exact Or.inr (Or.inl hkk)
    · exact hk'.elim (fun hw => Or.inl (Or.inl ⟨hkk, hw⟩)) fun hd => Or.inr (Or.inr hd)
  refine ⟨nodup_foldl_add (h.nodup.erase k), OrderedDict.nodup_keys_set h.nodupKeys, ?_, ?_, ?_, ?_⟩
  · intro k' hk'
    rw [mem_foldl_add, herase] at hk'
    rcases hk' with ⟨hne, hw⟩ | ⟨-, hnot⟩
    · rw [hkeys]
      exact fun he => he.elim hne (h.disjoint k' hw)
    · exact hnot
  · exact fun k' hk' => hkept k' (h.covers k' hk')
  · intro k' hk'
    rw [mem_foldl_add, hkeys, herase] at hk'
    rcases hk' with (⟨-, hw⟩ | ⟨hf, -⟩) | rfl | hd
    · exact h.reaches k' (Or.inl hw)
    · exact (h.reaches k (Or.inl hk)).step ⟨b, found, hv, hf⟩
    · exact h.reaches k' (Or.inl hk)
    · exact h.reaches k' (Or.inr hd)
  · intro p hp
    rw [set_eq_append hnew, List.mem_append, List.mem_singleton] at hp
    rcases hp with hp | rfl
    · obtain ⟨found', hv', hall⟩ := h.visited p hp
      exact ⟨found', hv', fun k' hk' => hkept k' (hall k' hk')⟩
    · refine ⟨found, hv, fun k' hk' => ?_⟩
      rw [mem_foldl_add]
      by_cases hd : k' ∈ (OrderedDict.set done k b).map Prod.fst
      · exact Or.inr hd
      · exact Or.inl (Or.inr ⟨hk', hd⟩)

/-- 終わったときの辞書。 -/
theorem Inv.run {fuel : Nat} {result : List (κ × β)} (h : Inv visit roots done wanted)
    (hr : run visit choice exhausted fuel done wanted = .ok result) :
    Inv visit roots result [] := by
  induction fuel generalizing done wanted with
  | zero => cases hr
  | succ fuel ih =>
    rw [Worklist.run] at hr
    cases hpop : pop choice wanted with
    | none =>
      rw [hpop] at hr
      cases hr
      rwa [pop_none hpop] at h
    | some k =>
      rw [hpop] at hr
      cases hv : visit k with
      | error e =>
        simp only [hv] at hr
        cases hr
      | ok r =>
        obtain ⟨b, found⟩ := r
        simp only [hv] at hr
        exact ih (h.step (mem_of_pop hpop) hv) hr

omit [DecidableEq κ] in
/-- 終われば、辞書の key は、はじめの集合からたどり着くもの全部である。 -/
theorem Inv.mem_keys_iff (h : Inv visit roots done []) :
    k ∈ done.map Prod.fst ↔ Reaches visit roots k := by
  constructor
  · exact fun hk => h.reaches k (Or.inr hk)
  · rintro ⟨r, hr, hpath⟩
    induction hpath with
    | refl => exact (h.covers r hr).resolve_left (by simp)
    | tail _ hf ih =>
      obtain ⟨p, hp, rfl⟩ := List.mem_map.mp ih
      obtain ⟨b, found, hv, hk'⟩ := hf
      obtain ⟨found', hv', hall⟩ := h.visited p hp
      rw [hv] at hv'
      cases hv'
      exact (hall _ hk').resolve_left (by simp)

omit [DecidableEq κ] in
/-- 終われば、辞書の key から見つかるものも、辞書の key である。 -/
theorem Inv.closed (h : Inv visit roots done []) (hk : k ∈ done.map Prod.fst)
    (hf : Finds visit k k') : k' ∈ done.map Prod.fst :=
  h.mem_keys_iff.mpr ((h.mem_keys_iff.mp hk).step hf)

/-! ## 停止 -/

/-- `visit` できる key が `universe` の中にしか無ければ、その個数より大きい `fuel` で足りる。 -/
theorem run_ne_exhausted {fuel : Nat} {domain : List κ}
    (hdom : ∀ k r, visit k = .ok r → k ∈ domain) (hex : ∀ k, visit k ≠ .error exhausted)
    (h : Inv visit roots done wanted) (hfuel : domain.length < fuel + done.length) :
    run visit choice exhausted fuel done wanted ≠ .error exhausted := by
  induction fuel generalizing done wanted with
  | zero =>
    -- 辞書の key はどれも `visit` できたものなので、`domain` より多くはない
    have hsub : done.map Prod.fst ⊆ domain := by
      intro k hk
      obtain ⟨p, hp, rfl⟩ := List.mem_map.mp hk
      obtain ⟨found, hv, -⟩ := h.visited p hp
      exact hdom _ _ hv
    have hle := (List.subperm_of_subset h.nodupKeys hsub).length_le
    rw [List.length_map] at hle
    omega
  | succ fuel ih =>
    rw [Worklist.run]
    cases hpop : pop choice wanted with
    | none => nofun
    | some k =>
      have hk := mem_of_pop hpop
      cases hv : visit k with
      | error e =>
        intro he
        simp only [hv] at he
        cases he
        exact hex k hv
      | ok r =>
        obtain ⟨b, found⟩ := r
        simp only [hv]
        refine ih (h.step hk hv) ?_
        rw [set_eq_append (h.disjoint k hk), List.length_append, List.length_singleton]
        omega

end Worklist
