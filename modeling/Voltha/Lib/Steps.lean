import Mathlib.Tactic.TypeStar

/-!
# 出来事の列に沿った性質

状態 `σ` が、出来事 `ε` ごとに一歩ずつ進む体系の最小の道具立て。

* `Always` — 途中のどの状態でも成り立つ
* `Each` — どの一歩も、その直前の状態で条件を満たす

一歩ごとに条件と性質が同値なら、列の全体でも同値である（`always_iff_each`）。
-/

namespace Steps

variable {σ ε : Type*} (step : σ → ε → σ)

/-- 始めの状態と、そこから進むどの状態でも `P`。 -/
def Always (P : σ → Prop) : σ → List ε → Prop
  | s, [] => P s
  | s, e :: l => P s ∧ Always P (step s e) l

/-- どの一歩も、直前の状態で `C` を満たす。 -/
def Each (C : σ → ε → Prop) : σ → List ε → Prop
  | _, [] => True
  | s, e :: l => C s e ∧ Each C (step s e) l

variable {step} {P I : σ → Prop} {C : σ → ε → Prop} {s : σ} {l : List ε}

theorem Always.last (h : Always step P s l) : P (l.foldl step s) := by
  induction l generalizing s with
  | nil => exact h
  | cons e l ih => exact ih h.2

theorem always_iff :
    Always step P s l ↔ P s ∧ Each step (fun s e => P (step s e)) s l := by
  induction l generalizing s with
  | nil => exact ⟨fun h => ⟨h, trivial⟩, fun h => h.1⟩
  | cons e l ih => exact and_congr_right fun _ => ih

theorem each_and {D : σ → ε → Prop} :
    Each step (fun s e => C s e ∧ D s e) s l ↔ Each step C s l ∧ Each step D s l := by
  induction l generalizing s with
  | nil => exact ⟨fun _ => ⟨trivial, trivial⟩, fun _ => trivial⟩
  | cons e l ih =>
    constructor
    · rintro ⟨⟨hC, hD⟩, hrest⟩
      exact ⟨⟨hC, (ih.mp hrest).1⟩, hD, (ih.mp hrest).2⟩
    · rintro ⟨⟨hC, hrestC⟩, hD, hrestD⟩
      exact ⟨⟨hC, hD⟩, ih.mpr ⟨hrestC, hrestD⟩⟩

theorem each_append {l' : List ε} :
    Each step C s (l ++ l') ↔ Each step C s l ∧ Each step C (l.foldl step s) l' := by
  induction l generalizing s with
  | nil => exact (and_iff_right trivial).symm
  | cons e l ih =>
    show C s e ∧ Each step C (step s e) (l ++ l') ↔ _
    rw [ih, ← and_assoc]
    rfl

/-- 列のどこで切っても、次の一歩は条件を満たす。 -/
theorem each_iff_split :
    Each step C s l ↔ ∀ pre e post, l = pre ++ e :: post → C (pre.foldl step s) e := by
  induction l generalizing s with
  | nil =>
    refine iff_of_true trivial fun pre e post h => ?_
    exact absurd h.symm (List.append_ne_nil_of_right_ne_nil _ (List.cons_ne_nil _ _))
  | cons e l ih =>
    constructor
    · rintro ⟨hC, hrest⟩ pre e' post h
      rcases List.cons_eq_append_iff.mp h with ⟨rfl, heq⟩ | ⟨pre', rfl, heq⟩
      · obtain ⟨rfl, rfl⟩ := List.cons.inj heq
        exact hC
      · exact ih.mp hrest pre' e' post heq
    · intro h
      exact ⟨h [] e l rfl, ih.mpr fun pre e' post heq => h (e :: pre) e' post (heq ▸ rfl)⟩

/-- 不変条件 `I` の下で、一歩の条件 `C` が性質 `D` を導くなら、列の全体でもそうである。 -/
theorem Each.imp {D : σ → ε → Prop} (hstep : ∀ s e, I s → I (step s e) ∧ (C s e → D s e))
    (hI : I s) (h : Each step C s l) : Each step D s l := by
  induction l generalizing s with
  | nil => exact trivial
  | cons e l ih => exact ⟨(hstep s e hI).2 h.1, ih (hstep s e hI).1 h.2⟩

/--
一歩の性質 `D` と条件 `C` の同値から、列の全体の同値を得る。

`I` は証明のための不変条件で、条件 `C` を満たす一歩で保たれる。`A` は許される出来事である。
-/
theorem each_iff_each {A : ε → Prop} {D : σ → ε → Prop}
    (hstep : ∀ s e, A e → I s → (D s e ↔ C s e) ∧ (C s e → I (step s e)))
    (hA : ∀ e ∈ l, A e) (hI : I s) : Each step D s l ↔ Each step C s l := by
  induction l generalizing s with
  | nil => exact Iff.rfl
  | cons e l ih =>
    obtain ⟨hiff, hkeep⟩ := hstep s e (hA e List.mem_cons_self) hI
    have hA' : ∀ e ∈ l, A e := fun e he => hA e (List.mem_cons_of_mem _ he)
    constructor
    · rintro ⟨hD, hrest⟩
      exact ⟨hiff.mp hD, (ih hA' (hkeep (hiff.mp hD))).mp hrest⟩
    · rintro ⟨hC, hrest⟩
      exact ⟨hiff.mpr hC, (ih hA' (hkeep hC)).mpr hrest⟩

/-- 一歩ごとの同値から、途中のどの状態でも成り立つ性質についての同値を得る。 -/
theorem always_iff_each {A : ε → Prop}
    (hstep : ∀ s e, A e → I s → P s → (P (step s e) ↔ C s e) ∧ (C s e → I (step s e)))
    (hA : ∀ e ∈ l, A e) (hI : I s) (hP : P s) : Always step P s l ↔ Each step C s l := by
  rw [always_iff, and_iff_right hP]
  refine each_iff_each (I := fun s => I s ∧ P s) (fun s e he hs => ?_) hA ⟨hI, hP⟩
  obtain ⟨hiff, hkeep⟩ := hstep s e he hs.1 hs.2
  exact ⟨hiff, fun hC => ⟨hkeep hC, hiff.mpr hC⟩⟩

end Steps
