import Voltha.Lib.Exec

/-!
# 状態の一部への射影

状態 `σ` の上の計算 `m` を、その一部 `f s` だけの上の計算 `n` が言い表すこと。
二つは同じ値か同じ例外で終わり、後の状態の `f` も一致する。`f` に現れない部分については、
前後の状態が関係 `R` で結ばれることだけを言う。

規則は計算の形に沿って一つずつある。
-/

namespace Exec

variable {σ τ ε α β : Type}

/-- `m` を `f` で見ると `n` であり、前後の状態は `R` で結ばれる。 -/
def Projects (f : σ → τ) (R : σ → σ → Prop) (m : Exec σ ε α) (n : Exec τ ε α) : Prop :=
  ∀ s, (m s).1 = (n (f s)).1 ∧ f (m s).2 = (n (f s)).2 ∧ R s (m s).2

namespace Projects

variable {f : σ → τ} {R : σ → σ → Prop}

theorem pure [Std.Refl R] (a : α) : Projects f R (Pure.pure a : Exec σ ε α) (Pure.pure a) :=
  fun s => ⟨rfl, rfl, Std.Refl.refl s⟩

theorem raise [Std.Refl R] (e : ε) : Projects f R (Exec.raise e : Exec σ ε α) (Exec.raise e) :=
  fun s => ⟨rfl, rfl, Std.Refl.refl s⟩

theorem bind [IsTrans σ R] {m : Exec σ ε α} {n : Exec τ ε α} {g : α → Exec σ ε β}
    {k : α → Exec τ ε β} (h : Projects f R m n) (hg : ∀ a, Projects f R (g a) (k a)) :
    Projects f R (m >>= g) (n >>= k) := by
  intro s
  obtain ⟨hv, hs, hR⟩ := h s
  rw [bind_apply, bind_apply]
  rcases hm : m s with ⟨e | a, s'⟩ <;> rcases hn : n (f s) with ⟨e' | b, t'⟩ <;>
    rw [hm, hn] at hv hs <;> rw [hm] at hR <;> cases hv
  · exact ⟨rfl, hs, hR⟩
  · cases hs
    obtain ⟨hv', hs', hR'⟩ := hg a s'
    exact ⟨hv', hs', IsTrans.trans _ _ _ hR hR'⟩

/-- 今の状態を読んで始める。 -/
theorem read_bind {g : σ → Exec σ ε α} {k : τ → Exec τ ε α}
    (h : ∀ s, Projects f R (g s) (k (f s))) :
    Projects f R (Exec.read >>= g) (Exec.read >>= k) :=
  fun s => h s s

theorem require [Std.Refl R] (c : Prop) [Decidable c] (e : ε) :
    Projects f R (Exec.require c e : Exec σ ε Unit) (Exec.require c e) := by
  unfold Exec.require
  split
  · exact pure ()
  · exact raise e

theorem ite {c : Prop} [Decidable c] {m m' : Exec σ ε α} {n n' : Exec τ ε α}
    (h : Projects f R m n) (h' : Projects f R m' n') :
    Projects f R (if c then m else m') (if c then n else n') := by
  split
  · exact h
  · exact h'

end Projects

end Exec
