import Mathlib.Data.List.Forall2
import Voltha.Lib.Exec

/-!
# 予行と本番

同じ手順を二度動かす計算の、二つの実行を並べて調べる道具立て。

一度目の予行は、状態 `s₀` のまま進む。予行が正常に終わるなら、
条件 `I` を満たすどの状態から始めた本番も例外を出さず、結果が `R` で対応して、`J` が成り立つ。
二つの計算は同じ形をしているので、規則も計算の形に沿って一つずつある。
-/

namespace Exec

variable {σ ε α β α' β' : Type} {s₀ : σ} {I I' J J' K : σ → Prop} {R R' : α → β → Prop}

/-- 予行 `m` が `s₀` で正常に終わるなら、本番 `m'` も正常に終わる。 -/
def Lockstep (s₀ : σ) (I J : σ → Prop) (R : α → β → Prop) (m : Exec σ ε α) (m' : Exec σ ε β) :
    Prop :=
  ∀ s, I s → wp m (fun a s₁ => s₁ = s₀ ∧ wp m' (fun b s' => R a b ∧ J s') (fun _ _ => False) s)
    (fun _ _ => True) s₀

namespace Lockstep

theorem pure_of {a : α} {b : β} (hR : R a b) (h : ∀ s, I s → J s) :
    Lockstep s₀ I J R (Pure.pure a : Exec σ ε α) (Pure.pure b) := fun s hs => ⟨rfl, hR, h s hs⟩

theorem pure {a : α} {b : β} (hR : R a b) :
    Lockstep s₀ I I R (Pure.pure a : Exec σ ε α) (Pure.pure b) := pure_of hR fun _ hs => hs

/-- 予行が例外で終わるなら、本番については何も言わなくてよい。 -/
theorem raise (e : ε) (m' : Exec σ ε β) : Lockstep s₀ I J R (Exec.raise e : Exec σ ε α) m' :=
  fun _ _ => trivial

theorem bind {m : Exec σ ε α} {m' : Exec σ ε β} {g : α → Exec σ ε α'} {g' : β → Exec σ ε β'}
    {Q : α' → β' → Prop} (h : Lockstep s₀ I J R m m')
    (hg : ∀ a b, R a b → Lockstep s₀ J K Q (g a) (g' b)) :
    Lockstep s₀ I K Q (m >>= g) (m' >>= g') := by
  intro s hs
  rw [wp_bind]
  refine wp_mono (h s hs) ?_ fun _ _ h => h
  rintro a s₁ ⟨rfl, hm⟩
  -- 本番は例外を出さないので、その結果から続きの本番を始める
  rcases hm' : m' s with ⟨e | b, s'⟩
  · exact (wp_error hm hm').elim
  · obtain ⟨hR, hJ⟩ := wp_ok hm hm'
    refine wp_mono (hg a b hR s' hJ) ?_ fun _ _ h => h
    rintro c s₂ ⟨rfl, hc⟩
    refine ⟨rfl, ?_⟩
    unfold wp
    rw [bind_ok hm']
    exact hc

theorem mono {m : Exec σ ε α} {m' : Exec σ ε β} (h : Lockstep s₀ I J R m m')
    (hI : ∀ s, I' s → I s) (hJ : ∀ s, J s → J' s) (hR : ∀ a b, R a b → R' a b) :
    Lockstep s₀ I' J' R' m m' := by
  intro s hs
  refine wp_mono (h s (hI s hs)) ?_ fun _ _ h => h
  rintro a s₁ ⟨he, hm⟩
  exact ⟨he, wp_mono hm (fun b s' hb => ⟨hR a b hb.1, hJ s' hb.2⟩) fun _ _ h => h⟩

/-- どちらも同じところから値を読む。 -/
theorem ofOption {a : Option α} {e : ε} :
    Lockstep s₀ I I (fun x y => a = some x ∧ x = y) (Exec.ofOption e a : Exec σ ε α)
      (Exec.ofOption e a) := by
  cases a with
  | none => exact raise e _
  | some a => exact pure ⟨rfl, rfl⟩

/-- どちらも同じ条件で枝分かれする。 -/
theorem ite {c : Prop} [Decidable c] {m₁ m₂ : Exec σ ε α} {m₁' m₂' : Exec σ ε β}
    (h₁ : c → Lockstep s₀ I J R m₁ m₁') (h₂ : ¬c → Lockstep s₀ I J R m₂ m₂') :
    Lockstep s₀ I J R (if c then m₁ else m₂) (if c then m₁' else m₂') := by
  split
  · next hc => exact h₁ hc
  · next hc => exact h₂ hc

theorem mapList {f : α → Exec σ ε β} {f' : α → Exec σ ε β'} {Q : β → β' → Prop} : ∀ {l : List α},
    (∀ a ∈ l, Lockstep s₀ I I Q (f a) (f' a)) →
    Lockstep s₀ I I (List.Forall₂ Q) (Exec.mapList f l) (Exec.mapList f' l)
  | [], _ => pure List.Forall₂.nil
  | a :: l, h => by
    refine (h a List.mem_cons_self).bind fun b b' hb => ?_
    refine (mapList fun x hx => h x (List.mem_cons_of_mem _ hx)).bind fun bs bs' hbs => ?_
    exact pure (List.Forall₂.cons hb hbs)

end Lockstep

end Exec
