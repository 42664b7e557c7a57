import Mathlib.Order.Basic

/-!
# 例外つきの状態計算

状態を書き換えながら進み、途中で例外を投げうる計算の最小の道具立て。
Python の method のように、**例外が飛んでも、それまでの書き換えは残る**。

* `wp` — 正常終了と例外の両方に事後条件を置く最弱事前条件
* `Keeps` — 実行前後の状態がつねに関係 `R` にあること（frame 条件の形）

どちらも `pure` / `>>=` / `raise` に沿った規則を持ち、
個々の計算の証明はこの規則だけで組み立てる。
-/

/-- 状態 `σ` の上の、例外 `ε` を投げうる計算。 -/
def Exec (σ ε α : Type) : Type := σ → Except ε α × σ

namespace Exec

variable {σ ε α β : Type}

instance : Monad (Exec σ ε) where
  pure a := fun s => (.ok a, s)
  bind m f := fun s =>
    match m s with
    | (.ok a, s') => f a s'
    | (.error e, s') => (.error e, s')

/-- 例外を投げる。 -/
def raise (e : ε) : Exec σ ε α := fun s => (.error e, s)

/-- 今の状態を読む。 -/
def read : Exec σ ε σ := fun s => (.ok s, s)

/-- 状態を書き換える。 -/
def modify (f : σ → σ) : Exec σ ε Unit := fun s => (.ok (), f s)

/-- 値が無ければ `e` を投げる。 -/
def ofOption (e : ε) : Option α → Exec σ ε α
  | some a => pure a
  | none => raise e

/-- 条件が成り立たなければ `e` を投げる。 -/
def require (c : Prop) [Decidable c] (e : ε) : Exec σ ε Unit := if c then pure () else raise e

/-- 列を先頭から順に処理する。 -/
def mapList (f : α → Exec σ ε β) : List α → Exec σ ε (List β)
  | [] => pure []
  | a :: as => do
    let b ← f a
    let bs ← mapList f as
    pure (b :: bs)

/-- 正常に終わっても例外で終わっても、最後に `g` をかける。Python の `finally`。 -/
def andFinally (m : Exec σ ε α) (g : σ → σ) : Exec σ ε α := fun s => ((m s).1, g (m s).2)

/-- 例外が飛んだら、その状態から `handler` をかける。Python の `try` と `except`。 -/
def tryExcept (m : Exec σ ε α) (handler : ε → Exec σ ε α) : Exec σ ε α := fun s =>
  match m s with
  | (.ok a, s') => (.ok a, s')
  | (.error e, s') => handler e s'

@[simp] theorem pure_apply (a : α) (s : σ) : (pure a : Exec σ ε α) s = (.ok a, s) := rfl

@[simp] theorem raise_apply (e : ε) (s : σ) : (raise e : Exec σ ε α) s = (.error e, s) := rfl

@[simp] theorem read_apply (s : σ) : (read : Exec σ ε σ) s = (.ok s, s) := rfl

@[simp] theorem modify_apply (f : σ → σ) (s : σ) :
    (modify f : Exec σ ε Unit) s = (.ok (), f s) := rfl

theorem bind_apply (m : Exec σ ε α) (f : α → Exec σ ε β) (s : σ) :
    (m >>= f) s = match m s with
      | (.ok a, s') => f a s'
      | (.error e, s') => (.error e, s') := rfl

theorem bind_ok {m : Exec σ ε α} {f : α → Exec σ ε β} {s s' : σ} {a : α}
    (h : m s = (.ok a, s')) : (m >>= f) s = f a s' := by
  rw [bind_apply, h]

theorem bind_error {m : Exec σ ε α} {f : α → Exec σ ε β} {s s' : σ} {e : ε}
    (h : m s = (.error e, s')) : (m >>= f) s = (.error e, s') := by
  rw [bind_apply, h]

@[simp] theorem pure_bind_apply (a : α) (f : α → Exec σ ε β) (s : σ) :
    (pure a >>= f : Exec σ ε β) s = f a s := rfl

@[simp] theorem raise_bind_apply (e : ε) (f : α → Exec σ ε β) (s : σ) :
    (raise e >>= f) s = (.error e, s) := rfl

@[simp] theorem read_bind_apply (f : σ → Exec σ ε β) (s : σ) : (read >>= f) s = f s s := rfl

@[simp] theorem modify_bind_apply (g : σ → σ) (f : Unit → Exec σ ε β) (s : σ) :
    (modify g >>= f) s = f () (g s) := rfl

@[simp] theorem ofOption_some (e : ε) (a : α) : (ofOption e (some a) : Exec σ ε α) = pure a := rfl

@[simp] theorem ofOption_none (e : ε) : (ofOption e none : Exec σ ε α) = raise e := rfl

theorem require_pos {c : Prop} [Decidable c] {e : ε} (h : c) (s : σ) :
    (require c e : Exec σ ε Unit) s = (.ok (), s) := by
  unfold require
  rw [if_pos h]
  rfl

theorem require_neg {c : Prop} [Decidable c] {e : ε} (h : ¬c) (s : σ) :
    (require c e : Exec σ ε Unit) s = (.error e, s) := by
  unfold require
  rw [if_neg h]
  rfl

theorem andFinally_apply (m : Exec σ ε α) (g : σ → σ) (s : σ) :
    m.andFinally g s = ((m s).1, g (m s).2) := rfl

theorem tryExcept_ok {m : Exec σ ε α} {handler : ε → Exec σ ε α} {s s' : σ} {a : α}
    (h : m s = (.ok a, s')) : m.tryExcept handler s = (.ok a, s') := by
  unfold tryExcept
  rw [h]

theorem tryExcept_error {m : Exec σ ε α} {handler : ε → Exec σ ε α} {s s' : σ} {e : ε}
    (h : m s = (.error e, s')) : m.tryExcept handler s = handler e s' := by
  unfold tryExcept
  rw [h]

/-- 正常に終わった `>>=` は、二つの正常な実行に分けられる。 -/
theorem bind_eq_ok {m : Exec σ ε α} {f : α → Exec σ ε β} {s s'' : σ} {b : β}
    (h : (m >>= f) s = (.ok b, s'')) : ∃ a s', m s = (.ok a, s') ∧ f a s' = (.ok b, s'') := by
  rw [bind_apply] at h
  split at h
  · next a s' hm => exact ⟨a, s', hm, h⟩
  · cases h

/-! ## 最弱事前条件 -/

/-- `m` を `s` から動かすと、正常終了なら `Q`、例外なら `E` が成り立つ。 -/
def wp (m : Exec σ ε α) (Q : α → σ → Prop) (E : ε → σ → Prop) (s : σ) : Prop :=
  match m s with
  | (.ok a, s') => Q a s'
  | (.error e, s') => E e s'

section Rules

variable {Q Q' : α → σ → Prop} {E E' : ε → σ → Prop} {s : σ}

@[simp] theorem wp_pure {a : α} : wp (pure a) Q E s ↔ Q a s := Iff.rfl

@[simp] theorem wp_raise {e : ε} : wp (raise e) Q E s ↔ E e s := Iff.rfl

@[simp] theorem wp_read {Q : σ → σ → Prop} : wp read Q E s ↔ Q s s := Iff.rfl

@[simp] theorem wp_modify {Q : Unit → σ → Prop} {f : σ → σ} :
    wp (modify f) Q E s ↔ Q () (f s) := Iff.rfl

@[simp] theorem wp_bind {m : Exec σ ε α} {f : α → Exec σ ε β} {Q : β → σ → Prop} :
    wp (m >>= f) Q E s ↔ wp m (fun a s' => wp (f a) Q E s') E s := by
  simp only [wp, bind_apply]
  rcases m s with ⟨_ | _, _⟩ <;> rfl

theorem wp_mono {m : Exec σ ε α} (h : wp m Q E s) (hQ : ∀ a s', Q a s' → Q' a s')
    (hE : ∀ e s', E e s' → E' e s') : wp m Q' E' s := by
  unfold wp at *
  rcases hm : m s with ⟨_ | _, _⟩ <;> rw [hm] at h
  · exact hE _ _ h
  · exact hQ _ _ h

theorem wp_and {m : Exec σ ε α} (h : wp m Q E s) (h' : wp m Q' E' s) :
    wp m (fun a s' => Q a s' ∧ Q' a s') (fun e s' => E e s' ∧ E' e s') s := by
  unfold wp at *
  rcases hm : m s with ⟨_ | _, _⟩ <;> rw [hm] at h h' <;> exact ⟨h, h'⟩

theorem wp_ofOption {e : ε} {o : Option α} (hs : ∀ a, o = some a → Q a s) (hn : o = none → E e s) :
    wp (ofOption e o) Q E s := by
  cases o with
  | none => exact hn rfl
  | some a => exact hs a rfl

theorem wp_require {c : Prop} [Decidable c] {e : ε} {Q : Unit → σ → Prop} (hs : c → Q () s)
    (hn : ¬c → E e s) : wp (require c e) Q E s := by
  unfold require
  split
  · next hc => exact hs hc
  · next hc => exact hn hc

theorem wp_ok {m : Exec σ ε α} {a : α} {s' : σ} (h : wp m Q E s) (hm : m s = (.ok a, s')) :
    Q a s' := by
  unfold wp at h; rw [hm] at h; exact h

theorem wp_error {m : Exec σ ε α} {e : ε} {s' : σ} (h : wp m Q E s)
    (hm : m s = (.error e, s')) : E e s' := by
  unfold wp at h; rw [hm] at h; exact h

theorem wp_of_ok {m : Exec σ ε α} {a : α} {s' : σ} (hm : m s = (.ok a, s')) (h : Q a s') :
    wp m Q E s := by
  unfold wp; rw [hm]; exact h

theorem wp_true (m : Exec σ ε α) (s : σ) : wp m (fun _ _ => True) (fun _ _ => True) s := by
  unfold wp; split <;> trivial

/-- 事後条件は、その状態からの実行だけで決まる。 -/
theorem wp_of_eq {m m' : Exec σ ε α} (h : m s = m' s) (hw : wp m' Q E s) : wp m Q E s := by
  unfold wp at *; rw [h]; exact hw

/-- 正常終了と例外で同じことが言えるなら、実行後の状態について言える。 -/
theorem wp_snd {m : Exec σ ε α} {P : σ → Prop}
    (h : wp m (fun _ s' => P s') (fun _ s' => P s') s) : P (m s).2 := by
  unfold wp at h
  split at h <;> (next he => rw [he]; exact h)

end Rules

/-! ## 検査 -/

/-- `m` は検査である。状態を変えず、`c` が成り立つときだけ正常に終わる。 -/
def Checks (m : Exec σ ε Unit) (s : σ) (c : Prop) : Prop :=
  (m s = (.ok (), s) ∧ c) ∨ ∃ e, m s = (.error e, s)

namespace Checks

theorem raise (e : ε) (s : σ) {c : Prop} : Checks (Exec.raise e : Exec σ ε Unit) s c :=
  Or.inr ⟨e, rfl⟩

theorem require (c : Prop) [Decidable c] (e : ε) (s : σ) :
    Checks (Exec.require c e : Exec σ ε Unit) s c := by
  unfold Exec.require
  split
  · next hc => exact Or.inl ⟨rfl, hc⟩
  · exact raise e s

theorem bind {m : Exec σ ε Unit} {f : Unit → Exec σ ε Unit} {s : σ} {c c' : Prop}
    (hm : Checks m s c) (hf : Checks (f ()) s c') : Checks (m >>= f) s (c ∧ c') := by
  rcases hm with ⟨hm, hc⟩ | ⟨e, hm⟩
  · rw [Checks, bind_ok hm]
    rcases hf with ⟨hf, hc'⟩ | ⟨e, hf⟩
    · exact Or.inl ⟨hf, hc, hc'⟩
    · exact Or.inr ⟨e, hf⟩
  · exact Or.inr ⟨e, bind_error hm⟩

theorem mono {m : Exec σ ε Unit} {s : σ} {c c' : Prop} (h : Checks m s c) (hc : c → c') :
    Checks m s c' :=
  h.imp (fun h => ⟨h.1, hc h.2⟩) id

end Checks

/-! ## 前後の状態の関係 -/

/-- どの状態から動かしても、前後の状態は `R` で結ばれる。 -/
def Keeps (R : σ → σ → Prop) (m : Exec σ ε α) : Prop := ∀ s, R s (m s).2

/-- 状態の一部 `f` が変わらない。 -/
def Unchanged {τ : Type} (f : σ → τ) (s s' : σ) : Prop := f s' = f s

instance {τ : Type} (f : σ → τ) : Std.Refl (Unchanged f) := ⟨fun _ => rfl⟩

instance {τ : Type} (f : σ → τ) : IsTrans σ (Unchanged f) := ⟨fun _ _ _ h₁ h₂ => h₂.trans h₁⟩

namespace Keeps

variable {R : σ → σ → Prop}

theorem pure [Std.Refl R] (a : α) : Keeps R (Pure.pure a : Exec σ ε α) := fun s => Std.Refl.refl s

theorem raise [Std.Refl R] (e : ε) : Keeps R (Exec.raise e : Exec σ ε α) :=
  fun s => Std.Refl.refl s

theorem read [Std.Refl R] : Keeps R (Exec.read : Exec σ ε σ) := fun s => Std.Refl.refl s

theorem ofOption [Std.Refl R] (e : ε) (o : Option α) :
    Keeps R (Exec.ofOption e o : Exec σ ε α) := by
  cases o with
  | none => exact raise e
  | some a => exact pure a

theorem require [Std.Refl R] (c : Prop) [Decidable c] (e : ε) :
    Keeps R (Exec.require c e : Exec σ ε Unit) := by
  unfold Exec.require
  split
  · exact pure ()
  · exact raise e

theorem bind [IsTrans σ R] {m : Exec σ ε α} {f : α → Exec σ ε β} (hm : Keeps R m)
    (hf : ∀ a, Keeps R (f a)) : Keeps R (m >>= f) := by
  intro s
  rw [bind_apply]
  rcases h : m s with ⟨e | a, s'⟩
  · have := hm s; rw [h] at this; exact this
  · have h1 := hm s; rw [h] at h1
    exact IsTrans.trans _ _ _ h1 (hf a s')

theorem ite {c : Prop} [Decidable c] {m m' : Exec σ ε α} (h : c → Keeps R m) (h' : ¬c → Keeps R m') :
    Keeps R (if c then m else m') := by
  split
  · next hc => exact h hc
  · next hc => exact h' hc

theorem andFinally [IsTrans σ R] {m : Exec σ ε α} {g : σ → σ} (hm : Keeps R m)
    (hg : ∀ s, R s (g s)) : Keeps R (m.andFinally g) :=
  fun s => IsTrans.trans _ _ _ (hm s) (hg _)

/-- 前後の関係は、正常終了と例外のどちらの事後条件にもなる。 -/
theorem toWp {m : Exec σ ε α} (h : Keeps R m) (s : σ) :
    wp m (fun _ s' => R s s') (fun _ s' => R s s') s := by
  unfold wp
  have hs := h s
  split
  · next hm => rw [hm] at hs; exact hs
  · next hm => rw [hm] at hs; exact hs

/-- 列の要素ごとに保たれるなら、列の全体でも保たれる。 -/
theorem mapList_of_mem [Std.Refl R] [IsTrans σ R] {f : α → Exec σ ε β} :
    ∀ l : List α, (∀ a ∈ l, Keeps R (f a)) → Keeps R (Exec.mapList f l)
  | [], _ => pure _
  | a :: as, hf => (hf a List.mem_cons_self).bind fun _ =>
    (mapList_of_mem as fun b hb => hf b (List.mem_cons_of_mem _ hb)).bind fun _ => pure _

theorem mapList [Std.Refl R] [IsTrans σ R] {f : α → Exec σ ε β} (hf : ∀ a, Keeps R (f a))
    (l : List α) : Keeps R (Exec.mapList f l) :=
  mapList_of_mem l fun a _ => hf a

end Keeps

end Exec

/-! ## 状態の無い計算 -/

namespace Fallible

variable {ε α β γ : Type} {P : α → Prop}

/-- 例外を投げうる計算が、正常に終わるなら `P` を満たす値を返す。 -/
def Ensures (r : Except ε α) (P : α → Prop) : Prop := ∀ a, r = .ok a → P a

theorem Ensures.ok {a : α} (h : P a) : Ensures (.ok a : Except ε α) P := by
  intro b hb
  cases hb
  exact h

theorem Ensures.error (e : ε) : Ensures (.error e : Except ε α) P := nofun

theorem Ensures.bind {x : Except ε β} {f : β → Except ε α}
    (h : ∀ b, x = .ok b → Ensures (f b) P) : Ensures (x >>= f) P := by
  cases hx : x with
  | error e => exact Ensures.error e
  | ok b => exact h b hx

/-- 続きは、正常に終わったときの値についてだけ等しければよい。 -/
theorem bind_congr_ok {x : Except ε β} {f g : β → Except ε α} (h : ∀ b, x = .ok b → f b = g b) :
    x >>= f = x >>= g := by
  cases hx : x with
  | error e => rfl
  | ok b => exact h b hx

/-- loop の不変条件。 -/
theorem Ensures.foldlM {f : α → γ → Except ε α} (l : List γ)
    (h : ∀ a, P a → ∀ c ∈ l, Ensures (f a c) P) {a : α} (ha : P a) :
    Ensures (l.foldlM f a) P := by
  induction l generalizing a with
  | nil => exact Ensures.ok ha
  | cons c l ih =>
    rw [List.foldlM_cons]
    refine Ensures.bind fun b hb => ih (fun a ha c hc => h a ha c (List.mem_cons_of_mem _ hc)) ?_
    exact h a ha c List.mem_cons_self b hb

/-- 一周ごとに決まった値を返す loop は、`foldl` と同じ。 -/
theorem foldlM_eq_ok {f : α → γ → Except ε α} {g : α → γ → α} {l : List γ}
    (h : ∀ a, ∀ c ∈ l, f a c = .ok (g a c)) (a : α) : l.foldlM f a = .ok (l.foldl g a) := by
  induction l generalizing a with
  | nil => rfl
  | cons c l ih =>
    rw [List.foldlM_cons, List.foldl_cons, h a c List.mem_cons_self]
    exact ih (fun a c hc => h a c (List.mem_cons_of_mem _ hc)) (g a c)

/-- 正常に終わり、`P` を満たす値を返す。 -/
def Yields (r : Except ε α) (P : α → Prop) : Prop := ∃ a, r = .ok a ∧ P a

theorem Yields.ok {a : α} (h : P a) : Yields (.ok a : Except ε α) P := ⟨a, rfl, h⟩

theorem Yields.bind {x : Except ε β} {f : β → Except ε α} {Q : β → Prop} (hx : Yields x Q)
    (hf : ∀ b, Q b → Yields (f b) P) : Yields (x >>= f) P := by
  obtain ⟨b, rfl, hb⟩ := hx
  exact hf b hb

theorem Yields.mono {r : Except ε α} {Q : α → Prop} (h : Yields r Q) (hP : ∀ a, Q a → P a) :
    Yields r P := by
  obtain ⟨a, ha, hQ⟩ := h
  exact ⟨a, ha, hP a hQ⟩

/--
loop の全体。`P` は不変条件、`R` は一周の前後の関係、`D c` は `c` が済んだこと。
済んだことは、後の周でも失われない。
-/
theorem Yields.foldlM {R : α → α → Prop} [Std.Refl R] [IsTrans α R] {D : γ → α → Prop}
    (hD : ∀ c a a', D c a → R a a' → D c a') {f : α → γ → Except ε α} (l : List γ)
    (h : ∀ a, P a → ∀ c ∈ l, Yields (f a c) fun a' => P a' ∧ R a a' ∧ D c a') {a : α} (ha : P a) :
    Yields (l.foldlM f a) fun a' => P a' ∧ R a a' ∧ ∀ c ∈ l, D c a' := by
  induction l generalizing a with
  | nil => exact Yields.ok ⟨ha, Std.Refl.refl a, nofun⟩
  | cons c l ih =>
    rw [List.foldlM_cons]
    refine (h a ha c List.mem_cons_self).bind fun b hb => ?_
    obtain ⟨hPb, hRb, hDb⟩ := hb
    refine (ih (fun a ha c hc => h a ha c (List.mem_cons_of_mem _ hc)) hPb).mono fun a' ha' => ?_
    obtain ⟨hP, hR, hall⟩ := ha'
    refine ⟨hP, IsTrans.trans _ _ _ hRb hR, fun x hx => ?_⟩
    rcases List.mem_cons.mp hx with rfl | hx
    · exact hD _ _ _ hDb hR
    · exact hall x hx

end Fallible
