import Mathlib.Algebra.Group.Nat.Defs
import Mathlib.Tactic.TypeStar

/-!
# Python の文字列と辞書

* `strip` と `int` — 文字列は文字の列、例外は `none` で表す
* `Val` と `Dict` — 辞書に入る値。`d[k]` は無い key で例外になり、`d.get(k, v)` は `v` を返す
* `mapM_ok_iff` — 一つずつ変換して戻す codec は、列の全体でも同じ条件で戻る
-/

namespace Py

/-- 空白の文字。 -/
def isSpace (c : Char) : Bool := c ∈ [' ', '\t', '\n', '\r', '\x0b', '\x0c']

/-- `s.strip()`。 -/
def strip (s : List Char) : List Char :=
  ((s.dropWhile isSpace).reverse.dropWhile isSpace).reverse

/-- 十進の数字の並び。 -/
def digits (s : List Char) : Option Nat :=
  if s ≠ [] ∧ s.all Char.isDigit then
    some (s.foldl (fun n c => 10 * n + (c.toNat - '0'.toNat)) 0)
  else none

/-- `int(s)`。 -/
def int (s : List Char) : Option Int :=
  match strip s with
  | '-' :: ds => (digits ds).map fun n => -(n : Int)
  | '+' :: ds => (digits ds).map Int.ofNat
  | ds => (digits ds).map Int.ofNat

/-! ## 辞書 -/

/-- 例外。 -/
inductive Error where
  | keyError
  | valueError
  | typeError
  | assertionError
  | notImplementedError
  | structError
  | unicodeEncodeError
deriving DecidableEq, Repr

/-- 辞書に入る値。 -/
inductive Val where
  | int (n : Nat)
  | bool (b : Bool)
  | bytes (b : List UInt8)
  | str (s : String)
  | list (l : List Val)
  | dict (d : List (String × Val))

/-- 辞書。 -/
abbrev Dict := List (String × Val)

namespace Val

def asInt : Val → Except Error Nat
  | .int n => .ok n
  | _ => .error .typeError

def asList : Val → Except Error (List Val)
  | .list l => .ok l
  | _ => .error .typeError

def asDict : Val → Except Error Dict
  | .dict d => .ok d
  | _ => .error .typeError

end Val

/-- `d[k]`。 -/
def item (d : Dict) (k : String) : Except Error Val :=
  match d.lookup k with
  | some v => .ok v
  | none => .error .keyError

/-- `d.get(k, v)`。 -/
def get (d : Dict) (k : String) (v : Val) : Val := (d.lookup k).getD v

/-- `assert c`。 -/
def assert (c : Prop) [Decidable c] : Except Error Unit :=
  if c then .ok () else .error .assertionError

/-- `str(s)`。ASCII でない文字は変換できない。 -/
def str (s : String) : Except Error String :=
  if s.toList.all fun c => c.toNat < 128 then .ok s else .error .unicodeEncodeError

/-- `struct.pack`。符号の無い `width` byte の整数の、pack した長さ。 -/
def struct (width n : Nat) : Except Error Nat :=
  if n < 256 ^ width then .ok width else .error .structError

/-! ## 列の変換 -/

/-- 名前の重ならない列では、名前を持つ要素が一つに決まる。 -/
theorem eq_of_mem_names {α β : Type} {names : α → List β} {l : List α} {n : β}
    (h : (l.flatMap names).Nodup) {a b : α} (ha : a ∈ l) (hb : b ∈ l) (hna : n ∈ names a)
    (hnb : n ∈ names b) : a = b := by
  induction l with
  | nil => simp at ha
  | cons x l ih =>
    rw [List.flatMap_cons, List.nodup_append] at h
    obtain ⟨-, hl, hne⟩ := h
    rw [List.mem_cons] at ha hb
    rcases ha with rfl | ha <;> rcases hb with rfl | hb
    · rfl
    · exact absurd rfl (hne n hna n (List.mem_flatMap.mpr ⟨b, hb, hnb⟩))
    · exact absurd rfl (hne n hnb n (List.mem_flatMap.mpr ⟨a, ha, hna⟩))
    · exact ih hl ha hb

/-- 名前の重ならない列を名前で選ぶと、一つだけ残る。 -/
theorem filter_name {α β : Type} [DecidableEq β] {name : α → β} {l : List α}
    (h : (l.map name).Nodup) {a : α} (ha : a ∈ l) : l.filter (fun b => name b = name a) = [a] := by
  induction l with
  | nil => cases ha
  | cons x l ih =>
    obtain ⟨hx, hl⟩ := List.nodup_cons.mp h
    rcases List.mem_cons.mp ha with rfl | ha
    · rw [List.filter_cons_of_pos (by simp), List.filter_eq_nil_iff.mpr]
      intro b hb hname
      exact hx (of_decide_eq_true hname ▸ List.mem_map_of_mem hb)
    · have hne : name x ≠ name a := fun heq => hx (heq ▸ List.mem_map_of_mem ha)
      rw [List.filter_cons_of_neg (by simp [hne]), ih hl ha]

theorem bind_eq_ok {ε α β : Type} {m : Except ε α} {f : α → Except ε β} {b : β} :
    (m >>= f) = .ok b ↔ ∃ a, m = .ok a ∧ f a = .ok b := by
  cases m with
  | error e => simp [bind, Except.bind]
  | ok a => simp [bind, Except.bind]

/-- 変換した列の値は、もとの列のどれかを変換したものである。逆も。 -/
theorem mem_of_mapM {ε α β : Type} {f : α → Except ε β} {xs : List α} {ys : List β}
    (h : xs.mapM f = .ok ys) :
    (∀ y ∈ ys, ∃ x ∈ xs, f x = .ok y) ∧ ∀ x ∈ xs, ∃ y ∈ ys, f x = .ok y := by
  induction xs generalizing ys with
  | nil =>
    cases h
    exact ⟨nofun, nofun⟩
  | cons x xs ih =>
    rw [List.mapM_cons, bind_eq_ok] at h
    obtain ⟨y, hy, h⟩ := h
    obtain ⟨ys', hys, h⟩ := bind_eq_ok.mp h
    cases h
    obtain ⟨ihl, ihr⟩ := ih hys
    constructor
    · rintro z (_ | ⟨_, hz⟩)
      · exact ⟨x, List.mem_cons_self, hy⟩
      · obtain ⟨w, hw, hwz⟩ := ihl z hz
        exact ⟨w, List.mem_cons_of_mem _ hw, hwz⟩
    · rintro z (_ | ⟨_, hz⟩)
      · exact ⟨y, List.mem_cons_self, hy⟩
      · obtain ⟨w, hw, hwz⟩ := ihr z hz
        exact ⟨w, List.mem_cons_of_mem _ hw, hwz⟩

theorem mapM_of_ok {ε α β : Type} {f : α → Except ε β} {g : α → β} {xs : List α}
    (h : ∀ x ∈ xs, f x = .ok (g x)) : xs.mapM f = .ok (xs.map g) := by
  induction xs with
  | nil => rfl
  | cons x xs ih =>
    rw [List.mapM_cons, h x List.mem_cons_self, ih fun y hy => h y (List.mem_cons_of_mem _ hy)]
    rfl

theorem length_of_mapM {ε α β : Type} {f : α → Except ε β} {xs : List α} {ys : List β}
    (h : xs.mapM f = .ok ys) : ys.length = xs.length := by
  induction xs generalizing ys with
  | nil =>
    cases h
    rfl
  | cons x xs ih =>
    rw [List.mapM_cons, bind_eq_ok] at h
    obtain ⟨y, -, h⟩ := h
    obtain ⟨ys', hys, h⟩ := bind_eq_ok.mp h
    cases h
    simp [ih hys]

theorem empty_iff_of_mapM {ε α β : Type} {f : α → Except ε β} {xs : List α} {ys : List β}
    (h : xs.mapM f = .ok ys) : ys = [] ↔ xs = [] := by
  rw [← List.length_eq_zero_iff, ← List.length_eq_zero_iff, length_of_mapM h]

variable {ε δ α β : Type} {enc : α → Except ε β} {dec : β → Except δ α} {R : α → Prop}

/-- 一つずつ変換して戻す codec は、列の全体でも同じ条件で戻る。 -/
theorem mapM_ok_iff (hone : ∀ x y, enc x = .ok y → ∀ x', dec y = .ok x' ↔ R x ∧ x' = x)
    {xs : List α} {ys : List β} (henc : xs.mapM enc = .ok ys) (xs' : List α) :
    ys.mapM dec = .ok xs' ↔ (∀ x ∈ xs, R x) ∧ xs' = xs := by
  induction xs generalizing ys xs' with
  | nil =>
    simp only [List.mapM_nil, pure, Except.pure, Except.ok.injEq] at henc
    subst henc
    simp [pure, Except.pure, eq_comm]
  | cons x xs ih =>
    rw [List.mapM_cons, bind_eq_ok] at henc
    obtain ⟨y, hy, henc⟩ := henc
    rw [bind_eq_ok] at henc
    obtain ⟨ys', hys, henc⟩ := henc
    cases henc
    rw [List.mapM_cons, bind_eq_ok]
    constructor
    · rintro ⟨x', hx', hrest⟩
      rw [bind_eq_ok] at hrest
      obtain ⟨xs'', hxs, hrest⟩ := hrest
      cases hrest
      obtain ⟨hR, rfl⟩ := (hone x y hy x').mp hx'
      obtain ⟨hall, rfl⟩ := (ih hys xs'').mp hxs
      exact ⟨by simpa using ⟨hR, hall⟩, rfl⟩
    · rintro ⟨hall, rfl⟩
      refine ⟨x, (hone x y hy x).mpr ⟨hall x List.mem_cons_self, rfl⟩, ?_⟩
      rw [bind_eq_ok]
      exact ⟨xs, (ih hys xs).mpr ⟨fun z hz => hall z (List.mem_cons_of_mem _ hz), rfl⟩, rfl⟩

end Py
