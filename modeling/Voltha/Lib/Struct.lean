import Mathlib.Data.List.Basic

/-!
# 決まった長さの整数

`struct.pack` と `struct.unpack` の、little endian の整数。範囲の外の値は `none` で、`struct.error` である。
**範囲の中の値は、決まった長さになり、読むと戻る**（`unpackInt_packInt`）。
-/

namespace Struct

/-- `width` byte で表せる値の数。 -/
def count : Nat → Nat
  | 0 => 1
  | width + 1 => 256 * count width

/-- 下の byte から並べる。 -/
def packLE : Nat → Nat → List UInt8
  | 0, _ => []
  | width + 1, n => UInt8.ofNat (n % 256) :: packLE width (n / 256)

def unpackLE : List UInt8 → Nat
  | [] => 0
  | b :: bs => b.toNat + 256 * unpackLE bs

@[simp] theorem length_packLE (width n : Nat) : (packLE width n).length = width := by
  induction width generalizing n with
  | zero => rfl
  | succ width ih => simp [packLE, ih]

theorem unpackLE_packLE {width n : Nat} (h : n < count width) : unpackLE (packLE width n) = n := by
  induction width generalizing n with
  | zero =>
    simp only [count] at h
    simp only [packLE, unpackLE]
    omega
  | succ width ih =>
    simp only [count] at h
    have hbyte : (UInt8.ofNat (n % 256)).toNat = n % 256 := by
      simp
    rw [packLE, unpackLE, hbyte, ih (by omega)]
    omega

/-- 範囲の中の値。 -/
def InRange (width : Nat) (signed : Bool) (x : Int) : Prop :=
  if signed then -(count width : Int) ≤ 2 * x ∧ 2 * x < count width
  else 0 ≤ x ∧ x < count width

instance (width : Nat) (signed : Bool) (x : Int) : Decidable (InRange width signed x) :=
  inferInstanceAs (Decidable (if signed = true then _ else _))

/-- `struct.pack(fmt, x)`。負の値は 2 の補数にする。 -/
def packInt (width : Nat) (signed : Bool) (x : Int) : Option (List UInt8) :=
  if InRange width signed x then some (packLE width (x % count width).toNat) else none

/-- `struct.unpack(fmt, s)`。 -/
def unpackInt (width : Nat) (signed : Bool) (s : List UInt8) : Option Int :=
  if s.length = width then
    if signed ∧ count width ≤ 2 * unpackLE s then some (unpackLE s - count width)
    else some (unpackLE s)
  else none

theorem length_of_packInt {width : Nat} {signed : Bool} {x : Int} {s : List UInt8}
    (h : packInt width signed x = some s) : s.length = width := by
  unfold packInt at h
  split at h
  · rw [← Option.some.inj h, length_packLE]
  · cases h

theorem unpackInt_packInt {width : Nat} {signed : Bool} {x : Int} {s : List UInt8}
    (h : packInt width signed x = some s) : unpackInt width signed s = some x := by
  unfold packInt at h
  split at h
  · next hx =>
    obtain rfl := Option.some.inj h
    have hpos : 0 < count width := by
      clear hx h
      induction width with
      | zero => decide
      | succ width ih =>
        rw [count]
        omega
    have hnonneg := Int.emod_nonneg x (show (count width : Int) ≠ 0 by omega)
    have hlt := Int.emod_lt_of_pos x (show (0 : Int) < count width by omega)
    have hunpack : unpackLE (packLE width (x % count width).toNat) = (x % count width).toNat :=
      unpackLE_packLE (by omega)
    rw [unpackInt, if_pos (length_packLE _ _), hunpack]
    cases signed with
    | false =>
      simp only [InRange, Bool.false_eq_true, if_false] at hx
      have hmod : x % count width = x := Int.emod_eq_of_lt hx.1 hx.2
      simp only [hmod, Bool.false_eq_true, false_and, if_false]
      congr 1
      omega
    | true =>
      simp only [InRange, if_true] at hx
      rcases Int.lt_or_le x 0 with hneg | hpos
      · -- 負の値は、上の半分に移る
        have hmod : x % count width = x + count width := by
          rw [← Int.add_emod_right]
          exact Int.emod_eq_of_lt (by omega) (by omega)
        simp only [hmod, true_and]
        rw [if_pos (by omega)]
        congr 1
        omega
      · have hmod : x % count width = x := Int.emod_eq_of_lt hpos (by omega)
        simp only [hmod, true_and]
        rw [if_neg (by omega)]
        congr 1
        omega
  · cases h

end Struct
