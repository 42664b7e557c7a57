import Mathlib.Order.Monotone.Basic
import Mathlib.Tactic.Ring

/-!
# IGMP の応答時間の符号

`voltha/extensions/IGMP.py` の `IGMPv3`。応答時間は一 byte の code で送る。128 より小さい値はそのまま、
それより大きい値は 3 bit の指数と 4 bit の仮数にする。

code の順は、それが表す値の順である。`encode_float` は、**値を越えない最大の code** を選ぶ（`le_encode_iff`）。
単調であること、戻ること、誤差の上限は、どれもここから出る。
-/

namespace Voltha.Igmp

/-- `while value > 31` の loop。 -/
def shiftLoop (exp value : Nat) : Nat × Nat :=
  if 31 < value then shiftLoop (exp + 1) (value >>> 1) else (exp, value)
termination_by value
decreasing_by
  rw [Nat.shiftRight_one]
  omega

/-- `encode_float(value)`。 -/
def encodeFloat (value : Nat) : Nat :=
  if value < 128 then value
  else if 31743 < value then 255
  else
    let (exp, value) := shiftLoop 0 (value >>> 3)
    0x80 ||| exp <<< 4 ||| value &&& 0xf

/-- `decode_float(code)`。 -/
def decodeFloat (code : Nat) : Nat :=
  if code < 128 then code
  else
    let mant := code &&& 0xf
    let exp := code >>> 4 &&& 0x7
    (mant ||| 0x10) <<< (exp + 3)

/-- `chr(n)`。byte でなければ例外になる。 -/
def chr (n : Nat) : Option UInt8 := if n < 256 then some (UInt8.ofNat n) else none

/-- `post_build` が応答時間の所に書く byte。v3 の report では使わない。 -/
def maxRespByte (type maxRespCode : Nat) : Option UInt8 :=
  chr (if type ∈ [0x22] then 0 else encodeFloat maxRespCode)

/-! ## code の並び -/

/-- 指数 `e` と、上の bit を付けた仮数 `x` の code。 -/
def code (e x : Nat) : Nat := 128 + 16 * e + (x - 16)

theorem code_eq {e x : Nat} (he : e < 8) (hx : x < 32) (h16 : 16 ≤ x) :
    0x80 ||| e <<< 4 ||| x &&& 0xf = code e x := by
  have hall : ∀ e < 8, ∀ x < 32, 16 ≤ x → 0x80 ||| e <<< 4 ||| x &&& 0xf = code e x := by decide
  exact hall e he x hx h16

theorem decodeFloat_code {e x : Nat} (he : e < 8) (hx : x < 32) (h16 : 16 ≤ x) :
    decodeFloat (code e x) = x * 2 ^ (e + 3) := by
  have hall : ∀ e < 8, ∀ x < 32, 16 ≤ x → decodeFloat (code e x) = x * 2 ^ (e + 3) := by decide
  exact hall e he x hx h16

/-- 次の code は、値を `2 ^ (e + 3)` だけ増やす。仮数が溢れたら指数が増える。 -/
theorem decodeFloat_code_succ {e x : Nat} (he : e < 8) (hx : x < 32) (h16 : 16 ≤ x)
    (h : code e x < 255) : decodeFloat (code e x + 1) = (x + 1) * 2 ^ (e + 3) := by
  by_cases htop : x = 31
  · have he' : e + 1 < 8 := by
      unfold code at h
      omega
    have hnext : code e x + 1 = code (e + 1) 16 := by
      unfold code
      omega
    rw [hnext, decodeFloat_code he' (by omega) (by omega), htop]
    ring
  · have hnext : code e x + 1 = code e (x + 1) := by
      unfold code
      omega
    rw [hnext, decodeFloat_code he (by omega) (by omega)]

/-- 128 より大きい code は、指数と仮数を持つ。 -/
theorem exists_code {c : Nat} (h128 : 128 ≤ c) (h : c < 256) :
    ∃ e x, e < 8 ∧ x < 32 ∧ 16 ≤ x ∧ c = code e x := by
  refine ⟨(c - 128) / 16, 16 + c % 16, by omega, by omega, by omega, ?_⟩
  unfold code
  omega

theorem decodeFloat_of_lt {c : Nat} (h : c < 128) : decodeFloat c = c := if_pos h

/-- 隣の code との差は 1 か、値の 16 分の 1 より大きくない。 -/
theorem decodeFloat_step {c : Nat} (h : c < 255) : decodeFloat c < decodeFloat (c + 1) ∧
    decodeFloat (c + 1) ≤ decodeFloat c + 1 + decodeFloat c / 16 := by
  by_cases h127 : c < 127
  · rw [decodeFloat_of_lt (by omega), decodeFloat_of_lt (by omega)]
    omega
  by_cases h128 : c < 128
  · obtain rfl : c = 127 := by omega
    decide
  obtain ⟨e, x, he, hx, h16, rfl⟩ := exists_code (Nat.le_of_not_lt h128) (by omega)
  rw [decodeFloat_code he hx h16, decodeFloat_code_succ he hx h16 h, Nat.add_mul, Nat.one_mul]
  have hpos : 0 < 2 ^ (e + 3) := Nat.two_pow_pos _
  have hle : 16 * 2 ^ (e + 3) ≤ x * 2 ^ (e + 3) := Nat.mul_le_mul_right _ h16
  omega

theorem decodeFloat_lt {c c' : Nat} (h : c < c') (h' : c' < 256) :
    decodeFloat c < decodeFloat c' := by
  induction c' with
  | zero => omega
  | succ c' ih =>
    have hstep := (decodeFloat_step (show c' < 255 by omega)).1
    rcases Nat.lt_succ_iff_lt_or_eq.mp h with hlt | rfl
    · exact (ih hlt (by omega)).trans hstep
    · exact hstep

/-! ## loop -/

/-- loop は、商が 16 以上 32 未満になるまで 2 で割る。 -/
theorem shiftLoop_spec (value : Nat) : ∀ exp, 16 ≤ value →
    ∃ k x, shiftLoop exp value = (exp + k, x) ∧ 16 ≤ x ∧ x < 32 ∧ x * 2 ^ k ≤ value ∧
      value < (x + 1) * 2 ^ k := by
  induction value using Nat.strong_induction_on with
  | h value ih =>
    intro exp h16
    unfold shiftLoop
    by_cases h31 : 31 < value
    · have hhalf : value >>> 1 = value / 2 := Nat.shiftRight_one value
      obtain ⟨k, x, hrun, hx16, hx32, hle, hlt⟩ :=
        ih (value >>> 1) (by omega) (exp + 1) (by omega)
      refine ⟨k + 1, x, ?_, hx16, hx32, ?_, ?_⟩
      · rw [if_pos h31, hrun, Nat.add_assoc, Nat.add_comm 1 k]
      · rw [Nat.pow_succ, ← Nat.mul_assoc]
        omega
      · rw [Nat.pow_succ, ← Nat.mul_assoc]
        omega
    · exact ⟨0, value, by rw [if_neg h31]; rfl, h16, by omega, by omega, by omega⟩

/-- 128 以上の値の code は、仮数を切り捨てたものである。 -/
theorem encodeFloat_spec {v : Nat} (h128 : 128 ≤ v) (hmax : v ≤ 31743) :
    ∃ e x, encodeFloat v = code e x ∧ e < 8 ∧ 16 ≤ x ∧ x < 32 ∧ code e x < 255 ∧
      x * 2 ^ (e + 3) ≤ v ∧ v < (x + 1) * 2 ^ (e + 3) := by
  have hshift : v >>> 3 = v / 8 := Nat.shiftRight_eq_div_pow v 3
  obtain ⟨e, x, hrun, h16, h32, hle, hlt⟩ := shiftLoop_spec (v >>> 3) 0 (by omega)
  rw [Nat.zero_add] at hrun
  have he : e < 8 := by
    by_contra hge
    have hpow : 2 ^ 8 ≤ 2 ^ e := Nat.pow_le_pow_right (by omega) (by omega)
    have hmul : 16 * 2 ^ 8 ≤ x * 2 ^ e := Nat.mul_le_mul h16 hpow
    omega
  refine ⟨e, x, ?_, he, h16, h32, ?_, ?_, ?_⟩
  · rw [encodeFloat, if_neg (by omega), if_neg (by omega), hrun]
    exact code_eq he h32 h16
  · -- 最大の code 255 は、31743 より大きい値を表す
    unfold code
    by_contra hge
    obtain rfl : e = 7 := by omega
    omega
  · rw [Nat.pow_add, ← Nat.mul_assoc]
    omega
  · rw [Nat.pow_add, ← Nat.mul_assoc]
    omega

/-! ## 値を越えない最大の code -/

theorem encodeFloat_of_lt {v : Nat} (h : v < 128) : encodeFloat v = v := if_pos h

theorem encodeFloat_of_gt {v : Nat} (h : 31743 < v) : encodeFloat v = 255 := by
  rw [encodeFloat, if_neg (by omega), if_pos h]

theorem encodeFloat_floor (v : Nat) : encodeFloat v < 256 ∧ decodeFloat (encodeFloat v) ≤ v ∧
    (encodeFloat v < 255 → v < decodeFloat (encodeFloat v + 1)) := by
  by_cases h128 : v < 128
  · rw [encodeFloat_of_lt h128, decodeFloat_of_lt h128]
    refine ⟨by omega, le_rfl, fun h => ?_⟩
    have hstep := (decodeFloat_step h).1
    rwa [decodeFloat_of_lt h128] at hstep
  by_cases hmax : 31743 < v
  · rw [encodeFloat_of_gt hmax]
    refine ⟨by omega, ?_, by omega⟩
    have htop : decodeFloat 255 = 31744 := by decide
    omega
  obtain ⟨e, x, hcode, he, h16, h32, htop, hle, hlt⟩ :=
    encodeFloat_spec (Nat.le_of_not_lt h128) (Nat.le_of_not_lt hmax)
  rw [hcode, decodeFloat_code he h32 h16, decodeFloat_code_succ he h32 h16 htop]
  exact ⟨by omega, hle, fun _ => hlt⟩

/-- code が値を越えないのは、選ばれた code より大きくないときに限る。 -/
theorem le_encode_iff {c v : Nat} (hc : c < 256) : c ≤ encodeFloat v ↔ decodeFloat c ≤ v := by
  obtain ⟨hmax, hle, hlt⟩ := encodeFloat_floor v
  constructor
  · intro h
    rcases Nat.eq_or_lt_of_le h with rfl | h
    · exact hle
    · exact (decodeFloat_lt h hmax).le.trans hle
  · intro h
    by_contra hgt
    have hnext := hlt (by omega)
    rcases Nat.eq_or_lt_of_le (show encodeFloat v + 1 ≤ c by omega) with rfl | hgt'
    · omega
    · have hbelow := decodeFloat_lt hgt' hc
      omega

/-- `post_build` は、どの応答時間でも例外にならない。 -/
theorem maxRespByte_isSome (type maxRespCode : Nat) :
    (maxRespByte type maxRespCode).isSome = true := by
  unfold maxRespByte chr
  rw [if_pos]
  · rfl
  · split
    · omega
    · exact (encodeFloat_floor maxRespCode).1

/-- 符号は 255 を越えず、単調である。31743 までの値では、復号した値は元の値を越えず、16 分の 1 までしか
下回らない。code は復号してから符号にすると戻る。 -/
theorem response_time_codes : (∀ v, encodeFloat v ≤ 255) ∧ Monotone encodeFloat ∧
    (∀ v ≤ 31743, decodeFloat (encodeFloat v) ≤ v ∧
      v - decodeFloat (encodeFloat v) ≤ v / 16) ∧
    ∀ c ≤ 255, encodeFloat (decodeFloat c) = c := by
  refine ⟨fun v => Nat.le_of_lt_succ (encodeFloat_floor v).1, ?_, ?_, ?_⟩
  · intro v w hvw
    obtain ⟨hmax, hle, -⟩ := encodeFloat_floor v
    exact (le_encode_iff hmax).mpr (hle.trans hvw)
  · intro v hv
    obtain ⟨hmax, hle, hlt⟩ := encodeFloat_floor v
    refine ⟨hle, ?_⟩
    have htop : encodeFloat v < 255 := by
      by_contra hge
      have h255 : encodeFloat v = 255 := by omega
      have hdecode : decodeFloat 255 = 31744 := by decide
      rw [h255] at hle
      omega
    have hstep := (decodeFloat_step htop).2
    have hnext := hlt htop
    have hdiv : decodeFloat (encodeFloat v) / 16 ≤ v / 16 := Nat.div_le_div_right hle
    omega
  · intro c hc
    have hle : c ≤ encodeFloat (decodeFloat c) := (le_encode_iff (by omega)).mpr le_rfl
    obtain ⟨hmax, hback, -⟩ := encodeFloat_floor (decodeFloat c)
    by_contra hne
    have hgt := decodeFloat_lt (lt_of_le_of_ne hle (Ne.symm hne)) hmax
    omega

end Voltha.Igmp
