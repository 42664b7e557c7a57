import Mathlib.Data.List.Basic

/-!
# ASCII の文字列と byte 列

Python 2 の `str` は byte の列、`unicode` は文字の列で、暗黙の変換はどちらの向きでも ASCII に限る。
`decode('utf-8')` はそうではないので、その結果が ASCII なのは、元の byte 列が ASCII のときに限る
（`chars_of_decode`）。
-/

namespace Ascii

/-- ASCII の文字だけからなる。 -/
def chars (s : List Char) : Bool := s.all fun c => decide (c.toNat < 128)

/-- ASCII の byte だけからなる。 -/
def bytes (b : List UInt8) : Bool := b.all fun x => decide (x < 128)

/-- `b.decode('utf-8')`。UTF-8 でなければ `none`。 -/
def decode (b : List UInt8) : Option String := String.fromUTF8? b.toByteArray

@[simp] theorem chars_nil : chars [] = true := rfl

@[simp] theorem chars_cons (c : Char) (s : List Char) :
    chars (c :: s) = (decide (c.toNat < 128) && chars s) := rfl

@[simp] theorem chars_append (s t : List Char) : chars (s ++ t) = (chars s && chars t) :=
  List.all_append

@[simp] theorem bytes_append (s t : List UInt8) : bytes (s ++ t) = (bytes s && bytes t) :=
  List.all_append

theorem chars_flatten {l : List (List Char)} :
    chars l.flatten = true ↔ ∀ s ∈ l, chars s = true := by
  induction l with
  | nil => simp
  | cons s l ih => simp [ih]

/-- 数字は ASCII である。 -/
theorem chars_toDigits (n : Nat) : chars (Nat.toDigits 10 n) = true := by
  refine List.all_eq_true.mpr fun c hc => decide_eq_true ?_
  have hdigit := Nat.isDigit_of_mem_toDigits (by decide) (by decide) hc
  simp only [Char.isDigit, Bool.and_eq_true, decide_eq_true_eq] at hdigit
  exact Nat.lt_of_le_of_lt hdigit.2 (by decide)

/-! ## UTF-8 -/

theorem bytes_of_first {x : UInt8} {rest : List UInt8} (h : 128 ≤ x.toNat) :
    bytes (x :: rest) = false := by
  have hx : ¬x < 128 := by rw [UInt8.lt_iff_toNat_lt]; exact Nat.not_lt.mpr h
  simp [bytes, hx]

/-- 一文字の符号は、ASCII の文字のときだけ ASCII である。 -/
theorem bytes_utf8EncodeChar (c : Char) :
    bytes (String.utf8EncodeChar c) = decide (c.toNat < 128) := by
  have hchar : c.toNat = c.val.toNat := rfl
  unfold String.utf8EncodeChar
  rw [hchar]
  generalize c.val.toNat = v
  by_cases hv : v ≤ 127
  · have hbyte : UInt8.ofNat v < 128 := by
      rw [UInt8.lt_iff_toNat_lt, UInt8.toNat_ofNat']
      show v % 256 < 128
      omega
    simp [bytes, hv, hbyte, show v < 128 by omega]
  · -- 先頭の byte は 0xc0 以上になる
    rw [decide_eq_false (by omega), if_neg hv]
    split
    · exact bytes_of_first (by rw [UInt8.toNat_ofNat']; omega)
    · split
      · exact bytes_of_first (by rw [UInt8.toNat_ofNat']; omega)
      · exact bytes_of_first (by rw [UInt8.toNat_ofNat']; omega)

theorem bytes_flatMap_utf8EncodeChar (s : List Char) :
    bytes (s.flatMap String.utf8EncodeChar) = chars s := by
  induction s with
  | nil => rfl
  | cons c s ih => rw [List.flatMap_cons, bytes_append, bytes_utf8EncodeChar, ih, chars_cons]

/-- 復号した文字列が ASCII なのは、byte 列が ASCII のときに限る。 -/
theorem chars_of_decode {b : List UInt8} {s : String} (h : decode b = some s) :
    chars s.toList = bytes b := by
  unfold decode String.fromUTF8? at h
  split at h
  · next hvalid =>
    obtain rfl := Option.some.inj h
    have hbytes : (String.fromUTF8 b.toByteArray hvalid).toList.utf8Encode = b.toByteArray :=
      String.utf8Encode_toList
    rw [List.utf8Encode, List.toByteArray_inj] at hbytes
    rw [← bytes_flatMap_utf8EncodeChar, hbytes]
  · cases h

theorem flatMap_utf8EncodeChar_ofUInt8 {b : List UInt8} (h : bytes b = true) :
    (b.map Char.ofUInt8).flatMap String.utf8EncodeChar = b := by
  induction b with
  | nil => rfl
  | cons x b ih =>
    simp only [bytes, List.all_cons, Bool.and_eq_true, decide_eq_true_eq] at h
    have hx : x.toNat ≤ 127 := Nat.le_of_lt_succ (UInt8.lt_iff_toNat_lt.mp h.1)
    have hchar : String.utf8EncodeChar (Char.ofUInt8 x) = [x] := by
      have hval : (Char.ofUInt8 x).val.toNat = x.toNat := rfl
      simp [String.utf8EncodeChar, hval, hx]
    rw [List.map_cons, List.flatMap_cons, hchar, ih h.2, List.singleton_append]

/-- ASCII の byte 列は復号できる。 -/
theorem decode_ascii {b : List UInt8} (h : bytes b = true) : ∃ s, decode b = some s := by
  have hvalid : b.toByteArray.IsValidUTF8 := by
    refine ⟨b.map Char.ofUInt8, ?_⟩
    rw [List.utf8Encode, flatMap_utf8EncodeChar_ofUInt8 h]
  exact ⟨_, by rw [decode, String.fromUTF8?, dif_pos hvalid]⟩

end Ascii
