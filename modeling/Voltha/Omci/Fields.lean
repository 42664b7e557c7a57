import Mathlib.Algebra.Group.Nat.Defs

/-!
# OMCI の field

属性と message の中身は scapy の `Field` で byte 列にする。

`Value` は Python の値、`FieldKind` は field の class である。
class ごとの変換は parameter `Scapy` で、頼るのは次の三つだけである。

* `addfield` は、列の末尾に決まった長さを足す
* 長さは class で決まる
* 範囲の中の値は、`getfield` で残りを変えずに戻る
-/

namespace Voltha.Omci

/-- Python の `str`。 -/
abbrev Bytes := List UInt8

/-- field の値。`False` と `True` は `0` と `1`。 -/
inductive Value where
  | none
  | int (n : Int)
  | str (s : Bytes)
deriving DecidableEq

/-- field の class。 -/
inductive FieldKind where
  | byteField
  | shortField
  | intField
  | macField
  | ipField
  | strFixedLenField (length : Nat)
deriving DecidableEq

/-! ## 文字で書く値 -/

/-- 数字一つの文字。 -/
def digit (n : Nat) : UInt8 := if n < 10 then UInt8.ofNat (0x30 + n) else UInt8.ofNat (0x57 + n)

/-- `"%02x"`。 -/
def hexText (b : UInt8) : Bytes := [digit (b.toNat / 16), digit (b.toNat % 16)]

/-- `"%d"`。 -/
def decText (b : UInt8) : Bytes :=
  if b.toNat < 10 then [digit b.toNat]
  else if b.toNat < 100 then [digit (b.toNat / 10), digit (b.toNat % 10)]
  else [digit (b.toNat / 100), digit (b.toNat / 10 % 10), digit (b.toNat % 10)]

/-- `sep` で区切って並べる。 -/
def joinText (sep : UInt8) (text : UInt8 → Bytes) : Bytes → Bytes
  | [] => []
  | [b] => text b
  | b :: bs => text b ++ sep :: joinText sep text bs

/-- `01:23:45:67:89:ab` の形。 -/
def macText (bs : Bytes) : Bytes := joinText 0x3a hexText bs

/-- `10.0.0.1` の形。 -/
def ipText (bs : Bytes) : Bytes := joinText 0x2e decText bs

namespace FieldKind

/-- byte 列にしたときの長さ。 -/
def size : FieldKind → Nat
  | byteField => 1
  | shortField => 2
  | intField => 4
  | macField => 6
  | ipField => 4
  | strFixedLenField length => length

/-- 範囲の中の値。固定長の文字列は、ちょうどの長さのもの。 -/
def InRange : FieldKind → Value → Prop
  | byteField, v => ∃ n : Nat, v = .int n ∧ n < 256
  | shortField, v => ∃ n : Nat, v = .int n ∧ n < 65536
  | intField, v => ∃ n : Nat, v = .int n ∧ n < 4294967296
  | macField, v => ∃ bs : Bytes, bs.length = 6 ∧ v = .str (macText bs)
  | ipField, v => ∃ bs : Bytes, bs.length = 4 ∧ v = .str (ipText bs)
  | strFixedLenField length, v => ∃ s : Bytes, s.length = length ∧ v = .str s

end FieldKind

/-- scapy の field。`none` は例外である。 -/
structure Scapy where
  addfield : FieldKind → Bytes → Value → Option Bytes
  getfield : FieldKind → Bytes → Option (Bytes × Value)
  /-- `addfield` は列の末尾に足す。 -/
  append : ∀ kind s v, addfield kind s v = (addfield kind [] v).map (s ++ ·)
  size : ∀ kind v b, addfield kind [] v = some b → b.length = kind.size
  /-- `getfield(addfield(s, v) + t) = (t, v)`。 -/
  roundTrip : ∀ kind v, kind.InRange v →
    ∃ b, addfield kind [] v = some b ∧ ∀ t, getfield kind (b ++ t) = some (t, v)

/-! ## 具体的な変換 -/

namespace Scapy

/-- big endian の `width` byte。 -/
def bigEndian : Nat → Nat → Bytes
  | 0, _ => []
  | width + 1, n => bigEndian width (n / 256) ++ [UInt8.ofNat n]

/-- big endian の列の値。 -/
def ofBigEndian (bs : Bytes) : Nat := bs.foldl (fun n b => 256 * n + b.toNat) 0

/-- 文字の表す数。数字でなければ `none`。 -/
def ofDigit (c : UInt8) : Option Nat :=
  if 0x30 ≤ c ∧ c ≤ 0x39 then some (c.toNat - 0x30)
  else if 0x61 ≤ c ∧ c ≤ 0x66 then some (c.toNat - 0x57)
  else none

/-- `sep` で区切られた、`base` 進の数の列を読む。`cur` は読みかけの数。 -/
def readText (base : Nat) (sep : UInt8) (cur : Nat) : Bytes → Option Bytes
  | [] => some [UInt8.ofNat cur]
  | c :: cs =>
    if c = sep then (readText base sep 0 cs).map (UInt8.ofNat cur :: ·)
    else (ofDigit c).bind fun d => readText base sep (base * cur + d) cs

/-- 整数を pack する。`None` は `0` になる。 -/
def packInt (width : Nat) : Value → Option Bytes
  | .none => some (bigEndian width 0)
  | .int (Int.ofNat n) => if n < 256 ^ width then some (bigEndian width n) else none
  | _ => none

/-- 文字で書かれた値を pack する。 -/
def packText (length base : Nat) (sep : UInt8) : Value → Option Bytes
  | .str s => (readText base sep 0 s).filter fun bs => bs.length = length
  | _ => none

/-- `struct.pack("%ds" % length, s)`。 -/
def packStr (length : Nat) : Value → Option Bytes
  | .none => some (List.replicate length 0)
  | .str s => some (s.take length ++ List.replicate (length - s.length) 0)
  | .int _ => none

/-- `i2m` と `struct.pack`。 -/
def pack : FieldKind → Value → Option Bytes
  | .byteField => packInt 1
  | .shortField => packInt 2
  | .intField => packInt 4
  | .macField => fun
    | .none => some (List.replicate 6 0)
    | v => packText 6 16 0x3a v
  | .ipField => packText 4 10 0x2e
  | .strFixedLenField length => packStr length

/-- `struct.unpack` と `m2i`。 -/
def unpack : FieldKind → Bytes → Value
  | .byteField, bs | .shortField, bs | .intField, bs => .int (ofBigEndian bs)
  | .macField, bs => .str (macText bs)
  | .ipField, bs => .str (ipText bs)
  | .strFixedLenField _, bs => .str bs

theorem length_bigEndian (width n : Nat) : (bigEndian width n).length = width := by
  induction width generalizing n with
  | zero => rfl
  | succ width ih => simp [bigEndian, ih]

theorem ofBigEndian_bigEndian (width n : Nat) (h : n < 256 ^ width) :
    ofBigEndian (bigEndian width n) = n := by
  induction width generalizing n with
  | zero =>
    rw [Nat.pow_zero] at h
    simp [ofBigEndian, bigEndian]
    omega
  | succ width ih =>
    have hdiv : n / 256 < 256 ^ width := by
      rw [Nat.pow_succ] at h
      omega
    have hstep : ofBigEndian (bigEndian width (n / 256) ++ [UInt8.ofNat n])
        = 256 * ofBigEndian (bigEndian width (n / 256)) + n % 256 := by
      simp [ofBigEndian, List.foldl_append]
    rw [bigEndian, hstep, ih _ hdiv]
    omega

theorem length_pack {kind : FieldKind} {v : Value} {b : Bytes} (h : pack kind v = some b) :
    b.length = kind.size := by
  have hint : ∀ width, packInt width v = some b → b.length = width := by
    intro width h
    unfold packInt at h
    split at h
    · cases h
      exact length_bigEndian _ _
    · split at h
      · cases h
        exact length_bigEndian _ _
      · cases h
    · cases h
  have htext : ∀ length base sep, packText length base sep v = some b → b.length = length := by
    intro length base sep h
    unfold packText at h
    split at h
    · simpa using (Option.filter_eq_some_iff.mp h).2
    · cases h
  cases kind with
  | byteField => exact hint 1 h
  | shortField => exact hint 2 h
  | intField => exact hint 4 h
  | macField =>
    cases v with
    | none =>
      cases h
      rfl
    | int n => exact htext 6 16 0x3a h
    | str s => exact htext 6 16 0x3a h
  | ipField => exact htext 4 10 0x2e h
  | strFixedLenField length =>
    show b.length = length
    cases v with
    | none =>
      cases h
      exact List.length_replicate
    | int n => cases h
    | str s =>
      cases h
      rw [List.length_append, List.length_take, List.length_replicate]
      omega

theorem ofDigit_digit : ∀ n < 16, ofDigit (digit n) = some n ∧ digit n ≠ 0x3a ∧ digit n ≠ 0x2e := by
  decide

/-- 数字を一つ読む。 -/
theorem readText_digit {base n : Nat} {sep : UInt8} (hn : n < 16) (hsep : digit n ≠ sep)
    (cur : Nat) (cs : Bytes) :
    readText base sep cur (digit n :: cs) = readText base sep (base * cur + n) cs := by
  rw [readText, if_neg hsep, (ofDigit_digit n hn).1]
  rfl

theorem readText_hexText (b : UInt8) (cs : Bytes) :
    readText 16 0x3a 0 (hexText b ++ cs) = readText 16 0x3a b.toNat cs := by
  have hb := b.toNat_lt
  have hhigh : b.toNat / 16 < 16 := by omega
  have hlow : b.toNat % 16 < 16 := by omega
  show readText 16 0x3a 0 (digit _ :: digit _ :: cs) = _
  rw [readText_digit hhigh (ofDigit_digit _ hhigh).2.1,
    readText_digit hlow (ofDigit_digit _ hlow).2.1]
  congr 1
  omega

theorem readText_decText (b : UInt8) (cs : Bytes) :
    readText 10 0x2e 0 (decText b ++ cs) = readText 10 0x2e b.toNat cs := by
  have hb := b.toNat_lt
  have hread : ∀ n < 10, ∀ cur cs,
      readText 10 0x2e cur (digit n :: cs) = readText 10 0x2e (10 * cur + n) cs :=
    fun n hn => readText_digit (by omega) (ofDigit_digit n (by omega)).2.2
  unfold decText
  split
  · next h1 =>
    show readText 10 0x2e 0 (digit _ :: cs) = _
    rw [hread _ h1]
    congr 1
    omega
  · split
    · next h2 =>
      show readText 10 0x2e 0 (digit _ :: digit _ :: cs) = _
      rw [hread _ (by omega), hread _ (by omega)]
      congr 1
      omega
    · show readText 10 0x2e 0 (digit _ :: digit _ :: digit _ :: cs) = _
      rw [hread _ (by omega), hread _ (by omega), hread _ (by omega)]
      congr 1
      omega

/-- 区切って並べた文字列は、もとの byte 列に読める。 -/
theorem readText_joinText {base : Nat} {sep : UInt8} {text : UInt8 → Bytes}
    (h : ∀ b cs, readText base sep 0 (text b ++ cs) = readText base sep b.toNat cs) :
    ∀ bs, bs ≠ [] → readText base sep 0 (joinText sep text bs) = some bs
  | [], hne => absurd rfl hne
  | [b], _ => by
    have hb := h b []
    rw [List.append_nil] at hb
    show readText base sep 0 (text b) = _
    rw [hb, readText, UInt8.ofNat_toNat]
  | b :: b' :: bs, _ => by
    show readText base sep 0 (text b ++ sep :: joinText sep text (b' :: bs)) = _
    rw [h, readText, if_pos rfl, readText_joinText h (b' :: bs) (by simp), UInt8.ofNat_toNat]
    rfl

theorem packText_of_joinText {length base : Nat} {sep : UInt8} {text : UInt8 → Bytes} {bs : Bytes}
    (h : ∀ b cs, readText base sep 0 (text b ++ cs) = readText base sep b.toNat cs)
    (hlen : bs.length = length) (hpos : 0 < length) :
    packText length base sep (.str (joinText sep text bs)) = some bs := by
  have hne : bs ≠ [] := by
    rintro rfl
    rw [← hlen] at hpos
    exact absurd hpos (by simp)
  rw [packText, readText_joinText h bs hne]
  simp [hlen]

/-- 範囲の中の値は、pack したものを unpack すると戻る。 -/
theorem unpack_pack {kind : FieldKind} {v : Value} (h : kind.InRange v) :
    ∃ b, pack kind v = some b ∧ unpack kind b = v := by
  have hint : ∀ width n : Nat, n < 256 ^ width →
      packInt width (.int n) = some (bigEndian width n) ∧
      Value.int (ofBigEndian (bigEndian width n)) = .int n := by
    intro width n hn
    refine ⟨if_pos hn, ?_⟩
    rw [ofBigEndian_bigEndian width n hn]
  cases kind with
  | byteField =>
    obtain ⟨n, rfl, hn⟩ := h
    exact ⟨_, hint 1 n hn⟩
  | shortField =>
    obtain ⟨n, rfl, hn⟩ := h
    exact ⟨_, hint 2 n hn⟩
  | intField =>
    obtain ⟨n, rfl, hn⟩ := h
    exact ⟨_, hint 4 n hn⟩
  | macField =>
    obtain ⟨bs, hlen, rfl⟩ := h
    exact ⟨bs, packText_of_joinText readText_hexText hlen (by decide), rfl⟩
  | ipField =>
    obtain ⟨bs, hlen, rfl⟩ := h
    exact ⟨bs, packText_of_joinText readText_decText hlen (by decide), rfl⟩
  | strFixedLenField length =>
    obtain ⟨s, hlen, rfl⟩ := h
    refine ⟨s, ?_, rfl⟩
    show some (s.take length ++ List.replicate (length - s.length) 0) = some s
    rw [← hlen, List.take_length]
    simp

/-- network byte order の変換。 -/
def network : Scapy where
  addfield kind s v := (pack kind v).map (s ++ ·)
  getfield kind s :=
    if kind.size ≤ s.length then some (s.drop kind.size, unpack kind (s.take kind.size)) else none
  append kind s v := by
    cases pack kind v <;> simp
  size kind v b h := length_pack (by simpa using h)
  roundTrip kind v h := by
    obtain ⟨b, hb, hv⟩ := unpack_pack h
    refine ⟨b, by simp [hb], fun t => ?_⟩
    have hlen := length_pack hb
    rw [if_pos (by rw [List.length_append]; omega), ← hlen, List.drop_left, List.take_left, hv]

end Scapy

end Voltha.Omci
