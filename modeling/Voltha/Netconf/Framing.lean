import Voltha.Netconf.Reassembly

/-!
# Netconf の枠の往復

`send_msg` は枠を付けた message を `max_chunk - 64` 文字ずつに切り、**切れごとに改行を付けて**
書く。`_receive_11` は長さを見ずに改行で分け、前後の二行ずつを捨て、残りを改行なしにつなぐ。

message が ASCII で、枠を付けた全体が一つの切れに収まるときだけ、書かれたものは枠の形のままである
（`sent_iff`）。ASCII でない文字があると、`send_msg` は途中で例外を投げる。
読む方は、1.0 では message が印の半分で終わらなければよい。1.1 では、`send_msg` の枠からは
message の一行目が落ち、先頭に改行のある枠からも中の改行が落ちる。
-/

namespace Voltha.Netconf

/-- つながっているときに `send_msg(msg, new_framing)` の書く文字列をつないだもの。 -/
def sent (maxChunk : Nat) (newFraming : Bool) (msg : Text) : Text :=
  (sendMsg true maxChunk newFraming msg).2

/-! ## 送る方 -/

theorem length_chunkitLoop (msg : Text) (maxsend n left : Nat) :
    (chunkitLoop msg maxsend n left).length = n + 1 := by
  induction n generalizing left with
  | zero => rfl
  | succ n ih => rw [chunkitLoop, List.length_cons, ih]

/-- 切れごとに一文字ずつ増える。 -/
theorem length_flatMap_newline (chunks : List Text) :
    (chunks.flatMap fun chunk => chunk ++ ['\n']).length
      = chunks.flatten.length + chunks.length := by
  induction chunks with
  | nil => rfl
  | cons chunk chunks ih =>
    rw [List.flatMap_cons, List.length_append, ih, List.flatten_cons]
    simp
    omega

theorem sent_ascii {msg : Text} (h : Ascii.chars msg = true) (maxChunk : Nat) (newFraming : Bool) :
    sent maxChunk newFraming msg
      = (chunkit (framed newFraming msg) (maxChunk - 64)).flatMap fun chunk => chunk ++ ['\n'] := by
  rw [sent, sendMsg_ascii h]

theorem length_sent {msg : Text} (h : Ascii.chars msg = true) (maxChunk : Nat) (newFraming : Bool) :
    (sent maxChunk newFraming msg).length = (framed newFraming msg).length
      + ((framed newFraming msg).length / (maxChunk - 64) + 1) := by
  rw [sent_ascii h, length_flatMap_newline, flatten_chunkit, chunkit, length_chunkitLoop]

/-- 例外が飛んでも飛ばなくても、書かれるのは ASCII の文字だけである。 -/
theorem ascii_sent (maxChunk : Nat) (newFraming : Bool) (msg : Text) :
    Ascii.chars (sent maxChunk newFraming msg) = true := by
  unfold sent sendMsg
  rw [if_pos rfl]
  split
  · rfl
  · exact ascii_writeChunks _

/--
書かれたものが枠の形（と最後の改行）なのは、message が ASCII で、全体が一つの切れに収まるときだけである。
-/
theorem sent_iff {maxChunk : Nat} (hmax : 64 < maxChunk) (newFraming : Bool) (msg : Text) :
    sent maxChunk newFraming msg = framed newFraming msg ∨
      sent maxChunk newFraming msg = framed newFraming msg ++ ['\n'] ↔
      Ascii.chars msg = true ∧ (framed newFraming msg).length < maxChunk - 64 := by
  have hpos : 0 < maxChunk - 64 := by omega
  constructor
  · intro h
    have hascii : Ascii.chars msg = true := by
      have hsent := ascii_sent maxChunk newFraming msg
      rcases h with h | h
      · simpa [h] using hsent
      · simpa [h] using hsent
    have hlen := length_sent hascii maxChunk newFraming
    refine ⟨hascii, (Nat.div_eq_zero_iff_lt hpos).mp ?_⟩
    generalize (framed newFraming msg).length / (maxChunk - 64) = cuts at hlen
    rcases h with h | h
    · rw [h] at hlen
      omega
    · rw [h, List.length_append, List.length_singleton] at hlen
      omega
  · rintro ⟨hascii, hlt⟩
    rw [sent_ascii hascii, chunkit, Nat.div_eq_of_lt hlt, chunkitLoop]
    exact Or.inr (by simp)

/-! ## 1.0 の枠を読む -/

/-- 探すものがある所より後では見つからない。 -/
theorem find_le (sub a b : Text) : ∃ i ≤ a.length, find sub (a ++ (sub ++ b)) = some i := by
  induction a with
  | nil =>
    rw [List.nil_append]
    refine ⟨0, Nat.le_refl _, ?_⟩
    cases hs : sub ++ b with
    | nil => simp [find, (List.append_eq_nil_iff.mp hs).1]
    | cons c s =>
      rw [find, if_pos]
      rw [← hs]
      exact List.prefix_append _ _
  | cons c a ih =>
    obtain ⟨i, hi, hfind⟩ := ih
    rw [List.cons_append, find]
    split
    · exact ⟨0, Nat.zero_le _, rfl⟩
    · rw [hfind]
      exact ⟨i + 1, by simpa using hi, rfl⟩

/-- 印の前の半分は、後ろの半分と同じである。他に重なりは無い。 -/
theorem delimiter_overlap {x r : Text} (hpos : 0 < x.length) (hlt : x.length < 6)
    (h : x ++ DELIMITER = DELIMITER ++ r) : x = [']', ']', '>'] := by
  match x, hpos, hlt with
  | [a], _, _ => simp [DELIMITER] at h
  | [a, b], _, _ => simp [DELIMITER] at h
  | [a, b, c], _, _ =>
    simp [DELIMITER] at h
    simp [h]
  | [a, b, c, d], _, _ => simp [DELIMITER] at h
  | [a, b, c, d, e], _, _ => simp [DELIMITER] at h

theorem receive10_framed_iff {msg : Text} (h : ¬ DELIMITER <:+: msg) :
    receive10 (framed false msg) = msg ↔ ¬ [']', ']', '>'] <:+ msg := by
  show receive10 (msg ++ DELIMITER) = msg ↔ _
  obtain ⟨i, hi, hfind⟩ := find_le DELIMITER msg []
  rw [List.append_nil] at hfind
  have htake : receive10 (msg ++ DELIMITER) = (msg ++ DELIMITER).take i := by
    rw [receive10, hfind]
  rw [htake, List.take_append_of_le_length hi]
  constructor
  · rintro heq ⟨p, rfl⟩
    -- 印の半分から見つかるので、短く切れる
    obtain ⟨j, hj, hfind'⟩ := find_le DELIMITER p [']', ']', '>']
    have hsame : p ++ (DELIMITER ++ [']', ']', '>']) = p ++ [']', ']', '>'] ++ DELIMITER := by
      simp [DELIMITER]
    rw [hsame, hfind] at hfind'
    cases hfind'
    have hlen := congrArg List.length heq
    rw [List.length_take_of_le hi, List.length_append] at hlen
    simp at hlen
    omega
  · intro hsuffix
    obtain ⟨-, r, hr⟩ := find_eq_some hfind
    rw [List.take_append_of_le_length hi] at hr
    have hrest : msg.drop i ++ DELIMITER = DELIMITER ++ r := by
      have hwhole : msg.take i ++ (msg.drop i ++ DELIMITER)
          = msg.take i ++ (DELIMITER ++ r) := by
        rw [← List.append_assoc, List.take_append_drop]
        exact hr
      exact List.append_cancel_left hwhole
    have hlen : (msg.drop i).length = msg.length - i := List.length_drop
    rcases Nat.eq_zero_or_pos (msg.drop i).length with hzero | hpos
    · exact List.take_of_length_le (by omega)
    · exfalso
      rcases Nat.lt_or_ge (msg.drop i).length 6 with hshort | hlong
      · exact hsuffix (delimiter_overlap hpos hshort hrest ▸ List.drop_suffix i msg)
      · refine h (List.IsInfix.trans ?_ (List.drop_suffix i msg).isInfix)
        have hprefix : DELIMITER <+: msg.drop i ++ DELIMITER := ⟨r, hrest.symm⟩
        exact (List.prefix_of_prefix_length_le hprefix (List.prefix_append _ _) hlong).isInfix

/-! ## 1.1 の枠を読む -/

/-- `send_msg` の枠を読むと、一行目が落ち、残りの改行も落ちる。 -/
theorem receive11_framed_lines {head tail : Text} (hhead : '\n' ∉ head) :
    receive11 (framed true (head ++ '\n' :: tail)) = some (tail.filter (· ≠ '\n')) := by
  have hshape : framed true (head ++ '\n' :: tail)
      = ('#' :: Nat.toDigits 10 (head ++ '\n' :: tail).length) ++ '\n' :: (head ++ '\n' ::
        (tail ++ '\n' :: (['#', '#'] ++ '\n' :: []))) := by
    simp [framed]
  rw [hshape]
  exact receive11_lines (header_no_newline _) hhead (by decide) (by decide)

/-- 一行だけの message は、`send_msg` の枠からは空になる。 -/
theorem receive11_framed_single {msg : Text} (h : '\n' ∉ msg) :
    receive11 (framed true msg) = some [] := by
  have hshape : framed true msg = ('#' :: Nat.toDigits 10 msg.length) ++ '\n' :: (msg ++ '\n' ::
      (['#', '#'] ++ '\n' :: [])) := by
    simp [framed]
  have hlines : (framed true msg).splitOn '\n'
      = ['#' :: Nat.toDigits 10 msg.length, msg, ['#', '#'], []] := by
    rw [hshape, List.splitOn_append_cons_self, List.splitOn_append_cons_self,
      List.splitOn_append_cons_self, List.splitOn_eq_singleton (header_no_newline _),
      List.splitOn_eq_singleton h, List.splitOn_eq_singleton (by decide)]
    rfl
  rw [receive11, if_neg (by simp [framed]), hlines]
  rfl

/-- `send_msg` の枠から戻るのは、空の message だけである。 -/
theorem receive11_framed_iff (msg : Text) : receive11 (framed true msg) = some msg ↔ msg = [] := by
  by_cases h : '\n' ∈ msg
  · obtain ⟨head, tail, rfl, hhead⟩ := List.eq_append_cons_of_mem h
    rw [receive11_framed_lines hhead]
    refine iff_of_false (fun heq => ?_) (by simp)
    have hlen := congrArg List.length (Option.some.inj heq)
    have hle := List.length_filter_le (· ≠ '\n') tail
    rw [List.length_append, List.length_cons] at hlen
    omega
  · rw [receive11_framed_single h]
    exact ⟨fun heq => (Option.some.inj heq).symm, fun heq => by rw [heq]⟩

/-- 先頭に改行のある枠からは、中の改行だけが落ちる。 -/
theorem receive11_leading (msg : Text) :
    receive11 ('\n' :: framed true msg) = some (msg.filter (· ≠ '\n')) := by
  have hshape : '\n' :: framed true msg = [] ++ '\n' :: (('#' :: Nat.toDigits 10 msg.length) ++
      '\n' :: (msg ++ '\n' :: (['#', '#'] ++ '\n' :: []))) := by
    simp [framed]
  rw [hshape]
  exact receive11_lines (by decide) (header_no_newline _) (by decide) (by decide)

theorem receive11_leading_iff (msg : Text) :
    receive11 ('\n' :: framed true msg) = some msg ↔ '\n' ∉ msg := by
  rw [receive11_leading, Option.some.injEq, List.filter_eq_self]
  exact ⟨fun h hmem => by simpa using h _ hmem,
    fun h c hc => decide_eq_true fun he : c = '\n' => h (he ▸ hc)⟩

/-! ## 往復 -/

/-- `_receive_10` と `_receive_11`。 -/
def receive (newFraming : Bool) (msg : Text) : Option Text :=
  if newFraming then receive11 msg else some (receive10 msg)

/-- 書かれたものは枠の形（と最後の改行）で、枠の形 `form` を読むと message が戻る。 -/
structure RoundTrips (maxChunk : Nat) (newFraming : Bool) (form msg : Text) : Prop where
  sends : sent maxChunk newFraming msg = framed newFraming msg ∨
    sent maxChunk newFraming msg = framed newFraming msg ++ ['\n']
  receives : receive newFraming form = some msg

/--
**枠の往復。** 印を含まない message について、

* 1.0 では、ASCII で、枠ごと一つの切れに収まり、印の半分で終わらないとき
* 1.1 では、`send_msg` の枠からは、空の message のとき
* 1.1 では、`_receive_11` の言う先頭に改行のある枠からは、ASCII で、一つの切れに収まり改行が無いとき

かつそのときに限り往復する。
-/
theorem framing_iff {maxChunk : Nat} (hmax : 64 < maxChunk) {msg : Text}
    (h : ¬ DELIMITER <:+: msg) :
    (RoundTrips maxChunk false (framed false msg) msg ↔
      Ascii.chars msg = true ∧ (framed false msg).length < maxChunk - 64 ∧
        ¬ [']', ']', '>'] <:+ msg) ∧
    (RoundTrips maxChunk true (framed true msg) msg ↔
      (framed true msg).length < maxChunk - 64 ∧ msg = []) ∧
    (RoundTrips maxChunk true ('\n' :: framed true msg) msg ↔
      Ascii.chars msg = true ∧ (framed true msg).length < maxChunk - 64 ∧ '\n' ∉ msg) := by
  have hsplit : ∀ newFraming form, RoundTrips maxChunk newFraming form msg ↔
      Ascii.chars msg = true ∧ (framed newFraming msg).length < maxChunk - 64 ∧
        receive newFraming form = some msg := by
    intro newFraming form
    rw [← and_assoc, ← sent_iff hmax]
    exact ⟨fun h => ⟨h.sends, h.receives⟩, fun h => ⟨h.1, h.2⟩⟩
  refine ⟨?_, ?_, ?_⟩
  · rw [hsplit, ← receive10_framed_iff h]
    exact and_congr_right fun _ => and_congr_right fun _ => ⟨Option.some.inj, congrArg some⟩
  · have hreceive : receive true (framed true msg) = some msg ↔ msg = [] := receive11_framed_iff msg
    rw [hsplit, hreceive]
    constructor
    · exact fun ⟨_, hlt, hnil⟩ => ⟨hlt, hnil⟩
    · rintro ⟨hlt, rfl⟩
      exact ⟨rfl, hlt, rfl⟩
  · rw [hsplit, ← receive11_leading_iff]
    rfl

theorem framing_iff_single :
    (RoundTrips 100 false (framed false ['a']) ['a'] ↔
      Ascii.chars ['a'] = true ∧ (framed false ['a']).length < 100 - 64 ∧
        ¬ [']', ']', '>'] <:+ ['a']) ∧
    (RoundTrips 100 true (framed true ['a']) ['a'] ↔
      (framed true ['a']).length < 100 - 64 ∧ ['a'] = ([] : Text)) ∧
    (RoundTrips 100 true ('\n' :: framed true ['a']) ['a'] ↔
      Ascii.chars ['a'] = true ∧ (framed true ['a']).length < 100 - 64 ∧ '\n' ∉ ['a']) :=
  framing_iff (by decide) (by decide)

/--
二行の message は、1.1 のどちらの枠からも戻らない。切れより長い message は、1.0 でも
途中に改行の入った形で書かれる。ASCII でない文字のある message は、何も書かれずに例外が飛ぶ。
-/
theorem framing_fails :
    ¬ RoundTrips 16384 true (framed true ['a', '\n', 'b']) ['a', '\n', 'b'] ∧
    ¬ RoundTrips 16384 true ('\n' :: framed true ['a', '\n', 'b']) ['a', '\n', 'b'] ∧
    ¬ RoundTrips 68 false (framed false ['a', 'b', 'c']) ['a', 'b', 'c'] ∧
    sendMsg true 16384 false ['<', 'é', '>'] = (.error .unicodeEncodeError, []) ∧
    ¬ RoundTrips 16384 false (framed false ['<', 'é', '>']) ['<', 'é', '>'] := by
  refine ⟨fun h => ?_, fun h => ?_, fun h => ?_, by decide, fun h => ?_⟩
  · have hlines : receive11 (framed true ['a', '\n', 'b']) = some ['b'] := by rfl
    exact absurd (hlines.symm.trans h.receives) (by decide)
  · have hlines : receive11 ('\n' :: framed true ['a', '\n', 'b']) = some ['a', 'b'] := by rfl
    exact absurd (hlines.symm.trans h.receives) (by decide)
  · rcases h.sends with h | h <;> exact absurd h (by decide)
  · rcases h.sends with h | h <;> exact absurd h (by decide)

end Voltha.Netconf
