import Mathlib.Data.List.Basic
import Voltha.Common.MessageQueue
import Voltha.Lib.Ascii

/-!
# Netconf の接続の送受信

`netconf/session/nc_connection.py`。届いた塊をそのまま `rx` に貯め、`receive_msg_any` は塊を
**一つ** 取り出して、枠（framing）を外す。塊をつなぎ直すことはしない。

* 1.0 の枠 — message の後に `]]>]]>`。無ければ塊の全体を message とする
* 1.1 の枠 — `\n#長さ\n` と中身を並べ、`\n##\n` で終える。改行で分け、前後の二行ずつを捨てて
  **改行なしに** つなぐ。長さは見ない

受ける方では byte を文字とみなす。送る方の message は `unicode` であり、`send_msg` はそれを
`str` の `format` に渡す。ASCII でない文字があれば、そこで `UnicodeEncodeError` が飛ぶ。
-/

namespace Voltha.Netconf

abbrev Text := List Char

/-- `C.DELIMITER`。 -/
def DELIMITER : Text := [']', ']', '>', ']', ']', '>']

/-- `s.find(sub)`。無ければ `none`（source では -1）。 -/
def find (sub : Text) : Text → Option Nat
  | [] => if sub = [] then some 0 else none
  | c :: s => if sub <+: c :: s then some 0 else (find sub s).map (· + 1)

/-- `_receive_10(msg)`。 -/
def receive10 (msg : Text) : Text :=
  match find DELIMITER msg with
  | some eomidx => msg.take eomidx
  | none => msg

/-- `_receive_11(msg)`。 -/
def receive11 (msg : Text) : Option Text :=
  if msg = [] then none
  else
    let lines := msg.splitOn '\n'
    if lines.length > 2 then some ((lines.take (lines.length - 2)).drop 2).flatten else none

/-- `receive_msg_any(new_framing)` が、取り出した塊から返すもの。 -/
def receiveMsgAny (newFraming : Bool) (msg : Text) : Option Text :=
  if newFraming then receive11 msg else some (receive10 msg)

/-! ## 送信 -/

/-- 飛ぶ例外。 -/
inductive NcError where
  | badMsg
  | notImpl
  | missingElement
  | sessionError
  | assertionError
  | attributeError
  | typeError
  | unicodeDecodeError
  | unicodeEncodeError
  | other
deriving DecidableEq, Repr

/-- `MAXSSHBUF`。 -/
def MAXSSHBUF : Nat := 16 * 1024

/-- `chunkit` の loop。`n` 個の切れと残り。 -/
def chunkitLoop (msg : Text) (maxsend : Nat) : Nat → Nat → List Text
  | 0, left => [msg.drop left]
  | n + 1, left => (msg.drop left).take maxsend :: chunkitLoop msg maxsend n (left + maxsend)

/-- `chunkit(msg, maxsend)`。 -/
def chunkit (msg : Text) (maxsend : Nat) : List Text :=
  chunkitLoop msg maxsend (msg.length / maxsend) 0

/-- `send_msg` の付ける枠。 -/
def framed (newFraming : Bool) (msg : Text) : Text :=
  if newFraming then '#' :: (Nat.toDigits 10 msg.length ++ '\n' :: (msg ++ ['\n', '#', '#', '\n']))
  else msg ++ DELIMITER

/-- 切れを順に書く。例外が飛んでも、それまでに書いたものは残る。 -/
def writeChunks : List Text → Except NcError Unit × Text
  | [] => (.ok (), [])
  | chunk :: chunks =>
    if Ascii.chars chunk then
      ((writeChunks chunks).1, chunk ++ '\n' :: (writeChunks chunks).2)
    else (.error .unicodeEncodeError, [])

/-- `send_msg(msg, new_framing)` の結果と、書いた文字列をつないだもの。 -/
def sendMsg (connected : Bool) (maxChunk : Nat) (newFraming : Bool) (msg : Text) :
    Except NcError Unit × Text :=
  if connected then
    -- 1.1 の枠は全体を一度に `format` する
    if newFraming && !Ascii.chars msg then (.error .unicodeEncodeError, [])
    else writeChunks (chunkit (framed newFraming msg) (maxChunk - 64))
  else (.error .assertionError, [])

/-! ## client の枠 -/

/-- 1.0 の枠。 -/
def frame10 (msg : Text) : Text := msg ++ DELIMITER

/-- 1.1 の枠の一片。 -/
def piece11 (d : Text) : Text := '\n' :: '#' :: (Nat.toDigits 10 d.length ++ '\n' :: d)

/-- 1.1 の枠。message はいくつかの空でない片に分けて送られる。 -/
def frame11 (pieces : List Text) : Text := pieces.flatMap piece11 ++ ['\n', '#', '#', '\n']

/--
client の送る message。hello などの 1.0 の message の後に、1.1 の message が続く。

1.1 の message は、送られる片の列で表す。
-/
structure Session where
  old : List Text
  new : List (List Text)

namespace Session

/-- 流れる byte 列。 -/
def stream (s : Session) : Text := (s.old.map frame10).flatten ++ (s.new.map frame11).flatten

/-- 受け取るべき message。 -/
def messages (s : Session) : List Text := s.old ++ s.new.map List.flatten

/-- それぞれの message を受け取るときの `new_framing`。 -/
def framings (s : Session) : List Bool :=
  s.old.map (fun _ => false) ++ s.new.map fun _ => true

end Session

/-! ## 書く規則 -/

/-- 枠が ASCII なのは、中身が ASCII のときである。 -/
@[simp] theorem ascii_framed (newFraming : Bool) (msg : Text) :
    Ascii.chars (framed newFraming msg) = Ascii.chars msg := by
  cases newFraming <;> simp [framed, DELIMITER, Ascii.chars_toDigits]

theorem flatten_chunkitLoop (msg : Text) (maxsend n left : Nat) :
    (chunkitLoop msg maxsend n left).flatten = msg.drop left := by
  induction n generalizing left with
  | zero => simp [chunkitLoop]
  | succ n ih =>
    rw [chunkitLoop, List.flatten_cons, ih, ← List.drop_drop, List.take_append_drop]

/-- 切れをつなぐと元に戻る。 -/
theorem flatten_chunkit (msg : Text) (maxsend : Nat) : (chunkit msg maxsend).flatten = msg := by
  rw [chunkit, flatten_chunkitLoop, List.drop_zero]

/-- どの切れも ASCII なら、全部が改行を付けて書かれる。 -/
theorem writeChunks_ascii {chunks : List Text} (h : ∀ chunk ∈ chunks, Ascii.chars chunk = true) :
    writeChunks chunks = (.ok (), chunks.flatMap fun chunk => chunk ++ ['\n']) := by
  induction chunks with
  | nil => rfl
  | cons chunk chunks ih =>
    rw [writeChunks, if_pos (h chunk List.mem_cons_self),
      ih fun x hx => h x (List.mem_cons_of_mem _ hx)]
    simp

theorem writeChunks_fails {chunks : List Text} {chunk : Text} (hmem : chunk ∈ chunks)
    (h : Ascii.chars chunk = false) : (writeChunks chunks).1 = .error .unicodeEncodeError := by
  induction chunks with
  | nil => cases hmem
  | cons x chunks ih =>
    rw [writeChunks]
    cases hx : Ascii.chars x with
    | false => rfl
    | true =>
      rcases List.mem_cons.mp hmem with rfl | hmem
      · rw [h] at hx
        cases hx
      · exact ih hmem

/-- 書かれるのは ASCII の文字だけである。 -/
theorem ascii_writeChunks (chunks : List Text) : Ascii.chars (writeChunks chunks).2 = true := by
  induction chunks with
  | nil => rfl
  | cons chunk chunks ih =>
    rw [writeChunks]
    split
    · next h => simp [h, ih]
    · rfl

/-- ASCII の message は、切れごとに改行を付けて書かれる。 -/
theorem sendMsg_ascii {msg : Text} (h : Ascii.chars msg = true) (maxChunk : Nat)
    (newFraming : Bool) :
    sendMsg true maxChunk newFraming msg
      = (.ok (), (chunkit (framed newFraming msg) (maxChunk - 64)).flatMap
          fun chunk => chunk ++ ['\n']) := by
  have hchunks : ∀ chunk ∈ chunkit (framed newFraming msg) (maxChunk - 64),
      Ascii.chars chunk = true := by
    rw [← Ascii.chars_flatten, flatten_chunkit, ascii_framed]
    exact h
  simp only [sendMsg, if_true, h, Bool.not_true, Bool.and_false, Bool.false_eq_true, if_false]
  exact writeChunks_ascii hchunks

/-- ASCII でない message では、例外が飛ぶ。 -/
theorem sendMsg_fails {msg : Text} (h : Ascii.chars msg = false) (maxChunk : Nat)
    (newFraming : Bool) :
    (sendMsg true maxChunk newFraming msg).1 = .error .unicodeEncodeError := by
  have hchunks : ¬∀ chunk ∈ chunkit (framed newFraming msg) (maxChunk - 64),
      Ascii.chars chunk = true := by
    rw [← Ascii.chars_flatten, flatten_chunkit, ascii_framed, h]
    exact Bool.false_ne_true
  push Not at hchunks
  obtain ⟨chunk, hmem, hchunk⟩ := hchunks
  unfold sendMsg
  rw [if_pos rfl]
  split
  · rfl
  · exact writeChunks_fails hmem (by simpa using hchunk)

/-! ## 読み取りの規則 -/

theorem find_eq_some {sub s : Text} {i : Nat} (h : find sub s = some i) :
    i ≤ s.length ∧ ∃ r, s = s.take i ++ (sub ++ r) := by
  induction s generalizing i with
  | nil =>
    unfold find at h
    split at h
    · next hsub =>
      cases h
      exact ⟨Nat.le_refl _, [], by simp [hsub]⟩
    · cases h
  | cons c s ih =>
    unfold find at h
    split at h
    · next hpre =>
      obtain ⟨r, hr⟩ := hpre
      cases h
      exact ⟨Nat.zero_le _, r, by simp [hr]⟩
    · obtain ⟨j, hj, rfl⟩ := Option.map_eq_some_iff.mp h
      obtain ⟨hle, r, hr⟩ := ih hj
      exact ⟨Nat.succ_le_succ hle, r, by rw [List.take_succ_cons, List.cons_append, ← hr]⟩

/-- 見つかる所は、後ろに何を足しても変わらない。 -/
theorem find_append {sub s : Text} {i : Nat} (h : find sub s = some i) (t : Text) :
    find sub (s ++ t) = some i := by
  induction s generalizing i with
  | nil =>
    unfold find at h
    split at h
    · next hsub =>
      cases h
      subst hsub
      cases t with
      | nil => rfl
      | cons c t => simp [find]
    · cases h
  | cons c s ih =>
    unfold find at h
    rw [List.cons_append, find]
    split at h
    · next hpre =>
      rw [← List.cons_append, if_pos (hpre.trans (List.prefix_append (c :: s) t))]
      exact h
    · next hpre =>
      obtain ⟨j, hj, rfl⟩ := Option.map_eq_some_iff.mp h
      have hlen : j + sub.length ≤ s.length := by
        obtain ⟨hle, r, hr⟩ := find_eq_some hj
        have := congrArg List.length hr
        simp only [List.length_append, List.length_take_of_le hle] at this
        omega
      rw [if_neg fun hp => ?_, ih hj, Option.map_some]
      -- `sub` は `s` に収まるので、足した分は効かない
      refine hpre (List.prefix_of_prefix_length_le hp (List.prefix_append (c :: s) t) ?_)
      simp only [List.length_cons]
      omega

/-- 1.0 の枠を外した結果は、塊の全体か、終わりの印の前までである。 -/
theorem receive10_cases (c : Text) :
    receive10 c = c ∨ ∃ r, c = receive10 c ++ (DELIMITER ++ r) := by
  unfold receive10
  split
  · next i hi => exact Or.inr (find_eq_some hi).2
  · exact Or.inl rfl

theorem flatten_splitOn (s : Text) : (s.splitOn '\n').flatten = s.filter (· ≠ '\n') := by
  induction s with
  | nil => rfl
  | cons c s ih =>
    rw [List.splitOn_cons_eq_if_modifyHead]
    obtain ⟨x, xs, hx⟩ := List.exists_cons_of_ne_nil (List.splitOn_ne_nil '\n' s)
    by_cases hc : c = '\n'
    · simp [hc, ih]
    · rw [hx] at ih ⊢
      simpa [hc] using ih

/-- 1.1 の枠を外すと、前後の二行ずつが落ち、間の改行も落ちる。 -/
theorem receive11_lines {p₀ p₁ a b c : Text} (h₀ : '\n' ∉ p₀) (h₁ : '\n' ∉ p₁) (hb : '\n' ∉ b)
    (hc : '\n' ∉ c) :
    receive11 (p₀ ++ '\n' :: (p₁ ++ '\n' :: (a ++ '\n' :: (b ++ '\n' :: c))))
      = some (a.filter (· ≠ '\n')) := by
  have hlines : (p₀ ++ '\n' :: (p₁ ++ '\n' :: (a ++ '\n' :: (b ++ '\n' :: c)))).splitOn '\n'
      = p₀ :: p₁ :: (a.splitOn '\n' ++ [b, c]) := by
    rw [List.splitOn_append_cons_self, List.splitOn_append_cons_self,
      List.splitOn_append_cons_self, List.splitOn_append_cons_self, List.splitOn_eq_singleton h₀,
      List.splitOn_eq_singleton h₁, List.splitOn_eq_singleton hb, List.splitOn_eq_singleton hc]
    rfl
  unfold receive11
  rw [if_neg (by simp), hlines]
  simp [flatten_splitOn]

/-- 最後の改行で分ける。 -/
theorem split_last_newline {s : Text} (h : '\n' ∈ s) : ∃ a c, s = a ++ '\n' :: c ∧ '\n' ∉ c := by
  obtain ⟨c, a, hs, hc⟩ := List.eq_append_cons_of_mem (List.mem_reverse.mpr h)
  refine ⟨a.reverse, c.reverse, ?_, by simpa using hc⟩
  rw [← List.reverse_reverse s, hs]
  simp

/-- 空でない結果が得られるのは、改行が四つ以上あるときである。 -/
theorem receive11_eq_some {s t : Text} (h : receive11 s = some t) (ht : t ≠ []) :
    ∃ p₀ p₁ a b c, '\n' ∉ p₀ ∧ '\n' ∉ p₁ ∧ '\n' ∉ b ∧ '\n' ∉ c ∧
      s = p₀ ++ '\n' :: (p₁ ++ '\n' :: (a ++ '\n' :: (b ++ '\n' :: c))) ∧
      t = a.filter (· ≠ '\n') := by
  -- 改行が足りないときは、`none` か空の結果になる
  by_cases hs : '\n' ∈ s
  · obtain ⟨p₀, r₀, rfl, h₀⟩ := List.eq_append_cons_of_mem hs
    by_cases hr₀ : '\n' ∈ r₀
    · obtain ⟨p₁, r₁, rfl, h₁⟩ := List.eq_append_cons_of_mem hr₀
      by_cases hr₁ : '\n' ∈ r₁
      · obtain ⟨r₂, c, rfl, hc⟩ := split_last_newline hr₁
        by_cases hr₂ : '\n' ∈ r₂
        · obtain ⟨a, b, rfl, hb⟩ := split_last_newline hr₂
          refine ⟨p₀, p₁, a, b, c, h₀, h₁, hb, hc, by simp, ?_⟩
          rw [List.append_assoc, List.cons_append, receive11_lines h₀ h₁ hb hc] at h
          exact (Option.some.inj h).symm
        · simp [receive11, List.splitOn_append_cons_self, List.splitOn_eq_singleton h₀,
            List.splitOn_eq_singleton h₁, List.splitOn_eq_singleton hr₂,
            List.splitOn_eq_singleton hc] at h
          exact absurd h ht
      · simp [receive11, List.splitOn_append_cons_self, List.splitOn_eq_singleton h₀,
          List.splitOn_eq_singleton h₁, List.splitOn_eq_singleton hr₁] at h
        exact absurd h ht
    · simp [receive11, List.splitOn_append_cons_self, List.splitOn_eq_singleton h₀,
        List.splitOn_eq_singleton hr₀] at h
  · simp [receive11, List.splitOn_eq_singleton hs] at h

end Voltha.Netconf
