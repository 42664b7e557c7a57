import Mathlib.Algebra.Group.Nat.Defs
import Mathlib.Data.List.Forall2
import Voltha.Lib.Cut

/-!
# OpenFlow の接続の受信

`ofagent/of_connection.py` の `dataReceived`。TCP の byte 列は勝手な所で切れて届くので、
読み残しを `read_buffer` に貯め、完全な message から順に `rx` へ渡す。

header の読み取りと版の選択は `ofagent/loxi` のとおりに写す。message の本体の読み取り
（`message.unpack`）は大きいので、変数 `unpack` のままにする。`rx.put` の先で何が起きるかも
問わないので、受け手の状態 `ρ` と `put` を変数にする。

`loxi.protocol` は 1.0 から 1.4 までの版しか知らず、他の版では例外を投げる。`parse_message` は
他の版の hello を読めるが、そこまで届かない。

loop は長さの field の分だけ進む。field は wire から来るので 0 でもありうるが、
header より短い message は `parse_message` が受け付けない。進まない一周は無い。
-/

namespace Voltha.Ofagent

abbrev Bytes := List UInt8

/-- 受信が投げる例外。`unpack` は `message.unpack` の中のもの。 -/
inductive ReceiveError where
  | assertionError
  | valueError
  | tooShort
  | wrongVersion
  | incorrectSize
  | unpack
deriving DecidableEq, Repr

/-- OpenFlow の header。 -/
structure Header where
  version : Nat
  type : Nat
  length : Nat
  xid : Nat
deriving DecidableEq, Repr

/-- `parse_header(buf)`。8 byte を `!BBHL` として読む。 -/
def parseHeader : Bytes → Except ReceiveError Header
  | v :: t :: l₁ :: l₀ :: x₃ :: x₂ :: x₁ :: x₀ :: _ => .ok
    { version := v.toNat
      type := t.toNat
      length := l₁.toNat * 2 ^ 8 + l₀.toNat
      xid := x₃.toNat * 2 ^ 24 + x₂.toNat * 2 ^ 16 + x₁.toNat * 2 ^ 8 + x₀.toNat }
  | _ => .error .tooShort

/-- `loxi.protocol(ver)`。1.0 から 1.4 までの版。 -/
def protocol (ver : Nat) : Except ReceiveError Nat :=
  if 1 ≤ ver ∧ ver ≤ 5 then .ok ver else .error .valueError

def OFPT_HELLO : Nat := 0

/-- 接続。`rx` は受け手の状態で、`read_buffer` が無いのは `None`。 -/
structure OpenFlowConnection (ρ : Type) where
  readBuffer : Option Bytes
  rx : ρ

variable {Msg ρ : Type}

section Receive

variable (unpack : Nat → Bytes → Except ReceiveError Msg) (put : ρ → Msg → ρ)

/-- 版 `ofp` の `parse_message(buf)`。 -/
def parseMessage (ofp : Nat) (buf : Bytes) : Except ReceiveError Msg := do
  let header ← parseHeader buf
  if header.version ≠ ofp ∧ header.type ≠ OFPT_HELLO then .error .wrongVersion
  else if buf.length ≠ header.length then .error .incorrectSize
  else unpack ofp buf

/-- loop の一周の結果。抜けるか、次の `offset` へ進む。 -/
inductive Turn (ρ : Type) where
  | leave (result : Except ReceiveError Nat) (rx : ρ)
  | next (offset : Nat) (rx : ρ)

/-- `dataReceived` の loop の一周。 -/
def receiveTurn (buf : Bytes) (offset : Nat) (rx : ρ) : Turn ρ :=
  if offset < buf.length then
    -- header に足りない
    if offset + 8 > buf.length then .leave (.ok offset) rx
    else
      match parseHeader (buf.drop offset) with
      | .error e => .leave (.error e) rx
      | .ok header =>
        match protocol header.version with
        | .error e => .leave (.error e) rx
        | .ok ofp =>
          -- message の全体がまだ無い
          if offset + header.length > buf.length then .leave (.ok offset) rx
          else
            match parseMessage unpack ofp ((buf.drop offset).take header.length) with
            | .error e => .leave (.error e) rx
            | .ok msg => .next (offset + header.length) (put rx msg)
  else .leave (.ok offset) rx

/-- `dataReceived` の loop。`fuel` が尽きたら `none`。 -/
def receiveLoop (buf : Bytes) : Nat → Nat → ρ → Option (Except ReceiveError Nat × ρ)
  | 0, _, _ => none
  | fuel + 1, offset, rx =>
    match receiveTurn unpack put buf offset rx with
    | .leave result rx' => some (result, rx')
    | .next offset' rx' => receiveLoop buf fuel offset' rx'

/-- 読み残しに `data` をつないだもの。空の読み残しは無いのと同じ。 -/
def OpenFlowConnection.buffered (c : OpenFlowConnection ρ) (data : Bytes) : Bytes :=
  c.readBuffer.getD [] ++ data

/-- `read_buffer` に残すもの。 -/
def remaining (rest : Bytes) : Option Bytes := if rest = [] then none else some rest

/-- `dataReceived(data)`。例外で抜けるときは、`rx` に渡した分だけが残る。 -/
def dataReceived (fuel : Nat) (c : OpenFlowConnection ρ) (data : Bytes) :
    Option (Except ReceiveError Unit × OpenFlowConnection ρ) :=
  if data = [] then some (.error .assertionError, c)
  else
    let buf := c.buffered data
    (receiveLoop unpack put buf fuel 0 c.rx).map fun r =>
      match r with
      | (.ok offset, rx) => (.ok (), ⟨remaining (buf.drop offset), rx⟩)
      | (.error e, rx) => (.error e, ⟨c.readBuffer, rx⟩)

/-- 届いた順に `dataReceived` を呼ぶ。例外が飛べば、そこで止まる。 -/
def receiveAll (fuel : Nat) : OpenFlowConnection ρ → List Bytes →
    Option (Except ReceiveError Unit × OpenFlowConnection ρ)
  | c, [] => some (.ok (), c)
  | c, data :: chunks =>
    match dataReceived unpack put fuel c data with
    | some (.ok (), c') => receiveAll fuel c' chunks
    | r => r

end Receive

/-! ## header -/

/-- 8 byte あれば header が読める。 -/
theorem parseHeader_ok {buf : Bytes} (h : 8 ≤ buf.length) :
    ∃ header, parseHeader buf = .ok header := by
  match buf, h with
  | _ :: _ :: _ :: _ :: _ :: _ :: _ :: _ :: _, _ => exact ⟨_, rfl⟩

/-- header は先頭の 8 byte だけで決まる。 -/
theorem parseHeader_append {buf : Bytes} (h : 8 ≤ buf.length) (rest : Bytes) :
    parseHeader (buf ++ rest) = parseHeader buf := by
  match buf, h with
  | _ :: _ :: _ :: _ :: _ :: _ :: _ :: _ :: _, _ => rfl

theorem parseHeader_short {buf : Bytes} (h : buf.length < 8) :
    parseHeader buf = .error .tooShort := by
  match buf, h with
  | [], _ | [_], _ | [_, _], _ | [_, _, _], _ | [_, _, _, _], _ | [_, _, _, _, _], _
  | [_, _, _, _, _, _], _ | [_, _, _, _, _, _, _], _ => rfl
  | _ :: _ :: _ :: _ :: _ :: _ :: _ :: _ :: l, h => simp at h; omega

variable {unpack : Nat → Bytes → Except ReceiveError Msg} {put : ρ → Msg → ρ}

/-- 読めた message は header より短くない。 -/
theorem length_of_parseMessage {ofp : Nat} {buf : Bytes} {msg : Msg}
    (h : parseMessage unpack ofp buf = .ok msg) : 8 ≤ buf.length := by
  by_contra hlt
  rw [parseMessage, parseHeader_short (Nat.lt_of_not_le hlt)] at h
  cases h

/-! ## 止まること -/

/-- 次へ進む一周は、8 byte 以上進み、buffer の終わりを越えない。 -/
theorem receiveTurn_next {buf : Bytes} {offset offset' : Nat} {rx rx' : ρ}
    (h : receiveTurn unpack put buf offset rx = .next offset' rx') :
    offset + 8 ≤ offset' ∧ offset' ≤ buf.length := by
  unfold receiveTurn at h
  split at h
  · split at h
    · cases h
    · split at h
      · cases h
      · next header _ =>
        split at h
        · cases h
        · split at h
          · cases h
          · next hfit =>
            split at h
            · cases h
            · next msg hmsg =>
              -- 読めた message は header より短くない
              have hlen := length_of_parseMessage hmsg
              cases h
              simp only [List.length_take, List.length_drop] at hlen
              omega
  · cases h

/-- 残りの長さより大きい `fuel` があれば、loop は尽きずに終わり、結果は `fuel` に依らない。 -/
theorem receiveLoop_ends (unpack : Nat → Bytes → Except ReceiveError Msg) (put : ρ → Msg → ρ)
    (buf : Bytes) (n offset : Nat) (rx : ρ) (hn : buf.length - offset ≤ n) :
    ∃ r, ∀ fuel, n < fuel → receiveLoop unpack put buf fuel offset rx = some r := by
  induction n using Nat.strongRecOn generalizing offset rx with
  | ind n ih =>
    cases ht : receiveTurn unpack put buf offset rx with
    | leave result rx' =>
      refine ⟨(result, rx'), fun fuel hf => ?_⟩
      obtain ⟨fuel, rfl⟩ := Nat.exists_eq_add_of_lt hf
      simp [receiveLoop, ht]
    | next offset' rx' =>
      have hnext := receiveTurn_next ht
      obtain ⟨r, hr⟩ := ih (n - 8) (by omega) offset' rx' (by omega)
      refine ⟨r, fun fuel hf => ?_⟩
      obtain ⟨fuel, rfl⟩ := Nat.exists_eq_add_of_lt hf
      simp only [receiveLoop, ht]
      exact hr _ (by omega)

/-- どの byte 列についても、`dataReceived` は終わる。 -/
theorem dataReceived_ends (unpack : Nat → Bytes → Except ReceiveError Msg) (put : ρ → Msg → ρ)
    (c : OpenFlowConnection ρ) (data : Bytes) :
    ∃ r, ∀ fuel, (c.buffered data).length < fuel →
      dataReceived unpack put fuel c data = some r := by
  obtain ⟨r, hr⟩ := receiveLoop_ends unpack put (c.buffered data) (c.buffered data).length 0 c.rx
    (by omega)
  cases hfirst : dataReceived unpack put ((c.buffered data).length + 1) c data with
  | none =>
    unfold dataReceived at hfirst
    split at hfirst
    · cases hfirst
    · simp [hr _ (Nat.lt_succ_self _)] at hfirst
  | some result =>
    refine ⟨result, fun fuel hf => ?_⟩
    rw [← hfirst]
    simp only [dataReceived, hr fuel hf, hr _ (Nat.lt_succ_self _)]

/-! ## message の列を読む -/

/-- header の長さの field が正しい message。 -/
structure Framed (m : Bytes) : Prop where
  length : 8 ≤ m.length
  header : ∃ header, parseHeader m = .ok header ∧ header.length = m.length

/-- header まで読めるなら、その版を loxi が知っている。8 byte に足りなければ何も言わない。 -/
def KnownVersion (b : Bytes) : Prop :=
  ∀ header, parseHeader b = .ok header → 1 ≤ header.version ∧ header.version ≤ 5

/-- まだ何も取り出せない読み残し。 -/
structure Pending (t : Bytes) : Prop where
  known : KnownVersion t
  short : ∀ header, parseHeader t = .ok header → t.length < header.length

/-- header の版を loxi が知らず、そこで読み進められない続き。 -/
structure Refused (t : Bytes) : Prop where
  length : 8 ≤ t.length
  unknown : ¬KnownVersion t

/-- 8 byte 以上なら、どの版の `message.unpack` も message を返す。 -/
def Unpacks (unpack : Nat → Bytes → Except ReceiveError Msg) : Prop :=
  ∀ ver buf, 1 ≤ ver ∧ ver ≤ 5 → 8 ≤ buf.length → ∃ msg, unpack ver buf = .ok msg

/-- wire の message から読み取られる object。 -/
def Decodes (unpack : Nat → Bytes → Except ReceiveError Msg) (m : Bytes) (msg : Msg) : Prop :=
  ∃ header, parseHeader m = .ok header ∧ parseMessage unpack header.version m = .ok msg

theorem Framed.decodes {m : Bytes} (h : Framed m) (hknown : KnownVersion m)
    (hu : Unpacks unpack) : ∃ msg, Decodes unpack m msg := by
  obtain ⟨header, hh, hlen⟩ := h.header
  obtain ⟨msg, hmsg⟩ := hu header.version m (hknown header hh) h.length
  refine ⟨msg, header, hh, ?_⟩
  simp [parseMessage, hh, hlen, hmsg, bind, Except.bind]

theorem exists_decodes {ms : List Bytes} (h : ∀ m ∈ ms, Framed m ∧ KnownVersion m)
    (hu : Unpacks unpack) : ∃ parsed, List.Forall₂ (Decodes unpack) ms parsed := by
  induction ms with
  | nil => exact ⟨[], .nil⟩
  | cons m ms ih =>
    obtain ⟨hm, hknown⟩ := h m List.mem_cons_self
    obtain ⟨msg, hmsg⟩ := hm.decodes hknown hu
    obtain ⟨parsed, hparsed⟩ := ih fun x hx => h x (List.mem_cons_of_mem _ hx)
    exact ⟨msg :: parsed, .cons hmsg hparsed⟩

/-- 8 byte に足りなければ、何も取り出せない。 -/
theorem Pending.of_short {t : Bytes} (h : t.length < 8) : Pending t := by
  have hnone : ∀ header, parseHeader t ≠ .ok header := by simp [parseHeader_short h]
  exact ⟨fun header hh => absurd hh (hnone header), fun header hh => absurd hh (hnone header)⟩

/-- 知っている版の message の途中からは、何も取り出せない。 -/
theorem Pending.of_properPrefix {t m : Bytes} (hm : Framed m) (ht : t.ProperPrefix m)
    (hknown : KnownVersion t) : Pending t := by
  by_cases hshort : t.length < 8
  · exact .of_short hshort
  · refine ⟨hknown, fun header hh => ?_⟩
    obtain ⟨header', hh', hlen⟩ := hm.header
    have hlt := ht.length_lt
    obtain ⟨u, -, rfl⟩ := ht
    rw [parseHeader_append (by omega), hh] at hh'
    cases hh'
    omega

/-- 完全な message を含む buffer からは、まだ取り出せる。 -/
theorem Framed.not_pending {m : Bytes} (h : Framed m) (rest : Bytes) : ¬Pending (m ++ rest) := by
  intro hp
  obtain ⟨header, hh, hlen⟩ := h.header
  have hlt := hp.short header (by rw [parseHeader_append h.length, hh])
  simp only [List.length_append] at hlt
  omega

theorem Refused.not_pending {t : Bytes} (h : Refused t) : ¬Pending t :=
  fun hp => h.unknown hp.known

theorem Refused.append {t : Bytes} (h : Refused t) (rest : Bytes) : Refused (t ++ rest) := by
  refine ⟨by simp only [List.length_append]; have := h.length; omega, fun hknown => h.unknown ?_⟩
  intro header hh
  exact hknown header (by rw [parseHeader_append h.length, hh])

/-- header まで読めないことは、版を知らないことではない。 -/
theorem Refused.of_unknown {t : Bytes} (h : ¬KnownVersion t) : Refused t := by
  refine ⟨?_, h⟩
  by_contra hshort
  exact h (Pending.of_short (Nat.lt_of_not_le hshort)).known

/-- 途中で止まるか、知らない版で止まるかの続きは、先頭を切り取ってもそのどちらかである。 -/
theorem pending_or_refused_cut {t stop : Bytes} (hstop : Pending stop ∨ Refused stop)
    (ht : t <+: stop) : Pending t ∨ Refused t := by
  by_cases hshort : t.length < 8
  · exact Or.inl (.of_short hshort)
  · obtain ⟨u, rfl⟩ := ht
    have hread : parseHeader (t ++ u) = parseHeader t := parseHeader_append (by omega) u
    rcases hstop with hp | hr
    · refine Or.inl ⟨fun header hh => hp.known header (hread.trans hh), fun header hh => ?_⟩
      have hlt := hp.short header (hread.trans hh)
      simp only [List.length_append] at hlt
      omega
    · refine Or.inr ⟨by omega, fun hknown => hr.unknown fun header hh => ?_⟩
      exact hknown header (hread.symm.trans hh)

/-- 知っている版の message から始まる続きは、そこでは止められない。 -/
theorem Framed.not_refused {m t rest rest' : Bytes} (h : Framed m) (hknown : KnownVersion m)
    (he : t ++ rest = m ++ rest') : ¬Refused t := by
  intro hr
  refine hr.unknown fun header hh => hknown header ?_
  rw [← parseHeader_append h.length rest', ← he, parseHeader_append hr.length, hh]

/-! ### loop -/

/-- buffer の続きに完全な message があれば、それを渡して進む。 -/
theorem receiveTurn_message {m : Bytes} {msg : Msg} (h : Framed m) (hknown : KnownVersion m)
    (hd : Decodes unpack m msg) (pre rest : Bytes) (rx : ρ) :
    receiveTurn unpack put (pre ++ (m ++ rest)) pre.length rx
      = .next (pre.length + m.length) (put rx msg) := by
  obtain ⟨header, hh, hlen⟩ := h.header
  obtain ⟨header', hh', hmsg⟩ := hd
  obtain rfl : header' = header := by simpa [hh] using hh'.symm
  have hver := hknown header' hh
  have hpos := h.length
  have hread : parseHeader (m ++ rest) = .ok header' := by rw [parseHeader_append h.length, hh]
  simp only [receiveTurn, List.drop_left, hread, protocol, hver, and_self, if_true, hlen,
    List.take_left, hmsg, List.length_append]
  rw [if_pos (by omega), if_neg (by omega), if_neg (by omega)]

variable (put)

/-- 読み残しからは、何も渡さずに抜ける。 -/
theorem receiveTurn_pending {t : Bytes} (h : Pending t) (pre : Bytes) (rx : ρ) :
    receiveTurn unpack put (pre ++ t) pre.length rx = .leave (.ok pre.length) rx := by
  unfold receiveTurn
  split
  · split
    · rfl
    · next hshort =>
      simp only [List.length_append] at hshort
      obtain ⟨header, hh⟩ := parseHeader_ok (show 8 ≤ t.length by omega)
      have hver := h.known header hh
      have hlt := h.short header hh
      simp only [List.drop_left, hh, protocol, hver, and_self, if_true, List.length_append]
      rw [if_pos (by omega)]
  · rfl

/-- 知らない版の header では、`loxi.protocol` の例外で抜ける。 -/
theorem receiveTurn_refused {t : Bytes} (h : Refused t) (pre : Bytes) (rx : ρ) :
    receiveTurn unpack put (pre ++ t) pre.length rx = .leave (.error .valueError) rx := by
  have hlen := h.length
  obtain ⟨header, hh⟩ := parseHeader_ok h.length
  have hver : ¬(1 ≤ header.version ∧ header.version ≤ 5) := by
    intro hver
    refine h.unknown fun header' hh' => ?_
    rw [hh] at hh'
    cases hh'
    exact hver
  simp only [receiveTurn, List.drop_left, hh, protocol, hver, if_false, List.length_append]
  rw [if_pos (by omega), if_neg (by omega)]

/-- 完全な message の列を読んだ後、続き `t` での抜け方で終わる。 -/
theorem receiveLoop_messages {ms : List Bytes} {parsed : List Msg} {t : Bytes}
    (result : Nat → Except ReceiveError Nat) (hms : ∀ m ∈ ms, Framed m ∧ KnownVersion m)
    (hparsed : List.Forall₂ (Decodes unpack) ms parsed)
    (hleave : ∀ pre rx,
      receiveTurn unpack put (pre ++ t) pre.length rx = .leave (result pre.length) rx)
    (pre : Bytes) (rx : ρ) (fuel : Nat) (hf : ms.length < fuel) :
    receiveLoop unpack put (pre ++ (ms.flatten ++ t)) fuel pre.length rx
      = some (result (pre.length + ms.flatten.length), parsed.foldl put rx) := by
  induction hparsed generalizing pre rx fuel with
  | nil =>
    obtain ⟨fuel, rfl⟩ := Nat.exists_eq_add_of_lt hf
    simp [receiveLoop, hleave]
  | @cons x msg xs msgs hd _ ih =>
    obtain ⟨fuel, rfl⟩ := Nat.exists_eq_add_of_lt hf
    obtain ⟨hx, hknown⟩ := hms x List.mem_cons_self
    have hrest := ih (fun y hy => hms y (List.mem_cons_of_mem _ hy)) (pre ++ x) (put rx msg)
      (xs.length + 1 + fuel) (by omega)
    simp only [List.length_append] at hrest
    simp only [List.flatten_cons, List.append_assoc, List.length_cons, receiveLoop,
      receiveTurn_message hx hknown hd, List.foldl_cons, List.length_append]
    rw [← List.append_assoc, hrest, Nat.add_assoc]

/-! ## 切れ目に依らないこと -/

theorem length_le_flatten {ms : List Bytes} (h : ∀ m ∈ ms, Framed m) :
    ms.length ≤ ms.flatten.length := by
  induction ms with
  | nil => simp
  | cons m ms ih =>
    have hm := (h m List.mem_cons_self).length
    have hms := ih fun x hx => h x (List.mem_cons_of_mem _ hx)
    simp only [List.length_cons, List.flatten_cons, List.length_append]
    omega

theorem buffered_remaining (t data : Bytes) (rx : ρ) :
    (⟨remaining t, rx⟩ : OpenFlowConnection ρ).buffered data = t ++ data := by
  unfold OpenFlowConnection.buffered remaining
  split
  · next h => simp [h]
  · rfl

/-- 一回の `dataReceived`。buffer が完全な message の列と続き `t'` からなるとき。 -/
theorem dataReceived_messages {ms : List Bytes} {parsed : List Msg} {t data t' : Bytes}
    (hms : ∀ m ∈ ms, Framed m ∧ KnownVersion m)
    (hparsed : List.Forall₂ (Decodes unpack) ms parsed) (hdata : data ≠ [])
    (hbuf : t ++ data = ms.flatten ++ t') (rx : ρ) (fuel : Nat) (hf : ms.flatten.length < fuel) :
    (Pending t' → dataReceived unpack put fuel ⟨remaining t, rx⟩ data
      = some (.ok (), ⟨remaining t', parsed.foldl put rx⟩)) ∧
    (Refused t' → dataReceived unpack put fuel ⟨remaining t, rx⟩ data
      = some (.error .valueError, ⟨remaining t, parsed.foldl put rx⟩)) := by
  have hcount := length_le_flatten fun m hm => (hms m hm).1
  constructor
  · intro hp
    have hloop := receiveLoop_messages put Except.ok hms hparsed (receiveTurn_pending put hp)
      [] rx fuel (by omega)
    simp only [List.nil_append, List.length_nil, Nat.zero_add, ← hbuf] at hloop
    simp only [dataReceived, hdata, if_false, buffered_remaining, hloop, Option.map_some]
    rw [hbuf, List.drop_left]
  · intro hr
    have hloop := receiveLoop_messages put (fun _ => .error .valueError) hms hparsed
      (receiveTurn_refused put hr) [] rx fuel (by omega)
    simp only [List.nil_append, List.length_nil, ← hbuf] at hloop
    simp only [dataReceived, hdata, if_false, buffered_remaining, hloop, Option.map_some]

/-- 列の終わり `stop` で、どう終わるか。 -/
def Ends (stop : Bytes) (rx : ρ) (r : Except ReceiveError Unit × OpenFlowConnection ρ) : Prop :=
  Pending stop ∧ r = (.ok (), ⟨remaining stop, rx⟩) ∨
    Refused stop ∧ ∃ buffer, r = (.error .valueError, ⟨buffer, rx⟩)

/-- 読み残し `t` から始めて、残りの byte 列を届いた順に読む。 -/
theorem receiveAll_messages {ms : List Bytes} {parsed : List Msg} {stop : Bytes}
    (hms : ∀ m ∈ ms, Framed m ∧ KnownVersion m)
    (hparsed : List.Forall₂ (Decodes unpack) ms parsed) (hstop : Pending stop ∨ Refused stop)
    {chunks : List Bytes} (hne : ∀ c ∈ chunks, c ≠ []) {t : Bytes} (ht : Pending t)
    (hcut : t ++ chunks.flatten = ms.flatten ++ stop) (rx : ρ) (fuel : Nat)
    (hf : (ms.flatten ++ stop).length < fuel) :
    ∃ r, receiveAll unpack put fuel ⟨remaining t, rx⟩ chunks = some r ∧
      Ends stop (parsed.foldl put rx) r := by
  induction chunks generalizing ms parsed t rx with
  | nil =>
    have ht' : t = ms.flatten ++ stop := (List.append_nil t).symm.trans hcut
    subst ht'
    cases hparsed with
    | nil => exact ⟨_, rfl, Or.inl ⟨by simpa using ht, rfl⟩⟩
    | cons hd hrest =>
      rw [List.flatten_cons, List.append_assoc] at ht
      exact absurd ht ((hms _ List.mem_cons_self).1.not_pending _)
  | cons data chunks ih =>
    rw [List.flatten_cons, ← List.append_assoc] at hcut
    obtain ⟨k, t', hk, ht', hproper⟩ := List.cut_flatten ms hcut
    have htake : ∀ x ∈ ms.take k, Framed x ∧ KnownVersion x :=
      fun x hx => hms x (List.mem_of_mem_take hx)
    have hdrop : ∀ x ∈ ms.drop k, Framed x ∧ KnownVersion x :=
      fun x hx => hms x (List.mem_of_mem_drop hx)
    have hsplit : (ms.flatten ++ stop).length
        = (ms.take k).flatten.length + ((ms.drop k).flatten ++ stop).length := by
      rw [← hcut, hk, List.append_assoc, ht', List.length_append]
    obtain ⟨hok, herror⟩ := dataReceived_messages put htake (List.forall₂_take k hparsed)
      (hne data List.mem_cons_self) hk rx fuel (by omega)
    -- 残りは、次の message の途中か、`stop` の先頭である
    have hnext : Pending t' ∨ t' <+: stop ∧ Refused t' := by
      rcases hproper with ⟨m, hmem, hp⟩ | hp
      · obtain ⟨hm, hknown⟩ := hms m hmem
        refine Or.inl (.of_properPrefix hm hp fun header hh => ?_)
        have hlong : 8 ≤ t'.length := by
          by_contra hshort
          simp [parseHeader_short (Nat.lt_of_not_le hshort)] at hh
        obtain ⟨u, -, rfl⟩ := hp
        exact hknown header (by rw [parseHeader_append hlong, hh])
      · exact (pending_or_refused_cut hstop hp).imp id fun hr => ⟨hp, hr⟩
    rcases hnext with hp | ⟨hpre, hr⟩
    · obtain ⟨r, hr, hends⟩ := ih hdrop (List.forall₂_drop k hparsed)
        (fun c hc => hne c (List.mem_cons_of_mem _ hc)) hp ht' ((parsed.take k).foldl put rx)
        (by omega)
      refine ⟨r, by simp only [receiveAll, hok hp, hr], ?_⟩
      rwa [← List.foldl_append, List.take_append_drop] at hends
    · -- 知らない版の header まで届いた。前の message は全部渡っている
      have hlast : ms.drop k = [] := by
        cases hrest : ms.drop k with
        | nil => rfl
        | cons x xs =>
          obtain ⟨hx, hknown⟩ := hdrop x (by simp [hrest])
          rw [hrest, List.flatten_cons, List.append_assoc] at ht'
          exact absurd hr (hx.not_refused hknown ht')
      have hparsed' : parsed.take k = parsed := by
        have hlen := List.drop_eq_nil_iff.mp hlast
        rw [hparsed.length_eq] at hlen
        exact List.take_of_length_le hlen
      rw [hparsed'] at herror
      obtain ⟨u, rfl⟩ := hpre
      refine ⟨(.error .valueError, ⟨remaining t, parsed.foldl put rx⟩), ?_,
        Or.inr ⟨hr.append u, _, rfl⟩⟩
      simp only [receiveAll, herror hr]

/-- 知らない版があれば、初めの一つの所で列は二つに分かれる。 -/
theorem exists_refused {ms : List Bytes} {tail : Bytes} (hms : ∀ m ∈ ms, Framed m)
    (h : ¬((∀ m ∈ ms, KnownVersion m) ∧ KnownVersion tail)) :
    ∃ (known : List Bytes) (stop : Bytes), ms.flatten ++ tail = known.flatten ++ stop ∧
      (∀ m ∈ known, Framed m ∧ KnownVersion m) ∧ Refused stop := by
  induction ms with
  | nil => exact ⟨[], tail, rfl, by simp, .of_unknown (by simpa using h)⟩
  | cons m ms ih =>
    by_cases hknown : KnownVersion m
    · obtain ⟨known, stop, hsplit, hgood, hr⟩ :=
        ih (fun x hx => hms x (List.mem_cons_of_mem _ hx)) (by simpa [hknown] using h)
      refine ⟨m :: known, stop, by simp [hsplit], ?_, hr⟩
      intro x hx
      rcases List.mem_cons.mp hx with rfl | hx
      · exact ⟨hms x List.mem_cons_self, hknown⟩
      · exact hgood x hx
    · refine ⟨[], (m :: ms).flatten ++ tail, rfl, by simp, ?_⟩
      rw [List.flatten_cons, List.append_assoc]
      exact (Refused.of_unknown hknown).append _

/--
**受信が切れ目に依らないのは、loxi の知る版のときである。**

完全な message の列と、もう一つの message の途中までをつないだ byte 列を、どのように空でない塊に
切って届けても、`rx` にちょうど完全な message が順に一度ずつ渡り、`read_buffer` に残りの途中までが
残る。それは、どの message も、header まで届いた途中の message も、1.0 から 1.4 までの版のときで、
そのときに限る。また、**どの** byte 列についても、`dataReceived` は必ず終わる。
-/
theorem reassembly_ignores_segmentation_iff (unpack : Nat → Bytes → Except ReceiveError Msg)
    (hunpack : Unpacks unpack) (put : ρ → Msg → ρ) :
    (∀ (ms : List Bytes) (tail last : Bytes) (chunks : List Bytes) (rx : ρ),
      (∀ m ∈ ms, Framed m) → Framed last → tail.ProperPrefix last →
      (∀ c ∈ chunks, c ≠ []) → chunks.flatten = ms.flatten ++ tail →
      ((∃ parsed, List.Forall₂ (Decodes unpack) ms parsed ∧
        ∀ fuel, (ms.flatten ++ tail).length < fuel →
          receiveAll unpack put fuel ⟨none, rx⟩ chunks
            = some (.ok (), ⟨remaining tail, parsed.foldl put rx⟩)) ↔
        (∀ m ∈ ms, KnownVersion m) ∧ KnownVersion tail)) ∧
    ∀ (c : OpenFlowConnection ρ) (data : Bytes), ∃ r, ∀ fuel,
      (c.buffered data).length < fuel → dataReceived unpack put fuel c data = some r := by
  refine ⟨fun ms tail last chunks rx hms hlast htail hne hcut => ?_,
    dataReceived_ends unpack put⟩
  -- 初めは読み残しが無い
  have hempty : Pending [] := .of_short (by simp)
  constructor
  · rintro ⟨parsed, -, hall⟩
    by_contra hunknown
    obtain ⟨known, stop, hsplit, hgood, hr⟩ := exists_refused hms hunknown
    obtain ⟨before, hbefore⟩ := exists_decodes hgood hunpack
    obtain ⟨r, hrun, hends⟩ := receiveAll_messages put hgood hbefore (Or.inr hr) hne
      hempty (hcut.trans hsplit) rx _ (Nat.lt_succ_self _)
    have hok := hall _ (Nat.lt_succ_self _)
    rw [hsplit] at hok
    obtain rfl := Option.some.inj (hrun.symm.trans hok)
    rcases hends with ⟨hp, -⟩ | ⟨-, buffer, he⟩
    · exact hr.not_pending hp
    · cases he
  · rintro ⟨hknown, htailKnown⟩
    have hgood : ∀ m ∈ ms, Framed m ∧ KnownVersion m := fun m hm => ⟨hms m hm, hknown m hm⟩
    obtain ⟨parsed, hparsed⟩ := exists_decodes hgood hunpack
    have hp := Pending.of_properPrefix hlast htail htailKnown
    refine ⟨parsed, hparsed, fun fuel hf => ?_⟩
    obtain ⟨r, hrun, hends⟩ := receiveAll_messages put hgood hparsed (Or.inl hp) hne
      hempty hcut rx fuel hf
    rcases hends with ⟨-, rfl⟩ | ⟨hr, -⟩
    · exact hrun
    · exact absurd hp hr.not_pending

/-- hello と echo request が、header の途中で切れて届く。本体の無い message なので、header だけを読む。 -/
theorem reassembly_ignores_segmentation_echo :
    let hello : Bytes := [4, 0, 0, 8, 0, 0, 0, 1]
    let echo : Bytes := [4, 2, 0, 8, 0, 0, 0, 2]
    let unpack : Nat → Bytes → Except ReceiveError Header := fun _ => parseHeader
    ∃ parsed, List.Forall₂ (Decodes unpack) [hello, echo] parsed ∧
      receiveAll unpack (fun rx msg => rx ++ [msg]) 20 ⟨none, []⟩
          [[4, 0, 0], [8, 0, 0, 0, 1, 4, 2], [0, 8, 0, 0, 0, 2, 4, 2, 0]]
        = some (.ok (), ⟨some [4, 2, 0], parsed.foldl (fun rx msg => rx ++ [msg]) []⟩) := by
  intro hello echo unpack
  have hhello : Framed hello := ⟨by decide, ⟨4, 0, 8, 1⟩, by decide, by decide⟩
  have hecho : Framed echo := ⟨by decide, ⟨4, 2, 8, 2⟩, by decide, by decide⟩
  have hknown : ∀ m ∈ [hello, echo], KnownVersion m := by
    intro m hm header hh
    simp only [List.mem_cons, List.not_mem_nil, or_false] at hm
    rcases hm with rfl | rfl <;> cases hh <;> decide
  have hms : ∀ m ∈ [hello, echo], Framed m := by
    intro m hm
    simp only [List.mem_cons, List.not_mem_nil, or_false] at hm
    rcases hm with rfl | rfl
    · exact hhello
    · exact hecho
  obtain ⟨parsed, hparsed, hall⟩ := ((reassembly_ignores_segmentation_iff unpack
    (fun _ _ _ h => parseHeader_ok h) (fun rx msg => rx ++ [msg])).1 [hello, echo] [4, 2, 0] echo
    [[4, 0, 0], [8, 0, 0, 0, 1, 4, 2], [0, 8, 0, 0, 0, 2, 4, 2, 0]] [] hms hecho
    ⟨[8, 0, 0, 0, 2], by decide, rfl⟩ (by decide) (by decide)).mpr
    ⟨hknown, (Pending.of_short (by decide)).known⟩
  exact ⟨parsed, hparsed, hall 20 (by decide)⟩

/-- 1.5 の hello が届くと、`loxi.protocol` の例外で抜け、後に続く echo request も渡らない。 -/
theorem hello_of_unknown_version_refused :
    let hello : Bytes := [6, 0, 0, 8, 0, 0, 0, 1]
    let echo : Bytes := [4, 2, 0, 8, 0, 0, 0, 2]
    let unpack : Nat → Bytes → Except ReceiveError Header := fun _ => parseHeader
    let put : List Header → Header → List Header := fun rx msg => rx ++ [msg]
    (∀ m ∈ [hello, echo], Framed m) ∧
      receiveAll unpack put 20 ⟨none, []⟩ [hello ++ echo]
        = some (.error .valueError, ⟨none, []⟩) ∧
      ¬∃ parsed, List.Forall₂ (Decodes unpack) [hello, echo] parsed ∧
        ∀ fuel, ([hello, echo].flatten ++ []).length < fuel →
          receiveAll unpack put fuel ⟨none, []⟩ [hello ++ echo]
            = some (.ok (), ⟨remaining [], parsed.foldl put []⟩) := by
  intro hello echo unpack put
  have hrun : receiveAll unpack put 20 ⟨none, []⟩ [hello ++ echo]
      = some (.error .valueError, ⟨none, []⟩) := rfl
  refine ⟨?_, hrun, ?_⟩
  · intro m hm
    simp only [List.mem_cons, List.not_mem_nil, or_false] at hm
    rcases hm with rfl | rfl
    · exact ⟨by decide, ⟨6, 0, 8, 1⟩, by decide, by decide⟩
    · exact ⟨by decide, ⟨4, 2, 8, 2⟩, by decide, by decide⟩
  · rintro ⟨parsed, -, hall⟩
    have hok := hall 20 (by decide)
    rw [hrun] at hok
    cases hok

end Voltha.Ofagent
