import Mathlib.Data.List.Forall2
import Voltha.Netconf.NcProtocolHandler

/-!
# rpc ごとの応答と、閉じた後の沈黙

一つの message の rpc に、順に一つずつ応答が返り、session が閉じた後は何も動かず何も送られない。
そうなるのは、次の二つが揃うときに限る。

* 閉じる rpc までは、どれも handler が書ける応答を返す（接続が切れた rpc と、1.0 で `BadMsg` の rpc には
  応答が無い）。応答の文字列が ASCII でなければ、書く前に例外が飛ぶ
* 閉じた後は、loop が例外で止まるまで、handler のある rpc が無い

閉じても loop は止まらないので、二つ目の条件が要る。

ASCII でない byte のある message は読まれず、応答は一つも返らない。
-/

namespace Voltha.Netconf

variable {N : Type} {tounicode : Reply N → Text} {f : Bool} {rpc : Rpc N} {rpcs : List (Rpc N)}
  {h h' : Handler N}

/-! ## rpc の種類 -/

namespace Rpc

/-- handler がある。 -/
def runs (rpc : Rpc N) : Bool :=
  match rpc.lookup with
  | .handler _ _ => true
  | _ => false

/-- 待つ間に接続が切れる。 -/
def losesConnection (rpc : Rpc N) : Bool :=
  match rpc.lookup with
  | .handler lost _ => lost
  | _ => false

/-- 読めない rpc である。 -/
def isMalformed (rpc : Rpc N) : Bool :=
  match rpc.lookup with
  | .badMsg => true
  | .handler _ (.raised .badMsg) => true
  | _ => false

/-- session を閉じる応答を返す。 -/
def asksToClose (rpc : Rpc N) : Bool :=
  match rpc.lookup with
  | .handler _ (.response _ closeSession) => closeSession
  | _ => false

/-- 応答の無いまま session が閉じる。 -/
def closesSilently (f : Bool) (rpc : Rpc N) : Bool :=
  rpc.losesConnection || (rpc.isMalformed && !f)

/-- session を閉じる。 -/
def closes (f : Bool) (rpc : Rpc N) : Bool := rpc.closesSilently f || rpc.asksToClose

/-- handler が書ける応答を返す。応答の文字列は ASCII でなければならない。 -/
def isAnswered (tounicode : Reply N → Text) (rpc : Rpc N) : Bool :=
  match rpc.lookup with
  | .handler false (.response (some node) _) => Ascii.chars (tounicode ⟨rpc.attrib, node⟩)
  | _ => false

end Rpc

/-- 初めに session を閉じる rpc まで。 -/
def upToClose (f : Bool) : List (Rpc N) → List (Rpc N)
  | [] => []
  | rpc :: rpcs => if rpc.closes f then [rpc] else rpc :: upToClose f rpcs

/-- 応答を返すべき rpc。 -/
def owed (f : Bool) (rpcs : List (Rpc N)) : List (Rpc N) :=
  (upToClose f rpcs).filter fun rpc => !rpc.closesSilently f

/-- `reply` は `rpc` への応答である。handler の応答があれば、その中身を運ぶ。 -/
def Answers (rpc : Rpc N) (reply : Reply N) : Prop :=
  reply.attrib = rpc.attrib ∧
    ∀ lost node close, rpc.lookup = .handler lost (.response (some node) close) → reply.node = node

/--
`rpcs` を処理して `h` から `h'` になる間に、応答を返すべき rpc に順に一つずつ返し、閉じる rpc より後の
handler は動かない。
-/
structure OneReplyEach (f : Bool) (rpcs : List (Rpc N)) (h h' : Handler N) : Prop where
  sent : ∃ replies, h'.sent = h.sent ++ replies ∧ List.Forall₂ Answers (owed f rpcs) replies
  executed : ∃ ran, h'.executed = h.executed ++ ran ∧ ran <+: (upToClose f rpcs).filter Rpc.runs

/-- loop が例外で止まるまで、handler が動かない。 -/
def Inert (f : Bool) : List (Rpc N) → Prop
  | [] => True
  | rpc :: rpcs => rpc.runs = false ∧ (rpc.isMalformed = true → f = false → Inert f rpcs)

/-- 応答と沈黙の条件。 -/
def Meets (tounicode : Reply N → Text) (f : Bool) : List (Rpc N) → Prop
  | [] => True
  | rpc :: rpcs =>
    (rpc.isAnswered tounicode = true ∨ rpc.closesSilently f = true) ∧
      if rpc.closes f then
        -- 接続が切れて応答を書けなければ、例外で loop が止まる
        rpc.isAnswered tounicode = true ∨ (rpc.isMalformed = true ∧ f = false) → Inert f rpcs
      else Meets tounicode f rpcs

/-! ## 一つの rpc -/

namespace Handler

@[simp] theorem close_newFraming : h.close.newFraming = h.newFraming := by
  unfold close; split <;> rfl

@[simp] theorem close_connected : h.close.connected = h.connected := by
  unfold close; split <;> rfl

@[simp] theorem close_executed : h.close.executed = h.executed := by
  unfold close; split <;> rfl

@[simp] theorem close_sent : h.close.sent = h.sent := by
  unfold close; split <;> rfl

@[simp] theorem connectionLost_newFraming : h.connectionLost.newFraming = h.newFraming := by
  unfold connectionLost; split <;> simp

@[simp] theorem connectionLost_connected : h.connectionLost.connected = false := by
  unfold connectionLost; split <;> simp

@[simp] theorem connectionLost_executed : h.connectionLost.executed = h.executed := by
  unfold connectionLost; split <;> simp

@[simp] theorem connectionLost_sent : h.connectionLost.sent = h.sent := by
  unfold connectionLost; split <;> simp

/-- `rpc` の handler が動き始め、待ち終えたとき。 -/
def resumed (h : Handler N) (rpc : Rpc N) (lost : Bool) : Handler N :=
  let started := { h with executed := h.executed ++ [rpc] }
  if lost then started.connectionLost else started

@[simp] theorem resumed_newFraming {lost : Bool} :
    (h.resumed rpc lost).newFraming = h.newFraming := by
  cases lost <;> simp [resumed]

@[simp] theorem resumed_executed {lost : Bool} :
    (h.resumed rpc lost).executed = h.executed ++ [rpc] := by
  cases lost <;> simp [resumed]

@[simp] theorem resumed_sent {lost : Bool} : (h.resumed rpc lost).sent = h.sent := by
  cases lost <;> simp [resumed]

@[simp] theorem resumed_connected {lost : Bool} :
    (h.resumed rpc lost).connected = (h.connected && !lost) := by
  cases lost <;> simp [resumed]

end Handler

theorem execute_apply {lost : Bool} {result : Executed N} : execute rpc lost result h =
    match result with
    | .response node closeSession => (.ok (some (node, closeSession)), h.resumed rpc lost)
    | .nothing => (.ok none, h.resumed rpc lost)
    | .raised e => (.error e, h.resumed rpc lost) := by
  cases lost <;> cases result <;> rfl

theorem exceptRpc_malformed (hf : h.newFraming = false) :
    exceptRpc tounicode rpc .badMsg h = (.ok (), h.close) := by
  simp [exceptRpc, hf]

/-- 1.0 の `BadMsg` の他は、応答を作るところで例外が飛ぶ。 -/
theorem exceptRpc_escapes {e : NcError} (he : e = .badMsg → h.newFraming = true) :
    exceptRpc tounicode rpc e h = (.error .attributeError, h) := by
  cases e with
  | badMsg => simp [exceptRpc, he, getReplyMsg]
  | _ => rfl

theorem ascii_header (s : Text) : Ascii.chars (XML_HEADER ++ s) = Ascii.chars s := by
  rw [Ascii.chars_append, show Ascii.chars XML_HEADER = true by decide, Bool.true_and]

/-- つながっていて文字列が ASCII なら、応答は送られる。 -/
theorem sendMessage_ascii (hc : h.connected = true) {msg : Reply N}
    (ha : Ascii.chars (tounicode msg) = true) :
    sendMessage tounicode msg h = (.ok (), { h with sent := h.sent ++ [msg] }) := by
  have hsend := sendMsg_ascii ((ascii_header _).trans ha) MAXSSHBUF h.newFraming
  simp [sendMessage, hc, hsend]

/-- そうでなければ例外が飛び、応答は送られない。 -/
theorem sendMessage_fails {msg : Reply N}
    (hn : h.connected = false ∨ Ascii.chars (tounicode msg) = false) :
    ∃ e, sendMessage tounicode msg h = (.error e, h) ∧ e ≠ .badMsg := by
  cases hc : h.connected with
  | false => exact ⟨.assertionError, by simp [sendMessage, sendMsg, hc], by simp⟩
  | true =>
    have ha : Ascii.chars (tounicode msg) = false := by simpa [hc] using hn
    have hsend := sendMsg_fails ((ascii_header _).trans ha) MAXSSHBUF h.newFraming
    exact ⟨.unicodeEncodeError, by simp [sendMessage, hc, hsend], by simp⟩

/-- handler が動いた後に、例外が飛ぶ。 -/
theorem tryRpc_fails {lost : Bool} {result : Executed N} (hl : rpc.lookup = .handler lost result)
    (ha : h.connected = true → rpc.isAnswered tounicode = false) :
    ∃ e, tryRpc tounicode rpc h = (.error e, h.resumed rpc lost) ∧
      (e = .badMsg ↔ rpc.isMalformed = true) := by
  unfold tryRpc
  simp only [hl]
  cases result with
  | raised e =>
    refine ⟨e, Exec.bind_error execute_apply, ?_⟩
    cases e <;> simp [Rpc.isMalformed, hl]
  | nothing =>
    rw [Exec.bind_ok execute_apply]
    exact ⟨.attributeError, rfl, by simp [Rpc.isMalformed, hl]⟩
  | response node closeSession =>
    rw [Exec.bind_ok execute_apply]
    cases node with
    | none => exact ⟨.typeError, rfl, by simp [Rpc.isMalformed, hl]⟩
    | some node =>
      have hn : (h.resumed rpc lost).connected = false ∨
          Ascii.chars (tounicode ⟨rpc.attrib, node⟩) = false := by
        cases lost with
        | true => simp
        | false =>
          cases hc : h.connected with
          | false => simp [hc]
          | true => exact Or.inr (by simpa [Rpc.isAnswered, hl] using ha hc)
      obtain ⟨e, hsend, he⟩ := sendMessage_fails hn
      exact ⟨e, Exec.bind_error hsend, by simp [Rpc.isMalformed, hl, he]⟩

/-- 書ける応答は送られ、閉じる応答なら `close` する。 -/
theorem handleRpc_answered (ha : rpc.isAnswered tounicode = true) (hc : h.connected = true) :
    ∃ h' reply, handleRpc tounicode rpc h = (.ok (), h') ∧ Answers rpc reply ∧
      h'.sent = h.sent ++ [reply] ∧ h'.executed = h.executed ++ [rpc] ∧
      h'.newFraming = h.newFraming ∧ h'.connected = true := by
  unfold Rpc.isAnswered at ha
  split at ha
  · next node closeSession hl =>
    have hc' : (h.resumed rpc false).connected = true := by simp [hc]
    have hsend : sendRpcReply tounicode (some node) rpc (h.resumed rpc false) = (.ok (),
        { h.resumed rpc false with
          sent := (h.resumed rpc false).sent ++ [⟨rpc.attrib, node⟩] }) :=
      sendMessage_ascii hc' ha
    have htry : tryRpc tounicode rpc h
        = (do if closeSession then Exec.modify Handler.close : Serve N Unit)
        { h.resumed rpc false with
          sent := (h.resumed rpc false).sent ++ [⟨rpc.attrib, node⟩] } := by
      unfold tryRpc
      simp only [hl]
      rw [Exec.bind_ok execute_apply]
      exact Exec.bind_ok hsend
    have hans : Answers rpc ⟨rpc.attrib, node⟩ := by
      refine ⟨rfl, fun lost node' close hl' => ?_⟩
      rw [hl] at hl'
      cases hl'
      rfl
    cases closeSession with
    | false => exact ⟨_, _, Exec.tryExcept_ok htry, hans, by simp, by simp, by simp, by simp [hc]⟩
    | true => exact ⟨_, _, Exec.tryExcept_ok htry, hans, by simp, by simp, by simp, by simp [hc]⟩
  · cases ha

/-- 1.0 の `BadMsg` では、`close` して先へ進む。 -/
theorem handleRpc_malformed (hm : rpc.isMalformed = true) (hf : h.newFraming = false) :
    ∃ h', handleRpc tounicode rpc h = (.ok (), h') ∧ h'.sent = h.sent ∧
      h'.executed = h.executed ++ (if rpc.runs then [rpc] else []) ∧
      h'.newFraming = h.newFraming := by
  cases hl : rpc.lookup with
  | none => simp [Rpc.isMalformed, hl] at hm
  | badMsg =>
    have htry : tryRpc tounicode rpc h = (.error .badMsg, h) := by
      unfold tryRpc
      simp [hl]
    refine ⟨h.close, ?_, by simp, by simp [Rpc.runs, hl], by simp⟩
    exact (Exec.tryExcept_error htry).trans (exceptRpc_malformed hf)
  | handler lost result =>
    have hna : rpc.isAnswered tounicode = false := by
      unfold Rpc.isMalformed at hm
      unfold Rpc.isAnswered
      rw [hl] at hm ⊢
      cases result with
      | response => cases hm
      | _ => cases lost <;> rfl
    obtain ⟨e, htry, he⟩ := tryRpc_fails (h := h) hl fun _ => hna
    obtain rfl := he.mpr hm
    refine ⟨(h.resumed rpc lost).close, ?_, by simp, by simp [Rpc.runs, hl], by simp⟩
    exact (Exec.tryExcept_error htry).trans (exceptRpc_malformed (by simpa using hf))

/-- 他の rpc では、例外が loop の外へ抜ける。 -/
theorem handleRpc_escapes (ha : h.connected = true → rpc.isAnswered tounicode = false)
    (hm : rpc.isMalformed = true → h.newFraming = true) :
    ∃ h', handleRpc tounicode rpc h = (.error .attributeError, h') ∧ h'.sent = h.sent ∧
      h'.executed = h.executed ++ if rpc.runs then [rpc] else [] := by
  cases hl : rpc.lookup with
  | none =>
    have htry : tryRpc tounicode rpc h = (.error .attributeError, h) := by
      unfold tryRpc
      simp [hl, newRpcError]
    refine ⟨h, ?_, rfl, by simp [Rpc.runs, hl]⟩
    exact (Exec.tryExcept_error htry).trans (exceptRpc_escapes nofun)
  | badMsg =>
    have htry : tryRpc tounicode rpc h = (.error .badMsg, h) := by
      unfold tryRpc
      simp [hl]
    have hmal : rpc.isMalformed = true := by simp [Rpc.isMalformed, hl]
    refine ⟨h, ?_, rfl, by simp [Rpc.runs, hl]⟩
    exact (Exec.tryExcept_error htry).trans (exceptRpc_escapes fun _ => hm hmal)
  | handler lost result =>
    obtain ⟨e, htry, he⟩ := tryRpc_fails hl ha
    refine ⟨h.resumed rpc lost, ?_, by simp, by simp [Rpc.runs, hl]⟩
    exact (Exec.tryExcept_error htry).trans
      (exceptRpc_escapes fun h' => by simpa using hm (he.mp h'))

/-! ## loop -/

theorem handleRpcs_cons_ok (hr : handleRpc tounicode rpc h = (.ok (), h')) :
    handleRpcs tounicode (rpc :: rpcs) h = handleRpcs tounicode rpcs h' := Exec.bind_ok hr

theorem handleRpcs_cons_error {e : NcError} (hr : handleRpc tounicode rpc h = (.error e, h')) :
    handleRpcs tounicode (rpc :: rpcs) h = (.error e, h') := Exec.bind_error hr

/-- 書けて進むか、閉じて進むか、抜けるかのどれかである。 -/
theorem rpc_cases (tounicode : Reply N → Text) (rpc : Rpc N) (h : Handler N) :
    (rpc.isAnswered tounicode = true ∧ h.connected = true) ∨
      (rpc.isMalformed = true ∧ h.newFraming = false) ∨
      (h.connected = true → rpc.isAnswered tounicode = false) ∧
        (rpc.isMalformed = true → h.newFraming = true) := by
  by_cases ha : rpc.isAnswered tounicode = true ∧ h.connected = true
  · exact Or.inl ha
  · by_cases hm : rpc.isMalformed = true ∧ h.newFraming = false
    · exact Or.inr (Or.inl hm)
    · exact Or.inr (Or.inr ⟨fun hc => by simpa [hc] using ha, fun h' => by simpa [h'] using hm⟩)

theorem runs_of_isAnswered (ha : rpc.isAnswered tounicode = true) : rpc.runs = true := by
  unfold Rpc.isAnswered at ha
  split at ha
  · next hl => simp [Rpc.runs, hl]
  · cases ha

/-- 動いた handler と送った応答は、消えない。 -/
theorem handleRpcs_extends (tounicode : Reply N → Text) (rpcs : List (Rpc N)) (h : Handler N) :
    h.executed <+: (handleRpcs tounicode rpcs h).2.executed ∧
      h.sent <+: (handleRpcs tounicode rpcs h).2.sent := by
  induction rpcs generalizing h with
  | nil => exact ⟨List.prefix_refl _, List.prefix_refl _⟩
  | cons rpc rpcs ih =>
    rcases rpc_cases tounicode rpc h with ⟨ha, hc⟩ | ⟨hm, hf⟩ | ⟨ha, hm⟩
    · obtain ⟨h₁, reply, hr, -, hs, he, -, -⟩ := handleRpc_answered ha hc
      obtain ⟨ihe, ihs⟩ := ih h₁
      rw [handleRpcs_cons_ok hr]
      rw [he] at ihe
      rw [hs] at ihs
      exact ⟨(List.prefix_append _ _).trans ihe, (List.prefix_append _ _).trans ihs⟩
    · obtain ⟨h₁, hr, hs, he, -⟩ := handleRpc_malformed hm hf
      obtain ⟨ihe, ihs⟩ := ih h₁
      rw [handleRpcs_cons_ok hr]
      rw [he] at ihe
      rw [hs] at ihs
      exact ⟨(List.prefix_append _ _).trans ihe, ihs⟩
    · obtain ⟨h₁, hr, hs, he⟩ := handleRpc_escapes ha hm
      rw [handleRpcs_cons_error hr]
      simp [hs, he]

/-- handler が動かないのは、`Inert` のときに限る。 -/
theorem inert_iff (tounicode : Reply N → Text) (rpcs : List (Rpc N)) (h : Handler N) :
    Inert h.newFraming rpcs ↔ (handleRpcs tounicode rpcs h).2.executed = h.executed := by
  induction rpcs generalizing h with
  | nil => exact iff_of_true trivial rfl
  | cons rpc rpcs ih =>
    rcases rpc_cases tounicode rpc h with ⟨ha, hc⟩ | ⟨hm, hf⟩ | ⟨ha, hm⟩
    · obtain ⟨h₁, reply, hr, -, -, he, -, -⟩ := handleRpc_answered ha hc
      have hext := (handleRpcs_extends tounicode rpcs h₁).1.length_le
      rw [handleRpcs_cons_ok hr]
      rw [he, List.length_append] at hext
      refine iff_of_false (fun hi => ?_) fun heq => ?_
      · rw [Inert, runs_of_isAnswered ha] at hi
        exact Bool.noConfusion hi.1
      · simp only [heq, List.length_singleton] at hext
        omega
    · obtain ⟨h₁, hr, -, he, hnf⟩ := handleRpc_malformed hm hf
      rw [handleRpcs_cons_ok hr, Inert]
      cases hruns : rpc.runs with
      | false =>
        rw [hruns] at he
        have ih' := ih h₁
        rw [hnf, hf, he] at ih'
        simpa [hm, hf] using ih'
      | true =>
        have hext := (handleRpcs_extends tounicode rpcs h₁).1.length_le
        rw [hruns] at he
        refine iff_of_false (fun hi => Bool.noConfusion hi.1) fun heq => ?_
        simp only [heq, he, if_true, List.length_append, List.length_singleton] at hext
        omega
    · obtain ⟨h₁, hr, -, he⟩ := handleRpc_escapes ha hm
      rw [handleRpcs_cons_error hr, Inert, he]
      cases hruns : rpc.runs with
      | false => simpa using fun h₁ h₂ => absurd (hm h₁) (by simp [h₂])
      | true => simp

theorem inert_sent (tounicode : Reply N → Text) (rpcs : List (Rpc N)) (h : Handler N)
    (hi : Inert h.newFraming rpcs) :
    (handleRpcs tounicode rpcs h).2.sent = h.sent := by
  induction rpcs generalizing h with
  | nil => rfl
  | cons rpc rpcs ih =>
    obtain ⟨hruns, hrest⟩ := hi
    rcases rpc_cases tounicode rpc h with ⟨ha, hc⟩ | ⟨hm, hf⟩ | ⟨ha, hm⟩
    · rw [runs_of_isAnswered ha] at hruns
      cases hruns
    · obtain ⟨h₁, hr, hs, -, hnf⟩ := handleRpc_malformed hm hf
      rw [handleRpcs_cons_ok hr, ih h₁ (hnf ▸ hrest hm hf), hs]
    · obtain ⟨h₁, hr, hs, -⟩ := handleRpc_escapes ha hm
      rw [handleRpcs_cons_error hr, hs]

/-! ## 応答と沈黙 -/

/-- 閉じた rpc より後に動いたものが無ければ、残りは `Inert` である。 -/
theorem inert_of_prefix {h₁ : Handler N} {ran done : List (Rpc N)}
    (he : h₁.executed = h.executed ++ done) (hpre : ran <+: done)
    (hex : (handleRpcs tounicode rpcs h₁).2.executed = h.executed ++ ran) :
    Inert h₁.newFraming rpcs := by
  refine (inert_iff tounicode rpcs h₁).mpr ?_
  have hext := (handleRpcs_extends tounicode rpcs h₁).1
  refine (hext.eq_of_length_le ?_).symm
  rw [hex, he, List.length_append, List.length_append]
  exact Nat.add_le_add_left hpre.length_le _

theorem not_silent_of_answered (ha : rpc.isAnswered tounicode = true) :
    rpc.closesSilently f = false := by
  unfold Rpc.isAnswered at ha
  split at ha
  · next hl => simp [Rpc.closesSilently, Rpc.losesConnection, Rpc.isMalformed, hl]
  · cases ha

/-- 応答すべき rpc が残れば、何も送らないままではいけない。 -/
theorem not_oneReplyEach {h₁ : Handler N} (hs : h₁.sent = h.sent)
    (hsilent : rpc.closesSilently f = false) : ¬OneReplyEach f (rpc :: rpcs) h h₁ := by
  rintro ⟨⟨replies, hsent, hall⟩, -⟩
  have hnil : replies = [] := by
    rw [hs] at hsent
    exact List.self_eq_append_right.mp hsent
  subst hnil
  unfold owed upToClose at hall
  split at hall
  · simp [hsilent] at hall
  · simp [hsilent] at hall

/-- 閉じる rpc の後に loop が続くなら、残りが動かないことが要る。 -/
theorem oneReplyEach_closing {h₁ : Handler N} {replies : List (Reply N)}
    (hclose : rpc.closes f = true) (hf : h₁.newFraming = f)
    (hs : h₁.sent = h.sent ++ replies)
    (hall : List.Forall₂ Answers (if rpc.closesSilently f then [] else [rpc]) replies)
    (he : h₁.executed = h.executed ++ if rpc.runs then [rpc] else []) :
    OneReplyEach f (rpc :: rpcs) h (handleRpcs tounicode rpcs h₁).2 ↔ Inert f rpcs := by
  have hup : upToClose f (rpc :: rpcs) = [rpc] := by
    rw [upToClose, if_pos hclose]
  constructor
  · rintro ⟨-, ran, hex, hpre⟩
    rw [hup, List.filter_singleton, Bool.cond_eq_ite] at hpre
    rw [← hf]
    exact inert_of_prefix he hpre hex
  · intro hi
    have hsent := inert_sent tounicode rpcs h₁ (hf ▸ hi)
    have hex := (inert_iff tounicode rpcs h₁).mp (hf ▸ hi)
    refine ⟨⟨replies, hsent.trans hs, ?_⟩, _, hex.trans he, ?_⟩
    · rw [owed, hup, List.filter_singleton]
      cases hsilent : rpc.closesSilently f <;> simpa [hsilent] using hall
    · simp [hup, List.filter_singleton, Bool.cond_eq_ite]

/-- 閉じない rpc が応答されれば、残りについて同じことを言えばよい。 -/
theorem oneReplyEach_cons {h₁ : Handler N} {reply : Reply N} (hclose : rpc.closes f = false)
    (ha : Answers rpc reply) (hruns : rpc.runs = true) (hs : h₁.sent = h.sent ++ [reply])
    (he : h₁.executed = h.executed ++ [rpc]) :
    OneReplyEach f (rpc :: rpcs) h (handleRpcs tounicode rpcs h₁).2
      ↔ OneReplyEach f rpcs h₁ (handleRpcs tounicode rpcs h₁).2 := by
  have hup : upToClose f (rpc :: rpcs) = rpc :: upToClose f rpcs := by
    rw [upToClose, if_neg (by simp [hclose])]
  have hsilent : rpc.closesSilently f = false := by
    unfold Rpc.closes at hclose
    exact (Bool.or_eq_false_iff.mp hclose).1
  have howed : owed f (rpc :: rpcs) = rpc :: owed f rpcs := by
    rw [owed, hup, List.filter_cons_of_pos (by simp [hsilent]), owed]
  obtain ⟨⟨ran, hran⟩, ⟨replies, hreplies⟩⟩ := handleRpcs_extends tounicode rpcs h₁
  constructor
  · rintro ⟨⟨replies', hsent, hall⟩, ran', hex, hpre⟩
    rw [← hreplies, hs, List.append_assoc, List.append_cancel_left_eq] at hsent
    rw [← hran, he, List.append_assoc, List.append_cancel_left_eq] at hex
    subst hsent hex
    rw [howed] at hall
    rw [hup, List.filter_cons_of_pos hruns] at hpre
    refine ⟨⟨replies, hreplies.symm, ?_⟩, ran, hran.symm, ?_⟩
    · exact (List.forall₂_cons.mp hall).2
    · exact (List.cons_prefix_cons.mp hpre).2
  · rintro ⟨⟨replies', hsent, hall⟩, ran', hex, hpre⟩
    rw [hs, List.append_assoc] at hsent
    rw [he, List.append_assoc] at hex
    refine ⟨⟨_, hsent, ?_⟩, _, hex, ?_⟩
    · rw [howed]
      exact List.forall₂_cons.mpr ⟨ha, hall⟩
    · rw [hup, List.filter_cons_of_pos hruns]
      exact List.cons_prefix_cons.mpr ⟨rfl, hpre⟩

theorem handleRpcs_iff (rpcs : List (Rpc N)) (h : Handler N) (hc : h.connected = true) :
    OneReplyEach h.newFraming rpcs h (handleRpcs tounicode rpcs h).2
      ↔ Meets tounicode h.newFraming rpcs := by
  induction rpcs generalizing h with
  | nil =>
    refine iff_of_true ⟨⟨[], ?_, .nil⟩, [], ?_, List.nil_prefix⟩ trivial
    · simp [handleRpcs]
    · simp [handleRpcs]
  | cons rpc rpcs ih =>
    cases hclose : rpc.closes h.newFraming with
    | true =>
      rw [Meets, if_pos hclose]
      rcases rpc_cases tounicode rpc h with ⟨ha, -⟩ | ⟨hm, hf⟩ | ⟨ha, hm⟩
      · obtain ⟨h₁, reply, hr, hans, hs, he, hnf, -⟩ := handleRpc_answered ha hc
        have hall : List.Forall₂ Answers
            (if rpc.closesSilently h.newFraming then [] else [rpc]) [reply] := by
          simpa [not_silent_of_answered ha] using hans
        rw [handleRpcs_cons_ok hr,
          oneReplyEach_closing hclose hnf hs hall (by simp [he, runs_of_isAnswered ha])]
        simp [ha]
      · obtain ⟨h₁, hr, hs, he, hnf⟩ := handleRpc_malformed hm hf
        have hsilent : rpc.closesSilently h.newFraming = true := by
          simp [Rpc.closesSilently, hm, hf]
        have hall : List.Forall₂ Answers
            (if rpc.closesSilently h.newFraming then [] else [rpc]) [] := by
          simp [hsilent]
        rw [handleRpcs_cons_ok hr, oneReplyEach_closing hclose hnf (by simp [hs]) hall he]
        rw [hf] at hsilent ⊢
        simp [hsilent, hm]
      · obtain ⟨h₁, hr, hs, he⟩ := handleRpc_escapes ha hm
        rw [handleRpcs_cons_error hr]
        cases hsilent : rpc.closesSilently h.newFraming with
        | false => exact iff_of_false (not_oneReplyEach hs hsilent) (by simp [ha hc])
        | true =>
          refine iff_of_true ⟨⟨[], by simp [hs], ?_⟩, _, he, ?_⟩ ⟨Or.inr rfl, ?_⟩
          · simp [owed, upToClose, hclose, hsilent]
          · simp [upToClose, hclose, List.filter_singleton, Bool.cond_eq_ite]
          · rintro (h' | ⟨h', hf⟩)
            · rw [ha hc] at h'
              cases h'
            · rw [hm h'] at hf
              cases hf
    | false =>
      have hsilent : rpc.closesSilently h.newFraming = false := by
        unfold Rpc.closes at hclose
        exact (Bool.or_eq_false_iff.mp hclose).1
      rw [Meets, if_neg (by simp [hclose])]
      rcases rpc_cases tounicode rpc h with ⟨ha, -⟩ | ⟨hm, hf⟩ | ⟨ha, hm⟩
      · obtain ⟨h₁, reply, hr, hans, hs, he, hnf, hc₁⟩ := handleRpc_answered ha hc
        have ih' := ih h₁ hc₁
        rw [hnf] at ih'
        rw [handleRpcs_cons_ok hr, oneReplyEach_cons hclose hans (runs_of_isAnswered ha) hs he, ih']
        simp [ha]
      · simp [Rpc.closesSilently, hm, hf] at hsilent
      · obtain ⟨h₁, hr, hs, he⟩ := handleRpc_escapes ha hm
        rw [handleRpcs_cons_error hr]
        exact iff_of_false (not_oneReplyEach hs hsilent) (by simp [ha hc, hsilent])

/-- 開いている session。 -/
structure Handler.IsOpen (h : Handler N) : Prop where
  sessionOpened : h.sessionOpened = true
  connected : h.connected = true
  exiting : h.exiting = false
  connExiting : h.connExiting = false

/-- 何も動かず何も送られないままで足りるのは、応答すべき rpc が無いときである。 -/
theorem oneReplyEach_self : OneReplyEach f rpcs h h ↔ owed f rpcs = [] := by
  constructor
  · rintro ⟨⟨replies, hsent, hall⟩, -⟩
    obtain rfl := List.self_eq_append_right.mp hsent
    cases hall' : owed f rpcs with
    | nil => rfl
    | cons => simp [hall'] at hall
  · intro hnil
    exact ⟨⟨[], by simp, by simp [hnil]⟩, [], by simp, List.nil_prefix⟩

/--
**rpc ごとに応答が一つ返り、閉じた後は沈黙する** のは、message が ASCII なら、閉じる rpc までのどれもが
書ける応答を得て、その後に handler のある rpc が残らないときに限る。ASCII でない message は
読まれないので、応答すべき rpc が無いときに限る。
-/
theorem handleRequest_oneReplyEach_iff (tounicode : Reply N → Text) (bytes : List UInt8)
    (rpcs : List (Rpc N)) (h : Handler N) (ho : h.IsOpen) :
    OneReplyEach h.newFraming rpcs h (handleRequest tounicode ⟨bytes, some rpcs⟩ h).2 ↔
      if Ascii.bytes bytes then Meets tounicode h.newFraming rpcs
      else owed h.newFraming rpcs = [] := by
  have hopen := ho.sessionOpened
  by_cases hascii : Ascii.bytes bytes = true
  · rw [if_pos hascii]
    have hencodes : (⟨bytes, some rpcs⟩ : Message N).encodes = true := hascii
    have hrequire := Exec.require_pos (e := NcError.unicodeDecodeError) hencodes h
    cases rpcs with
    | nil =>
      have hempty : handleRequest tounicode ⟨bytes, some []⟩ h = (.error .sessionError, h) := by
        simp only [handleRequest, Exec.read_bind_apply, hopen, if_true]
        exact Exec.bind_ok hrequire
      rw [hempty]
      exact iff_of_true (oneReplyEach_self.mpr rfl) trivial
    | cons rpc rpcs =>
      have hloop : handleRequest tounicode ⟨bytes, some (rpc :: rpcs)⟩ h
          = handleRpcs tounicode (rpc :: rpcs) h := by
        simp only [handleRequest, Exec.read_bind_apply, hopen, if_true]
        exact Exec.bind_ok hrequire
      rw [hloop]
      exact handleRpcs_iff _ h ho.connected
  · rw [if_neg hascii]
    have hrequire := Exec.require_neg (e := NcError.unicodeDecodeError)
      (show ¬(⟨bytes, some rpcs⟩ : Message N).encodes = true from hascii) h
    have hraise : handleRequest tounicode ⟨bytes, some rpcs⟩ h
        = (.error .unicodeDecodeError, h) := by
      simp only [handleRequest, Exec.read_bind_apply, hopen, if_true]
      exact Exec.bind_error hrequire
    rw [hraise]
    exact oneReplyEach_self

/-- 1.1 の、始まったばかりの session。 -/
def openSession : Handler Text where
  newFraming := true
  sessionOpened := true
  exiting := false
  registered := true
  connected := true
  connExiting := false
  executed := []
  sent := []

/-- 応答の文字列のうち、node の分。 -/
def nodeText (reply : Reply Text) : Text := reply.node

/-- 文字列が wire に載るときの byte。 -/
def utf8 (s : String) : List UInt8 := s.toUTF8.data.toList

/-- 応答が二つ返り、二つ目で閉じる。 -/
theorem handleRequest_oneReplyEach_closing :
    OneReplyEach true
      [⟨[("message-id", "1")], .handler false (.response (some ['d']) false)⟩,
        ⟨[("message-id", "2")], .handler false (.response (some ['o', 'k']) true)⟩]
      openSession (handleRequest nodeText
        ⟨utf8 "<rpc message-id=\"1\"><get/></rpc><rpc message-id=\"2\"><close-session/></rpc>",
          some [⟨[("message-id", "1")], .handler false (.response (some ['d']) false)⟩,
            ⟨[("message-id", "2")], .handler false (.response (some ['o', 'k']) true)⟩]⟩
        openSession).2 := by
  refine (handleRequest_oneReplyEach_iff nodeText _ _ openSession ⟨rfl, rfl, rfl, rfl⟩).mpr ?_
  rw [if_pos (by decide)]
  exact ⟨Or.inl rfl, Or.inl rfl, fun _ => trivial⟩

/--
知らない命令には、応答が返らない。ASCII でない byte のある message の rpc にも、文字列が ASCII でない
応答の rpc にも返らない。
-/
theorem unknown_command_unanswered :
    ¬OneReplyEach true [⟨[("message-id", "1")], .none⟩] openSession
      (handleRequest nodeText ⟨utf8 "<rpc message-id=\"1\"><discard-changes/></rpc>",
        some [⟨[("message-id", "1")], .none⟩]⟩ openSession).2 ∧
    ¬OneReplyEach true [⟨[("message-id", "1")], .handler false (.response (some ['d']) false)⟩]
      openSession (handleRequest nodeText ⟨utf8 "<rpc message-id=\"1\"><!--é--><get/></rpc>",
        some [⟨[("message-id", "1")], .handler false (.response (some ['d']) false)⟩]⟩
        openSession).2 ∧
    ¬OneReplyEach true [⟨[("message-id", "1")], .handler false (.response (some ['é']) false)⟩]
      openSession (handleRequest nodeText ⟨utf8 "<rpc message-id=\"1\"><get/></rpc>",
        some [⟨[("message-id", "1")], .handler false (.response (some ['é']) false)⟩]⟩
        openSession).2 := by
  refine ⟨?_, ?_, ?_⟩
  all_goals
    rintro ⟨⟨replies, hsent, hall⟩, -⟩
    have hnil : replies = [] := (List.nil_append replies).symm.trans hsent.symm
    rw [hnil] at hall
    cases hall

end Voltha.Netconf
