import Voltha.Omci.MessageClasses

/-!
# OMCI の frame

`omci_frame.py` の `OmciFrame` と、`omci_defs.py` の `FixedLenField`。

`omci_message` の field は message の種類ごとに十八あり、どれも同じ名前である。
`message_type` の合うものだけが読み書きし、他は `None` を返す。
手直しした `do_dissect` は、一度読んだ message を `None` で上書きしない。

message は 36 byte に詰め物をして書き、読むときは切り取って詰め物を捨てる。
**frame はいつも 44 byte で、読めば同じ message が戻る**（`frame_roundTrip`）。
-/

namespace Voltha.Omci

open Packet (Fields getfieldval)

/-- `PadField` の詰め物。`align` の倍数になるまで、要るだけ足す。 -/
structure Padding where
  pad : Nat → Bytes → Bytes
  pad_eq : ∀ align s, ∃ n, pad align s = s ++ List.replicate n 0
  dvd : ∀ align s, 0 < align → align ∣ (pad align s).length
  lt : ∀ align s, 0 < align → (pad align s).length < s.length + align

/-- message の packet。`payload` は読み残した `Raw` で、空なら無い。 -/
structure Message where
  cls : MessageClass
  fields : Fields FieldValue
  payload : Bytes

/-- frame の field の値。 -/
inductive FrameValue where
  | value (v : Value)
  | message (m : Message)

/-- `None`。 -/
def FrameValue.absent : FrameValue := .value .none

/-- `fval is not None`。 -/
def FrameValue.isSome : FrameValue → Bool
  | .value .none => false
  | _ => true

abbrev FrameField := Packet.Field FrameValue OmciError

/-- scapy の一つの値の field。 -/
def frameField (F : Scapy) (fld : Fld) : FrameField where
  name := fld.name
  default := .value fld.default
  addfield _ s v :=
    match v with
    | .value v => ofOption .structError (F.addfield fld.kind s v)
    | .message _ => .error .structError
  getfield _ s := do
    let (s, v) ← ofOption .structError (F.getfield fld.kind s)
    pure (s, .value v)

/-- `PacketField(name, None, cls)`。読み残しは `Raw` の payload になる。 -/
def packetField (F : Scapy) (name : String) (cls : MessageClass) : FrameField where
  name := name
  default := .absent
  addfield _ s v :=
    match v with
    | .message m => do
      let body ← Packet.build (m.cls.desc F) m.fields
      pure (s ++ body ++ m.payload)
    | .value _ => .error .typeError
  getfield _ s := do
    let (payload, fields) ← Packet.dissect Packet.put (cls.desc F) s
    pure ([], .message ⟨cls, fields, payload⟩)

/-- 詰め物だけの payload を外す。 -/
def removePadding : FrameValue → FrameValue
  | .message m => if m.payload.filter (· ≠ 0) = [] then .message { m with payload := [] }
    else .message m
  | v => v

/-- `FixedLenField(fld, align)`。書く方は `PadField` のまま。 -/
def fixedLenField (P : Padding) (fld : FrameField) (align : Nat) : FrameField where
  name := fld.name
  default := fld.default
  addfield pkt s v := do
    let sval ← fld.addfield pkt [] v
    pure (s ++ P.pad align sval)
  getfield pkt s := do
    let (remain, val) ← fld.getfield pkt (s.take align)
    pure (remain ++ s.drop align, removePadding val)

namespace OmciFrame

/-- `lambda pkt: pkt.message_type == cls.message_id`。 -/
def hasType (cls : MessageClass) (pkt : Fields FrameValue) : Bool :=
  match pkt "message_type" with
  | some (.value v) => v = .int cls.messageId
  | _ => false

/-- 一つの種類の `omci_message`。 -/
def messageField (F : Scapy) (P : Padding) (cls : MessageClass) : FrameField :=
  (fixedLenField P (packetField F "omci_message" cls) 36).conditional (hasType cls) .absent

def headerFields (F : Scapy) : List FrameField :=
  [frameField F (shortField "transaction_id" (.int 0)),
    frameField F (byteField "message_type" .none),
    frameField F (byteField "omci" (.int 0x0a))]

def trailerField (F : Scapy) : FrameField :=
  frameField F (intField "omci_trailer" (.int 0x00000028))

/-- `fields_desc`。 -/
def fieldsDesc (F : Scapy) (P : Padding) : List FrameField :=
  headerFields F ++ omciMessages.map (messageField F P) ++ [trailerField F]

/-- 手直しした条件。読めなかった値で、前の値を消さない。 -/
def keep : Packet.Store FrameValue := fun fields name v =>
  if v.isSome ∨ fields name = none then Packet.put fields name v else fields

/-- `str(frame)`。 -/
def str (F : Scapy) (P : Padding) (frame : Fields FrameValue) : Except OmciError Bytes :=
  Packet.build (fieldsDesc F P) frame

/-- `do_dissect(s)`。 -/
def doDissect (F : Scapy) (P : Padding) (s : Bytes) : Except OmciError (Bytes × Fields FrameValue) :=
  Packet.dissect keep (fieldsDesc F P) s

end OmciFrame

/-! ## 一つの field -/

section Fields

variable {F : Scapy} {P : Padding}

theorem frameField_roundTrip (fld : Fld) {v : Value} (h : fld.kind.InRange v) :
    ∃ b, b.length = fld.kind.size ∧
      (∀ pkt s, (frameField F fld).addfield pkt s (.value v) = .ok (s ++ b)) ∧
      ∀ pkt rest, (frameField F fld).getfield pkt (b ++ rest) = .ok (rest, .value v) := by
  obtain ⟨b, hb, hget⟩ := F.roundTrip fld.kind v h
  refine ⟨b, F.size _ _ _ hb, fun pkt s => ?_, fun pkt rest => ?_⟩
  · show ofOption .structError (F.addfield fld.kind s v) = _
    rw [F.append, hb]
    rfl
  · show (do
      let (s, v) ← ofOption .structError (F.getfield fld.kind (b ++ rest))
      pure (s, FrameValue.value v)) = _
    rw [hget]
    rfl

/-- 一つの塊に収まる列は、ちょうど一つの塊になる。 -/
theorem length_pad {align : Nat} {s : Bytes} (hpos : 0 < s.length) (hle : s.length ≤ align) :
    (P.pad align s).length = align := by
  have hdvd := P.dvd align s (by omega)
  have hlt := P.lt align s (by omega)
  obtain ⟨n, hn⟩ := P.pad_eq align s
  have hlen : (P.pad align s).length = s.length + n := by
    rw [hn, List.length_append, List.length_replicate]
  obtain ⟨k, hk⟩ := hdvd
  have h1 : k = 1 := by
    rcases k with _ | _ | k
    · omega
    · rfl
    · have hbig : align * 2 ≤ align * (k + 2) := Nat.mul_le_mul_left _ (by omega)
      have heq : align * (k + 1 + 1) = align * (k + 2) := rfl
      omega
  rw [hk, h1, Nat.mul_one]

/-- 範囲の中の message は 36 byte になり、同じ値が、詰め物なしで読める。 -/
theorem message_block {m : MessageClass} (hm : m ∈ omciMessages) {fields : Fields FieldValue}
    (h : m.InRange F fields)
    (hlen : ∀ body, Packet.build (m.desc F) fields = .ok body → body.length ≤ 36) :
    ∃ block fields', block.length = 36 ∧
      (∀ pkt s, (fixedLenField P (packetField F "omci_message" m) 36).addfield pkt s
        (.message ⟨m, fields, []⟩) = .ok (s ++ block)) ∧
      (∀ pkt rest, (fixedLenField P (packetField F "omci_message" m) 36).getfield pkt
        (block ++ rest) = .ok (rest, .message ⟨m, fields', []⟩)) ∧
      ∀ n, fields' n = if n ∈ (m.desc F).map Packet.Field.name then
        getfieldval (m.desc F) fields n else none := by
  obtain ⟨body, hbuild, hpos, hdissect⟩ := message_roundTrip F hm h
  have hle := hlen body hbuild
  have hblock : (P.pad 36 body).length = 36 := length_pad hpos hle
  obtain ⟨n, hn⟩ := P.pad_eq 36 body
  have hlength : body.length + n = 36 := by
    rw [hn, List.length_append, List.length_replicate] at hblock
    exact hblock
  obtain ⟨fields', hfields, hsame⟩ := hdissect (List.replicate n 0) (by
    rcases Nat.eq_zero_or_pos n with hz | hn
    · exact Or.inr (by omega)
    · exact Or.inl fun hnil => by
        have := congrArg List.length hnil
        rw [List.length_replicate, List.length_nil] at this
        omega)
  refine ⟨P.pad 36 body, fields', hblock, fun pkt s => ?_, fun pkt rest => ?_, hsame⟩
  · show (do
      let sval ← (do
        let body ← Packet.build (m.desc F) fields
        pure ([] ++ body ++ []) : Except OmciError Bytes)
      pure (s ++ P.pad 36 sval)) = _
    rw [hbuild]
    show Except.ok (s ++ P.pad 36 ([] ++ body ++ [])) = _
    rw [List.nil_append, List.append_nil]
  · show (do
      let (remain, val) ← (do
        let (payload, fields) ←
          Packet.dissect Packet.put (m.desc F) ((P.pad 36 body ++ rest).take 36)
        pure ([], FrameValue.message ⟨m, fields, payload⟩) : Except OmciError (Bytes × FrameValue))
      pure (remain ++ (P.pad 36 body ++ rest).drop 36, removePadding val)) = _
    rw [List.take_append_of_le_length (by omega), List.take_of_length_le (by omega),
      List.drop_append_of_le_length (by omega), List.drop_of_length_le (by omega), hn, hfields]
    show Except.ok ([] ++ ([] ++ rest),
      removePadding (.message ⟨m, fields', List.replicate n 0⟩)) = _
    rw [removePadding, if_pos (by simp)]
    rfl

end Fields

/-! ## 同じ名前の field の並び -/

namespace OmciFrame

variable {F : Scapy} {P : Padding} {m : MessageClass} {cs : List MessageClass}

theorem hasType_eq {pkt : Fields FrameValue} {n : Nat}
    (h : pkt "message_type" = some (.value (.int n))) (cls : MessageClass) :
    hasType cls pkt = decide (cls.messageId = n) := by
  rw [hasType, h]
  refine decide_eq_decide.mpr ⟨fun he => ?_, fun he => by rw [he]⟩
  exact (Int.ofNat.inj (Value.int.inj he)).symm

theorem keep_new {fields : Fields FrameValue} {name : String} {v : FrameValue}
    (h : fields name = none) : keep fields name v = Packet.put fields name v := if_pos (Or.inr h)

theorem keep_isSome {fields : Fields FrameValue} {name : String} {v : FrameValue}
    (h : v.isSome = true) : keep fields name v = Packet.put fields name v := if_pos (Or.inl h)

/-- 種類の違う field は、何も書かない。 -/
theorem buildLoop_others {pkt : Fields FrameValue} {n : Nat}
    (htype : pkt "message_type" = some (.value (.int n)))
    (hne : ∀ c ∈ cs, c.messageId ≠ n) (s : Bytes) :
    Packet.buildLoop pkt (cs.map (messageField F P)) s = .ok s := by
  induction cs with
  | nil => rfl
  | cons c cs ih =>
    have hoff : hasType c pkt = false := by
      rw [hasType_eq htype]
      exact decide_eq_false (hne c List.mem_cons_self)
    rw [List.map_cons, Packet.buildLoop]
    show ((if hasType c pkt = true then _ else Except.ok s) >>= _) = _
    rw [if_neg (by rw [hoff]; decide)]
    exact ih fun x hx => hne x (List.mem_cons_of_mem _ hx)

/-- 種類の違う field は、何も読まず、読んだ message を消さない。 -/
theorem dissectLoop_others (desc fs : List FrameField) {n : Nat}
    (hne : ∀ c ∈ cs, c.messageId ≠ n) {s : Bytes} (hs : s ≠ []) {fields : Fields FrameValue}
    (htype : fields "message_type" = some (.value (.int n))) :
    ∃ fields', Packet.dissectLoop keep desc (cs.map (messageField F P) ++ fs) s fields
        = Packet.dissectLoop keep desc fs s fields' ∧
      (∀ k, k ≠ "omci_message" → fields' k = fields k) ∧
      ∀ v, v.isSome = true → fields "omci_message" = some v →
        fields' "omci_message" = some v := by
  induction cs generalizing fields with
  | nil => exact ⟨fields, rfl, fun _ _ => rfl, fun _ _ h => h⟩
  | cons c cs ih =>
    have hoff : hasType c (getfieldval desc fields) = false := by
      rw [hasType_eq (n := n) (by simp [getfieldval, htype])]
      exact decide_eq_false (hne c List.mem_cons_self)
    have hget : (messageField F P c).getfield (getfieldval desc fields) s
        = .ok (s, .absent) := if_neg (by rw [hoff]; decide)
    have hkeep : ∀ k, k ≠ "omci_message" →
        keep fields "omci_message" .absent k = fields k := by
      intro k hk
      unfold keep
      split
      · exact Function.update_of_ne hk _ _
      · rfl
    obtain ⟨fields', hloop, hother, hmessage⟩ :=
      ih (fun x hx => hne x (List.mem_cons_of_mem _ hx))
        ((hkeep "message_type" (by decide)).trans htype)
    refine ⟨fields', ?_, fun k hk => (hother k hk).trans (hkeep k hk), fun v hv h => ?_⟩
    · rw [List.map_cons, List.cons_append, Packet.dissectLoop_cons hs hget]
      exact hloop
    · refine hmessage v hv ?_
      rw [keep, if_neg (by simp [h, FrameValue.absent, FrameValue.isSome])]
      exact h

/-! ## frame の往復 -/

/-- 種類の番号は重ならない。 -/
theorem messageIds_split (hm : m ∈ omciMessages) : ∃ pre post, omciMessages = pre ++ m :: post ∧
    (∀ c ∈ pre, c.messageId ≠ m.messageId) ∧ ∀ c ∈ post, c.messageId ≠ m.messageId := by
  have hnodup : (omciMessages.map MessageClass.messageId).Nodup := by decide
  obtain ⟨pre, post, hsplit⟩ := List.append_of_mem hm
  rw [hsplit, List.map_append, List.map_cons, List.nodup_middle, List.nodup_cons,
    ← List.map_append] at hnodup
  have hne : ∀ c ∈ pre ++ post, c.messageId ≠ m.messageId := fun c hc he =>
    hnodup.1 (he ▸ List.mem_map_of_mem hc)
  exact ⟨pre, post, hsplit, fun c hc => hne c (List.mem_append_left _ hc),
    fun c hc => hne c (List.mem_append_right _ hc)⟩

/-- 範囲の中の値を持つ frame。与えられていない field は default で見る。 -/
structure InRange (F : Scapy) (P : Padding) (m : MessageClass) (fields : Fields FieldValue)
    (tid omci trailer : Value) (frame : Fields FrameValue) : Prop where
  tid_eq : getfieldval (fieldsDesc F P) frame "transaction_id" = some (.value tid)
  tid_range : FieldKind.shortField.InRange tid
  type_eq : getfieldval (fieldsDesc F P) frame "message_type" = some (.value (.int m.messageId))
  omci_eq : getfieldval (fieldsDesc F P) frame "omci" = some (.value omci)
  omci_range : FieldKind.byteField.InRange omci
  message_eq : getfieldval (fieldsDesc F P) frame "omci_message"
    = some (.message ⟨m, fields, []⟩)
  message_range : m.InRange F fields
  trailer_eq : getfieldval (fieldsDesc F P) frame "omci_trailer" = some (.value trailer)
  trailer_range : FieldKind.intField.InRange trailer

/-- 種類の合う field を真ん中に置いた `fields_desc`。 -/
theorem fieldsDesc_split {pre post : List MessageClass} (h : omciMessages = pre ++ m :: post) :
    fieldsDesc F P = frameField F (shortField "transaction_id" (.int 0)) ::
      frameField F (byteField "message_type" .none) ::
      frameField F (byteField "omci" (.int 0x0a)) ::
      (pre.map (messageField F P) ++ (messageField F P m ::
        (post.map (messageField F P) ++ [trailerField F]))) := by
  rw [fieldsDesc, h, headerFields]
  simp

/-- 書く方。 -/
theorem str_eq {pre post : List MessageClass} (hsplit : omciMessages = pre ++ m :: post)
    (hpre : ∀ c ∈ pre, c.messageId ≠ m.messageId) (hpost : ∀ c ∈ post, c.messageId ≠ m.messageId)
    {fields : Fields FieldValue} {tid omci trailer : Value} {frame : Fields FrameValue}
    (h : InRange F P m fields tid omci trailer frame) {b₁ b₂ b₃ b₄ block : Bytes}
    (h₁ : ∀ pkt s, (frameField F (shortField "transaction_id" (.int 0))).addfield pkt s
      (.value tid) = .ok (s ++ b₁))
    (h₂ : ∀ pkt s, (frameField F (byteField "message_type" .none)).addfield pkt s
      (.value (.int m.messageId)) = .ok (s ++ b₂))
    (h₃ : ∀ pkt s, (frameField F (byteField "omci" (.int 0x0a))).addfield pkt s
      (.value omci) = .ok (s ++ b₃))
    (h₄ : ∀ pkt s, (trailerField F).addfield pkt s (.value trailer) = .ok (s ++ b₄))
    (hblock : ∀ pkt s, (fixedLenField P (packetField F "omci_message" m) 36).addfield pkt s
      (.message ⟨m, fields, []⟩) = .ok (s ++ block)) :
    str F P frame = .ok (b₁ ++ (b₂ ++ (b₃ ++ (block ++ b₄)))) := by
  have hon : hasType m (getfieldval (fieldsDesc F P) frame) = true := by
    rw [hasType_eq h.type_eq]
    exact decide_eq_true rfl
  have hmessage : ∀ s, (messageField F P m).addfield (getfieldval (fieldsDesc F P) frame) s
      (.message ⟨m, fields, []⟩) = .ok (s ++ block) := fun s =>
    (if_pos hon).trans (hblock _ s)
  refine (congrArg (fun fs => Packet.buildLoop (getfieldval (fieldsDesc F P) frame) fs [])
    (fieldsDesc_split hsplit)).trans ?_
  rw [Packet.buildLoop_cons h.tid_eq (h₁ _ _), Packet.buildLoop_cons h.type_eq (h₂ _ _),
    Packet.buildLoop_cons h.omci_eq (h₃ _ _),
    Packet.buildLoop_append (buildLoop_others h.type_eq hpre _),
    Packet.buildLoop_cons h.message_eq (hmessage _),
    Packet.buildLoop_append (buildLoop_others h.type_eq hpost _),
    Packet.buildLoop_cons h.trailer_eq (h₄ _ _), Packet.buildLoop]
  simp

/-- 読む方。 -/
theorem doDissect_eq {pre post : List MessageClass} (hsplit : omciMessages = pre ++ m :: post)
    (hpre : ∀ c ∈ pre, c.messageId ≠ m.messageId) (hpost : ∀ c ∈ post, c.messageId ≠ m.messageId)
    {fields' : Fields FieldValue} {tid omci trailer : Value} {b₁ b₂ b₃ b₄ block : Bytes}
    (h₁ : ∀ pkt rest, (frameField F (shortField "transaction_id" (.int 0))).getfield pkt
      (b₁ ++ rest) = .ok (rest, .value tid))
    (h₂ : ∀ pkt rest, (frameField F (byteField "message_type" .none)).getfield pkt
      (b₂ ++ rest) = .ok (rest, .value (.int m.messageId)))
    (h₃ : ∀ pkt rest, (frameField F (byteField "omci" (.int 0x0a))).getfield pkt
      (b₃ ++ rest) = .ok (rest, .value omci))
    (h₄ : ∀ pkt rest, (trailerField F).getfield pkt (b₄ ++ rest) = .ok (rest, .value trailer))
    (hblock : ∀ pkt rest, (fixedLenField P (packetField F "omci_message" m) 36).getfield pkt
      (block ++ rest) = .ok (rest, .message ⟨m, fields', []⟩))
    (hne : b₄ ≠ []) :
    ∃ frame', doDissect F P (b₁ ++ (b₂ ++ (b₃ ++ (block ++ b₄)))) = .ok ([], frame') ∧
      frame' "transaction_id" = some (.value tid) ∧
      frame' "message_type" = some (.value (.int m.messageId)) ∧
      frame' "omci" = some (.value omci) ∧
      frame' "omci_message" = some (.message ⟨m, fields', []⟩) ∧
      frame' "omci_trailer" = some (.value trailer) := by
  have hmore : ∀ s : Bytes, s ++ b₄ ≠ [] := fun s hnil => hne (List.append_eq_nil_iff.mp hnil).2
  have hon : ∀ {fields : Fields FrameValue},
      fields "message_type" = some (.value (.int m.messageId)) → ∀ rest,
      (messageField F P m).getfield (getfieldval (fieldsDesc F P) fields) (block ++ rest)
        = .ok (rest, .message ⟨m, fields', []⟩) := by
    intro fields htype rest
    have hcond : hasType m (getfieldval (fieldsDesc F P) fields) = true := by
      rw [hasType_eq (n := m.messageId) (by simp [getfieldval, htype])]
      exact decide_eq_true rfl
    exact (if_pos hcond).trans (hblock _ rest)
  -- header を読む
  let p₃ : Fields FrameValue := Packet.put (Packet.put (Packet.put Packet.noFields
    "transaction_id" (.value tid)) "message_type" (.value (.int m.messageId))) "omci" (.value omci)
  have hheader : doDissect F P (b₁ ++ (b₂ ++ (b₃ ++ (block ++ b₄))))
      = Packet.dissectLoop keep (fieldsDesc F P)
          (pre.map (messageField F P) ++ (messageField F P m ::
            (post.map (messageField F P) ++ [trailerField F]))) (block ++ b₄) p₃ := by
    refine (congrArg (fun fs => Packet.dissectLoop keep (fieldsDesc F P) fs
      (b₁ ++ (b₂ ++ (b₃ ++ (block ++ b₄)))) Packet.noFields) (fieldsDesc_split hsplit)).trans ?_
    rw [Packet.dissectLoop_cons (by simp [hne]) (h₁ _ _),
      Packet.dissectLoop_cons (by simp [hne]) (h₂ _ _),
      Packet.dissectLoop_cons (by simp [hne]) (h₃ _ _)]
    have hfirst : keep Packet.noFields "transaction_id" (.value tid)
      = Packet.put Packet.noFields "transaction_id" (.value tid) := keep_new rfl
    show Packet.dissectLoop keep _ _ _ (keep (keep (keep Packet.noFields "transaction_id" _)
      "message_type" _) "omci" _) = _
    rw [hfirst, keep_new (show Packet.put _ _ _ "message_type" = none from rfl),
      keep_new (show Packet.put _ _ _ "omci" = none from rfl)]
  -- 種類の合う field の前、その field、後、trailer の順に読む
  obtain ⟨p₄, hpre₄, hother₄, -⟩ := dissectLoop_others (F := F) (P := P) (fieldsDesc F P)
    (messageField F P m :: (post.map (messageField F P) ++ [trailerField F])) hpre (hmore block)
    (show p₃ "message_type" = some (.value (.int m.messageId)) from rfl)
  let p₅ : Fields FrameValue := Packet.put p₄ "omci_message" (.message ⟨m, fields', []⟩)
  have hother₅ : ∀ k, k ≠ "omci_message" → p₅ k = p₃ k := fun k hk =>
    (Function.update_of_ne hk _ _).trans (hother₄ k hk)
  obtain ⟨p₆, hpost₆, hother₆, hmessage₆⟩ := dissectLoop_others (F := F) (P := P) (fieldsDesc F P)
    [trailerField F] hpost hne (hother₅ "message_type" (by decide))
  have hother : ∀ k, k ≠ "omci_message" → p₆ k = p₃ k := fun k hk =>
    (hother₆ k hk).trans (hother₅ k hk)
  have htrailer : p₆ "omci_trailer" = none := hother _ (by decide)
  refine ⟨Packet.put p₆ "omci_trailer" (.value trailer), ?_, ?_, ?_, ?_, ?_, ?_⟩
  · rw [hheader, hpre₄, Packet.dissectLoop_cons (hmore block)
      (hon ((hother₄ "message_type" (by decide)).trans rfl) b₄), keep_isSome rfl]
    refine hpost₆.trans ?_
    rw [Packet.dissectLoop_cons hne (by simpa using h₄ (getfieldval (fieldsDesc F P) p₆) [])]
    show Except.ok ([], keep p₆ "omci_trailer" (.value trailer)) = _
    rw [keep_new htrailer]
  · exact (Function.update_of_ne (by decide) _ _).trans (hother _ (by decide))
  · exact (Function.update_of_ne (by decide) _ _).trans (hother _ (by decide))
  · exact (Function.update_of_ne (by decide) _ _).trans (hother _ (by decide))
  · exact (Function.update_of_ne (by decide) _ _).trans
      (hmessage₆ _ rfl (Function.update_self _ _ _))
  · exact Function.update_self _ _ _

theorem messageId_lt : ∀ m ∈ omciMessages, m.messageId < 256 := by decide

/--
**frame の往復。** どの種類の message でも、範囲の中の値で 36 byte に収まるなら、
frame は 44 byte になり、同じ transaction id と種類と message と trailer が読める。
-/
theorem frame_roundTrip (F : Scapy) (P : Padding) {m : MessageClass} (hm : m ∈ omciMessages)
    {fields : Fields FieldValue} {tid omci trailer : Value} {frame : Fields FrameValue}
    (h : InRange F P m fields tid omci trailer frame)
    (hlen : ∀ body, Packet.build (m.desc F) fields = .ok body → body.length ≤ 36) :
    ∃ raw frame' fields', str F P frame = .ok raw ∧ raw.length = 44 ∧
      doDissect F P raw = .ok ([], frame') ∧
      frame' "transaction_id" = some (.value tid) ∧
      frame' "message_type" = some (.value (.int m.messageId)) ∧
      frame' "omci" = some (.value omci) ∧
      frame' "omci_message" = some (.message ⟨m, fields', []⟩) ∧
      frame' "omci_trailer" = some (.value trailer) ∧
      ∀ n, fields' n = if n ∈ (m.desc F).map Packet.Field.name then
        getfieldval (m.desc F) fields n else none := by
  obtain ⟨pre, post, hsplit, hpre, hpost⟩ := messageIds_split hm
  obtain ⟨b₁, hlen₁, hadd₁, hget₁⟩ :=
    frameField_roundTrip (F := F) (shortField "transaction_id" (.int 0)) h.tid_range
  obtain ⟨b₂, hlen₂, hadd₂, hget₂⟩ :=
    frameField_roundTrip (F := F) (byteField "message_type" .none)
      ⟨m.messageId, rfl, messageId_lt m hm⟩
  obtain ⟨b₃, hlen₃, hadd₃, hget₃⟩ :=
    frameField_roundTrip (F := F) (byteField "omci" (.int 0x0a)) h.omci_range
  obtain ⟨b₄, hlen₄, hadd₄, hget₄⟩ :=
    frameField_roundTrip (F := F) (intField "omci_trailer" (.int 0x00000028))
      h.trailer_range
  obtain ⟨block, fields', hblock, hadd, hget, hfields⟩ :=
    message_block (P := P) hm h.message_range hlen
  have hne : b₄ ≠ [] := by
    rintro rfl
    exact absurd hlen₄ (by decide)
  obtain ⟨frame', hdissect, htid, htype, homci, hmessage, htrailer⟩ :=
    doDissect_eq (F := F) hsplit hpre hpost hget₁ hget₂ hget₃ hget₄ hget hne
  refine ⟨_, frame', fields', str_eq hsplit hpre hpost h hadd₁ hadd₂ hadd₃ hadd₄ hadd, ?_,
    hdissect, htid, htype, homci, hmessage, htrailer, hfields⟩
  simp only [List.length_append, hlen₁, hlen₂, hlen₃, hlen₄, hblock]
  rfl

/-- 足りないだけの 0 を足す。 -/
def zeroPadding : Padding where
  pad align s := s ++ List.replicate ((align - s.length % align) % align) 0
  pad_eq _ _ := ⟨_, rfl⟩
  dvd align s hpos := by
    rw [List.length_append, List.length_replicate]
    have hmod := Nat.mod_lt s.length hpos
    have hdiv := Nat.div_add_mod s.length align
    refine Nat.dvd_of_mod_eq_zero ?_
    rcases Nat.eq_zero_or_pos (s.length % align) with hz | hmore
    · rw [hz, Nat.sub_zero, Nat.mod_self, Nat.add_zero, hz]
    · rw [Nat.mod_eq_of_lt (show align - s.length % align < align by omega)]
      have hsum : s.length + (align - s.length % align)
          = align * (s.length / align) + align := by omega
      rw [hsum, Nat.mul_add_mod, Nat.mod_self]
  lt align s hpos := by
    rw [List.length_append, List.length_replicate]
    have := Nat.mod_lt (align - s.length % align) hpos
    omega

/-- `OmciSet` の message。離れた五つの属性を mask で書く。 -/
def setMessage : Fields FieldValue := fun name =>
  if name = "entity_id" then some (.value (.int 0x101))
  else if name = "data" then some (.data extendedVlanData)
  else extendedVlanHeader name

/-- `OmciSet` の frame。`omci` と `omci_trailer` は default のまま。 -/
def setFrame : Fields FrameValue := fun name =>
  if name = "transaction_id" then some (.value (.int 1))
  else if name = "message_type" then some (.value (.int 0x48))
  else if name = "omci_message" then some (.message ⟨.omciSet, setMessage, []⟩)
  else none

/-- 書いた message は 29 byte である。 -/
theorem length_setMessage {body : Bytes}
    (h : Packet.build (MessageClass.omciSet.desc .network) setMessage = .ok body) :
    body.length = 29 := by
  have hc : extendedVlanTaggingOperationConfigurationData ∈ entityClasses := by
    simp [entityClasses]
  let pkt := getfieldval (MessageClass.omciSet.desc .network) setMessage
  obtain ⟨b, hlen, hadd, -⟩ := @omciMaskedData_roundTrip .network _ extendedVlanData pkt
    "entity_class" "attributes_mask" "data" 0xb600 hc rfl rfl (by unfold MaskDefined; decide)
    extendedVlanData_assigns
  have hbuild : Packet.build (MessageClass.omciSet.desc .network) setMessage
      = .ok ([0, 171] ++ [1, 1] ++ [0xb6, 0] ++ b) := by
    unfold Packet.build MessageClass.desc MessageClass.omciSet
    rw [List.map_cons, List.map_cons, List.map_cons, List.map_cons, List.map_nil]
    rw [Packet.buildLoop_cons (v := .value (.int 171)) rfl rfl,
      Packet.buildLoop_cons (v := .value (.int 0x101)) rfl rfl,
      Packet.buildLoop_cons (v := .value (.int 0xb600)) rfl rfl,
      Packet.buildLoop_cons (v := .data extendedVlanData) rfl (hadd _), Packet.buildLoop]
    rfl
  have hbody : [0, 171] ++ [1, 1] ++ [0xb6, 0] ++ b = body :=
    Except.ok.inj (hbuild.symm.trans h)
  rw [← hbody, List.length_append, hlen, selected_extendedVlan]
  rfl

theorem frame_roundTrip_set :
    ∃ raw frame' fields', str .network zeroPadding setFrame = .ok raw ∧ raw.length = 44 ∧
      doDissect .network zeroPadding raw = .ok ([], frame') ∧
      frame' "transaction_id" = some (.value (.int 1)) ∧
      frame' "message_type" = some (.value (.int 0x48)) ∧
      frame' "omci" = some (.value (.int 0x0a)) ∧
      frame' "omci_message" = some (.message ⟨.omciSet, fields', []⟩) ∧
      frame' "omci_trailer" = some (.value (.int 0x28)) ∧
      ∀ n, fields' n = if n ∈ (MessageClass.omciSet.desc .network).map Packet.Field.name then
        getfieldval (MessageClass.omciSet.desc .network) setMessage n else none := by
  have hm : MessageClass.omciSet ∈ omciMessages := by simp [omciMessages]
  have hc : extendedVlanTaggingOperationConfigurationData ∈ entityClasses := by
    simp [entityClasses]
  have hmessage : MessageClass.omciSet.InRange .network setMessage := by
    unfold MessageClass.InRange
    simp only [MessageClass.omciSet, List.forall_mem_cons]
    refine ⟨⟨.int 171, rfl, 171, rfl, by decide⟩, ⟨.int 0x101, rfl, 0x101, rfl, by decide⟩,
      ⟨.int 0xb600, rfl, 0xb600, rfl, by decide⟩, ⟨_, hc, 0xb600, rfl, rfl, ?_, _, rfl,
        extendedVlanData_assigns⟩, nofun⟩
    unfold MaskDefined
    decide
  have hframe : InRange .network zeroPadding .omciSet setMessage (.int 1) (.int 0x0a)
      (.int 0x28) setFrame :=
    ⟨rfl, ⟨1, rfl, by decide⟩, rfl, rfl, ⟨10, rfl, by decide⟩, rfl, hmessage, rfl,
      ⟨40, rfl, by decide⟩⟩
  refine frame_roundTrip .network zeroPadding hm hframe fun body hbody => ?_
  rw [length_setMessage hbody]
  decide

end OmciFrame

end Voltha.Omci
