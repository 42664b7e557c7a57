import Voltha.Omci.Messages

/-!
# OMCI の message の class

`omci_messages.py` の `OmciMessage` の派生 class のうち、`OmciFrame` が並べる十八。

field は class の定義の順に読み書きする。`data` の field が見るのはそれより前の field だけで、
`data` は最後にある。だから、どの message も往復する（`message_encodes`）。
-/

namespace Voltha.Omci

open Packet (Fields getfieldval)

/-- message の field の class と引数。 -/
inductive MessageField where
  | plain (fld : Fld)
  | omciData (name entityClass : String)
  | omciMaskedData (name entityClass attributesMask : String)
  /-- `ConditionalField(fld, lambda pkt: pkt.<test> == 0)`。 -/
  | conditional (test : String) (fld : MessageField)

namespace MessageField

def name : MessageField → String
  | plain fld => fld.name
  | omciData name _ => name
  | omciMaskedData name _ _ => name
  | conditional _ fld => fld.name

/-- scapy の一つの値の field。 -/
def plainField (F : Scapy) (fld : Fld) : Packet.Field FieldValue OmciError where
  name := fld.name
  default := .value fld.default
  addfield _ s v :=
    match v with
    | .value v => ofOption .structError (F.addfield fld.kind s v)
    | .data _ => .error .structError
  getfield _ s := do
    let (s, v) ← ofOption .structError (F.getfield fld.kind s)
    pure (s, .value v)

/-- `pkt.<test> == 0`。 -/
def isZero (test : String) (pkt : Fields FieldValue) : Bool :=
  match pkt test with
  | some (.value v) => v = .int 0
  | _ => false

def toField (F : Scapy) : MessageField → Packet.Field FieldValue OmciError
  | plain fld => plainField F fld
  | omciData name entityClass => Omci.omciData F name entityClass
  | omciMaskedData name entityClass mask => Omci.omciMaskedData F name entityClass mask
  | conditional test fld => (fld.toField F).conditional (isZero test) .absent

/-- 読み書きのときに見る他の field。 -/
def refs : MessageField → List String
  | plain _ => []
  | omciData _ entityClass => [entityClass]
  | omciMaskedData _ entityClass mask => [entityClass, mask]
  | conditional test fld => test :: fld.refs

/-- 一つの値の field の長さ。`data` は 0 とする。 -/
def fixedSize : MessageField → Nat
  | plain fld => fld.kind.size
  | _ => 0

/-- 範囲の中の値を持つ。条件の field は、条件が成り立たなければ `None` である。 -/
def InRange (pkt : Fields FieldValue) : MessageField → Prop
  | plain fld => ∃ v, pkt fld.name = some (.value v) ∧ fld.kind.InRange v
  | omciData name entityClass => ∃ c ∈ entityClasses,
      pkt entityClass = some (.value (.int c.classId)) ∧
      ∃ d, pkt name = some (.data d) ∧ Assigns c.setByCreate d
  | omciMaskedData name entityClass attributesMask => ∃ c ∈ entityClasses, ∃ mask : Nat,
      pkt entityClass = some (.value (.int c.classId)) ∧
      pkt attributesMask = some (.value (.int mask)) ∧ MaskDefined c mask ∧
      ∃ d, pkt name = some (.data d) ∧ Assigns (c.selected mask) d
  | conditional test fld =>
      (isZero test pkt = true → fld.InRange pkt) ∧
      (isZero test pkt = false → pkt fld.name = some .absent)

end MessageField

/-- `OmciMessage` の派生 class。 -/
structure MessageClass where
  name : String
  messageId : Nat
  fieldsDesc : List MessageField

namespace MessageClass

def short (name : String) (default : Value) : MessageField := .plain (shortField name default)

def byte (name : String) (default : Value) : MessageField := .plain (byteField name default)

def omciCreate : MessageClass where
  name := "OmciCreate"
  messageId := 0x44
  fieldsDesc := [
    short "entity_class" .none,
    short "entity_id" (.int 0),
    .omciData "data" "entity_class"]

def omciCreateResponse : MessageClass where
  name := "OmciCreateResponse"
  messageId := 0x24
  fieldsDesc := [
    short "entity_class" .none,
    short "entity_id" .none,
    byte "success_code" (.int 0),
    short "parameter_error_attributes_mask" .none]

def omciDelete : MessageClass where
  name := "OmciDelete"
  messageId := 0x46
  fieldsDesc := [
    short "entity_class" .none,
    short "entity_id" .none]

def omciDeleteResponse : MessageClass where
  name := "OmciDeleteResponse"
  messageId := 0x26
  fieldsDesc := [
    short "entity_class" .none,
    short "entity_id" .none,
    byte "success_code" (.int 0)]

def omciSet : MessageClass where
  name := "OmciSet"
  messageId := 0x48
  fieldsDesc := [
    short "entity_class" .none,
    short "entity_id" (.int 0),
    short "attributes_mask" .none,
    .omciMaskedData "data" "entity_class" "attributes_mask"]

def omciSetResponse : MessageClass where
  name := "OmciSetResponse"
  messageId := 0x28
  fieldsDesc := [
    short "entity_class" .none,
    short "entity_id" .none,
    byte "success_code" (.int 0),
    short "unsupported_attributes_mask" .none,
    short "failed_attributes_mask" .none]

def omciGet : MessageClass where
  name := "OmciGet"
  messageId := 0x49
  fieldsDesc := [
    short "entity_class" .none,
    short "entity_id" (.int 0),
    short "attributes_mask" .none]

def omciGetResponse : MessageClass where
  name := "OmciGetResponse"
  messageId := 0x29
  fieldsDesc := [
    short "entity_class" .none,
    short "entity_id" (.int 0),
    byte "success_code" (.int 0),
    short "attributes_mask" .none,
    .conditional "success_code" (.omciMaskedData "data" "entity_class" "attributes_mask")]

def omciGetAllAlarms : MessageClass where
  name := "OmciGetAllAlarms"
  messageId := 0x4b
  fieldsDesc := [
    short "entity_class" (.int 2),
    short "entity_id" (.int 0),
    byte "alarm_retrieval_mode" (.int 0)]

def omciGetAllAlarmsResponse : MessageClass where
  name := "OmciGetAllAlarmsResponse"
  messageId := 0x2b
  fieldsDesc := [
    short "entity_class" (.int 2),
    short "entity_id" (.int 0),
    short "number_of_commands" .none]

def omciGetAllAlarmsNext : MessageClass where
  name := "OmciGetAllAlarmsNext"
  messageId := 0x4c
  fieldsDesc := [
    short "entity_class" (.int 2),
    short "entity_id" (.int 0),
    short "command_sequence_number" .none]

def omciGetAllAlarmsNextResponse : MessageClass where
  name := "OmciGetAllAlarmsNextResponse"
  messageId := 0x2c
  fieldsDesc := [
    short "entity_class" (.int 2),
    short "entity_id" (.int 0),
    short "alarmed_entity_class" .none,
    short "alarmed_entity_id" (.int 0),
    .plain (strFixedLenField "alarm_bit_map" .none 27)]

def omciMibUpload : MessageClass where
  name := "OmciMibUpload"
  messageId := 0x4d
  fieldsDesc := [
    short "entity_class" (.int 2),
    short "entity_id" (.int 0)]

def omciMibUploadResponse : MessageClass where
  name := "OmciMibUploadResponse"
  messageId := 0x2d
  fieldsDesc := [
    short "entity_class" (.int 2),
    short "entity_id" (.int 0),
    short "number_of_commands" .none]

def omciMibUploadNext : MessageClass where
  name := "OmciMibUploadNext"
  messageId := 0x4e
  fieldsDesc := [
    short "entity_class" (.int 2),
    short "entity_id" (.int 0),
    short "command_sequence_number" .none]

def omciMibUploadNextResponse : MessageClass where
  name := "OmciMibUploadNextResponse"
  messageId := 0x2e
  fieldsDesc := [
    short "entity_class" (.int 2),
    short "entity_id" (.int 0),
    short "object_entity_class" .none,
    short "object_entity_id" (.int 0),
    short "object_attributes_mask" .none,
    .omciMaskedData "object_data" "object_entity_class" "object_attributes_mask"]

def omciMibReset : MessageClass where
  name := "OmciMibReset"
  messageId := 0x4f
  fieldsDesc := [
    short "entity_class" .none,
    short "entity_id" (.int 0)]

def omciMibResetResponse : MessageClass where
  name := "OmciMibResetResponse"
  messageId := 0x2f
  fieldsDesc := [
    short "entity_class" .none,
    short "entity_id" (.int 0),
    byte "success_code" (.int 0)]

/-- packet としての `fields_desc`。 -/
def desc (F : Scapy) (m : MessageClass) : List (Packet.Field FieldValue OmciError) :=
  m.fieldsDesc.map (MessageField.toField F)

/-- どの field も範囲の中の値を持つ。与えられていない field は default で見る。 -/
def InRange (F : Scapy) (m : MessageClass) (fields : Fields FieldValue) : Prop :=
  ∀ f ∈ m.fieldsDesc, f.InRange (getfieldval (m.desc F) fields)

end MessageClass

open MessageClass in
/-- `OmciFrame` が並べる message。 -/
def omciMessages : List MessageClass :=
  [omciCreate, omciCreateResponse, omciDelete, omciDeleteResponse, omciSet, omciSetResponse,
    omciGet, omciGetResponse, omciGetAllAlarms, omciGetAllAlarmsResponse, omciGetAllAlarmsNext,
    omciGetAllAlarmsNextResponse, omciMibUpload, omciMibUploadResponse, omciMibUploadNext,
    omciMibUploadNextResponse, omciMibReset, omciMibResetResponse]

/-! ## field の往復 -/

/-- 見る field は前にある。 -/
def RefsBefore : List String → List MessageField → Prop
  | _, [] => True
  | done, f :: fs => (∀ n ∈ f.refs, n ∈ done) ∧ RefsBefore (f.name :: done) fs

instance decidableRefsBefore : ∀ done fs, Decidable (RefsBefore done fs)
  | _, [] => instDecidableTrue
  | done, f :: fs => by
    have := decidableRefsBefore (f.name :: done) fs
    unfold RefsBefore
    infer_instance

/-- 一つの値の field の長さの和。 -/
def headerSize (fs : List MessageField) : Nat := fs.foldr (fun f n => f.fixedSize + n) 0

/-- message の形。見る field は前にあり、`data` でない field だけでは 36 byte に届かない。 -/
def Shape (m : MessageClass) : Prop :=
  RefsBefore [] m.fieldsDesc ∧ 0 < headerSize m.fieldsDesc ∧ headerSize m.fieldsDesc < 36 ∧
    ∀ f ∈ m.fieldsDesc.dropLast, 0 < f.fixedSize

instance (m : MessageClass) : Decidable (Shape m) := by
  unfold Shape
  infer_instance

theorem omciMessages_shape : ∀ m ∈ omciMessages, Shape m := by decide

section Encoding

variable {F : Scapy} {desc : List (Packet.Field FieldValue OmciError)} {pkt : Fields FieldValue}

theorem toField_name (f : MessageField) : (f.toField F).name = f.name := by
  induction f with
  | plain fld => rfl
  | omciData name entityClass => rfl
  | omciMaskedData name entityClass attributesMask => rfl
  | conditional test fld ih => exact ih

/-- 読む側の packet は、見る field だけが同じならよい。 -/
theorem field_roundTrip {f : MessageField} (h : f.InRange pkt) :
    ∃ v b, pkt f.name = some v ∧ (∀ s, (f.toField F).addfield pkt s v = .ok (s ++ b)) ∧
      (∀ pkt' : Fields FieldValue, (∀ n ∈ f.refs, pkt' n = pkt n) →
        ∀ rest, (f.toField F).getfield pkt' (b ++ rest) = .ok (rest, v)) ∧
      (0 < f.fixedSize → b.length = f.fixedSize) := by
  induction f with
  | plain fld =>
    obtain ⟨v, hv, hrange⟩ := h
    obtain ⟨b, hb, hget⟩ := F.roundTrip fld.kind v hrange
    refine ⟨.value v, b, hv, fun s => ?_, fun pkt' _ rest => ?_, fun _ => F.size _ _ _ hb⟩
    · show ofOption .structError (F.addfield fld.kind s v) = _
      rw [F.append, hb]
      rfl
    · show (do
        let (s, v) ← ofOption .structError (F.getfield fld.kind (b ++ rest))
        pure (s, FieldValue.value v)) = _
      rw [hget]
      rfl
  | omciData name entityClass =>
    obtain ⟨c, hc, hclass, d, hd, hassigns⟩ := h
    obtain ⟨b, -, hadd, hget⟩ := omciData_roundTrip (F := F) name hc hclass hassigns
    exact ⟨.data d, b, hd, hadd, fun pkt' hsame => hget pkt' (hsame _ List.mem_cons_self),
      fun hpos => absurd hpos (Nat.lt_irrefl 0)⟩
  | omciMaskedData name entityClass attributesMask =>
    obtain ⟨c, hc, mask, hclass, hmask, hdef, d, hd, hassigns⟩ := h
    obtain ⟨b, -, hadd, hget⟩ :=
      omciMaskedData_roundTrip (F := F) name hc hclass hmask hdef hassigns
    exact ⟨.data d, b, hd, hadd, fun pkt' hsame => hget pkt' (hsame _ List.mem_cons_self)
        (hsame _ (List.mem_cons_of_mem _ List.mem_cons_self)),
      fun hpos => absurd hpos (Nat.lt_irrefl 0)⟩
  | conditional test fld ih =>
    have hsame : ∀ pkt' : Fields FieldValue, (∀ n ∈ test :: fld.refs, pkt' n = pkt n) →
        MessageField.isZero test pkt' = MessageField.isZero test pkt := by
      intro pkt' hsame
      rw [MessageField.isZero, hsame _ List.mem_cons_self]
      rfl
    cases hz : MessageField.isZero test pkt with
    | true =>
      obtain ⟨v, b, hv, hadd, hget, -⟩ := ih (h.1 hz)
      refine ⟨v, b, hv, fun s => ?_, fun pkt' hrefs rest => ?_,
        fun hpos => absurd hpos (Nat.lt_irrefl 0)⟩
      · exact (if_pos hz).trans (hadd s)
      · exact (if_pos ((hsame pkt' hrefs).trans hz)).trans
          (hget pkt' (fun n hn => hrefs n (List.mem_cons_of_mem _ hn)) rest)
    | false =>
      refine ⟨.absent, [], h.2 hz, fun s => ?_, fun pkt' hrefs rest => ?_,
        fun hpos => absurd hpos (Nat.lt_irrefl 0)⟩
      · rw [List.append_nil]
        exact if_neg (by rw [hz]; decide)
      · exact if_neg (by rw [hsame pkt' hrefs, hz]; decide)

/-- field の列は、前の field だけを見て往復する。 -/
theorem fields_encode {fields : Fields FieldValue} {fs : List MessageField} :
    ∀ {done : List String}, (∀ f ∈ fs, f.InRange (getfieldval desc fields)) → RefsBefore done fs →
    ∃ bs, Packet.Encodes desc (getfieldval desc fields) done (fs.map (MessageField.toField F)) bs ∧
      List.Forall₂ (fun f b => 0 < f.fixedSize → b.length = f.fixedSize) fs bs := by
  induction fs with
  | nil => exact fun _ _ => ⟨[], .nil, .nil⟩
  | cons f fs ih =>
    intro done h hrefs
    obtain ⟨v, b, hv, hadd, hget, hsize⟩ := field_roundTrip (F := F) (h f List.mem_cons_self)
    obtain ⟨bs, henc, hsizes⟩ := ih (fun g hg => h g (List.mem_cons_of_mem _ hg)) hrefs.2
    refine ⟨b :: bs, .cons (v := v) ?_ hadd ?_ ?_, .cons hsize hsizes⟩
    · rw [toField_name]
      exact hv
    · intro fields' hsame rest
      refine hget _ (fun n hn => ?_) rest
      show (fields' n).or _ = (fields n).or _
      rw [hsame n (hrefs.1 n hn)]
      show ((fields n).or _).or _ = _
      rw [Option.or_assoc, Option.or_self]
    · rw [toField_name]
      exact henc

/-- field の長さは、一つの値の field なら決まっている。 -/
abbrev SizesOf : List MessageField → List Bytes → Prop :=
  List.Forall₂ fun f b => 0 < f.fixedSize → b.length = f.fixedSize

theorem headerSize_le {fs : List MessageField} {bs : List Bytes} (h : SizesOf fs bs) :
    headerSize fs ≤ bs.flatten.length := by
  induction h with
  | nil => exact Nat.le_refl 0
  | @cons f b fs bs hb _ ih =>
    show f.fixedSize + headerSize fs ≤ (b ++ bs.flatten).length
    rw [List.length_append]
    rcases Nat.eq_zero_or_pos f.fixedSize with hz | hpos
    · omega
    · have := hb hpos
      omega

/-- 最後の field が空なら、一つの値の field の長さしかない。 -/
theorem length_of_last_nil {fs : List MessageField} {bs : List Bytes} (h : SizesOf fs bs)
    (hinit : ∀ f ∈ fs.dropLast, 0 < f.fixedSize) (hlast : ∀ b ∈ bs.getLast?, b = []) :
    bs.flatten.length ≤ headerSize fs := by
  induction h with
  | nil => exact Nat.le_refl 0
  | @cons f b fs bs hb htail ih =>
    show (b ++ bs.flatten).length ≤ f.fixedSize + headerSize fs
    rw [List.length_append]
    cases htail with
    | nil =>
      have hnil : b = [] := hlast b rfl
      simp [hnil]
    | @cons g c gs cs hc htail =>
      have hrest := ih (fun x hx => hinit x (List.mem_cons_of_mem _ hx))
        fun x hx => hlast x (by rw [List.getLast?_cons_cons]; exact hx)
      have hone := hb (hinit f List.mem_cons_self)
      omega

end Encoding

/--
**message の往復。** 範囲の中の値を持つ message は byte 列になり、
後に何か続くか、ちょうど 36 byte なら、同じ値が読める。
-/
theorem message_roundTrip (F : Scapy) {m : MessageClass} (hm : m ∈ omciMessages)
    {fields : Fields FieldValue} (h : m.InRange F fields) :
    ∃ body, Packet.build (m.desc F) fields = .ok body ∧ 0 < body.length ∧
      ∀ t : Bytes, t ≠ [] ∨ body.length = 36 →
        ∃ fields', Packet.dissect Packet.put (m.desc F) (body ++ t) = .ok (t, fields') ∧
          ∀ n, fields' n = if n ∈ (m.desc F).map Packet.Field.name then
            getfieldval (m.desc F) fields n else none := by
  obtain ⟨hrefs, hpos, hlt, hinit⟩ := omciMessages_shape m hm
  obtain ⟨bs, henc, hsizes⟩ := fields_encode h hrefs
  refine ⟨bs.flatten, henc.buildLoop_eq [], Nat.lt_of_lt_of_le hpos (headerSize_le hsizes),
    fun t ht => (Packet.dissect_build henc ?_).2⟩
  refine ht.imp id fun hlen b hb hnil => ?_
  -- 最後の field が空だと、36 byte に届かない
  have hshort := length_of_last_nil hsizes hinit fun c hc => by
    rw [Option.mem_def.mp hb] at hc
    cases hc
    exact hnil
  omega

end Voltha.Omci
