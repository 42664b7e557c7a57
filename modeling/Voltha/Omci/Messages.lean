import Voltha.Lib.Packet
import Voltha.Omci.EntityClasses

/-!
# OMCI の message

`omci_messages.py`。`OmciData` は作成時に決める属性を、`OmciMaskedData` は mask の表す属性を、
class の属性の順に並べて書く。どちらの field も、書いた値がそのまま戻る（`data_roundTrip`）。
-/

namespace Voltha.Omci

open Packet (Fields)

/-- 属性の名前から値への辞書。 -/
abbrev Data := String → Option Value

/-- message の field の値。 -/
inductive FieldValue where
  | value (v : Value)
  | data (d : Data)

/-- `None`。 -/
def FieldValue.absent : FieldValue := .value .none

namespace EntityClass

/-- 作成時に決める属性。`managed_entity_id` は含まない。 -/
def setByCreate (c : EntityClass) : List EntityClassAttribute :=
  c.attributes.filter fun a => .setByCreate ∈ a.access ∧ a.fld.name ≠ "managed_entity_id"

/-- mask の表す属性。 -/
def selected (c : EntityClass) (mask : Nat) : List EntityClassAttribute :=
  (attributeIndicesFromMask mask).filterMap fun index => c.attributes[index]?

end EntityClass

/-- `getattr(pkt, name)`。 -/
def getattr (pkt : Fields FieldValue) (name : String) : Except OmciError FieldValue :=
  ofOption .attributeError (pkt name)

namespace FieldValue

/-- `entity_id_to_class_map.get(class_id)`。 -/
def entityClass : FieldValue → Option EntityClass
  | .value (.int n) => if 0 ≤ n then entityIdToClassMap.lookup n.toNat else none
  | _ => none

/-- `attribute_indices_from_mask` に渡す mask。 -/
def attributesMask : FieldValue → Except OmciError Nat
  -- 読まれるのは下の 16 bit だけである
  | .value (.int n) => .ok (n % 0x10000).toNat
  | _ => .error .typeError

/-- `val.get(fld.name, fld.default)`。辞書でなければ、`get` が無い。 -/
def get (val : FieldValue) (fld : Fld) : Except OmciError Value :=
  match val with
  | .data d => .ok ((d fld.name).getD fld.default)
  | .value _ => .error .attributeError

/-- `val[fld.name]`。 -/
def item (val : FieldValue) (fld : Fld) : Except OmciError Value :=
  match val with
  | .data d => ofOption .keyError (d fld.name)
  | .value _ => .error .typeError

end FieldValue

/-- 属性を一つ書く。 -/
def addAttribute (F : Scapy) (a : EntityClassAttribute) (s : Bytes) (v : Value) :
    Except OmciError Bytes := ofOption .structError (F.addfield a.fld.kind s v)

/-- 属性を一つ読んで、辞書に加える。 -/
def getAttribute (F : Scapy) (p : Bytes × Data) (a : EntityClassAttribute) :
    Except OmciError (Bytes × Data) := do
  let (s, v) ← ofOption .structError (F.getfield a.fld.kind p.1)
  pure (s, Function.update p.2 a.fld.name (some v))

/-- 空の辞書。 -/
def noData : Data := fun _ => none

/-- 属性を順に読む。 -/
def getAttributes (F : Scapy) (s : Bytes) (l : List EntityClassAttribute) :
    Except OmciError (Bytes × FieldValue) := do
  let (s, d) ← l.foldlM (getAttribute F) (s, noData)
  pure (s, .data d)

/-- `OmciData(name, entity_class)`。 -/
def omciData (F : Scapy) (name entityClass : String) : Packet.Field FieldValue OmciError where
  name := name
  default := .absent
  addfield pkt s val := do
    let classId ← getattr pkt entityClass
    let c ← ofOption .attributeError classId.entityClass
    c.setByCreate.foldlM (fun s a => do
      let v ← val.get a.fld
      addAttribute F a s v) s
  getfield pkt s := do
    let classId ← getattr pkt entityClass
    let c ← ofOption .attributeError classId.entityClass
    getAttributes F s c.setByCreate

/-- `OmciMaskedData(name, entity_class, attributes_mask)`。 -/
def omciMaskedData (F : Scapy) (name entityClass attributesMask : String) :
    Packet.Field FieldValue OmciError where
  name := name
  default := .absent
  addfield pkt s val := do
    let classId ← getattr pkt entityClass
    let mask ← getattr pkt attributesMask
    let c ← ofOption .attributeError classId.entityClass
    let mask ← mask.attributesMask
    (EntityClass.attributeIndicesFromMask mask).foldlM (fun s index => do
      let a ← ofOption .indexError c.attributes[index]?
      let v ← val.item a.fld
      addAttribute F a s v) s
  getfield pkt s := do
    let classId ← getattr pkt entityClass
    let mask ← getattr pkt attributesMask
    let c ← ofOption .keyError classId.entityClass
    let mask ← mask.attributesMask
    -- 無い位置の属性は読み飛ばす
    getAttributes F s (c.selected mask)

/-! ## 往復 -/

/-- 辞書 `d` は、ちょうど `l` の属性に、範囲の中の値を与える。 -/
structure Assigns (l : List EntityClassAttribute) (d : Data) : Prop where
  inRange : ∀ a ∈ l, ∃ v, d a.fld.name = some v ∧ a.fld.kind.InRange v
  only : ∀ name, name ∉ (l.map fun a => a.fld.name) → d name = none

/-- 書いた属性の列の長さ。 -/
def attributesSize (l : List EntityClassAttribute) : Nat :=
  l.foldr (fun a n => a.fld.kind.size + n) 0

section RoundTrip

variable {F : Scapy} {c : EntityClass} {l : List EntityClassAttribute} {d : Data}

/-- 範囲の中の値を書くと、決まった長さが足される。 -/
theorem addAttribute_inRange {a : EntityClassAttribute} {v : Value} (h : a.fld.kind.InRange v) :
    ∃ b, (∀ s, addAttribute F a s v = .ok (s ++ b)) ∧ b.length = a.fld.kind.size ∧
      ∀ rest d, getAttribute F (b ++ rest, d) a
        = .ok (rest, Function.update d a.fld.name (some v)) := by
  obtain ⟨b, hb, hget⟩ := F.roundTrip a.fld.kind v h
  refine ⟨b, fun s => ?_, F.size _ _ _ hb, fun rest d => ?_⟩
  · rw [addAttribute, F.append, hb]
    rfl
  · rw [getAttribute, hget]
    rfl

/-- 属性の列を順に書き、順に読む。 -/
theorem attributes_roundTrip (h : ∀ a ∈ l, ∃ v, d a.fld.name = some v ∧ a.fld.kind.InRange v) :
    ∃ b, b.length = attributesSize l ∧
      (∀ get : Fld → Except OmciError Value,
        (∀ fld v, d fld.name = some v → get fld = .ok v) →
        ∀ s, l.foldlM (fun s a => do
          let v ← get a.fld
          addAttribute F a s v) s = .ok (s ++ b)) ∧
      ∀ rest d₀, ∃ d', l.foldlM (getAttribute F) (b ++ rest, d₀) = .ok (rest, d') ∧
        ∀ name, d' name = if name ∈ l.map (fun a => a.fld.name) then d name else d₀ name := by
  induction l with
  | nil =>
    exact ⟨[], rfl, fun _ _ s => by simp [pure, Except.pure], fun rest d₀ => ⟨d₀, rfl, by simp⟩⟩
  | cons a l ih =>
    obtain ⟨v, hv, hrange⟩ := h a List.mem_cons_self
    obtain ⟨b, hadd, hlen, hget⟩ := addAttribute_inRange (F := F) hrange
    obtain ⟨bs, hlens, hadds, hgets⟩ := ih fun x hx => h x (List.mem_cons_of_mem _ hx)
    refine ⟨b ++ bs, ?_, fun get hsame s => ?_, fun rest d₀ => ?_⟩
    · rw [List.length_append, hlen, hlens]
      rfl
    · rw [List.foldlM_cons, hsame a.fld v hv]
      show (addAttribute F a s v >>= fun s => l.foldlM _ s) = _
      rw [hadd]
      show l.foldlM _ (s ++ b) = _
      rw [hadds get hsame, List.append_assoc]
    · obtain ⟨d', hloop, hd'⟩ := hgets rest (Function.update d₀ a.fld.name (some v))
      refine ⟨d', ?_, fun name => ?_⟩
      · rw [List.foldlM_cons, List.append_assoc, hget]
        exact hloop
      · rw [hd', List.map_cons]
        by_cases hn : name ∈ l.map fun a => a.fld.name
        · rw [if_pos hn, if_pos (List.mem_cons_of_mem _ hn)]
        · by_cases he : name = a.fld.name
          · subst he
            rw [if_neg hn, if_pos List.mem_cons_self, Function.update_self, hv]
          · rw [if_neg hn, if_neg (by simp only [List.mem_cons, he, hn, or_self, not_false_iff]),
              Function.update_of_ne he]

/-- ちょうどの辞書なら、読んだ辞書はもとの辞書である。 -/
theorem getAttributes_assigns (h : Assigns l d) :
    ∃ b, b.length = attributesSize l ∧
      (∀ get : Fld → Except OmciError Value,
        (∀ fld v, d fld.name = some v → get fld = .ok v) →
        ∀ s, l.foldlM (fun s a => do
          let v ← get a.fld
          addAttribute F a s v) s = .ok (s ++ b)) ∧
      ∀ rest, getAttributes F (b ++ rest) l = .ok (rest, .data d) := by
  obtain ⟨b, hlen, hadd, hget⟩ := attributes_roundTrip (F := F) h.inRange
  refine ⟨b, hlen, hadd, fun rest => ?_⟩
  obtain ⟨d', hloop, hd'⟩ := hget rest noData
  have hsame : d' = d := by
    funext name
    rw [hd']
    split
    · rfl
    · next hn => exact (h.only name hn).symm
  rw [getAttributes, hloop, hsame]
  rfl

/-- mask の下の 16 bit のうち、立っている bit はどれも属性を表す。 -/
def MaskDefined (c : EntityClass) (mask : Nat) : Prop :=
  ∀ k < 16, mask.testBit k = true → 16 - k < c.attributes.length

theorem MaskDefined.lt {mask i : Nat} (h : MaskDefined c mask)
    (hi : i ∈ EntityClass.attributeIndicesFromMask mask) : i < c.attributes.length := by
  obtain ⟨⟨h1, h16⟩, hbit⟩ := EntityClass.mem_attributeIndicesFromMask.mp hi
  have := h (16 - i) (by omega) hbit
  omega

/-- 範囲の中の位置だけなら、位置の loop は属性の loop である。 -/
theorem foldlM_indices {attrs : List EntityClassAttribute} {indices : List Nat}
    (h : ∀ i ∈ indices, i < attrs.length)
    (g : Bytes → EntityClassAttribute → Except OmciError Bytes) (s : Bytes) :
    indices.foldlM (fun s index => do
        let a ← ofOption .indexError attrs[index]?
        g s a) s
      = (indices.filterMap fun index => attrs[index]?).foldlM g s := by
  induction indices generalizing s with
  | nil => rfl
  | cons i indices ih =>
    obtain ⟨a, ha⟩ : ∃ a, attrs[i]? = some a :=
      ⟨_, List.getElem?_eq_getElem (h i List.mem_cons_self)⟩
    rw [List.filterMap_cons_some ha, List.foldlM_cons, List.foldlM_cons, ha]
    show (g s a >>= fun s => _) = _
    congr 1
    funext s'
    exact ih (fun j hj => h j (List.mem_cons_of_mem _ hj)) s'

section Packet

variable {pkt : Fields FieldValue} {entityClass attributesMask : String}

theorem getattr_eq {name : String} {v : FieldValue} (h : pkt name = some v) :
    getattr pkt name = .ok v := by
  rw [getattr, h]
  rfl

theorem entityClass_eq (hc : c ∈ entityClasses) :
    (FieldValue.value (.int c.classId)).entityClass = some c := by
  show (if (0 : Int) ≤ (c.classId : Nat) then
    entityIdToClassMap.lookup (c.classId : Int).toNat else none) = _
  rw [if_pos (Int.natCast_nonneg _), Int.toNat_natCast]
  exact lookup_entityIdToClassMap hc

theorem attributesMask_eq (mask : Nat) :
    (FieldValue.value (.int mask)).attributesMask = .ok (mask % 0x10000) := by
  show Except.ok ((mask : Int) % 0x10000).toNat = _
  congr 1

/-- `OmciData` の往復。`pkt` の class が同じなら、読む側の packet は別でもよい。 -/
theorem omciData_roundTrip (name : String) (hc : c ∈ entityClasses)
    (hclass : pkt entityClass = some (.value (.int c.classId))) (h : Assigns c.setByCreate d) :
    ∃ b, b.length = attributesSize c.setByCreate ∧
      (∀ s, (omciData F name entityClass).addfield pkt s (.data d) = .ok (s ++ b)) ∧
      ∀ pkt' : Fields FieldValue, pkt' entityClass = pkt entityClass →
        ∀ t, (omciData F name entityClass).getfield pkt' (b ++ t) = .ok (t, .data d) := by
  obtain ⟨b, hlen, hadd, hget⟩ := getAttributes_assigns (F := F) h
  refine ⟨b, hlen, fun s => ?_, fun pkt' hsame t => ?_⟩
  · have hloop := hadd (FieldValue.data d).get (fun fld v hv => by rw [FieldValue.get, hv]; rfl) s
    unfold omciData
    dsimp only
    rw [getattr_eq hclass]
    show (ofOption .attributeError (FieldValue.value _).entityClass >>= _) = _
    rw [entityClass_eq hc]
    exact hloop
  · unfold omciData
    dsimp only
    rw [getattr_eq (hsame.trans hclass)]
    show (ofOption .attributeError (FieldValue.value _).entityClass >>= _) = _
    rw [entityClass_eq hc]
    exact hget t

/-- `OmciMaskedData` の往復。 -/
theorem omciMaskedData_roundTrip (name : String) {mask : Nat} (hc : c ∈ entityClasses)
    (hclass : pkt entityClass = some (.value (.int c.classId)))
    (hmask : pkt attributesMask = some (.value (.int mask))) (hdef : MaskDefined c mask)
    (h : Assigns (c.selected mask) d) :
    ∃ b, b.length = attributesSize (c.selected mask) ∧
      (∀ s, (omciMaskedData F name entityClass attributesMask).addfield pkt s (.data d)
        = .ok (s ++ b)) ∧
      ∀ pkt' : Fields FieldValue, pkt' entityClass = pkt entityClass →
        pkt' attributesMask = pkt attributesMask →
        ∀ t, (omciMaskedData F name entityClass attributesMask).getfield pkt' (b ++ t)
          = .ok (t, .data d) := by
  obtain ⟨b, hlen, hadd, hget⟩ := getAttributes_assigns (F := F) h
  have hindices := EntityClass.attributeIndicesFromMask_mod mask
  refine ⟨b, hlen, fun s => ?_, fun pkt' hclass' hmask' t => ?_⟩
  · have hloop := hadd (FieldValue.data d).item
      (fun fld v hv => by rw [FieldValue.item, hv]; rfl) s
    rw [EntityClass.selected, ← foldlM_indices fun i hi => hdef.lt hi, ← hindices] at hloop
    unfold omciMaskedData
    dsimp only
    rw [getattr_eq hclass, getattr_eq hmask]
    show (ofOption .attributeError (FieldValue.value _).entityClass >>= _) = _
    rw [entityClass_eq hc, attributesMask_eq]
    exact hloop
  · unfold omciMaskedData
    dsimp only
    rw [getattr_eq (hclass'.trans hclass), getattr_eq (hmask'.trans hmask)]
    show (ofOption .keyError (FieldValue.value _).entityClass >>= _) = _
    rw [entityClass_eq hc, attributesMask_eq]
    show getAttributes F (b ++ t) (c.selected (mask % 0x10000)) = _
    rw [EntityClass.selected, hindices]
    exact hget t

end Packet

/--
**属性の往復。** 表のどの class でも、属性を表す bit だけの mask と範囲の中の値を書いて読むと、
後に続く byte 列とその値が戻る。作成時に決める属性も同じである。
-/
theorem data_roundTrip (F : Scapy) {c : EntityClass} (hc : c ∈ entityClasses)
    {pkt : Fields FieldValue} {entityClass : String}
    (hclass : pkt entityClass = some (.value (.int c.classId))) (attributesMask name : String)
    (t : Bytes) :
    (∀ (mask : Nat) (d : Data), pkt attributesMask = some (.value (.int mask)) →
      MaskDefined c mask → Assigns (c.selected mask) d →
      ∃ b, (∀ s, (omciMaskedData F name entityClass attributesMask).addfield pkt s (.data d)
          = .ok (s ++ b)) ∧
        (omciMaskedData F name entityClass attributesMask).getfield pkt (b ++ t)
          = .ok (t, .data d)) ∧
    ∀ d : Data, Assigns c.setByCreate d →
      ∃ b, (∀ s, (omciData F name entityClass).addfield pkt s (.data d) = .ok (s ++ b)) ∧
        (omciData F name entityClass).getfield pkt (b ++ t) = .ok (t, .data d) := by
  refine ⟨fun mask d hmask hdef h => ?_, fun d h => ?_⟩
  · obtain ⟨b, -, hadd, hget⟩ :=
      omciMaskedData_roundTrip (F := F) name hc hclass hmask hdef h
    exact ⟨b, hadd, hget pkt rfl rfl t⟩
  · obtain ⟨b, -, hadd, hget⟩ := omciData_roundTrip (F := F) name hc hclass h
    exact ⟨b, hadd, hget pkt rfl t⟩

end RoundTrip

/-- `ExtendedVlanTaggingOperationConfigurationData` の header。mask は、離れた五つの属性を表す。 -/
def extendedVlanHeader : Fields FieldValue := fun name =>
  if name = "entity_class" then some (.value (.int 171))
  else if name = "attributes_mask" then some (.value (.int 0xb600))
  else none

/-- 作成時に決める二つの属性の値。 -/
def extendedVlanCreate : Data := fun name =>
  if name = "association_type" then some (.int 2)
  else if name = "associated_me_pointer" then some (.int 0x101)
  else none

/-- mask の表す五つの属性の値。 -/
def extendedVlanData : Data := fun name =>
  if name = "input_tpid" then some (.int 0x8100)
  else if name = "output_tpid" then some (.int 0x88a8)
  else if name = "received_frame_vlan_tagging_operation_table" then
    some (.str [0xf8, 0, 0, 0, 0xf8, 0, 0, 0, 0, 0x0f, 0, 0, 0, 0x0f, 0, 0])
  else extendedVlanCreate name

theorem selected_extendedVlan : extendedVlanTaggingOperationConfigurationData.selected 0xb600 =
    [eca (byteField "association_type" .none) [.r, .w, .sbc],
      eca (shortField "input_tpid" .none) [.r, .w],
      eca (shortField "output_tpid" .none) [.r, .w],
      eca (strFixedLenField "received_frame_vlan_tagging_operation_table" .none 16) [.r, .w],
      eca (shortField "associated_me_pointer" .none) [.r, .w, .sbc]] := by
  rw [EntityClass.selected, EntityClass.attributeIndicesFromMask_eq]
  rfl

theorem extendedVlanData_assigns :
    Assigns (extendedVlanTaggingOperationConfigurationData.selected 0xb600) extendedVlanData := by
  rw [selected_extendedVlan]
  constructor
  · simp only [List.forall_mem_cons]
    exact ⟨⟨.int 2, rfl, 2, rfl, by decide⟩, ⟨.int 0x8100, rfl, 0x8100, rfl, by decide⟩,
      ⟨.int 0x88a8, rfl, 0x88a8, rfl, by decide⟩, ⟨.str _, rfl, _, rfl, rfl⟩,
      ⟨.int 0x101, rfl, 0x101, rfl, by decide⟩, fun _ h => absurd h List.not_mem_nil⟩
  · intro name hname
    simp only [eca, byteField, shortField, strFixedLenField, List.map_cons, List.map_nil,
      List.mem_cons, List.not_mem_nil, or_false, not_or] at hname
    simp [extendedVlanData, extendedVlanCreate, hname]

theorem extendedVlanCreate_assigns :
    Assigns extendedVlanTaggingOperationConfigurationData.setByCreate extendedVlanCreate := by
  have hcreate : extendedVlanTaggingOperationConfigurationData.setByCreate =
      [eca (byteField "association_type" .none) [.r, .w, .sbc],
        eca (shortField "associated_me_pointer" .none) [.r, .w, .sbc]] := rfl
  rw [hcreate]
  constructor
  · simp only [List.forall_mem_cons]
    exact ⟨⟨.int 2, rfl, 2, rfl, by decide⟩, ⟨.int 0x101, rfl, 0x101, rfl, by decide⟩, fun _ h => absurd h List.not_mem_nil⟩
  · intro name hname
    simp only [eca, byteField, shortField, List.map_cons, List.map_nil, List.mem_cons,
      List.not_mem_nil, or_false, not_or] at hname
    simp [extendedVlanCreate, hname]

/-- 五つの属性を mask で書いて読み、二つの属性を作成のために書いて読む。 -/
theorem data_roundTrip_extendedVlan :
    (∃ b, (∀ s, (omciMaskedData .network "data" "entity_class" "attributes_mask").addfield
        extendedVlanHeader s (.data extendedVlanData) = .ok (s ++ b)) ∧
      (omciMaskedData .network "data" "entity_class" "attributes_mask").getfield
        extendedVlanHeader (b ++ [1, 2]) = .ok ([1, 2], .data extendedVlanData)) ∧
    ∃ b, (∀ s, (omciData .network "data" "entity_class").addfield extendedVlanHeader s
        (.data extendedVlanCreate) = .ok (s ++ b)) ∧
      (omciData .network "data" "entity_class").getfield extendedVlanHeader (b ++ [1, 2])
        = .ok ([1, 2], .data extendedVlanCreate) := by
  have hc : extendedVlanTaggingOperationConfigurationData ∈ entityClasses := by
    simp [entityClasses]
  have hclass : extendedVlanHeader "entity_class"
    = some (.value (.int extendedVlanTaggingOperationConfigurationData.classId)) := rfl
  obtain ⟨hmasked, hcreate⟩ := data_roundTrip .network hc hclass "attributes_mask" "data" [1, 2]
  refine ⟨hmasked 0xb600 extendedVlanData rfl ?_ extendedVlanData_assigns,
    hcreate extendedVlanCreate extendedVlanCreate_assigns⟩
  unfold MaskDefined
  decide

end Voltha.Omci
