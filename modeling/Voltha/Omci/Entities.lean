import Mathlib.Algebra.Order.Group.Unbundled.Int
import Mathlib.Data.List.Sort
import Voltha.Lib.KeyedList
import Voltha.Omci.Fields

/-!
# OMCI の entity class

`omci_defs.py` の `bitpos_from_mask` と、`omci_entities.py` の `EntityClass`。

属性は class ごとの列に並び、`managed_entity_id` が位置 0 を占める。
mask の 16 bit は、上の bit から順に位置 1 から 16 の属性を表す。位置 0 を表す bit は無い。

位置の列は二通りに作られる。持っている属性の名前からと、mask からとである。
**mask から作った列は、その名前の位置から 0 を除いて並べたもの**（`indices_maskFor`）。
-/

namespace Voltha.Omci

/-- 例外。 -/
inductive OmciError where
  | keyError
  | valueError
  | indexError
  | attributeError
  | typeError
  /-- `struct.error`。 -/
  | structError
  | uninitializedField (name : String)
deriving DecidableEq

/-- 値が無ければ `e` を投げる。 -/
def ofOption {α : Type} (e : OmciError) : Option α → Except OmciError α
  | some a => .ok a
  | none => .error e

/-! ## `bitpos_from_mask` -/

/-- `bitpos_from_mask` の loop。 -/
def bitposLoop (increment : Int) (mask : Nat) (lsbPos : Int) (out : List Int) : List Int :=
  if mask = 0 then
    out
  else
    bitposLoop increment (mask >>> 1) (lsbPos + increment)
      (if mask &&& 1 = 1 then out ++ [lsbPos] else out)
termination_by mask
decreasing_by
  rw [Nat.shiftRight_succ, Nat.shiftRight_zero]
  omega

/-- `bitpos_from_mask(mask, lsb_pos, increment)`。 -/
def bitposFromMask (mask : Nat) (lsbPos increment : Int) : List Int :=
  (bitposLoop increment mask lsbPos []).mergeSort

/-- loop は、立っている bit を下から順に並べる。 -/
theorem bitposLoop_eq (increment : Int) (n mask : Nat) (h : mask < 2 ^ n) (lsbPos : Int)
    (out : List Int) : bitposLoop increment mask lsbPos out
      = out ++ ((List.range n).filter mask.testBit).map fun k : Nat => lsbPos + k * increment := by
  induction n generalizing mask lsbPos out with
  | zero =>
    have hzero : mask = 0 := by
      rw [Nat.pow_zero] at h
      omega
    rw [bitposLoop, if_pos hzero]
    simp
  | succ n ih =>
    by_cases hzero : mask = 0
    · subst hzero
      rw [bitposLoop, if_pos rfl, List.filter_eq_nil_iff.mpr (by simp)]
      simp
    · have hhalf : mask >>> 1 < 2 ^ n := by
        rw [Nat.shiftRight_succ, Nat.shiftRight_zero]
        rw [Nat.pow_succ] at h
        omega
      have htail : ((List.range n).map Nat.succ).filter mask.testBit
          = ((List.range n).filter (mask >>> 1).testBit).map Nat.succ := by
        rw [List.filter_map]
        congr 1
        refine List.filter_congr fun k _ => ?_
        show mask.testBit (k + 1) = (mask >>> 1).testBit k
        rw [Nat.testBit_shiftRight, Nat.add_comm]
      have hstep : ∀ k : Nat, lsbPos + increment + k * increment
          = lsbPos + (k + 1 : Nat) * increment := by
        intro k
        rw [Int.natCast_add, Int.add_mul]
        omega
      rw [bitposLoop, if_neg hzero, ih _ hhalf, List.range_succ_eq_map, List.filter_cons, htail]
      rw [Nat.testBit_zero, Nat.and_one_is_mod]
      by_cases hodd : mask % 2 = 1
      · simp [hodd, hstep, Function.comp_def]
      · simp [hodd, hstep, Function.comp_def]

/-- 降りていく位置を小さい順に並べ直したもの。 -/
theorem bitposFromMask_eq (n mask : Nat) (h : mask < 2 ^ n) (top : Nat) (hn : n ≤ top) :
    (bitposFromMask mask top (-1)).map Int.toNat
      = (List.range' (top + 1 - n) n).filter fun i => mask.testBit (top - i) := by
  have hloop : bitposLoop (-1) mask top []
      = (((List.range n).map fun k => top - k).filter fun i => mask.testBit (top - i)).map
          Int.ofNat := by
    rw [bitposLoop_eq (-1) n mask h, List.nil_append, List.filter_map, List.map_map]
    have hfilter : (List.range n).filter mask.testBit
        = (List.range n).filter ((fun i => mask.testBit (top - i)) ∘ fun k => top - k) := by
      refine List.filter_congr fun k hk => ?_
      rw [List.mem_range] at hk
      show mask.testBit k = mask.testBit (top - (top - k))
      congr 1
      omega
    rw [← hfilter]
    refine List.map_congr_left fun k hk => ?_
    have hk := List.mem_range.mp (List.mem_of_mem_filter hk)
    show (top : Int) + k * (-1) = ((top - k : Nat) : Int)
    omega
  have hreverse : ((List.range n).map fun k => top - k).reverse = List.range' (top + 1 - n) n := by
    refine List.ext_getElem (by simp) fun i h1 h2 => ?_
    simp at h2 ⊢
    omega
  -- どちらも狭義に増える列で、同じ位置からなる
  have hperm : (bitposLoop (-1) mask top []).Perm
      (((List.range' (top + 1 - n) n).filter fun i => mask.testBit (top - i)).map Int.ofNat) := by
    rw [hloop, ← hreverse]
    exact (((List.reverse_perm _).symm).filter _).map _
  have hsorted : (((List.range' (top + 1 - n) n).filter fun i => mask.testBit (top - i)).map
      Int.ofNat).Pairwise (· ≤ ·) := by
    rw [List.pairwise_map]
    refine (List.Pairwise.filter _ List.pairwise_le_range').imp fun h => ?_
    exact Int.ofNat_le.mpr h
  have hmerge : bitposFromMask mask top (-1)
      = ((List.range' (top + 1 - n) n).filter fun i => mask.testBit (top - i)).map Int.ofNat :=
    List.Perm.eq_of_sortedLE List.sortedLE_mergeSort hsorted.sortedLE
      ((List.mergeSort_perm _ _).trans hperm)
  rw [hmerge, List.map_map]
  exact List.map_id _

/-! ## `EntityClass` -/

/-- `AttributeAccess`。 -/
inductive AttributeAccess where
  | readable
  | writable
  | setByCreate
deriving DecidableEq

namespace AttributeAccess

abbrev r : AttributeAccess := readable
abbrev w : AttributeAccess := writable
abbrev sbc : AttributeAccess := setByCreate

end AttributeAccess

/-- `_fld`。 -/
structure Fld where
  name : String
  kind : FieldKind
  default : Value

/-- `EntityClassAttribute`。 -/
structure EntityClassAttribute where
  fld : Fld
  access : List AttributeAccess

/--
`EntityClass` の派生 class。

位置 0 は `managed_entity_id` で、名前は重ならず、16 bit の mask に収まる。
-/
structure EntityClass where
  classId : Nat
  attributes : List EntityClassAttribute
  nodup : (attributes.map fun a => a.fld.name).Nodup := by decide
  length_le : attributes.length ≤ 17 := by decide
  size_pos : ∀ a ∈ attributes, 0 < a.fld.kind.size := by decide
  head : ∀ a ∈ attributes.head?, a.fld.name = "managed_entity_id" := by decide

namespace EntityClass

/-- `attribute_name_to_index_map`。 -/
def attributeNameToIndexMap (c : EntityClass) : List (String × Nat) :=
  KeyedList.positions (fun a => a.fld.name) c.attributes

/-- `attribute_name_to_index_map[name]`。 -/
def index (c : EntityClass) (name : String) : Except OmciError Nat :=
  ofOption .keyError (c.attributeNameToIndexMap.lookup name)

/-- `byte1_mask_to_attr_indices[m]`。 -/
def byte1MaskToAttrIndices (m : Nat) : List Nat := (bitposFromMask m 8 (-1)).map Int.toNat

/-- `byte2_mask_to_attr_indices[m]`。 -/
def byte2MaskToAttrIndices (m : Nat) : List Nat := (bitposFromMask m 16 (-1)).map Int.toNat

/-- `attribute_indices_from_mask(mask)`。 -/
def attributeIndicesFromMask (mask : Nat) : List Nat :=
  byte1MaskToAttrIndices ((mask >>> 8) &&& 0xff) ++ byte2MaskToAttrIndices (mask &&& 0xff)

/-- `mask_for(*attr_names)`。負の shift は `ValueError` になる。 -/
def maskFor (c : EntityClass) (attrNames : List String) : Except OmciError Nat :=
  attrNames.foldlM (fun mask attrName => do
    let index ← c.index attrName
    if 16 < index then
      throw .valueError
    pure (mask ||| 1 <<< (16 - index))) 0

end EntityClass

/-- entity。持っている属性の値で、名前は class のものである。 -/
structure Entity (c : EntityClass) where
  data : List (String × Value)
  nodup : (data.map Prod.fst).Nodup
  /-- `__init__` の `assert`。 -/
  known : ∀ name ∈ data.map Prod.fst, name ∈ c.attributes.map fun a => a.fld.name

namespace Entity

variable {c : EntityClass}

/-- 持っている属性の名前。 -/
def names (e : Entity c) : List String := e.data.map Prod.fst

/-- `attribute_indices_from_data()`。 -/
def attributeIndicesFromData (e : Entity c) : Except OmciError (List Nat) :=
  (e.names.mapM c.index).map fun indices => indices.mergeSort

/-- 位置 `index` の属性を一つ足す。 -/
def serializeAttribute (F : Scapy) (e : Entity c) (bytes : Bytes) (index : Nat) :
    Except OmciError Bytes := do
  let entry ← ofOption .indexError c.attributes[index]?
  let field := entry.fld
  let value ← ofOption (.uninitializedField field.name) (e.data.lookup field.name)
  ofOption .structError (F.addfield field.kind bytes value)

/-- `serialize(mask)`。 -/
def serialize (F : Scapy) (e : Entity c) (mask : Option Nat) : Except OmciError Bytes := do
  let attributeIndices ← match mask with
    | some mask => pure (EntityClass.attributeIndicesFromMask mask)
    | none => e.attributeIndicesFromData
  attributeIndices.foldlM (e.serializeAttribute F) []

end Entity

/-! ## 位置の列 -/

namespace EntityClass

theorem byteIndices {m : Nat} (h : m < 256) {top : Nat} (htop : 8 ≤ top) :
    (bitposFromMask m top (-1)).map Int.toNat
      = (List.range' (top - 7) 8).filter fun i => m.testBit (top - i) := by
  rw [bitposFromMask_eq 8 m h top htop]
  rfl

/-- mask の表す位置を小さい順に並べた列。 -/
theorem attributeIndicesFromMask_eq (mask : Nat) :
    attributeIndicesFromMask mask
      = (List.range' 1 16).filter fun i => mask.testBit (16 - i) := by
  have hbyte : ∀ n : Nat, n &&& 0xff < 256 := fun n => Nat.lt_succ_of_le Nat.and_le_right
  have hbit : ∀ n k : Nat, k < 8 → (n &&& 0xff).testBit k = n.testBit k := by
    intro n k hk
    rw [Nat.testBit_and, show (0xff : Nat) = 2 ^ 8 - 1 from rfl, Nat.testBit_two_pow_sub_one]
    simp [hk]
  rw [attributeIndicesFromMask, byte1MaskToAttrIndices, byte2MaskToAttrIndices,
    show ((8 : Int)) = ((8 : Nat) : Int) from rfl, show ((16 : Int)) = ((16 : Nat) : Int) from rfl,
    byteIndices (hbyte _) (by decide), byteIndices (hbyte _) (by decide),
    show List.range' 1 16 = List.range' 1 8 ++ List.range' 9 8 from rfl, List.filter_append]
  congr 1
  · refine List.filter_congr fun i hi => ?_
    rw [List.mem_range'_1] at hi
    rw [hbit _ _ (by omega), Nat.testBit_shiftRight]
    congr 1
    omega
  · refine List.filter_congr fun i hi => ?_
    rw [List.mem_range'_1] at hi
    exact hbit _ _ (by omega)

/-- 下の 16 bit だけが読まれる。 -/
theorem attributeIndicesFromMask_mod (mask : Nat) :
    attributeIndicesFromMask (mask % 0x10000) = attributeIndicesFromMask mask := by
  rw [attributeIndicesFromMask_eq, attributeIndicesFromMask_eq]
  refine List.filter_congr fun i hi => ?_
  rw [List.mem_range'_1] at hi
  rw [show (0x10000 : Nat) = 2 ^ 16 from rfl, Nat.testBit_mod_two_pow]
  simp
  omega

theorem mem_attributeIndicesFromMask {mask i : Nat} :
    i ∈ attributeIndicesFromMask mask ↔ (1 ≤ i ∧ i ≤ 16) ∧ mask.testBit (16 - i) := by
  rw [attributeIndicesFromMask_eq, List.mem_filter, List.mem_range'_1]
  refine and_congr_left fun _ => ?_
  omega

end EntityClass

end Voltha.Omci
