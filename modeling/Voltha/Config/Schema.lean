import Mathlib.Data.List.Nodup
import Voltha.Lib.FieldTree

/-!
# message と schema

`voltha/core/config/config_rev.py` の前半（`children_fields`、`access_rights`）が
protobuf の descriptor から読み取るものを、`Schema` として表す。

message は `FieldTree` である。label が local data（`child_node` の注釈の無い field）、
子の辞書が `child_node` の注釈のある field を持つ。
-/

namespace Voltha.Config

/-! ## 値と local data -/

/-- 葉の field の値。key になれるのは文字列と整数で、それ以外は直列化した形で持つ。 -/
inductive Value where
  | str (s : String)
  | int (n : Int)
  | raw (bytes : String)
deriving DecidableEq, Repr

-- key の列の `∈` を判定するときに使う
instance : LawfulBEq (Option Value) := inferInstance

/-- Python の `str(v)`。例外の文面に使う。 -/
def Value.render : Value → String
  | .str s => s
  | .int n => toString n
  | .raw b => b

/-- message の local data。class の名前と、子でない field の値。 -/
structure Data where
  type : String
  attrs : List (String × Value)
deriving DecidableEq, Repr

/-- `getattr(data, name)`。無い名前は `none`。 -/
def Data.attr (d : Data) (name : String) : Option Value := d.attrs.lookup name

/-- 子を含む message。 -/
abbrev Msg := FieldTree Data

/-! ## path の key -/

/-- key に使う field の型。 -/
inductive KeyType where
  | string
  | integer
deriving DecidableEq, Repr

/-- 数字の列を前から読む。数字でないものがあれば `none`。 -/
def digitsValue : List Char → Nat → Option Nat
  | [], acc => some acc
  | c :: cs, acc => if c.isDigit then digitsValue cs (acc * 10 + (c.toNat - '0'.toNat)) else none

/-- 符号つきの十進数。 -/
def signedValue : List Char → Option Int
  | [] => none
  | ['-'] => none
  | ['+'] => none
  | '-' :: cs => (digitsValue cs 0).map fun n => -(n : Int)
  | '+' :: cs => (digitsValue cs 0).map fun n => (n : Int)
  | cs => (digitsValue cs 0).map fun n => (n : Int)

/-- Python の `int(s)`。両端の空白は捨てる。 -/
def pyInt (s : String) : Option Int :=
  let front := s.toList.dropWhile Char.isWhitespace
  signedValue (front.reverse.dropWhile Char.isWhitespace).reverse

/-- `key_from_str`。整数の key で数として読めなければ `ValueError`（ここでは `none`）。 -/
def KeyType.fromStr : KeyType → String → Option Value
  | .string, s => some (.str s)
  | .integer, s => (pyInt s).map .int

/-! ## schema -/

/-- `child_node` の注釈のある field の種類。 -/
inductive FieldKind where
  | single
  | list
  | keyed (key : String) (keyType : KeyType)
deriving DecidableEq, Repr

/-- `_ChildType`。子 field の名前、子の message の型、種類。 -/
structure ChildField where
  name : String
  type : String
  kind : FieldKind
deriving DecidableEq, Repr

/-- `field.is_container`。 -/
def ChildField.isContainer (f : ChildField) : Bool :=
  match f.kind with
  | .single => false
  | _ => true

/-- `field.key`。 -/
def ChildField.key (f : ChildField) : Option String :=
  match f.kind with
  | .keyed k _ => some k
  | _ => none

section Shape

variable (fields : String → List ChildField)

/--
protobuf の message の一段ぶんの形。子の辞書は型の子 field をこの順に並べたもので、
子の型は field の型と一致し、単独の子は高々一つである。
-/
def LocalShape (m : Msg) : Prop :=
  m.children.map Prod.fst = (fields m.label.type).map ChildField.name ∧
    ∀ f ∈ fields m.label.type, (∀ c ∈ m.child f.name, c.label.type = f.type) ∧
      (f.kind = .single → (m.child f.name).length ≤ 1)

/-- 一段ぶんで、単独の子が欠けていないこと。 -/
def HasSingles (m : Msg) : Prop :=
  ∀ f ∈ fields m.label.type, f.kind = .single → m.child f.name ≠ []

instance : DecidablePred (LocalShape fields) := fun m =>
  inferInstanceAs (Decidable (_ ∧ ∀ f ∈ fields m.label.type, (∀ c ∈ m.child f.name, _) ∧ (_ → _)))

instance : DecidablePred (HasSingles fields) := fun m =>
  inferInstanceAs (Decidable (∀ f ∈ fields m.label.type, _ → _))

/-- protobuf の message。どの部分も schema のとおりの形をしている。 -/
def Shaped (m : Msg) : Prop := ∀ m' ∈ m.subtrees, LocalShape fields m'

/-- 単独の子がどこにも欠けていない message。 -/
def Full (m : Msg) : Prop := ∀ m' ∈ m.subtrees, LocalShape fields m' ∧ HasSingles fields m'

instance : DecidablePred (Shaped fields) := fun m =>
  inferInstanceAs (Decidable (∀ m' ∈ m.subtrees, _))

instance : DecidablePred (Full fields) := fun m =>
  inferInstanceAs (Decidable (∀ m' ∈ m.subtrees, _))

end Shape

/--
protobuf の定義から決まるもの。

`fields` は `children_fields(cls)`、`readOnly` は `access_rights(cls)` のうち `READ_ONLY` の field、
`default` は `cls()` である。一つの message の子 field は、名前も子の型も互いに異なる
（`voltha.proto`・`device.proto`・`logical_device.proto` はそうなっている）。
単独の子の既定値は、それ自身の単独の子まで埋まっている。
-/
structure Schema where
  fields : String → List ChildField
  readOnly : String → List String
  default : String → Msg
  names_nodup : ∀ ty, ((fields ty).map ChildField.name).Nodup
  types_nodup : ∀ ty, ((fields ty).map ChildField.type).Nodup
  default_type : ∀ ty, (default ty).label.type = ty
  full_default : ∀ ty, ∀ f ∈ fields ty, f.kind = .single → Full fields (default f.type)

namespace Schema

variable (S : Schema)

/-- `children_fields(cls)[name]`。 -/
def field? (ty name : String) : Option ChildField := (S.fields ty).find? fun f => f.name = name

theorem field?_eq_some {ty name : String} {f : ChildField} (h : S.field? ty name = some f) :
    f ∈ S.fields ty ∧ f.name = name :=
  ⟨List.mem_of_find?_eq_some h, by simpa using List.find?_some h⟩

/-- 名前は重ならないので、field は名前で一つに決まる。 -/
theorem field_unique {ty : String} {f g : ChildField} (hf : f ∈ S.fields ty) (hg : g ∈ S.fields ty)
    (h : f.name = g.name) : f = g :=
  List.inj_on_of_nodup_map (S.names_nodup ty) hf hg h

theorem field?_of_mem {ty : String} {f : ChildField} (hf : f ∈ S.fields ty) :
    S.field? ty f.name = some f := by
  unfold field?
  cases hq : (S.fields ty).find? fun g => g.name = f.name with
  | none =>
    rw [List.find?_eq_none] at hq
    simpa using hq f hf
  | some g =>
    have hg := List.mem_of_find?_eq_some hq
    have hn : g.name = f.name := by simpa using List.find?_some hq
    rw [S.field_unique hg hf hn]

end Schema

end Voltha.Config
