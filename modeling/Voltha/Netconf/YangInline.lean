import Voltha.Lib.PyString
import Voltha.Netconf.YangTemplate

/-!
# annotation で field を埋め込む

`netconf/protoc_plugins/proto2yang.py` の `traverse_options` と `update_fields_per_annotations_rule`。
`voltha.yang_inline_node` の付いた field を、それが指す message の field に置き換える。

annotation は、まず file の記述から `full_name` とともに集められ、あとで field の `full_name` で引かれる。
**集めるときと引くときとで、file の名前の削り方が違う**。

`full_name` は `-` で区切る。message の rule は、付いているかどうかだけを見る。
-/

namespace Voltha.Netconf.Yang

open PyString
open Voltha.Chameleon (FieldType Field EnumType)

/-! ## annotation の付いた記述 -/

/-- `voltha.InlineNode`。 -/
structure InlineNode where
  id : String
  type : String
deriving DecidableEq, Repr

structure AnnotatedField extends Field where
  inline : Option InlineNode
deriving DecidableEq, Repr

/-- `options` は、message の option の完全な名前と値。 -/
inductive AnnotatedMessage where
  | mk (name : String) (field : List AnnotatedField) (nestedType : List AnnotatedMessage)
      (enumType : List EnumType) (options : List (String × Nat))

namespace AnnotatedMessage

def name : AnnotatedMessage → String | mk n _ _ _ _ => n

def field : AnnotatedMessage → List AnnotatedField | mk _ f _ _ _ => f

def nestedType : AnnotatedMessage → List AnnotatedMessage | mk _ _ n _ _ => n

def enumType : AnnotatedMessage → List EnumType | mk _ _ _ e _ => e

def options : AnnotatedMessage → List (String × Nat) | mk _ _ _ _ o => o

end AnnotatedMessage

structure AnnotatedFile where
  name : String
  messageType : List AnnotatedMessage

/-! ## `traverse_options` -/

structure FieldOption where
  name : String
  option : String
  protoName : String
  protoType : String
deriving DecidableEq, Repr

inductive MessageOption where
  | mk (name : String) (options : List (String × Nat)) (fieldOptions : Option (List FieldOption))
      (nestedOptions : List MessageOption)

/-- 一つの field の annotation。 -/
def fieldOption (field : AnnotatedField) (pre : String) : List FieldOption :=
  if field.type = .message ∧ field.repeated = false then
    match field.inline with
    | some node => [⟨pre ++ "-" ++ field.name, "voltha.yang_inline_node", node.id, node.type⟩]
    | none => []
  else []

/-- `traverse_field_options(fields, prefix)`。`return` が loop の中にあり、先頭の field だけを見る。 -/
def traverseFieldOptions (fields : List AnnotatedField) (pre : String) :
    Option (List FieldOption) :=
  match fields with
  | [] => none
  | field :: _ => some (fieldOption field pre)

mutual

/-- `traverse_message_options` の、一つの message。 -/
def traverseMessageOption (pre : String) : AnnotatedMessage → List MessageOption
  | .mk name field nestedType _ options =>
    let fullName := pre ++ "-" ++ name
    let optionRules := options.filter fun o =>
      o.1 ∈ ["voltha.yang_child_rule", "voltha.yang_message_rule"]
    let fieldOptions := traverseFieldOptions field fullName
    let nestedOptions := traverseMessageOptions fullName nestedType
    if optionRules ≠ [] ∨ nestedOptions.isEmpty = false ∨ fieldOptions.getD [] ≠ [] then
      [.mk fullName optionRules fieldOptions nestedOptions]
    else []

/-- `traverse_message_options(message_types, prefix)`。 -/
def traverseMessageOptions (pre : String) : List AnnotatedMessage → List MessageOption
  | [] => []
  | m :: ms => traverseMessageOption pre m ++ traverseMessageOptions pre ms

end

/-- `traverse_options` の `prefix`。 -/
def optionsPrefix (file : AnnotatedFile) : String := replace file.name ".proto" ""

/-- `traverse_options(proto_file)`。 -/
def traverseOptions (file : AnnotatedFile) : Option (List MessageOption) :=
  if file.messageType.isEmpty then none
  else some (traverseMessageOptions (optionsPrefix file) file.messageType)

/-! ## `traverse_messages` -/

structure FullField extends YangField where
  fullName : String
deriving DecidableEq, Repr

structure FullEnum where
  fullName : String
  name : String
deriving DecidableEq, Repr

inductive FullMessage where
  | mk (fullName : String) (name : String) (fields : List FullField) (enums : List FullEnum)
      (messages : List FullMessage)

namespace FullMessage

def fullName : FullMessage → String | mk n _ _ _ _ => n

def name : FullMessage → String | mk _ n _ _ _ => n

def fields : FullMessage → List FullField | mk _ _ f _ _ => f

def enums : FullMessage → List FullEnum | mk _ _ _ e _ => e

def messages : FullMessage → List FullMessage | mk _ _ _ _ m => m

end FullMessage

def traverseFullField (pre : String) (field : AnnotatedField) : FullField where
  toYangField := traverseField field.toField
  fullName := pre ++ "-" ++ field.name

def traverseFullEnum (pre : String) (enum : EnumType) : FullEnum :=
  ⟨pre ++ "-" ++ enum.name, enum.name⟩

mutual

def traverseFullMessage (pre : String) : AnnotatedMessage → FullMessage
  | .mk name field nestedType enumType _ =>
    .mk (pre ++ "-" ++ name) name (field.map (traverseFullField (pre ++ "-" ++ name)))
      (enumType.map (traverseFullEnum (pre ++ "-" ++ name)))
      (traverseFullMessages (pre ++ "-" ++ name) nestedType)

def traverseFullMessages (pre : String) : List AnnotatedMessage → List FullMessage
  | [] => []
  | m :: ms => traverseFullMessage pre m :: traverseFullMessages pre ms

end

/-- `traverse_desc` の `name`。 -/
def descPrefix (file : AnnotatedFile) : String := rchop file.name ".proto"

/-- `traverse_desc` の `messages`。 -/
def fullMessages (file : AnnotatedFile) : List FullMessage :=
  traverseFullMessages (descPrefix file) file.messageType

/-! ## `update_fields_per_annotations_rule` -/

mutual

/-- `get_field_options` の loop の一周の `result`。入れ子の結果が、field の結果を上書きする。 -/
def optionResult (name : String) : MessageOption → Option FieldOption
  | .mk _ _ fieldOptions nestedOptions =>
    if nestedOptions.isEmpty = false then getFieldOptions name nestedOptions
    else (fieldOptions.getD []).reverse.find? fun o => o.name = name

/-- `get_field_options(name, options)`。 -/
def getFieldOptions (name : String) : List MessageOption → Option FieldOption
  | [] => none
  | opt :: rest =>
    match optionResult name opt with
    | some result => some result
    | none => getFieldOptions name rest

end

/-- 指された message の中身を足す。 -/
def absorb (new m : FullMessage) : FullMessage :=
  match new, m with
  | .mk fullName name fields enums messages, .mk _ _ fields' enums' messages' =>
    .mk fullName name (fields ++ fields') (enums ++ enums') (messages ++ messages')

/-- `inline_field` の loop の一周。 -/
def inlineStep (messages : List FullMessage) (field : FullField) (option : FieldOption)
    (new : FullMessage) (f : FullField) : FullMessage :=
  if f.fullName = field.fullName then
    (messages.filter fun m => m.fullName = option.protoType).foldl absorb new
  else
    match new with
    | .mk fullName name fields enums messages => .mk fullName name (fields ++ [f]) enums messages

/-- `inline_field(message, field, option, messages)`。 -/
def inlineField (messages : List FullMessage) (message : FullMessage) (field : FullField)
    (option : FieldOption) : FullMessage :=
  match message with
  | .mk fullName name fields enums nested =>
    fields.foldl (inlineStep messages field option) (.mk fullName name [] enums nested)

/-- field の loop の一周。`new_message` は、annotation のある field ごとに、もとの message から作り直す。 -/
def updateStep (options : List MessageOption) (messages : List FullMessage)
    (message : FullMessage) (new : Option FullMessage) (field : FullField) : Option FullMessage :=
  match getFieldOptions field.fullName options with
  | some opt =>
    if opt.option = "voltha.yang_inline_node" then some (inlineField messages message field opt)
    else new
  | none => new

def updateMessage (options : List MessageOption) (messages : List FullMessage)
    (message : FullMessage) : FullMessage :=
  (message.fields.foldl (updateStep options messages message) none).getD message

/-- `update_fields_per_annotations_rule(options, messages)`。 -/
def updateFields (options : List MessageOption) (messages : List FullMessage) : List FullMessage :=
  messages.map (updateMessage options messages)

/-- `generate_code` の、option があるときだけの呼び出し。 -/
def inlinedMessages (file : AnnotatedFile) : List FullMessage :=
  match traverseOptions file with
  | some options =>
    if options.isEmpty then fullMessages file else updateFields options (fullMessages file)
  | none => fullMessages file

end Voltha.Netconf.Yang
