import Voltha.Chameleon.SwaggerTemplate

/-!
# protobuf の記述から YANG を作る

`netconf/protoc_plugins/proto2yang.py`。file ごとに一つの module を作る。annotation は無いとする。

field が YANG の node になるかどうかは、三つの表で決まる。

* `referred_messages_with_keys` — すべての file の **一段目の** message と、その key
* `referred_messages` — 指される message と enum。載っている message は grouping になる
* `data_types` — 一段目の message と enum の、module の名前

template の文字列は作らず、node と参照だけを作る。`keeps` は、loop の中の `set` が次の周でも見えるかで、
jinja2 の版によって違う。`limit` は、key を探す再帰の深さの上限。
-/

namespace Voltha.Netconf.Yang

open Voltha.Chameleon (FieldType Field EnumType MessageType Method Service FileDescriptor)

inductive YangError where
  | recursionError
deriving DecidableEq, Repr

/-! ## 名前と型 -/

/-- `s.split(c)[-1]`。 -/
def lastPart (c : Char) (s : String) : String :=
  .ofList (s.toList.reverse.takeWhile (· ≠ c)).reverse

/-- `rchop(thestring, ending)`。 -/
def rchop (s ending : String) : String :=
  if ending.toList <:+ s.toList then .ofList (s.toList.take (s.length - ending.length)) else s

/-- `remove_first_character_if_match(str, char)`。 -/
def removeFirstCharacterIfMatch (s : String) (c : Char) : String :=
  if s.toList.head? = some c then .ofList s.toList.tail else s

/-- `YANG_TYPE_MAP`。 -/
def yangTypeMap : FieldType → String × String
  | .bool => ("boolean", "boolean")
  | .bytes => ("binary", "byte")
  | .double => ("decimal64", "double")
  | .enum => ("enumeration", "enum")
  | .fixed32 => ("int32", "int64")
  | .fixed64 => ("int64", "uint64")
  | .float => ("decimal64", "float")
  | .int32 => ("int32", "int32")
  | .int64 => ("int64", "int64")
  | .sfixed32 => ("int32", "int32")
  | .sfixed64 => ("int64", "int64")
  | .string => ("string", "string")
  | .sint32 => ("int32", "int32")
  | .sint64 => ("int64", "int64")
  | .uint32 => ("uint32", "int64")
  | .uint64 => ("uint64", "uint64")
  | .message => ("message", "message")
  | .group => ("group", "group")

/-- `get_yang_type(field)`。 -/
def getYangType (field : Field) : String :=
  if (yangTypeMap field.type).1 ∈ ["enumeration", "message", "group"] then
    lastPart '.' field.typeName
  else (yangTypeMap field.type).1

/-- `is_enumeration(type)`。 -/
def isEnumeration (type : FieldType) : Bool := (yangTypeMap type).1 = "enumeration"

/-- 番号での `is_base_type(type)`。 -/
def isBaseType (type : FieldType) : Bool := (yangTypeMap type).1 ∉ ["message", "group"]

/-- 名前での `is_base_type(type)`。 -/
def isBaseTypeName (type : String) : Bool :=
  type ∈ ["boolean", "byte", "double", "enum", "int64", "uint64", "float", "int32", "string"]

/-! ## `traverse_…` -/

structure YangField where
  name : String
  repeated : Bool
  type : String
  typeRef : Bool
deriving DecidableEq, Repr

inductive YangMessage where
  | mk (name : String) (fields : List YangField) (enums : List String)
      (messages : List YangMessage)

namespace YangMessage

def name : YangMessage → String | mk n _ _ _ => n

def fields : YangMessage → List YangField | mk _ f _ _ => f

def messages : YangMessage → List YangMessage | mk _ _ _ m => m

end YangMessage

/-- `traverse_fields` の、一つの field。 -/
def traverseField (field : Field) : YangField where
  name := field.name
  repeated := field.repeated
  type := getYangType field
  typeRef := !isBaseType field.type

/-- `traverse_fields` が `referenced_messages` に足すもの。 -/
def referencedByField (field : Field) : List String :=
  (if !isBaseType field.type then [getYangType field] else []) ++
    if isEnumeration field.type then [getYangType field] else []

mutual

def traverseMessage : MessageType → YangMessage
  | .mk name field nestedType enumType _ _ =>
    .mk name (field.map traverseField) (enumType.map EnumType.name) (traverseMessages nestedType)

/-- `traverse_messages(message_types, …)`。 -/
def traverseMessages : List MessageType → List YangMessage
  | [] => []
  | m :: ms => traverseMessage m :: traverseMessages ms

end

mutual

def referencedByMessage : MessageType → List String
  | .mk _ field nestedType _ _ _ =>
    field.flatMap referencedByField ++ referencedByMessages nestedType

/-- `traverse_messages` が `referenced_messages` に足すもの。 -/
def referencedByMessages : List MessageType → List String
  | [] => []
  | m :: ms => referencedByMessage m ++ referencedByMessages ms

end

/-- method の入力か出力。`ref` は、message を指すかどうか。 -/
structure MethodType where
  name : String
  ref : Bool
deriving DecidableEq, Repr

structure YangMethod where
  service : String
  method : String
  input : MethodType
  output : MethodType
deriving DecidableEq, Repr

/-- `input_name` と `input_ref`。 -/
def methodType (typeName : String) : MethodType :=
  if isBaseTypeName typeName then ⟨typeName, false⟩
  else ⟨lastPart '.' (removeFirstCharacterIfMatch typeName '.'), true⟩

/-- `traverse_services(service_desc, …)`。 -/
def traverseServices (services : List Service) : List YangMethod :=
  services.flatMap fun service => service.method.map fun method =>
    ⟨service.name, method.name, methodType method.inputType, methodType method.outputType⟩

/-- `traverse_services` が `referenced_messages` に足すもの。 -/
def referencedByServices (methods : List YangMethod) : List String :=
  methods.flatMap fun method =>
    (if method.input.ref then [method.input.name] else []) ++
      if method.output.ref then [method.output.name] else []

/-- `traverse_desc` の結果。 -/
structure YangData where
  name : String
  messages : List YangMessage
  enums : List String
  services : List YangMethod
  definedTypes : List String
  referencedMessages : List String

/-- `traverse_desc(descriptor)`。型の名前は識別子なので、`split('/')` は何もしない。 -/
def traverseDesc (descriptor : FileDescriptor) : YangData where
  name := lastPart '/' (rchop descriptor.name ".proto")
  messages := traverseMessages descriptor.messageType
  enums := descriptor.enumType.map EnumType.name
  services := traverseServices descriptor.service
  definedTypes := (traverseMessages descriptor.messageType).map YangMessage.name ++
    descriptor.enumType.map EnumType.name
  referencedMessages := referencedByMessages descriptor.messageType ++
    referencedByServices (traverseServices descriptor.service)

/-! ## message の key -/

section Keys

variable (find : YangMessage → Except YangError (Option String)) (messages : List YangMessage)

/-- field の loop。外側の `none` は、`return` せずに終わったこと。 -/
def keyOfFields : List YangField → Except YangError (Option (Option String))
  | [] => .ok none
  | field :: rest =>
    if !field.typeRef then .ok (some (some field.name))
    else match messages.find? fun m => m.name = field.type with
      | some refMessage => do return some (← find refMessage)
      | none => keyOfFields rest

/-- 入れ子の message の loop。 -/
def keyOfNested : List YangMessage → Except YangError (Option String)
  | [] => .ok none
  | m :: rest => do
    match ← find m with
    | some key => return some key
    | none => keyOfNested rest

/-- `_get_message_key(message, messages)`。 -/
def getMessageKey : Nat → YangMessage → Except YangError (Option String)
  | 0, _ => .error .recursionError
  | depth + 1, message => do
    match ← keyOfFields (getMessageKey depth) messages message.fields with
    | some key => return key
    | none => keyOfNested (getMessageKey depth) message.messages

end Keys

mutual

def setMessageKey (limit : Nat) (level : List YangMessage) :
    YangMessage → Except YangError (Option String)
  | .mk name fields enums messages => do
    let key ← getMessageKey level limit (.mk name fields enums messages)
    let _ ← setMessagesKeys limit messages messages
    return key

/-- `set_messages_keys(messages)`。`level` は、同じ段の message の全体。 -/
def setMessagesKeys (limit : Nat) (level : List YangMessage) :
    List YangMessage → Except YangError (List (Option String))
  | [] => .ok []
  | m :: ms => do
    let key ← setMessageKey limit level m
    let keys ← setMessagesKeys limit level ms
    return key :: keys

end

/-! ## template -/

/-- `data_types` の一つ。 -/
structure DataType where
  type : String
  module : String
deriving DecidableEq, Repr

/-- `uses` か `type` の後の名前。 -/
structure TypeRef where
  module : Option String
  name : String
deriving DecidableEq, Repr

/-- macro の loop。最後の周で `found` でなければ、名前だけを書く。 -/
def prefixLoop (keeps : Bool) (module type : String) : Bool → List DataType → List TypeRef
  | _, [] => []
  | found, t :: rest =>
    let here := decide (t.type = type)
    let found := here || (keeps && found)
    (if here then [⟨if t.module ≠ module then some t.module else none, type⟩] else []) ++
      (if rest.isEmpty && !found then [⟨none, type⟩] else []) ++
      prefixLoop keeps module type found rest

inductive TypeStmt where
  | decimal64
  | named (refs : List TypeRef)
deriving DecidableEq, Repr

/-- field の node。`leafList` は、同じ名前の leaf を一つ持つ list。 -/
inductive Node where
  | container (name : String) (uses : List TypeRef)
  | list (name : String) (key : Option String) (uses : List TypeRef)
  | leafList (name : String) (type : TypeStmt)
  | leaf (name : String) (type : TypeStmt)
deriving DecidableEq, Repr

/-- message の node。 -/
inductive Block where
  | mk (grouping : Bool) (name : String) (nodes : List Node) (typedefs : List String)
      (blocks : List Block)

inductive RpcBody where
  | uses (refs : List TypeRef)
  | leaf (name : String) (type : List TypeRef)
deriving DecidableEq, Repr

structure Rpc where
  name : String
  input : RpcBody
  output : RpcBody
deriving DecidableEq, Repr

structure Module where
  name : String
  imports : List String
  typedefs : List String
  blocks : List Block
  rpcs : List Rpc

/-- template の読む表。 -/
structure Tables where
  keeps : Bool
  dataTypes : List DataType
  referredMessages : List String
  referredMessagesWithKeys : List (String × Option String)

section Render

variable (t : Tables) (module : String)

/-- `set_module_prefix(type)`。 -/
def setModulePrefix (type : String) : List TypeRef :=
  prefixLoop t.keeps module type false t.dataTypes

def typeStmt (type : String) : TypeStmt :=
  if type = "decimal64" then .decimal64 else .named (setModulePrefix t module type)

/-- 一つの field の node。message の field では、表に載っているだけ作る。 -/
def renderField (field : YangField) : List Node :=
  if field.typeRef then
    (t.referredMessagesWithKeys.filter fun item => item.1 = field.type).map fun item =>
      if field.repeated then .list field.name item.2 (setModulePrefix t module field.type)
      else .container field.name (setModulePrefix t module field.type)
  else if field.repeated then [.leafList field.name (typeStmt t module field.type)]
  else [.leaf field.name (typeStmt t module field.type)]

mutual

def renderMessage : YangMessage → Block
  | .mk name fields enums messages =>
    .mk (decide (name ∈ t.referredMessages)) name (fields.flatMap (renderField t module)) enums
      (renderMessages messages)

def renderMessages : List YangMessage → List Block
  | [] => []
  | m :: ms => renderMessage m :: renderMessages ms

end

def renderMethodType (type : MethodType) : RpcBody :=
  if type.ref then .uses (setModulePrefix t module type.name)
  else .leaf type.name (setModulePrefix t module type.name)

def renderMethod (method : YangMethod) : Rpc where
  name := method.service ++ "-" ++ method.method
  input := renderMethodType t module method.input
  output := renderMethodType t module method.output

end Render

/-- `update_module_imports(module)`。 -/
def moduleImports (dataTypes : List DataType) (data : YangData) : List String :=
  (data.referencedMessages.filterMap fun ref =>
    (dataTypes.find? fun t => t.type = ref).bind fun t =>
      if data.name ≠ t.module then some t.module else none).dedup

def renderModule (t : Tables) (data : YangData) : Module where
  name := data.name
  imports := moduleImports t.dataTypes data
  typedefs := data.enums
  blocks := renderMessages t data.name data.messages
  rpcs := data.services.map (renderMethod t data.name)

/-! ## `generate_code` -/

/-- `all_defined_types`。 -/
def allDefinedTypes (datas : List YangData) : List DataType :=
  datas.flatMap fun data => data.definedTypes.map fun type => ⟨type, data.name⟩

/-- file をまたぐ表。 -/
def tables (keeps : Bool) (datas : List YangData) (keys : List (Option String)) : Tables where
  keeps := keeps
  dataTypes := allDefinedTypes datas
  referredMessages := datas.flatMap YangData.referencedMessages
  referredMessagesWithKeys := ((datas.flatMap YangData.messages).map YangMessage.name).zip keys

/-- `generate_code(request, response)`。 -/
def generateCode (keeps : Bool) (limit : Nat) (files : List FileDescriptor) :
    Except YangError (List Module) := do
  let datas := files.map traverseDesc
  let allMessages := datas.flatMap YangData.messages
  let keys ← setMessagesKeys limit allMessages allMessages
  return datas.map (renderModule (tables keeps datas keys))

end Voltha.Netconf.Yang
