import Mathlib.Data.List.DropRight
import Voltha.Lib.Py
import Voltha.Lib.Worklist

/-!
# protobuf の記述から swagger を作る

`chameleon/protoc_plugins/swagger_template.py`。protobuf の file の記述（native descriptor）から、型の
定義と REST の path を作る。

型の定義は、HTTP の option を持つ method の入力と出力の型から始め、field の指す型をたどって集める。
map の field は、entry の型を定義せずに、**値の field の property をその場に埋め込む**。

再帰の深さの上限は `limit`、`set.pop` の選び方は `choice` とする。
-/

namespace Voltha.Chameleon

/-- 飛ぶ例外。`notTerminating` は source には無く、loop の上限を超えたことを表す。 -/
inductive SwaggerError where
  | keyError
  | indexError
  | assertionError
  | notImplementedError
  | recursionError
  | duplicateMethodAndPath (message : String)
  | invalidPathArgument (message : String)
  | notTerminating
deriving DecidableEq, Repr

/-! ## native descriptor -/

/-- `FieldDescriptor` の型の番号。 -/
inductive FieldType where
  | double
  | float
  | int64
  | uint64
  | int32
  | fixed64
  | fixed32
  | bool
  | string
  | group
  | message
  | bytes
  | uint32
  | enum
  | sfixed32
  | sfixed64
  | sint32
  | sint64
deriving DecidableEq, Repr

structure Field where
  name : String
  repeated : Bool
  type : FieldType
  typeName : String
  description : Option String
deriving DecidableEq, Repr

structure EnumValue where
  name : String
  description : String
deriving DecidableEq, Repr

structure EnumType where
  name : String
  value : List EnumValue
  description : String
deriving DecidableEq, Repr

inductive MessageType where
  | mk (name : String) (field : List Field) (nestedType : List MessageType)
      (enumType : List EnumType) (mapEntry : Bool) (description : Option String)

namespace MessageType

def name : MessageType → String | mk n _ _ _ _ _ => n

def field : MessageType → List Field | mk _ f _ _ _ _ => f

def nestedType : MessageType → List MessageType | mk _ _ n _ _ _ => n

def enumType : MessageType → List EnumType | mk _ _ _ e _ _ => e

def mapEntry : MessageType → Bool | mk _ _ _ _ m _ => m

def description : MessageType → Option String | mk _ _ _ _ _ d => d

end MessageType

/-- `google.api.http` の option の一つ。`custom` は種類と path。 -/
structure HttpBinding where
  get : Option String
  delete : Option String
  patch : Option String
  post : Option String
  put : Option String
  custom : Option (String × String)
  body : Option String
deriving DecidableEq, Repr

structure HttpRule extends HttpBinding where
  additionalBindings : List HttpBinding
deriving DecidableEq, Repr

/-- `method`。`options` は、その option の `http`。 -/
structure Method where
  name : String
  inputType : String
  outputType : String
  options : Option (Option HttpRule)
  description : String
deriving DecidableEq, Repr

structure Service where
  name : String
  method : List Method
deriving DecidableEq, Repr

structure FileDescriptor where
  name : String
  package : Option String
  messageType : List MessageType
  enumType : List EnumType
  service : List Service

/-- `all_types` の値。 -/
inductive TypeDesc where
  | message (m : MessageType)
  | enum (e : EnumType)

/-! ## swagger -/

/-- property。`described` は、`description` を書き足したもの。 -/
inductive Property where
  | scalar (type format : String)
  | ref (ref : String)
  | object (additionalProperties : Property)
  | array (items : Property)
  | described (p : Property) (description : String)
deriving DecidableEq, Repr

inductive Definition where
  | object (properties : List (String × Property)) (description : Option String)
  | enum (values : List String) (default description : String)
deriving DecidableEq, Repr

inductive Parameter where
  | path (name type format : String)
  | body (schema : String)
deriving DecidableEq, Repr

structure Entry where
  operationId : String
  tag : String
  response : String
  parameters : List Parameter
  summary : Option String
  description : Option String
deriving DecidableEq, Repr

/-- path ごとの、HTTP の method ごとの項目。 -/
abbrev Paths := List (String × List (String × Entry))

structure Swagger where
  title : String
  paths : Paths
  definitions : List (String × Definition)
deriving DecidableEq, Repr

/-! ## 文字列 -/

/-- `s.strip('.')`。 -/
def stripDots (s : String) : String :=
  .ofList ((s.toList.dropWhile (· = '.')).rdropWhile (· = '.'))

/-- `'#/definitions/{}'.format(type_name)`。 -/
def definitionRef (typeName : String) : String := "#/definitions/" ++ typeName

/-- `d[k]`。 -/
def getItem {β : Type} (d : List (String × β)) (k : String) : Except SwaggerError β :=
  match d.lookup k with
  | some b => .ok b
  | none => .error .keyError

/-! ## 型を集める -/

mutual

def iterateType (pre : String) : MessageType → List (String × MessageType)
  | .mk name field nestedType enumType mapEntry description =>
    (pre ++ "." ++ name, .mk name field nestedType enumType mapEntry description)
      :: iterateForTypeIn (pre ++ "." ++ name) nestedType

/-- `iterate_for_type_in(message_types, prefix)`。 -/
def iterateForTypeIn (pre : String) : List MessageType → List (String × MessageType)
  | [] => []
  | m :: ms => iterateType pre m ++ iterateForTypeIn pre ms

end

/-- `descriptor['package']`。 -/
def FileDescriptor.getPackage (d : FileDescriptor) : Except SwaggerError String :=
  match d.package with
  | some p => .ok p
  | none => .error .keyError

/-- `iterate_message_types(descriptors)`。 -/
def iterateMessageTypes (descriptors : List FileDescriptor) :
    Except SwaggerError (List (String × MessageType)) := do
  let types ← descriptors.mapM fun d => do
    let package ← d.getPackage
    return iterateForTypeIn package d.messageType
  return types.flatten

/-- `iterate_enum_types(descriptors)`。 -/
def iterateEnumTypes (descriptors : List FileDescriptor) :
    Except SwaggerError (List (String × EnumType)) := do
  let types ← descriptors.mapM fun d => do
    let package ← d.getPackage
    return d.enumType.map (fun e => (package ++ "." ++ e.name, e)) ++
      (iterateForTypeIn package d.messageType).flatMap fun (fullName, m) =>
        m.enumType.map fun e => (fullName ++ "." ++ e.name, e)
  return types.flatten

/-- HTTP の option を持つ method。 -/
structure HttpMethod where
  fullName : String
  service : Service
  method : Method
  http : HttpRule

/-- `iterate_methods(descriptors)`。`options` の無い method では `KeyError` になる。 -/
def iterateMethods (descriptors : List FileDescriptor) : Except SwaggerError (List HttpMethod) := do
  let methods ← descriptors.mapM fun d => do
    let package ← d.getPackage
    let perService ← d.service.mapM fun service => do
      let found ← service.method.mapM fun method =>
        match method.options with
        | none => .error .keyError
        | some none => .ok none
        | some (some http) =>
          .ok (some ⟨package ++ "." ++ service.name ++ "." ++ method.name, service, method, http⟩)
      return found.filterMap id
    return perService.flatten
  return methods.flatten

/-- `gather_all_methods(descriptors)`。参照される型の集合と、名前ごとの method。 -/
def gatherAllMethods (descriptors : List FileDescriptor) :
    Except SwaggerError (List String × List (String × HttpMethod)) := do
  let methods ← iterateMethods descriptors
  let typesReferenced := methods.flatMap fun m =>
    [stripDots m.method.inputType, stripDots m.method.outputType]
  return (typesReferenced.dedup, OrderedDict.ofList (methods.map fun m => (m.fullName, m)))

/-! ## 型の定義 -/

/-- `TYPE_MAP`。message と group は載っていない。 -/
def typeMap : FieldType → Option (String × String)
  | .bool => some ("boolean", "boolean")
  | .bytes => some ("string", "byte")
  | .double => some ("number", "double")
  | .enum => some ("string", "string")
  | .fixed32 => some ("integer", "int64")
  | .fixed64 => some ("string", "uint64")
  | .float => some ("number", "float")
  | .int32 => some ("integer", "int32")
  | .int64 => some ("string", "int64")
  | .sfixed32 => some ("integer", "int32")
  | .sfixed64 => some ("string", "int64")
  | .string => some ("string", "string")
  | .sint32 => some ("integer", "int32")
  | .sint64 => some ("string", "int64")
  | .uint32 => some ("integer", "int64")
  | .uint64 => some ("string", "uint64")
  | .message => none
  | .group => none

/-- `make_enum_definition(type)`。 -/
def makeEnumDefinition (type : EnumType) : Except SwaggerError Definition :=
  match type.value with
  | [] => .error .indexError
  | first :: rest =>
    let valueDesc (v : EnumValue) : String :=
      " - " ++ v.name ++ if v.description = "" then "" else ": " ++ v.description
    let description := (if type.description = "" then type.name else type.description) ++
      "\nValid values:\n" ++ "\n".intercalate ((first :: rest).map valueDesc)
    .ok (.enum ((first :: rest).map EnumValue.name) first.name description)

section Types

variable (types : List (String × TypeDesc))

/-- map の entry の型なら、`type['field'][1]` を返す。 -/
def mapValueField (typeName : String) : Except SwaggerError (Option Field) := do
  match ← getItem types typeName with
  | .enum _ => return none
  | .message m =>
    if m.mapEntry then
      match m.field with
      | [] => .error .keyError
      | [_] => .error .indexError
      | _ :: value :: _ => return some value
    else return none

/-- 型ごとの property。参照した型と、`repeated` のままかを添える。`make` は、自分自身の呼び出し。 -/
def bareProperty (make : Field → Except SwaggerError (String × Property × List String))
    (field : Field) : Except SwaggerError (Property × List String × Bool) :=
  let typeName := stripDots field.typeName
  match field.type with
  | .message => do
    match ← mapValueField types typeName with
    | some value =>
      -- 値の型への参照は捨てられる
      let (_, property, _) ← make value
      return (.object property, [], false)
    | none =>
      if typeName = "google.protobuf.Timestamp" then
        return (.scalar "string" "date-time", [], field.repeated)
      else return (.ref (definitionRef typeName), [typeName], field.repeated)
  | .enum => .ok (.ref (definitionRef typeName), [typeName], field.repeated)
  | .group => .error .notImplementedError
  | scalar =>
    match typeMap scalar with
    | some (type, format) => .ok (.scalar type format, [], field.repeated)
    | none => .error .keyError

/-- 繰り返しと説明を付ける。 -/
def finishProperty (repeated : Bool) (description : Option String) (property : Property) :
    Property :=
  let property := if repeated then .array property else property
  match description with
  | some description => .described property description
  | none => property

/-- `make_property(field, types)`。property と、参照した型を返す。 -/
def makeProperty : Nat → Field → Except SwaggerError (String × Property × List String)
  | 0, _ => .error .recursionError
  | limit + 1, field => do
    let (property, referenced, repeated) ← bareProperty types (makeProperty limit) field
    return (field.name, finishProperty repeated field.description property, referenced)

/-- `make_object_definition(type, types)`。 -/
def makeObjectDefinition (limit : Nat) (type : MessageType) :
    Except SwaggerError (Definition × List String) := do
  let made ← type.field.mapM (makeProperty types limit)
  let properties := OrderedDict.ofList (made.map fun (name, property, _) => (name, property))
  return (.object properties type.description, made.flatMap fun (_, _, referenced) => referenced)

/-- `make_definition(type, types)`。 -/
def makeDefinition (limit : Nat) : TypeDesc → Except SwaggerError (Definition × List String)
  | .enum type => do
    let definition ← makeEnumDefinition type
    return (definition, [])
  | .message type => makeObjectDefinition types limit type

/-- `generate_definitions(types_referenced, types)` の loop の一回。 -/
def visitType (limit : Nat) (fullName : String) :
    Except SwaggerError (Definition × List String) := do
  let type ← getItem types fullName
  makeDefinition types limit type

/-- `generate_definitions(types_referenced, types)`。 -/
def generateDefinitions (choice : List String → Nat) (limit : Nat) (typesReferenced : List String) :
    Except SwaggerError (List (String × Definition)) :=
  Worklist.run (visitType types limit) choice .notTerminating (types.length + 1) [] typesReferenced

end Types

/-! ## path -/

/-- `re_segment` の一致。`symbolic` は括弧を外したもの。 -/
inductive Segment where
  | absolute (text : List Char)
  | symbolic (text : List Char)
deriving DecidableEq, Repr

/-- `re_segment.findall(path)`。一回で一文字は進むので、`fuel` は長さで足りる。 -/
def findSegments : Nat → List Char → List Segment
  | 0, _ => []
  | _, [] => []
  | fuel + 1, '/' :: rest =>
    match rest.takeWhile fun c => c ∉ ['{', '}', '/'] with
    | [] => findSegments fuel rest
    | text => .absolute text :: findSegments fuel (rest.drop text.length)
  | fuel + 1, '{' :: rest =>
    let text := rest.takeWhile (· ≠ '}')
    match text, rest.drop text.length with
    | _ :: _, '}' :: rest' => .symbolic text :: findSegments fuel rest'
    | _, _ => findSegments fuel rest
  | fuel + 1, _ :: rest => findSegments fuel rest

/-- `s.split('=')[0]`。 -/
def beforeEquals (s : List Char) : List Char := s.takeWhile (· ≠ '=')

/-- `prune_path(path)`。 -/
def prunePath (path : List Char) : List Char :=
  let pruned := (findSegments path.length path).map fun
    | .absolute text => text
    | .symbolic text => '{' :: beforeEquals text ++ ['}']
  '/' :: ['/'].intercalate pruned

/-- `re_path_param.findall(path)`。`{` の後を、次の `{` の前にある最後の `}` まで取る。 -/
def findPathParams : Nat → List Char → List (List Char)
  | 0, _ => []
  | fuel + 1, '/' :: '{' :: rest =>
    let upToBrace := ((rest.takeWhile (· ≠ '{')).rdropWhile (· ≠ '}')).dropLast
    match upToBrace with
    | [] => findPathParams fuel ('{' :: rest)
    | text => text :: findPathParams fuel (rest.drop (text.length + 1))
  | _, [] => []
  | fuel + 1, _ :: rest => findPathParams fuel rest

namespace Property

/-- `field.get('type')`。 -/
def type? : Property → Option String
  | scalar type _ => some type
  | ref _ => none
  | object _ => some "object"
  | array _ => some "array"
  | described p _ => p.type?

/-- `field.get('format')`。 -/
def format? : Property → Option String
  | scalar _ format => some format
  | described p _ => p.format?
  | _ => none

/-- `field.get('$ref')`。 -/
def ref? : Property → Option String
  | ref r => some r
  | described p _ => p.ref?
  | _ => none

end Property

/-- `definition.get('properties')`。無いときは、空の列で表してある。 -/
def Definition.properties? : Definition → Option (List (String × Property))
  | .object [] _ => none
  | .object properties _ => some properties
  | .enum .. => none

/-- 値が無ければ `KeyError`。 -/
def required {α : Type} : Option α → Except SwaggerError α
  | some a => .ok a
  | none => .error .keyError

section Definitions

variable (definitions : List (String × Definition))

/-- `lookup_input_type(input_type_name)`。 -/
def lookupInputType (inputTypeName : String) : Except SwaggerError Definition :=
  getItem definitions (stripDots inputTypeName)

/-- `lookup_type(input_type, field_name)`。`.` で区切った先の型は、`$ref` をたどって調べる。 -/
def lookupType (inputType : Definition) (fieldName : List Char) :
    Except SwaggerError (String × String) := do
  let localFieldName := fieldName.takeWhile (· ≠ '.')
  let rest := fieldName.drop (localFieldName.length + 1)
  let properties ← required inputType.properties?
  match properties.lookup (.ofList localFieldName) with
  | none => .error (.invalidPathArgument ("Input type has no field " ++ .ofList fieldName))
  | some field =>
    if _hrest : rest = [] then return (← required field.type?, ← required field.format?)
    else if field.type?.getD "object" ≠ "object" then .error .assertionError
    else
      let ref ← required field.ref?
      if !ref.startsWith "#/definitions/" then .error .assertionError
      else
        let nested ← lookupInputType definitions (ref.replace "#/definitions/" "")
        lookupType nested rest
termination_by fieldName.length
decreasing_by
  have := List.length_pos_of_ne_nil _hrest
  rw [List.length_drop] at this ⊢
  omega

end Definitions

/-- `extract_summary_and_description(obj)`。 -/
def extractSummaryAndDescription (text : List Char) : Option String × Option String :=
  if text = [] then (none, none)
  else
    let first := text.takeWhile (· ≠ '\n')
    let rest := text.drop (first.length + 1)
    let blank := rest.takeWhile (· ≠ '\n')
    let detail := rest.drop (blank.length + 1)
    if Py.strip blank = [] then
      (some (.ofList first), if Py.strip detail = [] then none else some (.ofList detail))
    else (none, some (.ofList text))

/-- HTTP の method と path。`custom` は、他と並べて書けない。 -/
def HttpBinding.verbAndPath (http : HttpBinding) : Except SwaggerError (String × String) :=
  let candidates := [("get", http.get), ("delete", http.delete), ("patch", http.patch),
    ("post", http.post), ("put", http.put)]
  match candidates.findSome? fun (verb, path) => path.map fun path => (verb, path), http.custom with
  | some verb, none => .ok verb
  | none, some verb => .ok verb
  | _, _ => .error .assertionError

/-- `make_entry(service, method, http)`。 -/
def makeEntry (definitions : List (String × Definition)) (service : Service) (method : Method)
    (http : HttpBinding) : Except SwaggerError (String × String × Entry) := do
  let (verb, path) ← http.verbAndPath
  let path := prunePath path.toList
  let inputType ← lookupInputType definitions method.inputType
  let pathParameters ← (findPathParams path.length path).mapM fun segment => do
    let symbol := beforeEquals segment
    let (type, format) ← lookupType definitions inputType symbol
    return Parameter.path (.ofList symbol) type format
  let bodyParameters := match http.body with
    | some _ => [Parameter.body (definitionRef (stripDots method.inputType))]
    | none => []
  let (summary, description) := extractSummaryAndDescription method.description.toList
  return (.ofList path, verb, {
    operationId := method.name
    tag := service.name
    response := definitionRef (stripDots method.outputType)
    parameters := pathParameters ++ bodyParameters
    summary := summary.filter (· ≠ "")
    description := description.filter (· ≠ "") })

/-- `paths` に項目を足す。 -/
def addEntry (paths : Paths) (path verb : String) (entry : Entry) : Except SwaggerError Paths :=
  let pathDict := (paths.lookup path).getD []
  if verb ∈ pathDict.map Prod.fst then
    .error (.duplicateMethodAndPath
      ("There is already a " ++ verb ++ " method defined for path (" ++ path ++ ")"))
  else .ok (OrderedDict.set paths path (OrderedDict.set pathDict verb entry))

/-- `generate_paths(methods_dict, definitions)`。 -/
def generatePaths (methods : List (String × HttpMethod)) (definitions : List (String × Definition)) :
    Except SwaggerError Paths :=
  let bindings := methods.flatMap fun (_, m) =>
    (m.http.toHttpBinding :: m.http.additionalBindings).map fun http => (m, http)
  bindings.foldlM
    (fun paths (m, http) => do
      let (path, verb, entry) ← makeEntry definitions m.service m.method http
      addEntry paths path verb entry) []

/-- `all_types`。message と enum の名前は重ならない。 -/
def gatherAllTypes (descriptors : List FileDescriptor) :
    Except SwaggerError (List (String × TypeDesc)) := do
  let messageTypes ← iterateMessageTypes descriptors
  let enumTypes ← iterateEnumTypes descriptors
  if messageTypes.any fun m => enumTypes.any fun e => m.1 = e.1 then .error .assertionError
  else
    return OrderedDict.ofList (messageTypes.map (fun (n, m) => (n, TypeDesc.message m)) ++
      enumTypes.map fun (n, e) => (n, TypeDesc.enum e))

/-- `native_descriptors_to_swagger(native_descriptors)`。 -/
def nativeDescriptorsToSwagger (choice : List String → Nat) (limit : Nat)
    (descriptors : List FileDescriptor) : Except SwaggerError Swagger := do
  let allTypes ← gatherAllTypes descriptors
  let (typesReferenced, methods) ← gatherAllMethods descriptors
  let definitions ← generateDefinitions allTypes choice limit typesReferenced
  let paths ← generatePaths methods definitions
  match descriptors.getLast? with
  | none => .error .indexError
  | some root => return ⟨root.name, paths, definitions⟩

end Voltha.Chameleon
