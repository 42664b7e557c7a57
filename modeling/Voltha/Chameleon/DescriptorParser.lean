import Voltha.Lib.OrderedDict

/-!
# descriptor を辞書にする

`chameleon/protoc_plugins/descriptor_parser.py`。protobuf の message を、入れ子の辞書にする。
`fold_comments` のときは、`source_code_info` の comment を、`path` の指す node の `_description` にする。

`path` は、field の番号と添字を交互に並べたものとして読む。message の型の表は
`fields_by_number` で引く。これは `descriptor_pb2` のもので、引数にする。
-/

namespace Voltha.Chameleon.DescriptorParser

inductive ParserError where
  | keyError
  | assertionError
  | indexError
deriving DecidableEq, Repr

/-! ## protobuf の message -/

/-- `other` は、`parser_table` に無い型。`long`、`float` と byte の列がある。 -/
inductive Scalar where
  | unicode (s : String)
  | int (n : Int)
  | bool (b : Bool)
  | other (type : String)
deriving DecidableEq, Repr

mutual

inductive Value where
  | scalar (s : Scalar)
  | message (fullName : String) (fields : List Field)

/-- `ListFields` の一つ。`label` は、`single` が 1 か 2、`repeated` が 3。 -/
inductive Field where
  | single (name : String) (number : Int) (value : Value)
  | repeated (name : String) (number : Int) (values : List Value)

end

namespace Field

def name : Field → String
  | single name _ _ => name
  | repeated name _ _ => name

def number : Field → Int
  | single _ number _ => number
  | repeated _ number _ => number

end Field

/-- `fields_by_number` の値。 -/
structure FieldDescriptor where
  name : String
  messageType : Option String
deriving DecidableEq, Repr

/-! ## `parse` -/

/-- Python の値。 -/
inductive Node where
  | scalar (s : Scalar)
  | list (l : List Node)
  | dict (d : List (String × Node))

/-- 両端から `p` の文字を除く。 -/
def strip (p : Char → Bool) (s : String) : String :=
  .ofList (((s.toList.dropWhile p).reverse.dropWhile p).reverse)

/-- `parser_table[type(o)](o)`。 -/
def parserTable : Scalar → Except ParserError Scalar
  | .other _ => .error .keyError
  | s => .ok s

/-- `d[type_tag_name] = m.DESCRIPTOR.full_name.strip('.')`。 -/
def tagged (typeTagName : Option String) (fullName : String) (d : List (String × Node)) :
    List (String × Node) :=
  match typeTagName with
  | some name => OrderedDict.set d name (.scalar (.unicode (strip (· = '.') fullName)))
  | none => d

mutual

/-- `parse(o, type_tag_name)`。 -/
def parse (typeTagName : Option String) : Value → Except ParserError Node
  | .scalar s => do return .scalar (← parserTable s)
  | .message fullName fields => do
    let d ← parseFields typeTagName fields
    return .dict (tagged typeTagName fullName (OrderedDict.ofList d))

/-- `parse_message` の loop。 -/
def parseFields (typeTagName : Option String) :
    List Field → Except ParserError (List (String × Node))
  | [] => return []
  | field :: rest => do
    let entry ← parseField typeTagName field
    return entry :: (← parseFields typeTagName rest)

def parseField (typeTagName : Option String) : Field → Except ParserError (String × Node)
  | .single name _ value => do return (name, ← parse typeTagName value)
  | .repeated name _ values => do return (name, .list (← parseValues typeTagName values))

def parseValues (typeTagName : Option String) : List Value → Except ParserError (List Node)
  | [] => return []
  | value :: rest => do
    let node ← parse typeTagName value
    return node :: (← parseValues typeTagName rest)

end

/-! ## `find_node_by_path` -/

/-- `l[index]` の位置。負の添字は、後ろから数える。 -/
def position (length : Nat) (index : Int) : Option Nat :=
  let i := if index < 0 then length + index else index
  if 0 ≤ i ∧ i < length then some i.toNat else none

/-- `find_node_by_path(path, meta, o)`。参照を返す代わりに、見つけた node を `write` で書き換えた
木を返す。 -/
def findNodeByPath (fieldsByNumber : String → Int → Option FieldDescriptor)
    (write : Node → Except ParserError Node) :
    List Int → Option String → Node → Except ParserError Node
  | [], _, o => write o
  | [_], _, _ => .error .assertionError
  | fieldNumber :: index :: path, some type, .dict d =>
    match fieldsByNumber type fieldNumber with
    | none => .error .keyError
    | some fieldDef =>
      match d.lookup fieldDef.name with
      | none => .error .keyError
      | some (.list field) =>
        match (position field.length index).bind fun i => (field[i]?).map fun o => (i, o) with
        | none => .error .indexError
        | some (i, childO) => do
          let childO ← findNodeByPath fieldsByNumber write path fieldDef.messageType childO
          return .dict (OrderedDict.set d fieldDef.name (.list (field.set i childO)))
      | some _ => .error .assertionError
  | _ :: _ :: _, _, _ => .error .assertionError

/-! ## `parse_file_descriptor` -/

/-- Python 2 の unicode の空白。 -/
def isSpace (c : Char) : Bool :=
  c.toNat ∈ [0x20, 0x85, 0xa0, 0x1680, 0x180e, 0x2028, 0x2029, 0x202f, 0x205f, 0x3000] ||
    (0x09 ≤ c.toNat && c.toNat ≤ 0x0d) || (0x1c ≤ c.toNat && c.toNat ≤ 0x1f) ||
    (0x2000 ≤ c.toNat && c.toNat ≤ 0x200a)

/-- `location` の、読むところ。 -/
structure Location where
  path : List Int
  comments : String
deriving DecidableEq, Repr

/-- `o.get(key)`。 -/
def Node.get (o : Node) (key : String) : Option Node :=
  match o with
  | .dict d => d.lookup key
  | _ => none

def Node.text : Node → String
  | .scalar (.unicode s) => s
  | _ => ""

def Node.index : Node → Int
  | .scalar (.int n) => n
  | _ => 0

def Node.items : Node → List Node
  | .list l => l
  | _ => []

/-- 一つの `location`。`descriptor.proto` の型のとおりに読む。 -/
def readLocation (location : Node) : Location where
  path := ((location.get "path").elim [] Node.items).map Node.index
  comments :=
    let block := fun o : Node => strip (· = ' ') o.text
    let leading := (location.get "leading_comments").elim "" block
    let trailing := (location.get "trailing_comments").elim "" block
    let detached := ((location.get "leading_detached_comments").elim [] Node.items).map block
    strip isSpace (leading ++ trailing ++ String.join detached)

/-- `d.get('source_code_info', {}).get('location', [])`。 -/
def locations (d : Node) : List Location :=
  (((d.get "source_code_info").bind fun info => info.get "location").elim [] Node.items).map
    readLocation

/-- `node['_description'] = comments`。 -/
def describe (comments : String) : Node → Except ParserError Node
  | .dict d => return .dict (OrderedDict.set d "_description" (.scalar (.unicode comments)))
  | _ => .error .assertionError

/-- `location` の loop の一周。`path` は空になるが、あとで `source_code_info` ごと消える。 -/
def foldComment (fieldsByNumber : String → Int → Option FieldDescriptor) (d : Node)
    (location : Location) : Except ParserError Node :=
  if location.comments = "" then return d
  else if location.path.length % 2 = 0 then
    findNodeByPath fieldsByNumber (describe location.comments) location.path
      (some "google.protobuf.FileDescriptorProto") d
  else return d

/-- `del d['source_code_info']`。 -/
def removeInfo : Node → Except ParserError Node
  | .dict d =>
    if "source_code_info" ∈ d.map Prod.fst then return .dict (OrderedDict.del d "source_code_info")
    else .error .keyError
  | _ => .error .keyError

/-- `parse_file_descriptor(descriptor, type_tag_name, fold_comments)`。 -/
def parseFileDescriptor (fieldsByNumber : String → Int → Option FieldDescriptor)
    (typeTagName : Option String) (foldComments : Bool) (descriptor : Value) :
    Except ParserError Node := do
  let d ← parse typeTagName descriptor
  if foldComments then
    let d ← (locations d).foldlM (foldComment fieldsByNumber) d
    removeInfo d
  else return d

end Voltha.Chameleon.DescriptorParser
