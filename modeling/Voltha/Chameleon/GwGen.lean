import Voltha.Chameleon.SwaggerTemplate
import Voltha.Lib.OrderedDict
import Voltha.Lib.PyString

/-!
# gateway の生成と import

`chameleon/protoc_plugins/gw_gen.py`。生成する Python の code は、proto の型を module の中の名前で呼ぶ。
`IncludeManager` が、型の完全な名前から、その名前と import する file を決める。

どの file の型かは、一段目の型の名前の表 `prefix_table` から、**文字列として** 前に付くものを探して決める。
表は逆順に並べてあり、最初に当たったものを使う。

template は展開しない。`package_to_localname` は書かれるだけで読まれないので、持たない。
-/

namespace Voltha.Chameleon

open PyString

/-- 飛ぶ例外。`noMatch` は `_find_matching_prefix` の `Exception`。 -/
inductive GwError where
  | noMatch (fullname : String)
  | keyError
  | attributeError (method : String)
  | assertionError
deriving DecidableEq, Repr

/-! ## `IncludeManager` -/

structure IncludeManager where
  fullnameToFilename : List (String × String)
  prefixTable : List String
  typeMap : List (String × String)
  includesNeeded : List String
  filenameToModule : List (String × (String × String))
deriving DecidableEq, Repr

/-- `FileDescriptorProto.package`。無ければ空。 -/
def FileDescriptor.packageName (file : FileDescriptor) : String := file.package.getD ""

/-- `all_defs` の名前。 -/
def FileDescriptor.allDefs (file : FileDescriptor) : List String :=
  file.messageType.map MessageType.name ++ file.enumType.map EnumType.name ++
    file.service.map Service.name

namespace IncludeManager

def initial : IncludeManager := ⟨[], [], [], [], []⟩

/-- file の名前から、Python の package と module。 -/
def pythonModule (filename : String) : String × String :=
  rpartition (replace (replace filename ".proto" "_pb2") "/" ".") '.'

/-- `_add_filename(filename)`。 -/
def addFilename (s : IncludeManager) (filename : String) : IncludeManager :=
  if filename ∈ s.filenameToModule.map Prod.fst then s
  else { s with
    filenameToModule := OrderedDict.set s.filenameToModule filename (pythonModule filename) }

/-- `_update_prefix_table()`。 -/
def updatePrefixTable (s : IncludeManager) : IncludeManager :=
  { s with prefixTable := (s.fullnameToFilename.map Prod.fst).insertionSort fun a b => b ≤ a }

/-- `extend_symbol_tables(proto_file)`。 -/
def extendSymbolTables (s : IncludeManager) (file : FileDescriptor) : IncludeManager :=
  let s := s.addFilename file.name
  updatePrefixTable { s with
    fullnameToFilename := file.allDefs.foldl
      (fun d name => OrderedDict.set d (file.packageName ++ "." ++ name) file.name)
      s.fullnameToFilename }

/-- `_find_matching_prefix(fullname)`。 -/
def findMatchingPrefix (s : IncludeManager) (fullname : String) : Except GwError String :=
  match s.prefixTable.find? fun p => p.toList.isPrefixOf fullname.toList with
  | some p => .ok p
  | none => .error (.noMatch fullname)

/-- `add_needed_symbol(fullname)`。 -/
def addNeededSymbol (s : IncludeManager) (fullname : String) : Except GwError IncludeManager :=
  if fullname ∈ s.typeMap.map Prod.fst then .ok s
  else do
    let topLevelSymbol ← s.findMatchingPrefix fullname
    let name := (rpartition topLevelSymbol '.').2
    let nestedName := String.ofList (fullname.toList.drop topLevelSymbol.length)
    let fileName ← (s.fullnameToFilename.lookup topLevelSymbol).elim (.error .keyError) .ok
    let s := { s with includesNeeded := s.includesNeeded.insert fileName }
    let module ← (s.filenameToModule.lookup fileName).elim (.error .keyError) .ok
    let pythonName := module.2 ++ "." ++ name ++ nestedName
    return { s with typeMap := OrderedDict.set s.typeMap fullname pythonName }

/-- `get_includes()`。並べ替える前のもの。 -/
def getIncludes (s : IncludeManager) : Except GwError (List (String × String)) :=
  s.includesNeeded.mapM fun fn => (s.filenameToModule.lookup fn).elim (.error .keyError) .ok

end IncludeManager

/-! ## `generate_code` -/

/-- `HttpRule` の verb。 -/
def verb (http : HttpBinding) : Option String :=
  if (http.delete.getD "") ≠ "" then some "delete"
  else if (http.get.getD "") ≠ "" then some "get"
  else if (http.patch.getD "") ≠ "" then some "patch"
  else if (http.post.getD "") ≠ "" then some "post"
  else if (http.put.getD "") ≠ "" then some "put"
  else none

/-- `startswith('.')` なら外す。 -/
def stripDot (type : String) : String :=
  if type.toList.head? = some '.' then .ofList type.toList.tail else type

/-- `traverse_methods` が渡す、一つの method の型の名前。HTTP の option が無ければ渡さない。 -/
def methodSymbols (file : FileDescriptor) (service : Service) (method : Method) :
    Except GwError (List String) :=
  match method.options with
  | some (some http) =>
    match verb http.toHttpBinding with
    | some _ => .ok [stripDot method.inputType, stripDot method.outputType,
      file.packageName ++ "." ++ service.name]
    | none => .error (.attributeError method.name)
  | _ => .ok []

/-- 一つの file を済ませる。 -/
def processFile (s : IncludeManager) (file : FileDescriptor) : Except GwError IncludeManager :=
  file.service.foldlM (fun s service => service.method.foldlM (fun s method => do
    let symbols ← methodSymbols file service method
    symbols.foldlM IncludeManager.addNeededSymbol s) s) (s.extendSymbolTables file)

/-- `generate_code` の loop。file ごとの `type_map` と `includes` を返す。 -/
def generateGateways (s : IncludeManager) : List FileDescriptor →
    Except GwError (List (List (String × String) × List (String × String)))
  | [] => .ok []
  | file :: files => do
    let s ← processFile s file
    let includes ← s.getIncludes
    let rest ← generateGateways s files
    return (s.typeMap, includes) :: rest

end Voltha.Chameleon
