import Mathlib.Data.List.Basic

/-!
# gRPC の答えを YANG の XML にする

`netconf/nc_rpc/rpc_response.py`。`list` の要素は、中の item を一段上げて、list の名前を付ける。
`yang_field_option` のある `dict` は、`name` の指す子の中身に置き換える。

消える要素は、名前を `ignore` にしておき、`add_node` で子だけを足す。もとの木の名前も書き換えるので、
`process_element` は、要素と、その今の名前を受け取る。

要素には番号を付けておき、作られる要素には、もとの要素の番号を残す。番号は lxml での同一性で、
出力の文字列には現れない。
-/

namespace Voltha.Netconf.RpcResponse

inductive RpcError where
  | typeError
  | keyError
  | attributeError
  | xmlSyntaxError
deriving DecidableEq, Repr

/-! ## 要素 -/

/-- `elem.get('type')`。`list` と `dict` でなければ、`plain` とする。 -/
inductive ElementType where
  | list
  | dict
  | plain
deriving DecidableEq, Repr

/-- もとの木の要素。 -/
inductive Element where
  | mk (id : Nat) (type : ElementType) (tag : String) (text : Option String)
      (children : List Element)

namespace Element

def id : Element → Nat | mk i _ _ _ _ => i

def type : Element → ElementType | mk _ t _ _ _ => t

def tag : Element → String | mk _ _ t _ _ => t

def text : Element → Option String | mk _ _ _ t _ => t

def children : Element → List Element | mk _ _ _ _ c => c

end Element

/-- `etree.Element(tag)` で作った要素。`origin` は、もとの要素の番号。 -/
inductive Node where
  | mk (origin : Option Nat) (tag : String) (text : Option String) (children : List Node)

namespace Node

def origin : Node → Option Nat | mk o _ _ _ => o

def tag : Node → String | mk _ t _ _ => t

def children : Node → List Node | mk _ _ _ c => c

end Node

/-! ## `process_element` -/

/-- `add_node(new_node, tree)` が `tree` に足すもの。 -/
def addNode (new : Node) : List Node := if new.tag = "ignore" then new.children else [new]

/-- `copy_basic_element(elm)`。 -/
def copyBasicElement (tag : String) (elm : Element) : Node := .mk (some elm.id) tag elm.text []

/-- `inline_option`。 -/
def inlineOption (elems : List Element) : Bool := elems.any fun elm => elm.tag = "yang_field_option"

/-- `inline_node_name`。 -/
def inlineNodeName (elems : List Element) : Option String :=
  elems.foldl (fun name elm => if elm.tag = "name" then elm.text else name) none

mutual

/-- `process_element(elem)`。`tag` は、`elem` の今の名前。 -/
def processElement (tag : String) : Element → Except RpcError Node
  | .mk id type own text children =>
    match type with
    | .list => do return .mk none "ignore" none (← processItems tag children)
    | .dict =>
      if inlineOption children then do
        return .mk none "ignore" none (← processNamed (inlineNodeName children) children)
      else do return .mk (some id) tag none (← processChildren children)
    | .plain => return copyBasicElement tag (.mk id type own text children)

/-- `list` の loop。item の名前を、list の名前にする。 -/
def processItems (tag : String) : List Element → Except RpcError (List Node)
  | [] => return []
  | elm :: rest => do
    let nodes ← (if elm.type = .plain then .ok [copyBasicElement tag elm]
      else addNode <$> processElement tag elm)
    return nodes ++ (← processItems tag rest)

/-- `dict` の loop。 -/
def processChildren : List Element → Except RpcError (List Node)
  | [] => return []
  | elm :: rest => do
    let nodes ← (if elm.type = .plain then .ok [copyBasicElement elm.tag elm]
      else addNode <$> processElement elm.tag elm)
    return nodes ++ (← processChildren rest)

/-- `process_inline_option` の二つ目の loop と、その結果の中身。見つからないと `None` が返る。 -/
def processNamed (name : Option String) : List Element → Except RpcError (List Node)
  | [] => .error .typeError
  | elm :: rest => if some elm.tag = name then processContent elm else processNamed name rest

def processContent : Element → Except RpcError (List Node)
  | .mk _ _ _ _ children => processChildren children

end

/-! ## `to_yang_xml` -/

def yangNode (children : List Node) : Node := .mk none "yang" none children

/-- 一つだけの要素が `list` である。 -/
def singleList : List Element → Bool
  | [item] => item.type = .list
  | _ => false

/-- `to_yang_xml(from_xml)`。 -/
def toYangXml (elms : List Element) : Except RpcError Node :=
  if singleList elms then do
    let nodes ← elms.mapM fun item => addNode <$> processElement "ignore" item
    return yangNode nodes.flatten
  else do
    let nodes ← elms.mapM fun elm => addNode <$> processElement elm.tag elm
    return yangNode nodes.flatten

/-! ## `build_yang_response` -/

/-- 文字列にする木。 -/
inductive Tree where
  | mk (tag : String) (text : Option String) (children : List Tree)

mutual

def tree : Node → Tree
  | .mk _ tag text children => .mk tag text (trees children)

def trees : List Node → List Tree
  | [] => []
  | node :: rest => tree node :: trees rest

end

/-- `etree.tostring` と `etree.fromstring`。 -/
structure Lxml where
  tostring : Tree → String
  fromstring : String → Except RpcError Tree

/-- 前後の `<yang>` と `</yang>` を除く。 -/
def removeYang (s : String) : String :=
  if "<yang>".toList <+: s.toList then
    let rest := s.toList.drop "<yang>".length
    if "</yang>".toList <:+ rest then .ofList (rest.take (rest.length - "</yang>".length))
    else .ofList rest
  else s

/-- `body`。 -/
def body (className : String) (subclass : Option String) (content : String) : String :=
  match subclass with
  | some subclass => "<data>" ++ "<" ++ className ++
      " xmlns=\"urn:opencord:params:xml:ns:voltha:ietf-voltha\">" ++ "<" ++ subclass ++ ">" ++
      content ++ "</" ++ subclass ++ ">" ++ "</" ++ className ++ ">" ++ "</data>"
  | none => "<data>" ++ "<" ++ className ++
      " xmlns=\"urn:opencord:params:xml:ns:voltha:ietf-voltha\">" ++ content ++
      "</" ++ className ++ ">" ++ "</data>"

/-- `build_xml_response(request, voltha_response)`。 -/
def buildXmlResponse (lxml : Lxml) (request : Option (List (String × String))) (response : Tree) :
    Except RpcError (Option Tree) :=
  match request with
  | none => .ok none
  | some request =>
    match request.lookup "class" with
    | none => .error .keyError
    | some className => do
      return some (← lxml.fromstring
        (body className (request.lookup "subclass") (removeYang (lxml.tostring response))))

/-- `build_yang_response(root, request)`。`RpcResponse` に `rpc_response` は無いので、例外の処理も
例外になる。 -/
def buildYangResponse (lxml : Lxml) (root : List Element)
    (request : Option (List (String × String))) : Except RpcError (Option Tree) :=
  match toYangXml root >>= fun yangXml => buildXmlResponse lxml request (tree yangXml) with
  | .ok response => .ok response
  | .error _ => .error .attributeError

end Voltha.Netconf.RpcResponse
