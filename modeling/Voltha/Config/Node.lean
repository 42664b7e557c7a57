import Voltha.Config.State

/-!
# ConfigNode

`voltha/core/config/config_node.py` の `get` / `update` / `add` / `remove` と node の生成。

path は `/` で区切った列で表す。`"/adapters/1"` は `["", "adapters", "1"]` である。
`while path.startswith('/')` は空の成分を読み飛ばすことにあたり、
`partition('/')` の残りが空文字列であることは、残りの列が `[]` か `[""]` であることにあたる。
-/

namespace Voltha.Config

/-- 残りの path が空文字列かどうか（`if not path`）。 -/
def isEmptyPath : List String → Bool
  | [] => true
  | [s] => s.isEmpty
  | _ => false

/-- path に沿った帰納法。操作は path を一つ（単独の子）か二つ（container と key）ずつ読み進む。 -/
theorem pathInduct {P : List String → Prop} (nil : P [])
    (cons : ∀ name rest, P rest → (∀ keyStr path, rest = keyStr :: path → P path) →
      P (name :: rest)) (path : List String) : P path := by
  induction hl : path.length using Nat.strongRecOn generalizing path with
  | _ l ih =>
    match path, hl with
    | [], _ => exact nil
    | name :: rest, hl =>
      refine cons name rest (ih rest.length ?_ rest rfl) fun keyStr tail he =>
        ih tail.length ?_ tail rfl
      · simp at hl; omega
      · subst he; simp at hl; omega

/-- `find_rev_by_key`。見つかった位置と版。 -/
def findRevByKey (key : String) (v : Value) : List Rev → Option (Nat × Rev)
  | [] => none
  | r :: rs =>
    if (Rev.config r).attr key = some v then some (0, r)
    else (findRevByKey key v rs).map fun p => (p.1 + 1, p.2)

/-- proxy の `PRE_*` callback。例外を投げれば操作は拒まれる。 -/
def invokePre (n : NodeId) (type : CallbackType) (ctx : Context) : Op Unit := do
  let s ← Exec.read
  match (s.node n).proxy with
  | none => pure ()
  | some p =>
    match runCallbacks false (p.callbacks type) ctx with
    | .ok _ => pure ()
    | .error e => Exec.raise e

/-! ## node の生成 -/

/--
`ConfigNode(root, ...)` の object を作る。branch はまだ無い。

root だけは `auto_prune=False` で作られる。
-/
def newNode (type : String) (slot : Option Slot) : Op NodeId := fun s =>
  let nd : Node :=
    { type, branches := fun _ => none, tags := [], proxy := none
      autoPrune := decide (s.nextNode ≠ rootId), slot }
  (.ok s.nextNode, { s.setNode s.nextNode nd with nextNode := s.nextNode + 1 })

section Initialize

variable (S : Schema)

/-- field `name` が keyed なら、その key の名前。 -/
def Schema.keyOf (ty name : String) : Option String := (S.field? ty name).bind ChildField.key

mutual

/--
`_mknode(data).latest`。message を node の木にする。

子の node を作り終えてから自分の版を作り、commit された branch に据える。
keyed な field では、子を作った後に key の重なりを調べる。
-/
def mknode : Msg → Option Slot → Op Rev
  | .mk d cs, slot => do
    let n ← newNode d.type slot
    let children ← mknodeFields n d.type cs
    let rev ← mkrev n .committed d children
    let s ← Exec.read
    let b : Branch :=
      { tag := .committed, origin := none, revs := [], latest := rev
        autoPrune := (s.node n).autoPrune }
    makeLatest n none b rev []
    pure rev

def mknodeFields (n : NodeId) (ty : String) :
    List (String × List Msg) → Op (List (String × List Rev))
  | [] => pure []
  | (name, ms) :: cs => do
    let l ← mknodeList n name (S.keyOf ty name) [] ms
    let rest ← mknodeFields n ty cs
    pure ((name, l) :: rest)

def mknodeList (n : NodeId) (name : String) (key : Option String) (seen : List Value) :
    List Msg → Op (List Rev)
  | [] => pure []
  | m :: ms => do
    let rev ← mknode m (some ⟨n, name, key, key.bind m.label.attr⟩)
    match key with
    | none => do
      let rest ← mknodeList n name none seen ms
      pure (rev :: rest)
    | some k => do
      let v ← Exec.ofOption (.attributeError k) (m.label.attr k)
      if v ∈ seen then Exec.raise (.valueError ("Duplicate key \"" ++ v.render ++ "\""))
      else do
        let rest ← mknodeList n name (some k) (v :: seen) ms
        pure (rev :: rest)

end

mutual

/-- 単独の子で値の無いものを `getattr` の返す既定値で埋める。 -/
def complete : Msg → Msg
  | .mk d cs => .mk d (completeFields d.type cs)

def completeFields (ty : String) : List (String × List Msg) → List (String × List Msg)
  | [] => []
  | (name, ms) :: cs =>
    let ms' := completeList ms
    let filled := match S.field? ty name, ms' with
      | some f, [] => if f.kind = .single then [S.default f.type] else []
      | _, l => l
    (name, filled) :: completeFields ty cs

def completeList : List Msg → List Msg
  | [] => []
  | m :: ms => complete m :: completeList ms

end

end Initialize

/-! ## get -/

/-- `get` の返すもの。container を指せば列になる。 -/
inductive Response where
  | one (m : Context)
  | many (ms : List Context)
deriving DecidableEq

section Get

variable (S : Schema) (s : State)

/-- `_do_get`。 -/
def doGet (depth : Option Nat) (r : Rev) : Except Err Context :=
  match (s.node (Rev.node r)).proxy with
  | none => .ok (.data (Rev.get depth r))
  | some p => runCallbacks false (p.callbacks .get) (.data (Rev.get depth r))

/-- 列の各要素の `_do_get`。 -/
def doGetList (depth : Option Nat) : List Rev → Except Err (List Context)
  | [] => .ok []
  | r :: rs => do
    let c ← doGet s depth r
    let cs ← doGetList depth rs
    pure (c :: cs)

/-- `_get`。node は版の `node` である。 -/
def getRev (depth : Option Nat) : List String → Rev → Except Err Response
  | [], r => (doGet s depth r).map .one
  | name :: rest, r =>
    if isEmptyPath (name :: rest) then (doGet s depth r).map .one
    else
      match S.field? (s.node (Rev.node r)).type name with
      | none => .error (.keyError name)
      | some f =>
        match f.kind with
        | .single =>
          match (r.child name).head? with
          | none => .error (.indexError "list index out of range")
          | some c => getRev depth rest c
        | .list =>
          if isEmptyPath rest then (doGetList s depth (r.child name)).map .many
          else .error (.lookupError "Cannot index into container with no key defined")
        | .keyed key kt =>
          match rest with
          | [] => (doGetList s depth (r.child name)).map .many
          | keyStr :: path =>
            if isEmptyPath (keyStr :: path) then (doGetList s depth (r.child name)).map .many
            else
              match kt.fromStr keyStr with
              | none => .error (.valueError keyStr)
              | some v =>
                match findRevByKey key v (r.child name) with
                | none => .error (.keyError ("key " ++ key ++ "=" ++ v.render ++ " not found"))
                | some (_, c) => getRev depth path c

/-- 先頭の `/` を読み飛ばす。 -/
def stripSlashes : List String → List String
  | [] => []
  | name :: rest => if name = "" then stripSlashes rest else name :: rest

/-- `get` が読む branch。transaction の branch が無ければ commit された branch を使う。 -/
def readBranch (n : NodeId) (k : Option TxId) : Option Branch :=
  match (s.node n).branches k with
  | some b => some b
  | none => (s.node n).branches none

/-- `ConfigNode.get`。 -/
def get (n : NodeId) (path : List String) (hash : Option Hash) (depth : Option Nat)
    (k : Option TxId) : Except Err Response :=
  match readBranch s n k with
  | none => .error (.keyError "None")
  | some b =>
    match hash with
    | none => getRev S s depth (stripSlashes path) b.latest
    | some h =>
      match b.revs.lookup h with
      | none => .error (.keyError "hash")
      | some r => getRev S s depth (stripSlashes path) r

end Get

/-! ## update -/

section Update

variable (S : Schema)

/-- 子の field に値があるときの例外。 -/
def externalChildren (f : ChildField) : Err :=
  if f.isContainer then .notImplemented "Cannot update external children"
  else .notImplemented "Cannot update externel children"

/-- `_test_no_children`。子の field に値があれば拒む。 -/
def testNoChildren (data : Msg) : List ChildField → Op Unit
  | [] => pure ()
  | f :: fs => do
    Exec.require ((data.child f.name).isEmpty = true) (externalChildren f)
    testNoChildren data fs

/-- 変わっている読み取り専用の field。 -/
def violatedFields (new old : Data) : List String :=
  (S.readOnly new.type).filter fun f => new.attr f ≠ old.attr f

/-- `check_access_violation`。`strict` でなければ呼ばれない。 -/
def checkAccessViolation (strict : Bool) (new old : Data) : Op Unit :=
  Exec.require (strict = false ∨ violatedFields S new old = [])
    (.valueError ("Cannot change read-only field(s) " ++
      String.intercalate ", " ((violatedFields S new old).map fun f => "\"" ++ f ++ "\"")))

/-- `_do_update`。渡された message そのものが版に入り、caller はその後これを書き換えない。 -/
def doUpdate (n : NodeId) (k : Option TxId) (b : Branch) (data : Msg) (strict : Bool) : Op Rev := do
  let s ← Exec.read
  Exec.require (data.label.type = (s.node n).type)
    (.valueError ("\"" ++ data.label.type ++ "\" is not a valid data type for this node"))
  testNoChildren data (S.fields (s.node n).type)
  invokePre n .preUpdate (.data data)
  if Rev.config b.latest = data.label then pure b.latest
  else do
    checkAccessViolation S strict data.label (Rev.config b.latest)
    let rev ← updateData b.latest n b.tag data.label
    makeLatest n k b rev [(.postUpdate, .data (Rev.data rev))]
    pure rev

/--
`ConfigNode.update`。

子の更新が終わってから、key が変わっていないかを調べ、自分の版を作り直す。
keyed な子で hash が変わらなければ、自分の版はそのままにする。
-/
def update (k : Option TxId) (data : Msg) (strict : Bool) : List String → NodeId → Op Rev
  | [], n => do
    let b ← branchFor n k
    doUpdate S n k b data strict
  | name :: rest, n =>
    if name = "" then update k data strict rest n
    else do
      let b ← branchFor n k
      let s ← Exec.read
      let field ← Exec.ofOption (.keyError name) (S.field? (s.node n).type name)
      match field.kind with
      | .single => do
        let childRev ← Exec.ofOption (.indexError "list index out of range")
          (b.latest.child name).head?
        let newChildRev ← update k data strict rest (Rev.node childRev)
        let rev ← updateChildren b.latest n b.tag name [newChildRev]
        makeLatest n k b rev []
        pure rev
      | .list =>
        if isEmptyPath rest then Exec.raise (.valueError "Cannot update a list")
        else Exec.raise (.valueError "Cannot index into container with no keys")
      | .keyed key kt =>
        match rest with
        | [] => Exec.raise (.valueError "Cannot update a list")
        | keyStr :: path =>
          if isEmptyPath (keyStr :: path) then Exec.raise (.valueError "Cannot update a list")
          else do
            let v ← Exec.ofOption (.valueError keyStr) (kt.fromStr keyStr)
            let (idx, childRev) ← Exec.ofOption
              (.keyError ("key " ++ key ++ "=" ++ v.render ++ " not found"))
              (findRevByKey key v (b.latest.child name))
            let newChildRev ← update k data strict path (Rev.node childRev)
            if Rev.hash newChildRev = Rev.hash childRev then pure b.latest
            else if (Rev.config newChildRev).attr key ≠ some v then
              Exec.raise (.valueError "Cannot change key field")
            else do
              let rev ← updateChildren b.latest n b.tag name
                ((b.latest.child name).set idx newChildRev)
              makeLatest n k b rev []
              pure rev

end Update

/-! ## add -/

section Add

variable (S : Schema)

/-- keyed な container への追加。 -/
def addChild (n : NodeId) (k : Option TxId) (b : Branch) (name key : String) (data : Msg) :
    Op Rev := do
  invokePre n .preAdd (.data data)
  let v ← Exec.ofOption (.attributeError key) (data.label.attr key)
  match findRevByKey key v (b.latest.child name) with
  | some _ => Exec.raise (.valueError ("Duplicate key \"" ++ v.render ++ "\""))
  | none => do
    let childRev ← mknode S (complete S data) (some ⟨n, name, some key, some v⟩)
    let rev ← updateChildren b.latest n b.tag name (b.latest.child name ++ [childRev])
    makeLatest n k b rev [(.postAdd, .data data)]
    pure rev

/-- `ConfigNode.add`。 -/
def add (k : Option TxId) (data : Msg) : List String → NodeId → Op Rev
  | [], _ => Exec.raise (.valueError "Cannot add to non-container node")
  | name :: rest, n =>
    if name = "" then add k data rest n
    else do
      let b ← branchFor n k
      let s ← Exec.read
      let field ← Exec.ofOption (.keyError name) (S.field? (s.node n).type name)
      match field.kind with
      | .single => Exec.raise (.valueError "Cannot add to non-container field")
      | .list =>
        if isEmptyPath rest then Exec.raise (.valueError "Cannot add to non-keyed container")
        else Exec.raise (.valueError "Cannot index into container with no keys")
      | .keyed key kt =>
        match rest with
        | [] => addChild S n k b name key data
        | keyStr :: path =>
          if isEmptyPath (keyStr :: path) then addChild S n k b name key data
          else do
            let v ← Exec.ofOption (.valueError keyStr) (kt.fromStr keyStr)
            let (idx, childRev) ← Exec.ofOption
              (.keyError ("key " ++ key ++ "=" ++ v.render ++ " not found"))
              (findRevByKey key v (b.latest.child name))
            let newChildRev ← add k data path (Rev.node childRev)
            let rev ← updateChildren b.latest n b.tag name
              ((b.latest.child name).set idx newChildRev)
            makeLatest n k b rev []
            pure rev

end Add

/-! ## remove -/

section Remove

variable (S : Schema)

/-- 見つかった子を自分の列から外す。 -/
def removeChild (n : NodeId) (k : Option TxId) (b : Branch) (name : String) (idx : Nat)
    (childRev : Rev) : Op Rev := do
  invokePre n .preRemove (.data (Rev.data childRev))
  let rev ← updateChildren b.latest n b.tag name ((b.latest.child name).eraseIdx idx)
  makeLatest n k b rev [(.postRemove, .data (Rev.data childRev))]
  pure rev

/-- `ConfigNode.remove`。 -/
def remove (k : Option TxId) : List String → NodeId → Op Rev
  | [], _ => Exec.raise (.valueError "Cannot remove from non-container node")
  | name :: rest, n =>
    if name = "" then remove k rest n
    else do
      let b ← branchFor n k
      let s ← Exec.read
      let field ← Exec.ofOption (.keyError name) (S.field? (s.node n).type name)
      match field.kind with
      | .single => Exec.raise (.valueError "Cannot remove non-conatiner field")
      | .list =>
        if isEmptyPath rest then Exec.raise (.valueError "Cannot remove without a key")
        else Exec.raise (.valueError "Cannot remove from non-keyed container")
      | .keyed key kt =>
        match rest with
        | [] => Exec.raise (.valueError "Cannot remove without a key")
        | keyStr :: path =>
          if isEmptyPath (keyStr :: path) then Exec.raise (.valueError "Cannot remove without a key")
          else do
            let v ← Exec.ofOption (.valueError keyStr) (kt.fromStr keyStr)
            let (idx, childRev) ← Exec.ofOption
              (.keyError ("key " ++ key ++ "=" ++ v.render ++ " not found"))
              (findRevByKey key v (b.latest.child name))
            if isEmptyPath path then removeChild n k b name idx childRev
            else do
              let newChildRev ← remove k path (Rev.node childRev)
              let rev ← updateChildren b.latest n b.tag name
                ((b.latest.child name).set idx newChildRev)
              makeLatest n k b rev []
              pure rev

end Remove

end Voltha.Config
