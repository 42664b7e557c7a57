import Mathlib.Logic.Function.Basic
import Voltha.Config.Rev
import Voltha.Lib.Exec

/-!
# ConfigNode・ConfigBranch・ConfigRoot の状態

版そのものは不変なので `Rev` の値で持ち、書き換わるものだけを状態に置く。

* node ごとの `_branches`（commit された branch と transaction の branch）
* root の `_dirty_nodes`、`_deferred_callback_queue`、`_kv_store`
* まだ破棄されていない版の object の一覧（`PersistedConfigRevision.__del__` のため）

操作は `Op = Exec State Err` の計算として書く。Python と同じく、
例外が飛んでもそれまでの書き換えは残る。

message は値で持つ。`update` に渡した message を caller が後から書き換えることは無いとする。
`_do_update` はそれを写さずに版へ入れ、`config_rev.py` も不変として扱うことを求めている。
-/

namespace Voltha.Config

/-- Python の例外。文面は source のもの。 -/
inductive Err where
  | keyError (key : String)
  | lookupError (msg : String)
  | valueError (msg : String)
  | notImplemented (msg : String)
  | attributeError (msg : String)
  | indexError (msg : String)
  | typeError (msg : String)
  | assertion (msg : String)
  | mergeConflict (msg : String)
  | closedTransaction
  | callback (msg : String)
  | recursionLimit
deriving DecidableEq, Repr

/-! ## proxy と callback -/

inductive CallbackType where
  | get
  | preUpdate
  | postUpdate
  | preAdd
  | postAdd
  | preRemove
  | postRemove
  | postListchange
deriving DecidableEq, Repr

/-- callback に渡すもの。message か、field 名だけを持つ `OperationContext`。 -/
inductive Context where
  | data (m : Msg)
  | operation (fieldName : String)
deriving DecidableEq

/-- callback。渡されたものを書き換えて返すか、例外で拒む。 -/
abbrev Callback := Context → Except Err Context

/-- ConfigProxy。 -/
structure Proxy where
  path : List String
  exclusive : Bool
  callbacks : CallbackType → List Callback

/-- `invoke_callbacks` の loop。`proceed` は `proceed_on_errors` である。 -/
def runCallbacks (proceed : Bool) : List Callback → Context → Except Err Context
  | [], c => .ok c
  | f :: fs, c =>
    match f c with
    | .ok c' => runCallbacks proceed fs c'
    | .error e => if proceed then runCallbacks proceed fs c else .error e

/-! ## branch と node -/

/--
ConfigBranch。`revs` は hash から版への辞書。

`autoPrune` なら `revs` は弱参照の辞書で、版を生かしておく役には立たない。
-/
structure Branch where
  tag : BranchTag
  origin : Option Rev
  revs : List (Hash × Rev)
  latest : Rev
  autoPrune : Bool

/-- node の置き場所。どの node のどの field の子として、どの key で作られたか。 -/
structure Slot where
  parent : NodeId
  field : String
  keyName : Option String
  key : Option Value
deriving DecidableEq, Repr

/--
ConfigNode。`branches` は `_branches`（`None` の key が commit された branch）。

`slot` は source には無い。証明のためだけの項目で、どの操作も読まない。
-/
structure Node where
  type : String
  branches : Option TxId → Option Branch
  tags : List (String × Rev)
  proxy : Option Proxy
  autoPrune : Bool
  slot : Option Slot

/-! ## kv store -/

/-- kv store の key。版と local data の hash は衝突しない。 -/
inductive StoreKey where
  | root
  | config (hash : Data)
  | rev (hash : Hash)
deriving DecidableEq

/-- kv store の値。直列化は往復するものとして、中身のまま持つ。 -/
inductive Blob where
  | root (latest : Hash) (tags : List (String × Hash))
  | config (data : Data)
  | rev (children : List (String × List Hash)) (config : Data)
deriving DecidableEq

abbrev Store := StoreKey → Option Blob

/-- 版の blob。 -/
def Rev.blob (r : Rev) : Blob :=
  .rev (r.children.map fun p => (p.1, p.2.map Rev.hash)) (Rev.config r)

/-- `PersistedConfigRevision.store`。 -/
def Store.storeRev (kv : Store) (r : Rev) : Store :=
  if (kv (.rev (Rev.hash r))).isSome then kv
  else
    let kv := if (kv (.config (Rev.config r))).isSome then kv
      else Function.update kv (.config (Rev.config r)) (some (.config (Rev.config r)))
    Function.update kv (.rev (Rev.hash r)) (some (Rev.blob r))

/-! ## 状態 -/

/--
木全体の状態。root は node `0` である。

* `dirty` — `_dirty_nodes`
* `txns` — まだ閉じていない ConfigTransaction の `_txid`
* `queue` / `announced` — 待っている callback と、呼び出し済みの callback
* `kv` — root の `_kv_store`
* `objs` — まだ `__del__` されていない版の object
* `detached` — 辞書から外された後も、自分の版との循環参照で残る branch が握っている版
-/
structure State where
  node : NodeId → Node
  nextNode : NodeId
  nextUid : Nat
  nextTx : TxId
  dirty : TxId → Option (List NodeId)
  txns : List TxId
  queue : List (NodeId × CallbackType × Context)
  announced : List (NodeId × CallbackType × Context)
  kv : Option Store
  loading : Bool
  objs : List Rev
  detached : List Rev

/-- root の node。 -/
def rootId : NodeId := 0

abbrev Op := Exec State Err

namespace State

/-- node `n` を書き換える。 -/
def setNode (s : State) (n : NodeId) (nd : Node) : State :=
  { s with node := Function.update s.node n nd }

/-- node `n` の branch を書き換える。 -/
def setBranch (s : State) (n : NodeId) (k : Option TxId) (b : Option Branch) : State :=
  s.setNode n { s.node n with branches := Function.update (s.node n).branches k b }

/-- commit された最新の版。`node.latest` である。 -/
def latest? (s : State) (n : NodeId) : Option Rev := ((s.node n).branches none).map Branch.latest

/-- transaction `t` の branch。 -/
def txBranch? (s : State) (t : TxId) (n : NodeId) : Option Branch := (s.node n).branches (some t)

end State

/-! ## 版を作る -/

/-- root の `kv_store` property。読み込み中は捨てるための辞書を返す。 -/
def State.storeRef (s : State) : StoreRef :=
  match s.kv with
  | none => .plain
  | some _ => if s.loading then .fake else .real

/-- `_finalize`。永続化する版なら kv store に書く。 -/
def State.finalizeRev (s : State) (r : Rev) : State :=
  match r.label.store with
  | .real => { s with kv := s.kv.map fun kv => kv.storeRev r, objs := s.objs ++ [r] }
  | _ => s

/-- 新しい版の object を作る。 -/
def newRev (n : NodeId) (tag : BranchTag) (store : StoreRef) (config : Data)
    (children : List (String × List Rev)) : Op Rev := fun s =>
  let r : Rev := .mk { uid := s.nextUid, node := n, tag, store, config } children
  (.ok r, { s with nextUid := s.nextUid + 1 }.finalizeRev r)

/-- `root.mkrev(branch, data, children)`。 -/
def mkrev (n : NodeId) (tag : BranchTag) (config : Data) (children : List (String × List Rev)) :
    Op Rev := do
  let s ← Exec.read
  newRev n tag s.storeRef config children

/-- `rev.update_data(data, branch)`。 -/
def updateData (r : Rev) (n : NodeId) (tag : BranchTag) (config : Data) : Op Rev :=
  newRev n tag r.label.store config r.children

/-- `rev.update_all_children(children, branch)`。 -/
def updateAllChildren (r : Rev) (n : NodeId) (tag : BranchTag)
    (children : List (String × List Rev)) : Op Rev :=
  newRev n tag r.label.store (Rev.config r) children

/-- `rev.update_children(name, children, branch)`。 -/
def updateChildren (r : Rev) (n : NodeId) (tag : BranchTag) (name : String) (l : List Rev) :
    Op Rev :=
  updateAllChildren r n tag (FieldTree.setField r.children name l)

/-! ## branch の操作 -/

/-- `branch._revs` への登録。同じ hash が既にあれば何もしない。 -/
def insertRev (revs : List (Hash × Rev)) (r : Rev) : List (Hash × Rev) :=
  if Rev.hash r ∈ revs.map Prod.fst then revs else revs ++ [(Rev.hash r, r)]

/-- `_make_latest` の通知。commit された branch で、proxy があるときだけ積む。 -/
def announce (n : NodeId) (b : Branch) (anns : List (CallbackType × Context)) (s : State) : State :=
  if b.tag = .committed ∧ (s.node n).proxy.isSome then
    { s with queue := s.queue ++ anns.map fun a => (n, a.1, a.2) }
  else s

/-- `root` の blob。最新の版の hash と、tag の付いた版の hash。 -/
def Node.rootBlob (nd : Node) (r : Rev) : Blob :=
  .root (Rev.hash r) (nd.tags.map fun p => (p.1, Rev.hash p.2))

/-- ConfigRoot の `_make_latest` による永続化。commit された branch だけを書く。 -/
def persistRoot (n : NodeId) (b : Branch) (r : Rev) (s : State) : State :=
  if n = rootId ∧ b.tag = .committed then
    let blob := (s.node n).rootBlob r
    { s with kv := s.kv.map fun kv => Function.update kv .root (some blob) }
  else s

/-- `_make_latest(branch, rev, change_announcements)`。branch は node `n` の key `k` のもの。 -/
def makeLatest (n : NodeId) (k : Option TxId) (b : Branch) (r : Rev)
    (anns : List (CallbackType × Context)) : Op Unit :=
  Exec.modify fun s =>
    persistRoot n b r (announce n b anns
      (s.setBranch n k (some { b with latest := r, revs := insertRev b.revs r })))

/-- `_mk_txbranch`。commit された最新の版から枝分かれする。 -/
def mkTxbranch (n : NodeId) (t : TxId) : Op Branch := do
  let s ← Exec.read
  let point ← Exec.ofOption (.keyError "None") (s.latest? n)
  let b : Branch :=
    { tag := .tx t, origin := some point, revs := [], latest := point, autoPrune := true }
  Exec.modify fun s => s.setBranch n (some t) (some b)
  pure b

/-- `track_dirty`。枝分かれした node を覚える。 -/
def trackDirty (t : TxId) (n : NodeId) : Op Branch := do
  Exec.modify fun s =>
    { s with dirty := Function.update s.dirty t ((s.dirty t).map (List.insert n)) }
  mkTxbranch n t

/-- `self._branches[txid]`。無ければ `mk_branch(self)` で作る。 -/
def branchFor (n : NodeId) (k : Option TxId) : Op Branch := do
  let s ← Exec.read
  match (s.node n).branches k with
  | some b => pure b
  | none =>
    match k with
    | none => Exec.raise (.typeError "'NoneType' object is not callable")
    | some t => trackDirty t n

/-- `del self._branches[txid]`。最新の版が自分の枝のものなら、循環参照で残る。 -/
def delTxbranch (n : NodeId) (t : TxId) : Op Unit := do
  let s ← Exec.read
  match s.txBranch? t n with
  | none => Exec.raise (.keyError (toString t))
  | some b =>
    Exec.modify fun s =>
      let s := s.setBranch n (some t) none
      if Rev.tag b.latest = .tx t then
        { s with detached := s.detached ++ (b.latest :: b.origin.toList) }
      else s

end Voltha.Config
