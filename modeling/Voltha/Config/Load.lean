import Voltha.Config.Root

/-!
# kv store からの読み込み

`voltha/core/config/config_rev_persisted.py` の `load` / `load_config`、
`config_node.py` の `load_latest`、`config_root.py` の `load` / `load_from_persistence`。

`load` は、まず既定値の木を捨てるための辞書の上に作り、それから本物の kv store に差し替えて、
`root` の項目の hash から版を一つずつ読み、node の木を組み立て直す。
読み込んでいる間に作る版は、そのつど新しい空の辞書に書かれる（`StoreRef.fake`）。

`load_latest` は `ConfigBranch(self, self._auto_prune)` と呼ぶので、
読み込んだ branch の `_txid` は真偽値になり、`_auto_prune` は既定の `True` になる。

kv store の値は直列化した bytes で、`ParseFromString` は別の package のものである。
local data `d` を直列化したものを class `ty` で読んだ結果を、引数 `parse` の `parse ty d` で表す。
-/

namespace Voltha.Config

/-! ## class を探す -/

/-- 生成された message の class の `__module__`。 -/
def protoModule : String → String
  | "HealthStatus" => "health_pb2"
  | "Adapter" => "adapter_pb2"
  | "LogicalDevice" => "logical_device_pb2"
  | "LogicalPort" => "logical_device_pb2"
  | "Device" => "device_pb2"
  | "DeviceType" => "device_pb2"
  | "Port" => "device_pb2"
  | "Flows" => "openflow_13_pb2"
  | "FlowGroups" => "openflow_13_pb2"
  | _ => "voltha_pb2"

/-- `tmp_cls_loader` の `locals()` にある module。 -/
def loaderModules : List String :=
  ["voltha_pb2", "health_pb2", "adapter_pb2", "logical_device_pb2", "device_pb2",
    "openflow_13_pb2"]

/-- `tmp_cls_loader`。知らない module なら `KeyError`。 -/
def tmpClsLoader (f : ChildField) : Op String := do
  Exec.require (protoModule f.type ∈ loaderModules) (.keyError (protoModule f.type))
  pure f.type

section Load

variable (S : Schema) (parse : String → Data → Data)

/-! ## 版 -/

/-- `load_config`。 -/
def loadConfig (kv : Store) (ty : String) (hash : Data) : Op Data := do
  let blob ← Exec.ofOption (.keyError "hash") (kv (.config hash))
  match blob with
  | .config d => pure (parse ty d)
  | _ => Exec.raise (.valueError "Error parsing message")

section Children

variable (loadLatest : NodeId → Hash → Op Unit)

/-- 子の node を一つ作り、その最新の版を読む。 -/
def loadChild (n : NodeId) (f : ChildField) (childCls : String) (hash : Hash) : Op Rev := do
  let c ← newNode childCls (some ⟨n, f.name, f.key, f.key.bind hash.label.attr⟩)
  loadLatest c hash
  let s ← Exec.read
  Exec.ofOption (.keyError "None") (s.latest? c)

/-- 子の field を順に読む。 -/
def loadFields (childrenList : List (String × List Hash)) (n : NodeId) :
    List ChildField → Op (List (String × List Rev))
  | [] => pure []
  | f :: fs => do
    let childCls ← tmpClsLoader f
    let hashes ← Exec.ofOption (.keyError f.name) (childrenList.lookup f.name)
    let children ← Exec.mapList (loadChild loadLatest n f childCls) hashes
    let rest ← loadFields childrenList n fs
    pure ((f.name, children) :: rest)

/-- `PersistedConfigRevision.load`。branch は node `n` の、`_txid` が `tag` のものである。 -/
def loadRev (kv : Store) (n : NodeId) (tag : BranchTag) (ty : String) (hash : Hash) : Op Rev := do
  let blob ← Exec.ofOption (.keyError "hash") (kv (.rev hash))
  match blob with
  | .rev childrenList configHash => do
    let config ← loadConfig parse kv ty configHash
    let children ← loadFields loadLatest childrenList n (S.fields ty)
    mkrev n tag config children
  | .root .. => Exec.raise (.keyError "config")
  | .config _ => Exec.raise (.valueError "Expecting value")

end Children

/-! ## node -/

/-- `load_latest`。`limit` は再帰の深さの上限である。 -/
def loadLatest : Nat → NodeId → Hash → Op Unit
  | 0, _, _ => Exec.raise .recursionLimit
  | limit + 1, n, hash => do
    let s ← Exec.read
    let kv ← Exec.ofOption
      (.typeError "'NoneType' object has no attribute '__getitem__'") s.kv
    -- 引数の位置を取り違えているので、`_auto_prune` は `_txid` になる
    let tag := BranchTag.flag (s.node n).autoPrune
    let rev ← loadRev S parse (loadLatest limit) kv n tag (s.node n).type hash
    let b : Branch := { tag, origin := none, revs := [], latest := rev, autoPrune := true }
    makeLatest n none b rev []

/-! ## root -/

/-- `load_from_persistence`。tag のある木は読めない。 -/
def loadFromPersistence (limit : Nat) : Op Unit := do
  Exec.modify fun s => { s with loading := true }
  let s ← Exec.read
  let kv ← Exec.ofOption (.typeError "'NoneType' object has no attribute '__getitem__'") s.kv
  let blob ← Exec.ofOption (.keyError "root") (kv .root)
  match blob with
  | .root latest tags => do
    Exec.require (tags = []) (.notImplemented "")
    loadLatest S parse limit rootId latest
    Exec.modify fun s => { s with loading := false }
  | _ => Exec.raise (.keyError "tags")

/-- `root_msg_cls()`。子の field はどれも空である。 -/
def Schema.blank (ty : String) : Msg :=
  .mk (S.default ty).label ((S.fields ty).map fun f => (f.name, []))

/-- `cls(root_msg_cls(), kv_store=fake_kv_store)`。 -/
def blankRoot (ty : String) : Op Rev := mknode S (complete S (S.blank ty)) none

/-- `ConfigRoot.load` の残り。差し替える前の版は、差し替える前の辞書を握ったままになる。 -/
def loadInto (limit : Nat) (ty : String) (kv : Store) : Op Unit := do
  let _ ← blankRoot S ty
  Exec.modify fun s => { s with kv := some kv, objs := [] }
  loadFromPersistence S parse limit

/-- `ConfigRoot.load(root_msg_cls, kv_store)`。 -/
def load (limit : Nat) (ty : String) (kv : Store) : Except Err Unit × State :=
  loadInto S parse limit ty kv (emptyState (some fun _ => none))

end Load

end Voltha.Config
