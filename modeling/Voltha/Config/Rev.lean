import Voltha.Config.Schema

/-!
# ConfigRevision

`voltha/core/config/config_rev.py` の後半。版（revision）は不変の object で、
local data と、field ごとの子の版の列を持つ。

object の同一性（Python の `is` と、`__eq__` を持たない object の列の `==`）は
作られた順の通し番号 `uid` で表す。版は不変なので、同じ object を指すことと
`uid` まで含めて値が等しいことは同じである。

local data を包む `ConfigDataRevision` は `_rev_cache` によって
同じ hash のものが一つの object に共有される（`_finalize` の `re-use!`）。
したがって `_config` どうしの `is` は local data の等しさである。

hash は md5 の先頭 12 桁だが、衝突しないものとして、hash に渡す列そのものを hash とみなす。
`_hash_content` は子の hash を **field の区切りなしに** つなぐので、
ここでも field ごとの列を一本につないだものを使う。
-/

namespace Voltha.Config

/-- ConfigNode の object の番号。 -/
abbrev NodeId := Nat

/-- transaction の id（`uuid4().hex[:12]`）。新しく作るたびに異なる。 -/
abbrev TxId := Nat

/--
ConfigBranch の `_txid`。

commit された branch は `None`、transaction の branch はその id である。
`load_latest` は引数の位置を取り違えて `auto_prune` を `_txid` に渡すので、
読み込んだ node の branch は真偽値を持つ。
-/
inductive BranchTag where
  | committed
  | tx (t : TxId)
  | flag (autoPrune : Bool)
deriving DecidableEq, Repr

/-- 版が持つ `_kv_store`。`plain` は `ConfigRevision`（永続化しない版）である。 -/
inductive StoreRef where
  | plain
  | real
  | fake
deriving DecidableEq, Repr

/-- 版の一段ぶん。`node` と `tag` は `_branch` の `_node` と `_txid` である。 -/
structure RevInfo where
  uid : Nat
  node : NodeId
  tag : BranchTag
  store : StoreRef
  config : Data
deriving DecidableEq, Repr

/-- ConfigRevision。 -/
abbrev Rev := FieldTree RevInfo

/-- hash の値。local data と、つないだ子の hash の列。 -/
abbrev Hash := FieldTree Data

-- hash の列の `∈` を判定するときに使う
instance : LawfulBEq Hash := inferInstance

namespace Rev

/-- `rev._config.data`。 -/
def config (r : Rev) : Data := r.label.config

/-- `rev.node`。 -/
def node (r : Rev) : NodeId := r.label.node

/-- `rev._branch._txid`。 -/
def tag (r : Rev) : BranchTag := r.label.tag

mutual

/-- `_hash_content`。 -/
def hash : Rev → Hash
  | .mk i cs => .mk i.config [("", hashFields cs)]

def hashFields : List (String × List Rev) → List Hash
  | [] => []
  | (_, l) :: cs => hashList l ++ hashFields cs

def hashList : List Rev → List Hash
  | [] => []
  | r :: rs => hash r :: hashList rs

end

/-- 子孫まで含めた中身。`get(depth=-1)` が返す message である。 -/
def content (r : Rev) : Msg := r.map RevInfo.config

mutual

/-- `ConfigRevision.get(depth)`。`none` は尽きるまで（負の depth）を表す。 -/
def get (depth : Option Nat) : Rev → Msg
  | .mk i cs => .mk i.config (getFields depth cs)

def getFields : Option Nat → List (String × List Rev) → List (String × List Msg)
  | _, [] => []
  | some 0, (f, _) :: cs => (f, []) :: getFields (some 0) cs
  | some (d + 1), (f, l) :: cs => (f, getList (some d) l) :: getFields (some (d + 1)) cs
  | none, (f, l) :: cs => (f, getList none l) :: getFields none cs

def getList (depth : Option Nat) : List Rev → List Msg
  | [] => []
  | r :: rs => get depth r :: getList depth rs

end

/-- `rev.data` を message として見たもの。子は空である。 -/
def data (r : Rev) : Msg := get (some 0) r

/-! ## 中身と hash -/

theorem hashList_eq : ∀ l : List Rev, hashList l = l.map hash
  | [] => rfl
  | r :: rs => by simp [hashList, hashList_eq rs]

theorem hashFields_eq : ∀ cs : List (String × List Rev),
    hashFields cs = cs.flatMap fun p => p.2.map hash
  | [] => rfl
  | (f, l) :: cs => by simp [hashFields, hashList_eq, hashFields_eq cs]

theorem hash_mk (i : RevInfo) (cs : List (String × List Rev)) :
    hash (.mk i cs) = .mk i.config [("", cs.flatMap fun p => p.2.map hash)] := by
  rw [hash, hashFields_eq]

theorem config_eq_of_hash_eq {r r' : Rev} (h : hash r = hash r') : config r = config r' := by
  obtain ⟨i, cs⟩ := r
  obtain ⟨j, ds⟩ := r'
  rw [hash_mk, hash_mk, FieldTree.mk.injEq] at h
  exact h.1

@[simp] theorem content_mk (i : RevInfo) (cs : List (String × List Rev)) :
    content (.mk i cs) = .mk i.config (cs.map fun p => (p.1, p.2.map content)) := by
  simp [content, FieldTree.map_mk]

@[simp] theorem label_content (r : Rev) : (content r).label = config r := by
  simp [content, config]

theorem child_content (r : Rev) (f : String) : (content r).child f = (r.child f).map content :=
  FieldTree.child_map _ _ _

mutual

/-- message の中身から直接計算した hash。 -/
def digest : Msg → Hash
  | .mk d cs => .mk d [("", digestFields cs)]

def digestFields : List (String × List Msg) → List Hash
  | [] => []
  | (_, l) :: cs => digestList l ++ digestFields cs

def digestList : List Msg → List Hash
  | [] => []
  | m :: ms => digest m :: digestList ms

end

theorem digestList_eq : ∀ l : List Msg, digestList l = l.map digest
  | [] => rfl
  | m :: ms => by simp [digestList, digestList_eq ms]

theorem digestFields_eq : ∀ cs : List (String × List Msg),
    digestFields cs = cs.flatMap fun p => p.2.map digest
  | [] => rfl
  | (f, l) :: cs => by simp [digestFields, digestList_eq, digestFields_eq cs]

theorem digest_mk (d : Data) (cs : List (String × List Msg)) :
    digest (.mk d cs) = .mk d [("", cs.flatMap fun p => p.2.map digest)] := by
  rw [digest, digestFields_eq]

/-- hash は中身だけで決まる。 -/
theorem hash_eq_digest (r : Rev) : hash r = digest (content r) := by
  induction r using FieldTree.induct with
  | h i cs ih =>
    rw [hash_mk, content_mk, digest_mk, List.flatMap_map]
    have hch : (cs.flatMap fun p => p.2.map hash)
        = cs.flatMap fun p => (p.2.map content).map digest := by
      refine List.flatMap_congr fun p hp => ?_
      rw [List.map_map]
      exact List.map_congr_left fun c hc => ih p.1 p.2 hp c hc
    rw [hch]

theorem hash_eq_of_content_eq {r r' : Rev} (h : content r = content r') : hash r = hash r' := by
  rw [hash_eq_digest, hash_eq_digest, h]

theorem getList_none_eq : ∀ l : List Rev, getList none l = l.map (get none)
  | [] => rfl
  | r :: rs => by simp [getList, getList_none_eq rs]

theorem getFields_none_eq : ∀ cs : List (String × List Rev),
    getFields none cs = cs.map fun p => (p.1, p.2.map (get none))
  | [] => rfl
  | (f, l) :: cs => by simp [getFields, getList_none_eq, getFields_none_eq cs]

/-- 深い `get` は中身そのものを返す。 -/
theorem get_none (r : Rev) : get none r = content r := by
  induction r using FieldTree.induct with
  | h i cs ih =>
    rw [get, getFields_none_eq, content_mk, FieldTree.mk.injEq]
    refine ⟨rfl, List.map_congr_left fun p hp => ?_⟩
    rw [Prod.mk.injEq]
    exact ⟨rfl, List.map_congr_left fun c hc => ih p.1 p.2 hp c hc⟩

end Rev

end Voltha.Config
