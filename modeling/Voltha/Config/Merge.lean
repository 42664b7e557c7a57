import Voltha.Config.Node
import Voltha.Lib.OrderedDict

/-!
# 3-way merge

`voltha/core/config/merge_3way.py` の `merge_3way` と、
それを呼ぶ `ConfigNode._merge_txbranch`。

dry run では `merge_child_func` が `None` を返すことがあるので、
作りかけの列の要素は `Option Rev` で持つ。`None` の `.data` を読めば `AttributeError` になる。
-/

namespace Voltha.Config

/-- 子の key（`getattr(rev._config._data, keyname)`）。 -/
def Rev.keyIn (key : String) (r : Rev) : Option Value := (Rev.config r).attr key

/-! ## AnalyzeChanges -/

/-- `AnalyzeChanges`。二つの列を key で比べた結果。 -/
structure AnalyzeChanges where
  keymap1 : List (Option Value × Nat)
  keymap2 : List (Option Value × Nat)
  addedKeys : List (Option Value)
  removedKeys : List (Option Value)
  changedKeys : List (Option Value)

/-- key から位置への辞書。 -/
def keymap (key : String) (l : List Rev) : List (Option Value × Nat) :=
  OrderedDict.ofList (l.zipIdx.map fun p => (Rev.keyIn key p.1, p.2))

/-- `lst[keymap[k]]`。 -/
def entryAt (l : List Rev) (m : List (Option Value × Nat)) (k : Option Value) : Option Rev :=
  (m.lookup k).bind fun i => l[i]?

def analyzeChanges (key : String) (lst1 lst2 : List Rev) : AnalyzeChanges :=
  let m1 := keymap key lst1
  let m2 := keymap key lst2
  { keymap1 := m1
    keymap2 := m2
    addedKeys := (m2.map Prod.fst).filter fun k => k ∉ m1.map Prod.fst
    removedKeys := (m1.map Prod.fst).filter fun k => k ∉ m2.map Prod.fst
    changedKeys := (m1.map Prod.fst).filter fun k =>
      k ∈ m2.map Prod.fst ∧
        (entryAt lst1 m1 k).map Rev.hash ≠ (entryAt lst2 m2 k).map Rev.hash }

/-! ## keyed な列の merge -/

/-- 変化の通知。 -/
abbrev Change := CallbackType × Context

section Keyed

variable (mergeChild : Rev → Op (Option Rev))

/-- `new_rev.data`。dry run で `None` が返っていれば `AttributeError`。 -/
def changedData : Option Rev → Op Context
  | some r => pure (.data (Rev.data r))
  | none => Exec.raise (.attributeError "'NoneType' object has no attribute 'data'")

/-- 位置と版の組で読む `lst[keymap[k]]`。 -/
def lookupEntry (l : List Rev) (m : List (Option Value × Nat)) (k : Option Value) :
    Op (Nat × Rev) :=
  Exec.ofOption (.keyError "key")
    ((m.lookup k).bind fun i => (l[i]?).map fun r => (i, r))

/-- dst が変わっていないときの、src で増えた key の処理。 -/
def ownAdded (srcList : List Rev) (m2 : List (Option Value × Nat)) :
    List (Option Value) → List (Option Rev) → List Change → Op (List (Option Rev) × List Change)
  | [], newList, changes => pure (newList, changes)
  | k :: ks, newList, changes => do
    let (idx, r) ← lookupEntry srcList m2 k
    let newRev ← mergeChild r
    let d ← changedData newRev
    ownAdded srcList m2 ks (newList.set idx newRev) (changes ++ [(.postAdd, d)])

/-- dst が変わっていないときの、src で変わった key の処理。 -/
def ownChanged (srcList : List Rev) (m2 : List (Option Value × Nat)) :
    List (Option Value) → List (Option Rev) → Op (List (Option Rev))
  | [], newList => pure newList
  | k :: ks, newList => do
    let (idx, r) ← lookupEntry srcList m2 k
    let newRev ← mergeChild r
    ownChanged srcList m2 ks (newList.set idx newRev)

/-- dst が変わっていないとき。src の列から始める。 -/
def mergeKeyedOwn (key : String) (forkList srcList : List Rev) :
    Op (List (Option Rev) × List Change) := do
  let src := analyzeChanges key forkList srcList
  let (l1, ch1) ← ownAdded mergeChild srcList src.keymap2 src.addedKeys (srcList.map some) []
  let removed := src.removedKeys.filterMap fun k =>
    (entryAt forkList src.keymap1 k).map fun r => (CallbackType.postRemove, Context.data (Rev.data r))
  let l2 ← ownChanged mergeChild srcList src.keymap2 src.changedKeys l1
  pure (l2, ch1 ++ removed)

/-- 両側が変わったときの、src で増えた key の処理。 -/
def bothAdded (srcList dstList : List Rev) (src dst : AnalyzeChanges) :
    List (Option Value) → List (Option Rev) → List Change → Op (List (Option Rev) × List Change)
  | [], newList, changes => pure (newList, changes)
  | k :: ks, newList, changes => do
    let (_, childSrc) ← lookupEntry srcList src.keymap2 k
    if k ∈ dst.addedKeys then do
      let (_, childDst) ← lookupEntry dstList dst.keymap2 k
      if Rev.hash childDst = Rev.hash childSrc then do
        let _ ← mergeChild childDst
        bothAdded srcList dstList src dst ks newList changes
      else Exec.raise (.mergeConflict "Cannot add because it has been added and different")
    else do
      let newRev ← mergeChild childSrc
      let d ← changedData newRev
      bothAdded srcList dstList src dst ks (newList ++ [newRev]) (changes ++ [(.postAdd, d)])

/-- 両側が変わったときの、src で変わった key の処理。 -/
def bothChanged (srcList dstList : List Rev) (src dst : AnalyzeChanges) :
    List (Option Value) → List (Option Rev) → Op (List (Option Rev))
  | [], newList => pure newList
  | k :: ks, newList => do
    if k ∈ dst.removedKeys then
      Exec.raise (.mergeConflict "Cannot change because it has been removed")
    else do
      let (_, childSrc) ← lookupEntry srcList src.keymap2 k
      let (idx, childDst) ← lookupEntry dstList dst.keymap2 k
      if k ∈ dst.changedKeys then
        if Rev.hash childDst = Rev.hash childSrc then do
          let _ ← mergeChild childSrc
          bothChanged srcList dstList src dst ks newList
        else if Rev.config childDst ≠ Rev.config childSrc then
          Exec.raise (.mergeConflict "Cannot update because it has been changed and different")
        else do
          let newRev ← mergeChild childSrc
          bothChanged srcList dstList src dst ks (newList.set idx newRev)
      else do
        let newRev ← mergeChild childSrc
        bothChanged srcList dstList src dst ks (newList.set idx newRev)

/--
両側が変わったときの、src で消えた key の処理。

`new_list.pop(dst.keymap2[key])`。位置は merge 前の dst の列で数えたものなので、
前の `pop` で列が縮むとずれうる。
-/
def bothRemoved (dst : AnalyzeChanges) :
    List (Option Value) → List (Option Rev) → List Change → Op (List (Option Rev) × List Change)
  | [], newList, changes => pure (newList, changes)
  | k :: ks, newList, changes =>
    if k ∈ dst.changedKeys then
      Exec.raise (.mergeConflict "Cannot remove because it has changed")
    else if k ∈ dst.removedKeys then bothRemoved dst ks newList changes
    else do
      let idx ← Exec.ofOption (.keyError "key") (dst.keymap2.lookup k)
      match newList[idx]? with
      | none => Exec.raise (.indexError "pop index out of range")
      | some old => do
        let d ← changedData old
        bothRemoved dst ks (newList.eraseIdx idx) (changes ++ [(.postRemove, d)])

/-- 両側が変わったとき。dst の列から始める。 -/
def mergeKeyedBoth (key : String) (forkList srcList dstList : List Rev) :
    Op (List (Option Rev) × List Change) := do
  let src := analyzeChanges key forkList srcList
  let dst := analyzeChanges key forkList dstList
  let (l1, ch1) ← bothAdded mergeChild srcList dstList src dst src.addedKeys (dstList.map some) []
  let l2 ← bothChanged mergeChild srcList dstList src dst src.changedKeys l1
  bothRemoved dst src.removedKeys.reverse l2 ch1

/-! ## field ごとの merge -/

/-- 一つの field の merge。 -/
def mergeField (f : ChildField) (forkList srcList dstList : List Rev) :
    Op (List (Option Rev) × List Change) :=
  if dstList = srcList then do
    let _ ← Exec.mapList mergeChild srcList
    pure (dstList.map some, [])
  else
    match f.kind with
    | .keyed key _ =>
      if dstList = forkList then mergeKeyedOwn mergeChild key forkList srcList
      else mergeKeyedBoth mergeChild key forkList srcList dstList
    | kind =>
      if dstList = forkList then
        if srcList = forkList then Exec.raise (.assertion "We should not be here otherwise")
        else do
          let l ← Exec.mapList mergeChild srcList
          pure (l, if kind = .list then [(.postListchange, .operation f.name)] else [])
      else if srcList ≠ forkList then
        Exec.raise (.mergeConflict
          "Cannot merge because single child node or un-keyedchildren list has changed")
      else pure (dstList.map some, [])

/-- 全 field の merge。`new_children` は dst の辞書の写しから始める。 -/
def mergeFields (fork src dst : Rev) :
    List ChildField → List (String × List (Option Rev)) → List Change →
      Op (List (String × List (Option Rev)) × List Change)
  | [], acc, changes => pure (acc, changes)
  | f :: fs, acc, changes => do
    let (l, ch) ← mergeField mergeChild f (fork.child f.name) (src.child f.name) (dst.child f.name)
    mergeFields fork src dst fs (FieldTree.setField acc f.name l) (changes ++ ch)

end Keyed

/-! ## merge_3way -/

/-- local data の merge。変わったかどうかを返す。 -/
def mergeConfig (fork src dst : Rev) : Op Bool :=
  if Rev.config dst = Rev.config fork then pure (decide (Rev.config dst ≠ Rev.config src))
  else if Rev.config dst ≠ Rev.config src then Exec.raise (.mergeConflict "Config collision")
  else pure true

/-- 列の要素がすべて版であること。`None` が残っていれば hash を計算できない。 -/
def allRevs : List (String × List (Option Rev)) → Option (List (String × List Rev))
  | [] => some []
  | (f, l) :: cs => do
    let l' ← l.mapM id
    let cs' ← allRevs cs
    pure ((f, l') :: cs')

/-- `merge_3way`。dry run なら `None` を返す。 -/
def merge3way (S : Schema) (mergeChild : Rev → Op (Option Rev)) (dryRun : Bool)
    (fork src dst : Rev) : Op (Option Rev × List Change) := do
  let configChanged ← mergeConfig fork src dst
  let (children, changes) ← mergeFields mergeChild fork src dst (S.fields (Rev.config fork).type)
    (dst.children.map fun p => (p.1, p.2.map some)) []
  if dryRun then pure (none, [])
  else do
    let children ← Exec.ofOption
      (.attributeError "'NoneType' object has no attribute '_hash'") (allRevs children)
    let rev ← updateAllChildren (if configChanged then src else dst) (Rev.node dst) (Rev.tag dst)
      children
    pure (some rev,
      if configChanged then changes ++ [(.postUpdate, .data (Rev.data rev))] else changes)

/--
`_merge_txbranch`。

子の版が同じ transaction の枝のものなら、その node の merge に降りる。
`fuel` は降りる深さの上限で、node の番号は子に向かって増えるので node の個数で足りる。
-/
def mergeTxbranch (S : Schema) (t : TxId) (dryRun : Bool) : Nat → NodeId → Op (Option Rev)
  | 0, _ => Exec.raise .recursionLimit
  | fuel + 1, n => do
    let s ← Exec.read
    let srcBranch ← Exec.ofOption (.keyError (toString t)) (s.txBranch? t n)
    let dstBranch ← Exec.ofOption (.keyError "None") ((s.node n).branches none)
    let forkRev ← Exec.ofOption (.attributeError "'NoneType' object has no attribute '_config'")
      srcBranch.origin
    let mergeChild : Rev → Op (Option Rev) := fun c =>
      if Rev.tag c = .tx t then mergeTxbranch S t dryRun fuel (Rev.node c) else pure (some c)
    let (rev, changes) ← merge3way S mergeChild dryRun forkRev srcBranch.latest dstBranch.latest
    match rev with
    | none => pure none
    | some r => do
      makeLatest n none dstBranch r changes
      delTxbranch n t
      pure (some r)

end Voltha.Config
