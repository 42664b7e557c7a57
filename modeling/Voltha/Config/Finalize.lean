import Voltha.Config.State

/-!
# 版の破棄

`PersistedConfigRevision.__del__`。版の object は、それを指すものが一つも無くなったときに破棄され、
そのとき **自分の hash の項目を** kv store から消す。同じ hash の object が他に生きていても消す。

版を指すのは、branch の `_latest` と `_origin`、弱参照でない `_revs`、tag、
そして生きている版の子の列である。
`_config.__weakref__` は `_rev_cache` が弱参照を持つので `None` にならず、
local data の項目は消されない。
-/

namespace Voltha.Config

/-- branch が直接指す版。 -/
def Branch.held (b : Branch) : List Rev :=
  b.latest :: b.origin.toList ++ (if b.autoPrune then [] else b.revs.map Prod.snd)

/-- node が直接指す版。 -/
def State.heldBy (s : State) (n : NodeId) : List Rev :=
  ((none :: (List.range s.nextTx).map some).flatMap fun k =>
    match (s.node n).branches k with
    | none => []
    | some b => b.held) ++ (s.node n).tags.map Prod.snd

/-- 生きている版。 -/
def State.live (s : State) : List Rev :=
  ((List.range s.nextNode).flatMap s.heldBy ++ s.detached).flatMap FieldTree.subtrees

/-- `__del__` が消す項目。 -/
def Store.erase (kv : Store) (r : Rev) : Store := Function.update kv (.rev (Rev.hash r)) none

/-- 持ち主のいない版。 -/
def State.dead (s : State) : List Rev := s.objs.filter fun r => r ∉ s.live

/-- 持ち主のいなくなった版を破棄する。 -/
def collect (s : State) : State :=
  { s with
    kv := s.kv.map fun kv => s.dead.foldl Store.erase kv
    objs := s.objs.filter fun r => r ∈ s.live }

end Voltha.Config
