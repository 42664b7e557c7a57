import Voltha.Config.Properties.Mknode

/-!
# 版の無い木

config の木が何のためのものかを述べた、抽象的な見方。

木は一つの入れ子の message であり、node も branch も版も無い。操作は path の指すところを
その場で書き換える。

* `update` は、指された message の local data だけを差し替える
* `add` は、指された container の末尾に子を一つ加える
* `remove` は、指された子を一つ取り除く

path の読み方（空の成分の扱い、key の文字列からの読み取り）は、操作と `get` のものに合わせる。
-/

namespace Voltha.Config

variable (S : Schema)

/-! ## 道筋の先を書き換える -/

/-- 道筋の一歩が、その子に進むかどうか。単独の子なら key を見ない。 -/
def Seg.selects (g : Seg) (c : Msg) : Bool :=
  match g.key, g.field.key with
  | none, _ => true
  | some v, some key => decide (c.label.attr key = some v)
  | some _, none => false

/-- field `f` の子の列だけを書き換える。 -/
def overChildren (f : String) (g : List Msg → List Msg) (m : Msg) : Msg :=
  .mk m.label (m.children.map fun p => if p.1 = f then (p.1, g p.2) else p)

/-- 道筋の先の message だけを書き換える。 -/
def modifyAt (g : Msg → Msg) : List Seg → Msg → Msg
  | [], m => g m
  | seg :: R, m => overChildren seg.field.name
      (fun l => l.map fun c => if seg.selects c then modifyAt g R c else c) m

/-- 行き着いた先での書き換え。 -/
def Act.apply : Act → Msg → Msg
  | .write d, m => .mk d m.children
  | .insert f data, m => overChildren f.name (fun l => l ++ [complete S data]) m
  | .erase f v, m => overChildren f.name
      (fun l => l.filter fun c => !(Seg.selects ⟨f, some v⟩ c)) m

/-! ## path を読む -/

/-- path の指すところ。 -/
inductive Place where
  | node (route : List Seg)
  | container (route : List Seg) (f : ChildField)
  | nothing
deriving DecidableEq

/-- key `v` を持つ子。 -/
def findByKey (key : String) (v : Value) (l : List Msg) : Option Msg :=
  l.find? fun c => c.label.attr key = some v

/-- 操作の path を message の上でたどる。 -/
def locate : List String → Msg → List Seg → Place
  | [], _, route => .node route
  | name :: rest, m, route =>
    if name = "" then locate rest m route
    else
      match S.field? m.label.type name with
      | none => .nothing
      | some f =>
        match f.kind with
        | .single =>
          match (m.child name).head? with
          | none => .nothing
          | some c => locate rest c (route ++ [⟨f, none⟩])
        | .list => .nothing
        | .keyed key kt =>
          match rest with
          | [] => .container route f
          | keyStr :: path =>
            if isEmptyPath (keyStr :: path) then .container route f
            else
              match kt.fromStr keyStr with
              | none => .nothing
              | some v =>
                match findByKey key v (m.child name) with
                | none => .nothing
                | some c => locate path c (route ++ [⟨f, some v⟩])

/-- `get` の path で、message の一部を取り出す。container を指せば列になる。 -/
def select : List String → Msg → Option (Msg ⊕ List Msg)
  | [], m => some (.inl m)
  | name :: rest, m =>
    if isEmptyPath (name :: rest) then some (.inl m)
    else
      match S.field? m.label.type name with
      | none => none
      | some f =>
        match f.kind with
        | .single =>
          match (m.child name).head? with
          | none => none
          | some c => select rest c
        | .list => if isEmptyPath rest then some (.inr (m.child name)) else none
        | .keyed key kt =>
          match rest with
          | [] => some (.inr (m.child name))
          | keyStr :: path =>
            if isEmptyPath (keyStr :: path) then some (.inr (m.child name))
            else
              match kt.fromStr keyStr with
              | none => none
              | some v =>
                match findByKey key v (m.child name) with
                | none => none
                | some c => select path c

/-! ## 操作 -/

/-- `update`。 -/
def plainUpdate (path : List String) (data : Msg) (m : Msg) : Option Msg :=
  match locate S path m [] with
  | .node R => some (modifyAt (Act.apply S (.write data.label)) R m)
  | _ => none

/-- `add`。加える message の単独の子は、既定値で埋まったものとして読む。 -/
def plainAdd (path : List String) (data : Msg) (m : Msg) : Option Msg :=
  match locate S path m [] with
  | .container R f => some (modifyAt (Act.apply S (.insert f data)) R m)
  | _ => none

/-- `remove`。指された子を、それを含む message から取り除く。 -/
def plainRemove (path : List String) (m : Msg) : Option Msg :=
  match locate S path m [] with
  | .node R =>
    match R.getLast? with
    | some ⟨f, some v⟩ => some (modifyAt (Act.apply S (.erase f v)) R.dropLast m)
    | _ => none
  | _ => none

end Voltha.Config
