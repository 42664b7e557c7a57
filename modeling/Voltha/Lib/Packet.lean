import Mathlib.Logic.Function.Basic

/-!
# field を並べた packet

packet は、名前の付いた field の列である。`build` は field を順に byte 列にし、
`dissect` は byte 列から順に field を取り出す。byte 列が尽きたら、残りの field は読まない。

field の読み書きは、packet の他の field の値を見てよい。書くときは全部の値が、
読むときはそれまでに読んだ値が見える。
**どの field も、前の field の値だけを見て戻るなら、packet の全体が戻る**（`dissect_build`）。
-/

namespace Packet

variable {V ε : Type}

/-- packet の、名前から値への対応。 -/
abbrev Fields (V : Type) := String → Option V

/-- field の class と引数。 -/
structure Field (V ε : Type) where
  name : String
  default : V
  addfield : Fields V → List UInt8 → V → Except ε (List UInt8)
  getfield : Fields V → List UInt8 → Except ε (List UInt8 × V)

/-- 条件が成り立つときだけある field。無いときの値は `absent`。 -/
def Field.conditional (cond : Fields V → Bool) (absent : V) (f : Field V ε) : Field V ε where
  name := f.name
  default := f.default
  addfield pkt s v := if cond pkt then f.addfield pkt s v else .ok s
  getfield pkt s := if cond pkt then f.getfield pkt s else .ok (s, absent)

/-- field の値。与えられていなければ default。 -/
def getfieldval (desc : List (Field V ε)) (fields : Fields V) (name : String) : Option V :=
  (fields name).or ((desc.find? fun f => f.name = name).map Field.default)

/-- field を順に書く。 -/
def buildLoop (pkt : Fields V) : List (Field V ε) → List UInt8 → Except ε (List UInt8)
  | [], s => .ok s
  | f :: fs, s => do
    let s ← f.addfield pkt s ((pkt f.name).getD f.default)
    buildLoop pkt fs s

/-- `str(pkt)`。 -/
def build (desc : List (Field V ε)) (fields : Fields V) : Except ε (List UInt8) :=
  buildLoop (getfieldval desc fields) desc []

/-- 読んだ値を加える。 -/
abbrev Store (V : Type) := Fields V → String → V → Fields V

/-- 名前の値を置き換える。 -/
def put : Store V := fun fields name v => Function.update fields name (some v)

/-- `do_dissect(s)`。残りの byte 列と、読んだ値。 -/
def dissectLoop (store : Store V) (desc : List (Field V ε)) :
    List (Field V ε) → List UInt8 → Fields V → Except ε (List UInt8 × Fields V)
  | [], s, fields => .ok (s, fields)
  | f :: fs, s, fields =>
    if s = [] then
      .ok (s, fields)
    else do
      let (s, v) ← f.getfield (getfieldval desc fields) s
      dissectLoop store desc fs s (store fields f.name v)

/-- 一つの値も読んでいない packet。 -/
def noFields : Fields V := fun _ => none

def dissect (store : Store V) (desc : List (Field V ε)) (s : List UInt8) :
    Except ε (List UInt8 × Fields V) := dissectLoop store desc desc s noFields

section Rules

variable {desc fs : List (Field V ε)} {f : Field V ε} {pkt fields : Fields V} {s s' : List UInt8}
  {v : V} {store : Store V}

theorem buildLoop_cons (hv : pkt f.name = some v) (h : f.addfield pkt s v = .ok s') :
    buildLoop pkt (f :: fs) s = buildLoop pkt fs s' := by
  rw [buildLoop, hv, Option.getD_some, h]
  rfl

theorem dissectLoop_cons (hs : s ≠ []) (h : f.getfield (getfieldval desc fields) s = .ok (s', v)) :
    dissectLoop store desc (f :: fs) s fields
      = dissectLoop store desc fs s' (store fields f.name v) := by
  rw [dissectLoop, if_neg hs, h]
  rfl

theorem buildLoop_append {gs : List (Field V ε)} (h : buildLoop pkt fs s = .ok s') :
    buildLoop pkt (fs ++ gs) s = buildLoop pkt gs s' := by
  induction fs generalizing s with
  | nil =>
    cases h
    rfl
  | cons f fs ih =>
    rw [buildLoop] at h
    rw [List.cons_append, buildLoop]
    cases hf : f.addfield pkt s ((pkt f.name).getD f.default) with
    | error e =>
      rw [hf] at h
      cases h
    | ok s₁ =>
      rw [hf] at h
      exact ih h

theorem buildLoop_split {gs : List (Field V ε)} (h : buildLoop pkt (fs ++ gs) s = .ok s') :
    ∃ s₁, buildLoop pkt fs s = .ok s₁ ∧ buildLoop pkt gs s₁ = .ok s' := by
  cases hfs : buildLoop pkt fs s with
  | ok s₁ => exact ⟨s₁, rfl, by rwa [buildLoop_append hfs] at h⟩
  | error e =>
    exfalso
    induction fs generalizing s with
    | nil => cases hfs
    | cons f fs ih =>
      rw [List.cons_append, buildLoop] at h
      rw [buildLoop] at hfs
      cases hf : f.addfield pkt s ((pkt f.name).getD f.default) with
      | error e =>
        rw [hf] at h
        cases h
      | ok s₁ =>
        rw [hf] at h hfs
        exact ih h hfs

end Rules

/--
`fs` の値が順に `bs` に書かれ、`done` の値だけを見て戻る。
-/
inductive Encodes (desc : List (Field V ε)) (pkt : Fields V) :
    List String → List (Field V ε) → List (List UInt8) → Prop
  | nil {done : List String} : Encodes desc pkt done [] []
  | cons {done : List String} {f : Field V ε} {fs : List (Field V ε)} {b : List UInt8}
      {bs : List (List UInt8)} {v : V} (value : pkt f.name = some v)
      (add : ∀ s, f.addfield pkt s v = .ok (s ++ b))
      (get : ∀ fields, (∀ n ∈ done, fields n = pkt n) →
        ∀ rest, f.getfield (getfieldval desc fields) (b ++ rest) = .ok (rest, v))
      (tail : Encodes desc pkt (f.name :: done) fs bs) :
      Encodes desc pkt done (f :: fs) (b :: bs)

namespace Encodes

variable {desc fs : List (Field V ε)} {pkt : Fields V} {t : List UInt8} {bs : List (List UInt8)}
  {done : List String}

theorem buildLoop_eq (h : Encodes desc pkt done fs bs) (s : List UInt8) :
    buildLoop pkt fs s = .ok (s ++ bs.flatten) := by
  induction h generalizing s with
  | nil => rw [buildLoop, List.flatten_nil, List.append_nil]
  | cons value add get tail ih =>
    rw [buildLoop_cons value (add s), ih, List.append_assoc, List.flatten_cons]

/--
読んだ値は、読んだ名前では `pkt` と同じで、他の名前では前のままである。

最後の field を読むまで byte 列が尽きないことが要る。
-/
theorem dissectLoop_eq (h : Encodes desc pkt done fs bs)
    (hmore : t ≠ [] ∨ ∀ b ∈ bs.getLast?, b ≠ []) {fields : Fields V}
    (hdone : ∀ n ∈ done, fields n = pkt n) :
    ∃ fields', dissectLoop put desc fs (bs.flatten ++ t) fields = .ok (t, fields') ∧
      ∀ n, fields' n = if n ∈ fs.map Field.name then pkt n else fields n := by
  induction h generalizing fields with
  | nil => exact ⟨fields, rfl, fun n => by simp⟩
  | @cons done f fs b bs v value add get tail ih =>
    have hnext : ∀ n ∈ f.name :: done, put fields f.name v n = pkt n := by
      intro n hn
      rw [put, Function.update_apply]
      split
      · next he => rw [he, value]
      · next he => exact hdone n ((List.mem_cons.mp hn).resolve_left he)
    have hmore' : t ≠ [] ∨ ∀ b ∈ bs.getLast?, b ≠ [] := by
      refine hmore.imp id fun hlast c hc => hlast c ?_
      rw [List.getLast?_cons, Option.mem_def.mp hc]
      exact rfl
    have hne : b ++ (bs.flatten ++ t) ≠ [] := by
      intro hnil
      obtain ⟨hb, hrest⟩ := List.append_eq_nil_iff.mp hnil
      obtain ⟨hbs, ht⟩ := List.append_eq_nil_iff.mp hrest
      rcases hmore with hmore | hlast
      · exact hmore ht
      · have hlastmem : (b :: bs).getLast (by simp) ∈ b :: bs := List.getLast_mem _
        refine hlast ((b :: bs).getLast (by simp)) (List.getLast?_eq_some_getLast _) ?_
        rcases List.mem_cons.mp hlastmem with he | hm
        · rw [he, hb]
        · exact List.flatten_eq_nil_iff.mp hbs _ hm
    obtain ⟨fields', hloop, hfields⟩ := ih hmore' hnext
    refine ⟨fields', ?_, fun n => ?_⟩
    · rw [List.flatten_cons, List.append_assoc, dissectLoop_cons hne (get fields hdone _), hloop]
    · rw [hfields, List.map_cons]
      by_cases hn : n ∈ fs.map Field.name
      · simp [hn]
      · by_cases he : n = f.name
        · subst he
          simp [hn, put, value]
        · simp [hn, he, put]

/-- 後に別の field が続くなら、読んだ値と残りの byte 列から、その field を読む。 -/
theorem dissectLoop_append (h : Encodes desc pkt done fs bs) (gs : List (Field V ε)) (ht : t ≠ [])
    {fields : Fields V} (hdone : ∀ n ∈ done, fields n = pkt n) :
    ∃ fields', dissectLoop put desc (fs ++ gs) (bs.flatten ++ t) fields
        = dissectLoop put desc gs t fields' ∧
      ∀ n, fields' n = if n ∈ fs.map Field.name then pkt n else fields n := by
  induction h generalizing fields with
  | nil => exact ⟨fields, rfl, fun n => by simp⟩
  | @cons done f fs b bs v value add get tail ih =>
    have hnext : ∀ n ∈ f.name :: done, put fields f.name v n = pkt n := by
      intro n hn
      by_cases he : n = f.name
      · simp [put, he, value]
      · simpa [put, he] using hdone n ((List.mem_cons.mp hn).resolve_left he)
    have hne : b ++ (bs.flatten ++ t) ≠ [] := by simp [ht]
    obtain ⟨fields', hloop, hfields⟩ := ih hnext
    refine ⟨fields', ?_, fun n => ?_⟩
    · rw [List.flatten_cons, List.append_assoc, List.cons_append,
        dissectLoop_cons hne (get fields hdone _), hloop]
    · rw [hfields, List.map_cons]
      by_cases he : n = f.name
      · simp [he, put, value]
      · simp [he, put]

end Encodes

/-- **往復。** 書いた byte 列から読むと、残りと、書いた値が戻る。 -/
theorem dissect_build {desc : List (Field V ε)} {fields : Fields V} {t : List UInt8}
    {bs : List (List UInt8)} (h : Encodes desc (getfieldval desc fields) [] desc bs)
    (hmore : t ≠ [] ∨ ∀ b ∈ bs.getLast?, b ≠ []) :
    build desc fields = .ok bs.flatten ∧
    ∃ fields', dissect put desc (bs.flatten ++ t) = .ok (t, fields') ∧
      ∀ n, fields' n = if n ∈ desc.map Field.name then getfieldval desc fields n else none :=
  ⟨h.buildLoop_eq [], h.dissectLoop_eq hmore nofun⟩

end Packet
