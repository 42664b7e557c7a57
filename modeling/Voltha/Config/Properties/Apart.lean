import Voltha.Config.Properties.Atomic
import Voltha.Config.Properties.Image

/-!
# 離れた path の読み

一つの書き換えは、道筋の上の版を作り直すだけなので、道筋から離れた path の読みを変えない。
ただし作り直すのは「node ごとの branch の最新の版」なので、それが
親の版から見えている子の版と違っていれば、降りた先の全体が入れ替わる。
`clear` は、道筋と path が分かれるところまで、そういう食い違いが無いことを調べる。
-/

namespace Voltha.Config

open Exec

variable {S : Schema} {κ : Mode} {X : State → Rev → Prop}
variable {s s' s₁ : State} {n : NodeId} {k : Option TxId} {b : Branch}
variable {Ok : List Seg → Act → Prop} {route : List Seg} {r r' c c' : Rev}

/-! ## 置き場所 -/

/-- 置き場所の一段。field の名前と、keyed なら key。 -/
abbrev Entry := String × Option Value

def Seg.entry (g : Seg) : Entry := (g.field.name, g.key)

/-- 行き着いた先から、書き換えが指すところまでの一段。 -/
def Act.entries : Act → List Entry
  | .write _ => []
  | .insert f data => [(f.name, f.key.bind data.label.attr)]
  | .erase f v => [(f.name, some v)]

/-- node の置き場所を root からたどったもの。 -/
inductive Address (s : State) : NodeId → List Entry → Prop
  | root : Address s rootId []
  | child {m : NodeId} {sl : Slot} {a : List Entry} (hsl : (s.node m).slot = some sl)
      (h : Address s sl.parent a) : Address s m (a ++ [(sl.field, sl.keyName.bind fun _ => sl.key)])

/--
書き換えの道筋 `w` が、版 `r` から読む path と分かれるかどうか。

分かれるまでの共通の node では、その branch の最新の版が、親から見えている版と同じ見かけである。
読めない path は、いつでも読めないままなので構わない。
-/
def clear (S : Schema) (s : State) (k : Option TxId) : List Entry → List String → Rev → Bool
  | [], _, _ => false
  | _ :: _, [], _ => false
  | g :: w, name :: rest, r =>
    if isEmptyPath (name :: rest) then false
    else if g.1 ≠ name then true
    else
      match S.field? (s.node (Rev.node r)).type name with
      | none => true
      | some f =>
        match f.kind with
        | .list => !isEmptyPath rest
        | .single =>
          match (r.child name).head? with
          | none => true
          | some c =>
            decide ((s.view k (Rev.node c)).map Rev.image = some (Rev.image c)) &&
              clear S s k w rest c
        | .keyed key kt =>
          match rest with
          | [] => false
          | keyStr :: path =>
            if isEmptyPath (keyStr :: path) then false
            else
              match kt.fromStr keyStr with
              | none => true
              | some v =>
                if g.2 ≠ some v then true
                else
                  match findRevByKey key v (r.child name) with
                  | none => false
                  | some (_, c) =>
                    decide ((s.view k (Rev.node c)).map Rev.image = some (Rev.image c)) &&
                      clear S s k w path c

theorem clear_congr (h : SameView k s s') (path : List String) : ∀ w r,
    clear S s' k w path r = clear S s k w path r := by
  induction path using pathInduct with
  | nil => intro w r; cases w <;> rfl
  | cons name rest ih ih2 =>
    intro w r
    cases w with
    | nil => rfl
    | cons g w =>
      rw [clear, clear, h.type]
      split
      · rfl
      · split
        · rfl
        · split
          · rfl
          · next f _ =>
            cases f.kind with
            | list => rfl
            | single =>
              dsimp only
              split
              · rfl
              · rw [h.view, ih]
            | keyed key kt =>
              cases rest with
              | nil => rfl
              | cons keyStr path =>
                dsimp only
                split
                · rfl
                · split
                  · rfl
                  · split
                    · rfl
                    · split
                      · rfl
                      · rw [h.view, ih2 keyStr path rfl]

/-! ## 一段の読み -/

/-- 同じ node で、読む field の子の見かけが同じなら、読みも同じ。 -/
theorem getRev_of_child {depth : Option Nat} {name : String} {rest : List String}
    (hpath : isEmptyPath (name :: rest) = false) (hn : Rev.node r = Rev.node r')
    (hc : (r.child name).map Rev.image = (r'.child name).map Rev.image) :
    getRev S s depth (name :: rest) r = getRev S s depth (name :: rest) r' := by
  -- 読みに使わないところだけが違う版を間に挟む
  have key : ∀ q : Rev, getRev S s depth (name :: rest) q
      = getRev S s depth (name :: rest) (.mk ⟨0, Rev.node q, .committed, .plain, ⟨"", []⟩⟩
        [(name, q.child name)]) := by
    intro q
    have hch : FieldTree.child (.mk (⟨0, Rev.node q, .committed, .plain, ⟨"", []⟩⟩ : RevInfo)
        [(name, q.child name)]) name = q.child name := by
      simp [FieldTree.child]
    rw [getRev, getRev, hpath, hch]
    rfl
  rw [key r, key r']
  refine getRev_image depth _ _ _ ?_
  rw [Rev.image_mk, Rev.image_mk, hn, List.map_cons, List.map_cons, hc]

/-- 見つかる版だけを見れば、`find_rev_by_key` は先頭から探すことである。 -/
theorem findRevByKey_snd (key : String) (v : Value) : ∀ l : List Rev,
    (findRevByKey key v l).map Prod.snd = l.find? fun c => Rev.keyIn key c = some v
  | [] => rfl
  | c :: l => by
    rw [findRevByKey, List.find?_cons]
    by_cases h : (Rev.config c).attr key = some v
    · have h' : decide (Rev.keyIn key c = some v) = true := decide_eq_true h
      rw [if_pos h, h']; rfl
    · have h' : decide (Rev.keyIn key c = some v) = false := decide_eq_false h
      rw [if_neg h, h', ← findRevByKey_snd key v l, Option.map_map]
      rfl

/-- keyed な子に降りる読み。 -/
theorem getRev_keyed {depth : Option Nat} {f : ChildField} {key : String} {kt : KeyType}
    {keyStr : String} {path : List String} {v : Value}
    (hf : S.field? (s.node (Rev.node r)).type f.name = some f) (hk : f.kind = .keyed key kt)
    (hpath : isEmptyPath (keyStr :: path) = false) (hv : kt.fromStr keyStr = some v) :
    getRev S s depth (f.name :: keyStr :: path) r =
      match (r.child f.name).find? fun c => Rev.keyIn key c = some v with
      | none => .error (.keyError ("key " ++ key ++ "=" ++ v.render ++ " not found"))
      | some c => getRev S s depth path c := by
  have hp : isEmptyPath (f.name :: keyStr :: path) = false := rfl
  rw [getRev, hp, hf]
  simp only [Bool.false_eq_true, if_false, hk, hpath, hv]
  rw [← findRevByKey_snd]
  cases findRevByKey key v (r.child f.name) <;> rfl

/-- 読めない key の読み。 -/
theorem getRev_badKey {depth : Option Nat} {f : ChildField} {key : String} {kt : KeyType}
    {keyStr : String} {path : List String}
    (hf : S.field? (s.node (Rev.node r)).type f.name = some f) (hk : f.kind = .keyed key kt)
    (hpath : isEmptyPath (keyStr :: path) = false) (hv : kt.fromStr keyStr = none) :
    getRev S s depth (f.name :: keyStr :: path) r = .error (.valueError keyStr) := by
  have hp : isEmptyPath (f.name :: keyStr :: path) = false := rfl
  rw [getRev, hp, hf]
  simp only [Bool.false_eq_true, if_false, hk, hpath, hv]

/-- 単独の子に降りる読み。 -/
theorem getRev_single {depth : Option Nat} {f : ChildField} {rest : List String}
    (hpath : isEmptyPath (f.name :: rest) = false)
    (hf : S.field? (s.node (Rev.node r)).type f.name = some f) (hk : f.kind = .single)
    (hc : (r.child f.name).head? = some c) :
    getRev S s depth (f.name :: rest) r = getRev S s depth rest c := by
  rw [getRev, hpath, hf]
  simp only [Bool.false_eq_true, if_false, hk, hc]

/-! ## 列の差し替えと key -/

section Find

variable {p : Rev → Bool} {l : List Rev} {idx : Nat}

theorem find?_append_other (hc : p c = false) : (l ++ [c]).find? p = l.find? p := by
  rw [List.find?_append]
  simp [hc]

theorem find?_eraseIdx_other (hl : l[idx]? = some c) (hc : p c = false) :
    (l.eraseIdx idx).find? p = l.find? p := by
  obtain ⟨hlt, rfl⟩ := List.getElem?_eq_some_iff.mp hl
  conv_rhs => rw [← List.take_append_drop idx l, List.drop_eq_getElem_cons hlt]
  rw [List.eraseIdx_eq_take_drop_succ, List.find?_append, List.find?_append, List.find?_cons, hc]

theorem find?_set_other (hl : l[idx]? = some c) (hc : p c = false) (hc' : p c' = false) :
    (l.set idx c').find? p = l.find? p := by
  have hlt := (List.getElem?_eq_some_iff.mp hl).1
  have he : (l.set idx c').eraseIdx idx = l.eraseIdx idx := by
    rw [List.eraseIdx_eq_take_drop_succ, List.eraseIdx_eq_take_drop_succ, List.take_set_of_le
      (Nat.le_refl _), List.drop_set_of_lt (Nat.lt_succ_self _)]
  rw [← find?_eraseIdx_other hl hc, ← he]
  refine (find?_eraseIdx_other (c := c') ?_ hc').symm
  rw [List.getElem?_set_self hlt]

theorem findRevByKey_set_self {key : String} {v : Value} {c' : Rev}
    (hc' : Rev.keyIn key c' = some v) :
    ∀ {l : List Rev} {idx : Nat} {c : Rev}, findRevByKey key v l = some (idx, c) →
      findRevByKey key v (l.set idx c') = some (idx, c')
  | [], _, _, h => by cases h
  | a :: l, idx, c, h => by
    rw [findRevByKey] at h
    split at h
    · obtain ⟨rfl, rfl⟩ := Prod.mk.inj (Option.some.inj h)
      rw [List.set_cons_zero, findRevByKey]
      exact if_pos hc'
    · next hne =>
      obtain ⟨⟨j, d⟩, hj, he⟩ := Option.map_eq_some_iff.mp h
      obtain ⟨rfl, rfl⟩ := Prod.mk.inj he
      rw [List.set_cons_succ, findRevByKey, if_neg hne, findRevByKey_set_self hc' hj]
      rfl

end Find

theorem child_setField_ne {i : RevInfo} {f g : String} {l : List Rev} (h : g ≠ f) :
    FieldTree.child (.mk i (FieldTree.setField r.children f l)) g = r.child g := by
  unfold FieldTree.child
  rw [FieldTree.children_mk, FieldTree.lookup_setField, if_neg h]

theorem child_setField_self {i : RevInfo} {f : String} {l : List Rev} :
    FieldTree.child (.mk i (FieldTree.setField r.children f l)) f = l ∨
    (FieldTree.child (.mk i (FieldTree.setField r.children f l)) f = [] ∧ r.child f = []) := by
  unfold FieldTree.child
  rw [FieldTree.children_mk, FieldTree.lookup_setField, if_pos rfl]
  cases r.children.lookup f with
  | none => exact Or.inr ⟨rfl, rfl⟩
  | some m => exact Or.inl rfl

/-! ## 道筋と path の分かれ方 -/

/-- path は、道筋の最初の一段 `(f, kv)` のところで分かれる。 -/
inductive Parts (f : ChildField) (kv : Option Value) : List String → Prop
  /-- 別の field を読む。 -/
  | field {name : String} {rest : List String} (hpath : isEmptyPath (name :: rest) = false)
      (hne : name ≠ f.name) : Parts f kv (name :: rest)
  /-- 読めない key。 -/
  | badKey {key : String} {kt : KeyType} {keyStr : String} {path : List String}
      (hk : f.kind = .keyed key kt) (hpath : isEmptyPath (keyStr :: path) = false)
      (hv : kt.fromStr keyStr = none) : Parts f kv (f.name :: keyStr :: path)
  /-- 別の key の子を読む。 -/
  | otherKey {key : String} {kt : KeyType} {keyStr : String} {path : List String} {v : Value}
      (hk : f.kind = .keyed key kt) (hpath : isEmptyPath (keyStr :: path) = false)
      (hv : kt.fromStr keyStr = some v) (hne : kv ≠ some v) :
      Parts f kv (f.name :: keyStr :: path)

/-- path は、道筋と同じ子 `c` に降りる。残りの path が `rest` である。 -/
inductive Shares (f : ChildField) (kv : Option Value) (r c : Rev) : List String → List String → Prop
  | keyed {key : String} {kt : KeyType} {keyStr : String} {path : List String} {v : Value} {i : Nat}
      (hk : f.kind = .keyed key kt) (hpath : isEmptyPath (keyStr :: path) = false)
      (hv : kt.fromStr keyStr = some v) (he : kv = some v)
      (hc : findRevByKey key v (r.child f.name) = some (i, c)) :
      Shares f kv r c (f.name :: keyStr :: path) path
  | single {rest : List String} (hk : f.kind = .single)
      (hpath : isEmptyPath (f.name :: rest) = false) (hc : (r.child f.name).head? = some c) :
      Shares f kv r c (f.name :: rest) rest

/-- `clear` なら、path はここで分かれるか、食い違いの無い同じ子に降りる。 -/
theorem clear_cases {f : ChildField} {kv : Option Value} {w : List Entry} {path : List String}
    (hf : S.field? (s.node (Rev.node r)).type f.name = some f)
    (hgo : f.key = none → f.kind = .single ∧ r.child f.name ≠ [])
    (h : clear S s k ((f.name, kv) :: w) path r = true) :
    Parts f kv path ∨ ∃ c rest, Shares f kv r c path rest ∧
      (s.view k (Rev.node c)).map Rev.image = some (Rev.image c) ∧ clear S s k w rest c = true := by
  cases path with
  | nil => cases h
  | cons name rest =>
    rw [clear] at h
    cases hp : isEmptyPath (name :: rest) with
    | true => rw [hp] at h; cases h
    | false =>
      by_cases hn : f.name = name
      swap
      · exact Or.inl (Parts.field hp fun he => hn he.symm)
      subst hn
      rw [hp, hf] at h
      simp only [Bool.false_eq_true, if_false, ne_eq, not_true_eq_false] at h
      cases hk : f.kind with
      | list =>
        have := (hgo (by rw [ChildField.key, hk])).1
        rw [hk] at this; cases this
      | single =>
        rw [hk] at h
        dsimp only at h
        cases hc : (r.child f.name).head? with
        | none =>
          exact absurd (List.head?_eq_none_iff.mp hc) (hgo (by rw [ChildField.key, hk])).2
        | some c =>
          rw [hc] at h
          dsimp only at h
          rw [Bool.and_eq_true, decide_eq_true_eq] at h
          exact Or.inr ⟨c, rest, Shares.single hk hp hc, h.1, h.2⟩
      | keyed key kt =>
        rw [hk] at h
        cases rest with
        | nil => cases h
        | cons keyStr path =>
          dsimp only at h
          cases hpath : isEmptyPath (keyStr :: path) with
          | true => rw [hpath] at h; cases h
          | false =>
            rw [hpath] at h
            simp only [Bool.false_eq_true, if_false] at h
            cases hv : kt.fromStr keyStr with
            | none => exact Or.inl (Parts.badKey hk hpath hv)
            | some v =>
              rw [hv] at h
              dsimp only at h
              by_cases he : kv = some v
              swap
              · exact Or.inl (Parts.otherKey hk hpath hv he)
              rw [if_neg (not_not_intro he)] at h
              cases hc : findRevByKey key v (r.child f.name) with
              | none => rw [hc] at h; cases h
              | some q =>
                rw [hc] at h
                dsimp only at h
                rw [Bool.and_eq_true, decide_eq_true_eq] at h
                exact Or.inr ⟨q.2, path, Shares.keyed hk hpath hv he hc, h.1, h.2⟩

/-- 一つの field の子だけを差し替えた版を、分かれた先から読む。 -/
theorem Parts.getRev_eq {f : ChildField} {kv : Option Value} {path : List String} {q : Rev}
    {i : RevInfo} {l : List Rev} {depth : Option Nat} (h : Parts f kv path)
    (hf : S.field? (s.node (Rev.node q)).type f.name = some f) (hnode : i.node = Rev.node q)
    (hother : ∀ key v, f.key = some key → kv ≠ some v →
      l.find? (fun c => Rev.keyIn key c = some v)
        = (q.child f.name).find? fun c => Rev.keyIn key c = some v) :
    getRev S s depth path (.mk i (FieldTree.setField q.children f.name l))
      = getRev S s depth path q := by
  have hnode' : Rev.node (.mk i (FieldTree.setField q.children f.name l)) = Rev.node q := hnode
  have hf' : S.field? (s.node (Rev.node (.mk i (FieldTree.setField q.children f.name l)))).type
      f.name = some f := by rw [hnode']; exact hf
  cases h with
  | field hpath hne =>
    refine getRev_of_child hpath hnode' ?_
    rw [child_setField_ne hne]
  | badKey hk hpath hv => rw [getRev_badKey hf' hk hpath hv, getRev_badKey hf hk hpath hv]
  | otherKey hk hpath hv hne =>
    rw [getRev_keyed hf' hk hpath hv, getRev_keyed hf hk hpath hv]
    rcases child_setField_self (r := q) (i := i) (f := f.name) (l := l) with hc | ⟨hc, hq⟩
    · rw [hc, hother _ _ (by rw [ChildField.key, hk]) hne]
    · rw [hc, hq]

/-- 同じ子に降りる読みは、その子の読みである。 -/
theorem Shares.getRev_eq {f : ChildField} {kv : Option Value} {path rest : List String}
    {depth : Option Nat} (h : Shares f kv r c path rest)
    (hf : S.field? (s.node (Rev.node r)).type f.name = some f) :
    getRev S s depth path r = getRev S s depth rest c := by
  cases h with
  | keyed hk hpath hv he hc =>
    rw [getRev_keyed hf hk hpath hv, ← findRevByKey_snd, hc]
    rfl
  | single hk hpath hc => exact getRev_single hpath hf hk hc

/-! ## 一つの書き換えと読み -/

/-- 正常に終わった操作には、行き着いた先の書き換えがある。 -/
theorem Effect.acts {res : Except Err Rev} (h : Effect S k Ok route n s res s') :
    ∀ r, res = .ok r → ∃ w act, Ok (route ++ w) act := by
  have below : ∀ {route : List Seg} {g : Seg}, (∃ w act, Ok (route ++ [g] ++ w) act) →
      ∃ w act, Ok (route ++ w) act := by
    rintro route g ⟨w, act, h⟩
    exact ⟨g :: w, act, by rw [List.append_assoc] at h; exact h⟩
  induction h with
  | fail => intro r h; cases h
  | same _ hok => exact fun _ _ => ⟨[], _, by rw [List.append_nil]; exact hok⟩
  | write _ _ _ hok _ => exact fun _ _ => ⟨[], _, by rw [List.append_nil]; exact hok⟩
  | insert _ _ _ _ _ _ hok _ _ => exact fun _ _ => ⟨[], _, by rw [List.append_nil]; exact hok⟩
  | insertFail => intro r h; cases h
  | erase _ _ _ _ hok _ => exact fun _ _ => ⟨[], _, by rw [List.append_nil]; exact hok⟩
  | down _ _ _ _ _ _ ih => exact fun _ _ => below (ih _ rfl)
  | downSame _ _ _ _ _ ih => exact fun _ _ => below (ih _ rfl)
  | keyChange => intro r h; cases h
  | failBelow => intro r h; cases h

/-- 子を一つ替えた版では、同じ path が替わった子に降りる。 -/
theorem Shares.replace {f : ChildField} {kv : Option Value} {path rest : List String} {q d : Rev}
    {i : RevInfo} {idx : Nat} (h : Shares f kv r c path rest) (himg : Rev.image r = Rev.image q)
    (hd : Found f (q.child f.name) idx d kv)
    (hkey : ∀ key v, f.key = some key → kv = some v → Rev.keyIn key c' = some v) :
    Rev.image c = Rev.image d ∧
      Shares f kv (.mk i (FieldTree.setField q.children f.name
        (replaceChild f (q.child f.name) idx c'))) c' path rest := by
  have hch := Rev.child_of_image himg f.name
  have hne : q.child f.name ≠ [] := List.ne_nil_of_mem hd.mem
  have hnew := (child_setField_self (r := q) (i := i) (f := f.name)
    (l := replaceChild f (q.child f.name) idx c')).resolve_right fun h => hne h.2
  cases h with
  | keyed hk hpath hv he hc =>
    subst he
    obtain ⟨key, hfk, hfind⟩ := hd
    rw [ChildField.key, hk] at hfk
    obtain rfl := Option.some.inj hfk
    obtain ⟨d', hd', hi⟩ := findRevByKey_image_some hch hc
    rw [hfind] at hd'
    obtain ⟨rfl, rfl⟩ := Prod.mk.inj (Option.some.inj hd')
    refine ⟨hi, Shares.keyed hk hpath hv rfl (i := idx) ?_⟩
    rw [hnew]
    unfold replaceChild
    rw [hk]
    exact findRevByKey_set_self (hkey _ _ (by rw [ChildField.key, hk]) rfl) hfind
  | single hk hpath hc =>
    obtain ⟨d', hd', hi⟩ := head?_image_some hch hc
    have hhead : (q.child f.name).head? = some d := by
      cases kv with
      | none => exact hd.2.1
      | some v =>
        obtain ⟨key, hfk, -⟩ := hd
        rw [ChildField.key, hk] at hfk
        cases hfk
    rw [hhead] at hd'
    cases hd'
    refine ⟨hi, Shares.single hk hpath ?_⟩
    rw [hnew]
    unfold replaceChild
    rw [hk]
    rfl

theorem Found.go {f : ChildField} {l : List Rev} {idx : Nat} {kv : Option Value}
    (h : Found f l idx c kv) : f.key = none → f.kind = .single ∧ l ≠ [] := by
  intro hkey
  refine ⟨?_, List.ne_nil_of_mem h.mem⟩
  cases kv with
  | none => exact h.1
  | some v =>
    obtain ⟨key, hfk, -⟩ := h
    rw [hkey] at hfk; cases hfk

theorem Found.find {f : ChildField} {l : List Rev} {idx : Nat} {v : Value} {key : String}
    (h : Found f l idx c (some v)) (hk : f.key = some key) :
    findRevByKey key v l = some (idx, c) := by
  obtain ⟨key', hk', hfind⟩ := h
  rw [hk] at hk'
  cases hk'
  exact hfind

theorem Shares.mem {f : ChildField} {kv : Option Value} {path rest : List String}
    (h : Shares f kv r c path rest) : c ∈ r.child f.name := by
  cases h with
  | keyed _ _ _ _ hc => exact List.mem_of_getElem? (findRevByKey_eq_some hc).1
  | single _ _ hc => exact List.mem_of_head? hc

theorem Shares.unique {f : ChildField} {kv : Option Value} {path rest rest' : List String}
    (h : Shares f kv r c path rest) (h' : Shares f kv r c' path rest') : c = c' ∧ rest = rest' := by
  cases h with
  | keyed hk _ _ he hc =>
    cases h' with
    | keyed hk' _ _ he' hc' =>
      rw [hk] at hk'
      cases hk'
      rw [he] at he'
      cases he'
      rw [hc] at hc'
      cases hc'
      exact ⟨rfl, rfl⟩
    | single hk' => rw [hk] at hk'; cases hk'
  | single hk _ hc =>
    cases h' with
    | keyed hk' => rw [hk] at hk'; cases hk'
    | single _ _ hc' =>
      rw [hc] at hc'
      cases hc'
      exact ⟨rfl, rfl⟩

theorem Parts.not_shares {f : ChildField} {kv : Option Value} {path : List String}
    (h : Parts f kv path) (rest : List String) : ¬Shares f kv r c path rest := by
  intro hs
  cases hs with
  | keyed hk _ hv he hc =>
    cases h with
    | field _ hne => exact hne rfl
    | badKey hk' _ hv' =>
      rw [hk] at hk'
      cases hk'
      rw [hv] at hv'; cases hv'
    | otherKey hk' _ hv' hne =>
      rw [hk] at hk'
      cases hk'
      rw [hv] at hv'
      cases hv'
      exact hne he
  | single hk _ _ =>
    cases h with
    | field _ hne => exact hne rfl
    | badKey hk' => rw [hk] at hk'; cases hk'
    | otherKey hk' => rw [hk] at hk'; cases hk'

theorem Bounded.mono {K : Option TxId → Prop} (h : Bounded s r) (hf : Frame K s s') :
    Bounded s' r := fun r' hr => Nat.lt_of_lt_of_le (h r' hr) hf.next

/-- 用意した branch の最新の版は、key `k` の branch から見えていたものである。 -/
theorem BranchOk.latest_of_view (hb1 : BranchOk S κ X s₁ n k b)
    (hb : branchFor n k s = (.ok b, s₁)) {f : ChildField} (hf : f ∈ S.fields (s₁.node n).type)
    {K : Option TxId → Prop} (hf1 : Frame K s₁ s') {v : Rev} (hv : s.view k n = some v)
    (hi : Rev.image r = Rev.image v) : v = b.latest ∧ Rev.node r = n ∧
      S.field? (s.node n).type f.name = some f ∧ S.field? (s'.node n).type f.name = some f := by
  obtain ⟨hsame, hview, -⟩ := branchFor_sameView hb
  rw [hview] at hv
  obtain rfl := Option.some.inj hv
  refine ⟨rfl, (Rev.node_of_image hi).trans hb1.node_latest, ?_, ?_⟩
  · rw [← hsame.type]; exact S.field?_of_mem hf
  · rw [hf1.type n hb1.lt]; exact S.field?_of_mem hf

section Install

variable {f : ChildField} {kv : Option Value} {path rest : List String} {l : List Rev}
  {anns : List (CallbackType × Context)} {depth : Option Nat}

/-- 一つの field の列を差し替えて据えても、分かれた先の読みは変わらない。 -/
theorem Parts.install_getRev_eq (h : Parts f kv path) (hb : BranchOk S κ X s₁ n k b)
    (hi : Rev.image r = Rev.image b.latest) (hf : S.field? (s'.node n).type f.name = some f)
    (hr : install n k b f.name l anns s = (.ok r', s'))
    (hother : ∀ key v, f.key = some key → kv ≠ some v →
      l.find? (fun c => Rev.keyIn key c = some v)
        = (b.latest.child f.name).find? fun c => Rev.keyIn key c = some v) :
    getRev S s' depth path r' = getRev S s' depth path r := by
  rw [(replaceLatest_spec hr).1, getRev_image depth path r _ hi]
  exact h.getRev_eq (hb.node_latest ▸ hf) hb.node_latest.symm hother

/-- 一つ替えた列の、別の key の子は変わらない。 -/
theorem Found.find?_replaceChild {idx : Nat} (hc : Found f l idx c kv)
    (hck : ∀ key v, f.key = some key → kv = some v → Rev.keyIn key c' = some v) {key : String}
    {v : Value} (hk : f.key = some key) (hne : kv ≠ some v) :
    (replaceChild f l idx c').find? (fun c => Rev.keyIn key c = some v)
      = l.find? fun c => Rev.keyIn key c = some v := by
  cases kv with
  | none => rw [ChildField.key, hc.1] at hk; cases hk
  | some u =>
    obtain ⟨hget, hcu⟩ := findRevByKey_eq_some (hc.find hk)
    unfold replaceChild
    split
    · next hs => rw [ChildField.key, hs] at hk; cases hk
    · refine find?_set_other hget (by simpa [hcu] using hne) ?_
      simpa [hck key u hk rfl] using hne

/-- 同じ子に降りる読みは、その子の読みだけが変わる。 -/
theorem Shares.install_getRev_eq {d : Rev} {idx : Nat} (hsh : Shares f kv r d path rest)
    (hn : Rev.node r = n) (hi : Rev.image r = Rev.image b.latest)
    (hc : Found f (b.latest.child f.name) idx c kv)
    (hck : ∀ key v, f.key = some key → kv = some v → Rev.keyIn key c' = some v)
    (hf : S.field? (s'.node n).type f.name = some f) (hc' : Bounded s c') (hd : Bounded s d)
    (hr : install n k b f.name (replaceChild f (b.latest.child f.name) idx c') anns s
      = (.ok r', s')) (hbelow : getRev S s depth rest c' = getRev S s depth rest d) :
    getRev S s' depth path r' = getRev S s' depth path r := by
  obtain ⟨-, hsh'⟩ := hsh.replace (i := ⟨s.nextUid, n, b.tag, b.latest.label.store,
    Rev.config b.latest⟩) hi hc hck
  have hnodes := (replaceLatest_frame hr).sameNodes
  rw [(replaceLatest_spec hr).1, hsh'.getRev_eq hf, hsh.getRev_eq (hn ▸ hf),
    getRev_congr hnodes depth rest c' hc', getRev_congr hnodes depth rest d hd, hbelow]

end Install

/--
道筋から離れた path の読みが、操作で変わらないこと。

`r` は、操作を始める node の、親から見えている版。node の branch の最新の版と同じ見かけである。
-/
def ReadsApart (S : Schema) (k : Option TxId) (Ok : List Seg → Act → Prop) (route : List Seg)
    (n : NodeId) (s s' : State) (depth : Option Nat) (r' : Rev) : Prop :=
  ∀ path r v, s.view k n = some v → Rev.image r = Rev.image v → Bounded s r →
    (∀ w act, Ok (route ++ w) act →
      clear S s k (w.map Seg.entry ++ act.entries) path r = true) →
    getRev S s' depth path r' = getRev S s' depth path r

section Cases

variable {f : ChildField} {idx : Nat} {anns : List (CallbackType × Context)} {s₂ : State}
  {depth : Option Nat}

/-- 最新の版をそのまま返す操作。 -/
theorem same_getRev_eq (hb : branchFor n k s = (.ok b, s₁)) :
    ReadsApart S k Ok route n s s' depth b.latest := by
  intro path r v hv hi _ _
  rw [(branchFor_sameView hb).2.1] at hv
  obtain rfl := Option.some.inj hv
  exact (getRev_image depth path _ _ hi).symm

theorem insert_getRev_eq (hX : Closed X) {key : String} {kv : Value} {data : Msg}
    (hg1 : Good S κ X s₁) (hb1 : BranchOk S κ X s₁ n k b) (hb : branchFor n k s = (.ok b, s₁))
    (hf : f ∈ S.fields (s₁.node n).type) (hkey : f.key = some key)
    (hv : data.label.attr key = some kv) (hok : Ok route (.insert f data))
    (hkeep : Keeping S κ route (.insert f data))
    (hm : mknode S (complete S data) (some ⟨n, f.name, some key, some kv⟩) s₁ = (.ok c, s₂))
    (hr : install n k b f.name (b.latest.child f.name ++ [c]) anns s₂ = (.ok r', s')) :
    ReadsApart S k Ok route n s s' depth r' := by
  intro path r v hview hi _ hclear
  obtain ⟨rfl, hn, hfs, hfs'⟩ := hb1.latest_of_view hb hf ((mknode_frame (k := k) hm).trans
    (replaceLatest_frame hr)) hview hi
  have hcl := hclear [] _ (by rw [List.append_nil]; exact hok)
  simp only [List.map_nil, List.nil_append, Act.entries, hkey, Option.bind_some, hv] at hcl
  rcases clear_cases (hn ▸ hfs) (by simp [hkey]) hcl with hparts | ⟨_, _, _, _, hc⟩
  · refine hparts.install_getRev_eq hb1 hi hfs' hr fun key' v' hk' hne => ?_
    rw [hkey] at hk'
    cases hk'
    refine find?_append_other ?_
    have hcfg := (wp_ok (mknode_child hX hg1 hv hkeep) hm).2.2.2.2
    simpa [Rev.keyIn, hcfg, hv] using hne
  · cases hc

theorem erase_getRev_eq {kv : Value} (hb1 : BranchOk S κ X s₁ n k b)
    (hb : branchFor n k s = (.ok b, s₁)) (hf : f ∈ S.fields (s₁.node n).type)
    (hc : Found f (b.latest.child f.name) idx c (some kv)) (hok : Ok route (.erase f kv))
    (hr : install n k b f.name ((b.latest.child f.name).eraseIdx idx) anns s₁ = (.ok r', s')) :
    ReadsApart S k Ok route n s s' depth r' := by
  intro path r v hview hi _ hclear
  obtain ⟨rfl, hn, hfs, hfs'⟩ := hb1.latest_of_view hb hf (replaceLatest_frame hr) hview hi
  have hcl := hclear [] _ (by rw [List.append_nil]; exact hok)
  simp only [List.map_nil, List.nil_append, Act.entries] at hcl
  obtain ⟨key, hkey, hfind⟩ := hc
  rcases clear_cases (hn ▸ hfs) (by simp [hkey]) hcl with hparts | ⟨_, _, _, _, hc⟩
  · refine hparts.install_getRev_eq hb1 hi hfs' hr fun key' v' hk' hne => ?_
    rw [hkey] at hk'
    cases hk'
    obtain ⟨hget, hck⟩ := findRevByKey_eq_some hfind
    exact find?_eraseIdx_other hget (by simpa [hck] using hne)
  · cases hc

/-- 子の操作の後。子の読みが変わらなければ、親からの読みも変わらない。 -/
theorem down_getRev_eq (hκ : κ.keys) {kv : Option Value} (hb1 : BranchOk S κ X s₁ n k b)
    (hb : branchFor n k s = (.ok b, s₁)) (hf : f ∈ S.fields (s₁.node n).type)
    (hc : Found f (b.latest.child f.name) idx c kv) (hframe : Frame (· ≠ k) s₁ s₂)
    (hacts : ∃ w act, Ok (route ++ [⟨f, kv⟩] ++ w) act)
    (hland : Landed S κ X k (Rev.node c) s₂ (.ok c'))
    (hbelow : ReadsApart S k Ok (route ++ [⟨f, kv⟩]) (Rev.node c) s₁ s₂ depth c')
    (hr : install n k b f.name (replaceChild f (b.latest.child f.name) idx c') anns s₂
      = (.ok r', s')) : ReadsApart S k Ok route n s s' depth r' := by
  intro path r v hview hi hbd hclear
  obtain ⟨rfl, hn, hfs, hfs'⟩ :=
    hb1.latest_of_view hb hf (hframe.trans (replaceLatest_frame hr)) hview hi
  have hck : ∀ key v, f.key = some key → kv = some v → Rev.keyIn key c' = some v := by
    rintro key v hkey rfl
    exact hland.keyIn_eq hκ hb1 hf hkey hc hframe
  have hgo : f.key = none → f.kind = .single ∧ r.child f.name ≠ [] := by
    intro hk
    refine ⟨(hc.go hk).1, fun hnil => (hc.go hk).2 ?_⟩
    have := Rev.child_of_image hi f.name
    rw [hnil] at this
    exact List.map_eq_nil_iff.mp this.symm
  -- 降りた先にも書き換えがあるので、それで path との分かれ方が決まる
  obtain ⟨w, act, hact⟩ := hacts
  have hcl := hclear (⟨f, kv⟩ :: w) act (by rw [List.append_assoc] at hact; exact hact)
  rcases clear_cases (hn ▸ hfs) hgo hcl with hparts | ⟨d, rest, hsh, hv, -⟩
  · exact hparts.install_getRev_eq hb1 hi hfs' hr fun key v => hc.find?_replaceChild hck
  · have hsame := (branchFor_sameView hb).1
    have hid := (hsh.replace (i := ⟨s₂.nextUid, n, b.tag, b.latest.label.store,
      Rev.config b.latest⟩) hi hc hck).1
    have hbd1 := (hbd.child hsh.mem).mono (branchFor_frame hb)
    -- 親から見えている子の版 `d` からの読み
    have hread : getRev S s₂ depth rest c' = getRev S s₂ depth rest d := by
      obtain ⟨v, hv, hvi⟩ := Option.map_eq_some_iff.mp hv
      refine hbelow rest d v ?_ hvi.symm hbd1 fun w act hact => ?_
      · rw [hsame.view, ← Rev.node_of_image hid]; exact hv
      · have hcl := hclear (⟨f, kv⟩ :: w) act (by rw [List.append_assoc] at hact; exact hact)
        rw [clear_congr hsame]
        rcases clear_cases (hn ▸ hfs) hgo hcl with hparts | ⟨d', rest', hsh2, -, hcl2⟩
        · exact absurd hsh (hparts.not_shares rest)
        · obtain ⟨rfl, rfl⟩ := hsh.unique hsh2
          exact hcl2
    exact hsh.install_getRev_eq hn hi hc hck hfs' hland.2.2.1.bounded (hbd1.mono hframe) hr hread

end Cases

/-- 一つの操作は、道筋から離れた path の読みを変えない。 -/
theorem Effect.getRev_eq (hX : Closed X) (hκ : κ.keys)
    (hOk : ∀ route act, Ok route act → Keeping S κ route act) (depth : Option Nat)
    {res : Except Err Rev} (h : Effect S k Ok route n s res s') :
    Good S κ X s → Alive s n → SlotRoute s n route → ∀ r', res = .ok r' →
      ReadsApart S k Ok route n s s' depth r' := by
  induction h with
  | fail => intro _ _ _ r' he; cases he
  | same hb _ =>
    intro _ _ _ r' he
    obtain rfl := Except.ok.inj he
    exact same_getRev_eq hb
  | write _ _ _ hok _ =>
    intro _ _ _ r' _ path r v _ _ _ hclear
    have := hclear [] _ (by rw [List.append_nil]; exact hok)
    simp [clear, Act.entries] at this
  | insert _ hb hf hkey hv hnew hok hm hr =>
    intro hg _ _ r' he
    obtain rfl := Except.ok.inj he
    obtain ⟨hg1, hb1⟩ := branchFor_good hX hg hb
    exact insert_getRev_eq hX hg1 hb1 hb hf hkey hv hok (hOk _ _ hok) hm hr
  | insertFail => intro _ _ _ r' he; cases he
  | erase _ hb hf hc hok hr =>
    intro hg _ _ r' he
    obtain rfl := Except.ok.inj he
    exact erase_getRev_eq (branchFor_good hX hg hb).2 hb hf hc hok hr
  | down _ hb hf hc heff hr ih =>
    intro hg _ _ r' he
    obtain rfl := Except.ok.inj he
    obtain ⟨hg1, hb1⟩ := branchFor_good hX hg hb
    obtain ⟨halive, hslot⟩ := hc.below hκ hb1 hf
    exact down_getRev_eq hκ hb1 hb hf hc heff.frame (heff.acts _ rfl)
      (heff.good hX hOk hg1 halive fun _ => hslot) (ih hg1 halive hslot _ rfl) hr
  | downSame hb _ _ _ _ _ =>
    intro _ _ _ r' he
    obtain rfl := Except.ok.inj he
    exact same_getRev_eq hb
  | keyChange => intro _ _ _ r' he; cases he
  | failBelow => intro _ _ _ r' he; cases he

end Voltha.Config
