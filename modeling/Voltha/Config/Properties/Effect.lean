import Voltha.Config.Properties.Frame

/-!
# 一つの操作がすること

`update` / `add` / `remove` は、どれも path に沿って降りながら branch を用意し、
行き着いた先で一つの書き換えをして、帰りに自分の版を作り直していく。
その進み方を帰納的な関係 `Effect` にまとめる。以後の不変条件は、
三つの関数を開くのではなく `Effect` の場合分けで示す。

`Effect` は降りた道筋（`Seg` の列）を覚えていて、行き着いた先の書き換えが
道筋ごとの条件 `Ok` を満たすことを持ち回る。
-/

namespace Voltha.Config

open Exec

/-! ## 道筋 -/

/-- path の一歩。どの field の、どの key の子に降りたか。単独の子なら key は無い。 -/
structure Seg where
  field : ChildField
  key : Option Value
deriving DecidableEq, Repr

/-- 行き着いた先での書き換え。 -/
inductive Act where
  | write (d : Data)
  | insert (f : ChildField) (data : Msg)
  | erase (f : ChildField) (v : Value)

/-- key `k` の branch から見える、node の最新の版。 -/
def State.view (s : State) (k : Option TxId) (n : NodeId) : Option Rev :=
  (readBranch s n k).map Branch.latest

/-- path の指すもの。 -/
inductive Target where
  | node (n : NodeId) (route : List Seg)
  | container (n : NodeId) (route : List Seg) (f : ChildField)
  | nothing
deriving DecidableEq

/-- key `k` の branch から見える木の上で path をたどる。 -/
def resolve (S : Schema) (s : State) (k : Option TxId) :
    List String → NodeId → List Seg → Target
  | [], n, route => .node n route
  | name :: rest, n, route =>
    if name = "" then resolve S s k rest n route
    else
      match s.view k n, S.field? (s.node n).type name with
      | some r, some f =>
        match f.kind with
        | .single =>
          match (r.child name).head? with
          | none => .nothing
          | some c => resolve S s k rest (Rev.node c) (route ++ [⟨f, none⟩])
        | .list => .nothing
        | .keyed key kt =>
          match rest with
          | [] => .container n route f
          | keyStr :: path =>
            if isEmptyPath (keyStr :: path) then .container n route f
            else
              match kt.fromStr keyStr with
              | none => .nothing
              | some v =>
                match findRevByKey key v (r.child name) with
                | none => .nothing
                | some (_, c) => resolve S s k path (Rev.node c) (route ++ [⟨f, some v⟩])
      | _, _ => .nothing

/-- `_do_update` の検査を、key の検査を除いて通る data。 -/
structure Accepts (S : Schema) (s : State) (k : Option TxId) (n : NodeId) (data : Msg)
    (strict : Bool) : Prop where
  type_eq : data.label.type = (s.node n).type
  no_children : ∀ f ∈ S.fields (s.node n).type, data.child f.name = []
  pre : ∀ p, (s.node n).proxy = some p →
    ∃ c, runCallbacks false (p.callbacks .preUpdate) (.data data) = .ok c
  access : strict = true → ∀ r, s.view k n = some r →
    violatedFields S data.label (Rev.config r) = []

/-! ## 版を据える -/

/-- branch の最新の版を作り直して据える。 -/
def replaceLatest (n : NodeId) (k : Option TxId) (b : Branch) (config : Data)
    (children : List (String × List Rev)) (anns : List (CallbackType × Context)) : Op Rev := do
  let rev ← newRev n b.tag b.latest.label.store config children
  makeLatest n k b rev anns
  pure rev

/-- 子の列を差し替えて据える。 -/
def install (n : NodeId) (k : Option TxId) (b : Branch) (name : String) (l : List Rev)
    (anns : List (CallbackType × Context)) : Op Rev :=
  replaceLatest n k b (Rev.config b.latest) (FieldTree.setField b.latest.children name l) anns

/-- field `f` の列の中で、道筋の一歩が指す子。 -/
def Found (f : ChildField) (l : List Rev) (idx : Nat) (c : Rev) : Option Value → Prop
  | none => f.kind = .single ∧ l.head? = some c ∧ idx = 0
  | some v => ∃ key, f.key = some key ∧ findRevByKey key v l = some (idx, c)

/-- 子を一つ替えた列。単独の子なら一つだけの列になる。 -/
def replaceChild (f : ChildField) (l : List Rev) (idx : Nat) (c : Rev) : List Rev :=
  match f.kind with
  | .single => [c]
  | _ => l.set idx c

/-! ## 操作の進み方 -/

/-- 操作の始まりと終わりの間に起きること。 -/
inductive Effect (S : Schema) (k : Option TxId) (Ok : List Seg → Act → Prop) :
    List Seg → NodeId → State → Except Err Rev → State → Prop
  /-- 書き換える前に断られた。 -/
  | fail {route : List Seg} {n : NodeId} {s s₁ : State} (e : Err)
      (h : s₁ = s ∨ s₁ = (branchFor n k s).2) : Effect S k Ok route n s (.error e) s₁
  /-- 変わるところが無かった。 -/
  | same {route : List Seg} {n : NodeId} {s s₁ : State} {b : Branch}
      (hb : branchFor n k s = (.ok b, s₁)) (hok : Ok route (.write (Rev.config b.latest))) :
      Effect S k Ok route n s (.ok b.latest) s₁
  /-- local data を書き換えた。 -/
  | write {route : List Seg} {n : NodeId} {s s₁ s₂ : State} {b : Branch} {d : Data} {r : Rev}
      (anns : List (CallbackType × Context)) (hb : branchFor n k s = (.ok b, s₁))
      (hty : d.type = (s₁.node n).type) (hok : Ok route (.write d))
      (hr : replaceLatest n k b d b.latest.children anns s₁ = (.ok r, s₂)) :
      Effect S k Ok route n s (.ok r) s₂
  /-- 子を加えた。 -/
  | insert {route : List Seg} {n : NodeId} {s s₁ s₂ s₃ : State} {b : Branch} {f : ChildField}
      {key : String} {v : Value} {data : Msg} {c r : Rev} (anns : List (CallbackType × Context))
      (hb : branchFor n k s = (.ok b, s₁)) (hf : f ∈ S.fields (s₁.node n).type)
      (hkey : f.key = some key) (hv : data.label.attr key = some v)
      (hnew : findRevByKey key v (b.latest.child f.name) = none) (hok : Ok route (.insert f data))
      (hm : mknode S (complete S data) (some ⟨n, f.name, some key, some v⟩) s₁ = (.ok c, s₂))
      (hr : install n k b f.name (b.latest.child f.name ++ [c]) anns s₂ = (.ok r, s₃)) :
      Effect S k Ok route n s (.ok r) s₃
  /-- 加える子を作れなかった。 -/
  | insertFail {route : List Seg} {n : NodeId} {s s₁ s₂ : State} {b : Branch} {f : ChildField}
      {key : String} {v : Value} {data : Msg} {e : Err} (hb : branchFor n k s = (.ok b, s₁))
      (hf : f ∈ S.fields (s₁.node n).type) (hkey : f.key = some key)
      (hv : data.label.attr key = some v) (hok : Ok route (.insert f data))
      (hm : mknode S (complete S data) (some ⟨n, f.name, some key, some v⟩) s₁ = (.error e, s₂)) :
      Effect S k Ok route n s (.error e) s₂
  /-- 子を外した。 -/
  | erase {route : List Seg} {n : NodeId} {s s₁ s₂ : State} {b : Branch} {f : ChildField}
      {idx : Nat} {v : Value} {c r : Rev} (anns : List (CallbackType × Context))
      (hb : branchFor n k s = (.ok b, s₁)) (hf : f ∈ S.fields (s₁.node n).type)
      (hc : Found f (b.latest.child f.name) idx c (some v)) (hok : Ok route (.erase f v))
      (hr : install n k b f.name ((b.latest.child f.name).eraseIdx idx) anns s₁ = (.ok r, s₂)) :
      Effect S k Ok route n s (.ok r) s₂
  /-- 子の操作が終わり、自分の版を作り直した。 -/
  | down {route : List Seg} {n : NodeId} {s s₁ s₂ s₃ : State} {b : Branch} {f : ChildField}
      {idx : Nat} {v : Option Value} {c c' r : Rev} (anns : List (CallbackType × Context))
      (hb : branchFor n k s = (.ok b, s₁)) (hf : f ∈ S.fields (s₁.node n).type)
      (hc : Found f (b.latest.child f.name) idx c v)
      (h : Effect S k Ok (route ++ [⟨f, v⟩]) (Rev.node c) s₁ (.ok c') s₂)
      (hr : install n k b f.name (replaceChild f (b.latest.child f.name) idx c') anns s₂
        = (.ok r, s₃)) : Effect S k Ok route n s (.ok r) s₃
  /-- 子の hash が変わらなかったので、自分の版はそのままにした。 -/
  | downSame {route : List Seg} {n : NodeId} {s s₁ s₂ : State} {b : Branch} {f : ChildField}
      {idx : Nat} {v : Value} {c c' : Rev} (hb : branchFor n k s = (.ok b, s₁))
      (hf : f ∈ S.fields (s₁.node n).type) (hc : Found f (b.latest.child f.name) idx c (some v))
      (h : Effect S k Ok (route ++ [⟨f, some v⟩]) (Rev.node c) s₁ (.ok c') s₂)
      (hh : Rev.hash c' = Rev.hash c) : Effect S k Ok route n s (.ok b.latest) s₂
  /-- 子の操作が終わってから、key が変わったことに気づいて断った。 -/
  | keyChange {route : List Seg} {n : NodeId} {s s₁ s₂ : State} {b : Branch} {f : ChildField}
      {key : String} {idx : Nat} {v : Value} {c c' : Rev} (e : Err)
      (hb : branchFor n k s = (.ok b, s₁)) (hf : f ∈ S.fields (s₁.node n).type)
      (hkey : f.key = some key) (hc : Found f (b.latest.child f.name) idx c (some v))
      (h : Effect S k Ok (route ++ [⟨f, some v⟩]) (Rev.node c) s₁ (.ok c') s₂)
      (hne : Rev.keyIn key c' ≠ some v) : Effect S k Ok route n s (.error e) s₂
  /-- 子の操作が断られた。 -/
  | failBelow {route : List Seg} {n : NodeId} {s s₁ s₂ : State} {b : Branch} {f : ChildField}
      {idx : Nat} {v : Option Value} {c : Rev} {e : Err} (hb : branchFor n k s = (.ok b, s₁))
      (hf : f ∈ S.fields (s₁.node n).type) (hc : Found f (b.latest.child f.name) idx c v)
      (h : Effect S k Ok (route ++ [⟨f, v⟩]) (Rev.node c) s₁ (.error e) s₂) :
      Effect S k Ok route n s (.error e) s₂

/-! ## branch の用意は見え方を変えない -/

variable {S : Schema} {k : Option TxId} {Ok : List Seg → Act → Prop}
variable {s s' s₁ : State} {n : NodeId} {b : Branch} {route : List Seg}

/-- node `n` の、版 `point` から枝分かれした branch。 -/
def forkBranch (t : TxId) (point : Rev) : Branch :=
  { tag := .tx t, origin := some point, revs := [], latest := point, autoPrune := true }

/-- node `n` を transaction `t` の `_dirty_nodes` に加えた状態。 -/
def State.addDirty (s : State) (n : NodeId) (t : TxId) : State :=
  { s with dirty := Function.update s.dirty t ((s.dirty t).map (List.insert n)) }

/-- node `n` に transaction `t` の branch を作った状態。 -/
def State.fork (s : State) (n : NodeId) (t : TxId) (point : Rev) : State :=
  (s.addDirty n t).setBranch n (some t) (some (forkBranch t point))

theorem branchFor_of_some (h : (s.node n).branches k = some b) : branchFor n k s = (.ok b, s) := by
  unfold branchFor
  simp only [read_bind_apply, h]
  rfl

theorem branchFor_of_none {t : TxId} {point : Rev} (h : (s.node n).branches (some t) = none)
    (hp : s.latest? n = some point) :
    branchFor n (some t) s = (.ok (forkBranch t point), s.fork n t point) := by
  have hp' : (s.addDirty n t).latest? n = some point := hp
  unfold State.addDirty at hp'
  unfold branchFor
  simp only [read_bind_apply, h, trackDirty, mkTxbranch, modify_bind_apply, hp', ofOption_some,
    pure_bind_apply]
  rfl

/-- `branchFor` がすること。branch が無ければ、commit された最新の版から作る。 -/
theorem branchFor_cases (h : branchFor n k s = (.ok b, s₁)) :
    ((s.node n).branches k = some b ∧ s₁ = s) ∨
    ∃ t point, k = some t ∧ (s.node n).branches (some t) = none ∧ s.latest? n = some point ∧
      b = forkBranch t point ∧ s₁ = s.fork n t point := by
  cases hq : (s.node n).branches k with
  | some b' =>
    rw [branchFor_of_some hq] at h
    obtain ⟨rfl, rfl⟩ := h
    exact Or.inl ⟨rfl, rfl⟩
  | none =>
    cases k with
    | none =>
      unfold branchFor at h
      simp only [read_bind_apply, hq] at h
      cases h
    | some t =>
      cases hp : s.latest? n with
      | none =>
        have hp' : (s.addDirty n t).latest? n = none := hp
        unfold State.addDirty at hp'
        unfold branchFor at h
        simp only [read_bind_apply, hq, trackDirty, mkTxbranch, modify_bind_apply, hp',
          ofOption_none, raise_bind_apply] at h
        cases h
      | some point =>
        rw [branchFor_of_none hq hp] at h
        obtain ⟨rfl, rfl⟩ := h
        exact Or.inr ⟨t, point, rfl, hq, rfl, rfl, rfl⟩

/-- key `k` の branch から見えるものが同じ。 -/
structure SameView (k : Option TxId) (s s' : State) : Prop where
  view : ∀ m, s'.view k m = s.view k m
  type : ∀ m, (s'.node m).type = (s.node m).type
  proxy : ∀ m, (s'.node m).proxy = (s.node m).proxy

theorem SameView.refl (k : Option TxId) (s : State) : SameView k s s :=
  ⟨fun _ => rfl, fun _ => rfl, fun _ => rfl⟩

theorem SameView.trans {s'' : State} (h₁ : SameView k s s') (h₂ : SameView k s' s'') :
    SameView k s s'' :=
  ⟨fun m => (h₂.view m).trans (h₁.view m), fun m => (h₂.type m).trans (h₁.type m),
    fun m => (h₂.proxy m).trans (h₁.proxy m)⟩

theorem setBranch_type (s : State) (n m : NodeId) (k : Option TxId) (b : Option Branch) :
    ((s.setBranch n k b).node m).type = (s.node m).type := by
  by_cases hm : m = n
  · subst hm; simp [State.setBranch, State.setNode]
  · rw [setBranch_node_ne s k b hm]

theorem setBranch_proxy (s : State) (n m : NodeId) (k : Option TxId) (b : Option Branch) :
    ((s.setBranch n k b).node m).proxy = (s.node m).proxy := by
  by_cases hm : m = n
  · subst hm; simp [State.setBranch, State.setNode]
  · rw [setBranch_node_ne s k b hm]

theorem view_of_some (h : (s.node n).branches k = some b) : s.view k n = some b.latest := by
  unfold State.view readBranch; rw [h]; rfl

theorem view_of_none (h : (s.node n).branches k = none) : s.view k n = s.latest? n := by
  unfold State.view readBranch; rw [h]; rfl

theorem fork_branches (s : State) (n m : NodeId) (t : TxId) (point : Rev) (k : Option TxId) :
    ((s.fork n t point).node m).branches k
      = if m = n ∧ k = some t then some (forkBranch t point) else (s.node m).branches k :=
  setBranch_branches (s.addDirty n t) n m (some t) k _

theorem fork_sameView {t : TxId} {point : Rev} (h : (s.node n).branches (some t) = none)
    (hp : s.latest? n = some point) : SameView (some t) s (s.fork n t point) := by
  refine ⟨?_, fun m => setBranch_type (s.addDirty n t) n m (some t) _,
    fun m => setBranch_proxy (s.addDirty n t) n m (some t) _⟩
  intro m
  have hb := fork_branches s n m t point
  by_cases hm : m = n
  · subst hm
    rw [view_of_some (b := forkBranch t point) (by rw [hb, if_pos ⟨rfl, rfl⟩]), view_of_none h, hp]
    rfl
  · unfold State.view readBranch
    rw [hb (some t), hb none, if_neg fun hc => hm hc.1, if_neg fun hc => hm hc.1]

/-- branch を用意しても見え方は変わらず、用意した branch の最新の版が見えている。 -/
theorem branchFor_sameView (h : branchFor n k s = (.ok b, s₁)) :
    SameView k s s₁ ∧ s.view k n = some b.latest ∧ (s₁.node n).branches k = some b := by
  rcases branchFor_cases h with ⟨hb, rfl⟩ | ⟨t, point, rfl, hb, hp, rfl, rfl⟩
  · exact ⟨SameView.refl k s₁, view_of_some hb, hb⟩
  · refine ⟨fork_sameView hb hp, by rw [view_of_none hb, hp]; rfl, ?_⟩
    rw [fork_branches, if_pos ⟨rfl, rfl⟩]

theorem resolve_congr (h : SameView k s s') (path : List String) :
    ∀ n route, resolve S s' k path n route = resolve S s k path n route := by
  induction path using pathInduct with
  | nil => intro n route; rfl
  | cons name rest ih ih2 =>
    intro n route
    rw [resolve, resolve, ih n route, h.view n, h.type n]
    split
    · rfl
    · split
      · next r f _ _ =>
        cases f.kind with
        | single =>
          dsimp only
          split
          · rfl
          · exact ih _ _
        | list => rfl
        | keyed key kt =>
          cases rest with
          | nil => rfl
          | cons keyStr path =>
            dsimp only
            split
            · rfl
            · split
              · rfl
              · split
                · rfl
                · exact ih2 keyStr path rfl _ _
      · rfl

theorem Accepts.congr {data : Msg} {strict : Bool} (h : SameView k s s')
    (ha : Accepts S s' k n data strict) : Accepts S s k n data strict where
  type_eq := by rw [← h.type]; exact ha.type_eq
  no_children := by rw [← h.type]; exact ha.no_children
  pre := by rw [← h.proxy]; exact ha.pre
  access := by rw [← h.view]; exact ha.access

/-! ## 検査 -/

theorem testNoChildren_checks (data : Msg) (s : State) : ∀ fs : List ChildField,
    Checks (testNoChildren data fs) s (∀ f ∈ fs, data.child f.name = [])
  | [] => Or.inl ⟨rfl, by simp⟩
  | f :: fs => by
    rw [testNoChildren]
    refine ((Checks.require _ _ s).bind (testNoChildren_checks data s fs)).mono ?_
    rintro ⟨h1, h2⟩ g hg
    rcases List.mem_cons.mp hg with rfl | hg
    · simpa using h1
    · exact h2 g hg

theorem invokePre_checks (n : NodeId) (type : CallbackType) (ctx : Context) (s : State) :
    Checks (invokePre n type ctx) s (∀ p, (s.node n).proxy = some p →
      ∃ c, runCallbacks false (p.callbacks type) ctx = .ok c) := by
  unfold invokePre
  rw [Checks, read_bind_apply]
  cases hp : (s.node n).proxy with
  | none => exact Or.inl ⟨rfl, by simp⟩
  | some p =>
    dsimp only
    cases hr : runCallbacks false (p.callbacks type) ctx with
    | ok c => exact Or.inl ⟨rfl, by rintro q ⟨rfl⟩; exact ⟨c, hr⟩⟩
    | error e => exact Or.inr ⟨e, rfl⟩

/-! ## 三つの操作は `Effect` である -/

theorem doUpdate_effect (data : Msg) (strict : Bool) (hb : branchFor n k s = (.ok b, s₁))
    (hOk : Accepts S s k n data strict → Ok route (.write data.label)) :
    Effect S k Ok route n s (doUpdate S n k b data strict s₁).1
      (doUpdate S n k b data strict s₁).2 := by
  obtain ⟨hsame, hview, -⟩ := branchFor_sameView hb
  have hfail : ∀ e, Effect S k Ok route n s (.error e) s₁ := fun e =>
    Effect.fail e (Or.inr (by rw [hb]))
  unfold doUpdate
  rw [read_bind_apply]
  rcases Checks.require (data.label.type = (s₁.node n).type) _ s₁ with ⟨h, hty⟩ | ⟨e, h⟩
  swap
  · rw [bind_error h]; exact hfail e
  rw [bind_ok h]
  rcases testNoChildren_checks data s₁ (S.fields (s₁.node n).type) with ⟨h, hno⟩ | ⟨e, h⟩
  swap
  · rw [bind_error h]; exact hfail e
  rw [bind_ok h]
  rcases invokePre_checks n .preUpdate (.data data) s₁ with ⟨h, hpre⟩ | ⟨e, h⟩
  swap
  · rw [bind_error h]; exact hfail e
  rw [bind_ok h]
  have hok : (strict = true → violatedFields S data.label (Rev.config b.latest) = []) →
      Ok route (.write data.label) := by
    intro hacc
    refine hOk (Accepts.congr hsame ⟨hty, hno, hpre, ?_⟩)
    intro hs r hr
    rw [hsame.view, hview] at hr
    cases hr
    exact hacc hs
  split
  · next he =>
    refine Effect.same hb ?_
    rw [he]
    exact hok fun _ => by simp [violatedFields, he]
  · rcases Checks.require (strict = false ∨ violatedFields S data.label (Rev.config b.latest) = [])
      _ s₁ with ⟨h, hacc⟩ | ⟨e, h⟩
    swap
    · unfold checkAccessViolation; rw [bind_error h]; exact hfail e
    unfold checkAccessViolation
    rw [bind_ok h]
    exact Effect.write _ hb hty (hok fun hs => hacc.resolve_left (by simp [hs])) rfl

/-- path の先頭の field と、見えている版が分かっているときの `resolve`。 -/
theorem resolve_cons {name : String} {r : Rev} {f : ChildField} (rest : List String)
    (route : List Seg) (hname : name ≠ "") (hv : s.view k n = some r)
    (hf : S.field? (s.node n).type name = some f) :
    resolve S s k (name :: rest) n route =
      match f.kind with
      | .single =>
        match (r.child name).head? with
        | none => .nothing
        | some c => resolve S s k rest (Rev.node c) (route ++ [⟨f, none⟩])
      | .list => .nothing
      | .keyed key kt =>
        match rest with
        | [] => .container n route f
        | keyStr :: path =>
          if isEmptyPath (keyStr :: path) then .container n route f
          else
            match kt.fromStr keyStr with
            | none => .nothing
            | some v =>
              match findRevByKey key v (r.child name) with
              | none => .nothing
              | some (_, c) => resolve S s k path (Rev.node c) (route ++ [⟨f, some v⟩]) := by
  rw [resolve, if_neg hname, hv, hf]

theorem update_effect (data : Msg) (strict : Bool) (path : List String) :
    ∀ n s route, (∀ m r, resolve S s k path n route = .node m r → Accepts S s k m data strict →
      Ok r (.write data.label)) →
    Effect S k Ok route n s (update S k data strict path n s).1
      (update S k data strict path n s).2 := by
  induction path using pathInduct with
  | nil =>
    intro n s route hOk
    rw [update]
    rcases hb : branchFor n k s with ⟨e | b, s₁⟩
    · rw [bind_error hb]; exact Effect.fail e (Or.inr (by rw [hb]))
    · rw [bind_ok hb]
      exact doUpdate_effect data strict hb (hOk n route rfl)
  | cons name rest ih ih2 =>
    intro n s route hOk
    rw [update]
    split
    · next hname =>
      exact ih n s route fun m r h => hOk m r (by rw [resolve, if_pos hname]; exact h)
    · next hname =>
      rcases hb : branchFor n k s with ⟨e | b, s₁⟩
      · rw [bind_error hb]; exact Effect.fail e (Or.inr (by rw [hb]))
      rw [bind_ok hb, read_bind_apply]
      obtain ⟨hsame, hview, -⟩ := branchFor_sameView hb
      have hfail : ∀ e, Effect S k Ok route n s (.error e) s₁ := fun e =>
        Effect.fail e (Or.inr (by rw [hb]))
      cases hf : S.field? (s₁.node n).type name with
      | none => exact hfail _
      | some f =>
        obtain ⟨hmem, rfl⟩ := S.field?_eq_some hf
        have hres := resolve_cons rest route hname hview
          (by rw [← hsame.type]; exact hf)
        rw [ofOption_some, pure_bind_apply]
        rw [hres] at hOk
        cases hk : f.kind with
        | single =>
          rw [hk] at hOk
          dsimp only at hOk ⊢
          cases hc : (b.latest.child f.name).head? with
          | none => exact hfail _
          | some c =>
            rw [hc] at hOk
            rw [ofOption_some, pure_bind_apply]
            have hfound : Found f (b.latest.child f.name) 0 c none := ⟨hk, hc, rfl⟩
            have heff := ih (Rev.node c) s₁ (route ++ [⟨f, none⟩]) fun m r h ha =>
              hOk m r (by rw [resolve_congr hsame] at h; exact h) (ha.congr hsame)
            rcases hu : update S k data strict rest (Rev.node c) s₁ with ⟨e | c', s₂⟩
            · rw [bind_error hu]
              rw [hu] at heff
              exact Effect.failBelow hb hmem hfound heff
            · rw [bind_ok hu]
              rw [hu] at heff
              refine Effect.down [] hb hmem hfound heff ?_
              unfold replaceChild
              rw [hk]
              rfl
        | list => dsimp only; split <;> exact hfail _
        | keyed key kt =>
          rw [hk] at hOk
          dsimp only at hOk ⊢
          cases rest with
          | nil => exact hfail _
          | cons keyStr path =>
            dsimp only at hOk ⊢
            split
            · exact hfail _
            · next hne =>
              rw [if_neg hne] at hOk
              cases hv : kt.fromStr keyStr with
              | none => exact hfail _
              | some v =>
                rw [hv] at hOk
                dsimp only at hOk
                rw [ofOption_some, pure_bind_apply]
                cases hfind : findRevByKey key v (b.latest.child f.name) with
                | none => exact hfail _
                | some p =>
                  obtain ⟨idx, c⟩ := p
                  rw [hfind] at hOk
                  rw [ofOption_some, pure_bind_apply]
                  have hkey : f.key = some key := by unfold ChildField.key; rw [hk]
                  have hfound : Found f (b.latest.child f.name) idx c (some v) :=
                    ⟨key, hkey, hfind⟩
                  have heff := ih2 keyStr path rfl (Rev.node c) s₁ (route ++ [⟨f, some v⟩])
                    fun m r h ha =>
                      hOk m r (by rw [resolve_congr hsame] at h; exact h) (ha.congr hsame)
                  dsimp only
                  rcases hu : update S k data strict path (Rev.node c) s₁ with ⟨e | c', s₂⟩
                  · rw [bind_error hu]
                    rw [hu] at heff
                    exact Effect.failBelow hb hmem hfound heff
                  · rw [bind_ok hu]
                    rw [hu] at heff
                    split
                    · next hh => exact Effect.downSame hb hmem hfound heff hh
                    · split
                      · next hne => exact Effect.keyChange _ hb hmem hkey hfound heff hne
                      · refine Effect.down [] hb hmem hfound heff ?_
                        unfold replaceChild
                        rw [hk]
                        rfl

theorem addChild_effect (data : Msg) {f : ChildField} {key : String}
    (hb : branchFor n k s = (.ok b, s₁)) (hmem : f ∈ S.fields (s₁.node n).type)
    (hkey : f.key = some key) (hok : Ok route (.insert f data)) :
    Effect S k Ok route n s (addChild S n k b f.name key data s₁).1
      (addChild S n k b f.name key data s₁).2 := by
  have hfail : ∀ e, Effect S k Ok route n s (.error e) s₁ := fun e =>
    Effect.fail e (Or.inr (by rw [hb]))
  unfold addChild
  rcases invokePre_checks n .preAdd (.data data) s₁ with ⟨h, -⟩ | ⟨e, h⟩
  swap
  · rw [bind_error h]; exact hfail e
  rw [bind_ok h]
  cases hv : data.label.attr key with
  | none => exact hfail _
  | some v =>
    rw [ofOption_some, pure_bind_apply]
    cases hfind : findRevByKey key v (b.latest.child f.name) with
    | some _ => exact hfail _
    | none =>
      dsimp only
      rcases hm : mknode S (complete S data) (some ⟨n, f.name, some key, some v⟩) s₁
        with ⟨e | c, s₂⟩
      · rw [bind_error hm]
        exact Effect.insertFail hb hmem hkey hv hok hm
      · rw [bind_ok hm]
        exact Effect.insert _ hb hmem hkey hv hfind hok hm rfl

theorem add_effect (data : Msg) (path : List String) :
    ∀ n s route, (∀ m r f, resolve S s k path n route = .container m r f → Ok r (.insert f data)) →
    Effect S k Ok route n s (add S k data path n s).1 (add S k data path n s).2 := by
  induction path using pathInduct with
  | nil => exact fun n s route _ => Effect.fail _ (Or.inl rfl)
  | cons name rest ih ih2 =>
    intro n s route hOk
    rw [add]
    split
    · next hname =>
      exact ih n s route fun m r f h => hOk m r f (by rw [resolve, if_pos hname]; exact h)
    · next hname =>
      rcases hb : branchFor n k s with ⟨e | b, s₁⟩
      · rw [bind_error hb]; exact Effect.fail e (Or.inr (by rw [hb]))
      rw [bind_ok hb, read_bind_apply]
      obtain ⟨hsame, hview, -⟩ := branchFor_sameView hb
      have hfail : ∀ e, Effect S k Ok route n s (.error e) s₁ := fun e =>
        Effect.fail e (Or.inr (by rw [hb]))
      cases hf : S.field? (s₁.node n).type name with
      | none => exact hfail _
      | some f =>
        obtain ⟨hmem, rfl⟩ := S.field?_eq_some hf
        have hres := resolve_cons rest route hname hview (by rw [← hsame.type]; exact hf)
        rw [ofOption_some, pure_bind_apply]
        rw [hres] at hOk
        cases hk : f.kind with
        | single => exact hfail _
        | list => dsimp only; split <;> exact hfail _
        | keyed key kt =>
          have hkey : f.key = some key := by unfold ChildField.key; rw [hk]
          rw [hk] at hOk
          dsimp only at hOk ⊢
          cases rest with
          | nil => exact addChild_effect data hb hmem hkey (hOk n route f rfl)
          | cons keyStr path =>
            dsimp only at hOk ⊢
            split
            · next he =>
              rw [if_pos he] at hOk
              exact addChild_effect data hb hmem hkey (hOk n route f rfl)
            · next hne =>
              rw [if_neg hne] at hOk
              cases hv : kt.fromStr keyStr with
              | none => exact hfail _
              | some v =>
                rw [hv] at hOk
                dsimp only at hOk
                rw [ofOption_some, pure_bind_apply]
                cases hfind : findRevByKey key v (b.latest.child f.name) with
                | none => exact hfail _
                | some p =>
                  obtain ⟨idx, c⟩ := p
                  rw [hfind] at hOk
                  rw [ofOption_some, pure_bind_apply]
                  have hfound : Found f (b.latest.child f.name) idx c (some v) :=
                    ⟨key, hkey, hfind⟩
                  have heff := ih2 keyStr path rfl (Rev.node c) s₁ (route ++ [⟨f, some v⟩])
                    fun m r g h => hOk m r g (by rw [resolve_congr hsame] at h; exact h)
                  dsimp only
                  rcases hu : add S k data path (Rev.node c) s₁ with ⟨e | c', s₂⟩
                  · rw [bind_error hu]
                    rw [hu] at heff
                    exact Effect.failBelow hb hmem hfound heff
                  · rw [bind_ok hu]
                    rw [hu] at heff
                    refine Effect.down [] hb hmem hfound heff ?_
                    unfold replaceChild
                    rw [hk]
                    rfl

/-- 空の path は、その node 自身を指す。 -/
theorem resolve_of_isEmptyPath {path : List String} (h : isEmptyPath path = true) :
    resolve S s k path n route = .node n route := by
  match path, h with
  | [], _ => rfl
  | [name], h =>
    have hname : name = "" := by simpa [isEmptyPath] using h
    rw [resolve, if_pos hname]; rfl

theorem remove_effect (path : List String) :
    ∀ n s route, (∀ m r f v, resolve S s k path n route = .node m (r ++ [⟨f, some v⟩]) →
      Ok r (.erase f v)) →
    Effect S k Ok route n s (remove S k path n s).1 (remove S k path n s).2 := by
  induction path using pathInduct with
  | nil => exact fun n s route _ => Effect.fail _ (Or.inl rfl)
  | cons name rest ih ih2 =>
    intro n s route hOk
    rw [remove]
    split
    · next hname =>
      exact ih n s route fun m r f v h => hOk m r f v (by rw [resolve, if_pos hname]; exact h)
    · next hname =>
      rcases hb : branchFor n k s with ⟨e | b, s₁⟩
      · rw [bind_error hb]; exact Effect.fail e (Or.inr (by rw [hb]))
      rw [bind_ok hb, read_bind_apply]
      obtain ⟨hsame, hview, -⟩ := branchFor_sameView hb
      have hfail : ∀ e, Effect S k Ok route n s (.error e) s₁ := fun e =>
        Effect.fail e (Or.inr (by rw [hb]))
      cases hf : S.field? (s₁.node n).type name with
      | none => exact hfail _
      | some f =>
        obtain ⟨hmem, rfl⟩ := S.field?_eq_some hf
        have hres := resolve_cons rest route hname hview (by rw [← hsame.type]; exact hf)
        rw [ofOption_some, pure_bind_apply]
        rw [hres] at hOk
        cases hk : f.kind with
        | single => exact hfail _
        | list => dsimp only; split <;> exact hfail _
        | keyed key kt =>
          have hkey : f.key = some key := by unfold ChildField.key; rw [hk]
          rw [hk] at hOk
          dsimp only at hOk ⊢
          cases rest with
          | nil => exact hfail _
          | cons keyStr path =>
            dsimp only at hOk ⊢
            split
            · exact hfail _
            · next hne =>
              rw [if_neg hne] at hOk
              cases hv : kt.fromStr keyStr with
              | none => exact hfail _
              | some v =>
                rw [hv] at hOk
                dsimp only at hOk
                rw [ofOption_some, pure_bind_apply]
                cases hfind : findRevByKey key v (b.latest.child f.name) with
                | none => exact hfail _
                | some p =>
                  obtain ⟨idx, c⟩ := p
                  rw [hfind] at hOk
                  rw [ofOption_some, pure_bind_apply]
                  have hfound : Found f (b.latest.child f.name) idx c (some v) :=
                    ⟨key, hkey, hfind⟩
                  dsimp only
                  split
                  · next he =>
                    have hok := hOk _ route f v (resolve_of_isEmptyPath he)
                    unfold removeChild
                    rcases invokePre_checks n .preRemove (.data (Rev.data c)) s₁ with ⟨h, -⟩ | ⟨e, h⟩
                    · rw [bind_ok h]
                      exact Effect.erase _ hb hmem hfound hok rfl
                    · rw [bind_error h]; exact hfail e
                  · have heff := ih2 keyStr path rfl (Rev.node c) s₁ (route ++ [⟨f, some v⟩])
                      fun m r g w h => hOk m r g w (by rw [resolve_congr hsame] at h; exact h)
                    rcases hu : remove S k path (Rev.node c) s₁ with ⟨e | c', s₂⟩
                    · rw [bind_error hu]
                      rw [hu] at heff
                      exact Effect.failBelow hb hmem hfound heff
                    · rw [bind_ok hu]
                      rw [hu] at heff
                      refine Effect.down [] hb hmem hfound heff ?_
                      unfold replaceChild
                      rw [hk]
                      rfl

end Voltha.Config
