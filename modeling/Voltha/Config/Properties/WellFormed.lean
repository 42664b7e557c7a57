import Voltha.Config.Finalize
import Voltha.Config.Properties.Effect

/-!
# 状態の不変条件

`Good` は、どの branch の、どの版の、どの子孫についても成り立つ条件をまとめたもの。

* 版の node は実在し、commit された branch を持つ。型は local data の型と一致する
* 子の node は、その親のその field の子として作られたもので、親より後に作られている
* （`κ.keys` のもとで）node の key は作られたときから変わらず、一つの列の中で重ならない（`Keyed`）
* （`κ.typed` のもとで）版は schema のとおりの形をしている（`Shape`）

後の二つは、key を変えようとする `update` や、型の違う message の `add` があると壊れるので、
それぞれ前提を置く。どちらも `False` にすれば、どんな操作の列でも成り立つ部分だけが残る。

`X` は版ごとの追加の条件で、新しく作った版がいつでも満たすもの（`Closed`）なら何でもよい。
-/

namespace Voltha.Config

open Exec

/-! ## 状態の拡大 -/

/-- 既にある node の型と置き場所を変えず、commit された branch を失わない。 -/
structure Grows (s s' : State) : Prop where
  next : s.nextNode ≤ s'.nextNode
  uid : s.nextUid ≤ s'.nextUid
  type : ∀ n < s.nextNode, (s'.node n).type = (s.node n).type
  slot : ∀ n < s.nextNode, (s'.node n).slot = (s.node n).slot
  committed : ∀ n < s.nextNode, ((s.node n).branches none).isSome →
    ((s'.node n).branches none).isSome
  objs : ∀ r ∈ s.objs, r ∈ s'.objs
  loading : s'.loading = s.loading
  kv : s'.kv.isSome = s.kv.isSome

theorem Frame.grows {K : Option TxId → Prop} {s s' : State} (h : Frame K s s') : Grows s s' where
  next := h.next
  uid := h.uid
  type := h.type
  slot := h.slot
  committed := h.committed
  objs := h.objs
  loading := h.loading
  kv := h.kv

/-! ## 版の条件 -/

/-- node `m` は、node `n` の field `f` の子として作られたものである。 -/
structure ChildAt (s : State) (n : NodeId) (f : ChildField) (m : NodeId) : Prop where
  lt : m < s.nextNode
  younger : n < m
  slot : ∃ v, (s.node m).slot = some ⟨n, f.name, f.key, v⟩

/-- 版の key は、その node が作られたときの key と同じである。 -/
def OwnKey (s : State) (n : NodeId) (d : Data) : Prop :=
  ∀ sl key, (s.node n).slot = some sl → sl.keyName = some key → d.attr key = sl.key

/-- 新しい版の `_kv_store`。root のものか、元になった版から受け継いだもの。 -/
def Inherits (X : State → Rev → Prop) (s : State) (store : StoreRef) : Prop :=
  store = s.storeRef ∨ ∃ base, X s base ∧ base.label.store = store

/-- 新しく作る版がいつでも満たし、持ち主のいる限り失われない、版ごとの条件。 -/
structure Closed (X : State → Rev → Prop) : Prop where
  mono : ∀ {s s' : State} {r : Rev}, Grows s s' → X s r → X s' r
  new : ∀ (s s' : State) (n : NodeId) (tag : BranchTag) (store : StoreRef) (config : Data)
    (children : List (String × List Rev)) (r : Rev), Inherits X s store →
    newRev n tag store config children s = (.ok r, s') → X s' r
  collect : ∀ {s : State} {r : Rev}, r ∈ s.live → X s r → X (Voltha.Config.collect s) r

/-- 操作の列しだいで成り立つ条件のうち、どれを追うか。 -/
structure Mode where
  keys : Prop
  typed : Prop

section

variable (S : Schema) (κ : Mode) (X : State → Rev → Prop)

/-- key の条件。key は node のもので、一つの列の中で重ならない。 -/
structure Keyed (s : State) (r : Rev) : Prop where
  own : OwnKey s (Rev.node r) (Rev.config r)
  nodup : ∀ f ∈ S.fields (Rev.config r).type, ∀ key, f.key = some key →
    ((r.child f.name).map (Rev.keyIn key)).Nodup

/--
schema のとおりの形。

子の辞書は schema の field と同じ並びで、子の型も field の型と一致し、単独の子はちょうど一つある。
-/
structure Shape (r : Rev) : Prop where
  names : r.children.map Prod.fst = (S.fields (Rev.config r).type).map ChildField.name
  typed : ∀ f ∈ S.fields (Rev.config r).type, ∀ c ∈ r.child f.name, (Rev.config c).type = f.type
  single : ∀ f ∈ S.fields (Rev.config r).type, f.kind = .single → ∃ c, r.child f.name = [c]

/-- 版の一段ぶんの条件。 -/
structure Fits (s : State) (r : Rev) : Prop where
  lt : Rev.node r < s.nextNode
  born : ((s.node (Rev.node r)).branches none).isSome
  type_eq : (s.node (Rev.node r)).type = (Rev.config r).type
  child : ∀ f ∈ S.fields (Rev.config r).type, ∀ c ∈ r.child f.name,
    ChildAt s (Rev.node r) f (Rev.node c)
  keyed : κ.keys → Keyed S s r
  shape : κ.typed → Shape S r
  extra : X s r

/-- 版とその子孫すべての条件。 -/
def Deep (s : State) (r : Rev) : Prop := ∀ r', FieldTree.Sub r' r → Fits S κ X s r'

/-- branch の key と `_txid` の対応。 -/
def TagOk (k : Option TxId) (tag : BranchTag) : Prop :=
  match k with
  | none => ∀ t, tag ≠ .tx t
  | some t => tag = .tx t

/--
node `n` の key `k` の branch の条件。

弱参照でしか持っていない版は、いつ破棄されてもよいので、何も求めない。
root の commit された branch は、版を強い参照で持つ。
-/
structure BranchOk (s : State) (n : NodeId) (k : Option TxId) (b : Branch) : Prop where
  lt : n < s.nextNode
  born : ((s.node n).branches none).isSome
  tag : TagOk k b.tag
  origin : k.isSome → b.origin.isSome
  strong : n = rootId → k = none → b.autoPrune = false
  revs : ∀ r ∈ b.held, Rev.node r = n ∧ Deep S κ X s r

/-- 状態全体の条件。 -/
structure Good (s : State) : Prop where
  branch : ∀ n k b, (s.node n).branches k = some b → BranchOk S κ X s n k b
  tags : ∀ n, ∀ p ∈ (s.node n).tags, n < s.nextNode ∧ Deep S κ X s p.2
  detached : ∀ r ∈ s.detached, Deep S κ X s r

end

variable {S : Schema} {κ : Mode} {X : State → Rev → Prop}
variable {s s' : State} {n : NodeId} {k : Option TxId}

/-! ## 状態の拡大で保たれること -/

theorem ChildAt.grow (hf : Grows s s') {f : ChildField} {m : NodeId} (h : ChildAt s n f m) :
    ChildAt s' n f m where
  lt := Nat.lt_of_lt_of_le h.lt hf.next
  younger := h.younger
  slot := by rw [hf.slot m h.lt]; exact h.slot

theorem OwnKey.grow (hf : Grows s s') {d : Data} (hn : n < s.nextNode) (h : OwnKey s n d) :
    OwnKey s' n d := by
  intro sl key hsl hk
  rw [hf.slot n hn] at hsl
  exact h sl key hsl hk

theorem Keyed.grow (hf : Grows s s') {r : Rev} (hn : Rev.node r < s.nextNode)
    (h : Keyed S s r) : Keyed S s' r :=
  { h with own := h.own.grow hf hn }

theorem ChildAt.mono {K : Option TxId → Prop} (hf : Frame K s s') {f : ChildField} {m : NodeId}
    (h : ChildAt s n f m) : ChildAt s' n f m := h.grow hf.grows

theorem OwnKey.mono {K : Option TxId → Prop} (hf : Frame K s s') {d : Data} (hn : n < s.nextNode)
    (h : OwnKey s n d) : OwnKey s' n d := h.grow hf.grows hn

theorem Frame.weakest {K : Option TxId → Prop} (hf : Frame K s s') : Frame (fun _ => False) s s' :=
  hf.weaken fun _ h => h.elim

section

variable (hX : Closed X)

include hX

theorem Fits.grow (hf : Grows s s') {r : Rev} (h : Fits S κ X s r) : Fits S κ X s' r where
  lt := Nat.lt_of_lt_of_le h.lt hf.next
  born := hf.committed _ h.lt h.born
  type_eq := (hf.type _ h.lt).trans h.type_eq
  child f hm c hc := (h.child f hm c hc).grow hf
  keyed hκ := (h.keyed hκ).grow hf h.lt
  shape := h.shape
  extra := hX.mono hf h.extra

theorem Deep.grow (hf : Grows s s') {r : Rev} (h : Deep S κ X s r) : Deep S κ X s' r :=
  fun r' hr => (h r' hr).grow hX hf

theorem BranchOk.grow (hf : Grows s s') {b : Branch} (h : BranchOk S κ X s n k b) :
    BranchOk S κ X s' n k b where
  lt := Nat.lt_of_lt_of_le h.lt hf.next
  born := hf.committed n h.lt h.born
  tag := h.tag
  origin := h.origin
  strong := h.strong
  revs r hr := ⟨(h.revs r hr).1, (h.revs r hr).2.grow hX hf⟩

theorem Deep.mono {K : Option TxId → Prop} (hf : Frame K s s') {r : Rev} (h : Deep S κ X s r) :
    Deep S κ X s' r := h.grow hX hf.grows

theorem BranchOk.mono {K : Option TxId → Prop} (hf : Frame K s s') {b : Branch}
    (h : BranchOk S κ X s n k b) : BranchOk S κ X s' n k b := h.grow hX hf.grows

/-- 変わった branch・tag・外れた版だけを調べれば、`Good` が保たれる。 -/
theorem Good.extend (hg : Good S κ X s) (hf : Grows s s')
    (hb : ∀ m k' b', (s'.node m).branches k' = some b' →
      (s.node m).branches k' = some b' ∨ BranchOk S κ X s' m k' b')
    (ht : ∀ m, ∀ p ∈ (s'.node m).tags, p ∈ (s.node m).tags ∨
      (m < s'.nextNode ∧ Deep S κ X s' p.2))
    (hd : ∀ r ∈ s'.detached, r ∈ s.detached ∨ Deep S κ X s' r) : Good S κ X s' where
  branch m k' b' h := by
    rcases hb m k' b' h with h' | h'
    · exact (hg.branch m k' b' h').grow hX hf
    · exact h'
  tags m p hp := by
    rcases ht m p hp with h | h
    · exact ⟨Nat.lt_of_lt_of_le (hg.tags m p h).1 hf.next, (hg.tags m p h).2.grow hX hf⟩
    · exact h
  detached r hr := by
    rcases hd r hr with h | h
    · exact (hg.detached r h).grow hX hf
    · exact h

/-- node 以外の項目だけを変えた状態も `Good` である。 -/
theorem Good.of_node_eq (hg : Good S κ X s) (hf : Grows s s') (hn : s'.node = s.node)
    (hd : s'.detached = s.detached) : Good S κ X s' := by
  refine hg.extend hX hf ?_ ?_ ?_
  · exact fun m k' b' h => Or.inl (by rw [hn] at h; exact h)
  · exact fun m p hp => Or.inl (by rw [hn] at hp; exact hp)
  · exact fun r hr => Or.inl (by rw [hd] at hr; exact hr)

end

/-! ## 子の読み -/

theorem Deep.self {r : Rev} (h : Deep S κ X s r) : Fits S κ X s r := h r (FieldTree.Sub.refl r)

theorem Deep.sub {r r' : Rev} (h : Deep S κ X s r) (hs : FieldTree.Sub r' r) : Deep S κ X s r' :=
  fun r'' hr => h r'' (hr.trans hs)

theorem Deep.child {r c : Rev} {name : String} (h : Deep S κ X s r) (hc : c ∈ r.child name) :
    Deep S κ X s c := h.sub (FieldTree.Sub.of_mem_child hc)

theorem BranchOk.node_latest {b : Branch} (h : BranchOk S κ X s n k b) : Rev.node b.latest = n :=
  (h.revs b.latest (by simp [Branch.held])).1

theorem BranchOk.latest {b : Branch} (h : BranchOk S κ X s n k b) : Deep S κ X s b.latest :=
  (h.revs b.latest (by simp [Branch.held])).2

theorem BranchOk.config_type {b : Branch} (h : BranchOk S κ X s n k b) :
    (Rev.config b.latest).type = (s.node n).type := by
  rw [← h.latest.self.type_eq, h.node_latest]

/-- `find_rev_by_key` が返すのは、その位置にあってその key を持つ版である。 -/
theorem findRevByKey_eq_some {key : String} {v : Value} : ∀ {l : List Rev} {i : Nat} {c : Rev},
    findRevByKey key v l = some (i, c) → l[i]? = some c ∧ Rev.keyIn key c = some v
  | [], _, _, h => by simp [findRevByKey] at h
  | r :: rs, i, c, h => by
    rw [findRevByKey] at h
    split at h
    · next hk =>
      simp only [Option.some.injEq, Prod.mk.injEq] at h
      obtain ⟨rfl, rfl⟩ := h
      exact ⟨rfl, hk⟩
    · cases hq : findRevByKey key v rs with
      | none => rw [hq] at h; simp at h
      | some p =>
        obtain ⟨j, c'⟩ := p
        rw [hq] at h
        simp only [Option.map_some, Option.some.injEq, Prod.mk.injEq] at h
        obtain ⟨rfl, rfl⟩ := h
        exact ⟨by simpa using (findRevByKey_eq_some hq).1, (findRevByKey_eq_some hq).2⟩

theorem findRevByKey_eq_none {key : String} {v : Value} : ∀ {l : List Rev},
    findRevByKey key v l = none → ∀ c ∈ l, Rev.keyIn key c ≠ some v
  | [], _, c, hc => by simp at hc
  | r :: rs, h, c, hc => by
    rw [findRevByKey] at h
    split at h
    · simp at h
    · next hk =>
      have hrs : findRevByKey key v rs = none := by simpa using h
      rcases List.mem_cons.mp hc with rfl | hm
      · exact hk
      · exact findRevByKey_eq_none hrs c hm

end Voltha.Config
