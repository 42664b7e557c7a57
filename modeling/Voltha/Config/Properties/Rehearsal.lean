import Voltha.Lib.Lockstep
import Voltha.Config.Properties.Branchwise

/-!
# dry run は本番の予行である

`fold_txbranch` は、まず dry run で衝突を調べてから本番の merge をする。
本番は子の merge を済ませて枝を消しながら進むので、途中で例外が出れば、
commit された木は半端なまま残る。そうならないのは、
**dry run が通れば本番も必ず通る** からである。

本番が dry run と違うことをするのは、同じ node を二度訪れたときだけである。
一度目に枝が消えているので、二度目は `KeyError` になる。
node の key が作られたときから変わらなければ、一つの列に同じ node の版は二つ無く、
兄弟の下にある node は互いに重ならないので、どの node も高々一度しか訪れない。
-/

namespace Voltha.Config

open Exec

variable {S : Schema} {κ : Mode} {X : State → Rev → Prop}
variable {s s' s₀ s₁ : State} {n : NodeId} {k : Option TxId} {b : Branch} {t : TxId}
variable {Ok : List Seg → Act → Prop} {route : List Seg} {res : Except Err Rev}

/-! ## key の無い field -/

/-- key の無い field に `t` の枝の版があれば、その列はその版だけである。 -/
def LoneRev (S : Schema) (t : TxId) (r : Rev) : Prop :=
  ∀ f ∈ S.fields (Rev.config r).type, f.key = none → ∀ c ∈ r.child f.name, Rev.tag c = .tx t →
    r.child f.name = [c]

/-- `t` の branch の最新の版は `LoneRev` である。 -/
def Lone (S : Schema) (t : TxId) (s : State) : Prop :=
  ∀ n b, (s.node n).branches (some t) = some b → LoneRev S t b.latest

theorem Untagged.loneRev {r : Rev} (h : Untagged t r) : LoneRev S t r := by
  intro f _ _ c hc htag
  exact absurd htag ((h.child hc) c (FieldTree.Sub.refl c))

theorem LoneRev.setConfig {r : Rev} (h : LoneRev S t r) {i : RevInfo}
    (hty : i.config.type = (Rev.config r).type) : LoneRev S t (.mk i r.children) := by
  intro f hf hk c hc htag
  have hf : f ∈ S.fields (Rev.config r).type := by rw [← hty]; exact hf
  exact h f hf hk c hc htag

theorem LoneRev.setField {r : Rev} (h : LoneRev S t r) {f : ChildField}
    (hf : f ∈ S.fields (Rev.config r).type) {l : List Rev} (hl : f.key = none → ∃ c, l = [c])
    {i : RevInfo} (hi : i.config = Rev.config r) :
    LoneRev S t (.mk i (FieldTree.setField r.children f.name l)) := by
  intro g hg hk c hc htag
  have hg : g ∈ S.fields (Rev.config r).type := by rw [← hi]; exact hg
  by_cases hn : g.name = f.name
  · obtain rfl := S.field_unique hg hf hn
    obtain ⟨c', rfl⟩ := hl hk
    rcases child_setField_self (r := r) (i := i) (f := g.name) (l := [c']) with he | ⟨he, -⟩
    · rw [he] at hc ⊢
      rw [List.mem_singleton.mp hc]
    · rw [he] at hc; cases hc
  · rw [child_setField_ne hn] at hc ⊢
    exact h g hg hk c hc htag

theorem loneRev_follows (S : Schema) (t : TxId) : Follows S t fun _ r => LoneRev S t r where
  fork h := h.loneRev
  config h hty := h.setConfig hty
  keyed h hf hk hi := h.setField hf (fun hnone => absurd hnone hk) hi
  single h hf _ _ _ hi := h.setField hf (fun _ => ⟨_, rfl⟩) hi

/-! ## 列の merge の予行 -/

/-- 本番の列は、予行の列と同じ長さで、`None` を含まない。 -/
structure Filled (l l' : List (Option Rev)) : Prop where
  length : l.length = l'.length
  isSome : ∀ o ∈ l', o.isSome = true

theorem filled_map_some (l : List Rev) : Filled (l.map some) (l.map some) :=
  ⟨rfl, by simp⟩

theorem Filled.set {l l' : List (Option Rev)} (h : Filled l l') (i : Nat) (o : Option Rev)
    {o' : Option Rev} (ho : o'.isSome = true) : Filled (l.set i o) (l'.set i o') := by
  refine ⟨by simp [h.length], fun x hx => ?_⟩
  rcases List.mem_or_eq_of_mem_set hx with hx | rfl
  · exact h.isSome x hx
  · exact ho

theorem Filled.append {l l' : List (Option Rev)} (h : Filled l l') (o : Option Rev)
    {o' : Option Rev} (ho : o'.isSome = true) : Filled (l ++ [o]) (l' ++ [o']) := by
  refine ⟨by simp [h.length], fun x hx => ?_⟩
  rcases List.mem_append.mp hx with hx | hx
  · exact h.isSome x hx
  · rw [List.mem_singleton.mp hx]; exact ho

theorem Filled.eraseIdx {l l' : List (Option Rev)} (h : Filled l l') (i : Nat) :
    Filled (l.eraseIdx i) (l'.eraseIdx i) := by
  refine ⟨by simp [List.length_eraseIdx, h.length], fun x hx => h.isSome x ?_⟩
  exact List.mem_of_mem_eraseIdx hx

theorem filled_of_forall₂ {l l' : List (Option Rev)}
    (h : List.Forall₂ (fun _ o : Option Rev => o.isSome = true) l l') : Filled l l' := by
  induction h with
  | nil => exact ⟨rfl, by simp⟩
  | cons ho _ ih =>
    refine ⟨by simp [ih.length], fun x hx => ?_⟩
    rcases List.mem_cons.mp hx with rfl | hx
    · exact ho
    · exact ih.isSome x hx

theorem changedData_lock {I : State → Prop} (o : Option Rev) {o' : Option Rev}
    (ho : o'.isSome = true) :
    Lockstep s₀ I I (fun _ _ => True) (changedData o) (changedData o') := by
  obtain ⟨r', rfl⟩ := Option.isSome_iff_exists.mp ho
  cases o with
  | none => exact Lockstep.raise _ _
  | some r => exact Lockstep.pure trivial

/-- `pop` は子の merge を呼ばない。列の長さが同じなら、同じ位置を外せる。 -/
theorem bothRemoved_lock {I : State → Prop} (dst : AnalyzeChanges) :
    ∀ (ks : List (Option Value)) {l l' : List (Option Rev)} (ch ch' : List Change), Filled l l' →
    Lockstep s₀ I I (fun p p' => Filled p.1 p'.1) (bothRemoved dst ks l ch)
      (bothRemoved dst ks l' ch')
  | [], _, _, _, _, h => Lockstep.pure h
  | k :: ks, l, l', ch, ch', h => by
    rw [bothRemoved, bothRemoved]
    refine Lockstep.ite (fun _ => Lockstep.raise _ _) fun _ => Lockstep.ite
      (fun _ => bothRemoved_lock dst ks ch ch' h) fun _ => Lockstep.ofOption.bind ?_
    rintro idx _ ⟨-, rfl⟩
    cases hl : l[idx]? with
    | none => exact Lockstep.raise _ _
    | some old =>
      obtain ⟨hlt, -⟩ := List.getElem?_eq_some_iff.mp hl
      rw [h.length] at hlt
      have hold' := List.getElem?_eq_getElem hlt
      rw [hold']
      exact (changedData_lock old (h.isSome _ (List.getElem_mem hlt))).bind fun _ _ _ =>
        bothRemoved_lock dst ks _ _ (h.eraseIdx idx)

section Loops

variable {md mr : Rev → Op (Option Rev)} {I : (NodeId → Prop) → State → Prop}

/-- まだ訪れていない node の版 `c` の merge は、予行が通れば本番も通る。 -/
def Rehearses (s₀ : State) (I : (NodeId → Prop) → State → Prop) (md mr : Rev → Op (Option Rev))
    (c : Rev) : Prop :=
  ∀ V, ¬V (Rev.node c) → Lockstep s₀ (I V) (I fun v => V v ∨ v = Rev.node c)
    (fun _ o => o.isSome = true) (md c) (mr c)

/-- 版 `c` の merge は、どの node も訪れない。 -/
def Idle (s₀ : State) (I : (NodeId → Prop) → State → Prop) (md mr : Rev → Op (Option Rev))
    (c : Rev) : Prop :=
  ∀ V, Lockstep s₀ (I V) (I V) (fun _ o => o.isSome = true) (md c) (mr c)

/-- `V` と、key が `done` にある子の node。 -/
def visited (key : String) (l : List Rev) (V : NodeId → Prop) (done : List (Option Value))
    (v : NodeId) : Prop :=
  V v ∨ ∃ r ∈ l, Rev.node r = v ∧ Rev.keyIn key r ∈ done

variable {V : NodeId → Prop} {key : String} {srcList dstList : List Rev}

/-- keyed な列の条件。まだどの子も訪れておらず、同じ node の版は同じ key を持つ。 -/
structure Unvisited (s₀ : State) (I : (NodeId → Prop) → State → Prop)
    (md mr : Rev → Op (Option Rev)) (V : NodeId → Prop) (key : String) (l : List Rev) : Prop where
  mono : ∀ {V V' : NodeId → Prop}, (∀ v, V v → V' v) → ∀ s, I V s → I V' s
  child : ∀ c ∈ l, Rehearses s₀ I md mr c
  fresh : ∀ c ∈ l, ¬V (Rev.node c)
  keys : ∀ c ∈ l, ∀ c' ∈ l, Rev.node c = Rev.node c' → Rev.keyIn key c = Rev.keyIn key c'
  unique : UniqueKeys key l

/-- key `k` の子を訪れる。 -/
theorem Unvisited.visit (h : Unvisited s₀ I md mr V key srcList) {k : Option Value} {idx : Nat}
    {c : Rev} (hc : look srcList (keymap key srcList) k = some (idx, c)) {done : List (Option Value)}
    (hk : k ∉ done) :
    Lockstep s₀ (I (visited key srcList V done)) (I (visited key srcList V (done ++ [k])))
      (fun _ o => o.isSome = true) (md c) (mr c) := by
  obtain ⟨hidx, hkey⟩ := (look_eq_some h.unique).mp hc
  have hmem := List.mem_of_getElem? hidx
  refine (h.child c hmem (visited key srcList V done) ?_).mono (fun _ h => h) (h.mono ?_)
    fun _ _ h => h
  · rintro (hv | ⟨r, hr, hn, hd⟩)
    · exact h.fresh c hmem hv
    · rw [h.keys r hr c hmem hn, hkey] at hd
      exact hk hd
  · rintro v ((hv | ⟨r, hr, hn, hd⟩) | rfl)
    · exact Or.inl hv
    · exact Or.inr ⟨r, hr, hn, List.mem_append_left _ hd⟩
    · exact Or.inr ⟨c, hmem, rfl, by simp [hkey]⟩

theorem next_notMem {ks done : List (Option Value)} {k : Option Value} (hk : k ∉ ks)
    (h : ∀ x ∈ k :: ks, x ∉ done) : ∀ x ∈ ks, x ∉ done ++ [k] := by
  intro x hx
  simp only [List.mem_append, List.mem_singleton, not_or]
  exact ⟨h x (List.mem_cons_of_mem _ hx), fun he => hk (he ▸ hx)⟩

theorem ownAdded_lock (h : Unvisited s₀ I md mr V key srcList) :
    ∀ (ks done : List (Option Value)) {l l' : List (Option Rev)} (ch ch' : List Change), ks.Nodup →
    (∀ k ∈ ks, k ∉ done) → Filled l l' →
    Lockstep s₀ (I (visited key srcList V done)) (I (visited key srcList V (done ++ ks)))
      (fun p p' => Filled p.1 p'.1) (ownAdded md srcList (keymap key srcList) ks l ch)
      (ownAdded mr srcList (keymap key srcList) ks l' ch')
  | [], done, _, _, _, _, _, _, hl => by
    rw [List.append_nil]
    exact Lockstep.pure hl
  | k :: ks, done, l, l', ch, ch', hnd, hdone, hl => by
    obtain ⟨hk, hnd⟩ := List.nodup_cons.mp hnd
    rw [ownAdded, ownAdded, List.append_cons]
    refine Lockstep.ofOption.bind ?_
    rintro ⟨idx, c⟩ _ ⟨hlook, rfl⟩
    dsimp only
    refine (h.visit hlook (hdone k List.mem_cons_self)).bind fun o o' ho => ?_
    refine (changedData_lock o ho).bind fun _ _ _ => ?_
    exact ownAdded_lock h ks (done ++ [k]) _ _ hnd (next_notMem hk hdone) (hl.set idx o ho)

theorem ownChanged_lock (h : Unvisited s₀ I md mr V key srcList) :
    ∀ (ks done : List (Option Value)) {l l' : List (Option Rev)}, ks.Nodup →
    (∀ k ∈ ks, k ∉ done) → Filled l l' →
    Lockstep s₀ (I (visited key srcList V done)) (I (visited key srcList V (done ++ ks)))
      Filled (ownChanged md srcList (keymap key srcList) ks l)
      (ownChanged mr srcList (keymap key srcList) ks l')
  | [], done, _, _, _, _, hl => by
    rw [List.append_nil]
    exact Lockstep.pure hl
  | k :: ks, done, l, l', hnd, hdone, hl => by
    obtain ⟨hk, hnd⟩ := List.nodup_cons.mp hnd
    rw [ownChanged, ownChanged, List.append_cons]
    refine Lockstep.ofOption.bind ?_
    rintro ⟨idx, c⟩ _ ⟨hlook, rfl⟩
    dsimp only
    refine (h.visit hlook (hdone k List.mem_cons_self)).bind fun o o' ho => ?_
    exact ownChanged_lock h ks (done ++ [k]) hnd (next_notMem hk hdone) (hl.set idx o ho)

/-- 訪れない key が増えても構わない。 -/
theorem Unvisited.skip (h : Unvisited s₀ I md mr V key srcList) (done : List (Option Value))
    (k : Option Value) : ∀ s, I (visited key srcList V done) s →
      I (visited key srcList V (done ++ [k])) s := by
  refine h.mono ?_
  rintro v (hv | ⟨r, hr, hn, hd⟩)
  · exact Or.inl hv
  · exact Or.inr ⟨r, hr, hn, List.mem_append_left _ hd⟩

theorem bothAdded_lock (h : Unvisited s₀ I md mr V key srcList)
    (hdst : ∀ c ∈ dstList, Idle s₀ I md mr c) {src dst : AnalyzeChanges}
    (hm : src.keymap2 = keymap key srcList) :
    ∀ (ks done : List (Option Value)) {l l' : List (Option Rev)} (ch ch' : List Change), ks.Nodup →
    (∀ k ∈ ks, k ∉ done) → Filled l l' →
    Lockstep s₀ (I (visited key srcList V done)) (I (visited key srcList V (done ++ ks)))
      (fun p p' => Filled p.1 p'.1) (bothAdded md srcList dstList src dst ks l ch)
      (bothAdded mr srcList dstList src dst ks l' ch')
  | [], done, _, _, _, _, _, _, hl => by
    rw [List.append_nil]
    exact Lockstep.pure hl
  | k :: ks, done, l, l', ch, ch', hnd, hdone, hl => by
    obtain ⟨hk, hnd⟩ := List.nodup_cons.mp hnd
    have hnext := next_notMem hk hdone
    rw [bothAdded, bothAdded, List.append_cons]
    refine Lockstep.ofOption.bind ?_
    rintro ⟨idx, c⟩ _ ⟨hlook, rfl⟩
    dsimp only
    rw [hm] at hlook
    refine Lockstep.ite (fun _ => ?_) fun _ => ?_
    · refine Lockstep.ofOption.bind ?_
      rintro ⟨j, d⟩ _ ⟨hlookd, rfl⟩
      have hd := hdst d (List.mem_of_getElem? (look_getElem? hlookd))
      refine Lockstep.ite (fun _ => ?_) fun _ => Lockstep.raise _ _
      exact ((hd _).mono (fun _ h => h) (h.skip done k) fun _ _ h => h).bind fun _ _ _ =>
        bothAdded_lock h hdst hm ks (done ++ [k]) _ _ hnd hnext hl
    · refine (h.visit hlook (hdone k List.mem_cons_self)).bind fun o o' ho => ?_
      refine (changedData_lock o ho).bind fun _ _ _ => ?_
      exact bothAdded_lock h hdst hm ks (done ++ [k]) _ _ hnd hnext (hl.append o ho)

theorem bothChanged_lock (h : Unvisited s₀ I md mr V key srcList) {src dst : AnalyzeChanges}
    (hm : src.keymap2 = keymap key srcList) :
    ∀ (ks done : List (Option Value)) {l l' : List (Option Rev)}, ks.Nodup →
    (∀ k ∈ ks, k ∉ done) → Filled l l' →
    Lockstep s₀ (I (visited key srcList V done)) (I (visited key srcList V (done ++ ks)))
      Filled (bothChanged md srcList dstList src dst ks l)
      (bothChanged mr srcList dstList src dst ks l')
  | [], done, _, _, _, _, hl => by
    rw [List.append_nil]
    exact Lockstep.pure hl
  | k :: ks, done, l, l', hnd, hdone, hl => by
    obtain ⟨hk, hnd⟩ := List.nodup_cons.mp hnd
    have hnext := next_notMem hk hdone
    rw [bothChanged, bothChanged, List.append_cons]
    refine Lockstep.ite (fun _ => Lockstep.raise _ _) fun _ => Lockstep.ofOption.bind ?_
    rintro ⟨idx, c⟩ _ ⟨hlook, rfl⟩
    dsimp only
    rw [hm] at hlook
    have hvisit := h.visit hlook (hdone k List.mem_cons_self)
    refine Lockstep.ofOption.bind ?_
    rintro ⟨j, d⟩ _ ⟨-, rfl⟩
    dsimp only
    refine Lockstep.ite (fun _ => Lockstep.ite (fun _ => ?_) fun _ => Lockstep.ite
      (fun _ => Lockstep.raise _ _) fun _ => ?_) fun _ => ?_
    · exact hvisit.bind fun _ _ _ => bothChanged_lock h hm ks (done ++ [k]) hnd hnext hl
    · exact hvisit.bind fun o _ ho =>
        bothChanged_lock h hm ks (done ++ [k]) hnd hnext (hl.set j o ho)
    · exact hvisit.bind fun o _ ho =>
        bothChanged_lock h hm ks (done ++ [k]) hnd hnext (hl.set j o ho)

theorem nodup_changedKeys {lst1 lst2 : List Rev} (h1 : UniqueKeys key lst1) :
    (analyzeChanges key lst1 lst2).changedKeys.Nodup := by
  simp only [analyzeChanges, keymap_keys h1]
  exact List.Nodup.filter _ h1

/-- 増えた key は、変わった key ではない。 -/
theorem changedKeys_notMem_added {lst1 lst2 : List Rev} :
    ∀ k ∈ (analyzeChanges key lst1 lst2).changedKeys,
      k ∉ (analyzeChanges key lst1 lst2).addedKeys := by
  intro k hk hadd
  simp only [analyzeChanges, List.mem_filter, decide_eq_true_eq] at hk hadd
  exact hadd.2 hk.1

/-- 増えた key と変わった key には重なりが無い。 -/
theorem nodup_addedKeys_changedKeys {lst1 lst2 : List Rev} (h1 : UniqueKeys key lst1)
    (h2 : UniqueKeys key lst2) : ((analyzeChanges key lst1 lst2).addedKeys
      ++ (analyzeChanges key lst1 lst2).changedKeys).Nodup := by
  refine List.nodup_append.mpr ⟨nodup_addedKeys h2, nodup_changedKeys h1, ?_⟩
  rintro a ha b hb rfl
  exact changedKeys_notMem_added a hb ha

/-- 一つの field の merge の条件。 -/
structure Ready (s₀ : State) (I : (NodeId → Prop) → State → Prop) (md mr : Rev → Op (Option Rev))
    (V : NodeId → Prop) (f : ChildField) (forkList srcList dstList : List Rev) : Prop where
  mono : ∀ {V V' : NodeId → Prop}, (∀ v, V v → V' v) → ∀ s, I V s → I V' s
  src : ∀ c ∈ srcList, Rehearses s₀ I md mr c
  dst : ∀ c ∈ dstList, Idle s₀ I md mr c
  fresh : ∀ c ∈ srcList, ¬V (Rev.node c)
  keyed : ∀ key, f.key = some key → UniqueKeys key forkList ∧ UniqueKeys key srcList ∧
    ∀ c ∈ srcList, ∀ c' ∈ srcList, Rev.node c = Rev.node c' → Rev.keyIn key c = Rev.keyIn key c'
  lone : f.key = none → (∀ c ∈ srcList, Idle s₀ I md mr c) ∨ ∃ c, srcList = [c]

/-- `V` と、列にある node。 -/
def joined (l : List Rev) (V : NodeId → Prop) (v : NodeId) : Prop := V v ∨ ∃ r ∈ l, Rev.node r = v

variable {f : ChildField} {forkList : List Rev}

theorem Ready.unvisited (h : Ready s₀ I md mr V f forkList srcList dstList) (hk : f.key = some key) :
    Unvisited s₀ I md mr V key srcList :=
  ⟨h.mono, h.src, h.fresh, (h.keyed key hk).2.2, (h.keyed key hk).2.1⟩

/-- 列の一部だけを訪れた後の状態は、列の全部を訪れたものとみなせる。 -/
theorem Ready.enough (h : Ready s₀ I md mr V f forkList srcList dstList)
    (done : List (Option Value)) : ∀ s, I (visited key srcList V done) s → I (joined srcList V) s := by
  refine h.mono ?_
  rintro v (hv | ⟨r, hr, hn, -⟩)
  · exact Or.inl hv
  · exact Or.inr ⟨r, hr, hn⟩

theorem Ready.begin (h : Ready s₀ I md mr V f forkList srcList dstList) :
    ∀ s, I V s → I (visited key srcList V []) s := h.mono fun _ hv => Or.inl hv

theorem Ready.own (h : Ready s₀ I md mr V f forkList srcList dstList) (hk : f.key = some key) :
    Lockstep s₀ (I V) (I (joined srcList V)) (fun p p' => Filled p.1 p'.1)
      (mergeKeyedOwn md key forkList srcList) (mergeKeyedOwn mr key forkList srcList) := by
  obtain ⟨hfork, hsrc, -⟩ := h.keyed key hk
  have hun := h.unvisited hk
  unfold mergeKeyedOwn
  refine Lockstep.bind (((ownAdded_lock hun _ [] [] [] (nodup_addedKeys hsrc) (by simp)
    (filled_map_some srcList)).mono h.begin (fun _ h => h) fun _ _ h => h)) fun p p' hp => ?_
  rw [List.nil_append]
  refine (ownChanged_lock hun _ _ (nodup_changedKeys hfork) changedKeys_notMem_added hp).bind
    fun l l' hl => ?_
  exact Lockstep.pure_of hl (h.enough _)

theorem Ready.both (h : Ready s₀ I md mr V f forkList srcList dstList) (hk : f.key = some key) :
    Lockstep s₀ (I V) (I (joined srcList V)) (fun p p' => Filled p.1 p'.1)
      (mergeKeyedBoth md key forkList srcList dstList)
      (mergeKeyedBoth mr key forkList srcList dstList) := by
  obtain ⟨hfork, hsrc, -⟩ := h.keyed key hk
  have hun := h.unvisited hk
  unfold mergeKeyedBoth
  refine Lockstep.bind (((bothAdded_lock hun h.dst rfl _ [] [] [] (nodup_addedKeys hsrc) (by simp)
    (filled_map_some dstList)).mono h.begin (fun _ h => h) fun _ _ h => h)) fun p p' hp => ?_
  rw [List.nil_append]
  refine (bothChanged_lock hun rfl _ _ (nodup_changedKeys hfork) changedKeys_notMem_added hp).bind
    fun l l' hl => ?_
  exact (bothRemoved_lock _ _ _ _ hl).mono (fun _ h => h) (h.enough _) fun _ _ h => h

/-- key の無い列の子を順に訪れる。 -/
theorem Ready.mapList (h : Ready s₀ I md mr V f forkList srcList dstList) (hk : f.key = none) :
    Lockstep s₀ (I V) (I (joined srcList V)) Filled (Exec.mapList md srcList)
      (Exec.mapList mr srcList) := by
  have keep : ∀ s, I V s → I (joined srcList V) s := h.mono fun _ hv => Or.inl hv
  rcases h.lone hk with hidle | ⟨c, rfl⟩
  · exact (Lockstep.mapList fun c hc => hidle c hc V).mono (fun _ h => h) keep
      fun _ _ h => filled_of_forall₂ h
  · rw [Exec.mapList, Exec.mapList]
    refine (h.src c List.mem_cons_self V (h.fresh c List.mem_cons_self)).bind fun o o' ho => ?_
    refine (Lockstep.pure (R := fun l l' => l = [] ∧ l' = []) ⟨rfl, rfl⟩).bind ?_
    rintro _ _ ⟨rfl, rfl⟩
    refine Lockstep.pure_of ⟨rfl, by simpa using ho⟩ (h.mono ?_)
    rintro v (hv | rfl)
    · exact Or.inl hv
    · exact Or.inr ⟨c, List.mem_cons_self, rfl⟩

/-- 一つの field の merge の予行。 -/
theorem Ready.mergeField (h : Ready s₀ I md mr V f forkList srcList dstList) :
    Lockstep s₀ (I V) (I (joined srcList V)) (fun p p' => Filled p.1 p'.1)
      (mergeField md f forkList srcList dstList) (mergeField mr f forkList srcList dstList) := by
  have keep : ∀ s, I V s → I (joined srcList V) s := h.mono fun _ hv => Or.inl hv
  unfold Voltha.Config.mergeField
  refine Lockstep.ite (fun he => ?_) fun _ => ?_
  · -- 列が同じなら、src の版も commit された branch のものである
    refine (Lockstep.mapList fun c hc => h.dst c (he ▸ hc) V).bind fun _ _ _ => ?_
    exact Lockstep.pure_of (filled_map_some dstList) keep
  · cases hk : f.kind with
    | keyed key kt =>
      have hkey : f.key = some key := by rw [ChildField.key, hk]
      exact Lockstep.ite (fun _ => h.own hkey) fun _ => h.both hkey
    | single | list =>
      have hkey : f.key = none := by rw [ChildField.key, hk]
      refine Lockstep.ite (fun _ => Lockstep.ite (fun _ => Lockstep.raise _ _) fun _ => ?_)
        fun _ => Lockstep.ite (fun _ => Lockstep.raise _ _) fun _ => ?_
      · exact (h.mapList hkey).bind fun _ _ hl => Lockstep.pure hl
      · exact Lockstep.pure_of (filled_map_some dstList) keep

/-- 全 field の merge の予行。field が違えば、子の node も違う。 -/
theorem mergeFields_lock {fork src dst : Rev}
    (hmono : ∀ {V V' : NodeId → Prop}, (∀ v, V v → V' v) → ∀ s, I V s → I V' s) :
    ∀ (fs : List ChildField) (V : NodeId → Prop) {acc acc' : List (String × List (Option Rev))}
      (ch ch' : List Change),
    (∀ f ∈ fs, ∀ V, (∀ c ∈ src.child f.name, ¬V (Rev.node c)) →
      Ready s₀ I md mr V f (fork.child f.name) (src.child f.name) (dst.child f.name)) →
    fs.Pairwise (fun f g => ∀ c ∈ src.child f.name, ∀ c' ∈ src.child g.name,
      Rev.node c ≠ Rev.node c') →
    (∀ f ∈ fs, ∀ c ∈ src.child f.name, ¬V (Rev.node c)) →
    (∀ p ∈ acc', ∀ o ∈ p.2, o.isSome = true) →
    Lockstep s₀ (I V) (I fun _ => True) (fun _ p' => ∀ p ∈ p'.1, ∀ o ∈ p.2, o.isSome = true)
      (mergeFields md fork src dst fs acc ch) (mergeFields mr fork src dst fs acc' ch')
  | [], V, _, _, _, _, _, _, _, hacc => Lockstep.pure_of hacc (hmono fun _ _ => trivial)
  | f :: fs, V, acc, acc', ch, ch', hready, hpair, hfresh, hacc => by
    obtain ⟨hhead, hpair⟩ := List.pairwise_cons.mp hpair
    have hf := hready f List.mem_cons_self V (hfresh f List.mem_cons_self)
    rw [mergeFields, mergeFields]
    refine hf.mergeField.bind fun p p' hp => ?_
    refine mergeFields_lock hmono fs _ _ _ (fun g hg => hready g (List.mem_cons_of_mem _ hg)) hpair
      ?_ ?_
    · rintro g hg c hc (hv | ⟨r, hr, hn⟩)
      · exact hfresh g (List.mem_cons_of_mem _ hg) c hc hv
      · exact hhead g hg r hr c hc hn
    · rintro ⟨g, l⟩ hq o ho
      rcases FieldTree.mem_setField hq with ⟨-, rfl⟩ | ⟨-, hm⟩
      · exact hp.isSome o ho
      · exact hacc (g, l) hm o ho

end Loops

theorem allRevs_of_filled : ∀ {acc : List (String × List (Option Rev))},
    (∀ p ∈ acc, ∀ o ∈ p.2, o.isSome = true) → ∃ cs, allRevs acc = some cs
  | [], _ => ⟨[], rfl⟩
  | (g, l) :: acc, h => by
    have hl : ∀ {l : List (Option Rev)}, (∀ o ∈ l, o.isSome = true) → ∃ l', l.mapM id = some l' := by
      intro l hl
      induction l with
      | nil => exact ⟨[], rfl⟩
      | cons o l ih =>
        obtain ⟨r, rfl⟩ := Option.isSome_iff_exists.mp (hl o List.mem_cons_self)
        obtain ⟨l', hl'⟩ := ih fun x hx => hl x (List.mem_cons_of_mem _ hx)
        exact ⟨r :: l', by rw [List.mapM_cons, hl']; rfl⟩
    obtain ⟨l', hl'⟩ := hl fun o ho => h (g, l) List.mem_cons_self o ho
    obtain ⟨cs, hcs⟩ := allRevs_of_filled fun p hp => h p (List.mem_cons_of_mem _ hp)
    exact ⟨(g, l') :: cs, by rw [allRevs, hl', hcs]; rfl⟩

/-! ## 訪れた node -/

/-- `v` は `n` の子として作られた node である。 -/
def ChildOf (s : State) (n v : NodeId) : Prop :=
  n < v ∧ ∃ sl, (s.node v).slot = some sl ∧ sl.parent = n

theorem ChildAt.childOf {f : ChildField} {m : NodeId} (h : ChildAt s n f m) : ChildOf s n m := by
  obtain ⟨v, hsl⟩ := h.slot
  exact ⟨h.younger, _, hsl, rfl⟩

theorem ChildOf.under {v : NodeId} (h : ChildOf s n v) : Under s n v := by
  obtain ⟨hlt, sl, hsl, rfl⟩ := h
  exact Under.step hsl hlt Under.refl

theorem ChildOf.not_under {v : NodeId} (h : ChildOf s n v) : ¬Under s v n :=
  fun hu => absurd hu.le (Nat.not_le.mpr h.1)

/-- 兄弟の下にある node は、互いに重ならない。 -/
theorem ChildOf.disjoint {v w m : NodeId} (hv : ChildOf s n v) (hw : ChildOf s n w) (hne : v ≠ w)
    (hm : Under s v m) : ¬Under s w m := by
  induction hm with
  | refl =>
    intro hu
    cases hu with
    | refl => exact hne rfl
    | step hsl _ hup =>
      obtain ⟨-, sl, hsl', rfl⟩ := hv
      rw [hsl] at hsl'
      cases hsl'
      exact hw.not_under hup
  | @step m sl hsl hlt hvm ih =>
    intro hu
    cases hu with
    | refl =>
      obtain ⟨-, sl', hsl', rfl⟩ := hw
      rw [hsl] at hsl'
      cases hsl'
      exact hv.not_under hvm
    | step hsl' _ hup =>
      rw [hsl] at hsl'
      cases hsl'
      exact ih hup

/-- 本番の merge が触らない key。 -/
abbrev Bystander (t : TxId) (k : Option TxId) : Prop := k ≠ none ∧ k ≠ some t

/-- `n` の下の node は、dry run のときのままである。 -/
structure Intact (t : TxId) (s₀ : State) (n : NodeId) (s : State) : Prop where
  frame : Frame (Bystander t) s₀ s
  same : ∀ m < s₀.nextNode, Under s₀ n m → (s.node m).branches = (s₀.node m).branches

/-- `s₁` から始めて、`n` の子のうち `V` にあるものの下だけを訪れた。 -/
structure Toured (t : TxId) (s₀ s₁ : State) (n : NodeId) (V : NodeId → Prop) (s : State) :
    Prop where
  frame : Frame (Bystander t) s₀ s
  same : ∀ m < s₀.nextNode, (∀ v, V v → ChildOf s₀ n v → ¬Under s₀ v m) →
    (s.node m).branches = (s₁.node m).branches

theorem Intact.toured (h : Intact t s₀ n s) : Toured t s₀ s n (fun _ => False) s :=
  ⟨h.frame, fun _ _ _ => rfl⟩

theorem Toured.mono {V V' : NodeId → Prop} (hV : ∀ v, V v → V' v) (s : State)
    (h : Toured t s₀ s₁ n V s) : Toured t s₀ s₁ n V' s :=
  ⟨h.frame, fun m hm hout => h.same m hm fun v hv => hout v (hV v hv)⟩

/-- まだ訪れていない子の下は、dry run のときのままである。 -/
theorem Toured.intact {V : NodeId → Prop} (h₁ : Intact t s₀ n s₁) (h : Toured t s₀ s₁ n V s)
    {c : NodeId} (hc : ChildOf s₀ n c) (hV : ¬V c) : Intact t s₀ c s where
  frame := h.frame
  same m hm hu := by
    rw [h.same m hm fun v hv hcv => hc.disjoint hcv (fun he => hV (he ▸ hv)) hu]
    exact h₁.same m hm (hc.under.trans hu)

/-- 子を一つ訪れる。 -/
theorem Toured.visit {V : NodeId → Prop} (h : Toured t s₀ s₁ n V s) {c : NodeId}
    (hc : ChildOf s₀ n c) (hf : Frame (Bystander t) s s')
    (hs : ∀ m < s₀.nextNode, ¬Under s₀ c m → (s'.node m).branches = (s.node m).branches) :
    Toured t s₀ s₁ n (fun v => V v ∨ v = c) s' where
  frame := h.frame.trans hf
  same m hm hout := by
    rw [hs m hm (hout c (Or.inr rfl) hc)]
    exact h.same m hm fun v hv => hout v (Or.inl hv)

/-- 子を訪れ終えたとき、自分と、自分の下に無い node は元のままである。 -/
theorem Toured.outside {V : NodeId → Prop} (h : Toured t s₀ s₁ n V s) {m : NodeId}
    (hm : m < s₀.nextNode) (hu : m = n ∨ ¬Under s₀ n m) :
    (s.node m).branches = (s₁.node m).branches := by
  refine h.same m hm fun v _ hv huv => ?_
  rcases hu with rfl | hu
  · exact hv.not_under huv
  · exact hu (hv.under.trans huv)

/-! ## 一つの node の merge -/

/-- dry run と本番の `merge_3way`。 -/
theorem merge3way_lock {md mr : Rev → Op (Option Rev)} {I : State → Prop} {J : State → Prop}
    {fork src dst : Rev} (hJ : ∀ s s' : State, s'.node = s.node → Frame (Bystander t) s s' → J s → J s')
    (hfields : Lockstep s₀ I J (fun _ p' => ∀ p ∈ p'.1, ∀ o ∈ p.2, o.isSome = true)
      (mergeFields md fork src dst (S.fields (Rev.config fork).type)
        (dst.children.map fun p => (p.1, p.2.map some)) [])
      (mergeFields mr fork src dst (S.fields (Rev.config fork).type)
        (dst.children.map fun p => (p.1, p.2.map some)) [])) :
    Lockstep s₀ I J (fun p p' => p.1 = none ∧ p'.1.isSome = true)
      (merge3way S md true fork src dst) (merge3way S mr false fork src dst) := by
  have hconfig : Lockstep s₀ I I (fun _ _ => True) (mergeConfig fork src dst)
      (mergeConfig fork src dst) := by
    unfold mergeConfig
    exact Lockstep.ite (fun _ => Lockstep.pure trivial) fun _ =>
      Lockstep.ite (fun _ => Lockstep.raise _ _) fun _ => Lockstep.pure trivial
  unfold merge3way
  refine hconfig.bind fun changed changed' _ => hfields.bind fun p p' hp s hs => ?_
  obtain ⟨cs, hcs⟩ := allRevs_of_filled hp
  refine ⟨rfl, ?_⟩
  simp only [Bool.false_eq_true, if_false]
  rw [hcs, ofOption_some, wp_bind, wp_pure, wp_bind, updateAllChildren, wp_newRev]
  refine ⟨⟨trivial, rfl⟩, hJ s _ (finalizeRev_node _ _) ?_ hs⟩
  exact newRev_keeps _ _ _ _ _ s

/-- 子の版の merge。`t` の枝の版なら、その node の merge に降りる。 -/
def descend (S : Schema) (t : TxId) (dryRun : Bool) (fuel : Nat) (c : Rev) : Op (Option Rev) :=
  if Rev.tag c = .tx t then mergeTxbranch S t dryRun fuel (Rev.node c) else pure (some c)

/-- merge した版を据えて、枝を消す。 -/
def settle (n : NodeId) (t : TxId) (b : Branch) (p : Option Rev × List Change) :
    Op (Option Rev) :=
  match p.1 with
  | none => pure none
  | some r => do
    makeLatest n none b r p.2
    delTxbranch n t
    pure (some r)

theorem mergeTxbranch_eq {dryRun : Bool} {fuel : Nat} {srcB dstB : Branch} {fork : Rev}
    (hsrc : (s.node n).branches (some t) = some srcB)
    (hdst : (s.node n).branches none = some dstB) (hfork : srcB.origin = some fork) :
    mergeTxbranch S t dryRun (fuel + 1) n s = (merge3way S (descend S t dryRun fuel) dryRun fork
      srcB.latest dstB.latest >>= settle n t dstB) s := by
  have hsrc : s.txBranch? t n = some srcB := hsrc
  rw [mergeTxbranch, read_bind_apply, hsrc, ofOption_some, pure_bind_apply, hdst, ofOption_some,
    pure_bind_apply, hfork, ofOption_some, pure_bind_apply]
  rfl

/-- 版を据えて枝を消すのは、枝があれば例外なく終わり、`n` の branch しか書かない。 -/
theorem settle_ok (hb : ((s.node n).branches (some t)).isSome = true) (r : Rev)
    (ch : List Change) :
    ∃ s', settle n t b (some r, ch) s = (.ok (some r), s') ∧
      (∀ m, m ≠ n → (s'.node m).branches = (s.node m).branches) ∧
      (s'.node n).branches none = some { b with latest := r, revs := insertRev b.revs r } := by
  obtain ⟨srcB, hsrc⟩ := Option.isSome_iff_exists.mp hb
  have hnode := makeLatest_node n none b r ch s
  have hmake : makeLatest n none b r ch s = (.ok (), (makeLatest n none b r ch s).2) := rfl
  generalize (makeLatest n none b r ch s).2 = s₁ at hnode hmake
  have hsrc1 : (s₁.node n).branches (some t) = some srcB := by
    rw [hnode, setBranch_branches, if_neg (by simp)]
    exact hsrc
  obtain ⟨s₂, he, hnode2⟩ := delTxbranch_eq hsrc1
  refine ⟨s₂, ?_, fun m hm => ?_, ?_⟩
  · unfold settle
    dsimp only
    rw [bind_ok hmake, bind_ok he]
    rfl
  · rw [hnode2, setBranch_other s₁ _ _ hm, hnode, setBranch_other s _ _ hm]
  · rw [hnode2, setBranch_branches, if_neg (by simp), hnode, setBranch_branches, if_pos ⟨rfl, rfl⟩]

/-- node `n` の merge は、予行が通れば本番も通り、`n` の下しか触らない。 -/
def Safe (S : Schema) (t : TxId) (s₀ : State) (fuel : Nat) (n : NodeId) : Prop :=
  ∀ s₁, Intact t s₀ n s₁ → Lockstep s₀ (· = s₁)
    (fun s' => ∀ m < s₀.nextNode, ¬Under s₀ n m → (s'.node m).branches = (s₁.node m).branches)
    (fun _ o => o.isSome = true) (mergeTxbranch S t true fuel n) (mergeTxbranch S t false fuel n)

theorem idle_of_untagged {I : (NodeId → Prop) → State → Prop} {fuel : Nat} {c : Rev}
    (h : Rev.tag c ≠ .tx t) : Idle s₀ I (descend S t true fuel) (descend S t false fuel) c := by
  intro V
  unfold descend
  rw [if_neg h, if_neg h]
  exact Lockstep.pure rfl

theorem Safe.rehearses {fuel : Nat} {c : Rev} (h : Safe S t s₀ fuel (Rev.node c))
    (hc : ChildOf s₀ n (Rev.node c)) (h₁ : Intact t s₀ n s₁) :
    Rehearses s₀ (Toured t s₀ s₁ n) (descend S t true fuel) (descend S t false fuel) c := by
  intro V hV
  by_cases htag : Rev.tag c = .tx t
  · unfold descend
    rw [if_pos htag, if_pos htag]
    intro s hs
    refine wp_mono (h s (hs.intact h₁ hc hV) s rfl) ?_ fun _ _ h => h
    rintro o s₂ ⟨rfl, hreal⟩
    have hframe := (mergeTxbranch_keeps S t false fuel (Rev.node c)).toWp s
    refine ⟨rfl, wp_mono (wp_and hreal hframe) ?_ fun _ _ h => h.1⟩
    rintro o' s' ⟨⟨ho, hout⟩, hf⟩
    exact ⟨ho, hs.visit hc hf hout⟩
  · exact (idle_of_untagged htag V).mono (fun _ h => h)
      (fun s => Toured.mono (fun _ hv => Or.inl hv) s) fun _ _ h => h

theorem fields_pairwise (S : Schema) (ty : String) :
    (S.fields ty).Pairwise fun f g => f.name ≠ g.name := by
  have := S.names_nodup ty
  rw [List.Nodup, List.pairwise_map] at this
  exact this

/-- 一つの node の、field ごとの merge の条件。 -/
theorem ready_of_good (hκ : κ.keys) (hg : Good S κ X s₀) (hclean : Clean t s₀) (hlone : Lone S t s₀)
    {fuel : Nat} (ih : ∀ m, Safe S t s₀ fuel m) (h₁ : Intact t s₀ n s₁) {srcB dstB : Branch}
    {fork : Rev} (hsrc : (s₀.node n).branches (some t) = some srcB)
    (hdst : (s₀.node n).branches none = some dstB) (hfork : srcB.origin = some fork)
    {f : ChildField} (hf : f ∈ S.fields (s₀.node n).type) (V : NodeId → Prop)
    (hV : ∀ c ∈ srcB.latest.child f.name, ¬V (Rev.node c)) :
    Ready s₀ (Toured t s₀ s₁ n) (descend S t true fuel) (descend S t false fuel) V f
      (fork.child f.name) (srcB.latest.child f.name) (dstB.latest.child f.name) := by
  have hs := hg.branch n (some t) srcB hsrc
  have hfk := hs.revs fork (by simp [Branch.held, hfork])
  refine ⟨fun hV s => Toured.mono hV s, fun c hc => ?_, fun c hc => ?_, hV, ?_, ?_⟩
  · exact (ih _).rehearses (hs.childAt hf hc).1.childOf h₁
  · exact idle_of_untagged ((hclean n none dstB (by simp) hdst).child hc c (FieldTree.Sub.refl c))
  · intro key hk
    refine ⟨?_, hs.distinctKeys hκ hf key hk, fun c hc c' hc' he => hs.keyIn_eq hκ hf hc hc' he hk⟩
    refine (hfk.2.self.keyed hκ).nodup f ?_ key hk
    rw [← hfk.2.self.type_eq, hfk.1]
    exact hf
  · intro hk
    by_cases htag : ∃ c ∈ srcB.latest.child f.name, Rev.tag c = .tx t
    · obtain ⟨c, hc, htag⟩ := htag
      refine Or.inr ⟨c, hlone n srcB hsrc f ?_ hk c hc htag⟩
      rw [hs.config_type]; exact hf
    · exact Or.inl fun c hc => idle_of_untagged fun he => htag ⟨c, hc, he⟩

/--
dry run が通れば、本番も通る。

深さの上限についての帰納法。降りる先の node は、dry run のときのまま手つかずである。
-/
theorem mergeTxbranch_safe (hκ : κ.keys) (hg : Good S κ X s₀) (hclean : Clean t s₀)
    (hlone : Lone S t s₀) : ∀ (fuel : Nat) (n : NodeId), Safe S t s₀ fuel n
  | 0, _ => fun _ _ => Lockstep.raise _ _
  | fuel + 1, n => by
    rintro _ h₁ s₁ rfl
    have ih := mergeTxbranch_safe hκ hg hclean hlone fuel
    cases hsrc : (s₀.node n).branches (some t) with
    | none =>
      have hsrc : s₀.txBranch? t n = none := hsrc
      rw [mergeTxbranch, wp_bind, wp_read, hsrc]
      exact trivial
    | some srcB =>
      have hs := hg.branch n (some t) srcB hsrc
      obtain ⟨dstB, hdst⟩ := Option.isSome_iff_exists.mp hs.born
      obtain ⟨fork, hfork⟩ := Option.isSome_iff_exists.mp (hs.origin rfl)
      have hfk := hs.revs fork (by simp [Branch.held, hfork])
      have hty : (Rev.config fork).type = (s₀.node n).type := by
        rw [← hfk.2.self.type_eq, hfk.1]
      -- 自分の二つの branch は、dry run のときのままである
      have hbr := h₁.same n hs.lt Under.refl
      have hready : ∀ f ∈ S.fields (Rev.config fork).type, ∀ V,
          (∀ c ∈ srcB.latest.child f.name, ¬V (Rev.node c)) →
          Ready s₀ (Toured t s₀ s₁ n) (descend S t true fuel) (descend S t false fuel) V f
            (fork.child f.name) (srcB.latest.child f.name) (dstB.latest.child f.name) :=
        fun f hf => ready_of_good hκ hg hclean hlone ih h₁ hsrc hdst hfork (hty ▸ hf)
      have hpair : (S.fields (Rev.config fork).type).Pairwise fun f g =>
          ∀ c ∈ srcB.latest.child f.name, ∀ c' ∈ srcB.latest.child g.name,
            Rev.node c ≠ Rev.node c' := by
        refine (fields_pairwise S _).imp_of_mem fun {f g} hf hg' hne c hc c' hc' he => hne ?_
        have hat := (hs.childAt (hty ▸ hf) hc).1
        rw [he] at hat
        exact (hat.unique (hs.childAt (hty ▸ hg') hc').1).2
      have hacc : ∀ p ∈ (dstB.latest.children.map fun p => (p.1, p.2.map some)), ∀ o ∈ p.2,
          o.isSome = true := by
        intro p hp o ho
        obtain ⟨q, -, rfl⟩ := List.mem_map.mp hp
        obtain ⟨r, -, rfl⟩ := List.mem_map.mp ho
        rfl
      have hmerge : Lockstep s₀ (Toured t s₀ s₁ n fun _ => False) (Toured t s₀ s₁ n fun _ => True)
          (fun p p' => p.1 = none ∧ p'.1.isSome = true)
          (merge3way S (descend S t true fuel) true fork srcB.latest dstB.latest)
          (merge3way S (descend S t false fuel) false fork srcB.latest dstB.latest) := by
        refine merge3way_lock (t := t) (fun s s' hn hf h => ⟨h.frame.trans hf, fun m hm hout => ?_⟩)
          (mergeFields_lock (fun hV s => Toured.mono hV s) _ _ [] [] hready hpair
            (fun _ _ _ _ h => h) hacc)
        rw [hn]
        exact h.same m hm hout
      have hsettle : Lockstep s₀ (Toured t s₀ s₁ n fun _ => False)
          (fun s' => ∀ m < s₀.nextNode, ¬Under s₀ n m →
            (s'.node m).branches = (s₁.node m).branches) (fun _ o => o.isSome = true)
          (merge3way S (descend S t true fuel) true fork srcB.latest dstB.latest >>=
            settle n t dstB)
          (merge3way S (descend S t false fuel) false fork srcB.latest dstB.latest >>=
            settle n t dstB) := by
        refine hmerge.bind ?_
        rintro ⟨o, ch⟩ ⟨o', ch'⟩ ⟨ho, ho'⟩ s hs'
        obtain rfl : o = none := ho
        obtain ⟨r, rfl⟩ : ∃ r, o' = some r := Option.isSome_iff_exists.mp ho'
        have hbranch : ((s.node n).branches (some t)).isSome = true := by
          rw [hs'.outside hs.lt (Or.inl rfl), hbr, hsrc]; rfl
        obtain ⟨s', he, hout, -⟩ := settle_ok hbranch r ch'
        refine ⟨rfl, wp_of_ok he ⟨rfl, fun m hm hu => ?_⟩⟩
        rw [hout m fun he => hu (he ▸ Under.refl)]
        exact hs'.outside hm (Or.inr hu)
      refine wp_of_eq (mergeTxbranch_eq hsrc hdst hfork) (wp_mono (hsettle s₁ h₁.toured) ?_
        fun _ _ h => h)
      rintro o s₂ ⟨rfl, hreal⟩
      refine ⟨rfl, wp_of_eq (mergeTxbranch_eq ?_ ?_ hfork) hreal⟩
      · rw [hbr]; exact hsrc
      · rw [hbr]; exact hdst

/-! ## 実行 -/

/-- key を変えようとしない実行で保たれる条件。 -/
structure Poised (S : Schema) (s : State) : Prop where
  sound : Sound S ⟨True, False⟩ (fun _ _ => True) s
  tidy : Tidy S s
  lone : ∀ t ∈ s.txns, Lone S t s

theorem Poised.step (h : Poised S s) {st : Step} (hst : st.KeepsKey S s) :
    Poised S (step S s st) where
  sound := step_sound closed_true h.sound st ⟨fun _ => hst, False.elim⟩
  tidy := h.tidy.step st
  lone := step_branchwise (fun t => loneRev_follows S t) h.tidy h.lone st

theorem start_poised {kv : Option Store} {data : Msg} (h : (initRoot S kv data).1.isOk = true) :
    Poised S (start S kv data) := by
  refine ⟨start_sound closed_true False.elim h, start_tidy h, fun t ht => ?_⟩
  have htx : (initRoot S kv data).2.txns = [] :=
    (mknode_keeps S (complete S data) none (emptyState kv)).txns
  have ht : t ∈ (initRoot S kv data).2.txns := ht
  rw [htx] at ht
  cases ht

/-- dry run が通った transaction は、本番も通る。 -/
theorem merge_isOk (hκ : κ.keys) (hs : Sound S κ X s) (hclean : Clean t s) (hlone : Lone S t s)
    (hdry : (mergeTxbranch S t true (mergeFuel s) rootId s).1.isOk = true) :
    ∃ o s', mergeTxbranch S t false (mergeFuel s) rootId s = (.ok o, s') := by
  have hsafe := mergeTxbranch_safe hκ hs.good hclean hlone (mergeFuel s) rootId s
    ⟨Frame.refl s, fun _ _ _ => rfl⟩ s rfl
  rcases hm : mergeTxbranch S t true (mergeFuel s) rootId s with ⟨e | o, s₁⟩
  · rw [hm] at hdry; cases hdry
  · have hreal := (wp_ok hsafe hm).2
    rcases hr : mergeTxbranch S t false (mergeFuel s) rootId s with ⟨e | o', s₂⟩
    · exact (wp_error hreal hr).elim
    · exact ⟨o', s₂, rfl⟩

theorem Poised.merge_isOk (h : Poised S s) (ht : t ∈ s.txns)
    (hdry : (mergeTxbranch S t true (mergeFuel s) rootId s).1.isOk = true) :
    (mergeTxbranch S t false (mergeFuel s) rootId s).1.isOk = true := by
  obtain ⟨o, s', hm⟩ := Voltha.Config.merge_isOk (κ := ⟨True, False⟩) trivial h.sound
    (h.tidy.tended t ht).clean (h.lone t ht) hdry
  rw [hm]
  rfl

/--
commit は全部か無かである。

dry run が例外を出さなければ本番も出さず、`fold_txbranch` が例外で終われば、
どの node の最新の版の中身も元のままである。
-/
structure AllOrNothing (S : Schema) (t : TxId) (s : State) : Prop where
  rehearsed : (mergeTxbranch S t true (mergeFuel s) rootId s).1.isOk = true →
    (mergeTxbranch S t false (mergeFuel s) rootId s).1.isOk = true
  untouched : ∀ e, (foldTxbranch S t s).1 = .error e → ∀ n < s.nextNode,
    ((foldTxbranch S t s).2.latest? n).map Rev.content = (s.latest? n).map Rev.content

theorem Poised.allOrNothing (h : Poised S s) (ht : t ∈ s.txns) : AllOrNothing S t s := by
  refine ⟨h.merge_isOk ht, fun e he n hn => ?_⟩
  rw [foldTxbranch_eq] at he ⊢
  split at he
  · -- 衝突で断られたときに消えるのは、`t` の枝だけである
    next hm =>
    exact congrArg _ (latest?_congr ((dropTransaction_keeps t s).branch n hn none (by simp)))
  · rfl
  · next o hm =>
    have hreal := h.merge_isOk ht (by rw [hm]; rfl)
    rcases hr : mergeTxbranch S t false (mergeFuel s) rootId s with ⟨e' | o', s₂⟩
    · rw [hr] at hreal; cases hreal
    · rw [hr] at he; cases he

/--
**key を変えようとしない実行では、commit は全部か無かである。**

どの一歩も key を変えようとしない実行で到達するどの状態でも、開いているどの transaction の
commit も、dry run が通れば本番も通り、例外で終われば commit された木は元のままである。
-/
theorem commit_all_or_nothing (S : Schema) {kv : Option Store} {data : Msg}
    (hinit : (initRoot S kv data).1.isOk = true) {l : List Step}
    (hl : EveryStep S (fun s st => st.KeepsKey S s) (start S kv data) l) :
    ∀ t ∈ (run S (start S kv data) l).txns, AllOrNothing S t (run S (start S kv data) l) := by
  have h : Poised S (run S (start S kv data) l) :=
    EveryStep.invariant (Poised S) (fun _ _ hst h => h.step hst) hl (start_poised hinit)
  exact fun t ht => h.allOrNothing ht

/-- adapter `0` を transaction 0 と直接の update が別々に書き換える実行。 -/
def clashSteps : List Step :=
  [.openTx,
    .update (some 0) ["adapters", "0"] (adapterMsg "0" "b") false,
    .update none ["adapters", "0"] (adapterMsg "0" "c") false]

/-- その commit は衝突で断られ、どの node の最新の版も元のままである。 -/
theorem commit_all_or_nothing_clash :
    (foldTxbranch volthaSchema 0
        (run volthaSchema (start volthaSchema none sampleInstance) clashSteps)).1.isOk = false ∧
    ∀ n < (run volthaSchema (start volthaSchema none sampleInstance) clashSteps).nextNode,
      ((foldTxbranch volthaSchema 0
          (run volthaSchema (start volthaSchema none sampleInstance) clashSteps)).2.latest? n).map
          Rev.content
        = ((run volthaSchema (start volthaSchema none sampleInstance) clashSteps).latest? n).map
          Rev.content := by
  have he : (foldTxbranch volthaSchema 0
      (run volthaSchema (start volthaSchema none sampleInstance) clashSteps)).1.isOk = false := by
    decide +kernel
  have hl : EveryStep volthaSchema (fun s st => st.KeepsKey volthaSchema s)
      (start volthaSchema none sampleInstance) clashSteps := by
    refine ⟨trivial, ?_, ?_, trivial⟩
    · exact Step.keepsKey_of_sameKey (by decide +kernel)
    · exact Step.keepsKey_of_sameKey (by decide +kernel)
  refine ⟨he, ?_⟩
  rcases hf : (foldTxbranch volthaSchema 0
      (run volthaSchema (start volthaSchema none sampleInstance) clashSteps)).1 with e | u
  · exact (commit_all_or_nothing volthaSchema (by decide +kernel) hl 0
      (by decide +kernel)).untouched e hf
  · rw [hf] at he
    cases he

/-- logical device `L` と `M` を持つ木。 -/
def pairInstance : Msg :=
  instanceMsg "v0" [] [logicalDeviceMsg "L" "" [], logicalDeviceMsg "M" "" []] []

/--
key を入れ換えようとして断られた二つの update のあと、transaction 0 を commit し、
transaction 1 で二つの logical device を書き換える実行。
-/
def swapSteps : List Step :=
  [.openTx,
    .update (some 0) ["logical_devices", "M"] (logicalDeviceMsg "L" "" []) false,
    .add (some 0) ["logical_devices", "M", "ports"] (logicalPortMsg "P" ""),
    .update (some 0) ["logical_devices", "L"] (logicalDeviceMsg "M" "x" []) false,
    .add (some 0) ["logical_devices", "L", "ports"] (logicalPortMsg "Q" ""),
    .remove (some 0) ["logical_devices", "L", "ports", "P"],
    .add none ["logical_devices"] (logicalDeviceMsg "Z" "" []),
    .commit 0,
    .openTx,
    .update (some 1) ["logical_devices", "L"] (logicalDeviceMsg "L" "y" []) false,
    .update (some 1) ["logical_devices", "M"] (logicalDeviceMsg "M" "w" []) false]

/--
断られた key の変更が枝に残ると、commit された列に同じ node の版が二つ並ぶ。

transaction 1 の dry run は通るが、本番はその node を二度訪れて `KeyError` で終わる。
そのとき node 2 の commit された版はもう書き換わっている。
-/
theorem commit_half_done :
    1 ∈ (run volthaSchema (start volthaSchema none pairInstance) swapSteps).txns ∧
    (foldTxbranch volthaSchema 1
        (run volthaSchema (start volthaSchema none pairInstance) swapSteps)).1
      = .error (.keyError "1") ∧
    ((foldTxbranch volthaSchema 1
        (run volthaSchema (start volthaSchema none pairInstance) swapSteps)).2.latest? 2).map
        Rev.content
      ≠ ((run volthaSchema (start volthaSchema none pairInstance) swapSteps).latest? 2).map
        Rev.content ∧
    ¬AllOrNothing volthaSchema 1
      (run volthaSchema (start volthaSchema none pairInstance) swapSteps) := by
  have he : (foldTxbranch volthaSchema 1
      (run volthaSchema (start volthaSchema none pairInstance) swapSteps)).1
        = .error (.keyError "1") := by
    decide +kernel
  have hne : ((foldTxbranch volthaSchema 1
      (run volthaSchema (start volthaSchema none pairInstance) swapSteps)).2.latest? 2).map
        Rev.content
        ≠ ((run volthaSchema (start volthaSchema none pairInstance) swapSteps).latest? 2).map
          Rev.content := by
    decide +kernel
  exact ⟨by decide +kernel, he, hne, fun h => hne (h.untouched _ he 2 (by decide +kernel))⟩

end Voltha.Config
