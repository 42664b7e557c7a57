import Voltha.Config.Properties.KeyWiseMerge
import Voltha.Config.Properties.Rehearsal
import Voltha.Config.Properties.TxCoherent

/-!
# commit は木を揃えたままにする

本番の merge は、子の merge の結果を列に入れ、自分の版を作り直して据える。
列に入るのは、merge した版か、dst にあった版か、src からそのまま引き取った版である。
引き取った版が古びていなければ（`Fresh`）、commit の後も、どの列の版もその node の
最新の版と揃っている。
-/

namespace Voltha.Config

open Exec

variable {S : Schema} {κ : Mode} {X : State → Rev → Prop}
variable {s s' s₀ s₁ : State} {n : NodeId} {t : TxId}

/--
transaction `t` の列から merge がそのまま引き取る版は、その node の最新の版と揃っている。

引き取るのは、`t` の枝のものでない版と、dst の列が枝分かれから変わっていないときの、
枝分かれから変わっていない版である。
-/
def Fresh (S : Schema) (t : TxId) (s : State) : Prop :=
  ∀ n srcB dstB fork, (s.node n).branches (some t) = some srcB →
    (s.node n).branches none = some dstB → srcB.origin = some fork →
    ∀ f ∈ S.fields (s.node n).type, ∀ x ∈ srcB.latest.child f.name, ¬InStep s x →
      if Rev.hash x ∈ (fork.child f.name).map Rev.hash
      then dstB.latest.child f.name ≠ fork.child f.name else Rev.tag x = .tx t

instance (s : State) (x : Rev) : Decidable (InStep s x) :=
  match h : s.latest? (Rev.node x) with
  | none => isFalse (by rintro ⟨r, hr, -⟩; rw [h] at hr; cases hr)
  | some r => decidable_of_iff (Rev.content r = Rev.content x)
      ⟨fun he => ⟨r, h, he⟩, by rintro ⟨r', hr', he⟩; rw [h] at hr'; cases hr'; exact he⟩

/-- node `n` についての `Fresh` の検査。 -/
def freshAt (S : Schema) (t : TxId) (s : State) (n : NodeId) : Bool :=
  match (s.node n).branches (some t), (s.node n).branches none with
  | some srcB, some dstB => srcB.origin.all fun fork =>
      (S.fields (s.node n).type).all fun f => (srcB.latest.child f.name).all fun x =>
        decide (¬InStep s x → if Rev.hash x ∈ (fork.child f.name).map Rev.hash
          then dstB.latest.child f.name ≠ fork.child f.name else Rev.tag x = .tx t)
  | _, _ => true

/-- 枝のある node は作られたものだけなので、有限個を調べればよい。 -/
theorem fresh_of_freshAt (hg : Good S κ X s) (h : ∀ n < s.nextNode, freshAt S t s n = true) :
    Fresh S t s := by
  intro n srcB dstB fork hsrc hdst hfork f hf x hx
  have hn := h n (hg.branch n (some t) srcB hsrc).lt
  unfold freshAt at hn
  rw [hsrc, hdst] at hn
  dsimp only at hn
  rw [hfork, Option.all_some, List.all_eq_true] at hn
  have hl := hn f hf
  rw [List.all_eq_true] at hl
  exact of_decide_eq_true (hl x hx)

/-! ## 列の merge -/

/-- 子の版 `c` を merge した前後。`sib` は兄弟の node である。 -/
structure Visited (t : TxId) (sib : NodeId → Prop) (c r : Rev) (s s' : State) : Prop where
  node : Rev.node r = Rev.node c
  inStep : Rev.tag c = .tx t ∨ InStep s c → InStep s' r
  other : ∀ m, sib m → m ≠ Rev.node c → s'.latest? m = s.latest? m
  twin : ∀ d, Rev.node d = Rev.node c → InStep s d → Rev.content d = Rev.content c → InStep s' d

/-- 一つの field の merge の条件。`V` は既に訪れた node である。 -/
structure Tour (t : TxId) (s₀ : State) (sib : NodeId → Prop)
    (I : (NodeId → Prop) → State → Prop) (mr : Rev → Op (Option Rev)) (V : NodeId → Prop)
    (f : ChildField) (forkList srcList dstList : List Rev) : Prop where
  mono : ∀ {V V' : NodeId → Prop}, (∀ v, V v → V' v) → ∀ s, I V s → I V' s
  frozen : ∀ {V : NodeId → Prop} {s : State} {m : NodeId}, I V s → sib m → ¬V m →
    s.latest? m = s₀.latest? m
  visit : ∀ c ∈ srcList, ∀ V s, ¬V (Rev.node c) → I V s →
    wp (mr c) (fun o s' => I (fun v => V v ∨ v = Rev.node c) s' ∧
      ∃ r, o = some r ∧ Visited t sib c r s s') (fun _ _ => True) s
  idle : ∀ c, Rev.tag c ≠ .tx t → mr c = pure (some c)
  untagged : ∀ d ∈ dstList, Rev.tag d ≠ .tx t
  sibling : ∀ c ∈ srcList ++ dstList, sib (Rev.node c)
  unseen : ∀ c ∈ srcList ++ dstList, ¬V (Rev.node c)
  coherent : ∀ d ∈ dstList, InStep s₀ d
  fresh : ∀ x ∈ srcList, ¬InStep s₀ x →
    if Rev.hash x ∈ forkList.map Rev.hash then dstList ≠ forkList else Rev.tag x = .tx t
  content : ∀ x ∈ srcList, ∀ d ∈ dstList, Rev.hash d = Rev.hash x → Rev.content d = Rev.content x
  unique : ∀ key, f.key = some key →
    UniqueKeys key forkList ∧ UniqueKeys key srcList ∧ UniqueKeys key dstList
  keys : ∀ key, f.key = some key → ∀ c ∈ srcList ++ dstList, ∀ c' ∈ srcList ++ dstList,
    Rev.node c = Rev.node c' → Rev.keyIn key c = Rev.keyIn key c'
  lone : f.key = none → (∀ c ∈ srcList, Rev.tag c ≠ .tx t) ∨ ∃ c, srcList = [c]
  stems : f.key = none → ∀ x ∈ srcList, ∃ y ∈ forkList, Rev.node y = Rev.node x

section Loops

variable {sib V : NodeId → Prop} {I : (NodeId → Prop) → State → Prop}
variable {mr : Rev → Op (Option Rev)} {f : ChildField} {forkList srcList dstList : List Rev}
variable {key : String}

/-- `V` と、もう訪れることのない src の子の node。`todo` はこれから訪れる key である。 -/
def past (key : String) (srcList : List Rev) (V : NodeId → Prop) (todo : List (Option Value))
    (v : NodeId) : Prop :=
  V v ∨ ∃ x ∈ srcList, Rev.node x = v ∧ Rev.keyIn key x ∉ todo

theorem InStep.of_other {c r y : Rev} (hv : Visited t sib c r s s') (hy : InStep s y)
    (hs : sib (Rev.node y)) (hne : Rev.node y ≠ Rev.node c) : InStep s' y :=
  hy.congr (hv.other _ hs hne)

theorem Tour.not_past (h : Tour t s₀ sib I mr V f forkList srcList dstList)
    (hk : f.key = some key) {c : Rev} (hc : c ∈ srcList ++ dstList) {todo : List (Option Value)}
    (hin : Rev.keyIn key c ∈ todo) : ¬past key srcList V todo (Rev.node c) := by
  rintro (hv | ⟨x, hx, hn, hd⟩)
  · exact h.unseen c hc hv
  · rw [h.keys key hk x (List.mem_append_left _ hx) c hc hn] at hd
    exact hd hin

/-- まだ訪れていない子は、merge の前と同じように揃っている。 -/
theorem Tour.inStep_of_todo (h : Tour t s₀ sib I mr V f forkList srcList dstList)
    (hk : f.key = some key) {c : Rev} (hc : c ∈ srcList ++ dstList) {todo : List (Option Value)}
    (hin : Rev.keyIn key c ∈ todo) (hI : I (past key srcList V todo) s) (hs : InStep s₀ c) :
    InStep s c :=
  hs.congr (h.frozen hI (h.sibling c hc) (h.not_past hk hc hin))

/-- key `k` の子を訪れる。 -/
theorem Tour.visit_key (h : Tour t s₀ sib I mr V f forkList srcList dstList)
    (hk : f.key = some key) {k : Option Value} {todo : List (Option Value)} (hnot : k ∉ todo)
    {c : Rev} (hc : c ∈ srcList) (hkey : Rev.keyIn key c = k)
    (hI : I (past key srcList V (k :: todo)) s) :
    wp (mr c) (fun o s' => I (past key srcList V todo) s' ∧
      ∃ r, o = some r ∧ Visited t sib c r s s') (fun _ _ => True) s := by
  have hin : Rev.keyIn key c ∈ k :: todo := by rw [hkey]; exact List.mem_cons_self
  refine wp_mono (h.visit c hc _ s (h.not_past hk (List.mem_append_left _ hc) hin) hI) ?_
    fun _ _ h => h
  rintro o s' ⟨hI', hr⟩
  refine ⟨h.mono ?_ s' hI', hr⟩
  rintro v ((hv | ⟨x, hx, hn, hd⟩) | rfl)
  · exact Or.inl hv
  · exact Or.inr ⟨x, hx, hn, fun hm => hd (List.mem_cons_of_mem _ hm)⟩
  · exact Or.inr ⟨c, hc, rfl, by rw [hkey]; exact hnot⟩

/-! ### dst が変わっていないとき -/

/-- src の列から始めた列。これから訪れる key の版は src のまま、他は揃っている。 -/
def OwnInv (key : String) (srcList : List Rev) (todo : List (Option Value))
    (l : List (Option Rev)) (s : State) : Prop :=
  ∃ m : List Rev, l = m.map some ∧ m.length = srcList.length ∧
    ∀ (j : Nat) (x r : Rev), srcList[j]? = some x → m[j]? = some r →
      Rev.node r = Rev.node x ∧ (Rev.keyIn key x ∈ todo → r = x) ∧
        (Rev.keyIn key x ∉ todo → InStep s r)

/-- dst が変わっていなければ、src の版は揃っているか、枝分かれから変わった `t` の枝の版である。 -/
theorem Tour.fresh_own (h : Tour t s₀ sib I mr V f forkList srcList forkList) {x : Rev}
    (hx : x ∈ srcList) :
    InStep s₀ x ∨ (Rev.tag x = .tx t ∧ Rev.hash x ∉ forkList.map Rev.hash) := by
  by_cases hs : InStep s₀ x
  · exact Or.inl hs
  · have hf := h.fresh x hx hs
    split at hf
    · exact absurd rfl hf
    · next hh => exact Or.inr ⟨hf, hh⟩

/-- 一つの子を訪れて、その位置に入れる。 -/
theorem Tour.own_step (h : Tour t s₀ sib I mr V f forkList srcList forkList)
    (hk : f.key = some key) {k : Option Value} {todo : List (Option Value)} (hnot : k ∉ todo)
    {l : List (Option Rev)} {idx : Nat} {c : Rev}
    (hI : I (past key srcList V (k :: todo)) s) (hl : OwnInv key srcList (k :: todo) l s)
    (hlook : look srcList (keymap key srcList) k = some (idx, c)) :
    wp (mr c) (fun o s' => o ≠ none ∧ I (past key srcList V todo) s' ∧
      OwnInv key srcList todo (l.set idx o) s') (fun _ _ => True) s := by
  obtain ⟨-, hu, -⟩ := h.unique key hk
  obtain ⟨hidx, hkey⟩ := (look_eq_some hu).mp hlook
  have hc := List.mem_of_getElem? hidx
  refine wp_mono (h.visit_key hk hnot hc hkey hI) ?_ fun _ _ h => h
  rintro o s' ⟨hI', r, rfl, hv⟩
  obtain ⟨m, rfl, hlen, hm⟩ := hl
  refine ⟨by simp, hI', m.set idx r, by rw [List.map_set], by simp [hlen], fun j x y hx hy => ?_⟩
  rw [List.getElem?_set] at hy
  by_cases hj : idx = j
  · subst hj
    rw [hidx] at hx
    cases hx
    rw [if_pos rfl] at hy
    split at hy
    · cases hy
      refine ⟨hv.node, fun hin => absurd (hkey ▸ hin) hnot, fun _ => hv.inStep ?_⟩
      rcases h.fresh_own hc with hs | ⟨htag, -⟩
      · exact Or.inr (h.inStep_of_todo hk (List.mem_append_left _ hc)
          (by rw [hkey]; exact List.mem_cons_self) hI hs)
      · exact Or.inl htag
    · cases hy
  · -- 他の位置の版は、訪れた node のものではない
    rw [if_neg hj] at hy
    obtain ⟨hn, htodo, hdone⟩ := hm j x y hx hy
    have hxm := List.mem_of_getElem? hx
    have hne : Rev.keyIn key x ≠ k := fun he =>
      hj (KeyedList.index_unique hu hidx hx (hkey.trans he.symm))
    refine ⟨hn, fun hin => htodo (List.mem_cons_of_mem _ hin), fun hnin => ?_⟩
    refine InStep.of_other hv (hdone ?_) (by rw [hn]; exact h.sibling x (List.mem_append_left _ hxm))
      ?_
    · simp [hne, hnin]
    · intro he
      rw [hn] at he
      exact hne ((h.keys key hk x (List.mem_append_left _ hxm) c (List.mem_append_left _ hc)
        he).trans hkey)

/-- 増えても変わってもいない key の版は、枝分かれの版と hash が同じである。 -/
theorem hash_mem_of_unchanged (hu : UniqueKeys key forkList) (husrc : UniqueKeys key srcList)
    {x : Rev} (hx : x ∈ srcList)
    (hadd : Rev.keyIn key x ∉ (analyzeChanges key forkList srcList).addedKeys)
    (hch : Rev.keyIn key x ∉ (analyzeChanges key forkList srcList).changedKeys) :
    Rev.hash x ∈ forkList.map Rev.hash := by
  rw [mem_addedKeys hu husrc, not_and, not_not] at hadd
  obtain ⟨y, hy, hyk⟩ := mem_keysOf.mp (hadd (mem_keysOf.mpr ⟨x, hx, rfl⟩))
  refine List.mem_map.mpr ⟨y, hy, ?_⟩
  by_contra hne
  exact hch ((mem_changedKeys hu husrc).mpr ⟨y, hy, x, hx, hyk, rfl, hne⟩)

/-- 増えた key や変わった key の版は、枝分かれのどの版とも hash が違う。 -/
theorem hash_notMem_of_changed (hu : UniqueKeys key forkList) (husrc : UniqueKeys key srcList)
    {x : Rev} (hx : x ∈ srcList)
    (hk : Rev.keyIn key x ∈ (analyzeChanges key forkList srcList).addedKeys ∨
      Rev.keyIn key x ∈ (analyzeChanges key forkList srcList).changedKeys) :
    Rev.hash x ∉ forkList.map Rev.hash := by
  intro hm
  obtain ⟨y, hy, hh⟩ := List.mem_map.mp hm
  have hyk : Rev.keyIn key y = Rev.keyIn key x := by
    unfold Rev.keyIn; rw [Rev.config_eq_of_hash_eq hh]
  rcases hk with hk | hk
  · exact ((mem_addedKeys hu husrc).mp hk).2 (mem_keysOf.mpr ⟨y, hy, hyk⟩)
  · obtain ⟨r1, hr1, r2, hr2, hk1, hk2, hne⟩ := (mem_changedKeys hu husrc).mp hk
    rw [List.inj_on_of_nodup_map hu hr1 hy (hk1.trans hyk.symm),
      List.inj_on_of_nodup_map husrc hr2 hx hk2] at hne
    exact hne hh

/-- merge の後の列。どの版も揃っていて、src か dst にある node のものである。 -/
def InStepList (srcList dstList : List Rev) (l : List (Option Rev)) (s : State) : Prop :=
  ∃ m : List Rev, l = m.map some ∧
    ∀ r ∈ m, InStep s r ∧ ∃ y ∈ srcList ++ dstList, Rev.node y = Rev.node r

theorem Tour.enough (h : Tour t s₀ sib I mr V f forkList srcList dstList)
    {todo : List (Option Value)} : ∀ s, I (past key srcList V todo) s → I (joined srcList V) s := by
  refine h.mono ?_
  rintro v (hv | ⟨x, hx, hn, -⟩)
  · exact Or.inl hv
  · exact Or.inr ⟨x, hx, hn⟩

theorem Tour.begin (h : Tour t s₀ sib I mr V f forkList srcList dstList)
    {todo : List (Option Value)} : ∀ s, I V s → I (past key srcList V todo) s :=
  h.mono fun _ hv => Or.inl hv

theorem Tour.own (h : Tour t s₀ sib I mr V f forkList srcList forkList) (hk : f.key = some key)
    (hI : I V s) :
    wp (mergeKeyedOwn mr key forkList srcList) (fun p s' => I (joined srcList V) s' ∧
      InStepList srcList forkList p.1 s') (fun _ _ => True) s := by
  obtain ⟨hu, husrc, -⟩ := h.unique key hk
  -- 増えた key を訪れる間は、変わった key がまだ残っている
  let Inv : List (Option Value) → List (Option Value) → List (Option Rev) → State → Prop :=
    fun rest ks l s => (ks ++ rest).Nodup ∧ I (past key srcList V (ks ++ rest)) s ∧
      OwnInv key srcList (ks ++ rest) l s
  have hstep : ∀ rest k ks l s idx r, Inv rest (k :: ks) l s →
      look srcList (keymap key srcList) k = some (idx, r) →
      wp (mr r) (fun o s' => o ≠ none ∧ Inv rest ks (l.set idx o) s') (fun _ _ => True) s := by
    rintro rest k ks l s idx r ⟨hnd, hI, hl⟩ hlook
    rw [List.cons_append, List.nodup_cons] at hnd
    refine wp_mono (h.own_step hk hnd.1 hI hl hlook) ?_ fun _ _ h => h
    exact fun o s' ho => ⟨ho.1, hnd.2, ho.2.1, ho.2.2⟩
  have hnd := nodup_addedKeys_changedKeys hu husrc
  have hinit : OwnInv key srcList ((analyzeChanges key forkList srcList).addedKeys
      ++ (analyzeChanges key forkList srcList).changedKeys) (srcList.map some) s := by
    refine ⟨srcList, rfl, rfl, fun j x r hx hr => ?_⟩
    rw [hx] at hr
    cases hr
    refine ⟨rfl, fun _ => rfl, fun hnot => ?_⟩
    rw [List.mem_append, not_or] at hnot
    have hxm := List.mem_of_getElem? hx
    have hmem := List.mem_append_left forkList hxm
    rcases h.fresh_own hxm with hs | ⟨-, hh⟩
    · exact hs.congr (h.frozen hI (h.sibling x hmem) (h.unseen x hmem))
    · exact absurd (hash_mem_of_unchanged hu husrc hxm hnot.1 hnot.2) hh
  unfold mergeKeyedOwn
  rw [wp_bind]
  refine wp_mono (ownAdded_wp (Inv (analyzeChanges key forkList srcList).changedKeys)
    (fun _ _ _ _ _ _ => trivial) (fun k ks l s idx r hi hr => wp_mono (hstep _ k ks l s idx r hi hr)
      (fun o s' ho => ⟨fun hn => absurd hn ho.1, fun _ => ho.2⟩) fun _ _ h => h) _ _ [] s
    ⟨hnd, h.begin s hI, hinit⟩) ?_ fun _ _ h => h
  rintro p s₁ ⟨-, hI1, hl1⟩
  rw [List.nil_append] at hI1 hl1
  dsimp only
  rw [wp_bind]
  refine wp_mono (ownChanged_wp (Inv []) (fun _ _ _ _ _ _ => trivial)
    (fun k ks l s idx r hi hr => wp_mono (hstep _ k ks l s idx r hi hr)
      (fun o s' ho => ho.2) fun _ _ h => h) _ _ s₁
    ⟨by rw [List.append_nil]; exact nodup_changedKeys hu, by rw [List.append_nil]; exact hI1,
      by rw [List.append_nil]; exact hl1⟩) ?_ fun _ _ h => h
  rintro l s₂ ⟨-, hI2, m, rfl, hlen, hm⟩
  refine ⟨h.enough s₂ hI2, m, rfl, fun r hr => ?_⟩
  obtain ⟨j, hj⟩ := List.mem_iff_getElem?.mp hr
  obtain ⟨hlt, -⟩ := List.getElem?_eq_some_iff.mp hj
  rw [hlen] at hlt
  have hx := List.getElem?_eq_getElem hlt
  obtain ⟨hn, -, hs⟩ := hm j _ r hx hj
  exact ⟨hs (by simp), _, List.mem_append_left _ (List.getElem_mem hlt), hn.symm⟩

/-! ### 両側が変わったとき -/

/-- もう動かない版。揃っていて、その node をこれから訪れることはない。 -/
structure Done (key : String) (srcList dstList : List Rev) (todo : List (Option Value))
    (s : State) (r : Rev) : Prop where
  inStep : InStep s r
  node : ∃ y ∈ srcList ++ dstList, Rev.node y = Rev.node r
  rest : ∀ x ∈ srcList, Rev.node x = Rev.node r → Rev.keyIn key x ∉ todo

/-- dst の列から始めた列。これから訪れる key の版は dst のまま、他はもう動かない。 -/
def BothInv (key : String) (srcList dstList : List Rev) (todo : List (Option Value))
    (l : List (Option Rev)) (s : State) : Prop :=
  ∃ m : List Rev, l = m.map some ∧ dstList.length ≤ m.length ∧
    ∀ (j : Nat) (r : Rev), m[j]? = some r → (dstList[j]? = some r ∧ Rev.keyIn key r ∈ todo) ∨
      Done key srcList dstList todo s r

/-- 兄弟を訪れても、もう動かない版はそのままである。 -/
theorem Tour.done_after (h : Tour t s₀ sib I mr V f forkList srcList dstList)
    {k : Option Value} {todo : List (Option Value)} {c r y : Rev} (hc : c ∈ srcList)
    (hkey : Rev.keyIn key c = k) (hv : Visited t sib c r s s')
    (hy : Done key srcList dstList (k :: todo) s y) : Done key srcList dstList todo s' y := by
  obtain ⟨z, hz, hzn⟩ := hy.node
  refine ⟨InStep.of_other hv hy.inStep (by rw [← hzn]; exact h.sibling z hz) ?_, hy.node, ?_⟩
  · intro he
    exact hy.rest c hc he.symm (by rw [hkey]; exact List.mem_cons_self)
  · exact fun x hx hn hin => hy.rest x hx hn (List.mem_cons_of_mem _ hin)

/-- dst にあって、key `k` をもう訪れることのない版。 -/
theorem Tour.done_of_dst (h : Tour t s₀ sib I mr V f forkList srcList dstList)
    (hk : f.key = some key) {todo : List (Option Value)} {d : Rev} (hd : d ∈ dstList)
    (hnot : Rev.keyIn key d ∉ todo) (hs : InStep s d) : Done key srcList dstList todo s d := by
  have hd := List.mem_append_right srcList hd
  refine ⟨hs, ⟨d, hd, rfl⟩, fun x hx hn => ?_⟩
  rw [h.keys key hk x (List.mem_append_left _ hx) d hd hn]
  exact hnot

/-- merge した版。 -/
theorem Tour.done_of_visit (h : Tour t s₀ sib I mr V f forkList srcList dstList)
    (hk : f.key = some key) {todo : List (Option Value)} {c r : Rev} (hc : c ∈ srcList)
    (hnot : Rev.keyIn key c ∉ todo) (hv : Visited t sib c r s s') (hr : InStep s' r) :
    Done key srcList dstList todo s' r := by
  have hc' := List.mem_append_left dstList hc
  refine ⟨hr, ⟨c, hc', hv.node.symm⟩, fun x hx hn => ?_⟩
  rw [h.keys key hk x (List.mem_append_left _ hx) c hc' (hn.trans hv.node)]
  exact hnot

/-- 訪れる子は、`t` の枝の版か、揃っている版である。 -/
theorem Tour.fresh_changed (h : Tour t s₀ sib I mr V f forkList srcList dstList)
    (hk : f.key = some key) {todo : List (Option Value)} {c : Rev} (hc : c ∈ srcList)
    (hch : Rev.keyIn key c ∈ (analyzeChanges key forkList srcList).addedKeys ∨
      Rev.keyIn key c ∈ (analyzeChanges key forkList srcList).changedKeys)
    (hin : Rev.keyIn key c ∈ todo) (hI : I (past key srcList V todo) s) :
    Rev.tag c = .tx t ∨ InStep s c := by
  obtain ⟨hu, husrc, -⟩ := h.unique key hk
  by_cases hs : InStep s₀ c
  · exact Or.inr (h.inStep_of_todo hk (List.mem_append_left _ hc) hin hI hs)
  · have hf := h.fresh c hc hs
    rw [if_neg (hash_notMem_of_changed hu husrc hc hch)] at hf
    exact Or.inl hf

/-- 同じ子が両側で加わった。列は変わらない。 -/
theorem Tour.both_kept (h : Tour t s₀ sib I mr V f forkList srcList dstList)
    (hk : f.key = some key) {k : Option Value} {todo : List (Option Value)}
    {l : List (Option Rev)} (hI : I (past key srcList V (k :: todo)) s)
    (hl : BothInv key srcList dstList (k :: todo) l s) :
    I (past key srcList V todo) s ∧ BothInv key srcList dstList todo l s := by
  refine ⟨h.mono ?_ s hI, ?_⟩
  · rintro v (hv | ⟨x, hx, hn, hd⟩)
    · exact Or.inl hv
    · exact Or.inr ⟨x, hx, hn, fun hm => hd (List.mem_cons_of_mem _ hm)⟩
  · obtain ⟨m, rfl, hlen, hm⟩ := hl
    refine ⟨m, rfl, hlen, fun j r hr => ?_⟩
    rcases hm j r hr with ⟨hd, hin⟩ | hdone
    · have hdm := List.mem_of_getElem? hd
      by_cases hin' : Rev.keyIn key r ∈ todo
      · exact Or.inl ⟨hd, hin'⟩
      · refine Or.inr (h.done_of_dst hk hdm hin' ?_)
        exact h.inStep_of_todo hk (List.mem_append_right _ hdm) hin hI (h.coherent r hdm)
    · exact Or.inr ⟨hdone.inStep, hdone.node, fun x hx hn hin =>
        hdone.rest x hx hn (List.mem_cons_of_mem _ hin)⟩

/-- src だけで増えた子を末尾に加える。 -/
theorem Tour.both_append (h : Tour t s₀ sib I mr V f forkList srcList dstList)
    (hk : f.key = some key) {k : Option Value} {todo : List (Option Value)} (hnot : k ∉ todo)
    {l : List (Option Rev)} {c : Rev} (hc : c ∈ srcList) (hkey : Rev.keyIn key c = k)
    (hadd : k ∈ (analyzeChanges key forkList srcList).addedKeys)
    (hdst : k ∉ keysOf key dstList) (hI : I (past key srcList V (k :: todo)) s)
    (hl : BothInv key srcList dstList (k :: todo) l s) :
    wp (mr c) (fun o s' => o ≠ none ∧ I (past key srcList V todo) s' ∧
      BothInv key srcList dstList todo (l ++ [o]) s') (fun _ _ => True) s := by
  have hin : Rev.keyIn key c ∈ k :: todo := by rw [hkey]; exact List.mem_cons_self
  refine wp_mono (h.visit_key hk hnot hc hkey hI) ?_ fun _ _ h => h
  rintro o s' ⟨hI', r, rfl, hv⟩
  obtain ⟨m, rfl, hlen, hm⟩ := hl
  refine ⟨by simp, hI', m ++ [r], by simp, by simp; omega, fun j y hy => ?_⟩
  rw [List.getElem?_append] at hy
  split at hy
  · rcases hm j y hy with ⟨hd, hin'⟩ | hdone
    · have hne : Rev.keyIn key y ≠ k := fun he =>
        hdst (mem_keysOf.mpr ⟨y, List.mem_of_getElem? hd, he⟩)
      exact Or.inl ⟨hd, List.mem_of_ne_of_mem hne hin'⟩
    · exact Or.inr (h.done_after hc hkey hv hdone)
  · obtain rfl : y = r := by simpa using List.mem_of_getElem? hy
    refine Or.inr (h.done_of_visit hk hc (hkey ▸ hnot) hv (hv.inStep ?_))
    exact h.fresh_changed hk hc (Or.inl (hkey ▸ hadd)) hin hI

/-- 両側で同じように変わった子。列は変わらないが、src の枝は merge しておく。 -/
theorem Tour.both_twin (h : Tour t s₀ sib I mr V f forkList srcList dstList)
    (hk : f.key = some key) {k : Option Value} {todo : List (Option Value)} (hnot : k ∉ todo)
    {l : List (Option Rev)} {c d : Rev} (hc : c ∈ srcList) (hkey : Rev.keyIn key c = k)
    (hd : d ∈ dstList) (hdk : Rev.keyIn key d = k) (hh : Rev.hash d = Rev.hash c)
    (hI : I (past key srcList V (k :: todo)) s)
    (hl : BothInv key srcList dstList (k :: todo) l s) :
    wp (mr c) (fun _ s' => I (past key srcList V todo) s' ∧
      BothInv key srcList dstList todo l s') (fun _ _ => True) s := by
  obtain ⟨-, -, hudst⟩ := h.unique key hk
  refine wp_mono (h.visit_key hk hnot hc hkey hI) ?_ fun _ _ h => h
  rintro o s' ⟨hI', r, rfl, hv⟩
  obtain ⟨m, rfl, hlen, hm⟩ := hl
  refine ⟨hI', m, rfl, hlen, fun j y hy => ?_⟩
  rcases hm j y hy with ⟨hdy, hin⟩ | hdone
  · have hym := List.mem_of_getElem? hdy
    have hys := h.inStep_of_todo hk (List.mem_append_right _ hym) hin hI (h.coherent y hym)
    by_cases hne : Rev.keyIn key y = k
    · -- key が `k` の版は `d` である。中身が同じなので、merge の後も揃っている
      obtain rfl := List.inj_on_of_nodup_map hudst hym hd (hne.trans hdk.symm)
      refine Or.inr (h.done_of_dst hk hym (hne ▸ hnot) ?_)
      by_cases hnode : Rev.node y = Rev.node c
      · exact hv.twin y hnode hys (h.content c hc y hym hh)
      · exact InStep.of_other hv hys (h.sibling y (List.mem_append_right _ hym)) hnode
    · exact Or.inl ⟨hdy, List.mem_of_ne_of_mem hne hin⟩
  · exact Or.inr (h.done_after hc hkey hv hdone)

/-- src で変わった子を、dst の列の位置に入れる。 -/
theorem Tour.both_set (h : Tour t s₀ sib I mr V f forkList srcList dstList)
    (hk : f.key = some key) {k : Option Value} {todo : List (Option Value)} (hnot : k ∉ todo)
    {l : List (Option Rev)} {c d : Rev} {idx : Nat} (hc : c ∈ srcList)
    (hkey : Rev.keyIn key c = k) (hch : k ∈ (analyzeChanges key forkList srcList).changedKeys)
    (hd : dstList[idx]? = some d) (hdk : Rev.keyIn key d = k)
    (hI : I (past key srcList V (k :: todo)) s)
    (hl : BothInv key srcList dstList (k :: todo) l s) :
    wp (mr c) (fun o s' => I (past key srcList V todo) s' ∧
      BothInv key srcList dstList todo (l.set idx o) s') (fun _ _ => True) s := by
  obtain ⟨-, -, hudst⟩ := h.unique key hk
  have hin : Rev.keyIn key c ∈ k :: todo := by rw [hkey]; exact List.mem_cons_self
  refine wp_mono (h.visit_key hk hnot hc hkey hI) ?_ fun _ _ h => h
  rintro o s' ⟨hI', r, rfl, hv⟩
  obtain ⟨m, rfl, hlen, hm⟩ := hl
  refine ⟨hI', m.set idx r, by rw [List.map_set], by simp [hlen], fun j y hy => ?_⟩
  rw [List.getElem?_set] at hy
  by_cases hj : idx = j
  · rw [if_pos hj] at hy
    split at hy
    · cases hy
      refine Or.inr (h.done_of_visit hk hc (hkey ▸ hnot) hv (hv.inStep ?_))
      exact h.fresh_changed hk hc (Or.inr (hkey ▸ hch)) hin hI
    · cases hy
  · rw [if_neg hj] at hy
    rcases hm j y hy with ⟨hdy, hin'⟩ | hdone
    · have hne : Rev.keyIn key y ≠ k := fun he =>
        hj (KeyedList.index_unique hudst hd hdy (hdk.trans he.symm))
      exact Or.inl ⟨hdy, List.mem_of_ne_of_mem hne hin'⟩
    · exact Or.inr (h.done_after hc hkey hv hdone)

theorem Tour.both_init (h : Tour t s₀ sib I mr V f forkList srcList dstList)
    (hk : f.key = some key) (todo : List (Option Value)) (hI : I V s) :
    BothInv key srcList dstList todo (dstList.map some) s := by
  refine ⟨dstList, rfl, Nat.le_refl _, fun j r hr => ?_⟩
  have hd := List.mem_of_getElem? hr
  have hmem := List.mem_append_right srcList hd
  by_cases hin : Rev.keyIn key r ∈ todo
  · exact Or.inl ⟨hr, hin⟩
  · exact Or.inr (h.done_of_dst hk hd hin
      ((h.coherent r hd).congr (h.frozen hI (h.sibling r hmem) (h.unseen r hmem))))

/-- 訪れる key が残っていなければ、どの版も揃っている。 -/
theorem BothInv.inStepList {l : List (Option Rev)} (h : BothInv key srcList dstList [] l s) :
    InStepList srcList dstList l s := by
  obtain ⟨m, rfl, -, hm⟩ := h
  refine ⟨m, rfl, fun r hr => ?_⟩
  obtain ⟨j, hj⟩ := List.mem_iff_getElem?.mp hr
  rcases hm j r hj with ⟨-, hin⟩ | hdone
  · cases hin
  · exact ⟨hdone.inStep, hdone.node⟩

theorem InStepList.eraseIdx {l : List (Option Rev)} (h : InStepList srcList dstList l s) (i : Nat) :
    InStepList srcList dstList (l.eraseIdx i) s := by
  obtain ⟨m, rfl, hm⟩ := h
  exact ⟨m.eraseIdx i, by rw [List.eraseIdx_map], fun r hr => hm r (List.mem_of_mem_eraseIdx hr)⟩

/-- `pop` は、列の版を減らすだけである。 -/
theorem bothRemoved_inStepList {dst : AnalyzeChanges} (ks : List (Option Value))
    {l : List (Option Rev)} (ch : List Change) (h : InStepList srcList dstList l s) :
    wp (bothRemoved dst ks l ch) (fun p s' => InStepList srcList dstList p.1 s ∧ s' = s)
      (fun _ _ => True) s := by
  refine bothRemoved_wp (fun _ l => InStepList srcList dstList l s) (fun _ _ _ _ _ => trivial)
    (fun _ _ _ h _ _ => h) (fun k ks l h _ _ => ?_) ks l ch h
  split
  · trivial
  · split
    · trivial
    · trivial
    · exact h.eraseIdx _

theorem Tour.both (h : Tour t s₀ sib I mr V f forkList srcList dstList) (hk : f.key = some key)
    (hI : I V s) :
    wp (mergeKeyedBoth mr key forkList srcList dstList) (fun p s' => I (joined srcList V) s' ∧
      InStepList srcList dstList p.1 s') (fun _ _ => True) s := by
  obtain ⟨hu, husrc, hudst⟩ := h.unique key hk
  have hnd := nodup_addedKeys_changedKeys hu husrc
  let Inv : List (Option Value) → List (Option Value) → List (Option Rev) → State → Prop :=
    fun rest ks l s => (ks ++ rest).Nodup ∧ I (past key srcList V (ks ++ rest)) s ∧
      BothInv key srcList dstList (ks ++ rest) l s
  unfold mergeKeyedBoth
  rw [wp_bind]
  refine wp_mono (bothAdded_wp (fun ks l s => (∀ k ∈ ks,
      k ∈ (analyzeChanges key forkList srcList).addedKeys) ∧
      Inv (analyzeChanges key forkList srcList).changedKeys ks l s) (fun _ _ _ _ _ _ => trivial)
    ?_ ?_ _ _ [] s ⟨fun _ h => h, hnd, h.begin s hI, h.both_init hk _ hI⟩) ?_ fun _ _ h => h
  · rintro k ks l s c ⟨hks, hnd, hI, hl⟩ hlook hadd
    rw [List.cons_append, List.nodup_cons] at hnd
    split
    · trivial
    · next d hlookd =>
      split
      · have hd := List.mem_of_getElem? (look_getElem? hlookd)
        rw [h.idle d.2 (h.untagged d.2 hd)]
        obtain ⟨hI', hl'⟩ := h.both_kept hk hI hl
        exact ⟨fun x hx => hks x (List.mem_cons_of_mem _ hx), hnd.2, hI', hl'⟩
      · trivial
  · rintro k ks l s c ⟨hks, hnd, hI, hl⟩ hlook hadd
    rw [List.cons_append, List.nodup_cons] at hnd
    obtain ⟨hidx, hkey⟩ := (look_eq_some husrc).mp hlook
    have hk' := hks k List.mem_cons_self
    have hdst : k ∉ keysOf key dstList := fun hin =>
      hadd ((mem_addedKeys hu hudst).mpr ⟨hin, ((mem_addedKeys hu husrc).mp hk').2⟩)
    refine wp_mono (h.both_append hk hnd.1 (List.mem_of_getElem? hidx) hkey hk' hdst hI hl) ?_
      fun _ _ h => h
    rintro o s' ⟨hne, hI', hl'⟩
    exact ⟨fun hn => absurd hn hne, fun _ =>
      ⟨fun x hx => hks x (List.mem_cons_of_mem _ hx), hnd.2, hI', hl'⟩⟩
  rintro p s₁ ⟨-, -, hI1, hl1⟩
  rw [List.nil_append] at hI1 hl1
  dsimp only
  rw [wp_bind]
  refine wp_mono (bothChanged_wp (fun ks l s => (∀ k ∈ ks,
      k ∈ (analyzeChanges key forkList srcList).changedKeys) ∧ Inv [] ks l s)
    (fun _ _ _ _ _ _ => trivial) (fun _ _ _ _ _ _ _ => trivial) ?_ _ _ s₁
    ⟨fun _ h => h, by rw [List.append_nil]; exact nodup_changedKeys hu, by rw [List.append_nil]; exact hI1,
      by rw [List.append_nil]; exact hl1⟩) ?_ fun _ _ h => h
  · rintro k ks l s c d ⟨hks, hnd, hI, hl⟩ - hlook hlookd
    rw [List.append_nil] at hnd hI hl
    obtain ⟨hnot, hnd⟩ := List.nodup_cons.mp hnd
    obtain ⟨hidx, hkey⟩ := (look_eq_some husrc).mp hlook
    obtain ⟨hidxd, hdk⟩ := (look_eq_some hudst).mp hlookd
    have hc := List.mem_of_getElem? hidx
    have next : ∀ {l' : List (Option Rev)} {s' : State}, I (past key srcList V ks) s' ∧
        BothInv key srcList dstList ks l' s' →
        (∀ x ∈ ks, x ∈ (analyzeChanges key forkList srcList).changedKeys) ∧ Inv [] ks l' s' := by
      rintro l' s' ⟨hI', hl'⟩
      refine ⟨fun x hx => hks x (List.mem_cons_of_mem _ hx), ?_, ?_, ?_⟩ <;>
        rw [List.append_nil] <;> assumption
    split
    · next hh =>
      exact wp_mono (h.both_twin hk hnot hc hkey (List.mem_of_getElem? hidxd) hdk hh.2 hI hl)
        (fun _ _ hs => next hs) fun _ _ h => h
    · split
      · trivial
      · exact wp_mono (h.both_set hk hnot hc hkey (hks k List.mem_cons_self) hidxd hdk hI hl)
          (fun _ _ hs => next hs) fun _ _ h => h
  · rintro l s₂ ⟨-, -, hI2, hl2⟩
    refine wp_mono (bothRemoved_inStepList _ _ hl2.inStepList) ?_ fun _ _ h => h
    rintro q _ ⟨hq, rfl⟩
    exact ⟨h.enough _ hI2, hq⟩

/-! ### 一つの field -/

/-- `t` の枝の版の無い列では、何も訪れない。 -/
theorem Tour.mapList_idle (h : Tour t s₀ sib I mr V f forkList srcList dstList) (s : State) :
    ∀ l : List Rev, (∀ c ∈ l, Rev.tag c ≠ .tx t) →
      Exec.mapList mr l s = (pure (l.map some) : Op (List (Option Rev))) s
  | [], _ => rfl
  | c :: l, hl => by
    rw [Exec.mapList, h.idle c (hl c List.mem_cons_self), pure_bind_apply, bind_apply,
      h.mapList_idle s l fun x hx => hl x (List.mem_cons_of_mem _ hx)]
    rfl

/-- key の無い列を順に訪れる。 -/
theorem Tour.mapList (h : Tour t s₀ sib I mr V f forkList srcList forkList) (hk : f.key = none)
    (hI : I V s) :
    wp (Exec.mapList mr srcList) (fun l s' => I (joined srcList V) s' ∧
      InStepList srcList forkList l s') (fun _ _ => True) s := by
  have keep : I V s → I (joined srcList V) s := h.mono (fun _ hv => Or.inl hv) s
  have fresh : ∀ c ∈ srcList, Rev.tag c ≠ .tx t → InStep s c := by
    intro c hc htag
    have hmem := List.mem_append_left forkList hc
    rcases h.fresh_own hc with hs | ⟨he, -⟩
    · exact hs.congr (h.frozen hI (h.sibling c hmem) (h.unseen c hmem))
    · exact absurd he htag
  by_cases hall : ∀ c ∈ srcList, Rev.tag c ≠ .tx t
  · refine wp_of_eq (h.mapList_idle s srcList hall) ?_
    exact ⟨keep hI, srcList, rfl, fun r hr =>
      ⟨fresh r hr (hall r hr), r, List.mem_append_left _ hr, rfl⟩⟩
  · rcases h.lone hk with hidle | ⟨c, rfl⟩
    · exact absurd hidle hall
    · have hc : c ∈ [c] := List.mem_cons_self
      have htag : Rev.tag c = .tx t := by
        by_contra hne
        exact hall fun x hx => by rw [List.mem_singleton.mp hx]; exact hne
      rw [Exec.mapList, wp_bind]
      refine wp_mono (h.visit c hc V s (h.unseen c (List.mem_append_left _ hc)) hI) ?_
        fun _ _ h => h
      rintro o s' ⟨hI', r, rfl, hv⟩
      refine ⟨h.mono ?_ s' hI', [r], rfl, fun y hy => ?_⟩
      · rintro v (hv | rfl)
        · exact Or.inl hv
        · exact Or.inr ⟨c, hc, rfl⟩
      · rw [List.mem_singleton.mp hy]
        exact ⟨hv.inStep (Or.inl htag), c, List.mem_append_left _ hc, hv.node.symm⟩

/-- 一つの field の merge。 -/
theorem Tour.mergeField (h : Tour t s₀ sib I mr V f forkList srcList dstList) (hI : I V s) :
    wp (mergeField mr f forkList srcList dstList) (fun p s' => I (joined srcList V) s' ∧
      InStepList srcList dstList p.1 s') (fun _ _ => True) s := by
  have kept : ∀ {s'}, I V s' → I (joined srcList V) s' ∧
      InStepList srcList dstList (dstList.map some) s' := by
    intro s' hI'
    refine ⟨h.mono (fun _ hv => Or.inl hv) s' hI', dstList, rfl, fun r hr => ?_⟩
    have hmem := List.mem_append_right srcList hr
    exact ⟨(h.coherent r hr).congr (h.frozen hI' (h.sibling r hmem) (h.unseen r hmem)), r, hmem, rfl⟩
  unfold Voltha.Config.mergeField
  split
  · -- 列が同じなら、src の版も commit された branch のものである
    next he =>
    rw [wp_bind]
    refine wp_of_eq (h.mapList_idle s srcList fun c hc => h.untagged c (he ▸ hc)) ?_
    exact kept hI
  · next hne =>
    cases hk : f.kind with
    | keyed key kt =>
      have hkey : f.key = some key := by rw [ChildField.key, hk]
      dsimp only
      split
      · next he => subst he; exact h.own hkey hI
      · exact h.both hkey hI
    | single | list =>
      have hkey : f.key = none := by rw [ChildField.key, hk]
      dsimp only
      split
      · next he =>
        subst he
        split
        · trivial
        · rw [wp_bind]
          exact wp_mono (h.mapList hkey hI) (fun _ _ hs => hs) fun _ _ h => h
      · split
        · trivial
        · exact kept hI

/-! ### 中身の同じ列 -/

theorem keysOf_of_content {l l' : List Rev} (h : l.map Rev.content = l'.map Rev.content) :
    keysOf key l = keysOf key l' := by
  have hkey : keysOf key = fun l => (l.map Rev.content).map fun m => m.label.attr key := by
    funext l
    rw [keysOf, List.map_map]
    refine List.map_congr_left fun r _ => ?_
    simp only [Function.comp_apply, Rev.label_content]
    rfl
  rw [hkey]
  exact congrArg _ h

theorem exists_of_content {l l' : List Rev} (h : l.map Rev.content = l'.map Rev.content) {x : Rev}
    (hx : x ∈ l) : ∃ y ∈ l', Rev.content y = Rev.content x := by
  have : Rev.content x ∈ l'.map Rev.content := by rw [← h]; exact List.mem_map_of_mem hx
  exact List.mem_map.mp this

/-- 中身の同じ列どうしでは、増えた key も変わった key も無い。 -/
theorem unchanged_of_content (hu : UniqueKeys key forkList) (husrc : UniqueKeys key srcList)
    (h : srcList.map Rev.content = forkList.map Rev.content) :
    (analyzeChanges key forkList srcList).addedKeys = [] ∧
      (analyzeChanges key forkList srcList).changedKeys = [] := by
  refine ⟨List.eq_nil_iff_forall_not_mem.mpr fun k hk => ?_,
    List.eq_nil_iff_forall_not_mem.mpr fun k hk => ?_⟩
  · obtain ⟨hin, hnot⟩ := (mem_addedKeys hu husrc).mp hk
    rw [keysOf_of_content h] at hin
    exact hnot hin
  · obtain ⟨r1, hr1, r2, hr2, hk1, hk2, hne⟩ := (mem_changedKeys hu husrc).mp hk
    obtain ⟨y, hy, hc⟩ := exists_of_content h hr2
    have hyk : Rev.keyIn key y = k := by
      rw [← hk2]
      unfold Rev.keyIn
      rw [← Rev.label_content, ← Rev.label_content, hc]
    rw [List.inj_on_of_nodup_map hu hr1 hy (hk1.trans hyk.symm)] at hne
    exact hne (Rev.hash_eq_of_content_eq hc)

/-- merge の後の列は、`dstList` と同じ中身を持つ。 -/
def SameContent (dstList : List Rev) (l : List (Option Rev)) : Prop :=
  ∃ m : List Rev, l = m.map some ∧ m.map Rev.content = dstList.map Rev.content

/-- src と dst の中身が同じなら、両側が変わった列の merge は dst の列を返す。 -/
theorem Tour.both_same (h : Tour t s₀ sib I mr V f forkList srcList dstList)
    (hk : f.key = some key) (hsame : srcList.map Rev.content = dstList.map Rev.content) :
    wp (mergeKeyedBoth mr key forkList srcList dstList) (fun p _ => SameContent dstList p.1)
      (fun _ _ => True) s := by
  obtain ⟨hu, husrc, hudst⟩ := h.unique key hk
  have hkeys : keysOf key srcList = keysOf key dstList := keysOf_of_content hsame
  -- 同じ key の版は、中身も同じである
  have hmatch : ∀ c ∈ srcList, ∀ d ∈ dstList, Rev.keyIn key d = Rev.keyIn key c →
      Rev.hash d = Rev.hash c := by
    intro c hc d hd he
    obtain ⟨y, hy, hcy⟩ := exists_of_content hsame hc
    have hyk : Rev.keyIn key y = Rev.keyIn key c := by
      unfold Rev.keyIn
      rw [← Rev.label_content, ← Rev.label_content, hcy]
    rw [List.inj_on_of_nodup_map hudst hd hy (he.trans hyk.symm)]
    exact Rev.hash_eq_of_content_eq hcy
  unfold mergeKeyedBoth
  rw [wp_bind]
  refine wp_mono (bothAdded_wp (fun ks l _ => l = dstList.map some ∧
      ∀ k ∈ ks, k ∈ (analyzeChanges key forkList srcList).addedKeys) (fun _ _ _ _ _ _ => trivial)
    ?_ ?_ _ _ [] s ⟨rfl, fun _ h => h⟩) ?_ fun _ _ h => h
  · rintro k ks l s c ⟨hl, hks⟩ hlook hadd
    split
    · trivial
    · split
      · exact wp_mono (wp_true _ s) (fun _ _ _ =>
          ⟨hl, fun x hx => hks x (List.mem_cons_of_mem _ hx)⟩) fun _ _ h => h
      · trivial
  · rintro k ks l s c ⟨hl, hks⟩ hlook hadd
    obtain ⟨hin, hnot⟩ := (mem_addedKeys hu husrc).mp (hks k List.mem_cons_self)
    rw [hkeys] at hin
    exact absurd ((mem_addedKeys hu hudst).mpr ⟨hin, hnot⟩) hadd
  rintro p s₁ ⟨hp, -⟩
  dsimp only
  rw [wp_bind, hp]
  refine wp_mono (bothChanged_wp (fun ks l _ => l = dstList.map some ∧
      ∀ k ∈ ks, k ∈ (analyzeChanges key forkList srcList).changedKeys)
    (fun _ _ _ _ _ _ => trivial) (fun _ _ _ _ _ _ _ => trivial) ?_ _ _ s₁
    ⟨rfl, fun _ h => h⟩) ?_ fun _ _ h => h
  · rintro k ks l s c d ⟨hl, hks⟩ - hlook hlookd
    obtain ⟨hidx, hkey⟩ := (look_eq_some husrc).mp hlook
    obtain ⟨hidxd, hdk⟩ := (look_eq_some hudst).mp hlookd
    have hc := List.mem_of_getElem? hidx
    have hd := List.mem_of_getElem? hidxd
    have hh := hmatch c.2 hc d.2 hd (hdk.trans hkey.symm)
    obtain ⟨r1, hr1, r2, hr2, hk1, hk2, hne⟩ :=
      (mem_changedKeys hu husrc).mp (hks k List.mem_cons_self)
    rw [List.inj_on_of_nodup_map husrc hr2 hc (hk2.trans hkey.symm), ← hh] at hne
    rw [if_pos ⟨(mem_changedKeys hu hudst).mpr ⟨r1, hr1, d.2, hd, hk1, hdk, hne⟩, hh⟩]
    exact wp_mono (wp_true _ s) (fun _ _ _ =>
      ⟨hl, fun x hx => hks x (List.mem_cons_of_mem _ hx)⟩) fun _ _ h => h
  · rintro l s₂ ⟨rfl, -⟩
    refine wp_mono (bothRemoved_wp (fun ks l => l = dstList.map some ∧
        ∀ k ∈ ks, k ∈ (analyzeChanges key forkList srcList).removedKeys)
      (fun _ _ _ _ _ => trivial) ?_ ?_ _ _ _ ⟨rfl, fun k hk => List.mem_reverse.mp hk⟩) ?_
      fun _ _ h => h
    · exact fun k ks l hl _ _ => ⟨hl.1, fun x hx => hl.2 x (List.mem_cons_of_mem _ hx)⟩
    · rintro k ks l ⟨-, hks⟩ - hnot
      obtain ⟨hin, hout⟩ := (mem_removedKeys hu husrc).mp (hks k List.mem_cons_self)
      rw [hkeys] at hout
      exact absurd ((mem_removedKeys hu hudst).mpr ⟨hin, hout⟩) hnot
    · rintro q _ ⟨⟨hq, -⟩, -⟩
      exact ⟨dstList, hq, rfl⟩

/-- 中身の同じ、key の無い列。訪れる子は、列にただ一つの子である。 -/
theorem Tour.mapList_same (h : Tour t s₀ sib I mr V f forkList srcList forkList)
    (hk : f.key = none) (hsame : srcList.map Rev.content = forkList.map Rev.content) (hI : I V s) :
    wp (Exec.mapList mr srcList) (fun l _ => SameContent forkList l) (fun _ _ => True) s := by
  by_cases hall : ∀ c ∈ srcList, Rev.tag c ≠ .tx t
  · refine wp_of_eq (h.mapList_idle s srcList hall) ?_
    exact ⟨srcList, rfl, hsame⟩
  · rcases h.lone hk with hidle | ⟨c, rfl⟩
    · exact absurd hidle hall
    have hc : c ∈ [c] := List.mem_cons_self
    have htag : Rev.tag c = .tx t := by
      by_contra hne
      exact hall fun x hx => by rw [List.mem_singleton.mp hx]; exact hne
    obtain ⟨d, rfl⟩ : ∃ d, forkList = [d] := by
      have hlen := congrArg List.length hsame
      simp only [List.length_map, List.length_cons, List.length_nil] at hlen
      exact List.length_eq_one_iff.mp hlen.symm
    have hcontent : Rev.content d = Rev.content c := by simpa using hsame.symm
    obtain ⟨y, hy, hnode⟩ := h.stems hk c hc
    rw [List.mem_singleton.mp hy] at hnode
    have hd : d ∈ [c] ++ [d] := by simp
    have hds := (h.coherent d List.mem_cons_self).congr
      (h.frozen hI (h.sibling d hd) (h.unseen d hd))
    rw [Exec.mapList, wp_bind]
    refine wp_mono (h.visit c hc V s (h.unseen c (List.mem_append_left _ hc)) hI) ?_
      fun _ _ h => h
    rintro o s' ⟨-, r, rfl, hv⟩
    -- 訪れた後の最新の版は、`r` とも `d` とも揃っている
    obtain ⟨rd, hrd, hcd⟩ := hv.twin d hnode hds hcontent
    obtain ⟨rr, hrr, hcr⟩ := hv.inStep (Or.inl htag)
    rw [hv.node, ← hnode, hrd] at hrr
    cases hrr
    refine ⟨[r], rfl, ?_⟩
    rw [List.map_cons, List.map_nil, List.map_cons, List.map_nil, ← hcr, hcd]

/-- src と dst の中身が同じなら、field の merge は中身を変えない。 -/
theorem Tour.mergeField_same (h : Tour t s₀ sib I mr V f forkList srcList dstList)
    (hsame : srcList.map Rev.content = dstList.map Rev.content) (hI : I V s) :
    wp (Voltha.Config.mergeField mr f forkList srcList dstList)
      (fun p _ => SameContent dstList p.1) (fun _ _ => True) s := by
  have kept : SameContent dstList (dstList.map some) := ⟨dstList, rfl, rfl⟩
  unfold Voltha.Config.mergeField
  split
  · rw [wp_bind]
    exact wp_mono (wp_true _ s) (fun _ _ _ => kept) fun _ _ h => h
  · cases hk : f.kind with
    | keyed key kt =>
      have hkey : f.key = some key := by rw [ChildField.key, hk]
      dsimp only
      split
      · next he =>
        subst he
        obtain ⟨hu, husrc, -⟩ := h.unique key hkey
        obtain ⟨hadd, hch⟩ := unchanged_of_content hu husrc hsame
        unfold mergeKeyedOwn
        dsimp only
        rw [hadd, hch]
        exact ⟨srcList, rfl, hsame⟩
      · exact h.both_same hkey hsame
    | single | list =>
      have hkey : f.key = none := by rw [ChildField.key, hk]
      dsimp only
      split
      · next he =>
        subst he
        split
        · trivial
        · rw [wp_bind]
          exact wp_mono (h.mapList_same hkey hsame hI) (fun _ _ hs => hs) fun _ _ h => h
      · split
        · trivial
        · exact kept

/-! ### 全 field -/

/-- 子の辞書の列は、`dst` の列と同じ中身を持つ。 -/
def Alike (dst : Rev) (cs : List (String × List Rev)) : Prop :=
  ∀ p ∈ cs, p.2.map Rev.content = (dst.child p.1).map Rev.content

/-- 済んだ field の版を覚えておく条件。`R` の版は揃っている。 -/
structure Remembers (sib : NodeId → Prop)
    (I : (Rev → Prop) → (NodeId → Prop) → State → Prop) : Prop where
  mono : ∀ {R : Rev → Prop} {V V' : NodeId → Prop} {s : State}, (∀ v, V v → V' v) → I R V s →
    I R V' s
  add : ∀ {R R' : Rev → Prop} {V : NodeId → Prop} {s : State}, I R V s →
    (∀ r, R' r → sib (Rev.node r) ∧ InStep s r) → I (fun r => R r ∨ R' r) V s

/-- 全 field の merge の条件。field が違えば、子の node も違う。 -/
structure Tours (t : TxId) (s₀ : State) (sib : NodeId → Prop)
    (J : (Rev → Prop) → (NodeId → Prop) → State → Prop) (mr : Rev → Op (Option Rev))
    (fork src dst : Rev) (fs : List ChildField) : Prop where
  tour : ∀ f ∈ fs, ∀ R V, (∀ c ∈ src.child f.name ++ dst.child f.name, ¬V (Rev.node c)) →
    (∀ c ∈ src.child f.name ++ dst.child f.name, ∀ r, R r → Rev.node r ≠ Rev.node c) →
    Tour t s₀ sib (J R) mr V f (fork.child f.name) (src.child f.name) (dst.child f.name)
  apart : fs.Pairwise fun f g => ∀ c ∈ src.child f.name ++ dst.child f.name,
    ∀ c' ∈ src.child g.name ++ dst.child g.name, Rev.node c ≠ Rev.node c'
  names : (fs.map ChildField.name).Nodup

theorem mergeFields_tour {J : (Rev → Prop) → (NodeId → Prop) → State → Prop} (hJ : Remembers sib J)
    {fork src dst : Rev} :
    ∀ (fs : List ChildField) (R : Rev → Prop) (V : NodeId → Prop) (cs : List (String × List Rev))
      (ch : List Change) (s : State), Tours t s₀ sib J mr fork src dst fs →
    (∀ f ∈ fs, ∀ c ∈ src.child f.name ++ dst.child f.name, ¬V (Rev.node c)) →
    (∀ f ∈ fs, ∀ c ∈ src.child f.name ++ dst.child f.name, ∀ r, R r → Rev.node r ≠ Rev.node c) →
    J R V s →
    wp (mergeFields mr fork src dst fs (allSome cs) ch)
      (fun p s' => ∃ cs' R', p.1 = allSome cs' ∧ J R' (fun _ => True) s' ∧ (∀ r, R r → R' r) ∧
        cs'.map Prod.fst = cs.map Prod.fst ∧
        (∀ g, g ∉ fs.map ChildField.name → cs'.lookup g = cs.lookup g) ∧
        (∀ f ∈ fs, ∀ r ∈ (cs'.lookup f.name).getD [], R' r ∧
          ∃ y ∈ src.child f.name ++ dst.child f.name, Rev.node y = Rev.node r) ∧
        ((∀ f ∈ fs, (src.child f.name).map Rev.content = (dst.child f.name).map Rev.content) →
          Alike dst cs → Alike dst cs'))
      (fun _ _ => True) s
  | [], R, V, cs, ch, s, _, _, _, hI =>
    ⟨cs, R, rfl, hJ.mono (fun _ _ => trivial) hI, fun _ h => h, rfl, fun _ _ => rfl,
      by simp, fun _ h => h⟩
  | f :: fs, R, V, cs, ch, s, hT, hV, hR, hI => by
    obtain ⟨hhead, hpair⟩ := List.pairwise_cons.mp hT.apart
    have hnames := hT.names
    rw [List.map_cons, List.nodup_cons] at hnames
    have htour := hT.tour f List.mem_cons_self R V (hV f List.mem_cons_self)
      (hR f List.mem_cons_self)
    have hfield := htour.mergeField hI
    have hsame : wp (mergeField mr f (fork.child f.name) (src.child f.name) (dst.child f.name))
        (fun p _ => (src.child f.name).map Rev.content = (dst.child f.name).map Rev.content →
          SameContent (dst.child f.name) p.1) (fun _ _ => True) s := by
      by_cases he : (src.child f.name).map Rev.content = (dst.child f.name).map Rev.content
      · exact wp_mono (htour.mergeField_same he hI) (fun _ _ h _ => h) fun _ _ h => h
      · exact wp_mono (wp_true _ s) (fun _ _ _ h => absurd h he) fun _ _ h => h
    have hT' : Tours t s₀ sib J mr fork src dst fs :=
      ⟨fun g hg => hT.tour g (List.mem_cons_of_mem _ hg), hpair, hnames.2⟩
    rw [mergeFields, wp_bind]
    refine wp_mono (wp_and hfield hsame) ?_ fun _ _ _ => trivial
    rintro p s₁ ⟨⟨hI1, m, hp, hm⟩, hsame⟩
    dsimp only
    rw [hp, setField_allSome]
    refine wp_mono (mergeFields_tour hJ fs (fun r => R r ∨ r ∈ m) _ _ _ s₁ hT' ?_ ?_
      (hJ.add hI1 fun r hr => ⟨?_, (hm r hr).1⟩)) ?_ fun _ _ h => h
    · rintro g hg c hc (hv | ⟨r, hr, hn⟩)
      · exact hV g (List.mem_cons_of_mem _ hg) c hc hv
      · exact hhead g hg r (List.mem_append_left _ hr) c hc hn
    · rintro g hg c hc r (hr | hr)
      · exact hR g (List.mem_cons_of_mem _ hg) c hc r hr
      · obtain ⟨y, hy, hn⟩ := (hm r hr).2
        rw [← hn]
        exact hhead g hg y hy c hc
    · obtain ⟨y, hy, hn⟩ := (hm r hr).2
      rw [← hn]
      exact htour.sibling y hy
    · rintro q s₂ ⟨cs', R', hq, hI2, hsub, hkeys, hother, hall, halike⟩
      refine ⟨cs', R', hq, hI2, fun r hr => hsub r (Or.inl hr), ?_, ?_, ?_, ?_⟩
      · rw [hkeys, FieldTree.setField_keys]
      · intro g hg
        rw [List.map_cons, List.mem_cons, not_or] at hg
        rw [hother g hg.2, FieldTree.lookup_setField, if_neg hg.1]
      · intro g hg r hr
        rcases List.mem_cons.mp hg with rfl | hg
        · rw [hother g.name hnames.1, FieldTree.lookup_setField, if_pos rfl] at hr
          cases hold : cs.lookup g.name with
          | none => rw [hold] at hr; cases hr
          | some old => rw [hold] at hr; exact ⟨hsub r (Or.inr hr), (hm r hr).2⟩
        · exact hall g hg r hr
      · intro he ha
        refine halike (fun g hg => he g (List.mem_cons_of_mem _ hg)) ?_
        rintro ⟨g, l⟩ hq
        obtain ⟨m', hp', hc'⟩ := hsame (he f List.mem_cons_self)
        rcases FieldTree.mem_setField hq with ⟨rfl, rfl⟩ | ⟨-, hmem⟩
        · rw [hp] at hp'
          rw [List.map_injective_iff.mpr (fun _ _ h => Option.some.inj h) hp']
          exact hc'
        · exact ha (g, l) hmem

end Loops

/-! ## 一つの node の merge -/

/-- `c` の下の node の最新の版にある子の版は、どれも揃っている。 -/
def CoherentUnder (S : Schema) (s₀ : State) (c : NodeId) (s : State) : Prop :=
  ∀ m < s₀.nextNode, Under s₀ c m → ∀ b, (s.node m).branches none = some b →
    ∀ f ∈ S.fields (s₀.node m).type, ∀ x ∈ b.latest.child f.name,
      ChildAt s₀ m f (Rev.node x) ∧ InStep s x

theorem CoherentUnder.congr {c : NodeId} (h : CoherentUnder S s₀ c s)
    (hb : ∀ m < s₀.nextNode, Under s₀ c m →
      (s'.node m).branches none = (s.node m).branches none) : CoherentUnder S s₀ c s' := by
  intro m hm hu b hbm f hf x hx
  rw [hb m hm hu] at hbm
  obtain ⟨hat, hs⟩ := h m hm hu b hbm f hf x hx
  exact ⟨hat, hs.congr (latest?_congr (hb _ hat.lt (hu.trans hat.under)))⟩

theorem coherentUnder_of_coherent (hg : Good S κ X s₀) (hc : Coherent S s₀) (c : NodeId) :
    CoherentUnder S s₀ c s₀ := by
  intro m _ _ b hb f hf x hx
  exact ⟨((hg.branch m none b hb).childAt hf hx).1, hc m b hb f hf x hx id⟩

/-- node `n` の merge の前後。 -/
structure MergedAt (S : Schema) (t : TxId) (s₀ s₁ : State) (n : NodeId) (r : Rev) (s : State) :
    Prop where
  node : Rev.node r = n
  latest : s.latest? n = some r
  under : CoherentUnder S s₀ n s
  outside : ∀ m < s₀.nextNode, ¬Under s₀ n m → (s.node m).branches = (s₁.node m).branches
  same : ∀ srcB dstB, (s₀.node n).branches (some t) = some srcB →
    (s₀.node n).branches none = some dstB → Rev.content srcB.latest = Rev.content dstB.latest →
    Rev.content r = Rev.content dstB.latest

/-- 実在する、`n` の子の node。 -/
def Sibling (s₀ : State) (n m : NodeId) : Prop := ChildOf s₀ n m ∧ m < s₀.nextNode

theorem ChildAt.sibling {f : ChildField} {m : NodeId} (h : ChildAt s₀ n f m) : Sibling s₀ n m :=
  ⟨h.childOf, h.lt⟩

/-- `n` の子を訪れている間の条件。 -/
structure Touring (S : Schema) (t : TxId) (s₀ s₁ : State) (n : NodeId) (R : Rev → Prop)
    (V : NodeId → Prop) (s : State) : Prop where
  toured : Toured t s₀ s₁ n V s
  under : ∀ c, Sibling s₀ n c → CoherentUnder S s₀ c s
  settled : ∀ r, R r → Sibling s₀ n (Rev.node r) ∧ InStep s r

theorem touring_remembers (S : Schema) (t : TxId) (s₀ s₁ : State) (n : NodeId) :
    Remembers (Sibling s₀ n) (Touring S t s₀ s₁ n) where
  mono hV h := ⟨Toured.mono hV _ h.toured, h.under, h.settled⟩
  add h hR' := ⟨h.toured, h.under, fun r hr => hr.elim (h.settled r) (hR' r)⟩

/-- 版の object を作るだけでは、何も変わらない。 -/
theorem Touring.of_node {R : Rev → Prop} {V : NodeId → Prop} (h : Touring S t s₀ s₁ n R V s)
    (hnode : s'.node = s.node) (hf : Frame (Bystander t) s s') :
    Touring S t s₀ s₁ n (fun _ => False) V s' where
  toured := ⟨h.toured.frame.trans hf, fun m hm hout => by
    rw [hnode]; exact h.toured.same m hm hout⟩
  under c hc := (h.under c hc).congr fun m _ _ => by rw [hnode]
  settled _ hr := hr.elim

/-- node `n` の本番の merge は、正常に終われば `n` の下を揃える。 -/
def Settles (S : Schema) (t : TxId) (s₀ : State) (fuel : Nat) (n : NodeId) : Prop :=
  n < s₀.nextNode → ∀ s₁, Intact t s₀ n s₁ → wp (mergeTxbranch S t false fuel n)
    (fun o s' => ∃ r, o = some r ∧ MergedAt S t s₀ s₁ n r s') (fun _ _ => True) s₁

/-- まだ訪れていない子の node は、merge の前のままである。 -/
theorem Touring.frozen {R : Rev → Prop} {V : NodeId → Prop} (h₁ : Intact t s₀ n s₁)
    (h : Touring S t s₀ s₁ n R V s) {m : NodeId} (hm : Sibling s₀ n m) (hV : ¬V m) :
    (s.node m).branches = (s₀.node m).branches :=
  (h.toured.intact h₁ hm.1 hV).same m hm.2 Under.refl

/-- 子の版を一つ訪れる。 -/
theorem Settles.visit {fuel : Nat} {c : Rev} (h : Settles S t s₀ fuel (Rev.node c))
    (hc : Sibling s₀ n (Rev.node c)) (h₁ : Intact t s₀ n s₁)
    (htx : Rev.tag c = .tx t → TxInStep t s₀ c) {R : Rev → Prop} {V : NodeId → Prop}
    (hR : ∀ r, R r → Rev.node r ≠ Rev.node c) (hV : ¬V (Rev.node c))
    (hs : Touring S t s₀ s₁ n R V s) :
    wp (descend S t false fuel c)
      (fun o s' => Touring S t s₀ s₁ n R (fun v => V v ∨ v = Rev.node c) s' ∧
        ∃ r, o = some r ∧ Visited t (Sibling s₀ n) c r s s') (fun _ _ => True) s := by
  unfold descend
  split
  · next htag =>
    have hint := hs.toured.intact h₁ hc.1 hV
    have hframe := (mergeTxbranch_keeps S t false fuel (Rev.node c)).toWp s
    refine wp_mono (wp_and (h hc.2 s hint) hframe) ?_ fun _ _ _ => trivial
    rintro o s' ⟨⟨r, rfl, hm⟩, hf⟩
    -- 兄弟の下は、訪れる前のままである
    have hother : ∀ m, Sibling s₀ n m → m ≠ Rev.node c → ∀ p < s₀.nextNode, Under s₀ m p →
        (s'.node p).branches = (s.node p).branches := fun m hsm hne p hp hu =>
      hm.outside p hp (hsm.1.disjoint hc.1 hne hu)
    have hstay : ∀ m, Sibling s₀ n m → m ≠ Rev.node c → s'.latest? m = s.latest? m :=
      fun m hsm hne => latest?_congr (by rw [hother m hsm hne m hsm.2 Under.refl])
    refine ⟨⟨hs.toured.visit hc.1 hf hm.outside, fun m hsm => ?_, fun y hy => ?_⟩, r, rfl,
      ⟨hm.node, fun _ => ⟨r, by rw [hm.node]; exact hm.latest, rfl⟩, hstay, ?_⟩⟩
    · by_cases hne : m = Rev.node c
      · rw [hne]; exact hm.under
      · exact (hs.under m hsm).congr fun p hp hu => by rw [hother m hsm hne p hp hu]
    · obtain ⟨hsib, hy'⟩ := hs.settled y hy
      exact ⟨hsib, hy'.congr (hstay _ hsib (hR y hy))⟩
    · -- 枝の中身と commit された中身が同じなら、merge しても変わらない
      rintro d hd ⟨rd, hrd, hcd⟩ hcontent
      obtain ⟨srcB, hsrcB, hsrc⟩ := htx htag
      rw [hd] at hrd
      unfold State.latest? at hrd
      rw [hs.frozen h₁ hc hV] at hrd
      obtain ⟨dstB, hdstB, rfl⟩ := Option.map_eq_some_iff.mp hrd
      have he := hm.same srcB dstB hsrcB hdstB (by rw [hsrc, hcd, hcontent])
      exact ⟨r, by rw [hd]; exact hm.latest, he.trans hcd⟩
  · next htag =>
    refine ⟨(touring_remembers S t s₀ s₁ n).mono (fun _ hv => Or.inl hv) hs, c, rfl,
      ⟨rfl, fun h => ?_, fun _ _ _ => rfl, fun _ _ h _ => h⟩⟩
    rcases h with he | hin
    · exact absurd he htag
    · exact hin

/-- key の無い field の子は、枝分かれした版にもある node のものである。 -/
def StemsRev (S : Schema) (o : Option Rev) (r : Rev) : Prop :=
  ∀ fork, o = some fork → ∀ f ∈ S.fields (Rev.config r).type, f.key = none →
    ∀ x ∈ r.child f.name, ∃ y ∈ fork.child f.name, Rev.node y = Rev.node x

theorem stemsRev_follows (S : Schema) (t : TxId) : Follows S t (StemsRev S) where
  fork := by
    rintro r - fork ⟨rfl⟩ f _ _ x hx
    exact ⟨x, hx, rfl⟩
  config := by
    intro o r i h hty fork ho f hf hk x hx
    have hf : f ∈ S.fields (Rev.config r).type := by rw [← hty]; exact hf
    exact h fork ho f hf hk x hx
  keyed := by
    intro o r f l i h hf hk hi fork ho g hg hgk x hx
    have hg : g ∈ S.fields (Rev.config r).type := by rw [← hi]; exact hg
    have hne : g.name ≠ f.name := fun he => hk ((S.field_unique hg hf he) ▸ hgk)
    rw [child_setField_ne hne] at hx
    exact h fork ho g hg hgk x hx
  single := by
    intro o r f c c' i h hf hk hc hn hi fork ho g hg hgk x hx
    have hg' : g ∈ S.fields (Rev.config r).type := by rw [← hi]; exact hg
    rcases mem_child_setField hx with ⟨he, hx'⟩ | ⟨-, hx'⟩
    · obtain rfl := S.field_unique hg' hf he
      rw [List.mem_singleton.mp hx', hn]
      exact h fork ho g hg' hgk c hc
    · exact h fork ho g hg' hgk x hx'

/-- merge の前の状態の条件。 -/
structure Mergeable (S : Schema) (κ : Mode) (X : State → Rev → Prop) (t : TxId) (s₀ : State) :
    Prop where
  keys : κ.keys
  typed : κ.typed
  good : Good S κ X s₀
  clean : Clean t s₀
  lone : Branchwise t (fun _ r => LoneRev S t r) s₀
  stems : Branchwise t (StemsRev S) s₀
  txCoherent : TxCoherent S t s₀
  coherent : Coherent S s₀
  fresh : Fresh S t s₀

section Node

variable {srcB dstB : Branch} {fork : Rev}

/-- 一つの node の、一つの field の merge の条件。 -/
theorem Mergeable.tour (h : Mergeable S κ X t s₀) {fuel : Nat} (ih : ∀ m, Settles S t s₀ fuel m)
    (h₁ : Intact t s₀ n s₁) (hsrc : (s₀.node n).branches (some t) = some srcB)
    (hdst : (s₀.node n).branches none = some dstB) (hfork : srcB.origin = some fork)
    {f : ChildField} (hf : f ∈ S.fields (s₀.node n).type) {R : Rev → Prop} {V : NodeId → Prop}
    (hV : ∀ c ∈ srcB.latest.child f.name ++ dstB.latest.child f.name, ¬V (Rev.node c))
    (hR : ∀ c ∈ srcB.latest.child f.name ++ dstB.latest.child f.name, ∀ r, R r →
      Rev.node r ≠ Rev.node c) :
    Tour t s₀ (Sibling s₀ n) (Touring S t s₀ s₁ n R) (descend S t false fuel) V f
      (fork.child f.name) (srcB.latest.child f.name) (dstB.latest.child f.name) := by
  have hs := h.good.branch n (some t) srcB hsrc
  have hd := h.good.branch n none dstB hdst
  have hfk := hs.revs fork (by simp [Branch.held, hfork])
  have hfs : f ∈ S.fields (Rev.config srcB.latest).type := by rw [hs.config_type]; exact hf
  have hat : ∀ c ∈ srcB.latest.child f.name ++ dstB.latest.child f.name,
      ChildAt s₀ n f (Rev.node c) ∧ Deep S κ X s₀ c := by
    intro c hc
    rcases List.mem_append.mp hc with hc | hc
    · exact hs.childAt hf hc
    · exact hd.childAt hf hc
  refine {
    mono := fun hV' s => (touring_remembers S t s₀ s₁ n).mono hV'
    frozen := fun hI hm hv => latest?_congr (by rw [hI.frozen h₁ hm hv])
    visit := ?_
    idle := fun c htag => by unfold descend; rw [if_neg htag]
    untagged := fun d hdm =>
      (h.clean n none dstB (by simp) hdst).child hdm d (FieldTree.Sub.refl d)
    sibling := fun c hc => (hat c hc).1.sibling
    unseen := hV
    coherent := fun d hdm => h.coherent n dstB hdst f hf d hdm id
    fresh := h.fresh n srcB dstB fork hsrc hdst hfork f hf
    content := fun x hx d hdm hh => (hd.childAt hf hdm).2.content_eq_of_hash h.typed
      (hs.childAt hf hx).2 hh
    unique := fun key hk => ⟨?_, hs.distinctKeys h.keys hf key hk, hd.distinctKeys h.keys hf key hk⟩
    keys := fun key hk c hc c' hc' he => (hat c' hc').1.key_of_node_eq
      (Frame.refl (K := fun _ => True) s₀) hk ((hat c' hc').2.self.keyed h.keys).own
      ((hat c hc).2.self.keyed h.keys).own he
    lone := fun hk => ?_
    stems := fun hk => h.stems n srcB hsrc fork hfork f hfs hk }
  · intro c hc V' s hV' hI
    have hcm := List.mem_append_left (dstB.latest.child f.name) hc
    exact (ih _).visit (hat c hcm).1.sibling h₁
      (fun htag => h.txCoherent n srcB hsrc f hfs c hc htag id) (hR c hcm) hV' hI
  · refine (hfk.2.self.keyed h.keys).nodup f ?_ key hk
    rw [← hfk.2.self.type_eq, hfk.1]
    exact hf
  · by_cases htag : ∃ c ∈ srcB.latest.child f.name, Rev.tag c = .tx t
    · obtain ⟨c, hc, htag⟩ := htag
      exact Or.inr ⟨c, h.lone n srcB hsrc f hfs hk c hc htag⟩
    · exact Or.inl fun c hc he => htag ⟨c, hc, he⟩

/-- 一つの node の、全 field の merge の条件。 -/
theorem Mergeable.tours (h : Mergeable S κ X t s₀) {fuel : Nat} (ih : ∀ m, Settles S t s₀ fuel m)
    (h₁ : Intact t s₀ n s₁) (hsrc : (s₀.node n).branches (some t) = some srcB)
    (hdst : (s₀.node n).branches none = some dstB) (hfork : srcB.origin = some fork) :
    Tours t s₀ (Sibling s₀ n) (Touring S t s₀ s₁ n) (descend S t false fuel) fork srcB.latest
      dstB.latest (S.fields (s₀.node n).type) := by
  have hs := h.good.branch n (some t) srcB hsrc
  have hd := h.good.branch n none dstB hdst
  refine ⟨fun f hf R V hV hR => h.tour ih h₁ hsrc hdst hfork hf hV hR, ?_, S.names_nodup _⟩
  refine (fields_pairwise S _).imp_of_mem fun {f g} hf hg hne c hc c' hc' he => hne ?_
  have hat : ∀ {f : ChildField}, f ∈ S.fields (s₀.node n).type → ∀ {c : Rev},
      c ∈ srcB.latest.child f.name ++ dstB.latest.child f.name → ChildAt s₀ n f (Rev.node c) := by
    intro f hf c hc
    rcases List.mem_append.mp hc with hc | hc
    · exact (hs.childAt hf hc).1
    · exact (hd.childAt hf hc).1
  have hc := hat hf hc
  rw [he] at hc
  exact (hc.unique (hat hg hc')).2

theorem alike_self {dst : Rev} (hnd : (dst.children.map Prod.fst).Nodup) :
    Alike dst dst.children := by
  rintro ⟨g, l⟩ hp
  rw [FieldTree.child_eq_of_mem hnd hp]

/-- 中身の揃った辞書を持つ版は、`dst` と同じ中身を持つ。 -/
theorem content_of_alike {dst : Rev} (hnd : (dst.children.map Prod.fst).Nodup) {i : RevInfo}
    {cs : List (String × List Rev)} (hi : i.config = Rev.config dst)
    (hkeys : cs.map Prod.fst = dst.children.map Prod.fst) (h : Alike dst cs) :
    Rev.content (.mk i cs) = Rev.content dst := by
  have named : ∀ cs : List (String × List Rev), Alike dst cs →
      (cs.map fun p => (p.1, p.2.map Rev.content))
        = (cs.map Prod.fst).map fun g => (g, (dst.child g).map Rev.content) := by
    intro cs h
    rw [List.map_map]
    exact List.map_congr_left fun p hp => by rw [h p hp]; rfl
  have hself := alike_self hnd
  obtain ⟨j, ds⟩ := dst
  have hi : i.config = j.config := hi
  rw [Rev.content_mk, Rev.content_mk, named cs h, named ds hself, hkeys, hi]
  rfl

/-- `n` の下にある node は、`n` 自身か、`n` の子の下にある。 -/
theorem Under.cases_child {m : NodeId} (h : Under s₀ n m) (hm : m < s₀.nextNode) :
    m = n ∨ ∃ c, Sibling s₀ n c ∧ Under s₀ c m := by
  induction h with
  | refl => exact Or.inl rfl
  | @step m sl hsl hlt hu ih =>
    rcases ih (Nat.lt_trans hlt hm) with he | ⟨c, hc, hcu⟩
    · exact Or.inr ⟨m, ⟨⟨he ▸ hlt, sl, hsl, he⟩, hm⟩, Under.refl⟩
    · exact Or.inr ⟨c, hc, Under.step hsl hlt hcu⟩

/-- merge した版。全 field の列が揃い、枝と同じ中身から merge したなら中身も変わらない。 -/
structure Woven (S : Schema) (s₀ : State) (n : NodeId) (srcB dstB : Branch) (r : Rev) (s : State) :
    Prop where
  node : Rev.node r = n
  child : ∀ f ∈ S.fields (s₀.node n).type, ∀ x ∈ r.child f.name,
    ChildAt s₀ n f (Rev.node x) ∧ InStep s x
  same : Rev.content srcB.latest = Rev.content dstB.latest →
    Rev.content r = Rev.content dstB.latest

/-- 一つの node の `merge_3way`。 -/
theorem Mergeable.merge3way (h : Mergeable S κ X t s₀) {fuel : Nat}
    (ih : ∀ m, Settles S t s₀ fuel m) (h₁ : Intact t s₀ n s₁)
    (hsrc : (s₀.node n).branches (some t) = some srcB)
    (hdst : (s₀.node n).branches none = some dstB) (hfork : srcB.origin = some fork) :
    wp (Voltha.Config.merge3way S (descend S t false fuel) false fork srcB.latest dstB.latest)
      (fun p s' => ∃ r, p.1 = some r ∧ Woven S s₀ n srcB dstB r s' ∧
        Touring S t s₀ s₁ n (fun _ => False) (fun _ => True) s') (fun _ _ => True) s₁ := by
  have hs := h.good.branch n (some t) srcB hsrc
  have hd := h.good.branch n none dstB hdst
  have hfk := hs.revs fork (by simp [Branch.held, hfork])
  have hty : (Rev.config fork).type = (s₀.node n).type := by
    rw [← hfk.2.self.type_eq, hfk.1]
  have hnd : (dstB.latest.children.map Prod.fst).Nodup := by
    rw [(hd.latest.self.shape h.typed).names]
    exact S.names_nodup _
  have hstart : Touring S t s₀ s₁ n (fun _ => False) (fun _ => False) s₁ := by
    refine ⟨h₁.toured, fun c hc => ?_, fun _ hr => hr.elim⟩
    exact (coherentUnder_of_coherent h.good h.coherent c).congr fun m hm hu => by
      rw [h₁.same m hm (hc.1.under.trans hu)]
  have hconfig : wp (mergeConfig fork srcB.latest dstB.latest) (fun _ s' => s' = s₁)
      (fun _ _ => True) s₁ := by
    unfold mergeConfig
    split
    · rfl
    · split
      · trivial
      · rfl
  have hfields := mergeFields_tour (touring_remembers S t s₀ s₁ n) (S.fields (s₀.node n).type)
    (fun _ => False) (fun _ => False) dstB.latest.children [] s₁
    (h.tours ih h₁ hsrc hdst hfork) (fun _ _ _ _ hv => hv) (fun _ _ _ _ _ hr => hr.elim) hstart
  unfold Voltha.Config.merge3way
  rw [wp_bind]
  refine wp_mono hconfig ?_ fun _ _ h => h
  rintro changed _ rfl
  rw [wp_bind, hty]
  refine wp_mono hfields ?_ fun _ _ h => h
  rintro ⟨acc, ch⟩ s₂ ⟨cs, R, hacc, hI, -, hkeys, -, hall, halike⟩
  dsimp only at hacc ⊢
  rw [if_neg (by simp), allRevs_eq_some.mpr hacc, ofOption_some, wp_bind, wp_pure, wp_bind,
    updateAllChildren, wp_newRev]
  generalize hr : (FieldTree.mk _ cs : Rev) = r
  have hnode : (State.finalizeRev { s₂ with nextUid := s₂.nextUid + 1 } r).node = s₂.node :=
    finalizeRev_node _ _
  refine ⟨r, rfl, ⟨?_, fun f hf x hx => ?_, fun hsame => ?_⟩, hI.of_node hnode ?_⟩
  · rw [← hr]; exact hd.node_latest
  · have hx : x ∈ (cs.lookup f.name).getD [] := by rw [← hr] at hx; exact hx
    obtain ⟨hR, y, hy, hn⟩ := hall f hf x hx
    refine ⟨?_, (hI.settled x hR).2.congr (latest?_congr (by rw [hnode]))⟩
    rw [← hn]
    rcases List.mem_append.mp hy with hy | hy
    · exact (hs.childAt hf hy).1
    · exact (hd.childAt hf hy).1
  · have hlabel : Rev.config srcB.latest = Rev.config dstB.latest := by
      rw [← Rev.label_content, ← Rev.label_content, hsame]
    rw [← hr]
    refine content_of_alike hnd ?_ hkeys (halike (fun f _ => ?_) (alike_self hnd))
    · show Rev.config (if changed = true then srcB.latest else dstB.latest) = _
      split
      · exact hlabel
      · rfl
    · rw [← Rev.child_content, ← Rev.child_content, hsame]
  · subst hr
    exact newRev_keeps _ _ _ _ _ s₂

/-- merge した版を据えて、枝を消す。 -/
theorem Woven.settle (h : Woven S s₀ n srcB dstB r s) (hI : Touring S t s₀ s₁ n (fun _ => False)
      (fun _ => True) s) (hb : ((s.node n).branches (some t)).isSome = true)
    (hsrc : (s₀.node n).branches (some t) = some srcB)
    (hdst : (s₀.node n).branches none = some dstB) (ch : List Change) :
    wp (settle n t dstB (some r, ch))
      (fun o s' => ∃ r, o = some r ∧ MergedAt S t s₀ s₁ n r s') (fun _ _ => True) s := by
  obtain ⟨s₃, he, hother, hself⟩ := settle_ok hb r ch
  -- 子の版の node は `n` ではないので、揃ったままである
  have hstay : ∀ {x : Rev} {m : NodeId} {f : ChildField}, n ≤ m → ChildAt s₀ m f (Rev.node x) →
      InStep s x → InStep s₃ x := by
    intro x m f hle hat hx
    have hne : Rev.node x ≠ n := fun he => absurd (he ▸ hat.younger) (Nat.not_lt.mpr hle)
    exact hx.congr (latest?_congr (by rw [hother _ hne]))
  refine wp_of_ok he ⟨r, rfl, h.node, latest?_of_branch hself, ?_, fun m hm hu => ?_, ?_⟩
  · intro m hm hu b' hb' f hf x hx
    rcases hu.cases_child hm with rfl | ⟨c, hc, hcu⟩
    · rw [hself] at hb'
      cases hb'
      obtain ⟨hat, hs⟩ := h.child f hf x hx
      exact ⟨hat, hstay (Nat.le_refl _) hat hs⟩
    · have hne : m ≠ n := fun he => hc.1.not_under (he ▸ hcu)
      rw [hother m hne] at hb'
      obtain ⟨hat, hs⟩ := hI.under c hc m hm hcu b' hb' f hf x hx
      exact ⟨hat, hstay hu.le hat hs⟩
  · rw [hother m fun he => hu (he ▸ Under.refl)]
    exact hI.toured.outside hm (Or.inr hu)
  · intro srcB' dstB' hsrc' hdst' hsame
    rw [hsrc] at hsrc'
    rw [hdst] at hdst'
    cases hsrc'
    cases hdst'
    exact h.same hsame

end Node

/--
本番の merge は、正常に終われば木を揃える。

深さの上限についての帰納法。降りる先の node は、merge の前のまま手つかずである。
-/
theorem mergeTxbranch_settles (h : Mergeable S κ X t s₀) :
    ∀ (fuel : Nat) (n : NodeId), Settles S t s₀ fuel n
  | 0, _ => fun _ _ _ => trivial
  | fuel + 1, n => by
    intro hn s₁ h₁
    have hbr := h₁.same n hn Under.refl
    have ih := mergeTxbranch_settles h fuel
    cases hsrc : (s₀.node n).branches (some t) with
    | none =>
      have hnone : s₁.txBranch? t n = none := by
        unfold State.txBranch?; rw [hbr]; exact hsrc
      rw [mergeTxbranch, wp_bind, wp_read, hnone]
      exact trivial
    | some srcB =>
      have hs := h.good.branch n (some t) srcB hsrc
      obtain ⟨dstB, hdst⟩ := Option.isSome_iff_exists.mp hs.born
      obtain ⟨fork, hfork⟩ := Option.isSome_iff_exists.mp (hs.origin rfl)
      refine wp_of_eq (mergeTxbranch_eq (by rw [hbr]; exact hsrc) (by rw [hbr]; exact hdst) hfork) ?_
      rw [wp_bind]
      refine wp_mono (h.merge3way ih h₁ hsrc hdst hfork) ?_ fun _ _ h => h
      rintro ⟨o, ch⟩ s₂ ⟨r, rfl, hwoven, hI⟩
      refine hwoven.settle hI ?_ hsrc hdst ch
      rw [hI.toured.outside hs.lt (Or.inl rfl), hbr, hsrc]
      rfl

end Voltha.Config
