import Voltha.Config.Properties.Atomic
import Voltha.Config.Properties.Digest
import Voltha.Config.Properties.Plain
import Voltha.Config.Properties.Untagged

/-!
# 親の持つ子の版と、子の node の最新の版

木の読みは root の最新の版だけをたどり、子の node の branch を見ない。
操作のほうは、子の node の最新の版を読んで書き換え、親の版を作り直していく。
二つが食い違わないのは、親の最新の版にある子の版が、その子の node の最新の版と
同じ中身を持つからである（`Coherent`）。

transaction の外の操作の間は、書き換えたばかりの node を指す親の版だけが食い違っている
（`CoherentBut`）。帰りに親の版を作り直せば、食い違いは一つ上に移る。
-/

namespace Voltha.Config

open Exec

variable {S : Schema} {κ : Mode} {X : State → Rev → Prop}
variable {s s' s₁ : State} {n : NodeId} {k : Option TxId} {b : Branch}
variable {Ok : List Seg → Act → Prop} {route : List Seg} {res : Except Err Rev}

/-- 版 `x` は、その node の commit された最新の版と同じ中身を持つ。 -/
def InStep (s : State) (x : Rev) : Prop :=
  ∃ r, s.latest? (Rev.node x) = some r ∧ Rev.content r = Rev.content x

/-- commit された最新の版にある子の版は、`p` の node のものを除いて、その node の最新の版と揃う。 -/
def CoherentBut (S : Schema) (p : NodeId → Prop) (s : State) : Prop :=
  ∀ n b, (s.node n).branches none = some b → ∀ f ∈ S.fields (s.node n).type,
    ∀ x ∈ b.latest.child f.name, ¬p (Rev.node x) → InStep s x

/-- どの子の版も、その node の最新の版と揃っている。 -/
def Coherent (S : Schema) (s : State) : Prop := CoherentBut S (fun _ => False) s

theorem Coherent.but (h : Coherent S s) (p : NodeId → Prop) : CoherentBut S p s :=
  fun n b hb f hf x hx _ => h n b hb f hf x hx id

theorem InStep.congr {x : Rev} (h : InStep s x)
    (he : s'.latest? (Rev.node x) = s.latest? (Rev.node x)) : InStep s' x := by
  obtain ⟨r, hr, hc⟩ := h
  exact ⟨r, he.trans hr, hc⟩

theorem latest?_congr (h : (s'.node n).branches none = (s.node n).branches none) :
    s'.latest? n = s.latest? n := by
  unfold State.latest?; rw [h]

theorem latest?_of_branch (h : (s.node n).branches none = some b) :
    s.latest? n = some b.latest := by
  unfold State.latest?; rw [h]; rfl

theorem branch_of_latest? {r : Rev} (h : s.latest? n = some r) :
    ∃ b, (s.node n).branches none = some b ∧ b.latest = r := by
  unfold State.latest? at h
  exact Option.map_eq_some_iff.mp h

/-- node の表が同じなら、揃い方も同じである。 -/
theorem CoherentBut.of_node {p : NodeId → Prop} (h : CoherentBut S p s) (hn : s'.node = s.node) :
    CoherentBut S p s' := by
  intro m b hb f hf x hx hp
  rw [hn] at hb hf
  refine (h m b hb f hf x hx hp).congr (latest?_congr ?_)
  rw [hn]

/-- 型と commit された branch を変えない書き換えの間も揃っている。 -/
theorem CoherentBut.congr {p : NodeId → Prop} (h : CoherentBut S p s)
    (hb : ∀ m, (s'.node m).branches none = (s.node m).branches none)
    (ht : ∀ m, (s'.node m).type = (s.node m).type) : CoherentBut S p s' := by
  intro m b hbm f hf x hx hp
  rw [hb] at hbm
  rw [ht] at hf
  exact (h m b hbm f hf x hx hp).congr (latest?_congr (hb _))

/-! ## 版の形 -/

/-- `Shape` を満たす版の中身は、protobuf の message である。 -/
theorem Deep.shaped (hτ : κ.typed) {r : Rev} (h : Deep S κ X s r) :
    Shaped S.fields (Rev.content r) := by
  induction r using FieldTree.induct with
  | h i cs ih =>
    have hshape := h.self.shape hτ
    have hcontent := Rev.content_mk i cs
    rw [hcontent, shaped_mk_iff, ← hcontent]
    refine ⟨⟨?_, fun f hf => ⟨?_, ?_⟩⟩, ?_⟩
    · rw [hcontent, FieldTree.children_mk, List.map_map]
      exact hshape.names
    · intro c hc
      rw [Rev.child_content] at hc
      obtain ⟨x, hx, rfl⟩ := List.mem_map.mp hc
      rw [Rev.label_content]
      exact hshape.typed f hf x hx
    · intro hk
      obtain ⟨c, hc⟩ := hshape.single f hf hk
      rw [Rev.child_content, hc]
      exact Nat.le_refl 1
    · intro g l hg c hc
      obtain ⟨p, hp, he⟩ := List.mem_map.mp hg
      obtain ⟨rfl, rfl⟩ := Prod.mk.inj he
      obtain ⟨x, hx, rfl⟩ := List.mem_map.mp hc
      exact ih p.1 p.2 hp x hx (h.sub (FieldTree.Sub.of_child hp hx))

/-- hash の同じ版は、同じ中身を持つ。 -/
theorem Deep.content_eq_of_hash (hτ : κ.typed) {r r' : Rev} (h : Deep S κ X s r)
    (h' : Deep S κ X s' r') (he : Rev.hash r = Rev.hash r') : Rev.content r = Rev.content r' := by
  rw [Rev.hash_eq_digest, Rev.hash_eq_digest] at he
  exact digest_injective (h.shaped hτ) (h'.shaped hτ) he

/-! ## 子の node は親を一つに決める -/

/-- 同じ node の子の版を持つ二つの版は、同じ node の同じ field に持っている。 -/
theorem ChildAt.unique {n m : NodeId} {f g : ChildField} {c : NodeId} (h : ChildAt s n f c)
    (h' : ChildAt s m g c) : n = m ∧ f.name = g.name := by
  obtain ⟨v, hv⟩ := h.slot
  obtain ⟨w, hw⟩ := h'.slot
  rw [hv] at hw
  have := Option.some.inj hw
  exact ⟨congrArg Slot.parent this, congrArg Slot.field this⟩

theorem BranchOk.distinctKeys (hκ : κ.keys) (hb : BranchOk S κ X s n k b) {f : ChildField}
    (hf : f ∈ S.fields (s.node n).type) : DistinctKeys f (b.latest.child f.name) := by
  rw [← hb.config_type] at hf
  exact (hb.latest.self.keyed hκ).nodup f hf

/-- 一つの列の中では、同じ node の版は同じ key を持つ。 -/
theorem BranchOk.keyIn_eq (hκ : κ.keys) (hb : BranchOk S κ X s n k b) {f : ChildField}
    (hf : f ∈ S.fields (s.node n).type) {x c : Rev} (hx : x ∈ b.latest.child f.name)
    (hc : c ∈ b.latest.child f.name) (he : Rev.node x = Rev.node c) {key : String}
    (hkey : f.key = some key) : Rev.keyIn key x = Rev.keyIn key c := by
  obtain ⟨hax, hdx⟩ := hb.childAt hf hx
  obtain ⟨hac, hdc⟩ := hb.childAt hf hc
  exact hac.key_of_node_eq (Frame.refl (K := fun _ => True) s) hkey (hdc.self.keyed hκ).own
    (hdx.self.keyed hκ).own he

/-- 一つの子を差し替えた列の、差し替えたもの以外の版は、差し替えた node のものではない。 -/
theorem Found.replaceChild_cases (hκ : κ.keys) (hb : BranchOk S κ X s n k b) {f : ChildField}
    (hf : f ∈ S.fields (s.node n).type) {idx : Nat} {c c' : Rev} {v : Option Value}
    (hc : Found f (b.latest.child f.name) idx c v) {x : Rev}
    (hx : x ∈ replaceChild f (b.latest.child f.name) idx c') :
    x = c' ∨ (x ∈ b.latest.child f.name ∧ Rev.node x ≠ Rev.node c) := by
  cases v with
  | none =>
    unfold replaceChild at hx
    rw [hc.1] at hx
    exact Or.inl (List.mem_singleton.mp hx)
  | some v =>
    obtain ⟨key, hkey, hfind⟩ := hc
    have hidx := (findRevByKey_eq_some hfind).1
    have hset : x ∈ (b.latest.child f.name).set idx c' := by
      unfold replaceChild at hx
      cases hk : f.kind with
      | single => rw [ChildField.key, hk] at hkey; cases hkey
      | list => rw [hk] at hx; exact hx
      | keyed key' kt => rw [hk] at hx; exact hx
    obtain ⟨j, hj⟩ := List.mem_iff_getElem?.mp hset
    rw [List.getElem?_set] at hj
    by_cases hij : idx = j
    · rw [if_pos hij] at hj
      split at hj
      · exact Or.inl (Option.some.inj hj).symm
      · cases hj
    · rw [if_neg hij] at hj
      refine Or.inr ⟨List.mem_of_getElem? hj, fun he => hij ?_⟩
      have hke := hb.keyIn_eq hκ hf (List.mem_of_getElem? hj) (List.mem_of_getElem? hidx) he hkey
      exact KeyedList.index_unique (hb.distinctKeys hκ hf key hkey) hidx hj hke.symm

/-- 列の中の `c` の node の版は、`c` だけである。 -/
theorem Found.eq_of_node (hκ : κ.keys) (hb : BranchOk S κ X s n k b)
    {f : ChildField} (hf : f ∈ S.fields (s.node n).type) {idx : Nat} {c x : Rev} {v : Value}
    (hfound : Found f (b.latest.child f.name) idx c (some v)) (hx : x ∈ b.latest.child f.name)
    (he : Rev.node x = Rev.node c) : x = c := by
  obtain ⟨key, hkey, hfind⟩ := id hfound
  obtain ⟨j, hj⟩ := List.mem_iff_getElem?.mp hx
  have hidx := (findRevByKey_eq_some hfind).1
  have hke := hb.keyIn_eq hκ hf hx hfound.mem he hkey
  have hij := KeyedList.index_unique (hb.distinctKeys hκ hf key hkey) hj hidx hke
  rw [hij, hidx] at hj
  exact (Option.some.inj hj).symm

/-! ## node の生成 -/

/-- まだ commit された branch の無い node の版は、どこにも現れていない。 -/
theorem Good.node_ne_of_unborn (hg : Good S κ X s) (hn : (s.node n).branches none = none)
    {m : NodeId}
    (hb : (s.node m).branches none = some b) {f : ChildField} (hf : f ∈ S.fields (s.node m).type)
    {x : Rev} (hx : x ∈ b.latest.child f.name) : Rev.node x ≠ n := by
  rintro rfl
  have := ((hg.branch m none b hb).childAt hf hx).2.self.born
  rw [hn] at this
  cases this

/-- 自分の最初の版を据える。子の版がすべて揃っていれば、全体も揃う。 -/
theorem installFirst_coherent (hg : Good S κ X s) (hc : Coherent S s)
    (hn : (s.node n).branches none = none) {d : Data} {l : List (String × List Rev)}
    (hl : ∀ p ∈ l, ∀ c ∈ p.2, InStep s c) :
    wp (installFirst n d l) (fun _ s' => Coherent S s') (fun _ s' => Coherent S s') s := by
  unfold installFirst mkrev
  rw [wp_bind, wp_bind, wp_read, wp_newRev, wp_bind, wp_read, wp_bind, wp_makeLatest]
  generalize hr : (FieldTree.mk _ l : Rev) = r
  have hnode1 : (State.finalizeRev { s with nextUid := s.nextUid + 1 } r).node = s.node :=
    finalizeRev_node _ _
  generalize (State.finalizeRev { s with nextUid := s.nextUid + 1 } r) = s₁ at hnode1
  have hnode := makeLatest_node n none
    { tag := .committed, origin := none, revs := [], latest := r
      autoPrune := (s₁.node n).autoPrune } r [] s₁
  rw [wp_pure]
  generalize (makeLatest n none _ r [] s₁).2 = s₂ at hnode
  have hbr : ∀ m, m ≠ n → (s₂.node m).branches none = (s.node m).branches none := by
    intro m hm
    rw [hnode, setBranch_branches, if_neg fun he => hm he.1, hnode1]
  have hty : ∀ m, (s₂.node m).type = (s.node m).type := by
    intro m
    rw [hnode, setBranch_type, hnode1]
  have keep : ∀ x, Rev.node x ≠ n → InStep s x → InStep s₂ x := fun x hx h =>
    h.congr (latest?_congr (hbr _ hx))
  have ne_of : ∀ x, InStep s x → Rev.node x ≠ n := by
    rintro x ⟨r', hr', -⟩ rfl
    unfold State.latest? at hr'
    rw [hn] at hr'
    cases hr'
  intro m b hb f hf x hx _
  rw [hty] at hf
  by_cases hm : m = n
  · -- 自分の版の子は、いま作り終えた子である
    subst hm
    rw [hnode, setBranch_branches, if_pos ⟨rfl, rfl⟩] at hb
    cases hb
    have hx : x ∈ r.child f.name := hx
    have hin : InStep s x := by
      have hmem := FieldTree.mem_children_of_mem_child hx
      rw [← hr] at hmem hx
      exact hl _ hmem x hx
    exact keep x (ne_of x hin) hin
  · rw [hbr m hm] at hb
    exact keep x (hg.node_ne_of_unborn hn hb hf hx) (hc m b hb f hf x hx id)

mutual

/-- node を作る間も、版は揃っている。 -/
theorem mknode_coherent (hX : Closed X) : ∀ (m : Msg) (slot : Option Slot) (s : State),
    Good S κ X s → (κ.typed → Full S.fields m) → SlotOk m slot → Coherent S s →
    wp (mknode S m slot) (fun _ s' => Coherent S s') (fun _ s' => Coherent S s') s
  | .mk d cs, slot, s, hg, hfull, hslot, hc => by
    rw [mknode_mk, wp_bind]
    have hg0 := newNode_good hX hg d.type slot
    have hc0 : Coherent S (newNode d.type slot s).2 := by
      intro m b hb f hf x hx _
      have hb' := newNode_branches d.type slot s m none hb
      have hne : m ≠ s.nextNode := by
        rintro rfl
        exact Nat.lt_irrefl _ (hg.branch _ none b hb').lt
      have hnode : (newNode d.type slot s).2.node m = s.node m := by
        simp [newNode, State.setNode, hne]
      rw [hnode] at hf
      have hdeep := ((hg.branch m none b hb').childAt hf hx).2
      have hnx : Rev.node x ≠ s.nextNode := Nat.ne_of_lt hdeep.self.lt
      refine (hc m b hb' f hf x hx id).congr (latest?_congr ?_)
      simp [newNode, State.setNode, hnx]
    have hlt : s.nextNode < (newNode d.type slot s).2.nextNode := Nat.lt_succ_self _
    have hborn : ((newNode d.type slot s).2.node s.nextNode).branches none = none := by
      simp [newNode, State.setNode]
    show wp (mknodeFields S s.nextNode d.type cs >>= _) _ _ (newNode d.type slot s).2
    generalize (newNode d.type slot s).2 = s₀ at hg0 hc0 hlt hborn
    rw [wp_bind]
    have hcs : κ.typed → ∀ f l, (f, l) ∈ cs → ∀ c ∈ l, Full S.fields c :=
      fun hτ => (full_mk_iff.mp (hfull hτ)).2
    refine wp_mono (wp_and (wp_and (mknodeFields_coherent hX s.nextNode d.type cs s₀ hg0 hlt hcs hc0)
      (mknodeFields_good hX s.nextNode d.type cs s₀ hg0 hlt hcs))
      ((mknodeFields_keeps S s.nextNode d.type cs).toWp s₀)) ?_ fun _ _ h => h.1.1
    rintro l s₁ ⟨⟨⟨hc1, hin⟩, hg1, -, -⟩, hf1⟩
    refine installFirst_coherent hg1 hc1 ?_ hin
    rw [hf1.branch _ hlt none trivial]
    exact hborn

theorem mknodeFields_coherent (hX : Closed X) (n : NodeId) (ty : String) :
    ∀ (cs : List (String × List Msg)) (s : State), Good S κ X s → n < s.nextNode →
    (κ.typed → ∀ f l, (f, l) ∈ cs → ∀ c ∈ l, Full S.fields c) → Coherent S s →
    wp (mknodeFields S n ty cs) (fun l s' => Coherent S s' ∧ ∀ p ∈ l, ∀ c ∈ p.2, InStep s' c)
      (fun _ s' => Coherent S s') s
  | [], s, hg, _, _, hc => by
    rw [mknodeFields]
    exact ⟨hc, by simp⟩
  | (name, ms) :: cs, s, hg, hn, hfull, hc => by
    rw [mknodeFields, wp_bind]
    have hms : κ.typed → ∀ m ∈ ms, Full S.fields m := fun hτ => hfull hτ name ms List.mem_cons_self
    refine wp_mono (wp_and (wp_and (mknodeList_coherent hX n name (S.keyOf ty name) [] ms s hg hn
      hms hc) (mknodeList_good hX n name (S.keyOf ty name) [] ms s hg hn hms))
      ((mknodeList_keeps S n name _ [] ms).toWp s)) ?_ fun _ _ h => h.1.1
    rintro l s₁ ⟨⟨⟨hc1, hl⟩, hg1, hborn, -, -⟩, hf1⟩
    have hcs : κ.typed → ∀ f l, (f, l) ∈ cs → ∀ c ∈ l, Full S.fields c :=
      fun hτ f l hf => hfull hτ f l (List.mem_cons_of_mem _ hf)
    rw [wp_bind]
    refine wp_mono (wp_and (mknodeFields_coherent hX n ty cs s₁ hg1
      (Nat.lt_of_lt_of_le hn hf1.next) hcs hc1) ((mknodeFields_keeps S n ty cs).toWp s₁)) ?_
      fun _ _ h => h.1
    rintro rest s₂ ⟨⟨hc2, hrest⟩, hf2⟩
    refine ⟨hc2, fun p hp c hcp => ?_⟩
    rcases List.mem_cons.mp hp with rfl | hp
    · have hlt : Rev.node c < s₁.nextNode := (hborn c hcp).deep.self.lt
      exact (hl c hcp).congr (latest?_congr (hf2.branch _ hlt none trivial))
    · exact hrest p hp c hcp

theorem mknodeList_coherent (hX : Closed X) (n : NodeId) (name : String) :
    ∀ (key : Option String) (seen : List Value) (ms : List Msg) (s : State), Good S κ X s →
    n < s.nextNode → (κ.typed → ∀ m ∈ ms, Full S.fields m) → Coherent S s →
    wp (mknodeList S n name key seen ms) (fun l s' => Coherent S s' ∧ ∀ c ∈ l, InStep s' c)
      (fun _ s' => Coherent S s') s
  | key, seen, [], s, hg, _, _, hc => by
    rw [mknodeList]
    exact ⟨hc, by simp⟩
  | key, seen, m :: ms, s, hg, hn, hfull, hc => by
    have hms : κ.typed → ∀ m ∈ ms, Full S.fields m :=
      fun hτ m hm => hfull hτ m (List.mem_cons_of_mem _ hm)
    -- 残りの列を作ってから、先頭に継ぎ足す
    have rest : ∀ (key : Option String) (seen : List Value) (r : Rev) (s₁ : State),
        Good S κ X s₁ → n < s₁.nextNode → Coherent S s₁ → Deep S κ X s₁ r →
        s₁.latest? (Rev.node r) = some r →
        wp (do let rest ← mknodeList S n name key seen ms; pure (r :: rest))
          (fun l s' => Coherent S s' ∧ ∀ c ∈ l, InStep s' c) (fun _ s' => Coherent S s') s₁ := by
      intro key seen r s₁ hg1 hn1 hc1 hdeep hlat
      rw [wp_bind]
      refine wp_mono (wp_and (mknodeList_coherent hX n name key seen ms s₁ hg1 hn1 hms hc1)
        ((mknodeList_keeps S n name key seen ms).toWp s₁)) ?_ fun _ _ h => h.1
      rintro l s₂ ⟨⟨hc2, hl⟩, hf2⟩
      refine ⟨hc2, fun c hcl => ?_⟩
      rcases List.mem_cons.mp hcl with rfl | hcl
      · exact ⟨c, (latest?_congr (hf2.branch _ hdeep.self.lt none trivial)).trans hlat, rfl⟩
      · exact hl c hcl
    have hslot : SlotOk m (some ⟨n, name, key, key.bind m.label.attr⟩) := by
      rintro sl key' ⟨rfl⟩ hk
      have hk : key = some key' := hk
      show m.label.attr key' = key.bind m.label.attr
      rw [hk]; rfl
    have hm : κ.typed → Full S.fields m := fun hτ => hfull hτ m List.mem_cons_self
    rw [mknodeList, wp_bind]
    refine wp_mono (wp_and (wp_and (mknode_coherent hX m _ s hg hm hslot hc)
      (mknode_good hX m _ s hg hm hslot)) ((mknode_keeps S m _).toWp s)) ?_ fun _ _ h => h.1.1
    rintro r s₁ ⟨⟨hc1, hg1, hdeep, -, -, -, hlat⟩, hf1⟩
    have hn1 : n < s₁.nextNode := Nat.lt_of_lt_of_le hn hf1.next
    cases key with
    | none => exact rest none seen r s₁ hg1 hn1 hc1 hdeep hlat
    | some key =>
      dsimp only
      rw [wp_bind]
      refine wp_ofOption (fun v _ => ?_) fun _ => hc1
      split
      · exact hc1
      · exact rest (some key) (v :: seen) r s₁ hg1 hn1 hc1 hdeep hlat

end

/-! ## 版の書き換えと、中身の書き換え -/

theorem content_setField {r : Rev} {i : RevInfo} {f : String} {l : List Rev}
    (hi : i.config = Rev.config r) :
    Rev.content (.mk i (FieldTree.setField r.children f l))
      = overChildren f (fun _ => l.map Rev.content) (Rev.content r) := by
  obtain ⟨j, cs⟩ := r
  have hi : i.config = j.config := hi
  rw [Rev.content_mk, Rev.content_mk]
  unfold overChildren FieldTree.setField
  rw [FieldTree.label_mk, FieldTree.children_mk, FieldTree.children_mk, hi, List.map_map,
    List.map_map]
  congr 1
  refine List.map_congr_left fun p _ => ?_
  by_cases hp : p.1 = f <;> simp [hp]

/-- 子の列を差し替えて据えた版の中身。 -/
theorem install_content {name : String} {l : List Rev} {anns : List (CallbackType × Context)}
    {r : Rev} (h : install n k b name l anns s = (.ok r, s')) :
    Rev.content r = overChildren name (fun _ => l.map Rev.content) (Rev.content b.latest) := by
  rw [(replaceLatest_spec h).1]
  exact content_setField rfl

/-- 名前が重ならなければ、書き換えはその field の列だけで決まる。 -/
theorem overChildren_congr {m : Msg} {f : String} {g g' : List Msg → List Msg}
    (hnd : (m.children.map Prod.fst).Nodup) (h : g (m.child f) = g' (m.child f)) :
    overChildren f g m = overChildren f g' m := by
  unfold overChildren
  congr 1
  refine List.map_congr_left fun p hp => ?_
  obtain ⟨a, l⟩ := p
  by_cases ha : a = f
  · subst ha
    rw [FieldTree.child_eq_of_mem hnd hp] at h
    simp [h]
  · simp [ha]

theorem BranchOk.names_nodup (hτ : κ.typed) (hb : BranchOk S κ X s n k b) :
    ((Rev.content b.latest).children.map Prod.fst).Nodup := by
  have hn := (hb.latest.self.shape hτ).names
  have he : (Rev.content b.latest).children.map Prod.fst = b.latest.children.map Prod.fst := by
    rw [Rev.content, FieldTree.children_map, List.map_map]; rfl
  rw [he, hn]
  exact S.names_nodup _

/-- 見つけた子は、中身の上でもその一歩が選ぶ子である。 -/
theorem Found.selects {f : ChildField} {l : List Rev} {idx : Nat} {c : Rev} {v : Option Value}
    (hc : Found f l idx c v) : Seg.selects ⟨f, v⟩ (Rev.content c) = true := by
  cases v with
  | none => rfl
  | some v =>
    obtain ⟨key, hkey, hfind⟩ := hc
    have := (findRevByKey_eq_some hfind).2
    unfold Seg.selects
    simp only [hkey, Rev.label_content, decide_eq_true_eq]
    exact this

/-- 他の子は選ばれない。 -/
theorem Found.not_selects {f : ChildField} {l : List Rev} {idx j : Nat} {c x : Rev} {v : Value}
    (hd : DistinctKeys f l) (hc : Found f l idx c (some v)) (hx : l[j]? = some x) (hij : idx ≠ j) :
    Seg.selects ⟨f, some v⟩ (Rev.content x) = false := by
  obtain ⟨key, hkey, hfind⟩ := hc
  obtain ⟨hidx, hck⟩ := findRevByKey_eq_some hfind
  unfold Seg.selects
  simp only [hkey, Rev.label_content, decide_eq_false_iff_not]
  intro he
  exact hij (KeyedList.index_unique (hd key hkey) hidx hx (hck.trans he.symm))

theorem Found.not_list {f : ChildField} {l : List Rev} {idx : Nat} {c : Rev} {v : Value}
    (hc : Found f l idx c (some v)) (c' : Rev) : replaceChild f l idx c' = l.set idx c' := by
  obtain ⟨key, hkey, -⟩ := hc
  unfold replaceChild
  cases hk : f.kind with
  | single => rw [ChildField.key, hk] at hkey; cases hkey
  | list => rfl
  | keyed _ _ => rfl

/-- 子を一つ差し替えた列の中身。 -/
theorem Found.content_replace (hκ : κ.keys) (hτ : κ.typed) (hb : BranchOk S κ X s n k b)
    {f : ChildField} (hf : f ∈ S.fields (s.node n).type) {idx : Nat} {c c' : Rev}
    {v : Option Value} (hc : Found f (b.latest.child f.name) idx c v) {g : Msg → Msg}
    (he : Rev.content c' = g (Rev.content c)) :
    (replaceChild f (b.latest.child f.name) idx c').map Rev.content
      = ((b.latest.child f.name).map Rev.content).map fun x =>
          if Seg.selects ⟨f, v⟩ x then g x else x := by
  have hsel := hc.selects
  cases v with
  | none =>
    obtain ⟨c₀, hl⟩ := (hb.latest.self.shape hτ).single f (by rw [hb.config_type]; exact hf) hc.1
    have hcc : c₀ = c := by
      have := hc.2.1
      rw [hl] at this
      exact Option.some.inj this
    unfold replaceChild
    rw [hc.1, hl, hcc]
    simp [hsel, he]
  | some v =>
    rw [hc.not_list]
    have hd := hb.distinctKeys hκ hf
    obtain ⟨key, hkey, hfind⟩ := id hc
    have hidx := (findRevByKey_eq_some hfind).1
    refine List.ext_getElem? fun j => ?_
    rw [List.getElem?_map, List.getElem?_map, List.getElem?_map, List.getElem?_set]
    by_cases hij : idx = j
    · subst hij
      rw [hidx, if_pos rfl, if_pos (List.getElem?_eq_some_iff.mp hidx).1]
      simp [hsel, he]
    · rw [if_neg hij]
      cases hx : (b.latest.child f.name)[j]? with
      | none => rfl
      | some x => simp [hc.not_selects hd hx hij]

/-- 子を一つ外した列の中身。 -/
theorem Found.content_erase (hκ : κ.keys) (hb : BranchOk S κ X s n k b) {f : ChildField}
    (hf : f ∈ S.fields (s.node n).type) {idx : Nat} {c : Rev} {v : Value}
    (hc : Found f (b.latest.child f.name) idx c (some v)) :
    ((b.latest.child f.name).eraseIdx idx).map Rev.content
      = ((b.latest.child f.name).map Rev.content).filter
          fun x => !(Seg.selects ⟨f, some v⟩ x) := by
  have hd := hb.distinctKeys hκ hf
  obtain ⟨key, hkey, hfind⟩ := id hc
  have hidx := (findRevByKey_eq_some hfind).1
  obtain ⟨hlt, hget⟩ := List.getElem?_eq_some_iff.mp hidx
  -- 列を、外す子の前後に分ける
  have hsplit := (List.take_append_drop idx (b.latest.child f.name)).symm
  rw [List.drop_eq_getElem_cons hlt, hget] at hsplit
  have hpre : ∀ x ∈ (b.latest.child f.name).take idx,
      Seg.selects ⟨f, some v⟩ (Rev.content x) = false := by
    intro x hx
    obtain ⟨j, hj, hxj⟩ := List.mem_take_iff_getElem.mp hx
    refine hc.not_selects hd (List.getElem?_eq_some_iff.mpr ⟨_, hxj⟩) ?_
    omega
  have hpost : ∀ x ∈ (b.latest.child f.name).drop (idx + 1),
      Seg.selects ⟨f, some v⟩ (Rev.content x) = false := by
    intro x hx
    obtain ⟨j, hj⟩ := List.mem_iff_getElem?.mp hx
    rw [List.getElem?_drop] at hj
    exact hc.not_selects hd hj (by omega)
  rw [List.eraseIdx_eq_take_drop_succ, List.map_append]
  conv_rhs => rw [hsplit]
  rw [List.map_append, List.map_cons, List.filter_append, List.filter_cons, hc.selects]
  have h1 : ((List.take idx (b.latest.child f.name)).map Rev.content).filter
      (fun x => !(Seg.selects ⟨f, some v⟩ x))
        = (List.take idx (b.latest.child f.name)).map Rev.content := by
    refine List.filter_eq_self.mpr fun m hm => ?_
    obtain ⟨x, hx, rfl⟩ := List.mem_map.mp hm
    rw [hpre x hx]; rfl
  have h2 : ((List.drop (idx + 1) (b.latest.child f.name)).map Rev.content).filter
      (fun x => !(Seg.selects ⟨f, some v⟩ x))
        = (List.drop (idx + 1) (b.latest.child f.name)).map Rev.content := by
    refine List.filter_eq_self.mpr fun m hm => ?_
    obtain ⟨x, hx, rfl⟩ := List.mem_map.mp hm
    rw [hpost x hx]; rfl
  rw [h1, h2]
  rfl

/-! ## transaction の外の操作 -/

/-- node `n` の版を作り直した後に食い違うのは、`n` を指す版だけである。 -/
theorem CoherentBut.replace {config : Data} {children : List (String × List Rev)}
    {anns : List (CallbackType × Context)} {r : Rev}
    (h : replaceLatest n none b config children anns s = (.ok r, s'))
    (hother : ∀ m b', m ≠ n → (s.node m).branches none = some b' →
      ∀ f ∈ S.fields (s.node m).type, ∀ x ∈ b'.latest.child f.name, Rev.node x ≠ n → InStep s x)
    (hself : ∀ f ∈ S.fields (s.node n).type, ∀ x ∈ r.child f.name, Rev.node x ≠ n → InStep s x) :
    CoherentBut S (· = n) s' := by
  obtain ⟨-, -, -, hnode⟩ := replaceLatest_spec h
  have hty : ∀ m, (s'.node m).type = (s.node m).type := by
    intro m; rw [hnode, setBranch_type]
  have hbr : ∀ m, m ≠ n → (s'.node m).branches none = (s.node m).branches none := by
    intro m hm; rw [hnode, setBranch_branches, if_neg fun he => hm he.1]
  intro m b' hb' f hf x hx hne
  rw [hty] at hf
  refine InStep.congr ?_ (latest?_congr (hbr _ hne))
  by_cases hm : m = n
  · subst hm
    rw [hnode, setBranch_branches, if_pos ⟨rfl, rfl⟩] at hb'
    cases hb'
    exact hself f hf x hx hne
  · rw [hbr m hm] at hb'
    exact hother m b' hm hb' f hf x hx hne

theorem branchFor_none_cases (h : branchFor n none s = (.ok b, s₁)) :
    s = s₁ ∧ (s.node n).branches none = some b := by
  have hs := branchFor_none_eq h
  subst hs
  exact ⟨rfl, (branchFor_sameView h).2.2⟩

/--
操作が版 `r` を据えた後。元の中身は `m` である。

新しい版の中身は、元の中身の道筋の先を書き換えたものであり、
食い違うのは `n` を指す親の版だけである。
-/
def Simulated (S : Schema) (Ok : List Seg → Act → Prop) (route : List Seg) (n : NodeId)
    (s' : State) (r : Rev) (m : Msg) : Prop :=
  CoherentBut S (· = n) s' ∧ ∃ R act, Ok (route ++ R) act ∧
    Rev.content r = modifyAt (act.apply S) R m

theorem same_simulates (hc : Coherent S s) (hok : Ok route (.write (Rev.config b.latest))) :
    Simulated S Ok route n s b.latest (Rev.content b.latest) := by
  refine ⟨hc.but _, [], _, by rw [List.append_nil]; exact hok, ?_⟩
  obtain ⟨i, cs⟩ := b.latest
  rw [modifyAt, Act.apply, Rev.content_mk]
  rfl

theorem write_simulates (hc : Coherent S s) (hbr : (s.node n).branches none = some b) {d : Data}
    {r : Rev} {anns : List (CallbackType × Context)} (hok : Ok route (.write d))
    (hr : replaceLatest n none b d b.latest.children anns s = (.ok r, s')) :
    Simulated S Ok route n s' r (Rev.content b.latest) := by
  obtain ⟨hrr, -, -, -⟩ := replaceLatest_spec hr
  have hch : ∀ g, r.child g = b.latest.child g := by
    intro g; rw [hrr]; rfl
  refine ⟨CoherentBut.replace hr (fun m b' _ hb' f hf x hx _ => hc m b' hb' f hf x hx id)
    (fun f hf x hx _ => hc n b hbr f hf x (by rw [← hch]; exact hx) id), [], .write d,
    by rw [List.append_nil]; exact hok, ?_⟩
  rw [hrr, Rev.content_mk, modifyAt, Act.apply, Rev.content, FieldTree.children_map]
  rfl

theorem insert_simulates (hX : Closed X) (hτ : κ.typed) (hg : Good S κ X s) (hc : Coherent S s)
    (hbr : (s.node n).branches none = some b) {s₂ : State} {f : ChildField} {key : String}
    {v : Value} {data : Msg} {c r : Rev} {anns : List (CallbackType × Context)}
    (hf : f ∈ S.fields (s.node n).type) (hv : data.label.attr key = some v)
    (hok : Ok route (.insert f data)) (hkeep : Keeping S κ route (.insert f data))
    (hm : mknode S (complete S data) (some ⟨n, f.name, some key, some v⟩) s = (.ok c, s₂))
    (hr : install n none b f.name (b.latest.child f.name ++ [c]) anns s₂ = (.ok r, s')) :
    Simulated S Ok route n s' r (Rev.content b.latest) := by
  have hbok := hg.branch n none b hbr
  have hslot : SlotOk (complete S data) (some ⟨n, f.name, some key, some v⟩) := slotOk_complete hv
  have hfull : κ.typed → Full S.fields (complete S data) := fun hτ => (hkeep hτ).1.complete
  have hc2 := wp_ok (mknode_coherent hX (complete S data) _ s hg hfull hslot hc) hm
  obtain ⟨hg2, hdeep, -, -, hcont, hlat⟩ :=
    wp_ok (mknode_good hX (complete S data) _ s hg hfull hslot) hm
  have hbr2 : (s₂.node n).branches none = some b := by
    rw [mknode_other hm hbok.lt]; exact hbr
  have hty2 : (s₂.node n).type = (s.node n).type := (mknode_frame (k := none) hm).type n hbok.lt
  obtain ⟨hrr, -, -, -⟩ := replaceLatest_spec hr
  refine ⟨CoherentBut.replace hr (fun m b' _ hb' f hf x hx _ => hc2 m b' hb' f hf x hx id) ?_,
    [], .insert f data, by rw [List.append_nil]; exact hok, ?_⟩
  · intro g hg' x hx _
    rw [hrr] at hx
    rcases mem_child_setField hx with ⟨hgf, hx⟩ | ⟨-, hx⟩
    · rcases List.mem_append.mp hx with hx | hx
      · refine hc2 n b hbr2 f ?_ x hx id
        rw [hty2]; exact hf
      · rw [List.mem_singleton.mp hx]
        exact ⟨c, hlat, rfl⟩
    · exact hc2 n b hbr2 g hg' x hx id
  · rw [install_content hr, modifyAt, Act.apply]
    refine overChildren_congr (hbok.names_nodup hτ) ?_
    rw [Rev.child_content, List.map_append, List.map_cons, List.map_nil, hcont]

theorem erase_simulates (hκ : κ.keys) (hτ : κ.typed) (hg : Good S κ X s) (hc : Coherent S s)
    (hbr : (s.node n).branches none = some b) {f : ChildField} {idx : Nat} {v : Value} {c r : Rev}
    {anns : List (CallbackType × Context)} (hf : f ∈ S.fields (s.node n).type)
    (hfound : Found f (b.latest.child f.name) idx c (some v)) (hok : Ok route (.erase f v))
    (hr : install n none b f.name ((b.latest.child f.name).eraseIdx idx) anns s = (.ok r, s')) :
    Simulated S Ok route n s' r (Rev.content b.latest) := by
  have hbok := hg.branch n none b hbr
  obtain ⟨hrr, -, -, -⟩ := replaceLatest_spec hr
  refine ⟨CoherentBut.replace hr (fun m b' _ hb' f hf x hx _ => hc m b' hb' f hf x hx id) ?_,
    [], .erase f v, by rw [List.append_nil]; exact hok, ?_⟩
  · intro g hg' x hx _
    rw [hrr] at hx
    rcases mem_child_setField hx with ⟨hgf, hx⟩ | ⟨-, hx⟩
    · exact hc n b hbr f hf x (List.mem_of_mem_eraseIdx hx) id
    · exact hc n b hbr g hg' x hx id
  · rw [install_content hr, modifyAt, Act.apply]
    refine overChildren_congr (hbok.names_nodup hτ) ?_
    rw [Rev.child_content]
    exact hfound.content_erase hκ hbok hf

theorem down_simulates (hκ : κ.keys) (hτ : κ.typed) (hg : Good S κ X s)
    (hbr : (s.node n).branches none = some b) {s₂ : State} {f : ChildField} {idx : Nat}
    {v : Option Value} {c c' r : Rev} {anns : List (CallbackType × Context)}
    (hf : f ∈ S.fields (s.node n).type) (hfound : Found f (b.latest.child f.name) idx c v)
    (hf2 : Frame (· ≠ none) s s₂) (hland : Landed S κ X none (Rev.node c) s₂ (.ok c'))
    (hbr2 : (s₂.node n).branches none = some b)
    (hsim : Simulated S Ok (route ++ [⟨f, v⟩]) (Rev.node c) s₂ c' (Rev.content c))
    (hr : install n none b f.name (replaceChild f (b.latest.child f.name) idx c') anns s₂
      = (.ok r, s')) : Simulated S Ok route n s' r (Rev.content b.latest) := by
  have hbok := hg.branch n none b hbr
  obtain ⟨hcb, R, act, hact, hcontent⟩ := hsim
  obtain ⟨hg2, hnode, hdeep, bc, hbc, hbcl⟩ := hland
  have hbok2 := hg2.branch n none b hbr2
  have hfs2 : f ∈ S.fields (s₂.node n).type := by rw [hf2.type n hbok.lt]; exact hf
  have hat2 : ChildAt s₂ n f (Rev.node c) := (hfound.childAt hbok hf).1.mono hf2
  obtain ⟨hrr, -, -, -⟩ := replaceLatest_spec hr
  refine ⟨CoherentBut.replace hr ?_ ?_, ⟨f, v⟩ :: R, act, ?_, ?_⟩
  · -- 降りた先の node を指すのは、その親である自分の版だけである
    intro m b' hm hb' g hgm x hx _
    refine hcb m b' hb' g hgm x hx fun he => hm ?_
    have hax := ((hg2.branch m none b' hb').childAt hgm hx).1
    rw [he] at hax
    exact (hax.unique hat2).1
  · intro g hgn x hx _
    rw [hrr] at hx
    rcases mem_child_setField hx with ⟨hgf, hx⟩ | ⟨hgf, hx⟩
    · rcases hfound.replaceChild_cases hκ hbok hf hx with rfl | ⟨hx, hne⟩
      · refine ⟨x, ?_, rfl⟩
        rw [hnode, latest?_of_branch hbc, hbcl]
      · exact hcb n b hbr2 f hfs2 x hx hne
    · refine hcb n b hbr2 g hgn x hx fun he => hgf ?_
      have hax := (hbok2.childAt hgn hx).1
      rw [he] at hax
      exact (hax.unique hat2).2
  · rw [List.append_assoc] at hact; exact hact
  · rw [install_content hr, modifyAt]
    refine overChildren_congr (hbok.names_nodup hτ) ?_
    rw [Rev.child_content]
    exact hfound.content_replace hκ hτ hbok hf hcontent

/-- 同じ中身の子に替えても、親の中身は変わらない。 -/
theorem Found.content_modify (hκ : κ.keys) (hτ : κ.typed) (hb : BranchOk S κ X s n k b)
    {f : ChildField} (hf : f ∈ S.fields (s.node n).type) {idx : Nat} {c c' : Rev} {v : Value}
    (hfound : Found f (b.latest.child f.name) idx c (some v))
    (hsame : Rev.content c' = Rev.content c) {g : Msg → Msg}
    (he : Rev.content c' = g (Rev.content c)) :
    overChildren f.name (fun l => l.map fun x => if Seg.selects ⟨f, some v⟩ x then g x else x)
      (Rev.content b.latest) = Rev.content b.latest := by
  have hself : overChildren f.name (fun l => l.map fun x =>
      if Seg.selects ⟨f, some v⟩ x then g x else x) (Rev.content b.latest)
      = overChildren f.name (fun l => l) (Rev.content b.latest) := by
    refine overChildren_congr (hb.names_nodup hτ) ?_
    rw [Rev.child_content]
    have hrep := hfound.content_replace hκ hτ hb hf he
    rw [← hrep, hfound.not_list, List.map_set, hsame, ← List.map_set]
    obtain ⟨key, hkey, hfind⟩ := id hfound
    obtain ⟨hlt, hget⟩ := List.getElem?_eq_some_iff.mp (findRevByKey_eq_some hfind).1
    rw [← hget, List.set_getElem_self]
  rw [hself]
  unfold overChildren
  have hid : (Rev.content b.latest).children.map
      (fun p => if p.1 = f.name then (p.1, p.2) else p) = (Rev.content b.latest).children := by
    refine (List.map_congr_left fun p _ => ?_).trans (List.map_id _)
    split <;> rfl
  rw [hid, FieldTree.mk_label_children]

theorem downSame_simulates (hκ : κ.keys) (hτ : κ.typed) (hg : Good S κ X s)
    (hbr : (s.node n).branches none = some b) {s₂ : State} {f : ChildField} {idx : Nat}
    {v : Value} {c c' : Rev} (hf : f ∈ S.fields (s.node n).type)
    (hfound : Found f (b.latest.child f.name) idx c (some v)) (hf2 : Frame (· ≠ none) s s₂)
    (hland : Landed S κ X none (Rev.node c) s₂ (.ok c'))
    (hbr2 : (s₂.node n).branches none = some b)
    (hsim : Simulated S Ok (route ++ [⟨f, some v⟩]) (Rev.node c) s₂ c' (Rev.content c))
    (hh : Rev.hash c' = Rev.hash c) :
    Simulated S Ok route n s₂ b.latest (Rev.content b.latest) := by
  have hbok := hg.branch n none b hbr
  obtain ⟨hat, hdc⟩ := hfound.childAt hbok hf
  obtain ⟨hcb, R, act, hact, hcontent⟩ := hsim
  obtain ⟨hg2, hnode, hdeep, bc, hbc, hbcl⟩ := hland
  have hat2 : ChildAt s₂ n f (Rev.node c) := hat.mono hf2
  have hsame : Rev.content c' = Rev.content c := hdeep.content_eq_of_hash hτ hdc hh
  refine ⟨?_, ⟨f, some v⟩ :: R, act, ?_, ?_⟩
  · -- hash が同じなので、親の版にある子の版は、いまも子の node の最新の版と揃う
    intro m b' hb' g hgm x hx _
    by_cases he : Rev.node x = Rev.node c
    · have hax := ((hg2.branch m none b' hb').childAt hgm hx).1
      rw [he] at hax
      obtain ⟨rfl, hname⟩ := hax.unique hat2
      rw [hbr2] at hb'
      cases hb'
      rw [hname] at hx
      obtain rfl := hfound.eq_of_node hκ hbok hf hx he
      exact ⟨bc.latest, latest?_of_branch hbc, by rw [hbcl, hsame]⟩
    · exact hcb m b' hb' g hgm x hx he
  · rw [List.append_assoc] at hact; exact hact
  · rw [modifyAt, hfound.content_modify hκ hτ hbok hf hsame hcontent]

/-- 正常に終わった操作は、行き着いた先で一つの書き換えをする。 -/
theorem Effect.simulates (hX : Closed X) (hκ : κ.keys) (hτ : κ.typed)
    (hOk : ∀ route act, Ok route act → Keeping S κ route act)
    (h : Effect S k Ok route n s res s') : k = none → Good S κ X s → Alive s n →
    SlotRoute s n route → Coherent S s → ∀ r r₀, res = .ok r → s.latest? n = some r₀ →
    Simulated S Ok route n s' r (Rev.content r₀) := by
  -- 降りた先の操作。子の版の中身は、子の node の最新の版と揃っている
  have below : ∀ {s s₂ : State} {n : NodeId} {b : Branch} {f : ChildField} {idx : Nat}
      {v : Option Value} {c c' : Rev} {route : List Seg}, (s.node n).branches none = some b →
      f ∈ S.fields (s.node n).type → Found f (b.latest.child f.name) idx c v →
      Effect S none Ok (route ++ [⟨f, v⟩]) (Rev.node c) s (.ok c') s₂ →
      Good S κ X s → Coherent S s →
      (Alive s (Rev.node c) → SlotRoute s (Rev.node c) (route ++ [⟨f, v⟩]) →
        ∀ rc, s.latest? (Rev.node c) = some rc →
        Simulated S Ok (route ++ [⟨f, v⟩]) (Rev.node c) s₂ c' (Rev.content rc)) →
      Landed S κ X none (Rev.node c) s₂ (.ok c') ∧ (s₂.node n).branches none = some b ∧
        Simulated S Ok (route ++ [⟨f, v⟩]) (Rev.node c) s₂ c' (Rev.content c) := by
    intro s s₂ n b f idx v c c' route hbr hf hfound heff hg hc ih
    have hbok := hg.branch n none b hbr
    obtain ⟨halive, hsl⟩ := hfound.below hκ hbok hf
    obtain ⟨rc, hrc, hcontent⟩ := hc n b hbr f hf c hfound.mem id
    refine ⟨heff.good hX hOk hg halive fun _ => hsl, ?_, ?_⟩
    · rw [heff.parent_branches hX hbok hg hf hfound]
      exact hbr
    · rw [← hcontent]
      exact ih halive hsl rc hrc
  induction h with
  | fail e h => intro _ _ _ _ _ r r₀ hr; cases hr
  | same hb hok =>
    rintro rfl hg hn hroute hc r r₀ ⟨rfl⟩ hr₀
    obtain ⟨rfl, hbr⟩ := branchFor_none_cases hb
    rw [latest?_of_branch hbr] at hr₀
    cases hr₀
    exact same_simulates hc hok
  | write anns hb hty hok hr =>
    rintro rfl hg hn hroute hc r' r₀ ⟨rfl⟩ hr₀
    obtain ⟨rfl, hbr⟩ := branchFor_none_cases hb
    rw [latest?_of_branch hbr] at hr₀
    cases hr₀
    exact write_simulates hc hbr hok hr
  | insert anns hb hf hkey hv hnew hok hm hr =>
    rintro rfl hg hn hroute hc r' r₀ ⟨rfl⟩ hr₀
    obtain ⟨rfl, hbr⟩ := branchFor_none_cases hb
    rw [latest?_of_branch hbr] at hr₀
    cases hr₀
    exact insert_simulates hX hτ hg hc hbr hf hv hok (hOk _ _ hok) hm hr
  | insertFail => intro _ _ _ _ _ r r₀ hr; cases hr
  | erase anns hb hf hfound hok hr =>
    rintro rfl hg hn hroute hc r' r₀ ⟨rfl⟩ hr₀
    obtain ⟨rfl, hbr⟩ := branchFor_none_cases hb
    rw [latest?_of_branch hbr] at hr₀
    cases hr₀
    exact erase_simulates hκ hτ hg hc hbr hf hfound hok hr
  | down anns hb hf hfound heff hr ih =>
    rintro rfl hg hn hroute hc r' r₀ ⟨rfl⟩ hr₀
    obtain ⟨rfl, hbr⟩ := branchFor_none_cases hb
    rw [latest?_of_branch hbr] at hr₀
    cases hr₀
    obtain ⟨hland, hbr2, hsim⟩ := below hbr hf hfound heff hg hc
      fun ha hsl rc hrc => ih rfl hg ha hsl hc _ rc rfl hrc
    exact down_simulates hκ hτ hg hbr hf hfound heff.frame hland hbr2 hsim hr
  | downSame hb hf hfound heff hh ih =>
    rintro rfl hg hn hroute hc r' r₀ ⟨rfl⟩ hr₀
    obtain ⟨rfl, hbr⟩ := branchFor_none_cases hb
    rw [latest?_of_branch hbr] at hr₀
    cases hr₀
    obtain ⟨hland, hbr2, hsim⟩ := below hbr hf hfound heff hg hc
      fun ha hsl rc hrc => ih rfl hg ha hsl hc _ rc rfl hrc
    exact downSame_simulates hκ hτ hg hbr hf hfound heff.frame hland hbr2 hsim hh
  | keyChange => intro _ _ _ _ _ r r₀ hr; cases hr
  | failBelow => intro _ _ _ _ _ r r₀ hr; cases hr

end Voltha.Config
