import Voltha.Config.Properties.KeyedMerge
import Voltha.Config.Properties.Operation

/-!
# 不変条件の保存：merge

`merge_3way` が組み立てる列の要素は、dst の子か、src の子を `merge_child_func` に通したもので、
どれもその field の子である。key は node で決まるので、位置で差し替えても key の並びは変わらない。

dry run は状態を変えないので、ここでは本番の merge だけを見る。
-/

namespace Voltha.Config

open Exec

variable {S : Schema} {κ : Mode} {X : State → Rev → Prop}
variable {s s' s₀ : State} {n : NodeId} {f : ChildField}

/-! ## 作りかけの列 -/

section Entries

variable (S : Schema) (κ : Mode) (X : State → Rev → Prop)

/-- 作りかけの列の要素。node `n` の field `f` の子である。 -/
def EntryOk (s : State) (n : NodeId) (f : ChildField) (o : Option Rev) : Prop :=
  ∃ r, o = some r ∧ ChildAt s n f (Rev.node r) ∧ Deep S κ X s r ∧
    (κ.typed → (Rev.config r).type = f.type)

/-- 作りかけの列の key。 -/
def entryKeys (key : String) (l : List (Option Rev)) : List (Option Value) :=
  l.map fun o => o.bind (Rev.keyIn key)

/-- 作りかけの列の条件。 -/
structure ListOk (s : State) (n : NodeId) (f : ChildField) (l : List (Option Rev)) : Prop where
  entry : ∀ o ∈ l, EntryOk S κ X s n f o
  single : κ.typed → f.kind = .single → ∃ o, l = [o]
  nodup : κ.keys → ∀ key, f.key = some key → (entryKeys key l).Nodup

end Entries

theorem entryKeys_map_some (key : String) (l : List Rev) :
    entryKeys key (l.map some) = keysOf key l := by
  unfold entryKeys keysOf
  rw [List.map_map]; rfl

/-- 同じ key のものに差し替えても、key の並びは変わらない。 -/
theorem entryKeys_set {key : String} {l : List (Option Rev)} {i : Nat} {o : Option Rev}
    (h : (entryKeys key l)[i]? = some (o.bind (Rev.keyIn key))) :
    entryKeys key (l.set i o) = entryKeys key l := by
  unfold entryKeys at *
  rw [List.map_set]
  obtain ⟨hlt, he⟩ := List.getElem?_eq_some_iff.mp h
  rw [← he, List.set_getElem_self]

theorem EntryOk.mono (hX : Closed X) {K : Option TxId → Prop} (hf : Frame K s s') {o : Option Rev}
    (h : EntryOk S κ X s n f o) : EntryOk S κ X s' n f o := by
  obtain ⟨r, rfl, hat, hdeep, hty⟩ := h
  exact ⟨r, rfl, hat.mono hf, hdeep.mono hX hf, hty⟩

theorem ListOk.mono (hX : Closed X) {K : Option TxId → Prop} (hf : Frame K s s')
    {l : List (Option Rev)} (h : ListOk S κ X s n f l) : ListOk S κ X s' n f l :=
  { h with entry := fun o ho => (h.entry o ho).mono hX hf }

/-- 版の子の列。 -/
theorem Deep.listOk {r : Rev} (h : Deep S κ X s r) (hf : f ∈ S.fields (Rev.config r).type) :
    ListOk S κ X s (Rev.node r) f ((r.child f.name).map some) where
  entry o ho := by
    obtain ⟨c, hc, rfl⟩ := List.mem_map.mp ho
    exact ⟨c, rfl, h.self.child f hf c hc, h.child hc, fun hκ => (h.self.shape hκ).typed f hf c hc⟩
  single hκ hk := by
    obtain ⟨c, hc⟩ := (h.self.shape hκ).single f hf hk
    exact ⟨some c, by rw [hc]; rfl⟩
  nodup hκ key hk := by
    rw [entryKeys_map_some]
    exact (h.self.keyed hκ).nodup f hf key hk

/-! ## merge_child_func -/

/-- `merge_child_func` は、同じ node の新しい版を返す。 -/
def ChildMerge (S : Schema) (κ : Mode) (X : State → Rev → Prop)
    (mergeChild : Rev → Op (Option Rev)) : Prop :=
  ∀ c s, Good S κ X s → Deep S κ X s c → wp (mergeChild c)
    (fun o s' => Good S κ X s' ∧ Frame (fun _ => False) s s' ∧
      ∃ r, o = some r ∧ Rev.node r = Rev.node c ∧ Deep S κ X s' r)
    (fun _ s' => Good S κ X s') s

/-- merge の途中の状態。 -/
structure Mid (S : Schema) (κ : Mode) (X : State → Rev → Prop) (s₀ s : State) : Prop where
  good : Good S κ X s
  frame : Frame (fun _ => False) s₀ s

theorem Mid.trans (h : Mid S κ X s₀ s) (hg : Good S κ X s') (hf : Frame (fun _ => False) s s') :
    Mid S κ X s₀ s' := ⟨hg, h.frame.trans hf⟩

/-- 子を merge した結果は、その列の要素になり、key も変わらない。 -/
theorem ChildMerge.entry {mergeChild : Rev → Op (Option Rev)} (hX : Closed X)
    (hmc : ChildMerge S κ X mergeChild) {c : Rev} (hm : Mid S κ X s₀ s)
    (hc : EntryOk S κ X s₀ n f (some c)) :
    wp (mergeChild c)
      (fun o s' => Mid S κ X s₀ s' ∧ EntryOk S κ X s' n f o ∧
        (κ.keys → ∀ key, f.key = some key → o.bind (Rev.keyIn key) = Rev.keyIn key c))
      (fun _ s' => Good S κ X s') s := by
  obtain ⟨_, ⟨rfl⟩, hat, hdeep, hty⟩ := hc
  have hdeep' := hdeep.mono hX hm.frame
  refine wp_mono (hmc c s hm.good hdeep') ?_ fun _ _ h => h
  rintro o s' ⟨hg, hf, r, rfl, hnode, hr⟩
  refine ⟨hm.trans hg hf, ⟨r, rfl, ?_, hr, fun hκ => ?_⟩, fun hκ key hk => ?_⟩
  · rw [hnode]; exact hat.mono (hm.frame.trans hf)
  · rw [hdeep'.self.type_of_node_eq hf hr.self hnode]; exact hty hκ
  · exact (hat.mono hm.frame).key_of_node_eq hf hk (hdeep'.self.keyed hκ).own
      (hr.self.keyed hκ).own hnode

/-! ## 組み立ての途中 -/

/-- `merge_3way` が列 `l` を組み立てている途中の状態。 -/
structure Building (S : Schema) (κ : Mode) (X : State → Rev → Prop) (s₀ : State) (n : NodeId)
    (f : ChildField) (l : List (Option Rev)) (s : State) : Prop where
  mid : Mid S κ X s₀ s
  entry : ∀ o ∈ l, EntryOk S κ X s n f o

namespace Building

variable {l : List (Option Rev)} {o : Option Rev}

/-- 要素を差し替える。 -/
theorem set (h : Building S κ X s₀ n f l s) (i : Nat) (ho : EntryOk S κ X s n f o) :
    Building S κ X s₀ n f (l.set i o) s where
  mid := h.mid
  entry x hx := by
    rcases List.mem_or_eq_of_mem_set hx with hx | rfl
    · exact h.entry x hx
    · exact ho

/-- 要素を末尾に継ぎ足す。 -/
theorem snoc (h : Building S κ X s₀ n f l s) (ho : EntryOk S κ X s n f o) :
    Building S κ X s₀ n f (l ++ [o]) s where
  mid := h.mid
  entry x hx := by
    rcases List.mem_append.mp hx with hx | hx
    · exact h.entry x hx
    · rw [List.mem_singleton.mp hx]; exact ho

end Building

/-- 子の merge の間、組み立て中の列はそのまま使える。 -/
theorem ChildMerge.building {mergeChild : Rev → Op (Option Rev)} (hX : Closed X)
    (hmc : ChildMerge S κ X mergeChild) {c : Rev} {l : List (Option Rev)}
    (h : Building S κ X s₀ n f l s) (hc : EntryOk S κ X s₀ n f (some c)) :
    wp (mergeChild c)
      (fun o s' => Building S κ X s₀ n f l s' ∧ EntryOk S κ X s' n f o ∧
        (κ.keys → ∀ key, f.key = some key → o.bind (Rev.keyIn key) = Rev.keyIn key c))
      (fun _ s' => Good S κ X s') s := by
  have hmid : Mid S κ X s s := ⟨h.mid.good, Frame.refl _⟩
  refine wp_mono (hmc.entry hX hmid (hc.mono hX h.mid.frame)) ?_ fun _ _ h => h
  rintro o s' ⟨hm, ho, hok⟩
  exact ⟨⟨h.mid.trans hm.good hm.frame, fun x hx => (h.entry x hx).mono hX hm.frame⟩, ho, hok⟩

/-- 鍵つきの列では、版の key は重ならない。 -/
theorem ListOk.uniqueKeys {l : List Rev} (h : ListOk S κ X s n f (l.map some)) {key : String}
    (hkey : f.key = some key) (hκ : κ.keys) : UniqueKeys key l := by
  have := h.nodup hκ key hkey
  rwa [entryKeys_map_some] at this

/-- 引いた版は、その field の子である。 -/
theorem ListOk.look {l : List Rev} (h : ListOk S κ X s n f (l.map some))
    {m : List (Option Value × Nat)} {k : Option Value} {c : Nat × Rev}
    (hc : Config.look l m k = some c) : EntryOk S κ X s n f (some c.2) :=
  h.entry _ (List.mem_map.mpr ⟨_, List.mem_of_getElem? (look_getElem? hc), rfl⟩)

/-- 列の key の並びは、dst の列の key に、src で増えた key を継ぎ足したもの。 -/
structure Extends (key : String) (dstList : List Rev) (l : List (Option Rev)) : Prop where
  append : ∃ more, entryKeys key l = keysOf key dstList ++ more
  nodup : (entryKeys key l).Nodup

/-- これから継ぎ足す key。fork の列になく、dst にあるか、組み立て中の列にない。 -/
structure Adding (key : String) (forkList dstList : List Rev) (ks : List (Option Value))
    (l : List (Option Rev)) : Prop where
  nodup : ks.Nodup
  fresh : ∀ k ∈ ks, k ∉ keysOf key forkList
  absent : ∀ k ∈ ks, k ∈ keysOf key dstList ∨ k ∉ entryKeys key l

section Keys

variable {key : String} {forkList dstList : List Rev} {ks : List (Option Value)}
variable {l : List (Option Rev)} {k : Option Value} {o : Option Rev}

theorem entryKeys_snoc (ho : o.bind (Rev.keyIn key) = k) :
    entryKeys key (l ++ [o]) = entryKeys key l ++ [k] := by
  unfold entryKeys
  rw [List.map_append, List.map_cons, List.map_nil, ho]

/-- 列にない key を継ぎ足す。 -/
theorem Extends.snoc (h : Extends key dstList l) (ho : o.bind (Rev.keyIn key) = k)
    (hk : k ∉ entryKeys key l) : Extends key dstList (l ++ [o]) := by
  obtain ⟨more, hm⟩ := h.append
  refine ⟨⟨more ++ [k], ?_⟩, ?_⟩
  · rw [entryKeys_snoc ho, hm, List.append_assoc]
  · rw [entryKeys_snoc ho, ← List.concat_eq_append]
    exact h.nodup.concat hk

/-- dst での位置の要素を、同じ key のものに差し替える。 -/
theorem Extends.set (h : Extends key dstList l) {d : Nat × Rev} (hd : dstList[d.1]? = some d.2)
    (ho : o.bind (Rev.keyIn key) = Rev.keyIn key d.2) : Extends key dstList (l.set d.1 o) := by
  obtain ⟨more, hm⟩ := h.append
  have hget : (keysOf key dstList)[d.1]? = some (Rev.keyIn key d.2) := by
    unfold keysOf; rw [List.getElem?_map, hd]; rfl
  have hset : entryKeys key (l.set d.1 o) = entryKeys key l := by
    refine entryKeys_set ?_
    rw [hm, ho]
    exact List.getElem?_append_left (List.getElem?_eq_some_iff.mp hget).1 ▸ hget
  exact ⟨⟨more, hset ▸ hm⟩, hset ▸ h.nodup⟩

/-- 列を変えずに次の key へ進む。 -/
theorem Adding.tail (h : Adding key forkList dstList (k :: ks) l) :
    Adding key forkList dstList ks l where
  nodup := (List.nodup_cons.mp h.nodup).2
  fresh k' hk' := h.fresh k' (List.mem_cons_of_mem _ hk')
  absent k' hk' := h.absent k' (List.mem_cons_of_mem _ hk')

/-- 先頭の key を継ぎ足して、次の key へ進む。 -/
theorem Adding.snoc (h : Adding key forkList dstList (k :: ks) l)
    (ho : o.bind (Rev.keyIn key) = k) : Adding key forkList dstList ks (l ++ [o]) where
  nodup := h.tail.nodup
  fresh := h.tail.fresh
  absent k' hk' := by
    refine (h.tail.absent k' hk').imp id fun hn hmem => ?_
    rw [entryKeys_snoc ho] at hmem
    rcases List.mem_append.mp hmem with hmem | hmem
    · exact hn hmem
    · rw [List.mem_singleton.mp hmem] at hk'
      exact (List.nodup_cons.mp h.nodup).1 hk'

/-- src だけで増えた key は、組み立て中の列にない。 -/
theorem Adding.head_not_mem (h : Adding key forkList dstList (k :: ks) l)
    (hfork : UniqueKeys key forkList) (hdst : UniqueKeys key dstList)
    (hk : k ∉ (analyzeChanges key forkList dstList).addedKeys) : k ∉ entryKeys key l :=
  (h.absent k List.mem_cons_self).resolve_left fun hmem =>
    hk ((mem_addedKeys hfork hdst).mpr ⟨hmem, h.fresh k List.mem_cons_self⟩)

/-- dst の列から始める。 -/
theorem Adding.init {srcList : List Rev} (hfork : UniqueKeys key forkList)
    (hsrc : UniqueKeys key srcList) :
    Adding key forkList dstList (analyzeChanges key forkList srcList).addedKeys
      (dstList.map some) where
  nodup := nodup_addedKeys hsrc
  fresh _ hk := ((mem_addedKeys hfork hsrc).mp hk).2
  absent k _ := by rw [entryKeys_map_some]; exact Classical.em _

theorem Extends.init (hdst : UniqueKeys key dstList) : Extends key dstList (dstList.map some) where
  append := ⟨[], by rw [entryKeys_map_some, List.append_nil]⟩
  nodup := by rw [entryKeys_map_some]; exact hdst

end Keys

/-! ## 一つの field -/

section Field

variable {mergeChild : Rev → Op (Option Rev)} (hX : Closed X) (hmc : ChildMerge S κ X mergeChild)

include hX hmc

/-- 列を順に merge する。 -/
theorem mapList_good : ∀ (l : List Rev) (s : State), Good S κ X s →
    (∀ c ∈ l, EntryOk S κ X s n f (some c)) →
    wp (Exec.mapList mergeChild l)
      (fun l' s' => Mid S κ X s s' ∧ (∀ o ∈ l', EntryOk S κ X s' n f o) ∧ l'.length = l.length)
      (fun _ s' => Good S κ X s') s
  | [], s, hg, _ => ⟨⟨hg, Frame.refl _⟩, by simp, rfl⟩
  | c :: l, s, hg, hl => by
    have hmid : Mid S κ X s s := ⟨hg, Frame.refl _⟩
    rw [Exec.mapList, wp_bind]
    refine wp_mono (hmc.entry hX hmid (hl c List.mem_cons_self)) ?_ fun _ _ h => h
    rintro o s₁ ⟨hm1, ho, -⟩
    rw [wp_bind]
    refine wp_mono (mapList_good l s₁ hm1.good fun c hc =>
      (hl c (List.mem_cons_of_mem _ hc)).mono hX hm1.frame) ?_ fun _ _ h => h
    rintro l' s₂ ⟨hm2, hl', hlen⟩
    refine ⟨hm1.trans hm2.good hm2.frame, ?_, by simp [hlen]⟩
    intro x hx
    rcases List.mem_cons.mp hx with rfl | hx
    · exact ho.mono hX hm2.frame
    · exact hl' x hx

/-- src の要素を merge して、src での位置に戻す。 -/
theorem own_step {key : String} (hkey : f.key = some key) {srcList : List Rev}
    (hsrc : ListOk S κ X s n f (srcList.map some)) {l : List (Option Rev)} {s₁ : State}
    {m : List (Option Value × Nat)} {k : Option Value} {c : Nat × Rev}
    (h : Building S κ X s n f l s₁ ∧ (κ.keys → entryKeys key l = keysOf key srcList))
    (hc : look srcList m k = some c) :
    wp (mergeChild c.2) (fun o s' => (Building S κ X s n f (l.set c.1 o) s' ∧
        (κ.keys → entryKeys key (l.set c.1 o) = keysOf key srcList)) ∧ o ≠ none)
      (fun _ s' => Good S κ X s') s₁ := by
  refine wp_mono (hmc.building hX h.1 (hsrc.look hc)) ?_ fun _ _ h => h
  rintro o s₂ ⟨hb, ho, hok⟩
  refine ⟨⟨hb.set c.1 ho, fun hκ => ?_⟩, ?_⟩
  · rw [← h.2 hκ]
    refine entryKeys_set ?_
    rw [h.2 hκ, hok hκ key hkey]
    unfold keysOf
    rw [List.getElem?_map, look_getElem? hc]; rfl
  · obtain ⟨x, rfl, -⟩ := ho
    simp

theorem mergeKeyedOwn_good {key : String} (hkey : f.key = some key) {forkList srcList : List Rev}
    (hsrc : ListOk S κ X s n f (srcList.map some)) (hg : Good S κ X s) :
    wp (mergeKeyedOwn mergeChild key forkList srcList)
      (fun p s' => Mid S κ X s s' ∧ ListOk S κ X s' n f p.1)
      (fun _ s' => Good S κ X s') s := by
  -- 要素はこの field の子で、key の並びは src の列と同じ
  let Inv : List (Option Value) → List (Option Rev) → State → Prop := fun _ l s' =>
    Building S κ X s n f l s' ∧ (κ.keys → entryKeys key l = keysOf key srcList)
  have hinit : Inv [] (srcList.map some) s :=
    ⟨⟨⟨hg, Frame.refl _⟩, hsrc.entry⟩, fun _ => entryKeys_map_some _ _⟩
  unfold mergeKeyedOwn
  rw [wp_bind]
  refine wp_mono (ownAdded_wp Inv (fun k ks l s₁ h _ => h.1.mid.good)
    (fun k ks l s₁ idx r h hlook => wp_mono (own_step hX hmc hkey hsrc (c := (idx, r)) h hlook)
      (fun o s' h => ⟨fun he => absurd he h.2, fun _ => h.1⟩) fun _ _ h => h) _ _ [] s hinit) ?_
    fun _ _ h => h
  rintro p s₁ h1
  dsimp only
  rw [wp_bind]
  refine wp_mono (ownChanged_wp Inv (fun k ks l s₁ h _ => h.1.mid.good)
    (fun k ks l s₁ idx r h hlook => wp_mono (own_step hX hmc hkey hsrc (c := (idx, r)) h hlook)
      (fun o s' h => h.1) fun _ _ h => h) _ _ s₁ h1) ?_ fun _ _ h => h
  rintro l s₂ ⟨hb, hk⟩
  refine ⟨hb.mid, hb.entry, fun hκ hs => ?_, fun hκ key' hkey' => ?_⟩
  · rw [ChildField.key, hs] at hkey; cases hkey
  · rw [hkey] at hkey'
    cases hkey'
    rw [hk hκ]
    exact hsrc.uniqueKeys hkey hκ

section Both

variable {key : String} (hkey : f.key = some key) {forkList srcList dstList : List Rev}

include hkey

/-- src で増えた key は、末尾に継ぎ足す。両側で増えた key は、列を変えない。 -/
theorem bothAdded_good (hfork : κ.keys → UniqueKeys key forkList)
    (hsrc : ListOk S κ X s n f (srcList.map some)) (hdst : ListOk S κ X s n f (dstList.map some))
    (hg : Good S κ X s) :
    wp (bothAdded mergeChild srcList dstList (analyzeChanges key forkList srcList)
        (analyzeChanges key forkList dstList) (analyzeChanges key forkList srcList).addedKeys
        (dstList.map some) [])
      (fun p s' => Building S κ X s n f p.1 s' ∧ (κ.keys → Extends key dstList p.1))
      (fun _ s' => Good S κ X s') s := by
  have husrc := hsrc.uniqueKeys hkey
  have hudst := hdst.uniqueKeys hkey
  let Inv : List (Option Value) → List (Option Rev) → State → Prop := fun ks l s' =>
    Building S κ X s n f l s' ∧ (κ.keys → Extends key dstList l ∧ Adding key forkList dstList ks l)
  have hinit : Inv (analyzeChanges key forkList srcList).addedKeys (dstList.map some) s :=
    ⟨⟨⟨hg, Frame.refl _⟩, hdst.entry⟩, fun hκ =>
      ⟨Extends.init (hudst hκ), Adding.init (hfork hκ) (husrc hκ)⟩⟩
  refine wp_mono (bothAdded_wp Inv (fun k ks l s₁ h _ => h.1.mid.good) ?_ ?_ _ _ [] s hinit)
    (fun p s' h => ⟨h.1, fun hκ => (h.2 hκ).1⟩) fun _ _ h => h
  · intro k ks l s₁ c h hc hk
    split
    · exact h.1.mid.good
    · next d hd =>
      split
      · exact wp_mono (hmc.building hX h.1 (hdst.look hd))
          (fun o s₂ h' => ⟨h'.1, fun hκ => ⟨(h.2 hκ).1, (h.2 hκ).2.tail⟩⟩) fun _ _ h => h
      · exact h.1.mid.good
  · intro k ks l s₁ c h hc hk
    refine wp_mono (hmc.building hX h.1 (hsrc.look hc)) ?_ fun _ _ h => h
    rintro o s₂ ⟨hb, ho, hok⟩
    refine ⟨fun hn => ?_, fun _ => ⟨hb.snoc ho, fun hκ => ?_⟩⟩
    · obtain ⟨x, rfl, -⟩ := ho
      cases hn
    · have hok' : o.bind (Rev.keyIn key) = k :=
        (hok hκ key hkey).trans ((look_eq_some (husrc hκ)).mp hc).2
      have hnew := (h.2 hκ).2.head_not_mem (hfork hκ) (hudst hκ) hk
      exact ⟨(h.2 hκ).1.snoc hok' hnew, (h.2 hκ).2.snoc hok'⟩

/-- src で変わった key は、dst での位置に差し替える。 -/
theorem bothChanged_good (hsrc : ListOk S κ X s n f (srcList.map some))
    (hdst : ListOk S κ X s n f (dstList.map some)) {ks : List (Option Value)}
    {l : List (Option Rev)} {s₁ : State}
    (h : Building S κ X s n f l s₁ ∧ (κ.keys → Extends key dstList l)) :
    wp (bothChanged mergeChild srcList dstList (analyzeChanges key forkList srcList)
        (analyzeChanges key forkList dstList) ks l)
      (fun l' s' => Building S κ X s n f l' s' ∧ (κ.keys → Extends key dstList l'))
      (fun _ s' => Good S κ X s') s₁ := by
  let Inv : List (Option Value) → List (Option Rev) → State → Prop := fun _ l s' =>
    Building S κ X s n f l s' ∧ (κ.keys → Extends key dstList l)
  refine bothChanged_wp Inv (fun k ks l s₁ h _ => h.1.mid.good)
    (fun k ks l s₁ h _ _ => h.1.mid.good) ?_ ks l s₁ h
  intro k ks l s₁ c d h hrem hc hd
  have hchild := hmc.building hX h.1 (hsrc.look hc)
  split
  · exact wp_mono hchild (fun o s₂ h' => ⟨h'.1, h.2⟩) fun _ _ h => h
  · split
    · exact h.1.mid.good
    · refine wp_mono hchild ?_ fun _ _ h => h
      rintro o s₂ ⟨hb, ho, hok⟩
      refine ⟨hb.set d.1 ho, fun hκ => ?_⟩
      obtain ⟨hget, hkd⟩ := (look_eq_some (hdst.uniqueKeys hkey hκ)).mp hd
      have hkc := ((look_eq_some (hsrc.uniqueKeys hkey hκ)).mp hc).2
      exact (h.2 hκ).set hget ((hok hκ key hkey).trans (hkc.trans hkd.symm))

omit hX hmc in
/-- src で消えた key を取り除いても、残りの要素は元のままである。 -/
theorem bothRemoved_good {dst : AnalyzeChanges} {ks : List (Option Value)} {l : List (Option Rev)}
    {ch : List Change} (hm : Mid S κ X s₀ s) (hl : ListOk S κ X s n f l) :
    wp (bothRemoved dst ks l ch) (fun p s' => Mid S κ X s₀ s' ∧ ListOk S κ X s' n f p.1)
      (fun _ s' => Good S κ X s') s := by
  refine wp_mono (bothRemoved_wp (fun _ l => ListOk S κ X s n f l) (fun _ _ _ _ _ => hm.good)
    (fun _ _ _ h _ _ => h) ?_ ks l ch hl) ?_ fun _ _ h => h
  · intro k ks l hl _ _
    split
    · exact hm.good
    · split
      · exact hm.good
      · exact hm.good
      · refine ⟨fun o ho => hl.entry o (List.mem_of_mem_eraseIdx ho), fun hκ hs => ?_,
          fun hκ key' hk' => ?_⟩
        · rw [ChildField.key, hs] at hkey; cases hkey
        · exact (hl.nodup hκ key' hk').sublist ((List.eraseIdx_sublist ..).map _)
  · rintro p s' ⟨hl, rfl⟩
    exact ⟨hm, hl⟩

theorem mergeKeyedBoth_good (hfork : κ.keys → UniqueKeys key forkList)
    (hsrc : ListOk S κ X s n f (srcList.map some)) (hdst : ListOk S κ X s n f (dstList.map some))
    (hg : Good S κ X s) :
    wp (mergeKeyedBoth mergeChild key forkList srcList dstList)
      (fun p s' => Mid S κ X s s' ∧ ListOk S κ X s' n f p.1)
      (fun _ s' => Good S κ X s') s := by
  unfold mergeKeyedBoth
  rw [wp_bind]
  refine wp_mono (bothAdded_good hX hmc hkey hfork hsrc hdst hg) ?_ fun _ _ h => h
  rintro p s₁ h1
  rw [wp_bind]
  refine wp_mono (bothChanged_good hX hmc hkey hsrc hdst h1) ?_ fun _ _ h => h
  rintro l s₂ ⟨hb, hk⟩
  refine bothRemoved_good hkey hb.mid ⟨hb.entry, fun _ hs => ?_, fun hκ key' hkey' => ?_⟩
  · rw [ChildField.key, hs] at hkey; cases hkey
  · rw [hkey] at hkey'
    cases hkey'
    exact (hk hκ).nodup

end Both

theorem mergeField_good {forkList srcList dstList : List Rev}
    (hfork : κ.keys → ∀ key, f.key = some key → UniqueKeys key forkList)
    (hsrc : ListOk S κ X s n f (srcList.map some)) (hdst : ListOk S κ X s n f (dstList.map some))
    (hg : Good S κ X s) :
    wp (mergeField mergeChild f forkList srcList dstList)
      (fun p s' => Mid S κ X s s' ∧ ListOk S κ X s' n f p.1)
      (fun _ s' => Good S κ X s') s := by
  have hmap : wp (Exec.mapList mergeChild srcList)
      (fun l' s' => Mid S κ X s s' ∧ ((f.key = none → ListOk S κ X s' n f l')))
      (fun _ s' => Good S κ X s') s := by
    refine wp_mono (mapList_good hX hmc (n := n) (f := f) srcList s hg fun c hc =>
      hsrc.entry _ (List.mem_map.mpr ⟨c, hc, rfl⟩)) ?_ fun _ _ h => h
    rintro l' s' ⟨hm, hl, hlen⟩
    refine ⟨hm, fun hnone => ⟨hl, fun hκ hk => ?_, fun _ key hkey => ?_⟩⟩
    · obtain ⟨o, ho⟩ := hsrc.single hκ hk
      have hlen' : l'.length = 1 := by rw [hlen, ← List.length_map (f := some), ho]; rfl
      exact List.length_eq_one_iff.mp hlen'
    · rw [hnone] at hkey; cases hkey
  have hplain : f.key = none → wp
      (if dstList = forkList then
        if srcList = forkList then Exec.raise (.assertion "We should not be here otherwise")
        else do
          let l ← Exec.mapList mergeChild srcList
          pure (l, if f.kind = .list then [(.postListchange, .operation f.name)] else [])
      else if srcList ≠ forkList then
        Exec.raise (.mergeConflict
          "Cannot merge because single child node or un-keyedchildren list has changed")
      else pure (dstList.map some, []) : Op (List (Option Rev) × List Change))
      (fun p s' => Mid S κ X s s' ∧ ListOk S κ X s' n f p.1) (fun _ s' => Good S κ X s') s := by
    intro hnone
    split
    · split
      · exact hg
      · rw [wp_bind]
        exact wp_mono hmap (fun l' s' h => ⟨h.1, h.2 hnone⟩) fun _ _ h => h
    · split
      · exact hg
      · exact ⟨⟨hg, Frame.refl _⟩, hdst⟩
  unfold mergeField
  split
  · rw [wp_bind]
    exact wp_mono hmap (fun l' s' h => ⟨h.1, hdst.mono hX h.1.frame⟩) fun _ _ h => h
  · cases hk : f.kind with
    | single => rw [hk] at hplain; exact hplain (by unfold ChildField.key; rw [hk])
    | list => rw [hk] at hplain; exact hplain (by unfold ChildField.key; rw [hk])
    | keyed key kt =>
      have hkey : f.key = some key := by unfold ChildField.key; rw [hk]
      dsimp only
      split
      · exact mergeKeyedOwn_good hX hmc hkey hsrc hg
      · exact mergeKeyedBoth_good hX hmc hkey (fun hκ => hfork hκ key hkey) hsrc hdst hg

end Field

/-! ## 全 field -/

/-- 作りかけの辞書の条件。 -/
structure DictOk (S : Schema) (κ : Mode) (X : State → Rev → Prop) (s : State) (dst : Rev)
    (acc : List (String × List (Option Rev))) : Prop where
  names : acc.map Prod.fst = dst.children.map Prod.fst
  deep : ∀ p ∈ acc, ∀ o ∈ p.2, ∃ r, o = some r ∧ Deep S κ X s r
  list : ∀ f ∈ S.fields (Rev.config dst).type,
    ListOk S κ X s (Rev.node dst) f ((acc.lookup f.name).getD [])

theorem DictOk.mono (hX : Closed X) {K : Option TxId → Prop} (hf : Frame K s s') {dst : Rev}
    {acc : List (String × List (Option Rev))} (h : DictOk S κ X s dst acc) :
    DictOk S κ X s' dst acc where
  names := h.names
  deep p hp o ho := by
    obtain ⟨r, hr, hd⟩ := h.deep p hp o ho
    exact ⟨r, hr, hd.mono hX hf⟩
  list f hm := (h.list f hm).mono hX hf

/-- dst の辞書の写し。 -/
theorem Deep.dictOk {dst : Rev} (h : Deep S κ X s dst) :
    DictOk S κ X s dst (dst.children.map fun p => (p.1, p.2.map some)) where
  names := by rw [List.map_map]; rfl
  deep p hp o ho := by
    obtain ⟨q, hq, rfl⟩ := List.mem_map.mp hp
    obtain ⟨c, hc, rfl⟩ := List.mem_map.mp ho
    exact ⟨c, rfl, h.sub (FieldTree.Sub.of_child hq hc)⟩
  list f hm := by
    rw [FieldTree.lookup_map_snd fun _ (l : List Rev) => l.map some]
    have := h.listOk hm
    unfold FieldTree.child at this
    cases hq : dst.children.lookup f.name with
    | none => rw [hq] at this; exact this
    | some l => rw [hq] at this; exact this

/-- 一つの field の列を差し替えた辞書。 -/
theorem DictOk.setField {dst : Rev} {acc : List (String × List (Option Rev))}
    (h : DictOk S κ X s dst acc) {l : List (Option Rev)}
    (hf : f ∈ S.fields (Rev.config dst).type) (hl : ListOk S κ X s (Rev.node dst) f l) :
    DictOk S κ X s dst (FieldTree.setField acc f.name l) where
  names := by rw [FieldTree.setField_keys]; exact h.names
  deep p hp o ho := by
    obtain ⟨g, m⟩ := p
    rcases FieldTree.mem_setField hp with ⟨-, rfl⟩ | ⟨-, hm⟩
    · obtain ⟨r, hr, -, hd, -⟩ := hl.entry o ho
      exact ⟨r, hr, hd⟩
    · exact h.deep _ hm o ho
  list g hg := by
    rw [FieldTree.lookup_setField]
    split
    · next he =>
      have hgf := S.field_unique hg hf he
      subst hgf
      cases hq : acc.lookup g.name with
      | none =>
        have := h.list g hg
        rw [hq] at this
        exact this
      | some _ => exact hl
    · exact h.list g hg

theorem mergeFields_good (hX : Closed X) {mergeChild : Rev → Op (Option Rev)}
    (hmc : ChildMerge S κ X mergeChild) {fork src dst : Rev} :
    ∀ (fs : List ChildField) (acc : List (String × List (Option Rev))) (ch : List Change)
      (s : State), Good S κ X s → Deep S κ X s fork → Deep S κ X s src → Deep S κ X s dst →
      Rev.node src = Rev.node dst → (Rev.config fork).type = (Rev.config dst).type →
      (Rev.config src).type = (Rev.config dst).type →
      (∀ f ∈ fs, f ∈ S.fields (Rev.config dst).type) → DictOk S κ X s dst acc →
    wp (mergeFields mergeChild fork src dst fs acc ch)
      (fun p s' => Mid S κ X s s' ∧ DictOk S κ X s' dst p.1) (fun _ s' => Good S κ X s') s
  | [], acc, ch, s, hg, _, _, _, _, _, _, _, hacc => ⟨⟨hg, Frame.refl _⟩, hacc⟩
  | f :: fs, acc, ch, s, hg, hfork, hsrc, hdst, hn, htf, hts, hfs, hacc => by
    have hf := hfs f List.mem_cons_self
    rw [mergeFields, wp_bind]
    have hls := hsrc.listOk (f := f) (by rw [hts]; exact hf)
    rw [hn] at hls
    refine wp_mono (mergeField_good hX hmc (fun hκ key hk =>
      (hfork.self.keyed hκ).nodup f (by rw [htf]; exact hf) key hk) hls (hdst.listOk hf) hg) ?_
      fun _ _ h => h
    rintro p s₁ ⟨hm, hl⟩
    refine wp_mono (mergeFields_good hX hmc fs _ _ s₁ hm.good (hfork.mono hX hm.frame)
      (hsrc.mono hX hm.frame) (hdst.mono hX hm.frame) hn htf hts
      (fun g hg => hfs g (List.mem_cons_of_mem _ hg))
      ((hacc.mono hX hm.frame).setField hf hl)) ?_ fun _ _ h => h
    rintro q s₂ ⟨hm2, hq⟩
    exact ⟨hm.trans hm2.good hm2.frame, hq⟩

/-! ## merge_3way -/

theorem mapM_id_eq_some {α : Type} {l : List (Option α)} {l' : List α} :
    l.mapM id = some l' ↔ l = l'.map some := by
  induction l generalizing l' with
  | nil => cases l' <;> simp
  | cons o l ih =>
    rw [List.mapM_cons]
    cases l' with
    | nil => cases o <;> cases l.mapM id <;> simp
    | cons a l' =>
      rw [List.map_cons, List.cons.injEq, ← ih]
      cases o <;> cases l.mapM id <;> simp

theorem allRevs_eq_some {acc : List (String × List (Option Rev))} {cs : List (String × List Rev)} :
    allRevs acc = some cs ↔ acc = cs.map fun p => (p.1, p.2.map some) := by
  induction acc generalizing cs with
  | nil => cases cs <;> simp [allRevs]
  | cons p acc ih =>
    obtain ⟨g, l⟩ := p
    rw [allRevs]
    cases cs with
    | nil =>
      simp only [List.map_nil]
      cases l.mapM id with
      | none => simp
      | some l' => cases allRevs acc <;> simp
    | cons q cs =>
      obtain ⟨g', m⟩ := q
      simp only [List.map_cons, List.cons.injEq, Prod.mk.injEq]
      rw [← ih, ← mapM_id_eq_some]
      cases l.mapM id with
      | none => simp
      | some l' => cases allRevs acc <;> simp [and_assoc]

/-- 揃った辞書から作った版。local data は src か dst のもの。 -/
theorem DictOk.deep_new {dst r : Rev} {acc : List (String × List (Option Rev))}
    {cs : List (String × List Rev)} {i : RevInfo} (h : DictOk S κ X s dst acc)
    (hcs : allRevs acc = some cs) (hdst : Deep S κ X s dst) (hr : Fits S κ X s r)
    (hrn : Rev.node r = Rev.node dst) (hrt : (Rev.config r).type = (Rev.config dst).type)
    (hnode : i.node = Rev.node dst) (hcfg : i.config = Rev.config r) (hx : X s (.mk i cs)) :
    Deep S κ X s (.mk i cs) := by
  rw [allRevs_eq_some] at hcs
  subst hcs
  have hlook : ∀ g, ((cs.map fun p => (p.1, p.2.map some)).lookup g).getD []
      = (FieldTree.child (.mk i cs) g).map some := by
    intro g
    rw [FieldTree.lookup_map_snd fun _ (l : List Rev) => l.map some]
    unfold FieldTree.child
    rw [FieldTree.children_mk]
    cases cs.lookup g <;> rfl
  have e1 : Rev.node (.mk i cs) = Rev.node dst := hnode
  have e2 : (Rev.config (.mk i cs)).type = (Rev.config dst).type := by
    show i.config.type = _
    rw [hcfg, hrt]
  have hlist : ∀ f ∈ S.fields (Rev.config dst).type,
      ListOk S κ X s (Rev.node dst) f ((FieldTree.child (.mk i cs) f.name).map some) :=
    fun f hf => hlook f.name ▸ h.list f hf
  have hself : Fits S κ X s (.mk i cs) := by
    refine ⟨?_, ?_, ?_, ?_, fun hκ => ⟨?_, ?_⟩, fun hκ => ⟨?_, ?_, ?_⟩, hx⟩
    · rw [e1]; exact hdst.self.lt
    · rw [e1]; exact hdst.self.born
    · rw [e1, e2]; exact hdst.self.type_eq
    · rw [e1, e2]
      intro f hf c hc
      obtain ⟨_, ⟨rfl⟩, hat, -, -⟩ := (hlist f hf).entry (some c) (List.mem_map.mpr ⟨c, hc, rfl⟩)
      exact hat
    · rw [e1]
      show OwnKey s (Rev.node dst) i.config
      rw [hcfg, ← hrn]; exact (hr.keyed hκ).own
    · rw [e2]
      intro f hf key hk
      have := (hlist f hf).nodup hκ key hk
      rwa [entryKeys_map_some] at this
    · rw [e2, ← (hdst.self.shape hκ).names, ← h.names, List.map_map]; rfl
    · rw [e2]
      intro f hf c hc
      obtain ⟨_, ⟨rfl⟩, -, -, hty⟩ := (hlist f hf).entry (some c) (List.mem_map.mpr ⟨c, hc, rfl⟩)
      exact hty hκ
    · rw [e2]
      intro f hf hk
      obtain ⟨o, ho⟩ := (hlist f hf).single hκ hk
      have hlen : (FieldTree.child (.mk i cs) f.name).length = 1 := by
        have := congrArg List.length ho
        simpa using this
      exact List.length_eq_one_iff.mp hlen
  intro r' hr'
  rcases FieldTree.sub_mk_iff.mp hr' with rfl | ⟨g, m, c, hg, hc, hsub⟩
  · exact hself
  · obtain ⟨_, ⟨rfl⟩, hd⟩ := h.deep (g, m.map some) (List.mem_map.mpr ⟨(g, m), hg, rfl⟩) (some c)
      (List.mem_map.mpr ⟨c, hc, rfl⟩)
    exact hd r' hsub

theorem mergeConfig_wp {fork src dst : Rev} {E : Err → State → Prop}
    (h : E (.mergeConflict "Config collision") s) :
    wp (mergeConfig fork src dst) (fun _ s' => s' = s) E s := by
  unfold mergeConfig
  split
  · exact rfl
  · split
    · exact h
    · exact rfl

theorem merge3way_good (hX : Closed X) {mergeChild : Rev → Op (Option Rev)}
    (hmc : ChildMerge S κ X mergeChild) {fork src dst : Rev} (hg : Good S κ X s)
    (hfork : Deep S κ X s fork) (hsrc : Deep S κ X s src) (hdst : Deep S κ X s dst)
    (hn : Rev.node src = Rev.node dst) (hnf : Rev.node fork = Rev.node dst) :
    wp (merge3way S mergeChild false fork src dst)
      (fun p s' => Mid S κ X s s' ∧ ∃ r, p.1 = some r ∧ Rev.node r = Rev.node dst ∧ Deep S κ X s' r)
      (fun _ s' => Good S κ X s') s := by
  have hft : (Rev.config fork).type = (Rev.config dst).type :=
    hdst.self.type_of_node_eq (Frame.refl (K := fun _ => False) s) hfork.self hnf
  have hst : (Rev.config src).type = (Rev.config dst).type :=
    hdst.self.type_of_node_eq (Frame.refl (K := fun _ => False) s) hsrc.self hn
  unfold merge3way
  rw [wp_bind]
  refine wp_mono (mergeConfig_wp hg) ?_ fun _ _ h => h
  rintro changed s₁ rfl
  rw [wp_bind]
  refine wp_mono (mergeFields_good hX hmc _ _ [] s₁ hg hfork hsrc hdst hn hft hst
    (fun f hf => by rw [hft] at hf; exact hf) hdst.dictOk) ?_ fun _ _ h => h
  rintro p s₂ ⟨hm, hacc⟩
  dsimp only
  rw [if_neg (by simp), wp_bind]
  refine wp_ofOption (fun cs hcs => ?_) fun _ => hm.good
  rw [wp_bind]
  unfold updateAllChildren
  have hstore : Inherits X s₂ (if changed then src else dst).label.store := by
    refine Or.inr ⟨if changed then src else dst, ?_, rfl⟩
    split
    · exact (hsrc.mono hX hm.frame).self.extra
    · exact (hdst.mono hX hm.frame).self.extra
  refine wp_mono (newRev_spec hX hstore _ _ fun _ => False) ?_ fun _ _ h => h.elim
  rintro r s₃ ⟨hf3, hnode3, hdet3, -, hx3, rfl⟩
  have hf13 := hm.frame.trans hf3
  refine ⟨hm.trans (hm.good.of_node_eq hX hf3.grows hnode3 hdet3) hf3, _, rfl, rfl, ?_⟩
  have hdst3 := hdst.mono hX hf13
  cases changed with
  | true =>
    exact (hacc.mono hX hf3).deep_new hcs hdst3 (hsrc.mono hX hf13).self hn hst rfl rfl hx3
  | false => exact (hacc.mono hX hf3).deep_new hcs hdst3 hdst3.self rfl rfl rfl rfl hx3

/-! ## _merge_txbranch -/

theorem delTxbranch_good (hX : Closed X) (hg : Good S κ X s) (n : NodeId) (t : TxId) :
    wp (delTxbranch n t) (fun _ s' => Good S κ X s') (fun _ s' => Good S κ X s') s := by
  unfold delTxbranch
  rw [wp_bind, wp_read]
  cases hb : s.txBranch? t n with
  | none => exact hg
  | some b =>
    have hbok := hg.branch n (some t) b hb
    have hf := frame_setBranch s n (some t) none (by simp)
    have hg1 : Good S κ X (s.setBranch n (some t) none) :=
      hg.setBranch hX hf (b := none) rfl rfl (fun _ h => by cases h)
    dsimp only
    rw [wp_modify]
    split
    · have hf2 := frame_detached (K := (· ≠ some t)) (s.setBranch n (some t) none)
        ((s.setBranch n (some t) none).detached ++ (b.latest :: b.origin.toList))
      refine hg1.extend hX hf2.grows (fun m k' b' h => Or.inl h) (fun m p hp => Or.inl hp) ?_
      intro r hr
      rcases List.mem_append.mp hr with hr | hr
      · exact Or.inl hr
      · refine Or.inr ((hbok.revs r ?_).2.mono hX (hf.trans hf2))
        simp only [List.mem_cons] at hr
        simp only [Branch.held, List.mem_cons, List.mem_append, List.cons_append]
        rcases hr with hr | hr
        · exact Or.inl hr
        · exact Or.inr (Or.inl hr)
    · exact hg1

/-- 本番の merge は `Good` を保つ。 -/
theorem mergeTxbranch_good (hX : Closed X) (t : TxId) : ∀ (fuel : Nat) (n : NodeId) (s : State),
    Good S κ X s →
    wp (mergeTxbranch S t false fuel n)
      (fun o s' => Good S κ X s' ∧ ∃ r, o = some r ∧ Rev.node r = n ∧ Deep S κ X s' r)
      (fun _ s' => Good S κ X s') s
  | 0, n, s, hg => hg
  | fuel + 1, n, s, hg => by
    rw [mergeTxbranch, wp_bind, wp_read, wp_bind]
    refine wp_ofOption (fun srcB hsrc => ?_) fun _ => hg
    rw [wp_bind]
    refine wp_ofOption (fun dstB hdst => ?_) fun _ => hg
    rw [wp_bind]
    refine wp_ofOption (fun fork hfork => ?_) fun _ => hg
    have hs := hg.branch n (some t) srcB hsrc
    have hd := hg.branch n none dstB hdst
    have hfk := hs.revs fork (by simp [Branch.held, hfork])
    have hmc : ChildMerge S κ X fun c =>
        if Rev.tag c = .tx t then mergeTxbranch S t false fuel (Rev.node c) else pure (some c) := by
      intro c s₁ hg1 hc
      dsimp only
      split
      · have hk := (mergeTxbranch_keeps S t false fuel (Rev.node c)).toWp s₁
        refine wp_mono (wp_and (mergeTxbranch_good hX t fuel (Rev.node c) s₁ hg1) hk) ?_
          fun _ _ h => h.1
        exact fun o s₂ h => ⟨h.1.1, h.2.weakest, h.1.2⟩
      · exact ⟨hg1, Frame.refl _, c, rfl, rfl, hc⟩
    have hdn := hd.node_latest
    rw [wp_bind]
    refine wp_mono (merge3way_good hX hmc hg hfk.2 hs.latest hd.latest
      (hs.node_latest.trans hdn.symm) (hfk.1.trans hdn.symm)) ?_ fun _ _ h => h
    rintro ⟨o, ch⟩ s₁ ⟨hm, r, rfl, hrn, hrd⟩
    rw [hdn] at hrn
    dsimp only
    have hg2 := makeLatest_good hX hm.good (hd.mono hX hm.frame) hrn hrd ch
    have hf2 := makeLatest_keeps n none dstB r ch s₁
    rw [wp_bind]
    generalize hml : makeLatest n none dstB r ch s₁ = q at hg2 hf2
    obtain ⟨u, s₂⟩ := q
    have hu : u = .ok () := (congrArg Prod.fst hml).symm
    subst hu
    unfold wp
    rw [hml]
    dsimp only
    have hdel := delTxbranch_good hX hg2 n t
    have hdk := (delTxbranch_keeps n t).toWp s₂
    show wp (delTxbranch n t >>= _) _ _ s₂
    rw [wp_bind]
    refine wp_mono (wp_and hdel hdk) ?_ fun _ _ h => h.1
    exact fun _ s₃ h => ⟨h.1, r, rfl, hrn, (hrd.mono hX hf2).mono hX h.2⟩

end Voltha.Config
