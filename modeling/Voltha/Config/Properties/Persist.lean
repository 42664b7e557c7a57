import Voltha.Config.Properties.Refinement

/-!
# 木を作ったときに kv store に書かれるもの

kv store を持つ `ConfigRoot` を作ると、木のどの部分についても、その hash の項目に
**その部分の** blob が、local data の項目にその local data が書かれる。

`store` は既にある項目を書き直さない。同じ hash の項目が先に書かれていても困らないのは、
どの項目も何かの message の blob であり（`Genuine`）、message の hash は message を決めるからである。

作った版はどれも root の最新の版の子孫なので、すぐに破棄される版は無い。
-/

namespace Voltha.Config

open Exec

variable {S : Schema} {s s' : State} {n : NodeId}

/-- message を版にしたときの blob。 -/
def blobOf (m : Msg) : Blob := .rev (m.children.map fun p => (p.1, p.2.map Rev.digest)) m.label

theorem Rev.blob_eq (r : Rev) : Rev.blob r = blobOf (Rev.content r) := by
  obtain ⟨i, cs⟩ := r
  rw [Rev.content_mk, Rev.blob, blobOf, FieldTree.children_mk, FieldTree.children_mk, List.map_map]
  refine congrArg₂ Blob.rev (List.map_congr_left fun p _ => ?_) rfl
  simp only [Function.comp_apply, List.map_map, Prod.mk.injEq, true_and]
  exact List.map_congr_left fun c _ => Rev.hash_eq_digest c

theorem digest?_blobOf (m : Msg) : (blobOf m).digest? = some (Rev.digest m) := by
  obtain ⟨d, cs⟩ := m
  rw [Rev.digest_mk, blobOf, Blob.digest?, FieldTree.children_mk, List.flatMap_map]
  rfl

namespace Store

/-- どの版の項目も、schema のとおりの形の message の blob である。 -/
structure Genuine (S : Schema) (kv : Store) : Prop where
  faithful : kv.Faithful
  made : ∀ h b, kv (.rev h) = some b → ∃ m, Shaped S.fields m ∧ b = blobOf m

/-- 何も書かれていない kv store。 -/
theorem genuine_empty : Genuine S fun _ => none where
  faithful := ⟨nofun, nofun, nofun⟩
  made := nofun

/-- message `m` の一段ぶんの項目がある。 -/
def Has (kv : Store) (m : Msg) : Prop :=
  kv (.rev (Rev.digest m)) = some (blobOf m) ∧ kv (.config m.label) = some (.config m.label)

/-- message `m` のどの部分の項目もある。 -/
def HasAll (kv : Store) (m : Msg) : Prop := ∀ t ∈ m.subtrees, kv.Has t

theorem hasAll_mk_iff {kv : Store} {d : Data} {cs : List (String × List Msg)} :
    kv.HasAll (.mk d cs) ↔ kv.Has (.mk d cs) ∧ ∀ f l, (f, l) ∈ cs → ∀ c ∈ l, kv.HasAll c :=
  FieldTree.forall_subtrees_mk

/-- `store` で増える版の項目は、その版の blob である。 -/
theorem storeRev_rev {kv : Store} {r : Rev} {h : Hash} {b : Blob}
    (hb : kv.storeRev r (.rev h) = some b) : kv (.rev h) = some b ∨ b = Rev.blob r := by
  unfold storeRev at hb
  split at hb
  · exact Or.inl hb
  · by_cases he : h = Rev.hash r
    · subst he
      rw [Function.update_self] at hb
      exact Or.inr (Option.some.inj hb).symm
    · rw [Function.update_of_ne (by simpa using he)] at hb
      split at hb
      · exact Or.inl hb
      · rw [Function.update_of_ne (by simp)] at hb
        exact Or.inl hb

end Store

/-! ## 版の一覧と、版の項目 -/

/-- 増えた版の項目は、作った版の blob である。 -/
structure Logged (s s' : State) : Prop where
  objs : ∀ r ∈ s.objs, r ∈ s'.objs
  entry : ∀ kv', s'.kv = some kv' → ∃ kv, s.kv = some kv ∧ ∀ h b, kv' (.rev h) = some b →
    kv (.rev h) = some b ∨ ∃ r ∈ s'.objs, b = Rev.blob r

theorem Logged.of_eq (hobjs : s'.objs = s.objs) (hkv : s'.kv = s.kv) : Logged s s' where
  objs r hr := by rwa [hobjs]
  entry kv h := ⟨kv, hkv ▸ h, fun _ _ => Or.inl⟩

instance : Std.Refl Logged := ⟨fun _ => Logged.of_eq rfl rfl⟩

instance : IsTrans State Logged where
  trans s s' s'' h₁ h₂ := by
    refine ⟨fun r hr => h₂.objs r (h₁.objs r hr), fun kv'' hkv'' => ?_⟩
    obtain ⟨kv', hkv', hentry'⟩ := h₂.entry kv'' hkv''
    obtain ⟨kv, hkv, hentry⟩ := h₁.entry kv' hkv'
    refine ⟨kv, hkv, fun h b hb => ?_⟩
    rcases hentry' h b hb with hb | hb
    · rcases hentry h b hb with hb | ⟨r, hr, he⟩
      · exact Or.inl hb
      · exact Or.inr ⟨r, h₂.objs r hr, he⟩
    · exact Or.inr hb

theorem newRev_logged (n : NodeId) (tag : BranchTag) (store : StoreRef) (config : Data)
    (children : List (String × List Rev)) : Keeps Logged (newRev n tag store config children) := by
  intro s
  unfold newRev State.finalizeRev
  cases store with
  | plain => exact Logged.of_eq rfl rfl
  | fake => exact Logged.of_eq rfl rfl
  | real =>
    refine ⟨fun r hr => List.mem_append_left _ hr, fun kv' hkv' => ?_⟩
    obtain ⟨kv, hkv, rfl⟩ := Option.map_eq_some_iff.mp hkv'
    refine ⟨kv, hkv, fun h b hb => ?_⟩
    rcases Store.storeRev_rev hb with hb | rfl
    · exact Or.inl hb
    · exact Or.inr ⟨_, List.mem_append_right _ List.mem_cons_self, rfl⟩

theorem makeLatest_objs (n : NodeId) (k : Option TxId) (b : Branch) (r : Rev)
    (anns : List (CallbackType × Context)) (s : State) :
    (makeLatest n k b r anns s).2.objs = s.objs := by
  have h1 : ∀ s : State, (persistRoot n b r s).objs = s.objs := by
    intro s; unfold persistRoot; split <;> rfl
  have h2 : ∀ s : State, (announce n b anns s).objs = s.objs := by
    intro s; unfold announce; split <;> rfl
  simp only [makeLatest, modify_apply, h1, h2]
  rfl

theorem makeLatest_logged (n : NodeId) (k : Option TxId) (b : Branch) (r : Rev)
    (anns : List (CallbackType × Context)) : Keeps Logged (makeLatest n k b r anns) := by
  intro s
  refine ⟨fun q hq => by rwa [makeLatest_objs], fun kv' hkv' => ?_⟩
  have hann : ∀ s : State, (announce n b anns s).kv = s.kv := by
    intro s; unfold announce; split <;> rfl
  simp only [makeLatest, modify_apply] at hkv'
  unfold persistRoot at hkv'
  split at hkv'
  · obtain ⟨kv, hkv, rfl⟩ := Option.map_eq_some_iff.mp hkv'
    rw [hann] at hkv
    refine ⟨kv, hkv, fun h b hb => Or.inl ?_⟩
    rwa [Function.update_of_ne (by simp)] at hb
  · rw [hann] at hkv'
    exact ⟨kv', hkv', fun _ _ => Or.inl⟩

theorem installFirst_logged (n : NodeId) (d : Data) (l : List (String × List Rev)) :
    Keeps Logged (installFirst n d l) :=
  (Keeps.read.bind fun _ => newRev_logged n _ _ d l).bind fun _ => Keeps.read.bind fun _ =>
    (makeLatest_logged n none _ _ _).bind fun _ => Keeps.pure _

theorem mknode_logged (S : Schema) (m : Msg) (slot : Option Slot) :
    Keeps Logged (mknode S m slot) :=
  mknode_keeps_of (fun _ _ _ => Logged.of_eq rfl rfl) installFirst_logged S m slot

/-! ## 作った版 -/

theorem Frame.storeRef {K : Option TxId → Prop} (h : Frame K s s') : s'.storeRef = s.storeRef := by
  have hkv := h.kv
  unfold State.storeRef
  rw [h.loading]
  rcases hs : s.kv with _ | kv <;> rcases hs' : s'.kv with _ | kv' <;> simp_all

/-- `rs` の子孫の版だけが、一覧に増えている。 -/
def Recorded (s : State) (rs : List Rev) (s' : State) : Prop :=
  ∀ q, q ∈ s'.objs ↔ q ∈ s.objs ∨ ∃ r ∈ rs, FieldTree.Sub q r

theorem Recorded.append {s s₁ s₂ : State} {rs rs' : List Rev} (h : Recorded s rs s₁)
    (h' : Recorded s₁ rs' s₂) : Recorded s (rs ++ rs') s₂ := by
  intro q
  rw [h' q, h q]
  constructor
  · rintro ((hq | ⟨r, hr, hs⟩) | ⟨r, hr, hs⟩)
    · exact Or.inl hq
    · exact Or.inr ⟨r, List.mem_append_left _ hr, hs⟩
    · exact Or.inr ⟨r, List.mem_append_right _ hr, hs⟩
  · rintro (hq | ⟨r, hr, hs⟩)
    · exact Or.inl (Or.inl hq)
    · rcases List.mem_append.mp hr with hr | hr
      · exact Or.inl (Or.inr ⟨r, hr, hs⟩)
      · exact Or.inr ⟨r, hr, hs⟩

/-- 自分の版を作ると、自分と、子の辞書にある版の子孫とが揃う。 -/
theorem installFirst_recorded {d : Data} {l : List (String × List Rev)} {s₀ : State}
    (hstore : s.storeRef = .real) (hl : Recorded s₀ (l.flatMap Prod.snd) s) :
    wp (installFirst n d l) (fun r s' => Recorded s₀ [r] s') (fun _ _ => False) s := by
  unfold installFirst mkrev
  rw [wp_bind, wp_bind, wp_read, wp_newRev, wp_bind, wp_read, wp_bind, wp_makeLatest, wp_pure]
  intro q
  rw [makeLatest_objs, State.finalizeRev, FieldTree.label_mk, hstore]
  simp only [List.mem_append, List.mem_singleton, exists_eq_left]
  rw [hl q, FieldTree.sub_mk_iff, or_assoc]
  refine or_congr Iff.rfl ⟨?_, ?_⟩
  · rintro (⟨c, hc, hsub⟩ | he)
    · obtain ⟨p, hp, hc⟩ := List.mem_flatMap.mp hc
      exact Or.inr ⟨p.1, p.2, c, hp, hc, hsub⟩
    · exact Or.inl he
  · rintro (he | ⟨f, l', c, hf, hc, hsub⟩)
    · exact Or.inr he
    · exact Or.inl ⟨c, List.mem_flatMap.mpr ⟨(f, l'), hf, hc⟩, hsub⟩

mutual

/-- 木を作る間に作った版は、ちょうど、できた版の子孫である。 -/
theorem mknode_recorded : ∀ (m : Msg) (slot : Option Slot) (s : State), s.storeRef = .real →
    wp (mknode S m slot) (fun r s' => Recorded s [r] s') (fun _ _ => True) s
  | .mk d cs, slot, s, hs => by
    rw [mknode_mk, wp_bind]
    have hf0 := newNode_keeps (K := fun _ => True) d.type slot s
    show wp (mknodeFields S s.nextNode d.type cs >>= _) _ _ (newNode d.type slot s).2
    have hobjs : (newNode d.type slot s).2.objs = s.objs := rfl
    generalize (newNode d.type slot s).2 = s₀ at hf0 hobjs
    rw [wp_bind]
    refine wp_mono (wp_and (mknodeFields_recorded s.nextNode d.type cs s₀
      (hf0.storeRef.trans hs)) ((mknodeFields_keeps S s.nextNode d.type cs).toWp s₀)) ?_
      fun _ _ _ => trivial
    rintro l s₁ ⟨hl, hf1⟩
    have hl' : Recorded s (l.flatMap Prod.snd) s₁ := by
      intro q
      rw [hl q, hobjs]
    exact wp_mono (installFirst_recorded ((hf1.storeRef.trans hf0.storeRef).trans hs) hl')
      (fun _ _ h => h) fun _ _ h => h.elim

theorem mknodeFields_recorded (n : NodeId) (ty : String) :
    ∀ (cs : List (String × List Msg)) (s : State), s.storeRef = .real →
    wp (mknodeFields S n ty cs) (fun l s' => Recorded s (l.flatMap Prod.snd) s') (fun _ _ => True) s
  | [], s, _ => by
    rw [mknodeFields, wp_pure]
    intro q
    simp
  | (name, ms) :: cs, s, hs => by
    rw [mknodeFields, wp_bind]
    refine wp_mono (wp_and (mknodeList_recorded n name _ [] ms s hs)
      ((mknodeList_keeps S n name _ [] ms).toWp s)) ?_ fun _ _ _ => trivial
    rintro l s₁ ⟨hl, hf⟩
    rw [wp_bind]
    refine wp_mono (mknodeFields_recorded n ty cs s₁ (hf.storeRef.trans hs)) ?_ fun _ _ _ => trivial
    intro rest s₂ hrest
    rw [wp_pure, List.flatMap_cons]
    exact hl.append hrest

theorem mknodeList_recorded (n : NodeId) (name : String) :
    ∀ (key : Option String) (seen : List Value) (ms : List Msg) (s : State), s.storeRef = .real →
    wp (mknodeList S n name key seen ms) (fun l s' => Recorded s l s') (fun _ _ => True) s
  | _, _, [], s, _ => by
    rw [mknodeList, wp_pure]
    intro q
    simp
  | none, seen, m :: ms, s, hs => by
    rw [mknodeList, wp_bind]
    refine wp_mono (wp_and (mknode_recorded m _ s hs) ((mknode_keeps S m _).toWp s)) ?_
      fun _ _ _ => trivial
    rintro r s₁ ⟨hr, hf⟩
    rw [wp_bind]
    refine wp_mono (mknodeList_recorded n name none seen ms s₁ (hf.storeRef.trans hs)) ?_
      fun _ _ _ => trivial
    exact fun l s₂ hl => hr.append hl
  | some k, seen, m :: ms, s, hs => by
    rw [mknodeList, wp_bind]
    refine wp_mono (wp_and (mknode_recorded m _ s hs) ((mknode_keeps S m _).toWp s)) ?_
      fun _ _ _ => trivial
    rintro r s₁ ⟨hr, hf⟩
    rw [wp_bind]
    refine wp_ofOption (fun v _ => ?_) fun _ => trivial
    split
    · trivial
    · rw [wp_bind]
      refine wp_mono (mknodeList_recorded n name (some k) (v :: seen) ms s₁ (hf.storeRef.trans hs)) ?_
        fun _ _ _ => trivial
      exact fun l s₂ hl => hr.append hl

end

/-! ## root の項目 -/

/-- root の最初の版を据えると、その hash が `root` の項目に書かれる。 -/
theorem installFirst_root {d : Data} {l : List (String × List Rev)} (hkv : s.kv.isSome)
    (htags : (s.node rootId).tags = []) :
    wp (installFirst rootId d l)
      (fun r s' => ∃ kv, s'.kv = some kv ∧ kv .root = some (.root (Rev.hash r) []))
      (fun _ _ => False) s := by
  unfold installFirst mkrev
  rw [wp_bind, wp_bind, wp_read, wp_newRev, wp_bind, wp_read, wp_bind, wp_makeLatest, wp_pure]
  have hnew := newRev_keeps (K := fun _ => True) rootId .committed s.storeRef d l s
  have hnode : (newRev rootId .committed s.storeRef d l s).2.node = s.node := finalizeRev_node _ _
  change Frame _ s (State.finalizeRev _ _) at hnew
  change (State.finalizeRev _ _).node = s.node at hnode
  generalize hr : (FieldTree.mk _ l : Rev) = r at hnew hnode ⊢
  generalize State.finalizeRev _ r = s₁ at hnew hnode ⊢
  obtain ⟨kv, hkv₁⟩ := Option.isSome_iff_exists.mp (hnew.kv.trans hkv)
  -- 据える前の書き換えは、`_kv_store` に触らない
  have hann : ∀ (b : Branch) (s : State), (announce rootId b [] s).kv = s.kv := by
    intro b s; unfold announce; split <;> rfl
  simp only [makeLatest, modify_apply]
  unfold persistRoot
  rw [if_pos ⟨rfl, rfl⟩]
  refine ⟨_, by rw [hann]; exact congrArg (Option.map _) hkv₁, ?_⟩
  dsimp only
  rw [Function.update_self]
  unfold Node.rootBlob
  rw [announce_node, setBranch_tags, hnode, htags]
  rfl

theorem mknode_root {kv₀ : Store} (m : Msg) :
    wp (mknode S m none) (fun r s' => ∃ kv, s'.kv = some kv ∧
      kv .root = some (.root (Rev.hash r) [])) (fun _ _ => True) (emptyState (some kv₀)) := by
  obtain ⟨d, cs⟩ := m
  rw [mknode_mk, wp_bind]
  show wp (mknodeFields S rootId d.type cs >>= _) _ _ (newNode d.type none (emptyState (some kv₀))).2
  rw [wp_bind]
  refine wp_mono ((mknodeFields_keeps S rootId d.type cs).toWp _) ?_ fun _ _ _ => trivial
  intro l s₁ hf
  refine wp_mono (installFirst_root ?_ ?_) (fun _ _ h => h) fun _ _ h => h.elim
  · rw [hf.kv]; rfl
  · rw [hf.tags rootId Nat.zero_lt_one]
    simp [newNode, emptyState, State.setNode, rootId]

/-! ## 木全体 -/

/-- できた木の版の項目には、その中身の blob がある。 -/
theorem has_of_logged {kv₀ kv : Store} {r : Rev} (hkv₀ : kv₀.Genuine S) (hs : s.kv = some kv₀)
    (hs' : s'.kv = some kv) (hlog : Logged s s') (hrec : ∀ q, q ∈ s'.objs ↔ FieldTree.Sub q r)
    (hp : s'.Persisted) (hr : Shaped S.fields (Rev.content r)) : kv.HasAll (Rev.content r) := by
  obtain ⟨hfaithful, hentry⟩ := hp kv hs'
  have hshape : ∀ q, FieldTree.Sub q r → Shaped S.fields (Rev.content q) := fun q hq m hm =>
    hr m (FieldTree.mem_subtrees_iff.mpr
      ((FieldTree.mem_subtrees_iff.mp hm).trans (FieldTree.Sub.map hq)))
  intro t ht
  obtain ⟨q, hq, rfl⟩ := FieldTree.sub_map_iff.mp (FieldTree.mem_subtrees_iff.mp ht)
  have hsome := hentry q ((hrec q).mpr hq)
  obtain ⟨b, hb⟩ := Option.isSome_iff_exists.mp hsome
  -- 項目は、同じ hash の message の blob である
  have hmade : ∃ m, Shaped S.fields m ∧ b = blobOf m := by
    obtain ⟨kv₁, hkv₁, hlog⟩ := hlog.entry kv hs'
    rw [hs] at hkv₁
    obtain rfl := Option.some.inj hkv₁
    rcases hlog _ b hb with hb | ⟨q', hq', rfl⟩
    · exact hkv₀.made _ b hb
    · exact ⟨_, hshape q' ((hrec q').mp hq'), Rev.blob_eq q'⟩
  obtain ⟨m, hm, rfl⟩ := hmade
  have hdig : Rev.digest m = Rev.digest (Rev.content q) := by
    have h := hfaithful.rev _ _ hb
    rw [digest?_blobOf, Option.some.injEq, Rev.hash_eq_digest] at h
    exact h
  obtain rfl := digest_injective hm (hshape q hq) hdig
  change kv.Has (Rev.content q)
  refine ⟨by rw [← Rev.hash_eq_digest]; exact hb, ?_⟩
  obtain ⟨c, hc⟩ := Option.isSome_iff_exists.mp (hfaithful.paired _ hsome)
  rw [Store.label_hash] at hc
  rw [Rev.label_content, hc, hfaithful.config _ _ hc]

/-- 作った木の版は、どれも生きている。 -/
theorem dead_eq_nil {κ : Mode} {X : State → Rev → Prop} {r : Rev} (hs : Sound S κ X s)
    (hlat : s.latest? rootId = some r) (hrec : ∀ q ∈ s.objs, FieldTree.Sub q r) : s.dead = [] := by
  obtain ⟨b, hb, rfl⟩ := Option.map_eq_some_iff.mp hlat
  refine List.filter_eq_nil_iff.mpr fun q hq => ?_
  have hlive := hs.mem_live_branch hb (List.mem_cons_self (a := b.latest)) (hrec q hq)
  simpa using hlive

/-- `ConfigRoot(data, kv_store)` の後、kv store には message のどの部分の項目もある。 -/
theorem start_stores {kv₀ : Store} (hkv₀ : kv₀.Genuine S) {data : Msg}
    (hdata : Shaped S.fields data) (hkeys : KeysApart S (complete S data)) :
    ∃ kv, (start S (some kv₀) data).kv = some kv ∧ kv.HasAll (complete S data) ∧
      kv .root = some (.root (Rev.digest (complete S data)) []) := by
  obtain ⟨r, s₀, hinit⟩ := initRoot_ok (some kv₀) hkeys
  have hm : mknode S (complete S data) none (emptyState (some kv₀)) = (.ok r, s₀) := hinit
  obtain ⟨hsound, hcont, hlat⟩ := initRoot_sound (κ := .all) closed_true (fun _ => hdata) hinit
  obtain ⟨kv, hkv, hroot⟩ := wp_ok (mknode_root (complete S data)) hm
  have hrec : ∀ q, q ∈ s₀.objs ↔ FieldTree.Sub q r := by
    intro q
    rw [wp_ok (mknode_recorded (S := S) (complete S data) none (emptyState (some kv₀)) rfl) hm q]
    simp [emptyState]
  have hlog := mknode_logged S (complete S data) none (emptyState (some kv₀))
  have hframe := mknode_keeps S (complete S data) none (emptyState (some kv₀))
  rw [hm] at hlog hframe
  have hpersisted : s₀.Persisted := by
    refine hframe.persisted fun kv' hkv' => ?_
    obtain rfl := Option.some.inj hkv'
    exact ⟨hkv₀.faithful, nofun⟩
  have hall := has_of_logged hkv₀ rfl hkv hlog hrec hpersisted (by
    rw [hcont]; exact fun m hm => (hdata.complete m hm).1)
  rw [hcont] at hall
  refine ⟨kv, ?_, hall, by rw [hroot, Rev.hash_eq_digest, hcont]⟩
  unfold start collect
  rw [hinit]
  dsimp only
  rw [dead_eq_nil hsound hlat fun q hq => (hrec q).mp hq, hkv]
  rfl

end Voltha.Config
