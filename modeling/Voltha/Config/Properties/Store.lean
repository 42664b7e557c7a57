import Voltha.Config.Finalize

/-!
# kv store の項目

kv store は内容で引く表である。hash `h` の項目は、中身から計算した hash が `h` になる blob で、
その local data の項目も一緒にある（`Faithful`）。版を作るたびに `store` が書き足し、
`__del__` は版の項目を一つ消すだけなので、この形は崩れない。

`Persisted` は、まだ破棄されていない版の項目がどれもあることである。
-/

namespace Voltha.Config

/-- blob の中身から計算した hash。 -/
def Blob.digest? : Blob → Option Hash
  | .rev children d => some (.mk d [("", children.flatMap Prod.snd)])
  | _ => none

theorem Rev.digest?_blob (r : Rev) : (Rev.blob r).digest? = some (Rev.hash r) := by
  obtain ⟨i, cs⟩ := r
  rw [Rev.hash_mk, Rev.blob, Blob.digest?, List.flatMap_map]
  rfl

namespace Store

variable {kv : Store} {r r' : Rev}

/-- 項目の中身は、その key のとおりのものである。 -/
structure Faithful (kv : Store) : Prop where
  rev : ∀ h b, kv (.rev h) = some b → b.digest? = some h
  config : ∀ d b, kv (.config d) = some b → b = .config d
  paired : ∀ h, (kv (.rev h)).isSome → (kv (.config h.label)).isSome

/-- 版 `r` とその local data の blob がある。 -/
def Holds (kv : Store) (r : Rev) : Prop :=
  (∃ b, kv (.rev (Rev.hash r)) = some b ∧ b.digest? = some (Rev.hash r)) ∧
    kv (.config (Rev.config r)) = some (.config (Rev.config r))

theorem label_hash (r : Rev) : (Rev.hash r).label = Rev.config r := by
  obtain ⟨i, cs⟩ := r
  rw [Rev.hash_mk]; rfl

/-! ## 書き込み -/

theorem storeRev_isSome (kv : Store) (r : Rev) : (kv.storeRev r (.rev (Rev.hash r))).isSome := by
  unfold storeRev
  split
  · next h => exact h
  · simp

/-- 書き込みで項目が失われることはない。 -/
theorem storeRev_mono {k : StoreKey} (h : (kv k).isSome) : (kv.storeRev r k).isSome := by
  unfold storeRev
  split
  · exact h
  · next hr =>
    have hk : k ≠ .rev (Rev.hash r) := by rintro rfl; exact hr h
    dsimp only
    rw [Function.update_of_ne hk]
    split
    · exact h
    · next hc =>
      have hk' : k ≠ .config (Rev.config r) := by rintro rfl; exact hc h
      rw [Function.update_of_ne hk']
      exact h

theorem Faithful.storeRev (h : kv.Faithful) (r : Rev) : (kv.storeRev r).Faithful := by
  unfold Store.storeRev
  split
  · exact h
  · -- local data の項目を書き足したところまで
    have hmid : ∃ kv' : Store, (if (kv (.config (Rev.config r))).isSome then kv
        else Function.update kv (.config (Rev.config r)) (some (.config (Rev.config r)))) = kv' ∧
        kv'.Faithful ∧ (kv' (.config (Rev.config r))).isSome := by
      refine ⟨_, rfl, ?_⟩
      split
      · next hc => exact ⟨h, hc⟩
      · refine ⟨⟨fun h' b hb => ?_, fun d b hb => ?_, fun h' hs => ?_⟩, by simp⟩
        · rw [Function.update_of_ne (by simp)] at hb
          exact h.rev h' b hb
        · by_cases hd : d = Rev.config r
          · subst hd
            rw [Function.update_self] at hb
            exact (Option.some.inj hb).symm
          · rw [Function.update_of_ne (by simpa using hd)] at hb
            exact h.config d b hb
        · rw [Function.update_of_ne (by simp)] at hs
          by_cases hd : h'.label = Rev.config r
          · rw [hd]; simp
          · rw [Function.update_of_ne (by simpa using hd)]
            exact h.paired h' hs
    obtain ⟨kv', hkv', hf, hc⟩ := hmid
    rw [hkv']
    refine ⟨fun h' b hb => ?_, fun d b hb => ?_, fun h' hs => ?_⟩
    · by_cases he : h' = Rev.hash r
      · subst he
        rw [Function.update_self] at hb
        rw [← Option.some.inj hb]
        exact Rev.digest?_blob r
      · rw [Function.update_of_ne (by simpa using he)] at hb
        exact hf.rev h' b hb
    · rw [Function.update_of_ne (by simp)] at hb
      exact hf.config d b hb
    · rw [Function.update_of_ne (by simp)]
      by_cases he : h' = Rev.hash r
      · rw [he, label_hash]; exact hc
      · rw [Function.update_of_ne (by simpa using he)] at hs
        exact hf.paired h' hs

/-- root の項目は、版の項目とは別である。 -/
theorem Faithful.setRoot (h : kv.Faithful) (b : Option Blob) :
    Faithful (Function.update kv .root b) := by
  refine ⟨fun h' v hv => ?_, fun d v hv => ?_, fun h' hs => ?_⟩
  · rw [Function.update_of_ne (by simp)] at hv; exact h.rev h' v hv
  · rw [Function.update_of_ne (by simp)] at hv; exact h.config d v hv
  · rw [Function.update_of_ne (by simp)] at hs ⊢; exact h.paired h' hs

/-! ## 破棄 -/

theorem Faithful.erase (h : kv.Faithful) (r : Rev) : (kv.erase r).Faithful := by
  have hsub : ∀ h' v, kv.erase r (.rev h') = some v → kv (.rev h') = some v := by
    intro h' v hv
    by_cases he : h' = Rev.hash r
    · rw [Store.erase, he, Function.update_self] at hv; cases hv
    · rwa [Store.erase, Function.update_of_ne (by simpa using he)] at hv
  refine ⟨fun h' v hv => h.rev h' v (hsub h' v hv), fun d v hv => ?_, fun h' hs => ?_⟩
  · rw [Store.erase, Function.update_of_ne (by simp)] at hv; exact h.config d v hv
  · obtain ⟨v, hv⟩ := Option.isSome_iff_exists.mp hs
    rw [Store.erase, Function.update_of_ne (by simp)]
    exact h.paired h' (by rw [hsub h' v hv]; rfl)

theorem Faithful.eraseAll : ∀ {kv : Store} (l : List Rev), kv.Faithful →
    (l.foldl Store.erase kv).Faithful
  | _, [], h => h
  | _, r :: l, h => Faithful.eraseAll l (h.erase r)

/-- hash の違う版の破棄では、項目は消えない。 -/
theorem eraseAll_of_ne {h : Hash} : ∀ {l : List Rev} {kv : Store}, (∀ r ∈ l, Rev.hash r ≠ h) →
    l.foldl Store.erase kv (.rev h) = kv (.rev h)
  | [], _, _ => rfl
  | r :: l, kv, hl => by
    rw [List.foldl_cons, eraseAll_of_ne fun r' hr' => hl r' (List.mem_cons_of_mem _ hr'),
      Store.erase, Function.update_of_ne]
    simpa using (hl r List.mem_cons_self).symm

end Store

/-- store の項目の形は正しく、まだ破棄されていない版の項目がどれもある。 -/
def State.Persisted (s : State) : Prop :=
  ∀ kv, s.kv = some kv → kv.Faithful ∧ ∀ r ∈ s.objs, (kv (.rev (Rev.hash r))).isSome

/-- 新しい版を作っても、項目は揃っている。 -/
theorem State.Persisted.finalizeRev {s : State} (h : s.Persisted) (r : Rev) :
    (s.finalizeRev r).Persisted := by
  unfold State.finalizeRev
  split
  · intro kv' hkv'
    obtain ⟨kv, hkv, rfl⟩ := Option.map_eq_some_iff.mp hkv'
    obtain ⟨hf, hobjs⟩ := h kv hkv
    refine ⟨hf.storeRev r, fun r' hr' => ?_⟩
    rcases List.mem_append.mp hr' with hr' | hr'
    · exact Store.storeRev_mono (hobjs r' hr')
    · rw [List.mem_singleton.mp hr']
      exact Store.storeRev_isSome kv r
  · exact h

/-- root の項目の書き込みでも、項目は揃っている。 -/
theorem State.Persisted.persistRoot {s : State} (h : s.Persisted) (n : NodeId) (b : Branch)
    (r : Rev) : (Voltha.Config.persistRoot n b r s).Persisted := by
  unfold Voltha.Config.persistRoot
  split
  · intro kv' hkv'
    obtain ⟨kv, hkv, rfl⟩ := Option.map_eq_some_iff.mp hkv'
    obtain ⟨hf, hobjs⟩ := h kv hkv
    refine ⟨hf.setRoot _, fun r' hr' => ?_⟩
    rw [Function.update_of_ne (by simp)]
    exact hobjs r' hr'
  · exact h

/-- 破棄される版と同じ hash の版が生きていなければ、生きている版の項目は残る。 -/
theorem State.Persisted.collect {s : State} (h : s.Persisted)
    (hne : ∀ r ∈ s.dead, ∀ r' ∈ s.live, r' ∈ s.objs → Rev.hash r ≠ Rev.hash r') :
    (Voltha.Config.collect s).Persisted := by
  intro kv' hkv'
  obtain ⟨kv, hkv, rfl⟩ := Option.map_eq_some_iff.mp hkv'
  obtain ⟨hf, hobjs⟩ := h kv hkv
  refine ⟨hf.eraseAll _, fun r' hr' => ?_⟩
  obtain ⟨hobj, hlive⟩ := List.mem_filter.mp hr'
  rw [Store.eraseAll_of_ne fun r hr => hne r hr r' (by simpa using hlive) hobj]
  exact hobjs r' hobj

end Voltha.Config
