import Mathlib.Data.List.Nodup

/-!
# 挿入順を覚える辞書

Python の `OrderedDict(pairs)`。key の並びは最初に現れた順、値は最後に現れたもの。
key が重ならない列から作れば、元の列そのものになる。

`d[k]` は `List.lookup` で読む。
-/

namespace OrderedDict

variable {κ β : Type} [DecidableEq κ]

/-- `d[k] = v`。既にある key なら位置を変えずに値だけを替える。 -/
def set (d : List (κ × β)) (k : κ) (v : β) : List (κ × β) :=
  if k ∈ d.map Prod.fst then d.map fun p => if p.1 = k then (k, v) else p else d ++ [(k, v)]

/-- `OrderedDict(pairs)`。 -/
def ofList (pairs : List (κ × β)) : List (κ × β) := pairs.foldl (fun d p => set d p.1 p.2) []

theorem foldl_set_of_nodup : ∀ (pairs d : List (κ × β)), ((d ++ pairs).map Prod.fst).Nodup →
    pairs.foldl (fun d p => set d p.1 p.2) d = d ++ pairs
  | [], d, _ => by simp
  | p :: ps, d, h => by
    have hnot : p.1 ∉ d.map Prod.fst := by
      rw [List.map_append, List.map_cons, List.nodup_append] at h
      exact fun hm => h.2.2 _ hm _ List.mem_cons_self rfl
    rw [List.foldl_cons, set, if_neg hnot, foldl_set_of_nodup ps (d ++ [(p.1, p.2)])]
    · simp
    · simpa using h

/-- key が重ならなければ、並びも値も元の列のまま。 -/
theorem ofList_of_nodup {pairs : List (κ × β)} (h : (pairs.map Prod.fst).Nodup) :
    ofList pairs = pairs := by
  have := foldl_set_of_nodup pairs [] (by simpa using h)
  simpa [ofList] using this

section OfList

variable {d pairs : List (κ × β)} {k k' : κ} {v : β}

theorem keys_set : (set d k v).map Prod.fst
    = if k ∈ d.map Prod.fst then d.map Prod.fst else d.map Prod.fst ++ [k] := by
  unfold set
  split
  · rw [List.map_map]
    refine List.map_congr_left fun p _ => ?_
    rw [Function.comp_apply]
    split
    · next h => exact h.symm
    · rfl
  · rw [List.map_append, List.map_cons, List.map_nil]

theorem mem_keys_set : k' ∈ (set d k v).map Prod.fst ↔ k' = k ∨ k' ∈ d.map Prod.fst := by
  rw [keys_set]
  split
  · next h => exact ⟨Or.inr, fun h' => h'.elim (fun he => he ▸ h) id⟩
  · simp [or_comm]

theorem nodup_keys_set (h : (d.map Prod.fst).Nodup) : ((set d k v).map Prod.fst).Nodup := by
  rw [keys_set]
  split
  · exact h
  · next hk => exact List.nodup_append.mpr ⟨h, List.nodup_singleton k, by
      rintro a ha b hb rfl
      rw [List.mem_singleton.mp hb] at ha
      exact hk ha⟩

theorem mem_set {p : κ × β} (h : p ∈ set d k v) : p ∈ d ∨ p = (k, v) := by
  unfold set at h
  split at h
  · obtain ⟨q, hq, hp⟩ := List.mem_map.mp h
    split at hp
    · exact Or.inr hp.symm
    · exact Or.inl (hp ▸ hq)
  · rcases List.mem_append.mp h with h | h
    · exact Or.inl h
    · exact Or.inr (List.mem_singleton.mp h)

/-- `ofList` を左から組み立てるときの不変条件を、`set` の一歩から得る。 -/
theorem ofList_induction {P : List (κ × β) → List (κ × β) → Prop} (h0 : P [] [])
    (hstep : ∀ seen d p, P seen d → P (seen ++ [p]) (set d p.1 p.2)) : P pairs (ofList pairs) := by
  have hloop : ∀ (rest seen d : List (κ × β)), P seen d →
      P (seen ++ rest) (rest.foldl (fun d p => set d p.1 p.2) d) := by
    intro rest
    induction rest with
    | nil => intro seen d h; rw [List.append_nil]; exact h
    | cons p rest ih =>
      intro seen d h
      have := ih _ _ (hstep seen d p h)
      rwa [List.append_assoc] at this
  exact hloop pairs [] [] h0

theorem nodup_keys_ofList : ((ofList pairs).map Prod.fst).Nodup :=
  ofList_induction (P := fun _ d => (d.map Prod.fst).Nodup) List.nodup_nil
    fun _ _ _ h => nodup_keys_set h

theorem mem_ofList : ∀ p ∈ ofList pairs, p ∈ pairs :=
  ofList_induction (P := fun seen d => ∀ p ∈ d, p ∈ seen) (fun _ h => h) fun _ _ _ h p hp =>
    (mem_set hp).elim (fun hp => List.mem_append_left _ (h p hp))
      fun hp => List.mem_append_right _ (List.mem_singleton.mpr hp)

theorem mem_keys_ofList : k ∈ (ofList pairs).map Prod.fst ↔ k ∈ pairs.map Prod.fst := by
  refine ofList_induction (P := fun seen d => k ∈ d.map Prod.fst ↔ k ∈ seen.map Prod.fst)
    Iff.rfl fun seen d p h => ?_
  rw [keys_set, List.map_append, List.map_singleton, List.mem_append, List.mem_singleton, ← h]
  split
  · next hp => exact ⟨Or.inl, fun hk => hk.elim id fun hk => hk ▸ hp⟩
  · rw [List.mem_append, List.mem_singleton]

theorem set_append_left {d' : List (κ × β)} (h : k ∈ d.map Prod.fst)
    (h' : k ∉ d'.map Prod.fst) : set (d ++ d') k v = set d k v ++ d' := by
  have hmem : k ∈ (d ++ d').map Prod.fst := by
    rw [List.map_append]
    exact List.mem_append_left _ h
  have hkeep : d'.map (fun p => if p.1 = k then (k, v) else p) = d' := by
    refine (List.map_congr_left fun p hp => if_neg ?_).trans (List.map_id d')
    exact fun heq => h' (heq ▸ List.mem_map_of_mem hp)
  rw [set, set, if_pos hmem, if_pos h, List.map_append, hkeep]

theorem set_append_right {d' : List (κ × β)} (h : k ∉ d.map Prod.fst) :
    set (d ++ d') k v = d ++ set d' k v := by
  have hmem : k ∈ (d ++ d').map Prod.fst ↔ k ∈ d'.map Prod.fst := by
    rw [List.map_append, List.mem_append, or_iff_right h]
  have hkeep : d.map (fun p => if p.1 = k then (k, v) else p) = d := by
    refine (List.map_congr_left fun p hp => if_neg ?_).trans (List.map_id d)
    exact fun heq => h (heq ▸ List.mem_map_of_mem hp)
  rw [set, set]
  by_cases hk : k ∈ d'.map Prod.fst
  · rw [if_pos (hmem.mpr hk), if_pos hk, List.map_append, hkeep]
  · rw [if_neg (mt hmem.mp hk), if_neg hk, List.append_assoc]

/-- 別の key を書く順は、入れ替えられる。 -/
theorem set_comm {v' : β} (hne : k ≠ k') (h : k ∈ d.map Prod.fst) :
    set (set d k' v') k v = set (set d k v) k' v' := by
  have hkeys : ∀ x, x ∈ (set d k v).map Prod.fst ↔ x ∈ d.map Prod.fst := by
    intro x
    rw [keys_set, if_pos h]
  rw [set, if_pos (mem_keys_set.mpr (.inr h))]
  by_cases hk' : k' ∈ d.map Prod.fst
  · rw [set, set, if_pos hk', if_pos ((hkeys k').mpr hk'), set, if_pos h, List.map_map,
      List.map_map]
    refine List.map_congr_left fun p _ => ?_
    by_cases hp : p.1 = k
    · simp [hp, hne]
    · by_cases hp' : p.1 = k'
      · simp [hp', Ne.symm hne]
      · simp [hp, hp']
  · rw [set, set, if_neg hk', if_neg (mt (hkeys k').mp hk'), set, if_pos h, List.map_append]
    simp [Ne.symm hne]

/-- key の並びは、値によらない。 -/
theorem keys_ofList_congr {pairs pairs' : List (κ × β)}
    (h : pairs.map Prod.fst = pairs'.map Prod.fst) :
    (ofList pairs).map Prod.fst = (ofList pairs').map Prod.fst := by
  have hloop : ∀ (l l' d d' : List (κ × β)), l.map Prod.fst = l'.map Prod.fst →
      d.map Prod.fst = d'.map Prod.fst →
      (l.foldl (fun d p => set d p.1 p.2) d).map Prod.fst
        = (l'.foldl (fun d p => set d p.1 p.2) d').map Prod.fst := by
    intro l
    induction l with
    | nil =>
      intro l' d d' hl hd
      rw [List.map_eq_nil_iff.mp hl.symm]
      exact hd
    | cons p l ih =>
      intro l' d d' hl hd
      cases l' with
      | nil => cases hl
      | cons p' l' =>
        obtain ⟨hp, hl⟩ := List.cons.inj hl
        refine ih l' _ _ hl ?_
        rw [keys_set, keys_set, hp, hd]
  exact hloop pairs pairs' [] [] h rfl

/-- `del d[k]`。 -/
def del (d : List (κ × β)) (k : κ) : List (κ × β) := d.filter fun p => p.1 ≠ k

theorem mem_keys_del : k ∈ (del d k').map Prod.fst ↔ k ≠ k' ∧ k ∈ d.map Prod.fst := by
  simp only [del, List.mem_map, List.mem_filter, decide_eq_true_eq]
  constructor
  · rintro ⟨p, ⟨hp, hne⟩, rfl⟩
    exact ⟨hne, p, hp, rfl⟩
  · rintro ⟨hne, p, hp, rfl⟩
    exact ⟨p, ⟨hp, hne⟩, rfl⟩

/-- 値を書き換えても、消す key の項目は同じ。 -/
theorem del_map : del (d.map fun p => if p.1 = k then (k, v) else p) k'
    = (del d k').map fun p => if p.1 = k then (k, v) else p := by
  unfold del
  rw [List.filter_map]
  congr 1
  refine List.filter_congr fun p _ => ?_
  by_cases hp : p.1 = k
  · simp [hp]
  · simp [hp]

theorem del_set_self : del (set d k v) k = del d k := by
  unfold set
  split
  · rw [del_map]
    refine (List.map_congr_left fun p hp => if_neg ?_).trans (List.map_id _)
    exact of_decide_eq_true (List.mem_filter.mp hp).2
  · simp [del]

theorem del_set_ne (h : k ≠ k') : del (set d k v) k' = set (del d k') k v := by
  by_cases hmem : k ∈ d.map Prod.fst
  · rw [set, set, if_pos hmem, if_pos (mem_keys_del.mpr ⟨h, hmem⟩), del_map]
  · rw [set, set, if_neg hmem, if_neg fun hk => hmem (mem_keys_del.mp hk).2]
    simp [del, h]

/-- 一つの key を消してから作っても、作ってから消しても同じ。 -/
theorem del_ofList : del (ofList pairs) k = ofList (pairs.filter fun p => p.1 ≠ k) := by
  refine ofList_induction (P := fun seen d => del d k = ofList (seen.filter fun p => p.1 ≠ k))
    rfl fun seen d p h => ?_
  rw [List.filter_append, List.filter_singleton]
  by_cases hp : p.1 = k
  · subst hp
    simp [del_set_self, h]
  · rw [del_set_ne hp, h]
    simp [hp, ofList, List.foldl_append]

end OfList

/-! ## 読み書き -/

variable [BEq κ] [LawfulBEq κ] {d : List (κ × β)} {k k' : κ} {v : β}

theorem lookup_cons_eq {p : κ × β} :
    (p :: d).lookup k = if k = p.1 then some p.2 else d.lookup k := by
  obtain ⟨a, b⟩ := p
  rw [List.lookup_cons]
  by_cases ha : k = a
  · simp [ha]
  · simp [ha, beq_eq_false_iff_ne.mpr ha]

omit [DecidableEq κ] in
theorem lookup_isSome : (d.lookup k).isSome = true ↔ k ∈ d.map Prod.fst := by
  rw [List.lookup_isSome_iff, List.mem_map]
  constructor
  · rintro ⟨p, hp, hk⟩
    exact ⟨p, hp, (beq_iff_eq.mp hk).symm⟩
  · rintro ⟨p, hp, rfl⟩
    exact ⟨p, hp, BEq.rfl⟩

omit [DecidableEq κ] in
theorem mem_of_lookup (h : d.lookup k = some v) : (k, v) ∈ d := by
  obtain ⟨l₁, l₂, rfl, -⟩ := List.lookup_eq_some_iff.mp h
  exact List.mem_append_right _ List.mem_cons_self

theorem lookup_map_set : (d.map fun p => if p.1 = k then (k, v) else p).lookup k'
    = if k' = k ∧ k ∈ d.map Prod.fst then some v else d.lookup k' := by
  induction d with
  | nil => simp
  | cons p d ih =>
    rw [List.map_cons, lookup_cons_eq, ih, lookup_cons_eq]
    by_cases hp : p.1 = k
    · by_cases hk : k' = k
      · simp [hp, hk]
      · simp [hp, hk]
    · have hmem : k ∈ (p :: d).map Prod.fst ↔ k ∈ d.map Prod.fst := by
        rw [List.map_cons, List.mem_cons, or_iff_right (Ne.symm hp)]
      simp only [if_neg hp, hmem]
      by_cases hk : k' = k
      · subst hk
        rw [if_neg (Ne.symm hp), if_neg (Ne.symm hp)]
      · simp only [hk, false_and, if_false]

/-- 書いた key は書いた値に、他の key は元のまま。 -/
theorem lookup_set : (set d k v).lookup k' = if k' = k then some v else d.lookup k' := by
  unfold set
  split
  · next hmem => rw [lookup_map_set]; simp only [hmem, and_true]
  · next hmem =>
    rw [List.lookup_append, lookup_cons_eq, List.lookup_nil]
    by_cases hk : k' = k
    · have hnone : d.lookup k = none := by
        rw [← Option.not_isSome_iff_eq_none, lookup_isSome]; exact hmem
      simp [hk, hnone]
    · simp [hk]

theorem lookup_foldl_set {pairs : List (κ × β)} (h : k ∉ pairs.map Prod.fst) :
    (pairs.foldl (fun d p => set d p.1 p.2) d).lookup k = d.lookup k := by
  induction pairs generalizing d with
  | nil => rfl
  | cons p pairs ih =>
    obtain ⟨hne, hnot⟩ := not_or.mp (mt List.mem_cons.mpr h)
    rw [List.foldl_cons, ih hnot, lookup_set, if_neg hne]

/-- 既にある値を書いても、辞書は変わらない。 -/
theorem set_lookup (h : (d.map Prod.fst).Nodup) (hv : d.lookup k = some v) : set d k v = d := by
  have hmem : k ∈ d.map Prod.fst := lookup_isSome.mp (by rw [hv]; rfl)
  rw [set, if_pos hmem]
  clear hmem
  induction d with
  | nil => rfl
  | cons p d ih =>
    obtain ⟨hnot, hnd⟩ := List.nodup_cons.mp h
    rw [lookup_cons_eq] at hv
    rw [List.map_cons]
    by_cases hp : k = p.1
    · rw [if_pos hp, Option.some.injEq] at hv
      -- key は重ならないので、残りには同じ key が無い
      have hrest : d.map (fun q => if q.1 = k then (k, v) else q) = d := by
        refine (List.map_congr_left fun q hq => if_neg fun he => hnot ?_).trans (List.map_id d)
        rw [← hp, ← he]
        exact List.mem_map_of_mem hq
      rw [hrest, if_pos hp.symm, hp, ← hv]
    · rw [if_neg hp] at hv
      rw [if_neg (Ne.symm hp), ih hnd hv]

theorem lookup_del : (del d k).lookup k' = if k' = k then none else d.lookup k' := by
  induction d with
  | nil => simp [del]
  | cons p d ih =>
    by_cases hp : p.1 = k
    · have hdrop : del (p :: d) k = del d k := by simp [del, hp]
      rw [hdrop, ih, lookup_cons_eq, hp]
      split
      · rfl
      · rfl
    · have hkeep : del (p :: d) k = p :: del d k := by simp [del, hp]
      rw [hkeep, lookup_cons_eq, ih, lookup_cons_eq]
      by_cases hk : k' = k
      · rw [if_pos hk, if_pos hk, if_neg fun he => hp (he.symm.trans hk)]
      · rw [if_neg hk, if_neg hk]

end OrderedDict
