import Voltha.Lib.Py
import Voltha.Omci.EntityClasses

/-!
# mask による serialize と、持っている属性による serialize

`serialize()` は持っている属性の名前から、`serialize(mask)` は mask から位置の列を作る。
`mask_for` は名前の位置の bit を立てるが、**位置 0 の bit は 16 bit からはみ出して読まれない**。
`managed_entity_id` を持つ entity だけが、二通りで違う byte 列になる（`maskDriven_iff`）。
-/

namespace Voltha.Omci

namespace EntityClass

variable {c : EntityClass}

theorem index_eq_ok {name : String} {i : Nat} :
    c.index name = .ok i ↔ ∃ a, c.attributes[i]? = some a ∧ a.fld.name = name := by
  rw [← KeyedList.lookup_positions c.nodup]
  unfold index attributeNameToIndexMap
  cases (KeyedList.positions (fun a => a.fld.name) c.attributes).lookup name with
  | none => simp [ofOption]
  | some j => simp [ofOption]

/-- 位置は mask の bit に収まる。 -/
theorem index_le {name : String} {i : Nat} (h : c.index name = .ok i) : i ≤ 16 := by
  obtain ⟨a, ha, -⟩ := index_eq_ok.mp h
  have hlt := (List.getElem?_eq_some_iff.mp ha).1
  have hlen := c.length_le
  omega

theorem index_known {name : String} (h : name ∈ c.attributes.map fun a => a.fld.name) :
    ∃ i, c.index name = .ok i := by
  obtain ⟨a, ha, rfl⟩ := List.mem_map.mp h
  obtain ⟨i, hi⟩ := List.getElem?_of_mem ha
  exact ⟨i, index_eq_ok.mpr ⟨a, hi, rfl⟩⟩

/-- 位置 0 を占めるのは `managed_entity_id` だけである。 -/
theorem index_eq_zero {name : String} {i : Nat} (h : c.index name = .ok i) :
    i = 0 ↔ name = "managed_entity_id" := by
  obtain ⟨a, ha, rfl⟩ := index_eq_ok.mp h
  obtain ⟨b, hb⟩ : ∃ b, c.attributes[0]? = some b :=
    ⟨_, List.getElem?_eq_getElem (Nat.lt_of_le_of_lt (Nat.zero_le i)
      (List.getElem?_eq_some_iff.mp ha).1)⟩
  have hname : b.fld.name = "managed_entity_id" :=
    c.head b (by rw [List.head?_eq_getElem?, hb]; exact rfl)
  constructor
  · rintro rfl
    rw [ha] at hb
    cases hb
    exact hname
  · intro he
    exact KeyedList.index_unique c.nodup ha hb (he.trans hname.symm)

/-- 名前の位置の bit だけが立つ。 -/
theorem maskFor_known (names : List String)
    (h : ∀ name ∈ names, name ∈ c.attributes.map fun a => a.fld.name) :
    ∃ mask, c.maskFor names = .ok mask ∧
      ∀ k, mask.testBit k = true ↔ ∃ name ∈ names, ∃ i, c.index name = .ok i ∧ k = 16 - i := by
  have hloop : ∀ start : Nat, ∃ mask, (names.foldlM (fun mask attrName => do
      let index ← c.index attrName
      if 16 < index then
        throw .valueError
      pure (mask ||| 1 <<< (16 - index))) start : Except OmciError Nat) = .ok mask ∧
      ∀ k, mask.testBit k = true ↔
        start.testBit k = true ∨ ∃ name ∈ names, ∃ i, c.index name = .ok i ∧ k = 16 - i := by
    induction names with
    | nil => exact fun start => ⟨start, rfl, by simp⟩
    | cons name names ih =>
      intro start
      obtain ⟨i, hi⟩ := index_known (h name List.mem_cons_self)
      obtain ⟨mask, hmask, hbits⟩ :=
        ih (fun n hn => h n (List.mem_cons_of_mem _ hn)) (start ||| 1 <<< (16 - i))
      refine ⟨mask, ?_, fun k => ?_⟩
      · rw [List.foldlM_cons, hi]
        have hle : ¬ 16 < i := Nat.not_lt.mpr (index_le hi)
        simpa [bind, Except.bind, pure, Except.pure, hle] using hmask
      · have hone : (1 <<< (16 - i)).testBit k = true ↔ k = 16 - i := by
          rw [Nat.one_shiftLeft, Nat.testBit_two_pow]
          simp [eq_comm]
        rw [hbits, Nat.testBit_or, Bool.or_eq_true, hone, or_assoc]
        refine or_congr_right ?_
        simp [hi, or_and_right, exists_or]
  obtain ⟨mask, hmask, hbits⟩ := hloop 0
  exact ⟨mask, hmask, fun k => by simp [hbits]⟩

/-- 重ならない名前の位置は重ならない。 -/
theorem mapM_index {names : List String}
    (h : ∀ name ∈ names, name ∈ c.attributes.map fun a => a.fld.name) (hnodup : names.Nodup) :
    ∃ indices, names.mapM c.index = .ok indices ∧ indices.Nodup ∧
      ∀ i, i ∈ indices ↔ ∃ name ∈ names, c.index name = .ok i := by
  induction names with
  | nil => exact ⟨[], rfl, List.nodup_nil, by simp⟩
  | cons name names ih =>
    rw [List.nodup_cons] at hnodup
    obtain ⟨i, hi⟩ := index_known (h name List.mem_cons_self)
    obtain ⟨indices, hmap, hnd, hmem⟩ :=
      ih (fun n hn => h n (List.mem_cons_of_mem _ hn)) hnodup.2
    refine ⟨i :: indices, ?_, List.nodup_cons.mpr ⟨fun hin => ?_, hnd⟩, fun j => ?_⟩
    · rw [List.mapM_cons, hi, hmap]
      rfl
    · obtain ⟨name', hname', hi'⟩ := (hmem i).mp hin
      obtain ⟨a, ha, rfl⟩ := index_eq_ok.mp hi
      obtain ⟨b, hb, rfl⟩ := index_eq_ok.mp hi'
      rw [ha] at hb
      cases hb
      exact hnodup.1 hname'
    · simp [hmem, hi, eq_comm]

/-- **mask から作った列は、名前の位置から 0 を除いて並べたもの。** -/
theorem indices_maskFor {names : List String} {indices : List Nat} {mask : Nat}
    (hnodup : indices.Nodup) (hmem : ∀ i, i ∈ indices ↔ ∃ name ∈ names, c.index name = .ok i)
    (hmask : ∀ k, mask.testBit k = true ↔ ∃ name ∈ names, ∃ i, c.index name = .ok i ∧ k = 16 - i) :
    attributeIndicesFromMask mask = indices.mergeSort.filter fun i => i ≠ 0 := by
  have hleft : (attributeIndicesFromMask mask).SortedLT := by
    rw [attributeIndicesFromMask_eq]
    exact (List.Pairwise.filter _ List.pairwise_lt_range').sortedLT
  have hsort : indices.mergeSort.SortedLT :=
    List.sortedLE_mergeSort.sortedLT_of_nodup ((List.mergeSort_perm _ _).nodup_iff.mpr hnodup)
  refine hleft.eq_of_mem_iff (hsort.pairwise.filter _).sortedLT fun i => ?_
  rw [mem_attributeIndicesFromMask, hmask, List.mem_filter, List.mem_mergeSort, hmem]
  constructor
  · rintro ⟨⟨h1, h16⟩, name, hname, j, hj, hk⟩
    have hle := index_le hj
    have hij : i = j := by omega
    exact ⟨⟨name, hname, hij ▸ hj⟩, by simp; omega⟩
  · rintro ⟨⟨name, hname, hi⟩, hne⟩
    have hle := index_le hi
    have hne : i ≠ 0 := by simpa using hne
    exact ⟨⟨by omega, hle⟩, name, hname, i, hi, rfl⟩

end EntityClass

namespace Entity

variable {c : EntityClass} {F : Scapy} {e : Entity c}

/-! ## 一つの属性 -/

theorem serializeAttribute_append (s : Bytes) (index : Nat) :
    e.serializeAttribute F s index = (e.serializeAttribute F [] index).map (s ++ ·) := by
  unfold serializeAttribute
  cases c.attributes[index]? with
  | none => rfl
  | some a =>
    cases hv : e.data.lookup a.fld.name with
    | none => simp [ofOption, hv, bind, Except.bind, Except.map]
    | some v =>
      simp only [ofOption, hv, bind, Except.bind]
      rw [F.append _ s]
      cases F.addfield a.fld.kind [] v <;> rfl

theorem foldlM_serializeAttribute_append (s : Bytes) (l : List Nat) :
    l.foldlM (e.serializeAttribute F) s
      = (l.foldlM (e.serializeAttribute F) []).map (s ++ ·) := by
  induction l generalizing s with
  | nil => simp [pure, Except.pure, Except.map]
  | cons i l ih =>
    rw [List.foldlM_cons, List.foldlM_cons, serializeAttribute_append]
    cases e.serializeAttribute F [] i with
    | error x => rfl
    | ok b =>
      show l.foldlM (e.serializeAttribute F) (s ++ b) = _
      rw [ih]
      show _ = (l.foldlM (e.serializeAttribute F) b).map (s ++ ·)
      rw [ih b]
      cases l.foldlM (e.serializeAttribute F) [] <;> simp [Except.map]

/-- 位置 `i` の属性を持っている。 -/
def Holds (e : Entity c) (i : Nat) : Prop := ∃ name ∈ e.names, c.index name = .ok i

theorem serializeAttribute_of_mem {i : Nat} {a : EntityClassAttribute} {v : Value}
    (ha : c.attributes[i]? = some a) (hv : (a.fld.name, v) ∈ e.data) :
    e.serializeAttribute F [] i = ofOption .structError (F.addfield a.fld.kind [] v) := by
  simp [serializeAttribute, ha, ofOption, (KeyedList.lookup_eq_some_iff e.nodup).mpr hv, bind,
    Except.bind]

/-- 持っている属性の値。 -/
theorem Holds.cases {i : Nat} (h : e.Holds i) : ∃ a v, c.attributes[i]? = some a ∧
    (a.fld.name, v) ∈ e.data ∧
    e.serializeAttribute F [] i = ofOption .structError (F.addfield a.fld.kind [] v) := by
  obtain ⟨name, hname, hi⟩ := h
  obtain ⟨a, ha, rfl⟩ := EntityClass.index_eq_ok.mp hi
  obtain ⟨⟨_, v⟩, hv, rfl⟩ := List.mem_map.mp hname
  exact ⟨a, v, ha, hv, serializeAttribute_of_mem ha hv⟩

/-- 持っている属性を並べるとき、失敗するのは pack できない値があるときだけである。 -/
theorem foldlM_serializeAttribute {l : List Nat} (h : ∀ i ∈ l, e.Holds i) :
    (∃ b, l.foldlM (e.serializeAttribute F) [] = .ok b) ∨
    l.foldlM (e.serializeAttribute F) [] = .error .structError ∧
      ∃ i ∈ l, e.serializeAttribute F [] i = .error .structError := by
  induction l with
  | nil => exact Or.inl ⟨[], rfl⟩
  | cons i l ih =>
    obtain ⟨a, v, -, -, hone⟩ := (h i List.mem_cons_self).cases (F := F)
    rw [List.foldlM_cons]
    cases hb : F.addfield a.fld.kind [] v with
    | none =>
      rw [hb] at hone
      rw [hone]
      exact Or.inr ⟨rfl, i, List.mem_cons_self, hone⟩
    | some b =>
      rw [hb] at hone
      rw [hone]
      show (∃ b', l.foldlM (e.serializeAttribute F) b = .ok b') ∨
        l.foldlM (e.serializeAttribute F) b = .error .structError ∧ _
      rw [foldlM_serializeAttribute_append]
      rcases ih fun j hj => h j (List.mem_cons_of_mem _ hj) with ⟨b', hb'⟩ | ⟨herr, j, hj, hje⟩
      · rw [hb']
        exact Or.inl ⟨_, rfl⟩
      · rw [herr]
        exact Or.inr ⟨rfl, j, List.mem_cons_of_mem _ hj, hje⟩

theorem foldlM_serializeAttribute_error {l : List Nat} (h : ∀ i ∈ l, e.Holds i) {i : Nat}
    (hi : i ∈ l) (hie : e.serializeAttribute F [] i = .error .structError) :
    l.foldlM (e.serializeAttribute F) [] = .error .structError := by
  rcases foldlM_serializeAttribute (F := F) h with ⟨b, hb⟩ | ⟨herr, -⟩
  · exfalso
    obtain ⟨pre, post, rfl⟩ := List.append_of_mem hi
    rw [List.foldlM_append] at hb
    cases hpre : pre.foldlM (e.serializeAttribute F) [] with
    | error x =>
      rw [hpre] at hb
      cases hb
    | ok b' =>
      rw [hpre] at hb
      have hfail : (i :: post).foldlM (e.serializeAttribute F) b' = .error .structError := by
        rw [List.foldlM_cons, serializeAttribute_append, hie]
        rfl
      rw [show (Except.ok b' >>= fun s => (i :: post).foldlM (e.serializeAttribute F) s)
        = (i :: post).foldlM (e.serializeAttribute F) b' from rfl, hfail] at hb
      cases hb
  · exact herr

/-! ## 二通りの serialize -/

/-- mask による serialize と、持っている属性による serialize が一致する。 -/
structure MaskDriven (F : Scapy) (e : Entity c) : Prop where
  /-- `e.serialize() == e.serialize(mask=cls.mask_for(*names))`。 -/
  alike : ∃ mask, c.maskFor e.names = .ok mask ∧ e.serialize F none = e.serialize F (some mask)
  /-- `attribute_indices_from_mask(mask_for(*names))` は、位置を小さい順に並べたもの。 -/
  sorted : ∀ names : List String, names.Nodup →
    (∀ name ∈ names, name ∈ c.attributes.map fun a => a.fld.name) →
    "managed_entity_id" ∉ names → ∃ mask indices, c.maskFor names = .ok mask ∧
      names.mapM c.index = .ok indices ∧
      EntityClass.attributeIndicesFromMask mask = indices.mergeSort

theorem sorted_maskFor {names : List String} (hnodup : names.Nodup)
    (hknown : ∀ name ∈ names, name ∈ c.attributes.map fun a => a.fld.name)
    (hid : "managed_entity_id" ∉ names) : ∃ mask indices, c.maskFor names = .ok mask ∧
      names.mapM c.index = .ok indices ∧
      EntityClass.attributeIndicesFromMask mask = indices.mergeSort := by
  obtain ⟨mask, hmask, hbits⟩ := EntityClass.maskFor_known names hknown
  obtain ⟨indices, hmap, hnd, hmem⟩ := EntityClass.mapM_index hknown hnodup
  refine ⟨mask, indices, hmask, hmap, ?_⟩
  rw [EntityClass.indices_maskFor hnd hmem hbits]
  refine List.filter_eq_self.mpr fun i hi => ?_
  obtain ⟨name, hname, hi⟩ := (hmem i).mp (List.mem_mergeSort.mp hi)
  refine decide_eq_true fun hzero => hid ?_
  exact (EntityClass.index_eq_zero hi).mp hzero ▸ hname

/-- `serialize()` の位置の列。`managed_entity_id` を持つなら、先頭に 0 が付く。 -/
theorem indices_eq {names : List String} {indices : List Nat} (hnodup : indices.Nodup)
    (hmem : ∀ i, i ∈ indices ↔ ∃ name ∈ names, c.index name = .ok i)
    (hknown : ∀ name ∈ names, name ∈ c.attributes.map fun a => a.fld.name) :
    indices.mergeSort = (if "managed_entity_id" ∈ names then [0] else [])
      ++ indices.mergeSort.filter fun i => i ≠ 0 := by
  have hsort : indices.mergeSort.SortedLT :=
    List.sortedLE_mergeSort.sortedLT_of_nodup ((List.mergeSort_perm _ _).nodup_iff.mpr hnodup)
  have hzero : 0 ∈ indices ↔ "managed_entity_id" ∈ names := by
    rw [hmem]
    constructor
    · rintro ⟨name, hname, hi⟩
      exact (EntityClass.index_eq_zero hi).mp rfl ▸ hname
    · intro hin
      obtain ⟨i, hi⟩ := EntityClass.index_known (hknown _ hin)
      exact ⟨_, hin, (EntityClass.index_eq_zero hi).mpr rfl ▸ hi⟩
  refine hsort.eq_of_mem_iff ?_ fun i => ?_
  · split
    · refine List.Pairwise.sortedLT (List.pairwise_cons.mpr ⟨fun i hi => ?_, hsort.pairwise.filter _⟩)
      have := List.of_mem_filter hi
      simp at this
      omega
    · exact (hsort.pairwise.filter _).sortedLT
  · by_cases hin : "managed_entity_id" ∈ names
    · rw [if_pos hin]
      have := hzero.mpr hin
      by_cases hi : i = 0 <;> simp [hi, this]
    · rw [if_neg hin]
      have hne : i ∈ indices → i ≠ 0 := fun hi he => hin (hzero.mp (he ▸ hi))
      simp
      exact fun hi => hne hi

/-- `managed_entity_id` の分だけ長くなるので、一致するのは、残りで例外になるときだけである。 -/
theorem foldlM_zero_eq_iff {rest : List Nat} (hzero : e.Holds 0)
    (hrest : ∀ i ∈ rest, e.Holds i) :
    (0 :: rest).foldlM (e.serializeAttribute F) [] = rest.foldlM (e.serializeAttribute F) [] ↔
      ∃ i ∈ rest, e.serializeAttribute F [] i = .error .structError := by
  rcases foldlM_serializeAttribute (F := F) hrest with ⟨r, hr⟩ | ⟨herr, hfail⟩
  · refine iff_of_false (fun heq => ?_) ?_
    · obtain ⟨a, v, ha, -, hone⟩ := hzero.cases (F := F)
      rw [hr, List.foldlM_cons, hone] at heq
      cases hb : F.addfield a.fld.kind [] v with
      | none =>
        rw [hb] at heq
        cases heq
      | some b =>
        rw [hb] at heq
        have hlong : rest.foldlM (e.serializeAttribute F) b = .ok r := heq
        rw [foldlM_serializeAttribute_append, hr] at hlong
        have hlen := congrArg List.length (Except.ok.inj hlong)
        have hpos := c.size_pos a (List.mem_of_getElem? ha)
        rw [List.length_append, F.size _ _ _ hb] at hlen
        omega
    · rintro ⟨i, hi, hie⟩
      rw [foldlM_serializeAttribute_error hrest hi hie] at hr
      cases hr
  · obtain ⟨i, hi, hie⟩ := hfail
    refine iff_of_true ?_ ⟨i, hi, hie⟩
    rw [herr]
    refine foldlM_serializeAttribute_error (fun j hj => ?_) (List.mem_cons_of_mem _ hi) hie
    rcases List.mem_cons.mp hj with rfl | hj
    · exact hzero
    · exact hrest j hj

/-- 残りに pack できない値がある。 -/
theorem exists_fail_iff {rest : List Nat} (hrest : ∀ i, i ∈ rest ↔ e.Holds i ∧ i ≠ 0) :
    (∃ i ∈ rest, e.serializeAttribute F [] i = .error .structError) ↔
      ∃ a ∈ c.attributes, ∃ v, (a.fld.name, v) ∈ e.data ∧ a.fld.name ≠ "managed_entity_id" ∧
        F.addfield a.fld.kind [] v = none := by
  constructor
  · rintro ⟨i, hi, hie⟩
    obtain ⟨hheld, hne⟩ := (hrest i).mp hi
    obtain ⟨a, v, ha, hv, hone⟩ := hheld.cases (F := F)
    refine ⟨a, List.mem_of_getElem? ha, v, hv, fun he => hne ?_, ?_⟩
    · exact (EntityClass.index_eq_zero (EntityClass.index_eq_ok.mpr ⟨a, ha, rfl⟩)).mpr he
    · rw [hone] at hie
      cases hb : F.addfield a.fld.kind [] v with
      | none => rfl
      | some b =>
        rw [hb] at hie
        cases hie
  · rintro ⟨a, ha, v, hv, hne, hb⟩
    obtain ⟨i, hi⟩ := List.getElem?_of_mem ha
    have hindex := EntityClass.index_eq_ok.mpr ⟨a, hi, rfl⟩
    refine ⟨i, (hrest i).mpr ⟨⟨a.fld.name, List.mem_map.mpr ⟨_, hv, rfl⟩, hindex⟩, ?_⟩, ?_⟩
    · exact fun hz => hne ((EntityClass.index_eq_zero hindex).mp hz)
    · rw [serializeAttribute_of_mem hi hv, hb]
      rfl

/--
**二通りが一致するのは**、`managed_entity_id` を持たないとき、
または他に pack できない値があってどちらも例外になるとき、かつそのときに限る。
-/
theorem maskDriven_iff (F : Scapy) (e : Entity c) :
    e.MaskDriven F ↔ "managed_entity_id" ∉ e.names ∨
      ∃ a ∈ c.attributes, ∃ v, (a.fld.name, v) ∈ e.data ∧ a.fld.name ≠ "managed_entity_id" ∧
        F.addfield a.fld.kind [] v = none := by
  have hknown : ∀ name ∈ e.names, name ∈ c.attributes.map fun a => a.fld.name := e.known
  have hdistinct : e.names.Nodup := e.nodup
  obtain ⟨mask, hmask, hbits⟩ := EntityClass.maskFor_known e.names hknown
  obtain ⟨indices, hmap, hnd, hmem⟩ := EntityClass.mapM_index hknown hdistinct
  have hrest := EntityClass.indices_maskFor hnd hmem hbits
  have hsplit := indices_eq hnd hmem hknown
  generalize hr : indices.mergeSort.filter (fun i => i ≠ 0) = rest at hrest hsplit
  have hheld : ∀ i, i ∈ rest ↔ e.Holds i ∧ i ≠ 0 := by
    intro i
    rw [← hr, List.mem_filter, List.mem_mergeSort, hmem, decide_eq_true_iff]
    rfl
  have hdata : e.serialize F none = indices.mergeSort.foldlM (e.serializeAttribute F) [] := by
    unfold serialize attributeIndicesFromData
    rw [hmap]
    rfl
  have hfrom : e.serialize F (some mask) = rest.foldlM (e.serializeAttribute F) [] := by
    rw [← hrest]
    rfl
  have hiff : e.MaskDriven F ↔ e.serialize F none = e.serialize F (some mask) := by
    constructor
    · rintro ⟨⟨mask', hmask', halike⟩, -⟩
      rw [hmask] at hmask'
      cases hmask'
      exact halike
    · exact fun h => ⟨⟨mask, hmask, h⟩, fun names => sorted_maskFor⟩
  rw [hiff, hdata, hfrom, hsplit]
  by_cases hid : "managed_entity_id" ∈ e.names
  · obtain ⟨i, hi⟩ := EntityClass.index_known (hknown _ hid)
    have hzero : e.Holds 0 := ⟨_, hid, (EntityClass.index_eq_zero hi).mpr rfl ▸ hi⟩
    rw [if_pos hid, List.singleton_append,
      foldlM_zero_eq_iff hzero fun i hi => ((hheld i).mp hi).1, exists_fail_iff hheld]
    exact ⟨Or.inr, fun h => h.resolve_left (not_not_intro hid)⟩
  · rw [if_neg hid, List.nil_append]
    exact iff_of_true rfl (Or.inl hid)

/-- `managed_entity_id` だけを持つ `OntData`。 -/
def ontDataOfId : Entity ontData where
  data := [("managed_entity_id", .int 1)]
  nodup := by decide
  known := by decide

/-- `serialize()` は二 byte だが、mask で作ると空になる。 -/
theorem ontDataOfId_differs : ¬ ontDataOfId.MaskDriven .network := by
  rintro ⟨⟨mask, hmask, halike⟩, -⟩
  have hbit : ontData.maskFor ontDataOfId.names = .ok 65536 := by decide
  rw [hbit] at hmask
  cases hmask
  have hdata : ontDataOfId.serialize .network none = .ok [0, 1] := by
    show ([0].mergeSort : List Nat).foldlM _ [] = _
    rw [List.mergeSort_singleton]
    rfl
  have hfrom : ontDataOfId.serialize .network (some 65536) = .ok [] := by
    show (EntityClass.attributeIndicesFromMask 65536).foldlM _ [] = _
    rw [EntityClass.attributeIndicesFromMask_eq]
    rfl
  rw [hdata, hfrom] at halike
  exact absurd halike (by decide)

end Entity

end Voltha.Omci
