import Mathlib.Data.Finset.Filter
import Voltha.Cluster.Kv

/-!
# Worker

`voltha/worker.py`。各 instance の worker は、自分への assignment を見張って、
しばらく変わらなければ自分の仕事として採る。

`_track_my_assignments` は **`assignment_prefix + instance_id` で始まる項目** を読み、
正規表現で `work_id` だけを取り出す。`member_id` が自分かどうかは見ない。
したがって、自分の id を前に持つ別の instance の仕事まで数えることがある。
-/

namespace Voltha.Cluster

/-- `_track_my_assignments` が読んだ項目から数える仕事。 -/
def workloadFor (pre instanceId : Text) (kv : Kv) : Finset Text :=
  ((kvGet kv (pre ++ instanceId)).filterMap fun e =>
    (assignmentMatch pre e.key).map Prod.snd).toFinset

/-- member が `i` である仕事。 -/
def ownWork (pre i : Text) (kv : Kv) : Finset Text :=
  ((assignments pre kv).filter fun p => p.1 = i).image Prod.snd

/-! ## 状態 -/

/-- Worker。`soaking` は、まだ呼ばれていない soak timer があること。 -/
structure Worker where
  myWorkload : Finset Text
  candidate : Option (Finset Text)
  soaking : Bool

/-- 作られたばかりの worker。 -/
def Worker.initial : Worker := ⟨∅, some ∅, false⟩

/-- `_track_my_assignments` が項目を読んだとき、または soak timer が切れたとき。 -/
inductive WorkerStep where
  | track (kv : Kv)
  | update

namespace Worker

/-- `_stash_and_restart_soak_timer`。 -/
def stash (w : Worker) (candidate : Finset Text) : Worker :=
  { w with candidate := some candidate, soaking := true }

/-- 一歩。`_update_assignments` は、stash した仕事を自分の仕事にする。 -/
def step (pre instanceId : Text) (w : Worker) : WorkerStep → Worker
  | .track kv =>
    let workload := workloadFor pre instanceId kv
    if workload ≠ w.myWorkload then w.stash workload else w
  | .update =>
    if w.soaking then
      { myWorkload := w.candidate.getD ∅, candidate := none, soaking := false }
    else w

def run (pre instanceId : Text) (w : Worker) (l : List WorkerStep) : Worker :=
  l.foldl (step pre instanceId) w

end Worker

/-! ## 何を数えるか -/

variable {pre i j w : Text} {kv : Kv}

/-- 自分の id で始まる member の仕事を、すべて数える。 -/
theorem mem_workloadFor (hi : '/' ∉ i) :
    w ∈ workloadFor pre i kv ↔ ∃ m, i <+: m ∧ (m, w) ∈ assignments pre kv := by
  unfold workloadFor kvGet
  simp only [List.mem_toFinset, List.mem_filterMap, List.mem_filter, Option.map_eq_some_iff,
    mem_assignments]
  constructor
  · rintro ⟨e, ⟨he, hpre⟩, ⟨m, w'⟩, hm, rfl⟩
    obtain ⟨hk, hid⟩ := assignmentMatch_eq_some.mp hm
    refine ⟨m, ?_, ⟨e, he, hk⟩, hid⟩
    rw [List.isPrefixOf_iff_prefix, hk, assignmentKey, List.append_assoc,
      List.prefix_append_right_inj] at hpre
    -- `i` は `/` を含まないので、`/` の手前で終わる
    rcases List.prefix_or_prefix_of_prefix hpre (List.prefix_append m ('/' :: w')) with h | h
    · exact h
    · obtain ⟨t, rfl⟩ := h
      cases t with
      | nil => simp
      | cons c t =>
        rw [List.prefix_append_right_inj, List.cons_prefix_cons] at hpre
        rw [hpre.1] at hi
        simp at hi
  · rintro ⟨m, hpre, ⟨e, he, hk⟩, hid⟩
    refine ⟨e, ⟨he, ?_⟩, (m, w), assignmentMatch_eq_some.mpr ⟨hk, hid⟩, rfl⟩
    rw [List.isPrefixOf_iff_prefix, hk, assignmentKey, List.append_assoc,
      List.prefix_append_right_inj]
    exact hpre.trans (List.prefix_append _ _)

theorem mem_ownWork : w ∈ ownWork pre i kv ↔ (i, w) ∈ assignments pre kv := by
  unfold ownWork
  simp only [Finset.mem_image, Finset.mem_filter, Prod.exists]
  constructor
  · rintro ⟨m, w', ⟨hm, rfl⟩, rfl⟩
    exact hm
  · exact fun h => ⟨i, w, ⟨h, rfl⟩, rfl⟩

/-- どの実行でも、worker の仕事は、どこかで読んだ項目から数えたものである。 -/
theorem Worker.run_workload {l : List WorkerStep} :
    (run pre i initial l).myWorkload = ∅ ∨
      ∃ kv, .track kv ∈ l ∧ (run pre i initial l).myWorkload = workloadFor pre i kv := by
  -- stash した仕事についても同じことを言っておく
  have hinv : ∀ (l : List WorkerStep) (w : Worker) (P : Finset Text → Prop),
      P ∅ → (∀ kv, .track kv ∈ l → P (workloadFor pre i kv)) → P w.myWorkload →
      (∀ c, w.candidate = some c → P c) → P (run pre i w l).myWorkload := by
    intro l
    induction l with
    | nil => exact fun w P _ _ hw _ => hw
    | cons st l ih =>
      intro w P h0 hl hw hc
      have hl' : ∀ kv, .track kv ∈ l → P (workloadFor pre i kv) := fun kv hk =>
        hl kv (List.mem_cons_of_mem _ hk)
      show P (run pre i (step pre i w st) l).myWorkload
      cases st with
      | track kv =>
        rw [step]
        split
        · refine ih _ P h0 hl' hw fun c hc' => ?_
          cases hc'
          exact hl kv List.mem_cons_self
        · exact ih _ P h0 hl' hw hc
      | update =>
        rw [step]
        split
        · refine ih _ P h0 hl' ?_ fun c hc' => by cases hc'
          show P (w.candidate.getD ∅)
          cases hcand : w.candidate with
          | none => exact h0
          | some c => exact hc c hcand
        · exact ih _ P h0 hl' hw hc
  refine hinv l initial
    (fun x => x = ∅ ∨ ∃ kv, .track kv ∈ l ∧ x = workloadFor pre i kv)
    (Or.inl rfl) (fun kv hk => Or.inr ⟨kv, hk, rfl⟩) (Or.inl rfl) fun c hc => ?_
  cases hc
  exact Or.inl rfl

/-- どの仕事も持ち主は一人。 -/
def SingleOwner (pre : Text) (kv : Kv) : Prop :=
  ∀ m m' w, (m, w) ∈ assignments pre kv → (m', w) ∈ assignments pre kv → m = m'

/--
**worker が数える仕事が、ちょうど自分への assignment になる条件。**

自分の id で始まる別の member が居ない（居ても、その仕事は自分のものでもある）ときに限る。
持ち主が一人ずつの assignment では、二つの worker が同じ仕事を数えるのは、
両方の id で始まる member への assignment があるときに限る。
-/
theorem workload_exact_iff (pre i : Text) (kv : Kv) (hi : '/' ∉ i) :
    (workloadFor pre i kv = ownWork pre i kv ↔
      ∀ m w, (m, w) ∈ assignments pre kv → i <+: m → (i, w) ∈ assignments pre kv) ∧
    (SingleOwner pre kv → ∀ j, '/' ∉ j → i ≠ j →
      (Disjoint (workloadFor pre i kv) (workloadFor pre j kv) ↔
        ∀ m w, (m, w) ∈ assignments pre kv → ¬(i <+: m ∧ j <+: m))) := by
  refine ⟨⟨?_, ?_⟩, fun hone j hj hij => ?_⟩
  · intro heq m w hm hpre
    rw [← mem_ownWork, ← heq, mem_workloadFor hi]
    exact ⟨m, hpre, hm⟩
  · intro hall
    ext w
    rw [mem_workloadFor hi, mem_ownWork]
    constructor
    · rintro ⟨m, hpre, hm⟩
      exact hall m w hm hpre
    · exact fun h => ⟨i, List.prefix_rfl, h⟩
  · rw [Finset.disjoint_left]
    constructor
    · rintro hdis m w hm ⟨hpi, hpj⟩
      exact hdis ((mem_workloadFor hi).mpr ⟨m, hpi, hm⟩) ((mem_workloadFor hj).mpr ⟨m, hpj, hm⟩)
    · intro hno w hwi hwj
      obtain ⟨m, hpi, hm⟩ := (mem_workloadFor hi).mp hwi
      obtain ⟨m', hpj, hm'⟩ := (mem_workloadFor hj).mp hwj
      rw [← hone m m' w hm hm'] at hpj
      exact hno m w hm ⟨hpi, hpj⟩

/-- 既定の `assignment_prefix`。 -/
def assignmentPrefix : Text := "service/voltha/assignments/".toList

/-- assignment だけの store。 -/
def assignmentKv (l : List (String × String)) : Kv :=
  l.map fun p => ⟨assignmentKey assignmentPrefix (p.1.toList, p.2.toList), []⟩

/-- どちらの id も他方の前に現れないとき。 -/
theorem workload_exact_iff_apart :
    workloadFor assignmentPrefix "voltha_1".toList
        (assignmentKv [("voltha_1", "g1"), ("voltha_2", "g2")])
      = ownWork assignmentPrefix "voltha_1".toList
        (assignmentKv [("voltha_1", "g1"), ("voltha_2", "g2")]) := by
  refine (workload_exact_iff assignmentPrefix "voltha_1".toList
    (assignmentKv [("voltha_1", "g1"), ("voltha_2", "g2")]) (by decide)).1.mpr ?_
  intro m w hm hpre
  have hall : ∀ p ∈ assignments assignmentPrefix
      (assignmentKv [("voltha_1", "g1"), ("voltha_2", "g2")]),
      "voltha_1".toList.isPrefixOf p.1 → ("voltha_1".toList, p.2) ∈ assignments assignmentPrefix
        (assignmentKv [("voltha_1", "g1"), ("voltha_2", "g2")]) := by decide +kernel
  exact hall (m, w) hm (List.isPrefixOf_iff_prefix.mpr hpre)

/-- `voltha_1` の worker は、`voltha_10` への assignment も自分の仕事に数える。 -/
theorem prefix_id_takes_foreign_work :
    SingleOwner assignmentPrefix (assignmentKv [("voltha_1", "g1"), ("voltha_10", "g2")]) ∧
    workloadFor assignmentPrefix "voltha_1".toList
        (assignmentKv [("voltha_1", "g1"), ("voltha_10", "g2")])
      ≠ ownWork assignmentPrefix "voltha_1".toList
        (assignmentKv [("voltha_1", "g1"), ("voltha_10", "g2")]) ∧
    "g2".toList ∈ workloadFor assignmentPrefix "voltha_1".toList
        (assignmentKv [("voltha_1", "g1"), ("voltha_10", "g2")]) ∧
    "g2".toList ∈ workloadFor assignmentPrefix "voltha_10".toList
        (assignmentKv [("voltha_1", "g1"), ("voltha_10", "g2")]) := by
  refine ⟨?_, by decide +kernel, by decide +kernel, by decide +kernel⟩
  have hall : ∀ p ∈ assignments assignmentPrefix
      (assignmentKv [("voltha_1", "g1"), ("voltha_10", "g2")]), ∀ q ∈ assignments assignmentPrefix
      (assignmentKv [("voltha_1", "g1"), ("voltha_10", "g2")]), p.2 = q.2 → p.1 = q.1 := by
    decide +kernel
  exact fun m m' w hm hm' => hall (m, w) hm (m', w) hm' rfl

end Voltha.Cluster
