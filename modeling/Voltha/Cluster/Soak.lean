import Voltha.Lib.Steps
import Voltha.Cluster.Worker

/-!
# Worker の soak timer

`_track_my_assignments` は、読んだ仕事が **`my_workload` と違うとき** だけ stash して timer を
仕掛け直す。`_update_assignments` は「the dust has settled」のときに呼ばれ、stash した仕事を採る。

比べる相手は stash した仕事ではなく `my_workload` である。したがって、soak の途中で仕事が元に戻ると、
何も起こらず、timer は古い仕事を抱えたまま切れる。
-/

namespace Voltha.Cluster

/-- worker と、それが最後に読んだ仕事。 -/
structure Watched where
  worker : Worker
  observed : Option (Finset Text)

namespace Watched

/-- 作られたばかりの worker は、まだ何も読んでいない。 -/
def initial : Watched := ⟨Worker.initial, none⟩

/-- worker の一歩。読んだ仕事を覚えておく。 -/
def step (pre instanceId : Text) (w : Watched) (st : WorkerStep) : Watched where
  worker := w.worker.step pre instanceId st
  observed :=
    match st with
    | .track kv => some (workloadFor pre instanceId kv)
    | .update => w.observed

variable {pre i : Text} {w : Watched} {l : List WorkerStep}

/-- timer が仕掛かっていなければ、最後に読んだ仕事をしている。 -/
def Current (w : Watched) : Prop :=
  w.worker.soaking = false → ∀ work, w.observed = some work → w.worker.myWorkload = work

/-- `_update_assignments` が呼ばれるなら、最後に読んだ仕事を採る。 -/
def Installs (pre i : Text) (w : Watched) : WorkerStep → Prop
  | .track _ => True
  | .update =>
    w.worker.soaking = true → w.observed = some (w.step pre i .update).worker.myWorkload

/-- 最後に読んだ仕事が今の仕事と同じ間は、timer は切れない。 -/
def FiresOnChange (w : Watched) : WorkerStep → Prop
  | .track _ => True
  | .update => w.worker.soaking = true → w.observed ≠ some w.worker.myWorkload

/--
timer が仕掛かっている間の不変条件。

stash した仕事は今の仕事と違う。最後に読んだのは、stash した仕事か、今の仕事である。
-/
def Stashed (w : Watched) : Prop :=
  w.worker.soaking = true → ∃ c, w.worker.candidate = some c ∧ c ≠ w.worker.myWorkload ∧
    (w.observed = some c ∨ w.observed = some w.worker.myWorkload)

theorem step_stashed (h : w.Stashed) (st : WorkerStep) : (w.step pre i st).Stashed := by
  intro hs
  cases st with
  | track kv =>
    simp only [step, Worker.step] at hs ⊢
    split at hs
    · next hne =>
      rw [if_pos hne]
      exact ⟨_, rfl, hne, Or.inl rfl⟩
    · next heq =>
      -- 元に戻った仕事を読んでも、stash した仕事は残る
      rw [if_neg heq]
      obtain ⟨c, hc, hne, -⟩ := h hs
      exact ⟨c, hc, hne, Or.inr (congrArg some (not_not.mp heq))⟩
  | update =>
    simp only [step, Worker.step] at hs
    split at hs
    · cases hs
    · next hsoak => exact absurd hs hsoak

/-- `track` は、timer が仕掛かっていなければ読んだ仕事が今の仕事であることを保つ。 -/
theorem track_current (kv : Kv) : (w.step pre i (.track kv)).Current := by
  intro hs work hwork
  simp only [step, Worker.step, Option.some.injEq] at hs hwork ⊢
  subst hwork
  split at hs
  · cases hs
  · next heq =>
    rw [if_neg heq]
    exact (not_not.mp heq).symm

/-- timer が切れるとき、最後に読んだ仕事を採るのは、それが今の仕事と違うときに限る。 -/
theorem Stashed.installs_iff (h : w.Stashed) (hs : w.worker.soaking = true) :
    w.observed = some (w.step pre i .update).worker.myWorkload
      ↔ w.observed ≠ some w.worker.myWorkload := by
  obtain ⟨c, hc, hne, hobs⟩ := h hs
  have hnew : (w.step pre i .update).worker.myWorkload = c := by
    simp only [step, Worker.step, if_pos hs, hc, Option.getD_some]
  rw [hnew]
  constructor
  · intro ho hcur
    rw [ho, Option.some.injEq] at hcur
    exact hne hcur
  · exact fun hcur => hobs.resolve_right hcur

/-- 切れた timer が最後に読んだ仕事を採ったなら、timer が無くても最後に読んだ仕事をしている。 -/
theorem Installs.current (h : w.Installs pre i .update) (hcur : w.Current) :
    (w.step pre i .update).Current := by
  intro hs work hwork
  by_cases hsoak : w.worker.soaking = true
  · have hobs := h hsoak
    change w.observed = some work at hwork
    rw [hwork, Option.some.injEq] at hobs
    exact hobs.symm
  · have hsame : w.step pre i .update = w := by
      simp only [step, Worker.step, if_neg hsoak]
    rw [hsame] at hs hwork ⊢
    exact hcur hs work hwork

/-- 一歩の条件と、一歩の性質の同値。 -/
theorem step_installs_iff (hI : w.Stashed) (hcur : w.Current) (st : WorkerStep) :
    (w.step pre i st).Current ∧ w.Installs pre i st ↔ w.FiresOnChange st := by
  have hhere : w.Installs pre i st ↔ w.FiresOnChange st := by
    cases st with
    | track kv => exact Iff.rfl
    | update => exact forall_congr' fun hs => hI.installs_iff hs
  have hnext : w.Installs pre i st → (w.step pre i st).Current := by
    intro h
    cases st with
    | track kv => exact track_current kv
    | update => exact h.current hcur
  rw [← hhere]
  exact ⟨fun h => h.2, fun h => ⟨hnext h, h⟩⟩

end Watched

/--
**soak が最後に読んだ仕事を採る条件。**

どの順で読み、いつ timer が切れても、`_update_assignments` が最後に読んだ仕事を採り、timer が
仕掛かっていないときの仕事が最後に読んだものであるのは、**最後に読んだ仕事が今の仕事と同じ間は
timer が切れない** ときに限る。
-/
theorem soak_installs_latest_iff (pre i : Text) (l : List WorkerStep) :
    (Steps.Always (Watched.step pre i) Watched.Current Watched.initial l ∧
        Steps.Each (Watched.step pre i) (Watched.Installs pre i) Watched.initial l)
      ↔ Steps.Each (Watched.step pre i) Watched.FiresOnChange Watched.initial l := by
  have hcur : Watched.initial.Current := fun _ _ hwork => by cases hwork
  have hstash : Watched.initial.Stashed := fun hs => by cases hs
  rw [Steps.always_iff, and_iff_right hcur, ← Steps.each_and]
  refine Steps.each_iff_each (I := fun w => w.Stashed ∧ w.Current) (A := fun _ => True)
    (fun w st _ h => ?_) (fun _ _ => trivial) ⟨hstash, hcur⟩
  have hiff : (w.step pre i st).Current ∧ w.Installs pre i st ↔ w.FiresOnChange st :=
    Watched.step_installs_iff h.1 h.2 st
  exact ⟨hiff, fun hC => ⟨Watched.step_stashed h.1 st, (hiff.mpr hC).1⟩⟩

/-- 仕事 `g1` を採った後、`g2` を読み、`g1` に戻ってから timer が切れると、`g2` を採る。 -/
theorem reverted_assignment_is_lost :
    let g1 := assignmentKv [("voltha_1", "g1")]
    let g2 := assignmentKv [("voltha_1", "g2")]
    let l := [WorkerStep.track g1, .update, .track g2, .track g1, .update]
    let w := l.foldl (Watched.step assignmentPrefix "voltha_1".toList) Watched.initial
    w.worker.soaking = false ∧ w.worker.myWorkload = {"g2".toList} ∧
      w.observed = some {"g1".toList} ∧
      ¬Steps.Always (Watched.step assignmentPrefix "voltha_1".toList) Watched.Current
        Watched.initial l := by
  intro g1 g2 l w
  have hw : w.worker.soaking = false ∧ w.worker.myWorkload = {"g2".toList} ∧
      w.observed = some {"g1".toList} := by decide +kernel
  obtain ⟨hsoak, hwork, hobs⟩ := hw
  refine ⟨hsoak, hwork, hobs, fun halways => ?_⟩
  have hcur := halways.last hsoak _ hobs
  rw [hwork] at hcur
  exact absurd hcur (by decide)

end Voltha.Cluster
