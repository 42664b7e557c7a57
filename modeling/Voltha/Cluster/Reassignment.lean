import Voltha.Lib.Steps
import Voltha.Cluster.Silence

/-!
# `_reassign_work` の重なりと、行き着く assignment

`_reassign_work` の comment は `We must make sure while we are working on this, we do not
re-enter into same method!` と言うが、そのための仕組みは無い。soak timer は、前の実行が
続いている間にも切れる。

重ならない限り、実行が一つも無く timer も掛かっていない時点の assignment は、
今の member と workload から決まる `wanted` と一致する。
-/

namespace Voltha.Cluster

/-! ## 書き込みと assignment -/

section Writes

variable {pre : Text} {kv : Kv} {p : Text × Text}

theorem assignmentKey_injective {q : Text × Text} (hp : Ident p.1 ∧ Ident p.2)
    (hq : Ident q.1 ∧ Ident q.2) (h : assignmentKey pre p = assignmentKey pre q) : p = q := by
  have hmp : assignmentMatch pre (assignmentKey pre p) = some p :=
    assignmentMatch_eq_some.mpr ⟨rfl, hp⟩
  have hmq : assignmentMatch pre (assignmentKey pre q) = some q :=
    assignmentMatch_eq_some.mpr ⟨rfl, hq⟩
  rw [h, hmq] at hmp
  exact (Option.some.inj hmp).symm

theorem assignments_kvDelete (hp : Ident p.1 ∧ Ident p.2) :
    assignments pre (kvDelete kv (assignmentKey pre p)) = (assignments pre kv).erase p := by
  ext q
  rw [Finset.mem_erase, mem_assignments, mem_assignments]
  constructor
  · rintro ⟨⟨e, he, hk⟩, hq⟩
    obtain ⟨he, hne⟩ := List.mem_filter.mp he
    refine ⟨?_, ⟨e, he, hk⟩, hq⟩
    rintro rfl
    simp [hk] at hne
  · rintro ⟨hne, ⟨e, he, hk⟩, hq⟩
    refine ⟨⟨e, List.mem_filter.mpr ⟨he, ?_⟩, hk⟩, hq⟩
    rw [decide_eq_true_eq, hk]
    exact fun heq => hne (assignmentKey_injective hq hp heq)

theorem assignments_kvPut (hp : Ident p.1 ∧ Ident p.2) (value : Text) :
    assignments pre (kvPut kv (assignmentKey pre p) value) = insert p (assignments pre kv) := by
  have hm : assignmentMatch pre (assignmentKey pre p) = some p :=
    assignmentMatch_eq_some.mpr ⟨rfl, hp⟩
  have hsplit : assignments pre (kvPut kv (assignmentKey pre p) value)
      = insert p (assignments pre (kvDelete kv (assignmentKey pre p))) := by
    unfold assignments kvPut
    rw [List.filterMap_append, List.toFinset_append]
    simp [hm]
  rw [hsplit, assignments_kvDelete hp]
  ext q
  by_cases hq : q = p
  · simp [hq]
  · simp [hq]

/-- 書き込みを順に行う。 -/
def applyAll (kv : Kv) (ops : List WriteOp) : Kv := ops.foldl WriteOp.apply kv

theorem assignments_revoke : ∀ (revoke : List (Text × Text)) (kv : Kv),
    (∀ p ∈ revoke, Ident p.1 ∧ Ident p.2) →
    assignments pre (applyAll kv (revoke.map fun p => .delete (assignmentKey pre p)))
      = assignments pre kv \ revoke.toFinset
  | [], kv, _ => by simp [applyAll]
  | p :: revoke, kv, h => by
    have hrest := assignments_revoke revoke (kvDelete kv (assignmentKey pre p))
      fun q hq => h q (List.mem_cons_of_mem _ hq)
    rw [assignments_kvDelete (h p List.mem_cons_self)] at hrest
    refine hrest.trans ?_
    ext q
    simp only [Finset.mem_sdiff, Finset.mem_erase, List.mem_toFinset, List.mem_cons, not_or]
    tauto

theorem assignments_assign : ∀ (assign : List (Text × Text)) (kv : Kv),
    (∀ p ∈ assign, Ident p.1 ∧ Ident p.2) →
    assignments pre (applyAll kv (assign.map fun p => .put (assignmentKey pre p)))
      = assignments pre kv ∪ assign.toFinset
  | [], kv, _ => by simp [applyAll]
  | p :: assign, kv, h => by
    have hrest := assignments_assign assign (kvPut kv (assignmentKey pre p) [])
      fun q hq => h q (List.mem_cons_of_mem _ hq)
    rw [assignments_kvPut (h p List.mem_cons_self)] at hrest
    rw [List.toFinset_cons, Finset.union_insert, ← Finset.insert_union]
    exact hrest

/-- 読んだ assignment との差をすべて書けば、望んだ assignment になる。 -/
theorem assignments_reassignOps {wanted : Finset (Text × Text)}
    {revoke assign : List (Text × Text)} (hw : ∀ p ∈ wanted, Ident p.1 ∧ Ident p.2)
    (hrevoke : revoke.toFinset = assignments pre kv \ wanted)
    (hassign : assign.toFinset = wanted \ assignments pre kv) :
    assignments pre (applyAll kv (reassignOps pre revoke assign)) = wanted := by
  have hr : ∀ p ∈ revoke, Ident p.1 ∧ Ident p.2 := by
    intro p hp
    have : p ∈ assignments pre kv \ wanted := by rw [← hrevoke]; exact List.mem_toFinset.mpr hp
    exact (mem_assignments.mp (Finset.mem_sdiff.mp this).1).2
  have ha : ∀ p ∈ assign, Ident p.1 ∧ Ident p.2 := by
    intro p hp
    have : p ∈ wanted \ assignments pre kv := by rw [← hassign]; exact List.mem_toFinset.mpr hp
    exact hw p (Finset.mem_sdiff.mp this).1
  unfold reassignOps applyAll
  rw [List.foldl_append]
  change assignments pre (applyAll (applyAll kv _) _) = _
  rw [assignments_assign assign _ ha, assignments_revoke revoke _ hr, hrevoke, hassign]
  ext p
  simp only [Finset.mem_union, Finset.mem_sdiff]
  tauto

end Writes

/-! ## 主張 -/

/-- 他の書き手も `stop()` も関わらない出来事。 -/
def LeaderEvent.Own : LeaderEvent → Prop
  | .stop => False
  | .external _ => False
  | _ => True

namespace LeaderWorld

variable (env : LeaderEnv) {w : LeaderWorld}

/-- 実行が一つも無く、これから走る予定も無い。 -/
def Idle (w : LeaderWorld) : Prop := w.leader.runs = [] ∧ w.leader.timer ≠ .active

/-- 実行は重ならず、止んでいれば、どの work もちょうど一つの member のものである。 -/
def SingleOwner (w : LeaderWorld) : Prop :=
  w.leader.runs.length ≤ 1 ∧
    (w.Idle → w.leader.members ≠ [] →
      assignments env.assignmentPrefix w.kv = w.leader.wantedAssignments env ∧
      ∀ work ∈ w.leader.workload,
        ∃! member, (member, work) ∈ assignments env.assignmentPrefix w.kv)

/-- soak timer が切れるのは、前の実行が終わってからである。 -/
def FiresAlone (w : LeaderWorld) (e : LeaderEvent) : Prop :=
  e = .fire → w.leader.timer = .active → w.leader.runs = []

/-! ## 不変条件 -/

/-- 実行が、残りの書き込みで `wanted` に至る。 -/
def Heads (kv : Kv) (wanted : Finset (Text × Text)) : Reassign → Prop
  | .reading wanted' _ => wanted' = wanted ∧ ∀ p ∈ wanted, Ident p.1 ∧ Ident p.2
  | .writing op rest _ => assignments env.assignmentPrefix (applyAll kv (op :: rest)) = wanted

/--
重ならない間、保たれること。

走っている実行は何かの `wanted` に向かう。timer が掛かっていなければ、それは今のものである。
-/
structure Aimed (w : LeaderWorld) : Prop where
  timer : w.leader.timer ≠ .cancelled
  members : ∀ m ∈ w.leader.members, Ident m
  workload : ∀ x ∈ w.leader.workload, Ident x
  single : w.leader.runs.length ≤ 1
  idle : w.Idle → w.leader.members ≠ [] →
    assignments env.assignmentPrefix w.kv = w.leader.wantedAssignments env
  going : ∀ r ∈ w.leader.runs, ∃ wanted, Heads env w.kv wanted r ∧
    (w.leader.timer ≠ .active → wanted = w.leader.wantedAssignments env)

theorem aimed_initial (kv : Kv) : (initial kv).Aimed env where
  timer := SoakTimer.noConfusion
  members _ hm := absurd hm List.not_mem_nil
  workload _ hx := absurd hx List.not_mem_nil
  single := Nat.zero_le _
  idle _ hm := absurd rfl hm
  going _ hr := absurd hr List.not_mem_nil

theorem ident_of_idMatch {pre key id : Text} (h : idMatch pre key = some id) : Ident id := by
  unfold idMatch at h
  split at h
  · next hc =>
    cases h
    exact hc.2
  · cases h

theorem ident_of_mem_ids {pre : Text} {es : Kv} {id : Text}
    (h : id ∈ es.filterMap fun e => idMatch pre e.key) : Ident id := by
  obtain ⟨e, -, he⟩ := List.mem_filterMap.mp h
  exact ident_of_idMatch he

variable {env}

/-- 望ましい assignment の id は、どれも `/` を含まない。 -/
theorem Aimed.ident_wanted (h : w.Aimed env)
    (hring : ∀ members work, members ≠ [] → env.ring members work ∈ members) :
    ∀ p ∈ w.leader.wantedAssignments env, Ident p.1 ∧ Ident p.2 := by
  intro p hp
  unfold Leader.wantedAssignments at hp
  split at hp
  · simp at hp
  · next hm =>
    obtain ⟨work, hw, rfl⟩ := List.mem_map.mp (List.mem_toFinset.mp hp)
    exact ⟨h.members _ (hring _ _ hm), h.workload _ hw⟩

/-- 望ましい assignment では、どの work もちょうど一つの member のものである。 -/
theorem existsUnique_owner {l : Leader} (hm : l.members ≠ []) {work : Text}
    (hw : work ∈ l.workload) : ∃! member, (member, work) ∈ l.wantedAssignments env := by
  refine ⟨env.ring l.members work, ?_, ?_⟩
  · show (env.ring l.members work, work) ∈ _
    rw [Leader.wantedAssignments, if_neg hm, List.mem_toFinset, List.mem_map]
    exact ⟨work, hw, rfl⟩
  · intro member hmem
    rw [Leader.wantedAssignments, if_neg hm, List.mem_toFinset, List.mem_map] at hmem
    obtain ⟨work', -, he⟩ := hmem
    cases he
    rfl

theorem Aimed.singleOwner (h : w.Aimed env) : w.SingleOwner env := by
  refine ⟨h.single, fun hidle hm => ⟨h.idle hidle hm, fun work hw => ?_⟩⟩
  rw [h.idle hidle hm]
  exact existsUnique_owner hm hw

/-- 走っている実行は、あれば一つである。 -/
theorem Aimed.runs_eq (h : w.Aimed env) {i : Nat} {r : Reassign}
    (hr : w.leader.runs[i]? = some r) : w.leader.runs = [r] ∧ i = 0 := by
  have hlt : i < w.leader.runs.length := (List.getElem?_eq_some_iff.mp hr).1
  have hsingle := h.single
  have hi : i = 0 := by omega
  subst hi
  cases hruns : w.leader.runs with
  | nil => rw [hruns] at hr; cases hr
  | cons r' rest =>
    rw [hruns] at hr hsingle
    cases hr
    have hrest : rest = [] := by
      rw [List.length_cons] at hsingle
      exact List.eq_nil_of_length_eq_zero (by omega)
    exact ⟨by rw [hrest], rfl⟩

/-- 読みが変えるのは member と workload で、変われば timer が掛かる。 -/
theorem Aimed.leader (h : w.Aimed env) {l : Leader} (hruns : l.runs = w.leader.runs)
    (hm : ∀ m ∈ l.members, Ident m) (hw : ∀ x ∈ l.workload, Ident x)
    (hl : l.timer = .active ∨ l.timer = w.leader.timer ∧ l.members = w.leader.members ∧
      l.workload = w.leader.workload) : ({ w with leader := l } : LeaderWorld).Aimed env := by
  have hwanted : l.timer ≠ .active →
      l.timer = w.leader.timer ∧ l.members = w.leader.members ∧
        l.wantedAssignments env = w.leader.wantedAssignments env := by
    intro hne
    rcases hl with ha | ⟨ht, hmem, hwork⟩
    · exact absurd ha hne
    · refine ⟨ht, hmem, ?_⟩
      unfold Leader.wantedAssignments
      rw [hmem, hwork]
  refine ⟨?_, hm, hw, ?_, ?_, ?_⟩
  · show l.timer ≠ _
    rcases hl with ha | ⟨ht, -⟩
    · rw [ha]; decide
    · rw [ht]; exact h.timer
  · show l.runs.length ≤ 1
    rw [hruns]
    exact h.single
  · rintro ⟨hnil, hne⟩ hmem
    obtain ⟨ht, hmem', heq⟩ := hwanted hne
    show assignments _ w.kv = l.wantedAssignments env
    rw [heq]
    refine h.idle ⟨hruns.symm.trans hnil, ?_⟩ ?_
    · rw [← ht]; exact hne
    · rw [← hmem']; exact hmem
  · intro r hr
    obtain ⟨wanted, hheads, hcur⟩ := h.going r (by rw [← hruns]; exact hr)
    refine ⟨wanted, hheads, fun hne => ?_⟩
    obtain ⟨ht, -, heq⟩ := hwanted hne
    show wanted = l.wantedAssignments env
    rw [heq]
    exact hcur (by rw [← ht]; exact hne)

/-- 実行が次の書き込みに進む。残っていなければ、`wanted` に着いている。 -/
theorem Aimed.proceed (h : w.Aimed env) {kv : Kv} {r : Reassign} (hruns : w.leader.runs = [r])
    {ops : List WriteOp} {wanted : Finset (Text × Text)} (ownerless : Bool)
    (hops : assignments env.assignmentPrefix (applyAll kv ops) = wanted)
    (hcur : w.leader.timer ≠ .active → wanted = w.leader.wantedAssignments env) :
    (({ w with kv } : LeaderWorld).proceed 0 ops ownerless).Aimed env := by
  cases ops with
  | cons op rest =>
    unfold LeaderWorld.proceed
    rw [hruns]
    refine ⟨h.timer, h.members, h.workload, Nat.le_refl _, ?_, ?_⟩
    · rintro ⟨hnil, -⟩
      cases hnil
    · intro r' hr'
      cases List.mem_singleton.mp hr'
      exact ⟨wanted, hops, hcur⟩
  | nil =>
    unfold LeaderWorld.proceed
    rw [hruns]
    dsimp only [List.eraseIdx_cons_zero]
    split
    · rw [Leader.restart_getD]
      have hactive := rearm_ne_cancelled h.timer
      refine ⟨?_, h.members, h.workload, Nat.zero_le _, ?_, ?_⟩
      · show w.leader.timer.rearm ≠ _
        rw [hactive]; decide
      · rintro ⟨-, hne⟩
        exact absurd hactive hne
      · intro r' hr'
        cases hr'
    · refine ⟨h.timer, h.members, h.workload, Nat.zero_le _, ?_, ?_⟩
      · rintro ⟨-, hne⟩ -
        exact hops.trans (hcur hne)
      · intro r' hr'
        cases hr'

/-- 重ならない一歩は、不変条件を保つ。 -/
theorem Aimed.step (h : w.Aimed env)
    (hring : ∀ members work, members ≠ [] → env.ring members work ∈ members) {e : LeaderEvent}
    (he : e.Own) (halone : w.FiresAlone e) : (w.step env e).Aimed env := by
  have hsame : ∀ {l : Leader}, l.runs = w.leader.runs → l.timer = w.leader.timer →
      l.members = w.leader.members → l.workload = w.leader.workload →
      ({ w with leader := l } : LeaderWorld).Aimed env := by
    intro l hr ht hm hw
    refine h.leader hr ?_ ?_ (Or.inr ⟨ht, hm, hw⟩)
    · rw [hm]; exact h.members
    · rw [hw]; exact h.workload
  cases e with
  | started => rw [LeaderWorld.step]; split <;> exact hsame rfl rfl rfl rfl
  | trackWorkload => rw [LeaderWorld.step]; split <;> exact hsame rfl rfl rfl rfl
  | trackMembers => rw [LeaderWorld.step]; split <;> exact hsame rfl rfl rfl rfl
  | wake => rw [LeaderWorld.step]; split <;> exact hsame rfl rfl rfl rfl
  | workloadRead results =>
    rw [LeaderWorld.step]
    split
    · obtain ⟨workload, timer, tracker, he, -, ht, hw⟩ := w.leader.workloadRead_eq env results
      rw [he]
      refine h.leader rfl h.members ?_ ?_
      · show ∀ x ∈ workload, Ident x
        rcases hw with rfl | ⟨es, rfl⟩
        · exact h.workload
        · exact fun x hx => ident_of_mem_ids hx
      · rcases ht with ⟨hwork, ht⟩ | ht
        · exact Or.inr ⟨ht, rfl, hwork⟩
        · exact Or.inl (ht.trans (rearm_ne_cancelled h.timer))
    · exact h
  | membersRead results =>
    rw [LeaderWorld.step]
    split
    · rw [Leader.membersRead_eq]
      refine h.leader rfl (fun m hm => ident_of_mem_ids hm) h.workload ?_
      dsimp only
      split
      · exact Or.inl (rearm_ne_cancelled h.timer)
      · next hne => exact Or.inr ⟨rfl, not_not.mp hne, rfl⟩
    · exact h
  | fire =>
    rw [LeaderWorld.step]
    split
    · next hactive =>
      have hnil : w.leader.runs = [] := halone rfl hactive
      rw [hnil, List.nil_append]
      refine ⟨SoakTimer.noConfusion, h.members, h.workload, Nat.le_refl _, ?_, ?_⟩
      · rintro ⟨hruns, -⟩
        cases hruns
      · intro r hr
        cases List.mem_singleton.mp hr
        exact ⟨_, ⟨rfl, h.ident_wanted hring⟩, fun _ => rfl⟩
    · exact h
  | read i revoke assign =>
    rw [LeaderWorld.step]
    split
    · next wanted ownerless hr =>
      obtain ⟨hruns, rfl⟩ := h.runs_eq hr
      obtain ⟨wanted', ⟨rfl, hident⟩, hcur⟩ := h.going _ (List.mem_of_getElem? hr)
      dsimp only
      split
      · next horder =>
        exact h.proceed hruns ownerless
          (assignments_reassignOps hident horder.2.1 horder.2.2.2) hcur
      · exact h
    · exact h
  | complete i =>
    rw [LeaderWorld.step]
    split
    · next op rest ownerless hr =>
      obtain ⟨hruns, rfl⟩ := h.runs_eq hr
      obtain ⟨wanted, hheads, hcur⟩ := h.going _ (List.mem_of_getElem? hr)
      exact h.proceed hruns ownerless hheads hcur
    · exact h
  | stop => exact he.elim
  | external kv => exact he.elim

/-- 前の実行が続いている間に timer が切れると、二つの実行が重なる。 -/
theorem firesAlone_of_singleOwner {e : LeaderEvent} (h : (w.step env e).SingleOwner env) :
    w.FiresAlone e := by
  rintro rfl hactive
  have hlen := h.1
  rw [LeaderWorld.step, if_pos hactive] at hlen
  dsimp only at hlen
  rw [List.length_append, List.length_singleton] at hlen
  exact List.eq_nil_of_length_eq_zero (by omega)

end LeaderWorld

/--
**重ならず、止めば持ち主は一つ、となる条件。**

一つの Leader と、任意の順とタイミングの member と workload の変化について、
実行がいつも重ならず、止んだ時点の assignment が今の member と workload の `wanted` と
一致するのは、soak timer が前の実行の間に切れないときに限る。
-/
theorem single_owner_iff_fires_alone (env : LeaderEnv) (kv : Kv) (l : List LeaderEvent)
    (hring : ∀ members work, members ≠ [] → env.ring members work ∈ members)
    (hown : ∀ e ∈ l, e.Own) :
    Steps.Always (LeaderWorld.step env) (LeaderWorld.SingleOwner env) (LeaderWorld.initial kv) l ↔
      Steps.Each (LeaderWorld.step env) LeaderWorld.FiresAlone (LeaderWorld.initial kv) l := by
  have hinit := LeaderWorld.aimed_initial env kv
  refine Steps.always_iff_each (A := LeaderEvent.Own) (I := LeaderWorld.Aimed env) ?_ hown hinit
    hinit.singleOwner
  intro w e he haimed _
  have hstep := fun halone => haimed.step hring he halone
  exact ⟨⟨LeaderWorld.firesAlone_of_singleOwner, fun halone => (hstep halone).singleOwner⟩, hstep⟩

/-- 先頭の member にすべてを割り当てる、member が一つなら本物と同じ ring。 -/
private def headRing : LeaderEnv :=
  { assignmentPrefix := ['s', '/'], workloadPrefix := ['w', '/'], membershipPrefix := ['m', '/']
    ring := fun members _ => members.headD [] }

/-- member `a` と work `g` を読み、`_reassign_work` が走り始める。 -/
private def firstRun : List LeaderEvent :=
  [.started, .trackWorkload, .workloadRead (some [⟨['w', '/', 'g'], []⟩]),
    .trackMembers, .membersRead (some [⟨['m', '/', 'a'], []⟩]), .fire]

theorem single_owner_iff_fires_alone_first :
    (∀ e ∈ firstRun, e.Own) ∧
      (Steps.Always (LeaderWorld.step headRing) (LeaderWorld.SingleOwner headRing)
          (LeaderWorld.initial []) firstRun ↔
        Steps.Each (LeaderWorld.step headRing) LeaderWorld.FiresAlone
          (LeaderWorld.initial []) firstRun) := by
  have hown : ∀ e ∈ firstRun, e.Own := by
    simp [firstRun, LeaderEvent.Own]
  refine ⟨hown, single_owner_iff_fires_alone headRing [] firstRun ?_ hown⟩
  intro members work hm
  cases members with
  | nil => exact absurd rfl hm
  | cons m ms => exact List.mem_cons_self

/-- 最初の実行が読む前に member が `b` に替わり、二つ目の実行が走る。 -/
private def overlapping : List LeaderEvent :=
  firstRun ++ [.trackMembers, .membersRead (some [⟨['m', '/', 'b'], []⟩]), .fire,
    .read 0 [] [(['a'], ['g'])], .read 1 [] [(['b'], ['g'])], .complete 0, .complete 0]

/-- **重なった二つの実行は、一つの work に二つの持ち主を残す。** -/
theorem overlapping_runs_leave_two_owners :
    ¬ Steps.Always (LeaderWorld.step headRing) (LeaderWorld.SingleOwner headRing)
        (LeaderWorld.initial []) overlapping ∧
      ((LeaderWorld.initial []).run headRing overlapping).Idle ∧
      assignments headRing.assignmentPrefix ((LeaderWorld.initial []).run headRing overlapping).kv
        = {(['a'], ['g']), (['b'], ['g'])} := by
  have hidle : ((LeaderWorld.initial []).run headRing overlapping).Idle :=
    ⟨by decide, by decide⟩
  have hkv : assignments headRing.assignmentPrefix
      ((LeaderWorld.initial []).run headRing overlapping).kv
        = {(['a'], ['g']), (['b'], ['g'])} := by decide
  refine ⟨fun h => ?_, hidle, hkv⟩
  have hwanted := (h.last.2 hidle (by decide)).1
  have hb : ((LeaderWorld.initial []).run headRing overlapping).leader.wantedAssignments headRing
      = {(['b'], ['g'])} := by decide
  have heq := hkv.symm.trans (hwanted.trans hb)
  revert heq
  decide

end Voltha.Cluster
