import Voltha.Cluster.Leader

/-!
# 止めた Leader の書き込み

`stop()` の docstring は `Suspend leadership duties immediately` と言う。`halted` を見るのは
読み続ける loop の `finally` だけで、次の二つは止まらない。

* 走っている `_reassign_work` は、残りの書き込みを出し切る
* 待っていた読みが変化を持って返れば、soak timer を掛け直し、新しい `_reassign_work` が走る

二つ目が起こらないのは、`stop()` が timer を取り消したときである。取り消し済みの timer は
掛け直せない（`AlreadyCancelled`）。
-/

namespace Voltha.Cluster

variable {w : LeaderWorld} (env : LeaderEnv)

namespace LeaderWorld

/-- 止めても何も書かれない状態。timer が掛かっていて、どの実行も最後の書き込みを待っている。 -/
def Quiet (w : LeaderWorld) : Prop :=
  w.leader.timer = .active ∧ ∀ r ∈ w.leader.runs, ∃ op ownerless, r = .writing op [] ownerless

/-! ## 静かな状態は静かなまま -/

/-- 止められ、timer も取り消され、新しい書き込みを出す実行が無い。 -/
structure Silenced (w : LeaderWorld) : Prop where
  halted : w.leader.halted = true
  timer : w.leader.timer = .cancelled
  runs : ∀ r ∈ w.leader.runs, ∃ op ownerless, r = .writing op [] ownerless

theorem Quiet.stop (h : w.Quiet) : (w.step env .stop).Silenced where
  halted := rfl
  timer := by
    show (if w.leader.timer = .active then _ else _) = _
    rw [if_pos h.1]
  runs := h.2

theorem Silenced.leader {l : Leader} (h : w.Silenced) (hh : l.halted = w.leader.halted)
    (ht : l.timer = w.leader.timer) (hr : ∀ r ∈ l.runs, r ∈ w.leader.runs) :
    Silenced { w with leader := l } where
  halted := hh.trans h.halted
  timer := ht.trans h.timer
  runs r hr' := h.runs r (hr r hr')

/-- 最後の書き込みが終わった実行は、消えるだけである。 -/
theorem Silenced.proceed (h : w.Silenced) (i : Nat) (ownerless : Bool) :
    (w.proceed i [] ownerless).Silenced ∧ (w.proceed i [] ownerless).issued = w.issued := by
  refine ⟨?_, rfl⟩
  unfold LeaderWorld.proceed
  have hr : ∀ r ∈ w.leader.runs.eraseIdx i, r ∈ w.leader.runs :=
    fun r hr => List.mem_of_mem_eraseIdx hr
  dsimp only
  split
  · rw [Leader.restart_getD]
    refine h.leader rfl ?_ hr
    show w.leader.timer.rearm = _
    rw [h.timer]
    rfl
  · exact h.leader rfl rfl hr

/-- 静かな状態の一歩は、書き込みを出さず、静かなままである。 -/
theorem Silenced.step (h : w.Silenced) (e : LeaderEvent) :
    (w.step env e).Silenced ∧ (w.step env e).issued = w.issued := by
  have hsame : ∀ {l : Leader}, l.halted = w.leader.halted → l.timer = w.leader.timer →
      l.runs = w.leader.runs →
      Silenced { w with leader := l } ∧ ({ w with leader := l } : LeaderWorld).issued = w.issued :=
    fun hh ht hr => ⟨h.leader hh ht (fun r => by rw [hr]; exact id), rfl⟩
  cases e with
  | started => rw [LeaderWorld.step]; split <;> exact hsame rfl rfl rfl
  | trackWorkload => rw [LeaderWorld.step]; split <;> exact hsame rfl rfl rfl
  | trackMembers => rw [LeaderWorld.step]; split <;> exact hsame rfl rfl rfl
  | wake => rw [LeaderWorld.step]; split <;> exact hsame rfl rfl rfl
  | workloadRead results =>
    rw [LeaderWorld.step]
    split
    · obtain ⟨workload, timer, tracker, he, -, ht, -⟩ := w.leader.workloadRead_eq env results
      rw [he]
      refine hsame rfl ?_ rfl
      rcases ht with ⟨-, ht⟩ | ht
      · exact ht
      · rw [ht, h.timer]; rfl
    · exact hsame rfl rfl rfl
  | membersRead results =>
    rw [LeaderWorld.step]
    split
    · rw [Leader.membersRead_eq]
      refine hsame rfl ?_ rfl
      show (if _ then w.leader.timer.rearm else w.leader.timer) = _
      rw [h.timer]
      split <;> rfl
    · exact hsame rfl rfl rfl
  | fire =>
    rw [LeaderWorld.step, if_neg (by rw [h.timer]; decide)]
    exact ⟨h, rfl⟩
  | read i revoke assign =>
    rw [LeaderWorld.step]
    cases hr : w.leader.runs[i]? with
    | none => exact ⟨h, rfl⟩
    | some r =>
      obtain ⟨op, ownerless, rfl⟩ := h.runs r (List.mem_of_getElem? hr)
      exact ⟨h, rfl⟩
  | complete i =>
    rw [LeaderWorld.step]
    cases hr : w.leader.runs[i]? with
    | none => exact ⟨h, rfl⟩
    | some r =>
      obtain ⟨op, ownerless, rfl⟩ := h.runs r (List.mem_of_getElem? hr)
      exact Silenced.proceed (w := { w with kv := op.apply w.kv }) ⟨h.halted, h.timer, h.runs⟩ i _
  | stop =>
    refine hsame h.halted.symm ?_ rfl
    show (if w.leader.timer = .active then _ else _) = _
    rw [if_neg (by rw [h.timer]; decide)]
  | external kv => exact ⟨⟨h.halted, h.timer, h.runs⟩, rfl⟩

theorem Silenced.run (l : List LeaderEvent) : ∀ {w : LeaderWorld}, w.Silenced →
    (w.run env l).issued = w.issued := by
  induction l with
  | nil => intro w _; rfl
  | cons e l ih =>
    intro w h
    obtain ⟨hs, hi⟩ := h.step env e
    exact (ih hs).trans hi

/-! ## 静かでない状態からは、書き込みが出る -/

/-- 止める前の Leader について保たれること。 -/
structure InOffice (w : LeaderWorld) : Prop where
  halted : w.leader.halted = false
  timer : w.leader.timer ≠ .cancelled
  members : w.leader.trackMembers = .starting ∨ w.leader.trackMembers = .scheduled ∨
    w.leader.trackMembers = .reading
  starting : w.leader.trackMembers = .starting → w.leader.trackWorkload = .starting

theorem inOffice_initial (kv : Kv) : (initial kv).InOffice :=
  ⟨rfl, SoakTimer.noConfusion, Or.inl rfl, fun _ => rfl⟩

theorem rearm_ne_cancelled {t : SoakTimer} (h : t ≠ .cancelled) : t.rearm = .active := if_neg h

theorem InOffice.proceed (h : w.InOffice) (i : Nat) (ops : List WriteOp) (ownerless : Bool) :
    (w.proceed i ops ownerless).InOffice := by
  cases ops with
  | cons op rest => exact ⟨h.halted, h.timer, h.members, h.starting⟩
  | nil =>
    unfold LeaderWorld.proceed
    dsimp only
    split
    · rw [Leader.restart_getD]
      refine ⟨h.halted, ?_, h.members, h.starting⟩
      show w.leader.timer.rearm ≠ _
      rw [rearm_ne_cancelled h.timer]
      decide
    · exact ⟨h.halted, h.timer, h.members, h.starting⟩

theorem InOffice.step (h : w.InOffice) {e : LeaderEvent} (he : e ≠ .stop) :
    (w.step env e).InOffice := by
  cases e with
  | started =>
    rw [LeaderWorld.step]
    split
    · exact ⟨h.halted, h.timer, Or.inr (Or.inl rfl), fun hs => by cases hs⟩
    · exact h
  | trackWorkload =>
    rw [LeaderWorld.step]
    split
    · next ht =>
      refine ⟨h.halted, h.timer, h.members, fun hs => ?_⟩
      rw [h.starting hs] at ht
      cases ht
    · exact h
  | trackMembers =>
    rw [LeaderWorld.step]
    split
    · exact ⟨h.halted, h.timer, Or.inr (Or.inr rfl), fun hs => by cases hs⟩
    · exact h
  | workloadRead results =>
    rw [LeaderWorld.step]
    split
    · next ht =>
      obtain ⟨workload, timer, tracker, he, -, htimer, -⟩ :=
        w.leader.workloadRead_eq env results
      rw [he]
      refine ⟨h.halted, ?_, h.members, fun hs => ?_⟩
      · show timer ≠ _
        rcases htimer with ⟨-, rfl⟩ | rfl
        · exact h.timer
        · rw [rearm_ne_cancelled h.timer]; decide
      · rw [h.starting hs] at ht
        cases ht
    · exact h
  | membersRead results =>
    rw [LeaderWorld.step]
    split
    · rw [Leader.membersRead_eq]
      have hnext : w.leader.nextTracker = .scheduled := by
        rw [Leader.nextTracker, h.halted]; rfl
      refine ⟨h.halted, ?_, Or.inr (Or.inl hnext), fun hs => ?_⟩
      · show (if _ then w.leader.timer.rearm else w.leader.timer) ≠ _
        rw [rearm_ne_cancelled h.timer]
        split
        · decide
        · exact h.timer
      · rw [show w.leader.nextTracker = _ from hs] at hnext
        cases hnext
    · exact h
  | wake =>
    rw [LeaderWorld.step]
    split
    · next ht =>
      refine ⟨h.halted, h.timer, h.members, fun hs => ?_⟩
      rw [h.starting hs] at ht
      cases ht
    · exact h
  | fire =>
    rw [LeaderWorld.step]
    split
    · exact ⟨h.halted, SoakTimer.noConfusion, h.members, h.starting⟩
    · exact h
  | read i revoke assign =>
    rw [LeaderWorld.step]
    split
    · dsimp only
      split
      · exact h.proceed _ _ _
      · exact h
    · exact h
  | complete i =>
    rw [LeaderWorld.step]
    split
    · next op rest ownerless _ =>
      have hkv : InOffice { w with kv := op.apply w.kv } :=
        ⟨h.halted, h.timer, h.members, h.starting⟩
      exact hkv.proceed _ _ _
    · exact h
  | stop => exact absurd rfl he
  | external kv => exact ⟨h.halted, h.timer, h.members, h.starting⟩

theorem InOffice.run (l : List LeaderEvent) : ∀ {w : LeaderWorld}, w.InOffice →
    LeaderEvent.stop ∉ l → (w.run env l).InOffice := by
  induction l with
  | nil => intro w h _; exact h
  | cons e l ih =>
    intro w h hl
    rw [List.mem_cons, not_or] at hl
    exact ih (h.step env (Ne.symm hl.1)) hl.2

theorem issued_proceed_ne (i : Nat) {ops : List WriteOp} (h : ops ≠ []) (ownerless : Bool) :
    (w.proceed i ops ownerless).issued ≠ w.issued := by
  cases ops with
  | nil => exact absurd rfl h
  | cons op rest =>
    show w.issued ++ [op] ≠ w.issued
    simp

theorem step_read {i : Nat} {wanted : Finset (Text × Text)} {ownerless : Bool}
    (revoke assign : List (Text × Text))
    (h : w.leader.runs[i]? = some (.reading wanted ownerless))
    (horder : revoke.Nodup ∧ revoke.toFinset = assignments env.assignmentPrefix w.kv \ wanted ∧
      assign.Nodup ∧ assign.toFinset = wanted \ assignments env.assignmentPrefix w.kv) :
    w.step env (.read i revoke assign)
      = w.proceed i (reassignOps env.assignmentPrefix revoke assign) ownerless := by
  rw [LeaderWorld.step, h]
  exact if_pos horder

/-- 他の誰かが書いた assignment 一つ。 -/
def stray : Text × Text := (['a'], ['a'])

theorem assignments_stray (pre : Text) :
    assignments pre [⟨assignmentKey pre stray, []⟩] = {stray} := by
  have hm : assignmentMatch pre (assignmentKey pre stray) = some stray :=
    assignmentMatch_eq_some.mpr ⟨rfl, by decide, by decide⟩
  simp [assignments, hm]

/-- 今の assignment の読みを待つ実行は、store の中身によっては書き込みを出す。 -/
theorem issues_of_reading {i : Nat} {wanted : Finset (Text × Text)} {ownerless : Bool}
    (h : w.leader.runs[i]? = some (.reading wanted ownerless)) :
    ∃ l, (w.run env l).issued ≠ w.issued := by
  by_cases hs : stray ∈ wanted
  · -- 何も割り当てられていなければ、`stray` を足す
    refine ⟨[.external [], .read i [] wanted.toList], ?_⟩
    have hread := step_read env (w := { w with kv := [] }) [] wanted.toList h
      ⟨List.nodup_nil, by simp [assignments], wanted.nodup_toList, by simp [assignments]⟩
    change (LeaderWorld.step env { w with kv := [] } (.read i [] wanted.toList)).issued ≠ w.issued
    rw [hread]
    refine issued_proceed_ne (w := { w with kv := [] }) i (fun hnil => ?_) _
    have hmem : stray ∈ wanted.toList := Finset.mem_toList.mpr hs
    rw [reassignOps, List.map_nil, List.nil_append, List.map_eq_nil_iff] at hnil
    rw [hnil] at hmem
    cases hmem
  · -- `stray` が割り当てられていれば、消す
    let kv : Kv := [⟨assignmentKey env.assignmentPrefix stray, []⟩]
    refine ⟨[.external kv, .read i [stray] wanted.toList], ?_⟩
    have hdisj : Disjoint wanted {stray} := by simpa using hs
    have hread := step_read env (w := { w with kv }) [stray] wanted.toList h (by
        refine ⟨List.nodup_singleton _, ?_, wanted.nodup_toList, ?_⟩
        · rw [assignments_stray, Finset.sdiff_eq_self_of_disjoint hdisj.symm]; rfl
        · rw [assignments_stray, Finset.sdiff_eq_self_of_disjoint hdisj, Finset.toList_toFinset])
    change (LeaderWorld.step env { w with kv } (.read i [stray] wanted.toList)).issued ≠ w.issued
    rw [hread]
    exact issued_proceed_ne (w := { w with kv }) i (by simp [reassignOps]) _

/-- 書き込みの残る実行は、次の書き込みを出す。 -/
theorem issues_of_writing {i : Nat} {op op' : WriteOp} {rest : List WriteOp} {ownerless : Bool}
    (h : w.leader.runs[i]? = some (.writing op (op' :: rest) ownerless)) :
    ∃ l, (w.run env l).issued ≠ w.issued := by
  refine ⟨[.complete i], ?_⟩
  change (LeaderWorld.step env w (.complete i)).issued ≠ w.issued
  rw [LeaderWorld.step, h]
  exact issued_proceed_ne (w := { w with kv := op.apply w.kv }) i (by simp) _

/-- 最初の一歩が書き込みを出さず、その後に書き込みが出ればよい。 -/
theorem issues_after {e : LeaderEvent} (he : (w.step env e).issued = w.issued)
    (h : ∃ l, ((w.step env e).run env l).issued ≠ (w.step env e).issued) :
    ∃ l, (w.run env l).issued ≠ w.issued := by
  obtain ⟨l, hl⟩ := h
  rw [he] at hl
  exact ⟨e :: l, hl⟩

theorem issues_of_active (h : w.leader.timer = .active) :
    ∃ l, (w.run env l).issued ≠ w.issued := by
  have hstep : w.step env .fire = _ := if_pos h
  refine issues_after env (e := .fire) (by rw [hstep]) ?_
  rw [hstep]
  exact issues_of_reading env (i := w.leader.runs.length) List.getElem?_concat_length

/-- member の読みを待っているなら、変化が返って timer が掛かる。 -/
theorem issues_of_membersReading (ht : w.leader.timer ≠ .cancelled)
    (h : w.leader.trackMembers = .reading) : ∃ l, (w.run env l).issued ≠ w.issued := by
  obtain ⟨results, hresults⟩ : ∃ results : Option Kv,
      ((results.getD []).filterMap fun e => idMatch env.membershipPrefix e.key)
        ≠ w.leader.members := by
    by_cases hm : w.leader.members = []
    · refine ⟨some [⟨env.membershipPrefix ++ ['a'], []⟩], ?_⟩
      have hmatch : idMatch env.membershipPrefix (env.membershipPrefix ++ ['a']) = some ['a'] := by
        unfold idMatch
        rw [List.drop_left, if_pos]
        exact ⟨List.isPrefixOf_iff_prefix.mpr (List.prefix_append _ _), by decide⟩
      rw [hm]
      simp [hmatch]
    · exact ⟨none, fun he => hm he.symm⟩
  have hstep : w.step env (.membersRead results) = _ := if_pos h
  refine issues_after env (e := .membersRead results) (by rw [hstep]) (issues_of_active env ?_)
  rw [hstep, Leader.membersRead_eq]
  show (if _ then w.leader.timer.rearm else _) = _
  rw [if_pos hresults, rearm_ne_cancelled ht]

theorem issues_of_membersScheduled (ht : w.leader.timer ≠ .cancelled)
    (h : w.leader.trackMembers = .scheduled) : ∃ l, (w.run env l).issued ≠ w.issued := by
  have hstep : w.step env .trackMembers = _ := if_pos h
  refine issues_after env (e := .trackMembers) (by rw [hstep]) ?_
  rw [hstep]
  exact issues_of_membersReading env ht rfl

theorem issues_of_starting (ht : w.leader.timer ≠ .cancelled)
    (hw : w.leader.trackWorkload = .starting) (h : w.leader.trackMembers = .starting) :
    ∃ l, (w.run env l).issued ≠ w.issued := by
  have hstep : w.step env .started = _ := if_pos ⟨hw, h⟩
  refine issues_after env (e := .started) (by rw [hstep]) ?_
  rw [hstep]
  exact issues_of_membersScheduled env ht rfl

/-- 静かでない状態で止めても、書き込みが出る続きがある。 -/
theorem InOffice.issues_after_stop (h : w.InOffice) (hq : ¬ w.Quiet) :
    ∃ l, ((w.step env .stop).run env l).issued ≠ w.issued := by
  show ∃ l, ((w.step env .stop).run env l).issued ≠ (w.step env .stop).issued
  by_cases ht : w.leader.timer = .active
  · obtain ⟨r, hr, hne⟩ : ∃ r ∈ w.leader.runs, ¬ ∃ op ownerless, r = .writing op [] ownerless := by
      by_contra hall
      refine hq ⟨ht, fun r hr => ?_⟩
      by_contra hne
      exact hall ⟨r, hr, hne⟩
    obtain ⟨i, hi⟩ := List.mem_iff_getElem?.mp hr
    cases r with
    | reading wanted ownerless => exact issues_of_reading env hi
    | writing op rest ownerless =>
      cases rest with
      | nil => exact absurd ⟨op, ownerless, rfl⟩ hne
      | cons op' rest => exact issues_of_writing env hi
  · have ht' : (w.step env .stop).leader.timer ≠ .cancelled := by
      show (if _ then _ else _) ≠ _
      rw [if_neg ht]
      exact h.timer
    rcases h.members with hm | hm | hm
    · exact issues_of_starting env ht' (h.starting hm) hm
    · exact issues_of_membersScheduled env ht' hm
    · exact issues_of_membersReading env ht' hm

end LeaderWorld

/--
**止めた Leader が何も書かないのは、静かな状態で止めたときに限る。**

どの実行のどの時点で `stop()` を呼んでも、その後に assignment への書き込みが決して出ないのは、
soak timer が掛かっていて、走っている `_reassign_work` がどれも最後の書き込みを待っている場合である。
-/
theorem silent_after_stop_iff (env : LeaderEnv) (kv : Kv) (before : List LeaderEvent)
    (hbefore : LeaderEvent.stop ∉ before) :
    (∀ after, ((((LeaderWorld.initial kv).run env before).step env .stop).run env after).issued
        = ((LeaderWorld.initial kv).run env before).issued) ↔
      ((LeaderWorld.initial kv).run env before).Quiet := by
  have hoffice := (LeaderWorld.inOffice_initial kv).run env before hbefore
  constructor
  · intro h
    by_contra hq
    obtain ⟨l, hl⟩ := hoffice.issues_after_stop env hq
    exact hl (h l)
  · intro hq after
    exact (hq.stop env).run env after

/-- 先頭の member にすべてを割り当てる、member が一つなら本物と同じ ring。 -/
private def soleRing : LeaderEnv :=
  { assignmentPrefix := ['s', '/'], workloadPrefix := ['w', '/'], membershipPrefix := ['m', '/']
    ring := fun members _ => members.headD [] }

/-- member を一つ読んだところ。 -/
private def oneMember : List LeaderEvent :=
  [.started, .trackMembers, .membersRead (some [⟨['m', '/', 'a'], []⟩])]

theorem silent_after_stop_iff_soaking :
    LeaderEvent.stop ∉ oneMember ∧
      ((∀ after, ((((LeaderWorld.initial []).run soleRing oneMember).step soleRing .stop).run
          soleRing after).issued = ((LeaderWorld.initial []).run soleRing oneMember).issued) ↔
        ((LeaderWorld.initial []).run soleRing oneMember).Quiet) :=
  have h : LeaderEvent.stop ∉ oneMember := by decide
  ⟨h, silent_after_stop_iff soleRing [] oneMember h⟩

/-- work も一つ読み、`_reassign_work` が走り始めたところ。 -/
private def reassigning : List LeaderEvent :=
  oneMember ++ [.trackWorkload, .workloadRead (some [⟨['w', '/', 'g'], []⟩]), .fire]

/-- **走っている `_reassign_work` は、止められた後に書き込みを出す。** -/
theorem stopped_leader_writes :
    LeaderEvent.stop ∉ reassigning ∧
      ((((LeaderWorld.initial []).run soleRing reassigning).step soleRing .stop).run soleRing
          [.read 0 [] [(['a'], ['g'])]]).issued = [.put ['s', '/', 'a', '/', 'g']] ∧
      ((LeaderWorld.initial []).run soleRing reassigning).issued = [] := by
  decide

end Voltha.Cluster
