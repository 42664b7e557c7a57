import Voltha.Cluster.Reassignment

/-!
# 妨げの無い `_reassign_work`

他の書き手がいない間の、一つの `_reassign_work` の全体。

消す書き込みをすべて済ませてから足すので、どの書き込みの後でも、どの work の持ち主も
高々一つである。今あって望まれる項目には触れず、終われば assignment は `wanted` になる
（`reassign_safe`）。
-/

namespace Voltha.Cluster

/-- どの work の持ち主も高々一つ。 -/
def AtMostOneOwner (owners : Finset (Text × Text)) : Prop :=
  ∀ p ∈ owners, ∀ q ∈ owners, p.2 = q.2 → p = q

instance (owners : Finset (Text × Text)) : Decidable (AtMostOneOwner owners) :=
  inferInstanceAs (Decidable (∀ p ∈ owners, ∀ q ∈ owners, p.2 = q.2 → p = q))

theorem AtMostOneOwner.subset {owners owners' : Finset (Text × Text)} (h : AtMostOneOwner owners)
    (hsub : owners' ⊆ owners) : AtMostOneOwner owners' :=
  fun p hp q hq => h p (hsub hp) q (hsub hq)

/-- 書き込みの key。 -/
def WriteOp.key : WriteOp → Text
  | .delete key => key
  | .put key => key

/-- `key` の項目。 -/
def entriesAt (kv : Kv) (key : Text) : Kv := kv.filter fun e => e.key = key

section Writes

variable {pre : Text} {kv : Kv} {current wanted : Finset (Text × Text)}
  {revoke assign : List (Text × Text)}

/-- 消す順と足す順。読んだ `current` と `wanted` の差を、一つずつ並べたもの。 -/
structure Order (current wanted : Finset (Text × Text)) (revoke assign : List (Text × Text)) :
    Prop where
  revoke_nodup : revoke.Nodup
  revoke_eq : revoke.toFinset = current \ wanted
  assign_nodup : assign.Nodup
  assign_eq : assign.toFinset = wanted \ current

/-- 途中までの書き込みは、消すものの初めの部分と、足すものの初めの部分である。 -/
theorem take_reassignOps (n : Nat) : (reassignOps pre revoke assign).take n
    = reassignOps pre (revoke.take n) (assign.take (n - revoke.length)) := by
  unfold reassignOps
  rw [List.take_append, List.map_take, List.map_take, List.length_map]

/-- どの書き込みの後の assignment も、今のものか望むものに含まれる。 -/
theorem assignments_take (horder : Order (assignments pre kv) wanted revoke assign)
    (hident : ∀ p ∈ wanted, Ident p.1 ∧ Ident p.2) (n : Nat) :
    assignments pre (applyAll kv ((reassignOps pre revoke assign).take n)) ⊆ assignments pre kv ∨
    assignments pre (applyAll kv ((reassignOps pre revoke assign).take n)) ⊆ wanted := by
  have hrevoke : ∀ p ∈ revoke.take n, Ident p.1 ∧ Ident p.2 := by
    intro p hp
    have hmem : p ∈ assignments pre kv \ wanted :=
      horder.revoke_eq ▸ List.mem_toFinset.mpr (List.mem_of_mem_take hp)
    exact (mem_assignments.mp (Finset.mem_sdiff.mp hmem).1).2
  have hassign : ∀ p ∈ assign.take (n - revoke.length), p ∈ wanted := by
    intro p hp
    have hmem : p ∈ wanted \ assignments pre kv :=
      horder.assign_eq ▸ List.mem_toFinset.mpr (List.mem_of_mem_take hp)
    exact (Finset.mem_sdiff.mp hmem).1
  have hafter : assignments pre (applyAll kv ((reassignOps pre revoke assign).take n))
      = assignments pre kv \ (revoke.take n).toFinset
        ∪ (assign.take (n - revoke.length)).toFinset := by
    rw [take_reassignOps]
    unfold reassignOps applyAll
    rw [List.foldl_append]
    change assignments pre (applyAll (applyAll kv _) _) = _
    rw [assignments_assign _ _ fun p hp => hident p (hassign p hp), assignments_revoke _ _ hrevoke]
  rw [hafter]
  rcases Nat.lt_or_ge n revoke.length with hlt | hge
  · -- まだ消している
    left
    rw [Nat.sub_eq_zero_of_le hlt.le, List.take_zero, List.toFinset_nil, Finset.union_empty]
    exact Finset.sdiff_subset
  · -- 消し終えた
    right
    rw [List.take_of_length_le hge, horder.revoke_eq]
    intro p hp
    rcases Finset.mem_union.mp hp with hp | hp
    · simp only [Finset.mem_sdiff, not_and, not_not] at hp
      exact hp.2 hp.1
    · exact hassign p (List.mem_toFinset.mp hp)

/-- 今あって望まれる項目の key には、どの書き込みも触れない。 -/
theorem key_ne_of_kept (horder : Order (assignments pre kv) wanted revoke assign)
    (hident : ∀ p ∈ wanted, Ident p.1 ∧ Ident p.2) {p : Text × Text}
    (hp : p ∈ assignments pre kv ∩ wanted) :
    ∀ op ∈ reassignOps pre revoke assign, op.key ≠ assignmentKey pre p := by
  obtain ⟨hcurrent, hwanted⟩ := Finset.mem_inter.mp hp
  have hpi := hident p hwanted
  intro op hop hkey
  rcases List.mem_append.mp hop with hop | hop
  · obtain ⟨q, hq, rfl⟩ := List.mem_map.mp hop
    have hmem : q ∈ assignments pre kv \ wanted := horder.revoke_eq ▸ List.mem_toFinset.mpr hq
    obtain ⟨hqc, hqw⟩ := Finset.mem_sdiff.mp hmem
    have heq := assignmentKey_injective (mem_assignments.mp hqc).2 hpi hkey
    exact hqw (heq ▸ hwanted)
  · obtain ⟨q, hq, rfl⟩ := List.mem_map.mp hop
    have hmem : q ∈ wanted \ assignments pre kv := horder.assign_eq ▸ List.mem_toFinset.mpr hq
    obtain ⟨hqw, hqc⟩ := Finset.mem_sdiff.mp hmem
    have heq := assignmentKey_injective (hident q hqw) hpi hkey
    exact hqc (heq ▸ hcurrent)

/-- 触れない書き込みは、項目を変えない。 -/
theorem entriesAt_applyAll {key : Text} : ∀ (ops : List WriteOp) (kv : Kv),
    (∀ op ∈ ops, op.key ≠ key) → entriesAt (applyAll kv ops) key = entriesAt kv key
  | [], _, _ => rfl
  | op :: ops, kv, h => by
    have hdelete : ∀ k, k ≠ key → entriesAt (kvDelete kv k) key = entriesAt kv key := by
      intro k hk
      unfold entriesAt kvDelete
      rw [List.filter_filter]
      refine List.filter_congr fun e _ => ?_
      by_cases he : e.key = key
      · simp [he, Ne.symm hk]
      · simp [he]
    have hrest : ∀ o ∈ ops, o.key ≠ key := fun o ho => h o (List.mem_cons_of_mem _ ho)
    refine (entriesAt_applyAll ops (op.apply kv) hrest).trans ?_
    have hne := h op List.mem_cons_self
    cases op with
    | delete k => exact hdelete k hne
    | put k =>
      have hput : entriesAt (kvPut kv k []) key = entriesAt (kvDelete kv k) key := by
        have hne : k ≠ key := hne
        unfold entriesAt kvPut
        rw [List.filter_append]
        simp [hne]
      exact hput.trans (hdelete k hne)

end Writes

/-! ## 実行 -/

namespace LeaderWorld

variable {env : LeaderEnv}

/-- 書き込みを `n` 回終えた kv store と、残りの実行。 -/
theorem run_complete (ops : List WriteOp) (ownerless : Bool) (n : Nat) (w : LeaderWorld)
    {r : Reassign} (hruns : w.leader.runs = [r]) :
    ((w.proceed 0 ops ownerless).run env (List.replicate n (.complete 0))).kv
      = applyAll w.kv (ops.take n) ∧
    (ops.length ≤ n →
      ((w.proceed 0 ops ownerless).run env (List.replicate n (.complete 0))).leader.runs = []) := by
  induction ops generalizing n w r with
  | nil =>
    have hdone : (w.proceed 0 [] ownerless).leader.runs = [] ∧
        (w.proceed 0 [] ownerless).kv = w.kv := by
      unfold proceed
      rw [hruns]
      dsimp only [List.eraseIdx_cons_zero]
      split
      · rw [Leader.restart_getD]
        exact ⟨rfl, rfl⟩
      · exact ⟨rfl, rfl⟩
    have hidle : ∀ n, (w.proceed 0 [] ownerless).run env (List.replicate n (.complete 0))
        = w.proceed 0 [] ownerless := by
      intro n
      induction n with
      | zero => rfl
      | succ n ih =>
        have hstep : (w.proceed 0 [] ownerless).step env (.complete 0)
            = w.proceed 0 [] ownerless := by
          unfold step
          rw [hdone.1]
          rfl
        show ((w.proceed 0 [] ownerless).step env (.complete 0)).run env _ = _
        rw [hstep]
        exact ih
    rw [hidle]
    exact ⟨by rw [List.take_nil]; exact hdone.2, fun _ => hdone.1⟩
  | cons op ops ih =>
    have hproceed : (w.proceed 0 (op :: ops) ownerless).leader.runs
        = [.writing op ops ownerless] := by
      unfold proceed
      rw [hruns]
      rfl
    cases n with
    | zero => exact ⟨rfl, fun h => absurd h (by simp)⟩
    | succ n =>
      have hstep : (w.proceed 0 (op :: ops) ownerless).step env (.complete 0)
          = ({ w.proceed 0 (op :: ops) ownerless with kv := op.apply w.kv } : LeaderWorld).proceed 0
              ops ownerless := by
        unfold step
        rw [hproceed]
        rfl
      show (((w.proceed 0 (op :: ops) ownerless).step env (.complete 0)).run env _).kv = _ ∧
        (_ → (((w.proceed 0 (op :: ops) ownerless).step env (.complete 0)).run env _).leader.runs
          = [])
      rw [hstep]
      obtain ⟨hkv, hend⟩ := ih n { w.proceed 0 (op :: ops) ownerless with kv := op.apply w.kv }
        hproceed
      exact ⟨hkv, fun h => hend (Nat.le_of_succ_le_succ h)⟩

/-- `_reassign_work` が始まり、読み、`n` 回の書き込みを終える。 -/
def undisturbed (revoke assign : List (Text × Text)) (n : Nat) : List LeaderEvent :=
  .fire :: .read 0 revoke assign :: List.replicate n (.complete 0)

theorem run_undisturbed {w : LeaderWorld} {revoke assign : List (Text × Text)}
    (htimer : w.leader.timer = .active) (hruns : w.leader.runs = [])
    (horder : Order (assignments env.assignmentPrefix w.kv) (w.leader.wantedAssignments env)
      revoke assign) (n : Nat) :
    (w.run env (undisturbed revoke assign n)).kv
      = applyAll w.kv ((reassignOps env.assignmentPrefix revoke assign).take n) ∧
    ((reassignOps env.assignmentPrefix revoke assign).length ≤ n →
      (w.run env (undisturbed revoke assign n)).leader.runs = []) := by
  obtain ⟨w₁, hw₁, hkv, hruns₁⟩ : ∃ w₁ : LeaderWorld, w.step env .fire = w₁ ∧ w₁.kv = w.kv ∧
      w₁.leader.runs = [.reading (w.leader.wantedAssignments env) w.leader.ownerless] := by
    refine ⟨_, rfl, ?_⟩
    unfold step
    rw [if_pos htimer, hruns]
    exact ⟨rfl, rfl⟩
  have hread : w₁.step env (.read 0 revoke assign)
      = w₁.proceed 0 (reassignOps env.assignmentPrefix revoke assign) w.leader.ownerless := by
    have horder' : revoke.Nodup ∧ revoke.toFinset =
          assignments env.assignmentPrefix w₁.kv \ w.leader.wantedAssignments env ∧
        assign.Nodup ∧ assign.toFinset =
          w.leader.wantedAssignments env \ assignments env.assignmentPrefix w₁.kv := by
      rw [hkv]
      exact ⟨horder.revoke_nodup, horder.revoke_eq, horder.assign_nodup, horder.assign_eq⟩
    unfold step
    rw [hruns₁]
    exact if_pos horder'
  have hrun : w.run env (undisturbed revoke assign n)
      = (w₁.proceed 0 (reassignOps env.assignmentPrefix revoke assign) w.leader.ownerless).run env
          (List.replicate n (.complete 0)) := by
    show ((w.step env .fire).step env (.read 0 revoke assign)).run env _ = _
    rw [hw₁, hread]
  rw [hrun, ← hkv]
  exact run_complete _ _ n w₁ hruns₁

end LeaderWorld

/--
**妨げの無い一回の割り当て直し。** 他の書き手がいなければ、どの書き込みの後でも、
どの work の持ち主も高々一つで、今あって望まれる項目は変わらない。
すべての書き込みが終われば、assignment は望んだものになる。どの work の持ち主も、ring が今の member から
選ぶものである。
-/
theorem reassign_safe (env : LeaderEnv)
    (hring : ∀ members work, members ≠ [] → env.ring members work ∈ members) {w : LeaderWorld}
    (htimer : w.leader.timer = .active) (hruns : w.leader.runs = [])
    (hmembers : w.leader.members ≠ []) (hmemberIds : ∀ m ∈ w.leader.members, Ident m)
    (hworkIds : ∀ x ∈ w.leader.workload, Ident x)
    (hone : AtMostOneOwner (assignments env.assignmentPrefix w.kv))
    {revoke assign : List (Text × Text)}
    (horder : Order (assignments env.assignmentPrefix w.kv) (w.leader.wantedAssignments env)
      revoke assign) (n : Nat) :
    AtMostOneOwner (assignments env.assignmentPrefix
      (w.run env (LeaderWorld.undisturbed revoke assign n)).kv) ∧
    (∀ p ∈ assignments env.assignmentPrefix w.kv ∩ w.leader.wantedAssignments env,
      (∀ op ∈ reassignOps env.assignmentPrefix revoke assign,
        op.key ≠ assignmentKey env.assignmentPrefix p) ∧
      entriesAt (w.run env (LeaderWorld.undisturbed revoke assign n)).kv
          (assignmentKey env.assignmentPrefix p)
        = entriesAt w.kv (assignmentKey env.assignmentPrefix p)) ∧
    ((reassignOps env.assignmentPrefix revoke assign).length ≤ n →
      (w.run env (LeaderWorld.undisturbed revoke assign n)).leader.runs = [] ∧
      assignments env.assignmentPrefix (w.run env (LeaderWorld.undisturbed revoke assign n)).kv
        = w.leader.wantedAssignments env ∧
      ∀ owner work, (owner, work) ∈ assignments env.assignmentPrefix
          (w.run env (LeaderWorld.undisturbed revoke assign n)).kv ↔
        work ∈ w.leader.workload ∧ owner = env.ring w.leader.members work) := by
  have hwanted : w.leader.wantedAssignments env
      = (w.leader.workload.map fun x => (env.ring w.leader.members x, x)).toFinset :=
    if_neg hmembers
  have hident : ∀ p ∈ w.leader.wantedAssignments env, Ident p.1 ∧ Ident p.2 := by
    intro p hp
    rw [hwanted, List.mem_toFinset] at hp
    obtain ⟨x, hx, rfl⟩ := List.mem_map.mp hp
    exact ⟨hmemberIds _ (hring _ _ hmembers), hworkIds x hx⟩
  -- `wanted` の持ち主は ring が決める
  have hring_one : AtMostOneOwner (w.leader.wantedAssignments env) := by
    intro p hp q hq hsame
    rw [hwanted, List.mem_toFinset] at hp hq
    obtain ⟨x, -, rfl⟩ := List.mem_map.mp hp
    obtain ⟨y, -, rfl⟩ := List.mem_map.mp hq
    have hxy : x = y := hsame
    rw [hxy]
  obtain ⟨hkv, hend⟩ := LeaderWorld.run_undisturbed htimer hruns horder n
  rw [hkv]
  have howner : ∀ owner work, (owner, work) ∈ w.leader.wantedAssignments env ↔
      work ∈ w.leader.workload ∧ owner = env.ring w.leader.members work := by
    intro owner work
    rw [hwanted, List.mem_toFinset, List.mem_map]
    constructor
    · rintro ⟨x, hx, he⟩
      obtain ⟨rfl, rfl⟩ := Prod.mk.inj he
      exact ⟨hx, rfl⟩
    · rintro ⟨hx, rfl⟩
      exact ⟨work, hx, rfl⟩
  have hdone : (reassignOps env.assignmentPrefix revoke assign).length ≤ n →
      assignments env.assignmentPrefix
          (applyAll w.kv ((reassignOps env.assignmentPrefix revoke assign).take n))
        = w.leader.wantedAssignments env := by
    intro hn
    rw [List.take_of_length_le hn]
    exact assignments_reassignOps hident horder.revoke_eq horder.assign_eq
  refine ⟨?_, fun p hp => ⟨key_ne_of_kept horder hident hp, ?_⟩,
    fun hn => ⟨hend hn, hdone hn, by rw [hdone hn]; exact howner⟩⟩
  · rcases assignments_take horder hident n with hsub | hsub
    · exact hone.subset hsub
    · exact hring_one.subset hsub
  · exact entriesAt_applyAll _ _ fun op hop =>
      key_ne_of_kept horder hident hp op (List.mem_of_mem_take hop)

/-- member `a` だけになり、`b` の work を移す。work `h` は `a` のままである。 -/
def movingWorld : LeaderWorld where
  leader :=
    { halted := false, workload := [['g'], ['h']], members := [['a']], timer := .active
      trackWorkload := .reading, trackMembers := .reading, runs := [] }
  kv := [⟨['s', '/', 'b', '/', 'g'], []⟩, ⟨['s', '/', 'a', '/', 'h'], []⟩]
  issued := []

/-- 一つの member だけのときは、本物と同じ ring。 -/
def onlyMember : LeaderEnv where
  assignmentPrefix := ['s', '/']
  workloadPrefix := ['w', '/']
  membershipPrefix := ['m', '/']
  ring members _ := members.headD []

theorem reassign_safe_moving :
    AtMostOneOwner (assignments ['s', '/'] (movingWorld.run onlyMember
      (LeaderWorld.undisturbed [(['b'], ['g'])] [(['a'], ['g'])] 1)).kv) := by
  refine (reassign_safe onlyMember (fun members work hm => ?_) (w := movingWorld) rfl rfl
    (by decide) (by decide) (by decide) (by decide)
    ⟨by decide, by decide, by decide, by decide⟩ 1).1
  cases members with
  | nil => exact absurd rfl hm
  | cons m ms => exact List.mem_cons_self

end Voltha.Cluster
