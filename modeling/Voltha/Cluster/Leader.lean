import Voltha.Cluster.Kv

/-!
# Leader の歩み

`voltha/leader.py` の Leader。`yield` で待つ度に、他の歩みが入りうる。

* `_track_workload` と `_track_members` は、それぞれ一つの読みを待ち、変化があれば
  soak timer を掛け直す
* soak timer が切れると `_reassign_work` が走る。今の assignment を読み、消すものを消し、
  足すものを足す。**前の実行が終わっているかは確かめない**
* `stop()` は `halted` を立て、まだ切れていない timer を取り消す

twisted の `DelayedCall` は、取り消した後にもう一度 `cancel()` すると `AlreadyCancelled` を送出する。
`kv_get` などは Coordinator の `_retry` を通るので、待つことはあっても例外は出さない。
-/

namespace Voltha.Cluster

/-- Coordinator から借りる prefix と、`HashRing(members).get_node(work)`。 -/
structure LeaderEnv where
  assignmentPrefix : Text
  workloadPrefix : Text
  membershipPrefix : Text
  ring : List Text → Text → Text

/-- `reassignment_soak_timer`。 -/
inductive SoakTimer where
  | unset
  | active
  | called
  | cancelled
deriving DecidableEq, Repr

/-- 読み続ける loop のどこにいるか。`starting` は `start()` がまだ終わっていないこと。 -/
inductive Tracker where
  | starting
  | scheduled
  | reading
  | sleeping
  | done
deriving DecidableEq, Repr

/-- assignment prefix への書き込み。 -/
inductive WriteOp where
  | delete (key : Text)
  | put (key : Text)
deriving DecidableEq, Repr

/--
`_reassign_work` の一つの実行。

`ownerless` は、member が居ないのに work があること。`get_node` は `None` を返し、
消し終えた後の `prefix + None` が例外になる。
-/
inductive Reassign where
  | reading (wanted : Finset (Text × Text)) (ownerless : Bool)
  | writing (op : WriteOp) (rest : List WriteOp) (ownerless : Bool)
deriving DecidableEq

/-- Leader の object。 -/
structure Leader where
  halted : Bool
  workload : List Text
  members : List Text
  timer : SoakTimer
  trackWorkload : Tracker
  trackMembers : Tracker
  runs : List Reassign
deriving DecidableEq

namespace Leader

/-- 作られたばかりの Leader。`start()` は始まっている。 -/
def initial : Leader :=
  { halted := false, workload := [], members := [], timer := .unset
    trackWorkload := .starting, trackMembers := .starting, runs := [] }

/-- `_restart_reassignment_soak_timer`。取り消し済みの timer は取り消せず、例外になる。 -/
def restartReassignmentSoakTimer (l : Leader) : Option Leader :=
  if l.timer = .cancelled then none else some { l with timer := .active }

/-- `finally` の節。 -/
def nextTracker (l : Leader) : Tracker := if l.halted then .done else .scheduled

/-- `_track_workload` の読みが返った。`results` が `None` なら、反復が例外になる。 -/
def workloadRead (env : LeaderEnv) (l : Leader) (results : Option Kv) : Leader :=
  match results with
  | none => { l with trackWorkload := .sleeping }
  | some results =>
    let workload := results.filterMap fun e => idMatch env.workloadPrefix e.key
    if workload ≠ l.workload then
      let l := { l with workload }
      match l.restartReassignmentSoakTimer with
      | some l => { l with trackWorkload := l.nextTracker }
      | none => { l with trackWorkload := .sleeping }
    else { l with trackWorkload := l.nextTracker }

/--
`_track_members` の読みが返った。

例外のときの `asleep(None, 1)` は引数の数が合わず、待たずに `finally` に進む。
-/
def membersRead (env : LeaderEnv) (l : Leader) (results : Option Kv) : Leader :=
  let members := (results.getD []).filterMap fun e => idMatch env.membershipPrefix e.key
  if members ≠ l.members then
    let l := { l with members }
    let l := l.restartReassignmentSoakTimer.getD l
    { l with trackMembers := l.nextTracker }
  else { l with trackMembers := l.nextTracker }

/-- 望ましい assignment。 -/
def wantedAssignments (env : LeaderEnv) (l : Leader) : Finset (Text × Text) :=
  if l.members = [] then ∅ else (l.workload.map fun w => (env.ring l.members w, w)).toFinset

/-- member が居ないのに work がある。 -/
def ownerless (l : Leader) : Bool := l.members = [] ∧ l.workload ≠ []

/-- `stop()`。 -/
def stop (l : Leader) : Leader :=
  { l with
    halted := true
    timer := if l.timer = .active then .cancelled else l.timer }

end Leader

/-- Leader と kv store、Leader が出した書き込み。 -/
structure LeaderWorld where
  leader : Leader
  kv : Kv
  issued : List WriteOp
deriving DecidableEq

/-- 起こりうること。`read` と `complete` の番号は、実行中の `_reassign_work` の位置である。 -/
inductive LeaderEvent where
  | started
  | trackWorkload
  | trackMembers
  | workloadRead (results : Option Kv)
  | membersRead (results : Option Kv)
  | wake
  | fire
  | read (i : Nat) (revoke assign : List (Text × Text))
  | complete (i : Nat)
  | stop
  | external (kv : Kv)
deriving DecidableEq

/-- 書き込みの効果。 -/
def WriteOp.apply (kv : Kv) : WriteOp → Kv
  | .delete key => kvDelete kv key
  | .put key => kvPut kv key []

/-- 消す書き込みをすべて出してから、足す書き込みを出す。 -/
def reassignOps (pre : Text) (revoke assign : List (Text × Text)) : List WriteOp :=
  revoke.map (fun p => .delete (assignmentKey pre p)) ++
    assign.map (fun p => .put (assignmentKey pre p))

namespace LeaderWorld

def initial (kv : Kv) : LeaderWorld := { leader := .initial, kv, issued := [] }

/-- 次の書き込みを出して待つ。残っていなければ、実行は終わる。 -/
def proceed (w : LeaderWorld) (i : Nat) (ops : List WriteOp) (ownerless : Bool) : LeaderWorld :=
  match ops with
  | op :: rest =>
    { w with
      leader := { w.leader with runs := w.leader.runs.set i (.writing op rest ownerless) }
      issued := w.issued ++ [op] }
  | [] =>
    let l := { w.leader with runs := w.leader.runs.eraseIdx i }
    { w with leader := if ownerless then l.restartReassignmentSoakTimer.getD l else l }

/--
一歩。待っている場所が違えば、何も起こらない。

消す順と足す順は `dict` と `set` の反復の順で決まらないので、`read` の引数とする。
書き込みは応答と同時に効果を持つものとする。
-/
def step (env : LeaderEnv) (w : LeaderWorld) : LeaderEvent → LeaderWorld
  | .started =>
    if w.leader.trackWorkload = .starting ∧ w.leader.trackMembers = .starting then
      { w with leader := { w.leader with trackWorkload := .scheduled, trackMembers := .scheduled } }
    else w
  | .trackWorkload =>
    if w.leader.trackWorkload = .scheduled then
      { w with leader := { w.leader with trackWorkload := .reading } }
    else w
  | .trackMembers =>
    if w.leader.trackMembers = .scheduled then
      { w with leader := { w.leader with trackMembers := .reading } }
    else w
  | .workloadRead results =>
    if w.leader.trackWorkload = .reading then
      { w with leader := w.leader.workloadRead env results }
    else w
  | .membersRead results =>
    if w.leader.trackMembers = .reading then
      { w with leader := w.leader.membersRead env results }
    else w
  | .wake =>
    if w.leader.trackWorkload = .sleeping then
      { w with leader := { w.leader with trackWorkload := w.leader.nextTracker } }
    else w
  | .fire =>
    if w.leader.timer = .active then
      { w with
        leader :=
          { w.leader with
            timer := .called
            runs := w.leader.runs ++
              [.reading (w.leader.wantedAssignments env) w.leader.ownerless] } }
    else w
  | .read i revoke assign =>
    match w.leader.runs[i]? with
    | some (.reading wanted ownerless) =>
      let current := assignments env.assignmentPrefix w.kv
      if revoke.Nodup ∧ revoke.toFinset = current \ wanted ∧
          assign.Nodup ∧ assign.toFinset = wanted \ current then
        w.proceed i (reassignOps env.assignmentPrefix revoke assign) ownerless
      else w
    | _ => w
  | .complete i =>
    match w.leader.runs[i]? with
    | some (.writing op rest ownerless) =>
      { w with kv := op.apply w.kv }.proceed i rest ownerless
    | _ => w
  | .stop => { w with leader := w.leader.stop }
  | .external kv => { w with kv }

/-- 出来事の列を進める。 -/
def run (env : LeaderEnv) (w : LeaderWorld) (l : List LeaderEvent) : LeaderWorld :=
  l.foldl (step env) w

end LeaderWorld

/-! ## 読みと掛け直しでできること -/

/-- 掛け直した後の timer。取り消し済みなら、取り消されたまま。 -/
def SoakTimer.rearm (t : SoakTimer) : SoakTimer := if t = .cancelled then .cancelled else .active

namespace Leader

variable (env : LeaderEnv) (l : Leader)

theorem restart_getD :
    l.restartReassignmentSoakTimer.getD l = { l with timer := l.timer.rearm } := by
  unfold restartReassignmentSoakTimer SoakTimer.rearm
  split
  · next h => cases l; subst h; rfl
  · rfl

/-- workload を読んで変わるのは、workload と timer と自分の loop だけである。 -/
theorem workloadRead_eq (results : Option Kv) :
    ∃ workload timer tracker,
      l.workloadRead env results
        = { l with workload, timer, trackWorkload := tracker } ∧
      tracker ≠ .starting ∧
      (workload = l.workload ∧ timer = l.timer ∨ timer = l.timer.rearm) ∧
      (workload = l.workload ∨
        ∃ es : Kv, workload = es.filterMap fun e => idMatch env.workloadPrefix e.key) := by
  have hnext : l.nextTracker ≠ .starting := by unfold nextTracker; split <;> decide
  unfold workloadRead
  cases results with
  | none => exact ⟨_, _, _, rfl, by decide, Or.inl ⟨rfl, rfl⟩, Or.inl rfl⟩
  | some results =>
    dsimp only
    split
    · unfold restartReassignmentSoakTimer
      dsimp only
      by_cases ht : l.timer = .cancelled
      · refine ⟨_, l.timer.rearm, .sleeping, ?_, by decide, Or.inr rfl, Or.inr ⟨results, rfl⟩⟩
        rw [if_pos ht, SoakTimer.rearm, if_pos ht, ht]
      · refine ⟨_, l.timer.rearm, l.nextTracker, ?_, hnext, Or.inr rfl, Or.inr ⟨results, rfl⟩⟩
        rw [if_neg ht, SoakTimer.rearm, if_neg ht]
        rfl
    · exact ⟨_, _, _, rfl, hnext, Or.inl ⟨rfl, rfl⟩, Or.inl rfl⟩

/-- member を読むと、変わったときだけ timer を掛け直す。 -/
theorem membersRead_eq (results : Option Kv) :
    l.membersRead env results
      = { l with
          members := (results.getD []).filterMap fun e => idMatch env.membershipPrefix e.key
          timer :=
            if ((results.getD []).filterMap fun e => idMatch env.membershipPrefix e.key) ≠ l.members
              then l.timer.rearm else l.timer
          trackMembers := l.nextTracker } := by
  unfold membersRead
  dsimp only
  split
  · rw [restart_getD]
    rfl
  · next h =>
    rw [not_not] at h
    rw [h]

end Leader

end Voltha.Cluster
