import Mathlib.Logic.Function.Basic
import Voltha.Lib.Steps
import Voltha.Cluster.Kv

/-!
# Coordinator の leader 選出

`voltha/coordinator.py` の `_leadership_tracking_loop`。instance はどれも同じ loop を回り、
leader の key を lock として取り合う。

1. `put(acquire=session)` で lock を取ろうとする。空いているか、自分の session が持っていれば `True`
2. key を読み返し、`True` で自分の session なら leader、`False` なら leader でないと決める
3. key が変わるまで見張り、変わったら初めに戻る

1 と 2 の間には、他の instance の歩みや session の失効、key の削除が入りうる。
**`True` なのに他の session が書かれていた場合は、何もしない**（`pass`）。
-/

namespace Voltha.Cluster

/-- consul の session の id。 -/
abbrev SessionId := Nat

/-- leader の key の record。`modifyIndex` は書き込みごとに増える。 -/
structure Record where
  session : SessionId
  value : Text
  modifyIndex : Nat
deriving DecidableEq, Repr

/-- loop のどこで待っているか。 -/
inductive Phase where
  | scheduled
  | acquired (result : Bool)
  | watching (last : Record)
deriving DecidableEq, Repr

/-- Coordinator。`leader` は Leader の object を持っていること。 -/
structure Coordinator where
  instanceId : Text
  sessionId : SessionId
  iAmLeader : Bool
  leader : Bool
  leaderId : Option Text
  phase : Phase
deriving DecidableEq, Repr

namespace Coordinator

/-- 起動したばかりの instance。 -/
def initial (instanceId : Text) (sessionId : SessionId) : Coordinator :=
  { instanceId, sessionId, iAmLeader := false, leader := false, leaderId := none
    phase := .scheduled }

/-- `_assert_leadership`。 -/
def assertLeadership (c : Coordinator) : Coordinator :=
  if c.iAmLeader then c
  else { c with iAmLeader := true, leaderId := some c.instanceId, leader := true }

/-- `_assert_nonleadership(leader_id)`。leader だったなら Leader を止めて捨てる。 -/
def assertNonleadership (c : Coordinator) (leaderId : Text) : Coordinator :=
  let c := { c with leaderId := some leaderId }
  if c.iAmLeader then { c with iAmLeader := false, leader := false } else c

/-- 読み返した record で、役を決める。 -/
def decideRole (c : Coordinator) (result : Bool) (record : Record) : Coordinator :=
  if result then
    if record.session = c.sessionId then c.assertLeadership else c
  else c.assertNonleadership record.value

/-- 読み返しの後、見張りに入る。record が無ければ、やり直す。 -/
def readBack (c : Coordinator) (result : Bool) : Option Record → Coordinator
  | some r => { c.decideRole result r with phase := .watching r }
  | none => { c with phase := .scheduled }

/-- 見張りの一回の応答。 -/
def watch (c : Coordinator) (last : Record) (updated : Option Record) : Coordinator :=
  if updated = some last then c else { c with phase := .scheduled }

end Coordinator

/-- 全 instance と leader の key。 -/
structure World (ι : Type) where
  lock : Option Record
  modifyIndex : Nat
  inst : ι → Coordinator

/-- 起こりうること。 -/
inductive Event (ι : Type) where
  | acquire (i : ι)
  | readBack (i : ι)
  | watch (i : ι)
  | expire (session : SessionId)
  | wipe

variable {ι : Type} [DecidableEq ι]

namespace World

def setInst (w : World ι) (i : ι) (c : Coordinator) : World ι :=
  { w with inst := Function.update w.inst i c }

/-- `put(acquire=session)` の結果。 -/
def canAcquire (w : World ι) (session : SessionId) : Bool :=
  match w.lock with
  | none => true
  | some r => r.session = session

/-- 一歩。待っている場所が違えば、何も起こらない。 -/
def step (w : World ι) : Event ι → World ι
  | .acquire i =>
    let c := w.inst i
    if c.phase = .scheduled then
      let result := w.canAcquire c.sessionId
      let w := if result then
          { w with
            lock := some ⟨c.sessionId, c.instanceId, w.modifyIndex⟩
            modifyIndex := w.modifyIndex + 1 }
        else w
      w.setInst i { c with phase := .acquired result }
    else w
  | .readBack i =>
    match (w.inst i).phase with
    | .acquired result => w.setInst i ((w.inst i).readBack result w.lock)
    | _ => w
  | .watch i =>
    match (w.inst i).phase with
    | .watching last => w.setInst i ((w.inst i).watch last w.lock)
    | _ => w
  | .expire session =>
    match w.lock with
    | some r => if r.session = session then { w with lock := none } else w
    | none => w
  | .wipe => { w with lock := none }

/-- 起動したばかりの全 instance。 -/
def initial (ids : ι → Text) (sessions : ι → SessionId) : World ι :=
  { lock := none, modifyIndex := 0, inst := fun i => .initial (ids i) (sessions i) }

end World

/-! ## 見たものの記録 -/

/-- instance `i` が、他の session の record を読み返そうとしている。 -/
def World.readsForeign (w : World ι) (i : ι) : Event ι → Option Record
  | .readBack j =>
    if j = i then
      match (w.inst i).phase, w.lock with
      | .acquired _, some r => if r.session ≠ (w.inst i).sessionId then some r else none
      | _, _ => none
    else none
  | _ => none

/-- instance `i` が lock を取ろうとして、取れる。 -/
def World.acquires (w : World ι) (i : ι) : Event ι → Bool
  | .acquire j =>
    decide (j = i) && decide ((w.inst i).phase = .scheduled) && w.canAcquire (w.inst i).sessionId
  | _ => false

/-- 読み返した他の session の record。lock を取り直したら忘れる。 -/
def World.seenAfter (w : World ι) (seen : ι → Option Record) (e : Event ι) : ι → Option Record :=
  fun i => if w.acquires i e then none else (w.readsForeign i e).orElse fun _ => seen i

/-- 一歩と、その間に各 instance が最後に読み返した他の session の record。 -/
def World.observe (p : World ι × (ι → Option Record)) (e : Event ι) :
    World ι × (ι → Option Record) :=
  (p.1.step e, p.1.seenAfter p.2 e)

/-- leader の役を降り、record の leader を知っている。 -/
def Coordinator.Follows (c : Coordinator) (r : Record) : Prop :=
  c.iAmLeader = false ∧ c.leader = false ∧ c.leaderId = some r.value

instance (c : Coordinator) (r : Record) : Decidable (c.Follows r) :=
  inferInstanceAs (Decidable (_ ∧ _ ∧ _))

/-- 読み返した他の session の record に、どの instance も従っている。 -/
def World.Obeys (w : World ι) (seen : ι → Option Record) : Prop :=
  ∀ i r, seen i = some r → (w.inst i).Follows r

/--
他の session の record を読み返すのは、lock を取り損ねた後か、既にその leader に従っているとき。

`result is True` なのに他の session が書かれていた場合の `pass` を避ける条件である。
-/
def World.LostFirst (w : World ι) (e : Event ι) : Prop :=
  ∀ i r, w.readsForeign i e = some r →
    (w.inst i).phase = .acquired false ∨ (w.inst i).Follows r

/-! ## 一歩で変わるもの -/

variable {w : World ι} {i j : ι} {e : Event ι}

@[simp] theorem World.setInst_inst (w : World ι) (i j : ι) (c : Coordinator) :
    (w.setInst i c).inst j = if j = i then c else w.inst j := by
  unfold World.setInst
  by_cases h : j = i
  · subst h; simp
  · simp [h]

/-- leader であることと、Leader の object を持つことは同じ。 -/
def Coordinator.Matched (c : Coordinator) : Prop := c.leader = c.iAmLeader

theorem Coordinator.Matched.assertLeadership {c : Coordinator} (h : c.Matched) :
    c.assertLeadership.Matched := by
  unfold Coordinator.assertLeadership
  split
  · exact h
  · rfl

theorem Coordinator.Matched.assertNonleadership {c : Coordinator} (h : c.Matched) (l : Text) :
    (c.assertNonleadership l).Matched := by
  unfold Coordinator.assertNonleadership
  dsimp only
  split
  · rfl
  · exact h

/-- 役を降りると、必ず従う。 -/
theorem Coordinator.Matched.follows {c : Coordinator} (h : c.Matched) (r : Record) :
    (c.assertNonleadership r.value).Follows r := by
  unfold Coordinator.assertNonleadership Coordinator.Follows
  dsimp only
  split
  · exact ⟨rfl, rfl, rfl⟩
  · next hl =>
    have hl' : c.iAmLeader = false := by simpa using hl
    exact ⟨hl', h.trans hl', rfl⟩

/-- 待っていない instance の読み返しは、何もしない。 -/
theorem World.readsForeign_of_ne (h : ∀ j, e = .readBack j → j ≠ i) : w.readsForeign i e = none := by
  cases e with
  | readBack j => rw [World.readsForeign, if_neg (h j rfl)]
  | _ => rfl

/-- 一歩の後の instance。役が変わるのは、record を読み返したときだけである。 -/
theorem World.step_inst (w : World ι) (e : Event ι) (i : ι) :
    (w.readsForeign i e = none ∧ ∃ p, (w.step e).inst i = { w.inst i with phase := p }) ∨
      ∃ result r, e = .readBack i ∧ (w.inst i).phase = .acquired result ∧ w.lock = some r ∧
        (w.step e).inst i = { (w.inst i).decideRole result r with phase := .watching r } := by
  have hsame : ∀ {w' : World ι}, w'.inst = w.inst →
      ∃ p, w'.inst i = { w.inst i with phase := p } := fun h => ⟨_, by rw [h]⟩
  cases e with
  | acquire j =>
    refine Or.inl ⟨rfl, ?_⟩
    rw [World.step]
    dsimp only
    split
    · by_cases hj : i = j
      · subst hj
        exact ⟨_, by rw [setInst_inst, if_pos rfl]⟩
      · refine ⟨(w.inst i).phase, ?_⟩
        rw [setInst_inst, if_neg hj]
        split <;> rfl
    · exact hsame rfl
  | readBack j =>
    by_cases hj : i = j
    · subst hj
      rw [World.step, World.readsForeign, if_pos rfl]
      cases hp : (w.inst i).phase with
      | scheduled => exact Or.inl ⟨rfl, hsame rfl⟩
      | watching last => exact Or.inl ⟨rfl, hsame rfl⟩
      | acquired result =>
        dsimp only
        rw [setInst_inst, if_pos rfl]
        cases hl : w.lock with
        | none => exact Or.inl ⟨rfl, .scheduled, rfl⟩
        | some r => exact Or.inr ⟨result, r, rfl, rfl, rfl, rfl⟩
    · refine Or.inl ⟨readsForeign_of_ne fun j' he => ?_, ?_⟩
      · cases he; exact fun he => hj he.symm
      · rw [World.step]
        cases hp : (w.inst j).phase with
        | acquired result => exact ⟨_, by rw [setInst_inst, if_neg hj]⟩
        | _ => exact hsame rfl
  | watch j =>
    refine Or.inl ⟨rfl, ?_⟩
    rw [World.step]
    cases hp : (w.inst j).phase with
    | watching last =>
      dsimp only
      by_cases hj : i = j
      · subst hj
        rw [setInst_inst, if_pos rfl, Coordinator.watch]
        split <;> exact ⟨_, rfl⟩
      · exact ⟨_, by rw [setInst_inst, if_neg hj]⟩
    | _ => exact hsame rfl
  | expire session =>
    refine Or.inl ⟨rfl, ?_⟩
    rw [World.step]
    cases hl : w.lock with
    | none => exact hsame rfl
    | some r =>
      dsimp only
      split <;> exact hsame rfl
  | wipe => exact Or.inl ⟨rfl, hsame rfl⟩

/-- どの instance も、leader であることと Leader を持つことが合っている。 -/
theorem World.step_matched (h : ∀ i, (w.inst i).Matched) (e : Event ι) (i : ι) :
    ((w.step e).inst i).Matched := by
  rcases w.step_inst e i with ⟨-, p, hp⟩ | ⟨result, r, -, -, -, hp⟩
  · rw [hp]; exact h i
  · rw [hp]
    show ((w.inst i).decideRole result r).Matched
    unfold Coordinator.decideRole
    split
    · split
      · exact (h i).assertLeadership
      · exact h i
    · exact (h i).assertNonleadership _

theorem World.readsForeign_readBack {result : Bool} {r : Record}
    (hp : (w.inst i).phase = .acquired result) (hl : w.lock = some r) :
    w.readsForeign i (.readBack i)
      = if r.session ≠ (w.inst i).sessionId then some r else none := by
  rw [World.readsForeign, if_pos rfl, hp, hl]

/-- lock を取り損ねてから読み返せば、従う。取れていれば、読み返しても役は変わらない。 -/
theorem World.step_follows_iff {result : Bool} {r : Record} (hm : (w.inst i).Matched)
    (hp : (w.inst i).phase = .acquired result) (hl : w.lock = some r)
    (hne : r.session ≠ (w.inst i).sessionId) :
    ((w.step (.readBack i)).inst i).Follows r ↔ result = false ∨ (w.inst i).Follows r := by
  have hinst : (w.step (.readBack i)).inst i
      = { (w.inst i).decideRole result r with phase := .watching r } := by
    rw [World.step, hp, hl]
    dsimp only
    rw [setInst_inst, if_pos rfl]
    rfl
  rw [hinst]
  show ((w.inst i).decideRole result r).Follows r ↔ _
  unfold Coordinator.decideRole
  cases result with
  | false => exact ⟨fun _ => Or.inl rfl, fun _ => hm.follows r⟩
  | true =>
    rw [if_pos rfl, if_neg hne]
    simp

theorem Coordinator.sessionId_decideRole (c : Coordinator) (result : Bool) (r : Record) :
    (c.decideRole result r).sessionId = c.sessionId := by
  unfold Coordinator.decideRole
  split
  · split
    · unfold Coordinator.assertLeadership
      split <;> rfl
    · rfl
  · unfold Coordinator.assertNonleadership
    dsimp only
    split <;> rfl

theorem World.step_session (w : World ι) (e : Event ι) (i : ι) :
    ((w.step e).inst i).sessionId = (w.inst i).sessionId := by
  rcases w.step_inst e i with ⟨-, p, hp⟩ | ⟨result, r, -, -, -, hp⟩
  · rw [hp]
  · rw [hp]; exact Coordinator.sessionId_decideRole _ _ _

/-! ## 不変条件 -/

/--
実行の間、保たれること。

session は instance ごとに異なる。lock を自分の session が持っている間は、
他の session の record を（取り直してから）読み返していない。
-/
structure World.Inv (w : World ι) (seen : ι → Option Record) : Prop where
  matched : ∀ i, (w.inst i).Matched
  distinct : ∀ i j, (w.inst i).sessionId = (w.inst j).sessionId → i = j
  holder : ∀ i r, w.lock = some r → r.session = (w.inst i).sessionId → seen i = none

/-- 一歩の後の lock。取れた instance のものになるか、消えるか、そのまま。 -/
theorem World.step_lock (w : World ι) (e : Event ι) :
    (∃ j, w.acquires j e = true ∧
        ∃ r, (w.step e).lock = some r ∧ r.session = (w.inst j).sessionId) ∨
      (w.step e).lock = none ∨ (w.step e).lock = w.lock := by
  cases e with
  | acquire j =>
    rw [World.step]
    by_cases hp : (w.inst j).phase = .scheduled
    · by_cases hc : w.canAcquire (w.inst j).sessionId
      · refine Or.inl ⟨j, by simp [World.acquires, hp, hc], ?_⟩
        simp [hp, hc, World.setInst]
      · exact Or.inr (Or.inr (by simp [hp, hc, World.setInst]))
    · exact Or.inr (Or.inr (by simp [hp]))
  | readBack j =>
    rw [World.step]
    cases (w.inst j).phase <;> exact Or.inr (Or.inr rfl)
  | watch j =>
    rw [World.step]
    cases (w.inst j).phase <;> exact Or.inr (Or.inr rfl)
  | expire session =>
    rw [World.step]
    cases hl : w.lock with
    | none => exact Or.inr (Or.inr hl)
    | some r =>
      dsimp only
      split
      · exact Or.inr (Or.inl rfl)
      · exact Or.inr (Or.inr hl)
  | wipe => exact Or.inr (Or.inl rfl)

theorem World.Inv.step {seen : ι → Option Record} (h : w.Inv seen) (e : Event ι) :
    (w.step e).Inv (w.seenAfter seen e) where
  matched := w.step_matched h.matched e
  distinct i j he := by
    rw [w.step_session, w.step_session] at he
    exact h.distinct i j he
  holder i r hl hs := by
    rw [w.step_session] at hs
    unfold World.seenAfter
    split
    · rfl
    · next hacq =>
      rcases w.step_lock e with ⟨j, hj, r', hl', hs'⟩ | hnone | hsame
      · -- lock を取ったのは `i` である
        rw [hl] at hl'
        cases hl'
        rw [h.distinct i j (hs.symm.trans hs')] at hacq
        exact absurd hj hacq
      · rw [hnone] at hl; cases hl
      · rw [hsame] at hl
        rw [h.holder i r hl hs]
        rcases w.step_inst e i with ⟨hf, -⟩ | ⟨result, r', rfl, hphase, hlock, -⟩
        · rw [hf]; rfl
        · rw [hl] at hlock
          cases hlock
          rw [readsForeign_readBack hphase hl, if_neg (by simpa using hs)]
          rfl

/-- 条件を満たす一歩は、従っていることを保つ。 -/
theorem World.Obeys.step {seen : ι → Option Record} (h : w.Obeys seen) (hinv : w.Inv seen)
    (hlost : w.LostFirst e) : (w.step e).Obeys (w.seenAfter seen e) := by
  intro i r hseen
  unfold World.seenAfter at hseen
  split at hseen
  · cases hseen
  · rcases w.step_inst e i with ⟨hf, p, hp⟩ | ⟨result, r', rfl, hphase, hlock, hp⟩
    · rw [hf] at hseen
      rw [hp]
      exact h i r hseen
    · have hread := readsForeign_readBack hphase hlock
      by_cases hne : r'.session ≠ (w.inst i).sessionId
      · rw [if_pos hne] at hread
        rw [hread] at hseen
        cases hseen
        refine (step_follows_iff (hinv.matched i) hphase hlock hne).mpr ?_
        rcases hlost i r hread with hl | hl
        · rw [hphase] at hl
          exact Or.inl (Phase.acquired.inj hl)
        · exact Or.inr hl
      · -- 自分の session の record を読み返したのなら、他の record はまだ見ていない
        rw [if_neg hne] at hread
        rw [hread] at hseen
        have hnone := hinv.holder i r' hlock (by simpa using hne)
        rw [show seen i = some r from hseen] at hnone
        cases hnone

/-- 従っているなら、その一歩は条件を満たしていた。 -/
theorem World.LostFirst.of_obeys {seen : ι → Option Record} (hinv : w.Inv seen)
    (h : (w.step e).Obeys (w.seenAfter seen e)) : w.LostFirst e := by
  intro i r hread
  rcases w.step_inst e i with ⟨hf, -⟩ | ⟨result, r', rfl, hphase, hlock, -⟩
  · rw [hf] at hread; cases hread
  · have hr := readsForeign_readBack hphase hlock
    by_cases hne : r'.session ≠ (w.inst i).sessionId
    · rw [if_pos hne, hread] at hr
      cases hr
      have hfol : ((w.step (.readBack i)).inst i).Follows r := by
        refine h i r ?_
        unfold World.seenAfter
        rw [hread]
        rfl
      rcases (step_follows_iff (hinv.matched i) hphase hlock hne).mp hfol with he | hf
      · exact Or.inl (by rw [hphase, he])
      · exact Or.inr hf
    · rw [if_neg hne, hread] at hr; cases hr

/--
**他の session の record を読み返した instance が、役を降りて従う条件。**

どの実行でも、読み返した instance が lock を取り直すまで従い続けるのは、
他の session の record を読み返すのがいつも、lock を取り損ねた後
（または既に従っているとき）である場合に限る。
-/
theorem demoted_iff_lost_first (ids : ι → Text) (sessions : ι → SessionId)
    (hs : Function.Injective sessions) (l : List (Event ι)) :
    Steps.Always World.observe (fun p => p.1.Obeys p.2)
        (World.initial ids sessions, fun _ => none) l ↔
      Steps.Each World.observe (fun p e => p.1.LostFirst e)
        (World.initial ids sessions, fun _ => none) l := by
  refine Steps.always_iff_each (A := fun _ => True) (I := fun p => p.1.Inv p.2) ?_
    (fun _ _ => trivial) ?_ ?_
  · intro p e _ hinv hobeys
    exact ⟨⟨.of_obeys hinv, hobeys.step hinv⟩, fun _ => hinv.step e⟩
  · refine ⟨fun i => rfl, fun i j he => hs he, ?_⟩
    intro i r hl
    cases hl
  · intro i r hr
    cases hr

/-- 二つの instance。 -/
private def twoIds : Bool → Text
  | false => ['a']
  | true => ['b']

private def twoSessions : Bool → SessionId := Bool.toNat

theorem demoted_iff_lost_first_two :
    Function.Injective twoSessions ∧
      (Steps.Always World.observe (fun p => p.1.Obeys p.2)
          (World.initial twoIds twoSessions, fun _ => none)
          [.acquire false, .readBack false, .acquire true, .readBack true] ↔
        Steps.Each World.observe (fun p e => p.1.LostFirst e)
          (World.initial twoIds twoSessions, fun _ => none)
          [.acquire false, .readBack false, .acquire true, .readBack true]) :=
  have hs : Function.Injective twoSessions := by decide
  ⟨hs, demoted_iff_lost_first twoIds twoSessions hs _⟩

/-- leader が取り直した直後に key が消され、他の instance が取った実行。 -/
private def confusion : List (Event Bool) :=
  [.acquire false, .readBack false, .wipe, .watch false, .acquire false, .wipe, .acquire true,
    .readBack false]

/--
**取れたと言われた後に他の session を読み返した leader は、leader のままでいる。**

lock を持つのは `b` であるのに、`a` は `i_am_leader` のまま Leader を持ち続ける。
-/
theorem confused_leader_stays_leader :
    ¬ Steps.Always World.observe (fun p => p.1.Obeys p.2)
      (World.initial twoIds twoSessions, fun _ => none) confusion := by
  intro h
  have hseen : (confusion.foldl World.observe
      (World.initial twoIds twoSessions, fun _ => none)).2 false = some ⟨1, ['b'], 2⟩ := by decide
  have hleader : ((confusion.foldl World.observe
      (World.initial twoIds twoSessions, fun _ => none)).1.inst false).iAmLeader = true := by decide
  have hfollows := (h.last false _ hseen).1
  rw [hleader] at hfollows
  cases hfollows

end Voltha.Cluster
