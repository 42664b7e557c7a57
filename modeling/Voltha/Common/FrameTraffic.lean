import Voltha.Common.SelectLoop

/-!
# 読まれる frame と読まれない frame

* `frames_accounted` — socket から読まれた frame は、filter を通ればちょうど一度、届いた順に callback に
  渡るか渡るのを待ち、通らなければ数えて捨てられる。二つの thread がどう混ざってもよい
* `overtaken_starves` — 一覧が作られてから旗が下ろされるまでに加わった interface の frame は、次の変更まで
  一つも読まれない
-/

namespace Voltha.Common.FrameIo

variable {Frame : Type} {room : Nat} {d : Traffic Frame} {p : PortId}
variable {arrived : List (Arrival Frame)}

/-! ## 一つの port から見たもの -/

/-- port `p` の frame。 -/
def framesOf (p : PortId) (l : List (PortId × Frame)) : List Frame :=
  (l.filter fun c => c.1 = p).map Prod.snd

theorem framesOf_append (p : PortId) (l l' : List (PortId × Frame)) :
    framesOf p (l ++ l') = framesOf p l ++ framesOf p l' := by
  simp only [framesOf, List.filter_append, List.map_append]

theorem framesOf_single (p q : PortId) (frame : Frame) :
    framesOf p [(q, frame)] = if q = p then [frame] else [] := by
  unfold framesOf
  by_cases h : q = p <;> simp [h]

/-- 一つの port。`frames` は、callback に渡った frame と、渡るのを待つ frame である。 -/
structure View (Frame : Type) where
  port : Port Frame
  inbox : List (Arrival Frame)
  frames : List Frame

def Traffic.view (d : Traffic Frame) (p : PortId) : View Frame :=
  ⟨d.port p, d.inbox p, framesOf p (d.dispatched ++ d.calls)⟩

namespace View

variable (v : View Frame)

/-- 読んだ frame を渡すか捨てる。 -/
def received (frame : Frame) : View Frame :=
  let port := { v.port with received := v.port.received + 1 }
  match v.port.passes frame with
  | some true => { v with port := port, frames := v.frames ++ [frame] }
  | some false => { v with port := { port with discarded := port.discarded + 1 } }
  | none => { v with port := port }

/-- 次の一つを読む。 -/
def recv : View Frame :=
  match v.inbox with
  | [] => v
  | .frame frame :: rest => { v with inbox := rest }.received frame
  | _ :: rest => { v with inbox := rest }

theorem received_spec (frame : Frame) :
    (v.received frame).inbox = v.inbox ∧
      (v.received frame).port.passes = v.port.passes ∧
      (v.received frame).frames
        = v.frames ++ [frame].filter (fun f => v.port.passes f = some true) ∧
      (v.received frame).port.received = v.port.received + 1 ∧
      (v.received frame).port.discarded
        = v.port.discarded + [frame].countP fun f => v.port.passes f = some false := by
  unfold received
  cases hp : v.port.passes frame with
  | none => exact ⟨rfl, rfl, by simp [hp], rfl, by simp [hp]⟩
  | some passed =>
    cases passed with
    | true => exact ⟨rfl, rfl, by simp [hp], rfl, by simp [hp]⟩
    | false => exact ⟨rfl, rfl, by simp [hp], rfl, by simp [hp]⟩

end View

namespace Traffic

theorem view_callback : d.callback.view p = d.view p := by
  unfold callback
  split
  · rfl
  · next c rest h => simp [view, h]

theorem view_arrive (q : PortId) (a : Arrival Frame) : (d.arrive q a).view p =
    if q = p ∧ p < d.next then { d.view p with inbox := d.inbox p ++ [a] } else d.view p := by
  unfold arrive
  by_cases hq : q = p
  · subst hq
    split <;> simp [view, *]
  · split <;> simp [view, hq, Function.update_of_ne (Ne.symm hq)]

theorem view_newPort (ifaceName : String) (filter : Option (Frame → Option Bool)) :
    (d.newPort ifaceName filter).view p =
      if p = d.next then { d.view p with port := ⟨ifaceName, filter, 0, 0⟩ } else d.view p := by
  unfold newPort
  by_cases h : p = d.next
  · subst h
    simp [view]
  · simp [view, h]

/-- 読んだ frame は、その port にしか現れない。 -/
theorem view_received (q : PortId) (frame : Frame) : (d.received q frame).1.view p =
    if q = p then (d.view p).received frame else d.view p := by
  by_cases hq : q = p
  · subst hq
    have hpasses : Port.passes { d.port q with received := (d.port q).received + 1 } frame
        = (d.port q).passes frame := rfl
    rw [if_pos rfl]
    unfold received View.received
    simp only [hpasses, view]
    cases (d.port q).passes frame with
    | none => simp
    | some passed => cases passed <;> simp [framesOf_append, framesOf_single]
  · have hpq : p ≠ q := Ne.symm hq
    rw [if_neg hq]
    unfold received
    dsimp only
    split
    · simp [view, framesOf_append, framesOf_single, hq, hpq]
    · simp [view, hpq]
    · simp [view, hpq]

/-- 読むのは、その port の socket からである。 -/
theorem view_recv (q : PortId) :
    (d.recv q).1.view p = if q = p then (d.view p).recv else d.view p := by
  by_cases hq : q = p
  · subst hq
    rw [if_pos rfl]
    unfold recv View.recv
    have hv : (d.view q).inbox = d.inbox q := rfl
    rw [hv]
    cases d.inbox q with
    | nil => rfl
    | cons a rest =>
      cases a with
      | frame frame =>
        dsimp only
        rw [view_received, if_pos rfl]
        simp [view]
      | runtimeError => simp [view]
      | otherError => simp [view]
  · have hpq : p ≠ q := Ne.symm hq
    rw [if_neg hq]
    unfold recv
    split
    · rfl
    · next a rest _ =>
      cases a with
      | frame frame =>
        dsimp only
        rw [view_received, if_neg hq]
        simp [view, hpq]
      | runtimeError => simp [view, hpq]
      | otherError => simp [view, hpq]

theorem recv_next (q : PortId) : (d.recv q).1.next = d.next := by
  unfold recv
  split
  · rfl
  · next a rest _ =>
    cases a with
    | frame frame =>
      dsimp only [received]
      split <;> rfl
    | runtimeError => rfl
    | otherError => rfl

end Traffic

/-! ## 帳尻 -/

/-- 読まれたものが frame なら、その frame。 -/
def Arrival.frame? : Arrival Frame → Option Frame
  | .frame f => some f
  | _ => none

/-- `taken` のうちの frame。 -/
def taken? (taken : List (Arrival Frame)) : List Frame := taken.filterMap Arrival.frame?

/--
port の帳尻が合っている。`arrived` は、socket が開いてから届いたものである。

`taken` までが読まれ、残りは socket にある。読まれた frame のうち filter を通ったものが、順に callback に
渡ったか渡るのを待っている。
-/
def View.Accounted (v : View Frame) (arrived : List (Arrival Frame)) : Prop :=
  ∃ taken, arrived = taken ++ v.inbox ∧
    v.frames = (taken? taken).filter (fun frame => v.port.passes frame = some true) ∧
    v.port.received = (taken? taken).length ∧
    v.port.discarded = (taken? taken).countP fun frame => v.port.passes frame = some false

namespace View.Accounted

variable {v : View Frame} {arrived : List (Arrival Frame)}

theorem fresh (port : Port Frame) (hr : port.received = 0) (hd : port.discarded = 0) :
    View.Accounted ⟨port, [], []⟩ [] := ⟨[], rfl, rfl, hr, hd⟩

theorem arrive (h : v.Accounted arrived) (a : Arrival Frame) :
    View.Accounted { v with inbox := v.inbox ++ [a] } (arrived ++ [a]) := by
  obtain ⟨taken, harr, hrest⟩ := h
  exact ⟨taken, by rw [harr, List.append_assoc], hrest⟩

/-- 一つ読むと、`taken` が一つ伸びる。 -/
theorem recv (h : v.Accounted arrived) : v.recv.Accounted arrived := by
  obtain ⟨taken, harr, hframes, hreceived, hdiscarded⟩ := h
  unfold View.recv
  split
  · exact ⟨taken, harr, hframes, hreceived, hdiscarded⟩
  · next frame rest hin =>
    have harr' : arrived = (taken ++ [.frame frame]) ++ rest := by
      rw [harr, hin, List.append_assoc, List.singleton_append]
    have htaken : taken? (taken ++ [.frame frame]) = taken? taken ++ [frame] := by
      simp [taken?, List.filterMap_append, Arrival.frame?]
    obtain ⟨hinbox, hpasses, hf, hr, hd⟩ :=
      View.received_spec { v with inbox := rest } frame
    refine ⟨taken ++ [.frame frame], by rw [harr', hinbox], ?_⟩
    rw [htaken, hpasses, hf, hr, hd, hframes, hreceived, hdiscarded]
    refine ⟨(List.filter_append _ _).symm, ?_, List.countP_append.symm⟩
    rw [List.length_append, List.length_singleton]
  · next a rest hnot hin =>
    have harr' : arrived = (taken ++ [a]) ++ rest := by
      rw [harr, hin, List.append_assoc, List.singleton_append]
    have htaken : taken? (taken ++ [a]) = taken? taken := by
      cases a with
      | frame frame => exact absurd rfl (hnot frame)
      | runtimeError => simp [taken?, Arrival.frame?]
      | otherError => simp [taken?, Arrival.frame?]
    refine ⟨taken ++ [a], harr', ?_⟩
    rw [htaken]
    exact ⟨hframes, hreceived, hdiscarded⟩

end View.Accounted

/-! ## 列の全体 -/

/-- 一歩で、開いている socket `p` に届くもの。 -/
def Event.arrives (s : Manager Frame) (p : PortId) : Event Frame → List (Arrival Frame)
  | .arrive q a => if q = p ∧ p < s.next then [a] else []
  | _ => []

/-- 列の間に、開いている socket `p` に届くもの。 -/
def arrivals (room : Nat) (p : PortId) : Manager Frame → List (Event Frame) → List (Arrival Frame)
  | _, [] => []
  | s, e :: l => e.arrives s p ++ arrivals room p (s.step room e) l

namespace Manager

variable {s : Manager Frame}

/-- port `p` から見て、loop の一歩は何もしないか、`p` の socket から一つ読む。 -/
theorem threadStep_view :
    s.threadStep.view p = s.view p ∨
      ∃ sockets ready, s.thread = .serve sockets (.port p :: ready) ∧
        s.threadStep.view p = (s.view p).recv := by
  unfold threadStep
  split
  · exact Or.inl rfl
  · exact Or.inl rfl
  · exact Or.inl rfl
  · exact Or.inl rfl
  · exact Or.inl rfl
  · exact Or.inl rfl
  · exact Or.inl rfl
  · next sockets q ready ht =>
    have hview := s.view_recv (p := p) q
    by_cases hq : q = p
    · subst hq
      rw [if_pos rfl] at hview
      exact Or.inr ⟨sockets, ready, ht, hview⟩
    · rw [if_neg hq] at hview
      exact Or.inl hview
  · exact Or.inl rfl
  · exact Or.inl rfl
  · exact Or.inl rfl

theorem mainStep_view : (s.mainStep room).view p = s.view p := by
  have hnotify : (s.notify room).toTraffic = s.toTraffic := by
    unfold notify
    split <;> rfl
  unfold mainStep
  split
  · rfl
  · rfl
  · rfl
  · rw [hnotify]
  · rw [hnotify]
  · split <;> rfl

variable (room p) in
/-- port `p` から見た一歩。作られるか、一つ届くか、一つ読まれるか、何も起こらない。 -/
theorem step_view (e : Event Frame) :
    (s.step room e).view p = { s.view p with inbox := s.inbox p ++ e.arrives s p } ∨
      (e.arrives s p = [] ∧ (s.step room e).view p = (s.view p).recv) ∨
      (e.arrives s p = [] ∧ p = s.next ∧ ∃ ifaceName filter,
        (s.step room e).view p = { s.view p with port := ⟨ifaceName, filter, 0, 0⟩ }) := by
  have hstay : ∀ s' : Manager Frame, s'.view p = s.view p →
      s'.view p = { s.view p with inbox := s.inbox p ++ [] } := by
    intro s' h
    rw [h, List.append_nil]
    rfl
  cases e with
  | addInterface ifaceName filter =>
    simp only [step, addInterface]
    split
    · split
      · exact Or.inl (hstay _ rfl)
      · by_cases hp : p = s.next
        · refine Or.inr (Or.inr ⟨rfl, hp, ifaceName, filter, ?_⟩)
          exact Traffic.view_newPort .. |>.trans (if_pos hp)
        · exact Or.inl (hstay _ (Traffic.view_newPort .. |>.trans (if_neg hp)))
    · exact Or.inl (hstay _ rfl)
  | delInterface ifaceName =>
    refine Or.inl (hstay _ ?_)
    simp only [step, delInterface]
    split
    · split <;> rfl
    · rfl
  | stop =>
    refine Or.inl (hstay _ ?_)
    simp only [step, stop]
    split <;> rfl
  | main => exact Or.inl (hstay _ mainStep_view)
  | callback =>
    refine Or.inl (hstay _ ?_)
    simp only [step]
    split
    · exact Traffic.view_callback
    · rfl
  | thread =>
    rcases s.threadStep_view (p := p) with h | ⟨_, _, _, h⟩
    · exact Or.inl (hstay _ h)
    · exact Or.inr (Or.inl ⟨rfl, h⟩)
  | selectError =>
    refine Or.inl (hstay _ ?_)
    simp only [step, selectError]
    split <;> rfl
  | arrive q a =>
    refine Or.inl ?_
    have hview := s.view_arrive (p := p) q a
    by_cases hq : q = p ∧ p < s.next
    · simp only [Event.arrives, if_pos hq]
      exact hview.trans (if_pos hq)
    · simp only [Event.arrives, if_neg hq]
      exact hstay _ (hview.trans (if_neg hq))

theorem next_le_step (e : Event Frame) : s.next ≤ (s.step room e).next := by
  cases e with
  | addInterface ifaceName filter =>
    simp only [step, addInterface]
    split
    · split
      · exact Nat.le_refl _
      · exact Nat.le_succ _
    · exact Nat.le_refl _
  | delInterface ifaceName =>
    simp only [step, delInterface]
    split
    · split <;> exact Nat.le_refl _
    · exact Nat.le_refl _
  | stop =>
    simp only [step, stop]
    split <;> exact Nat.le_refl _
  | main =>
    have hnotify : (s.notify room).next = s.next := by
      unfold notify
      split <;> rfl
    simp only [step, mainStep]
    split
    · exact Nat.le_refl _
    · exact Nat.le_refl _
    · exact Nat.le_refl _
    · exact Nat.le_of_eq hnotify.symm
    · exact Nat.le_of_eq hnotify.symm
    · split <;> exact Nat.le_refl _
  | callback =>
    simp only [step, Traffic.callback]
    split
    · split <;> exact Nat.le_refl _
    · exact Nat.le_refl _
  | thread =>
    simp only [step, threadStep]
    split
    case h_8 => exact Nat.le_of_eq (Traffic.recv_next _).symm
    all_goals exact Nat.le_refl _
  | selectError =>
    simp only [step, selectError]
    split <;> exact Nat.le_refl _
  | arrive q a =>
    simp only [step, Traffic.arrive]
    split <;> exact Nat.le_refl _

/-- 帳尻が合っていて、まだ作られていない port には何も届いていない。 -/
structure Sound (s : Manager Frame) (p : PortId) (arrived : List (Arrival Frame)) : Prop where
  accounted : (s.view p).Accounted arrived
  unopened : s.next ≤ p → arrived = []

theorem initial_sound (p : PortId) : (initial : Manager Frame).Sound p [] :=
  ⟨.fresh _ rfl rfl, fun _ => rfl⟩

/-- `Sound` は一歩で保たれる。 -/
theorem Sound.step {arrived : List (Arrival Frame)} (h : s.Sound p arrived) (e : Event Frame) :
    (s.step room e).Sound p (arrived ++ e.arrives s p) := by
  have hunopened : (s.step room e).next ≤ p → arrived ++ e.arrives s p = [] := by
    intro hp
    have hp' : s.next ≤ p := Nat.le_trans (s.next_le_step e) hp
    rw [h.unopened hp', List.nil_append]
    cases e with
    | arrive q a => exact if_neg fun hq => absurd hp' (Nat.not_le_of_lt hq.2)
    | _ => rfl
  refine ⟨?_, hunopened⟩
  rcases s.step_view room p e with hv | ⟨ha, hv⟩ | ⟨ha, hp, ifaceName, filter, hv⟩
  · rw [hv]
    obtain ⟨taken, harr, hrest⟩ := h.accounted
    exact ⟨taken, by rw [harr, List.append_assoc]; rfl, hrest⟩
  · rw [hv, ha, List.append_nil]
    exact h.accounted.recv
  · -- 作られたばかりの port では、何も届いていないので何も読まれていない
    rw [hv, ha, List.append_nil]
    have harrived : arrived = [] := h.unopened (Nat.le_of_eq hp.symm)
    obtain ⟨taken, harr, hframes, -⟩ := h.accounted
    rw [harrived] at harr
    obtain ⟨htaken, hinbox⟩ := List.append_eq_nil_iff.mp harr.symm
    rw [htaken] at hframes
    exact ⟨[], by rw [harrived]; exact hinbox.symm, hframes, rfl, rfl⟩

theorem Sound.run : ∀ (l : List (Event Frame)) {s : Manager Frame}
    {arrived : List (Arrival Frame)}, s.Sound p arrived →
    (l.foldl (Manager.step room) s).Sound p (arrived ++ arrivals room p s l)
  | [], _, _, h => by rw [arrivals, List.append_nil]; exact h
  | e :: l, s, arrived, h => by
    rw [arrivals, ← List.append_assoc]
    exact Sound.run l (h.step e)

end Manager

/--
どの port についても、いつも帳尻が合っている。

開いている socket に届いたもののうち、`taken` までが読まれ、その後が残っている。読まれた frame のうち filter を
通ったものが、届いた順に、一度ずつ callback に渡ったか渡るのを待っている。`received` と `discarded` は、
読まれた数と filter に落とされた数である。
-/
theorem frames_accounted (room : Nat) (l : List (Event Frame)) (p : PortId) :
    let s := l.foldl (Manager.step room) Manager.initial
    ∃ taken, arrivals room p Manager.initial l = taken ++ s.inbox p ∧
      framesOf p (s.dispatched ++ s.calls) =
        (taken? taken).filter (fun frame => (s.port p).passes frame = some true) ∧
      (s.port p).received = (taken? taken).length ∧
      (s.port p).discarded = (taken? taken).countP fun frame => (s.port p).passes frame = some false :=
  (Manager.Sound.run l (Manager.initial_sound p)).accounted

/-! ## 失われた変更 -/

/-- interface の変更も、`stop` も、`select` の例外も無い一歩。 -/
def Event.isQuiet : Event Frame → Bool
  | .addInterface .. | .delInterface .. | .stop | .selectError => false
  | _ => true

/-- loop が `sockets` を見続ける。 -/
structure Control.Stuck (c : Control) (sockets : List PortId) : Prop where
  unflagged : c.portsChanged = false
  running : c.stopped = false
  noFlag : c.main ≠ .flag
  watching : c.thread = .dead ∨ c.thread.watching = some sockets
  served : ∀ ready, c.thread = .serve sockets ready → ∀ p, .port p ∈ ready → p ∈ sockets

namespace Control.Stuck

variable {c c' : Control} {sockets : List PortId}

/-- 終わっていなければ、loop のいる所の一覧は `sockets` である。 -/
theorem sockets_eq (h : c.Stuck sockets) {thread : Loop} (ht : c.thread = thread)
    {sockets' : List PortId} (hw : thread.watching = some sockets') : sockets' = sockets := by
  rcases h.watching with hd | hs
  · rw [hd] at ht
    rw [← ht] at hw
    cases hw
  · rw [ht, hw] at hs
    exact Option.some.inj hs

theorem of_idle (h : c.Stuck sockets) {thread : Loop} (pipe : Nat)
    (hw : thread.watching = some sockets) (hserve : ∀ ready, thread ≠ .serve sockets ready) :
    Stuck { c with pipe := pipe, thread := thread } sockets :=
  ⟨h.unflagged, h.running, h.noFlag, Or.inr hw, fun ready ht => absurd ht (hserve ready)⟩

theorem of_serve (h : c.Stuck sockets) (pipe : Nat) {ready : List Ready}
    (hmem : ∀ p, .port p ∈ ready → p ∈ sockets) :
    Stuck { c with pipe := pipe, thread := .serve sockets ready } sockets :=
  ⟨h.unflagged, h.running, h.noFlag, Or.inr rfl, fun _ ht => by cases ht; exact hmem⟩

/-- loop の一歩は `Stuck` を保つ。 -/
theorem move (h : c.Stuck sockets) (hmove : Moves c true c') : c'.Stuck sockets := by
  have hgone : ∀ {thread : Loop}, c.thread = thread → thread.watching = none →
      thread ≠ .dead → False := by
    intro thread ht hw hd
    rcases h.watching with hdead | hs
    · exact hd (ht ▸ hdead)
    · rw [ht, hw] at hs
      cases hs
  cases hmove with
  | stayEnded => exact h
  | exit ht => exact (hgone ht rfl (by simp)).elim
  | again ht => exact (hgone ht rfl (by simp)).elim
  | snapshot ht => exact (hgone ht rfl (by simp)).elim
  | reset _ ht => exact (hgone ht rfl (by simp)).elim
  | leave _ _ hs => exact absurd (h.running.symm.trans hs) Bool.false_ne_true
  | wait sockets' ht =>
    cases h.sockets_eq ht rfl
    exact h.of_idle _ rfl (by simp)
  | woken sockets' ready ht _ hmem =>
    cases h.sockets_eq ht rfl
    exact h.of_serve _ hmem
  | drain sockets' ready ht =>
    cases h.sockets_eq ht rfl
    exact h.of_serve _ fun p hp => h.served _ ht p (List.mem_cons_of_mem _ hp)
  | read sockets' q ready ht =>
    cases h.sockets_eq ht rfl
    exact h.of_serve _ fun p hp => h.served _ ht p (List.mem_cons_of_mem _ hp)
  | fail => exact ⟨h.unflagged, h.running, h.noFlag, Or.inl rfl, fun _ ht => by cases ht⟩
  | served sockets' ht =>
    cases h.sockets_eq ht rfl
    exact h.of_idle _ rfl (by simp)
  | rebuild _ _ hc => exact absurd (h.unflagged.symm.trans hc) Bool.false_ne_true
  | keep sockets' ht =>
    cases h.sockets_eq ht rfl
    exact h.of_idle _ rfl (by simp)

end Control.Stuck

namespace Manager

variable {s : Manager Frame} {sockets : List PortId}

theorem stuck_mainStep (h : s.Stuck sockets) : (s.mainStep room).Stuck sockets := by
  have hnotify : (s.notify room).portsChanged = s.portsChanged ∧
      (s.notify room).stopped = s.stopped ∧ (s.notify room).thread = s.thread := by
    unfold notify
    split <;> exact ⟨rfl, rfl, rfl⟩
  obtain ⟨hc, hs, ht⟩ := hnotify
  unfold mainStep
  split
  · exact h
  · exact h
  · next hm => exact absurd hm h.noFlag
  · exact ⟨hc.trans h.unflagged, hs.trans h.running, by simp, ht ▸ h.watching, ht ▸ h.served⟩
  · refine ⟨hc.trans h.unflagged, hs.trans h.running, ?_, ht ▸ h.watching, ht ▸ h.served⟩
    dsimp only
    split <;> simp
  · split
    · exact ⟨h.unflagged, h.running, by simp, h.watching, h.served⟩
    · exact h

/-- 静かな一歩は `Stuck` を保つ。 -/
theorem stuck_step (h : s.Stuck sockets) {e : Event Frame} (he : e.isQuiet = true) :
    (s.step room e).Stuck sockets := by
  cases e with
  | main => exact stuck_mainStep h
  | callback =>
    simp only [step]
    split <;> exact h
  | thread => exact h.move threadStep_moves
  | arrive p a => exact h
  | addInterface | delInterface | stop | selectError => cases he

/-- 見られていない port には、届くだけである。 -/
theorem stuck_view (h : s.Stuck sockets) (hp : p ∉ sockets) {e : Event Frame}
    (he : e.isQuiet = true) :
    (s.step room e).view p = { s.view p with inbox := s.inbox p ++ e.arrives s p } := by
  have hstay : s.view p = { s.view p with inbox := s.inbox p ++ [] } := by
    rw [List.append_nil]
    rfl
  cases e with
  | main => exact mainStep_view.trans hstay
  | callback =>
    refine Eq.trans ?_ hstay
    simp only [step]
    split
    · exact Traffic.view_callback
    · rfl
  | thread =>
    refine Eq.trans ?_ hstay
    rcases s.threadStep_view (p := p) with hv | ⟨sockets', ready, ht, _⟩
    · exact hv
    · cases h.sockets_eq ht rfl
      exact absurd (h.served _ ht p List.mem_cons_self) hp
  | arrive q a =>
    have hview := s.view_arrive (p := p) q a
    by_cases hq : q = p ∧ p < s.next
    · simp only [Event.arrives, if_pos hq]
      exact hview.trans (if_pos hq)
    · simp only [Event.arrives, if_neg hq]
      exact (hview.trans (if_neg hq)).trans hstay
  | addInterface | delInterface | stop | selectError => cases he

theorem stuck_run (hp : p ∉ sockets) : ∀ (l : List (Event Frame)) {s : Manager Frame},
    s.Stuck sockets → (∀ e ∈ l, e.isQuiet = true) →
    (l.foldl (step room) s).Stuck sockets ∧
      (l.foldl (step room) s).view p
        = { s.view p with inbox := s.inbox p ++ arrivals room p s l }
  | [], s, h, _ => ⟨h, by rw [arrivals, List.append_nil]; rfl⟩
  | e :: l, s, h, hl => by
    have he := hl e List.mem_cons_self
    have hnext : (s.step room e).Stuck sockets := stuck_step h he
    have hone : (s.step room e).view p
        = { s.view p with inbox := s.inbox p ++ e.arrives s p } := stuck_view h hp he
    obtain ⟨hstuck, hview⟩ := stuck_run hp l hnext fun e' he' => hl e' (List.mem_cons_of_mem _ he')
    refine ⟨hstuck, hview.trans ?_⟩
    have hinbox : (s.step room e).inbox p = s.inbox p ++ e.arrives s p :=
      congrArg View.inbox hone
    rw [hone, hinbox, arrivals, List.append_assoc]

end Manager

/--
一覧が作られてから旗が下ろされるまでに割り込んだ変更は失われる。

loop は、次の変更か `stop` か `select` の例外まで、古い一覧を見続ける。一覧に無い port に届いた frame は
読まれず、callback にも渡らない。
-/
theorem overtaken_starves {s : Manager Frame} {sockets : List PortId}
    (ht : s.thread = .reset sockets) (hrunning : s.stopped = false) (hflag : s.main ≠ .flag)
    (hp : p ∉ sockets) (l : List (Event Frame)) (hl : ∀ e ∈ l, e.isQuiet = true) :
    let s₀ := s.step room .thread
    let s' := l.foldl (Manager.step room) s₀
    (s'.thread = .dead ∨ s'.thread.watching = some sockets) ∧
      s'.inbox p = s.inbox p ++ arrivals room p s₀ l ∧ s'.port p = s.port p ∧
      framesOf p (s'.dispatched ++ s'.calls) = framesOf p (s.dispatched ++ s.calls) := by
  intro s₀ s'
  have hs₀ : s₀ = { s with portsChanged := false, thread := .inner sockets } := by
    simp only [s₀, Manager.step, Manager.threadStep, ht]
  have hstuck : s₀.Stuck sockets := by
    rw [hs₀]
    exact ⟨rfl, hrunning, hflag, Or.inr rfl, fun _ ht' => by cases ht'⟩
  obtain ⟨hend, hview⟩ : s'.Stuck sockets ∧
      s'.view p = { s₀.view p with inbox := s₀.inbox p ++ arrivals room p s₀ l } :=
    Manager.stuck_run hp l hstuck hl
  have hview₀ : s₀.view p = s.view p := by rw [hs₀]
  rw [hview₀] at hview
  have hinbox₀ : s₀.inbox p = s.inbox p := congrArg View.inbox hview₀
  rw [hinbox₀] at hview
  exact ⟨hend.watching, congrArg View.inbox hview, congrArg View.port hview,
    congrArg View.frames hview⟩

theorem overtaken_starves_eth0 :
    let s := overtaken.foldl (Manager.step 1) (Manager.initial : Manager Nat)
    let s' := [.arrive 0 (.frame 7), .thread, .thread, .thread, .thread].foldl (Manager.step 1)
      (s.step 1 .thread)
    s'.ports = [("eth0", 0)] ∧ s'.thread.watching = some [] ∧ s'.inbox 0 = [.frame 7] := by
  intro s s'
  have h := @overtaken_starves Nat 1 0 s [] rfl rfl (by decide)
    List.not_mem_nil [.arrive 0 (.frame 7), .thread, .thread, .thread, .thread] (by decide)
  exact ⟨rfl, rfl, h.2.1⟩

end Voltha.Common.FrameIo
