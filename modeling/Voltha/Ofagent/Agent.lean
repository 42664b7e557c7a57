import Mathlib.Data.List.Basic
import Voltha.Lib.Py
import Voltha.Lib.Steps

/-!
# OpenFlow agent の再接続

`ofagent/agent.py`。agent は controller への接続を一つ保ち、切れたら間を置いて張り直す。

`keep_connected` は二か所で止まる。一つは `d_disconnected`、一つは `asleep` で、その間に reactor が
接続の成功・失敗・切断を知らせ、`stop` がどこにでも割り込む。

* 接続の試みは番号で呼び、それぞれ `connecting` から `closed` へ、または `connected` を経て `closed` へ進む
* 知らせは試みがその段階にあるときだけ来る。来ない知らせは状態を変えない
* `connector.disconnect()` は切断を頼むだけで、その結果は後の知らせとして来る

`stop` が **`keep_connected` の最初の一回より先に** 呼ばれると、`connector` はまだ `None` である。

Python の class `Agent` のうち、ここでは接続を保つ側を書く。connection manager が見る側（datapath の id と
device の id）は `Voltha.Ofagent.Agent` で、二つは field も読む method も重ならない。manager が agent を
止めるところは `Voltha.Ofagent.stop_connection` でつながる。
-/

namespace Voltha.Ofagent.Reconnect

/-- 接続の試みの段階。 -/
inductive Phase where
  | connecting
  | connected
  | closed
deriving DecidableEq, Repr

/-- `connectTCP` の一回。`afterStop` は、`stop` の後に試みられたこと。 -/
structure Attempt where
  address : List Char × Int
  phase : Phase
  afterStop : Bool
deriving DecidableEq, Repr

/-- `keep_connected` の止まっている所。 -/
inductive Loop where
  /-- `callLater(0, keep_connected)` の後。 -/
  | scheduled
  /-- `yield self.d_disconnected`。 -/
  | waiting (d : Nat)
  /-- `yield asleep(self.retry_interval)`。 -/
  | sleeping
  | finished
  /-- 例外で終わった。 -/
  | failed
deriving DecidableEq, Repr

/--
`Agent` と、その reactor から見える部分。

`deferreds` は作られた `d_disconnected` のそれぞれに `callback` が呼ばれた回数、
`raised` は `stop` が例外を投げたことである。
-/
structure Agent where
  controllerEndpoint : List Char
  running : Bool
  connector : Option Nat
  dDisconnected : Option Nat
  connected : Bool
  exiting : Bool
  protoHandler : Option Nat
  loops : List Loop
  attempts : List Attempt
  deferreds : List Nat
  raised : Bool
deriving DecidableEq, Repr

/-- 作られたばかりの agent。 -/
def Agent.init (endpoint : List Char) : Agent where
  controllerEndpoint := endpoint
  running := false
  connector := none
  dDisconnected := none
  connected := false
  exiting := false
  protoHandler := none
  loops := []
  attempts := []
  deferreds := []
  raised := false

/-- `resolve_endpoint(endpoint)`。例外は `none`。`:` が一つでなければ二つに分けて受け取れない。 -/
def resolveEndpoint (endpoint : List Char) : Option (List Char × Int) :=
  match endpoint.splitOn ':' with
  | [host, port] => (Py.int port).map fun n => (host, n)
  | _ => none

namespace Agent

/-- `keep_connected` の loop の一回。次に止まる所まで進む。 -/
def keepConnected (s : Agent) (i : Nat) : Agent :=
  if s.exiting then { s with loops := s.loops.set i .finished }
  else
    match resolveEndpoint s.controllerEndpoint with
    | none => { s with loops := s.loops.set i .failed }
    | some address =>
      { s with
        attempts := s.attempts ++ [⟨address, .connecting, s.exiting⟩]
        connector := some s.attempts.length
        deferreds := s.deferreds ++ [0]
        dDisconnected := some s.deferreds.length
        loops := s.loops.set i (.waiting s.deferreds.length) }

/-- `d.callback(None)`。初めてなら、待っている loop が `asleep` まで進む。 -/
def callback (s : Agent) (d : Nat) : Agent :=
  { s with
    deferreds := s.deferreds.modify d (· + 1)
    loops :=
      if s.deferreds[d]? = some 0 then
        s.loops.map fun l => if l = .waiting d then .sleeping else l
      else s.loops }

/-- `enter_disconnected(event, reason)`。 -/
def enterDisconnected (s : Agent) : Agent :=
  let s := { s with connected := false }
  if s.exiting then s
  else
    match s.dDisconnected with
    | some d => s.callback d
    | none => s

/-- 試み `k` の段階を進める。 -/
def setPhase (s : Agent) (k : Nat) (p : Phase) : Agent :=
  { s with attempts := s.attempts.modify k fun a => { a with phase := p } }

/-- `start()`。 -/
def start (s : Agent) : Agent :=
  if s.running then s else { s with running := true, loops := s.loops ++ [.scheduled] }

/-- `stop()`。`connector` が `None` なら `AttributeError`。 -/
def stop (s : Agent) : Agent :=
  { s with connected := false, exiting := true, raised := s.raised || s.connector.isNone }

end Agent

/-- 呼び出しと reactor からの知らせ。 -/
inductive Event where
  | start
  | stop
  /-- `callLater(0, keep_connected)` の順が来る。 -/
  | keepConnected (i : Nat)
  /-- 間を置き終える。 -/
  | elapsed (i : Nat)
  /-- `protocol()` と `connectionMade`。 -/
  | made (k : Nat)
  /-- `clientConnectionFailed`。 -/
  | failed (k : Nat)
  /-- `connectionLost`。続く `clientConnectionLost` は log だけである。 -/
  | lost (k : Nat)
deriving DecidableEq, Repr

/-- 試み `k` の段階。 -/
def Agent.phase (s : Agent) (k : Nat) : Option Phase := s.attempts[k]?.map Attempt.phase

/-- 一つの出来事。 -/
def step (s : Agent) : Event → Agent
  | .start => s.start
  | .stop => s.stop
  | .keepConnected i => if s.loops[i]? = some .scheduled then s.keepConnected i else s
  | .elapsed i => if s.loops[i]? = some .sleeping then s.keepConnected i else s
  | .made k =>
    if s.phase k = some .connecting then
      { s.setPhase k .connected with protoHandler := some k, connected := true }
    else s
  | .failed k =>
    if s.phase k = some .connecting then (s.setPhase k .closed).enterDisconnected else s
  | .lost k => if s.phase k = some .connected then (s.setPhase k .closed).enterDisconnected else s

/-! ## 保たれるべきこと -/

/-- 接続しているか、接続しようとしている試み。 -/
def Attempt.isOpen (a : Attempt) : Bool := a.phase ≠ .closed

/-- agent の約束。 -/
structure Kept (s : Agent) : Prop where
  stops : s.raised = false
  quiet : ∀ a ∈ s.attempts, a.afterStop = false
  single : (s.attempts.filter Attempt.isOpen).length ≤ 1
  once : ∀ n ∈ s.deferreds, n ≤ 1
  /-- 止められるまでは、接続しているか、接続しようとしているか、次の試みを待っている。 -/
  alive : s.running = true → s.exiting = false →
    (∃ a ∈ s.attempts, a.isOpen = true) ∨ ∃ l ∈ s.loops, l = .scheduled ∨ l = .sleeping

/-- もう試みないか、controller の endpoint が読める。 -/
def Agent.Resolvable (s : Agent) : Prop :=
  s.exiting = true ∨ (resolveEndpoint s.controllerEndpoint).isSome = true

/-- 約束が守られる一歩。 -/
def Safe (s : Agent) : Event → Prop
  | .stop => s.connector.isSome = true
  | .keepConnected i => s.loops[i]? = some .scheduled → s.Resolvable
  | .elapsed i => s.loops[i]? = some .sleeping → s.Resolvable
  | _ => True

/-! ## loop の位置 -/

/-- loop の位置ごとの、試みと Deferred の状態。 -/
inductive Inv (s : Agent) : Prop where
  | idle (hrun : s.running = false) (hloop : s.loops = []) (hattempts : s.attempts = [])
      (hdeferreds : s.deferreds = [])
  | scheduled (hrun : s.running = true) (hloop : s.loops = [.scheduled])
      (hclosed : ∀ a ∈ s.attempts, a.isOpen = false)
  /-- 最後の試みだけが開いていて、その Deferred はまだ呼ばれていない。 -/
  | waiting (past : List Attempt) (a : Attempt) (fired : List Nat) (hrun : s.running = true)
      (hloop : s.loops = [.waiting fired.length]) (hattempts : s.attempts = past ++ [a])
      (hclosed : ∀ x ∈ past, x.isOpen = false) (hopen : s.exiting = false → a.isOpen = true)
      (hdeferreds : s.deferreds = fired ++ [0]) (hd : s.dDisconnected = some fired.length)
  | sleeping (hrun : s.running = true) (hloop : s.loops = [.sleeping])
      (hclosed : ∀ a ∈ s.attempts, a.isOpen = false)
  | finished (hrun : s.running = true) (hloop : s.loops = [.finished]) (hexit : s.exiting = true)
      (hclosed : ∀ a ∈ s.attempts, a.isOpen = false)

variable {s : Agent}

theorem filter_isOpen_eq_nil {l : List Attempt} (h : ∀ a ∈ l, a.isOpen = false) :
    l.filter Attempt.isOpen = [] := by
  simpa using h

/-- loop の一回は、endpoint が読めれば約束を守る。 -/
theorem keepConnected_kept {l : Loop} (hk : Kept s) (hrun : s.running = true)
    (hloop : s.loops = [l]) (hclosed : ∀ a ∈ s.attempts, a.isOpen = false) :
    (Kept (s.keepConnected 0) ↔ s.Resolvable) ∧ (s.Resolvable → Inv (s.keepConnected 0)) := by
  have hnone := filter_isOpen_eq_nil hclosed
  by_cases hexit : s.exiting = true
  · -- もう試みない
    have heq : s.keepConnected 0 = { s with loops := [.finished] } := by
      simp [Agent.keepConnected, hexit, hloop]
    rw [heq]
    refine ⟨iff_of_true ⟨hk.stops, hk.quiet, hk.single, hk.once, ?_⟩ (Or.inl hexit), fun _ => ?_⟩
    · intro _ hno
      simp [hexit] at hno
    · exact .finished hrun rfl hexit hclosed
  · rw [Bool.not_eq_true] at hexit
    cases haddress : resolveEndpoint s.controllerEndpoint with
    | none =>
      have heq : s.keepConnected 0 = { s with loops := [.failed] } := by
        simp [Agent.keepConnected, hexit, haddress, hloop]
      have hno : ¬s.Resolvable := by simp [Agent.Resolvable, hexit, haddress]
      refine ⟨iff_of_false (fun hk' => ?_) hno, fun h => absurd h hno⟩
      rw [heq] at hk'
      rcases hk'.alive hrun hexit with ⟨a, ha, hopen⟩ | ⟨l, hl, hwait⟩
      · simp [hclosed a ha] at hopen
      · simp only [List.mem_singleton] at hl
        subst hl
        simp at hwait
    | some address =>
      have heq : s.keepConnected 0 = { s with
          attempts := s.attempts ++ [⟨address, .connecting, false⟩]
          connector := some s.attempts.length
          deferreds := s.deferreds ++ [0]
          dDisconnected := some s.deferreds.length
          loops := [.waiting s.deferreds.length] } := by
        simp [Agent.keepConnected, hexit, haddress, hloop]
      have hyes : s.Resolvable := by simp [Agent.Resolvable, haddress]
      rw [heq]
      refine ⟨iff_of_true ⟨hk.stops, ?_, ?_, ?_, ?_⟩ hyes, fun _ => ?_⟩
      · show ∀ a ∈ s.attempts ++ [_], _
        simpa [or_imp, forall_and] using hk.quiet
      · show ((s.attempts ++ [_]).filter Attempt.isOpen).length ≤ 1
        simp [hnone, Attempt.isOpen]
      · show ∀ n ∈ s.deferreds ++ [0], n ≤ 1
        simpa [or_imp, forall_and] using hk.once
      · intro _ _
        exact Or.inl ⟨⟨address, .connecting, false⟩, by simp, by simp [Attempt.isOpen]⟩
      · exact .waiting s.attempts ⟨address, .connecting, false⟩ s.deferreds hrun rfl rfl hclosed
          (fun _ => by simp [Attempt.isOpen]) rfl rfl

theorem modify_last {α : Type} (l : List α) (x : α) (f : α → α) :
    (l ++ [x]).modify l.length f = l ++ [f x] := by
  induction l with
  | nil => rfl
  | cons y l ih => simpa using ih

/-- 閉じていない試みは、`d_disconnected` を待っている間の最後の一つだけである。 -/
theorem Inv.eq_last (h : Inv s) {k : Nat} {p : Phase} (hp : s.phase k = some p)
    (hopen : p ≠ .closed) :
    ∃ past a fired, s.running = true ∧ s.loops = [.waiting fired.length] ∧
      s.attempts = past ++ [a] ∧ (∀ x ∈ past, x.isOpen = false) ∧ s.deferreds = fired ++ [0] ∧
      s.dDisconnected = some fired.length ∧ k = past.length ∧ a.phase = p := by
  obtain ⟨b, hb, rfl⟩ := Option.map_eq_some_iff.mp hp
  have hmem := List.mem_of_getElem? hb
  have hbopen : b.isOpen = true := by simpa [Attempt.isOpen] using hopen
  have hno : ∀ l : List Attempt, (∀ a ∈ l, a.isOpen = false) → b ∉ l := by
    intro l hl hbl
    simp [hl b hbl] at hbopen
  cases h with
  | idle hrun hloop hattempts hdeferreds => simp [hattempts] at hmem
  | scheduled hrun hloop hclosed => exact absurd hmem (hno _ hclosed)
  | sleeping hrun hloop hclosed => exact absurd hmem (hno _ hclosed)
  | finished hrun hloop hexit hclosed => exact absurd hmem (hno _ hclosed)
  | waiting past a fired hrun hloop hattempts hclosed ha hdeferreds hd =>
    rw [hattempts] at hb
    have hk : k = past.length := by
      have hlt := (List.getElem?_eq_some_iff.mp hb).1
      rw [List.length_append, List.length_singleton] at hlt
      by_contra hne
      rw [List.getElem?_append_left (by omega)] at hb
      exact hno past hclosed (List.mem_of_getElem? hb)
    subst hk
    obtain rfl : a = b := by simpa using hb
    exact ⟨past, a, fired, hrun, hloop, hattempts, hclosed, hdeferreds, hd, rfl, rfl⟩

/-- 接続の失敗と切断。 -/
theorem closed_kept (hk : Kept s) (hI : Inv s) {k : Nat} {p : Phase} (hp : s.phase k = some p)
    (hopen : p ≠ .closed) :
    Kept (s.setPhase k .closed).enterDisconnected ∧
      Inv (s.setPhase k .closed).enterDisconnected := by
  obtain ⟨past, a, fired, hrun, hloop, hattempts, hclosed, hdeferreds, hd, rfl, -⟩ :=
    hI.eq_last hp hopen
  have hset : s.setPhase past.length .closed
      = { s with attempts := past ++ [{ a with phase := .closed }] } := by
    simp only [Agent.setPhase, hattempts, modify_last]
  have hall : ∀ x ∈ past ++ [{ a with phase := .closed }], x.isOpen = false := by
    simpa [or_imp, forall_and, Attempt.isOpen] using hclosed
  have hquiet : ∀ x ∈ past ++ [{ a with phase := .closed }], x.afterStop = false := by
    have := hk.quiet
    rw [hattempts] at this
    simpa [or_imp, forall_and] using this
  have hnone := filter_isOpen_eq_nil hall
  by_cases hexit : s.exiting = true
  · -- 止めた後の知らせは、loop を起こさない
    have heq : (s.setPhase past.length .closed).enterDisconnected = { s with
        connected := false, attempts := past ++ [{ a with phase := .closed }] } := by
      simp [hset, Agent.enterDisconnected, hexit]
    rw [heq]
    refine ⟨⟨hk.stops, hquiet, by simp [hnone], hk.once, fun _ hno => ?_⟩, ?_⟩
    · simp [hexit] at hno
    · exact .waiting past _ fired hrun hloop rfl hclosed (fun hno => by simp [hexit] at hno)
        hdeferreds hd
  · rw [Bool.not_eq_true] at hexit
    have heq : (s.setPhase past.length .closed).enterDisconnected = { s with
        connected := false, attempts := past ++ [{ a with phase := .closed }]
        deferreds := fired ++ [1], loops := [.sleeping] } := by
      simp [hset, Agent.enterDisconnected, Agent.callback, hexit, hd, hdeferreds, hloop,
        modify_last]
    rw [heq]
    refine ⟨⟨hk.stops, hquiet, by simp [hnone], ?_, ?_⟩, .sleeping hrun rfl hall⟩
    · have := hk.once
      rw [hdeferreds] at this
      simpa [or_imp, forall_and] using this
    · exact fun _ _ => Or.inr ⟨.sleeping, by simp, Or.inr rfl⟩

/-- 接続の成功。 -/
theorem made_kept (hk : Kept s) (hI : Inv s) {k : Nat} (hp : s.phase k = some .connecting) :
    Kept { s.setPhase k .connected with protoHandler := some k, connected := true } ∧
      Inv { s.setPhase k .connected with protoHandler := some k, connected := true } := by
  obtain ⟨past, a, fired, hrun, hloop, hattempts, hclosed, hdeferreds, hd, rfl, -⟩ :=
    hI.eq_last hp (by decide)
  have hset : (s.setPhase past.length .connected).attempts
      = past ++ [{ a with phase := .connected }] := by
    simp only [Agent.setPhase, hattempts, modify_last]
  have hquiet : ∀ x ∈ past ++ [{ a with phase := .connected }], x.afterStop = false := by
    have := hk.quiet
    rw [hattempts] at this
    simpa [or_imp, forall_and] using this
  have hopen : Attempt.isOpen { a with phase := .connected } = true := by simp [Attempt.isOpen]
  refine ⟨⟨hk.stops, by simpa only [hset] using hquiet, ?_, hk.once, fun _ _ => Or.inl ?_⟩, ?_⟩
  · simp [hset, filter_isOpen_eq_nil hclosed, hopen]
  · exact ⟨_, by simp [hset], hopen⟩
  · exact .waiting past _ fired hrun hloop hset hclosed (fun _ => hopen) hdeferreds hd

theorem start_kept (hk : Kept s) (hI : Inv s) : Kept s.start ∧ Inv s.start := by
  unfold Agent.start
  split
  · exact ⟨hk, hI⟩
  · next hrun =>
    cases hI with
    | idle _ hloop hattempts hdeferreds =>
      refine ⟨⟨hk.stops, hk.quiet, hk.single, hk.once, fun _ _ => Or.inr ?_⟩, ?_⟩
      · exact ⟨.scheduled, by simp, Or.inl rfl⟩
      · exact .scheduled rfl (by simp [hloop]) (by simp [hattempts])
    | scheduled hrun' | waiting _ _ _ hrun' | sleeping hrun' | finished hrun' =>
      exact absurd hrun' hrun

theorem stop_kept (hk : Kept s) (hI : Inv s) :
    (Kept s.stop ↔ s.connector.isSome = true) ∧ Inv s.stop := by
  refine ⟨⟨fun h => ?_, fun h => ⟨?_, hk.quiet, hk.single, hk.once, fun _ hno => ?_⟩⟩, ?_⟩
  · have hno := h.stops
    simp [Agent.stop, hk.stops] at hno
    simpa [Option.isSome_iff_ne_none] using hno
  · simp [Agent.stop, hk.stops, h]
  · simp [Agent.stop] at hno
  · cases hI with
    | idle hrun hloop hattempts hdeferreds => exact .idle hrun hloop hattempts hdeferreds
    | scheduled hrun hloop hclosed => exact .scheduled hrun hloop hclosed
    | waiting past a fired hrun hloop hattempts hclosed ha hdeferreds hd =>
      exact .waiting past a fired hrun hloop hattempts hclosed
        (fun hno => by simp [Agent.stop] at hno) hdeferreds hd
    | sleeping hrun hloop hclosed => exact .sleeping hrun hloop hclosed
    | finished hrun hloop hexit hclosed => exact .finished hrun hloop rfl hclosed

/-- 順が来た loop は一つしか無く、そのとき試みはみな閉じている。 -/
theorem Inv.turn (h : Inv s) {i : Nat} {l : Loop} (hl : s.loops[i]? = some l)
    (hready : l = .scheduled ∨ l = .sleeping) :
    i = 0 ∧ s.running = true ∧ s.loops = [l] ∧ ∀ a ∈ s.attempts, a.isOpen = false := by
  cases h with
  | idle hrun hloop => simp [hloop] at hl
  | scheduled hrun hloop hclosed | sleeping hrun hloop hclosed | finished hrun hloop _ hclosed =>
    rw [hloop, List.getElem?_singleton] at hl
    split at hl
    · next hi => exact ⟨hi, hrun, by rw [hloop, Option.some.inj hl], hclosed⟩
    · cases hl
  | waiting past a fired hrun hloop =>
    rw [hloop, List.getElem?_singleton] at hl
    split at hl
    · cases hl
      simp at hready
    · cases hl

/-- 一つの出来事で約束が守られるのは、`Safe` のときに限る。 -/
theorem step_kept (e : Event) (hk : Kept s) (hI : Inv s) :
    (Kept (step s e) ↔ Safe s e) ∧ (Safe s e → Inv (step s e)) := by
  have hturn : ∀ (i : Nat) (l : Loop), l = .scheduled ∨ l = .sleeping →
      let s' := if s.loops[i]? = some l then s.keepConnected i else s
      (Kept s' ↔ (s.loops[i]? = some l → s.Resolvable)) ∧
        ((s.loops[i]? = some l → s.Resolvable) → Inv s') := by
    intro i l hready
    by_cases hl : s.loops[i]? = some l
    · obtain ⟨rfl, hrun, hloop, hclosed⟩ := hI.turn hl hready
      simpa [hl] using keepConnected_kept hk hrun hloop hclosed
    · simp [hl, hk, hI]
  cases e with
  | start =>
    obtain ⟨hk', hI'⟩ := start_kept hk hI
    exact ⟨iff_of_true hk' trivial, fun _ => hI'⟩
  | stop =>
    obtain ⟨hk', hI'⟩ := stop_kept hk hI
    exact ⟨hk', fun _ => hI'⟩
  | keepConnected i => exact hturn i .scheduled (Or.inl rfl)
  | elapsed i => exact hturn i .sleeping (Or.inr rfl)
  | made k =>
    by_cases hp : s.phase k = some .connecting
    · obtain ⟨hk', hI'⟩ := made_kept hk hI hp
      simpa [step, hp, Safe] using ⟨hk', hI'⟩
    · simp [step, hp, Safe, hk, hI]
  | failed k =>
    by_cases hp : s.phase k = some .connecting
    · simpa [step, hp, Safe] using closed_kept hk hI hp (by decide)
    · simp [step, hp, Safe, hk, hI]
  | lost k =>
    by_cases hp : s.phase k = some .connected
    · simpa [step, hp, Safe] using closed_kept hk hI hp (by decide)
    · simp [step, hp, Safe, hk, hI]

/-! ## 一度試みた後 -/

theorem keepConnected_connector (h : s.connector.isSome = true) (i : Nat) :
    (s.keepConnected i).connector.isSome = true ∧ (s.keepConnected i).raised = s.raised := by
  unfold Agent.keepConnected
  split
  · exact ⟨h, rfl⟩
  · split
    · exact ⟨h, rfl⟩
    · exact ⟨rfl, rfl⟩

theorem enterDisconnected_connector (s : Agent) :
    s.enterDisconnected.connector = s.connector ∧ s.enterDisconnected.raised = s.raised := by
  unfold Agent.enterDisconnected
  dsimp only
  split
  · exact ⟨rfl, rfl⟩
  · split
    · exact ⟨rfl, rfl⟩
    · exact ⟨rfl, rfl⟩

/-- `connector` は一度できれば残り、その間に例外を投げる出来事は無い。 -/
theorem step_connector (h : s.connector.isSome = true) (e : Event) :
    (step s e).connector.isSome = true ∧ (step s e).raised = s.raised := by
  cases e with
  | start =>
    dsimp only [step, Agent.start]
    split
    · exact ⟨h, rfl⟩
    · exact ⟨h, rfl⟩
  | stop =>
    obtain ⟨k, hk⟩ := Option.isSome_iff_exists.mp h
    exact ⟨h, by simp [step, Agent.stop, hk]⟩
  | keepConnected i | elapsed i =>
    dsimp only [step]
    split
    · exact keepConnected_connector h i
    · exact ⟨h, rfl⟩
  | made k =>
    dsimp only [step]
    split
    · exact ⟨h, rfl⟩
    · exact ⟨h, rfl⟩
  | failed k | lost k =>
    dsimp only [step]
    split
    · obtain ⟨hc, hr⟩ := enterDisconnected_connector (s.setPhase k .closed)
      exact ⟨by rw [hc]; exact h, hr⟩
    · exact ⟨h, rfl⟩

/-- 一度試みた後は、何が起きても、`stop` をいつ呼んでも、例外を投げない。 -/
theorem run_connector (h : s.connector.isSome = true) (l : List Event) :
    (l.foldl step s).connector.isSome = true ∧ (l.foldl step s).raised = s.raised := by
  induction l generalizing s with
  | nil => exact ⟨h, rfl⟩
  | cons e l ih =>
    obtain ⟨hc, hr⟩ := step_connector h e
    rw [List.foldl_cons, ← hr]
    exact ih hc

/--
**agent の約束。** どの順の呼び出しと知らせでも約束が守られるのは、`stop` が `keep_connected` の最初の
一回の後にだけ呼ばれ、試みるときに endpoint が読めるときに限る。
-/
theorem always_kept_iff (endpoint : List Char) (l : List Event) :
    Steps.Always step Kept (Agent.init endpoint) l ↔
      Steps.Each step Safe (Agent.init endpoint) l := by
  refine Steps.always_iff_each (A := fun _ => True) (I := Inv) (fun s e _ hI hk => ?_)
    (fun _ _ => trivial) (.idle rfl rfl rfl rfl) ?_
  · exact step_kept e hk hI
  · exact ⟨rfl, by simp [Agent.init], by simp [Agent.init], by simp [Agent.init],
      by simp [Agent.init]⟩

/-- `start` の直後の `stop` は例外を投げる。 -/
theorem stop_before_first_attempt :
    ¬∀ l : List Event, Steps.Always step Kept (Agent.init "localhost:6633".toList) l := by
  intro h
  have hraised := (h [.start, .stop]).last.stops
  simp [step, Agent.start, Agent.stop, Agent.init] at hraised

end Voltha.Ofagent.Reconnect
