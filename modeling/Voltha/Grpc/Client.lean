import Mathlib.Data.List.Basic
import Voltha.Lib.Py
import Voltha.Lib.Steps

/-!
# gRPC client の再接続

`chameleon/grpc_client/grpc_client.py` と `netconf/grpc_client/grpc_client.py`。
どちらも server を見つけ、schema を取り、compile して `connected` になる。失敗したら間を置いて、
`connect` をもう一度予約する。

予約を残さずに `connect` が終わると、client は二度とつながらない。例外を受ける節の log が
`_endpoint` を読むが、

* Chameleon では、consul への問い合わせが例外を投げたときに未束縛である
* Netconf では、どこにも束縛されない

ので、そのとき節の中で新しい例外が起こり、予約が残らない。

consul・schema・compile・呼び出しの成否は、出来事ごとに与える。
-/

namespace Voltha.Grpc

abbrev Text := List Char

/-- 例外の種類。`UNAVAILABLE` の `_Rendezvous`、ほかの `_Rendezvous`、それ以外。 -/
inductive Failure where
  | unavailable
  | rendezvous
  | other
deriving DecidableEq, Repr

/-- consul への問い合わせの結果。 -/
inductive Lookup where
  | found (endpoint : Text)
  | empty
  | raises (f : Failure)
deriving DecidableEq, Repr

/-- 一度の `connect` と呼び出しの成否。成功は `none`。 -/
structure Outcomes where
  lookup : Lookup
  channel : Option Failure
  schema : Option Failure
  compile : Option Failure
  call : Option Failure
deriving DecidableEq, Repr

/-- channel を開き、schema を取り、compile する間の、最初の失敗。 -/
def Outcomes.failure (o : Outcomes) : Option Failure := o.channel <|> o.schema <|> o.compile

/-- `connect` の止まっている所。 -/
inductive Place where
  /-- `callLater(…, self.connect)` の後。 -/
  | scheduled
  /-- consul に service が無いときの `asleep(1.0)`。 -/
  | lookingUp
  /-- `_backoff` の `asleep`。 -/
  | backingOff
deriving DecidableEq, Repr

/-- 動いているか、予約された `connect`。`invoke` から呼ばれていれば、その残りの `retry`。 -/
structure Attempt where
  place : Place
  caller : Option Nat
deriving DecidableEq, Repr

/-- `consul_endpoint` と、server の endpoint。 -/
structure Endpoints where
  consul : Text
  grpc : Text
deriving DecidableEq, Repr

/-- `GrpcClient`。 -/
structure Client where
  endpoints : Endpoints
  shuttingDown : Bool
  connected : Bool
  retries : Nat
  attempts : List Attempt
deriving DecidableEq, Repr

/-- 作られたばかりの client。 -/
def Client.init (e : Endpoints) : Client := ⟨e, false, false, 0, []⟩

/-- `reactor.callLater(…, self.connect)`。 -/
def Client.schedule (s : Client) : Client :=
  { s with attempts := s.attempts ++ [⟨.scheduled, none⟩] }

/-- `start()`。 -/
def Client.start (s : Client) : Client := if s.connected then s else s.schedule

/-- `stop()`。 -/
def Client.stop (s : Client) : Client := { s with shuttingDown := true }

/-! ## `connect` -/

/-- `connect` がどこまで進んだか。 -/
inductive Progress where
  | returned
  | raised
  | suspended (p : Place)
deriving DecidableEq, Repr

/-- `_backoff(msg)`。 -/
def backoff (s : Client) : Client × Progress :=
  ({ s with retries := s.retries + 1 }, .suspended .backingOff)

/-- `connect` の例外の節。`bound` は `_endpoint` が束縛されていること。 -/
def handle (s : Client) (bound : Bool) : Failure → Client × Progress
  | .unavailable | .rendezvous => backoff s
  | .other =>
    -- `if not self.shutting_down: log.exception('cannot-connect', endpoint=_endpoint)`
    if s.shuttingDown = false ∧ bound = false then (s, .raised) else backoff s

/-- つながった後。 -/
def established (s : Client) : Client × Progress :=
  ({ s with retries := 0, connected := true }, .returned)

/-- consul の host と port。例外は `none`。 -/
def consulAddress (endpoint : Text) : Option (Text × Int) :=
  match endpoint.splitOn ':' with
  | host :: port :: _ => (Py.int (Py.strip port)).map fun n => (Py.strip host, n)
  | _ => none

namespace Chameleon

/-- server が見つかった後。 -/
def proceed (s : Client) (o : Outcomes) : Client × Progress :=
  match o.failure with
  | none => established s
  | some f => handle s true f

/-- consul への一度の問い合わせ。 -/
def lookup (s : Client) (o : Outcomes) : Client × Progress :=
  match o.lookup with
  | .found _ => proceed s o
  | .empty => (s, .suspended .lookingUp)
  | .raises f => handle s false f

/-- `connect()`。 -/
def connect (s : Client) (o : Outcomes) : Client × Progress :=
  if s.shuttingDown || s.connected then (s, .returned)
  else if s.endpoints.grpc.head? = some '@' then
    match consulAddress s.endpoints.consul with
    | none => handle s false .other
    | some _ => lookup s o
  else proceed s o

end Chameleon

namespace Netconf

/--
`host, port = ip_port_endpoint.split(':', 2)`。

空なら `None` が返り、分けて受け取れない。例外は `TypeError` か `ValueError` である。
-/
def hostPort (endpoint : Text) : Except Unit (Option (Text × Int)) :=
  match endpoint.splitOn ':' with
  | [host, port] =>
    match Py.int port with
    | some n => .ok (some (host, n))
    | none => .error ()
  | _ => .error ()

/-- `resolve_endpoint(endpoint)`。`(None, None)` は `none`。consul の例外は外へ出ない。 -/
def resolveEndpoint (e : Endpoints) (o : Outcomes) : Except Unit (Option (Text × Int)) :=
  if e.grpc.head? = some '@' then
    match consulAddress e.consul with
    | none => .ok none
    | some _ =>
      match o.lookup with
      | .found endpoint => hostPort endpoint
      | .empty | .raises _ => .ok none
  else hostPort e.grpc

/-- `if host and port`。 -/
def usable : Option (Text × Int) → Bool
  | some (host, port) => host ≠ [] ∧ port ≠ 0
  | none => false

/-- `connect()`。 -/
def connect (s : Client) (o : Outcomes) : Client × Progress :=
  if s.shuttingDown || s.connected then (s, .returned)
  else
    match resolveEndpoint s.endpoints o with
    | .error () => handle s false .other
    | .ok address =>
      if usable address then
        match o.failure with
        | none => established s
        | some f => handle s false f
      else (s.schedule, .returned)

end Netconf

/-- 二つの client。 -/
inductive Kind where
  | chameleon
  | netconf
deriving DecidableEq, Repr

def connect : Kind → Client → Outcomes → Client × Progress
  | .chameleon => Chameleon.connect
  | .netconf => Netconf.connect

/-! ## `invoke` と reactor -/

/-- `connect` の続き。止まれば待ち、戻れば呼び出し側の続き `next` へ進む。 -/
def settle (caller : Option Nat) (next : Client → Client) : Client × Progress → Client
  | (s, .suspended p) => { s with attempts := s.attempts ++ [⟨p, caller⟩] }
  | (s, .raised) => s
  | (s, .returned) => next s

/-- `invoke` の一段。`next` は、つなぎ直した後の呼び直し。 -/
def call (k : Kind) (retry : Nat) (o : Outcomes) (next : Client → Client) (s : Client) : Client :=
  if s.connected = false then s
  else
    match o.call with
    | some .unavailable =>
      settle (some retry) next (connect k { s with connected := false } o)
    | _ => s

/-- `invoke(…, retry)`。`outs` は残りの `retry` ごとの成否。 -/
def invoke (k : Kind) (outs : Nat → Outcomes) : Nat → Client → Client
  | 0 => call k 0 (outs 0) id
  | n + 1 => call k (n + 1) (outs (n + 1)) (invoke k outs n)

/-- `yield self.connect()` が戻った後の `invoke`。 -/
def resume (k : Kind) (outs : Nat → Outcomes) : Option Nat → Client → Client
  | some (n + 1) => invoke k outs n
  | some 0 | none => id

/-- 呼び出しと reactor からの知らせ。 -/
inductive Event where
  | stop
  | invoke (retry : Nat) (outs : Nat → Outcomes)
  /-- `i` 番目の `connect` の timer が切れる。 -/
  | due (i : Nat) (o : Outcomes) (outs : Nat → Outcomes)

/-- 一つの出来事。 -/
def step (k : Kind) (s : Client) : Event → Client
  | .stop => s.stop
  | .invoke retry outs => invoke k outs retry s
  | .due i o outs =>
    match s.attempts[i]? with
    | none => s
    | some a =>
      let s := { s with attempts := s.attempts.eraseIdx i }
      match a.place with
      | .scheduled => settle a.caller (resume k outs a.caller) (connect k s o)
      | .lookingUp => settle a.caller (resume k outs a.caller) (Chameleon.lookup s o)
      | .backingOff => resume k outs a.caller s.schedule

/-! ## 諦めないこと -/

/-- つながっているか、`connect` がただ一つ動いているか予約されているか、止めてある。 -/
def Kept (s : Client) : Prop :=
  s.shuttingDown = true ∨ s.connected = true ∨ s.attempts.length = 1

/-- 節の log が `_endpoint` を読めない失敗。 -/
def GivesUp (k : Kind) (e : Endpoints) (o : Outcomes) : Prop :=
  match k with
  | .chameleon =>
    e.grpc.head? = some '@' ∧ (consulAddress e.consul = none ∨ o.lookup = .raises .other)
  | .netconf =>
    match Netconf.resolveEndpoint e o with
    | .error _ => True
    | .ok address => Netconf.usable address = true ∧ o.failure = some .other

/-- つながる成否。 -/
def Connects (k : Kind) (e : Endpoints) (o : Outcomes) : Prop :=
  o.failure = none ∧
  match k with
  | .chameleon =>
    e.grpc.head? = some '@' → consulAddress e.consul ≠ none ∧ ∃ a, o.lookup = .found a
  | .netconf =>
    match Netconf.resolveEndpoint e o with
    | .error _ => False
    | .ok address => Netconf.usable address = true

/-- `UNAVAILABLE` の後のどの `connect` も諦めない。 -/
def Persists (k : Kind) (e : Endpoints) (outs : Nat → Outcomes) : Nat → Prop
  | 0 => (outs 0).call = some .unavailable → ¬GivesUp k e (outs 0)
  | n + 1 => (outs (n + 1)).call = some .unavailable →
      ¬GivesUp k e (outs (n + 1)) ∧ (Connects k e (outs (n + 1)) → Persists k e outs n)

/-- 呼び直しについて、同様。 -/
def ResumePersists (k : Kind) (e : Endpoints) (outs : Nat → Outcomes) : Option Nat → Prop
  | some (n + 1) => Persists k e outs n
  | some 0 | none => True

/-- 諦めない一歩。 -/
def Safe (k : Kind) (s : Client) : Event → Prop
  | .stop => True
  | .invoke retry outs =>
    s.shuttingDown = false → s.connected = true → Persists k s.endpoints outs retry
  | .due i o outs =>
    s.shuttingDown = false → s.connected = false →
    ∀ a, s.attempts[i]? = some a →
      match a.place with
      | .scheduled => ¬GivesUp k s.endpoints o ∧
          (Connects k s.endpoints o → ResumePersists k s.endpoints outs a.caller)
      | .lookingUp => o.lookup ≠ .raises .other ∧
          (o.failure = none ∧ (∃ e, o.lookup = .found e) →
            ResumePersists k s.endpoints outs a.caller)
      | .backingOff => True

/-! ## 一度の `connect` -/

/-- 一度の `connect` の行き先。諦めるか、つながるか、次の `connect` を一つ残す。 -/
inductive Settles (s : Client) (fatal success : Prop) (r : Client × Progress) : Prop where
  | raised (hfatal : fatal) (hr : r = (s, .raised))
  | connected (hfatal : ¬fatal) (hsuccess : success) (hr : r = established s)
  | suspended (p : Place) (s' : Client) (hfatal : ¬fatal) (hsuccess : ¬success)
      (hr : r = (s', .suspended p)) (hconnected : s'.connected = s.connected)
      (hattempts : s'.attempts = s.attempts)
  | again (hfatal : ¬fatal) (hsuccess : ¬success) (hr : r = (s.schedule, .returned))

variable {s : Client} {o : Outcomes}

theorem Settles.backoff {fatal success : Prop} (hfatal : ¬fatal) (hsuccess : ¬success) :
    Settles s fatal success (backoff s) :=
  .suspended .backingOff _ hfatal hsuccess rfl rfl rfl

/-- 例外の節。諦めるのは、`_endpoint` の無い所で `_Rendezvous` でない例外を受けたときである。 -/
theorem settles_handle {fatal success : Prop} (hshut : s.shuttingDown = false) {bound : Bool}
    {f : Failure} (hfatal : fatal ↔ bound = false ∧ f = .other) (hsuccess : ¬success) :
    Settles s fatal success (handle s bound f) := by
  cases f with
  | unavailable => exact .backoff (by simp [hfatal]) hsuccess
  | rendezvous => exact .backoff (by simp [hfatal]) hsuccess
  | other =>
    cases bound with
    | false => exact .raised (by simp [hfatal]) (by simp [handle, hshut])
    | true =>
      have hr : handle s true .other = Grpc.backoff s := by simp [handle]
      rw [hr]
      exact .backoff (by simp [hfatal]) hsuccess

theorem Chameleon.settles_proceed (hshut : s.shuttingDown = false) {fatal success : Prop}
    (hfatal : ¬fatal) (hsuccess : success ↔ o.failure = none) :
    Settles s fatal success (proceed s o) := by
  unfold proceed
  cases hf : o.failure with
  | none => exact .connected hfatal (hsuccess.mpr hf) rfl
  | some f => exact settles_handle hshut (by simp [hfatal]) (by simp [hsuccess, hf])

theorem Chameleon.settles_lookup (hshut : s.shuttingDown = false) :
    Settles s (o.lookup = .raises .other) (o.failure = none ∧ ∃ e, o.lookup = .found e)
      (lookup s o) := by
  unfold lookup
  cases hl : o.lookup with
  | found e => exact settles_proceed hshut (by simp) (by simp)
  | empty => exact .suspended .lookingUp s (by simp) (by simp) rfl rfl rfl
  | raises f => exact settles_handle hshut (by simp) (by simp)

theorem Chameleon.settles_connect (hshut : s.shuttingDown = false) (hoff : s.connected = false) :
    Settles s (GivesUp .chameleon s.endpoints o) (Connects .chameleon s.endpoints o)
      (connect s o) := by
  simp only [connect, hshut, hoff, Bool.or_false, Bool.false_eq_true, if_false]
  split
  · next hat =>
    cases hc : consulAddress s.endpoints.consul with
    | none => exact settles_handle hshut (by simp [GivesUp, hat, hc]) (by simp [Connects, hat, hc])
    | some a =>
      have hfatal : GivesUp .chameleon s.endpoints o ↔ o.lookup = .raises .other := by
        simp [GivesUp, hat, hc]
      have hsuccess : Connects .chameleon s.endpoints o ↔
          o.failure = none ∧ ∃ e, o.lookup = .found e := by
        simp [Connects, hat, hc]
      rw [hfatal, hsuccess]
      exact settles_lookup hshut
  · next hat => exact settles_proceed hshut (by simp [GivesUp, hat]) (by simp [Connects, hat])

theorem Netconf.settles_connect (hshut : s.shuttingDown = false) (hoff : s.connected = false) :
    Settles s (GivesUp .netconf s.endpoints o) (Connects .netconf s.endpoints o)
      (connect s o) := by
  simp only [connect, hshut, hoff, Bool.or_false, Bool.false_eq_true, if_false]
  cases hr : resolveEndpoint s.endpoints o with
  | error _ => exact settles_handle hshut (by simp [GivesUp, hr]) (by simp [Connects, hr])
  | ok address =>
    cases hu : usable address with
    | false => exact .again (by simp [GivesUp, hr, hu]) (by simp [Connects, hr, hu]) (by simp [hu])
    | true =>
      cases hf : o.failure with
      | none =>
        exact .connected (by simp [GivesUp, hr, hf]) (by simp [Connects, hr, hf, hu])
          (by simp [hu])
      | some f =>
        simp only [hu, if_true]
        exact settles_handle hshut (by simp [GivesUp, hr, hf, hu]) (by simp [Connects, hf])

theorem settles_connect (k : Kind) (hshut : s.shuttingDown = false) (hoff : s.connected = false) :
    Settles s (GivesUp k s.endpoints o) (Connects k s.endpoints o) (connect k s o) := by
  cases k with
  | chameleon => exact Chameleon.settles_connect hshut hoff
  | netconf => exact Netconf.settles_connect hshut hoff

/-! ## 不変条件 -/

/-- つながっている間は `connect` が残っておらず、つながっていない間はただ一つある。 -/
inductive Inv (s : Client) : Prop where
  | shutting (h : s.shuttingDown = true)
  | connected (hshut : s.shuttingDown = false) (hon : s.connected = true)
      (hattempts : s.attempts = [])
  | pending (hshut : s.shuttingDown = false) (hoff : s.connected = false) (a : Attempt)
      (hattempts : s.attempts = [a])

theorem Inv.kept (h : Inv s) : Kept s := by
  cases h with
  | shutting h => exact Or.inl h
  | connected _ hon _ => exact Or.inr (Or.inl hon)
  | pending _ _ a hattempts => exact Or.inr (Or.inr (by simp [hattempts]))

variable {k : Kind} {outs : Nat → Outcomes}

theorem invoke_disconnected (hoff : s.connected = false) (n : Nat) : invoke k outs n s = s := by
  cases n <;> simp [invoke, call, hoff]

theorem resume_disconnected (hoff : s.connected = false) (caller : Option Nat) :
    resume k outs caller s = s := by
  rcases caller with _ | _ | n
  · rfl
  · rfl
  · exact invoke_disconnected hoff n

/-- 残る `connect` の無い所から始めた一度の `connect` は、諦めず、続きも諦めないときに限り約束を守る。 -/
theorem Settles.kept {fatal success nextSafe : Prop} {r : Client × Progress}
    (h : Settles s fatal success r) (hshut : s.shuttingDown = false) (hoff : s.connected = false)
    (hattempts : s.attempts = []) (caller : Option Nat) (next : Client → Client)
    (hnext : ∀ s' : Client, s'.connected = false → next s' = s')
    (hup : (Kept (next (established s).1) ↔ nextSafe) ∧ (nextSafe → Inv (next (established s).1))) :
    (Kept (settle caller next r) ↔ ¬fatal ∧ (success → nextSafe)) ∧
      (¬fatal ∧ (success → nextSafe) → Inv (settle caller next r)) := by
  cases h with
  | raised hfatal hr =>
    subst hr
    refine ⟨iff_of_false ?_ (fun h => h.1 hfatal), fun h => absurd hfatal h.1⟩
    simp [Kept, settle, hshut, hoff, hattempts]
  | connected hfatal hsuccess hr =>
    subst hr
    simpa [settle, established, hfatal, hsuccess] using hup
  | suspended p s' hfatal hsuccess hr hconnected hattempts' =>
    subst hr
    have hinv : Inv (settle caller next (s', .suspended p)) := by
      by_cases hs : s'.shuttingDown = true
      · exact .shutting hs
      · refine .pending (Bool.not_eq_true _ ▸ hs) ?_ ⟨p, caller⟩ ?_
        · exact hconnected.trans hoff
        · simp [settle, hattempts', hattempts]
    simp [hinv, hinv.kept, hfatal, hsuccess]
  | again hfatal hsuccess hr =>
    subst hr
    have hinv : Inv (settle caller next (s.schedule, .returned)) := by
      have heq : settle caller next (s.schedule, .returned) = s.schedule := hnext s.schedule hoff
      rw [heq]
      exact .pending hshut hoff ⟨.scheduled, none⟩ (by simp [Client.schedule, hattempts])
    simp [hinv, hinv.kept, hfatal, hsuccess]

/-- `invoke` の一段。 -/
theorem call_kept (n : Nat) (next : Client → Client) {nextSafe : Prop}
    (hshut : s.shuttingDown = false) (hon : s.connected = true) (hattempts : s.attempts = [])
    (hnext : ∀ s' : Client, s'.connected = false → next s' = s')
    (hup : ∀ s' : Client, s'.shuttingDown = false → s'.connected = true → s'.attempts = [] →
      s'.endpoints = s.endpoints → (Kept (next s') ↔ nextSafe) ∧ (nextSafe → Inv (next s'))) :
    let C := o.call = some .unavailable →
      ¬GivesUp k s.endpoints o ∧ (Connects k s.endpoints o → nextSafe)
    (Kept (call k n o next s) ↔ C) ∧ (C → Inv (call k n o next s)) := by
  by_cases hcall : o.call = some .unavailable
  · have hset := settles_connect (s := { s with connected := false }) (o := o) k hshut rfl
    have hkept := hset.kept hshut rfl hattempts (some n) next hnext
      (hup (established { s with connected := false }).1 hshut rfl hattempts rfl)
    simpa [call, hon, hcall] using hkept
  · have hinv : Inv s := .connected hshut hon hattempts
    have heq : call k n o next s = s := by
      unfold call
      rw [if_neg (by simp [hon])]
      split
      · next h => exact absurd h hcall
      · rfl
    simp [heq, hinv, hinv.kept, hcall]

/-- `invoke` が約束を守るのは、つなぎ直しがどれも諦めないときに限る。 -/
theorem invoke_kept (n : Nat) (hshut : s.shuttingDown = false) (hon : s.connected = true)
    (hattempts : s.attempts = []) :
    (Kept (invoke k outs n s) ↔ Persists k s.endpoints outs n) ∧
      (Persists k s.endpoints outs n → Inv (invoke k outs n s)) := by
  induction n generalizing s with
  | zero =>
    have hup : ∀ s' : Client, s'.shuttingDown = false → s'.connected = true → s'.attempts = [] →
        s'.endpoints = s.endpoints → (Kept (id s') ↔ True) ∧ (True → Inv (id s')) := by
      intro s' hshut' hon' hattempts' _
      have hinv : Inv s' := .connected hshut' hon' hattempts'
      exact ⟨iff_of_true hinv.kept trivial, fun _ => hinv⟩
    simpa [invoke, Persists] using
      call_kept (k := k) (o := outs 0) 0 id hshut hon hattempts (fun _ _ => rfl) hup
  | succ n ih =>
    refine call_kept (n + 1) (invoke k outs n) hshut hon hattempts
      (fun s' hoff => invoke_disconnected hoff n) (fun s' hshut' hon' hattempts' he => ?_)
    rw [← he]
    exact ih hshut' hon' hattempts'

theorem resume_kept (caller : Option Nat) (hshut : s.shuttingDown = false)
    (hon : s.connected = true) (hattempts : s.attempts = []) :
    (Kept (resume k outs caller s) ↔ ResumePersists k s.endpoints outs caller) ∧
      (ResumePersists k s.endpoints outs caller → Inv (resume k outs caller s)) := by
  have hinv : Inv s := .connected hshut hon hattempts
  rcases caller with _ | _ | n
  · exact ⟨iff_of_true hinv.kept trivial, fun _ => hinv⟩
  · exact ⟨iff_of_true hinv.kept trivial, fun _ => hinv⟩
  · exact invoke_kept n hshut hon hattempts

/-! ## 出来事の列 -/

theorem handle_shuttingDown (bound : Bool) (f : Failure) :
    (handle s bound f).1.shuttingDown = s.shuttingDown := by
  cases f with
  | unavailable => rfl
  | rendezvous => rfl
  | other =>
    simp only [handle]
    split <;> rfl

theorem lookup_shuttingDown : (Chameleon.lookup s o).1.shuttingDown = s.shuttingDown := by
  unfold Chameleon.lookup Chameleon.proceed
  split
  · split
    · rfl
    · exact handle_shuttingDown _ _
  · rfl
  · exact handle_shuttingDown _ _

theorem connect_shutting (h : s.shuttingDown = true) : connect k s o = (s, .returned) := by
  cases k <;> simp [connect, Chameleon.connect, Netconf.connect, h]

theorem settle_shuttingDown {r : Client × Progress} (caller : Option Nat) (next : Client → Client)
    (hnext : ∀ s' : Client, s'.shuttingDown = true → (next s').shuttingDown = true)
    (h : r.1.shuttingDown = true) : (settle caller next r).shuttingDown = true := by
  obtain ⟨s', p⟩ := r
  cases p with
  | returned => exact hnext s' h
  | raised => exact h
  | suspended p => exact h

theorem call_shuttingDown (n : Nat) (next : Client → Client)
    (hnext : ∀ s' : Client, s'.shuttingDown = true → (next s').shuttingDown = true)
    (h : s.shuttingDown = true) : (call k n o next s).shuttingDown = true := by
  unfold call
  split
  · exact h
  · split
    · rw [connect_shutting (s := { s with connected := false }) h]
      exact hnext _ h
    · exact h

theorem invoke_shuttingDown (n : Nat) (h : s.shuttingDown = true) :
    (invoke k outs n s).shuttingDown = true := by
  induction n generalizing s with
  | zero => exact call_shuttingDown 0 id (fun _ h => h) h
  | succ n ih => exact call_shuttingDown (n + 1) _ (fun _ h => ih h) h

theorem resume_shuttingDown (caller : Option Nat) (h : s.shuttingDown = true) :
    (resume k outs caller s).shuttingDown = true := by
  rcases caller with _ | _ | n
  · exact h
  · exact h
  · exact invoke_shuttingDown n h

/-- `shutting_down` は戻らない。 -/
theorem step_shuttingDown (e : Event) (h : s.shuttingDown = true) :
    (step k s e).shuttingDown = true := by
  cases e with
  | stop => rfl
  | invoke retry outs => exact invoke_shuttingDown retry h
  | due i o outs =>
    simp only [step]
    split
    · exact h
    · next a _ =>
      have hresume : ∀ s' : Client, s'.shuttingDown = true →
          (resume k outs a.caller s').shuttingDown = true :=
        fun s' h' => resume_shuttingDown a.caller h'
      split
      · refine settle_shuttingDown _ _ hresume ?_
        rw [connect_shutting (s := { s with attempts := s.attempts.eraseIdx i }) h]
        exact h
      · exact settle_shuttingDown _ _ hresume (lookup_shuttingDown.trans h)
      · exact hresume _ h

/-- 残っている `connect` が進む。 -/
theorem due_kept {a : Attempt} (hshut : s.shuttingDown = false) (hoff : s.connected = false)
    (hattempts : s.attempts = [a]) :
    (Kept (step k s (.due 0 o outs)) ↔ Safe k s (.due 0 o outs)) ∧
      (Safe k s (.due 0 o outs) → Inv (step k s (.due 0 o outs))) := by
  have hget : s.attempts[0]? = some a := by simp [hattempts]
  have herase : s.attempts.eraseIdx 0 = [] := by simp [hattempts]
  have hup : (Kept (resume k outs a.caller (established { s with attempts := [] }).1) ↔
      ResumePersists k s.endpoints outs a.caller) ∧ _ :=
    resume_kept a.caller hshut rfl rfl
  have hnext : ∀ s' : Client, s'.connected = false → resume k outs a.caller s' = s' :=
    fun s' hoff' => resume_disconnected hoff' a.caller
  obtain ⟨place, caller⟩ := a
  cases place with
  | scheduled =>
    have hset := settles_connect (s := { s with attempts := [] }) (o := o) k hshut hoff
    simpa [step, Safe, hget, herase, hshut, hoff] using
      hset.kept hshut hoff rfl caller _ hnext hup
  | lookingUp =>
    have hset := Chameleon.settles_lookup (s := { s with attempts := [] }) (o := o) hshut
    simpa [step, Safe, hget, herase, hshut, hoff] using
      hset.kept hshut hoff rfl caller _ hnext hup
  | backingOff =>
    have heq : step k s (.due 0 o outs) = Client.schedule { s with attempts := [] } := by
      simp only [step, hget, herase]
      exact hnext _ hoff
    have hinv : Inv (step k s (.due 0 o outs)) := by
      rw [heq]
      exact .pending hshut hoff ⟨.scheduled, none⟩ rfl
    refine ⟨iff_of_true hinv.kept ?_, fun _ => hinv⟩
    simp [Safe, hget]

/-- 一つの出来事で約束が守られるのは、`Safe` のときに限る。 -/
theorem step_kept (e : Event) (hI : Inv s) :
    (Kept (step k s e) ↔ Safe k s e) ∧ (Safe k s e → Inv (step k s e)) := by
  cases hI with
  | shutting h =>
    have hinv : Inv (step k s e) := .shutting (step_shuttingDown e h)
    refine ⟨iff_of_true hinv.kept ?_, fun _ => hinv⟩
    cases e <;> simp [Safe, h]
  | connected hshut hon hattempts =>
    have hinv : Inv s := .connected hshut hon hattempts
    cases e with
    | stop => exact ⟨iff_of_true (Or.inl rfl) trivial, fun _ => .shutting rfl⟩
    | invoke retry outs =>
      have hkept : (Kept (invoke k outs retry s) ↔ Persists k s.endpoints outs retry) ∧ _ :=
        invoke_kept retry hshut hon hattempts
      simpa [step, Safe, hshut, hon] using hkept
    | due i o outs => simp [step, Safe, hattempts, hinv, hinv.kept]
  | pending hshut hoff a hattempts =>
    have hinv : Inv s := .pending hshut hoff a hattempts
    cases e with
    | stop => exact ⟨iff_of_true (Or.inl rfl) trivial, fun _ => .shutting rfl⟩
    | invoke retry outs => simp [step, Safe, hoff, invoke_disconnected hoff, hinv, hinv.kept]
    | due i o outs =>
      rcases i with _ | i
      · exact due_kept hshut hoff hattempts
      · simp [step, Safe, hattempts, hinv, hinv.kept]

/--
**client は諦めない。** `start` の後のどの出来事の列でも約束が守られるのは、どの `connect` も
`_endpoint` の読めない失敗をしないときに限る。
-/
theorem never_gives_up_iff (k : Kind) (e : Endpoints) (l : List Event) :
    Steps.Always (step k) Kept (Client.init e).start l ↔
      Steps.Each (step k) (Safe k) (Client.init e).start l := by
  have hinv : Inv (Client.init e).start := .pending rfl rfl ⟨.scheduled, none⟩ rfl
  exact Steps.always_iff_each (A := fun _ => True) (I := Inv)
    (fun s ev _ hI _ => step_kept ev hI) (fun _ _ => trivial) hinv hinv.kept

/-- すべてうまくいく成否。 -/
def Outcomes.fine : Outcomes := ⟨.found "10.0.0.1:50055".toList, none, none, none, none⟩

/-- consul に届かない Chameleon も、schema を読めない Netconf も、そこで諦める。 -/
theorem gives_up_silently :
    (¬∀ (e : Endpoints) (l : List Event),
      Steps.Always (step .chameleon) Kept (Client.init e).start l) ∧
    ¬∀ (e : Endpoints) (l : List Event),
      Steps.Always (step .netconf) Kept (Client.init e).start l := by
  constructor
  · intro h
    have hkept := (h ⟨"localhost:8500".toList, "@voltha-grpc".toList⟩
      [.due 0 { Outcomes.fine with lookup := .raises .other } fun _ => .fine]).last
    revert hkept
    unfold Kept
    decide
  · intro h
    have hkept := (h ⟨"localhost:8500".toList, "localhost:50055".toList⟩
      [.due 0 { Outcomes.fine with schema := some .other } fun _ => .fine]).last
    revert hkept
    unfold Kept
    decide

end Voltha.Grpc
