import Voltha.Lib.Steps
import Voltha.Microsemi.OltStateMachine

/-!
# 立ち上げの段階

どの段階も、その instance が四つの channel から応答を受け取ってから次へ進む。ただし、次の三つが要る。

* 応答の `channel_id` が、その channel の flag に当たる（負の番号や大きい番号は、他の flag に当たるか、例外に
  なる）
* `send_state` を分け合う instance が、同時に optics の段階にいない
* `wait_query_response` に入らない。この状態は condition ですぐに出るので、応答を待たない

flag が立つのは応答を受け取った channel に限る（`Backed`）ことを、一歩ごとに保つ。
-/

namespace Voltha.Microsemi

variable {env env' : Env} {ph : Phase} {next : State} {pkt : Packet} {j : Nat}

/-! ## handler の効果 -/

namespace Env

@[simp] theorem flags_setFlags (l : List Bool) : (env.setFlags l).flags = l := by
  unfold setFlags flags
  cases h : env.self.sendState <;> simp [h]

@[simp] theorem setFlags_state (l : List Bool) :
    (env.setFlags l).self.state = env.self.state := by
  unfold setFlags; split <;> rfl

@[simp] theorem setFlags_heard (l : List Bool) :
    (env.setFlags l).self.heard = env.self.heard := by
  unfold setFlags; split <;> rfl

@[simp] theorem setFlags_alive (l : List Bool) :
    (env.setFlags l).self.alive = env.self.alive := by
  unfold setFlags; split <;> rfl

theorem setFlags_own {l l' : List Bool} (h : env.self.sendState = some l) :
    (env.setFlags l').self.sendState = some l' ∧ (env.setFlags l').shared = env.shared := by
  simp [setFlags, h]

theorem setFlags_shared {l' : List Bool} (h : env.self.sendState = none) :
    (env.setFlags l').self.sendState = none ∧ (env.setFlags l').shared = l' := by
  simp [setFlags, h]

/-- `check_channel_state` が成功したとき。 -/
def reset (env : Env) : Env := { env with self := { env.self with sendState := some [] } }

end Env

/-- 始めの四つの flag が立っている。 -/
def AllSet (l : List Bool) : Prop := ∀ i ∈ CHANNELS, l[i]? = some true

instance (l : List Bool) : Decidable (AllSet l) :=
  inferInstanceAs (Decidable (∀ i ∈ CHANNELS, l[i]? = some true))

theorem allSet_true {l : List Bool} {is : List Nat} (h : ∀ i ∈ is, l[i]? = some true) :
    allSet l is env = (.ok true, env) := by
  induction is with
  | nil => rfl
  | cons i is ih =>
    rw [allSet, h i List.mem_cons_self]
    exact ih fun k hk => h k (List.mem_cons_of_mem _ hk)

theorem allSet_false {l : List Bool} {is : List Nat} (hlt : ∀ i ∈ is, i < l.length)
    (h : ¬∀ i ∈ is, l[i]? = some true) : allSet l is env = (.ok false, env) := by
  induction is with
  | nil => exact absurd nofun h
  | cons i is ih =>
    have hlti := hlt i List.mem_cons_self
    have hi := List.getElem?_eq_getElem hlti
    rw [allSet, hi]
    cases hf : l[i] with
    | false => rfl
    | true =>
      refine ih (fun k hk => hlt k (List.mem_cons_of_mem _ hk)) fun hall => h ?_
      rw [hf] at hi
      exact List.forall_mem_cons.mpr ⟨hi, hall⟩

theorem checkChannelState_apply (h : 4 ≤ env.flags.length) : checkChannelState env =
    if AllSet env.flags then (.ok true, env.reset) else (.ok false, env) := by
  have hlt : ∀ i ∈ CHANNELS, i < env.flags.length := by
    intro i hi
    simp only [CHANNELS, List.mem_cons, List.not_mem_nil, or_false] at hi
    omega
  unfold checkChannelState
  rw [Exec.read_bind_apply]
  split
  · next hall =>
    rw [Exec.bind_ok (allSet_true hall)]
    rfl
  · next hall =>
    rw [Exec.bind_ok (allSet_false hlt hall)]
    rfl

theorem setSendState_apply (hj : resolve env.flags pkt.channelId.toInt = some j) :
    setSendState pkt.channelId env = (.ok (), env.setFlags (env.flags.set j true)) := by
  simp [setSendState, hj]

/-- 要求を一つ送る。 -/
def Env.request (env : Env) (ph : Phase) (channel : Nat) : Env :=
  let env := env.setFlags (env.flags ++ [false])
  { env with self := { env.self with sent := env.self.sent ++ [(ph, channel)] } }

theorem sendToChannels_apply : sendToChannels ph env =
    (.ok (some (.waiting ph)), CHANNELS.foldl (fun env c => env.request ph c) env) := rfl

/-! ## 不変条件 -/

/-- `c` 番の channel の応答を受け取った。 -/
def Olt.Heard (olt : Olt) (c : Nat) : Prop := ∃ x ∈ olt.heard, x.toInt = c

/-- 立っている flag は、応答を受け取った channel のものである。 -/
structure Backed (env : Env) : Prop where
  length : 4 ≤ env.flags.length
  heard : ∀ c ∈ CHANNELS, env.flags[c]? = some true → env.self.Heard c

/-- 始めの四つの flag は、どれも立っていない。 -/
def Unset (l : List Bool) : Prop := ∀ c ∈ CHANNELS, l[c]? ≠ some true

/-- 状態ごとの `send_state`。 -/
def SendStateInv (env : Env) : Prop :=
  match env.self.state with
  | .waiting .optics => env.self.sendState = none ∧ Backed env
  | .waiting .query => env.self.sendState.isSome = true ∧ Backed env ∧ env.self.heard = []
  | .waiting _ => env.self.sendState.isSome = true ∧ Backed env
  | .got _ => env.self.sendState = some []
  | .initialized | .waitKeepalive | .error => True
  | _ => env.self.sendState = none

/-- 動いている instance の不変条件。 -/
structure OltInv (env : Env) : Prop where
  alive : env.self.alive = true
  sendState : SendStateInv env

/-- 応答は、自分の channel の flag か、もう立っている flag に当たる。 -/
def HitsOwnFlag (l : List Bool) (channelId : Int16) : Prop :=
  ∃ j, resolve l channelId.toInt = some j ∧
    (j ∈ CHANNELS → l[j]? = some true ∨ channelId.toInt = j)

/-- 一歩が、flag の表を乱さない。 -/
def SafeStep (env : Env) : Event → Prop
  | .condition => env.self.state = .gotOltVersion → Unset env.shared
  | .receive pkt => ∀ ph, env.self.state = .waiting ph → ph.accepts pkt = true →
    HitsOwnFlag env.flags pkt.channelId
  | .timeout => True

/-- 一歩の後までに数えた応答。 -/
def Env.heardAfter (env : Env) : Event → Olt
  | .receive pkt => env.self.hear pkt
  | _ => env.self

/-- 一歩は例外を投げず、段階を進むなら四つの channel の応答を受け取っている。 -/
structure Keeps (env : Env) (event : Event) : Prop where
  alive : (env.step event).self.alive = true
  heard : ∀ ph, env.self.state = .waiting ph → (env.step event).self.state ≠ .waiting ph →
    (env.step event).self.state ≠ .error → ∀ c ∈ CHANNELS, (env.heardAfter event).Heard c

/-! ## 要求を送る一歩 -/

theorem request_fold (env : Env) (ph : Phase) (cs : List Nat) :
    let env' := cs.foldl (fun env c => env.request ph c) env
    env'.flags = env.flags ++ List.replicate cs.length false ∧
      env'.self.state = env.self.state ∧ env'.self.heard = env.self.heard ∧
      env'.self.alive = env.self.alive ∧
      env'.self.sendState.isSome = env.self.sendState.isSome ∧
      (env.self.sendState.isSome = true → env'.shared = env.shared) := by
  induction cs generalizing env with
  | nil => simp
  | cons c cs ih =>
    obtain ⟨hf, hst, hh, ha, hown, hsh⟩ := ih (env.request ph c)
    have hflags : (env.request ph c).flags = env.flags ++ [false] :=
      Env.flags_setFlags (env.flags ++ [false])
    have hown' : (env.request ph c).self.sendState.isSome = env.self.sendState.isSome ∧
        (env.self.sendState.isSome = true → (env.request ph c).shared = env.shared) := by
      cases ho : env.self.sendState with
      | none => simp [Env.request, Env.setFlags, ho]
      | some l => simp [Env.request, Env.setFlags, ho]
    refine ⟨?_, hst.trans (Env.setFlags_state _), hh.trans (Env.setFlags_heard _),
      ha.trans (Env.setFlags_alive _), hown.trans hown'.1, ?_⟩
    · rw [List.foldl_cons, hf, hflags, List.append_assoc, List.length_cons, List.replicate_succ]
      rfl
    · intro ho
      exact (hsh (hown'.1.trans ho)).trans (hown'.2 ho)

/-- 要求を送れば、どの flag も立っていない。 -/
theorem unset_append {l : List Bool} (h : Unset l) : Unset (l ++ List.replicate 4 false) := by
  intro c hc
  rcases Nat.lt_or_ge c l.length with hlt | hge
  · rw [List.getElem?_append_left hlt]
    exact h c hc
  · rw [List.getElem?_append_right hge, List.getElem?_replicate]
    split <;> simp

/-- 要求を送った後。 -/
theorem run_sendToChannels (hu : Unset env.flags) (hne : env.self.state ≠ .waiting ph) :
    let env' := env.run (sendToChannels ph)
    env'.self.state = .waiting ph ∧ Backed env' ∧ env'.self.heard = [] ∧
      env'.self.alive = env.self.alive ∧
      env'.self.sendState.isSome = env.self.sendState.isSome ∧
      (env.self.sendState.isSome = true → env'.shared = env.shared) := by
  obtain ⟨hf, hst, hh, ha, hown, hsh⟩ := request_fold env ph CHANNELS
  have hrun : env.run (sendToChannels ph)
      = let sent := CHANNELS.foldl (fun env c => env.request ph c) env
        { sent with self := sent.self.enter (some (.waiting ph)) } := by
    simp only [Env.run, sendToChannels_apply]
  rw [hrun]
  generalize hsent : CHANNELS.foldl (fun env c => env.request ph c) env = sent at *
  have hne' : State.waiting ph ≠ sent.self.state := by
    rw [hst]
    exact hne.symm
  have hflags : (Env.flags { sent with self := sent.self.enter (some (.waiting ph)) })
      = env.flags ++ List.replicate 4 false := hf
  refine ⟨rfl, ⟨?_, ?_⟩, if_neg hne', ha, hown, hsh⟩
  · rw [hflags, List.length_append, List.length_replicate]
    omega
  · intro c hc hset
    rw [hflags] at hset
    exact absurd hset (unset_append hu c hc)

/-! ## 応答を受け取る一歩 -/

/-- `env` の flag が揃えば `next` へ進み、揃わなければ待ち続けて `env'` になる。 -/
structure Advances (ph : Phase) (next : State) (env env' : Env) : Prop where
  alive : env'.self.alive = env.self.alive
  shared : env'.shared = env.shared
  cases : (env'.self.state = .waiting ph ∧ Backed env' ∧
      env'.self.sendState.isSome = env.self.sendState.isSome) ∨
    (env'.self.state = next ∧ env'.self.sendState = some [] ∧ ∀ c ∈ CHANNELS, env.self.Heard c)

/-- 応答を数えても、flag は変わらない。 -/
theorem Olt.hear_state (olt : Olt) (pkt : Packet) : (olt.hear pkt).state = olt.state ∧
    (olt.hear pkt).sendState = olt.sendState ∧ (olt.hear pkt).alive = olt.alive ∧
    (∀ x ∈ olt.heard, x ∈ (olt.hear pkt).heard) := by
  unfold Olt.hear
  split
  · split
    · refine ⟨rfl, rfl, rfl, fun x hx => ?_⟩
      simp [hx]
    · exact ⟨rfl, rfl, rfl, fun _ hx => hx⟩
  · exact ⟨rfl, rfl, rfl, fun _ hx => hx⟩

/-- packet を受け取った後の instance。 -/
def Env.heard (env : Env) (pkt : Packet) : Env := { env with self := env.self.hear pkt }

theorem Env.flags_heard (env : Env) (pkt : Packet) : (env.heard pkt).flags = env.flags := by
  unfold Env.flags Env.heard
  rw [(Olt.hear_state env.self pkt).2.1]

theorem Backed.heard' (h : Backed env) (pkt : Packet) : Backed (env.heard pkt) where
  length := by
    rw [Env.flags_heard]
    exact h.length
  heard := by
    intro c hc hset
    rw [Env.flags_heard] at hset
    obtain ⟨x, hx, hxc⟩ := h.heard c hc hset
    exact ⟨x, (Olt.hear_state env.self pkt).2.2.2 x hx, hxc⟩

/-- 受け取った応答の flag を立てる。 -/
theorem Backed.set (h : Backed env) (hin : pkt.channelId ∈ env.self.heard)
    (hown : j ∈ CHANNELS → env.flags[j]? = some true ∨ pkt.channelId.toInt = j) :
    Backed (env.setFlags (env.flags.set j true)) where
  length := by
    rw [Env.flags_setFlags, List.length_set]
    exact h.length
  heard := by
    intro c hc hset
    have hheard : env.self.Heard c → (env.setFlags (env.flags.set j true)).self.Heard c := by
      rintro ⟨x, hx, hxc⟩
      exact ⟨x, by rwa [Env.setFlags_heard], hxc⟩
    rw [Env.flags_setFlags] at hset
    by_cases hcj : j = c
    · subst hcj
      rcases hown hc with hold | hid
      · exact hheard (h.heard j hc hold)
      · exact hheard ⟨_, hin, hid⟩
    · rw [List.getElem?_set_ne hcj] at hset
      exact hheard (h.heard c hc hset)

/-- flag を調べて終わる handler の一歩。 -/
theorem run_check {handler : Handler} (hb : Backed env') (hst : env'.self.state = .waiting ph)
    (hrun : handler env = if AllSet env'.flags then (.ok (some next), env'.reset)
      else (.ok (some (.waiting ph)), env')) : Advances ph next env' (env.run handler) := by
  unfold Env.run
  by_cases hall : AllSet env'.flags
  · rw [hrun, if_pos hall]
    exact ⟨rfl, rfl, Or.inr ⟨rfl, rfl, fun c hc => hb.heard c hc (hall c hc)⟩⟩
  · rw [hrun, if_neg hall]
    refine ⟨rfl, rfl, Or.inl ⟨rfl, ⟨hb.length, fun c hc hset => ?_⟩, rfl⟩⟩
    obtain ⟨x, hx, hxc⟩ := hb.heard c hc hset
    exact ⟨x, by simpa [Olt.enter, hst] using hx, hxc⟩

/-- 応答の flag を立てて調べる一歩。 -/
theorem run_acceptResponse (hb : Backed env) (hst : env.self.state = .waiting ph)
    (hin : pkt.channelId ∈ env.self.heard) (hhit : HitsOwnFlag env.flags pkt.channelId) :
    ∃ j, Advances ph next (env.setFlags (env.flags.set j true))
      (env.run (acceptResponse ph next pkt)) := by
  obtain ⟨j, hj, hown⟩ := hhit
  have hb' := hb.set hin hown
  have hcheck := checkChannelState_apply hb'.length
  refine ⟨j, run_check hb' (by simpa using hst) ?_⟩
  unfold acceptResponse
  rw [Exec.bind_ok (setSendState_apply hj)]
  split
  · next hall =>
    rw [if_pos hall] at hcheck
    rw [Exec.bind_ok hcheck]
    rfl
  · next hall =>
    rw [if_neg hall] at hcheck
    rw [Exec.bind_ok hcheck]
    rfl

/-- 段階を終えた状態。 -/
def State.IsNext : State → Prop
  | .got _ | .initialized => True
  | _ => False

/-- 段階 `ph` で packet を受け取った結果。待ち続けるか、四つの応答を数えて次へ進む。 -/
structure Outcome (ph : Phase) (pkt : Packet) (env env' : Env) : Prop where
  alive : env'.self.alive = true
  shared : env.self.sendState.isSome = true → env'.shared = env.shared
  cases : (env'.self.state = .waiting ph ∧ Backed env' ∧
      env'.self.sendState.isSome = env.self.sendState.isSome) ∨
    (env'.self.state.IsNext ∧ env'.self.sendState = some [] ∧
      ∀ c ∈ CHANNELS, (env.self.hear pkt).Heard c)

/-- flag の列と `dba_needs_start` の他は、変わらない。 -/
structure SameButFlags (env env' : Env) : Prop where
  state : env'.self.state = env.self.state
  alive : env'.self.alive = env.self.alive
  heard : env'.self.heard = env.self.heard
  own : env'.self.sendState.isSome = env.self.sendState.isSome
  shared : env.self.sendState.isSome = true → env'.shared = env.shared

theorem SameButFlags.setFlags (env : Env) (l : List Bool) : SameButFlags env (env.setFlags l) where
  state := Env.setFlags_state l
  alive := Env.setFlags_alive l
  heard := Env.setFlags_heard l
  own := by
    cases ho : env.self.sendState with
    | none => rw [(Env.setFlags_shared ho).1]
    | some l' => rw [(Env.setFlags_own ho).1]; rfl
  shared := by
    intro hsome
    obtain ⟨l', hl'⟩ := Option.isSome_iff_exists.mp hsome
    exact (Env.setFlags_own hl').2

/-- flag を書き換えて調べる一歩の結果。 -/
theorem outcome_of_advances {env₁ : Env} (halive : env.self.alive = true) (hnext : next.IsNext)
    (hsame : SameButFlags (env.heard pkt) env₁) (h : Advances ph next env₁ env') :
    Outcome ph pkt env env' := by
  obtain ⟨-, hown, ha, -⟩ := Olt.hear_state env.self pkt
  have hown' : (env.heard pkt).self.sendState.isSome = env.self.sendState.isSome := by
    rw [← hown]
    rfl
  refine ⟨h.alive.trans (hsame.alive.trans (ha.trans halive)), fun hsome => ?_, ?_⟩
  · exact h.shared.trans (hsame.shared (hown'.trans hsome))
  · rcases h.cases with ⟨hst', hb', hsome⟩ | ⟨hst', hreset, hheard⟩
    · exact Or.inl ⟨hst', hb', hsome.trans (hsame.own.trans hown')⟩
    · refine Or.inr ⟨hst' ▸ hnext, hreset, fun c hc => ?_⟩
      obtain ⟨x, hx, hxc⟩ := hheard c hc
      exact ⟨x, hsame.heard ▸ hx, hxc⟩

/-- 待ち続ける一歩の結果。 -/
theorem outcome_of_stay (hst : env.self.state = .waiting ph) (halive : env.self.alive = true)
    (hb : Backed env) {other : Option State} (hother : other = none ∨ other = some (.waiting ph)) :
    Outcome ph pkt env ((env.heard pkt).run (pure other)) := by
  obtain ⟨hs, hown, ha, -⟩ := Olt.hear_state env.self pkt
  have hb' := hb.heard' pkt
  rcases hother with rfl | rfl
  · exact ⟨ha.trans halive, fun _ => rfl, Or.inl ⟨hs.trans hst, hb', by rw [← hown]; rfl⟩⟩
  · refine ⟨ha.trans halive, fun _ => rfl, Or.inl ⟨rfl, ⟨hb'.length, fun c hc hset => ?_⟩, ?_⟩⟩
    · obtain ⟨x, hx, hxc⟩ := hb'.heard c hc hset
      refine ⟨x, ?_, hxc⟩
      show x ∈ if State.waiting ph = (env.self.hear pkt).state then
        (env.self.hear pkt).heard else []
      rw [if_pos (hst.symm.trans hs.symm)]
      exact hx
    · rw [← hown]
      rfl

/-- 受け入れた応答は、数えられている。 -/
theorem mem_heard (hst : env.self.state = .waiting ph) (hacc : ph.accepts pkt = true) :
    pkt.channelId ∈ (env.heard pkt).self.heard := by
  simp [Env.heard, Olt.hear, hst, hacc]

section Receive

variable (hst : env.self.state = .waiting ph) (halive : env.self.alive = true) (hb : Backed env)
variable (hs : ph.accepts pkt = true → HitsOwnFlag env.flags pkt.channelId)

include hst halive hb hs

/-- `opcode` だけを見る段階の結果。 -/
theorem outcome_await {other : Option State} (hnext : next.IsNext)
    (hother : other = none ∨ other = some (.waiting ph))
    (hacc : pkt.opcode = ph.opcode → ph.accepts pkt = true) :
    Outcome ph pkt env ((env.heard pkt).run
      (if pkt.opcode = ph.opcode then acceptResponse ph next pkt else pure other)) := by
  split
  · next hop =>
    have hin := mem_heard hst (hacc hop)
    have hhit := hs (hacc hop)
    rw [← Env.flags_heard env pkt] at hhit
    obtain ⟨j, hadv⟩ : ∃ j, Advances ph next _ _ := run_acceptResponse (hb.heard' pkt)
      ((Olt.hear_state env.self pkt).1.trans hst) hin hhit
    exact outcome_of_advances halive hnext (.setFlags _ _) hadv
  · exact outcome_of_stay hst halive hb hother

end Receive

/-- DBA の mode を書き込んでも、立っている flag は受け取った応答のものである。 -/
theorem recordDbaMode_ok (hb : Backed env)
    (hacc : pkt.dbaMode = PON_DBA_MODE_LOADED_NOT_RUNNING ∨ pkt.dbaMode = PON_DBA_MODE_RUNNING →
      pkt.channelId ∈ env.self.heard ∧ HitsOwnFlag env.flags pkt.channelId) :
    ∃ env₁, recordDbaMode pkt env = (.ok (), env₁) ∧ Backed env₁ ∧ SameButFlags env env₁ := by
  unfold recordDbaMode
  split
  · next hm =>
    obtain ⟨hin, j, hj, hown⟩ := hacc (Or.inl hm)
    have hb₁ := hb.set hin hown
    have hsame := SameButFlags.setFlags env (env.flags.set j true)
    refine ⟨_, Exec.bind_ok (setSendState_apply hj), ⟨hb₁.length, hb₁.heard⟩, ?_⟩
    exact ⟨hsame.state, hsame.alive, hsame.heard, hsame.own, hsame.shared⟩
  · split
    · next hm =>
      obtain ⟨hin, j, hj, hown⟩ := hacc (Or.inr hm)
      exact ⟨_, setSendState_apply hj, hb.set hin hown, .setFlags _ _⟩
    · exact ⟨env, rfl, hb, ⟨rfl, rfl, rfl, rfl, fun _ => rfl⟩⟩

/-- DBA の mode の段階の結果。 -/
theorem outcome_dbaMode (hst : env.self.state = .waiting .dbaMode)
    (halive : env.self.alive = true) (hb : Backed env)
    (hs : Phase.dbaMode.accepts pkt = true → HitsOwnFlag env.flags pkt.channelId) :
    Outcome .dbaMode pkt env ((env.heard pkt).run (waitForDbaMode pkt)) := by
  unfold waitForDbaMode
  split
  · next hop =>
    have hacc : pkt.dbaMode = PON_DBA_MODE_LOADED_NOT_RUNNING ∨
        pkt.dbaMode = PON_DBA_MODE_RUNNING → Phase.dbaMode.accepts pkt = true := by
      intro hm
      rcases hm with hm | hm <;> simp [Phase.accepts, hop, hm]
    obtain ⟨env₁, hrec, hb₁, hsame⟩ := recordDbaMode_ok (hb.heard' pkt) fun hm =>
      ⟨mem_heard hst (hacc hm), Env.flags_heard env pkt ▸ hs (hacc hm)⟩
    have hst₁ : env₁.self.state = .waiting .dbaMode :=
      hsame.state.trans ((Olt.hear_state env.self pkt).1.trans hst)
    have hcheck := checkChannelState_apply hb₁.length
    have hnext : (if env₁.self.dbaNeedsStart then State.got .dbaMode
        else .got .dbaStart).IsNext := by
      split <;> trivial
    refine outcome_of_advances halive hnext hsame (run_check hb₁ hst₁ ?_)
    rw [Exec.bind_ok hrec]
    split
    · next hall =>
      rw [if_pos hall] at hcheck
      rw [Exec.bind_ok hcheck]
      rfl
    · next hall =>
      rw [if_neg hall] at hcheck
      rw [Exec.bind_ok hcheck]
      rfl
  · exact outcome_of_stay hst halive hb (Or.inr rfl)

/-- どの段階でも、packet を受け取った結果は `Outcome` である。 -/
theorem step_receive (hph : ph ≠ .query) (hst : env.self.state = .waiting ph)
    (halive : env.self.alive = true) (hb : Backed env)
    (hs : ph.accepts pkt = true → HitsOwnFlag env.flags pkt.channelId) :
    Outcome ph pkt env (env.step (.receive pkt)) := by
  have hstep : ∀ handler, receiveCondition (.waiting ph) = some handler →
      env.step (.receive pkt) = (env.heard pkt).run (handler pkt) := by
    intro handler hhandler
    have hc : condition (.waiting ph) = none := by
      cases ph with
      | query => exact absurd rfl hph
      | _ => rfl
    simp [Env.step, halive, hst, hc, hhandler, Env.heard]
  cases ph with
  | query => exact absurd rfl hph
  | dbaMode =>
    rw [hstep _ rfl]
    exact outcome_dbaMode hst halive hb hs
  | optics | ioOptics | addOlt | alarm =>
    rw [hstep _ rfl]
    exact outcome_await hst halive hb hs trivial (Or.inl rfl) fun hop => by
      simp [Phase.accepts, hop]
  | dbaStart | activation =>
    rw [hstep _ rfl]
    exact outcome_await hst halive hb hs trivial (Or.inr rfl) fun hop => by
      simp [Phase.accepts, hop]

/-! ## 一歩の全体 -/

/-- 一歩で、class の列が変わったり、optics の段階に入ったりするところ。 -/
structure Confined (env env' : Env) (event : Event) : Prop where
  shared : env'.shared = env.shared ∨ env.self.state = .waiting .optics ∨
    (env.self.state = .gotOltVersion ∧ event = .condition)
  enters : env'.self.state = .waiting .optics → env.self.state = .waiting .optics ∨
    (env.self.state = .gotOltVersion ∧ event = .condition)

/-- 何も起きない一歩。 -/
theorem Confined.refl (env : Env) (event : Event) : Confined env env event :=
  ⟨Or.inl rfl, Or.inl⟩

/-- 要求を送る一歩。 -/
theorem step_send {handler : Handler} (halive : env.self.alive = true)
    (hc : condition env.self.state = some handler) (hh : handler = sendToChannels ph)
    (hu : Unset env.flags) (hne : env.self.state ≠ .waiting ph)
    (hown : ph = .optics ↔ env.self.sendState = none)
    (hgot : ph = .optics → env.self.state = .gotOltVersion) :
    OltInv (env.step .condition) ∧ (env.step .condition).self.state = .waiting ph ∧
      Confined env (env.step .condition) .condition := by
  subst hh
  obtain ⟨hst', hb', hheard, halive', hsome, hshared⟩ := run_sendToChannels hu hne
  have hstep : env.step .condition = env.run (sendToChannels ph) := by
    unfold Env.step
    rw [if_pos halive, hc]
  rw [hstep]
  refine ⟨⟨halive'.trans halive, ?_⟩, hst', ?_, ?_⟩
  · unfold SendStateInv
    rw [hst']
    cases ph with
    | optics =>
      rw [hown.mp rfl] at hsome
      exact ⟨Option.isNone_iff_eq_none.mp (by simpa using hsome), hb'⟩
    | query | ioOptics | addOlt | alarm | dbaMode | dbaStart | activation =>
      have hne' : env.self.sendState ≠ none := fun hnone => by simpa using hown.mpr hnone
      have hsome' := hsome.trans (Option.isSome_iff_ne_none.mpr hne')
      first
        | exact ⟨hsome', hb', hheard⟩
        | exact ⟨hsome', hb'⟩
  · by_cases hph : ph = .optics
    · exact Or.inr (Or.inr ⟨hgot hph, rfl⟩)
    · refine Or.inl (hshared (Option.isSome_iff_ne_none.mpr fun hnone => ?_))
      exact hph (hown.mpr hnone)
  · intro henter
    rw [hst'] at henter
    cases henter
    exact Or.inr ⟨hgot rfl, rfl⟩

theorem unset_nil : Unset [] := by simp [Unset]

/-- 段階を待つ状態の不変条件は、flag の列と応答だけで決まる。 -/
theorem sendStateInv_waiting (hph : ph ≠ .query) (hst : env.self.state = .waiting ph) :
    SendStateInv env ↔ (env.self.sendState.isSome = true ↔ ph ≠ .optics) ∧ Backed env := by
  unfold SendStateInv
  rw [hst]
  cases ph with
  | query => exact absurd rfl hph
  | optics => simp
  | _ => simp

theorem step_receive_inv (hph : ph ≠ .query) (hst : env.self.state = .waiting ph)
    (h : OltInv env) (hs : SafeStep env (.receive pkt)) :
    OltInv (env.step (.receive pkt)) ∧ Keeps env (.receive pkt) ∧
      Confined env (env.step (.receive pkt)) (.receive pkt) := by
  obtain ⟨hown, hb⟩ := (sendStateInv_waiting hph hst).mp h.sendState
  have hout := step_receive hph hst h.alive hb (hs ph hst)
  have hconf : (env.step (.receive pkt)).shared = env.shared ∨
      env.self.state = .waiting .optics := by
    by_cases hopt : ph = .optics
    · exact Or.inr (hopt ▸ hst)
    · exact Or.inl (hout.shared (hown.mpr hopt))
  rcases hout.cases with ⟨hst', hb', hown'⟩ | ⟨hnext, hreset, hheard⟩
  · refine ⟨⟨hout.alive, ?_⟩, ⟨hout.alive, ?_⟩, hconf.imp_right Or.inl, ?_⟩
    · exact (sendStateInv_waiting hph hst').mpr ⟨hown' ▸ hown, hb'⟩
    · intro ph' hph' hleft
      rw [hst] at hph'
      cases hph'
      exact absurd hst' hleft
    · intro henter
      rw [hst'] at henter
      cases henter
      exact Or.inl hst
  · refine ⟨⟨hout.alive, ?_⟩, ⟨hout.alive, fun _ _ _ _ => hheard⟩, hconf.imp_right Or.inl, ?_⟩
    · unfold SendStateInv
      generalize (env.step (.receive pkt)).self.state = s at hnext
      cases s with
      | got _ => exact hreset
      | initialized => trivial
      | _ => exact hnext.elim
    · intro henter
      rw [henter] at hnext
      exact hnext.elim

/-- 応答を待たずに段階を出る一歩。 -/
def LeavesQuery (env : Env) (event : Event) : Prop :=
  env.self.state = .waiting .query ∧ event = .condition

/-- 一歩で保たれること。 -/
structure StepOk (env : Env) (event : Event) : Prop where
  inv : OltInv (env.step event)
  keeps : Keeps env event ↔ ¬LeavesQuery env event
  confined : Confined env (env.step event) event

/-- 何も起きない一歩。 -/
theorem StepOk.idle {event : Event} (h : OltInv env) (he : env.step event = env)
    (hq : ¬LeavesQuery env event) : StepOk env event := by
  refine ⟨by rwa [he], iff_of_true ⟨by rw [he]; exact h.alive, ?_⟩ hq, ?_⟩
  · intro ph hph hleft
    rw [he] at hleft
    exact absurd hph hleft
  · rw [he]
    exact .refl env event

/-- 段階を待つところでない状態から移るか、`ERROR` に移る一歩。 -/
theorem StepOk.move {event : Event} (hq : ¬LeavesQuery env event) (he : env.step event = env')
    (halive : env'.self.alive = true) (hshared : env'.shared = env.shared)
    (hs : env'.self.state = .error ∨ ∀ ph, env.self.state ≠ .waiting ph)
    (hopt : env'.self.state ≠ .waiting .optics) (hinv : SendStateInv env') :
    StepOk env event := by
  subst he
  refine ⟨⟨halive, hinv⟩, iff_of_true ⟨halive, fun ph hph _ hne => ?_⟩ hq, Or.inl hshared, ?_⟩
  · exact hs.elim (fun he => absurd he hne) fun hs => absurd hph (hs ph)
  · exact fun henter => absurd henter hopt

section Step

variable {event : Event} {handler : Handler}

theorem step_blocked (halive : env.self.alive = true)
    (hc : condition env.self.state = some handler) (he : event ≠ .condition) :
    env.step event = env := by
  unfold Env.step
  rw [if_pos halive, hc]
  cases event with
  | condition => exact absurd rfl he
  | _ => rfl

/-- 条件のある状態で、要求を送って次の段階を待つ。 -/
theorem StepOk.send (h : OltInv env) (hs : SafeStep env event)
    (hc : condition env.self.state = some (sendToChannels ph))
    (hwait : ∀ ph, env.self.state ≠ .waiting ph)
    (hu : SafeStep env .condition → Unset env.flags)
    (hown : ph = .optics ↔ env.self.sendState = none)
    (hgot : ph = .optics → env.self.state = .gotOltVersion) : StepOk env event := by
  have hq : ∀ event, ¬LeavesQuery env event := fun _ hq => hwait _ hq.1
  cases event with
  | condition =>
    obtain ⟨hinv, hst', hconf⟩ := step_send h.alive hc rfl (hu hs) (hwait ph) hown hgot
    exact ⟨hinv, iff_of_true ⟨hinv.alive, fun ph hph => absurd hph (hwait ph)⟩ (hq _), hconf⟩
  | receive pkt => exact .idle h (step_blocked h.alive hc nofun) (hq _)
  | timeout => exact .idle h (step_blocked h.alive hc nofun) (hq _)

/-- `timeout_proto` と `timeout_olt` の一歩。 -/
theorem StepOk.retry {shared : List Bool} {olt : Olt} (halive : olt.alive = true)
    (hown : olt.sendState = none) (hst : ∀ ph, olt.state ≠ .waiting ph)
    (he : Env.step ⟨shared, olt⟩ event = Env.run ⟨shared, olt⟩ retryTimeout) :
    StepOk ⟨shared, olt⟩ event := by
  have hq : ¬LeavesQuery ⟨shared, olt⟩ event := fun hq => hst _ hq.1
  have hrun : Env.run ⟨shared, olt⟩ retryTimeout = ⟨shared, Olt.enter
      { olt with retry := olt.retry - 1 }
      (some (if olt.retry - 1 < 0 then .error else .disconnected))⟩ := rfl
  rw [hrun] at he
  split at he
  · exact .move hq he halive rfl (Or.inl rfl) nofun trivial
  · exact .move hq he halive rfl (Or.inr hst) nofun hown

/-- 応答を待たない状態。 -/
theorem StepOk.simple {shared : List Bool} {olt : Olt} (h : OltInv ⟨shared, olt⟩) :
    olt.state ∈ [.disconnected, .waitForProtoVersion, .gotProtoVersion, .waitForOltVersion,
      .initialized, .waitKeepalive, .error, .got .query, .got .activation] →
    StepOk ⟨shared, olt⟩ event := by
  obtain ⟨state, sendState, dbaNeedsStart, retry, alive, sent, heard⟩ := olt
  obtain ⟨rfl, hinv⟩ := h
  intro hst
  simp only [List.mem_cons, List.not_mem_nil, or_false] at hst
  rcases hst with rfl | rfl | rfl | rfl | rfl | rfl | rfl | rfl | rfl
  · cases event with
    | condition => exact .move nofun rfl rfl rfl (Or.inr nofun) nofun hinv
    | _ => exact .idle ⟨rfl, hinv⟩ rfl nofun
  · cases event with
    | condition => exact .idle ⟨rfl, hinv⟩ rfl nofun
    | receive pkt =>
      cases hp : pkt.isProtocolVersion with
      | true =>
        have hr : receiveProtoVersion pkt = pure (some .gotProtoVersion) := if_pos hp
        exact .move nofun (congrArg (Env.run _) hr) rfl rfl (Or.inr nofun) nofun hinv
      | false =>
        have hr : receiveProtoVersion pkt = pure (some .error) := if_neg (by simp [hp])
        exact .move nofun (congrArg (Env.run _) hr) rfl rfl (Or.inr nofun) nofun trivial
    | timeout => exact .retry rfl hinv nofun rfl
  · cases event with
    | condition => exact .move nofun rfl rfl rfl (Or.inr nofun) nofun hinv
    | _ => exact .idle ⟨rfl, hinv⟩ rfl nofun
  · cases event with
    | condition => exact .idle ⟨rfl, hinv⟩ rfl nofun
    | receive pkt =>
      cases hp : pkt.isOltVersion with
      | true =>
        have hr : receiveOltVersion pkt = pure (some .gotOltVersion) := if_pos hp
        exact .move nofun (congrArg (Env.run _) hr) rfl rfl (Or.inr nofun) nofun hinv
      | false =>
        have hr : receiveOltVersion pkt = pure (some .error) := if_neg (by simp [hp])
        exact .move nofun (congrArg (Env.run _) hr) rfl rfl (Or.inr nofun) nofun trivial
    | timeout => exact .retry rfl hinv nofun rfl
  · cases event with
    | timeout => exact .move nofun rfl rfl rfl (Or.inr nofun) nofun trivial
    | _ => exact .idle ⟨rfl, hinv⟩ rfl nofun
  · cases event with
    | condition => exact .idle ⟨rfl, hinv⟩ rfl nofun
    | receive pkt =>
      cases hp : pkt.isOltVersion with
      | true =>
        have hr : waitForKeepalive pkt = pure (some .initialized) := if_pos hp
        exact .move nofun (congrArg (Env.run _) hr) rfl rfl (Or.inr nofun) nofun trivial
      | false =>
        have hr : waitForKeepalive pkt = pure none := if_neg (by simp [hp])
        exact .idle ⟨rfl, hinv⟩ (congrArg (Env.run _) hr) nofun
    | timeout => exact .move nofun rfl rfl rfl (Or.inr nofun) nofun trivial
  · cases event <;> exact .idle ⟨rfl, hinv⟩ rfl nofun
  · cases event <;> exact .idle ⟨rfl, hinv⟩ rfl nofun
  · cases event <;> exact .idle ⟨rfl, hinv⟩ rfl nofun

/-- 送信の確認を待つはずの状態。condition ですぐに出る。 -/
theorem StepOk.query (h : OltInv env) (hst : env.self.state = .waiting .query) :
    StepOk env event := by
  have hinv := h.sendState
  unfold SendStateInv at hinv
  rw [hst] at hinv
  obtain ⟨hsome, hb, hheard⟩ := hinv
  have hc : condition env.self.state = some sendAddOlt := by rw [hst]; rfl
  cases event with
  | condition =>
    have hu : Unset env.flags := by
      intro c hc hset
      obtain ⟨x, hx, -⟩ := hb.heard c hc hset
      rw [hheard] at hx
      cases hx
    have hown : Phase.addOlt = .optics ↔ env.self.sendState = none :=
      iff_of_false nofun fun hnone => by simp [hnone] at hsome
    obtain ⟨hinv', hst', hconf⟩ := step_send h.alive hc rfl hu (by rw [hst]; nofun) hown nofun
    refine ⟨hinv', iff_of_false (fun hk => ?_) (not_not_intro ⟨hst, rfl⟩), hconf⟩
    obtain ⟨x, hx, -⟩ :=
      hk.heard .query hst (by rw [hst']; nofun) (by rw [hst']; nofun) 0 (by decide)
    rw [show (env.heardAfter .condition).heard = [] from hheard] at hx
    cases hx
  | receive pkt => exact .idle h (step_blocked h.alive hc nofun) fun hq => nomatch hq.2
  | timeout => exact .idle h (step_blocked h.alive hc nofun) fun hq => nomatch hq.2

/-- 応答を待つ状態。 -/
theorem StepOk.waiting (h : OltInv env) (hs : SafeStep env event)
    (hst : env.self.state = .waiting ph) : StepOk env event := by
  by_cases hph : ph = .query
  · exact .query h (hph ▸ hst)
  have hq : ¬LeavesQuery env event := by
    rintro ⟨hquery, -⟩
    rw [hst] at hquery
    cases hquery
    exact hph rfl
  have hc : condition env.self.state = none := by
    rw [hst]
    cases ph with
    | query => exact absurd rfl hph
    | _ => rfl
  cases event with
  | condition =>
    refine .idle h ?_ hq
    unfold Env.step
    rw [if_pos h.alive, hc]
  | receive pkt =>
    obtain ⟨hinv, hkeeps, hconf⟩ := step_receive_inv hph hst h hs
    exact ⟨hinv, iff_of_true hkeeps hq, hconf⟩
  | timeout =>
    by_cases hdba : ph = .dbaMode
    · have hnone : timeout env.self.state = none := by
        rw [hst, hdba]
        rfl
      exact .idle h (by simp [Env.step, h.alive, hc, hnone]) hq
    · have hfail : timeout env.self.state = some fail := by
        rw [hst]
        cases ph with
        | dbaMode => exact absurd rfl hdba
        | _ => rfl
      have hstep : env.step .timeout = env.run fail := by simp [Env.step, h.alive, hc, hfail]
      exact .move hq hstep h.alive rfl (Or.inl rfl) nofun trivial

/-- 乱されない一歩は、不変条件を保つ。約束が破れるのは、応答を待たずに段階を出るときに限る。 -/
theorem step_ok (h : OltInv env) (hs : SafeStep env event) : StepOk env event := by
  have hinv := h.sendState
  unfold SendStateInv at hinv
  cases hst : env.self.state with
  | waiting ph => exact .waiting h hs hst
  | gotOltVersion =>
    rw [hst] at hinv
    have hc : condition env.self.state = some (sendToChannels .optics) := by rw [hst]; rfl
    refine .send h hs hc (by rw [hst]; nofun) (fun hs => ?_) (iff_of_true rfl hinv) fun _ => hst
    unfold Env.flags
    rw [hinv]
    exact hs hst
  | got ph =>
    rw [hst] at hinv
    have hu : Unset env.flags := by
      unfold Env.flags
      rw [hinv]
      exact unset_nil
    have hsend : ∀ ph', condition (.got ph) = some (sendToChannels ph') → ph' ≠ .optics →
        StepOk env event := fun ph' hc hne =>
      .send h hs (by rw [hst]; exact hc) (by rw [hst]; nofun) (fun _ => hu)
        (iff_of_false hne (by rw [hinv]; nofun)) fun he => absurd he hne
    cases ph with
    | optics => exact hsend .ioOptics rfl nofun
    | ioOptics => exact hsend .query rfl nofun
    | addOlt => exact hsend .alarm rfl nofun
    | alarm => exact hsend .dbaMode rfl nofun
    | dbaMode => exact hsend .dbaStart rfl nofun
    | dbaStart => exact hsend .activation rfl nofun
    | query | activation => exact .simple h (by simp [hst])
  | _ => exact .simple h (by simp [hst])

end Step

/-! ## すべての instance -/

section World

variable {ι : Type} {w : World ι} {e : ι × Event}

/-- class の列を使うのは、optics の段階までである。 -/
theorem sendStateInv_shared {shared shared' : List Bool} {olt : Olt}
    (hne : olt.state ≠ .waiting .optics) (h : SendStateInv ⟨shared, olt⟩) :
    SendStateInv ⟨shared', olt⟩ := by
  have hbacked : olt.sendState.isSome = true → Backed ⟨shared, olt⟩ → Backed ⟨shared', olt⟩ := by
    intro hsome hb
    obtain ⟨l, hl⟩ := Option.isSome_iff_exists.mp hsome
    have hflags : Env.flags ⟨shared', olt⟩ = Env.flags ⟨shared, olt⟩ := by
      simp [Env.flags, hl]
    exact ⟨hflags ▸ hb.length, fun c hc hset => hb.heard c hc (hflags ▸ hset)⟩
  unfold SendStateInv at h ⊢
  simp only at h ⊢
  cases hst : olt.state with
  | waiting ph =>
    rw [hst] at h hne
    cases ph with
    | optics => exact absurd rfl hne
    | query => exact ⟨h.1, hbacked h.1 h.2.1, h.2.2⟩
    | _ => exact ⟨h.1, hbacked h.1 h.2⟩
  | _ =>
    rw [hst] at h
    exact h

/-- 全体の不変条件。optics の段階にいる instance は、多くて一つである。 -/
structure WorldInv (w : World ι) : Prop where
  olt : ∀ n, OltInv (w.env n)
  alone : ∀ n m, (w.olts n).state = .waiting .optics → (w.olts m).state = .waiting .optics → n = m

/-- 一歩が flag の表を乱さず、optics の段階に入るときは、他にいない。 -/
structure Safe (w : World ι) (e : ι × Event) : Prop where
  step : SafeStep (w.env e.1) e.2
  alone : e.2 = .condition → (w.olts e.1).state = .gotOltVersion →
    ∀ m, (w.olts m).state ≠ .waiting .optics

theorem worldInv_initial : WorldInv (World.initial (ι := ι)) where
  olt := fun _ => ⟨rfl, rfl⟩
  alone := nofun

variable [DecidableEq ι]

theorem WorldInv.step (h : WorldInv w) (hs : Safe w e) : WorldInv (w.step e) ∧
    (Keeps (w.env e.1) e.2 ↔ ¬LeavesQuery (w.env e.1) e.2) := by
  obtain ⟨hinv, hkeeps, hconf⟩ := step_ok (h.olt e.1) hs.step
  -- 他の instance が optics の段階にいるなら、class の列は変わらない
  have hother : ∀ m, m ≠ e.1 → (w.olts m).state = .waiting .optics →
      ((w.env e.1).step e.2).shared = w.shared := by
    intro m hm hst
    rcases hconf.shared with hsh | hopt | ⟨hgot, hev⟩
    · exact hsh
    · exact absurd (h.alone m e.1 hst hopt) hm
    · exact absurd hst (hs.alone hev hgot m)
  refine ⟨⟨fun n => ?_, fun n m hn hm => ?_⟩, hkeeps⟩
  · by_cases hne : n = e.1
    · subst hne
      have hself : (w.step e).env e.1 = (w.env e.1).step e.2 := by
        simp [World.env, World.step]
      rwa [hself]
    · have hothers : (w.step e).env n = ⟨((w.env e.1).step e.2).shared, w.olts n⟩ := by
        simp [World.env, World.step, hne]
      rw [hothers]
      refine ⟨(h.olt n).alive, ?_⟩
      by_cases hopt : (w.olts n).state = .waiting .optics
      · rw [hother n hne hopt]
        exact (h.olt n).sendState
      · exact sendStateInv_shared hopt (h.olt n).sendState
  · -- 新しく optics の段階に入るのは、他にいないときである
    have hnew : ∀ k, ((w.step e).olts k).state = .waiting .optics → k ≠ e.1 →
        ((w.step e).olts e.1).state ≠ .waiting .optics := by
      intro k hk hne hself
      have hk' : (w.olts k).state = .waiting .optics := by
        simpa [World.step, hne] using hk
      have hself' : ((w.env e.1).step e.2).self.state = .waiting .optics := by
        simpa [World.step] using hself
      rcases hconf.enters hself' with hopt | ⟨hgot, hev⟩
      · exact hne (h.alone k e.1 hk' hopt)
      · exact hs.alone hev hgot k hk'
    by_cases hn1 : n = e.1
    · by_cases hm1 : m = e.1
      · rw [hn1, hm1]
      · exact absurd (hn1 ▸ hn) (hnew m hm hm1)
    · by_cases hm1 : m = e.1
      · exact absurd (hm1 ▸ hm) (hnew n hn hn1)
      · refine h.alone n m ?_ ?_
        · simpa [World.step, hn1] using hn
        · simpa [World.step, hm1] using hm

/-- 乱されない一歩の列は、不変条件を保つ。 -/
theorem WorldInv.run {es : List (ι × Event)} (h : WorldInv w)
    (hs : Steps.Each World.step Safe w es) : WorldInv (es.foldl World.step w) := by
  induction es generalizing w with
  | nil => exact h
  | cons e es ih => exact ih (h.step hs.1).1 hs.2

/--
**どの段階も、四つの channel の応答を受け取ってから次へ進む。**

それまでのどの一歩も flag の表を乱していないとき、乱さない一歩で約束が保たれるのは、その一歩が
`wait_query_response` から応答を待たずに出るのでないときに限る。したがって、どの一歩も flag の表を乱さず、
`wait_query_response` から待たずに出ることもない列では、約束はいつも保たれる。
-/
theorem bring_up_keeps_iff :
    (∀ (es : List (ι × Event)) (e : ι × Event), Steps.Each World.step Safe World.initial es →
      Safe (es.foldl World.step World.initial) e →
      (Keeps ((es.foldl World.step World.initial).env e.1) e.2 ↔
        ¬LeavesQuery ((es.foldl World.step World.initial).env e.1) e.2)) ∧
    ∀ es : List (ι × Event),
      Steps.Each World.step (fun w e => Safe w e ∧ ¬LeavesQuery (w.env e.1) e.2) World.initial es →
      Steps.Each World.step (fun w e => Keeps (w.env e.1) e.2) World.initial es := by
  have hpoint : ∀ (es : List (ι × Event)) (e : ι × Event),
      Steps.Each World.step Safe World.initial es →
      Safe (es.foldl World.step World.initial) e →
      (Keeps ((es.foldl World.step World.initial).env e.1) e.2 ↔
        ¬LeavesQuery ((es.foldl World.step World.initial).env e.1) e.2) :=
    fun es e hpast hs => ((worldInv_initial.run hpast).step hs).2
  refine ⟨hpoint, fun es h => ?_⟩
  obtain ⟨hs, hq⟩ := Steps.each_and.mp h
  rw [Steps.each_iff_split]
  rintro pre e post rfl
  obtain ⟨hpast, hstep, -⟩ := Steps.each_append.mp hs
  exact (hpoint pre e hpast hstep).mpr (Steps.each_iff_split.mp hq pre e post rfl)

end World

/-! ## 例 -/

section Runs

/-- `opcode` と `channel_id` だけの message。 -/
def message (opcode : Nat) (channelId : Int16) : Packet := ⟨opcode, channelId, 0, 0⟩

/-- 一つだけの instance に起きること。 -/
def single (es : List Event) : List (Unit × Event) := es.map fun e => ((), e)

/-- 版の確認。 -/
def versionRun : List Event :=
  [.condition, .receive (message 0x2802 (-1)), .condition, .receive (message 0x3803 (-1))]

/-- 要求を送り、四つの応答を受け取る。 -/
def phaseRun (ph : Phase) : List Event :=
  [.condition] ++ [0, 1, 2, 3].map fun c => Event.receive (message ph.opcode c)

instance (l : List Bool) (channelId : Int16) : Decidable (HitsOwnFlag l channelId) :=
  inferInstanceAs (Decidable (∃ j ∈ resolve l channelId.toInt,
    j ∈ CHANNELS → l[j]? = some true ∨ channelId.toInt = j))

instance (l : List Bool) : Decidable (Unset l) :=
  inferInstanceAs (Decidable (∀ c ∈ CHANNELS, l[c]? ≠ some true))

instance (env : Env) (event : Event) : Decidable (LeavesQuery env event) :=
  inferInstanceAs (Decidable (env.self.state = .waiting .query ∧ event = .condition))

/-- 版の確認と optics の段階では、約束は保たれる。 -/
theorem bring_up_keeps_optics :
    Steps.Each World.step (fun w e => Keeps (w.env e.1) e.2) World.initial
      (single (versionRun ++ phaseRun .optics)) := by
  refine bring_up_keeps_iff.2 _ (Steps.each_and.mpr ⟨?_, ?_⟩)
  · refine ⟨⟨nofun, nofun⟩, ⟨nofun, nofun⟩, ⟨nofun, nofun⟩, ⟨nofun, nofun⟩,
      ⟨fun _ => by decide, fun _ _ m => by cases m; decide⟩, ?_, ?_, ?_, ?_, trivial⟩
    all_goals exact ⟨fun ph hph _ => by cases hph; decide, nofun⟩
  · refine ⟨?_, ?_, ?_, ?_, ?_, ?_, ?_, ?_, ?_, trivial⟩ <;> decide

/-- `wait_query_response` からは、応答を一つも受け取らずに `AddOltChannel` を送る。 -/
theorem add_olt_before_query : ¬Steps.Each World.step (fun w e => Keeps (w.env e.1) e.2)
    World.initial (single (versionRun ++ phaseRun .optics ++ phaseRun .ioOptics ++
      [.condition, .condition])) := by
  rintro ⟨-, -, -, -, -, -, -, -, -, -, -, -, -, -, -, h, -⟩
  obtain ⟨x, hx, -⟩ := h.heard .query rfl (by decide) (by decide) 0 (by decide)
  exact List.not_mem_nil hx

end Runs

end Voltha.Microsemi
