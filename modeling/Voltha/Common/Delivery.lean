import Mathlib.Data.List.Nodup
import Voltha.Common.MessageQueue
import Voltha.Lib.Exec
import Voltha.Lib.Steps

/-!
# 待ち行列の取り消しと `reset`

`common/utils/message_queue.py` の残り。待ちを取り消す `_cancelGet` と、
待ち手をすべて errback してから中身を捨てる `reset`。

`_cancelGet` の loop は、数え始めの長さだけ回りながら同じ列から pop する。
**取り消す待ち手が列の最後にいるとき**だけ、例外なしに終わる（`cancelGet_exact_iff`）。

`put` と `get` と取り消しは、callback を呼ぶより先に列を書き終える。
callback が `put` や `get` を呼んでも、操作が順に並んだだけである。
途中で callback を呼ぶのは `reset` だけで、errback 済みの待ち手を列に残したまま次へ進む。
その間の `put` が済んだ待ち手に当たると message は失われる。
**それが起きない限り、message は失われず、重複せず、取り残されない**（`accounted_iff`）。
-/

namespace Voltha.Common

variable {Msg D : Type}

/-- 列の外を引いたときの例外。 -/
inductive QueueError where
  | indexError
  deriving DecidableEq

namespace MessageQueue

section Cancel

variable [DecidableEq D]

/-- `_cancelGet` の loop の一周。 -/
def cancelRound (d : D) (i : Nat) : Exec (MessageQueue Msg D) QueueError Unit := do
  let q ← Exec.read
  let w ← Exec.ofOption .indexError q.waiting[i]?
  -- `break` は無い。pop のあとも loop は続く
  if w.1 = d then
    Exec.modify fun q => { q with waiting := q.waiting.eraseIdx i }
  else
    pure ()

/-- `_cancelGet(d)`。 -/
def cancelGet (d : D) : Exec (MessageQueue Msg D) QueueError Unit := do
  let q ← Exec.read
  let _ ← Exec.mapList (cancelRound d) (List.range q.waiting.length)
  pure ()

/-- 残りの周。`i` 周目から `n` 周。 -/
def cancelRounds (d : D) (i n : Nat) : Exec (MessageQueue Msg D) QueueError (List Unit) :=
  Exec.mapList (cancelRound d) (List.range' i n)

theorem cancelRound_of_none {d : D} {i : Nat} {q : MessageQueue Msg D}
    (h : q.waiting[i]? = none) : cancelRound d i q = (.error .indexError, q) := by
  simp [cancelRound, h]

theorem cancelRound_of_ne {d : D} {i : Nat} {q : MessageQueue Msg D} {w : D × Option (Msg → Bool)}
    (h : q.waiting[i]? = some w) (hne : w.1 ≠ d) : cancelRound d i q = (.ok (), q) := by
  simp [cancelRound, h, hne]

theorem cancelRound_of_eq {d : D} {i : Nat} {q : MessageQueue Msg D} {w : D × Option (Msg → Bool)}
    (h : q.waiting[i]? = some w) (heq : w.1 = d) :
    cancelRound d i q = (.ok (), { q with waiting := q.waiting.eraseIdx i }) := by
  simp [cancelRound, h, heq]

theorem cancelRounds_succ {d : D} {i n : Nat} {q q' : MessageQueue Msg D}
    (h : cancelRound d i q = (.ok (), q')) :
    (cancelRounds d i (n + 1) q).1.isOk = (cancelRounds d (i + 1) n q').1.isOk ∧
    (cancelRounds d i (n + 1) q).2 = (cancelRounds d (i + 1) n q').2 := by
  have hstep : cancelRounds d i (n + 1) q
      = (do let bs ← cancelRounds d (i + 1) n; pure (() :: bs) : Exec _ _ _) q' := by
    show (do let b ← cancelRound d i; let bs ← cancelRounds d (i + 1) n; pure (b :: bs)
      : Exec _ _ _) q = _
    exact Exec.bind_ok h
  rw [hstep, Exec.bind_apply]
  rcases cancelRounds d (i + 1) n q' with ⟨_ | _, _⟩ <;> exact ⟨rfl, rfl⟩

theorem cancelRounds_of_error {d : D} {i n : Nat} {q : MessageQueue Msg D}
    (h : cancelRound d i q = (.error .indexError, q)) :
    cancelRounds d i (n + 1) q = (.error .indexError, q) :=
  Exec.bind_error h

/-- 列が残りの周より短ければ、loop は必ず列の外を引く。 -/
theorem cancelRounds_short (d : D) (i n : Nat) (q : MessageQueue Msg D)
    (h : q.waiting.length ≤ i + n) : (cancelRounds d i (n + 1) q).1.isOk = false := by
  induction n generalizing i q with
  | zero => rw [cancelRounds_of_error (cancelRound_of_none (by simpa using h))]; rfl
  | succ n ih =>
    rcases hw : q.waiting[i]? with _ | w
    · rw [cancelRounds_of_error (cancelRound_of_none hw)]
      rfl
    · by_cases hd : w.1 = d
      · rw [(cancelRounds_succ (cancelRound_of_eq hw hd)).1]
        refine ih (i + 1) _ ?_
        have hlen := List.length_eraseIdx_le q.waiting i
        show (q.waiting.eraseIdx i).length ≤ _
        omega
      · rw [(cancelRounds_succ (cancelRound_of_ne hw hd)).1]
        exact ih (i + 1) q (by omega)

/-- この先に `d` の待ち手がいなければ、列は変わらない。 -/
theorem cancelRounds_absent (d : D) (i n : Nat) (q : MessageQueue Msg D)
    (h : ∀ w ∈ q.waiting.drop i, w.1 ≠ d) : (cancelRounds d i n q).2 = q := by
  induction n generalizing i with
  | zero => rfl
  | succ n ih =>
    rcases hw : q.waiting[i]? with _ | w
    · rw [cancelRounds_of_error (cancelRound_of_none hw)]
    · obtain ⟨hi, hwi⟩ := List.getElem?_eq_some_iff.mp hw
      rw [List.drop_eq_getElem_cons hi, hwi] at h
      rw [(cancelRounds_succ (cancelRound_of_ne hw (h w List.mem_cons_self))).2]
      exact ih (i + 1) fun w hw => h w (List.mem_cons_of_mem _ hw)

/-- 済んだ待ち手 `pre` のあとの loop。例外が出ないのは、`d` がいても最後のときだけである。 -/
theorem cancelRounds_isOk (d : D) (pre rest : List (D × Option (Msg → Bool)))
    (queue : List Msg) :
    (cancelRounds d pre.length rest.length ⟨pre ++ rest, queue⟩).1.isOk = true ↔
      d ∉ rest.dropLast.map Prod.fst := by
  induction rest generalizing pre with
  | nil => exact iff_of_true rfl (by simp)
  | cons w rest ih =>
    have hw : (pre ++ w :: rest)[pre.length]? = some w := by simp
    have happ : pre ++ w :: rest = (pre ++ [w]) ++ rest := by simp
    by_cases hd : w.1 = d
    · rw [List.length_cons, (cancelRounds_succ (cancelRound_of_eq hw hd)).1,
        List.eraseIdx_append_of_length_le (Nat.le_refl _)]
      cases rest with
      | nil => exact iff_of_true rfl (by simp)
      | cons w' rest =>
        -- pop した分だけ短くなったので、最後の周は列の外に出る
        rw [List.length_cons, cancelRounds_short _ _ _ _ (by simp; omega)]
        simp [hd]
    · have hnext := ih (pre ++ [w])
      rw [List.length_cons, (cancelRounds_succ (cancelRound_of_ne hw hd)).1, happ]
      rw [List.length_append, List.length_singleton] at hnext
      rw [hnext]
      cases rest with
      | nil => simp
      | cons w' rest => simp [Ne.symm hd]

/-- 例外が出ても出なくても、消えるのは `d` の待ち手だけである。 -/
theorem cancelRounds_waiting (d : D) (pre rest : List (D × Option (Msg → Bool)))
    (queue : List Msg) (hcount : (rest.map Prod.fst).count d ≤ 1) :
    (cancelRounds d pre.length rest.length ⟨pre ++ rest, queue⟩).2
      = ⟨pre ++ rest.filter fun w => w.1 ≠ d, queue⟩ := by
  induction rest generalizing pre with
  | nil => rfl
  | cons w rest ih =>
    have hw : (pre ++ w :: rest)[pre.length]? = some w := by simp
    have happ : pre ++ w :: rest = (pre ++ [w]) ++ rest := by simp
    rw [List.map_cons, List.count_cons] at hcount
    by_cases hd : w.1 = d
    · have hrest : ∀ x ∈ rest, x.1 ≠ d := by
        intro x hx he
        rw [if_pos (by simp [hd])] at hcount
        have hpos : 0 < (rest.map Prod.fst).count d :=
          List.count_pos_iff.mpr (he ▸ List.mem_map_of_mem hx)
        omega
      rw [List.length_cons, (cancelRounds_succ (cancelRound_of_eq hw hd)).2,
        List.eraseIdx_append_of_length_le (Nat.le_refl _)]
      simp only [Nat.sub_self, List.eraseIdx_cons_zero]
      rw [cancelRounds_absent d _ _ _ fun x hx => hrest x ?_,
        List.filter_cons_of_neg (by simp [hd]), List.filter_eq_self.mpr (by simpa using hrest)]
      rw [show (pre ++ rest).drop (pre.length + 1) = rest.drop 1 by
        rw [List.drop_append]; simp] at hx
      exact List.mem_of_mem_drop hx
    · have hnext := ih (pre ++ [w]) (by omega)
      rw [List.length_append, List.length_singleton] at hnext
      rw [List.length_cons, (cancelRounds_succ (cancelRound_of_ne hw hd)).2, happ, hnext,
        List.filter_cons_of_pos (by simp [hd])]
      simp

theorem cancelGet_apply (d : D) (q : MessageQueue Msg D) :
    cancelGet d q = (do let _ ← cancelRounds d 0 q.waiting.length; pure () : Exec _ _ _) q := by
  rw [cancelRounds, ← List.range_eq_range']
  rfl

theorem cancelGet_isOk (d : D) (q : MessageQueue Msg D) :
    (cancelGet d q).1 = .ok () ↔ d ∉ q.waiting.dropLast.map Prod.fst := by
  rw [← cancelRounds_isOk d [] q.waiting q.queue, List.nil_append, cancelGet_apply,
    Exec.bind_apply]
  show _ ↔ (cancelRounds d 0 q.waiting.length q).1.isOk = true
  rcases cancelRounds d 0 q.waiting.length q with ⟨_ | _, _⟩ <;> simp [Except.isOk, Except.toBool]

theorem cancelGet_snd (d : D) (q : MessageQueue Msg D) (h : (q.waiting.map Prod.fst).count d ≤ 1) :
    (cancelGet d q).2 = { q with waiting := q.waiting.filter fun w => w.1 ≠ d } := by
  have hrounds := cancelRounds_waiting d [] q.waiting q.queue h
  rw [List.nil_append, List.nil_append] at hrounds
  rw [← hrounds, cancelGet_apply, Exec.bind_apply]
  show _ = (cancelRounds d 0 q.waiting.length q).2
  rcases cancelRounds d 0 q.waiting.length q with ⟨_ | _, _⟩ <;> rfl

/-- **取り消しは、`d` が最後の待ち手のときだけ**例外なしに終わり、`d` だけを順を変えずに外す。 -/
theorem cancelGet_exact_iff (d : D) (q : MessageQueue Msg D) :
    cancelGet d q = (.ok (), { q with waiting := q.waiting.filter fun w => w.1 ≠ d }) ↔
      d ∉ q.waiting.dropLast.map Prod.fst := by
  rw [← cancelGet_isOk]
  refine ⟨fun h => by rw [h], fun h => Prod.ext h (cancelGet_snd d q ?_)⟩
  rw [cancelGet_isOk] at h
  rcases List.eq_nil_or_concat q.waiting with hq | ⟨pre, w, hq⟩
  · simp [hq]
  · rw [hq, List.concat_eq_append, List.dropLast_concat] at h
    rw [hq, List.concat_eq_append, List.map_append, List.count_append,
      List.count_eq_zero.mpr h, Nat.zero_add]
    exact List.count_le_length

end Cancel

end MessageQueue

open MessageQueue in
/-- 二人の待ち手の先の方を取り消すと、列の外を引く。 -/
theorem cancelGet_first_of_two :
    ¬ cancelGet 0 (⟨[(0, none), (1, none)], []⟩ : MessageQueue Nat Nat) =
      (.ok (), ⟨[(1, none)], []⟩) := by
  intro h
  have hraise : (cancelGet 0 (⟨[(0, none), (1, none)], []⟩ : MessageQueue Nat Nat)).1
      = .error .indexError := by rfl
  rw [h] at hraise
  cases hraise

/-! ## `put` と `get` のしたこと -/

/-- 前から探して見つけた位置。 -/
theorem findIdx_cases {α : Type} (p : α → Bool) (l : List α) :
    ((∀ a ∈ l, p a = false) ∧ l.findIdx? p = none) ∨
    ∃ pre a post, l = pre ++ a :: post ∧ (∀ b ∈ pre, p b = false) ∧ p a = true ∧
      l.findIdx? p = some pre.length := by
  induction l with
  | nil => exact Or.inl ⟨nofun, rfl⟩
  | cons a l ih =>
    cases ha : p a with
    | true => exact Or.inr ⟨[], a, l, rfl, nofun, ha, by simp [List.findIdx?_cons, ha]⟩
    | false =>
      rcases ih with ⟨hnone, hfind⟩ | ⟨pre, b, post, rfl, hpre, hb, hfind⟩
      · refine Or.inl ⟨fun x hx => ?_, by simp [List.findIdx?_cons, ha, hfind]⟩
        rcases List.mem_cons.mp hx with rfl | hx
        · exact ha
        · exact hnone x hx
      · refine Or.inr ⟨a :: pre, b, post, rfl, fun x hx => ?_, hb,
          by simp [List.findIdx?_cons, ha, hfind]⟩
        rcases List.mem_cons.mp hx with rfl | hx
        · exact ha
        · exact hpre x hx

namespace MessageQueue

/-- `put` は、列に貯めるか、条件に合う最初の待ち手を外すかのどちらかである。 -/
theorem put_cases (q : MessageQueue Msg D) (obj : Msg) :
    ((∀ w ∈ q.waiting, accepts w.2 obj = false) ∧
      q.put obj = ({ q with queue := q.queue ++ [obj] }, none)) ∨
    ∃ pre w post, q.waiting = pre ++ w :: post ∧ accepts w.2 obj = true ∧
      (∀ x ∈ pre, accepts x.2 obj = false) ∧
      q.put obj = ({ q with waiting := pre ++ post }, some (w.1, obj)) := by
  rcases findIdx_cases (fun w => accepts w.2 obj) q.waiting with
    ⟨hnone, hfind⟩ | ⟨pre, w, post, hw, hpre, hacc, hfind⟩
  · exact Or.inl ⟨hnone, by simp [put, hfind]⟩
  · refine Or.inr ⟨pre, w, post, hw, hacc, hpre, ?_⟩
    simp only [put, hfind]
    simp [hw, List.eraseIdx_append_of_length_le]

/-- `get` は、待ち手になるか、条件に合う最初の message を外すかのどちらかである。 -/
theorem get_cases (q : MessageQueue Msg D) (d : D) (predicate : Option (Msg → Bool)) :
    ((∀ msg ∈ q.queue, accepts predicate msg = false) ∧
      q.get d predicate = ({ q with waiting := q.waiting ++ [(d, predicate)] }, none)) ∨
    ∃ pre msg post, q.queue = pre ++ msg :: post ∧ accepts predicate msg = true ∧
      (∀ m ∈ pre, accepts predicate m = false) ∧
      q.get d predicate = ({ q with queue := pre ++ post }, some (d, msg)) := by
  rcases findIdx_cases (accepts predicate) q.queue with
    ⟨hnone, hfind⟩ | ⟨pre, msg, post, hq, hpre, hacc, hfind⟩
  · exact Or.inl ⟨hnone, by simp [get, hfind]⟩
  · refine Or.inr ⟨pre, msg, post, hq, hacc, hpre, ?_⟩
    simp only [get, hfind]
    simp [hq, List.eraseIdx_append_of_length_le]

end MessageQueue

/-! ## callback の入り乱れる実行 -/

/-- `get` に渡った message と、そのとき取れた message を届いた順に並べた列。 -/
structure Delivery (Msg : Type) where
  d : Nat
  available : List Msg
  msg : Msg

/--
待ち行列と、それまでに起きたこと。

Deferred は作られた順の番号で、`asked[d]` が `d` を返した `get` の条件である。
`called` は callback か errback の済んだ Deferred、
`resetting` は `reset` の loop が次に見る位置で、loop の外では `none`。
-/
structure Run (Msg : Type) where
  q : MessageQueue Msg Nat
  asked : List (Option (Msg → Bool))
  called : List Nat
  resetting : Option Nat
  puts : List Msg
  deliveries : List (Delivery Msg)
  purged : List Msg

/-- 一つの操作。`resume` で、errback の callback から `reset` の loop へ戻る。 -/
inductive QueueEvent (Msg : Type) where
  | put (obj : Msg)
  | get (predicate : Option (Msg → Bool))
  | cancel (d : Nat)
  | reset
  | resume

namespace Run

def initial : Run Msg := ⟨.empty, [], [], none, [], [], []⟩

/-- `put(obj)`。呼び済みの Deferred への `callback` は `AlreadyCalledError` になる。 -/
def put (s : Run Msg) (obj : Msg) : Run Msg :=
  match s.q.put obj with
  | (q, none) => { s with q := q, puts := s.puts ++ [obj] }
  | (q, some (d, msg)) =>
    if d ∈ s.called then
      { s with q := q, puts := s.puts ++ [obj] }
    else
      { s with
        q := q
        puts := s.puts ++ [obj]
        called := d :: s.called
        deliveries := s.deliveries ++ [⟨d, s.q.queue ++ [obj], msg⟩] }

/-- `get(predicate)`。すぐに取れたときの Deferred は `succeed(msg)` である。 -/
def get (s : Run Msg) (predicate : Option (Msg → Bool)) : Run Msg :=
  match s.q.get s.asked.length predicate with
  | (q, none) => { s with q := q, asked := s.asked ++ [predicate] }
  | (q, some (d, msg)) =>
    { s with
      q := q
      asked := s.asked ++ [predicate]
      called := d :: s.called
      deliveries := s.deliveries ++ [⟨d, s.q.queue, msg⟩] }

/-- `d.cancel()`。`_cancelGet` が例外を出せば、`CancelledError` の errback には至らない。 -/
def cancel (s : Run Msg) (d : Nat) : Run Msg :=
  if d ∈ s.called ∨ s.asked.length ≤ d then
    s
  else
    match MessageQueue.cancelGet d s.q with
    | (.ok _, q) => { s with q := q, called := d :: s.called }
    | (.error _, q) => { s with q := q }

/-- `reset` の loop の `i` 周目。列の終わりに着いたら、列を捨てて終わる。 -/
def errback (s : Run Msg) (i : Nat) : Run Msg :=
  match s.q.waiting[i]? with
  | some w =>
    if w.1 ∈ s.called then
      -- `AlreadyCalledError` で loop を抜け、列は残る
      { s with resetting := none }
    else
      { s with called := w.1 :: s.called, resetting := some (i + 1) }
  | none => { s with q := .empty, resetting := none, purged := s.purged ++ s.q.queue }

/-- 一歩。 -/
def step (s : Run Msg) : QueueEvent Msg → Run Msg
  | .put obj => s.put obj
  | .get predicate => s.get predicate
  | .cancel d => s.cancel d
  | .reset =>
    match s.resetting with
    | none => s.errback 0
    -- callback から呼ばれた `reset` は、先頭が呼び済みなので何もせずに例外で終わる
    | some _ => s
  | .resume =>
    match s.resetting with
    | none => s
    | some i => s.errback i

/-- message の失われも、重複も、取り残しも無い。 -/
structure Accounted (s : Run Msg) : Prop where
  /-- 列の message は、どの待ち手の条件にも合わない。 -/
  apart : ∀ msg ∈ s.q.queue, ∀ w ∈ s.q.waiting, accepts w.2 msg = false
  /-- 入れた message は、渡ったか、列にあるか、`reset` で捨てられたかである。 -/
  conserved : (s.deliveries.map Delivery.msg ++ s.q.queue ++ s.purged).Perm s.puts
  /-- 一つの `get` に渡るのは一つまで。 -/
  once : (s.deliveries.map Delivery.d).Nodup
  /-- 渡るのは、そのとき取れたうちで、条件に合う最も古いもの。 -/
  oldest : ∀ x ∈ s.deliveries, ∃ predicate, s.asked[x.d]? = some predicate ∧
    x.available.Sublist s.puts ∧ x.available.find? (accepts predicate) = some x.msg

/-- `put` する message を、errback の済んだ待ち手が受け取らない。 -/
def NotStale (s : Run Msg) : QueueEvent Msg → Prop
  | .put obj => ∀ w ∈ s.q.waiting, w.1 ∈ s.called → accepts w.2 obj = false
  | _ => True

/-- 待ち手の列のうち、初めの `n` 人だけが呼び済みである。 -/
def FiredPrefix (waiting : List (Nat × Option (Msg → Bool))) (called : List Nat) (n : Nat) : Prop :=
  ∃ fired pending, waiting = fired ++ pending ∧ fired.length = n ∧
    (∀ w ∈ fired, w.1 ∈ called) ∧ ∀ w ∈ pending, w.1 ∉ called

/-- 証明のための不変条件。`reset` の間は、列の前の部分だけが errback 済みである。 -/
structure Sound (s : Run Msg) : Prop where
  asked : ∀ w ∈ s.q.waiting, s.asked[w.1]? = some w.2
  nodup : (s.q.waiting.map Prod.fst).Nodup
  called : ∀ d ∈ s.called, d < s.asked.length
  delivered : ∀ x ∈ s.deliveries, x.d ∈ s.called
  arrival : s.q.queue.Sublist s.puts
  fired : FiredPrefix s.q.waiting s.called (s.resetting.getD 0)

theorem FiredPrefix.filter {waiting : List (Nat × Option (Msg → Bool))} {called : List Nat}
    {n d : Nat} (h : FiredPrefix waiting called n) (hd : d ∉ called) :
    FiredPrefix (waiting.filter fun w => w.1 ≠ d) called n := by
  obtain ⟨fired, pending, rfl, hlen, hfired, hpending⟩ := h
  have hkeep : fired.filter (fun w => w.1 ≠ d) = fired :=
    List.filter_eq_self.mpr fun w hw => by
      simpa using fun he : w.1 = d => hd (he ▸ hfired w hw)
  refine ⟨fired, pending.filter fun w => w.1 ≠ d, ?_, hlen, hfired, ?_⟩
  · rw [List.filter_append, hkeep]
  · exact fun w hw => hpending w (List.mem_of_mem_filter hw)

/-- 外した待ち手は、呼び済みに加えてもよい。 -/
theorem FiredPrefix.filter_cons {waiting : List (Nat × Option (Msg → Bool))} {called : List Nat}
    {n d : Nat} (h : FiredPrefix waiting called n) (hd : d ∉ called) :
    FiredPrefix (waiting.filter fun w => w.1 ≠ d) (d :: called) n := by
  obtain ⟨fired, pending, hw, hlen, hfired, hpending⟩ := h.filter hd
  refine ⟨fired, pending, hw, hlen, fun w hw => List.mem_cons_of_mem _ (hfired w hw), ?_⟩
  intro w hmem
  have hne : w.1 ≠ d := by
    have := List.of_mem_filter (hw ▸ List.mem_append_right fired hmem)
    simpa using this
  simpa [hne] using hpending w hmem

/-- 一人の待ち手を外した列。 -/
theorem filter_ne_eq {pre post : List (Nat × Option (Msg → Bool))} {w : Nat × Option (Msg → Bool)}
    (h : ((pre ++ w :: post).map Prod.fst).Nodup) :
    (pre ++ w :: post).filter (fun x => x.1 ≠ w.1) = pre ++ post := by
  have hother : ∀ x ∈ pre ++ post, x.1 ≠ w.1 := by
    rw [List.map_append, List.map_cons, List.nodup_middle, List.nodup_cons, ← List.map_append] at h
    intro x hx he
    exact h.1 (he ▸ List.mem_map_of_mem hx)
  rw [List.filter_append, List.filter_cons_of_neg (by simp), ← List.filter_append]
  exact List.filter_eq_self.mpr fun x hx => by simpa using hother x hx

section Steps

variable {s : Run Msg}

/-- 待ち手 `d` を列から外しただけの状態。 -/
theorem Accounted.without (h : s.Accounted) (d : Nat) :
    Accounted { s with q := { s.q with waiting := s.q.waiting.filter fun w => w.1 ≠ d } } where
  apart msg hmsg w hw := h.apart msg hmsg w (List.mem_of_mem_filter hw)
  conserved := h.conserved
  once := h.once
  oldest := h.oldest

theorem Sound.without (h : s.Sound) {d : Nat} (hd : d ∉ s.called) :
    Sound { s with q := { s.q with waiting := s.q.waiting.filter fun w => w.1 ≠ d } } where
  asked w hw := h.asked w (List.mem_of_mem_filter hw)
  nodup := h.nodup.sublist (List.filter_sublist.map _)
  called := h.called
  delivered := h.delivered
  arrival := h.arrival
  fired := h.fired.filter hd

/-- `d` を外して呼び済みにした状態。 -/
theorem Sound.fire (h : s.Sound) {d : Nat} (hd : d ∉ s.called) (hlt : d < s.asked.length) :
    Sound { s with
      q := { s.q with waiting := s.q.waiting.filter fun w => w.1 ≠ d }
      called := d :: s.called } where
  asked w hw := h.asked w (List.mem_of_mem_filter hw)
  nodup := h.nodup.sublist (List.filter_sublist.map _)
  called x hx := by
    rcases List.mem_cons.mp hx with rfl | hx
    · exact hlt
    · exact h.called x hx
  delivered x hx := List.mem_cons_of_mem _ (h.delivered x hx)
  arrival := h.arrival
  fired := h.fired.filter_cons hd

theorem cancel_keeps (d : Nat) (hs : s.Sound) (h : s.Accounted) :
    (s.cancel d).Sound ∧ (s.cancel d).Accounted := by
  by_cases hd : d ∈ s.called ∨ s.asked.length ≤ d
  · rw [cancel, if_pos hd]
    exact ⟨hs, h⟩
  · rw [cancel, if_neg hd]
    obtain ⟨hcalled, hlt⟩ := not_or.mp hd
    have hq := MessageQueue.cancelGet_snd d s.q (List.nodup_iff_count_le_one.mp hs.nodup d)
    rcases hc : MessageQueue.cancelGet d s.q with ⟨_ | _, q⟩ <;> rw [hc] at hq <;> subst hq
    · exact ⟨hs.without hcalled, h.without d⟩
    · exact ⟨hs.fire hcalled (Nat.lt_of_not_le hlt), (h.without d).apart, h.conserved, h.once,
        h.oldest⟩

theorem errback_keeps (hs : s.Sound) (h : s.Accounted) :
    (s.errback (s.resetting.getD 0)).Sound ∧ (s.errback (s.resetting.getD 0)).Accounted := by
  obtain ⟨fired, pending, hw, hlen, hfired, hpending⟩ := hs.fired
  have hat : s.q.waiting[s.resetting.getD 0]? = pending.head? := by
    rw [hw, ← hlen, List.getElem?_append_right (Nat.le_refl _), Nat.sub_self,
      List.head?_eq_getElem?]
  unfold errback
  rw [hat]
  cases pending with
  | nil =>
    -- 列を捨てる
    refine ⟨⟨nofun, List.nodup_nil, hs.called, hs.delivered, List.nil_sublist _, ?_⟩,
      ⟨nofun, ?_, h.once, h.oldest⟩⟩
    · exact ⟨[], [], rfl, rfl, nofun, nofun⟩
    · show (s.deliveries.map Delivery.msg ++ [] ++ (s.purged ++ s.q.queue)).Perm s.puts
      rw [List.append_nil]
      refine List.Perm.trans ?_ h.conserved
      rw [List.append_assoc]
      exact List.Perm.append_left _ List.perm_append_comm
  | cons w pending =>
    have hw' : w ∈ s.q.waiting := hw ▸ List.mem_append_right fired List.mem_cons_self
    have hnew : w.1 ∉ s.called := hpending w List.mem_cons_self
    simp only [List.head?_cons, if_neg hnew]
    refine ⟨⟨hs.asked, hs.nodup, ?_, fun x hx => List.mem_cons_of_mem _ (hs.delivered x hx),
      hs.arrival, ?_⟩, ⟨h.apart, h.conserved, h.once, h.oldest⟩⟩
    · intro d hd
      rcases List.mem_cons.mp hd with rfl | hd
      · exact (List.getElem?_eq_some_iff.mp (hs.asked w hw')).1
      · exact hs.called d hd
    · refine ⟨fired ++ [w], pending, by simp [hw], by simp [hlen], ?_, ?_⟩
      · intro x hx
        rcases List.mem_append.mp hx with hx | hx
        · exact List.mem_cons_of_mem _ (hfired x hx)
        · rw [List.mem_singleton.mp hx]
          exact List.mem_cons_self
      · intro x hx hmem
        have hnodup := hs.nodup
        rw [hw, List.map_append, List.map_cons, List.nodup_middle, List.nodup_cons] at hnodup
        rcases List.mem_cons.mp hmem with he | hmem
        · exact hnodup.1 (he ▸ List.mem_append_right _ (List.mem_map_of_mem hx))
        · exact hpending x (List.mem_cons_of_mem _ hx) hmem

/-- `get` の前からある記録は、条件の列が伸びても同じものを指す。 -/
theorem oldest_get (h : s.Accounted) (predicate : Option (Msg → Bool)) :
    ∀ x ∈ s.deliveries, ∃ p, (s.asked ++ [predicate])[x.d]? = some p ∧
      x.available.Sublist s.puts ∧ x.available.find? (accepts p) = some x.msg := by
  intro x hx
  obtain ⟨p, hp, hrest⟩ := h.oldest x hx
  exact ⟨p, (List.getElem?_append_left (List.getElem?_eq_some_iff.mp hp).1).trans hp, hrest⟩

theorem asked_get (hs : s.Sound) (predicate : Option (Msg → Bool)) :
    ∀ w ∈ s.q.waiting, (s.asked ++ [predicate])[w.1]? = some w.2 := fun w hw =>
  (List.getElem?_append_left (List.getElem?_eq_some_iff.mp (hs.asked w hw)).1).trans (hs.asked w hw)

theorem called_get (hs : s.Sound) (predicate : Option (Msg → Bool)) :
    ∀ d ∈ s.called, d < (s.asked ++ [predicate]).length := by
  intro d hd
  have := hs.called d hd
  simp
  omega

/-- まだ作られていない Deferred。 -/
theorem length_asked_notMem (hs : s.Sound) : s.asked.length ∉ s.called :=
  fun h => Nat.lt_irrefl _ (hs.called _ h)

theorem get_keeps (predicate : Option (Msg → Bool)) (hs : s.Sound) (h : s.Accounted) :
    (s.get predicate).Sound ∧ (s.get predicate).Accounted := by
  unfold get
  rcases s.q.get_cases s.asked.length predicate with
    ⟨hnone, hq⟩ | ⟨pre, msg, post, hqueue, hacc, hpre, hq⟩ <;> rw [hq]
  · -- 待ち手になる
    have hnew := length_asked_notMem hs
    refine ⟨⟨?_, ?_, called_get hs predicate, hs.delivered, hs.arrival, ?_⟩,
      ⟨?_, h.conserved, h.once, oldest_get h predicate⟩⟩
    · intro w hw
      rcases List.mem_append.mp hw with hw | hw
      · exact asked_get hs predicate w hw
      · rw [List.mem_singleton.mp hw]
        simp
    · rw [List.map_append, List.map_singleton, ← List.concat_eq_append]
      refine hs.nodup.concat fun hmem => ?_
      obtain ⟨w, hw, he⟩ := List.mem_map.mp hmem
      have := (List.getElem?_eq_some_iff.mp (hs.asked w hw)).1
      omega
    · obtain ⟨fired, pending, hw, hlen, hfired, hpending⟩ := hs.fired
      refine ⟨fired, pending ++ [(s.asked.length, predicate)], by simp [hw], hlen, hfired, ?_⟩
      intro w hmem
      rcases List.mem_append.mp hmem with hmem | hmem
      · exact hpending w hmem
      · rw [List.mem_singleton.mp hmem]
        exact hnew
    · intro m hm w hw
      rcases List.mem_append.mp hw with hw | hw
      · exact h.apart m hm w hw
      · rw [List.mem_singleton.mp hw]
        exact hnone m hm
  · -- 列から取る
    have hsub : (pre ++ post).Sublist s.q.queue := by
      rw [hqueue]
      exact List.Sublist.append_left (List.sublist_cons_self _ _) _
    refine ⟨⟨asked_get hs predicate, hs.nodup, ?_, ?_, hsub.trans hs.arrival, ?_⟩,
      ⟨fun m hm => h.apart m (hsub.subset hm), ?_, ?_, ?_⟩⟩
    · intro d hd
      rcases List.mem_cons.mp hd with rfl | hd
      · simp
      · exact called_get hs predicate d hd
    · intro x hx
      rcases List.mem_append.mp hx with hx | hx
      · exact List.mem_cons_of_mem _ (hs.delivered x hx)
      · rw [List.mem_singleton.mp hx]
        exact List.mem_cons_self
    · obtain ⟨fired, pending, hw, hlen, hfired, hpending⟩ := hs.fired
      refine ⟨fired, pending, hw, hlen, fun w hmem => List.mem_cons_of_mem _ (hfired w hmem), ?_⟩
      intro w hmem hc
      rcases List.mem_cons.mp hc with he | hc
      · have hlt := (List.getElem?_eq_some_iff.mp
          (hs.asked w (hw ▸ List.mem_append_right fired hmem))).1
        omega
      · exact hpending w hmem hc
    · refine List.Perm.trans ?_ h.conserved
      rw [hqueue, List.map_append, List.map_singleton]
      simp only [List.append_assoc]
      refine List.Perm.append_left _ ?_
      simpa using List.perm_middle.symm
    · rw [List.map_append, List.map_singleton, ← List.concat_eq_append]
      refine h.once.concat fun hmem => ?_
      obtain ⟨x, hx, he⟩ := List.mem_map.mp hmem
      exact length_asked_notMem hs ((show x.d = s.asked.length from he) ▸ hs.delivered x hx)
    · intro x hx
      rcases List.mem_append.mp hx with hx | hx
      · exact oldest_get h predicate x hx
      · rw [List.mem_singleton.mp hx]
        refine ⟨predicate, by simp, hs.arrival, ?_⟩
        rw [hqueue]
        exact List.find?_eq_some_iff_append.mpr
          ⟨hacc, pre, post, rfl, fun m hm => by simp [hpre m hm]⟩

/-- 記録にある `available` は、`put` が増えても `puts` の部分列のままである。 -/
theorem oldest_put (h : s.Accounted) (obj : Msg) :
    ∀ x ∈ s.deliveries, ∃ p, s.asked[x.d]? = some p ∧
      x.available.Sublist (s.puts ++ [obj]) ∧ x.available.find? (accepts p) = some x.msg := by
  intro x hx
  obtain ⟨p, hp, hsub, hfind⟩ := h.oldest x hx
  exact ⟨p, hp, hsub.trans (List.sublist_append_left _ _), hfind⟩

/-- どの待ち手にも合わなければ、message は列に貯まる。 -/
theorem put_queued {obj : Msg} (hs : s.Sound) (h : s.Accounted)
    (hnone : ∀ w ∈ s.q.waiting, accepts w.2 obj = false) :
    Sound { s with q := { s.q with queue := s.q.queue ++ [obj] }, puts := s.puts ++ [obj] } ∧
    Accounted { s with q := { s.q with queue := s.q.queue ++ [obj] }, puts := s.puts ++ [obj] } := by
  refine ⟨⟨hs.asked, hs.nodup, hs.called, hs.delivered, hs.arrival.append_right _, hs.fired⟩,
    ⟨?_, ?_, h.once, oldest_put h obj⟩⟩
  · intro m hm w hw
    rcases List.mem_append.mp hm with hm | hm
    · exact h.apart m hm w hw
    · rw [List.mem_singleton.mp hm]
      exact hnone w hw
  · refine List.Perm.trans ?_ (h.conserved.append_right [obj])
    simp only [List.append_assoc]
    refine List.Perm.append_left _ (List.Perm.append_left _ ?_)
    exact List.perm_append_comm

/-- まだ呼ばれていない待ち手には、message が渡る。 -/
theorem put_delivered {obj : Msg} {w : Nat × Option (Msg → Bool)} (hs : s.Sound) (h : s.Accounted)
    (hw : w ∈ s.q.waiting) (hnew : w.1 ∉ s.called) (hacc : accepts w.2 obj = true) :
    Sound { s with
      q := { s.q with waiting := s.q.waiting.filter fun x => x.1 ≠ w.1 }
      puts := s.puts ++ [obj]
      called := w.1 :: s.called
      deliveries := s.deliveries ++ [⟨w.1, s.q.queue ++ [obj], obj⟩] } ∧
    Accounted { s with
      q := { s.q with waiting := s.q.waiting.filter fun x => x.1 ≠ w.1 }
      puts := s.puts ++ [obj]
      called := w.1 :: s.called
      deliveries := s.deliveries ++ [⟨w.1, s.q.queue ++ [obj], obj⟩] } := by
  have hask := hs.asked w hw
  have hfire := hs.fire hnew (List.getElem?_eq_some_iff.mp hask).1
  refine ⟨⟨hfire.asked, hfire.nodup, hfire.called, ?_, ?_, hfire.fired⟩,
    ⟨(h.without w.1).apart, ?_, ?_, ?_⟩⟩
  · intro x hx
    rcases List.mem_append.mp hx with hx | hx
    · exact List.mem_cons_of_mem _ (hs.delivered x hx)
    · rw [List.mem_singleton.mp hx]
      exact List.mem_cons_self
  · exact hs.arrival.trans (List.sublist_append_left _ _)
  · refine List.Perm.trans ?_ (h.conserved.append_right [obj])
    rw [List.map_append, List.map_singleton]
    simp only [List.append_assoc]
    refine List.Perm.append_left _ ?_
    rw [← List.append_assoc s.q.queue]
    exact List.perm_append_comm
  · rw [List.map_append, List.map_singleton, ← List.concat_eq_append]
    refine h.once.concat fun hmem => ?_
    obtain ⟨x, hx, he⟩ := List.mem_map.mp hmem
    exact hnew ((show x.d = w.1 from he) ▸ hs.delivered x hx)
  · intro x hx
    rcases List.mem_append.mp hx with hx | hx
    · exact oldest_put h obj x hx
    · rw [List.mem_singleton.mp hx]
      refine ⟨w.2, hask, hs.arrival.append_right _, ?_⟩
      -- 列の message は合わないので、合うのは `obj` だけである
      refine List.find?_eq_some_iff_append.mpr ⟨hacc, s.q.queue, [], rfl, fun m hm => ?_⟩
      simp [h.apart m hm w hw]

/-- 呼び済みの待ち手が外れると、message の数が合わなくなる。 -/
theorem put_lost {obj : Msg} {waiting : List (Nat × Option (Msg → Bool))} (h : s.Accounted) :
    ¬ Accounted { s with q := { s.q with waiting := waiting }, puts := s.puts ++ [obj] } := by
  intro hlost
  have hbefore := h.conserved.length_eq
  have hafter := hlost.conserved.length_eq
  have hputs : (s.puts ++ [obj]).length = s.puts.length + 1 := by simp
  simp only [hputs] at hafter
  omega

theorem put_keeps_iff (obj : Msg) (hs : s.Sound) (h : s.Accounted) :
    ((s.put obj).Accounted ↔ s.NotStale (.put obj)) ∧
    (s.NotStale (.put obj) → (s.put obj).Sound) := by
  unfold put
  rcases s.q.put_cases obj with ⟨hnone, hq⟩ | ⟨pre, w, post, hw, hacc, hpre, hq⟩ <;> rw [hq]
  · obtain ⟨hsound, haccounted⟩ := put_queued hs h hnone
    exact ⟨iff_of_true haccounted fun w hw _ => hnone w hw, fun _ => hsound⟩
  · have hmem : w ∈ s.q.waiting := hw ▸ List.mem_append_right pre List.mem_cons_self
    by_cases hd : w.1 ∈ s.called
    · -- `callback` が例外を出し、message はどこにも残らない
      have hstale : ¬ s.NotStale (.put obj) := fun hc => by simp [hc w hmem hd] at hacc
      simp only [if_pos hd]
      exact ⟨iff_of_false (put_lost h) hstale, fun hc => absurd hc hstale⟩
    · have hfilter := filter_ne_eq (hw ▸ hs.nodup)
      obtain ⟨hsound, haccounted⟩ := put_delivered hs h hmem hd hacc
      rw [hw, hfilter] at hsound haccounted
      simp only [if_neg hd]
      refine ⟨iff_of_true haccounted ?_, fun _ => hsound⟩
      -- 呼び済みの待ち手は、初めに合った `w` より前にいる
      obtain ⟨fired, pending, hsplit, -, hfired, hpending⟩ := hs.fired
      intro x hx hcalled
      rw [hsplit] at hx
      rcases List.mem_append.mp hx with hx | hx
      · rw [hsplit] at hw
        rcases List.append_eq_append_iff.mp hw with ⟨mid, rfl, hmid⟩ | ⟨mid, rfl, hmid⟩
        · exact hpre x (List.mem_append_left _ hx)
        · rcases List.mem_append.mp hx with hx | hx
          · exact hpre x hx
          · cases mid with
            | nil => cases hx
            | cons y mid =>
              rw [List.cons_append, List.cons.injEq] at hmid
              obtain ⟨rfl, -⟩ := hmid
              exact absurd (hfired w (by simp)) hd
      · exact absurd hcalled (hpending x hx)

theorem step_keeps_iff (e : QueueEvent Msg) (hs : s.Sound) (h : s.Accounted) :
    ((s.step e).Accounted ↔ s.NotStale e) ∧ (s.NotStale e → (s.step e).Sound) := by
  cases e with
  | put obj => exact put_keeps_iff obj hs h
  | get predicate =>
    obtain ⟨hsound, haccounted⟩ := get_keeps predicate hs h
    exact ⟨iff_of_true haccounted trivial, fun _ => hsound⟩
  | cancel d =>
    obtain ⟨hsound, haccounted⟩ := cancel_keeps d hs h
    exact ⟨iff_of_true haccounted trivial, fun _ => hsound⟩
  | reset =>
    have hloop := errback_keeps hs h
    unfold step
    cases hr : s.resetting with
    | none =>
      rw [hr] at hloop
      exact ⟨iff_of_true hloop.2 trivial, fun _ => hloop.1⟩
    | some i => exact ⟨iff_of_true h trivial, fun _ => hs⟩
  | resume =>
    have hloop := errback_keeps hs h
    unfold step
    cases hr : s.resetting with
    | none => exact ⟨iff_of_true h trivial, fun _ => hs⟩
    | some i =>
      rw [hr] at hloop
      exact ⟨iff_of_true hloop.2 trivial, fun _ => hloop.1⟩

end Steps

theorem initial_sound : (initial : Run Msg).Sound :=
  ⟨nofun, List.nodup_nil, nofun, nofun, List.Sublist.refl _, [], [], rfl, rfl, nofun, nofun⟩

theorem initial_accounted : (initial : Run Msg).Accounted :=
  ⟨nofun, List.Perm.refl _, List.nodup_nil, nofun⟩

/--
**message の勘定。** どの時点でも勘定が合うのは、
`reset` の途中の `put` が errback 済みの待ち手に当たらないとき、かつそのときに限る。
-/
theorem accounted_iff (l : List (QueueEvent Msg)) :
    Steps.Always step Accounted initial l ↔ Steps.Each step NotStale initial l :=
  Steps.always_iff_each (A := fun _ => True)
    (fun _ e _ hs h => step_keeps_iff e hs h) (fun _ _ => trivial) initial_sound initial_accounted

/-- errback の callback が `put` した message が失われる。 -/
theorem accounted_fails_in_reset :
    ¬ Steps.Always step Accounted (initial : Run Nat) [.get none, .reset, .put 5] := by
  rintro ⟨-, -, -, hlost⟩
  have hlen := hlost.conserved.length_eq
  revert hlen
  decide

end Run

end Voltha.Common
