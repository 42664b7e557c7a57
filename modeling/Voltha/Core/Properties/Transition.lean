import Mathlib.Order.Nat
import Voltha.Core.DeviceAgent

/-!
# 禁じられた遷移

`_validate_update` は `inlineCallbacks` の関数なので、例外は Deferred に捕まえられ、
`PRE_UPDATE` の callback として更新を拒むことがない。禁じられた遷移の更新が断られるのは、
木自身の検査に掛かるときだけである。
-/

namespace Voltha.Core.DeviceAgent

open Exec
open Voltha.Config (Msg Err volthaSchema)

variable {adopt : Msg → Except Err Unit} {key : String} {u : Ref → Act Unit}
variable {s : System} {device : Ref} {strict : Bool}

/-! ## 性質と条件 -/

/-- dry run で例外を投げる処理。 -/
def RaisesDry (s : System) (device : Ref) : Handler → Prop
  | .activateDevice => False
  | .propagateChange => s.lastData.map s.heap ≠ some (s.heap device)
  | .abandonDevice => True
  | .disableDevice => True
  | .reenableDevice => True

/-- 禁じられた遷移。表で `False` であるか、dry run の処理が例外を投げる。 -/
def Forbidden (s : System) (device : Ref) : Prop :=
  match s.transition device with
  | none => False
  | some .invalid => True
  | some (.handler h) => RaisesDry s device h

/-- 保存されている device。node の最新の版と、親の列にある版を、今の中身と合わせて見る。 -/
def stored (s : System) : (Revision × Msg) × (Revision × Msg) :=
  ((s.latest, s.data), (s.listed, s.heap s.listed.config))

/-- `root.update` が例外を投げ、保存されている device は変わらない。 -/
def Rejected (adopt : Msg → Except Err Unit) (key : String) (s : System) (device : Ref)
    (strict : Bool) : Prop :=
  (∃ e, (rootUpdate adopt key nesting device strict s).1 = .error e) ∧
    stored (rootUpdate adopt key nesting device strict s).2 = stored s

/--
`_do_update` 自身の検査に掛かる message。

Device でないか、子の field に値があるか、`strict` なのに読み取り専用の field を変える。
-/
def IllFormed (s : System) (device : Ref) (strict : Bool) : Prop :=
  (s.heap device).label.type ≠ "Device" ∨
    (externalChild? (s.heap device)).isSome = true ∨
    (s.data ≠ s.heap device ∧ strict = true ∧
      Config.violatedFields volthaSchema (s.heap device).label s.data.label ≠ [])

/--
木自身の検査に掛かる更新。

親の列に key が見つからないか、message が検査に掛かるか、前に key を変えようとして
親の列に載らなかった中身をもう一度送る。
-/
def Refused (key : String) (s : System) (device : Ref) (strict : Bool) : Prop :=
  hasKey key (s.heap s.listed.config) = false ∨ IllFormed s device strict ∨
    (s.data = s.heap device ∧ s.latest.hash ≠ s.listed.hash ∧ hasKey key s.data = false)

/-- 更新なら、禁じられた遷移について `P` が成り立つ。 -/
def OnForbidden (P : System → Ref → Bool → Prop) (s : System) : Action → Prop
  | .update device strict => Forbidden s device → P s device strict
  | _ => True

/-- 始めの状態。待っている callback は無く、版の番号はまだ使われていない。 -/
structure Idle (s : System) : Prop where
  queue : s.queue = []
  fresh : s.latest.uid < s.nextUid

/-! ## dry run -/

/-- dry run は状態を変えない。例外を投げるのは、禁じられた遷移のときである。 -/
theorem dryRun_spec (adopt : Msg → Except Err Unit) (u : Ref → Act Unit) (s : System)
    (device : Ref) :
    (∃ e, processStateTransitions adopt u device true s = (.error e, s)) ∧ Forbidden s device ∨
      processStateTransitions adopt u device true s = (.ok (), s) ∧ ¬Forbidden s device := by
  unfold processStateTransitions Forbidden
  rw [read_bind_apply]
  cases s.transition device with
  | none => exact Or.inr ⟨rfl, id⟩
  | some t =>
    cases t with
    | invalid => exact Or.inl ⟨⟨_, rfl⟩, trivial⟩
    | handler h =>
      cases h with
      | activateDevice => exact Or.inr ⟨rfl, id⟩
      | propagateChange =>
        show (∃ e, propagateChange device s = (.error e, s)) ∧ _ ∨
          propagateChange device s = (.ok (), s) ∧ _
        unfold propagateChange
        rw [read_bind_apply]
        split
        · next he => exact Or.inr ⟨rfl, fun hne => hne he⟩
        · next hne => exact Or.inl ⟨⟨_, rfl⟩, hne⟩
      | abandonDevice => exact Or.inl ⟨⟨_, rfl⟩, trivial⟩
      | disableDevice => exact Or.inl ⟨⟨_, rfl⟩, trivial⟩
      | reenableDevice => exact Or.inl ⟨⟨_, rfl⟩, trivial⟩

theorem dryRun_snd (s : System) (device : Ref) :
    (processStateTransitions adopt u device true s).2 = s := by
  rcases dryRun_spec adopt u s device with ⟨⟨e, h⟩, -⟩ | ⟨h, -⟩
  · rw [h]
  · rw [h]

/-- dry run は proxy に触れない。 -/
theorem dryRun_independent (u u' : Ref → Act Unit) (device : Ref) :
    processStateTransitions adopt u device true = processStateTransitions adopt u' device true := by
  funext s
  unfold processStateTransitions
  simp only [read_bind_apply]
  cases s.transition device with
  | none => rfl
  | some t =>
    cases t with
    | invalid => rfl
    | handler h => cases h <;> rfl

/-- **`PRE_UPDATE` の callback は、禁じられた遷移でも拒まない**。 -/
theorem validateUpdate_accepts (adopt : Msg → Except Err Unit) (u : Ref → Act Unit) (s : System)
    (device : Ref) :
    ∃ c, invokeCallbacks false [validateUpdate adopt u] (.message device) s = (.ok c, s) := by
  refine ⟨.deferred (processStateTransitions adopt u device true s).1, ?_⟩
  show (Except.ok _, (processStateTransitions adopt u device true s).2) = _
  rw [dryRun_snd]

theorem validateUpdate_independent (u u' : Ref → Act Unit) (device : Ref) :
    invokeCallbacks false [validateUpdate adopt u] (.message device) =
      invokeCallbacks false [validateUpdate adopt u'] (.message device) := by
  have h : validateUpdate adopt u (.message device) = validateUpdate adopt u' (.message device) := by
    show inlineCallbacks _ = inlineCallbacks _
    rw [dryRun_independent u u']
  funext s
  unfold invokeCallbacks
  rw [h]

/-! ## 一度の更新 -/

/-- 検査を通った後の `_do_update`。 -/
def replaceData (device : Ref) : Act Revision := do
  let rev ← updateData device
  makeLatest rev
  pure rev

theorem updateData_ok (s : System) (device : Ref) :
    ∃ rev s', updateData device s = (.ok rev, s') ∧ rev.uid = s.nextUid ∧
      s'.nextUid = s.nextUid + 1 ∧ s'.heap = s.heap ∧ s'.lastData = s.lastData ∧
      s'.queue = s.queue := by
  unfold updateData
  dsimp only
  cases s.cache (s.heap device) with
  | some r =>
    exact ⟨⟨s.nextUid, s.heap device, r⟩, { s with nextUid := s.nextUid + 1 }, rfl, rfl, rfl, rfl,
      rfl, rfl⟩
  | none =>
    exact ⟨⟨s.nextUid, s.heap device, device⟩, { s with
      nextUid := s.nextUid + 1
      cache := Function.update s.cache (s.heap device) (some device) }, rfl, rfl, rfl, rfl, rfl, rfl⟩

/-- 新しい版が据えられ、その object が `POST_UPDATE` を待つ。 -/
theorem replaceData_ok (s : System) (device : Ref) :
    ∃ rev s', replaceData device s = (.ok rev, s') ∧ s'.latest = rev ∧ rev.uid = s.nextUid ∧
      s'.nextUid = s.nextUid + 1 ∧ s'.heap = s.heap ∧ s'.lastData = s.lastData ∧
      s'.queue = s.queue ++ [rev.config] := by
  obtain ⟨rev, s', h, huid, hnext, hheap, hlast, hqueue⟩ := updateData_ok s device
  refine ⟨rev, _, bind_ok h, rfl, huid, hnext, hheap, hlast, ?_⟩
  show s'.queue ++ [rev.config] = _
  rw [hqueue]

theorem testNoChildren_ok {m : Msg} (h : (externalChild? m).isSome = false) (s : System) :
    testNoChildren m s = (.ok (), s) := by
  unfold testNoChildren
  cases hm : externalChild? m with
  | none => rfl
  | some f => simp [hm] at h

theorem testNoChildren_error {m : Msg} (h : (externalChild? m).isSome = true) (s : System) :
    ∃ e, testNoChildren m s = (.error e, s) := by
  unfold testNoChildren
  cases hm : externalChild? m with
  | none => simp [hm] at h
  | some f => exact ⟨_, rfl⟩

/--
`_do_update` のすること。

検査に掛かれば、何も書かれないうちに例外になる。掛からなければ、**遷移を問わず**、
中身が同じなら今の版を返し、違えば新しい版を据える。
-/
theorem doUpdate_spec (adopt : Msg → Except Err Unit) (u : Ref → Act Unit) (s : System)
    (device : Ref) (strict : Bool) :
    (∃ e, doUpdate adopt u device strict s = (.error e, s)) ∧ IllFormed s device strict ∨
      doUpdate adopt u device strict s =
          (if s.data = s.heap device then (.ok s.latest, s) else replaceData device s) ∧
        ¬IllFormed s device strict := by
  obtain ⟨c, hpre⟩ := validateUpdate_accepts adopt u s device
  unfold doUpdate IllFormed
  rw [read_bind_apply]
  by_cases htype : (s.heap device).label.type = "Device"
  swap
  · exact Or.inl ⟨⟨_, bind_error (require_neg htype s)⟩, Or.inl htype⟩
  rw [bind_ok (require_pos htype s)]
  cases hchild : (externalChild? (s.heap device)).isSome with
  | true =>
    obtain ⟨e, he⟩ := testNoChildren_error hchild s
    exact Or.inl ⟨⟨e, bind_error he⟩, Or.inr (Or.inl rfl)⟩
  | false =>
    rw [bind_ok (testNoChildren_ok hchild s), bind_ok hpre, read_bind_apply]
    by_cases hdata : s.data = s.heap device
    · rw [if_pos hdata, if_pos hdata]
      exact Or.inr ⟨rfl, by simp [htype, hdata]⟩
    rw [if_neg hdata, if_neg hdata]
    -- 残るのは、callback の後の読み取り専用の検査である
    by_cases haccess : strict = false ∨
        Config.violatedFields volthaSchema (s.heap device).label s.data.label = []
    · refine Or.inr ⟨bind_ok (require_pos haccess s), ?_⟩
      rintro (h | h | ⟨-, hstrict, hviolated⟩)
      · exact h htype
      · cases h
      · rcases haccess with hs | hs
        · rw [hstrict] at hs; cases hs
        · exact hviolated hs
    · refine Or.inl ⟨⟨_, bind_error (require_neg haccess s)⟩, Or.inr (Or.inr ⟨hdata, ?_⟩)⟩
      rw [not_or, Bool.not_eq_false] at haccess
      exact haccess

theorem updateListed_error {e : Err} {s₁ : System}
    (hkey : hasKey key (s.heap s.listed.config) = true)
    (h : doUpdate adopt u device strict s = (.error e, s₁)) :
    updateListed adopt u key device strict s = (.error e, s₁) := by
  unfold updateListed
  rw [read_bind_apply, bind_ok (require_pos hkey s)]
  exact bind_error h

/-- 親の一段は、hash が変わっていれば、key を調べてから新しい版を列に載せる。 -/
theorem updateListed_ok {rev : Revision} {s₁ : System}
    (hkey : hasKey key (s.heap s.listed.config) = true)
    (h : doUpdate adopt u device strict s = (.ok rev, s₁)) :
    updateListed adopt u key device strict s =
      if rev.hash = s₁.listed.hash then (.ok (), s₁)
      else if hasKey key (s₁.heap rev.config) = true then (.ok (), { s₁ with listed := rev })
      else (.error (.valueError "Cannot change key field"), s₁) := by
  unfold updateListed
  rw [read_bind_apply, bind_ok (require_pos hkey s), bind_ok h, read_bind_apply]
  split
  · rfl
  · split
    · rfl
    · rfl

/-- 親の一段は、node の最新の版には触れない。 -/
theorem updateListed_latest {rev : Revision} {s₁ : System}
    (hkey : hasKey key (s.heap s.listed.config) = true)
    (h : doUpdate adopt u device strict s = (.ok rev, s₁)) :
    (updateListed adopt u key device strict s).2.latest = s₁.latest ∧
      (updateListed adopt u key device strict s).2.nextUid = s₁.nextUid := by
  rw [updateListed_ok hkey h]
  split
  · exact ⟨rfl, rfl⟩
  · split
    · exact ⟨rfl, rfl⟩
    · exact ⟨rfl, rfl⟩

/-- 検査に掛かれば、例外になって何も変わらない。 -/
theorem updateListed_refused (adopt : Msg → Except Err Unit) (u : Ref → Act Unit)
    (h : Refused key s device strict) :
    ∃ e, updateListed adopt u key device strict s = (.error e, s) := by
  by_cases hkey : hasKey key (s.heap s.listed.config) = true
  swap
  · unfold updateListed
    rw [read_bind_apply]
    exact ⟨_, bind_error (require_neg hkey s)⟩
  rcases doUpdate_spec adopt u s device strict with ⟨⟨e, he⟩, -⟩ | ⟨he, hwell⟩
  · exact ⟨e, updateListed_error hkey he⟩
  · rcases h with h | h | ⟨hdata, hhash, hother⟩
    · rw [hkey] at h; cases h
    · exact absurd h hwell
    · rw [if_pos hdata] at he
      have hother' : ¬hasKey key (s.heap s.latest.config) = true := by
        rw [show s.heap s.latest.config = s.data from rfl, hother]
        nofun
      rw [updateListed_ok hkey he, if_neg hhash, if_neg hother']
      exact ⟨_, rfl⟩

/-! ## 版の番号 -/

/-- 版の番号は増えるだけで、据え直された版は新しい番号を持つ。 -/
structure Grows (s s' : System) : Prop where
  uid : s.nextUid ≤ s'.nextUid
  latest : s'.latest = s.latest ∨ s.nextUid ≤ s'.latest.uid
  fresh : s.latest.uid < s.nextUid → s'.latest.uid < s'.nextUid

instance : Std.Refl Grows := ⟨fun _ => ⟨Nat.le_refl _, Or.inl rfl, id⟩⟩

instance : IsTrans System Grows := ⟨fun _ _ _ h₁ h₂ => by
  refine ⟨h₁.uid.trans h₂.uid, ?_, fun h => h₂.fresh (h₁.fresh h)⟩
  rcases h₂.latest with he | hle
  · rw [he]
    exact h₁.latest
  · exact Or.inr (h₁.uid.trans hle)⟩

/-- 版に触れない書き換え。 -/
theorem Grows.of_eq {s s' : System} (hn : s'.nextUid = s.nextUid) (hl : s'.latest = s.latest) :
    Grows s s' :=
  ⟨hn.ge, Or.inl hl, fun h => by rw [hl, hn]; exact h⟩

theorem replaceData_grows (device : Ref) : Keeps Grows (replaceData device) := by
  intro s
  obtain ⟨rev, s', h, hlatest, huid, hnext, -⟩ := replaceData_ok s device
  rw [h]
  show Grows s s'
  refine ⟨by omega, Or.inr (by rw [hlatest, huid]), fun _ => ?_⟩
  · rw [hlatest, huid]
    omega

theorem doUpdate_grows (device : Ref) (strict : Bool) :
    Keeps Grows (doUpdate adopt u device strict) := by
  intro s
  rcases doUpdate_spec adopt u s device strict with ⟨⟨e, he⟩, -⟩ | ⟨he, -⟩
  · rw [he]
    exact Std.Refl.refl s
  · rw [he]
    split
    · exact Std.Refl.refl s
    · exact replaceData_grows device s

theorem updateListed_grows (device : Ref) (strict : Bool) :
    Keeps Grows (updateListed adopt u key device strict) := by
  refine Keeps.read.bind fun s => (Keeps.require _ _).bind fun _ =>
    (doUpdate_grows device strict).bind fun rev => Keeps.read.bind fun s => ?_
  refine Keeps.ite (fun _ => Keeps.pure ()) fun _ => Keeps.ite (fun _ => ?_) fun _ => Keeps.raise _
  exact fun s => Grows.of_eq rfl rfl

/-! ## callback の実行 -/

section Frame

variable {R : System → System → Prop} [Std.Refl R] [IsTrans System R]

/-- 遷移の処理は、object と `last_data` のほかは、出した更新の中でしか状態を変えない。 -/
theorem runHandler_keeps (hwrite : ∀ s r m, R s (s.write r m))
    (hlast : ∀ s r, R s { s with lastData := some r }) (hu : ∀ d, Keeps R (u d)) (dryRun : Bool)
    (h : Handler) : Keeps R (runHandler adopt u device dryRun h) := by
  cases h with
  | activateDevice =>
    unfold runHandler activateDevice updateDevice
    refine Keeps.ite (fun _ => Keeps.pure ()) fun _ => ?_
    refine Keeps.bind (fun s => hwrite s _ _) fun _ => ?_
    refine ((Keeps.bind (fun s => hlast s _) fun _ => hu device).bind fun _ => ?_)
    refine Keeps.read.bind fun s => ?_
    cases adopt (s.heap device) with
    | ok _ => exact Keeps.pure ()
    | error e => exact Keeps.raise e
  | propagateChange =>
    exact Keeps.read.bind fun s => Keeps.ite (fun _ => Keeps.pure ()) fun _ => Keeps.raise _
  | abandonDevice => exact Keeps.raise _
  | disableDevice => exact Keeps.raise _
  | reenableDevice => exact Keeps.raise _

theorem processStateTransitions_keeps (hwrite : ∀ s r m, R s (s.write r m))
    (hlast : ∀ s r, R s { s with lastData := some r }) (hu : ∀ d, Keeps R (u d)) (dryRun : Bool) :
    Keeps R (processStateTransitions adopt u device dryRun) := by
  refine Keeps.read.bind fun s => ?_
  cases s.transition device with
  | none => exact Keeps.pure ()
  | some t =>
    cases t with
    | invalid => exact Keeps.raise _
    | handler h => exact runHandler_keeps hwrite hlast hu dryRun h

theorem invokePost_eq (adopt : Msg → Except Err Unit) (u : Ref → Act Unit) (device : Ref)
    (s : System) :
    invokePost adopt u device s = ((do
      processStateTransitions adopt u device false
      Exec.modify fun s => { s with lastData := some device }) s : Except Err Unit × System).2 :=
  rfl

theorem invokePost_keeps (hwrite : ∀ s r m, R s (s.write r m))
    (hlast : ∀ s r, R s { s with lastData := some r }) (hu : ∀ d, Keeps R (u d)) (device : Ref)
    (s : System) : R s (invokePost adopt u device s) := by
  rw [invokePost_eq]
  exact (processStateTransitions_keeps hwrite hlast hu false).bind
    (fun _ => show Keeps R (Exec.modify _) from fun s => hlast s device) s

end Frame

theorem executeDeferredCallbacks_grows {post : Ref → System → System}
    (hpost : ∀ d s, Grows s (post d s)) (n : Nat) (s : System) :
    Grows s (executeDeferredCallbacks post n s) := by
  induction n generalizing s with
  | zero => exact Std.Refl.refl s
  | succ n ih =>
    unfold executeDeferredCallbacks
    split
    · exact Std.Refl.refl s
    · next d rest _ =>
      have hpop : Grows s { s with queue := rest } := Grows.of_eq rfl rfl
      exact IsTrans.trans _ _ _ hpop (IsTrans.trans _ _ _ (hpost d _) (ih _))

theorem deferred_grows (adopt : Msg → Except Err Unit) (hu : ∀ d, Keeps Grows (u d)) (n : Nat)
    (s : System) : Grows s (executeDeferredCallbacks (invokePost adopt u) n s) := by
  refine executeDeferredCallbacks_grows (fun d s => ?_) n s
  exact invokePost_keeps (fun _ _ _ => Grows.of_eq rfl rfl) (fun _ _ => Grows.of_eq rfl rfl) hu d s

theorem rootUpdate_grows (fuel : Nat) (device : Ref) (strict : Bool) :
    Keeps Grows (rootUpdate adopt key fuel device strict) := by
  induction fuel generalizing device strict with
  | zero => exact Keeps.raise _
  | succ fuel ih =>
    exact (Keeps.read.bind fun s => Keeps.require _ _).bind fun _ =>
      (updateListed_grows device strict).andFinally fun s =>
        deferred_grows adopt (fun d => ih d false) s.queue.length s

/-! ## 待っている callback -/

/-- 空の queue は空に戻る。 -/
def Drained (s s' : System) : Prop := s.queue = [] → s'.queue = []

instance : Std.Refl Drained := ⟨fun _ => id⟩

instance : IsTrans System Drained := ⟨fun _ _ _ h₁ h₂ h => h₂ (h₁ h)⟩

/-- 更新は callback を高々一つ待たせ、object と `last_data` には触れない。 -/
structure Posts (s s' : System) : Prop where
  heap : s'.heap = s.heap
  lastData : s'.lastData = s.lastData
  queue : s'.queue = s.queue ∨ ∃ d, s'.queue = s.queue ++ [d]

theorem Posts.refl (s : System) : Posts s s := ⟨rfl, rfl, Or.inl rfl⟩

theorem Posts.length_le {s s' : System} (h : Posts s s') (hq : s.queue = []) :
    s'.queue.length ≤ 1 := by
  rcases h.queue with he | ⟨d, he⟩ <;> simp [he, hq]

theorem doUpdate_posts (device : Ref) (strict : Bool) :
    Keeps Posts (doUpdate adopt u device strict) := by
  intro s
  rcases doUpdate_spec adopt u s device strict with ⟨⟨e, he⟩, -⟩ | ⟨he, -⟩
  · rw [he]
    exact Posts.refl s
  · rw [he]
    split
    · exact Posts.refl s
    · obtain ⟨rev, s', h, -, -, -, hheap, hlast, hqueue⟩ := replaceData_ok s device
      rw [h]
      exact ⟨hheap, hlast, Or.inr ⟨_, hqueue⟩⟩

theorem updateListed_posts (device : Ref) (strict : Bool) :
    Keeps Posts (updateListed adopt u key device strict) := by
  intro s
  refine wp_snd ?_
  unfold updateListed
  simp only [wp_bind, wp_read]
  refine wp_require (fun _ => ?_) fun _ => Posts.refl s
  refine wp_mono ((doUpdate_posts device strict).toWp s) (fun rev s' h => ?_) fun _ _ h => h
  -- 親の列の書き換えは `listed` だけである
  split
  · exact h
  · split
    · exact ⟨h.heap, h.lastData, h.queue⟩
    · exact h

/-- 待っている callback が高々一つなら、それを取り出して呼ぶだけである。 -/
theorem executeDeferredCallbacks_of_length_le (post : Ref → System → System)
    (hlen : s.queue.length ≤ 1) :
    executeDeferredCallbacks post s.queue.length s =
      s.queue.head?.elim s fun d => post d { s with queue := [] } := by
  cases hq : s.queue with
  | nil => rfl
  | cons d rest =>
    have hrest : rest = [] := by
      simp only [hq, List.length_cons] at hlen
      exact List.length_eq_zero_iff.mp (by omega)
    subst hrest
    simp [executeDeferredCallbacks, hq]

theorem executeDeferredCallbacks_drained {post : Ref → System → System}
    (hpost : ∀ d s, Drained s (post d s)) (hlen : s.queue.length ≤ 1) :
    (executeDeferredCallbacks post s.queue.length s).queue = [] := by
  rw [executeDeferredCallbacks_of_length_le post hlen]
  cases hq : s.queue with
  | nil => exact hq
  | cons d rest => exact hpost d _ rfl

theorem rootUpdate_drained (fuel : Nat) (device : Ref) (strict : Bool) :
    Keeps Drained (rootUpdate adopt key fuel device strict) := by
  induction fuel generalizing device strict with
  | zero => exact Keeps.raise _
  | succ fuel ih =>
    refine (Keeps.read.bind fun s => Keeps.require _ _).bind fun _ => fun s hq => ?_
    refine executeDeferredCallbacks_drained (fun d s => ?_)
      ((updateListed_posts device strict s).length_le hq)
    exact invokePost_keeps (fun _ _ _ => id) (fun _ _ => id) (fun d => ih d false) d s

/-! ## 入れ子の深さ -/

@[simp] theorem adminState_activating (m : Msg) : adminState (activating m) = adminState m := by
  obtain ⟨d, cs⟩ := m
  have h : (activating (.mk d cs)).label.attr "admin_state" = d.attr "admin_state" := by
    show (OrderedDict.set d.attrs "oper_status" (.int 2)).lookup "admin_state" = _
    rw [OrderedDict.lookup_set, if_neg (by decide)]
    rfl
  unfold adminState
  rw [h]
  rfl

/-- 更新を出すのは、`ENABLED` への遷移だけである。 -/
theorem adminStateFsm_activate {old new : AdminState}
    (h : adminStateFsm old new = some (.handler .activateDevice)) :
    old ≠ .enabled ∧ new = .enabled := by
  cases old <;> cases new <;> simp [adminStateFsm] at h ⊢

theorem transition_activate (h : s.transition device = some (.handler .activateDevice)) :
    s.oldAdminState ≠ some .enabled ∧ adminState (s.heap device) = some .enabled := by
  unfold System.transition at h
  split at h
  · next o n ho hn =>
    obtain ⟨hold, hnew⟩ := adminStateFsm_activate h
    rw [ho, hn, hnew]
    exact ⟨by simpa using hold, rfl⟩
  · cases h

/-- 出される更新が同じなら、`POST_UPDATE` の callback のすることも同じである。 -/
theorem invokePost_congr {u u' : Ref → Act Unit}
    (h : s.transition device = some (.handler .activateDevice) →
      u device { s.write device (activating (s.heap device)) with lastData := some device } =
        u' device { s.write device (activating (s.heap device)) with lastData := some device }) :
    invokePost adopt u device s = invokePost adopt u' device s := by
  have hrun : processStateTransitions adopt u device false s =
      processStateTransitions adopt u' device false s := by
    unfold processStateTransitions
    simp only [read_bind_apply]
    cases ht : s.transition device with
    | none => rfl
    | some t =>
      cases t with
      | invalid => rfl
      | handler handler =>
        cases handler with
        | activateDevice =>
          show (updateDevice u device >>= _) (s.write device (activating (s.heap device))) =
            (updateDevice u' device >>= _) (s.write device (activating (s.heap device)))
          have hup : updateDevice u device (s.write device (activating (s.heap device))) =
              updateDevice u' device (s.write device (activating (s.heap device))) := h ht
          rw [bind_apply, bind_apply, hup]
        | propagateChange => rfl
        | abandonDevice => rfl
        | disableDevice => rfl
        | reenableDevice => rfl
  rw [invokePost_eq, invokePost_eq, bind_apply, bind_apply, hrun]

theorem updateListed_independent (u u' : Ref → Act Unit) (device : Ref) (strict : Bool) :
    updateListed adopt u key device strict = updateListed adopt u' key device strict := by
  unfold updateListed doUpdate
  rw [validateUpdate_independent u u']

theorem rootUpdate_eq {fuel : Nat} (hq : s.queue = []) :
    rootUpdate adopt key (fuel + 1) device strict s =
      (updateListed adopt (fun d => rootUpdate adopt key fuel d false) key device strict).andFinally
        (fun s => executeDeferredCallbacks
          (invokePost adopt fun d => rootUpdate adopt key fuel d false) s.queue.length s) s := by
  rw [rootUpdate, checkCallbackQueue]
  exact bind_ok (require_pos hq s)

/-- 更新のすることは、その `POST_UPDATE` の callback の中で出される更新で決まる。 -/
theorem rootUpdate_congr {fuel fuel' : Nat}
    (h : ∀ s₁ d, s₁.heap = s.heap → s₁.lastData = s.lastData →
      invokePost adopt (fun d => rootUpdate adopt key fuel d false) d s₁ =
        invokePost adopt (fun d => rootUpdate adopt key fuel' d false) d s₁) :
    rootUpdate adopt key (fuel + 1) device strict s =
      rootUpdate adopt key (fuel' + 1) device strict s := by
  by_cases hq : s.queue = []
  swap
  · have hrefused : ∀ fuel, rootUpdate adopt key (fuel + 1) device strict s =
        (.error (.assertion ""), s) := fun fuel => bind_error (require_neg hq s)
    rw [hrefused, hrefused]
  rw [rootUpdate_eq hq, rootUpdate_eq hq, andFinally_apply, andFinally_apply]
  rw [updateListed_independent (fun d => rootUpdate adopt key fuel d false)
    (fun d => rootUpdate adopt key fuel' d false)]
  have hp : Posts s (updateListed adopt (fun d => rootUpdate adopt key fuel' d false) key device
      strict s).2 := updateListed_posts device strict s
  revert hp
  generalize updateListed adopt (fun d => rootUpdate adopt key fuel' d false) key device strict s
    = r
  intro hp
  obtain ⟨res, s₁⟩ := r
  refine Prod.ext rfl ?_
  show executeDeferredCallbacks _ s₁.queue.length s₁ = executeDeferredCallbacks _ s₁.queue.length s₁
  rw [executeDeferredCallbacks_of_length_le _ (hp.length_le hq),
    executeDeferredCallbacks_of_length_le _ (hp.length_le hq)]
  cases s₁.queue with
  | nil => rfl
  | cons d rest => exact h _ d hp.heap hp.lastData

/-- `ENABLED` の device の更新は、さらに更新を出すことがない。 -/
theorem rootUpdate_enabled (fuel : Nat) (h : s.oldAdminState = some .enabled) :
    rootUpdate adopt key (fuel + 1) device strict s = rootUpdate adopt key 1 device strict s := by
  refine rootUpdate_congr fun s₁ d hheap hlast => invokePost_congr fun ht => ?_
  have hold : s₁.oldAdminState = some .enabled := by
    unfold System.oldAdminState at h ⊢
    rw [hheap, hlast]
    exact h
  exact absurd hold (transition_activate ht).1

/-- **更新の入れ子は二段で尽きる**。`nesting` より深い上限を置いても、することは変わらない。 -/
theorem rootUpdate_nesting (fuel : Nat) (device : Ref) (strict : Bool) (s : System) :
    rootUpdate adopt key (fuel + nesting) device strict s =
      rootUpdate adopt key nesting device strict s := by
  refine rootUpdate_congr fun s₁ d _ _ => invokePost_congr fun ht => ?_
  -- `_activate_device` の中の更新は、`last_data` が既に `ENABLED` である
  refine rootUpdate_enabled fuel ?_
  show adminState (Function.update s₁.heap d (activating (s₁.heap d)) d) = some .enabled
  rw [Function.update_self, adminState_activating]
  exact (transition_activate ht).2

/-! ## 一歩と実行 -/

theorem idle_step (h : Idle s) (a : Action) : Idle (step adopt key s a) := by
  have hupdate : ∀ s d strict, Idle s → Idle (rootUpdate adopt key nesting d strict s).2 :=
    fun s d strict h => ⟨rootUpdate_drained nesting d strict s h.queue,
      (rootUpdate_grows nesting d strict s).fresh h.fresh⟩
  cases a with
  | fill r m => exact ⟨h.queue, h.fresh⟩
  | collect hash => exact ⟨h.queue, h.fresh⟩
  | start initial =>
    constructor
    · exact invokePost_keeps (fun _ _ _ => id) (fun _ _ => id)
        (fun d => rootUpdate_drained nesting d false) initial s h.queue
    · exact (invokePost_keeps (R := Grows) (fun _ _ _ => Grows.of_eq rfl rfl)
        (fun _ _ => Grows.of_eq rfl rfl) (fun d => rootUpdate_grows nesting d false) initial
        s).fresh h.fresh
  | update device strict => exact hupdate s device strict h
  | updateDevice device => exact hupdate _ device false ⟨h.queue, h.fresh⟩

/-- 検査に掛かる更新は断られる。 -/
theorem rejected_of_refused (hs : Idle s) (h : Refused key s device strict) :
    Rejected adopt key s device strict := by
  obtain ⟨e, he⟩ := updateListed_refused adopt (fun d => rootUpdate adopt key 1 d false) h
  have hrun : rootUpdate adopt key nesting device strict s = (.error e, s) := by
    rw [nesting, rootUpdate_eq hs.queue, andFinally_apply, he]
    dsimp only
    rw [hs.queue]
    rfl
  rw [Rejected, hrun]
  exact ⟨⟨e, rfl⟩, rfl⟩

/--
検査に掛からない更新は断られない。

中身が同じなら正常に返り、違えば新しい番号の版が据えられる。
後の callback が何をしても、版の番号は元に戻らない。
-/
theorem not_rejected_of_not_refused (hs : Idle s) (h : ¬Refused key s device strict) :
    ¬Rejected adopt key s device strict := by
  rintro ⟨⟨e, he⟩, hstored⟩
  unfold Refused at h
  rw [not_or, not_or, Bool.not_eq_false] at h
  obtain ⟨hkey, hwell, hrepeat⟩ := h
  rw [nesting, rootUpdate_eq hs.queue, andFinally_apply] at he hstored
  dsimp only at he hstored
  rcases doUpdate_spec adopt (fun d => rootUpdate adopt key 1 d false) s device strict
    with ⟨-, hill⟩ | ⟨hdo, -⟩
  · exact hwell hill
  by_cases hdata : s.data = s.heap device
  · rw [if_pos hdata] at hdo
    rw [updateListed_ok hkey hdo] at he
    split at he
    · cases he
    · next hhash =>
      split at he
      · cases he
      · next hother => exact hrepeat ⟨hdata, hhash, Bool.eq_false_iff.mpr hother⟩
  · rw [if_neg hdata] at hdo
    obtain ⟨rev, s₁, hrep, hlatest, huid, hnext, -⟩ := replaceData_ok s device
    have hnew := updateListed_latest hkey (hdo.trans hrep)
    rw [hlatest] at hnew
    revert hnew hstored
    generalize (updateListed adopt (fun d => rootUpdate adopt key 1 d false) key device strict s).2
      = s₂
    intro hstored hnew
    have hu : ∀ d, Keeps Grows (rootUpdate adopt key 1 d false) :=
      fun d => rootUpdate_grows 1 d false
    have hsame := congrArg (fun p => p.1.1.uid) hstored
    have hfresh := hs.fresh
    simp only [stored] at hsame
    rcases (deferred_grows adopt hu s₂.queue.length s₂).latest with hkeep | hle
    · rw [hkeep, hnew.1, huid] at hsame
      omega
    · rw [hnew.2] at hle
      omega

/--
**禁じられた遷移の更新が断られるのは、木自身の検査に掛かるときに限る**。

`PRE_UPDATE` の callback は Deferred を返すだけで、遷移を理由に更新を拒むことがない。
object の使い回しや、adapter の `adopt_device` の成否によらず、どの実行についても同値である。
-/
theorem forbidden_rejected_iff (adopt : Msg → Except Err Unit) (key : String) (hs : Idle s)
    (l : List Action) :
    Steps.Each (step adopt key) (OnForbidden (Rejected adopt key)) s l ↔
      Steps.Each (step adopt key) (OnForbidden (Refused key)) s l := by
  refine Steps.each_iff_each (I := Idle) (A := fun _ => True) (fun s a _ hs => ⟨?_, fun _ => ?_⟩)
    (fun _ _ => trivial) hs
  · cases a with
    | update device strict =>
      refine imp_congr_right fun _ => ⟨fun hrej => ?_, rejected_of_refused hs⟩
      by_contra hnot
      exact not_rejected_of_not_refused hs hnot hrej
    | fill r m => exact Iff.rfl
    | collect hash => exact Iff.rfl
    | start initial => exact Iff.rfl
    | updateDevice device => exact Iff.rfl
  · exact idle_step hs a

/-! ## 例 -/

/-- device の message。子の field は空である。 -/
def deviceMsg (id : String) (admin : AdminState) (flows : List Msg) : Msg :=
  .mk ⟨"Device", [("id", .str id), ("admin_state", .int admin.number), ("oper_status", .int 0)]⟩
    [("ports", []), ("flows", flows), ("flow_groups", [])]

/-- `PREPROVISIONED` の device `d` を加えた直後。object `0` が保存されている。 -/
def preprovisioned : System where
  heap := fun _ => deviceMsg "d" .preprovisioned []
  cache := fun _ => none
  latest := ⟨0, deviceMsg "d" .preprovisioned [], 0⟩
  listed := ⟨0, deviceMsg "d" .preprovisioned [], 0⟩
  nextUid := 1
  queue := []
  lastData := none

/-- 子の field に値のある更新は、`PREPROVISIONED → UNKNOWN` のままに断られる。 -/
theorem forbidden_rejected_iff_children :
    Idle preprovisioned ∧ Steps.Each (step (fun _ => .ok ()) "d")
      (OnForbidden (Rejected (fun _ => .ok ()) "d")) preprovisioned
      [.start 0, .fill 1 (deviceMsg "d" .unknown [Config.volthaDefault "Flows"]),
        .update 1 false] := by
  have hidle : Idle preprovisioned := ⟨rfl, by decide⟩
  refine ⟨hidle, (forbidden_rejected_iff _ _ hidle _).mpr ⟨trivial, trivial, fun _ => ?_, trivial⟩⟩
  exact Or.inr (Or.inl (Or.inr (Or.inl rfl)))

/-- `PREPROVISIONED` の device を `UNKNOWN` にする更新は、表で `False` なのに通ってしまう。 -/
theorem invalid_transition_accepted :
    ¬Steps.Each (step (fun _ => .ok ()) "d") (OnForbidden (Rejected (fun _ => .ok ()) "d"))
      preprovisioned [.start 0, .fill 1 (deviceMsg "d" .unknown []), .update 1 false] := by
  rintro ⟨-, -, h, -⟩
  obtain ⟨⟨e, he⟩, -⟩ := h trivial
  cases he

end Voltha.Core.DeviceAgent
