import Voltha.Config.Reentry
import Voltha.Config.VolthaSchema
import Voltha.Config.Properties.Reach

/-!
# callback の中からの操作は、いつ断られるか

queue が空でない間に呼ばれた callback の操作は、すべて断られる。空になってから呼ばれた
callback の操作は、入れ子にせず順に実行したのと同じ効果を持つ。
どちらの場合も、積まれた callback は積まれた順に一度ずつ呼ばれる。
-/

namespace Voltha.Config

open Exec

variable {S : Schema} {reg : Registry} {s s' : State} {tr : Trace}

/-! ## 記録の連結 -/

namespace Trace

variable (a b : Trace)

@[simp] theorem enqueued_append : enqueued (a ++ b) = enqueued a ++ enqueued b :=
  List.flatMap_append

@[simp] theorem executed_append : executed (a ++ b) = executed a ++ executed b :=
  List.filterMap_append

@[simp] theorem issued_append : issued (a ++ b) = issued a ++ issued b := List.filterMap_append

@[simp] theorem refused_append : refused (a ++ b) = refused a ++ refused b :=
  List.filterMap_append

@[simp] theorem enqueued_nil : enqueued [] = [] := rfl

@[simp] theorem executed_nil : executed [] = [] := rfl

@[simp] theorem issued_nil : issued [] = [] := rfl

@[simp] theorem refused_nil : refused [] = [] := rfl

@[simp] theorem enqueued_popped (item : Item) (pending : List Item) :
    enqueued (.popped item pending :: a) = enqueued a := rfl

@[simp] theorem executed_popped (item : Item) (pending : List Item) :
    executed (.popped item pending :: a) = item :: executed a := rfl

@[simp] theorem issued_popped (item : Item) (pending : List Item) :
    issued (.popped item pending :: a) = issued a := rfl

@[simp] theorem refused_popped (item : Item) (pending : List Item) :
    refused (.popped item pending :: a) = refused a := rfl

@[simp] theorem enqueued_accepted (c : RootCall) (items : List Item) :
    enqueued (.issued c false :: .enqueued items :: a) = items ++ enqueued a := rfl

@[simp] theorem executed_accepted (c : RootCall) (items : List Item) :
    executed (.issued c false :: .enqueued items :: a) = executed a := rfl

@[simp] theorem issued_accepted (c : RootCall) (items : List Item) :
    issued (.issued c false :: .enqueued items :: a) = c :: issued a := rfl

@[simp] theorem refused_accepted (c : RootCall) (items : List Item) :
    refused (.issued c false :: .enqueued items :: a) = refused a := rfl

end Trace

theorem onlyLastIssues_append {a b : Trace} :
    OnlyLastIssues reg (a ++ b) ↔ OnlyLastIssues reg a ∧ OnlyLastIssues reg b := by
  unfold OnlyLastIssues
  simp only [List.mem_append]
  constructor
  · exact fun h => ⟨fun i p hm => h i p (Or.inl hm), fun i p hm => h i p (Or.inr hm)⟩
  · rintro ⟨ha, hb⟩ i p (hm | hm)
    · exact ha i p hm
    · exact hb i p hm

theorem onlyLastIssues_popped {item : Item} {pending : List Item} :
    OnlyLastIssues reg (.popped item pending :: tr) ↔
      (pending ≠ [] → silent (reg item.1 item.2.1) item.2.2 = true) ∧ OnlyLastIssues reg tr := by
  unfold OnlyLastIssues
  constructor
  · exact fun h => ⟨h item pending List.mem_cons_self,
      fun i p hm => h i p (List.mem_cons_of_mem _ hm)⟩
  · rintro ⟨h, ht⟩ i p hm
    rcases List.mem_cons.mp hm with he | hm
    · cases he; exact h
    · exact ht i p hm

theorem onlyLastIssues_accepted {c : RootCall} {items : List Item} :
    OnlyLastIssues reg (.issued c false :: .enqueued items :: tr) ↔ OnlyLastIssues reg tr := by
  unfold OnlyLastIssues
  simp

theorem sequential_append (s : State) (a b : List RootCall) :
    sequential S s (a ++ b) = sequential S (sequential S s a) b := List.foldl_append

/-! ## 入れ子の無い実行との対応 -/

theorem discard_apply {α : Type} (op : Op α) (s : State) :
    discard op s = ((op s).1.map fun _ => (), (op s).2) := by
  unfold discard
  rw [bind_apply]
  rcases op s with ⟨_ | _, _⟩ <;> rfl

theorem rootOp_run (hq : s.queue = []) (k : Option TxId) (op : Op Rev) :
    discard (rootOp k op) s = ((rootBody k op s).1, executeDeferredCallbacks (rootBody k op s).2) := by
  have hcheck : checkCallbackQueue s = (.ok (), s) := by
    unfold checkCallbackQueue
    rw [read_bind_apply, hq]
    rfl
  rw [discard_apply]
  unfold rootOp rootBody
  rw [bind_ok hcheck]
  cases k with
  | none =>
    dsimp only
    rw [discard_apply]
    rfl
  | some t =>
    unfold andFinally
    dsimp only
    rw [read_bind_apply, read_bind_apply]
    cases s.dirty t with
    | none => rfl
    | some l => rw [ofOption_some, pure_bind_apply, pure_bind_apply, discard_apply]

theorem openTransaction_queue : Keeps (Unchanged State.queue) openTransaction := by
  refine Keeps.read.bind fun s₀ => Keeps.bind (fun _ => rfl) fun _ => Keeps.bind ?_ fun _ =>
    Keeps.bind (fun _ => rfl) fun _ => Keeps.pure _
  exact Keeps.read.bind fun _ => (Keeps.ofOption _ _).bind fun _ =>
    Keeps.bind (fun _ => rfl) fun _ => Keeps.pure _

/-- queue が空なら、method の実行は、本体の後に callback を記録することである。 -/
theorem RootCall.run_state (hq : s.queue = []) (c : RootCall) :
    (c.run S s).2 = executeDeferredCallbacks (c.body S s).2 := by
  cases c with
  | update k path data strict => exact congrArg Prod.snd (rootOp_run hq k _)
  | add k path data => exact congrArg Prod.snd (rootOp_run hq k _)
  | remove k path => exact congrArg Prod.snd (rootOp_run hq k _)
  | mkTxbranch =>
    refine (executeDeferredCallbacks_eq ?_).symm
    show (discard openTransaction s).2.queue = []
    rw [discard_apply]
    exact (openTransaction_queue s).trans hq
  | delTxbranch t =>
    exact (executeDeferredCallbacks_eq ((dropTransaction_queue t s).trans hq)).symm
  | foldTxbranch t =>
    show (Voltha.Config.foldTxbranch S t s).2 = executeDeferredCallbacks (foldBody S t s).2
    unfold foldBody Voltha.Config.foldTxbranch
    have hdry := mergeTxbranch_dry_state S t (mergeFuel s) rootId s
    rcases hm : mergeTxbranch S t true (mergeFuel s) rootId s with ⟨o, s₁⟩
    rw [hm] at hdry
    have hdry : s₁ = s := hdry
    subst hdry
    cases o with
    | ok o =>
      dsimp only
      rcases mergeTxbranch S t false (mergeFuel s₁) rootId s₁ with ⟨_ | _, s₂⟩ <;> rfl
    | error e =>
      have hdrop := executeDeferredCallbacks_eq ((dropTransaction_queue t s₁).trans hq)
      cases e with
      | mergeConflict m =>
        dsimp only
        rcases hd : dropTransaction t s₁ with ⟨_ | _, s₂⟩ <;> rw [hd] at hdrop <;>
          exact hdrop.symm
      | _ => exact (executeDeferredCallbacks_eq hq).symm

/-! ## 他の callback が待っている間 -/

section Busy

variable {d : State → Option (State × Trace)}

/-- 断られた操作の記録。 -/
theorem callWith_busy (hq : s.queue ≠ []) (op : DirectOp) :
    callWith S d op.call s = some (.error (.assertion ""), s, [.issued op.call true]) := by
  unfold callWith
  rw [if_pos]
  exact ⟨by cases op <;> rfl, hq⟩

/-- 待っている callback があれば、操作はすべて断られ、状態は変わらない。 -/
structure Balked (s s' : State) (tr : Trace) : Prop where
  state : s' = s
  executed : tr.executed = []
  enqueued : tr.enqueued = []
  issued : tr.issued = tr.refused
  popped : ∀ reg, OnlyLastIssues reg tr

theorem Balked.append {s₁ s₂ : State} {a b : Trace} (h₁ : Balked s s₁ a) (h₂ : Balked s₁ s₂ b) :
    Balked s s₂ (a ++ b) where
  state := h₂.state.trans h₁.state
  executed := by rw [Trace.executed_append, h₁.executed, h₂.executed]; rfl
  enqueued := by rw [Trace.enqueued_append, h₁.enqueued, h₂.enqueued]; rfl
  issued := by rw [Trace.issued_append, Trace.refused_append, h₁.issued, h₂.issued]
  popped reg := onlyLastIssues_append.mpr ⟨h₁.popped reg, h₂.popped reg⟩

theorem balked_nil (s : State) : Balked s s [] :=
  ⟨rfl, rfl, rfl, rfl, fun _ _ _ hm => absurd hm List.not_mem_nil⟩

theorem balked_refused (s : State) (c : RootCall) : Balked s s [.issued c true] :=
  ⟨rfl, rfl, rfl, rfl, fun _ _ _ hm => by simp at hm⟩

theorem runProg_busy (hq : s.queue ≠ []) : ∀ {p : Prog} {r : Except Err Context} {s' : State}
    {tr : Trace}, runProg (callWith S d) p s = some (r, s', tr) →
    Balked s s' tr ∧ (tr.refused = [] ↔ p = .finish r)
  | .finish r, r', s', tr, h => by
    rw [runProg] at h
    cases h
    exact ⟨balked_nil s, by simp⟩
  | .issue op next, r', s', tr, h => by
    rw [runProg, callWith_busy hq] at h
    dsimp only at h
    split at h
    · cases h
    · next c s₂ tr₂ hn =>
      cases h
      refine ⟨(balked_refused s op.call).append (runProg_busy hq hn).1, ?_⟩
      rw [Trace.refused_append]
      constructor
      · intro he
        cases he
      · intro he
        cases he

theorem invokeCallbacks_busy (hq : s.queue ≠ []) : ∀ {fs : List (Context → Prog)} {c : Context}
    {s' : State} {tr : Trace}, invokeCallbacks (callWith S d) fs c s = some (s', tr) →
    Balked s s' tr ∧ (tr.refused = [] ↔ silent fs c = true)
  | [], c, s', tr, h => by
    rw [invokeCallbacks] at h
    cases h
    exact ⟨balked_nil s, by simp [silent]⟩
  | f :: fs, c, s', tr, h => by
    rw [invokeCallbacks] at h
    split at h
    · cases h
    · next r s₁ tr₁ hp =>
      obtain ⟨hb₁, hiff₁⟩ := runProg_busy hq hp
      split at h
      · cases h
      · next s₂ tr₂ hrest =>
        cases h
        rw [hb₁.state] at hrest hb₁
        obtain ⟨hb₂, hiff₂⟩ := invokeCallbacks_busy hq hrest
        refine ⟨hb₁.append hb₂, ?_⟩
        rw [Trace.refused_append, List.append_eq_nil_iff, hiff₁, hiff₂, silent]
        constructor
        · rintro ⟨he, hsil⟩
          rw [he]
          exact hsil
        · intro hsil
          cases hf : f c with
          | finish r' =>
            rw [hf, runProg] at hp
            cases hp
            rw [hf] at hsil
            exact ⟨rfl, hsil⟩
          | issue op next =>
            rw [hf] at hsil
            cases hsil

end Busy

/-! ## queue が空のとき -/

/-- queue が空の状態から始めた実行。 -/
structure Orderly (S : Schema) (reg : Registry) (s s' : State) (tr : Trace) : Prop where
  queue : s'.queue = []
  once : tr.executed = tr.enqueued
  refused_iff : tr.refused = [] ↔ OnlyLastIssues reg tr
  effect : tr.refused = [] → s' = sequential S s tr.issued

theorem Orderly.refl (hq : s.queue = []) : Orderly S reg s s [] :=
  ⟨hq, rfl, ⟨fun _ _ _ hm => absurd hm List.not_mem_nil, fun _ => rfl⟩, fun _ => rfl⟩

theorem Orderly.append {s₁ s₂ : State} {a b : Trace} (h₁ : Orderly S reg s s₁ a)
    (h₂ : Orderly S reg s₁ s₂ b) : Orderly S reg s s₂ (a ++ b) where
  queue := h₂.queue
  once := by rw [Trace.executed_append, Trace.enqueued_append, h₁.once, h₂.once]
  refused_iff := by
    rw [Trace.refused_append, List.append_eq_nil_iff, h₁.refused_iff, h₂.refused_iff,
      onlyLastIssues_append]
  effect h := by
    rw [Trace.refused_append, List.append_eq_nil_iff] at h
    rw [Trace.issued_append, sequential_append, ← h₁.effect h.1]
    exact h₂.effect h.2

/-- queue を空にする実行。 -/
structure Drained (S : Schema) (reg : Registry) (s s' : State) (tr : Trace) : Prop where
  queue : s'.queue = []
  once : tr.executed = s.queue ++ tr.enqueued
  refused_iff : tr.refused = [] ↔ OnlyLastIssues reg tr
  effect : tr.refused = [] → s' = sequential S (executeDeferredCallbacks s) tr.issued

/-- 空にする手続きが正しければ、queue が空のときの呼び出しは断られない。 -/
theorem callWith_orderly {d : State → Option (State × Trace)}
    (hd : ∀ {s s' tr}, d s = some (s', tr) → Drained S reg s s' tr) (hq : s.queue = [])
    {c : RootCall} {r : Except Err Unit} (h : callWith S d c s = some (r, s', tr)) :
    Orderly S reg s s' tr := by
  unfold callWith at h
  rw [if_neg (fun hc => hc.2 hq)] at h
  split at h
  · cases h
  · next s₂ tr₂ hdr =>
    have hdrained := hd hdr
    cases h
    rw [hq, List.length_nil, List.drop_zero]
    refine ⟨hdrained.queue, ?_, ?_, fun hr => ?_⟩
    · rw [Trace.executed_accepted, Trace.enqueued_accepted]
      exact hdrained.once
    · rw [Trace.refused_accepted, onlyLastIssues_accepted]
      exact hdrained.refused_iff
    · rw [Trace.issued_accepted]
      show s' = sequential S (c.run S s).2 tr₂.issued
      rw [c.run_state hq]
      exact hdrained.effect hr

section Idle

variable {d : State → Option (State × Trace)}
variable (hd : ∀ {s s' tr}, d s = some (s', tr) → Drained S reg s s' tr)

include hd

theorem runProg_orderly : ∀ {p : Prog} {s : State} {r : Except Err Context} {s' : State}
    {tr : Trace}, s.queue = [] → runProg (callWith S d) p s = some (r, s', tr) →
    Orderly S reg s s' tr
  | .finish r, s, r', s', tr, hq, h => by
    rw [runProg] at h
    cases h
    exact Orderly.refl hq
  | .issue op next, s, r', s', tr, hq, h => by
    rw [runProg] at h
    split at h
    · cases h
    · next r₁ s₁ tr₁ hc =>
      have h₁ := callWith_orderly hd hq hc
      split at h
      · cases h
      · next c s₂ tr₂ hn =>
        cases h
        exact h₁.append (runProg_orderly h₁.queue hn)

theorem invokeCallbacks_orderly : ∀ {fs : List (Context → Prog)} {c : Context} {s s' : State}
    {tr : Trace}, s.queue = [] → invokeCallbacks (callWith S d) fs c s = some (s', tr) →
    Orderly S reg s s' tr
  | [], c, s, s', tr, hq, h => by
    rw [invokeCallbacks] at h
    cases h
    exact Orderly.refl hq
  | f :: fs, c, s, s', tr, hq, h => by
    rw [invokeCallbacks] at h
    split at h
    · cases h
    · next r s₁ tr₁ hp =>
      have h₁ := runProg_orderly hd hq hp
      split at h
      · cases h
      · next s₂ tr₂ hrest =>
        cases h
        exact h₁.append (invokeCallbacks_orderly h₁.queue hrest)

end Idle

/-- `execute_deferred_callbacks` は queue を先頭から順に一度ずつ呼ぶ。 -/
theorem drain_drained (reg : Registry) : ∀ (fuel : Nat) {s s' : State} {tr : Trace},
    drain S reg fuel s = some (s', tr) → Drained S reg s s' tr
  | 0, _, _, _, h => by cases h
  | fuel + 1, s, s', tr, h => by
    rw [drain] at h
    split at h
    · next hq =>
      cases h
      refine ⟨hq, by rw [hq]; rfl, (Orderly.refl (S := S) hq).refused_iff, fun _ => ?_⟩
      rw [executeDeferredCallbacks_eq hq]
      rfl
    · next item rest hq =>
      split at h
      · cases h
      · next s₁ tr₁ hinv =>
        split at h
        · cases h
        · next s₂ tr₂ hdr =>
          cases h
          have hrest := drain_drained reg fuel hdr
          by_cases hlast : rest = []
          · -- 最後の callback。操作は断られない
            subst hlast
            have h₁ := invokeCallbacks_orderly (fun h => drain_drained reg fuel h) rfl hinv
            refine ⟨hrest.queue, ?_, ?_, fun hr => ?_⟩
            · rw [Trace.executed_popped, Trace.executed_append, Trace.enqueued_popped,
                Trace.enqueued_append, h₁.once, hrest.once, h₁.queue, hq]
              rfl
            · rw [Trace.refused_popped, Trace.refused_append, List.append_eq_nil_iff,
                onlyLastIssues_popped, onlyLastIssues_append, h₁.refused_iff, hrest.refused_iff]
              simp
            · rw [Trace.refused_popped, Trace.refused_append, List.append_eq_nil_iff] at hr
              rw [Trace.issued_popped, Trace.issued_append, sequential_append, hrest.effect hr.2,
                executeDeferredCallbacks_eq h₁.queue, h₁.effect hr.1]
              unfold executeDeferredCallbacks
              rw [hq]
          · -- 他の callback が待っている。操作はすべて断られる
            obtain ⟨hbalk, hsilent⟩ := invokeCallbacks_busy hlast hinv
            have hs := hbalk.state
            subst hs
            refine ⟨hrest.queue, ?_, ?_, fun hr => ?_⟩
            · rw [Trace.executed_popped, Trace.executed_append, Trace.enqueued_popped,
                Trace.enqueued_append, hbalk.executed, hbalk.enqueued, hrest.once, hq]
              rfl
            · rw [Trace.refused_popped, Trace.refused_append, List.append_eq_nil_iff,
                onlyLastIssues_popped, onlyLastIssues_append, hsilent, hrest.refused_iff]
              constructor
              · exact fun h => ⟨fun _ => h.1, hbalk.popped reg, h.2⟩
              · exact fun h => ⟨h.1 hlast, h.2.2⟩
            · rw [Trace.refused_popped, Trace.refused_append, List.append_eq_nil_iff] at hr
              rw [Trace.issued_popped, Trace.issued_append, hbalk.issued, hr.1, List.nil_append,
                hrest.effect hr.2]
              unfold executeDeferredCallbacks
              rw [hq]
              simp

theorem runCalls_orderly (reg : Registry) (fuel : Nat) : ∀ {cs : List RootCall} {s s' : State}
    {tr : Trace}, s.queue = [] → runCalls S reg fuel cs s = some (s', tr) → Orderly S reg s s' tr
  | [], s, s', tr, hq, h => by
    rw [runCalls] at h
    cases h
    exact Orderly.refl hq
  | c :: cs, s, s', tr, hq, h => by
    rw [runCalls] at h
    split at h
    · cases h
    · next r s₁ tr₁ hc =>
      have h₁ := callWith_orderly (fun h => drain_drained reg fuel h) hq hc
      split at h
      · cases h
      · next s₂ tr₂ hrest =>
        cases h
        exact h₁.append (runCalls_orderly reg fuel h₁.queue hrest)

/-! ## 主張 -/

/--
**callback の操作が守られる条件。**

どんな操作の列と、どんな `POST_*` の callback についても、積まれた callback が順に一度ずつ呼ばれ、
callback の出した操作がどれも、外側の操作が終わった後に出したのと同じ効果を持つのは、
操作を出す callback がいつも、待っている callback のうち最後のものであるときに限る。
-/
theorem honoured_iff_only_last_issues (S : Schema) (reg : Registry) (fuel : Nat)
    (calls : List RootCall) (s s' : State) (tr : Trace) (hq : s.queue = [])
    (h : runCalls S reg fuel calls s = some (s', tr)) :
    Honoured S s s' tr ↔ OnlyLastIssues reg tr := by
  have horder := runCalls_orderly reg fuel hq h
  constructor
  · exact fun hon => horder.refused_iff.mp hon.accepted
  · intro hlast
    have hr := horder.refused_iff.mpr hlast
    exact ⟨horder.once, hr, horder.effect hr⟩

/-- root に proxy がある木。 -/
private def proxied : State :=
  run volthaSchema (start volthaSchema none sampleInstance) [.getProxy [""] false]

/-- adapter が加わるたびに、adapter `0` を書き換える。 -/
private def touchOnAdd : Registry := fun _ type =>
  match type with
  | .postAdd => [fun c =>
      .issue (.update ["adapters", "0"] (adapterMsg "0" "seen") false) fun r => .finish (r.map fun _ => c)]
  | _ => []

/-- transaction の外で adapter を一つ加える。 -/
private def addOne : List RootCall := [.add none ["adapters"] (adapterMsg "5" "x")]

theorem honoured_iff_only_last_issues_one :
    ∃ s' tr, runCalls volthaSchema touchOnAdd 5 addOne proxied = some (s', tr) ∧
      (Honoured volthaSchema proxied s' tr ↔ OnlyLastIssues touchOnAdd tr) := by
  have hsome : (runCalls volthaSchema touchOnAdd 5 addOne proxied).isSome = true := by
    decide +kernel
  obtain ⟨⟨s', tr⟩, h⟩ := Option.isSome_iff_exists.mp hsome
  exact ⟨s', tr, h, honoured_iff_only_last_issues volthaSchema touchOnAdd 5 addOne proxied s' tr
    (by decide +kernel) h⟩

/-- transaction の中で adapter を二つ加えて commit する。 -/
private def addTwo : List RootCall :=
  [.mkTxbranch, .add (some 0) ["adapters"] (adapterMsg "5" "x"),
    .add (some 0) ["adapters"] (adapterMsg "6" "x"), .foldTxbranch 0]

/-- **二つの通知を積む commit では、一つ目の callback の操作が断られる。** -/
theorem first_of_two_callbacks_refused :
    ∃ s' tr, runCalls volthaSchema touchOnAdd 5 addTwo proxied = some (s', tr) ∧
      ¬ Honoured volthaSchema proxied s' tr := by
  have hlen : (runCalls volthaSchema touchOnAdd 5 addTwo proxied).map
      (fun p => p.2.refused.length) = some 1 := by decide +kernel
  obtain ⟨⟨s', tr⟩, h, hone⟩ := Option.map_eq_some_iff.mp hlen
  refine ⟨s', tr, h, fun hon => ?_⟩
  rw [hon.accepted] at hone
  cases hone

end Voltha.Config
