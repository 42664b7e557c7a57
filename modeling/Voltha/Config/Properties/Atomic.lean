import Voltha.Config.Properties.Isolation

/-!
# 断られた操作

transaction の外の `update` / `add` / `remove` は、降りる途中の検査で断られるかぎり何も変えない。
例外は `Cannot change key field` だけで、これは子の版を据えた **後で** 調べられる。
key を変えようとする `update` が無ければこの検査にかかることは無く、断られた操作は跡を残さない。
-/

namespace Voltha.Config

open Exec

variable {S : Schema} {κ : Mode} {X : State → Rev → Prop}
variable {s s' s₁ : State} {n : NodeId} {Ok : List Seg → Act → Prop} {route : List Seg}

/-- 前からある node の branch と、callback の記録が変わらない。 -/
structure Kept (s s' : State) : Prop where
  next : s.nextNode ≤ s'.nextNode
  branches : ∀ m < s.nextNode, (s'.node m).branches = (s.node m).branches
  calls : s'.calls = s.calls

theorem Kept.refl (s : State) : Kept s s := ⟨Nat.le_refl _, fun _ _ => rfl, rfl⟩

/-- commit された branch の用意は、状態を変えない。 -/
theorem branchFor_none_state (n : NodeId) (s : State) : (branchFor n none s).2 = s := by
  unfold branchFor
  rw [read_bind_apply]
  cases (s.node n).branches none <;> rfl

theorem branchFor_none_eq {b : Branch} (h : branchFor n none s = (.ok b, s₁)) : s₁ = s := by
  rw [← branchFor_none_state n s, h]

/-- 例外で終わった操作は、前からある branch にも callback にも触らない。 -/
theorem Effect.kept_of_error (hX : Closed X) (hκ : κ.keys)
    (hOk : ∀ route act, Ok route act → Keeping S κ route act) {res : Except Err Rev}
    (h : Effect S none Ok route n s res s') :
    Good S κ X s → Alive s n → SlotRoute s n route → ∀ e, res = .error e → Kept s s' := by
  induction h with
  | fail e h =>
    intro _ _ _ _ _
    rcases h with rfl | rfl
    · exact Kept.refl _
    · rw [branchFor_none_state]; exact Kept.refl _
  | same => exact fun _ _ _ e he => by cases he
  | write => exact fun _ _ _ e he => by cases he
  | insert => exact fun _ _ _ e he => by cases he
  | @insertFail route n s s₁ s₂ b f key v data e hb _ _ _ _ hm =>
    intro _ _ _ _ _
    obtain rfl := branchFor_none_eq hb
    have hcalls := mknode_calls S (complete S data) (some ⟨n, f.name, some key, some v⟩) s₁
    have hframe := mknode_keeps S (complete S data) (some ⟨n, f.name, some key, some v⟩) s₁
    rw [hm] at hcalls hframe
    exact ⟨hframe.next, fun m hlt => mknode_other hm hlt, hcalls⟩
  | erase => exact fun _ _ _ e he => by cases he
  | down => exact fun _ _ _ e he => by cases he
  | downSame => exact fun _ _ _ e he => by cases he
  | keyChange _ hb hf hkey hc heff hne _ =>
    -- key は node のもののままなので、この検査にはかからない
    intro hg hn hr _ _
    obtain ⟨hg1, hb1⟩ := branchFor_good hX hg hb
    obtain ⟨hat, hdeep⟩ := hc.childAt hb1 hf
    have hland := heff.good hX hOk hg1 hdeep.self.alive
      fun hκ => hc.slotRoute hat (hdeep.self.keyed hκ).own
    exact absurd (hland.keyIn_eq hκ hb1 hf hkey hc heff.frame) hne
  | failBelow hb hf hc _ ih =>
    intro hg hn hr e he
    obtain ⟨hg1, hb1⟩ := branchFor_good hX hg hb
    obtain ⟨hat, hdeep⟩ := hc.childAt hb1 hf
    obtain rfl := branchFor_none_eq hb
    exact ih hg1 hdeep.self.alive (hc.slotRoute hat (hdeep.self.keyed hκ).own) e he

/-! ## transaction の外の操作 -/

/-- transaction の外の `update` / `add` / `remove`。 -/
inductive Direct : Step → Prop
  | update (path : List String) (data : Msg) (strict : Bool) :
      Direct (.update none path data strict)
  | add (path : List String) (data : Msg) : Direct (.add none path data)
  | remove (path : List String) : Direct (.remove none path)

/--
見えるものが変わらないこと。

node ごとの branch（最新の版と、版の一覧）と tag、root と proxy からの読み、
callback の queue と呼び出しの記録が、前と同じである。
-/
structure Untouched (S : Schema) (s s' : State) : Prop where
  branches : ∀ n < s.nextNode, (s'.node n).branches = (s.node n).branches
  tags : ∀ n < s.nextNode, (s'.node n).tags = (s.node n).tags
  reads : ∀ n < s.nextNode, ∀ path depth k,
    get S s' n path none depth k = get S s n path none depth k
  queue : s'.queue = s.queue
  announced : s'.announced = s.announced

/-- 返り値を捨てても、例外は残る。 -/
theorem discard_error {α : Type} {m : Op α} {e : Err}
    (h : ((do let _ ← m; pure ()) s).1 = .error e) : (m s).1 = .error e := by
  rw [bind_apply] at h
  rcases hm : m s with ⟨e' | a, s'⟩ <;> rw [hm] at h
  · exact congrArg Except.error (Except.error.inj h)
  · cases h

/-- 枠に入れた操作が例外で終われば、見えるものは変わらない。 -/
theorem Sound.untouched_of_error (hX : Closed X) (hκ : κ.keys) (h : Sound S κ X s) {op : Op Rev}
    (heff : Effect S none (Keeping S κ) [] rootId s (op s).1 (op s).2) {e : Err}
    (herr : (inTransaction none (rootOp none op) s).1 = .error e) :
    Untouched S s (collect (inTransaction none (rootOp none op) s).2) := by
  have hframe : Frame (fun _ => False) s (inTransaction none (rootOp none op) s).2 :=
    guarded_frame heff.frame.weakest
  have hkept : Kept s (inTransaction none (rootOp none op) s).2 := by
    rcases guarded_cases op none s with ⟨he, -⟩ | ⟨-, -, he⟩
    · rw [he]; exact Kept.refl s
    · rw [he] at herr ⊢
      have hk := heff.kept_of_error hX hκ (fun _ _ h => h) h.good h.root (h.slotRoute []) e herr
      have hq : (op s).2.queue = [] := (congrArg Prod.fst hk.calls).trans h.queue
      rw [executeDeferredCallbacks_eq hq]
      exact hk
  generalize (inTransaction none (rootOp none op) s).2 = s₁ at hframe hkept
  refine ⟨hkept.branches, hframe.tags, ?_, congrArg Prod.fst hkept.calls,
    congrArg Prod.snd hkept.calls⟩
  intro n hn path depth k
  have hreads : SameReads k s (collect s₁) :=
    ⟨⟨hframe.type, hframe.proxy⟩, fun m hm => congrFun (hkept.branches m hm) k,
      fun m hm => congrFun (hkept.branches m hm) none⟩
  exact get_congr h.good hreads hn path depth

/--
**断られた操作は跡を残さない。**

どの一歩も key を変えようとしない実行では、transaction の外の `update` / `add` / `remove` が
例外で終わったとき、どの node の最新の版も、版の一覧も、callback の queue も前と同じである。
-/
theorem failed_direct_untouched (S : Schema) {kv : Option Store} {data : Msg}
    (hinit : (initRoot S kv data).1.isOk = true) {l : List Step} {st : Step}
    (hl : EveryStep S (fun s st => st.KeepsKey S s) (start S kv data) (l ++ [st]))
    (hst : Direct st) {e : Err}
    (herr : (perform S st (run S (start S kv data) l)).1 = .error e) :
    Untouched S (run S (start S kv data) l) (step S (run S (start S kv data) l) st) := by
  obtain ⟨hl, hkey, -⟩ := EveryStep.append.mp hl
  have hs : Sound S ⟨True, False⟩ (fun _ _ => True) (run S (start S kv data) l) :=
    run_sound closed_true (hl.mono fun _ _ h => ⟨fun _ => h, False.elim⟩)
      (start_sound closed_true False.elim hinit)
  generalize run S (start S kv data) l = s at hs hkey herr
  unfold step
  cases hst with
  | update path data strict =>
    rw [perform] at herr ⊢
    rw [discard_state]
    exact hs.untouched_of_error closed_true trivial (update_keeping fun _ => hkey)
      (discard_error herr)
  | add path data =>
    rw [perform] at herr ⊢
    rw [discard_state]
    exact hs.untouched_of_error closed_true trivial (add_keeping False.elim) (discard_error herr)
  | remove path =>
    rw [perform] at herr ⊢
    rw [discard_state]
    exact hs.untouched_of_error closed_true trivial (remove_keeping path) (discard_error herr)

/-- 重なる key の `add` は断られ、木はそのままである。 -/
theorem failed_direct_untouched_duplicate :
    Untouched volthaSchema (run volthaSchema (start volthaSchema none sampleInstance) [])
      (step volthaSchema (run volthaSchema (start volthaSchema none sampleInstance) [])
        (.add none ["adapters"] (adapterMsg "1" "x"))) :=
  failed_direct_untouched volthaSchema (e := .valueError "Duplicate key \"1\"") (by decide +kernel)
    ⟨trivial, trivial⟩ (Direct.add _ _) (by decide +kernel)

/--
adapter の id を変えようとする `update` は断られるが、子の node の最新の版は変わっている。
-/
theorem failed_key_change_sticks :
    Reachable volthaSchema (start volthaSchema none sampleInstance) ∧
    (perform volthaSchema (.update none ["adapters", "1"] (adapterMsg "2" "x") false)
      (start volthaSchema none sampleInstance)).1
        = .error (.valueError "Cannot change key field") ∧
    ¬Untouched volthaSchema (start volthaSchema none sampleInstance)
      (step volthaSchema (start volthaSchema none sampleInstance)
        (.update none ["adapters", "1"] (adapterMsg "2" "x") false)) := by
  refine ⟨reachable_run (by decide +kernel) [], by decide +kernel, fun h => ?_⟩
  have hread := h.reads 3 (by decide +kernel) [] none none
  exact absurd hread (by decide +kernel)

end Voltha.Config
