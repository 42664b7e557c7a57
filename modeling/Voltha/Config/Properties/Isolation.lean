import Voltha.Config.Properties.Reach
import Voltha.Config.VolthaSchema

/-!
# transaction の分離

transaction の中の操作は、その transaction の branch しか書かない（`Frame`）。
読みは、始めの node の branch と、そこから見える版の node の型と proxy だけで決まるので、
他の読み手から見えるものは変わらない。

途中で作られる node には commit された branch が付くが、番号が新しいので、
既に見えている版のどこにも現れない。
-/

namespace Voltha.Config

open Exec

variable {S : Schema} {s s' : State} {n : NodeId} {k : Option TxId}

/-- 追加の条件を置かない場合。 -/
theorem closed_true : Closed fun _ _ => True :=
  ⟨fun _ _ => trivial, fun _ _ _ _ _ _ _ _ _ _ => trivial, fun _ _ => trivial⟩

/-- 到達できる状態の、操作の中身によらない不変条件。 -/
theorem Reachable.sound (h : Reachable S s) : Sound S ⟨False, False⟩ (fun _ _ => True) s := by
  obtain ⟨kv, data, l, hinit, rfl⟩ := h
  refine run_sound closed_true ?_ (start_sound closed_true (fun hκ : False => hκ.elim) hinit)
  generalize start S kv data = s
  induction l generalizing s with
  | nil => trivial
  | cons st l ih => exact ⟨⟨False.elim, False.elim⟩, ih _⟩

/-! ## 読みの一致 -/

/-- 前からある node の型と proxy が同じ。 -/
structure SameNodes (s s' : State) : Prop where
  type : ∀ m < s.nextNode, (s'.node m).type = (s.node m).type
  proxy : ∀ m < s.nextNode, (s'.node m).proxy = (s.node m).proxy

/-- key `k` の読み手から見て、node の branch・型・proxy が同じ。 -/
structure SameReads (k : Option TxId) (s s' : State) : Prop extends SameNodes s s' where
  branch : ∀ m < s.nextNode, (s'.node m).branches k = (s.node m).branches k
  committed : ∀ m < s.nextNode, (s'.node m).branches none = (s.node m).branches none

theorem Frame.sameNodes {K : Option TxId → Prop} (h : Frame K s s') : SameNodes s s' :=
  ⟨h.type, h.proxy⟩

theorem Frame.sameReads {K : Option TxId → Prop} (h : Frame K s s') (hk : K k) (hn : K none) :
    SameReads k s s' :=
  ⟨h.sameNodes, fun m hm => h.branch m hm k hk, fun m hm => h.branch m hm none hn⟩

/-- 読みは node の表だけで決まる。 -/
theorem SameReads.congr {s'' : State} (h : SameReads k s s') (hn : s''.node = s'.node) :
    SameReads k s s'' :=
  ⟨⟨by rw [hn]; exact h.type, by rw [hn]; exact h.proxy⟩, by rw [hn]; exact h.branch,
    by rw [hn]; exact h.committed⟩

/-- 版の子孫の node がすべて既にあるもの。 -/
def Bounded (s : State) (r : Rev) : Prop := ∀ r', FieldTree.Sub r' r → Rev.node r' < s.nextNode

theorem Bounded.child {r c : Rev} {f : String} (h : Bounded s r) (hc : c ∈ r.child f) :
    Bounded s c := fun r' hr => h r' (hr.trans (FieldTree.Sub.of_mem_child hc))

theorem Deep.bounded {κ : Mode} {X : State → Rev → Prop} {r : Rev} (h : Deep S κ X s r) :
    Bounded s r := fun r' hr => (h r' hr).lt

/-- 版の子孫の node の型と proxy が同じ。 -/
def AgreeOn (s s' : State) (r : Rev) : Prop := ∀ r', FieldTree.Sub r' r →
  (s'.node (Rev.node r')).type = (s.node (Rev.node r')).type ∧
    (s'.node (Rev.node r')).proxy = (s.node (Rev.node r')).proxy

theorem AgreeOn.child {r c : Rev} {f : String} (h : AgreeOn s s' r) (hc : c ∈ r.child f) :
    AgreeOn s s' c := fun r' hr => h r' (hr.trans (FieldTree.Sub.of_mem_child hc))

theorem SameNodes.agreeOn (h : SameNodes s s') {r : Rev} (hr : Bounded s r) : AgreeOn s s' r :=
  fun r' hs => ⟨h.type _ (hr r' hs), h.proxy _ (hr r' hs)⟩

theorem doGet_agree {r : Rev} (h : AgreeOn s s' r) (depth : Option Nat) :
    doGet s' depth r = doGet s depth r := by
  unfold doGet
  rw [(h r (FieldTree.Sub.refl r)).2]

theorem doGetList_agree (depth : Option Nat) : ∀ {l : List Rev},
    (∀ c ∈ l, AgreeOn s s' c) → doGetList s' depth l = doGetList s depth l
  | [], _ => rfl
  | c :: l, hl => by
    rw [doGetList, doGetList, doGet_agree (hl c List.mem_cons_self) depth,
      doGetList_agree depth fun c hc => hl c (List.mem_cons_of_mem _ hc)]

theorem getRev_agree (depth : Option Nat) (path : List String) :
    ∀ r, AgreeOn s s' r → getRev S s' depth path r = getRev S s depth path r := by
  induction path using pathInduct with
  | nil => intro r hr; rw [getRev, getRev, doGet_agree hr depth]
  | cons name rest ih ih2 =>
    intro r hr
    have hlist : doGetList s' depth (r.child name) = doGetList s depth (r.child name) :=
      doGetList_agree depth fun c hc => hr.child hc
    rw [getRev, getRev, doGet_agree hr depth, (hr r (FieldTree.Sub.refl r)).1]
    split
    · rfl
    · split
      · rfl
      · next f _ =>
        cases f.kind with
        | single =>
          dsimp only
          split
          · rfl
          · next c hc => exact ih c (hr.child (List.mem_of_head? hc))
        | list => dsimp only; rw [hlist]
        | keyed key kt =>
          cases rest with
          | nil => dsimp only; rw [hlist]
          | cons keyStr path =>
            dsimp only
            rw [hlist]
            split
            · rfl
            · split
              · rfl
              · split
                · rfl
                · next hfind =>
                  exact ih2 keyStr path rfl _
                    (hr.child (List.mem_of_getElem? (findRevByKey_eq_some hfind).1))

theorem getRev_congr (h : SameNodes s s') (depth : Option Nat) (path : List String) (r : Rev)
    (hr : Bounded s r) : getRev S s' depth path r = getRev S s depth path r :=
  getRev_agree depth path r (h.agreeOn hr)

/-- 読みは node の表だけで決まる。 -/
theorem getRev_of_node (h : s'.node = s.node) (depth : Option Nat) (path : List String) (r : Rev) :
    getRev S s' depth path r = getRev S s depth path r :=
  getRev_agree depth path r fun _ _ => by rw [h]; exact ⟨rfl, rfl⟩

/-- 見えるものが同じなら、どの path を読んでも同じものが返る。 -/
theorem get_congr {κ : Mode} {X : State → Rev → Prop} (hg : Good S κ X s) (h : SameReads k s s')
    (hn : n < s.nextNode) (path : List String) (depth : Option Nat) :
    get S s' n path none depth k = get S s n path none depth k := by
  have hread : readBranch s' n k = readBranch s n k := by
    unfold readBranch
    rw [h.branch n hn, h.committed n hn]
  unfold get
  rw [hread]
  cases hb : readBranch s n k with
  | none => rfl
  | some b =>
    dsimp only
    refine getRev_congr h.toSameNodes depth _ _ (Deep.bounded (S := S) (κ := κ) (X := X) ?_)
    unfold readBranch at hb
    cases hk : (s.node n).branches k with
    | some b' =>
      rw [hk] at hb
      cases hb
      exact (hg.branch n k b hk).latest
    | none =>
      rw [hk] at hb
      exact (hg.branch n none b hb).latest

/-! ## 確定していない変更は見えない -/

/-- transaction `t` の中の操作と、`t` の開始と取り消し。 -/
inductive TxStep (s : State) (t : TxId) : Step → Prop
  | update (path : List String) (data : Msg) (strict : Bool) :
      TxStep s t (.update (some t) path data strict)
  | add (path : List String) (data : Msg) : TxStep s t (.add (some t) path data)
  | remove (path : List String) : TxStep s t (.remove (some t) path)
  | openTx (h : t = s.nextTx) : TxStep s t .openTx
  | cancel : TxStep s t (.cancel t)

/-- 枠に入れた操作が触らないものは、操作そのものが触らないもの。 -/
theorem guarded_frame {K : Option TxId → Prop} {op : Op Rev} (h : Frame K s (op s).2) :
    Frame K s (inTransaction k (rootOp k op) s).2 := by
  rcases guarded_cases op k s with ⟨he, -⟩ | ⟨-, -, he⟩
  · rw [he]; exact Frame.refl s
  · rw [he]; exact h.trans (frame_executeDeferred _)

/-- transaction の中の操作は、他の読み手から見えるものを変えない。 -/
theorem TxStep.sameReads (hs : Sound S ⟨False, False⟩ (fun _ _ => True) s) {t : TxId} {st : Step}
    (h : TxStep s t st) (hk : k ≠ some t) : SameReads k s (step S s st) := by
  have of_frame : Frame (· ≠ some t) s (perform S st s).2 → SameReads k s (step S s st) :=
    fun hf => (hf.sameReads hk (by simp)).congr rfl
  cases h with
  | update path data strict =>
    refine of_frame ?_
    rw [perform, discard_state]
    exact guarded_frame (update_keeps S (some t) data strict path rootId s)
  | add path data =>
    refine of_frame ?_
    rw [perform, discard_state]
    exact guarded_frame (add_keeps S (some t) data path rootId s)
  | remove path =>
    refine of_frame ?_
    rw [perform, discard_state]
    exact guarded_frame (remove_keeps S (some t) path rootId s)
  | openTx ht =>
    obtain ⟨b, hb⟩ := Option.isSome_iff_exists.mp hs.root.born
    have hp : s.latest? rootId = some b.latest := by unfold State.latest?; rw [hb]; rfl
    have hf := frame_setBranch s rootId (some s.nextTx) (some (forkBranch s.nextTx b.latest))
      (by simp)
    have hst : (step S s .openTx).node = (s.opened b.latest).node := by
      show (perform S .openTx s).2.node = _
      rw [perform, discard_state, openTransaction_eq hp]
    exact (hf.sameReads (by rw [← ht]; exact hk) (by simp)).congr hst
  | cancel =>
    have hf := dropTransaction_keeps t s
    have hst : (step S s (.cancel t)).node = s.node ∨
        (step S s (.cancel t)).node = (dropTransaction t s).2.node := by
      show (Voltha.Config.cancel t s).2.node = _ ∨ (Voltha.Config.cancel t s).2.node = _
      rcases cancel_state t s with he | ⟨-, he | he⟩ <;> rw [he]
      · exact Or.inl rfl
      · exact Or.inr rfl
      · exact Or.inr rfl
    rcases hst with hst | hst
    · exact ((Frame.refl (K := (· ≠ some t)) s).sameReads hk (by simp)).congr hst
    · exact (hf.sameReads hk (by simp)).congr hst

/--
**確定していない変更は見えない。**

到達できるどの状態でも、transaction `t` の中の操作（例外で終わるものを含む）・`t` の開始・
`t` の取り消しの前後で、commit された木の読みも、他の transaction の読みも、
どの node のどの path でも変わらない。
-/
theorem uncommitted_invisible (S : Schema) {s : State} (hs : Reachable S s) {t : TxId} {st : Step}
    (hst : TxStep s t st) :
    (∀ n < s.nextNode, ∀ path depth,
      get S (step S s st) n path none depth none = get S s n path none depth none) ∧
    (∀ t' ∈ s.txns, t' ≠ t → ∀ n < s.nextNode, ∀ path depth,
      get S (step S s st) n path none depth (some t') = get S s n path none depth (some t')) := by
  have hsound := hs.sound
  refine ⟨fun n hn path depth => ?_, fun t' _ hne n hn path depth => ?_⟩
  · exact get_congr hsound.good (hst.sameReads hsound (by simp)) hn path depth
  · refine get_congr hsound.good (hst.sameReads hsound ?_) hn path depth
    exact fun he => hne (Option.some.inj he)

/-- 開いた transaction の中で adapter を書き換えても、外からは元の adapter が読める。 -/
theorem uncommitted_invisible_adapter :
    get volthaSchema
        (step volthaSchema (run volthaSchema (start volthaSchema none sampleInstance) [.openTx])
          (.update (some 0) ["adapters", "0"] (adapterMsg "0" "b") false))
        rootId ["adapters", "0"] none none none
      = .ok (.one (.data (adapterMsg "0" "a"))) :=
  ((uncommitted_invisible volthaSchema (reachable_run (by decide +kernel) [.openTx])
    (TxStep.update (t := 0) ["adapters", "0"] (adapterMsg "0" "b") false)).1 rootId
      (by decide +kernel) ["adapters", "0"] none).trans (by decide +kernel)

end Voltha.Config
