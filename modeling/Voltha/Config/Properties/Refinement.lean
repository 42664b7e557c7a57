import Voltha.Config.Properties.Apart
import Voltha.Config.Properties.Coherent

/-!
# 版の木は、入れ子の message の精密化である

transaction の外の操作だけの実行では、commit された木の中身は、同じ操作を一つの入れ子の
message にかけたものに等しい。読みは message の一部を取り出すことであり、
root の版の一覧に残っている hash は、その hash が最新だったときの中身を返す。
-/

namespace Voltha.Config

open Exec

variable {S : Schema} {κ : Mode} {X : State → Rev → Prop}
variable {s s' s₁ : State} {n : NodeId} {k : Option TxId} {b : Branch}

/-! ## path の読み -/

theorem findByKey_content (key : String) (v : Value) (l : List Rev) :
    findByKey key v (l.map Rev.content) = ((findRevByKey key v l).map Prod.snd).map Rev.content := by
  unfold findByKey
  rw [findRevByKey_snd, List.find?_map]
  congr 2
  funext c
  simp only [Function.comp_apply, Rev.label_content]
  rfl

theorem head?_content (l : List Rev) :
    (l.map Rev.content).head? = l.head?.map Rev.content := by
  cases l <;> rfl

/-- path の指すものから、node を忘れる。 -/
def Target.place : Target → Place
  | .node _ route => .node route
  | .container _ route f => .container route f
  | .nothing => .nothing

/-- 揃っている木では、操作が path をたどる先は、message の上でたどる先と同じである。 -/
theorem resolve_place (hg : Good S κ X s) (hc : Coherent S s) (path : List String) :
    ∀ n route r, s.latest? n = some r →
      (resolve S s none path n route).place = locate S path (Rev.content r) route := by
  have hview : ∀ n, s.view none n = s.latest? n := by
    intro n
    unfold State.view readBranch State.latest?
    cases (s.node n).branches none <;> rfl
  induction path using pathInduct with
  | nil => intro n route r _; rfl
  | cons name rest ih ih2 =>
    intro n route r hr
    rw [resolve, locate]
    split
    · exact ih n route r hr
    · obtain ⟨b, hb, rfl⟩ := branch_of_latest? hr
      have hbok := hg.branch n none b hb
      have hty : (Rev.content b.latest).label.type = (s.node n).type := by
        rw [Rev.label_content, hbok.config_type]
      rw [hview, hr, hty]
      cases hf : S.field? (s.node n).type name with
      | none => rfl
      | some f =>
        obtain ⟨hmem, rfl⟩ := S.field?_eq_some hf
        have step : ∀ c ∈ b.latest.child f.name, ∃ rc, s.latest? (Rev.node c) = some rc ∧
            Rev.content rc = Rev.content c := fun c hcm => hc n b hb f hmem c hcm id
        dsimp only
        cases f.kind with
        | single =>
          dsimp only
          rw [Rev.child_content, head?_content]
          cases hh : (b.latest.child f.name).head? with
          | none => rfl
          | some c =>
            obtain ⟨rc, hrc, he⟩ := step c (List.mem_of_head? hh)
            simp only [Option.map_some]
            rw [← he]
            exact ih _ _ rc hrc
        | list => rfl
        | keyed key kt =>
          cases rest with
          | nil => rfl
          | cons keyStr path =>
            dsimp only
            split
            · rfl
            · cases kt.fromStr keyStr with
              | none => rfl
              | some v =>
                dsimp only
                rw [Rev.child_content, findByKey_content]
                cases hfind : findRevByKey key v (b.latest.child f.name) with
                | none => rfl
                | some p =>
                  obtain ⟨i, c⟩ := p
                  obtain ⟨rc, hrc, he⟩ :=
                    step c (List.mem_of_getElem? (findRevByKey_eq_some hfind).1)
                  simp only [Option.map_some]
                  rw [← he]
                  exact ih2 keyStr path rfl _ _ rc hrc

/-- 取り出したものを `get` の返すものにする。 -/
def asResponse : Msg ⊕ List Msg → Response
  | .inl m => .one (.data m)
  | .inr ms => .many (ms.map .data)

/-- proxy がどこにも無い。 -/
def NoProxy (s : State) : Prop := ∀ n, (s.node n).proxy = none

theorem doGet_plain (hp : NoProxy s) (r : Rev) :
    doGet s none r = .ok (.data (Rev.content r)) := by
  unfold doGet
  rw [hp, Rev.get_none]

theorem doGetList_plain (hp : NoProxy s) : ∀ l : List Rev,
    doGetList s none l = .ok ((l.map Rev.content).map .data)
  | [] => rfl
  | r :: l => by
    rw [doGetList, doGet_plain hp, doGetList_plain hp l]
    rfl

/-- 版からの深い読みは、その中身の一部を取り出すことである。 -/
theorem getRev_select (hp : NoProxy s) (path : List String) :
    ∀ r, Deep S κ X s r →
      (getRev S s none path r).toOption = (select S path (Rev.content r)).map asResponse := by
  induction path using pathInduct with
  | nil =>
    intro r _
    rw [getRev, doGet_plain hp]
    rfl
  | cons name rest ih ih2 =>
    intro r hd
    have hlist : ∀ l : List Rev, ((doGetList s none l).map Response.many).toOption
        = (some (Sum.inr (l.map Rev.content))).map asResponse := by
      intro l
      rw [doGetList_plain hp]
      rfl
    have hty : (Rev.content r).label.type = (s.node (Rev.node r)).type := by
      rw [Rev.label_content, hd.self.type_eq]
    rw [getRev, select, hty]
    split
    · rw [doGet_plain hp]; rfl
    · cases hf : S.field? (s.node (Rev.node r)).type name with
      | none => rfl
      | some f =>
        dsimp only
        rw [Rev.child_content]
        cases f.kind with
        | single =>
          dsimp only
          rw [head?_content]
          cases hh : (r.child name).head? with
          | none => rfl
          | some c => exact ih c (hd.child (List.mem_of_head? hh))
        | list =>
          dsimp only
          split
          · exact hlist _
          · rfl
        | keyed key kt =>
          cases rest with
          | nil => exact hlist _
          | cons keyStr path =>
            dsimp only
            split
            · exact hlist _
            · cases kt.fromStr keyStr with
              | none => rfl
              | some v =>
                dsimp only
                rw [findByKey_content]
                cases hfind : findRevByKey key v (r.child name) with
                | none => rfl
                | some p =>
                  obtain ⟨i, c⟩ := p
                  exact ih2 keyStr path rfl c
                    (hd.child (List.mem_of_getElem? (findRevByKey_eq_some hfind).1))

/-! ## 正常に終わった `update` は key を変えない -/

theorem doUpdate_config {data : Msg} {strict : Bool} {r : Rev}
    (h : doUpdate S n k b data strict s = (.ok r, s')) : Rev.config r = data.label := by
  unfold doUpdate at h
  obtain ⟨s₀, _, h0, h⟩ := bind_eq_ok h
  obtain ⟨-, _, -, h⟩ := bind_eq_ok h
  obtain ⟨-, _, -, h⟩ := bind_eq_ok h
  obtain ⟨-, _, -, h⟩ := bind_eq_ok h
  split at h
  · next he =>
    obtain ⟨hr, -⟩ := Prod.mk.inj h
    rw [← Except.ok.inj hr]; exact he
  · obtain ⟨-, s₁, -, h⟩ := bind_eq_ok h
    exact congrArg Rev.config (replaceLatest_spec h).1

/--
正常に終わった `update` の data は、行き着いた先の key を持っている。

出発した node が行き着いた先でもあるときは、返した版の local data が data のものであることだけを
言っておき、key は一つ上の検査に任せる。
-/
theorem update_ok_key (data : Msg) (strict : Bool) (path : List String) :
    ∀ n s route r s', update S k data strict path n s = (.ok r, s') →
    ∀ m R, resolve S s k path n route = .node m R →
      (R = route ∧ Rev.config r = data.label) ∨
      ∀ f v key, R.getLast? = some ⟨f, some v⟩ → f.key = some key →
        data.label.attr key = some v := by
  induction path using pathInduct with
  | nil =>
    intro n s route r s' h m R hres
    rw [update] at h
    obtain ⟨b, s₁, -, h⟩ := bind_eq_ok h
    rw [resolve] at hres
    obtain ⟨-, rfl⟩ := Target.node.inj hres
    exact Or.inl ⟨rfl, doUpdate_config h⟩
  | cons name rest ih ih2 =>
    intro n s route r s' h m R hres
    rw [update] at h
    split at h
    · next hname =>
      rw [resolve, if_pos hname] at hres
      exact ih n s route r s' h m R hres
    · next hname =>
      obtain ⟨b, s₁, hb, h⟩ := bind_eq_ok h
      obtain ⟨hsame, hview, -⟩ := branchFor_sameView hb
      rw [read_bind_apply] at h
      cases hf : S.field? (s₁.node n).type name with
      | none => rw [hf] at h; cases h
      | some f =>
        obtain ⟨hmem, rfl⟩ := S.field?_eq_some hf
        rw [resolve_cons rest route hname hview (by rw [← hsame.type]; exact hf)] at hres
        rw [hf, ofOption_some, pure_bind_apply] at h
        refine Or.inr ?_
        cases hk : f.kind with
        | single =>
          rw [hk] at h hres
          dsimp only at h hres
          cases hc : (b.latest.child f.name).head? with
          | none => rw [hc] at hres; cases hres
          | some c =>
            rw [hc] at h hres
            dsimp only at hres
            rw [ofOption_some, pure_bind_apply] at h
            obtain ⟨c', s₂, hu, -⟩ := bind_eq_ok h
            rw [← resolve_congr hsame] at hres
            rcases ih _ s₁ _ c' s₂ hu m R hres with ⟨rfl, -⟩ | hkey
            · intro g v key hlast
              rw [List.getLast?_concat] at hlast
              cases hlast
            · exact hkey
        | list => rw [hk] at hres; cases hres
        | keyed key kt =>
          rw [hk] at h hres
          dsimp only at h hres
          cases rest with
          | nil => cases h
          | cons keyStr path =>
            dsimp only at h hres
            split at h
            · cases h
            · next hne =>
              rw [if_neg hne] at hres
              cases hv : kt.fromStr keyStr with
              | none => rw [hv] at hres; cases hres
              | some v =>
                rw [hv] at h hres
                dsimp only at hres
                rw [ofOption_some, pure_bind_apply] at h
                cases hfind : findRevByKey key v (b.latest.child f.name) with
                | none => rw [hfind] at hres; cases hres
                | some p =>
                  obtain ⟨idx, c⟩ := p
                  rw [hfind] at h hres
                  dsimp only at hres
                  rw [ofOption_some, pure_bind_apply] at h
                  dsimp only at h
                  obtain ⟨c', s₂, hu, h⟩ := bind_eq_ok h
                  rw [← resolve_congr hsame] at hres
                  rcases ih2 keyStr path rfl _ s₁ _ c' s₂ hu m R hres with ⟨rfl, hcfg⟩ | hkey
                  · -- hash が同じなら元の子の key のまま、違えば key の検査を通っている
                    intro g w key' hlast hkey'
                    rw [List.getLast?_concat] at hlast
                    cases hlast
                    rw [ChildField.key, hk] at hkey'
                    cases hkey'
                    rw [← hcfg]
                    split at h
                    · next hh =>
                      rw [Rev.config_eq_of_hash_eq hh]
                      exact (findRevByKey_eq_some hfind).2
                    · split at h
                      · cases h
                      · next hkeep => exact not_not.mp hkeep
                  · exact hkey

/-- 正常に終わった root からの `update` は、`KeepsKey` を満たす。 -/
theorem keepsKey_of_update_ok {path : List String} {data : Msg} {strict : Bool} {r : Rev}
    (h : update S k data strict path rootId s = (.ok r, s')) :
    (Step.update k path data strict).KeepsKey S s := by
  intro m R f v key hres hlast hkey _
  rcases update_ok_key data strict path rootId s [] r s' h m R hres with ⟨rfl, -⟩ | hk
  · cases hlast
  · exact hk f v key hlast hkey

/-! ## 一つの操作 -/

/-- client の操作を message にかける。tag と prune は message を変えない。 -/
def plainStep (S : Schema) : Step → Msg → Option Msg
  | .update none path data _, m => plainUpdate S path data m
  | .add none path data, m => plainAdd S path data m
  | .remove none path, m => plainRemove S path m
  | .tag _ _, m | .deleteTag _, m | .prune, m => some m
  | _, _ => none

/-- 操作の列を message にかける。 -/
def plainRun (S : Schema) (l : List Step) (m : Msg) : Option Msg :=
  l.foldlM (fun m st => plainStep S st m) m

/-- 正常に終わる、transaction の外の操作。加える message の型は field のものである。 -/
structure Works (S : Schema) (s : State) (st : Step) : Prop where
  direct : Direct st
  typed : st.Typed S s
  ok : (perform S st s).1.isOk = true

/-- tag の付け外しと、tag の無い版の破棄。 -/
inductive Housekeeping : Step → Prop
  | tag (tag : String) (hash : Option Hash) : Housekeeping (.tag tag hash)
  | deleteTag (tag : String) : Housekeeping (.deleteTag tag)
  | prune : Housekeeping .prune

/-- すべての条件を追う。 -/
abbrev Mode.all : Mode := ⟨True, True⟩

/-- 行き着いた先の書き換えが、message の上の操作と同じであること。 -/
def Mirrors (S : Schema) (st : Step) (m : Msg) (route : List Seg) (act : Act) : Prop :=
  Keeping S .all route act ∧ plainStep S st m = some (modifyAt (act.apply S) route m)

/-- 正常に終わった操作の中身。 -/
theorem inTransaction_ok {op : Op Rev} (h : (inTransaction none (rootOp none op) s).1.isOk = true) :
    ∃ r s', op s = (.ok r, s') ∧
      inTransaction none (rootOp none op) s = (.ok r, executeDeferredCallbacks s') := by
  rcases guarded_cases op none s with ⟨-, e, he⟩ | ⟨-, -, he⟩
  · rw [he] at h; cases h
  · rw [he] at h ⊢
    rcases hop : op s with ⟨e | r, s'⟩
    · rw [hop] at h; cases h
    · exact ⟨r, s', rfl, rfl⟩

theorem discard_ok {α : Type} {m : Op α} (h : ((do let _ ← m; pure ()) s).1.isOk = true) :
    (m s).1.isOk = true := by
  rw [bind_apply] at h
  rcases hm : m s with ⟨e | a, s'⟩ <;> rw [hm] at h
  · cases h
  · rfl

/-- 正常に終わった操作は、message の上の同じ操作を写した `Effect` である。 -/
theorem Works.effect (hg : Good S κ X s) (hc : Coherent S s) {st : Step} (h : Works S s st)
    {r₀ : Rev} (hr₀ : s.latest? rootId = some r₀) :
    ∃ r s₁, Effect S none (Mirrors S st (Rev.content r₀)) [] rootId s (.ok r) s₁ ∧
      (perform S st s).2 = executeDeferredCallbacks s₁ := by
  have hplace := fun path => resolve_place hg hc path rootId [] r₀ hr₀
  obtain ⟨hdir, hty, hok⟩ := h
  cases hdir with
  | update path data strict =>
    obtain ⟨r, s₁, hop, he⟩ := inTransaction_ok (discard_ok hok)
    refine ⟨r, s₁, ?_, by rw [perform, discard_state, rootUpdate, he]⟩
    have heff : Effect S none (Mirrors S (.update none path data strict) (Rev.content r₀)) []
        rootId s (update S none data strict path rootId s).1 (update S none data strict path rootId s).2 :=
      update_effect data strict path rootId s []
      fun m R hres hacc => ⟨fun _ f v key hlast hkey =>
        keepsKey_of_update_ok hop m R f v key hres hlast hkey hacc, ?_⟩
    · rw [hop] at heff; exact heff
    · have hp := hplace path
      rw [hres] at hp
      rw [plainStep, plainUpdate, ← hp]
      rfl
  | add path data =>
    obtain ⟨r, s₁, hop, he⟩ := inTransaction_ok (discard_ok hok)
    refine ⟨r, s₁, ?_, by rw [perform, discard_state, rootAdd, he]⟩
    have heff : Effect S none (Mirrors S (.add none path data) (Rev.content r₀)) []
        rootId s (add S none data path rootId s).1 (add S none data path rootId s).2 :=
      add_effect data path rootId s []
      fun m R f hres => ⟨fun _ => ⟨hty.1, hty.2 m R f hres⟩, ?_⟩
    · rw [hop] at heff; exact heff
    · have hp := hplace path
      rw [hres] at hp
      rw [plainStep, plainAdd, ← hp]
      rfl
  | remove path =>
    obtain ⟨r, s₁, hop, he⟩ := inTransaction_ok (discard_ok hok)
    refine ⟨r, s₁, ?_, by rw [perform, discard_state, rootRemove, he]⟩
    have heff : Effect S none (Mirrors S (.remove none path) (Rev.content r₀)) []
        rootId s (remove S none path rootId s).1 (remove S none path rootId s).2 :=
      remove_effect path rootId s []
      fun m R f v hres => ⟨trivial, ?_⟩
    · rw [hop] at heff; exact heff
    · have hp := hplace path
      rw [hres] at hp
      rw [plainStep, plainRemove, ← hp]
      simp [Target.place]

/-! ## root の版の一覧 -/

/-- root の branch。版の一覧の hash は版のもので、最新の版も載っている。 -/
structure Filed (b : Branch) : Prop where
  hash : ∀ p ∈ b.revs, p.1 = Rev.hash p.2
  latest : Rev.hash b.latest ∈ b.revs.map Prod.fst

theorem mem_fst_insertRev {revs : List (Hash × Rev)} {r : Rev} {h : Hash} :
    h ∈ (insertRev revs r).map Prod.fst ↔ h ∈ revs.map Prod.fst ∨ h = Rev.hash r := by
  unfold insertRev
  split
  · next hr =>
    constructor
    · exact Or.inl
    · rintro (hm | rfl)
      · exact hm
      · exact hr
  · simp

theorem Filed.insert (h : Filed b) (r : Rev) :
    Filed { b with latest := r, revs := insertRev b.revs r } := by
  refine ⟨fun p hp => ?_, mem_fst_insertRev.mpr (Or.inr rfl)⟩
  have hp : p ∈ insertRev b.revs r := hp
  unfold insertRev at hp
  split at hp
  · exact h.hash p hp
  · rcases List.mem_append.mp hp with hp | hp
    · exact h.hash p hp
    · rw [List.mem_singleton.mp hp]

/-- 正常に終わった操作は、自分の branch に高々一つの版を据える。 -/
theorem Effect.branch_cases {res : Except Err Rev} {Ok : List Seg → Act → Prop} {route : List Seg}
    (hX : Closed X) (h : Effect S none Ok route n s res s') (hg : Good S κ X s) {r : Rev}
    (hr : res = .ok r) :
    ∃ b, (s.node n).branches none = some b ∧ ((s'.node n).branches none = some b ∧ r = b.latest ∨
      (s'.node n).branches none = some { b with latest := r, revs := insertRev b.revs r }) := by
  have set : ∀ {s s₁ s' : State} {b : Branch} {config : Data} {children : List (String × List Rev)}
      {anns : List (CallbackType × Context)} {r : Rev}, branchFor n none s = (.ok b, s₁) →
      ∀ {s₂}, replaceLatest n none b config children anns s₂ = (.ok r, s') →
      ∃ b, (s.node n).branches none = some b ∧ ((s'.node n).branches none = some b ∧ r = b.latest ∨
        (s'.node n).branches none = some { b with latest := r, revs := insertRev b.revs r }) := by
    intro s s₁ s' b config children anns r hb s₂ hr
    refine ⟨b, (branchFor_none_cases hb).2, Or.inr ?_⟩
    obtain ⟨-, -, -, hnode⟩ := replaceLatest_spec hr
    rw [hnode, setBranch_branches, if_pos ⟨rfl, rfl⟩]
  cases h with
  | fail => cases hr
  | same hb _ =>
    cases hr
    obtain ⟨rfl, hbr⟩ := branchFor_none_cases hb
    exact ⟨_, hbr, Or.inl ⟨hbr, rfl⟩⟩
  | write _ hb _ _ h => cases hr; exact set hb h
  | insert _ hb _ _ _ _ _ _ h => cases hr; exact set hb h
  | insertFail => cases hr
  | erase _ hb _ _ _ h => cases hr; exact set hb h
  | down _ hb _ _ _ h => cases hr; exact set hb h
  | downSame hb hf hc heff _ =>
    cases hr
    obtain ⟨rfl, hbr⟩ := branchFor_none_cases hb
    refine ⟨_, hbr, Or.inl ⟨?_, rfl⟩⟩
    rw [heff.parent_branches hX (hg.branch n none _ hbr) hg hf hc]
    exact hbr
  | keyChange => cases hr
  | failBelow => cases hr

/-! ## proxy の無い木 -/

/-- 前後の状態の関係として見た、proxy の無いことの保存。 -/
def KeepsNoProxy (s s' : State) : Prop := NoProxy s → NoProxy s'

instance : Std.Refl KeepsNoProxy := ⟨fun _ h => h⟩

instance : IsTrans State KeepsNoProxy := ⟨fun _ _ _ h h' hp => h' (h hp)⟩

theorem NoProxy.setBranch (h : NoProxy s) (n : NodeId) (k : Option TxId) (b : Option Branch)
    (hn : s'.node = (s.setBranch n k b).node) : NoProxy s' := by
  intro m
  rw [hn, setBranch_proxy]
  exact h m

theorem newNode_noProxy (type : String) (slot : Option Slot) :
    Keeps KeepsNoProxy (newNode type slot) := by
  intro s h n
  by_cases hn : n = s.nextNode
  · subst hn; simp [newNode, State.setNode]
  · simpa [newNode, State.setNode, hn] using h n

theorem newRev_noProxy (n : NodeId) (tag : BranchTag) (store : StoreRef) (config : Data)
    (children : List (String × List Rev)) :
    Keeps KeepsNoProxy (newRev n tag store config children) := by
  intro s h m
  show ((State.finalizeRev _ _).node m).proxy = none
  rw [finalizeRev_node]
  exact h m

theorem makeLatest_noProxy (n : NodeId) (k : Option TxId) (b : Branch) (r : Rev)
    (anns : List (CallbackType × Context)) : Keeps KeepsNoProxy (makeLatest n k b r anns) :=
  fun s h => h.setBranch n k _ (makeLatest_node n k b r anns s)

theorem mknode_noProxy (S : Schema) (m : Msg) (slot : Option Slot) :
    Keeps KeepsNoProxy (mknode S m slot) :=
  mknode_keeps_of newNode_noProxy
    (fun n _ _ => (Keeps.read.bind fun _ => newRev_noProxy n _ _ _ _).bind fun _ =>
      Keeps.read.bind fun _ => (makeLatest_noProxy n none _ _ _).bind fun _ => Keeps.pure _) S m slot

theorem replaceLatest_noProxy {config : Data} {children : List (String × List Rev)}
    {anns : List (CallbackType × Context)} {r : Rev}
    (h : replaceLatest n k b config children anns s = (.ok r, s')) (hp : NoProxy s) : NoProxy s' :=
  hp.setBranch n k _ (replaceLatest_spec h).2.2.2

/-- 正常に終わった操作は proxy を作らない。 -/
theorem Effect.noProxy {res : Except Err Rev} {Ok : List Seg → Act → Prop} {route : List Seg}
    (h : Effect S k Ok route n s res s') : ∀ r, res = .ok r → NoProxy s → NoProxy s' := by
  have fork : ∀ {s s₁ : State} {n : NodeId} {b : Branch}, branchFor n k s = (.ok b, s₁) →
      NoProxy s → NoProxy s₁ := by
    intro s s₁ n b hb hp m
    rw [(branchFor_sameView hb).1.proxy]
    exact hp m
  induction h with
  | fail => intro r hr; cases hr
  | same hb _ => exact fun _ _ hp => fork hb hp
  | write _ hb _ _ hr => exact fun _ _ hp => replaceLatest_noProxy hr (fork hb hp)
  | @insert route n s s₁ s₂ s₃ b f key v data c r anns hb _ _ _ _ _ hm hr =>
    intro _ _ hp
    have hmk := mknode_noProxy S (complete S data) (some ⟨n, f.name, some key, some v⟩) s₁
    rw [hm] at hmk
    exact replaceLatest_noProxy hr (hmk (fork hb hp))
  | insertFail => intro r hr; cases hr
  | erase _ hb _ _ _ hr => exact fun _ _ hp => replaceLatest_noProxy hr (fork hb hp)
  | down _ hb _ _ _ hr ih => exact fun _ _ hp => replaceLatest_noProxy hr (ih _ rfl (fork hb hp))
  | downSame hb _ _ _ _ ih => exact fun _ _ hp => ih _ rfl (fork hb hp)
  | keyChange => intro r hr; cases hr
  | failBelow => intro r hr; cases hr

/-! ## 実行 -/

/-- 木が message `m` を表している。 -/
structure Shadow (S : Schema) (s : State) (m : Msg) : Prop where
  sound : Sound S .all (fun _ _ => True) s
  coherent : Coherent S s
  noProxy : NoProxy s
  root : ∃ b, (s.node rootId).branches none = some b ∧ Filed b ∧ Rev.content b.latest = m

/-- root の版の一覧に hash `h` がある。 -/
def Listed (h : Hash) (s : State) : Prop :=
  ∃ b, (s.node rootId).branches none = some b ∧ h ∈ b.revs.map Prod.fst

/-- prune のときに、hash `h` が最新の版のものか、tag の付いた版のものである。 -/
def Step.SparesHash (h : Hash) (s : State) : Step → Prop
  | .prune => (s.latest? rootId).map Rev.hash = some h ∨
      ∃ p ∈ (s.node rootId).tags, Rev.hash p.2 = h
  | _ => True

/-- root には親がいないので、食い違いは残らない。 -/
theorem CoherentBut.root (hg : Good S κ X s) (h : CoherentBut S (· = rootId) s) :
    Coherent S s := by
  intro n b hb f hf x hx _
  refine h n b hb f hf x hx fun he => ?_
  have hy := ((hg.branch n none b hb).childAt hf hx).1.younger
  rw [he] at hy
  exact Nat.not_lt_zero _ hy

theorem Works.allowed {st : Step} (h : Works S s st) : st.Allowed S .all s := by
  refine ⟨fun _ => ?_, fun _ => h.typed⟩
  obtain ⟨hdir, -, hok⟩ := h
  cases hdir with
  | update path data strict =>
    obtain ⟨r, s₁, hop, -⟩ := inTransaction_ok (discard_ok hok)
    exact keepsKey_of_update_ok hop
  | add => trivial
  | remove => trivial

/-- 操作の一歩。message の上の同じ操作を写し、版の一覧からは何も失わない。 -/
theorem Shadow.works {m : Msg} (h : Shadow S s m) {st : Step} (hst : Works S s st) :
    (∃ m', plainStep S st m = some m' ∧ Shadow S (step S s st) m') ∧
      ∀ hash, Listed hash s → Listed hash (step S s st) := by
  obtain ⟨b, hb, hfiled, rfl⟩ := h.root
  obtain ⟨r, s₁, heff, hperf⟩ := hst.effect h.sound.good h.coherent (latest?_of_branch hb)
  have hnode : (step S s st).node = s₁.node := by
    unfold step
    rw [hperf]
    rfl
  have hkeep : ∀ route act, Mirrors S st (Rev.content b.latest) route act →
      Keeping S .all route act := fun _ _ h => h.1
  have hslot := h.sound.slotRoute []
  obtain ⟨hbut, R, act, ⟨-, hplain⟩, hcont⟩ := heff.simulates closed_true trivial trivial hkeep rfl
    h.sound.good h.sound.root hslot h.coherent r _ rfl (latest?_of_branch hb)
  have hgood := (heff.good closed_true hkeep h.sound.good h.sound.root fun _ => hslot).good
  have hsound := step_sound closed_true h.sound st hst.allowed
  have hcoh : Coherent S (step S s st) := (hbut.root hgood).of_node hnode
  have hprox : NoProxy (step S s st) := by
    intro n
    rw [hnode]
    exact heff.noProxy r rfl h.noProxy n
  obtain ⟨b', hb', hcases⟩ := heff.branch_cases closed_true h.sound.good rfl
  rw [hb] at hb'
  cases hb'
  -- root の branch は元のままか、新しい版を一つ据えたものである
  rw [← hnode] at hcases
  rcases hcases with ⟨hsame, rfl⟩ | hset
  · refine ⟨⟨_, hplain, hsound, hcoh, hprox, b, hsame, hfiled, hcont⟩, fun hash hl => ?_⟩
    obtain ⟨b', hb', hmem⟩ := hl
    rw [hb] at hb'
    cases hb'
    exact ⟨b, hsame, hmem⟩
  · refine ⟨⟨_, hplain, hsound, hcoh, hprox, _, hset, hfiled.insert r, hcont⟩, fun hash hl => ?_⟩
    obtain ⟨b', hb', hmem⟩ := hl
    rw [hb] at hb'
    cases hb'
    exact ⟨_, hset, mem_fst_insertRev.mpr (Or.inl hmem)⟩

/-- tag の操作が書き換えるのは、root の tag だけである。 -/
theorem tagged_state {st : Step} (h : Housekeeping st) (hne : st ≠ .prune) :
    ∃ tags, (perform S st s).2 = s.setNode rootId { s.node rootId with tags } := by
  have same : s = s.setNode rootId { s.node rootId with tags := (s.node rootId).tags } := by
    unfold State.setNode
    rw [Function.update_eq_self]
  cases h with
  | tag tag hash =>
    rw [perform, tagRev, read_bind_apply]
    cases (s.node rootId).branches none with
    | none => exact ⟨_, same⟩
    | some b =>
      rw [ofOption_some, pure_bind_apply]
      cases b.byHash hash with
      | none => exact ⟨_, same⟩
      | some r => exact ⟨_, rfl⟩
  | deleteTag tag =>
    rw [perform, deleteTag, read_bind_apply]
    cases (s.node rootId).tags.lookup tag with
    | none => exact ⟨_, same⟩
    | some r => exact ⟨_, rfl⟩
  | prune => exact absurd rfl hne

/-- 型と最新の版を変えない書き換えの間も揃っている。 -/
theorem Coherent.of_latest (h : Coherent S s) (hl : ∀ m, s'.latest? m = s.latest? m)
    (ht : ∀ m, (s'.node m).type = (s.node m).type) : Coherent S s' := by
  intro m b hb f hf x hx _
  have hlat := latest?_of_branch hb
  rw [hl] at hlat
  obtain ⟨b₀, hb₀, he⟩ := Option.map_eq_some_iff.mp hlat
  rw [← he] at hx
  rw [ht] at hf
  exact (h m b₀ hb₀ f hf x hx id).congr (hl _)

/-- prune の後の root の branch。 -/
theorem prune_branch (hb : (s.node rootId).branches none = some b) :
    ∃ revs, pruneUntagged s = s.setBranch rootId none (some { b with revs }) ∧
      ∀ p, p ∈ revs ↔ p ∈ b.revs ∧
        (p.1 = Rev.hash b.latest ∨ ∃ q ∈ (s.node rootId).tags, Rev.hash q.2 = p.1) := by
  unfold pruneUntagged
  rw [hb]
  refine ⟨_, rfl, fun p => ?_⟩
  simp

/-- tag と prune の一歩。最新の版は変わらない。 -/
theorem Shadow.housekeeping {m : Msg} (h : Shadow S s m) {st : Step} (hst : Housekeeping st) :
    plainStep S st m = some m ∧ Shadow S (step S s st) m ∧
      ∀ hash, st.SparesHash hash s → Listed hash s → Listed hash (step S s st) := by
  have hplain : plainStep S st m = some m := by cases hst <;> rfl
  have hallowed : st.Allowed S .all s := by cases hst <;> exact ⟨fun _ => trivial, fun _ => trivial⟩
  have hsound := step_sound closed_true h.sound st hallowed
  obtain ⟨b, hb, hfiled, rfl⟩ := h.root
  by_cases hp : st = .prune
  · subst hp
    obtain ⟨revs, hst', hrevs⟩ := prune_branch hb
    have hnode : (step S s .prune).node
        = (s.setBranch rootId none (some { b with revs })).node := by rw [← hst']; rfl
    have hbr : ((step S s .prune).node rootId).branches none = some { b with revs } := by
      rw [hnode, setBranch_branches, if_pos ⟨rfl, rfl⟩]
    have hmem : ∀ hash, Step.SparesHash hash s .prune → hash ∈ b.revs.map Prod.fst →
        hash ∈ revs.map Prod.fst := by
      intro hash hsp hl
      obtain ⟨p, hpm, rfl⟩ := List.mem_map.mp hl
      refine List.mem_map_of_mem ((hrevs p).mpr ⟨hpm, ?_⟩)
      rcases hsp with hlat | htag
      · rw [latest?_of_branch hb] at hlat
        exact Or.inl (Option.some.inj hlat).symm
      · exact Or.inr htag
    have hfiled' : Filed { b with revs } := by
      refine ⟨fun p hp => hfiled.hash p ((hrevs p).mp hp).1, hmem _ (Or.inl ?_) hfiled.latest⟩
      rw [latest?_of_branch hb]; rfl
    have hlatest : ∀ m, (step S s .prune).latest? m = s.latest? m := by
      intro m
      by_cases hm : m = rootId
      · subst hm; rw [latest?_of_branch hbr, latest?_of_branch hb]
      · refine latest?_congr ?_
        rw [hnode, setBranch_branches, if_neg fun he => hm he.1]
    refine ⟨hplain, ⟨hsound, h.coherent.of_latest hlatest ?_, ?_, _, hbr, hfiled', rfl⟩, ?_⟩
    · intro m; rw [hnode, setBranch_type]
    · exact h.noProxy.setBranch rootId none _ hnode
    · rintro hash hsp ⟨b', hb', hl⟩
      rw [hb] at hb'
      cases hb'
      exact ⟨_, hbr, hmem hash hsp hl⟩
  · obtain ⟨tags, hst'⟩ := tagged_state (S := S) (s := s) hst hp
    have hnode : ∀ m, ∃ tags, (step S s st).node m = { s.node m with tags } := by
      intro m
      have : (step S s st).node m = (s.setNode rootId { s.node rootId with tags }).node m := by
        rw [← hst']; rfl
      rw [this]
      by_cases hm : m = rootId
      · subst hm; exact ⟨tags, by simp [State.setNode]⟩
      · exact ⟨(s.node m).tags, by simp [State.setNode, hm]⟩
    have hbranches : ∀ m, ((step S s st).node m).branches = (s.node m).branches := by
      intro m; obtain ⟨tags, he⟩ := hnode m; rw [he]
    refine ⟨hplain, ⟨hsound, h.coherent.congr ?_ ?_, ?_, b, ?_, hfiled, rfl⟩, ?_⟩
    · intro m; rw [hbranches]
    · intro m; obtain ⟨tags, he⟩ := hnode m; rw [he]
    · intro m; obtain ⟨tags, he⟩ := hnode m; rw [he]; exact h.noProxy m
    · rw [hbranches]; exact hb
    · rintro hash - ⟨b', hb', hl⟩
      exact ⟨b', by rw [hbranches]; exact hb', hl⟩

/-! ## 初期化 -/

/-- 一段ぶんの key。keyed な field の子はみな key を持ち、key は重ならない。 -/
def LocalKeys (S : Schema) (m : Msg) : Prop :=
  ∀ p ∈ m.children, ∀ key ∈ S.keyOf m.label.type p.1,
    (∀ c ∈ p.2, (c.label.attr key).isSome = true) ∧ (p.2.map fun c => c.label.attr key).Nodup

/-- どの container の key も重ならない message。 -/
def KeysApart (S : Schema) (m : Msg) : Prop := ∀ m' ∈ m.subtrees, LocalKeys S m'

instance (S : Schema) : DecidablePred (LocalKeys S) := fun m =>
  inferInstanceAs (Decidable (∀ p ∈ m.children, ∀ key ∈ S.keyOf m.label.type p.1, _ ∧ _))

instance (S : Schema) : DecidablePred (KeysApart S) := fun m =>
  inferInstanceAs (Decidable (∀ m' ∈ m.subtrees, _))

theorem keysApart_mk_iff {d : Data} {cs : List (String × List Msg)} :
    KeysApart S (.mk d cs) ↔ LocalKeys S (.mk d cs) ∧
      ∀ f l, (f, l) ∈ cs → ∀ c ∈ l, KeysApart S c :=
  FieldTree.forall_subtrees_mk

/-- 例外で終わらない。 -/
def Succeeds {α : Type} (m : Op α) (s : State) : Prop := wp m (fun _ _ => True) (fun _ _ => False) s

theorem Succeeds.bind {α β : Type} {m : Op α} {g : α → Op β} (h : Succeeds m s)
    (hg : ∀ a s', Succeeds (g a) s') : Succeeds (m >>= g) s := by
  unfold Succeeds at *
  rw [wp_bind]
  exact wp_mono h (fun a s' _ => hg a s') fun _ _ h => h

mutual

/-- key の重ならない message からは、例外なく木を作れる。 -/
theorem mknode_succeeds : ∀ (m : Msg) (slot : Option Slot) (s : State), KeysApart S m →
    Succeeds (mknode S m slot) s
  | .mk d cs, slot, s, h => by
    obtain ⟨hlocal, hsub⟩ := keysApart_mk_iff.mp h
    rw [mknode_mk]
    refine Succeeds.bind (s := s) trivial fun n s₀ => ?_
    exact (mknodeFields_succeeds n d.type cs s₀ hsub hlocal).bind fun _ _ => trivial

theorem mknodeFields_succeeds (n : NodeId) (ty : String) :
    ∀ (cs : List (String × List Msg)) (s : State), (∀ f l, (f, l) ∈ cs → ∀ c ∈ l, KeysApart S c) →
    (∀ p ∈ cs, ∀ key ∈ S.keyOf ty p.1, (∀ c ∈ p.2, (c.label.attr key).isSome = true) ∧
      (p.2.map fun c => c.label.attr key).Nodup) →
    Succeeds (mknodeFields S n ty cs) s
  | [], _, _, _ => by rw [mknodeFields]; trivial
  | (name, ms) :: cs, s, hsub, hkeys => by
    rw [mknodeFields]
    refine (mknodeList_succeeds n name (S.keyOf ty name) [] ms s
      (hsub name ms List.mem_cons_self) ?_).bind fun _ s₁ => ?_
    · intro key hk
      obtain ⟨hsome, hnd⟩ := hkeys _ List.mem_cons_self key hk
      exact ⟨hsome, hnd, by simp⟩
    · exact (mknodeFields_succeeds n ty cs s₁ (fun f l hl => hsub f l (List.mem_cons_of_mem _ hl))
        fun p hp => hkeys p (List.mem_cons_of_mem _ hp)).bind fun _ _ => trivial

theorem mknodeList_succeeds (n : NodeId) (name : String) :
    ∀ (key : Option String) (seen : List Value) (ms : List Msg) (s : State),
    (∀ c ∈ ms, KeysApart S c) →
    (∀ k ∈ key, (∀ c ∈ ms, (c.label.attr k).isSome = true) ∧
      (ms.map fun c => c.label.attr k).Nodup ∧ ∀ c ∈ ms, ∀ v ∈ seen, c.label.attr k ≠ some v) →
    Succeeds (mknodeList S n name key seen ms) s
  | _, _, [], _, _, _ => by rw [mknodeList]; trivial
  | none, seen, m :: ms, s, hsub, _ => by
    rw [mknodeList]
    refine (mknode_succeeds m _ s (hsub m List.mem_cons_self)).bind fun _ s₁ => ?_
    exact (mknodeList_succeeds n name none seen ms s₁
      (fun c hc => hsub c (List.mem_cons_of_mem _ hc)) (by simp)).bind fun _ _ => trivial
  | some k, seen, m :: ms, s, hsub, hkeys => by
    obtain ⟨hsome, hnd, hseen⟩ := hkeys k rfl
    obtain ⟨v, hv⟩ := Option.isSome_iff_exists.mp (hsome m List.mem_cons_self)
    rw [List.map_cons, List.nodup_cons] at hnd
    rw [mknodeList]
    refine (mknode_succeeds m _ s (hsub m List.mem_cons_self)).bind fun _ s₁ => ?_
    dsimp only
    rw [hv, ofOption_some]
    have hfresh : v ∉ seen := fun hm => hseen m List.mem_cons_self v hm hv
    unfold Succeeds
    rw [wp_bind, wp_pure, if_neg hfresh]
    refine (mknodeList_succeeds n name (some k) (v :: seen) ms s₁
      (fun c hc => hsub c (List.mem_cons_of_mem _ hc)) ?_).bind fun _ _ => trivial
    rintro k' ⟨rfl⟩
    refine ⟨fun c hc => hsome c (List.mem_cons_of_mem _ hc), hnd.2, fun c hc w hw => ?_⟩
    rcases List.mem_cons.mp hw with rfl | hw
    · intro he
      exact hnd.1 (List.mem_map.mpr ⟨c, hc, by rw [he, hv]⟩)
    · exact hseen c (List.mem_cons_of_mem _ hc) w hw

end

/-- 作った node の branch には、その版だけが載っている。 -/
theorem mknode_filed (m : Msg) (slot : Option Slot) (s : State) :
    wp (mknode S m slot) (fun r s' => ∃ b, (s'.node (Rev.node r)).branches none = some b ∧
      Filed b ∧ b.latest = r) (fun _ _ => True) s := by
  obtain ⟨d, cs⟩ := m
  rw [mknode_mk, wp_bind]
  refine wp_mono (wp_true _ s) (fun n s₀ _ => ?_) fun _ _ _ => trivial
  rw [wp_bind]
  refine wp_mono (wp_true _ s₀) (fun l s₁ _ => ?_) fun _ _ _ => trivial
  unfold installFirst mkrev
  rw [wp_bind, wp_bind, wp_read, wp_newRev, wp_bind, wp_read, wp_bind, wp_makeLatest, wp_pure]
  generalize hr : (FieldTree.mk _ l : Rev) = r
  have hn : Rev.node r = n := by rw [← hr]; rfl
  rw [makeLatest_node, hn, setBranch_branches, if_pos ⟨rfl, rfl⟩]
  refine ⟨_, rfl, ⟨?_, ?_⟩, rfl⟩ <;> simp [insertRev]

theorem emptyState_noProxy (kv : Option Store) : NoProxy (emptyState kv) := fun _ => rfl

theorem emptyState_coherent (kv : Option Store) : Coherent S (emptyState kv) := by
  intro n b hb
  cases hb

/-- key の重ならない message からは、例外なく初期化できる。 -/
theorem initRoot_ok (kv : Option Store) {data : Msg} (hkeys : KeysApart S (complete S data)) :
    ∃ r s₀, initRoot S kv data = (.ok r, s₀) := by
  have hok := mknode_succeeds (S := S) (complete S data) none (emptyState kv) hkeys
  unfold initRoot
  rcases hm : mknode S (complete S data) none (emptyState kv) with ⟨e | r, s₀⟩
  · unfold Succeeds wp at hok
    rw [hm] at hok
    exact hok.elim
  · exact ⟨r, s₀, rfl⟩

/-- 初期化した木は、既定値で埋めた message を表す。 -/
theorem start_shadow (kv : Option Store) {data : Msg} (hdata : Shaped S.fields data)
    (hkeys : KeysApart S (complete S data)) :
    Shadow S (start S kv data) (complete S data) := by
  obtain ⟨r, s₀, hinit⟩ := initRoot_ok kv hkeys
  have hm : mknode S (complete S data) none (emptyState kv) = (.ok r, s₀) := hinit
  obtain ⟨hs₀, hcont, hlat⟩ := initRoot_sound (κ := .all) closed_true (fun _ => hdata) hinit
  have hsound : Sound S .all (fun _ _ => True) (start S kv data) :=
    start_sound closed_true (fun _ => hdata) (by rw [hinit]; rfl)
  have hnode : (start S kv data).node = s₀.node := by
    unfold start
    rw [hinit]
    rfl
  refine ⟨hsound, ?_, ?_, ?_⟩
  · have hc := mknode_coherent (κ := .all) closed_true (complete S data) none (emptyState kv)
      (emptyState_good kv) (fun _ => hdata.complete) (by rintro sl key ⟨⟩) (emptyState_coherent kv)
    exact (wp_ok hc hm).of_node hnode
  · have hp := mknode_noProxy S (complete S data) none (emptyState kv) (emptyState_noProxy kv)
    rw [hm] at hp
    intro n
    rw [hnode]
    exact hp n
  · obtain ⟨b, hb, hfiled, hbl⟩ :=
      wp_ok (mknode_filed (S := S) (complete S data) none (emptyState kv)) hm
    have hr : Rev.node r = rootId := by
      obtain ⟨b₀, hb₀, he⟩ := Option.map_eq_some_iff.mp hlat
      rw [← he]
      exact (hs₀.good.branch rootId none b₀ hb₀).node_latest
    rw [hr] at hb
    exact ⟨b, by rw [hnode]; exact hb, hfiled, by rw [hbl, hcont]⟩

/-! ## 精密化 -/

/-- 操作は正常に終わるか、tag の操作である。 -/
def Smooth (S : Schema) (s : State) (st : Step) : Prop := Works S s st ∨ Housekeeping st

theorem Shadow.step {m : Msg} (h : Shadow S s m) {st : Step} (hst : Smooth S s st) :
    (∃ m', plainStep S st m = some m' ∧ Shadow S (step S s st) m') ∧
      ∀ hash, st.SparesHash hash s → Listed hash s → Listed hash (Voltha.Config.step S s st) := by
  rcases hst with hst | hst
  · obtain ⟨hstep, hlist⟩ := h.works hst
    exact ⟨hstep, fun hash _ => hlist hash⟩
  · obtain ⟨hplain, hstep, hlist⟩ := h.housekeeping hst
    exact ⟨⟨m, hplain, hstep⟩, hlist⟩

/-- どの実行も、message の上の実行を写す。 -/
theorem Shadow.run : ∀ {l : List Step} {s : State} {m : Msg}, Shadow S s m →
    EveryStep S (Smooth S) s l →
    ∃ m', plainRun S l m = some m' ∧ Shadow S (Voltha.Config.run S s l) m'
  | [], _, m, h, _ => ⟨m, rfl, h⟩
  | st :: l, s, m, h, hl => by
    obtain ⟨⟨m₁, hplain, h₁⟩, -⟩ := h.step hl.1
    obtain ⟨m', hrun, h'⟩ := h₁.run (l := l) hl.2
    refine ⟨m', ?_, h'⟩
    unfold plainRun at hrun ⊢
    rw [List.foldlM_cons, hplain]
    exact hrun

/-- 版の一覧にある hash は、prune が残すかぎり、載ったままである。 -/
theorem Shadow.listed : ∀ {l : List Step} {s : State} {m : Msg} {hash : Hash}, Shadow S s m →
    EveryStep S (Smooth S) s l → EveryStep S (fun s st => st.SparesHash hash s) s l →
    Listed hash s → Listed hash (Voltha.Config.run S s l)
  | [], _, _, _, _, _, _, hlist => hlist
  | st :: l, s, m, hash, h, hl, hsp, hlist => by
    obtain ⟨⟨m₁, -, h₁⟩, hkeep⟩ := h.step hl.1
    exact h₁.listed (l := l) hl.2 hsp.2 (hkeep hash hsp.1 hlist)

/-- 最新の版の読みは、message の一部を取り出すことである。 -/
theorem Shadow.get_eq {m : Msg} (h : Shadow S s m) (path : List String) :
    (get S s rootId path none none none).toOption
      = (select S (stripSlashes path) m).map asResponse := by
  obtain ⟨b, hb, -, rfl⟩ := h.root
  unfold get readBranch
  rw [hb]
  exact getRev_select h.noProxy _ _ (h.sound.good.branch rootId none b hb).latest

/-- 版の一覧にある hash を指定した読みは、その hash を持つ message の一部を取り出すことである。 -/
theorem Shadow.get_hash {m : Msg} (h : Shadow S s m) {hash : Hash} (hlist : Listed hash s)
    {s₁ : State} {r : Rev} (hr : Deep S .all (fun _ _ => True) s₁ r) (hh : Rev.hash r = hash)
    (path : List String) :
    (get S s rootId path (some hash) none none).toOption
      = (select S (stripSlashes path) (Rev.content r)).map asResponse := by
  obtain ⟨b, hb, hfiled, -⟩ := h.root
  obtain ⟨b', hb', hmem⟩ := hlist
  rw [hb] at hb'
  cases hb'
  have hok := h.sound.good.branch rootId none b hb
  obtain ⟨r', hr'⟩ := FieldTree.lookup_isSome_of_mem hmem
  have hin := OrderedDict.mem_of_lookup hr'
  -- root の版の一覧は強い参照なので、載っている版は生きている
  have hdeep : Deep S .all (fun _ _ => True) s r' := by
    refine (hok.revs r' ?_).2
    simp only [Branch.held, hok.strong rfl rfl, List.cons_append, List.mem_cons, List.mem_append]
    exact Or.inr (Or.inr (List.mem_map_of_mem (f := Prod.snd) hin))
  have hhash : Rev.hash r' = Rev.hash r := (hfiled.hash _ hin).symm.trans hh.symm
  unfold get readBranch
  rw [hb]
  dsimp only
  rw [hr', ← hdeep.content_eq_of_hash trivial hr hhash]
  exact getRev_select h.noProxy _ _ hdeep

/--
**版の木は、入れ子の message の精密化である。**

key の重ならない message から始めて、transaction の外の操作が正常に終わり続けるかぎり
（間に tag の操作と prune が入ってもよい）、

* 最新の版の中身は、同じ操作を一つの message にかけたものに等しい
* どの path の `get` も、その message の一部を返す
* 途中で最新だった版の hash は、prune が残すかぎり、そのときの message を返す
-/
theorem direct_run_refines (S : Schema) (kv : Option Store) {data : Msg}
    (hdata : Shaped S.fields data) (hkeys : KeysApart S (complete S data)) {l : List Step}
    (hl : EveryStep S (Smooth S) (start S kv data) l) :
    (∃ m r, plainRun S l (complete S data) = some m ∧
      (run S (start S kv data) l).latest? rootId = some r ∧ Rev.content r = m ∧
      ∀ path, (get S (run S (start S kv data) l) rootId path none none none).toOption
        = (select S (stripSlashes path) m).map asResponse) ∧
    ∀ l₁ l₂ hash, l = l₁ ++ l₂ →
      ((run S (start S kv data) l₁).latest? rootId).map Rev.hash = some hash →
      EveryStep S (fun s st => st.SparesHash hash s) (run S (start S kv data) l₁) l₂ →
      ∃ m₁, plainRun S l₁ (complete S data) = some m₁ ∧
        ∀ path, (get S (run S (start S kv data) l) rootId path (some hash) none none).toOption
          = (select S (stripSlashes path) m₁).map asResponse := by
  have hstart := start_shadow kv hdata hkeys
  generalize start S kv data = s₀ at hl hstart
  refine ⟨?_, ?_⟩
  · obtain ⟨m, hplain, hm⟩ := hstart.run hl
    obtain ⟨b, hb, -, hcont⟩ := hm.root
    exact ⟨m, b.latest, hplain, latest?_of_branch hb, hcont, hm.get_eq⟩
  · rintro l₁ l₂ hash rfl hhash hspares
    obtain ⟨m, -, hm⟩ := hstart.run hl
    obtain ⟨hl₁, hl₂⟩ := EveryStep.append.mp hl
    obtain ⟨m₁, hplain, hm₁⟩ := hstart.run hl₁
    obtain ⟨b, hb, hfiled, rfl⟩ := hm₁.root
    rw [latest?_of_branch hb] at hhash
    have hh : Rev.hash b.latest = hash := Option.some.inj hhash
    have hlist : Listed hash (run S s₀ (l₁ ++ l₂)) := by
      rw [run, List.foldl_append]
      exact hm₁.listed hl₂ hspares ⟨b, hb, by rw [← hh]; exact hfiled.latest⟩
    exact ⟨_, hplain, hm.get_hash hlist (hm₁.sound.good.branch rootId none b hb).latest hh⟩

/-- adapter を書き換えて tag を付け、port を加えて prune し、logical device を外す。 -/
def editSteps : List Step :=
  [.update none ["adapters", "1"] (adapterMsg "1" "b") false,
    .tag "before" none,
    .add none ["logical_devices", "L", "ports"] (logicalPortMsg "R" "d2"),
    .prune,
    .remove none ["logical_devices", "M"]]

theorem editSteps_smooth :
    EveryStep volthaSchema (Smooth volthaSchema) (start volthaSchema none sampleInstance)
      editSteps := by
  refine ⟨Or.inl ⟨.update _ _ _, trivial, by decide +kernel⟩, Or.inr (.tag _ _),
    Or.inl ⟨.add _ _, ⟨by decide, ?_⟩, by decide +kernel⟩, Or.inr .prune,
    Or.inl ⟨.remove _, trivial, by decide +kernel⟩, trivial⟩
  intro m route f h
  have hres : resolve volthaSchema (run volthaSchema (start volthaSchema none sampleInstance)
      (editSteps.take 2)) none ["logical_devices", "L", "ports"] rootId []
        = .container 4 [⟨byId "logical_devices" "LogicalDevice", some (.str "L")⟩]
          (byId "ports" "LogicalPort") := by decide +kernel
  obtain ⟨-, -, rfl⟩ := Target.container.inj (hres.symm.trans h)
  rfl

/-- tag を付けた版は、prune が残す。 -/
theorem editSteps_spares {r : Rev}
    (hr : (run volthaSchema (start volthaSchema none sampleInstance)
      (editSteps.take 1)).latest? rootId = some r) :
    EveryStep volthaSchema (fun s st => st.SparesHash (Rev.hash r) s)
      (run volthaSchema (start volthaSchema none sampleInstance) (editSteps.take 1))
      (editSteps.drop 1) := by
  refine ⟨trivial, trivial, Or.inr ?_, trivial, trivial⟩
  have h : (((step volthaSchema (step volthaSchema (run volthaSchema
        (start volthaSchema none sampleInstance) (editSteps.take 1)) (.tag "before" none))
        (.add none ["logical_devices", "L", "ports"] (logicalPortMsg "R" "d2"))).node
          rootId).tags.map fun p => Rev.hash p.2)
      = (((run volthaSchema (start volthaSchema none sampleInstance)
          (editSteps.take 1)).latest? rootId).map Rev.hash).toList := by decide +kernel
  rw [hr] at h
  exact List.mem_map.mp (by rw [h]; exact List.mem_singleton.mpr rfl)

/-- 最初の `update` の直後の版は、tag が付いているので、外した logical device まで読める。 -/
theorem direct_run_refines_edit :
    ∃ hash, (get volthaSchema (run volthaSchema (start volthaSchema none sampleInstance) editSteps)
        rootId ["logical_devices", "M"] none none none).toOption = none ∧
      (get volthaSchema (run volthaSchema (start volthaSchema none sampleInstance) editSteps)
        rootId ["logical_devices", "M"] (some hash) none none).toOption
          = some (.one (.data (complete volthaSchema (logicalDeviceMsg "M" "" [])))) := by
  have hlatest : ((run volthaSchema (start volthaSchema none sampleInstance)
    (editSteps.take 1)).latest? rootId).isSome = true := by decide +kernel
  obtain ⟨r, hr⟩ := Option.isSome_iff_exists.mp hlatest
  obtain ⟨⟨m, -, hplain, -, -, hget⟩, hpast⟩ := direct_run_refines volthaSchema none
    (by decide +kernel) (by decide +kernel) editSteps_smooth
  obtain ⟨m₁, hplain₁, hget₁⟩ := hpast (editSteps.take 1) (editSteps.drop 1) (Rev.hash r)
    (List.take_append_drop 1 editSteps).symm (by rw [hr]; rfl) (editSteps_spares hr)
  have hnow : (plainRun volthaSchema editSteps (complete volthaSchema sampleInstance)).map
      (select volthaSchema (stripSlashes ["logical_devices", "M"])) = some none := by
    decide +kernel
  have hthen : (plainRun volthaSchema (editSteps.take 1)
      (complete volthaSchema sampleInstance)).map
      (select volthaSchema (stripSlashes ["logical_devices", "M"]))
        = some (some (.inl (complete volthaSchema (logicalDeviceMsg "M" "" [])))) := by
    decide +kernel
  rw [hplain] at hnow
  rw [hplain₁] at hthen
  refine ⟨Rev.hash r, ?_, ?_⟩
  · rw [hget, Option.some.inj hnow]; rfl
  · rw [hget₁, Option.some.inj hthen]; rfl

/-! ## 渡した message の書き換え -/

/-- 中身が `old` の local data を `new` に書き換えた版。版の hash は作ったときのままである。 -/
def Rev.edited (old new : Data) (r : Rev) : Rev :=
  r.map fun i => if i.config = old then { i with config := new } else i

def Branch.edited (old new : Data) (b : Branch) : Branch :=
  { b with
    origin := b.origin.map (Rev.edited old new)
    -- 一覧の key は、版を作ったときの hash である
    revs := b.revs.map fun p => (p.1, p.2.edited old new)
    latest := b.latest.edited old new }

def Node.edited (old new : Data) (nd : Node) : Node :=
  { nd with
    branches := fun k => (nd.branches k).map (Branch.edited old new)
    tags := nd.tags.map fun p => (p.1, p.2.edited old new) }

/--
`update` に渡した message を、caller が後から書き換えた状態。

`_do_update` は message を写さないので、それを持つ版はどれも書き換わる。`_rev_cache` が同じ中身の
local data を一つの object にするので、どの版が持つかは中身で決まる。
-/
def State.edited (old new : Data) (s : State) : State :=
  { s with
    node := fun n => (s.node n).edited old new
    objs := s.objs.map (Rev.edited old new)
    detached := s.detached.map (Rev.edited old new) }

/-- `update` に渡した message を書き換えて渡し直すと、前の hash を指定した読みも変わる。 -/
theorem edited_message_changes_history :
    let s := run volthaSchema (start volthaSchema none sampleInstance) (editSteps.take 1)
    let edited := step volthaSchema
      (s.edited (adapterMsg "1" "b").label (adapterMsg "1" "c").label)
      (.update none ["adapters", "1"] (adapterMsg "1" "c") false)
    ∃ hash, (s.latest? rootId).map Rev.hash = some hash ∧
      (get volthaSchema s rootId ["adapters", "1"] (some hash) none none).toOption
        = some (.one (.data (adapterMsg "1" "b"))) ∧
      (get volthaSchema edited rootId ["adapters", "1"] (some hash) none none).toOption
        = some (.one (.data (adapterMsg "1" "c"))) := by
  intro s edited
  have hreads : (s.latest? rootId).map (fun r =>
      ((get volthaSchema s rootId ["adapters", "1"] (some (Rev.hash r)) none none).toOption,
        (get volthaSchema edited rootId ["adapters", "1"] (some (Rev.hash r)) none none).toOption))
      = some (some (.one (.data (adapterMsg "1" "b"))),
          some (.one (.data (adapterMsg "1" "c")))) := by decide +kernel
  obtain ⟨r, hr, hboth⟩ := Option.map_eq_some_iff.mp hreads
  obtain ⟨hthen, hnow⟩ := Prod.mk.inj hboth
  exact ⟨Rev.hash r, by rw [hr]; rfl, hthen, hnow⟩

end Voltha.Config
