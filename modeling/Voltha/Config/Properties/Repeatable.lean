import Voltha.Config.Properties.Apart

/-!
# transaction の中の繰り返し読み

transaction `t` の読みは、読み始める node に `t` の branch があれば、その最新の版から始まる。
版は不変なので、他の client の操作では変わらない。`t` 自身の書き換えは、
道筋の上の版を作り直すので、path から離れていて、途中の node に食い違いが無ければ読みを変えない。

branch の無い node から読み始めると commit された branch を読むので、
他の client の変更がそのまま見える。
-/

namespace Voltha.Config

open Exec

variable {S : Schema} {κ : Mode} {X : State → Rev → Prop}
variable {s s' s₁ : State} {n m : NodeId} {k : Option TxId} {b : Branch} {t : TxId}
variable {Ok : List Seg → Act → Prop} {route : List Seg} {res : Except Err Rev}

/-! ## 道筋が通る node -/

theorem setBranch_slot (s : State) (n m : NodeId) (k : Option TxId) (b : Option Branch) :
    ((s.setBranch n k b).node m).slot = (s.node m).slot := by
  by_cases hm : m = n
  · subst hm; simp [State.setBranch, State.setNode]
  · rw [setBranch_node_ne s k b hm]

theorem branchFor_slot (h : branchFor n k s = (.ok b, s₁)) (m : NodeId) :
    (s₁.node m).slot = (s.node m).slot := by
  rcases branchFor_cases h with ⟨-, rfl⟩ | ⟨t, point, rfl, -, -, rfl, rfl⟩
  · rfl
  · exact setBranch_slot (s.addDirty n t) _ _ _ _

theorem Address.congr (h : ∀ m, (s'.node m).slot = (s.node m).slot) {a : List Entry}
    (ha : Address s' n a) : Address s n a := by
  induction ha with
  | root => exact Address.root
  | child hsl _ ih => exact Address.child (by rw [← h]; exact hsl) ih

/-- 見つけた子の置き場所は、道筋を一歩伸ばしたものである。 -/
theorem Found.address {f : ChildField} {l : List Rev} {idx : Nat} {c : Rev} {v : Option Value}
    (h : Found f l idx c v) (hc : ChildAt s n f (Rev.node c))
    (hown : OwnKey s (Rev.node c) (Rev.config c)) (ha : Address s n (route.map Seg.entry)) :
    Address s (Rev.node c) ((route ++ [(⟨f, v⟩ : Seg)]).map Seg.entry) := by
  obtain ⟨w, hsl⟩ := hc.slot
  have := Address.child hsl ha
  rw [List.map_append]
  convert this using 3
  unfold Seg.entry
  cases v with
  | none => rw [show f.key = none by rw [ChildField.key, h.1]]; rfl
  | some v =>
    obtain ⟨key, hk, hfind⟩ := h
    have hkey := hown _ key hsl hk
    rw [hk, Option.bind_some, ← hkey, ← (findRevByKey_eq_some hfind).2]
    rfl

/-- 既にある branch は、用意しても変わらない。 -/
theorem branchFor_existing {b₀ : Branch} (hb₀ : (s.node n).branches k = some b₀)
    (h : branchFor n k s = (.ok b, s₁)) : b = b₀ ∧ s₁ = s := by
  rw [branchFor_of_some hb₀] at h
  cases h
  exact ⟨rfl, rfl⟩

/-- 例外で終わった操作は、始めた node に既にある branch を変えない。 -/
theorem Effect.own_of_error (hX : Closed X) (h : Effect S k Ok route n s res s')
    (hg : Good S κ X s) {e : Err} (he : res = .error e) {b₀ : Branch}
    (hb₀ : (s.node n).branches k = some b₀) : (s'.node n).branches k = some b₀ := by
  cases h with
  | fail e h =>
    rcases h with rfl | rfl
    · exact hb₀
    · rw [branchFor_of_some hb₀]; exact hb₀
  | same => cases he
  | write => cases he
  | insert => cases he
  | insertFail hb _ _ _ _ hm =>
    have hlt := (branchFor_good hX hg hb).2.lt
    obtain ⟨rfl, rfl⟩ := branchFor_existing hb₀ hb
    rw [mknode_other hm hlt]; exact hb₀
  | erase => cases he
  | down => cases he
  | downSame => cases he
  | keyChange _ hb hf _ hc heff _ =>
    obtain ⟨hg1, hb1⟩ := branchFor_good hX hg hb
    obtain ⟨rfl, rfl⟩ := branchFor_existing hb₀ hb
    rw [heff.parent_branches hX hb1 hg1 hf hc]; exact hb₀
  | failBelow hb hf hc heff =>
    obtain ⟨hg1, hb1⟩ := branchFor_good hX hg hb
    obtain ⟨rfl, rfl⟩ := branchFor_existing hb₀ hb
    rw [heff.parent_branches hX hb1 hg1 hf hc]; exact hb₀

/-- 操作が node `m` を通ったところから先。`s₁` から `s₂` までが `m` での操作である。 -/
structure Passes (S : Schema) (κ : Mode) (X : State → Rev → Prop) (k : Option TxId)
    (Ok : List Seg → Act → Prop) (s s' : State) (m : NodeId) (b₀ : Branch) (route : List Seg)
    (s₁ : State) (res : Except Err Rev) (s₂ : State) : Prop where
  effect : Effect S k Ok route m s₁ res s₂
  good : Good S κ X s₁
  alive : Alive s₁ m
  slot : SlotRoute s₁ m route
  address : Address s m (route.map Seg.entry)
  view : SameView k s s₁
  before : Frame (· ≠ k) s s₁
  branch : (s₁.node m).branches k = some b₀
  after : Frame (· ≠ k) s₂ s'
  branches : (s'.node m).branches = (s₂.node m).branches

/-- 操作は、node `m` の branch を変えないか、`m` を通る。 -/
def KeptOrPasses (S : Schema) (κ : Mode) (X : State → Rev → Prop) (k : Option TxId)
    (Ok : List Seg → Act → Prop) (s s' : State) (m : NodeId) (b₀ : Branch) : Prop :=
  (s'.node m).branches k = some b₀ ∨
    ∃ route s₁ res s₂, Passes S κ X k Ok s s' m b₀ route s₁ res s₂

/-- 自分がその node なら、操作の全体がそこでの操作である。 -/
theorem Effect.passes_self {m : NodeId} {b₀ : Branch} (h : Effect S k Ok route m s res s')
    (hg : Good S κ X s) (hn : Alive s m) (hs : SlotRoute s m route)
    (ha : Address s m (route.map Seg.entry)) (hb₀ : (s.node m).branches k = some b₀) :
    KeptOrPasses S κ X k Ok s s' m b₀ :=
  Or.inr ⟨_, _, _, _, h, hg, hn, hs, ha, SameView.refl _ _, Frame.refl _, hb₀, Frame.refl _, rfl⟩

/-- 上の node で版を据え直しても、`m` での操作は変わらない。 -/
theorem KeptOrPasses.lift {m : NodeId} {s₂ s₃ : State} {b₀ : Branch}
    (h : KeptOrPasses S κ X k Ok s s₂ m b₀) (hf : Frame (· ≠ k) s₂ s₃)
    (hb : (s₃.node m).branches = (s₂.node m).branches) :
    KeptOrPasses S κ X k Ok s s₃ m b₀ := by
  rcases h with h | ⟨route', s₁, res', s₄, hp⟩
  · exact Or.inl (by rw [hb]; exact h)
  · exact Or.inr ⟨route', s₁, res', s₄,
      { hp with after := hp.after.trans hf, branches := hb.trans hp.branches }⟩

/-- 子に降りた先で `m` を通るか、通らないか。親の branch の用意は見え方を変えない。 -/
theorem Found.passes (hX : Closed X) (hκ : κ.keys) {m : NodeId} {s₁ s₂ : State} {b₀ : Branch}
    {f : ChildField} {idx : Nat} {c : Rev} {v : Option Value} (hg : Good S κ X s)
    (hb : branchFor n k s = (.ok b, s₁)) (hf : f ∈ S.fields (s₁.node n).type)
    (hc : Found f (b.latest.child f.name) idx c v)
    (ih : Good S κ X s₁ → Alive s₁ (Rev.node c) → SlotRoute s₁ (Rev.node c) (route ++ [⟨f, v⟩]) →
      Address s₁ (Rev.node c) ((route ++ [(⟨f, v⟩ : Seg)]).map Seg.entry) → ∀ b₀,
      m < s₁.nextNode → (s₁.node m).branches k = some b₀ → KeptOrPasses S κ X k Ok s₁ s₂ m b₀)
    (ha : Address s n (route.map Seg.entry)) (hne : m ≠ n) (hm : m < s.nextNode)
    (hb₀ : (s.node m).branches k = some b₀) : KeptOrPasses S κ X k Ok s s₂ m b₀ := by
  obtain ⟨hg1, hb1⟩ := branchFor_good hX hg hb
  obtain ⟨hat, hdeep⟩ := hc.childAt hb1 hf
  have hown := (hdeep.self.keyed hκ).own
  have ha1 : Address s₁ n (route.map Seg.entry) :=
    Address.congr (fun m => (branchFor_slot hb m).symm) ha
  rcases ih hg1 hdeep.self.alive (hc.slotRoute hat hown) (hc.address hat hown ha1) b₀
    (Nat.lt_of_lt_of_le hm (branchFor_frame hb).next) (by rw [branchFor_other hb hne]; exact hb₀)
    with h | ⟨route', s₃, res', s₄, hp⟩
  · exact Or.inl h
  · refine Or.inr ⟨route', s₃, res', s₄, { hp with
      address := Address.congr (branchFor_slot hb) hp.address
      view := (branchFor_sameView hb).1.trans hp.view
      before := (branchFor_frame hb).trans hp.before }⟩

theorem Effect.passes (hX : Closed X) (hκ : κ.keys)
    (h : Effect S k Ok route n s res s') :
    Good S κ X s → Alive s n → SlotRoute s n route → Address s n (route.map Seg.entry) →
    ∀ b₀, m < s.nextNode → (s.node m).branches k = some b₀ →
      KeptOrPasses S κ X k Ok s s' m b₀ := by
  induction h with
  | @fail route n s s₁ e h =>
    intro hg hn hs ha b₀ hm hb₀
    by_cases he : m = n
    · subst he; exact (Effect.fail e h).passes_self hg hn hs ha hb₀
    · rcases h with rfl | rfl
      · exact Or.inl hb₀
      · obtain ⟨b, s₁, hb⟩ := branchFor_isOk hn k
        rw [hb]
        exact Or.inl (by rw [branchFor_other hb he]; exact hb₀)
  | @same route n s s₁ b hb hok =>
    intro hg hn hs ha b₀ hm hb₀
    by_cases he : m = n
    · subst he; exact (Effect.same hb hok).passes_self hg hn hs ha hb₀
    · exact Or.inl (by rw [branchFor_other hb he]; exact hb₀)
  | @write route n s s₁ s₂ b d r anns hb hty hok hr =>
    intro hg hn hs ha b₀ hm hb₀
    by_cases he : m = n
    · subst he; exact (Effect.write anns hb hty hok hr).passes_self hg hn hs ha hb₀
    · exact Or.inl (by rw [replaceLatest_other hr he, branchFor_other hb he]; exact hb₀)
  | @insert route n s s₁ s₂ s₃ b f key v data c r anns hb hf hkey hv hnew hok hmk hr =>
    intro hg hn hs ha b₀ hm hb₀
    by_cases he : m = n
    · subst he
      exact (Effect.insert anns hb hf hkey hv hnew hok hmk hr).passes_self hg hn hs ha hb₀
    · refine Or.inl ?_
      rw [replaceLatest_other hr he,
        mknode_other hmk (Nat.lt_of_lt_of_le hm (branchFor_frame hb).next), branchFor_other hb he]
      exact hb₀
  | @insertFail route n s s₁ s₂ b f key v data e hb hf hkey hv hok hmk =>
    intro hg hn hs ha b₀ hm hb₀
    by_cases he : m = n
    · subst he; exact (Effect.insertFail hb hf hkey hv hok hmk).passes_self hg hn hs ha hb₀
    · refine Or.inl ?_
      rw [mknode_other hmk (Nat.lt_of_lt_of_le hm (branchFor_frame hb).next), branchFor_other hb he]
      exact hb₀
  | @erase route n s s₁ s₂ b f idx v c r anns hb hf hc hok hr =>
    intro hg hn hs ha b₀ hm hb₀
    by_cases he : m = n
    · subst he; exact (Effect.erase anns hb hf hc hok hr).passes_self hg hn hs ha hb₀
    · exact Or.inl (by rw [replaceLatest_other hr he, branchFor_other hb he]; exact hb₀)
  | @down route n s s₁ s₂ s₃ b f idx v c c' r anns hb hf hc heff hr ih =>
    intro hg hn hs ha b₀ hm hb₀
    by_cases he : m = n
    · subst he; exact (Effect.down anns hb hf hc heff hr).passes_self hg hn hs ha hb₀
    · exact (hc.passes hX hκ hg hb hf ih ha he hm hb₀).lift (replaceLatest_frame hr)
        (replaceLatest_other hr he)
  | @downSame route n s s₁ s₂ b f idx v c c' hb hf hc heff hh ih =>
    intro hg hn hs ha b₀ hm hb₀
    by_cases he : m = n
    · subst he; exact (Effect.downSame hb hf hc heff hh).passes_self hg hn hs ha hb₀
    · exact hc.passes hX hκ hg hb hf ih ha he hm hb₀
  | @keyChange route n s s₁ s₂ b f key idx v c c' e hb hf hkey hc heff hne ih =>
    intro hg hn hs ha b₀ hm hb₀
    by_cases he : m = n
    · subst he; exact (Effect.keyChange e hb hf hkey hc heff hne).passes_self hg hn hs ha hb₀
    · exact hc.passes hX hκ hg hb hf ih ha he hm hb₀
  | @failBelow route n s s₁ s₂ b f idx v c e hb hf hc heff ih =>
    intro hg hn hs ha b₀ hm hb₀
    by_cases he : m = n
    · subst he; exact (Effect.failBelow hb hf hc heff).passes_self hg hn hs ha hb₀
    · exact hc.passes hX hκ hg hb hf ih ha he hm hb₀

/-! ## 操作と読み -/

/-- `t` の branch を持つ node から読む path は、離れた操作では変わらない。 -/
theorem Effect.read_eq (hX : Closed X) (hκ : κ.keys)
    (hOk : ∀ route act, Ok route act → Keeping S κ route act)
    (h : Effect S k Ok [] rootId s res s') (hg : Good S κ X s) (hroot : Alive s rootId)
    (hslot : SlotRoute s rootId []) {b₀ : Branch} (hm : m < s.nextNode)
    (hb₀ : (s.node m).branches k = some b₀) (depth : Option Nat) {path : List String}
    (hclear : ∀ R act, Ok R act → ∀ a w, Address s m a → R.map Seg.entry ++ act.entries = a ++ w →
      clear S s k w path b₀.latest = true) :
    ∃ b₁, (s'.node m).branches k = some b₁ ∧
      getRev S s' depth path b₁.latest = getRev S s depth path b₀.latest := by
  have hbd : Bounded s b₀.latest := (hg.branch m k b₀ hb₀).latest.bounded
  have hread : getRev S s' depth path b₀.latest = getRev S s depth path b₀.latest :=
    getRev_congr h.frame.sameNodes depth path _ hbd
  rcases h.passes hX hκ hg hroot hslot Address.root b₀ hm hb₀ with
    hb | ⟨route, s₁, res', s₂, hp⟩
  · exact ⟨b₀, hb, hread⟩
  · cases res' with
    | error e =>
      have hown := hp.effect.own_of_error hX hp.good rfl hp.branch
      exact ⟨b₀, by rw [hp.branches]; exact hown, hread⟩
    | ok r =>
      have hland := hp.effect.good hX hOk hp.good hp.alive fun _ => hp.slot
      obtain ⟨-, -, hdeep, b₁, hb₁, rfl⟩ := hland
      refine ⟨b₁, by rw [hp.branches]; exact hb₁, ?_⟩
      have hbd1 := hbd.mono hp.before
      have heq := hp.effect.getRev_eq hX hκ hOk depth hp.good hp.alive hp.slot b₁.latest rfl path
        b₀.latest b₀.latest (view_of_some hp.branch) rfl hbd1 fun w act hok => by
          rw [clear_congr hp.view]
          refine hclear _ act hok _ _ hp.address ?_
          rw [List.map_append, List.append_assoc]
      rw [getRev_congr hp.after.sameNodes depth path _ hdeep.bounded, heq,
        ← getRev_congr hp.after.sameNodes depth path _ (hbd1.mono hp.effect.frame), hread]

/-! ## 読みを変えない操作 -/

/-- 置き場所 `a` の書き換えは、node `n` から読む path と離れている。 -/
def Spared (S : Schema) (s : State) (t : TxId) (n : NodeId) (path : List String) (a : List Entry) :
    Prop :=
  ∀ a₀ w r, Address s n a₀ → a = a₀ ++ w → s.view (some t) n = some r →
    clear S s (some t) w (stripSlashes path) r = true

/-- root から読む場合。root の置き場所は空である。 -/
theorem spared_root {path : List String} {a : List Entry} (hslot : (s.node rootId).slot = none)
    (h : (s.view (some t) rootId).all (fun r => clear S s (some t) a (stripSlashes path) r) = true) :
    Spared S s t rootId path a := by
  intro a₀ w r ha he hr
  have hnil : a₀ = [] := by
    cases ha with
    | root => rfl
    | child hsl => rw [hslot] at hsl; cases hsl
  subst hnil
  rw [hr, Option.all_some] at h
  rw [← List.nil_append w, ← he]
  exact h

/-- 操作 `st` が書き換えるところの置き場所。 -/
def Step.WritesAt (S : Schema) (s : State) (a : List Entry) : Step → Prop
  | .update k p _ _ => ∃ m R, resolve S s k p rootId [] = .node m R ∧ a = R.map Seg.entry
  | .add k p data => ∃ m R f, resolve S s k p rootId [] = .container m R f ∧
      a = R.map Seg.entry ++ [(f.name, f.key.bind data.label.attr)]
  | .remove k p => ∃ m R, resolve S s k p rootId [] = .node m R ∧ a = R.map Seg.entry
  | _ => False

/-- transaction の中の操作なら、その id。 -/
def Step.txid? : Step → Option TxId
  | .update k _ _ _ => k
  | .add k _ _ => k
  | .remove k _ => k
  | _ => none

/--
二つの読みの間にあってよい操作。

他の client の操作と、他の transaction の開始・commit・取り消し、
そして読む path から離れたところへの、`t` 自身の書き換えである。
-/
def Step.Spares (S : Schema) (s : State) (t : TxId) (n : NodeId) (path : List String)
    (st : Step) : Prop :=
  (st.txid? = some t → ∀ a, st.WritesAt S s a → Spared S s t n path a) ∧
    match st with
    | .update .. => True
    | .add .. => True
    | .remove .. => True
    | .openTx => True
    | .commit t' => t' ≠ t
    | .cancel t' => t' ≠ t
    | _ => False

/-- 操作の書き換えが、操作の指す置き場所にあり、key と型を保つこと。 -/
def Step.Acts (S : Schema) (κ : Mode) (s : State) (st : Step) (R : List Seg) (act : Act) : Prop :=
  st.WritesAt S s (R.map Seg.entry ++ act.entries) ∧ Keeping S κ R act

theorem update_acts {data : Msg} {strict : Bool} {path : List String}
    (hkey : κ.keys → (Step.update k path data strict).KeepsKey S s) :
    Effect S k ((Step.update k path data strict).Acts S κ s) [] rootId s
      (update S k data strict path rootId s).1 (update S k data strict path rootId s).2 :=
  update_effect data strict path rootId s [] fun m R hres hacc =>
    ⟨⟨m, R, hres, by simp [Act.entries]⟩,
      fun hκ f v key hlast hk => hkey hκ m R f v key hres hlast hk hacc⟩

theorem add_acts {data : Msg} {path : List String} (hty : κ.typed → (Step.add k path data).Typed S s) :
    Effect S k ((Step.add k path data).Acts S κ s) [] rootId s
      (add S k data path rootId s).1 (add S k data path rootId s).2 :=
  add_effect data path rootId s [] fun m R f hres =>
    ⟨⟨m, R, f, hres, rfl⟩, fun hκ => ⟨(hty hκ).1, (hty hκ).2 m R f hres⟩⟩

theorem remove_acts (path : List String) :
    Effect S k ((Step.remove k path).Acts S κ s) [] rootId s
      (remove S k path rootId s).1 (remove S k path rootId s).2 :=
  remove_effect path rootId s [] fun m R f v hres =>
    ⟨⟨m, _, hres, by simp [Act.entries, Seg.entry]⟩, trivial⟩

/-- 二つの状態で、`t` の branch から読む path が同じものを返す。 -/
def SameRead (S : Schema) (t : TxId) (n : NodeId) (depth : Option Nat) (path : List String)
    (s : State) (b₀ : Branch) (s' : State) : Prop :=
  ∃ b₁, (s'.node n).branches (some t) = some b₁ ∧
    getRev S s' depth path b₁.latest = getRev S s depth path b₀.latest

section Step

variable {b₀ : Branch} {depth : Option Nat} {path : List String}

/-- `t` の branch に触らない操作。 -/
theorem SameRead.of_nodes (hg : Good S κ X s) (hb₀ : (s.node n).branches (some t) = some b₀)
    (hnodes : SameNodes s s') (hb : (s'.node n).branches (some t) = (s.node n).branches (some t)) :
    SameRead S t n depth path s b₀ s' :=
  ⟨b₀, hb.trans hb₀, getRev_congr hnodes depth path _ (hg.branch n _ b₀ hb₀).latest.bounded⟩

theorem SameRead.of_frame {K : Option TxId → Prop} (hg : Good S κ X s)
    (hb₀ : (s.node n).branches (some t) = some b₀) (hf : Frame K s s') (hK : K (some t))
    {s'' : State} (hs'' : s''.node = s'.node) : SameRead S t n depth path s b₀ s'' := by
  have hn := (hg.branch n _ b₀ hb₀).lt
  refine SameRead.of_nodes hg hb₀ ⟨?_, ?_⟩ ?_ <;> rw [hs'']
  · exact hf.type
  · exact hf.proxy
  · exact hf.branch n hn _ hK

/-- 枠に入れた操作の場合。 -/
theorem SameRead.of_guarded (hX : Closed X) (hκ : κ.keys) (hs : Sound S κ X s)
    (hb₀ : (s.node n).branches (some t) = some b₀) {op : Op Rev}
    {st : Step} (heff : Effect S k (st.Acts S κ s) [] rootId s (op s).1 (op s).2)
    (hspare : k = some t → ∀ a, st.WritesAt S s a → Spared S s t n path a) :
    SameRead S t n depth (stripSlashes path) s b₀
      (collect (inTransaction k (rootOp k op) s).2) := by
  rcases guarded_cases op k s with ⟨he, -⟩ | ⟨-, -, he⟩
  · have hcol : (collect s).node = s.node := rfl
    rw [he]
    exact ⟨b₀, hb₀, getRev_of_node hcol depth _ _⟩
  · have hcol : (collect (executeDeferredCallbacks (op s).2)).node = (op s).2.node := rfl
    rw [he]
    by_cases hk : k = some t
    · subst hk
      obtain ⟨b₁, hb₁, hread⟩ := heff.read_eq hX hκ (fun _ _ h => h.2) hs.good hs.root
        (hs.slotRoute []) (hs.good.branch n _ b₀ hb₀).lt hb₀ depth fun R act hact a w ha he =>
          hspare rfl _ hact.1 a w _ ha he (view_of_some hb₀)
      exact ⟨b₁, hb₁, (getRev_of_node hcol depth _ _).trans hread⟩
    · exact SameRead.of_frame hs.good hb₀ heff.frame (fun h => hk h.symm) rfl

theorem Step.Spares.sameRead (hX : Closed X) (hκ : κ.keys) (hty : ¬κ.typed) (hs : Sound S κ X s)
    (hb₀ : (s.node n).branches (some t) = some b₀) {st : Step} (hst : st.Spares S s t n path)
    (hkey : st.KeepsKey S s) (depth : Option Nat) :
    SameRead S t n depth (stripSlashes path) s b₀ (step S s st) := by
  unfold step
  cases st with
  | update k p data strict =>
    rw [perform, discard_state]
    exact SameRead.of_guarded hX hκ hs hb₀ (update_acts fun _ => hkey) hst.1
  | add k p data =>
    rw [perform, discard_state]
    exact SameRead.of_guarded hX hκ hs hb₀ (add_acts fun h => absurd h hty) hst.1
  | remove k p =>
    rw [perform, discard_state]
    exact SameRead.of_guarded hX hκ hs hb₀ (remove_acts p) hst.1
  | openTx =>
    obtain ⟨b, hb⟩ := Option.isSome_iff_exists.mp hs.root.born
    have hp : s.latest? rootId = some b.latest := by unfold State.latest?; rw [hb]; rfl
    have hf := frame_setBranch s rootId (some s.nextTx) (some (forkBranch s.nextTx b.latest))
      (by simp)
    refine SameRead.of_frame hs.good hb₀ hf ?_ ?_
    · intro he
      exact absurd (hs.fresh n t b₀ hb₀) (by rw [Option.some.inj he]; exact Nat.lt_irrefl _)
    · show (perform S .openTx s).2.node = _
      rw [perform, discard_state, openTransaction_eq hp]
      rfl
  | commit t' =>
    by_cases ht : t' ∈ s.txns
    · refine SameRead.of_frame hs.good hb₀ (foldTxbranch_frame S t' s)
        ⟨by simp, fun he => hst.2 (Option.some.inj he).symm⟩ ?_
      show (Voltha.Config.commit S t' s).2.node = _
      rw [commit_eq ht]
      rfl
    · refine SameRead.of_frame hs.good hb₀ (Frame.refl (K := fun _ => True) s) trivial ?_
      show (Voltha.Config.commit S t' s).2.node = _
      rw [commit_closed ht]
  | cancel t' =>
    have hf := dropTransaction_keeps t' s
    have hne : (some t : Option TxId) ≠ some t' := fun he => hst.2 (Option.some.inj he).symm
    rcases cancel_state t' s with he | ⟨-, he | he⟩
    · refine SameRead.of_frame hs.good hb₀ (Frame.refl (K := fun _ => True) s) trivial ?_
      show (Voltha.Config.cancel t' s).2.node = _
      rw [he]
    · refine SameRead.of_frame hs.good hb₀ hf hne ?_
      show (Voltha.Config.cancel t' s).2.node = _
      rw [he]
    · refine SameRead.of_frame hs.good hb₀ hf hne ?_
      show (Voltha.Config.cancel t' s).2.node = _
      rw [he]
      rfl
  | getProxy => exact hst.2.elim
  | registerCallback => exact hst.2.elim
  | tag => exact hst.2.elim
  | deleteTag => exact hst.2.elim
  | prune => exact hst.2.elim

end Step

/-- 操作の列について。 -/
theorem run_sameRead (hX : Closed X) (hκ : κ.keys) (hty : ¬κ.typed) {path : List String}
    (depth : Option Nat) : ∀ (l : List Step) (s : State) (b₀ : Branch), Sound S κ X s →
    (s.node n).branches (some t) = some b₀ →
    EveryStep S (fun s st => st.Spares S s t n path) s l →
    EveryStep S (fun s st => st.KeepsKey S s) s l →
    SameRead S t n depth (stripSlashes path) s b₀ (run S s l)
  | [], _, b₀, _, hb₀, _, _ => ⟨b₀, hb₀, rfl⟩
  | st :: l, s, b₀, hs, hb₀, hl, hk => by
    obtain ⟨b₁, hb₁, h1⟩ := hl.1.sameRead hX hκ hty hs hb₀ hk.1 depth
    have hs1 := step_sound hX hs st ⟨fun _ => hk.1, fun h => absurd h hty⟩
    obtain ⟨b₂, hb₂, h2⟩ := run_sameRead hX hκ hty depth l _ b₁ hs1 hb₁ hl.2 hk.2
    exact ⟨b₂, hb₂, h2.trans h1⟩

/--
**transaction の中の読みは繰り返せる。**

key を変えようとしない実行で、読み始める node に `t` の branch が既にあり、間の操作が
他の client のものか、読む path から離れたところへの `t` の書き換えなら、
二度の読みは同じものを返す。他の client が何を commit していても変わらない。

離れているとは、path と書き換えの道筋が分かれるまでの共通の node で、
`t` から見える最新の版が、読み始めの版から見えている子の版と同じ見かけであること（`clear`）。
-/
theorem transaction_read_repeatable (S : Schema) {kv : Option Store} {data : Msg}
    (hinit : (initRoot S kv data).1.isOk = true) {l₁ l₂ : List Step} {t : TxId} {n : NodeId}
    {path : List String}
    (hkeys : EveryStep S (fun s st => st.KeepsKey S s) (start S kv data) (l₁ ++ l₂))
    (hbranch : (((run S (start S kv data) l₁).node n).branches (some t)).isSome)
    (hl : EveryStep S (fun s st => st.Spares S s t n path) (run S (start S kv data) l₁) l₂)
    (depth : Option Nat) :
    get S (run S (run S (start S kv data) l₁) l₂) n path none depth (some t)
      = get S (run S (start S kv data) l₁) n path none depth (some t) := by
  obtain ⟨hk1, hk2⟩ := EveryStep.append.mp hkeys
  have hs : Sound S ⟨True, False⟩ (fun _ _ => True) (run S (start S kv data) l₁) :=
    run_sound closed_true (hk1.mono fun _ _ h => ⟨fun _ => h, False.elim⟩)
      (start_sound closed_true False.elim hinit)
  generalize run S (start S kv data) l₁ = s at hs hbranch hl hk2
  obtain ⟨b₀, hb₀⟩ := Option.isSome_iff_exists.mp hbranch
  obtain ⟨b₁, hb₁, he⟩ := run_sameRead closed_true trivial id depth l₂ s b₀ hs hb₀ hl hk2
  unfold get readBranch
  rw [hb₀, hb₁]
  exact he

/-- root で開いた transaction が隣の adapter を書き、他の client が読む adapter を書き換えても、読みは同じ。 -/
theorem transaction_read_repeatable_adapter :
    get volthaSchema
        (run volthaSchema (run volthaSchema (start volthaSchema none sampleInstance) [.openTx])
          [.update none ["adapters", "0"] (adapterMsg "0" "b") false,
            .update (some 0) ["adapters", "1"] (adapterMsg "1" "c") false])
        rootId ["adapters", "0"] none none (some 0)
      = get volthaSchema (run volthaSchema (start volthaSchema none sampleInstance) [.openTx])
          rootId ["adapters", "0"] none none (some 0) := by
  refine transaction_read_repeatable volthaSchema (by decide +kernel) ?_ (by decide +kernel) ?_ none
  · refine ⟨trivial, ?_, ?_, trivial⟩
    · exact Step.keepsKey_of_sameKey (by decide +kernel)
    · exact Step.keepsKey_of_sameKey (by decide +kernel)
  · refine ⟨⟨fun h => (by cases h), trivial⟩, ⟨?_, trivial⟩, trivial⟩
    rintro - _ ⟨m, R, hres, rfl⟩
    refine spared_root (by decide +kernel) ?_
    have hR : resolve volthaSchema (run volthaSchema (run volthaSchema (start volthaSchema none
        sampleInstance) [.openTx]) [.update none ["adapters", "0"] (adapterMsg "0" "b") false])
          (some 0) ["adapters", "1"] rootId []
        = .node 3 [⟨byId "adapters" "Adapter", some (.str "1")⟩] := by decide +kernel
    obtain ⟨-, rfl⟩ := Target.node.inj (hR.symm.trans hres)
    decide +kernel

/--
logical device の proxy で開いた transaction は、最初に触れるまで自分の branch を持たない。
他の client が port を書き換えると、何も書いていない transaction の二度目の読みが変わる。

root から読む transaction でも、隣の port を初めて書いたときに logical device が
commit された最新の版から枝分かれし、読む port が他の client の書いたものに入れ替わる。
-/
theorem inner_proxy_read_changes :
    get volthaSchema
        (run volthaSchema (start volthaSchema none sampleInstance)
          [.getProxy ["logical_devices", "L"] false, .openTx,
            .update none ["logical_devices", "L", "ports", "P"] (logicalPortMsg "P" "d1") false])
        4 ["ports", "P"] none none (some 0)
      ≠ get volthaSchema
        (run volthaSchema (start volthaSchema none sampleInstance)
          [.getProxy ["logical_devices", "L"] false, .openTx])
        4 ["ports", "P"] none none (some 0) ∧
    get volthaSchema
        (run volthaSchema (start volthaSchema none sampleInstance)
          [.openTx,
            .update none ["logical_devices", "L", "ports", "Q"] (logicalPortMsg "Q" "q1") false,
            .update (some 0) ["logical_devices", "L", "ports", "P"] (logicalPortMsg "P" "d2") false])
        rootId ["logical_devices", "L", "ports", "Q"] none none (some 0)
      ≠ get volthaSchema (run volthaSchema (start volthaSchema none sampleInstance) [.openTx])
        rootId ["logical_devices", "L", "ports", "Q"] none none (some 0) := by
  decide +kernel

end Voltha.Config
