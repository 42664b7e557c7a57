import Voltha.Config.Properties.Repeatable

/-!
# key の一意性と安定

key を変えようとしない実行では、どの列でも key は重ならず、key で見つけた子の node は、
どの branch でもその key のままである。したがって path の指す子への操作は、
その子だけに働き、同じ列の他の子に触らない。
-/

namespace Voltha.Config

open Exec

variable {S : Schema} {κ : Mode} {X : State → Rev → Prop}
variable {s s' s₁ : State} {n m : NodeId} {k : Option TxId} {b : Branch}
variable {Ok : List Seg → Act → Prop} {route : List Seg} {f : ChildField} {key : String}

/-! ## 一つの列 -/

/-- 版 `r` の keyed な列 `f` の条件。 -/
structure StableKeys (s : State) (r : Rev) (f : ChildField) (key : String) : Prop where
  unique : UniqueKeys key (r.child f.name)
  found : ∀ v i c, findRevByKey key v (r.child f.name) = some (i, c) →
    Rev.keyIn key c = some v ∧ ∀ k b, (s.node (Rev.node c)).branches k = some b →
      Rev.keyIn key b.latest = some v
  apart : ∀ (i j : Nat) (c d : Rev), (r.child f.name)[i]? = some c → (r.child f.name)[j]? = some d →
    Rev.node c = Rev.node d → i = j

theorem Deep.stableKeys (hκ : κ.keys) (hg : Good S κ X s) {r : Rev} (h : Deep S κ X s r)
    (hf : f ∈ S.fields (Rev.config r).type) (hk : f.key = some key) : StableKeys s r f key := by
  have hnd : UniqueKeys key (r.child f.name) := (h.self.keyed hκ).nodup f hf key hk
  have hown : ∀ {c : Rev}, c ∈ r.child f.name → ∀ {q : Rev}, Rev.node q = Rev.node c →
      Deep S κ X s q → Rev.keyIn key q = Rev.keyIn key c := by
    intro c hc q hq hdq
    exact (h.self.child f hf c hc).key_of_node_eq (Frame.refl (K := fun _ => False) s) hk
      ((h.child hc).self.keyed hκ).own (hdq.self.keyed hκ).own hq
  refine ⟨hnd, ?_, ?_⟩
  · intro v i c hfind
    obtain ⟨hget, hkey⟩ := findRevByKey_eq_some hfind
    refine ⟨hkey, fun k b hb => ?_⟩
    have hbok := hg.branch _ k b hb
    rw [hown (List.mem_of_getElem? hget) hbok.node_latest hbok.latest]
    exact hkey
  · intro i j c d hi hj hn
    refine KeyedList.index_unique hnd hi hj ?_
    exact hown (List.mem_of_getElem? hj) hn (h.child (List.mem_of_getElem? hi))

/-! ## 操作の及ぶ範囲 -/

/-- key `u` の子を読む。 -/
def childUnder (key : String) (u : Value) (l : List Rev) : Option Rev :=
  l.find? fun c => Rev.keyIn key c = some u

/-- 差し替えた列で、別の field か、変わっていない key の子を読む。 -/
theorem childUnder_setField {r : Rev} {i : RevInfo} {g : ChildField} {l : List Rev} {u : Value}
    (hl : f.name = g.name → childUnder key u l = childUnder key u (r.child g.name)) :
    childUnder key u (FieldTree.child (.mk i (FieldTree.setField r.children g.name l)) f.name)
      = childUnder key u (r.child f.name) := by
  by_cases he : f.name = g.name
  · rw [he]
    rcases child_setField_self (r := r) (i := i) (f := g.name) (l := l) with hc | ⟨hc, hr⟩
    · rw [hc, hl he]
    · rw [hc, hr]
  · rw [child_setField_ne he]

/-- node `n` での操作は、指していない key の子を変えない。 -/
theorem Effect.childUnder_eq (hX : Closed X) (hκ : κ.keys)
    (hOk : ∀ route act, Ok route act → Keeping S κ route act) {res : Except Err Rev}
    (h : Effect S k Ok route n s res s') (hg : Good S κ X s) {r' : Rev} (hres : res = .ok r')
    {b₀ : Branch} (hb₀ : (s.node n).branches k = some b₀) (hk : f.key = some key)
    (hf : f ∈ S.fields (s.node n).type) {u : Value}
    (hother : ∀ w act w', Ok (route ++ w) act →
      w.map Seg.entry ++ act.entries ≠ (f.name, some u) :: w') :
    childUnder key u (r'.child f.name) = childUnder key u (b₀.latest.child f.name) := by
  cases h with
  | fail => cases hres
  | same hb _ =>
    obtain ⟨rfl, rfl⟩ := branchFor_existing hb₀ hb
    obtain rfl := Except.ok.inj hres
    rfl
  | write anns hb hty hok hr =>
    obtain ⟨rfl, rfl⟩ := branchFor_existing hb₀ hb
    obtain rfl := Except.ok.inj hres
    obtain ⟨rfl, -⟩ := replaceLatest_spec hr
    rfl
  | @insert _ _ _ s₁ s₂ _ b g gkey v data c r anns hb hg' hkey hv hnew hok hm hr =>
    have hg1 := (branchFor_good hX hg hb).1
    obtain ⟨rfl, rfl⟩ := branchFor_existing hb₀ hb
    obtain rfl := Except.ok.inj hres
    obtain ⟨rfl, -⟩ := replaceLatest_spec hr
    have hcfg := (wp_ok (mknode_child hX hg1 hv (hOk _ _ hok)) hm).2.2.2.2
    refine childUnder_setField fun he => ?_
    obtain rfl := S.field_unique hf hg' he
    rw [hk] at hkey
    cases hkey
    have hne : v ≠ u := by
      rintro rfl
      exact hother [] _ [] (by rw [List.append_nil]; exact hok) (by simp [Act.entries, hk, hv])
    exact find?_append_other (by simpa [Rev.keyIn, hcfg, hv] using hne)
  | insertFail => cases hres
  | @erase _ _ _ s₁ _ b g idx v c r anns hb hg' hc hok hr =>
    obtain ⟨rfl, rfl⟩ := branchFor_existing hb₀ hb
    obtain rfl := Except.ok.inj hres
    obtain ⟨rfl, -⟩ := replaceLatest_spec hr
    refine childUnder_setField fun he => ?_
    obtain rfl := S.field_unique hf hg' he
    obtain ⟨hget, hck⟩ := findRevByKey_eq_some (hc.find hk)
    have hne : v ≠ u := by
      rintro rfl
      exact hother [] _ [] (by rw [List.append_nil]; exact hok) rfl
    exact find?_eraseIdx_other hget (by simpa [hck] using hne)
  | @down _ _ _ s₁ s₂ _ b g idx v c c' r anns hb hg' hc heff hr =>
    obtain ⟨hg1, hb1⟩ := branchFor_good hX hg hb
    obtain ⟨hat, hdeep⟩ := hc.childAt hb1 hg'
    obtain ⟨rfl, rfl⟩ := branchFor_existing hb₀ hb
    obtain rfl := Except.ok.inj hres
    obtain ⟨rfl, -⟩ := replaceLatest_spec hr
    refine childUnder_setField fun he => ?_
    obtain rfl := S.field_unique hf hg' he
    cases v with
    | none => rw [ChildField.key, hc.1] at hk; cases hk
    | some v =>
      have hland := heff.good hX hOk hg1 hdeep.self.alive fun hκ =>
        hc.slotRoute hat (hdeep.self.keyed hκ).own
      obtain ⟨hget, hck⟩ := findRevByKey_eq_some (hc.find hk)
      have hck' := hland.keyIn_eq hκ hb1 hf hk hc heff.frame
      -- 降りた先の書き換えは key `v` の子の下にある
      have hne : v ≠ u := by
        rintro rfl
        obtain ⟨w, act, hact⟩ := heff.acts c' rfl
        exact hother (⟨f, some v⟩ :: w) act (w.map Seg.entry ++ act.entries)
          (by rw [List.append_assoc] at hact; exact hact) rfl
      unfold replaceChild
      split
      · next hs => rw [ChildField.key, hs] at hk; cases hk
      · exact find?_set_other hget (by simpa [hck] using hne) (by simpa [hck'] using hne)
  | downSame hb _ _ _ _ =>
    obtain ⟨rfl, rfl⟩ := branchFor_existing hb₀ hb
    obtain rfl := Except.ok.inj hres
    rfl
  | keyChange => cases hres
  | failBelow => cases hres

/-- 操作 `st` は、指していない key の子を、どの node の commit された列でも変えない。 -/
def ActsLocally (S : Schema) (s : State) (st : Step) (s' : State) : Prop :=
  ∀ m b₀, (s.node m).branches none = some b₀ → ∃ b₁, (s'.node m).branches none = some b₁ ∧
    ∀ f ∈ S.fields (s.node m).type, ∀ key u, f.key = some key →
      (∀ a a₀ w, st.WritesAt S s a → Address s m a₀ → a ≠ a₀ ++ (f.name, some u) :: w) →
      childUnder key u (b₁.latest.child f.name) = childUnder key u (b₀.latest.child f.name)

theorem Sound.actsLocally (hX : Closed X) (hκ : κ.keys) (hs : Sound S κ X s) {op : Op Rev}
    {st : Step} (heff : Effect S none (st.Acts S κ s) [] rootId s (op s).1 (op s).2) :
    ActsLocally S s st (collect (inTransaction none (rootOp none op) s).2) := by
  intro m b₀ hb₀
  rcases guarded_cases op none s with ⟨he, -⟩ | ⟨-, -, he⟩
  · rw [he]; exact ⟨b₀, hb₀, fun _ _ _ _ _ _ => rfl⟩
  · rw [he]
    have hm := (hs.good.branch m none b₀ hb₀).lt
    rcases heff.passes hX hκ hs.good hs.root (hs.slotRoute []) Address.root b₀ hm hb₀ with
      hb | ⟨route, s₁, res, s₂, hp⟩
    · exact ⟨b₀, hb, fun _ _ _ _ _ _ => rfl⟩
    · cases res with
      | error e =>
        have hown := hp.effect.own_of_error hX hp.good rfl hp.branch
        exact ⟨b₀, (congrFun hp.branches none).trans hown, fun _ _ _ _ _ _ => rfl⟩
      | ok r =>
        obtain ⟨-, -, -, b₁, hb₁, rfl⟩ := hp.effect.good hX (fun _ _ h => h.2) hp.good hp.alive
          fun _ => hp.slot
        refine ⟨b₁, (congrFun hp.branches none).trans hb₁, fun f hf key u hk hother => ?_⟩
        refine hp.effect.childUnder_eq hX hκ (fun _ _ h => h.2) hp.good rfl hp.branch hk
          (by rw [hp.view.type]; exact hf) fun w act w' hact he => ?_
        refine hother _ _ w' hact.1 hp.address ?_
        rw [List.map_append, List.append_assoc, he]

/--
**key は重ならず、変わらない。**

key を変えようとしない実行の後では、commit された木のどの keyed な列でも key は互いに異なり、
`<container>/<k>` で見つかる子の key は `k` で、その子の node はどの branch でも key が `k` である。
別の key の子は別の node なので、transaction の外の操作は path の指す子だけに働く。
-/
theorem keys_unique_and_stable (S : Schema) {kv : Option Store} {data : Msg}
    (hinit : (initRoot S kv data).1.isOk = true) {l : List Step}
    (hl : EveryStep S (fun s st => st.KeepsKey S s) (start S kv data) l) :
    (∀ root, (run S (start S kv data) l).latest? rootId = some root → ∀ r, FieldTree.Sub r root →
      ∀ f ∈ S.fields (Rev.config r).type, ∀ key, f.key = some key →
        StableKeys (run S (start S kv data) l) r f key) ∧
    ∀ st, Direct st → st.KeepsKey S (run S (start S kv data) l) →
      ActsLocally S (run S (start S kv data) l) st (step S (run S (start S kv data) l) st) := by
  have hs : Sound S ⟨True, False⟩ (fun _ _ => True) (run S (start S kv data) l) :=
    run_sound closed_true (hl.mono fun _ _ h => ⟨fun _ => h, False.elim⟩)
      (start_sound closed_true False.elim hinit)
  generalize run S (start S kv data) l = s at hs
  refine ⟨?_, ?_⟩
  · intro root hroot r hr f hf key hk
    obtain ⟨b, hb, rfl⟩ := Option.map_eq_some_iff.mp hroot
    have hdeep := (hs.good.branch rootId none b hb).latest.sub hr
    exact hdeep.stableKeys trivial hs.good hf hk
  · intro st hst hkey
    unfold step
    cases hst with
    | update path data strict =>
      rw [perform, discard_state]
      exact hs.actsLocally closed_true trivial (update_acts fun _ => hkey)
    | add path data =>
      rw [perform, discard_state]
      exact hs.actsLocally closed_true trivial (add_acts False.elim)
    | remove path =>
      rw [perform, discard_state]
      exact hs.actsLocally closed_true trivial (remove_acts path)

/-- port の書き換えと追加の後でも、logical device の列の key は互いに異なる。 -/
theorem keys_unique_and_stable_ports :
    ∃ root, (run volthaSchema (start volthaSchema none sampleInstance)
        [.update none ["logical_devices", "L", "ports", "P"] (logicalPortMsg "P" "d1") false,
          .add none ["logical_devices", "M", "ports"] (logicalPortMsg "Z" "z")]).latest? rootId
        = some root ∧ UniqueKeys "id" (root.child "logical_devices") := by
  obtain ⟨root, hroot⟩ := Option.isSome_iff_exists.mp (show ((run volthaSchema (start volthaSchema
    none sampleInstance)
      [.update none ["logical_devices", "L", "ports", "P"] (logicalPortMsg "P" "d1") false,
        .add none ["logical_devices", "M", "ports"] (logicalPortMsg "Z" "z")]).latest?
          rootId).isSome = true by decide +kernel)
  refine ⟨root, hroot, ?_⟩
  have hty : (Rev.config root).type = "VolthaInstance" := by
    have h : ((run volthaSchema (start volthaSchema none sampleInstance)
      [.update none ["logical_devices", "L", "ports", "P"] (logicalPortMsg "P" "d1") false,
        .add none ["logical_devices", "M", "ports"] (logicalPortMsg "Z" "z")]).latest?
          rootId).map (fun r => (Rev.config r).type) = some "VolthaInstance" := by decide +kernel
    rw [hroot] at h
    exact Option.some.inj h
  exact ((keys_unique_and_stable volthaSchema (by decide +kernel)
    (l := [.update none ["logical_devices", "L", "ports", "P"] (logicalPortMsg "P" "d1") false,
      .add none ["logical_devices", "M", "ports"] (logicalPortMsg "Z" "z")])
    ⟨Step.keepsKey_of_sameKey (by decide +kernel), trivial, trivial⟩).1 root hroot root
      (FieldTree.Sub.refl _) (byId "logical_devices" "LogicalDevice") (by rw [hty]; decide) "id"
      rfl).unique

/--
logical device の id を変える `update` は断られるが、その node の最新の版には変えた id が残る。
続けてその下に port を加えると、その版が親の列に入り、key が重なる。
-/
theorem failed_key_change_duplicates :
    EveryStep volthaSchema (fun s st => st.Typed volthaSchema s)
      (start volthaSchema none sampleInstance)
      [.update none ["logical_devices", "L"] (logicalDeviceMsg "M" "" []) false,
        .add none ["logical_devices", "L", "ports"] (logicalPortMsg "Z" "z")] ∧
    ((run volthaSchema (start volthaSchema none sampleInstance)
      [.update none ["logical_devices", "L"] (logicalDeviceMsg "M" "" []) false,
        .add none ["logical_devices", "L", "ports"] (logicalPortMsg "Z" "z")]).latest? rootId).map
        (fun root => keysOf "id" (root.child "logical_devices"))
      = some [some (.str "M"), some (.str "M")] := by
  refine ⟨⟨trivial, ⟨by decide +kernel, fun m route f hres => ?_⟩, trivial⟩, by decide +kernel⟩
  have hR : resolve volthaSchema (step volthaSchema (start volthaSchema none sampleInstance)
      (.update none ["logical_devices", "L"] (logicalDeviceMsg "M" "" []) false)) none
      ["logical_devices", "L", "ports"] rootId []
    = .container 4 [⟨byId "logical_devices" "LogicalDevice", some (.str "L")⟩]
        (byId "ports" "LogicalPort") := by decide +kernel
  obtain ⟨-, -, rfl⟩ := Target.container.inj (hR.symm.trans hres)
  rfl

end Voltha.Config
