import Voltha.Config.Properties.Mknode

/-!
# 不変条件の保存：`update` / `add` / `remove`

`Effect` の場合分けによって、一つの操作が `Good` を保つことを示す。
操作が例外で終わる場合も含む。
-/

namespace Voltha.Config

open Exec

variable {S : Schema} {κ : Mode} {X : State → Rev → Prop}
variable {s s' s₁ : State} {n : NodeId} {k : Option TxId} {b : Branch}
variable {Ok : List Seg → Act → Prop} {route : List Seg} {res : Except Err Rev}

/-! ## 触る branch -/

theorem replaceLatest_frame {config : Data} {children : List (String × List Rev)}
    {anns : List (CallbackType × Context)} {r : Rev}
    (h : replaceLatest n k b config children anns s = (.ok r, s')) : Frame (· ≠ k) s s' :=
  (replaceLatest_spec h).2.1

theorem branchFor_frame (h : branchFor n k s = (.ok b, s₁)) : Frame (· ≠ k) s s₁ := by
  have := branchFor_keeps n k s
  rwa [h] at this

theorem mknode_frame {m : Msg} {slot : Option Slot} {o : Except Err Rev}
    (h : mknode S m slot s = (o, s')) : Frame (· ≠ k) s s' := by
  have := mknode_keeps S m slot s
  rw [h] at this
  exact this.weaken fun _ _ => trivial

/-- 操作は、key `k` の branch しか書かない。 -/
theorem Effect.frame (h : Effect S k Ok route n s res s') : Frame (· ≠ k) s s' := by
  induction h with
  | fail e h =>
    rcases h with rfl | rfl
    · exact Frame.refl _
    · exact branchFor_keeps _ k _
  | same hb _ => exact branchFor_frame hb
  | write _ hb _ _ hr => exact (branchFor_frame hb).trans (replaceLatest_frame hr)
  | insert _ hb _ _ _ _ _ hm hr =>
    exact ((branchFor_frame hb).trans (mknode_frame hm)).trans (replaceLatest_frame hr)
  | insertFail hb _ _ _ _ hm => exact (branchFor_frame hb).trans (mknode_frame hm)
  | erase _ hb _ _ _ hr => exact (branchFor_frame hb).trans (replaceLatest_frame hr)
  | down _ hb _ _ _ hr ih =>
    exact ((branchFor_frame hb).trans ih).trans (replaceLatest_frame hr)
  | downSame hb _ _ _ _ ih => exact (branchFor_frame hb).trans ih
  | keyChange _ hb _ _ _ _ _ ih => exact (branchFor_frame hb).trans ih
  | failBelow hb _ _ _ ih => exact (branchFor_frame hb).trans ih

/-! ## branch の用意 -/

/-- node が実在し、commit された branch を持つ。 -/
structure Alive (s : State) (n : NodeId) : Prop where
  lt : n < s.nextNode
  born : ((s.node n).branches none).isSome

theorem Alive.mono {K : Option TxId → Prop} (hf : Frame K s s') (h : Alive s n) : Alive s' n :=
  ⟨Nat.lt_of_lt_of_le h.lt hf.next, hf.committed n h.lt h.born⟩

theorem Fits.alive {r : Rev} (h : Fits S κ X s r) : Alive s (Rev.node r) := ⟨h.lt, h.born⟩

theorem fork_good (hX : Closed X) (hg : Good S κ X s) {t : TxId} {point : Rev}
    (hp : s.latest? n = some point) :
    Good S κ X (s.fork n t point) ∧ BranchOk S κ X (s.fork n t point) n (some t)
      (forkBranch t point) := by
  obtain ⟨b, hb, rfl⟩ : ∃ b, (s.node n).branches none = some b ∧ b.latest = point := by
    unfold State.latest? at hp
    rw [Option.map_eq_some_iff] at hp
    exact hp
  have hdirty : Frame (· ≠ some t) s (s.addDirty n t) := { Frame.refl s with }
  have hf : Frame (· ≠ some t) s (s.fork n t b.latest) :=
    hdirty.trans (frame_setBranch (s.addDirty n t) n (some t) _ (by simp))
  have hok : BranchOk S κ X (s.fork n t b.latest) n (some t) (forkBranch t b.latest) := by
    have hcom := (hg.branch n none b hb).mono hX hf
    refine ⟨hcom.lt, hcom.born, rfl, fun _ => rfl, (by simp), ?_⟩
    intro r hr
    have : r = b.latest := by simpa [Branch.held, forkBranch] using hr
    rw [this]
    exact ⟨hcom.node_latest, hcom.latest⟩
  refine ⟨hg.setBranch hX hf (b := some (forkBranch t b.latest)) rfl rfl ?_, hok⟩
  rintro b' ⟨rfl⟩
  exact hok

theorem branchFor_good (hX : Closed X) (hg : Good S κ X s)
    (h : branchFor n k s = (.ok b, s₁)) : Good S κ X s₁ ∧ BranchOk S κ X s₁ n k b := by
  rcases branchFor_cases h with ⟨hb, rfl⟩ | ⟨t, point, rfl, -, hp, rfl, rfl⟩
  · exact ⟨hg, hg.branch n k b hb⟩
  · exact fork_good hX hg hp

/-- commit された branch を持つ node では、branch の用意は失敗しない。 -/
theorem branchFor_isOk (hn : Alive s n) (k : Option TxId) :
    ∃ b s₁, branchFor n k s = (.ok b, s₁) := by
  cases hb : (s.node n).branches k with
  | some b => exact ⟨b, s, branchFor_of_some hb⟩
  | none =>
    cases k with
    | none => have := hn.born; rw [hb] at this; simp at this
    | some t =>
      obtain ⟨c, hc⟩ := Option.isSome_iff_exists.mp hn.born
      exact ⟨_, _, branchFor_of_none hb (by unfold State.latest?; rw [hc]; rfl)⟩

/-! ## 道筋と置き場所 -/

/-- 書き換えが満たすべき条件。key は変えず、加える message は field の型のものである。 -/
def Keeping (S : Schema) (κ : Mode) (route : List Seg) : Act → Prop
  | .write d => κ.keys → ∀ f v key, route.getLast? = some ⟨f, some v⟩ → f.key = some key →
      d.attr key = some v
  | .insert f data => κ.typed → Shaped S.fields data ∧ data.label.type = f.type
  | .erase _ _ => True

/-- node の置き場所の key は、道筋の最後の key である。 -/
def SlotRoute (s : State) (n : NodeId) (route : List Seg) : Prop :=
  ∀ sl key, (s.node n).slot = some sl → sl.keyName = some key →
    ∃ f v, route.getLast? = some ⟨f, some v⟩ ∧ f.key = some key ∧ sl.key = some v

theorem SlotRoute.mono {K : Option TxId → Prop} (hf : Frame K s s') (hn : n < s.nextNode)
    (h : SlotRoute s n route) : SlotRoute s' n route := by
  intro sl key hsl hk
  rw [hf.slot n hn] at hsl
  exact h sl key hsl hk

theorem Found.mem {f : ChildField} {l : List Rev} {idx : Nat} {c : Rev} {v : Option Value}
    (h : Found f l idx c v) : c ∈ l := by
  cases v with
  | none => exact List.mem_of_head? h.2.1
  | some v =>
    obtain ⟨key, -, hfind⟩ := h
    exact List.mem_of_getElem? (findRevByKey_eq_some hfind).1

/-- 見つけた子の置き場所は、道筋を一歩伸ばしたものに合う。 -/
theorem Found.slotRoute {f : ChildField} {l : List Rev} {idx : Nat} {c : Rev} {v : Option Value}
    (h : Found f l idx c v) (hc : ChildAt s n f (Rev.node c))
    (hown : OwnKey s (Rev.node c) (Rev.config c)) :
    SlotRoute s (Rev.node c) (route ++ [⟨f, v⟩]) := by
  intro sl key hsl hk
  obtain ⟨w, hslot⟩ := hc.slot
  have hfk : f.key = some key := by
    rw [hslot] at hsl
    rw [← Option.some.inj hsl] at hk
    exact hk
  cases v with
  | none =>
    rw [ChildField.key, h.1] at hfk
    cases hfk
  | some v =>
    obtain ⟨key', hkey', hfind⟩ := h
    rw [hfk] at hkey'
    cases hkey'
    refine ⟨f, v, by simp, hfk, ?_⟩
    rw [← hown sl key hsl hk]
    exact (findRevByKey_eq_some hfind).2

/-- 子を一つ替えた列の要素。 -/
theorem mem_replaceChild {f : ChildField} {l : List Rev} {idx : Nat} {c x : Rev}
    (h : x ∈ replaceChild f l idx c) : x = c ∨ x ∈ l := by
  unfold replaceChild at h
  split at h
  · exact Or.inl (List.mem_singleton.mp h)
  · exact (List.mem_or_eq_of_mem_set h).symm

/-- 型の同じ子に替えても、列は field の型のとおりである。 -/
theorem ShapeList.replaceChild {f : ChildField} {l : List Rev} {c' : Rev} (h : ShapeList f l)
    (idx : Nat) (hty : (Rev.config c').type = f.type) :
    ShapeList f (Voltha.Config.replaceChild f l idx c') := by
  refine ⟨?_, ?_⟩
  · intro x hx
    rcases mem_replaceChild hx with rfl | hx
    · exact hty
    · exact h.typed x hx
  · intro hk
    exact ⟨c', by unfold Voltha.Config.replaceChild; rw [hk]⟩

/-- key の同じ子に替えても、key は重ならない。 -/
theorem DistinctKeys.replaceChild {f : ChildField} {l : List Rev} {idx : Nat} {c c' : Rev}
    {v : Option Value} (h : DistinctKeys f l) (hc : Found f l idx c v)
    (hkey : ∀ key, f.key = some key → Rev.keyIn key c' = Rev.keyIn key c) :
    DistinctKeys f (Voltha.Config.replaceChild f l idx c') := by
  intro key hk
  have hnd := h key hk
  unfold Voltha.Config.replaceChild
  split
  · simp
  · -- 同じ位置の同じ key に置き換わるので、key の列は変わらない
    cases v with
    | none => rw [ChildField.key, hc.1] at hk; cases hk
    | some v =>
      obtain ⟨key', hkey', hfind⟩ := hc
      obtain ⟨hlt, rfl⟩ := List.getElem?_eq_some_iff.mp (findRevByKey_eq_some hfind).1
      rw [List.map_set, hkey key hk, ← List.map_set, List.set_getElem_self]
      exact hnd

/-! ## 操作の保存 -/

/-- 操作の後の条件。 -/
def Landed (S : Schema) (κ : Mode) (X : State → Rev → Prop) (k : Option TxId) (n : NodeId)
    (s' : State) : Except Err Rev → Prop
  | .ok r => Good S κ X s' ∧ Rev.node r = n ∧ Deep S κ X s' r ∧
      ∃ b', (s'.node n).branches k = some b' ∧ b'.latest = r
  | .error _ => Good S κ X s'

theorem Landed.good (h : Landed S κ X k n s' res) : Good S κ X s' := by
  cases res with
  | ok r => exact h.1
  | error e => exact h

/-- 一つの node の二つの版は、型が等しい。 -/
theorem Fits.type_of_node_eq {K : Option TxId → Prop} (hf : Frame K s s') {c c' : Rev}
    (hc : Fits S κ X s c) (hc' : Fits S κ X s' c') (he : Rev.node c' = Rev.node c) :
    (Rev.config c').type = (Rev.config c).type := by
  rw [← hc'.type_eq, he, hf.type _ hc.lt, hc.type_eq]

/-- 一つの node の二つの版は、key が等しい。 -/
theorem ChildAt.key_of_node_eq {K : Option TxId → Prop} (hf : Frame K s s') {f : ChildField}
    {c c' : Rev} {key : String} (h : ChildAt s n f (Rev.node c)) (hk : f.key = some key)
    (hc : OwnKey s (Rev.node c) (Rev.config c)) (hc' : OwnKey s' (Rev.node c') (Rev.config c'))
    (he : Rev.node c' = Rev.node c) : Rev.keyIn key c' = Rev.keyIn key c := by
  obtain ⟨v, hslot⟩ := h.slot
  have h1 := hc _ key hslot hk
  rw [he] at hc'
  have h2 := hc' _ key (by rw [hf.slot _ h.lt]; exact hslot) hk
  exact h2.trans h1.symm

/-- local data を替えた版。 -/
theorem Fits.setConfig {r : Rev} (h : Fits S κ X s r) {i : RevInfo} (hnode : i.node = Rev.node r)
    (hty : i.config.type = (Rev.config r).type) (hown : κ.keys → OwnKey s (Rev.node r) i.config)
    (hx : X s (.mk i r.children)) : Fits S κ X s (.mk i r.children) := by
  have e1 : Rev.node (.mk i r.children) = Rev.node r := hnode
  have e2 : (Rev.config (.mk i r.children)).type = (Rev.config r).type := hty
  refine ⟨?_, ?_, ?_, ?_, fun hκ => ⟨?_, ?_⟩, fun hκ => ⟨?_, ?_, ?_⟩, hx⟩
  · rw [e1]; exact h.lt
  · rw [e1]; exact h.born
  · rw [e1, e2]; exact h.type_eq
  · rw [e1, e2]; exact h.child
  · rw [e1]; exact hown hκ
  · rw [e2]; exact (h.keyed hκ).nodup
  · rw [e2]; exact (h.shape hκ).names
  · rw [e2]; exact (h.shape hκ).typed
  · rw [e2]; exact (h.shape hκ).single

theorem Deep.setConfig {r : Rev} (h : Deep S κ X s r) {i : RevInfo}
    (hself : Fits S κ X s (.mk i r.children)) : Deep S κ X s (.mk i r.children) := by
  intro r' hr
  rcases FieldTree.sub_mk_iff.mp hr with rfl | ⟨g, m, c, hg, hc, hsub⟩
  · exact hself
  · exact h r' (FieldTree.Sub.down hg hc hsub)

/-- 版の列にある子は、親の版の条件を受け継ぐ。 -/
theorem BranchOk.childAt (hb : BranchOk S κ X s n k b) {f : ChildField}
    (hf : f ∈ S.fields (s.node n).type) {x : Rev} (hx : x ∈ b.latest.child f.name) :
    ChildAt s n f (Rev.node x) ∧ Deep S κ X s x := by
  rw [← hb.config_type] at hf
  have hat := hb.latest.self.child f hf x hx
  rw [hb.node_latest] at hat
  exact ⟨hat, hb.latest.child hx⟩

theorem Found.childAt {f : ChildField} {idx : Nat} {c : Rev} {v : Option Value}
    (hb : BranchOk S κ X s n k b) (hf : f ∈ S.fields (s.node n).type)
    (hc : Found f (b.latest.child f.name) idx c v) :
    ChildAt s n f (Rev.node c) ∧ Deep S κ X s c :=
  hb.childAt hf hc.mem

/-- 降りた先の node は生きていて、path のとおりの場所にある。 -/
theorem Found.below (hκ : κ.keys) {f : ChildField} {idx : Nat} {c : Rev} {v : Option Value}
    (hb : BranchOk S κ X s n k b) (hf : f ∈ S.fields (s.node n).type)
    (hc : Found f (b.latest.child f.name) idx c v) :
    Alive s (Rev.node c) ∧ SlotRoute s (Rev.node c) (route ++ [⟨f, v⟩]) := by
  obtain ⟨hat, hdeep⟩ := hc.childAt hb hf
  exact ⟨hdeep.self.alive, hc.slotRoute hat (hdeep.self.keyed hκ).own⟩

/-! ## 触る node -/

/-- node `m` は、node `n` 自身か、その下に作られたものである。 -/
inductive Under (s : State) (n : NodeId) : NodeId → Prop
  | refl : Under s n n
  | step {m : NodeId} {sl : Slot} (hsl : (s.node m).slot = some sl) (hlt : sl.parent < m)
      (h : Under s n sl.parent) : Under s n m

theorem Under.le {m : NodeId} (h : Under s n m) : n ≤ m := by
  induction h with
  | refl => exact Nat.le_refl _
  | step _ hlt _ ih => exact Nat.le_of_lt (Nat.lt_of_le_of_lt ih hlt)

theorem Under.trans {m p : NodeId} (h₁ : Under s n m) (h₂ : Under s m p) : Under s n p := by
  induction h₂ with
  | refl => exact h₁
  | step hsl hlt _ ih => exact Under.step hsl hlt ih

theorem ChildAt.under {f : ChildField} {m : NodeId} (h : ChildAt s n f m) : Under s n m := by
  obtain ⟨v, hsl⟩ := h.slot
  exact Under.step hsl h.younger Under.refl

/-- 既にある node どうしの上下は、操作で変わらない。 -/
theorem Under.of_frame {K : Option TxId → Prop} (hf : Frame K s s') {m : NodeId}
    (hm : m < s.nextNode) (h : Under s' n m) : Under s n m := by
  induction h with
  | refl => exact Under.refl
  | step hsl hlt _ ih =>
    rw [hf.slot _ hm] at hsl
    exact Under.step hsl hlt (ih (Nat.lt_trans hlt hm))

theorem setBranch_other (s : State) {n m : NodeId} (k : Option TxId) (b : Option Branch)
    (h : m ≠ n) : ((s.setBranch n k b).node m).branches = (s.node m).branches := by
  rw [setBranch_node_ne s k b h]

theorem branchFor_other (h : branchFor n k s = (.ok b, s₁)) {m : NodeId} (hm : m ≠ n) :
    (s₁.node m).branches = (s.node m).branches := by
  rcases branchFor_cases h with ⟨-, rfl⟩ | ⟨t, point, rfl, -, -, rfl, rfl⟩
  · rfl
  · exact setBranch_other (s.addDirty n t) _ _ hm

theorem replaceLatest_other {config : Data} {children : List (String × List Rev)}
    {anns : List (CallbackType × Context)} {r : Rev}
    (h : replaceLatest n k b config children anns s = (.ok r, s')) {m : NodeId} (hm : m ≠ n) :
    (s'.node m).branches = (s.node m).branches := by
  obtain ⟨-, -, -, hnode⟩ := replaceLatest_spec h
  rw [hnode]; exact setBranch_other s _ _ hm

theorem mknode_other {m : Msg} {slot : Option Slot} {o : Except Err Rev} {p : NodeId}
    (h : mknode S m slot s = (o, s')) (hp : p < s.nextNode) :
    (s'.node p).branches = (s.node p).branches := by
  have hf := mknode_keeps S m slot s
  rw [h] at hf
  funext k'
  exact hf.branch p hp k' trivial

/-- 降りた先が触らない node は、元の node の下に無いものを含む。 -/
theorem Found.not_under {f : ChildField} {idx : Nat} {c : Rev} {v : Option Value} {m : NodeId}
    (hb : branchFor n k s = (.ok b, s₁)) (hb1 : BranchOk S κ X s₁ n k b)
    (hf : f ∈ S.fields (s₁.node n).type) (hc : Found f (b.latest.child f.name) idx c v)
    (hm : m < s.nextNode) (hu : ¬Under s n m) : ¬Under s₁ (Rev.node c) m := fun h =>
  hu (((hc.childAt hb1 hf).1.under.trans h).of_frame (branchFor_frame hb) hm)

/-- 操作は、始めた node の下にある node の branch しか書かない。 -/
theorem Effect.outside (hX : Closed X) (h : Effect S k Ok route n s res s') :
    Good S κ X s → Alive s n → ∀ {m : NodeId}, m < s.nextNode → ¬Under s n m →
    (s'.node m).branches = (s.node m).branches := by
  have ne : ∀ {s : State} {n m : NodeId}, ¬Under s n m → m ≠ n := fun h he => h (he ▸ Under.refl)
  -- 子に降りる場合は、用意した branch と、降りた先が触るものに分ける
  have below : ∀ {s s₁ s₂ : State} {n : NodeId} {b : Branch} {f : ChildField} {idx : Nat}
      {c : Rev} {v : Option Value} {m : NodeId}, branchFor n k s = (.ok b, s₁) →
      f ∈ S.fields (s₁.node n).type → Found f (b.latest.child f.name) idx c v → Good S κ X s →
      (Good S κ X s₁ → Alive s₁ (Rev.node c) → ∀ {m : NodeId}, m < s₁.nextNode →
        ¬Under s₁ (Rev.node c) m → (s₂.node m).branches = (s₁.node m).branches) →
      m < s.nextNode → ¬Under s n m → (s₂.node m).branches = (s.node m).branches := by
    intro s s₁ s₂ n b f idx c v m hb hf hc hg ih hm hu
    obtain ⟨hg1, hb1⟩ := branchFor_good hX hg hb
    rw [ih hg1 (hc.childAt hb1 hf).2.self.alive (Nat.lt_of_lt_of_le hm (branchFor_frame hb).next)
      (hc.not_under hb hb1 hf hm hu), branchFor_other hb (ne hu)]
  induction h with
  | fail e h =>
    intro hg hn m hm hu
    rcases h with rfl | rfl
    · rfl
    · obtain ⟨b, s₁, hb⟩ := branchFor_isOk hn k
      rw [hb]
      exact branchFor_other hb (ne hu)
  | same hb _ => exact fun _ _ _ hm hu => branchFor_other hb (ne hu)
  | write _ hb _ _ hr =>
    exact fun _ _ _ hm hu => (replaceLatest_other hr (ne hu)).trans (branchFor_other hb (ne hu))
  | insert _ hb _ _ _ _ _ hmk hr =>
    intro _ _ m hm hu
    rw [replaceLatest_other hr (ne hu),
      mknode_other hmk (Nat.lt_of_lt_of_le hm (branchFor_frame hb).next),
      branchFor_other hb (ne hu)]
  | insertFail hb _ _ _ _ hmk =>
    intro _ _ m hm hu
    rw [mknode_other hmk (Nat.lt_of_lt_of_le hm (branchFor_frame hb).next),
      branchFor_other hb (ne hu)]
  | erase _ hb _ _ _ hr =>
    exact fun _ _ _ hm hu => (replaceLatest_other hr (ne hu)).trans (branchFor_other hb (ne hu))
  | down _ hb hf hc _ hr ih =>
    exact fun hg _ _ hm hu => (replaceLatest_other hr (ne hu)).trans (below hb hf hc hg ih hm hu)
  | downSame hb hf hc _ _ ih => exact fun hg _ _ hm hu => below hb hf hc hg ih hm hu
  | keyChange _ hb hf _ hc _ _ ih => exact fun hg _ _ hm hu => below hb hf hc hg ih hm hu
  | failBelow hb hf hc _ ih => exact fun hg _ _ hm hu => below hb hf hc hg ih hm hu

/-- 子に降りた操作は、始めた node の branch を変えない。 -/
theorem Effect.parent_branches (hX : Closed X) {f : ChildField} {idx : Nat} {c : Rev}
    {v : Option Value} (hb : BranchOk S κ X s n k b) (hg : Good S κ X s)
    (hf : f ∈ S.fields (s.node n).type) (hc : Found f (b.latest.child f.name) idx c v)
    (h : Effect S k Ok route (Rev.node c) s res s') :
    (s'.node n).branches = (s.node n).branches := by
  obtain ⟨hat, hdeep⟩ := hc.childAt hb hf
  exact h.outside hX hg hdeep.self.alive hb.lt fun hu =>
    absurd hu.le (Nat.not_le.mpr hat.younger)

/-- 加える子を作る。作った版の local data は、渡した message のものである。 -/
theorem mknode_child (hX : Closed X) (hg : Good S κ X s) {f : ChildField} {key : String} {v : Value}
    {data : Msg} (hv : data.label.attr key = some v) (hok : Keeping S κ route (.insert f data)) :
    wp (mknode S (complete S data) (some ⟨n, f.name, some key, some v⟩))
      (fun c s' => Good S κ X s' ∧ Deep S κ X s' c ∧ Rev.node c = s.nextNode ∧
        (s'.node (Rev.node c)).slot = some ⟨n, f.name, some key, some v⟩ ∧
        Rev.config c = data.label)
      (fun _ s' => Good S κ X s') s := by
  refine wp_mono (mknode_good hX (complete S data) _ s hg (fun hκ => (hok hκ).1.complete)
    (slotOk_complete hv)) ?_ fun _ _ h => h
  rintro c s' ⟨hg', hdeep, hfresh, hsl, hcont, -⟩
  exact ⟨hg', hdeep, hfresh, hsl, by rw [← Rev.label_content, hcont, label_complete]⟩

/-- local data を書き換えた版を据える。 -/
theorem write_good (hX : Closed X) (hg : Good S κ X s₁) (hb : BranchOk S κ X s₁ n k b) {d : Data}
    {r : Rev} {anns : List (CallbackType × Context)} (hty : d.type = (s₁.node n).type)
    (hok : Keeping S κ route (.write d)) (hroute : κ.keys → SlotRoute s₁ n route)
    (hr : replaceLatest n k b d b.latest.children anns s₁ = (.ok r, s')) :
    Landed S κ X k n s' (.ok r) := by
  refine replaceLatest_good hX hg hb hr fun s₃ hf3 hx => ?_
  obtain ⟨rfl, -, -, -⟩ := replaceLatest_spec hr
  have hb3 := hb.mono hX hf3
  have hn3 := hb3.node_latest
  refine hb3.latest.setConfig (hb3.latest.self.setConfig hn3.symm ?_ (fun hκ => ?_) hx)
  · show d.type = _
    rw [hty, hb.config_type]
  · intro sl key hsl hkey
    rw [hn3] at hsl
    obtain ⟨f, v, hlast, hfk, hv⟩ := (hroute hκ).mono hf3 hb.lt sl key hsl hkey
    rw [hv]
    exact hok hκ f v key hlast hfk

/-- 子を加えた版を据える。 -/
theorem insert_good (hX : Closed X) (hg : Good S κ X s₁) (hb : BranchOk S κ X s₁ n k b)
    {s₂ : State} {f : ChildField} {key : String} {v : Value} {data : Msg} {c r : Rev}
    {anns : List (CallbackType × Context)} (hf : f ∈ S.fields (s₁.node n).type)
    (hkey : f.key = some key) (hv : data.label.attr key = some v)
    (hnew : findRevByKey key v (b.latest.child f.name) = none)
    (hok : Keeping S κ route (.insert f data))
    (hm : mknode S (complete S data) (some ⟨n, f.name, some key, some v⟩) s₁ = (.ok c, s₂))
    (hr : install n k b f.name (b.latest.child f.name ++ [c]) anns s₂ = (.ok r, s')) :
    Landed S κ X k n s' (.ok r) := by
  obtain ⟨hg2, hdeep, hfresh, hsl, hcfg⟩ := wp_ok (mknode_child hX hg hv hok) hm
  have hf2 : Frame (· ≠ k) s₁ s₂ := mknode_frame hm
  have hb2 := hb.mono hX hf2
  have hfs2 : f ∈ S.fields (s₂.node n).type := by rw [hf2.type n hb.lt]; exact hf
  have hfb : f ∈ S.fields (Rev.config b.latest).type := by rw [hb.config_type]; exact hf
  refine install_good hX hg2 hb2 hfs2 ?_ (fun hκ => ?_) (fun hκ => ⟨?_, ?_⟩) hr
  · intro x hx
    rcases List.mem_append.mp hx with hx | hx
    · exact hb2.childAt hfs2 hx
    · rw [List.mem_singleton.mp hx]
      exact ⟨⟨hdeep.self.lt, hfresh ▸ hb.lt, _, by rw [hsl, hkey]⟩, hdeep⟩
  · -- 新しい key は、列に無い
    intro key' hkey'
    rw [hkey] at hkey'
    cases hkey'
    rw [List.map_append, List.nodup_append]
    refine ⟨(hb2.latest.self.keyed hκ).nodup f hfb key hkey, by simp, ?_⟩
    rintro a ha b hb rfl
    obtain ⟨x, hx, rfl⟩ := List.mem_map.mp ha
    simp only [List.map_cons, List.map_nil, List.mem_singleton] at hb
    refine findRevByKey_eq_none hnew x hx (hb.trans ?_)
    unfold Rev.keyIn
    rw [hcfg, hv]
  · intro x hx
    rcases List.mem_append.mp hx with hx | hx
    · exact ((hb2.latest.self.shape hκ).list hfb).typed x hx
    · rw [List.mem_singleton.mp hx, hcfg]
      exact (hok hκ).2
  · intro hk
    rw [ChildField.key, hk] at hkey
    cases hkey

/-- 子を外した版を据える。 -/
theorem erase_good (hX : Closed X) (hg : Good S κ X s₁) (hb : BranchOk S κ X s₁ n k b)
    {f : ChildField} {idx : Nat} {v : Value} {c r : Rev} {anns : List (CallbackType × Context)}
    (hf : f ∈ S.fields (s₁.node n).type) (hc : Found f (b.latest.child f.name) idx c (some v))
    (hr : install n k b f.name ((b.latest.child f.name).eraseIdx idx) anns s₁ = (.ok r, s')) :
    Landed S κ X k n s' (.ok r) := by
  have hfb : f ∈ S.fields (Rev.config b.latest).type := by rw [hb.config_type]; exact hf
  refine install_good hX hg hb hf ?_ (fun hκ => ?_) (fun hκ => ⟨?_, ?_⟩) hr
  · exact fun x hx => hb.childAt hf (List.mem_of_mem_eraseIdx hx)
  · intro key hkey
    exact ((hb.latest.self.keyed hκ).nodup f hfb key hkey).sublist
      ((List.eraseIdx_sublist ..).map _)
  · intro x hx
    exact ((hb.latest.self.shape hκ).list hfb).typed x (List.mem_of_mem_eraseIdx hx)
  · intro hk
    obtain ⟨key, hkey, -⟩ := hc
    rw [ChildField.key, hk] at hkey
    cases hkey

/-- 操作を終えた子に替えた版を据える。 -/
theorem down_good (hX : Closed X) (hb : BranchOk S κ X s₁ n k b) {s₂ : State} {f : ChildField}
    {idx : Nat} {v : Option Value} {c c' r : Rev} {anns : List (CallbackType × Context)}
    (hf : f ∈ S.fields (s₁.node n).type) (hc : Found f (b.latest.child f.name) idx c v)
    (hf2 : Frame (· ≠ k) s₁ s₂) (hbelow : Landed S κ X k (Rev.node c) s₂ (.ok c'))
    (hr : install n k b f.name (replaceChild f (b.latest.child f.name) idx c') anns s₂
      = (.ok r, s')) : Landed S κ X k n s' (.ok r) := by
  obtain ⟨hat, hdc⟩ := hc.childAt hb hf
  obtain ⟨hg2, hnode, hdeep, -⟩ := hbelow
  have hb2 := hb.mono hX hf2
  have hfs2 : f ∈ S.fields (s₂.node n).type := by rw [hf2.type n hb.lt]; exact hf
  have hfb : f ∈ S.fields (Rev.config b.latest).type := by rw [hb.config_type]; exact hf
  refine install_good hX hg2 hb2 hfs2 ?_ (fun hκ => ?_) (fun hκ => ?_) hr
  · intro x hx
    rcases mem_replaceChild hx with rfl | hx
    · rw [hnode]
      exact ⟨hat.mono hf2, hdeep⟩
    · exact hb2.childAt hfs2 hx
  · have hnd : DistinctKeys f (b.latest.child f.name) := (hb.latest.self.keyed hκ).nodup f hfb
    refine hnd.replaceChild hc fun key hk => ?_
    exact hat.key_of_node_eq hf2 hk (hdc.self.keyed hκ).own (hdeep.self.keyed hκ).own hnode
  · have hp := (hb.latest.self.shape hκ).list hfb
    refine hp.replaceChild idx ?_
    rw [hdc.self.type_of_node_eq hf2 hdeep.self hnode]
    exact hp.typed c hc.mem

/-- 操作は `Good` を保つ。 -/
theorem Effect.good (hX : Closed X) (hOk : ∀ route act, Ok route act → Keeping S κ route act)
    (h : Effect S k Ok route n s res s') :
    Good S κ X s → Alive s n → (κ.keys → SlotRoute s n route) → Landed S κ X k n s' res := by
  -- 降りた先の操作の条件。子は実在し、道筋はその置き場所に合う
  have enter : ∀ {s₁ : State} {n : NodeId} {b : Branch} {f : ChildField} {idx : Nat} {c : Rev}
      {v : Option Value} (route : List Seg), BranchOk S κ X s₁ n k b →
      f ∈ S.fields (s₁.node n).type → Found f (b.latest.child f.name) idx c v →
      Alive s₁ (Rev.node c) ∧ (κ.keys → SlotRoute s₁ (Rev.node c) (route ++ [⟨f, v⟩])) := by
    intro s₁ n b f idx c v route hb hf hc
    obtain ⟨hat, hdeep⟩ := hc.childAt hb hf
    exact ⟨hdeep.self.alive, fun hκ => hc.slotRoute hat (hdeep.self.keyed hκ).own⟩
  induction h with
  | fail e h =>
    intro hg hn hr
    rcases h with rfl | rfl
    · exact hg
    · obtain ⟨b, s₁, hb⟩ := branchFor_isOk hn k
      rw [hb]
      exact (branchFor_good hX hg hb).1
  | same hb _ =>
    intro hg hn hr
    obtain ⟨hg1, hb1⟩ := branchFor_good hX hg hb
    exact ⟨hg1, hb1.node_latest, hb1.latest, _, (branchFor_sameView hb).2.2, rfl⟩
  | write anns hb hty hok hr =>
    intro hg hn hroute
    obtain ⟨hg1, hb1⟩ := branchFor_good hX hg hb
    exact write_good hX hg1 hb1 hty (hOk _ _ hok)
      (fun hκ => (hroute hκ).mono (branchFor_frame hb) hn.lt) hr
  | insert anns hb hf hkey hv hnew hok hm hr =>
    intro hg hn hroute
    obtain ⟨hg1, hb1⟩ := branchFor_good hX hg hb
    exact insert_good hX hg1 hb1 hf hkey hv hnew (hOk _ _ hok) hm hr
  | insertFail hb hf hkey hv hok hm =>
    intro hg hn hroute
    obtain ⟨hg1, hb1⟩ := branchFor_good hX hg hb
    have hg2 := wp_error (mknode_child hX hg1 hv (hOk _ _ hok)) hm
    exact hg2
  | erase anns hb hf hc hok hr =>
    intro hg hn hroute
    obtain ⟨hg1, hb1⟩ := branchFor_good hX hg hb
    exact erase_good hX hg1 hb1 hf hc hr
  | down anns hb hf hc heff hr ih =>
    intro hg hn hroute
    obtain ⟨hg1, hb1⟩ := branchFor_good hX hg hb
    obtain ⟨halive, hslot⟩ := enter _ hb1 hf hc
    exact down_good hX hb1 hf hc heff.frame (ih hg1 halive hslot) hr
  | @downSame route n s s₁ s₂ b f idx v c c' hb hf hc heff hh ih =>
    intro hg hn hroute
    obtain ⟨hg1, hb1⟩ := branchFor_good hX hg hb
    obtain ⟨halive, hslot⟩ := enter route hb1 hf hc
    have hg2 := (ih hg1 halive hslot).good
    have hb2 := hb1.mono hX heff.frame
    refine ⟨hg2, hb2.node_latest, hb2.latest, b, ?_, rfl⟩
    rw [heff.parent_branches hX hb1 hg1 hf hc]
    exact (branchFor_sameView hb).2.2
  | keyChange _ hb hf _ hc _ _ ih =>
    intro hg hn hroute
    obtain ⟨hg1, hb1⟩ := branchFor_good hX hg hb
    obtain ⟨halive, hslot⟩ := enter _ hb1 hf hc
    exact (ih hg1 halive hslot).good
  | failBelow hb hf hc _ ih =>
    intro hg hn hroute
    obtain ⟨hg1, hb1⟩ := branchFor_good hX hg hb
    obtain ⟨halive, hslot⟩ := enter _ hb1 hf hc
    exact (ih hg1 halive hslot).good

/-- 一つの node の版の key は変わらないので、降りた先の操作は key を変えない。 -/
theorem Landed.keyIn_eq {f : ChildField} {key : String} {idx : Nat} {v : Value}
    {c c' : Rev} (hκ : κ.keys) (hb : BranchOk S κ X s₁ n k b)
    (hf : f ∈ S.fields (s₁.node n).type) (hkey : f.key = some key)
    (hc : Found f (b.latest.child f.name) idx c (some v)) {K : Option TxId → Prop}
    (hframe : Frame K s₁ s') (h : Landed S κ X k (Rev.node c) s' (.ok c')) :
    Rev.keyIn key c' = some v := by
  obtain ⟨hat, hdeep⟩ := hc.childAt hb hf
  obtain ⟨-, hnode, hdeep', -⟩ := h
  rw [hat.key_of_node_eq hframe hkey (hdeep.self.keyed hκ).own (hdeep'.self.keyed hκ).own hnode]
  obtain ⟨key', hkey', hfind⟩ := hc
  rw [hkey] at hkey'
  cases hkey'
  exact (findRevByKey_eq_some hfind).2

end Voltha.Config
