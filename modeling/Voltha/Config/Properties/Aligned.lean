import Voltha.Config.Properties.MergeCoherent
import Voltha.Config.Properties.Refinement

/-!
# 実行の間、木は揃っている

commit された branch を書き換えるのは、transaction の外の操作と commit だけである。
前者は食い違いを root まで運んで消し（`Effect.simulates`）、後者は古びた版を引き取らないかぎり
木を揃えたままにする（`mergeTxbranch_settles`）。
残りの操作は、どの node の最新の版にも触らない（`Still`）。
-/

namespace Voltha.Config

open Exec

variable {S : Schema} {κ : Mode} {X : State → Rev → Prop}
variable {s s' s₁ : State} {n : NodeId} {k : Option TxId} {t : TxId}
variable {Ok : List Seg → Act → Prop} {route : List Seg} {res : Except Err Rev}

/-! ## 最新の版に触らない操作 -/

/-- どの node の最新の版も型も変わらない。 -/
structure Still (s s' : State) : Prop where
  latest : ∀ m, s'.latest? m = s.latest? m
  type : ∀ m, (s'.node m).type = (s.node m).type

instance : Std.Refl Still := ⟨fun _ => ⟨fun _ => rfl, fun _ => rfl⟩⟩

instance : IsTrans State Still :=
  ⟨fun _ _ _ h h' => ⟨fun m => (h'.latest m).trans (h.latest m),
    fun m => (h'.type m).trans (h.type m)⟩⟩

theorem Still.coherent (h : Still s s') (hc : Coherent S s) : Coherent S s' :=
  hc.of_latest h.latest h.type

theorem Still.of_node (h : s'.node = s.node) : Still s s' :=
  ⟨fun m => latest?_congr (by rw [h]), fun m => by rw [h]⟩

/-- transaction の branch の書き換え。 -/
theorem still_setBranch (s : State) (n : NodeId) (t : TxId) (b : Option Branch) :
    Still s (s.setBranch n (some t) b) := by
  refine ⟨fun m => latest?_congr ?_, fun m => setBranch_type ..⟩
  rw [setBranch_branches, if_neg (by simp)]

/-- branch と型を変えない、node の書き換え。 -/
theorem still_setNode (s : State) (n : NodeId) {nd : Node}
    (hb : nd.branches = (s.node n).branches) (hty : nd.type = (s.node n).type) :
    Still s (s.setNode n nd) := by
  refine ⟨fun m => latest?_congr ?_, fun m => ?_⟩ <;> rw [setNode_node] <;> split
  · next he => rw [he, hb]
  · rfl
  · next he => rw [he, hty]
  · rfl

theorem mkTxbranch_still (n : NodeId) (t : TxId) : Keeps Still (mkTxbranch n t) :=
  Keeps.read.bind fun _ => (Keeps.ofOption _ _).bind fun _ =>
    Keeps.bind (fun s => still_setBranch s n t _) fun _ => Keeps.pure _

theorem branchFor_still (n : NodeId) (t : TxId) : Keeps Still (branchFor n (some t)) := by
  refine Keeps.read.bind fun s => ?_
  cases (s.node n).branches (some t) with
  | some b => exact Keeps.pure b
  | none => exact Keeps.bind (fun _ => Still.of_node rfl) fun _ => mkTxbranch_still n t

theorem replaceLatest_still {b : Branch} {config : Data} {children : List (String × List Rev)}
    {anns : List (CallbackType × Context)} {r : Rev}
    (h : replaceLatest n (some t) b config children anns s = (.ok r, s')) : Still s s' := by
  obtain ⟨-, -, -, hnode⟩ := replaceLatest_spec h
  exact IsTrans.trans _ _ _ (still_setBranch s n t _) (Still.of_node hnode)

theorem delTxbranch_still (n : NodeId) (t : TxId) : Keeps Still (delTxbranch n t) := by
  refine Keeps.read.bind fun s₀ => ?_
  cases s₀.txBranch? t n with
  | none => exact Keeps.raise _
  | some b =>
    intro s
    simp only [modify_apply]
    split
    · exact IsTrans.trans _ _ _ (still_setBranch s n t none) (Still.of_node rfl)
    · exact still_setBranch s n t none

theorem delTxbranches_still (t : TxId) : ∀ ns : List NodeId, Keeps Still (delTxbranches t ns)
  | [] => Keeps.pure ()
  | n :: ns => (delTxbranch_still n t).bind fun _ => delTxbranches_still t ns

theorem dropTransaction_still (t : TxId) : Keeps Still (dropTransaction t) :=
  Keeps.read.bind fun _ => (Keeps.ofOption _ _).bind fun ns => (delTxbranches_still t ns).bind
    fun _ _ => Still.of_node rfl

theorem openTransaction_still : Keeps Still openTransaction :=
  Keeps.read.bind fun _ => Keeps.bind (fun _ => Still.of_node rfl) fun _ =>
    (mkTxbranch_still rootId _).bind fun _ => Keeps.bind (fun _ => Still.of_node rfl) fun _ =>
      Keeps.pure _

theorem cancel_still (t : TxId) : Keeps Still (cancel t) :=
  Keeps.read.bind fun _ => Keeps.ite
    (fun _ => (dropTransaction_still t).bind fun _ _ => Still.of_node rfl) fun _ => Keeps.raise _

theorem mkProxy_still (n : NodeId) (fullPath : List String) (exclusive : Bool) :
    Keeps Still (mkProxy n fullPath exclusive) := by
  refine Keeps.read.bind fun s₀ => ?_
  cases (s₀.node n).proxy with
  | none => exact Keeps.bind (fun s => still_setNode s n rfl rfl) fun _ => Keeps.pure _
  | some p => exact Keeps.ite (fun _ => Keeps.raise _) fun _ => Keeps.pure _

theorem registerCallback_still (n : NodeId) (type : CallbackType) (f : Callback) :
    Keeps Still (registerCallback n type f) := by
  intro s
  unfold registerCallback
  rw [modify_apply]
  cases (s.node n).proxy with
  | none => exact Still.of_node rfl
  | some p => exact still_setNode s n rfl rfl

theorem pruneUntagged_still (s : State) : Still s (pruneUntagged s) := by
  cases hb : (s.node rootId).branches none with
  | none =>
    unfold pruneUntagged
    rw [hb]
    exact Still.of_node rfl
  | some b =>
    obtain ⟨revs, he, -⟩ := prune_branch hb
    rw [he]
    refine ⟨fun m => ?_, fun m => setBranch_type ..⟩
    by_cases hm : m = rootId
    · subst hm
      have hbr : ((s.setBranch rootId none (some { b with revs })).node rootId).branches none
          = some { b with revs } := by rw [setBranch_branches, if_pos ⟨rfl, rfl⟩]
      rw [latest?_of_branch hbr, latest?_of_branch hb]
    · refine latest?_congr ?_
      rw [setBranch_branches, if_neg fun he => hm he.1]

/-- tag と prune は、最新の版に触らない。 -/
theorem Housekeeping.still {st : Step} (h : Housekeeping st) : Still s (perform S st s).2 := by
  by_cases hp : st = .prune
  · subst hp
    exact pruneUntagged_still s
  · obtain ⟨tags, he⟩ := tagged_state (S := S) (s := s) h hp
    rw [he]
    exact still_setNode s rootId rfl rfl

/-! ## 操作 -/

theorem branchFor_coherent {b : Branch} (h : Coherent S s) (hb : branchFor n k s = (.ok b, s₁)) :
    Coherent S s₁ := by
  cases k with
  | none => rw [← (branchFor_none_cases hb).1]; exact h
  | some t =>
    have hs := branchFor_still n t s
    rw [hb] at hs
    exact hs.coherent h

/-- transaction の中の操作と、断られた操作の間も揃っている。 -/
theorem Effect.coherent (hX : Closed X) (hκ : κ.keys)
    (hOk : ∀ route act, Ok route act → Keeping S κ route act)
    (h : Effect S k Ok route n s res s') : Good S κ X s → Alive s n → SlotRoute s n route →
    Coherent S s → (k = none → res.isOk = false) → Coherent S s' := by
  have keep : ∀ {s s' : State} {n : NodeId} {b : Branch} {config : Data}
      {children : List (String × List Rev)} {anns : List (CallbackType × Context)} {r : Rev},
      replaceLatest n k b config children anns s = (.ok r, s') →
      (k = none → (Except.ok r : Except Err Rev).isOk = false) → Coherent S s → Coherent S s' := by
    intro s s' n b config children anns r hr hk hc
    cases k with
    | none => cases hk rfl
    | some t => exact (replaceLatest_still hr).coherent hc
  have grow : ∀ {s s' : State} {n : NodeId} {f : ChildField} {key : String} {v : Value} {data : Msg}
      {route : List Seg} {o : Except Err Rev}, Good S κ X s → Coherent S s →
      data.label.attr key = some v → Ok route (.insert f data) →
      mknode S (complete S data) (some ⟨n, f.name, some key, some v⟩) s = (o, s') →
      Coherent S s' := by
    intro s s' n f key v data route o hg hc hv hok hm
    have hslot : SlotOk (complete S data) (some ⟨n, f.name, some key, some v⟩) :=
      slotOk_complete hv
    have := wp_snd (mknode_coherent hX (complete S data) _ s hg
      (fun hτ => (hOk _ _ hok hτ).1.complete) hslot hc)
    rw [hm] at this
    exact this
  induction h with
  | fail e h =>
    intro hg hn _ hc _
    rcases h with rfl | rfl
    · exact hc
    · obtain ⟨b, s₁, hb⟩ := branchFor_isOk hn k
      rw [hb]
      exact branchFor_coherent hc hb
  | same hb _ => exact fun _ _ _ hc _ => branchFor_coherent hc hb
  | write _ hb _ _ hr => exact fun _ _ _ hc hk => keep hr hk (branchFor_coherent hc hb)
  | insert _ hb _ _ hv _ hok hm hr =>
    exact fun hg _ _ hc hk => keep hr hk
      (grow (branchFor_good hX hg hb).1 (branchFor_coherent hc hb) hv hok hm)
  | insertFail hb _ _ hv hok hm =>
    exact fun hg _ _ hc _ =>
      grow (branchFor_good hX hg hb).1 (branchFor_coherent hc hb) hv hok hm
  | erase _ hb _ _ _ hr => exact fun _ _ _ hc hk => keep hr hk (branchFor_coherent hc hb)
  | down _ hb hf hfound _ hr ih =>
    intro hg _ _ hc hk
    obtain ⟨hg1, hbok⟩ := branchFor_good hX hg hb
    obtain ⟨halive, hsl⟩ := hfound.below hκ hbok hf
    refine keep hr hk (ih hg1 halive hsl
      (branchFor_coherent hc hb) fun h => ?_)
    cases hk h
  | downSame hb hf hfound _ _ ih =>
    intro hg _ _ hc hk
    obtain ⟨hg1, hbok⟩ := branchFor_good hX hg hb
    obtain ⟨halive, hsl⟩ := hfound.below hκ hbok hf
    refine ih hg1 halive hsl
      (branchFor_coherent hc hb) fun h => ?_
    cases hk h
  | keyChange _ hb hf hkey hfound heff hne _ =>
    -- key は node のもののままなので、この検査にはかからない
    intro hg _ _ _ _
    obtain ⟨hg1, hbok⟩ := branchFor_good hX hg hb
    obtain ⟨halive, hsl⟩ := hfound.below hκ hbok hf
    exact absurd (Landed.keyIn_eq hκ hbok hf hkey hfound heff.frame
      (heff.good hX hOk hg1 halive fun _ => hsl)) hne
  | failBelow hb hf hfound _ ih =>
    intro hg _ _ hc _
    obtain ⟨hg1, hbok⟩ := branchFor_good hX hg hb
    obtain ⟨halive, hsl⟩ := hfound.below hκ hbok hf
    exact ih hg1 halive hsl
      (branchFor_coherent hc hb) fun _ => rfl

/-- 枠に入れた操作の後も揃っている。 -/
theorem Sound.guarded_coherent (hX : Closed X) (hκ : κ.keys) (hτ : κ.typed) (h : Sound S κ X s)
    (hc : Coherent S s) {op : Op Rev}
    (heff : Effect S k (Keeping S κ) [] rootId s (op s).1 (op s).2) :
    Coherent S (inTransaction k (rootOp k op) s).2 := by
  rcases guarded_cases op k s with ⟨he, -⟩ | ⟨-, -, he⟩ <;> rw [he]
  · exact hc
  have hslot := h.slotRoute []
  refine Still.coherent (s := (op s).2) (Still.of_node rfl) ?_
  by_cases hk : k = none → (op s).1.isOk = false
  · exact heff.coherent hX hκ (fun _ _ h => h) h.good h.root hslot hc hk
  · -- transaction の外で正常に終わった操作は、食い違いを root まで運ぶ
    obtain ⟨rfl, hok⟩ := Classical.not_imp.mp hk
    have hland := heff.good hX (fun _ _ h => h) h.good h.root fun _ => hslot
    obtain ⟨r₀, hr₀⟩ : ∃ r₀, s.latest? rootId = some r₀ := by
      obtain ⟨b, hb⟩ := Option.isSome_iff_exists.mp h.root.born
      exact ⟨b.latest, latest?_of_branch hb⟩
    cases hres : (op s).1 with
    | error e => rw [hres] at hok; exact absurd rfl hok
    | ok r =>
      exact CoherentBut.root hland.good (heff.simulates hX hκ hτ (fun _ _ h => h) rfl h.good h.root
        hslot hc r r₀ hres hr₀).1

/-! ## commit -/

/-- 子が `n` の下にあれば、親も `n` の下にある。 -/
theorem Under.parent {m c : NodeId} {f : ChildField} (h : Under s n c) (hat : ChildAt s m f c)
    (hne : c ≠ n) : Under s n m := by
  obtain ⟨v, hsl⟩ := hat.slot
  cases h with
  | refl => exact absurd rfl hne
  | step hsl' _ hu =>
    rw [hsl] at hsl'
    rw [← Option.some.inj hsl'] at hu
    exact hu

/-- 正常に終わった merge の後も揃っている。 -/
theorem Mergeable.coherent_merge (hX : Closed X) (h : Mergeable S κ X t s) (hroot : Alive s rootId)
    {fuel : Nat} {o : Option Rev} (hm : mergeTxbranch S t false fuel rootId s = (.ok o, s')) :
    Coherent S s' := by
  obtain ⟨r, -, hmerged⟩ := wp_ok (mergeTxbranch_settles h fuel rootId hroot.lt s
    ⟨Frame.refl s, fun _ _ _ => rfl⟩) hm
  have hgood := (wp_ok (mergeTxbranch_good hX t fuel rootId s h.good) hm).1
  have hframe := mergeTxbranch_keeps S t false fuel rootId s
  have hnext := mergeTxbranch_nextNode S t false fuel rootId s
  rw [hm] at hframe hnext
  have hnext : s'.nextNode = s.nextNode := hnext
  intro m b hb f hf x hx _
  have hlt : m < s.nextNode := hnext ▸ (hgood.branch m none b hb).lt
  rw [hframe.type m hlt] at hf
  by_cases hu : Under s rootId m
  · exact (hmerged.under m hlt hu b hb f hf x hx).2
  · -- root の下に無い node は、merge の前のままである
    rw [hmerged.outside m hlt hu] at hb
    have hat := ((h.good.branch m none b hb).childAt hf hx).1
    have hne : Rev.node x ≠ rootId := fun he => Nat.not_lt_zero _ (he ▸ hat.younger)
    refine (h.coherent m b hb f hf x hx id).congr (latest?_congr ?_)
    rw [hmerged.outside _ hat.lt fun hc => hu (hc.parent hat hne)]

/-- commit は断られるか、古びた版を引き取らない。 -/
def CommitsFresh (S : Schema) (s : State) (t : TxId) : Prop :=
  (mergeTxbranch S t true (mergeFuel s) rootId s).1.isOk = false ∨ Fresh S t s

/-- 操作の条件。key も型も守り、commit は古びた版を引き取らない。 -/
structure Step.Orderly (S : Schema) (s : State) (st : Step) : Prop where
  allowed : st.Allowed S .all s
  commits : ∀ t, st = .commit t → CommitsFresh S s t

/-- 実行の間保たれる条件。 -/
structure Aligned (S : Schema) (s : State) : Prop where
  sound : Sound S .all (fun _ _ => True) s
  tidy : Tidy S s
  lone : ∀ t ∈ s.txns, Lone S t s
  stems : ∀ t ∈ s.txns, Branchwise t (StemsRev S) s
  txCoherent : ∀ t ∈ s.txns, TxCoherent S t s
  coherent : Coherent S s

theorem Aligned.mergeable (h : Aligned S s) (ht : t ∈ s.txns) (hf : Fresh S t s) :
    Mergeable S .all (fun _ _ => True) t s where
  keys := trivial
  typed := trivial
  good := h.sound.good
  clean := (h.tidy.tended t ht).clean
  lone := h.lone t ht
  stems := h.stems t ht
  txCoherent := h.txCoherent t ht
  coherent := h.coherent
  fresh := hf

theorem Aligned.foldTxbranch_coherent (h : Aligned S s) (ht : t ∈ s.txns)
    (hf : CommitsFresh S s t) : Coherent S (foldTxbranch S t s).2 := by
  rw [foldTxbranch_eq]
  split
  · exact (dropTransaction_still t s).coherent h.coherent
  · exact h.coherent
  · next o ho =>
    rcases hf with hf | hf
    · rw [ho] at hf; cases hf
    · obtain ⟨o', s₂, hm⟩ := merge_isOk (κ := .all) trivial h.sound (h.tidy.tended t ht).clean
        (h.lone t ht) (by rw [ho]; rfl)
      have hc := (h.mergeable ht hf).coherent_merge closed_true h.sound.root hm
      rw [hm]
      exact Still.coherent (s := s₂) (Still.of_node rfl) hc

/-! ## 実行 -/

theorem Aligned.perform_coherent (h : Aligned S s) {st : Step} (hst : st.Orderly S s) :
    Coherent S (perform S st s).2 := by
  have guarded : ∀ {k : Option TxId} {op : Op Rev},
      Effect S k (Keeping S .all) [] rootId s (op s).1 (op s).2 →
      Coherent S (inTransaction k (rootOp k op) s).2 :=
    fun {_ _} => h.sound.guarded_coherent closed_true trivial trivial h.coherent
  cases st with
  | update k path data strict =>
    rw [perform, discard_state]
    exact guarded (update_keeping hst.allowed.keys)
  | add k path data =>
    rw [perform, discard_state]
    exact guarded (add_keeping hst.allowed.typed)
  | remove k path =>
    rw [perform, discard_state]
    exact guarded (remove_keeping path)
  | openTx =>
    rw [perform, discard_state]
    exact (openTransaction_still s).coherent h.coherent
  | commit t =>
    rw [perform]
    by_cases ht : t ∈ s.txns
    · rw [commit_eq ht]
      exact Still.coherent (Still.of_node rfl)
        (h.foldTxbranch_coherent ht (hst.commits t rfl))
    · rw [commit_closed ht]; exact h.coherent
  | cancel t => exact (cancel_still t s).coherent h.coherent
  | getProxy path exclusive =>
    rw [perform, discard_state]
    exact getProxy_state (P := Coherent S) h.coherent path exclusive
      (fun m => (mkProxy_still m path exclusive s).coherent h.coherent) path rootId
  | registerCallback n type f => exact (registerCallback_still n type f s).coherent h.coherent
  | tag tag hash => exact (Housekeeping.tag tag hash).still.coherent h.coherent
  | deleteTag tag => exact (Housekeeping.deleteTag tag).still.coherent h.coherent
  | prune => exact Housekeeping.prune.still.coherent h.coherent

theorem Aligned.step (h : Aligned S s) {st : Step} (hst : st.Orderly S s) :
    Aligned S (step S s st) where
  sound := step_sound closed_true h.sound st hst.allowed
  tidy := h.tidy.step st
  lone := step_branchwise (fun t => loneRev_follows S t) h.tidy h.lone st
  stems := step_branchwise (fun t => stemsRev_follows S t) h.tidy h.stems st
  txCoherent := step_txCoherent closed_true trivial trivial h.sound h.tidy h.txCoherent hst.allowed
  coherent := (h.perform_coherent hst).of_node rfl

/-- 初期化した木は揃っている。 -/
theorem start_aligned {kv : Option Store} {data : Msg} (hdata : Shaped S.fields data)
    (hinit : (initRoot S kv data).1.isOk = true) : Aligned S (start S kv data) := by
  have hnone : ∀ t, t ∉ (start S kv data).txns := by
    intro t ht
    have htx : (initRoot S kv data).2.txns = [] :=
      (mknode_keeps S (complete S data) none (emptyState kv)).txns
    have ht : t ∈ (initRoot S kv data).2.txns := ht
    rw [htx] at ht
    cases ht
  refine ⟨start_sound closed_true (fun _ => hdata) hinit, start_tidy hinit,
    fun t ht => absurd ht (hnone t), fun t ht => absurd ht (hnone t),
    fun t ht => absurd ht (hnone t), ?_⟩
  have hc := mknode_coherent (κ := .all) closed_true (complete S data) none (emptyState kv)
    (emptyState_good kv) (fun _ => hdata.complete) (by rintro sl key ⟨⟩) (emptyState_coherent kv)
  exact (wp_snd hc).of_node rfl

/-- どの実行でも揃ったままである。 -/
theorem run_aligned {kv : Option Store} {data : Msg} (hdata : Shaped S.fields data)
    (hinit : (initRoot S kv data).1.isOk = true) {l : List Step}
    (hl : EveryStep S (fun s st => st.Orderly S s) (start S kv data) l) :
    Aligned S (run S (start S kv data) l) :=
  EveryStep.invariant (Aligned S) (fun _ _ hst h => h.step hst) hl (start_aligned hdata hinit)

end Voltha.Config
