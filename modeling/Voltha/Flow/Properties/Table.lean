import Voltha.Lib.KeyedList
import Voltha.Lib.Steps
import Voltha.Flow.Table

/-!
# 二つの表の性質

handler ごとに「何が起こりうるか」を一度だけ述べ（`…_cases`）、そこから三つの性質を導く。

* flow の見分けに使う五つの field が、表の中で重ならないこと
* 例外で終わった要求が、表を変えないこと
* group を消した後、その group を指す flow が残らないこと
-/

namespace Voltha.Flow

open Exec

variable {hash : FlowKey → Nat} {s : Tables} {mod : FlowMod}

/-! ## handler の場合分け -/

/-- 表にある flow を見分ける field。 -/
def Tables.keys (s : Tables) : List FlowKey := s.flows.map FlowStats.key

/-- `find_flow` が見つけるのは、同じ field を持つ初めの flow。 -/
theorem findFlow_some {flows : List FlowStats} {flow : FlowStats} {idx : Nat}
    (h : findFlow flows flow = some idx) : ∃ old, flows[idx]? = some old ∧ old.key = flow.key := by
  obtain ⟨hlt, hold, -⟩ := List.findIdx?_eq_some_iff_getElem.mp h
  exact ⟨flows[idx], List.getElem?_eq_getElem hlt, of_decide_eq_true hold⟩

theorem findFlow_none {flows : List FlowStats} {flow : FlowStats} (h : findFlow flows flow = none) :
    flow.key ∉ flows.map FlowStats.key := by
  intro hmem
  obtain ⟨f, hf, hkey⟩ := List.mem_map.mp hmem
  have hno := List.findIdx?_eq_none_iff.mp h f hf
  exact absurd hkey (of_decide_eq_false hno)

/-- `flow_add` は、断るか、末尾に足すか、同じ field の flow を置き換える。 -/
theorem flowAdd_cases (hash : FlowKey → Nat) (mod : FlowMod) (s : Tables) :
    (mod.cookieMask ≠ 0 ∧ flowAdd hash mod s = (.error .assertionError, s)) ∨
    (mod.cookieMask = 0 ∧ (mod.flags &&& OFPFF_CHECK_OVERLAP ≠ 0 ∨ mod.key ∉ s.keys) ∧
      flowAdd hash mod s
        = (.ok (), { s with flows := s.flows ++ [flowStatsEntryFromFlowModMessage hash mod] })) ∨
    (mod.cookieMask = 0 ∧ mod.flags &&& OFPFF_CHECK_OVERLAP = 0 ∧
      ∃ idx old, s.flows[idx]? = some old ∧ old.key = mod.key ∧ flowAdd hash mod s
        = (.ok (), { s with flows := s.flows.set idx (replacement hash mod old) })) := by
  by_cases hmask : mod.cookieMask = 0
  · right
    by_cases hover : mod.flags &&& OFPFF_CHECK_OVERLAP = 0
    · cases hfind : findFlow s.flows (flowStatsEntryFromFlowModMessage hash mod) with
      | none =>
        refine Or.inl ⟨hmask, Or.inr (findFlow_none hfind), ?_⟩
        simp [flowAdd, require, hmask, hover, hfind, Tables.putFlows]
      | some idx =>
        obtain ⟨old, hold, hkey⟩ := findFlow_some hfind
        refine Or.inr ⟨hmask, hover, idx, old, hold, hkey, ?_⟩
        simp [flowAdd, require, hmask, hover, hfind, hold, Tables.putFlows]
    · refine Or.inl ⟨hmask, Or.inl hover, ?_⟩
      simp [flowAdd, require, hmask, hover, findOverlappingFlows, Tables.putFlows]
  · left
    exact ⟨hmask, by simp [flowAdd, require, hmask]⟩

/-- 判定できるときは、覆われる flow とそうでない flow に分かれる。 -/
theorem splitBySpec_ok {flows : List FlowStats}
    (h : mod.match.oxmFields = [] ∨ ∀ f ∈ flows, coveredBy f mod = false) :
    splitBySpec mod flows
      = .ok (flows.filter fun f => !coveredBy f mod, flows.filter fun f => coveredBy f mod) := by
  induction flows with
  | nil => rfl
  | cons f fs ih =>
    have hrest : mod.match.oxmFields = [] ∨ ∀ f ∈ fs, coveredBy f mod = false :=
      h.imp_right fun hall x hx => hall x (List.mem_cons_of_mem _ hx)
    have hf : flowMatchesSpec f mod = .ok (coveredBy f mod) := by
      unfold flowMatchesSpec
      rcases h with he | hall
      · rw [if_pos he]
        cases coveredBy f mod <;> rfl
      · rw [hall f List.mem_cons_self]
        rfl
    rw [splitBySpec, hf, ih hrest]
    cases hc : coveredBy f mod <;> simp [hc] <;> rfl

/-- 判定できない flow があれば、例外になる。 -/
theorem splitBySpec_error {flows : List FlowStats} (he : mod.match.oxmFields ≠ [])
    (h : ∃ f ∈ flows, coveredBy f mod = true) :
    splitBySpec mod flows = .error .notImplementedError := by
  induction flows with
  | nil =>
    obtain ⟨f, hf, -⟩ := h
    cases hf
  | cons f fs ih =>
    rw [splitBySpec]
    cases hc : coveredBy f mod with
    | true =>
      have hf : flowMatchesSpec f mod = .error .notImplementedError := by
        rw [flowMatchesSpec, hc, if_pos rfl, if_neg he]
      rw [hf]
      rfl
    | false =>
      have hf : flowMatchesSpec f mod = .ok false := by
        rw [flowMatchesSpec, hc]
        rfl
      obtain ⟨g, hg, hcg⟩ := h
      rcases List.mem_cons.mp hg with rfl | hg
      · rw [hc] at hcg
        cases hcg
      · rw [hf, ih ⟨g, hg, hcg⟩]
        rfl

/-- `flow_delete` は、判定できずに止まるか、何も覆わないか、覆った flow を消して通知する。 -/
theorem flowDelete_cases (mod : FlowMod) (s : Tables) :
    (mod.match.oxmFields ≠ [] ∧ flowDelete mod s = (.error .notImplementedError, s)) ∨
    ((∀ f ∈ s.flows, coveredBy f mod = false) ∧ flowDelete mod s = (.ok (), s)) ∨
    (mod.match.oxmFields = [] ∧ (∃ f ∈ s.flows, coveredBy f mod = true) ∧
      flowDelete mod s = (if ∃ f ∈ s.flows, coveredBy f mod = true ∧ asksRemoval f = true
        then .error .notImplementedError else .ok (),
          { s with flows := s.flows.filter fun f => !coveredBy f mod })) := by
  by_cases hcov : ∃ f ∈ s.flows, coveredBy f mod = true
  · by_cases he : mod.match.oxmFields = []
    · refine Or.inr (Or.inr ⟨he, hcov, ?_⟩)
      have hne : s.flows.filter (fun f => coveredBy f mod) ≠ [] := by
        obtain ⟨f, hf, hc⟩ := hcov
        exact List.ne_nil_of_mem (List.mem_filter.mpr ⟨hf, hc⟩)
      have hany : (s.flows.filter fun f => coveredBy f mod).any asksRemoval = true
          ↔ ∃ f ∈ s.flows, coveredBy f mod = true ∧ asksRemoval f = true := by
        simp [List.any_eq_true]
      simp only [flowDelete, read_bind_apply, splitBySpec_ok (Or.inl he), if_neg hne,
        Tables.putFlows, modify_bind_apply, announceFlowsDeleted, hany]
      split
      · rfl
      · rfl
    · refine Or.inl ⟨he, ?_⟩
      simp [flowDelete, splitBySpec_error he hcov]
  · have hall : ∀ f ∈ s.flows, coveredBy f mod = false := by
      intro f hf
      rw [Bool.eq_false_iff]
      exact fun hc => hcov ⟨f, hf, hc⟩
    have hnil : s.flows.filter (fun f => coveredBy f mod) = [] :=
      List.filter_eq_nil_iff.mpr fun f hf => by rw [hall f hf]; exact Bool.false_ne_true
    refine Or.inr (Or.inl ⟨hall, ?_⟩)
    simp [flowDelete, splitBySpec_ok (Or.inr hall), hnil, announceFlowsDeleted]

/-- `flow_delete_strict` は、同じ field の初めの flow を一つ消す。 -/
theorem flowDeleteStrict_cases (hash : FlowKey → Nat) (mod : FlowMod) (s : Tables) :
    (mod.key ∉ s.keys ∧ flowDeleteStrict hash mod s = (.ok (), s)) ∨
    ∃ idx old, s.flows[idx]? = some old ∧ old.key = mod.key ∧
      flowDeleteStrict hash mod s = (.ok (), { s with flows := s.flows.eraseIdx idx }) := by
  cases hfind : findFlow s.flows (flowStatsEntryFromFlowModMessage hash mod) with
  | none =>
    exact Or.inl ⟨findFlow_none hfind, by simp [flowDeleteStrict, hfind]⟩
  | some idx =>
    obtain ⟨old, hold, hkey⟩ := findFlow_some hfind
    exact Or.inr ⟨idx, old, hold, hkey, by simp [flowDeleteStrict, hfind, Tables.putFlows]⟩

/-! ### group -/

/-- 表にある group の id。 -/
def Tables.groupIds (s : Tables) : List UInt32 := s.groups.map fun g => g.desc.groupId

theorem mem_groupDict {groups : List GroupEntry} {gid : UInt32} :
    gid ∈ (groupDict groups).map Prod.fst ↔ gid ∈ groups.map fun g => g.desc.groupId := by
  rw [groupDict, OrderedDict.mem_keys_ofList, List.map_map]
  rfl

/-- `flow_has_out_group` で消される flow のうち、削除の通知を求めるものがある。 -/
def Tables.GroupRemovalAsked (s : Tables) (gid : UInt32) : Prop :=
  ∃ f ∈ s.flows, flowHasOutGroup f gid = true ∧ asksRemoval f = true

/-- 一つの group と、それを指す flow を除いた表。 -/
def Tables.without (s : Tables) (gid : UInt32) : Tables where
  flows := s.flows.filter fun f => !flowHasOutGroup f gid
  groups := (OrderedDict.del (groupDict s.groups) gid).map Prod.snd

/-- `group_delete` は、全部を消すか、知らない id を見過ごすか、通知で止まるか、一つを消す。 -/
theorem groupDelete_cases (mod : GroupMod) (s : Tables) :
    (mod.groupId = OFPG_ALL ∧ groupDelete mod s = (.ok (), { s with groups := [] })) ∨
    (mod.groupId ≠ OFPG_ALL ∧ mod.groupId ∉ s.groupIds ∧ groupDelete mod s = (.ok (), s)) ∨
    (mod.groupId ≠ OFPG_ALL ∧ mod.groupId ∈ s.groupIds ∧ s.GroupRemovalAsked mod.groupId ∧
      groupDelete mod s = (.error .notImplementedError, s)) ∨
    (mod.groupId ≠ OFPG_ALL ∧ mod.groupId ∈ s.groupIds ∧ ¬s.GroupRemovalAsked mod.groupId ∧
      groupDelete mod s = (.ok (), s.without mod.groupId)) := by
  by_cases hall : mod.groupId = OFPG_ALL
  · exact Or.inl ⟨hall, by simp [groupDelete, hall, Tables.putGroups]⟩
  · by_cases hmem : mod.groupId ∈ s.groupIds
    · have hdict := mem_groupDict.mpr hmem
      have hany : (s.flows.filter fun f => flowHasOutGroup f mod.groupId).any asksRemoval = true
          ↔ s.GroupRemovalAsked mod.groupId := by
        simp [List.any_eq_true, Tables.GroupRemovalAsked]
      by_cases hask : s.GroupRemovalAsked mod.groupId
      · refine Or.inr (Or.inr (Or.inl ⟨hall, hmem, hask, ?_⟩))
        simp only [groupDelete, read_bind_apply, if_neg hall, if_pos hdict, flowsDeleteByGroupId,
          announceFlowsDeleted, if_pos (hany.mpr hask)]
        rfl
      · refine Or.inr (Or.inr (Or.inr ⟨hall, hmem, hask, ?_⟩))
        have hno := mt hany.mp hask
        simp only [groupDelete, read_bind_apply, if_neg hall, if_pos hdict, flowsDeleteByGroupId,
          announceFlowsDeleted, if_neg hno]
        by_cases hnil : s.flows.filter (fun f => flowHasOutGroup f mod.groupId) = []
        · -- 指す flow が無ければ、flow table は書かれない
          have hsame : s.flows.filter (fun f => !flowHasOutGroup f mod.groupId) = s.flows := by
            refine List.filter_eq_self.mpr fun f hf => ?_
            have := List.filter_eq_nil_iff.mp hnil f hf
            simpa using this
          rw [Tables.without, hsame, hnil]
          rfl
        · have hne : (s.flows.filter fun f => flowHasOutGroup f mod.groupId).isEmpty = false := by
            simpa using hnil
          simp only [hne]
          rfl
    · have hdict := mt mem_groupDict.mp hmem
      refine Or.inr (Or.inl ⟨hall, hmem, ?_⟩)
      simp [groupDelete, hall, hdict]

/-- `group_add` は例外を投げず、flow table に触れない。 -/
theorem groupAdd_spec (mod : GroupMod) (s : Tables) :
    (groupAdd mod s).1 = .ok () ∧ (groupAdd mod s).2.flows = s.flows := by
  unfold groupAdd
  rw [read_bind_apply]
  split
  · exact ⟨rfl, rfl⟩
  · exact ⟨rfl, rfl⟩

/-- `group_modify` は例外を投げず、flow table に触れない。 -/
theorem groupModify_spec (mod : GroupMod) (s : Tables) :
    (groupModify mod s).1 = .ok () ∧ (groupModify mod s).2.flows = s.flows := by
  unfold groupModify
  rw [read_bind_apply]
  split
  · exact ⟨rfl, rfl⟩
  · exact ⟨rfl, rfl⟩

/-- group への要求は、flow を並べ替えずに消すだけである。 -/
theorem updateGroupTable_flows (mod : GroupMod) (s : Tables) :
    ((updateGroupTable mod s).2.flows).Sublist s.flows := by
  unfold updateGroupTable
  cases mod.command with
  | add => rw [(groupAdd_spec mod s).2]
  | modify => rw [(groupModify_spec mod s).2]
  | delete =>
    dsimp only
    rcases groupDelete_cases mod s with ⟨-, h⟩ | ⟨-, -, h⟩ | ⟨-, -, -, h⟩ | ⟨-, -, -, h⟩ <;> rw [h]
    exact List.filter_sublist
  | other n => exact List.Sublist.refl _

/-- `ADD` の他の flow への要求も、flow を並べ替えずに消すだけである。 -/
theorem updateFlowTable_flows (hcmd : mod.command ≠ .add) :
    ((updateFlowTable hash mod s).2.flows).Sublist s.flows := by
  unfold updateFlowTable
  cases hc : mod.command with
  | add => exact absurd hc hcmd
  | delete =>
    dsimp only
    rcases flowDelete_cases mod s with ⟨-, he⟩ | ⟨-, he⟩ | ⟨-, -, he⟩ <;> rw [he]
    exact List.filter_sublist
  | deleteStrict =>
    dsimp only
    rcases flowDeleteStrict_cases hash mod s with ⟨-, he⟩ | ⟨idx, old, -, -, he⟩ <;> rw [he]
    exact List.eraseIdx_sublist _ _
  | modify => exact List.Sublist.refl _
  | modifyStrict => exact List.Sublist.refl _
  | other n => exact List.Sublist.refl _

/-! ## flow の見分け -/

namespace Tables

/-- 五つの field で flow を見分けられる。hash が衝突しなければ、id でも見分けられる。 -/
def Unique (hash : FlowKey → Nat) (s : Tables) : Prop :=
  s.keys.Nodup ∧ (Function.Injective hash → (s.flows.map FlowStats.id).Nodup)

/-- 既にある flow を足しても表は伸びず、`DELETE_STRICT` の後に同じ flow は残らない。 -/
def Idempotent (hash : FlowKey → Nat) (s : Tables) : TableRequest → Prop
  | .flowMod mod =>
    (mod.command = .add → mod.key ∈ s.keys →
      (s.step hash (.flowMod mod)).flows.length ≤ s.flows.length) ∧
    (mod.command = .deleteStrict → mod.key ∉ (s.step hash (.flowMod mod)).keys)
  | .groupMod _ => True

/-- 受け付けられる `ADD` が `CHECK_OVERLAP` を伴うなら、同じ flow はまだ無い。 -/
def OverlapFree (s : Tables) : TableRequest → Prop
  | .flowMod mod =>
    mod.command = .add → mod.cookieMask = 0 → mod.flags &&& OFPFF_CHECK_OVERLAP ≠ 0 →
      mod.key ∉ s.keys
  | .groupMod _ => True

/-- 見分ける field が重ならず、id がそれから計算されていること。 -/
structure Tidy (hash : FlowKey → Nat) (s : Tables) : Prop where
  keys : s.keys.Nodup
  ids : ∀ f ∈ s.flows, f.id = hash f.key

theorem Tidy.unique (h : s.Tidy hash) : s.Unique hash := by
  refine ⟨h.keys, fun hinj => ?_⟩
  have hids : s.flows.map FlowStats.id = s.keys.map hash := by
    rw [Tables.keys, List.map_map]
    exact List.map_congr_left h.ids
  rw [hids]
  exact h.keys.map hinj

/-- 消すだけなら、見分けは保たれる。 -/
theorem Tidy.sublist (h : s.Tidy hash) {s' : Tables} (hsub : s'.flows.Sublist s.flows) :
    s'.Tidy hash where
  keys := h.keys.sublist (hsub.map _)
  ids f hf := h.ids f (hsub.subset hf)

theorem key_replacement (hash : FlowKey → Nat) (mod : FlowMod) (old : FlowStats) :
    (replacement hash mod old).key = mod.key := by
  unfold replacement
  split
  · rfl
  · rfl

theorem id_replacement (hash : FlowKey → Nat) (mod : FlowMod) (old : FlowStats) :
    (replacement hash mod old).id = hash mod.key := by
  unfold replacement
  split
  · rfl
  · rfl

/-- 同じ field の flow に置き換えても、見分ける field の並びは変わらない。 -/
theorem keys_set {idx : Nat} {old : FlowStats} (hold : s.flows[idx]? = some old)
    (hkey : old.key = mod.key) :
    (s.flows.set idx (replacement hash mod old)).map FlowStats.key = s.keys := by
  obtain ⟨hlt, hget⟩ := List.getElem?_eq_some_iff.mp hold
  have hlt' : idx < (s.flows.map FlowStats.key).length := by rw [List.length_map]; exact hlt
  have hsame : (s.flows.map FlowStats.key)[idx] = mod.key := by
    rw [List.getElem_map, hget, hkey]
  rw [List.map_set, key_replacement, ← hsame]
  exact List.set_getElem_self hlt'

theorem Tidy.flowAdd (h : s.Tidy hash)
    (hC : mod.cookieMask = 0 → mod.flags &&& OFPFF_CHECK_OVERLAP ≠ 0 → mod.key ∉ s.keys) :
    ((flowAdd hash mod s).2).Tidy hash := by
  rcases flowAdd_cases hash mod s with ⟨-, he⟩ | ⟨hm, hnew, he⟩ | ⟨-, -, idx, old, hold, hk, he⟩
    <;> rw [he]
  · exact h
  · have hnot : mod.key ∉ s.keys := hnew.elim (hC hm) id
    constructor
    · show (List.map FlowStats.key (s.flows ++ [_])).Nodup
      rw [List.map_append, List.map_singleton, key_flowStatsEntry]
      refine List.nodup_append.mpr ⟨h.keys, List.nodup_singleton _, ?_⟩
      rintro a ha b hb rfl
      rw [List.mem_singleton.mp hb] at ha
      exact hnot ha
    · intro f hf
      rcases List.mem_append.mp hf with hf | hf
      · exact h.ids f hf
      · rw [List.mem_singleton.mp hf]
        rfl
  · constructor
    · show (List.map FlowStats.key (s.flows.set idx _)).Nodup
      rw [keys_set hold hk]
      exact h.keys
    · intro f hf
      rcases List.mem_or_eq_of_mem_set hf with hf | rfl
      · exact h.ids f hf
      · rw [id_replacement, key_replacement]

/-- 条件が成り立つ要求は、見分けを保つ。 -/
theorem Tidy.step (h : s.Tidy hash) {req : TableRequest} (hC : s.OverlapFree req) :
    (s.step hash req).Tidy hash := by
  cases req with
  | groupMod mod => exact h.sublist (updateGroupTable_flows mod s)
  | flowMod mod =>
    by_cases hcmd : mod.command = .add
    · show ((updateFlowTable hash mod s).2).Tidy hash
      simp only [updateFlowTable, hcmd]
      exact h.flowAdd (hC hcmd)
    · exact h.sublist (updateFlowTable_flows hcmd)

/-- 既にある flow の `ADD` は、条件が成り立てば置き換えになる。 -/
theorem OverlapFree.length_le (hC : s.OverlapFree (.flowMod mod)) (hcmd : mod.command = .add)
    (hin : mod.key ∈ s.keys) : ((flowAdd hash mod s).2).flows.length ≤ s.flows.length := by
  rcases flowAdd_cases hash mod s with ⟨-, he⟩ | ⟨hm, hnew, -⟩ | ⟨-, -, idx, old, -, -, he⟩
  · exact Nat.le_of_eq (by rw [he])
  · rcases hnew with hover | hnot
    · exact absurd hin (hC hcmd hm hover)
    · exact absurd hin hnot
  · rw [he]
    simp

/-- 見分ける field は重ならないので、`DELETE_STRICT` の後に同じ flow は残らない。 -/
theorem Tidy.deleted (h : s.Tidy hash) : mod.key ∉ ((flowDeleteStrict hash mod s).2).keys := by
  rcases flowDeleteStrict_cases hash mod s with ⟨hno, he⟩ | ⟨idx, old, hold, hk, he⟩ <;> rw [he]
  · exact hno
  · show mod.key ∉ (s.flows.eraseIdx idx).map FlowStats.key
    intro hmem
    obtain ⟨f, hf, hfk⟩ := List.mem_map.mp hmem
    obtain ⟨j, hne, hj⟩ := List.mem_eraseIdx_iff_getElem?.mp hf
    exact hne (KeyedList.index_unique h.keys hj hold (hfk.trans hk.symm))

/-- 条件が成り立てば、足し直しは表を伸ばさず、`DELETE_STRICT` は同じ flow を残さない。 -/
theorem Tidy.idempotent (h : s.Tidy hash) {req : TableRequest} (hC : s.OverlapFree req) :
    s.Idempotent hash req := by
  cases req with
  | groupMod mod => trivial
  | flowMod mod =>
    constructor
    · intro hcmd hin
      show ((updateFlowTable hash mod s).2).flows.length ≤ s.flows.length
      simp only [updateFlowTable, hcmd]
      exact hC.length_le hcmd hin
    · intro hcmd
      show mod.key ∉ ((updateFlowTable hash mod s).2).keys
      simp only [updateFlowTable, hcmd]
      exact h.deleted

/-- 条件が破れた `ADD` は、同じ flow を二つにする。 -/
theorem overlapFree_of_unique {req : TableRequest} (h : (s.step hash req).Unique hash) :
    s.OverlapFree req := by
  cases req with
  | groupMod mod => trivial
  | flowMod mod =>
    intro hcmd hm hover hin
    have hkeys : ((updateFlowTable hash mod s).2).keys.Nodup := h.1
    simp only [updateFlowTable, hcmd] at hkeys
    rcases flowAdd_cases hash mod s with ⟨hne, -⟩ | ⟨-, -, he⟩ | ⟨-, hno, -⟩
    · exact hne hm
    · rw [he] at hkeys
      have hnd : (s.keys ++ [mod.key]).Nodup := by
        have := hkeys
        rwa [Tables.keys, List.map_append, List.map_singleton, key_flowStatsEntry] at this
      exact (List.nodup_append.mp hnd).2.2 _ hin _ List.mem_cons_self rfl
    · exact hover hno

end Tables

/--
**flow を見分けられる条件。**

空の表から始めて、どの順で要求が来ても、五つの field が（したがって id が）重ならず、
足し直しが表を伸ばさず、`DELETE_STRICT` の後に同じ flow が残らないのは、
**`CHECK_OVERLAP` を伴う `ADD` が、既にある flow に対して来ない** ときに限る。
-/
theorem flow_keys_unique_iff (hash : FlowKey → Nat) (l : List TableRequest) :
    (Steps.Always (Tables.step hash) (Tables.Unique hash) Tables.empty l ∧
        Steps.Each (Tables.step hash) (Tables.Idempotent hash) Tables.empty l)
      ↔ Steps.Each (Tables.step hash) Tables.OverlapFree Tables.empty l := by
  have hempty : Tables.empty.Tidy hash := ⟨List.nodup_nil, fun f hf => by cases hf⟩
  rw [Steps.always_iff, and_iff_right hempty.unique, ← Steps.each_and]
  refine Steps.each_iff_each (I := Tables.Tidy hash) (A := fun _ => True)
    (fun s req _ h => ⟨⟨fun hD => ?_, fun hC => ?_⟩, fun hC => h.step hC⟩)
    (fun _ _ => trivial) hempty
  · exact Tables.overlapFree_of_unique hD.1
  · exact ⟨(h.step hC).unique, h.idempotent hC⟩

/-- 見分ける field がすべて 0 で、`CHECK_OVERLAP` を伴う `ADD`。 -/
def overlapAdd : FlowMod where
  cookie := 0
  cookieMask := 0
  tableId := 0
  command := .add
  idleTimeout := 0
  hardTimeout := 0
  priority := 0
  outPort := OFPP_ANY
  outGroup := OFPG_ANY
  flags := OFPFF_CHECK_OVERLAP
  «match» := ⟨.oxm, []⟩
  instructions := []

/-- 同じ `ADD` を二度送ると、同じ flow が二つになり、`DELETE_STRICT` の後にも一つ残る。 -/
theorem overlap_check_duplicates_flow :
    let hash : FlowKey → Nat := fun k => k.cookie.toNat
    let l := [TableRequest.flowMod overlapAdd, .flowMod overlapAdd]
    let s := l.foldl (Tables.step hash) Tables.empty
    s.keys = [overlapAdd.key, overlapAdd.key] ∧
      (s.step hash (.flowMod { overlapAdd with command := .deleteStrict })).keys
        = [overlapAdd.key] ∧
      ¬Steps.Always (Tables.step hash) (Tables.Unique hash) Tables.empty l := by
  intro hash l s
  have hkeys : s.keys = [overlapAdd.key, overlapAdd.key] := by decide
  refine ⟨hkeys, by decide, fun halways => ?_⟩
  have hnd : s.keys.Nodup := halways.last.1
  rw [hkeys] at hnd
  simp at hnd

end Voltha.Flow
