import Voltha.Flow.Properties.Table

/-!
# 一つの要求の性質

どの表に、どの要求が来ても成り立つことを、handler の場合分け（`…_cases`）から導く。

* 例外で終わった要求が表を変えるのは、`flow_delete` が書いた後の通知で止まるときだけ
* `group_delete` が指す flow を残すのは、すべての group を消すときだけ
-/

namespace Voltha.Flow

open Exec

variable {hash : FlowKey → Nat} {s : Tables}

/-! ## 例外で終わった要求 -/

/-- 消した flow の通知が、表を書いた後で例外になる要求。 -/
def TableRequest.AnnouncesLate (s : Tables) : TableRequest → Prop
  | .flowMod mod => mod.command = .delete ∧ mod.match.oxmFields = [] ∧
      ∃ f ∈ s.flows, coveredBy f mod = true ∧ asksRemoval f = true
  | .groupMod _ => False

/-- group への要求は、例外で終わるなら表を変えない。 -/
theorem updateGroupTable_rejected {mod : GroupMod}
    (h : (updateGroupTable mod s).1.isOk = false) : (updateGroupTable mod s).2 = s := by
  unfold updateGroupTable at h ⊢
  cases hcmd : mod.command with
  | add =>
    simp only [hcmd, (groupAdd_spec mod s).1] at h
    cases h
  | modify =>
    simp only [hcmd, (groupModify_spec mod s).1] at h
    cases h
  | delete =>
    simp only [hcmd] at h ⊢
    rcases groupDelete_cases mod s with ⟨-, he⟩ | ⟨-, -, he⟩ | ⟨-, -, -, he⟩ | ⟨-, -, -, he⟩ <;>
      rw [he] at h ⊢ <;> cases h
  | other n => rfl

/-- `DELETE` の他の flow への要求は、例外で終わるなら表を変えない。 -/
theorem updateFlowTable_rejected {mod : FlowMod} (hcmd : mod.command ≠ .delete)
    (h : (updateFlowTable hash mod s).1.isOk = false) : (updateFlowTable hash mod s).2 = s := by
  unfold updateFlowTable at h ⊢
  cases hc : mod.command with
  | add =>
    simp only [hc] at h ⊢
    rcases flowAdd_cases hash mod s with ⟨-, he⟩ | ⟨-, -, he⟩ | ⟨-, -, _, _, -, -, he⟩ <;>
      rw [he] at h ⊢ <;> cases h
  | delete => exact absurd hc hcmd
  | deleteStrict =>
    simp only [hc] at h ⊢
    rcases flowDeleteStrict_cases hash mod s with ⟨-, he⟩ | ⟨_, _, -, -, he⟩ <;> rw [he] at h ⊢
    cases h
  | modify => rfl
  | modifyStrict => rfl
  | other n => rfl

/-- `flow_delete` が例外で終わって表を変えるのは、遅れた通知のときに限る。 -/
theorem flowDelete_rejected (mod : FlowMod) (s : Tables) :
    ((flowDelete mod s).1.isOk = false → (flowDelete mod s).2 = s)
      ↔ ¬(mod.match.oxmFields = [] ∧
        ∃ f ∈ s.flows, coveredBy f mod = true ∧ asksRemoval f = true) := by
  rcases flowDelete_cases mod s with ⟨hne, he⟩ | ⟨hno, he⟩ | ⟨hnil, ⟨g, hg, hcg⟩, he⟩
  · rw [he]
    exact ⟨fun _ h => hne h.1, fun _ _ => rfl⟩
  · rw [he]
    refine ⟨?_, fun _ _ => rfl⟩
    rintro - ⟨-, f, hf, hc, -⟩
    rw [hno f hf] at hc
    cases hc
  · rw [he]
    constructor
    · rintro h ⟨-, hask⟩
      rw [if_pos hask] at h
      -- 覆われた flow が消えているので、表は元のままではない
      have hflows : s.flows.filter (fun f => !coveredBy f mod) = s.flows :=
        congrArg Tables.flows (h rfl)
      have := List.filter_eq_self.mp hflows g hg
      rw [hcg] at this
      cases this
    · intro h hbad
      rw [if_neg fun hask => h ⟨hnil, hask⟩] at hbad
      cases hbad

/--
**断られた要求が表を変えない条件。**

どの表でも、どの要求でも、例外で終わった要求が二つの表を変えないのは、
**match の空な `DELETE` が、削除の通知を求める flow を覆う** のでないときに限る。
-/
theorem rejected_unchanged_iff (hash : FlowKey → Nat) (s : Tables) (req : TableRequest) :
    ((req.exec hash s).1.isOk = false → (req.exec hash s).2 = s) ↔ ¬req.AnnouncesLate s := by
  cases req with
  | groupMod mod => exact ⟨fun _ h => h, fun _ h => updateGroupTable_rejected h⟩
  | flowMod mod =>
    show ((updateFlowTable hash mod s).1.isOk = false → (updateFlowTable hash mod s).2 = s) ↔ _
    by_cases hcmd : mod.command = .delete
    · simp only [updateFlowTable, TableRequest.AnnouncesLate, hcmd, true_and]
      exact flowDelete_rejected mod s
    · exact ⟨fun _ h => hcmd h.1, fun _ h => updateFlowTable_rejected hcmd h⟩

/-- 削除の通知を求める flow。 -/
def announcedFlow : FlowStats := flowStatsEntryFromFlowModMessage (fun k => k.cookie.toNat)
  { overlapAdd with flags := OFPFF_SEND_FLOW_REM }

/-- すべてを覆う `DELETE` は、例外で終わるのに表を空にする。 -/
theorem rejected_delete_empties_table :
    let mod := { overlapAdd with command := .delete }
    let r := TableRequest.exec (fun k => k.cookie.toNat) (.flowMod mod) ⟨[announcedFlow], []⟩
    r.1.isOk = false ∧ r.2 = ⟨[], []⟩ ∧ r.2 ≠ ⟨[announcedFlow], []⟩ := by
  decide

/-! ## group の削除 -/

/-- flow が、`APPLY_ACTIONS` の中の `GROUP` action で `gid` を指す。 -/
def FlowStats.PointsTo (f : FlowStats) (gid : UInt32) : Prop :=
  ∃ i ∈ f.instructions, i.type = OFPIT_APPLY_ACTIONS ∧
    ∃ a ∈ i.actions, a.type = .group ∧ a.groupId = gid

theorem flowHasOutGroup_iff {f : FlowStats} {gid : UInt32} :
    flowHasOutGroup f gid = true ↔ f.PointsTo gid := by
  simp [flowHasOutGroup, flowHasAction, FlowStats.PointsTo, List.any_eq_true]

/-- 前にはあって、後には無い group。 -/
def DeletedBetween (s s' : Tables) (gid : UInt32) : Prop := gid ∈ s.groupIds ∧ gid ∉ s'.groupIds

/--
group の削除が、表をきれいに残すこと。

消えた group を指す flow は残らない。他の flow と、名指しされなかった group は、そのまま同じ順に残る。
-/
structure CleanDelete (s s' : Tables) (gid : UInt32) : Prop where
  unpointed : ∀ f ∈ s'.flows, ∀ g, DeletedBetween s s' g → ¬f.PointsTo g
  flows : s'.flows = s.flows.filter fun f =>
    @decide (¬∃ g, DeletedBetween s s' g ∧ f.PointsTo g) (Classical.propDecidable _)
  groups : s'.groups = s.groups.filter fun g => gid ≠ OFPG_ALL ∧ g.desc.groupId ≠ gid

/--
きれいに消せる条件。

すべてを消すなら、表の group を指す flow が無い。一つを消すなら、他の group の id が重ならない。
-/
def DeletesApart (s : Tables) (gid : UInt32) : Prop :=
  if gid = OFPG_ALL then ∀ f ∈ s.flows, ∀ g ∈ s.groupIds, ¬f.PointsTo g
  else gid ∈ s.groupIds → (s.groupIds.filter fun g => g ≠ gid).Nodup

/-- 一つを消した後の group は、残りから作った辞書の値である。 -/
theorem del_groupDict (groups : List GroupEntry) (gid : UInt32) :
    OrderedDict.del (groupDict groups) gid
      = groupDict (groups.filter fun g => g.desc.groupId ≠ gid) := by
  rw [groupDict, OrderedDict.del_ofList, List.filter_map]
  rfl

/-- 辞書の key は、値の group の id である。 -/
theorem groupDict_ids (groups : List GroupEntry) :
    ((groupDict groups).map Prod.snd).map (fun g => g.desc.groupId)
      = (groupDict groups).map Prod.fst := by
  rw [List.map_map]
  refine List.map_congr_left fun p hp => ?_
  obtain ⟨g, -, rfl⟩ := List.mem_map.mp (OrderedDict.mem_ofList p hp)
  rfl

/-- 辞書を経ても列が変わらないのは、id が重ならないときに限る。 -/
theorem groupDict_values_iff (groups : List GroupEntry) :
    (groupDict groups).map Prod.snd = groups ↔ (groups.map fun g => g.desc.groupId).Nodup := by
  constructor
  · intro h
    rw [← h, groupDict_ids]
    exact OrderedDict.nodup_keys_ofList
  · intro h
    have hkeys : ((groups.map fun g => (g.desc.groupId, g)).map Prod.fst).Nodup := by
      rw [List.map_map]
      exact h
    rw [groupDict, OrderedDict.ofList_of_nodup hkeys, List.map_map]
    exact List.map_id groups

theorem filter_groupIds (s : Tables) (gid : UInt32) :
    (s.groups.filter fun g => g.desc.groupId ≠ gid).map (fun g => g.desc.groupId)
      = s.groupIds.filter fun g => g ≠ gid := by
  rw [Tables.groupIds, List.filter_map]
  rfl

theorem mem_without {gid g : UInt32} :
    g ∈ (s.without gid).groupIds ↔ g ∈ s.groupIds ∧ g ≠ gid := by
  rw [Tables.groupIds, Tables.without, del_groupDict, groupDict_ids, mem_groupDict,
    filter_groupIds, List.mem_filter, decide_eq_true_eq]

/-- すべてを消すとき。 -/
theorem cleanDelete_all : CleanDelete s { s with groups := [] } OFPG_ALL
    ↔ DeletesApart s OFPG_ALL := by
  have hdel : ∀ g, DeletedBetween s { s with groups := [] } g ↔ g ∈ s.groupIds :=
    fun g => ⟨fun h => h.1, fun h => ⟨h, List.not_mem_nil⟩⟩
  rw [DeletesApart, if_pos rfl]
  constructor
  · exact fun h f hf g hg => h.unpointed f hf g ((hdel g).mpr hg)
  · intro h
    refine ⟨fun f hf g hg => h f hf g ((hdel g).mp hg), ?_, ?_⟩
    · refine (List.filter_eq_self.mpr fun f hf => ?_).symm
      simp only [decide_eq_true_eq]
      rintro ⟨g, hg, hpoint⟩
      exact h f hf g ((hdel g).mp hg) hpoint
    · simp

/-- 知らない group を消すとき。 -/
theorem cleanDelete_unknown {gid : UInt32} (hne : gid ≠ OFPG_ALL) (hnot : gid ∉ s.groupIds) :
    CleanDelete s s gid := by
  have hdel : ∀ g, ¬DeletedBetween s s g := fun g h => h.2 h.1
  refine ⟨fun f _ g hg => absurd hg (hdel g), ?_, ?_⟩
  · refine (List.filter_eq_self.mpr fun f _ => ?_).symm
    simp only [decide_eq_true_eq]
    rintro ⟨g, hg, -⟩
    exact hdel g hg
  · refine (List.filter_eq_self.mpr fun g hg => decide_eq_true ⟨hne, fun he => hnot ?_⟩).symm
    exact he ▸ List.mem_map_of_mem hg

/-- 一つを消すとき。 -/
theorem cleanDelete_one {gid : UInt32} (hne : gid ≠ OFPG_ALL) (hin : gid ∈ s.groupIds) :
    CleanDelete s (s.without gid) gid ↔ DeletesApart s gid := by
  have hdel : ∀ g, DeletedBetween s (s.without gid) g ↔ g = gid := by
    intro g
    rw [DeletedBetween, mem_without]
    constructor
    · rintro ⟨hg, hout⟩
      by_contra hgne
      exact hout ⟨hg, hgne⟩
    · rintro rfl
      exact ⟨hin, fun h => h.2 rfl⟩
  have hgroups : s.groups.filter (fun g => gid ≠ OFPG_ALL ∧ g.desc.groupId ≠ gid)
      = s.groups.filter fun g => g.desc.groupId ≠ gid := by
    refine List.filter_congr fun g _ => ?_
    simp [hne]
  have hiff : (OrderedDict.del (groupDict s.groups) gid).map Prod.snd
      = s.groups.filter (fun g => gid ≠ OFPG_ALL ∧ g.desc.groupId ≠ gid) ↔ DeletesApart s gid := by
    rw [hgroups, del_groupDict, groupDict_values_iff, filter_groupIds, DeletesApart, if_neg hne]
    exact ⟨fun h _ => h, fun h => h hin⟩
  rw [← hiff]
  constructor
  · exact fun h => h.groups
  · refine fun h => ⟨fun f hf g hg => ?_, ?_, h⟩
    · obtain rfl := (hdel g).mp hg
      have hout := (List.mem_filter.mp hf).2
      intro hpoint
      rw [flowHasOutGroup_iff.mpr hpoint] at hout
      cases hout
    · refine List.filter_congr fun f _ => ?_
      simp only [hdel, exists_eq_left, ← flowHasOutGroup_iff]
      cases flowHasOutGroup f gid <;> simp

/--
**消した group を指す flow が残らない条件。**

正常に終わった group の `DELETE` が、消えた group を指す flow を残さず、他をそのまま残すのは、
**すべてを消すなら表の group を指す flow が無く**、一つを消すなら他の group の id が重ならない
ときに限る。
-/
theorem group_delete_clean_iff (s : Tables) (mod : GroupMod) (hcmd : mod.command = .delete)
    (hok : (updateGroupTable mod s).1.isOk = true) :
    CleanDelete s (updateGroupTable mod s).2 mod.groupId ↔ DeletesApart s mod.groupId := by
  simp only [updateGroupTable, hcmd] at hok ⊢
  rcases groupDelete_cases mod s with
    ⟨hall, he⟩ | ⟨hne, hnot, he⟩ | ⟨-, -, -, he⟩ | ⟨hne, hin, -, he⟩
  · rw [he, hall]
    exact cleanDelete_all
  · rw [he, DeletesApart, if_neg hne]
    exact ⟨fun _ h => absurd h hnot, fun _ => cleanDelete_unknown hne hnot⟩
  · rw [he] at hok
    cases hok
  · rw [he]
    exact cleanDelete_one hne hin

/-- group 1 へ送る flow と、group 1 の表。 -/
def groupedTables : Tables where
  flows := [flowStatsEntryFromFlowModMessage (fun k => k.cookie.toNat) { overlapAdd with
    instructions := [⟨OFPIT_APPLY_ACTIONS, .actions [⟨.group, .group 1⟩]⟩] }]
  groups := [groupEntryFromGroupMod ⟨.add, .all, 1, []⟩]

/-- group 1 を名指しで消すとき。 -/
theorem group_delete_clean_iff_named :
    CleanDelete groupedTables
      (updateGroupTable ⟨.delete, .all, 1, []⟩ groupedTables).2 1 := by
  refine (group_delete_clean_iff groupedTables ⟨.delete, .all, 1, []⟩ rfl (by decide)).mpr ?_
  rw [DeletesApart, if_neg (by decide)]
  exact fun _ => by decide

/-- すべての group を消すと、group 1 を指す flow が残る。 -/
theorem delete_all_leaves_pointing_flow :
    let r := updateGroupTable ⟨.delete, .all, OFPG_ALL, []⟩ groupedTables
    r.1.isOk = true ∧ r.2.groups = [] ∧ r.2.flows = groupedTables.flows ∧
      (∀ f ∈ r.2.flows, f.PointsTo 1) ∧ ¬CleanDelete groupedTables r.2 OFPG_ALL := by
  intro r
  have hpoint : ∀ f ∈ groupedTables.flows, f.PointsTo 1 := by
    intro f hf
    rw [List.mem_singleton.mp hf]
    exact flowHasOutGroup_iff.mp (by decide)
  refine ⟨by decide, by decide, by decide, hpoint, fun h => ?_⟩
  exact h.unpointed _ List.mem_cons_self 1 ⟨by decide, by decide⟩ (hpoint _ List.mem_cons_self)

end Voltha.Flow
