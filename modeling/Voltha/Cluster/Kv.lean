import Mathlib.Data.List.Infix
import Mathlib.Data.Finset.Image
import Mathlib.Data.Finset.Dedup

/-!
# kv store と key の形

`voltha/leader.py` と `voltha/worker.py` が consul に置く key。
assignment の key は `<assignment_prefix><member_id>/<work_id>` の形をしていて、
二つの正規表現で読み取る。

* `ID_EXTRACTOR = '^(%s)([^/]+)$'`
* `ASSIGNMENT_EXTRACTOR = '^%s(?P<member_id>[^/]+)/(?P<work_id>[^/]+)$'`

prefix は正規表現の特別な文字を含まない（既定は `service/voltha/assignments/`）ものとして、
文字どおりに扱う。`[^/]+` は次の `/` か末尾まで読むので、読み方は一通りである。
-/

namespace Voltha.Cluster

/-- key や id の文字列。 -/
abbrev Text := List Char

/-- consul の一つの項目。 -/
structure Entry where
  key : Text
  value : Text
deriving DecidableEq, Repr

/-- kv store。同じ key の項目は一つしか無い。 -/
abbrev Kv := List Entry

/-- `kv.get(pre, recurse=True)`。`pre` で始まる key の項目すべて。 -/
def kvGet (kv : Kv) (pre : Text) : Kv := kv.filter fun e => pre.isPrefixOf e.key

/-- `kv.delete(key)`。 -/
def kvDelete (kv : Kv) (key : Text) : Kv := kv.filter fun e => e.key ≠ key

/-- `kv.put(key, value)`。 -/
def kvPut (kv : Kv) (key value : Text) : Kv := kvDelete kv key ++ [⟨key, value⟩]

/-! ## 正規表現 -/

/-- `[^/]+` に一致する文字列。 -/
def Ident (t : Text) : Prop := t ≠ [] ∧ '/' ∉ t

instance (t : Text) : Decidable (Ident t) := inferInstanceAs (Decidable (_ ∧ _))

/-- `^(%s)([^/]+)$` の二つ目の group。 -/
def idMatch (pre key : Text) : Option Text :=
  if pre.isPrefixOf key ∧ Ident (key.drop pre.length) then some (key.drop pre.length) else none

/-- `ASSIGNMENT_EXTRACTOR` の `member_id` と `work_id`。 -/
def assignmentMatch (pre key : Text) : Option (Text × Text) :=
  if pre.isPrefixOf key then
    let rest := key.drop pre.length
    let member := rest.takeWhile (· ≠ '/')
    let work := (rest.dropWhile (· ≠ '/')).drop 1
    if '/' ∈ rest ∧ Ident member ∧ Ident work then some (member, work) else none
  else none

/-- assignment の key。 -/
def assignmentKey (pre : Text) (p : Text × Text) : Text := pre ++ p.1 ++ '/' :: p.2

theorem takeWhile_ident {m w : Text} (hm : '/' ∉ m) :
    (m ++ '/' :: w).takeWhile (· ≠ '/') = m := by
  rw [List.takeWhile_append_of_pos]
  · simp
  · intro c hc
    have : c ≠ '/' := fun he => hm (he ▸ hc)
    simpa using this

theorem dropWhile_ident {m w : Text} (hm : '/' ∉ m) :
    (m ++ '/' :: w).dropWhile (· ≠ '/') = '/' :: w := by
  rw [List.dropWhile_append_of_pos]
  · simp
  · intro c hc
    have : c ≠ '/' := fun he => hm (he ▸ hc)
    simpa using this

/-- 読み取れるのは、`<member_id>/<work_id>` の形の key だけである。 -/
theorem assignmentMatch_eq_some {pre key : Text} {p : Text × Text} :
    assignmentMatch pre key = some p ↔ key = assignmentKey pre p ∧ Ident p.1 ∧ Ident p.2 := by
  obtain ⟨m, w⟩ := p
  unfold assignmentMatch assignmentKey
  constructor
  · intro h
    split at h
    · next hpre =>
      obtain ⟨rest, rfl⟩ := List.isPrefixOf_iff_prefix.mp hpre
      rw [List.drop_left] at h
      dsimp only at h
      split at h
      · next hc =>
        obtain ⟨hslash, hm, hw⟩ := hc
        obtain ⟨rfl, rfl⟩ := Prod.mk.inj (Option.some.inj h)
        refine ⟨?_, hm, hw⟩
        -- 最初の `/` で二つに分かれる
        obtain ⟨a, b, rfl, ha⟩ := List.eq_append_cons_of_mem hslash
        rw [takeWhile_ident ha, dropWhile_ident ha]
        simp
      · cases h
    · cases h
  · rintro ⟨rfl, hm, hw⟩
    have hpre : pre.isPrefixOf (pre ++ m ++ '/' :: w) := by
      rw [List.append_assoc]
      exact List.isPrefixOf_iff_prefix.mpr (List.prefix_append _ _)
    rw [if_pos hpre, List.append_assoc, List.drop_left]
    dsimp only at hm hw ⊢
    rw [takeWhile_ident hm.2, dropWhile_ident hm.2, if_pos ⟨by simp, hm, hw⟩]
    rfl

/-- store にある assignment。`<member_id>` と `<work_id>` の組の集合。 -/
def assignments (pre : Text) (kv : Kv) : Finset (Text × Text) :=
  (kv.filterMap fun e => assignmentMatch pre e.key).toFinset

theorem mem_assignments {pre : Text} {kv : Kv} {p : Text × Text} :
    p ∈ assignments pre kv ↔
      (∃ e ∈ kv, e.key = assignmentKey pre p) ∧ Ident p.1 ∧ Ident p.2 := by
  unfold assignments
  rw [List.mem_toFinset, List.mem_filterMap]
  constructor
  · rintro ⟨e, he, hm⟩
    obtain ⟨hk, hp⟩ := assignmentMatch_eq_some.mp hm
    exact ⟨⟨e, he, hk⟩, hp⟩
  · rintro ⟨⟨e, he, hk⟩, hp⟩
    exact ⟨e, he, assignmentMatch_eq_some.mpr ⟨hk, hp⟩⟩

end Voltha.Cluster
