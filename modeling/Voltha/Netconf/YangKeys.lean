import Voltha.Netconf.YangTemplate

/-!
# key を探す再帰の深さ

`_get_message_key` は、型の分かる最初の field を見る。それが message なら、その message の key を探す。型の
分かる field が無ければ、入れ子の message の key を順に探す。

* `Asks` — message の key を探すと、どの message の key を探すことになるか
* `Keyless` — 探しても key が無い
* `Within` — `Asks` の鎖が上限より短い

再帰が終わるのは、`Within` のときに限る。
-/

namespace Voltha.Netconf.Yang

open Voltha.Chameleon (FieldType Field EnumType MessageType Method Service FileDescriptor)

variable {level : List YangMessage} {m m' : YangMessage} {d : Nat}

/-! ## 鎖 -/

/-- field の loop が `return` する field。 -/
def keyField (level : List YangMessage) (fields : List YangField) : Option YangField :=
  fields.find? fun f => !f.typeRef || (level.find? fun m => m.name = f.type).isSome

/-- `field` の key として、`m` の key を返す。 -/
def FieldAsks (level : List YangMessage) (fields : List YangField) (m : YangMessage) : Prop :=
  ∃ f, keyField level fields = some f ∧ f.typeRef ∧ (level.find? fun m => m.name = f.type) = some m

inductive Keyless (level : List YangMessage) : YangMessage → Prop where
  | field {m m' : YangMessage} (h : FieldAsks level m.fields m') (hk : Keyless level m') :
    Keyless level m
  | nested {m : YangMessage} (h : keyField level m.fields = none)
    (hk : ∀ n ∈ m.messages, Keyless level n) : Keyless level m

inductive Asks (level : List YangMessage) : YangMessage → YangMessage → Prop where
  | field {m m' : YangMessage} (h : FieldAsks level m.fields m') : Asks level m m'
  | nested {m m' : YangMessage} {before after : List YangMessage}
    (h : keyField level m.fields = none) (hm : m.messages = before ++ m' :: after)
    (hk : ∀ n ∈ before, Keyless level n) : Asks level m m'

/-- `Asks` の鎖が、`m` を入れて `d` より長くならない。 -/
def Within (level : List YangMessage) : Nat → YangMessage → Prop
  | 0, _ => False
  | d + 1, m => ∀ m', Asks level m m' → Within level d m'

/-! ## loop -/

variable {find : YangMessage → Except YangError (Option String)} {fields : List YangField}

/-- `return` しない field は飛ばす。 -/
theorem keyOfFields_skip {f : YangField} (hr : f.typeRef = true)
    (hn : (level.find? fun m => m.name = f.type) = none) :
    keyOfFields find level (f :: fields) = keyOfFields find level fields := by
  simp [keyOfFields, hr, hn]

theorem keyField_cons (level : List YangMessage) (f : YangField) (fields : List YangField) :
    (keyField level (f :: fields) = some f ∧
        (f.typeRef = false ∨ ∃ m, (level.find? fun m => m.name = f.type) = some m)) ∨
      (keyField level (f :: fields) = keyField level fields ∧ f.typeRef = true ∧
        (level.find? fun m => m.name = f.type) = none) := by
  unfold keyField
  cases hr : f.typeRef with
  | false => simp [hr]
  | true =>
    cases hn : level.find? fun m => m.name = f.type with
    | none => simp [hr, hn]
    | some m => simp [hr, hn]

theorem keyOfFields_none (h : keyField level fields = none) :
    keyOfFields find level fields = .ok none := by
  induction fields with
  | nil => rfl
  | cons f rest ih =>
    rcases keyField_cons level f rest with ⟨hf, -⟩ | ⟨hrest, hr, hn⟩
    · simp [h] at hf
    · rw [keyOfFields_skip hr hn]
      exact ih (hrest ▸ h)

theorem keyOfFields_base {f : YangField} (h : keyField level fields = some f)
    (hf : f.typeRef = false) : keyOfFields find level fields = .ok (some (some f.name)) := by
  induction fields with
  | nil => simp [keyField] at h
  | cons g rest ih =>
    rcases keyField_cons level g rest with ⟨hg, -⟩ | ⟨hrest, hr, hn⟩
    · obtain rfl : g = f := Option.some.inj (hg.symm.trans h)
      simp [keyOfFields, hf]
    · rw [keyOfFields_skip hr hn]
      exact ih (hrest ▸ h)

theorem keyOfFields_asks (h : FieldAsks level fields m) :
    keyOfFields find level fields = (find m).map some := by
  obtain ⟨f, hkey, hr, hfind⟩ := h
  induction fields with
  | nil => simp [keyField] at hkey
  | cons g rest ih =>
    rcases keyField_cons level g rest with ⟨hg, -⟩ | ⟨hrest, hgr, hn⟩
    · obtain rfl : g = f := Option.some.inj (hg.symm.trans hkey)
      cases hm : find m with
      | error e => simp [keyOfFields, hr, hfind, hm, bind, Except.bind, Except.map]
      | ok k => simp [keyOfFields, hr, hfind, hm, bind, Except.bind, Except.map, pure, Except.pure]
    · rw [keyOfFields_skip hgr hn]
      exact ih (hrest ▸ hkey)

/-- field の loop は、`return` しないか、field の名前を返すか、message の key を返す。 -/
theorem keyField_cases (level : List YangMessage) (fields : List YangField) :
    keyField level fields = none ∨
      (∃ f, keyField level fields = some f ∧ f.typeRef = false) ∨
      ∃ m, FieldAsks level fields m := by
  cases h : keyField level fields with
  | none => exact .inl rfl
  | some f =>
    refine .inr ?_
    cases hr : f.typeRef with
    | false => exact .inl ⟨f, rfl, hr⟩
    | true =>
      have hknown := List.find?_some h
      simp only [hr, Bool.not_true, Bool.false_or] at hknown
      obtain ⟨m, hm⟩ := Option.isSome_iff_exists.mp hknown
      exact .inr ⟨m, f, h, hr, hm⟩

/-- 入れ子の loop は、key の無い message を飛ばし、最初の key を返す。 -/
theorem keyOfNested_spec (ms : List YangMessage) {K W : YangMessage → Prop}
    (hk : ∀ m k, find m = .ok k → (k = none ↔ K m)) (hw : ∀ m, (∃ k, find m = .ok k) ↔ W m) :
    (∀ k, keyOfNested find ms = .ok k → (k = none ↔ ∀ m ∈ ms, K m)) ∧
      ((∃ k, keyOfNested find ms = .ok k) ↔
        ∀ before m after, ms = before ++ m :: after → (∀ n ∈ before, K n) → W m) := by
  induction ms with
  | nil => simp [keyOfNested]
  | cons m ms ih =>
    cases hm : find m with
    | error e =>
      have hnot : ¬W m := by simp [← hw, hm]
      constructor
      · simp [keyOfNested, hm, bind, Except.bind]
      · refine iff_of_false (by simp [keyOfNested, hm, bind, Except.bind]) ?_
        intro h
        exact hnot (h [] m ms rfl (by simp))
    | ok key =>
      have hok : W m := (hw m).mp ⟨key, hm⟩
      cases key with
      | some key =>
        have hkey : ¬K m := by simp [← hk m _ hm]
        have hrun : keyOfNested find (m :: ms) = .ok (some key) := by
          simp [keyOfNested, hm, bind, Except.bind, pure, Except.pure]
        constructor
        · intro k h
          rw [hrun] at h
          cases h
          simp [hkey]
        · refine iff_of_true ⟨_, hrun⟩ ?_
          intro before n after hms hbefore
          cases before with
          | nil =>
            cases hms
            exact hok
          | cons b before =>
            cases hms
            exact absurd (hbefore m (by simp)) hkey
      | none =>
        have hkey : K m := (hk m _ hm).mp rfl
        have hrun : keyOfNested find (m :: ms) = keyOfNested find ms := by
          simp [keyOfNested, hm, bind, Except.bind]
        rw [hrun]
        constructor
        · intro k h
          simp [ih.1 k h, hkey]
        · rw [ih.2]
          constructor
          · intro h before n after hms hbefore
            cases before with
            | nil =>
              cases hms
              exact hok
            | cons b before =>
              cases hms
              exact h before n after rfl fun x hx => hbefore x (by simp [hx])
          · intro h before n after hms hbefore
            refine h (m :: before) n after (by simp [hms]) ?_
            intro x hx
            rcases List.mem_cons.mp hx with rfl | hx
            · exact hkey
            · exact hbefore x hx

/-! ## 一つの message -/

theorem FieldAsks.unique {n n' : YangMessage} {fields : List YangField}
    (h : FieldAsks level fields n) (h' : FieldAsks level fields n') : n = n' := by
  obtain ⟨f, hf, -, hn⟩ := h
  obtain ⟨f', hf', -, hn'⟩ := h'
  obtain rfl : f = f' := Option.some.inj (hf.symm.trans hf')
  exact Option.some.inj (hn.symm.trans hn')

theorem FieldAsks.keyField_ne {fields : List YangField} (h : FieldAsks level fields m) :
    keyField level fields ≠ none := by
  obtain ⟨f, hf, -⟩ := h
  simp [hf]

/-- key の無い message と、探し終わる message。 -/
theorem getMessageKey_spec (level : List YangMessage) :
    ∀ d m, (∀ k, getMessageKey level d m = .ok k → (k = none ↔ Keyless level m)) ∧
      ((∃ k, getMessageKey level d m = .ok k) ↔ Within level d m) := by
  intro d
  induction d with
  | zero => simp [getMessageKey, Within]
  | succ d ih =>
    intro m
    rcases keyField_cases level m.fields with hnone | ⟨f, hf, hbase⟩ | ⟨n, hasks⟩
    · have hrun : getMessageKey level (d + 1) m
          = keyOfNested (getMessageKey level d) m.messages := by
        simp [getMessageKey, keyOfFields_none hnone, bind, Except.bind]
      obtain ⟨hkeys, hends⟩ := keyOfNested_spec m.messages (fun n => (ih n).1)
        (fun n => (ih n).2)
      rw [hrun]
      constructor
      · intro k h
        rw [hkeys k h]
        constructor
        · exact .nested hnone
        · rintro (⟨h, -⟩ | ⟨-, h⟩)
          · exact absurd hnone h.keyField_ne
          · exact h
      · rw [hends]
        constructor
        · rintro h n (h' | ⟨-, hms, hbefore⟩)
          · exact absurd hnone h'.keyField_ne
          · exact h _ _ _ hms hbefore
        · intro h before n after hms hbefore
          exact h n (.nested hnone hms hbefore)
    · have hrun : getMessageKey level (d + 1) m = .ok (some f.name) := by
        simp [getMessageKey, keyOfFields_base hf hbase, bind, Except.bind, pure, Except.pure]
      have hnot : ∀ n, ¬FieldAsks level m.fields n := by
        rintro n ⟨g, hg, hr, -⟩
        obtain rfl : g = f := Option.some.inj (hg.symm.trans hf)
        simp [hbase] at hr
      rw [hrun]
      constructor
      · intro k h
        cases h
        refine iff_of_false (by simp) ?_
        rintro (⟨h, -⟩ | ⟨h, -⟩)
        · exact hnot _ h
        · simp [hf] at h
      · refine iff_of_true ⟨_, rfl⟩ ?_
        rintro n (h | ⟨h, -, -⟩)
        · exact absurd h (hnot n)
        · simp [hf] at h
    · have hrun : getMessageKey level (d + 1) m = getMessageKey level d n := by
        cases hn : getMessageKey level d n with
        | error e => simp [getMessageKey, keyOfFields_asks hasks, hn, bind, Except.bind, Except.map]
        | ok k =>
          simp [getMessageKey, keyOfFields_asks hasks, hn, bind, Except.bind, Except.map, pure,
            Except.pure]
      rw [hrun]
      constructor
      · intro k h
        rw [(ih n).1 k h]
        constructor
        · exact .field hasks
        · rintro (⟨h, hkey⟩ | ⟨h, -⟩)
          · exact hasks.unique h ▸ hkey
          · exact absurd h hasks.keyField_ne
      · rw [(ih n).2]
        constructor
        · rintro h n' (h' | ⟨h', -, -⟩)
          · exact hasks.unique h' ▸ h
          · exact absurd h' hasks.keyField_ne
        · intro h
          exact h n (.field hasks)

/-- key の検索は、鎖が上限より短いときに限って終わる。 -/
theorem getMessageKey_ok_iff (level : List YangMessage) (d : Nat) (m : YangMessage) :
    (∃ k, getMessageKey level d m = .ok k) ↔ Within level d m :=
  (getMessageKey_spec level d m).2

/-! ## 入れ子の message -/

mutual

/-- message と、入れ子の message の全部。 -/
def flatten : MessageType → List MessageType
  | .mk name field nestedType enumType mapEntry description =>
    .mk name field nestedType enumType mapEntry description :: flattenAll nestedType

def flattenAll : List MessageType → List MessageType
  | [] => []
  | m :: ms => flatten m ++ flattenAll ms

end

/-- `ms` の message の key が、段ごとに全部探し終わる。 -/
def KeysFound (limit : Nat) (level : List YangMessage) (ms : List MessageType) : Prop :=
  (∀ m ∈ traverseMessages ms, Within level limit m) ∧
    ∀ m ∈ flattenAll ms, ∀ n ∈ traverseMessages m.nestedType,
      Within (traverseMessages m.nestedType) limit n

variable {limit : Nat}

mutual

theorem setMessageKey_ok_iff (limit : Nat) (level : List YangMessage) :
    ∀ m : MessageType, (∃ key, setMessageKey limit level (traverseMessage m) = .ok key) ↔
      Within level limit (traverseMessage m) ∧ ∀ n ∈ flatten m,
        ∀ x ∈ traverseMessages n.nestedType, Within (traverseMessages n.nestedType) limit x
  | .mk name field nested enumType mapEntry description => by
    have hnested := setMessagesKeys_ok_iff limit (traverseMessages nested) nested
    have hkey := getMessageKey_ok_iff level limit
      (traverseMessage (.mk name field nested enumType mapEntry description))
    rw [← hkey]
    simp only [traverseMessage, setMessageKey, flatten, List.forall_mem_cons, Py.bind_eq_ok]
    constructor
    · rintro ⟨key, key', hkey', keys, hkeys, -⟩
      exact ⟨⟨key', hkey'⟩, hnested.mp ⟨keys, hkeys⟩⟩
    · rintro ⟨⟨key, hkey⟩, h⟩
      obtain ⟨keys, hkeys⟩ := hnested.mpr h
      exact ⟨key, key, hkey, keys, hkeys, rfl⟩

/-- 段の message の key は、鎖がどれも上限より短いときに限って付け終わる。 -/
theorem setMessagesKeys_ok_iff (limit : Nat) (level : List YangMessage) :
    ∀ ms : List MessageType,
      (∃ keys, setMessagesKeys limit level (traverseMessages ms) = .ok keys) ↔
        KeysFound limit level ms
  | [] => by simp [traverseMessages, setMessagesKeys, KeysFound, flattenAll]
  | m :: ms => by
    have hm := setMessageKey_ok_iff limit level m
    have hms := setMessagesKeys_ok_iff limit level ms
    simp only [traverseMessages, setMessagesKeys, KeysFound, flattenAll, List.forall_mem_cons,
      List.forall_mem_append, Py.bind_eq_ok] at hms ⊢
    constructor
    · rintro ⟨keys, key, hkey, keys', hkeys, -⟩
      obtain ⟨hm1, hm2⟩ := hm.mp ⟨key, hkey⟩
      obtain ⟨hms1, hms2⟩ := hms.mp ⟨keys', hkeys⟩
      exact ⟨⟨hm1, hms1⟩, hm2, hms2⟩
    · rintro ⟨⟨hm1, hms1⟩, hm2, hms2⟩
      obtain ⟨key, hkey⟩ := hm.mpr ⟨hm1, hm2⟩
      obtain ⟨keys, hkeys⟩ := hms.mpr ⟨hms1, hms2⟩
      exact ⟨key :: keys, key, hkey, keys, hkeys, rfl⟩

end

theorem length_of_setMessagesKeys {level ms : List YangMessage} {keys : List (Option String)}
    (h : setMessagesKeys limit level ms = .ok keys) : keys.length = ms.length := by
  induction ms generalizing keys with
  | nil =>
    cases h
    rfl
  | cons m ms ih =>
    simp only [setMessagesKeys, Py.bind_eq_ok] at h
    obtain ⟨key, -, keys', hkeys, h⟩ := h
    cases h
    simp [ih hkeys]

end Voltha.Netconf.Yang
