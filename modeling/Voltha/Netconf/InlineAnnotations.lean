import Voltha.Netconf.YangInline

/-!
# 埋め込まれる field

message の annotation が埋め込まれるのは、次がすべて成り立つときに限る。

* 集めるときと引くときの file の名前が同じになる
* 入れ子の message に annotation が無い。あると、`get_field_options` の結果が上書きされる
* annotation が先頭の field だけにある。`traverse_field_options` は先頭しか見ない

そうでない annotation は捨てられる。捨てても同じになるのは、自分自身を埋め込むときだけである。
-/

namespace Voltha.Netconf.Yang

open PyString
open Voltha.Chameleon (FieldType Field EnumType)

/-! ## 埋め込んだ message -/

/-- message の完全な名前。 -/
def messageName (file : AnnotatedFile) (m : AnnotatedMessage) : String :=
  descPrefix file ++ "-" ++ m.name

/-- 繰り返さない message の field の annotation。 -/
def inlineNode (field : AnnotatedField) : Option InlineNode :=
  if field.type = .message ∧ field.repeated = false then field.inline else none

/-- annotation が指す message。 -/
def referred (file : AnnotatedFile) (field : AnnotatedField) : Option AnnotatedMessage :=
  (inlineNode field).bind fun node =>
    file.messageType.find? fun m => messageName file m = node.type

/-- `traverse_desc` の作る message。 -/
def original (file : AnnotatedFile) (m : AnnotatedMessage) : FullMessage :=
  traverseFullMessage (descPrefix file) m

/-- 一つの field の場所に入るもの。 -/
def expandedField (file : AnnotatedFile) (m : AnnotatedMessage) (field : AnnotatedField) :
    List FullField :=
  match referred file field with
  | some t => (original file t).fields
  | none => [traverseFullField (messageName file m) field]

/-- すべての annotation を埋め込んだ message。 -/
def expanded (file : AnnotatedFile) (m : AnnotatedMessage) : FullMessage :=
  let added := m.field.filterMap (referred file)
  .mk (messageName file m) m.name (m.field.flatMap (expandedField file m))
    ((original file m).enums ++ added.flatMap fun t => (original file t).enums)
    ((original file m).messages ++ added.flatMap fun t => (original file t).messages)

/-! ## 受け入れられる file -/

/-- protobuf の識別子。 -/
def IsIdent (s : String) : Prop := ∀ c ∈ s.toList, c.isAlphanum = true ∨ c = '_'

instance (s : String) : Decidable (IsIdent s) := List.decidableBAll _ _

mutual

/-- message と、その中の名前。 -/
def names : AnnotatedMessage → List String
  | .mk name field nestedType _ _ =>
    name :: (field.map (fun f => f.name) ++ allNames nestedType)

def allNames : List AnnotatedMessage → List String
  | [] => []
  | m :: ms => names m ++ allNames ms

end

/-- annotation は、同じ file の一段目の message を指す。 -/
structure WellFormed (file : AnnotatedFile) : Prop where
  idents : ∀ n ∈ allNames file.messageType, IsIdent n
  messages : (file.messageType.map AnnotatedMessage.name).Nodup
  fields : ∀ m ∈ file.messageType, (m.field.map fun f => f.name).Nodup
  refers : ∀ m ∈ file.messageType, ∀ f ∈ m.field, inlineNode f ≠ none → referred file f ≠ none

mutual

/-- option が集められない message。 -/
def Plain : AnnotatedMessage → Prop
  | .mk _ field nestedType _ options =>
    (∀ o ∈ options, o.1 ≠ "voltha.yang_child_rule" ∧ o.1 ≠ "voltha.yang_message_rule") ∧
      field.head?.bind inlineNode = none ∧ AllPlain nestedType

def AllPlain : List AnnotatedMessage → Prop
  | [] => True
  | m :: ms => Plain m ∧ AllPlain ms

end

/-- 先頭の field の annotation が見つかる。 -/
def FirstFound (file : AnnotatedFile) (m : AnnotatedMessage) : Prop :=
  optionsPrefix file = descPrefix file ∧ AllPlain m.nestedType ∧
    m.field.head?.bind inlineNode ≠ none

/-- 自分自身を一度だけ埋め込み、ほかは空の message を埋め込む。 -/
structure InlinesItself (file : AnnotatedFile) (m : AnnotatedMessage) : Prop where
  fields : ∃ before field after, m.field = before ++ field :: after ∧
    referred file field = some m ∧ ∀ f ∈ before ++ after, ∃ t, referred file f = some t ∧
      t.field = [] ∧ t.enumType = [] ∧ t.nestedType = []
  enums : m.enumType = []
  nested : m.nestedType = []

/-- annotation の付いた field が、どれも埋め込まれる。 -/
def InlineHandled (file : AnnotatedFile) (m : AnnotatedMessage) : Prop :=
  (∀ f ∈ m.field, inlineNode f = none) ∨
    (FirstFound file m ∧ ∀ f ∈ m.field.tail, inlineNode f = none) ∨
    (¬FirstFound file m ∧ InlinesItself file m)

variable {file : AnnotatedFile} {m : AnnotatedMessage} {f : AnnotatedField} {p n : String}
  {o : FieldOption}

/-! ## 名前 -/

theorem IsIdent.notMem {s : String} (h : IsIdent s) {c : Char} (hc : c.isAlphanum = false)
    (hne : c ≠ '_') : c ∉ s.toList := by
  intro hmem
  rcases h c hmem with hal | rfl
  · rw [hc] at hal
    cases hal
  · exact hne rfl

theorem IsIdent.dash {s : String} (h : IsIdent s) : '-' ∉ s.toList := h.notMem rfl (by decide)

theorem IsIdent.dot {s : String} (h : IsIdent s) : '.' ∉ s.toList := h.notMem rfl (by decide)

/-- `.proto` の重さは 0 である。 -/
def weight (s : List Char) : Int := s.length - 6 * s.count '.'

theorem weight_append (s t : List Char) : weight (s ++ t) = weight s + weight t := by
  simp only [weight, List.length_append, List.count_append]
  omega

theorem weight_optionsPrefix (file : AnnotatedFile) :
    weight (optionsPrefix file).toList = weight file.name.toList := by
  rw [optionsPrefix, replace, String.toList_ofList]
  exact replaceFrom_additive weight_append (by decide) (by decide) _

theorem weight_descPrefix (file : AnnotatedFile) :
    weight (descPrefix file).toList = weight file.name.toList := by
  unfold descPrefix rchop
  split
  · next h =>
    obtain ⟨d, hd⟩ := h
    have hlength : file.name.length - String.length ".proto" = d.length := by
      rw [← String.length_toList, ← hd, List.length_append]
      exact Nat.add_sub_cancel ..
    have hproto : weight (String.toList ".proto") = 0 := by decide
    rw [hlength, String.toList_ofList, ← hd, List.take_left, weight_append, hproto]
    omega
  · rfl

/-- 二つの名前は、`.` の無い分だけ違うことはない。 -/
theorem prefix_eq {s : List Char} (hs : '.' ∉ s)
    (h : (descPrefix file).toList = (optionsPrefix file).toList ++ s) : s = [] := by
  have hweight := (weight_descPrefix file).trans (weight_optionsPrefix file).symm
  have hzero : weight s = s.length := by simp [weight, List.count_eq_zero_of_not_mem hs]
  rw [h, weight_append, hzero] at hweight
  exact List.length_eq_zero_iff.mp (by omega)

/-- `p` の下の message の field の名前。 -/
def NamedUnder (p n : String) : Prop :=
  ∃ path b f, '.' ∉ path ∧ '-' ∉ b ∧ '-' ∉ f ∧
    n.toList = p.toList ++ path ++ '-' :: b ++ '-' :: f

theorem toList_dash (p x : String) : (p ++ "-" ++ x).toList = p.toList ++ '-' :: x.toList := by
  simp

theorem NamedUnder.nested {x : String} (hx : IsIdent x) (h : NamedUnder (p ++ "-" ++ x) n) :
    NamedUnder p n := by
  obtain ⟨path, b, f, hpath, hb, hf, hn⟩ := h
  have hdot := hx.dot
  refine ⟨'-' :: x.toList ++ path, b, f, by simp [hpath, hdot], hb, hf, ?_⟩
  rw [hn, toList_dash]
  simp

/-! ## 集める -/

/-- 一つの field の annotation の記述。 -/
def optionOf (p : String) (field : AnnotatedField) (node : InlineNode) : FieldOption :=
  ⟨p ++ "-" ++ field.name, "voltha.yang_inline_node", node.id, node.type⟩

theorem fieldOption_eq (field : AnnotatedField) (p : String) :
    fieldOption field p = ((inlineNode field).map (optionOf p field)).toList := by
  unfold fieldOption inlineNode
  split
  · cases field.inline <;> rfl
  · rfl

theorem traverseFieldOptions_eq (fields : List AnnotatedField) (p : String) :
    (traverseFieldOptions fields p).getD []
      = (fields.head?.bind fun f => (inlineNode f).map (optionOf p f)).toList := by
  cases fields with
  | nil => rfl
  | cons f fields => exact fieldOption_eq f p

theorem traverseFieldOptions_nil {fields : List AnnotatedField} :
    (traverseFieldOptions fields p).getD [] = [] ↔ fields.head?.bind inlineNode = none := by
  rw [traverseFieldOptions_eq]
  cases fields with
  | nil => simp
  | cons f fields => simp

theorem traverseMessageOption_mk (p name : String) (field : List AnnotatedField)
    (nestedType : List AnnotatedMessage) (enumType : List EnumType)
    (options : List (String × Nat)) :
    traverseMessageOption p (.mk name field nestedType enumType options)
      = if options.filter (fun o => o.1 ∈ ["voltha.yang_child_rule", "voltha.yang_message_rule"])
            ≠ [] ∨ (traverseMessageOptions (p ++ "-" ++ name) nestedType).isEmpty = false ∨
            (traverseFieldOptions field (p ++ "-" ++ name)).getD [] ≠ [] then
          [.mk (p ++ "-" ++ name)
            (options.filter fun o =>
              o.1 ∈ ["voltha.yang_child_rule", "voltha.yang_message_rule"])
            (traverseFieldOptions field (p ++ "-" ++ name))
            (traverseMessageOptions (p ++ "-" ++ name) nestedType)]
        else [] := by
  rw [traverseMessageOption]

mutual

theorem traverseMessageOption_nil (p : String) :
    ∀ m, traverseMessageOption p m = [] ↔ Plain m
  | .mk name field nestedType enumType options => by
    have hnested := traverseMessageOptions_nil (p ++ "-" ++ name) nestedType
    have hrules : options.filter (fun o => o.1 ∈ ["voltha.yang_child_rule",
        "voltha.yang_message_rule"]) = [] ↔ ∀ o ∈ options,
          o.1 ≠ "voltha.yang_child_rule" ∧ o.1 ≠ "voltha.yang_message_rule" := by
      simp [List.filter_eq_nil_iff]
    unfold Plain
    rw [traverseMessageOption_mk, ← hrules, ← hnested,
      ← traverseFieldOptions_nil (p := p ++ "-" ++ name)]
    split
    · next h =>
      refine iff_of_false (by simp) ?_
      rintro ⟨hrule, hfield, hempty⟩
      rw [hempty] at h
      rcases h with h | h | h
      · exact h hrule
      · cases h
      · exact h hfield
    · next h => simpa [not_or, and_comm, and_assoc, and_left_comm] using h

theorem traverseMessageOptions_nil (p : String) :
    ∀ ms, traverseMessageOptions p ms = [] ↔ AllPlain ms
  | [] => iff_of_true rfl trivial
  | m :: ms => by
    rw [traverseMessageOptions, List.append_eq_nil_iff, traverseMessageOption_nil p m,
      traverseMessageOptions_nil p ms]
    rfl

end

/-! ## 引く -/

theorem getFieldOptions_append (n : String) (a b : List MessageOption) :
    getFieldOptions n (a ++ b) = (getFieldOptions n a).or (getFieldOptions n b) := by
  induction a with
  | nil => rfl
  | cons x a ih =>
    rw [List.cons_append, getFieldOptions, getFieldOptions, ih]
    cases optionResult n x <;> rfl

theorem find?_optionOf (n p : String) (fields : List AnnotatedField) :
    ((traverseFieldOptions fields p).getD []).reverse.find? (fun o => o.name = n)
      = (fields.head?.bind fun f => (inlineNode f).map (optionOf p f)).filter
          fun o => o.name = n := by
  rw [traverseFieldOptions_eq]
  cases fields.head?.bind fun f => (inlineNode f).map (optionOf p f) with
  | none => rfl
  | some o =>
    rw [Option.toList_some, List.reverse_singleton, List.find?_singleton, Option.filter_some]

/-- 一つの message の記述から引く。入れ子の記述があれば、そこだけを見る。 -/
theorem getFieldOptions_message (n p : String) (m : AnnotatedMessage) :
    getFieldOptions n (traverseMessageOption p m)
      = if (traverseMessageOptions (p ++ "-" ++ m.name) m.nestedType).isEmpty then
          (m.field.head?.bind fun f => (inlineNode f).map (optionOf (p ++ "-" ++ m.name) f)).filter
            fun o => o.name = n
        else getFieldOptions n (traverseMessageOptions (p ++ "-" ++ m.name) m.nestedType) := by
  obtain ⟨name, field, nestedType, enumType, options⟩ := m
  show getFieldOptions n (traverseMessageOption p (.mk name field nestedType enumType options))
    = if (traverseMessageOptions (p ++ "-" ++ name) nestedType).isEmpty then
        (field.head?.bind fun f => (inlineNode f).map (optionOf (p ++ "-" ++ name) f)).filter
          fun o => o.name = n
      else getFieldOptions n (traverseMessageOptions (p ++ "-" ++ name) nestedType)
  rw [traverseMessageOption_mk, ← find?_optionOf]
  cases traverseMessageOptions (p ++ "-" ++ name) nestedType with
  | nil =>
    rw [if_pos (c := ([] : List MessageOption).isEmpty = true) rfl]
    split
    · rw [getFieldOptions, optionResult, if_neg (by simp)]
      cases ((traverseFieldOptions field (p ++ "-" ++ name)).getD []).reverse.find?
        (fun o => o.name = n) <;> rfl
    · next h =>
      have hfield : (traverseFieldOptions field (p ++ "-" ++ name)).getD [] = [] :=
        not_not.mp (not_or.mp (not_or.mp h).2).2
      rw [hfield]
      rfl
  | cons x nested =>
    have hnested : (x :: nested).isEmpty = false := rfl
    rw [if_pos (.inr (.inl rfl)), if_neg (by simp), getFieldOptions, optionResult, if_pos hnested]
    cases getFieldOptions n (x :: nested) <;> rfl

/-- 先頭の field の annotation が見つかったとき。 -/
theorem head_filter {fields : List AnnotatedField}
    (h : ((fields.head?.bind fun f => (inlineNode f).map (optionOf p f)).filter
      fun o => o.name = n) = some o) :
    ∃ f node, fields.head? = some f ∧ inlineNode f = some node ∧ optionOf p f node = o ∧
      p ++ "-" ++ f.name = n := by
  obtain ⟨h, hn⟩ := Option.filter_eq_some_iff.mp h
  obtain ⟨f, hf, h⟩ := Option.bind_eq_some_iff.mp h
  obtain ⟨node, hnode, rfl⟩ := Option.map_eq_some_iff.mp h
  exact ⟨f, node, hf, hnode, rfl, of_decide_eq_true hn⟩

theorem getFieldOptions_cons (n p : String) (m : AnnotatedMessage) (ms : List AnnotatedMessage) :
    getFieldOptions n (traverseMessageOptions p (m :: ms))
      = (getFieldOptions n (traverseMessageOption p m)).or
          (getFieldOptions n (traverseMessageOptions p ms)) := by
  rw [traverseMessageOptions, getFieldOptions_append]

theorem mem_names_field {f : AnnotatedField} (hf : f ∈ m.field) : f.name ∈ names m := by
  cases m
  exact List.mem_cons_of_mem _ (List.mem_append_left _ (List.mem_map_of_mem hf))

theorem mem_names_nested (hn : n ∈ allNames m.nestedType) : n ∈ names m := by
  cases m
  exact List.mem_cons_of_mem _ (List.mem_append_right _ hn)

theorem mem_names_name (m : AnnotatedMessage) : m.name ∈ names m := by
  cases m
  exact List.mem_cons_self

/-- 先頭の field の名前は、その message の下にある。 -/
theorem namedUnder_head {f : AnnotatedField} (h : ∀ x ∈ names m, IsIdent x) (hf : f ∈ m.field) :
    NamedUnder p (p ++ "-" ++ m.name ++ "-" ++ f.name) := by
  refine ⟨[], m.name.toList, f.name.toList, by simp, (h _ (mem_names_name m)).dash,
    (h _ (mem_names_field hf)).dash, ?_⟩
  rw [toList_dash, toList_dash, List.append_nil]

mutual

theorem getFieldOptions_under (n p : String) (o : FieldOption) :
    ∀ m, (∀ x ∈ names m, IsIdent x) → getFieldOptions n (traverseMessageOption p m) = some o →
      NamedUnder p n
  | .mk name field nestedType enumType options, hident, h => by
    rw [getFieldOptions_message] at h
    split at h
    · obtain ⟨f, node, hf, -, -, rfl⟩ := head_filter h
      exact namedUnder_head hident (List.mem_of_head? hf)
    · have hunder := getFieldOptions_all_under n (p ++ "-" ++ name) o nestedType
        (fun x hx => hident x (mem_names_nested hx)) h
      exact hunder.nested (hident _ (mem_names_name _))

theorem getFieldOptions_all_under (n p : String) (o : FieldOption) :
    ∀ ms, (∀ x ∈ allNames ms, IsIdent x) →
      getFieldOptions n (traverseMessageOptions p ms) = some o → NamedUnder p n
  | [], _, h => by simp [traverseMessageOptions, getFieldOptions] at h
  | m :: ms, hident, h => by
    rw [getFieldOptions_cons] at h
    rcases Option.or_eq_some_iff.mp h with h | ⟨-, h⟩
    · exact getFieldOptions_under n p o m (fun x hx => hident x (List.mem_append_left _ hx)) h
    · exact getFieldOptions_all_under n p o ms (fun x hx => hident x (List.mem_append_right _ hx)) h

end

theorem mem_allNames {ms : List AnnotatedMessage} (hm : m ∈ ms) (hn : n ∈ names m) :
    n ∈ allNames ms := by
  induction ms with
  | nil => cases hm
  | cons a ms ih =>
    rcases List.mem_cons.mp hm with rfl | hm
    · exact List.mem_append_left _ hn
    · exact List.mem_append_right _ (ih hm)

theorem WellFormed.ident (h : WellFormed file) (hm : m ∈ file.messageType) (hn : n ∈ names m) :
    IsIdent n := h.idents n (mem_allNames hm hn)

theorem WellFormed.message_eq (h : WellFormed file) {a : AnnotatedMessage}
    (ha : a ∈ file.messageType) (hm : m ∈ file.messageType) (heq : a.name = m.name) : a = m :=
  List.inj_on_of_nodup_map h.messages ha hm heq

theorem WellFormed.field_eq (h : WellFormed file) {g : AnnotatedField}
    (hm : m ∈ file.messageType) (hf : f ∈ m.field) (hg : g ∈ m.field) (heq : f.name = g.name) :
    f = g :=
  List.inj_on_of_nodup_map (h.fields m hm) hf hg heq

theorem isEmpty_options (p : String) (ms : List AnnotatedMessage) :
    (traverseMessageOptions p ms).isEmpty = true ↔ AllPlain ms := by
  rw [List.isEmpty_iff, traverseMessageOptions_nil]

/-- field の名前で見つかるのは、その message の先頭の field の annotation だけである。 -/
theorem WellFormed.getFieldOptions_message (h : WellFormed file) {a : AnnotatedMessage}
    (ha : a ∈ file.messageType) (hm : m ∈ file.messageType) (hf : f ∈ m.field)
    (ho : getFieldOptions (messageName file m ++ "-" ++ f.name)
      (traverseMessageOption (optionsPrefix file) a) = some o) :
    FirstFound file m ∧ m.field.head? = some f ∧
      (inlineNode f).map (optionOf (messageName file m) f) = some o := by
  have hfname := (h.ident hm (mem_names_field hf)).dash
  have hmname := (h.ident hm (mem_names_name m)).dash
  have haname := h.ident ha (mem_names_name a)
  rw [Yang.getFieldOptions_message] at ho
  split at ho
  · next hplain =>
    obtain ⟨g, node, hg, hnode, rfl, hn⟩ := head_filter ho
    have hgname := (h.ident ha (mem_names_field (List.mem_of_head? hg))).dash
    have hn := congrArg String.toList hn
    rw [toList_dash _ g.name, toList_dash _ f.name] at hn
    obtain ⟨hn, hgf⟩ := split_unique hgname hfname hn
    rw [toList_dash, messageName, toList_dash] at hn
    obtain ⟨hpre, ham⟩ := split_unique haname.dash hmname hn
    obtain rfl := h.message_eq ha hm (String.toList_injective ham)
    obtain rfl := h.field_eq ha hf (List.mem_of_head? hg) (String.toList_injective hgf).symm
    have hpre := String.toList_injective hpre
    refine ⟨⟨hpre, (isEmpty_options _ _).mp hplain, by simp [hg, hnode]⟩, hg, ?_⟩
    rw [hnode, messageName, ← hpre]
    rfl
  · -- 入れ子の名前は、二つの file の名前の違いより長い
    obtain ⟨path, b, g, hpath, hb, hg, hn⟩ := getFieldOptions_all_under _ _ _ a.nestedType
      (fun x hx => h.ident ha (mem_names_nested hx)) ho
    rw [toList_dash] at hn
    obtain ⟨hn, -⟩ := split_unique hfname hg hn
    rw [messageName, toList_dash] at hn
    obtain ⟨hn, -⟩ := split_unique hmname hb hn
    rw [toList_dash, List.append_assoc] at hn
    have hnil := prefix_eq (by simp [haname.dot, hpath]) hn
    simp at hnil

theorem getFieldOptions_exists {ms : List AnnotatedMessage}
    (h : getFieldOptions n (traverseMessageOptions p ms) = some o) :
    ∃ a ∈ ms, getFieldOptions n (traverseMessageOption p a) = some o := by
  induction ms with
  | nil => simp [traverseMessageOptions, getFieldOptions] at h
  | cons a ms ih =>
    rw [getFieldOptions_cons] at h
    rcases Option.or_eq_some_iff.mp h with h | ⟨-, h⟩
    · exact ⟨a, List.mem_cons_self, h⟩
    · obtain ⟨b, hb, hob⟩ := ih h
      exact ⟨b, List.mem_cons_of_mem _ hb, hob⟩

theorem getFieldOptions_ne_none {ms : List AnnotatedMessage} (hm : m ∈ ms)
    (h : getFieldOptions n (traverseMessageOption p m) = some o) :
    getFieldOptions n (traverseMessageOptions p ms) ≠ none := by
  induction ms with
  | nil => cases hm
  | cons a ms ih =>
    rw [getFieldOptions_cons, ne_eq, Option.or_eq_none_iff, not_and_or]
    rcases List.mem_cons.mp hm with rfl | hm
    · exact .inl (by simp [h])
    · exact .inr (ih hm)

/-- file の記述から引く。 -/
theorem WellFormed.getFieldOptions_file (h : WellFormed file) (hm : m ∈ file.messageType)
    (hf : f ∈ m.field) :
    getFieldOptions (messageName file m ++ "-" ++ f.name)
        (traverseMessageOptions (optionsPrefix file) file.messageType) = some o ↔
      FirstFound file m ∧ m.field.head? = some f ∧
        (inlineNode f).map (optionOf (messageName file m) f) = some o := by
  constructor
  · intro ho
    obtain ⟨a, ha, ho⟩ := getFieldOptions_exists ho
    exact h.getFieldOptions_message ha hm hf ho
  · rintro ⟨hfirst, hhead, ho⟩
    obtain ⟨hpre, hplain, -⟩ := hfirst
    have hhere : getFieldOptions (messageName file m ++ "-" ++ f.name)
        (traverseMessageOption (optionsPrefix file) m) = some o := by
      have hempty := (isEmpty_options (optionsPrefix file ++ "-" ++ m.name) m.nestedType).mpr hplain
      obtain ⟨node, hnode, rfl⟩ := Option.map_eq_some_iff.mp ho
      rw [Yang.getFieldOptions_message, if_pos hempty, hpre, hhead, Option.bind_some, hnode]
      exact Option.filter_eq_some_iff.mpr ⟨rfl, decide_eq_true rfl⟩
    obtain ⟨o', ho'⟩ := Option.ne_none_iff_exists'.mp (getFieldOptions_ne_none hm hhere)
    obtain ⟨a, ha, hoa⟩ := getFieldOptions_exists ho'
    obtain ⟨-, -, heq⟩ := h.getFieldOptions_message ha hm hf hoa
    rw [ho', ← heq, ho]

/-! ## 埋め込む -/

theorem foldl_absorb (ts : List FullMessage) (fullName name : String) (fields : List FullField)
    (enums : List FullEnum) (messages : List FullMessage) :
    ts.foldl absorb (.mk fullName name fields enums messages)
      = .mk fullName name (fields ++ ts.flatMap FullMessage.fields)
          (enums ++ ts.flatMap FullMessage.enums)
          (messages ++ ts.flatMap FullMessage.messages) := by
  induction ts generalizing fields enums messages with
  | nil => simp
  | cons t ts ih =>
    cases t
    rw [List.foldl_cons, absorb, ih]
    simp [FullMessage.fields, FullMessage.enums, FullMessage.messages]

/-- 名前の違う field は、そのまま残る。 -/
theorem foldl_inlineStep (messages : List FullMessage) (field : FullField) (option : FieldOption)
    (rest : List FullField) (h : ∀ f ∈ rest, f.fullName ≠ field.fullName)
    (fullName name : String) (fields : List FullField) (enums : List FullEnum)
    (nested : List FullMessage) :
    rest.foldl (inlineStep messages field option) (.mk fullName name fields enums nested)
      = .mk fullName name (fields ++ rest) enums nested := by
  induction rest generalizing fields with
  | nil => simp
  | cons f rest ih =>
    rw [List.foldl_cons, inlineStep, if_neg (h f List.mem_cons_self)]
    show rest.foldl _ (FullMessage.mk fullName name (fields ++ [f]) enums nested) = _
    rw [ih fun g hg => h g (List.mem_cons_of_mem _ hg), List.append_assoc]
    rfl

theorem fullMessages_eq (file : AnnotatedFile) :
    fullMessages file = file.messageType.map (original file) := by
  unfold fullMessages
  induction file.messageType with
  | nil => rfl
  | cons m ms ih => rw [traverseFullMessages, ih]; rfl

theorem original_fullName (file : AnnotatedFile) (m : AnnotatedMessage) :
    (original file m).fullName = messageName file m := by
  cases m
  rfl

theorem original_fields (file : AnnotatedFile) (m : AnnotatedMessage) :
    (original file m).fields = m.field.map (traverseFullField (messageName file m)) := by
  cases m
  rfl

theorem original_eq (file : AnnotatedFile) (m : AnnotatedMessage) :
    original file m = .mk (messageName file m) m.name (original file m).fields
      (original file m).enums (original file m).messages := by
  cases m
  rfl

theorem messageName_inj {a b : AnnotatedMessage} (h : messageName file a = messageName file b) :
    a.name = b.name := by
  have hlist := congrArg String.toList h
  rw [messageName, messageName, toList_dash, toList_dash, List.append_cancel_left_eq,
    List.cons_inj_right] at hlist
  exact String.toList_injective hlist

theorem WellFormed.messageNames (h : WellFormed file) :
    (file.messageType.map (messageName file)).Nodup := by
  refine List.Nodup.map_on ?_ (h.messages.of_map _)
  exact fun a ha b hb heq => h.message_eq ha hb (messageName_inj heq)

theorem referred_mem {t : AnnotatedMessage} (h : referred file f = some t) :
    t ∈ file.messageType := by
  obtain ⟨node, -, h⟩ := Option.bind_eq_some_iff.mp h
  exact List.mem_of_find?_eq_some h

/-- 指された message は、名前で一つに決まる。 -/
theorem WellFormed.filter_referred (h : WellFormed file) {t : AnnotatedMessage}
    {node : InlineNode} (hnode : inlineNode f = some node) (ht : referred file f = some t) :
    (fullMessages file).filter (fun m => m.fullName = node.type) = [original file t] := by
  have hmem := referred_mem ht
  rw [referred, hnode, Option.bind_some] at ht
  have hname : messageName file t = node.type := by simpa using List.find?_some ht
  have hcomp : ((fun x : FullMessage => decide (x.fullName = node.type)) ∘ original file)
      = fun x => decide (messageName file x = messageName file t) := by
    funext x
    simp only [Function.comp, original_fullName, hname]
  rw [fullMessages_eq, List.filter_map, hcomp, Py.filter_name h.messageNames hmem]
  rfl

theorem foldl_updateStep_none {options : List MessageOption} {messages : List FullMessage}
    {message : FullMessage} {fields : List FullField}
    (h : ∀ f ∈ fields, getFieldOptions f.fullName options = none) (new : Option FullMessage) :
    fields.foldl (updateStep options messages message) new = new := by
  induction fields with
  | nil => rfl
  | cons f fields ih =>
    rw [List.foldl_cons, updateStep, h f List.mem_cons_self]
    exact ih fun g hg => h g (List.mem_cons_of_mem _ hg)

theorem fullName_field (file : AnnotatedFile) (m : AnnotatedMessage) (f : AnnotatedField) :
    (traverseFullField (messageName file m) f).fullName = messageName file m ++ "-" ++ f.name := rfl

/-- 見つからない message は、そのまま残る。 -/
theorem WellFormed.updateMessage_none (h : WellFormed file) (hm : m ∈ file.messageType)
    (hfirst : ¬FirstFound file m) :
    updateMessage (traverseMessageOptions (optionsPrefix file) file.messageType)
      (fullMessages file) (original file m) = original file m := by
  have hnone : ∀ f ∈ (original file m).fields, getFieldOptions f.fullName
      (traverseMessageOptions (optionsPrefix file) file.messageType) = none := by
    intro x hx
    rw [original_fields] at hx
    obtain ⟨f, hf, rfl⟩ := List.mem_map.mp hx
    refine Option.eq_none_iff_forall_ne_some.mpr fun o ho => ?_
    exact hfirst ((h.getFieldOptions_file hm hf).mp ho).1
  rw [updateMessage, foldl_updateStep_none hnone]
  rfl

/-- 見つかるのは先頭の field だけなので、ほかの field はそのまま残る。 -/
theorem WellFormed.updateMessage_first (h : WellFormed file) (hm : m ∈ file.messageType)
    (hfirst : FirstFound file m) {rest : List AnnotatedField} (hfield : m.field = f :: rest)
    {t : AnnotatedMessage} (ht : referred file f = some t) :
    updateMessage (traverseMessageOptions (optionsPrefix file) file.messageType)
      (fullMessages file) (original file m)
      = .mk (messageName file m) m.name
          ((original file t).fields ++ rest.map (traverseFullField (messageName file m)))
          ((original file m).enums ++ (original file t).enums)
          ((original file m).messages ++ (original file t).messages) := by
  obtain ⟨node, hnode, -⟩ := Option.bind_eq_some_iff.mp ht
  have hnames := h.fields m hm
  rw [hfield, List.map_cons, List.nodup_cons] at hnames
  have hf : f ∈ m.field := by simp [hfield]
  have hne : ∀ g ∈ rest, g.name ≠ f.name := fun g hg heq =>
    hnames.1 (heq ▸ List.mem_map_of_mem hg)
  have hhead : m.field.head? = some f := by rw [hfield]; rfl
  have hoption := (h.getFieldOptions_file (o := optionOf (messageName file m) f node) hm hf).mpr
    ⟨hfirst, hhead, by rw [hnode]; rfl⟩
  have hnone : ∀ g ∈ rest.map (traverseFullField (messageName file m)),
      getFieldOptions g.fullName
        (traverseMessageOptions (optionsPrefix file) file.messageType) = none := by
    intro x hx
    obtain ⟨g, hg, rfl⟩ := List.mem_map.mp hx
    have hgm : g ∈ m.field := by simp [hfield, hg]
    refine Option.eq_none_iff_forall_ne_some.mpr fun o ho => ?_
    have heq := ((h.getFieldOptions_file hm hgm).mp ho).2.1
    rw [hhead, Option.some.injEq] at heq
    exact hne g hg (heq ▸ rfl)
  have hkeep : ∀ g ∈ rest.map (traverseFullField (messageName file m)),
      g.fullName ≠ (traverseFullField (messageName file m) f).fullName := by
    intro x hx heq
    obtain ⟨g, hg, rfl⟩ := List.mem_map.mp hx
    rw [fullName_field, fullName_field, String.append_right_inj] at heq
    exact hne g hg heq
  have hinline : inlineField (fullMessages file) (original file m)
      (traverseFullField (messageName file m) f) (optionOf (messageName file m) f node)
      = .mk (messageName file m) m.name
          ((original file t).fields ++ rest.map (traverseFullField (messageName file m)))
          ((original file m).enums ++ (original file t).enums)
          ((original file m).messages ++ (original file t).messages) := by
    rw [original_eq file m, inlineField, original_fields, hfield, List.map_cons, List.foldl_cons,
      inlineStep, if_pos rfl, optionOf, h.filter_referred hnode ht, foldl_absorb,
      foldl_inlineStep _ _ _ _ hkeep]
    simp only [List.nil_append, List.flatMap_cons, List.flatMap_nil, List.append_nil]
    rfl
  rw [updateMessage, original_fields, hfield, List.map_cons, List.foldl_cons,
    foldl_updateStep_none hnone, updateStep, fullName_field, hoption]
  simp only [optionOf, if_true, Option.getD_some]
  exact hinline

theorem inlinedMessages_eq (file : AnnotatedFile) :
    inlinedMessages file = file.messageType.map fun m =>
      updateMessage (traverseMessageOptions (optionsPrefix file) file.messageType)
        (fullMessages file) (original file m) := by
  have hupdate := List.map_map (f := original file) (l := file.messageType)
    (g := updateMessage (traverseMessageOptions (optionsPrefix file) file.messageType)
      (fullMessages file))
  rw [← fullMessages_eq] at hupdate
  refine Eq.trans ?_ hupdate
  unfold inlinedMessages traverseOptions
  cases hms : file.messageType with
  | nil => simp [fullMessages, hms, traverseFullMessages]
  | cons m ms =>
    rw [if_neg (by simp)]
    cases hoptions : traverseMessageOptions (optionsPrefix file) (m :: ms) with
    | nil =>
      have hid : ∀ x, updateMessage [] (fullMessages file) x = x := by
        intro x
        rw [updateMessage, foldl_updateStep_none fun f _ => rfl]
        rfl
      show fullMessages file = (fullMessages file).map (updateMessage [] (fullMessages file))
      rw [funext hid, List.map_id']
    | cons option options => rfl

/-! ## 比べる -/

theorem expandedField_none (h : inlineNode f = none) (file : AnnotatedFile)
    (m : AnnotatedMessage) :
    expandedField file m f = [traverseFullField (messageName file m) f] := by
  rw [expandedField, referred, h, Option.bind_none]

theorem expandedField_some {t : AnnotatedMessage} (h : referred file f = some t)
    (m : AnnotatedMessage) :
    expandedField file m f = t.field.map (traverseFullField (messageName file t)) := by
  rw [expandedField, h]
  exact original_fields file t

theorem WellFormed.referred_some (h : WellFormed file) (hm : m ∈ file.messageType)
    (hf : f ∈ m.field) (hne : inlineNode f ≠ none) : ∃ t, referred file f = some t :=
  Option.ne_none_iff_exists'.mp (h.refers m hm f hf hne)

/-- 違う message の field は、完全な名前が違う。 -/
theorem WellFormed.fullField_inj (h : WellFormed file) {t : AnnotatedMessage}
    {g : AnnotatedField} (ht : t ∈ file.messageType) (hm : m ∈ file.messageType)
    (hg : g ∈ t.field) (hf : f ∈ m.field)
    (heq : traverseFullField (messageName file t) g = traverseFullField (messageName file m) f) :
    t = m ∧ g.name = f.name := by
  have hname := congrArg (fun x => x.fullName.toList) heq
  simp only [fullName_field, toList_dash] at hname
  obtain ⟨hmessage, hfield⟩ := split_unique (h.ident ht (mem_names_field hg)).dash
    (h.ident hm (mem_names_field hf)).dash hname
  exact ⟨h.message_eq ht hm (messageName_inj (String.toList_injective hmessage)),
    String.toList_injective hfield⟩

theorem flatMap_ite {α β : Type} (q : α → Bool) (g : α → β) (l : List α) :
    l.flatMap (fun x => if q x then [g x] else []) = (l.filter q).map g := by
  induction l with
  | nil => rfl
  | cons x l ih =>
    rw [List.flatMap_cons, ih, List.filter_cons]
    split <;> rfl

/-- 自分自身を埋め込まずに何も変わらないのは、annotation が無いときだけである。 -/
theorem WellFormed.all_none (h : WellFormed file) (hm : m ∈ file.messageType)
    {fields : List AnnotatedField} (hsub : ∀ f ∈ fields, f ∈ m.field)
    (hself : ∀ f ∈ fields, referred file f ≠ some m)
    (heq : fields.flatMap (expandedField file m)
      = fields.map (traverseFullField (messageName file m))) :
    ∀ f ∈ fields, inlineNode f = none := by
  have hfield : ∀ f ∈ fields, expandedField file m f
      = if (inlineNode f).isNone then [traverseFullField (messageName file m) f] else [] := by
    intro f hf
    cases hnode : inlineNode f with
    | none => exact expandedField_none hnode file m
    | some node =>
      obtain ⟨t, ht⟩ := h.referred_some hm (hsub f hf) (by simp [hnode])
      rw [expandedField_some ht, Option.isNone_some, if_neg (by simp), List.map_eq_nil_iff]
      refine List.eq_nil_iff_forall_not_mem.mpr fun g hg => ?_
      have hmem : traverseFullField (messageName file t) g
          ∈ fields.map (traverseFullField (messageName file m)) := by
        rw [← heq, List.mem_flatMap]
        exact ⟨f, hf, expandedField_some ht m ▸ List.mem_map_of_mem hg⟩
      obtain ⟨x, hx, hxg⟩ := List.mem_map.mp hmem
      obtain ⟨rfl, -⟩ := h.fullField_inj (referred_mem ht) hm hg (hsub x hx) hxg.symm
      exact hself f hf ht
  rw [List.flatMap_congr hfield, flatMap_ite] at heq
  have hlength := congrArg List.length heq
  rw [List.length_map, List.length_map, List.length_filter_eq_length_iff] at hlength
  exact fun f hf => Option.isNone_iff_eq_none.mp (hlength f hf)

theorem original_enums (file : AnnotatedFile) (m : AnnotatedMessage) :
    (original file m).enums = [] ↔ m.enumType = [] := by
  cases m
  exact List.map_eq_nil_iff

theorem original_messages (file : AnnotatedFile) (m : AnnotatedMessage) :
    (original file m).messages = [] ↔ m.nestedType = [] := by
  obtain ⟨name, field, nestedType, enumType, options⟩ := m
  cases nestedType <;> simp [original, traverseFullMessage, traverseFullMessages,
    AnnotatedMessage.nestedType, FullMessage.messages]

theorem flatMap_of_none {fields : List AnnotatedField} (h : ∀ f ∈ fields, inlineNode f = none) :
    fields.flatMap (expandedField file m)
      = fields.map (traverseFullField (messageName file m)) := by
  rw [List.flatMap_congr fun f hf => expandedField_none (h f hf) file m, List.map_eq_flatMap]

theorem filterMap_of_none {fields : List AnnotatedField} (h : ∀ f ∈ fields, inlineNode f = none) :
    fields.filterMap (referred file) = [] := by
  refine List.filterMap_eq_nil_iff.mpr fun f hf => ?_
  rw [referred, h f hf, Option.bind_none]

theorem expanded_of_none (h : ∀ f ∈ m.field, inlineNode f = none) :
    expanded file m = original file m := by
  rw [expanded, filterMap_of_none h, flatMap_of_none h, ← original_fields]
  simp only [List.flatMap_nil, List.append_nil]
  exact (original_eq file m).symm

theorem InlinesItself.expanded (h : InlinesItself file m) : expanded file m = original file m := by
  obtain ⟨before, f, after, hfield, hself, hempty⟩ := h.fields
  have hnil : ∀ g ∈ before ++ after, expandedField file m g = [] := by
    intro g hg
    obtain ⟨t, ht, htf, -, -⟩ := hempty g hg
    rw [expandedField_some ht, htf]
    rfl
  have hadded : ∀ t ∈ m.field.filterMap (referred file), t.enumType = [] ∧ t.nestedType = [] := by
    intro t ht
    obtain ⟨g, hg, ht⟩ := List.mem_filterMap.mp ht
    have hcases : g = f ∨ g ∈ before ++ after := by
      rw [hfield] at hg
      simp only [List.mem_append, List.mem_cons] at hg ⊢
      tauto
    rcases hcases with rfl | hg
    · rw [hself] at ht
      obtain rfl := Option.some.inj ht
      exact ⟨h.enums, h.nested⟩
    · obtain ⟨t', ht', -, henum, hnested⟩ := hempty g hg
      rw [ht'] at ht
      obtain rfl := Option.some.inj ht
      exact ⟨henum, hnested⟩
  have henums : (m.field.filterMap (referred file)).flatMap (fun t => (original file t).enums)
      = [] := List.flatMap_eq_nil_iff.mpr fun t ht => (original_enums file t).mpr (hadded t ht).1
  have hmessages : (m.field.filterMap (referred file)).flatMap
      (fun t => (original file t).messages) = [] :=
    List.flatMap_eq_nil_iff.mpr fun t ht => (original_messages file t).mpr (hadded t ht).2
  have hbefore : before.flatMap (expandedField file m) = [] :=
    List.flatMap_eq_nil_iff.mpr fun g hg => hnil g (List.mem_append_left _ hg)
  have hafter : after.flatMap (expandedField file m) = [] :=
    List.flatMap_eq_nil_iff.mpr fun g hg => hnil g (List.mem_append_right _ hg)
  have hfields : m.field.flatMap (expandedField file m) = (original file m).fields := by
    rw [hfield, List.flatMap_append, List.flatMap_cons, hbefore, hafter, expandedField_some hself,
      List.nil_append, List.append_nil, original_fields]
  rw [Yang.expanded, henums, hmessages, hfields, List.append_nil, List.append_nil, ← original_eq]

/-- 埋め込んでも変わらない message。 -/
theorem WellFormed.expanded_eq_iff (h : WellFormed file) (hm : m ∈ file.messageType) :
    expanded file m = original file m ↔
      (∀ f ∈ m.field, inlineNode f = none) ∨ InlinesItself file m := by
  constructor
  · intro heq
    have hfields : m.field.flatMap (expandedField file m) = (original file m).fields :=
      congrArg FullMessage.fields heq
    have henums := List.append_right_eq_self.mp (congrArg FullMessage.enums heq)
    have hmessages := List.append_right_eq_self.mp (congrArg FullMessage.messages heq)
    rw [List.flatMap_eq_nil_iff] at henums hmessages
    by_cases hself : ∃ f ∈ m.field, referred file f = some m
    · obtain ⟨f, hf, hself⟩ := hself
      have hadded : m ∈ m.field.filterMap (referred file) := List.mem_filterMap.mpr ⟨f, hf, hself⟩
      obtain ⟨before, after, hfield⟩ := List.append_of_mem hf
      have hlength := congrArg List.length hfields
      rw [hfield, List.flatMap_append, List.flatMap_cons, expandedField_some hself,
        ← original_fields] at hlength
      have hbefore : before.flatMap (expandedField file m) = [] := by
        refine List.length_eq_zero_iff.mp ?_
        simp only [List.length_append] at hlength
        omega
      have hafter : after.flatMap (expandedField file m) = [] := by
        refine List.length_eq_zero_iff.mp ?_
        simp only [List.length_append] at hlength
        omega
      refine .inr ⟨⟨before, f, after, hfield, hself, ?_⟩, ?_, ?_⟩
      · intro g hg
        have hgm : g ∈ m.field := by
          rw [hfield]
          simp only [List.mem_append, List.mem_cons] at hg ⊢
          tauto
        have hnil : expandedField file m g = [] := by
          rcases List.mem_append.mp hg with hg | hg
          · exact List.flatMap_eq_nil_iff.mp hbefore g hg
          · exact List.flatMap_eq_nil_iff.mp hafter g hg
        have hne : inlineNode g ≠ none := by
          intro hnone
          rw [expandedField_none hnone] at hnil
          cases hnil
        obtain ⟨t, ht⟩ := h.referred_some hm hgm hne
        have hmem : t ∈ m.field.filterMap (referred file) := List.mem_filterMap.mpr ⟨g, hgm, ht⟩
        rw [expandedField_some ht, List.map_eq_nil_iff] at hnil
        exact ⟨t, ht, hnil, (original_enums file t).mp (henums t hmem),
          (original_messages file t).mp (hmessages t hmem)⟩
      · exact (original_enums file m).mp (henums m hadded)
      · exact (original_messages file m).mp (hmessages m hadded)
    · refine .inl (h.all_none hm (fun _ hf => hf) (fun f hf hs => hself ⟨f, hf, hs⟩) ?_)
      rw [hfields, original_fields]
  · rintro (hnone | hself)
    · exact expanded_of_none hnone
    · exact hself.expanded

theorem FirstFound.head (h : FirstFound file m) :
    ∃ f, m.field.head? = some f ∧ inlineNode f ≠ none := by
  obtain ⟨node, hnode⟩ := Option.ne_none_iff_exists'.mp h.2.2
  obtain ⟨f, hhead, hnode⟩ := Option.bind_eq_some_iff.mp hnode
  exact ⟨f, hhead, by simp [hnode]⟩

/-- 見つかった message では、残りの field に annotation が無いときに限る。 -/
theorem WellFormed.updateMessage_eq_iff (h : WellFormed file) (hm : m ∈ file.messageType)
    (hfirst : FirstFound file m) :
    updateMessage (traverseMessageOptions (optionsPrefix file) file.messageType)
      (fullMessages file) (original file m) = expanded file m ↔
        ∀ f ∈ m.field.tail, inlineNode f = none := by
  obtain ⟨f, hhead, hnode⟩ := hfirst.head
  obtain ⟨rest, hfield⟩ := List.head?_eq_some_iff.mp hhead
  have hf : f ∈ m.field := by simp [hfield]
  obtain ⟨t, ht⟩ := h.referred_some hm hf hnode
  rw [h.updateMessage_first hm hfirst hfield ht, hfield, List.tail_cons]
  constructor
  · intro heq
    have hfields : (original file t).fields ++ rest.map (traverseFullField (messageName file m))
        = m.field.flatMap (expandedField file m) := congrArg FullMessage.fields heq
    rw [hfield, List.flatMap_cons, expandedField_some ht, original_fields,
      List.append_cancel_left_eq] at hfields
    have hsub : ∀ g ∈ rest, g ∈ m.field := fun g hg => by simp [hfield, hg]
    refine h.all_none hm hsub ?_ hfields.symm
    -- 自分自身を埋め込むと、先頭の field がもう一度現れる
    intro g hg hself
    have hmem : traverseFullField (messageName file m) f
        ∈ rest.map (traverseFullField (messageName file m)) := by
      rw [hfields, List.mem_flatMap]
      exact ⟨g, hg, expandedField_some hself m ▸ List.mem_map_of_mem hf⟩
    obtain ⟨x, hx, hxf⟩ := List.mem_map.mp hmem
    obtain ⟨-, hname⟩ := h.fullField_inj hm hm (hsub x hx) hf hxf
    have hnames := h.fields m hm
    rw [hfield, List.map_cons, List.nodup_cons] at hnames
    exact hnames.1 (hname ▸ List.mem_map_of_mem hx)
  · intro hnone
    rw [expanded, hfield, List.flatMap_cons, flatMap_of_none hnone, expandedField_some ht,
      List.filterMap_cons_some ht, filterMap_of_none hnone, original_fields]
    simp only [List.flatMap_cons, List.flatMap_nil, List.append_nil]

/-- annotation がどれも埋め込まれるのは、どの message でも `InlineHandled` のときに限る。 -/
theorem inline_annotations_iff {file : AnnotatedFile} (h : WellFormed file) :
    inlinedMessages file = file.messageType.map (expanded file) ↔
      ∀ m ∈ file.messageType, InlineHandled file m := by
  rw [inlinedMessages_eq, List.map_inj_left]
  refine forall₂_congr fun m hm => ?_
  unfold InlineHandled
  by_cases hfirst : FirstFound file m
  · rw [h.updateMessage_eq_iff hm hfirst]
    have hsome : ¬∀ f ∈ m.field, inlineNode f = none := by
      obtain ⟨f, hhead, hnode⟩ := hfirst.head
      exact fun hnone => hnode (hnone f (List.mem_of_head? hhead))
    simp [hfirst, hsome]
  · rw [h.updateMessage_none hm hfirst, eq_comm, h.expanded_eq_iff hm]
    simp [hfirst]

def stringField (name : String) : AnnotatedField where
  name := name
  repeated := false
  type := .string
  typeName := ""
  description := none
  inline := none

def peopleField : AnnotatedField where
  name := "people"
  repeated := false
  type := .message
  typeName := ".book.Person"
  description := none
  inline := some ⟨"people", "book-Person"⟩

/-- `people` の前に、ほかの field を置いた file。 -/
def book (before : List AnnotatedField) : AnnotatedFile where
  name := "book.proto"
  messageType := [.mk "Person" [stringField "name"] [] [] [],
    .mk "AddressBook" (before ++ [peopleField]) [] [] []]

theorem wellFormed_book : WellFormed (book []) := by
  constructor <;> decide +kernel

theorem wellFormed_book_title : WellFormed (book [stringField "title"]) := by
  constructor <;> decide +kernel

theorem inline_annotations_book :
    inlinedMessages (book []) = (book []).messageType.map (expanded (book [])) ∧
      (expanded (book []) (book []).messageType[1]).fields.map (fun f => f.name) = ["name"] := by
  refine ⟨(inline_annotations_iff wellFormed_book).mpr ?_, by decide +kernel⟩
  intro m hm
  rcases List.mem_pair.mp hm with rfl | rfl
  · exact .inl (by decide +kernel)
  · exact .inr (.inl ⟨⟨by decide +kernel, trivial, by decide +kernel⟩, by decide +kernel⟩)

/-- 二番目の field の annotation は、捨てられる。 -/
theorem second_annotation_dropped : WellFormed (book [stringField "title"]) ∧
    inlinedMessages (book [stringField "title"])
      ≠ (book [stringField "title"]).messageType.map (expanded (book [stringField "title"])) := by
  refine ⟨wellFormed_book_title, fun heq => ?_⟩
  have hfields := congrArg (List.map fun m => m.fields.map fun f => f.name) heq
  revert hfields
  decide +kernel

end Voltha.Netconf.Yang
