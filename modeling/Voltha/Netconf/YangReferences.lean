import Voltha.Netconf.YangSchema

/-!
# YANG の module に、field と参照先がそろうこと

message の node は、その message の field の node を並べる。message を指す field の node は、表
`referred_messages_with_keys` にその型が載っているときだけ作る。載るのは **一段目の** message だけで、
入れ子の message を指す field は消える。

* `Lossless` — どの field の node も一つあり、どの参照にも定義がある
* `NothingLost` — 記述の側の条件
-/

namespace Voltha.Netconf.Yang

open Voltha.Chameleon (FieldType Field EnumType MessageType Method Service FileDescriptor)

/-- どの field の node も一つあり、message か enum を名指すどの参照にも定義がある。 -/
structure Complete (files : List FileDescriptor) (modules : List Module) : Prop where
  fields : ∀ file ∈ files, ∀ m ∈ allMessages file, ∃ x ∈ modules, x.name = moduleName file ∧
    ∃ b ∈ x.allBlocks, b.name = m.name ∧ ∀ f ∈ m.field, b.children.count f.name = 1
  uses : ∀ x ∈ modules, ∀ r ∈ x.uses, Resolves modules x Module.groupings r
  types : ∀ x ∈ modules, ∀ r ∈ x.types, r.name ∈ files.flatMap definedNames →
    Resolves modules x Module.definitions r

def Lossless (keeps : Bool) (limit : Nat) (files : List FileDescriptor) : Prop :=
  ∃ modules, generateCode keeps limit files = .ok modules ∧ Complete files modules

structure NothingLost (keeps : Bool) (limit : Nat) (files : List FileDescriptor) : Prop where
  keys : KeysFound limit (traverseMessages (files.flatMap FileDescriptor.messageType))
    (files.flatMap FileDescriptor.messageType)
  fields : ∀ file ∈ files, ∀ m ∈ allMessages file, ∀ f ∈ m.field, isBaseType f.type = false →
    ∃ f' ∈ files, getYangType f ∈ f'.messageType.map MessageType.name
  uses : ∀ file ∈ files, ∀ n ∈ usesNames file, Reaches keeps files file n
  types : ∀ file ∈ files, ∀ n ∈ typeNames file, n ∈ files.flatMap definedNames →
    n ∈ definedNames file ∨ n ≠ "decimal64" ∧ Reaches keeps files file n

variable {files : List FileDescriptor} {file : FileDescriptor} {n : String}

/-! ## node -/

section Blocks

variable {keeps : Bool} {keys : List (Option String)} {T : Tables} {module : String}

theorem renderMessages_eq_map (ms : List YangMessage) :
    renderMessages T module ms = ms.map (renderMessage T module) := by
  induction ms with
  | nil => rfl
  | cons m ms ih => rw [renderMessages, ih, List.map_cons]

/-- 一つの message の node。 -/
def blockOf (T : Tables) (module : String) (m : MessageType) : Block :=
  renderMessage T module (traverseMessage m)

theorem blockOf_eq (m : MessageType) : blockOf T module m =
    .mk (decide (m.name ∈ T.referredMessages)) m.name
      ((m.field.map traverseField).flatMap (renderField T module)) (m.enumType.map EnumType.name)
      (m.nestedType.map (blockOf T module)) := by
  cases m with
  | mk name field nested enums mapEntry description =>
    simp only [blockOf, traverseMessage, renderMessage, renderMessages_eq_map,
      traverseMessages_eq_map, List.map_map]
    rfl

@[simp] theorem name_blockOf (m : MessageType) : (blockOf T module m).name = m.name := by
  rw [blockOf_eq]
  rfl

@[simp] theorem grouping_blockOf (m : MessageType) :
    (blockOf T module m).grouping = decide (m.name ∈ T.referredMessages) := by
  rw [blockOf_eq]
  rfl

@[simp] theorem nodes_blockOf (m : MessageType) :
    (blockOf T module m).nodes = (m.field.map traverseField).flatMap (renderField T module) := by
  rw [blockOf_eq]
  rfl

@[simp] theorem typedefs_blockOf (m : MessageType) :
    (blockOf T module m).typedefs = m.enumType.map EnumType.name := by
  rw [blockOf_eq]
  rfl

@[simp] theorem blocks_blockOf (m : MessageType) :
    (blockOf T module m).blocks = m.nestedType.map (blockOf T module) := by
  rw [blockOf_eq]
  rfl

mutual

theorem flatten_blockOf : ∀ m : MessageType,
    (blockOf T module m).flatten = (flatten m).map (blockOf T module)
  | .mk name field nested enums mapEntry description => by
    rw [blockOf_eq, Block.flatten, flattenAll_blockOf, flatten, List.map_cons, blockOf_eq]
    rfl

theorem flattenAll_blockOf : ∀ ms : List MessageType,
    Block.flattenAll (ms.map (blockOf T module)) = (flattenAll ms).map (blockOf T module)
  | [] => rfl
  | m :: ms => by
    rw [List.map_cons, Block.flattenAll, flatten_blockOf, flattenAll_blockOf, flattenAll,
      List.map_append]

end

theorem allBlocks_renderFile (file : FileDescriptor) :
    (renderFile keeps files keys file).allBlocks
      = (allMessages file).map (blockOf (tablesOf keeps files keys) (moduleName file)) := by
  rw [allMessages, ← flattenAll_blockOf]
  simp only [Module.allBlocks, renderFile, renderModule, renderMessages_eq_map, traverseDesc,
    traverseMessages_eq_map, List.map_map]
  rfl

theorem definitions_renderFile (file : FileDescriptor) :
    (renderFile keeps files keys file).definitions = definedNames file := by
  simp only [Module.definitions, allBlocks_renderFile, definedNames, messageNames, enumNames,
    List.map_map, List.flatMap_map, Function.comp_def, name_blockOf, typedefs_blockOf]
  rfl

/-- grouping になるのは、どこかから指される message である。 -/
theorem mem_groupings_renderFile : n ∈ (renderFile keeps files keys file).groupings ↔
    n ∈ messageNames file ∧ n ∈ (tablesOf keeps files keys).referredMessages := by
  simp only [Module.groupings, allBlocks_renderFile, messageNames, List.mem_map, List.mem_filter]
  constructor
  · rintro ⟨b, ⟨⟨m, hm, rfl⟩, hg⟩, rfl⟩
    simp only [grouping_blockOf, decide_eq_true_eq] at hg
    exact ⟨⟨m, hm, (name_blockOf m).symm⟩, by simpa using hg⟩
  · rintro ⟨⟨m, hm, rfl⟩, hr⟩
    exact ⟨_, ⟨⟨m, hm, rfl⟩, by simpa using hr⟩, name_blockOf m⟩

/-- node を作る field か。 -/
def Rendered (T : Tables) (f : YangField) : Prop :=
  f.typeRef = true → f.type ∈ T.referredMessagesWithKeys.map Prod.fst

instance (f : YangField) : Decidable (Rendered T f) :=
  inferInstanceAs (Decidable (f.typeRef = true → _))

/-- field の node は、作るなら一つで、field の名前を持つ。 -/
theorem names_renderField (h : (T.referredMessagesWithKeys.map Prod.fst).Nodup) (f : YangField) :
    (renderField T module f).map Node.name = if Rendered T f then [f.name] else [] := by
  cases hr : f.typeRef with
  | false =>
    have hf : Rendered T f := by simp [Rendered, hr]
    simp only [renderField, hr, if_pos hf, Bool.false_eq_true, if_false]
    split <;> rfl
  | true =>
    have hrendered : Rendered T f ↔ f.type ∈ T.referredMessagesWithKeys.map Prod.fst := by
      simp [Rendered, hr]
    have hcount : (T.referredMessagesWithKeys.filter fun item => item.1 = f.type).length
        = (T.referredMessagesWithKeys.map Prod.fst).count f.type := by
      rw [List.count_eq_countP, List.countP_map, List.countP_eq_length_filter]
      rfl
    have hnames : (renderField T module f).map Node.name
        = List.replicate ((T.referredMessagesWithKeys.map Prod.fst).count f.type) f.name := by
      rw [← hcount, ← List.map_const']
      simp only [renderField, hr, if_true, List.map_map]
      refine List.map_congr_left fun item _ => ?_
      simp only [Function.comp_apply]
      split <;> rfl
    by_cases hf : f.type ∈ T.referredMessagesWithKeys.map Prod.fst
    · rw [hnames, List.count_eq_one_of_mem h hf, if_pos (hrendered.mpr hf), List.replicate_one]
    · rw [hnames, List.count_eq_zero_of_not_mem hf, if_neg (mt hrendered.mp hf),
        List.replicate_zero]

/-- 名前の重ならない列で、名前を残した要素だけが一度現れる。 -/
theorem count_flatMap_eq_one {α : Type} {name : α → String} {P : α → Prop} [DecidablePred P]
    {l : List α} (h : (l.map name).Nodup) {a : α} (ha : a ∈ l) :
    (l.flatMap fun x => if P x then [name x] else []).count (name a) = 1 ↔ P a := by
  have hfilter : (l.flatMap fun x => if P x then [name x] else []) = (l.filter P).map name := by
    clear h ha
    induction l with
    | nil => rfl
    | cons x l ih =>
      by_cases hx : P x
      · simp [hx, ih]
      · simp [hx, ih]
  have hnodup : ((l.filter P).map name).Nodup := h.sublist (List.filter_sublist.map name)
  rw [hfilter]
  constructor
  · intro hone
    have hpos : 0 < ((l.filter P).map name).count (name a) := by omega
    obtain ⟨b, hb, hba⟩ := List.mem_map.mp (List.count_pos_iff.mp hpos)
    obtain ⟨hbl, hPb⟩ := List.mem_filter.mp hb
    rw [← List.inj_on_of_nodup_map h hbl ha hba]
    exact of_decide_eq_true hPb
  · intro hP
    exact List.count_eq_one_of_mem hnodup
      (List.mem_map_of_mem (List.mem_filter.mpr ⟨ha, decide_eq_true hP⟩))

/-- field の node がちょうど一つあるのは、その field が node を作るときに限る。 -/
theorem count_children {m : MessageType} (h : (T.referredMessagesWithKeys.map Prod.fst).Nodup)
    (hm : (m.field.map Field.name ++ m.nestedType.map MessageType.name).Nodup) {f : Field}
    (hf : f ∈ m.field) :
    (blockOf T module m).children.count f.name = 1 ↔ Rendered T (traverseField f) := by
  obtain ⟨hfields, -, hne⟩ := List.nodup_append.mp hm
  have hnested : (((blockOf T module m).blocks.filter fun x => !x.grouping).map Block.name).count
      f.name = 0 := by
    refine List.count_eq_zero_of_not_mem ?_
    intro hmem
    obtain ⟨b, hb, hbf⟩ := List.mem_map.mp hmem
    rw [blocks_blockOf] at hb
    obtain ⟨m', hm', rfl⟩ := List.mem_map.mp (List.mem_of_mem_filter hb)
    exact hne _ (List.mem_map_of_mem hf) _ (List.mem_map_of_mem hm') (by simp [← hbf])
  have hnodes : (blockOf T module m).nodes.map Node.name
      = m.field.flatMap fun f => if Rendered T (traverseField f) then [f.name] else [] := by
    rw [nodes_blockOf, List.map_flatMap, List.flatMap_map]
    simp only [names_renderField h]
    rfl
  rw [Block.children, List.count_append, hnested, hnodes, Nat.add_zero,
    count_flatMap_eq_one hfields hf]

theorem mem_uses_renderField {f : YangField} {r : TypeRef} :
    r ∈ (renderField T module f).flatMap Node.uses ↔
      f.typeRef = true ∧ f.type ∈ T.referredMessagesWithKeys.map Prod.fst ∧
        r ∈ setModulePrefix T module f.type := by
  cases hf : f.typeRef with
  | false =>
    simp only [renderField, hf, Bool.false_eq_true, if_false, false_and, iff_false]
    split <;> simp [Node.uses]
  | true =>
    simp only [renderField, hf, if_true, List.mem_flatMap, List.mem_map, List.mem_filter,
      decide_eq_true_eq, true_and]
    constructor
    · rintro ⟨node, ⟨item, ⟨hitem, htype⟩, rfl⟩, hr⟩
      refine ⟨⟨item, hitem, htype⟩, ?_⟩
      split at hr <;> exact hr
    · rintro ⟨⟨item, hitem, htype⟩, hr⟩
      refine ⟨_, ⟨item, ⟨hitem, htype⟩, rfl⟩, ?_⟩
      split <;> exact hr

theorem mem_types_renderField {f : YangField} {r : TypeRef} :
    r ∈ (renderField T module f).flatMap Node.types ↔
      f.typeRef = false ∧ r ∈ (typeStmt T module f.type).refs := by
  cases hf : f.typeRef with
  | false =>
    simp only [renderField, hf, Bool.false_eq_true, if_false, true_and]
    split <;> simp [Node.types]
  | true =>
    simp only [renderField, hf, if_true, List.mem_flatMap, List.mem_map, Bool.true_eq_false,
      false_and, iff_false]
    rintro ⟨node, ⟨item, -, rfl⟩, hr⟩
    split at hr <;> simp [Node.types] at hr

theorem takeWhile_append_self (c : Char) (l : List Char) :
    (l ++ [c]).takeWhile (· ≠ c) = l.takeWhile (· ≠ c) := by
  induction l with
  | nil => simp
  | cons x l ih =>
    by_cases hx : x = c
    · simp [hx]
    · simpa [hx] using ih

theorem lastPart_of_head {c : Char} {s : String} (h : s.toList.head? = some c) :
    lastPart c (removeFirstCharacterIfMatch s c) = lastPart c s := by
  obtain ⟨l, hl⟩ : ∃ l, s.toList = c :: l := by
    cases hs : s.toList with
    | nil => simp [hs] at h
    | cons x l =>
      rw [hs, List.head?_cons, Option.some.injEq] at h
      exact ⟨l, by rw [h]⟩
  rw [removeFirstCharacterIfMatch, if_pos h, lastPart, lastPart, String.toList_ofList, hl,
    List.tail_cons, List.reverse_cons, takeWhile_append_self]

/-- `.` で始まる型は、message を指す。 -/
theorem methodType_eq {type : String} (h : type.toList.head? = some '.') :
    methodType type = ⟨lastPart '.' type, true⟩ := by
  have hbase : isBaseTypeName type = false := by
    refine decide_eq_false ?_
    intro hmem
    simp only [List.mem_cons, List.not_mem_nil, or_false] at hmem
    rcases hmem with rfl | rfl | rfl | rfl | rfl | rfl | rfl | rfl | rfl <;> simp at h
  simp [methodType, hbase, lastPart_of_head h]

theorem mem_rpcs {get : RpcBody → List TypeRef} {r : TypeRef} :
    r ∈ ((renderFile keeps files keys file).rpcs.flatMap fun rpc =>
        get rpc.input ++ get rpc.output) ↔
      ∃ type ∈ methodTypes file, r ∈ get
        (renderMethodType (tablesOf keeps files keys) (moduleName file) (methodType type)) := by
  simp only [renderFile, renderModule, traverseDesc, traverseServices, methodTypes, renderMethod,
    List.mem_flatMap, List.mem_map, List.mem_append, moduleName]
  constructor
  · rintro ⟨rpc, ⟨method, ⟨s, hs, x, hx, rfl⟩, rfl⟩, hr⟩
    rcases hr with hr | hr
    · exact ⟨x.inputType, ⟨s, hs, x, hx, by simp⟩, hr⟩
    · exact ⟨x.outputType, ⟨s, hs, x, hx, by simp⟩, hr⟩
  · rintro ⟨type, ⟨s, hs, x, hx, htype⟩, hr⟩
    refine ⟨_, ⟨_, ⟨s, hs, x, hx, rfl⟩, rfl⟩, ?_⟩
    simp only [List.mem_cons, List.not_mem_nil, or_false] at htype
    rcases htype with rfl | rfl
    · exact .inl hr
    · exact .inr hr

theorem mem_nodes {get : Node → List TypeRef} {r : TypeRef} :
    r ∈ ((renderFile keeps files keys file).allBlocks.flatMap fun b => b.nodes.flatMap get) ↔
      ∃ m ∈ allMessages file, ∃ f ∈ m.field,
        r ∈ (renderField (tablesOf keeps files keys) (moduleName file) (traverseField f)).flatMap
          get := by
  rw [allBlocks_renderFile, List.flatMap_map]
  simp only [nodes_blockOf, List.flatMap_map, List.flatMap_assoc, List.mem_flatMap]

theorem mem_usesNames : n ∈ usesNames file ↔
    (∃ m ∈ allMessages file, ∃ f ∈ m.field, isBaseType f.type = false ∧ getYangType f = n) ∨
      ∃ type ∈ methodTypes file, lastPart '.' type = n := by
  simp only [usesNames, List.mem_append, List.mem_flatMap, List.mem_map, List.mem_filter,
    Bool.not_eq_true', and_assoc]

theorem mem_typeNames : n ∈ typeNames file ↔
    ∃ m ∈ allMessages file, ∃ f ∈ m.field, isBaseType f.type = true ∧ getYangType f = n := by
  simp only [typeNames, List.mem_flatMap, List.mem_map, List.mem_filter, and_assoc]

theorem usesRefs_renderMethodType {type : String} (h : type.toList.head? = some '.') :
    (renderMethodType T module (methodType type)).usesRefs
      = setModulePrefix T module (lastPart '.' type) := by
  rw [methodType_eq h]
  rfl

theorem typeRefs_renderMethodType {type : String} (h : type.toList.head? = some '.') :
    (renderMethodType T module (methodType type)).typeRefs = [] := by
  rw [methodType_eq h]
  rfl

/-- module に現れる `uses`。 -/
theorem Valid.mem_uses (h : Valid files) (hf : file ∈ files)
    (hfields : ∀ m ∈ allMessages file, ∀ f ∈ m.field, isBaseType f.type = false →
      getYangType f ∈ (tablesOf keeps files keys).referredMessagesWithKeys.map Prod.fst)
    {r : TypeRef} : r ∈ (renderFile keeps files keys file).uses ↔ ∃ n ∈ usesNames file,
      r ∈ setModulePrefix (tablesOf keeps files keys) (moduleName file) n := by
  rw [Module.uses, List.mem_append, mem_nodes, mem_rpcs]
  simp only [mem_uses_renderField, mem_usesNames]
  constructor
  · rintro (⟨m, hm, f, hf, hr, -, hmem⟩ | ⟨type, htype, hmem⟩)
    · exact ⟨_, .inl ⟨m, hm, f, hf, by simpa [traverseField] using hr, rfl⟩, hmem⟩
    · rw [usesRefs_renderMethodType (h.methods file hf type htype).1] at hmem
      exact ⟨_, .inr ⟨type, htype, rfl⟩, hmem⟩
  · rintro ⟨n, ⟨m, hm, f, hf, hbase, rfl⟩ | ⟨type, htype, rfl⟩, hmem⟩
    · exact .inl ⟨m, hm, f, hf, by simp [traverseField, hbase], hfields m hm f hf hbase, hmem⟩
    · refine .inr ⟨type, htype, ?_⟩
      rwa [usesRefs_renderMethodType (h.methods file hf type htype).1]

/-- module に現れる `type`。 -/
theorem Valid.mem_types (h : Valid files) (hf : file ∈ files) {r : TypeRef} :
    r ∈ (renderFile keeps files keys file).types ↔ ∃ n ∈ typeNames file,
      r ∈ (typeStmt (tablesOf keeps files keys) (moduleName file) n).refs := by
  rw [Module.types, List.mem_append, mem_nodes, mem_rpcs]
  simp only [mem_types_renderField, mem_typeNames]
  constructor
  · rintro (⟨m, hm, f, hf, hr, hmem⟩ | ⟨type, htype, hmem⟩)
    · exact ⟨_, ⟨m, hm, f, hf, by simpa [traverseField] using hr, rfl⟩, hmem⟩
    · rw [typeRefs_renderMethodType (h.methods file hf type htype).1] at hmem
      cases hmem
  · rintro ⟨n, ⟨m, hm, f, hf, hbase, rfl⟩, hmem⟩
    exact .inl ⟨m, hm, f, hf, by simp [traverseField, hbase], hmem⟩

end Blocks

/-! ## 指される message -/

section Referred

variable {keeps : Bool} {keys : List (Option String)}

mutual

theorem mem_referencedByMessage : ∀ m : MessageType, n ∈ referencedByMessage m ↔
    ∃ m' ∈ flatten m, ∃ f ∈ m'.field, n ∈ referencedByField f
  | .mk name field nested enums mapEntry description => by
    rw [referencedByMessage, List.mem_append, mem_referencedByMessages nested, flatten,
      List.exists_mem_cons_iff, List.mem_flatMap]
    rfl

theorem mem_referencedByMessages : ∀ ms : List MessageType, n ∈ referencedByMessages ms ↔
    ∃ m ∈ flattenAll ms, ∃ f ∈ m.field, n ∈ referencedByField f
  | [] => by simp [referencedByMessages, flattenAll]
  | m :: ms => by
    rw [referencedByMessages, List.mem_append, mem_referencedByMessage m,
      mem_referencedByMessages ms, flattenAll]
    simp only [List.mem_append, or_and_right, exists_or]

end

/-- `uses` に書く名前は、指される message に入っている。 -/
theorem Valid.mem_referenced (h : Valid files) (hf : file ∈ files) (hn : n ∈ usesNames file) :
    n ∈ (tablesOf keeps files keys).referredMessages := by
  refine List.mem_flatMap.mpr ⟨traverseDesc file, List.mem_map_of_mem hf, ?_⟩
  simp only [traverseDesc, List.mem_append]
  rcases mem_usesNames.mp hn with ⟨m, hm, f, hf', hbase, rfl⟩ | ⟨type, htype, rfl⟩
  · refine .inl ((mem_referencedByMessages _).mpr ⟨m, hm, f, hf', ?_⟩)
    simp [referencedByField, hbase]
  · refine .inr ?_
    have hmethod := methodType_eq (h.methods file hf type htype).1
    simp only [methodTypes, List.mem_flatMap] at htype
    obtain ⟨s, hs, x, hx, htype⟩ := htype
    refine List.mem_flatMap.mpr ⟨_, List.mem_flatMap.mpr ⟨s, hs, List.mem_map_of_mem hx⟩, ?_⟩
    simp only [List.mem_cons, List.not_mem_nil, or_false] at htype
    rcases htype with rfl | rfl
    · simp [hmethod]
    · simp [hmethod]

/-- `uses` に書く名前は、message の名前である。 -/
theorem Valid.mem_messageNames (h : Valid files) (hf : file ∈ files) (hn : n ∈ usesNames file) :
    n ∈ files.flatMap messageNames := by
  rcases mem_usesNames.mp hn with ⟨m, hm, f, hf', hbase, rfl⟩ | ⟨type, htype, rfl⟩
  · have htype : f.type ∈ [FieldType.message, .group] := by
      cases hft : f.type <;> simp [isBaseType, yangTypeMap, hft] at hbase ⊢
    have hyang : getYangType f = lastPart '.' f.typeName := by
      simp only [List.mem_cons, List.not_mem_nil, or_false] at htype
      rcases htype with ht | ht <;> simp [getYangType, yangTypeMap, ht]
    rw [hyang]
    exact h.messageTypes file hf m hm f hf' htype
  · exact (h.methods file hf type htype).2

theorem Valid.mem_groupings_iff (h : Valid files) (hf : file ∈ files) (hn : n ∈ usesNames file)
    {f : FileDescriptor} (hf' : f ∈ files) :
    n ∈ (renderFile keeps files keys f).groupings ↔ n ∈ definedNames f := by
  rw [mem_groupings_renderFile]
  constructor
  · rintro ⟨hmem, -⟩
    exact List.mem_append_left _ hmem
  · intro hmem
    obtain ⟨g, hg, hng⟩ := List.mem_flatMap.mp (h.mem_messageNames hf hn)
    rw [h.file_eq hf' hg hmem (List.mem_append_left _ hng)]
    exact ⟨hng, h.mem_referenced hf hn⟩

end Referred

/-! ## 全体 -/

section Generate

variable {keeps : Bool} {keys : List (Option String)} {limit : Nat}

/-- 一段目の message の全部。 -/
theorem flatMap_messages (files : List FileDescriptor) :
    (files.map traverseDesc).flatMap YangData.messages
      = traverseMessages (files.flatMap FileDescriptor.messageType) := by
  rw [traverseMessages_eq_map, List.map_flatMap, List.flatMap_map]
  simp only [traverseDesc, traverseMessages_eq_map]

theorem generateCode_ok_iff {modules : List Module} : generateCode keeps limit files = .ok modules ↔
    ∃ keys, setMessagesKeys limit (traverseMessages (files.flatMap FileDescriptor.messageType))
        (traverseMessages (files.flatMap FileDescriptor.messageType)) = .ok keys ∧
      modules = files.map (renderFile keeps files keys) := by
  simp only [generateCode, flatMap_messages, Py.bind_eq_ok]
  refine exists_congr fun keys => and_congr_right fun _ => ?_
  rw [List.map_map]
  constructor
  · intro h
    cases h
    rfl
  · rintro rfl
    rfl

/-- 表に載るのは、一段目の message である。 -/
theorem map_fst_withKeys (keeps : Bool)
    (hkeys : setMessagesKeys limit (traverseMessages (files.flatMap FileDescriptor.messageType))
      (traverseMessages (files.flatMap FileDescriptor.messageType)) = .ok keys) :
    (tablesOf keeps files keys).referredMessagesWithKeys.map Prod.fst
      = files.flatMap fun f => f.messageType.map MessageType.name := by
  have hlength := length_of_setMessagesKeys hkeys
  rw [tablesOf, tables, flatMap_messages, List.map_fst_zip (by simp [hlength]),
    traverseMessages_eq_map, List.map_map, List.map_flatMap]
  simp only [Function.comp_def, name_traverseMessage]

theorem Valid.nodup_withKeys (h : Valid files) :
    (files.flatMap fun f => f.messageType.map MessageType.name).Nodup :=
  h.nodup_top.sublist (List.Sublist.flatMap_right _ fun _ _ => List.sublist_append_left _ _)

/-- どの field の node も一つあるのは、message を指す field がどれも一段目を指すときに限る。 -/
theorem Valid.fields_iff (h : Valid files)
    (hitems : (tablesOf keeps files keys).referredMessagesWithKeys.map Prod.fst
      = files.flatMap fun f => f.messageType.map MessageType.name) :
    (∀ file ∈ files, ∀ m ∈ allMessages file, ∃ x ∈ files.map (renderFile keeps files keys),
      x.name = moduleName file ∧
        ∃ b ∈ x.allBlocks, b.name = m.name ∧ ∀ f ∈ m.field, b.children.count f.name = 1) ↔
    ∀ file ∈ files, ∀ m ∈ allMessages file, ∀ f ∈ m.field, isBaseType f.type = false →
      ∃ f' ∈ files, getYangType f ∈ f'.messageType.map MessageType.name := by
  have hnodup : ((tablesOf keeps files keys).referredMessagesWithKeys.map Prod.fst).Nodup :=
    hitems ▸ h.nodup_withKeys
  have hrendered : ∀ f, Rendered (tablesOf keeps files keys) (traverseField f) ↔
      (isBaseType f.type = false →
        ∃ f' ∈ files, getYangType f ∈ f'.messageType.map MessageType.name) := by
    intro f
    simp only [Rendered, hitems, traverseField, Bool.not_eq_true', List.mem_flatMap]
  refine forall_congr' fun file => forall_congr' fun hfile => forall_congr' fun m =>
    forall_congr' fun hm => ?_
  have hmembers := h.members file hfile m hm
  constructor
  · rintro ⟨x, hx, -, b, hb, hname, hcount⟩ f hf
    obtain ⟨g, hg, rfl⟩ := List.mem_map.mp hx
    rw [allBlocks_renderFile] at hb
    obtain ⟨m', hm', rfl⟩ := List.mem_map.mp hb
    rw [name_blockOf] at hname
    -- 名前が同じなら、同じ file の同じ message である
    have hmg : m.name ∈ messageNames g := hname ▸ List.mem_map_of_mem hm'
    obtain rfl := h.file_eq hg hfile (List.mem_append_left _ hmg)
      (List.mem_append_left _ (List.mem_map_of_mem hm))
    obtain rfl := List.inj_on_of_nodup_map (h.nodup_messageNames hg) hm' hm hname
    exact (hrendered f).mp ((count_children hnodup hmembers hf).mp (hcount f hf))
  · intro hall
    refine ⟨_, List.mem_map_of_mem hfile, rfl,
      blockOf (tablesOf keeps files keys) (moduleName file) m, ?_, name_blockOf m, ?_⟩
    · rw [allBlocks_renderFile]
      exact List.mem_map_of_mem hm
    · intro f hf
      exact (count_children hnodup hmembers hf).mpr ((hrendered f).mpr (hall f hf))

/-- どの `uses` にも定義があるのは、どの名前からも定義に着くときに限る。 -/
theorem Valid.uses_iff (h : Valid files)
    (hitems : (tablesOf keeps files keys).referredMessagesWithKeys.map Prod.fst
      = files.flatMap fun f => f.messageType.map MessageType.name)
    (hfields : ∀ file ∈ files, ∀ m ∈ allMessages file, ∀ f ∈ m.field, isBaseType f.type = false →
      ∃ f' ∈ files, getYangType f ∈ f'.messageType.map MessageType.name) :
    (∀ x ∈ files.map (renderFile keeps files keys), ∀ r ∈ x.uses,
      Resolves (files.map (renderFile keeps files keys)) x Module.groupings r) ↔
    ∀ file ∈ files, ∀ n ∈ usesNames file, Reaches keeps files file n := by
  rw [List.forall_mem_map]
  refine forall_congr' fun file => forall_congr' fun hfile => ?_
  have hlisted : ∀ m ∈ allMessages file, ∀ f ∈ m.field, isBaseType f.type = false →
      getYangType f ∈ (tablesOf keeps files keys).referredMessagesWithKeys.map Prod.fst := by
    intro m hm f hf hbase
    rw [hitems]
    exact List.mem_flatMap.mpr (hfields file hfile m hm f hf hbase)
  have hone : ∀ n ∈ usesNames file,
      (∀ r ∈ setModulePrefix (tablesOf keeps files keys) (moduleName file) n,
        Resolves (files.map (renderFile keeps files keys)) (renderFile keeps files keys file)
          Module.groupings r) ↔ Reaches keeps files file n := by
    intro n hn
    obtain ⟨g, hg, hng⟩ := List.mem_flatMap.mp (h.mem_messageNames hfile hn)
    exact h.resolves_iff hfile (List.mem_flatMap.mpr ⟨g, hg, List.mem_append_left _ hng⟩)
      fun f hf => h.mem_groupings_iff hfile hn hf
  constructor
  · intro hall n hn
    exact (hone n hn).mp fun r hr => hall r ((h.mem_uses hfile hlisted).mpr ⟨n, hn, hr⟩)
  · intro hall r hr
    obtain ⟨n, hn, hr⟩ := (h.mem_uses hfile hlisted).mp hr
    exact (hone n hn).mpr (hall n hn) r hr

theorem name_of_mem_setModulePrefix {module : String} {r : TypeRef}
    (h : r ∈ setModulePrefix (tablesOf keeps files keys) module n) : r.name = n := by
  rcases mem_setModulePrefix.mp h with ⟨f, -, -, rfl⟩ | ⟨-, -, rfl⟩
  · rfl
  · rfl

/-- `type` の名前が一つのとき。`decimal64` だけは、prefix を付けない。 -/
theorem Valid.typeStmt_iff (h : Valid files) (hf : file ∈ files) :
    (∀ r ∈ (typeStmt (tablesOf keeps files keys) (moduleName file) n).refs,
      r.name ∈ files.flatMap definedNames → Resolves (files.map (renderFile keeps files keys))
        (renderFile keeps files keys file) Module.definitions r) ↔
    (n ∈ files.flatMap definedNames →
      n ∈ definedNames file ∨ n ≠ "decimal64" ∧ Reaches keeps files file n) := by
  by_cases hn : n = "decimal64"
  · have hrefs : (typeStmt (tablesOf keeps files keys) (moduleName file) n).refs
        = [⟨none, n⟩] := by
      rw [typeStmt, if_pos hn, hn]
      rfl
    rw [hrefs, List.forall_mem_singleton]
    refine imp_congr_right fun _ => ?_
    constructor
    · rintro (⟨h⟩ | _)
      exact .inl (definitions_renderFile file ▸ h)
    · rintro (hmem | ⟨hne, -⟩)
      · exact .here (definitions_renderFile file ▸ hmem)
      · exact absurd hn hne
  · have hrefs : (typeStmt (tablesOf keeps files keys) (moduleName file) n).refs
        = setModulePrefix (tablesOf keeps files keys) (moduleName file) n := by
      rw [typeStmt, if_neg hn]
      rfl
    rw [hrefs]
    have hname : (∀ r ∈ setModulePrefix (tablesOf keeps files keys) (moduleName file) n,
          r.name ∈ files.flatMap definedNames → Resolves (files.map (renderFile keeps files keys))
            (renderFile keeps files keys file) Module.definitions r) ↔
        (n ∈ files.flatMap definedNames →
          ∀ r ∈ setModulePrefix (tablesOf keeps files keys) (moduleName file) n,
            Resolves (files.map (renderFile keeps files keys)) (renderFile keeps files keys file)
              Module.definitions r) := by
      constructor
      · intro hall hmem r hr
        exact hall r hr (name_of_mem_setModulePrefix hr ▸ hmem)
      · intro hall r hr hmem
        exact hall (name_of_mem_setModulePrefix hr ▸ hmem) r hr
    rw [hname]
    refine imp_congr_right fun hmem => ?_
    rw [h.resolves_iff hf hmem fun f _ => by rw [definitions_renderFile]]
    exact ⟨fun hr => .inr ⟨hn, hr⟩, fun hr => hr.elim .inl And.right⟩

theorem Valid.types_iff (h : Valid files) :
    (∀ x ∈ files.map (renderFile keeps files keys), ∀ r ∈ x.types,
      r.name ∈ files.flatMap definedNames →
        Resolves (files.map (renderFile keeps files keys)) x Module.definitions r) ↔
    ∀ file ∈ files, ∀ n ∈ typeNames file, n ∈ files.flatMap definedNames →
      n ∈ definedNames file ∨ n ≠ "decimal64" ∧ Reaches keeps files file n := by
  rw [List.forall_mem_map]
  refine forall_congr' fun file => forall_congr' fun hfile => ?_
  constructor
  · intro hall n hn
    exact (h.typeStmt_iff hfile).mp fun r hr => hall r ((h.mem_types hfile).mpr ⟨n, hn, hr⟩)
  · intro hall r hr
    obtain ⟨n, hn, hr⟩ := (h.mem_types hfile).mp hr
    exact (h.typeStmt_iff hfile).mpr (hall n hn) r hr

/-- 何も失われないのは、次のときに限る。key の検索が上限までに終わる。message の field がどれも一段目の
message を指す。書く名前がどれも、同じ file にあるか、import した別の module の一段目にある。 -/
theorem yang_lossless_iff (h : Valid files) :
    Lossless keeps limit files ↔ NothingLost keeps limit files := by
  constructor
  · rintro ⟨modules, hgen, hfields, huses, htypes⟩
    obtain ⟨keys, hkeys, rfl⟩ := generateCode_ok_iff.mp hgen
    have hitems := map_fst_withKeys keeps hkeys
    have hlost := (h.fields_iff hitems).mp hfields
    exact ⟨(setMessagesKeys_ok_iff _ _ _).mp ⟨keys, hkeys⟩, hlost,
      (h.uses_iff hitems hlost).mp huses, h.types_iff.mp htypes⟩
  · rintro ⟨hfound, hlost, huses, htypes⟩
    obtain ⟨keys, hkeys⟩ := (setMessagesKeys_ok_iff _ _ _).mpr hfound
    have hitems := map_fst_withKeys keeps hkeys
    exact ⟨_, generateCode_ok_iff.mpr ⟨keys, hkeys, rfl⟩, (h.fields_iff hitems).mpr hlost,
      (h.uses_iff hitems hlost).mpr huses, h.types_iff.mpr htypes⟩

/-- 注文の file は、品目の file を import する。 -/
def orderFiles : List FileDescriptor := [
  { name := "item.proto", package := none, enumType := [], service := [],
    messageType := [.mk "Item" [⟨"name", false, .string, "", none⟩] [] [] false none] },
  { name := "order.proto", package := none, enumType := [], service := [],
    messageType := [.mk "Order" [⟨"id", false, .int32, "", none⟩,
      ⟨"items", true, .message, ".Item", none⟩] [] [] false none] }]

/-- `inner` の型は入れ子の message である。 -/
def nestedFiles : List FileDescriptor := [
  { name := "outer.proto", package := none, enumType := [], service := [],
    messageType := [.mk "Outer" [⟨"inner", false, .message, ".Outer.Inner", none⟩]
      [.mk "Inner" [⟨"a", false, .string, "", none⟩] [] [] false none] [] false none] }]

theorem valid_orderFiles : Valid orderFiles := by
  constructor <;> decide +kernel

theorem valid_nestedFiles : Valid nestedFiles := by
  constructor <;> decide +kernel

theorem yang_lossless_orders : Lossless true 1000 orderFiles := by
  refine (yang_lossless_iff valid_orderFiles).mpr ⟨?_, by decide +kernel, ?_, ?_⟩
  · exact (setMessagesKeys_ok_iff _ _ _).mp ⟨[some "name", some "id"], by decide +kernel⟩
  · simp only [Reaches, Imports]
    decide +kernel
  · simp only [Reaches, Imports]
    decide +kernel

/-- 入れ子の message を指す field は、node にならない。 -/
theorem yang_field_lost : ¬Lossless true 1000 nestedFiles := by
  rintro ⟨modules, hgen, hfields, -, -⟩
  obtain ⟨keys, hkeys, rfl⟩ := generateCode_ok_iff.mp hgen
  have hlost := (valid_nestedFiles.fields_iff (map_fst_withKeys true hkeys)).mp hfields
  revert hlost
  decide +kernel

end Generate

end Voltha.Netconf.Yang
