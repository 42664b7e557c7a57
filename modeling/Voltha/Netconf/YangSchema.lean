import Mathlib.Data.List.Dedup
import Mathlib.Data.List.Flatten
import Mathlib.Data.List.Nodup
import Voltha.Netconf.YangKeys

/-!
# YANG の参照と定義

参照の prefix と import は、一段目の型の表 `data_types` から決まる。入れ子の型は表に無いので、別の module
からは名前だけを書かれ、定義に着かない。

* `Resolves` — 参照の prefix が選ぶ module に、定義がある
* `Reaches` — その file から名前を書いて、定義に着く
* `Valid.resolves_iff` — 一つの名前について、二つは一致する
-/

namespace Voltha.Netconf.Yang

open Voltha.Chameleon (FieldType Field EnumType MessageType Method Service FileDescriptor)

/-! ## 記述の側 -/

def moduleName (file : FileDescriptor) : String := (traverseDesc file).name

/-- 入れ子も入れた message の全部。 -/
def allMessages (file : FileDescriptor) : List MessageType := flattenAll file.messageType

def messageNames (file : FileDescriptor) : List String := (allMessages file).map MessageType.name

def enumNames (file : FileDescriptor) : List String :=
  file.enumType.map EnumType.name ++
    (allMessages file).flatMap fun m => m.enumType.map EnumType.name

def definedNames (file : FileDescriptor) : List String := messageNames file ++ enumNames file

/-- 一段目の message と enum の名前。 -/
def topNames (file : FileDescriptor) : List String :=
  file.messageType.map MessageType.name ++ file.enumType.map EnumType.name

/-- method の入力と出力の型。 -/
def methodTypes (file : FileDescriptor) : List String :=
  file.service.flatMap fun s => s.method.flatMap fun method => [method.inputType, method.outputType]

/-- 名前が互いに違い、field と method の型がどれもどこかにある。 -/
structure Valid (files : List FileDescriptor) : Prop where
  nodup : (files.flatMap definedNames).Nodup
  members : ∀ file ∈ files, ∀ m ∈ allMessages file,
    (m.field.map Field.name ++ m.nestedType.map MessageType.name).Nodup
  messageTypes : ∀ file ∈ files, ∀ m ∈ allMessages file, ∀ f ∈ m.field,
    f.type ∈ [.message, .group] → lastPart '.' f.typeName ∈ files.flatMap messageNames
  enumTypes : ∀ file ∈ files, ∀ m ∈ allMessages file, ∀ f ∈ m.field,
    f.type = .enum → lastPart '.' f.typeName ∈ files.flatMap enumNames
  methods : ∀ file ∈ files, ∀ type ∈ methodTypes file,
    type.toList.head? = some '.' ∧ lastPart '.' type ∈ files.flatMap messageNames

/-! ## module の側 -/

namespace Block

def grouping : Block → Bool | mk g _ _ _ _ => g

def name : Block → String | mk _ n _ _ _ => n

def nodes : Block → List Node | mk _ _ n _ _ => n

def typedefs : Block → List String | mk _ _ _ t _ => t

def blocks : Block → List Block | mk _ _ _ _ b => b

mutual

/-- node と、入れ子の node の全部。 -/
def flatten : Block → List Block
  | mk grouping name nodes typedefs blocks => mk grouping name nodes typedefs blocks ::
    flattenAll blocks

def flattenAll : List Block → List Block
  | [] => []
  | b :: bs => flatten b ++ flattenAll bs

end

end Block

def Node.name : Node → String
  | .container name _ => name
  | .list name _ _ => name
  | .leafList name _ => name
  | .leaf name _ => name

/-- 中の leaf と list と container の名前。 -/
def Block.children (b : Block) : List String :=
  b.nodes.map Node.name ++ (b.blocks.filter fun x => !x.grouping).map Block.name

def TypeStmt.refs : TypeStmt → List TypeRef
  | .decimal64 => [⟨none, "decimal64"⟩]
  | .named refs => refs

def Node.uses : Node → List TypeRef
  | .container _ uses => uses
  | .list _ _ uses => uses
  | .leafList .. => []
  | .leaf .. => []

def Node.types : Node → List TypeRef
  | .container .. => []
  | .list .. => []
  | .leafList _ type => type.refs
  | .leaf _ type => type.refs

def RpcBody.usesRefs : RpcBody → List TypeRef
  | .uses refs => refs
  | .leaf .. => []

def RpcBody.typeRefs : RpcBody → List TypeRef
  | .uses _ => []
  | .leaf _ type => type

namespace Module

def allBlocks (m : Module) : List Block := Block.flattenAll m.blocks

def uses (m : Module) : List TypeRef :=
  (m.allBlocks.flatMap fun b => b.nodes.flatMap Node.uses) ++
    m.rpcs.flatMap fun rpc => rpc.input.usesRefs ++ rpc.output.usesRefs

def types (m : Module) : List TypeRef :=
  (m.allBlocks.flatMap fun b => b.nodes.flatMap Node.types) ++
    m.rpcs.flatMap fun rpc => rpc.input.typeRefs ++ rpc.output.typeRefs

def groupings (m : Module) : List String := (m.allBlocks.filter Block.grouping).map Block.name

/-- message と enum の定義の名前。 -/
def definitions (m : Module) : List String :=
  m.allBlocks.map Block.name ++ (m.typedefs ++ m.allBlocks.flatMap Block.typedefs)

end Module

/-- prefix の選ぶ module に、`r` の定義がある。別の module なら import してある。 -/
inductive Resolves (modules : List Module) (m : Module) (defs : Module → List String) :
    TypeRef → Prop where
  | here {n : String} (h : n ∈ defs m) : Resolves modules m defs ⟨none, n⟩
  | imported {m' : Module} {n : String} (hi : m'.name ∈ m.imports) (hm : m' ∈ modules)
    (h : n ∈ defs m') : Resolves modules m defs ⟨some m'.name, n⟩

/-! ## 条件 -/

/-- `uses` に書く名前。 -/
def usesNames (file : FileDescriptor) : List String :=
  ((allMessages file).flatMap fun m =>
    (m.field.filter fun f => !isBaseType f.type).map getYangType) ++
      (methodTypes file).map (lastPart '.')

/-- `type` に書く名前。 -/
def typeNames (file : FileDescriptor) : List String :=
  (allMessages file).flatMap fun m => (m.field.filter fun f => isBaseType f.type).map getYangType

/-- `file` の module が、`p` という module を import する。 -/
def Imports (files : List FileDescriptor) (file : FileDescriptor) (p : String) : Prop :=
  ∃ f ∈ files, moduleName f = p ∧ ∃ n ∈ (traverseDesc file).referencedMessages, n ∈ topNames f

/-- `n` は同じ file にあるか、import した file の一段目にある。`keeps` でなければ、そのうちで最後の型。 -/
def Reaches (keeps : Bool) (files : List FileDescriptor) (file : FileDescriptor) (n : String) :
    Prop :=
  n ∈ definedNames file ∨
    ∃ f ∈ files, n ∈ topNames f ∧ moduleName f ≠ moduleName file ∧
      Imports files file (moduleName f) ∧
      (keeps = true ∨ (files.flatMap topNames).getLast? = some n)

/-! ## 名前 -/

variable {files : List FileDescriptor} {file : FileDescriptor} {n : String}

theorem flatten_eq_cons (m : MessageType) : flatten m = m :: flattenAll m.nestedType := by
  cases m
  rfl

/-- 一段目の message の名前は、全部の名前の中に順に並ぶ。 -/
theorem map_name_sublist (ms : List MessageType) :
    List.Sublist (ms.map MessageType.name) ((flattenAll ms).map MessageType.name) := by
  induction ms with
  | nil => simp [flattenAll]
  | cons m ms ih =>
    rw [flattenAll, flatten_eq_cons, List.map_append, List.map_cons, List.map_cons]
    exact (ih.trans (List.sublist_append_right _ _)).cons_cons _

theorem topNames_sublist (file : FileDescriptor) :
    List.Sublist (topNames file) (definedNames file) :=
  (map_name_sublist file.messageType).append (List.sublist_append_left _ _)

theorem mem_definedNames_of_top (h : n ∈ topNames file) : n ∈ definedNames file :=
  (topNames_sublist file).subset h

theorem Valid.nodup_top (h : Valid files) : (files.flatMap topNames).Nodup :=
  h.nodup.sublist (List.Sublist.flatMap_right _ fun file _ => topNames_sublist file)

theorem Valid.file_eq (h : Valid files) {f f' : FileDescriptor} (hf : f ∈ files) (hf' : f' ∈ files)
    (hn : n ∈ definedNames f) (hn' : n ∈ definedNames f') : f = f' :=
  Py.eq_of_mem_names h.nodup hf hf' hn hn'

theorem Valid.nodup_messageNames (h : Valid files) (hf : file ∈ files) :
    (messageNames file).Nodup :=
  (List.nodup_append.mp ((List.nodup_flatMap.mp h.nodup).1 file hf)).1

/-- 中の型の名前があれば、一段目にも名前がある。 -/
theorem topNames_ne_nil (h : n ∈ definedNames file) : topNames file ≠ [] := by
  intro hnil
  obtain ⟨hm, he⟩ := List.append_eq_nil_iff.mp hnil
  have hm : file.messageType = [] := List.map_eq_nil_iff.mp hm
  simp [definedNames, messageNames, enumNames, allMessages, hm, he, flattenAll] at h

/-! ## 表 -/

section Tables

variable {keeps : Bool} {keys : List (Option String)} {t : DataType}

/-- この file の並びの表。 -/
def tablesOf (keeps : Bool) (files : List FileDescriptor) (keys : List (Option String)) : Tables :=
  tables keeps (files.map traverseDesc) keys

theorem traverseMessages_eq_map (ms : List MessageType) :
    traverseMessages ms = ms.map traverseMessage := by
  induction ms with
  | nil => rfl
  | cons m ms ih => rw [traverseMessages, ih, List.map_cons]

theorem name_traverseMessage (m : MessageType) : (traverseMessage m).name = m.name := by
  cases m
  rfl

theorem definedTypes_traverseDesc (file : FileDescriptor) :
    (traverseDesc file).definedTypes = topNames file := by
  simp [traverseDesc, topNames, traverseMessages_eq_map, name_traverseMessage,
    Function.comp_def]

theorem dataTypes_eq : (tablesOf keeps files keys).dataTypes
    = files.flatMap fun f => (topNames f).map fun n => ⟨n, moduleName f⟩ := by
  simp [tablesOf, tables, allDefinedTypes, List.flatMap_map, definedTypes_traverseDesc, moduleName]

theorem mem_dataTypes : t ∈ (tablesOf keeps files keys).dataTypes ↔
    ∃ f ∈ files, t.type ∈ topNames f ∧ t.module = moduleName f := by
  rw [dataTypes_eq]
  simp only [List.mem_flatMap, List.mem_map]
  constructor
  · rintro ⟨f, hf, n, hn, rfl⟩
    exact ⟨f, hf, hn, rfl⟩
  · rintro ⟨f, hf, hn, hm⟩
    exact ⟨f, hf, t.type, hn, by rw [← hm]⟩

theorem map_type_dataTypes (keeps : Bool) (files : List FileDescriptor)
    (keys : List (Option String)) :
    (tablesOf keeps files keys).dataTypes.map DataType.type = files.flatMap topNames := by
  simp [dataTypes_eq, List.map_flatMap, Function.comp_def]

theorem Valid.dataType_unique (h : Valid files) {t' : DataType}
    (ht : t ∈ (tablesOf keeps files keys).dataTypes)
    (ht' : t' ∈ (tablesOf keeps files keys).dataTypes) (heq : t.type = t'.type) : t = t' := by
  have hnodup := h.nodup_top
  rw [← map_type_dataTypes keeps files keys] at hnodup
  exact List.inj_on_of_nodup_map hnodup ht ht' heq

/-- import するのは、記録された型を一段目に持つ、別の module である。 -/
theorem Valid.mem_moduleImports (h : Valid files) {p : String} :
    p ∈ moduleImports (tablesOf keeps files keys).dataTypes (traverseDesc file) ↔
      p ≠ moduleName file ∧ Imports files file p := by
  simp only [moduleImports, List.mem_dedup, List.mem_filterMap, Option.bind_eq_some_iff,
    Option.ite_none_right_eq_some, Option.some.injEq]
  constructor
  · rintro ⟨n, hn, t, hfind, hne, rfl⟩
    obtain ⟨f, hf, htop, hm⟩ := mem_dataTypes.mp (List.mem_of_find?_eq_some hfind)
    have htype : t.type = n := by simpa using List.find?_some hfind
    exact ⟨hne.symm, f, hf, hm.symm, n, hn, htype ▸ htop⟩
  · rintro ⟨hne, f, hf, rfl, n, hn, htop⟩
    have hmem : ⟨n, moduleName f⟩ ∈ (tablesOf keeps files keys).dataTypes :=
      mem_dataTypes.mpr ⟨f, hf, htop, rfl⟩
    cases hfind : (tablesOf keeps files keys).dataTypes.find? fun t => t.type = n with
    | none => exact absurd (decide_eq_true rfl) (List.find?_eq_none.mp hfind _ hmem)
    | some t =>
      have htype : t.type = n := by simpa using List.find?_some hfind
      have ht : t = ⟨n, moduleName f⟩ :=
        h.dataType_unique (List.mem_of_find?_eq_some hfind) hmem htype
      exact ⟨n, hn, t, hfind, by rw [ht]; exact hne.symm, by rw [ht]⟩

/-- 最後の周までに、型が見つかったことになっているか。 -/
def Found (keeps : Bool) (n : String) (found : Bool) (l : List DataType) : Prop :=
  l.getLast?.map DataType.type = some n ∨
    keeps = true ∧ (found = true ∨ ∃ t ∈ l, t.type = n)

theorem found_singleton {t : DataType} {found : Bool} : Found keeps n found [t] ↔
    (decide (t.type = n) || (keeps && found)) = true := by
  simp only [Found, List.getLast?_singleton, Option.map_some, Option.some.injEq,
    List.mem_singleton, exists_eq_left, Bool.or_eq_true, decide_eq_true_eq, Bool.and_eq_true]
  tauto

theorem found_cons {t t' : DataType} {found : Bool} {rest : List DataType} :
    Found keeps n found (t :: t' :: rest) ↔
      Found keeps n (decide (t.type = n) || (keeps && found)) (t' :: rest) := by
  simp only [Found, List.getLast?_cons_cons, List.exists_mem_cons_iff, Bool.or_eq_true,
    decide_eq_true_eq, Bool.and_eq_true]
  tauto

/-- macro は、表に載っている module の名前と、見つからないときの名前だけとを書く。 -/
theorem mem_prefixLoop {module : String} {r : TypeRef} {l : List DataType} :
    ∀ {found : Bool}, r ∈ prefixLoop keeps module n found l ↔
      (∃ t ∈ l, t.type = n ∧ r = ⟨if t.module ≠ module then some t.module else none, n⟩) ∨
        (l ≠ [] ∧ ¬Found keeps n found l ∧ r = ⟨none, n⟩) := by
  induction l with
  | nil => simp [prefixLoop]
  | cons t rest ih =>
    intro found
    simp only [prefixLoop, List.mem_append, ih, List.exists_mem_cons_iff]
    cases rest with
    | nil => simp [found_singleton, ← Bool.not_eq_true, imp_iff_not_or]
    | cons t' rest => simp [found_cons, or_assoc]

theorem found_dataTypes : Found keeps n false (tablesOf keeps files keys).dataTypes ↔
    (files.flatMap topNames).getLast? = some n ∨
      keeps = true ∧ ∃ f ∈ files, n ∈ topNames f := by
  have hmem : (∃ t ∈ (tablesOf keeps files keys).dataTypes, t.type = n) ↔
      ∃ f ∈ files, n ∈ topNames f := by
    rw [← List.mem_flatMap, ← map_type_dataTypes keeps files keys, List.mem_map]
  simp only [Found, ← List.getLast?_map, map_type_dataTypes, hmem, Bool.false_eq_true, false_or]

theorem mem_setModulePrefix {module : String} {r : TypeRef} :
    r ∈ setModulePrefix (tablesOf keeps files keys) module n ↔
      (∃ f ∈ files, n ∈ topNames f ∧
        r = ⟨if moduleName f ≠ module then some (moduleName f) else none, n⟩) ∨
      ((tablesOf keeps files keys).dataTypes ≠ [] ∧
        ¬Found keeps n false (tablesOf keeps files keys).dataTypes ∧ r = ⟨none, n⟩) := by
  have hlisted : (∃ t ∈ (tablesOf keeps files keys).dataTypes, t.type = n ∧
        r = ⟨if t.module ≠ module then some t.module else none, n⟩) ↔
      ∃ f ∈ files, n ∈ topNames f ∧
        r = ⟨if moduleName f ≠ module then some (moduleName f) else none, n⟩ := by
    constructor
    · rintro ⟨t, ht, rfl, rfl⟩
      obtain ⟨f, hf, htop, hm⟩ := mem_dataTypes.mp ht
      exact ⟨f, hf, htop, by rw [hm]⟩
    · rintro ⟨f, hf, htop, rfl⟩
      exact ⟨⟨n, moduleName f⟩, mem_dataTypes.mpr ⟨f, hf, htop, rfl⟩, rfl, rfl⟩
  rw [← hlisted]
  exact mem_prefixLoop

end Tables

/-! ## 参照先 -/

section Resolve

variable {keeps : Bool} {keys : List (Option String)} {defs : Module → List String}

def renderFile (keeps : Bool) (files : List FileDescriptor) (keys : List (Option String))
    (file : FileDescriptor) : Module :=
  renderModule (tablesOf keeps files keys) (traverseDesc file)

theorem Resolves.mem_imports {modules : List Module} {m : Module} {p : String}
    (h : Resolves modules m defs ⟨some p, n⟩) : p ∈ m.imports := by
  cases h with
  | imported hi => exact hi

theorem Valid.mem_imports (h : Valid files) {p : String} :
    p ∈ (renderFile keeps files keys file).imports ↔ p ≠ moduleName file ∧ Imports files file p :=
  h.mem_moduleImports

/-- 定義を名前で引けるなら、参照先がそろうのは、そこから定義に着くときに限る。 -/
theorem Valid.resolves_iff (h : Valid files) (hf : file ∈ files)
    (hn : n ∈ files.flatMap definedNames)
    (hdefs : ∀ f ∈ files, n ∈ defs (renderFile keeps files keys f) ↔ n ∈ definedNames f) :
    (∀ r ∈ setModulePrefix (tablesOf keeps files keys) (moduleName file) n,
      Resolves (files.map (renderFile keeps files keys)) (renderFile keeps files keys file)
        defs r) ↔ Reaches keeps files file n := by
  by_cases hhere : n ∈ definedNames file
  · refine iff_of_true ?_ (.inl hhere)
    intro r hr
    rcases mem_setModulePrefix.mp hr with ⟨f, hf', htop, rfl⟩ | ⟨-, -, rfl⟩
    · rw [h.file_eq hf' hf (mem_definedNames_of_top htop) hhere, if_neg (by simp)]
      exact .here ((hdefs file hf).mpr hhere)
    · exact .here ((hdefs file hf).mpr hhere)
  · have hnone : ¬Resolves (files.map (renderFile keeps files keys))
        (renderFile keeps files keys file) defs ⟨none, n⟩ := by
      rintro (⟨h⟩ | _)
      exact hhere ((hdefs file hf).mp h)
    constructor
    · intro hall
      -- prefix の無い参照は着かないので、見つからないまま終わることはない
      have hfound : Found keeps n false (tablesOf keeps files keys).dataTypes := by
        by_contra hnot
        refine hnone (hall _ (mem_setModulePrefix.mpr (.inr ⟨?_, hnot, rfl⟩)))
        obtain ⟨g, hg, hng⟩ := List.mem_flatMap.mp hn
        obtain ⟨t, ht⟩ := List.exists_mem_of_ne_nil _ (topNames_ne_nil hng)
        exact List.ne_nil_of_mem (mem_dataTypes (t := ⟨t, moduleName g⟩).mpr ⟨g, hg, ht, rfl⟩)
      rw [found_dataTypes] at hfound
      have htop : ∃ f ∈ files, n ∈ topNames f := by
        rcases hfound with hlast | ⟨-, htop⟩
        · exact List.mem_flatMap.mp (List.mem_of_getLast? hlast)
        · exact htop
      obtain ⟨f, hf', htop⟩ := htop
      have hr := hall _ (mem_setModulePrefix.mpr (.inl ⟨f, hf', htop, rfl⟩))
      have hne : moduleName f ≠ moduleName file := by
        intro heq
        rw [if_neg (by simp [heq])] at hr
        exact hnone hr
      rw [if_pos hne] at hr
      exact .inr ⟨f, hf', htop, hne, (h.mem_imports.mp hr.mem_imports).2,
        hfound.symm.imp_left And.left⟩
    · rintro (hn | ⟨f, hf', htop, hne, himp, hlast⟩)
      · exact absurd hn hhere
      · intro r hr
        rcases mem_setModulePrefix.mp hr with ⟨f', hf'', htop', rfl⟩ | ⟨-, hnot, -⟩
        · have hff : f' = f :=
            h.file_eq hf'' hf' (mem_definedNames_of_top htop') (mem_definedNames_of_top htop)
          have hresolves : Resolves (files.map (renderFile keeps files keys))
              (renderFile keeps files keys file) defs
              ⟨some (renderFile keeps files keys f).name, n⟩ :=
            .imported (h.mem_imports.mpr ⟨hne, himp⟩) (List.mem_map_of_mem hf')
              ((hdefs f hf').mpr (mem_definedNames_of_top htop))
          rw [hff, if_pos hne]
          exact hresolves
        · refine absurd (found_dataTypes.mpr ?_) hnot
          exact hlast.symm.imp_right fun hk => ⟨hk, f, hf', htop⟩

end Resolve

end Voltha.Netconf.Yang
