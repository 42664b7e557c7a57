import Mathlib.Data.List.Dedup
import Voltha.Chameleon.SwaggerTemplate
import Voltha.Lib.Exec

/-!
# swagger の参照

`definitions` の key は、method の入力と出力の型から **記録された参照** をたどって着く型全部である。一方
`$ref` は、記録されない map の値の型も指す。二つが一致するのは、map の値の型にも記録された参照だけで
着くときに限る。

* `Field.Targets` — property に `$ref` として現れる型
* `Field.Records` — そのうち `referenced` に記録される型。map の値は記録されない
-/

namespace Voltha.Chameleon

open Py Fallible

variable {types : List (String × TypeDesc)} {f : Field} {b : String}

/-! ## field の指す型 -/

/-- 記録される参照。 -/
inductive Field.Records (types : List (String × TypeDesc)) (f : Field) : String → Prop where
  | enum (h : f.type = .enum) : Records types f (stripDots f.typeName)
  | message (h : f.type = .message)
    (hmap : mapValueField types (stripDots f.typeName) = .ok none)
    (ht : stripDots f.typeName ≠ "google.protobuf.Timestamp") :
    Records types f (stripDots f.typeName)

/-- 現れる参照。map なら、値の field の指す型である。 -/
inductive Field.Targets (types : List (String × TypeDesc)) : Field → String → Prop where
  | plain {f : Field} {b : String} (h : f.Records types b) : Targets types f b
  | mapValue {f value : Field} {b : String} (h : f.type = .message)
    (hmap : mapValueField types (stripDots f.typeName) = .ok (some value))
    (hv : Targets types value b) : Targets types f b

/-- 型の field が指す。 -/
def Refers (types : List (String × TypeDesc)) (a b : String) : Prop :=
  ∃ m, types.lookup a = some (.message m) ∧ ∃ f ∈ m.field, f.Targets types b

/-- 型の、map でない field が指す。 -/
def RefersPlainly (types : List (String × TypeDesc)) (a b : String) : Prop :=
  ∃ m, types.lookup a = some (.message m) ∧ ∃ f ∈ m.field, f.Records types b

/-- `roots` から参照をたどって着く。 -/
def Reachable (types : List (String × TypeDesc)) (roots : List String) (k : String) : Prop :=
  ∃ r ∈ roots, Relation.ReflTransGen (Refers types) r k

/-- `roots` から、map でない field の参照だけをたどって着く。 -/
def ReachablePlainly (types : List (String × TypeDesc)) (roots : List String) (k : String) : Prop :=
  ∃ r ∈ roots, Relation.ReflTransGen (RefersPlainly types) r k

/-! ## 現れる `$ref` -/

def Property.refs : Property → List String
  | .scalar .. => []
  | .ref r => [r]
  | .object p => p.refs
  | .array p => p.refs
  | .described p _ => p.refs

def Definition.refs : Definition → List String
  | .object properties _ => properties.flatMap fun p => p.2.refs
  | .enum .. => []

def Parameter.refs : Parameter → List String
  | .path .. => []
  | .body schema => [schema]

def Entry.refs (e : Entry) : List String := e.response :: e.parameters.flatMap Parameter.refs

def Paths.refs (paths : Paths) : List String :=
  paths.flatMap fun p => p.2.flatMap fun v => v.2.refs

def Swagger.refs (s : Swagger) : List String :=
  Paths.refs s.paths ++ s.definitions.flatMap fun d => d.2.refs

/-! ## 一つの型 -/

/-- 包んでも、現れる参照は変わらない。 -/
theorem refs_finishProperty (repeated : Bool) (description : Option String) (p : Property) :
    (finishProperty repeated description p).refs = p.refs := by
  cases description <;> cases repeated <;> rfl

/-- message でも enum でもない field は、何も参照しない。 -/
theorem not_records_scalar (hm : f.type ≠ .message) (he : f.type ≠ .enum) :
    ¬f.Records types b := by
  rintro (⟨h⟩ | ⟨h, -, -⟩)
  · exact he h
  · exact hm h

/-- `bareProperty` の property に現れる参照と、記録される参照。 -/
theorem bareProperty_ok {make : Field → Except SwaggerError (String × Property × List String)}
    (hmake : ∀ value n p rs, make value = .ok (n, p, rs) →
      ∀ r ∈ p.refs, ∃ b, value.Targets types b ∧ r = definitionRef b)
    {p : Property} {rs : List String} {repeated : Bool}
    (h : bareProperty types make f = .ok (p, rs, repeated)) :
    (∀ r ∈ p.refs, ∃ b, f.Targets types b ∧ r = definitionRef b) ∧
      ∀ b, b ∈ rs ↔ f.Records types b := by
  unfold bareProperty at h
  split at h
  · next hty =>
    obtain ⟨found, hmap, h⟩ := bind_eq_ok.mp h
    cases found with
    | some value =>
      obtain ⟨⟨n, p', rs'⟩, hvalue, h⟩ := bind_eq_ok.mp h
      cases h
      constructor
      · intro r hr
        obtain ⟨b, hb, rfl⟩ := hmake _ _ _ _ hvalue r hr
        exact ⟨b, .mapValue hty hmap hb, rfl⟩
      · intro b
        refine iff_of_false (by simp) ?_
        rintro (⟨h⟩ | ⟨-, hnone, -⟩)
        · rw [hty] at h
          cases h
        · rw [hmap] at hnone
          cases hnone
    | none =>
      simp only at h
      split at h
      · next ht =>
        cases h
        constructor
        · nofun
        · intro b
          refine iff_of_false (by simp) ?_
          rintro (⟨h⟩ | ⟨-, -, hne⟩)
          · rw [hty] at h
            cases h
          · exact hne ht
      · next ht =>
        cases h
        have hrec : f.Records types (stripDots f.typeName) := .message hty hmap ht
        constructor
        · intro r hr
          exact ⟨_, .plain hrec, List.mem_singleton.mp hr⟩
        · intro b
          rw [List.mem_singleton]
          constructor
          · rintro rfl
            exact hrec
          · rintro (⟨h⟩ | ⟨-, -, -⟩) <;> rfl
  · next hty =>
    cases h
    constructor
    · intro r hr
      exact ⟨_, .plain (.enum hty), List.mem_singleton.mp hr⟩
    · intro b
      rw [List.mem_singleton]
      constructor
      · rintro rfl
        exact .enum hty
      · rintro (⟨h⟩ | ⟨-, -, -⟩) <;> rfl
  · cases h
  · next hm he _ =>
    split at h
    · cases h
      exact ⟨nofun, fun b => iff_of_false (by simp) (not_records_scalar hm he)⟩
    · cases h

/-- property に現れる参照と、記録される参照。 -/
theorem makeProperty_ok {limit : Nat} {n : String} {p : Property} {rs : List String}
    (h : makeProperty types limit f = .ok (n, p, rs)) :
    (∀ r ∈ p.refs, ∃ b, f.Targets types b ∧ r = definitionRef b) ∧
      ∀ b, b ∈ rs ↔ f.Records types b := by
  induction limit generalizing f n p rs with
  | zero => cases h
  | succ limit ih =>
    obtain ⟨⟨property, referenced, repeated⟩, hbare, h⟩ := bind_eq_ok.mp h
    cases h
    rw [refs_finishProperty]
    exact bareProperty_ok (fun _ _ _ _ hvalue => (ih hvalue).1) hbare

/-- object の定義に現れる参照と、記録される参照。 -/
theorem makeObjectDefinition_ok {limit : Nat} {m : MessageType} {d : Definition}
    {rs : List String} (h : makeObjectDefinition types limit m = .ok (d, rs)) :
    (∀ r ∈ d.refs, ∃ f ∈ m.field, ∃ b, f.Targets types b ∧ r = definitionRef b) ∧
      ∀ b, b ∈ rs ↔ ∃ f ∈ m.field, f.Records types b := by
  obtain ⟨made, hmade, h⟩ := bind_eq_ok.mp h
  cases h
  obtain ⟨hof, hto⟩ := mem_of_mapM hmade
  constructor
  · intro r hr
    obtain ⟨q, hq, hr⟩ := List.mem_flatMap.mp hr
    obtain ⟨⟨n, p, rs⟩, hmem, rfl⟩ := List.mem_map.mp (OrderedDict.mem_ofList q hq)
    obtain ⟨f, hf, hok⟩ := hof _ hmem
    exact ⟨f, hf, (makeProperty_ok hok).1 r hr⟩
  · intro b
    rw [List.mem_flatMap]
    constructor
    · rintro ⟨⟨n, p, rs⟩, hmem, hb⟩
      obtain ⟨f, hf, hok⟩ := hof _ hmem
      exact ⟨f, hf, ((makeProperty_ok hok).2 b).mp hb⟩
    · rintro ⟨f, hf, hb⟩
      obtain ⟨⟨n, p, rs⟩, hmem, hok⟩ := hto f hf
      exact ⟨_, hmem, ((makeProperty_ok hok).2 b).mpr hb⟩

/-- 型の定義に現れる参照と、記録される参照。 -/
theorem visitType_ok {limit : Nat} {a : String} {d : Definition} {rs : List String}
    (h : visitType types limit a = .ok (d, rs)) :
    (∀ r ∈ d.refs, ∃ b, Refers types a b ∧ r = definitionRef b) ∧
      ∀ b, b ∈ rs ↔ RefersPlainly types a b := by
  obtain ⟨type, htype, h⟩ := bind_eq_ok.mp h
  have hlookup : types.lookup a = some type := by
    unfold getItem at htype
    split at htype
    · next hl => cases htype; exact hl
    · cases htype
  cases type with
  | enum e =>
    obtain ⟨definition, hd, h⟩ := bind_eq_ok.mp h
    cases h
    have hnone : ∀ b, ¬RefersPlainly types a b := by
      rintro b ⟨m, hm, -⟩
      rw [hlookup] at hm
      cases hm
    unfold makeEnumDefinition at hd
    split at hd
    · cases hd
    · cases hd
      exact ⟨nofun, fun b => iff_of_false (by simp) (hnone b)⟩
  | message m =>
    obtain ⟨hrefs, hrec⟩ := makeObjectDefinition_ok h
    constructor
    · intro r hr
      obtain ⟨f, hf, b, hb, rfl⟩ := hrefs r hr
      exact ⟨b, ⟨m, hlookup, f, hf, hb⟩, rfl⟩
    · intro b
      rw [hrec]
      constructor
      · exact fun hb => ⟨m, hlookup, hb⟩
      · rintro ⟨m', hm', hb⟩
        rw [hlookup] at hm'
        cases hm'
        exact hb

/-! ## 定義の全体 -/

section Definitions

variable {choice : List String → Nat} {limit : Nat} {roots : List String}
variable {definitions : List (String × Definition)}

theorem generateDefinitions_inv (hn : roots.Nodup)
    (h : generateDefinitions types choice limit roots = .ok definitions) :
    Worklist.Inv (visitType types limit) roots definitions [] :=
  (Worklist.inv_init hn).run h

/-- 定義される型は、記録された参照をたどって着く型全部である。 -/
theorem mem_definitions_iff (hn : roots.Nodup)
    (h : generateDefinitions types choice limit roots = .ok definitions) (k : String) :
    k ∈ definitions.map Prod.fst ↔ ReachablePlainly types roots k := by
  have hinv := generateDefinitions_inv hn h
  constructor
  · intro hk
    obtain ⟨r, hr, hpath⟩ := hinv.mem_keys_iff.mp hk
    refine ⟨r, hr, hpath.lift id fun a b hf => ?_⟩
    obtain ⟨d, found, hv, hb⟩ := hf
    exact ((visitType_ok hv).2 b).mp hb
  · rintro ⟨r, hr, hpath⟩
    induction hpath with
    | refl => exact hinv.mem_keys_iff.mpr ⟨r, hr, .refl⟩
    | tail _ href ih =>
      obtain ⟨p, hp, rfl⟩ := List.mem_map.mp ih
      obtain ⟨found, hv, -⟩ := hinv.visited p hp
      exact hinv.closed ih ⟨_, found, hv, ((visitType_ok hv).2 _).mpr href⟩

/-- 定義に現れる `$ref` は、その型の field の指す型である。 -/
theorem refs_definitions (hn : roots.Nodup)
    (h : generateDefinitions types choice limit roots = .ok definitions) {d : String × Definition}
    (hd : d ∈ definitions) : ∀ r ∈ d.2.refs, ∃ b, Refers types d.1 b ∧ r = definitionRef b := by
  obtain ⟨found, hv, -⟩ := (generateDefinitions_inv hn h).visited d hd
  exact (visitType_ok hv).1

end Definitions

/-! ## loop の停止 -/

/-- loop の上限には当たらない。 -/
def Settles {α : Type} (r : Except SwaggerError α) : Prop := r ≠ .error .notTerminating

namespace Settles

variable {α β : Type}

theorem ok (a : α) : Settles (.ok a) := nofun

theorem bind {m : Except SwaggerError α} {g : α → Except SwaggerError β} (hm : Settles m)
    (hg : ∀ a, m = .ok a → Settles (g a)) : Settles (m >>= g) := by
  cases hr : m with
  | error e =>
    intro he
    cases he
    exact hm hr
  | ok a => exact hg a hr

theorem mapM {g : α → Except SwaggerError β} (hg : ∀ a, Settles (g a)) (l : List α) :
    Settles (l.mapM g) := by
  induction l with
  | nil => exact ok _
  | cons a l ih =>
    rw [List.mapM_cons]
    exact (hg a).bind fun b _ => ih.bind fun bs _ => ok _

end Settles

theorem getItem_settles {β : Type} (d : List (String × β)) (k : String) :
    Settles (getItem d k) := by
  unfold getItem
  split <;> nofun

theorem mapValueField_settles (types : List (String × TypeDesc)) (n : String) :
    Settles (mapValueField types n) := by
  refine (getItem_settles _ _).bind fun type _ => ?_
  cases type with
  | enum e => nofun
  | message m =>
    simp only
    split
    · split <;> nofun
    · nofun

theorem bareProperty_settles {make : Field → Except SwaggerError (String × Property × List String)}
    (hmake : ∀ f, Settles (make f)) (f : Field) : Settles (bareProperty types make f) := by
  unfold bareProperty
  split
  · refine (mapValueField_settles _ _).bind fun found _ => ?_
    cases found with
    | some value => exact (hmake value).bind fun _ _ => nofun
    | none =>
      simp only
      split <;> nofun
  · nofun
  · nofun
  · split <;> nofun

theorem makeProperty_settles (limit : Nat) (f : Field) : Settles (makeProperty types limit f) := by
  induction limit generalizing f with
  | zero => nofun
  | succ limit ih => exact (bareProperty_settles ih f).bind fun _ _ => nofun

theorem visitType_settles (limit : Nat) (a : String) : Settles (visitType types limit a) := by
  refine (getItem_settles _ _).bind fun type _ => ?_
  cases type with
  | enum e =>
    refine Settles.bind ?_ fun _ _ => nofun
    unfold makeEnumDefinition
    split <;> nofun
  | message m => exact (Settles.mapM (makeProperty_settles limit) _).bind fun _ _ => nofun

/-- `visit` できるのは、ある型だけである。 -/
theorem visitType_mem {limit : Nat} {a : String} {r : Definition × List String}
    (h : visitType types limit a = .ok r) : a ∈ types.map Prod.fst := by
  obtain ⟨type, htype, -⟩ := bind_eq_ok.mp h
  unfold getItem at htype
  split at htype
  · next hl => exact List.mem_map.mpr ⟨_, OrderedDict.mem_of_lookup hl, rfl⟩
  · cases htype

/-- 型の数より多くは回らないので、loop は終わる。 -/
theorem generateDefinitions_settles (types : List (String × TypeDesc))
    (choice : List String → Nat) (limit : Nat) {roots : List String} (hn : roots.Nodup) :
    Settles (generateDefinitions types choice limit roots) := by
  have hdom : ∀ a r, visitType types limit a = .ok r → a ∈ types.map Prod.fst :=
    fun _ _ => visitType_mem
  refine Worklist.run_ne_exhausted hdom (visitType_settles limit) (Worklist.inv_init hn) ?_
  rw [List.length_map, List.length_nil]
  omega

/-! ## path の参照 -/

/-- path に現れる `$ref` は、どれかの method の入力か出力の型である。 -/
def Paths.FromMethods (methods : List (String × HttpMethod)) (paths : Paths) : Prop :=
  ∀ r ∈ paths.refs, ∃ m ∈ methods, r = definitionRef (stripDots m.2.method.inputType) ∨
    r = definitionRef (stripDots m.2.method.outputType)

theorem makeEntry_refs {definitions : List (String × Definition)} {service : Service}
    {method : Method} {http : HttpBinding} {path verb : String} {entry : Entry}
    (h : makeEntry definitions service method http = .ok (path, verb, entry)) :
    ∀ r ∈ entry.refs, r = definitionRef (stripDots method.inputType) ∨
      r = definitionRef (stripDots method.outputType) := by
  obtain ⟨⟨verb', path'⟩, -, h⟩ := bind_eq_ok.mp h
  obtain ⟨inputType, -, h⟩ := bind_eq_ok.mp h
  obtain ⟨pathParameters, hparams, h⟩ := bind_eq_ok.mp h
  cases h
  intro r hr
  rcases List.mem_cons.mp hr with rfl | hr
  · exact Or.inr rfl
  · obtain ⟨q, hq, hr⟩ := List.mem_flatMap.mp hr
    rcases List.mem_append.mp hq with hq | hq
    · obtain ⟨segment, -, hseg⟩ := (mem_of_mapM hparams).1 q hq
      obtain ⟨⟨type, format⟩, -, hseg⟩ := bind_eq_ok.mp hseg
      cases hseg
      cases hr
    · split at hq
      · rw [List.mem_singleton.mp hq] at hr
        exact Or.inl (List.mem_singleton.mp hr)
      · cases hq

theorem addEntry_refs {paths paths' : Paths} {path verb : String} {entry : Entry}
    (h : addEntry paths path verb entry = .ok paths') :
    ∀ r ∈ paths'.refs, r ∈ paths.refs ∨ r ∈ entry.refs := by
  unfold addEntry at h
  simp only at h
  split at h
  · cases h
  · cases h
    intro r hr
    obtain ⟨⟨p, verbs⟩, hmem, hverbs⟩ := List.mem_flatMap.mp hr
    obtain ⟨⟨v, e⟩, hve, hre⟩ := List.mem_flatMap.mp hverbs
    rcases OrderedDict.mem_set hmem with hmem | hmem
    · exact Or.inl (List.mem_flatMap.mpr ⟨_, hmem, hverbs⟩)
    · cases hmem
      rcases OrderedDict.mem_set hve with hve | hve
      · cases hl : paths.lookup path with
        | none =>
          rw [hl] at hve
          cases hve
        | some verbs =>
          rw [hl] at hve
          exact Or.inl (List.mem_flatMap.mpr ⟨_, OrderedDict.mem_of_lookup hl,
            List.mem_flatMap.mpr ⟨_, hve, hre⟩⟩)
      · cases hve
        exact Or.inr hre

theorem generatePaths_refs {methods : List (String × HttpMethod)}
    {definitions : List (String × Definition)} {paths : Paths}
    (h : generatePaths methods definitions = .ok paths) : paths.FromMethods methods := by
  have hempty : Paths.FromMethods methods [] := by simp [Paths.FromMethods, Paths.refs]
  refine Ensures.foldlM (P := Paths.FromMethods methods) _ ?_ hempty paths h
  intro paths hpaths c hc
  refine Ensures.bind fun entry hentry paths' hadd r hr => ?_
  obtain ⟨m, hm, hc⟩ := List.mem_flatMap.mp hc
  obtain ⟨http, -, rfl⟩ := List.mem_map.mp hc
  rcases addEntry_refs hadd r hr with hr | hr
  · exact hpaths r hr
  · exact ⟨m, hm, makeEntry_refs hentry r hr⟩

/-- どの method の入力と出力の型も、はじめの集合に入る。 -/
theorem gatherAllMethods_mem {descriptors : List FileDescriptor} {roots : List String}
    {methods : List (String × HttpMethod)}
    (h : gatherAllMethods descriptors = .ok (roots, methods)) {m : String × HttpMethod}
    (hm : m ∈ methods) :
    stripDots m.2.method.inputType ∈ roots ∧ stripDots m.2.method.outputType ∈ roots := by
  obtain ⟨found, -, h⟩ := bind_eq_ok.mp h
  cases h
  obtain ⟨m', hm', rfl⟩ := List.mem_map.mp (OrderedDict.mem_ofList m hm)
  constructor
  · exact List.mem_dedup.mpr (List.mem_flatMap.mpr ⟨m', hm', by simp⟩)
  · exact List.mem_dedup.mpr (List.mem_flatMap.mpr ⟨m', hm', by simp⟩)

theorem gatherAllMethods_nodup {descriptors : List FileDescriptor} {roots : List String}
    {methods : List (String × HttpMethod)}
    (h : gatherAllMethods descriptors = .ok (roots, methods)) : roots.Nodup := by
  obtain ⟨found, -, h⟩ := bind_eq_ok.mp h
  cases h
  exact List.nodup_dedup _

/-! ## 参照の完全さ -/

/-- 定義は、たどり着く型とちょうど一致する。 -/
def Swagger.Exact (types : List (String × TypeDesc)) (roots : List String) (s : Swagger) : Prop :=
  ∀ k, k ∈ s.definitions.map Prod.fst ↔ Reachable types roots k

/-- どの `$ref` も、ある定義を指す。 -/
def Swagger.NoDangling (s : Swagger) : Prop :=
  ∀ r ∈ s.refs, ∃ k ∈ s.definitions.map Prod.fst, r = definitionRef k

/-- map の値の型にも、map でない field だけをたどって着く。 -/
def MapValuesReached (types : List (String × TypeDesc)) (roots : List String) : Prop :=
  ∀ a m, ReachablePlainly types roots a → types.lookup a = some (.message m) → ∀ f ∈ m.field,
    ∀ value b, f.type = .message → mapValueField types (stripDots f.typeName) = .ok (some value) →
      value.Targets types b → ReachablePlainly types roots b

section Complete

variable {roots : List String} {k k' : String}

theorem ReachablePlainly.reachable (h : ReachablePlainly types roots k) :
    Reachable types roots k := by
  obtain ⟨r, hr, hpath⟩ := h
  refine ⟨r, hr, hpath.lift id fun a b hf => ?_⟩
  obtain ⟨m, hm, f, hf, hb⟩ := hf
  exact ⟨m, hm, f, hf, .plain hb⟩

theorem ReachablePlainly.refers (hmap : MapValuesReached types roots)
    (h : ReachablePlainly types roots k) (href : Refers types k k') :
    ReachablePlainly types roots k' := by
  obtain ⟨m, hm, f, hf, ht⟩ := href
  cases ht with
  | plain hrec =>
    obtain ⟨r, hr, hpath⟩ := h
    exact ⟨r, hr, hpath.tail ⟨m, hm, f, hf, hrec⟩⟩
  | mapValue hty hval hv => exact hmap k m h hm f hf _ _ hty hval hv

/-- 二つの到達が一致するのは、map の値の型にも着くときに限る。 -/
theorem mapValuesReached_iff : MapValuesReached types roots ↔
    ∀ k, Reachable types roots k → ReachablePlainly types roots k := by
  constructor
  · rintro hmap k ⟨r, hr, hpath⟩
    induction hpath with
    | refl => exact ⟨r, hr, .refl⟩
    | tail _ href ih => exact ih.refers hmap href
  · intro hall a m ha hm f hf value b hty hval hv
    obtain ⟨r, hr, hpath⟩ := ha.reachable
    exact hall b ⟨r, hr, hpath.tail ⟨m, hm, f, hf, .mapValue hty hval hv⟩⟩

variable {choice : List String → Nat} {limit : Nat} {descriptors : List FileDescriptor}
variable {swagger : Swagger}

theorem nativeDescriptorsToSwagger_ok
    (h : nativeDescriptorsToSwagger choice limit descriptors = .ok swagger) :
    ∃ types roots methods, gatherAllTypes descriptors = .ok types ∧
      gatherAllMethods descriptors = .ok (roots, methods) ∧
      generateDefinitions types choice limit roots = .ok swagger.definitions ∧
      generatePaths methods swagger.definitions = .ok swagger.paths := by
  obtain ⟨types, htypes, h⟩ := bind_eq_ok.mp h
  obtain ⟨⟨roots, methods⟩, hmethods, h⟩ := bind_eq_ok.mp h
  obtain ⟨definitions, hdefs, h⟩ := bind_eq_ok.mp h
  obtain ⟨paths, hpaths, h⟩ := bind_eq_ok.mp h
  split at h
  · cases h
  · cases h
    exact ⟨types, roots, methods, htypes, hmethods, hdefs, hpaths⟩

/--
**参照は完全である** のは、map の値の型にも map でない field だけで着くときに限る。型を集める loop は
必ず終わる。
-/
theorem swagger_references_iff (choice : List String → Nat) (limit : Nat)
    (descriptors : List FileDescriptor) :
    (∀ types roots methods, gatherAllTypes descriptors = .ok types →
      gatherAllMethods descriptors = .ok (roots, methods) →
      generateDefinitions types choice limit roots ≠ .error .notTerminating) ∧
    ∀ swagger, nativeDescriptorsToSwagger choice limit descriptors = .ok swagger →
      ∃ types roots methods, gatherAllTypes descriptors = .ok types ∧
        gatherAllMethods descriptors = .ok (roots, methods) ∧
        (swagger.Exact types roots ∧ swagger.NoDangling ↔ MapValuesReached types roots) := by
  constructor
  · intro types roots methods _ hmethods
    exact generateDefinitions_settles types choice limit (gatherAllMethods_nodup hmethods)
  · intro swagger h
    obtain ⟨types, roots, methods, htypes, hmethods, hdefs, hpaths⟩ :=
      nativeDescriptorsToSwagger_ok h
    have hn := gatherAllMethods_nodup hmethods
    have hkeys := mem_definitions_iff hn hdefs
    refine ⟨types, roots, methods, htypes, hmethods, ?_, ?_⟩
    · rintro ⟨hexact, -⟩
      exact mapValuesReached_iff.mpr fun k hk => (hkeys k).mp ((hexact k).mpr hk)
    · intro hmap
      have hroots : ∀ k ∈ roots, k ∈ swagger.definitions.map Prod.fst := fun k hk =>
        (hkeys k).mpr ⟨k, hk, .refl⟩
      constructor
      · intro k
        rw [hkeys]
        exact ⟨ReachablePlainly.reachable, mapValuesReached_iff.mp hmap k⟩
      · intro r hr
        rcases List.mem_append.mp hr with hr | hr
        · obtain ⟨m, hm, he⟩ := generatePaths_refs hpaths r hr
          obtain ⟨hin, hout⟩ := gatherAllMethods_mem hmethods hm
          rcases he with rfl | rfl
          · exact ⟨_, hroots _ hin, rfl⟩
          · exact ⟨_, hroots _ hout, rfl⟩
        · obtain ⟨d, hd, hr⟩ := List.mem_flatMap.mp hr
          obtain ⟨b, hb, rfl⟩ := refs_definitions hn hdefs hd r hr
          have ha := (hkeys d.1).mp (List.mem_map.mpr ⟨d, hd, rfl⟩)
          exact ⟨b, (hkeys b).mpr (ha.refers hmap hb), rfl⟩

end Complete

/-! ## 例 -/

def exampleField (name : String) (type : FieldType) (typeName : String) : Field :=
  ⟨name, false, type, typeName, none⟩

/-- `Maps` の map の値は `Item` で、`output` を返す method が一つある。 -/
def exampleProto (output : String) : FileDescriptor where
  name := "maps.proto"
  package := some "test"
  messageType := [
    .mk "Null" [] [] [] false none,
    .mk "Item" [] [] [] false none,
    .mk "Maps" [⟨"items", true, .message, ".test.Maps.ItemsEntry", none⟩]
      [.mk "ItemsEntry" [exampleField "key" .string "", exampleField "value" .message ".test.Item"]
        [] [] true none] [] false none]
  enumType := []
  service := [⟨"Service", [⟨"Get", ".test.Null", output, some (some {
    get := some "/maps", delete := none, patch := none, post := none, put := none, custom := none,
    body := none, additionalBindings := [] }), ""⟩]⟩]

/-- `exampleProto` から作られる swagger。 -/
def exampleSwagger (output : String) (definitions : List (String × Definition)) : Swagger where
  title := "maps.proto"
  paths := [("/maps", [("get", ⟨"Get", "Service", definitionRef output, [], none, none⟩)])]
  definitions := definitions

/-- 値の型を method が返すなら、上の条件を満たす。 -/
theorem swagger_references_example :
    (∃ types roots methods, gatherAllTypes [exampleProto ".test.Item"] = .ok types ∧
      gatherAllMethods [exampleProto ".test.Item"] = .ok (roots, methods) ∧
      generateDefinitions types (fun _ => 0) 1000 roots ≠ .error .notTerminating) ∧
    ∃ types roots methods, gatherAllTypes [exampleProto ".test.Item"] = .ok types ∧
      gatherAllMethods [exampleProto ".test.Item"] = .ok (roots, methods) ∧
      ((exampleSwagger "test.Item"
          [("test.Null", .object [] none), ("test.Item", .object [] none)]).Exact types roots ∧
        (exampleSwagger "test.Item"
          [("test.Null", .object [] none), ("test.Item", .object [] none)]).NoDangling
        ↔ MapValuesReached types roots) := by
  have h : nativeDescriptorsToSwagger (fun _ => 0) 1000 [exampleProto ".test.Item"]
      = .ok (exampleSwagger "test.Item"
        [("test.Null", .object [] none), ("test.Item", .object [] none)]) := by decide +kernel
  obtain ⟨types, roots, methods, htypes, hmethods, -, -⟩ := nativeDescriptorsToSwagger_ok h
  refine ⟨⟨types, roots, methods, htypes, hmethods, ?_⟩, (swagger_references_iff _ _ _).2 _ h⟩
  exact (swagger_references_iff _ _ _).1 _ _ _ htypes hmethods

/-- map の値の型は、定義されないまま指される。 -/
theorem map_value_dangles : ∃ swagger,
    nativeDescriptorsToSwagger (fun _ => 0) 1000 [exampleProto ".test.Maps"] = .ok swagger ∧
      ¬swagger.NoDangling := by
  refine ⟨exampleSwagger "test.Maps" [("test.Null", .object [] none), ("test.Maps",
    .object [("items", .object (.ref "#/definitions/test.Item"))] none)], by decide +kernel, ?_⟩
  intro h
  obtain ⟨k, hk, he⟩ := h "#/definitions/test.Item" (by decide +kernel)
  revert he
  revert k
  decide +kernel

end Voltha.Chameleon
