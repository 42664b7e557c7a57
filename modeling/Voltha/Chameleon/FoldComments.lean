import Mathlib.Logic.Function.Basic
import Voltha.Chameleon.DescriptorParser
import Voltha.Lib.Py

/-!
# comment の行き先

`path` が指す node を、番号をそのままたどって決める。単独の field では番号だけを、繰り返しの field では
番号と添字を読む。これは `source_code_info` の `path` の定義である。

`find_node_by_path` は、いつも二つずつ読む。そのため、

* 長さが偶数で、繰り返しの message だけを通らない `path` では、例外になる
* 長さが奇数の `path` は読まない。options のような、単独の message を指す `path` も読まない
-/

namespace Voltha.Chameleon.DescriptorParser

/-! ## comment を足した辞書 -/

/-- 足される項目。 -/
def description (comments : Option String) : List (String × Node) :=
  (comments.map fun text => ("_description", .scalar (.unicode text))).toList

mutual

/-- `path` が `p` の message に `f p` を足した辞書。 -/
def described (tag : Option String) (f : List Int → Option String) (p : List Int) : Value → Node
  | .scalar s => .scalar s
  | .message fullName fields =>
    .dict (tagged tag fullName (OrderedDict.ofList (describedFields tag f p fields)) ++
      description (f p))

def describedFields (tag : Option String) (f : List Int → Option String) (p : List Int) :
    List Field → List (String × Node)
  | [] => []
  | field :: rest => (field.name, describedField tag f p field) :: describedFields tag f p rest

def describedField (tag : Option String) (f : List Int → Option String) (p : List Int) :
    Field → Node
  | .single _ number value => described tag f (p ++ [number]) value
  | .repeated _ number values => .list (describedValues tag f (p ++ [number]) 0 values)

def describedValues (tag : Option String) (f : List Int → Option String) (p : List Int) (k : Nat) :
    List Value → List Node
  | [] => []
  | value :: rest =>
    described tag f (p ++ [(k : Int)]) value :: describedValues tag f p (k + 1) rest

end

mutual

/-- どの値も、`parser_table` にある型である。 -/
def Parsable : Value → Prop
  | .scalar (.other _) => False
  | .scalar _ => True
  | .message _ fields => ParsableFields fields

def ParsableFields : List Field → Prop
  | [] => True
  | field :: rest => ParsableField field ∧ ParsableFields rest

def ParsableField : Field → Prop
  | .single _ _ value => Parsable value
  | .repeated _ _ values => ParsableValues values

def ParsableValues : List Value → Prop
  | [] => True
  | value :: rest => Parsable value ∧ ParsableValues rest

end

/-! ## `path` の指すもの -/

/-- 番号が `n` で、辞書に残る field。後に同じ名前の field があれば、上書きされて残らない。 -/
def shown (tag : Option String) (n : Int) : List Field → Option Field
  | [] => none
  | field :: rest =>
    if field.number = n then
      if field.name ∈ rest.map Field.name ∨ tag = some field.name then none else some field
    else shown tag n rest

/-- `path` が message の node を指す。 -/
def Addressed (tag : Option String) : List Int → Value → Prop
  | [], .message _ _ => True
  | [], .scalar _ => False
  | _ :: _, .scalar _ => False
  | n :: path, .message _ fields =>
    match shown tag n fields with
    | some (.single _ _ value) => Addressed tag path value
    | some (.repeated _ _ values) =>
      match path with
      | [] => False
      | i :: path => ∃ value, values[i.toNat]? = some value ∧ Addressed tag path value
    | none => False

/-- `path` が、繰り返しの field だけを通って message の node を指す。 -/
def ListPath (tag : Option String) : List Int → Value → Prop
  | [], .message _ _ => True
  | n :: i :: path, .message _ fields =>
    ∃ name values value, shown tag n fields = some (.repeated name n values) ∧
      values[i.toNat]? = some value ∧ ListPath tag path value
  | _, _ => False

/-- `source_code_info` を除いた descriptor。 -/
def withoutInfo : Value → Value
  | .scalar s => .scalar s
  | .message fullName fields =>
    .message fullName (fields.filter fun field => field.name ≠ "source_code_info")

/-- comment のある `location`。 -/
def commented (tag : Option String) (descriptor : Value) : List Location :=
  (locations (described tag (fun _ => none) [] descriptor)).filter fun l => l.comments ≠ ""

variable {tag : Option String} {f g : List Int → Option String} {p : List Int}

/-! ## `parse` -/

mutual

/-- 読めるのは、どの値の型も `parser_table` にあるときに限る。 -/
theorem parse_ok_iff (tag : Option String) (p : List Int) :
    ∀ (v : Value) (o : Node), parse tag v = .ok o ↔
      Parsable v ∧ o = described tag (fun _ => none) p v
  | .scalar s, o => by
    cases s <;> simp [parse, parserTable, Parsable, described, bind, Except.bind, pure,
      Except.pure, eq_comm]
  | .message fullName fields, o => by
    simp only [parse, Py.bind_eq_ok, parseFields_ok_iff tag p fields, Parsable, described,
      description, Option.map_none, Option.toList_none, List.append_nil]
    constructor
    · rintro ⟨d, ⟨hd, rfl⟩, ho⟩
      exact ⟨hd, (Except.ok.inj ho).symm⟩
    · rintro ⟨hd, rfl⟩
      exact ⟨_, ⟨hd, rfl⟩, rfl⟩

theorem parseFields_ok_iff (tag : Option String) (p : List Int) :
    ∀ (fields : List Field) (d : List (String × Node)), parseFields tag fields = .ok d ↔
      ParsableFields fields ∧ d = describedFields tag (fun _ => none) p fields
  | [], d => by simp [parseFields, ParsableFields, describedFields, pure, Except.pure, eq_comm]
  | field :: rest, d => by
    simp only [parseFields, Py.bind_eq_ok, parseField_ok_iff tag p field,
      parseFields_ok_iff tag p rest, ParsableFields, describedFields]
    constructor
    · rintro ⟨e, ⟨he, rfl⟩, d', ⟨hd, rfl⟩, ho⟩
      exact ⟨⟨he, hd⟩, (Except.ok.inj ho).symm⟩
    · rintro ⟨⟨he, hd⟩, rfl⟩
      exact ⟨_, ⟨he, rfl⟩, _, ⟨hd, rfl⟩, rfl⟩

theorem parseField_ok_iff (tag : Option String) (p : List Int) :
    ∀ (field : Field) (e : String × Node), parseField tag field = .ok e ↔
      ParsableField field ∧ e = (field.name, describedField tag (fun _ => none) p field)
  | .single name number value, e => by
    simp only [parseField, Py.bind_eq_ok, parse_ok_iff tag (p ++ [number]) value, ParsableField,
      describedField]
    constructor
    · rintro ⟨o, ⟨ho, rfl⟩, he⟩
      exact ⟨ho, (Except.ok.inj he).symm⟩
    · rintro ⟨ho, rfl⟩
      exact ⟨_, ⟨ho, rfl⟩, rfl⟩
  | .repeated name number values, e => by
    simp only [parseField, Py.bind_eq_ok, parseValues_ok_iff tag (p ++ [number]) 0 values,
      ParsableField, describedField]
    constructor
    · rintro ⟨o, ⟨ho, rfl⟩, he⟩
      exact ⟨ho, (Except.ok.inj he).symm⟩
    · rintro ⟨ho, rfl⟩
      exact ⟨_, ⟨ho, rfl⟩, rfl⟩

theorem parseValues_ok_iff (tag : Option String) (p : List Int) (k : Nat) :
    ∀ (values : List Value) (l : List Node), parseValues tag values = .ok l ↔
      ParsableValues values ∧ l = describedValues tag (fun _ => none) p k values
  | [], l => by simp [parseValues, ParsableValues, describedValues, pure, Except.pure, eq_comm]
  | value :: rest, l => by
    simp only [parseValues, Py.bind_eq_ok, parse_ok_iff tag (p ++ [(k : Int)]) value,
      parseValues_ok_iff tag p (k + 1) rest, ParsableValues, describedValues]
    constructor
    · rintro ⟨o, ⟨ho, rfl⟩, l', ⟨hl, rfl⟩, he⟩
      exact ⟨⟨ho, hl⟩, (Except.ok.inj he).symm⟩
    · rintro ⟨⟨ho, hl⟩, rfl⟩
      exact ⟨_, ⟨ho, rfl⟩, _, ⟨hl, rfl⟩, rfl⟩

end

/-! ## 見るのは `p` の下だけ -/

mutual

theorem described_congr :
    ∀ (v : Value) (p : List Int), (∀ q, f (p ++ q) = g (p ++ q)) →
      described tag f p v = described tag g p v
  | .scalar s, p, _ => rfl
  | .message fullName fields, p, h => by
    have hp := h []
    rw [List.append_nil] at hp
    rw [described, described, hp, describedFields_congr fields p fun n q _ => h (n :: q)]

theorem describedFields_congr :
    ∀ (fields : List Field) (p : List Int),
      (∀ n q, n ∈ fields.map Field.number → f (p ++ n :: q) = g (p ++ n :: q)) →
      describedFields tag f p fields = describedFields tag g p fields
  | [], p, _ => rfl
  | field :: rest, p, h => by
    rw [describedFields, describedFields,
      describedField_congr field p fun q => h field.number q List.mem_cons_self,
      describedFields_congr rest p fun n q hn => h n q (List.mem_cons_of_mem _ hn)]

theorem describedField_congr :
    ∀ (field : Field) (p : List Int),
      (∀ q, f (p ++ field.number :: q) = g (p ++ field.number :: q)) →
      describedField tag f p field = describedField tag g p field
  | .single name number value, p, h => by
    rw [describedField, describedField, described_congr value (p ++ [number]) fun q => ?_]
    rw [List.append_assoc]
    exact h q
  | .repeated name number values, p, h => by
    rw [describedField, describedField,
      describedValues_congr values (p ++ [number]) 0 fun i q _ => ?_]
    rw [List.append_assoc]
    exact h (i :: q)

theorem describedValues_congr :
    ∀ (values : List Value) (p : List Int) (k : Nat),
      (∀ (i : Nat) q, k ≤ i → f (p ++ (i : Int) :: q) = g (p ++ (i : Int) :: q)) →
      describedValues tag f p k values = describedValues tag g p k values
  | [], p, k, _ => rfl
  | value :: rest, p, k, h => by
    rw [describedValues, describedValues, described_congr value (p ++ [(k : Int)]) fun q => ?_,
      describedValues_congr rest p (k + 1) fun i q hi => h i q (Nat.le_of_succ_le hi)]
    rw [List.append_assoc]
    exact h k q (Nat.le_refl k)

end

/-! ## 辞書を読む -/

theorem describedFields_eq (tag : Option String) (f : List Int → Option String) (p : List Int)
    (fields : List Field) : describedFields tag f p fields
      = fields.map fun field => (field.name, describedField tag f p field) := by
  induction fields with
  | nil => rfl
  | cons field rest ih => rw [describedFields, ih, List.map_cons]

theorem keys_describedFields (tag : Option String) (f : List Int → Option String) (p : List Int)
    (fields : List Field) :
    (describedFields tag f p fields).map Prod.fst = fields.map Field.name := by
  rw [describedFields_eq, List.map_map]
  rfl

theorem getElem?_describedValues (tag : Option String) (f : List Int → Option String)
    (p : List Int) (values : List Value) (k i : Nat) :
    (describedValues tag f p k values)[i]?
      = (values[i]?).map fun v => described tag f (p ++ [((k + i : Nat) : Int)]) v := by
  induction values generalizing k i with
  | nil => rfl
  | cons value rest ih =>
    rw [describedValues]
    cases i with
    | zero => rfl
    | succ i =>
      rw [List.getElem?_cons_succ, List.getElem?_cons_succ, ih, Nat.add_assoc, Nat.add_comm 1 i]

theorem shown_number {n : Int} {fields : List Field} {field : Field}
    (h : shown tag n fields = some field) : field.number = n := by
  induction fields with
  | nil => cases h
  | cons x rest ih =>
    rw [shown] at h
    split at h
    · next hn =>
      split at h
      · cases h
      · exact Option.some.inj h ▸ hn
    · exact ih h

theorem shown_mem {n : Int} {fields : List Field} {field : Field}
    (h : shown tag n fields = some field) : field ∈ fields := by
  induction fields with
  | nil => cases h
  | cons x rest ih =>
    rw [shown] at h
    split at h
    · split at h
      · cases h
      · exact Option.some.inj h ▸ List.mem_cons_self
    · exact List.mem_cons_of_mem _ (ih h)

theorem shown_tag {n : Int} {fields : List Field} {field : Field}
    (h : shown tag n fields = some field) : tag ≠ some field.name := by
  induction fields with
  | nil => cases h
  | cons x rest ih =>
    rw [shown] at h
    split at h
    · split at h
      · cases h
      · next hne => exact Option.some.inj h ▸ (not_or.mp hne).2
    · exact ih h

/-- 残る field は、その名前で引ける。 -/
theorem lookup_shown {n : Int} {fields : List Field} {field : Field}
    (h : shown tag n fields = some field) (d : List (String × Node)) :
    ((describedFields tag f p fields).foldl (fun d e => OrderedDict.set d e.1 e.2) d).lookup
      field.name = some (describedField tag f p field) := by
  induction fields generalizing d with
  | nil => cases h
  | cons x rest ih =>
    rw [shown] at h
    rw [describedFields, List.foldl_cons]
    split at h
    · split at h
      · cases h
      · next hne =>
        obtain rfl := Option.some.inj h
        have hkey := (not_or.mp hne).1
        rw [← keys_describedFields tag f p] at hkey
        rw [OrderedDict.lookup_foldl_set hkey, OrderedDict.lookup_set, if_pos rfl]
    · exact ih h _

theorem lookup_tagged {name : String} (h : tag ≠ some name) (fullName : String)
    (d : List (String × Node)) : (tagged tag fullName d).lookup name = d.lookup name := by
  unfold tagged
  split
  · rw [OrderedDict.lookup_set, if_neg fun heq => h (by rw [heq])]
  · rfl

theorem keys_tagged {d d' : List (String × Node)} (h : d.map Prod.fst = d'.map Prod.fst)
    (tag : Option String) (fullName : String) :
    (tagged tag fullName d).map Prod.fst = (tagged tag fullName d').map Prod.fst := by
  cases tag with
  | none => exact h
  | some name => rw [tagged, tagged, OrderedDict.keys_set, OrderedDict.keys_set, h]

theorem lookup_description {name : String} (h : name ≠ "_description") (comments : Option String) :
    (description comments).lookup name = none := by
  cases comments with
  | none => rfl
  | some text => exact OrderedDict.lookup_cons_eq.trans (if_neg h)

/-! ## 足した comment は読める -/

theorem description_inj {a b : Option String} (h : description a = description b) : a = b := by
  cases a <;> cases b <;> cases h <;> rfl

/-- 足した項目は、辞書の終わりにある。 -/
theorem described_message_inj {fullName : String} {fields : List Field}
    (h : described tag f p (.message fullName fields)
      = described tag g p (.message fullName fields)) :
    f p = g p ∧ tagged tag fullName (OrderedDict.ofList (describedFields tag f p fields))
      = tagged tag fullName (OrderedDict.ofList (describedFields tag g p fields)) := by
  rw [described, described] at h
  have hkeys := keys_tagged (OrderedDict.keys_ofList_congr
    ((keys_describedFields tag f p fields).trans (keys_describedFields tag g p fields).symm))
    tag fullName
  have hlength := congrArg List.length hkeys
  rw [List.length_map, List.length_map] at hlength
  obtain ⟨hbase, hdesc⟩ := List.append_inj (Node.dict.inj h) hlength
  exact ⟨description_inj hdesc, hbase⟩

theorem describedField_inj {fullName : String} {fields : List Field} {n : Int} {field : Field}
    (h : described tag f p (.message fullName fields)
      = described tag g p (.message fullName fields)) (hs : shown tag n fields = some field) :
    describedField tag f p field = describedField tag g p field := by
  have hbase := congrArg (List.lookup field.name) (described_message_inj h).2
  rw [lookup_tagged (shown_tag hs), lookup_tagged (shown_tag hs)] at hbase
  exact Option.some.inj ((lookup_shown hs []).symm.trans (hbase.trans (lookup_shown hs [])))

/-- 同じ辞書なら、指される node の comment は同じである。 -/
theorem described_inj (f g : List Int → Option String) : ∀ (q : List Int) (v : Value)
    (p : List Int), (∀ i ∈ q, 0 ≤ i) → described tag f p v = described tag g p v →
      Addressed tag q v → f (p ++ q) = g (p ++ q)
  | [], .message fullName fields, p, _, h, _ => by
    rw [List.append_nil]
    exact (described_message_inj h).1
  | n :: path, .message fullName fields, p, hnonneg, h, ha => by
    unfold Addressed at ha
    have hpath : ∀ i ∈ path, 0 ≤ i := fun i hi => hnonneg i (List.mem_cons_of_mem _ hi)
    split at ha
    · next name number value hs =>
      obtain rfl := shown_number hs
      have hvalue := describedField_inj h hs
      rw [describedField, describedField] at hvalue
      have heq := described_inj f g path value _ hpath hvalue ha
      rwa [List.append_assoc] at heq
    · next name number values hs =>
      obtain rfl := shown_number hs
      have hlist := Node.list.inj (describedField_inj h hs)
      cases path with
      | nil => exact ha.elim
      | cons i path =>
        obtain ⟨value, hi, ha⟩ := ha
        have hget := congrArg (fun l : List Node => l[i.toNat]?) hlist
        simp only [getElem?_describedValues, hi, Option.map_some, Option.some.injEq, Nat.zero_add,
          Int.toNat_of_nonneg (hpath i List.mem_cons_self)] at hget
        have heq := described_inj f g path value _
          (fun j hj => hpath j (List.mem_cons_of_mem _ hj)) hget ha
        simp only [List.append_assoc, List.singleton_append] at heq
        exact heq
    · exact ha.elim

/-! ## 型の表に従う message -/

/-- 繰り返しの field だけをたどったところは、型の表に従う。 -/
inductive Conforms (fieldsByNumber : String → Int → Option FieldDescriptor) :
    String → Value → Prop where
  | message {type : String} {fields : List Field}
    (numbers : (fields.map Field.number).Nodup)
    (defs : ∀ field ∈ fields, ∃ d, fieldsByNumber type field.number = some d ∧ d.name = field.name)
    (messages : ∀ name number values d child, .repeated name number values ∈ fields →
      fieldsByNumber type number = some d → d.messageType = some child →
      ∀ v ∈ values, Conforms fieldsByNumber child v)
    (scalars : ∀ name number values d, .repeated name number values ∈ fields →
      fieldsByNumber type number = some d → d.messageType = none →
      ∀ v ∈ values, ∃ s, v = .scalar s) :
    Conforms fieldsByNumber type (.message type fields)

theorem Conforms.message_eq {fieldsByNumber : String → Int → Option FieldDescriptor}
    {type : String} {v : Value} (h : Conforms fieldsByNumber type v) :
    ∃ fullName fields, v = .message fullName fields := by
  cases h
  exact ⟨_, _, rfl⟩

/-- 型の表の名前。 -/
structure Schema (fieldsByNumber : String → Int → Option FieldDescriptor) (tag : Option String) :
    Prop where
  unique : ∀ type m n d d', fieldsByNumber type m = some d → fieldsByNumber type n = some d' →
    d.name = d'.name → m = n
  name_tag : ∀ type n d, fieldsByNumber type n = some d → tag ≠ some d.name
  name_description : ∀ type n d, fieldsByNumber type n = some d → d.name ≠ "_description"
  tag_description : tag ≠ some "_description"
  info : ∃ n d, fieldsByNumber "google.protobuf.FileDescriptorProto" n = some d ∧
    d.name = "source_code_info"

section Conforms

variable {fieldsByNumber : String → Int → Option FieldDescriptor} {type : String}
  {fields : List Field} {n : Int}

section Fields

variable (hs : Schema fieldsByNumber tag) (hnodup : (fields.map Field.number).Nodup)
  (hdefs : ∀ field ∈ fields, ∃ d, fieldsByNumber type field.number = some d ∧
    d.name = field.name)

include hs hnodup hdefs

/-- 表にある名前の field は、必ず残る。 -/
theorem shown_of_mem {field : Field} (hf : field ∈ fields) :
    shown tag field.number fields = some field := by
  induction fields with
  | nil => cases hf
  | cons x rest ih =>
    obtain ⟨hx, hnodup⟩ := List.nodup_cons.mp hnodup
    rcases List.mem_cons.mp hf with rfl | hf
    · obtain ⟨d, hd, hname⟩ := hdefs field List.mem_cons_self
      rw [shown, if_pos rfl, if_neg]
      rintro (hmem | htag)
      · obtain ⟨y, hy, hyname⟩ := List.mem_map.mp hmem
        obtain ⟨d', hd', hname'⟩ := hdefs y (List.mem_cons_of_mem _ hy)
        have hnumber := hs.unique type _ _ d' d hd' hd (hname'.trans (hyname.trans hname.symm))
        exact hx (hnumber ▸ List.mem_map_of_mem hy)
      · exact hs.name_tag type _ d hd (hname ▸ htag)
    · have hne : x.number ≠ field.number := fun heq => hx (heq ▸ List.mem_map_of_mem hf)
      rw [shown, if_neg hne]
      exact ih hnodup (fun y hy => hdefs y (List.mem_cons_of_mem _ hy)) hf

theorem field_eq_of_name {x y : Field} (hx : x ∈ fields) (hy : y ∈ fields)
    (heq : x.name = y.name) : x = y := by
  obtain ⟨d, hd, hname⟩ := hdefs x hx
  obtain ⟨d', hd', hname'⟩ := hdefs y hy
  have hnumber := hs.unique type _ _ d d' hd hd' (hname.trans (heq.trans hname'.symm))
  exact List.inj_on_of_nodup_map hnodup hx hy hnumber

/-- 名前の重ならない message の辞書。 -/
theorem ofList_described (f : List Int → Option String) (p : List Int) :
    OrderedDict.ofList (describedFields tag f p fields) = describedFields tag f p fields := by
  refine OrderedDict.ofList_of_nodup ?_
  rw [keys_describedFields]
  exact List.Nodup.map_on (fun x hx y hy => field_eq_of_name hs hnodup hdefs hx hy)
    (hnodup.of_map _)

/-- 表の名前で引くと、その番号の field が見つかる。 -/
theorem lookup_described {d : FieldDescriptor} (hd : fieldsByNumber type n = some d)
    (fullName : String) :
    (tagged tag fullName (OrderedDict.ofList (describedFields tag f p fields)) ++
      description (f p)).lookup d.name = (shown tag n fields).map (describedField tag f p) := by
  rw [List.lookup_append, lookup_tagged (hs.name_tag type n d hd),
    lookup_description (hs.name_description type n d hd), Option.or_none]
  cases hshown : shown tag n fields with
  | some field =>
    obtain ⟨d', hd', hname⟩ := hdefs field (shown_mem hshown)
    rw [shown_number hshown, hd] at hd'
    rw [Option.some.inj hd', hname]
    exact lookup_shown hshown []
  | none =>
    have hnot : d.name ∉ (describedFields tag f p fields).map Prod.fst := by
      rw [keys_describedFields]
      intro hmem
      obtain ⟨field, hf, hname⟩ := List.mem_map.mp hmem
      obtain ⟨d', hd', hname'⟩ := hdefs field hf
      have hnumber := hs.unique type _ _ d' d hd' hd (hname'.trans hname)
      rw [← hnumber, shown_of_mem hs hnodup hdefs hf] at hshown
      cases hshown
    exact OrderedDict.lookup_foldl_set hnot

end Fields

/-! ## 一つの comment -/

theorem position_of_nonneg {length : Nat} {i : Int} (h : 0 ≤ i) :
    position length i = if i.toNat < length then some i.toNat else none := by
  simp only [position, if_neg (Int.not_lt.mpr h), h, true_and]
  refine if_congr ?_ rfl rfl
  omega

theorem set_description (text : String) (comments : Option String) {d : List (String × Node)}
    (h : "_description" ∉ d.map Prod.fst) :
    OrderedDict.set (d ++ description comments) "_description" (.scalar (.unicode text))
      = d ++ description (some text) := by
  rw [OrderedDict.set_append_right h]
  cases comments <;> rfl

theorem set_tagged {name : String} (h : tag ≠ some name) (fullName : String)
    {d : List (String × Node)} (hmem : name ∈ d.map Prod.fst) (o : Node) :
    OrderedDict.set (tagged tag fullName d) name o
      = tagged tag fullName (OrderedDict.set d name o) := by
  cases tag with
  | none => rfl
  | some t => exact OrderedDict.set_comm (fun heq => h (by rw [heq])) hmem

theorem mem_keys_tagged {name : String} {d : List (String × Node)} {fullName : String} :
    name ∈ (tagged tag fullName d).map Prod.fst ↔ tag = some name ∨ name ∈ d.map Prod.fst := by
  cases tag with
  | none => simp [tagged]
  | some t => rw [tagged, OrderedDict.mem_keys_set, Option.some.injEq, eq_comm]

theorem mem_keys_description {name : String} {comments : Option String}
    (h : name ∈ (description comments).map Prod.fst) : name = "_description" := by
  cases comments with
  | none => cases h
  | some text => exact List.mem_singleton.mp h

theorem ne_append_cons (p : List Int) (x : Int) (q : List Int) : p ≠ p ++ x :: q := by
  intro heq
  have hlength := congrArg List.length heq
  rw [List.length_append, List.length_cons] at hlength
  omega

theorem not_listPath_scalar (q : List Int) (s : Scalar) : ¬ListPath tag q (.scalar s) := by
  cases q with
  | nil => exact id
  | cons n q => cases q <;> exact id

/-- 添字の違う値は、変わらない。 -/
theorem set_describedValues {values : List Value} {value : Value} {i : Nat}
    (hi : values[i]? = some value) (hother : ∀ (j : Nat) q, j ≠ i →
      f (p ++ (j : Int) :: q) = g (p ++ (j : Int) :: q)) :
    (describedValues tag f p 0 values).set i (described tag g (p ++ [(i : Int)]) value)
      = describedValues tag g p 0 values := by
  refine List.ext_getElem? fun j => ?_
  rw [List.getElem?_set, getElem?_describedValues, getElem?_describedValues, Nat.zero_add]
  by_cases hj : i = j
  · subst hj
    have hget : (describedValues tag f p 0 values)[i]?
        = some (described tag f (p ++ [(i : Int)]) value) := by
      rw [getElem?_describedValues, hi, Option.map_some, Nat.zero_add]
    rw [if_pos rfl, if_pos (List.getElem?_eq_some_iff.mp hget).1, hi]
    rfl
  · rw [if_neg hj]
    cases hv : values[j]? with
    | none => rfl
    | some v =>
      rw [Option.map_some, Option.map_some, described_congr v (p ++ [(j : Int)]) fun q => ?_]
      rw [List.append_assoc]
      exact hother j q (Ne.symm hj)

/-- 番号の違う field は、変わらない。 -/
theorem set_describedFields (hs : Schema fieldsByNumber tag)
    (hnodup : (fields.map Field.number).Nodup)
    (hdefs : ∀ field ∈ fields, ∃ d, fieldsByNumber type field.number = some d ∧
      d.name = field.name) {field : Field} (hf : field ∈ fields)
    (hother : ∀ m q, m ≠ field.number → f (p ++ m :: q) = g (p ++ m :: q)) :
    OrderedDict.set (describedFields tag f p fields) field.name (describedField tag g p field)
      = describedFields tag g p fields := by
  have hmem : field.name ∈ (describedFields tag f p fields).map Prod.fst := by
    rw [keys_describedFields]
    exact List.mem_map_of_mem hf
  rw [OrderedDict.set, if_pos hmem, describedFields_eq, describedFields_eq, List.map_map]
  refine List.map_congr_left fun x hx => ?_
  show (if x.name = field.name then _ else _) = _
  by_cases hname : x.name = field.name
  · obtain rfl := field_eq_of_name hs hnodup hdefs hx hf hname
    rw [if_pos rfl]
  · have hnumber : x.number ≠ field.number := by
      intro heq
      obtain rfl := List.inj_on_of_nodup_map hnodup hx hf heq
      exact hname rfl
    rw [if_neg hname, describedField_congr x p fun q => hother x.number q hnumber]

/-- 繰り返しの field だけを通る `path` では、指された node に comment が付き、ほかは変わらない。 -/
theorem findNodeByPath_described (hs : Schema fieldsByNumber tag) (text : String) :
    ∀ (q : List Int) (type : String) (v : Value) (p : List Int) (f : List Int → Option String),
      Conforms fieldsByNumber type v → (∀ i ∈ q, 0 ≤ i) → ListPath tag q v →
      findNodeByPath fieldsByNumber (describe text) q (some type) (described tag f p v)
        = .ok (described tag (Function.update f (p ++ q) (some text)) p v)
  | [], _, _, p, f, @Conforms.message _ type fields hnodup hdefs _ _, _, _ => by
    have hnot : "_description" ∉ (tagged tag type
        (OrderedDict.ofList (describedFields tag f p fields))).map Prod.fst := by
      rw [ofList_described hs hnodup hdefs]
      intro hmem
      rcases mem_keys_tagged.mp hmem with htag | hmem
      · exact hs.tag_description htag
      · rw [keys_describedFields] at hmem
        obtain ⟨field, hf, hname⟩ := List.mem_map.mp hmem
        obtain ⟨d, hd, hdname⟩ := hdefs field hf
        exact hs.name_description type _ d hd (hdname.trans hname)
    have hfields : describedFields tag (Function.update f (p ++ []) (some text)) p fields
        = describedFields tag f p fields := by
      refine describedFields_congr fields p fun n q _ => Function.update_of_ne ?_ _ _
      rw [List.append_nil]
      exact (ne_append_cons p n q).symm
    rw [findNodeByPath, described, describe, set_description text _ hnot, described, hfields,
      List.append_nil, Function.update_self]
    rfl
  | [n], _, .message _ _, _, _, _, _, h => h.elim
  | n :: i :: path, _, _, p, f, @Conforms.message _ type fields hnodup hdefs hmessages
      hscalars, hnonneg, h => by
    obtain ⟨name, values, value, hshown, hi, hpath⟩ := h
    have hf := shown_mem hshown
    obtain ⟨d, hd, hname⟩ : ∃ d, fieldsByNumber type n = some d ∧ d.name = name := hdefs _ hf
    have hipos := hnonneg i (by simp)
    have hconf : ∃ child, d.messageType = some child ∧ Conforms fieldsByNumber child value := by
      cases hchild : d.messageType with
      | some child =>
        exact ⟨child, rfl, hmessages name n values d child hf hd hchild value
          (List.mem_of_getElem? hi)⟩
      | none =>
        obtain ⟨s, rfl⟩ := hscalars name n values d hf hd hchild value (List.mem_of_getElem? hi)
        exact absurd hpath (not_listPath_scalar path s)
    obtain ⟨child, hchild, hconf⟩ := hconf
    have hlookup := lookup_described (f := f) (p := p) hs hnodup hdefs hd type
    have hget : (describedValues tag f (p ++ [n]) 0 values)[i.toNat]?
        = some (described tag f (p ++ [n] ++ [i]) value) := by
      rw [getElem?_describedValues, hi, Nat.zero_add, Int.toNat_of_nonneg hipos]
      rfl
    have hposition : position (describedValues tag f (p ++ [n]) 0 values).length i
        = some i.toNat := by
      rw [position_of_nonneg hipos, if_pos]
      exact (List.getElem?_eq_some_iff.mp hget).1
    have ih := findNodeByPath_described hs text path child value (p ++ [n] ++ [i]) f hconf
      (fun j hj => hnonneg j (by simp [hj])) hpath
    have hwhole : p ++ [n] ++ [i] ++ path = p ++ n :: i :: path := by simp
    rw [hwhole] at ih
    rw [hshown] at hlookup
    rw [described, findNodeByPath, hd]
    simp only [hlookup, Option.map_some, describedField, hposition, Option.bind_some, hget,
      hchild, ih]
    -- 書き換えた node を、辞書に戻す
    have hother : ∀ r, r ≠ p ++ n :: i :: path →
        f r = Function.update f (p ++ n :: i :: path) (some text) r :=
      fun r hr => (Function.update_of_ne hr _ _).symm
    generalize Function.update f (p ++ n :: i :: path) (some text) = g at hother ⊢
    have hvalues : (describedValues tag f (p ++ [n]) 0 values).set i.toNat
        (described tag g (p ++ [n] ++ [i]) value) = describedValues tag g (p ++ [n]) 0 values := by
      have hindex : ((i.toNat : Nat) : Int) = i := Int.toNat_of_nonneg hipos
      rw [← hindex]
      refine set_describedValues hi fun j q hj => hother _ fun heq => ?_
      have hji : (j : Int) = i ∧ q = path := by simpa using heq
      omega
    have hfields : OrderedDict.set (describedFields tag f p fields) name
        (.list (describedValues tag g (p ++ [n]) 0 values)) = describedFields tag g p fields :=
      set_describedFields hs hnodup hdefs hf fun m q hm => hother _ fun heq =>
        hm (List.cons.inj (List.append_cancel_left heq)).1
    have htag : tag ≠ some name := shown_tag hshown
    have hmem : name ∈ (describedFields tag f p fields).map Prod.fst := by
      rw [keys_describedFields]
      exact List.mem_map_of_mem (f := Field.name) hf
    have hdescription : name ∉ (description (f p)).map Prod.fst := fun hin =>
      hs.name_description type n d hd (hname.trans (mem_keys_description hin))
    show Except.ok (Node.dict _) = Except.ok _
    rw [hvalues, hname, described, ← hother p (ne_append_cons p n (i :: path)),
      ofList_described hs hnodup hdefs f p, ofList_described hs hnodup hdefs g p,
      OrderedDict.set_append_left (mem_keys_tagged.mpr (.inr hmem)) hdescription,
      set_tagged htag _ hmem, hfields]

theorem findNodeByPath_scalar (text : String) (q : List Int) (type : Option String) (s : Scalar) :
    findNodeByPath fieldsByNumber (describe text) q type (.scalar s) = .error .assertionError := by
  cases q with
  | nil => rfl
  | cons n q =>
    cases q with
    | nil => rfl
    | cons i q => cases type <;> rfl

/-- 例外にならないのは、そういう `path` だけである。 -/
theorem listPath_of_ok (hs : Schema fieldsByNumber tag) (text : String)
    (f : List Int → Option String) : ∀ (q : List Int) (type : String) (v : Value) (p : List Int)
      (o : Node), Conforms fieldsByNumber type v → (∀ i ∈ q, 0 ≤ i) →
      findNodeByPath fieldsByNumber (describe text) q (some type) (described tag f p v) = .ok o →
      ListPath tag q v
  | [], _, _, _, _, .message _ _ _ _, _, _ => trivial
  | [n], _, _, _, _, .message _ _ _ _, _, h => by
    rw [findNodeByPath] at h
    cases h
  | n :: i :: path, _, _, p, o, @Conforms.message _ type fields hnodup hdefs hmessages
      hscalars, hnonneg, h => by
    have hipos := hnonneg i (by simp)
    rw [described, findNodeByPath] at h
    cases hd : fieldsByNumber type n with
    | none =>
      rw [hd] at h
      cases h
    | some d =>
      have hlookup := lookup_described (f := f) (p := p) hs hnodup hdefs hd type
      simp only [hd, hlookup] at h
      cases hshown : shown tag n fields with
      | none =>
        rw [hshown] at h
        cases h
      | some field =>
        rw [hshown] at h
        obtain rfl := shown_number hshown
        cases field with
        | single name number value =>
          cases value <;> cases h
        | repeated name number values =>
          simp only [Option.map_some, describedField] at h
          split at h
          · cases h
          · next j child hj =>
            obtain ⟨j', hposition, hget⟩ := Option.bind_eq_some_iff.mp hj
            obtain ⟨child', hget, hpair⟩ := Option.map_eq_some_iff.mp hget
            cases hpair
            rw [position_of_nonneg hipos] at hposition
            split at hposition
            · obtain rfl := Option.some.inj hposition
              rw [getElem?_describedValues] at hget
              obtain ⟨value, hi, rfl⟩ := Option.map_eq_some_iff.mp hget
              obtain ⟨o', ho', -⟩ := Py.bind_eq_ok.mp h
              have hf := shown_mem hshown
              have hv := List.mem_of_getElem? hi
              refine ⟨name, values, value, hshown, hi, ?_⟩
              cases hchild : d.messageType with
              | some child =>
                rw [hchild] at ho'
                exact listPath_of_ok hs text f path child value _ o'
                  (hmessages name number values d child hf hd hchild value hv)
                  (fun j hj => hnonneg j (by simp [hj])) ho'
              | none =>
                obtain ⟨s, rfl⟩ := hscalars name number values d hf hd hchild value hv
                rw [described, findNodeByPath_scalar] at ho'
                cases ho'
            · cases hposition

/-! ## `location` の loop -/

/-- 例外にならない loop が足す comment。 -/
def descriptions (f : List Int → Option String) (ls : List Location) : List Int → Option String :=
  ls.foldl (fun f l =>
    if l.comments ≠ "" ∧ l.path.length % 2 = 0 then Function.update f l.path (some l.comments)
    else f) f

theorem return_eq_ok {d o : Node} : (return d : Except ParserError Node) = .ok o ↔ o = d :=
  ⟨fun h => (Except.ok.inj h).symm, fun h => h ▸ rfl⟩

theorem foldComment_ok_iff (hs : Schema fieldsByNumber tag) {descriptor : Value}
    (hconf : Conforms fieldsByNumber "google.protobuf.FileDescriptorProto" descriptor)
    (f : List Int → Option String) {l : Location} (hnonneg : ∀ i ∈ l.path, 0 ≤ i) (o : Node) :
    foldComment fieldsByNumber (described tag f [] descriptor) l = .ok o ↔
      (l.comments ≠ "" → l.path.length % 2 = 0 → ListPath tag l.path descriptor) ∧
        o = described tag (descriptions f [l]) [] descriptor := by
  unfold foldComment descriptions
  by_cases hempty : l.comments = ""
  · rw [if_pos hempty, List.foldl_cons, List.foldl_nil, if_neg fun h => h.1 hempty, return_eq_ok]
    exact ⟨fun h => ⟨fun hne => absurd hempty hne, h⟩, And.right⟩
  · by_cases heven : l.path.length % 2 = 0
    · have hboth : l.comments ≠ "" ∧ l.path.length % 2 = 0 := ⟨hempty, heven⟩
      rw [if_neg hempty, if_pos heven, List.foldl_cons, List.foldl_nil, if_pos hboth]
      constructor
      · intro ho
        have hpath := listPath_of_ok hs _ f _ _ _ _ o hconf hnonneg ho
        have heq := findNodeByPath_described hs l.comments _ _ _ [] f hconf hnonneg hpath
        rw [ho, List.nil_append] at heq
        exact ⟨fun _ _ => hpath, Except.ok.inj heq⟩
      · rintro ⟨hpath, rfl⟩
        have heq := findNodeByPath_described hs l.comments _ _ _ [] f hconf hnonneg
          (hpath hempty heven)
        rwa [List.nil_append] at heq
    · rw [if_neg hempty, if_neg heven, List.foldl_cons, List.foldl_nil, if_neg fun h => heven h.2,
        return_eq_ok]
      exact ⟨fun h => ⟨fun _ hpath => absurd hpath heven, h⟩, And.right⟩

/-- loop が終わるのは、偶数の長さの `path` がどれもたどれるときに限る。 -/
theorem foldlM_ok_iff (hs : Schema fieldsByNumber tag) {descriptor : Value}
    (hconf : Conforms fieldsByNumber "google.protobuf.FileDescriptorProto" descriptor)
    (f : List Int → Option String) (ls : List Location)
    (hnonneg : ∀ l ∈ ls, ∀ i ∈ l.path, 0 ≤ i) (o : Node) :
    ls.foldlM (foldComment fieldsByNumber) (described tag f [] descriptor) = .ok o ↔
      (∀ l ∈ ls, l.comments ≠ "" → l.path.length % 2 = 0 → ListPath tag l.path descriptor) ∧
        o = described tag (descriptions f ls) [] descriptor := by
  induction ls generalizing f with
  | nil =>
    rw [List.foldlM_nil, return_eq_ok]
    exact ⟨fun h => ⟨fun l hl => absurd hl List.not_mem_nil, h⟩, And.right⟩
  | cons l ls ih =>
    rw [List.foldlM_cons, Py.bind_eq_ok, List.forall_mem_cons]
    have hl := hnonneg l List.mem_cons_self
    have hls := fun x hx => hnonneg x (List.mem_cons_of_mem _ hx)
    constructor
    · rintro ⟨o', ho', ho⟩
      obtain ⟨hpath, rfl⟩ := (foldComment_ok_iff hs hconf f hl o').mp ho'
      obtain ⟨hpaths, rfl⟩ := (ih _ hls).mp ho
      exact ⟨⟨hpath, hpaths⟩, rfl⟩
    · rintro ⟨⟨hpath, hpaths⟩, rfl⟩
      exact ⟨_, (foldComment_ok_iff hs hconf f hl _).mpr ⟨hpath, rfl⟩, (ih _ hls).mpr ⟨hpaths, rfl⟩⟩

end Conforms

/-! ## `source_code_info` -/

theorem describedFields_filter (name : String) (fields : List Field) :
    (describedFields tag f p fields).filter (fun e => e.1 ≠ name)
      = describedFields tag f p (fields.filter fun field => field.name ≠ name) := by
  rw [describedFields_eq, describedFields_eq, List.filter_map]
  rfl

theorem del_tagged {name : String} (h : tag ≠ some name) (fullName : String)
    (d : List (String × Node)) :
    OrderedDict.del (tagged tag fullName d) name
      = tagged tag fullName (OrderedDict.del d name) := by
  cases tag with
  | none => rfl
  | some t => exact OrderedDict.del_set_ne fun heq => h (by rw [heq])

theorem del_described {name : String} (h : tag ≠ some name) (hname : name ≠ "_description")
    (fullName : String) (fields : List Field) :
    OrderedDict.del (tagged tag fullName (OrderedDict.ofList (describedFields tag f p fields)) ++
        description (f p)) name
      = tagged tag fullName (OrderedDict.ofList (describedFields tag f p
          (fields.filter fun field => field.name ≠ name))) ++ description (f p) := by
  have hkeep : OrderedDict.del (description (f p)) name = description (f p) := by
    refine List.filter_eq_self.mpr fun e he => decide_eq_true fun heq => hname ?_
    rw [← heq]
    exact mem_keys_description (List.mem_map_of_mem he)
  rw [OrderedDict.del, List.filter_append]
  show OrderedDict.del (tagged _ _ _) name ++ OrderedDict.del (description (f p)) name = _
  rw [hkeep, del_tagged h, OrderedDict.del_ofList, describedFields_filter]

/-- 一番外の message の field の名前。 -/
def fieldNames : Value → List String
  | .scalar _ => []
  | .message _ fields => fields.map Field.name

theorem removeInfo_described (htag : tag ≠ some "source_code_info") (fullName : String)
    (fields : List Field) (o : Node) :
    removeInfo (described tag f p (.message fullName fields)) = .ok o ↔
      "source_code_info" ∈ fieldNames (.message fullName fields) ∧
        o = described tag f p (withoutInfo (.message fullName fields)) := by
  have hmem : "source_code_info" ∈ (tagged tag fullName (OrderedDict.ofList
      (describedFields tag f p fields)) ++ description (f p)).map Prod.fst ↔
        "source_code_info" ∈ fields.map Field.name := by
    have hdescription : "source_code_info" ∉ (description (f p)).map Prod.fst := fun hin =>
      absurd (mem_keys_description hin) (by decide)
    rw [List.map_append, List.mem_append, or_iff_left hdescription, mem_keys_tagged,
      or_iff_right htag, OrderedDict.mem_keys_ofList, keys_describedFields]
  rw [described, removeInfo]
  split
  · next h =>
    rw [del_described htag (by decide), return_eq_ok]
    exact ⟨fun ho => ⟨hmem.mp h, ho⟩, And.right⟩
  · next h => exact iff_of_false (by simp) fun hfold => h (hmem.mpr hfold.1)

/-! ## 足される comment -/

/-- 足された comment は、どれかの `location` のものである。 -/
theorem descriptions_some {ls : List Location} {q : List Int} {text : String}
    (h : descriptions f ls q = some text) : f q = some text ∨
      ∃ l ∈ ls, l.comments ≠ "" ∧ l.path.length % 2 = 0 ∧ l.path = q ∧ l.comments = text := by
  induction ls generalizing f with
  | nil => exact .inl h
  | cons l ls ih =>
    rw [descriptions, List.foldl_cons] at h
    rcases ih h with h | ⟨x, hx, hrest⟩
    · split at h
      · next hl =>
        rw [Function.update_apply] at h
        split at h
        · next hq => exact .inr ⟨l, by simp, hl.1, hl.2, hq.symm, Option.some.inj h⟩
        · exact .inl h
      · exact .inl h
    · exact .inr ⟨x, List.mem_cons_of_mem _ hx, hrest⟩

/-- 偶数の長さの `path` には、必ず comment が足される。 -/
theorem descriptions_ne_none {ls : List Location} {q : List Int} (h : f q ≠ none ∨
    ∃ l ∈ ls, l.comments ≠ "" ∧ l.path.length % 2 = 0 ∧ l.path = q) :
    descriptions f ls q ≠ none := by
  induction ls generalizing f with
  | nil => exact h.resolve_right (by simp)
  | cons l ls ih =>
    rw [descriptions, List.foldl_cons]
    refine ih ?_
    by_cases hl : l.comments ≠ "" ∧ l.path.length % 2 = 0
    · rw [if_pos hl, Function.update_apply]
      rcases h with h | ⟨x, hx, hrest⟩
      · split
        · exact .inl (by simp)
        · exact .inl h
      · rcases List.mem_cons.mp hx with rfl | hx
        · exact .inl (by simp [hrest.2.2])
        · exact .inr ⟨x, hx, hrest⟩
    · rw [if_neg hl]
      refine h.imp_right ?_
      rintro ⟨x, hx, hcomments, heven, hq⟩
      rcases List.mem_cons.mp hx with rfl | hx
      · exact absurd ⟨hcomments, heven⟩ hl
      · exact ⟨x, hx, hcomments, heven, hq⟩

/-! ## まとめ -/

/-- protoc の作る descriptor。 -/
structure Accepted (fieldsByNumber : String → Int → Option FieldDescriptor)
    (tag : Option String) (descriptor : Value) : Prop where
  conforms : Conforms fieldsByNumber "google.protobuf.FileDescriptorProto" descriptor
  paths : ∀ l ∈ locations (described tag (fun _ => none) [] descriptor), ∀ i ∈ l.path, 0 ≤ i

/-- comment は、指す node の `_description` になる。ほかは、`fold_comments` でないときの結果から
`source_code_info` を除いたものである。 -/
def FoldsComments (fieldsByNumber : String → Int → Option FieldDescriptor)
    (tag : Option String) (descriptor : Value) : Prop :=
  ∃ f : List Int → Option String,
    parseFileDescriptor fieldsByNumber tag false descriptor
      = .ok (described tag (fun _ => none) [] descriptor) ∧
    parseFileDescriptor fieldsByNumber tag true descriptor
      = .ok (described tag f [] (withoutInfo descriptor)) ∧
    (∀ l ∈ commented tag descriptor, Addressed tag l.path (withoutInfo descriptor) →
      f l.path = some l.comments) ∧
    ∀ q text, f q = some text → ∃ l ∈ commented tag descriptor, l.path = q ∧ l.comments = text

/-- comment を正しく付けられる descriptor。 -/
structure Foldable (tag : Option String) (descriptor : Value) : Prop where
  parsable : Parsable descriptor
  info : "source_code_info" ∈ fieldNames descriptor
  even : ∀ l ∈ commented tag descriptor, l.path.length % 2 = 0 → ListPath tag l.path descriptor
  odd : ∀ l ∈ commented tag descriptor, l.path.length % 2 = 1 →
    ¬Addressed tag l.path (withoutInfo descriptor)
  same : ∀ l ∈ commented tag descriptor, ∀ l' ∈ commented tag descriptor, l.path = l'.path →
    Addressed tag l.path (withoutInfo descriptor) → l.comments = l'.comments

section FoldComments

variable {fieldsByNumber : String → Int → Option FieldDescriptor} {descriptor : Value}

theorem mem_commented {l : Location} : l ∈ commented tag descriptor ↔
    l ∈ locations (described tag (fun _ => none) [] descriptor) ∧ l.comments ≠ "" := by
  rw [commented, List.mem_filter, decide_eq_true_eq]

/-- `fold_comments` のときの結果。 -/
theorem parseFileDescriptor_true (hs : Schema fieldsByNumber tag)
    (h : Accepted fieldsByNumber tag descriptor) (o : Node) :
    parseFileDescriptor fieldsByNumber tag true descriptor = .ok o ↔
      Parsable descriptor ∧ "source_code_info" ∈ fieldNames descriptor ∧
      (∀ l ∈ commented tag descriptor, l.path.length % 2 = 0 →
        ListPath tag l.path descriptor) ∧
      o = described tag (descriptions (fun _ => none)
        (locations (described tag (fun _ => none) [] descriptor))) [] (withoutInfo descriptor) := by
  obtain ⟨n, d, hd, hname⟩ := hs.info
  have htag : tag ≠ some "source_code_info" := hname ▸ hs.name_tag _ n d hd
  have heven : (∀ l ∈ commented tag descriptor, l.path.length % 2 = 0 →
      ListPath tag l.path descriptor) ↔
        ∀ l ∈ locations (described tag (fun _ => none) [] descriptor), l.comments ≠ "" →
          l.path.length % 2 = 0 → ListPath tag l.path descriptor := by
    simp only [mem_commented, and_imp]
  rw [heven, parseFileDescriptor, Py.bind_eq_ok]
  simp only [parse_ok_iff tag [], if_true, Py.bind_eq_ok]
  constructor
  · rintro ⟨d, ⟨hparsable, rfl⟩, d', hloop, ho⟩
    obtain ⟨hpaths, rfl⟩ := (foldlM_ok_iff hs h.conforms _ _ h.paths d').mp hloop
    obtain ⟨fullName, fields, rfl⟩ := h.conforms.message_eq
    obtain ⟨hinfo, rfl⟩ := (removeInfo_described htag fullName fields o).mp ho
    exact ⟨hparsable, hinfo, hpaths, rfl⟩
  · rintro ⟨hparsable, hinfo, hpaths, rfl⟩
    refine ⟨_, ⟨hparsable, rfl⟩, _,
      (foldlM_ok_iff hs h.conforms _ _ h.paths _).mpr ⟨hpaths, rfl⟩, ?_⟩
    obtain ⟨fullName, fields, rfl⟩ := h.conforms.message_eq
    exact (removeInfo_described htag fullName fields _).mpr ⟨hinfo, rfl⟩

/-- comment が正しく付くのは、`Foldable` のときに限る。 -/
theorem fold_comments_iff {fieldsByNumber : String → Int → Option FieldDescriptor}
    {tag : Option String} {descriptor : Value} (hs : Schema fieldsByNumber tag)
    (h : Accepted fieldsByNumber tag descriptor) :
    FoldsComments fieldsByNumber tag descriptor ↔ Foldable tag descriptor := by
  constructor
  · rintro ⟨f, -, htrue, hcomments, -⟩
    obtain ⟨hparsable, hinfo, heven, heq⟩ := (parseFileDescriptor_true hs h _).mp htrue
    refine ⟨hparsable, hinfo, heven, ?_, ?_⟩
    · intro l hl hodd haddressed
      have hf := hcomments l hl haddressed
      have hpath := h.paths l (mem_commented.mp hl).1
      have hsome := (described_inj _ _ l.path _ [] hpath heq haddressed).symm.trans hf
      rcases descriptions_some hsome with hnone | ⟨x, -, -, hxeven, hxpath, -⟩
      · cases hnone
      · rw [hxpath, List.nil_append] at hxeven
        omega
    · intro l hl l' hl' hpath haddressed
      have hf := hcomments l hl haddressed
      have hf' := hcomments l' hl' (hpath ▸ haddressed)
      rw [← hpath, hf] at hf'
      exact Option.some.inj hf'
  · intro hfold
    refine ⟨_, ?_, (parseFileDescriptor_true hs h _).mpr
      ⟨hfold.parsable, hfold.info, hfold.even, rfl⟩, ?_, ?_⟩
    · rw [parseFileDescriptor, Py.bind_eq_ok]
      exact ⟨_, (parse_ok_iff tag [] _ _).mpr ⟨hfold.parsable, rfl⟩, rfl⟩
    · intro l hl haddressed
      obtain ⟨hmem, hne⟩ := mem_commented.mp hl
      have heven : l.path.length % 2 = 0 := by
        have hodd := mt (hfold.odd l hl) (not_not.mpr haddressed)
        omega
      obtain ⟨text, htext⟩ := Option.ne_none_iff_exists'.mp
        (descriptions_ne_none (f := fun _ => none) (.inr ⟨l, hmem, hne, heven, rfl⟩))
      rcases descriptions_some htext with hnone | ⟨x, hx, hxne, -, hxpath, hxtext⟩
      · cases hnone
      · rw [htext, ← hxtext]
        exact congrArg some (hfold.same l hl x (mem_commented.mpr ⟨hx, hxne⟩) hxpath.symm
          haddressed).symm
    · intro q text htext
      rcases descriptions_some htext with hnone | ⟨x, hx, hxne, -, hxpath, hxtext⟩
      · cases hnone
      · exact ⟨x, mem_commented.mpr ⟨hx, hxne⟩, hxpath, hxtext⟩

end FoldComments

/-! ## `descriptor.proto` -/

def scalarField (name : String) : FieldDescriptor := ⟨name, none⟩

def messageField (name type : String) : FieldDescriptor := ⟨name, some ("google.protobuf." ++ type)⟩

/-- 繰り返しの field だけを通って着く型。 -/
def descriptorTable : List (String × List (Int × FieldDescriptor)) := [
  ("google.protobuf.FileDescriptorProto",
    [(1, scalarField "name"), (2, scalarField "package"), (3, scalarField "dependency"),
      (4, messageField "message_type" "DescriptorProto"),
      (5, messageField "enum_type" "EnumDescriptorProto"),
      (6, messageField "service" "ServiceDescriptorProto"),
      (7, messageField "extension" "FieldDescriptorProto"),
      (8, messageField "options" "FileOptions"),
      (9, messageField "source_code_info" "SourceCodeInfo"),
      (10, scalarField "public_dependency"), (11, scalarField "weak_dependency"),
      (12, scalarField "syntax")]),
  ("google.protobuf.DescriptorProto",
    [(1, scalarField "name"), (2, messageField "field" "FieldDescriptorProto"),
      (3, messageField "nested_type" "DescriptorProto"),
      (4, messageField "enum_type" "EnumDescriptorProto"),
      (5, messageField "extension_range" "DescriptorProto.ExtensionRange"),
      (6, messageField "extension" "FieldDescriptorProto"),
      (7, messageField "options" "MessageOptions"),
      (8, messageField "oneof_decl" "OneofDescriptorProto"),
      (9, messageField "reserved_range" "DescriptorProto.ReservedRange"),
      (10, scalarField "reserved_name")]),
  ("google.protobuf.DescriptorProto.ExtensionRange", [(1, scalarField "start"),
    (2, scalarField "end")]),
  ("google.protobuf.DescriptorProto.ReservedRange", [(1, scalarField "start"),
    (2, scalarField "end")]),
  ("google.protobuf.FieldDescriptorProto",
    [(1, scalarField "name"), (2, scalarField "extendee"), (3, scalarField "number"),
      (4, scalarField "label"), (5, scalarField "type"), (6, scalarField "type_name"),
      (7, scalarField "default_value"), (8, messageField "options" "FieldOptions"),
      (9, scalarField "oneof_index"), (10, scalarField "json_name")]),
  ("google.protobuf.OneofDescriptorProto", [(1, scalarField "name")]),
  ("google.protobuf.EnumDescriptorProto",
    [(1, scalarField "name"), (2, messageField "value" "EnumValueDescriptorProto"),
      (3, messageField "options" "EnumOptions")]),
  ("google.protobuf.EnumValueDescriptorProto",
    [(1, scalarField "name"), (2, scalarField "number"),
      (3, messageField "options" "EnumValueOptions")]),
  ("google.protobuf.ServiceDescriptorProto",
    [(1, scalarField "name"), (2, messageField "method" "MethodDescriptorProto"),
      (3, messageField "options" "ServiceOptions")]),
  ("google.protobuf.MethodDescriptorProto",
    [(1, scalarField "name"), (2, scalarField "input_type"), (3, scalarField "output_type"),
      (4, messageField "options" "MethodOptions"), (5, scalarField "client_streaming"),
      (6, scalarField "server_streaming")])]

def descriptorProto (type : String) (number : Int) : Option FieldDescriptor :=
  (descriptorTable.lookup type).bind fun fields => fields.lookup number

theorem mem_descriptorTable {type : String} {n : Int} {d : FieldDescriptor}
    (h : descriptorProto type n = some d) :
    ∃ fields, descriptorTable.lookup type = some fields ∧ (n, d) ∈ fields := by
  obtain ⟨fields, hfields, hd⟩ := Option.bind_eq_some_iff.mp h
  exact ⟨fields, hfields, OrderedDict.mem_of_lookup hd⟩

theorem schema_descriptorProto : Schema descriptorProto (some "_type") where
  unique type m n d d' hm hn heq := by
    obtain ⟨fields, hfields, hm⟩ := mem_descriptorTable hm
    obtain ⟨fields', hfields', hn⟩ := mem_descriptorTable hn
    obtain rfl := Option.some.inj (hfields.symm.trans hfields')
    have htable : ∀ e ∈ descriptorTable, (e.2.map fun x => x.2.name).Nodup := by decide +kernel
    have hnodup := htable _ (OrderedDict.mem_of_lookup hfields)
    exact congrArg Prod.fst (List.inj_on_of_nodup_map hnodup hm hn heq)
  name_tag type n d h := by
    obtain ⟨fields, hfields, hmem⟩ := mem_descriptorTable h
    have htable : ∀ e ∈ descriptorTable, ∀ x ∈ e.2, some "_type" ≠ some x.2.name := by
      decide +kernel
    exact htable _ (OrderedDict.mem_of_lookup hfields) _ hmem
  name_description type n d h := by
    obtain ⟨fields, hfields, hmem⟩ := mem_descriptorTable h
    have htable : ∀ e ∈ descriptorTable, ∀ x ∈ e.2, x.2.name ≠ "_description" := by
      decide +kernel
    exact htable _ (OrderedDict.mem_of_lookup hfields) _ hmem
  tag_description := by decide
  info := ⟨9, messageField "source_code_info" "SourceCodeInfo", by decide +kernel, rfl⟩

/-- `path` の指すところの前に、comment のある file。 -/
def sample (path : List Int) (comments : String) : Value :=
  .message "google.protobuf.FileDescriptorProto" [
    .single "name" 1 (.scalar (.unicode "test.proto")),
    .repeated "dependency" 3 [.scalar (.unicode "other.proto")],
    .repeated "message_type" 4 [.message "google.protobuf.DescriptorProto" [
      .single "name" 1 (.scalar (.unicode "SampleMessage"))]],
    .single "source_code_info" 9 (.message "google.protobuf.SourceCodeInfo" [
      .repeated "location" 1 [.message "google.protobuf.SourceCodeInfo.Location" [
        .repeated "path" 1 (path.map fun n => .scalar (.int n)),
        .single "leading_comments" 3 (.scalar (.unicode comments))]]])]

theorem conforms_sample (path : List Int) (comments : String) :
    Conforms descriptorProto "google.protobuf.FileDescriptorProto" (sample path comments) := by
  have hmessage : Conforms descriptorProto "google.protobuf.DescriptorProto"
      (.message "google.protobuf.DescriptorProto" [
        .single "name" 1 (.scalar (.unicode "SampleMessage"))]) := by
    refine .message (by decide) ?_ (by simp) (by simp)
    rintro _ (_ | ⟨_, _ | _⟩)
    exact ⟨scalarField "name", by decide +kernel, rfl⟩
  have hname : descriptorProto "google.protobuf.FileDescriptorProto" 1
      = some (scalarField "name") := by decide +kernel
  have hdependency : descriptorProto "google.protobuf.FileDescriptorProto" 3
      = some (scalarField "dependency") := by decide +kernel
  have htype : descriptorProto "google.protobuf.FileDescriptorProto" 4
      = some (messageField "message_type" "DescriptorProto") := by decide +kernel
  have hinfo : descriptorProto "google.protobuf.FileDescriptorProto" 9
      = some (messageField "source_code_info" "SourceCodeInfo") := by decide +kernel
  refine .message (by simp [Field.number]) ?_ ?_ ?_
  · simp only [List.forall_mem_cons, Field.number, Field.name]
    exact ⟨⟨_, hname, rfl⟩, ⟨_, hdependency, rfl⟩, ⟨_, htype, rfl⟩, ⟨_, hinfo, rfl⟩, by simp⟩
  · rintro name number values d child hmem hd hchild v hv
    rcases List.mem_cons.mp hmem with heq | hmem
    · cases heq
    rcases List.mem_cons.mp hmem with heq | hmem
    · cases heq
      obtain rfl := Option.some.inj (hdependency.symm.trans hd)
      cases hchild
    rcases List.mem_cons.mp hmem with heq | hmem
    · cases heq
      obtain rfl := Option.some.inj (htype.symm.trans hd)
      obtain rfl := Option.some.inj hchild
      obtain rfl := List.mem_singleton.mp hv
      exact hmessage
    · cases List.mem_singleton.mp hmem
  · rintro name number values d hmem hd hchild v hv
    rcases List.mem_cons.mp hmem with heq | hmem
    · cases heq
    rcases List.mem_cons.mp hmem with heq | hmem
    · cases heq
      exact ⟨_, List.mem_singleton.mp hv⟩
    rcases List.mem_cons.mp hmem with heq | hmem
    · cases heq
      obtain rfl := Option.some.inj (htype.symm.trans hd)
      cases hchild
    · cases List.mem_singleton.mp hmem

theorem fold_comments_sample :
    FoldsComments descriptorProto (some "_type") (sample [4, 0] " Sample message\n") := by
  have hcommented : commented (some "_type") (sample [4, 0] " Sample message\n")
      = [⟨[4, 0], "Sample message"⟩] := by decide +kernel
  have hpaths : ∀ l ∈ locations (described (some "_type") (fun _ => none) []
      (sample [4, 0] " Sample message\n")), ∀ i ∈ l.path, 0 ≤ i := by decide +kernel
  refine (fold_comments_iff schema_descriptorProto ⟨conforms_sample _ _, hpaths⟩).mpr ?_
  constructor
  · simp [sample, Parsable, ParsableFields, ParsableField, ParsableValues]
  · decide +kernel
  · rw [hcommented, List.forall_mem_singleton]
    exact fun _ => ⟨_, _, _, rfl, rfl, trivial⟩
  · rw [hcommented, List.forall_mem_singleton]
    exact fun h => absurd h (by decide)
  · rw [hcommented]
    simp

/-- import の comment で、例外になる。 -/
theorem import_comment_fails :
    Accepted descriptorProto (some "_type") (sample [3, 0] " The other file\n") ∧
      ¬FoldsComments descriptorProto (some "_type") (sample [3, 0] " The other file\n") := by
  refine ⟨⟨conforms_sample _ _, by decide +kernel⟩, ?_⟩
  rintro ⟨f, -, htrue, -⟩
  have hfails : (parseFileDescriptor descriptorProto (some "_type") true
      (sample [3, 0] " The other file\n")).isOk = false := by decide +kernel
  rw [htrue] at hfails
  cases hfails

end Voltha.Chameleon.DescriptorParser
