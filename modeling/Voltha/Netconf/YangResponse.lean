import Voltha.Lib.Py
import Voltha.Netconf.RpcResponse

/-!
# YANG の XML に残るもの

あるべき変換では、item はどれも一つの要素になり、`yang_field_option` のある `dict` は、`name` の指す子の
中身になる。ほかの要素は、そのまま残る。

`process_element` は、消す要素を `ignore` という名前で表すので、次のときに違うものになる。

* item が `list` か、`yang_field_option` のある `dict` のとき。item の要素が消える
* 名前が `ignore` のとき。一番外の要素が一つだけの `list` のときも、名前は `ignore` になる
* `name` の指す子が `list` のとき、item に list の名前が付かない
* `name` の指す子にも `yang_field_option` があって、その子のほかの要素も残るとき
* `dict` に text があるときと、`plain` に子があるとき

結果が空だと、`<yang/>` が残る。

同じ要素になったかどうかは、番号も含めて比べる。違う要素がたまたま同じ名前になっても、等しいとはしない。
-/

namespace Voltha.Netconf.RpcResponse

/-! ## あるべき変換 -/

mutual

/-- 一つの要素が変わるもの。 -/
def intended : Element → List Node
  | .mk id type tag text children =>
    match type with
    | .list => intendedItems tag children
    | .dict =>
      if inlineOption children then intendedNamed (inlineNodeName children) children
      else [.mk (some id) tag text (intendedAll children)]
    | .plain => [.mk (some id) tag text (intendedAll children)]

/-- 要素の中身が変わるもの。 -/
def intendedContent : Element → List Node
  | .mk _ type tag _ children =>
    match type with
    | .list => intendedItems tag children
    | .dict =>
      if inlineOption children then intendedNamed (inlineNodeName children) children
      else intendedAll children
    | .plain => intendedAll children

/-- item は、list の名前の付いた一つの要素になる。 -/
def intendedItems (tag : String) : List Element → List Node
  | [] => []
  | item :: rest =>
    .mk (some item.id) tag item.text (intendedContent item) :: intendedItems tag rest

def intendedAll : List Element → List Node
  | [] => []
  | elm :: rest => intended elm ++ intendedAll rest

/-- `name` の指す子の中身。 -/
def intendedNamed (name : Option String) : List Element → List Node
  | [] => []
  | elm :: rest => if some elm.tag = name then intendedContent elm else intendedNamed name rest

end

/-! ## 受け入れられる木 -/

mutual

/-- `yang_field_option` のある `dict` には、`name` があり、その名前の子がある。 -/
def WellFormed : Element → Prop
  | .mk _ type _ _ children =>
    (type = .dict → inlineOption children = true →
      ∃ elm ∈ children, inlineNodeName children = some elm.tag) ∧ AllWellFormed children

def AllWellFormed : List Element → Prop
  | [] => True
  | elm :: rest => WellFormed elm ∧ AllWellFormed rest

end

mutual

/-- 木の番号。 -/
def ids : Element → List Nat
  | .mk id _ _ _ children => id :: allIds children

def allIds : List Element → List Nat
  | [] => []
  | elm :: rest => ids elm ++ allIds rest

end

/-! ## 正しく変わる木 -/

mutual

/-- 親に何も足さない要素。 -/
def Vanishes (tag : String) : Element → Prop
  | .mk _ type _ _ children =>
    match type with
    | .list => ItemsVanish tag children
    | .dict =>
      if inlineOption children then NamedVanishes (inlineNodeName children) children
      else tag = "ignore" ∧ AllVanish children
    | .plain => False

def ItemsVanish (tag : String) : List Element → Prop
  | [] => True
  | item :: rest => Vanishes tag item ∧ ItemsVanish tag rest

def AllVanish : List Element → Prop
  | [] => True
  | elm :: rest => Vanishes elm.tag elm ∧ AllVanish rest

def NamedVanishes (name : Option String) : List Element → Prop
  | [] => True
  | elm :: rest => if some elm.tag = name then ContentVanishes elm else NamedVanishes name rest

def ContentVanishes : Element → Prop
  | .mk _ _ _ _ children => AllVanish children

end

mutual

/-- 正しく変わる要素。 -/
def Handled : Element → Prop
  | .mk _ type tag text children =>
    match type with
    | .list => HandledItems tag children
    | .dict =>
      if inlineOption children then HandledNamed (inlineNodeName children) children
      else tag ≠ "ignore" ∧ text = none ∧ AllHandled children
    | .plain => intendedAll children = []

/-- 正しく変わる item。`list` と、`yang_field_option` のある `dict` は入らない。 -/
def HandledItem (tag : String) : Element → Prop
  | .mk _ type _ text children =>
    match type with
    | .list => False
    | .dict =>
      inlineOption children = false ∧ tag ≠ "ignore" ∧ text = none ∧ AllHandled children
    | .plain => intendedAll children = []

def HandledItems (tag : String) : List Element → Prop
  | [] => True
  | item :: rest => HandledItem tag item ∧ HandledItems tag rest

def AllHandled : List Element → Prop
  | [] => True
  | elm :: rest => Handled elm ∧ AllHandled rest

/-- `name` の指す子の中身が正しく変わる。 -/
def HandledNamed (name : Option String) : List Element → Prop
  | [] => True
  | elm :: rest => if some elm.tag = name then HandledContent elm else HandledNamed name rest

def HandledContent : Element → Prop
  | .mk _ type tag _ children =>
    match type with
    | .list => HandledNamedItems tag children
    | .dict =>
      if inlineOption children then HandledSole (inlineNodeName children) children
      else AllHandled children
    | .plain => AllHandled children

/-- item の名前が、はじめから list の名前である。 -/
def HandledNamedItems (tag : String) : List Element → Prop
  | [] => True
  | item :: rest => (item.tag = tag ∧ HandledItem tag item) ∧ HandledNamedItems tag rest

/-- `name` の指す子の中身だけが残る。ほかの子は、何も足さない。 -/
def HandledSole (name : Option String) : List Element → Prop
  | [] => True
  | elm :: rest =>
    if some elm.tag = name then HandledDissolved elm ∧ AllVanish rest
    else Vanishes elm.tag elm ∧ HandledSole name rest

/-- 要素が、その中身に変わる。 -/
def HandledDissolved : Element → Prop
  | .mk _ type tag _ children =>
    match type with
    | .list => HandledItems tag children
    | .dict =>
      if inlineOption children then HandledNamed (inlineNodeName children) children
      else tag = "ignore" ∧ AllHandled children
    | .plain => False

end

/-- 正しく変わる文書。 -/
def HandledDocument (elms : List Element) : Prop :=
  if singleList elms then
    ∀ item ∈ elms, item.children = [] ∨ (item.tag = "ignore" ∧ Handled item)
  else ∀ elm ∈ elms, Handled elm ∧ (elm.type = .plain → elm.tag ≠ "ignore")

/-! ## 例外にならない木 -/

mutual

/-- `process_element` の結果が、親に足すもの。 -/
def appended (tag : String) : Element → List Node
  | .mk id type _ text children =>
    match type with
    | .list => appendedItems tag children
    | .dict =>
      if inlineOption children then appendedNamed (inlineNodeName children) children
      else addNode (.mk (some id) tag none (appendedAll children))
    | .plain => [.mk (some id) tag text []]

def appendedItems (tag : String) : List Element → List Node
  | [] => []
  | elm :: rest => appended tag elm ++ appendedItems tag rest

def appendedAll : List Element → List Node
  | [] => []
  | elm :: rest => appended elm.tag elm ++ appendedAll rest

def appendedNamed (name : Option String) : List Element → List Node
  | [] => []
  | elm :: rest => if some elm.tag = name then appendedContent elm else appendedNamed name rest

def appendedContent : Element → List Node
  | .mk _ _ _ _ children => appendedAll children

end

theorem addNode_ignore (nodes : List Node) : addNode (.mk none "ignore" none nodes) = nodes := rfl

/-- loop の一周。 -/
theorem process_step {tag : String} {elm : Element} {x : Node}
    (hx : processElement tag elm = .ok x)
    (hadd : elm.type ≠ .plain → addNode x = appended tag elm) :
    (if elm.type = .plain then .ok [copyBasicElement tag elm]
      else addNode <$> processElement tag elm)
        = .ok (appended tag elm) := by
  by_cases hplain : elm.type = .plain
  · rw [if_pos hplain]
    cases elm
    cases hplain
    rfl
  · rw [if_neg hplain, hx, ← hadd hplain]
    rfl

mutual

theorem processElement_ok : ∀ (elm : Element) (tag : String), WellFormed elm →
    ∃ x, processElement tag elm = .ok x ∧ (elm.type ≠ .plain → addNode x = appended tag elm) ∧
      (elm.type = .plain → x = copyBasicElement tag elm)
  | .mk id type own text children, tag, h => by
    unfold WellFormed at h
    obtain ⟨hinline, hall⟩ := h
    cases type with
    | list =>
      refine ⟨.mk none "ignore" none (appendedItems tag children), ?_, fun _ => rfl,
        fun h => by cases h⟩
      rw [processElement, processItems_ok children tag hall]
      rfl
    | dict =>
      cases hoption : inlineOption children with
      | true =>
        have hnamed := hinline rfl hoption
        refine ⟨.mk none "ignore" none (appendedNamed (inlineNodeName children) children), ?_, ?_,
          fun h => by cases h⟩
        · rw [processElement, if_pos hoption, processNamed_ok children _ hnamed hall]
          rfl
        · intro _
          rw [appended, if_pos hoption, addNode_ignore]
      | false =>
        refine ⟨.mk (some id) tag none (appendedAll children), ?_, ?_, fun h => by cases h⟩
        · rw [processElement, if_neg (by simp [hoption]), processChildren_ok children hall]
          rfl
        · intro _
          rw [appended, if_neg (by simp [hoption])]
    | plain => exact ⟨_, rfl, fun hne => absurd rfl hne, fun _ => rfl⟩

theorem processItems_ok : ∀ (elems : List Element) (tag : String), AllWellFormed elems →
    processItems tag elems = .ok (appendedItems tag elems)
  | [], _, _ => rfl
  | elm :: rest, tag, h => by
    obtain ⟨hx, hrest⟩ := h
    obtain ⟨x, hx, hadd, -⟩ := processElement_ok elm tag hx
    rw [processItems, process_step hx hadd, processItems_ok rest tag hrest]
    rfl

theorem processChildren_ok : ∀ elems : List Element, AllWellFormed elems →
    processChildren elems = .ok (appendedAll elems)
  | [], _ => rfl
  | elm :: rest, h => by
    obtain ⟨hx, hrest⟩ := h
    obtain ⟨x, hx, hadd, -⟩ := processElement_ok elm elm.tag hx
    rw [processChildren, process_step hx hadd, processChildren_ok rest hrest]
    rfl

theorem processNamed_ok : ∀ (elems : List Element) (name : Option String),
    (∃ elm ∈ elems, name = some elm.tag) → AllWellFormed elems →
      processNamed name elems = .ok (appendedNamed name elems)
  | [], _, h, _ => by simp at h
  | elm :: rest, name, hname, h => by
    obtain ⟨hx, hrest⟩ := h
    rw [processNamed, appendedNamed]
    split
    · exact processContent_ok elm hx
    · next hne =>
      refine processNamed_ok rest name ?_ hrest
      obtain ⟨x, hmem, hxname⟩ := hname
      rcases List.mem_cons.mp hmem with rfl | hmem
      · exact absurd hxname.symm hne
      · exact ⟨x, hmem, hxname⟩

theorem processContent_ok : ∀ elm : Element, WellFormed elm →
    processContent elm = .ok (appendedContent elm)
  | .mk _ _ _ _ children, h => by
    unfold WellFormed at h
    rw [processContent, processChildren_ok children h.2, appendedContent]

end

/-! ## もとの要素の番号 -/

/-- `nodes` は、番号が `s` の要素から作られた。 -/
def FromIds (s : List Nat) (nodes : List Node) : Prop := ∀ x ∈ nodes, ∃ i ∈ s, x.origin = some i

namespace FromIds

variable {s t : List Nat} {a b : List Node}

theorem nil : FromIds s [] := fun _ hx => absurd hx List.not_mem_nil

theorem mono (h : FromIds s a) (hst : ∀ i ∈ s, i ∈ t) : FromIds t a := by
  intro x hx
  obtain ⟨i, hi, hxi⟩ := h x hx
  exact ⟨i, hst i hi, hxi⟩

theorem append (ha : FromIds s a) (hb : FromIds t b) : FromIds (s ++ t) (a ++ b) := by
  intro x hx
  rcases List.mem_append.mp hx with hx | hx
  · obtain ⟨i, hi, hxi⟩ := ha x hx
    exact ⟨i, List.mem_append_left _ hi, hxi⟩
  · obtain ⟨i, hi, hxi⟩ := hb x hx
    exact ⟨i, List.mem_append_right _ hi, hxi⟩

theorem singleton {i : Nat} {tag : String} {text : Option String} {children : List Node}
    (h : i ∈ s) : FromIds s [.mk (some i) tag text children] := by
  intro x hx
  rw [List.mem_singleton.mp hx]
  exact ⟨i, h, rfl⟩

/-- 番号が重ならなければ、同じ要素は無い。 -/
theorem not_mem_of_disjoint (ha : FromIds s a) (hb : FromIds t b) (hst : s.Disjoint t) {x : Node}
    (hxa : x ∈ a) : x ∉ b := by
  intro hxb
  obtain ⟨i, hi, hxi⟩ := ha x hxa
  obtain ⟨j, hj, hxj⟩ := hb x hxb
  obtain rfl := Option.some.inj (hxi.symm.trans hxj)
  exact hst hi hj

/-- 番号の重ならない二つの部分は、別々に等しい。 -/
theorem append_inj {a' b' : List Node} (ha : FromIds s a) (ha' : FromIds s a') (hb : FromIds t b)
    (hb' : FromIds t b') (hst : s.Disjoint t) : a ++ b = a' ++ b' ↔ a = a' ∧ b = b' := by
  refine ⟨fun h => ?_, fun h => by rw [h.1, h.2]⟩
  rcases List.append_eq_append_iff.mp h with ⟨r, rfl, rfl⟩ | ⟨r, rfl, rfl⟩
  · cases r with
    | nil => simp
    | cons x r => exact absurd (by simp) (not_mem_of_disjoint ha' hb hst (x := x) (by simp))
  · cases r with
    | nil => simp
    | cons x r => exact absurd (by simp) (not_mem_of_disjoint ha hb' hst (x := x) (by simp))

end FromIds

theorem mem_ids_self (elm : Element) : elm.id ∈ ids elm := by
  cases elm
  exact List.mem_cons_self

mutual

theorem appended_from : ∀ (elm : Element) (tag : String), FromIds (ids elm) (appended tag elm)
  | .mk id type own text children, tag => by
    have htail : ∀ i ∈ allIds children, i ∈ ids (.mk id type own text children) :=
      fun i hi => List.mem_cons_of_mem _ hi
    cases type with
    | list => exact (appendedItems_from children tag).mono htail
    | dict =>
      rw [appended]
      split
      · exact (appendedNamed_from children _).mono htail
      · unfold addNode
        split
        · exact (appendedAll_from children).mono htail
        · exact .singleton List.mem_cons_self
    | plain => exact .singleton List.mem_cons_self

theorem appendedItems_from : ∀ (elems : List Element) (tag : String),
    FromIds (allIds elems) (appendedItems tag elems)
  | [], _ => .nil
  | elm :: rest, tag => (appended_from elm tag).append (appendedItems_from rest tag)

theorem appendedAll_from : ∀ elems : List Element, FromIds (allIds elems) (appendedAll elems)
  | [] => .nil
  | elm :: rest => (appended_from elm elm.tag).append (appendedAll_from rest)

theorem appendedNamed_from : ∀ (elems : List Element) (name : Option String),
    FromIds (allIds elems) (appendedNamed name elems)
  | [], _ => .nil
  | elm :: rest, name => by
    rw [appendedNamed]
    split
    · exact (appendedContent_from elm).mono fun i hi => List.mem_append_left _ hi
    · exact (appendedNamed_from rest name).mono fun i hi => List.mem_append_right _ hi

theorem appendedContent_from : ∀ elm : Element, FromIds (ids elm) (appendedContent elm)
  | .mk _ _ _ _ children =>
    (appendedAll_from children).mono fun _ hi => List.mem_cons_of_mem _ hi

end

mutual

theorem intended_from : ∀ elm : Element, FromIds (ids elm) (intended elm)
  | .mk id type tag text children => by
    have htail : ∀ i ∈ allIds children, i ∈ ids (.mk id type tag text children) :=
      fun i hi => List.mem_cons_of_mem _ hi
    cases type with
    | list => exact (intendedItems_from children tag).mono htail
    | dict =>
      rw [intended]
      split
      · exact (intendedNamed_from children _).mono htail
      · exact .singleton List.mem_cons_self
    | plain => exact .singleton List.mem_cons_self

/-- 中身は、子から作られる。 -/
theorem intendedContent_from : ∀ elm : Element,
    FromIds (allIds elm.children) (intendedContent elm)
  | .mk id type tag text children => by
    cases type with
    | list => exact intendedItems_from children tag
    | dict =>
      rw [intendedContent]
      split
      · exact intendedNamed_from children _
      · exact intendedAll_from children
    | plain => exact intendedAll_from children

theorem intendedItems_from : ∀ (elems : List Element) (tag : String),
    FromIds (allIds elems) (intendedItems tag elems)
  | [], _ => .nil
  | elm :: rest, tag =>
    (FromIds.singleton (mem_ids_self elm)).append (intendedItems_from rest tag)

theorem intendedAll_from : ∀ elems : List Element, FromIds (allIds elems) (intendedAll elems)
  | [] => .nil
  | elm :: rest => (intended_from elm).append (intendedAll_from rest)

theorem intendedNamed_from : ∀ (elems : List Element) (name : Option String),
    FromIds (allIds elems) (intendedNamed name elems)
  | [], _ => .nil
  | elm :: rest, name => by
    rw [intendedNamed]
    split
    · refine (intendedContent_from elm).mono fun i hi => List.mem_append_left _ ?_
      cases elm
      exact List.mem_cons_of_mem _ hi
    · exact (intendedNamed_from rest name).mono fun i hi => List.mem_append_right _ hi

end

/-! ## 一つの要素 -/

theorem nodup_children {id : Nat} {type : ElementType} {tag : String} {text : Option String}
    {children : List Element} (h : (ids (.mk id type tag text children)).Nodup) :
    id ∉ allIds children ∧ (allIds children).Nodup := List.nodup_cons.mp h

theorem nodup_cons {elm : Element} {rest : List Element} (h : (allIds (elm :: rest)).Nodup) :
    (ids elm).Nodup ∧ (allIds rest).Nodup ∧ (ids elm).Disjoint (allIds rest) := by
  obtain ⟨helm, hrest, hne⟩ := List.nodup_append.mp h
  exact ⟨helm, hrest, fun i hi hi' => hne i hi i hi' rfl⟩

theorem mem_ids_child {elm : Element} {i : Nat} (h : i ∈ allIds elm.children) : i ∈ ids elm := by
  cases elm
  exact List.mem_cons_of_mem _ h

theorem FromIds.ne_singleton {s : List Nat} {nodes : List Node} (h : FromIds s nodes) {i : Nat}
    (hi : i ∉ s) (tag : String) (text : Option String) (children : List Node) :
    nodes ≠ [.mk (some i) tag text children] := by
  rintro rfl
  obtain ⟨j, hj, heq⟩ := h _ List.mem_cons_self
  exact hi (Option.some.inj heq ▸ hj)

mutual

theorem appended_eq_nil : ∀ (elm : Element) (tag : String),
    appended tag elm = [] ↔ Vanishes tag elm
  | .mk id type own text children, tag => by
    cases type with
    | list => exact appendedItems_eq_nil children tag
    | dict =>
      rw [appended, Vanishes]
      split
      · exact appendedNamed_eq_nil children _
      · unfold addNode
        split
        · next htag =>
          have hmem := appendedAll_eq_nil children
          exact hmem.trans (iff_and_self.mpr fun _ => htag)
        · next htag => exact iff_of_false (by simp) fun h => htag h.1
    | plain => exact iff_of_false (by simp [appended]) False.elim

theorem appendedItems_eq_nil : ∀ (elems : List Element) (tag : String),
    appendedItems tag elems = [] ↔ ItemsVanish tag elems
  | [], _ => iff_of_true rfl trivial
  | elm :: rest, tag => by
    rw [appendedItems, List.append_eq_nil_iff, appended_eq_nil elm tag,
      appendedItems_eq_nil rest tag]
    rfl

theorem appendedAll_eq_nil : ∀ elems : List Element, appendedAll elems = [] ↔ AllVanish elems
  | [] => iff_of_true rfl trivial
  | elm :: rest => by
    rw [appendedAll, List.append_eq_nil_iff, appended_eq_nil elm elm.tag, appendedAll_eq_nil rest]
    rfl

theorem appendedNamed_eq_nil : ∀ (elems : List Element) (name : Option String),
    appendedNamed name elems = [] ↔ NamedVanishes name elems
  | [], _ => iff_of_true rfl trivial
  | elm :: rest, name => by
    rw [appendedNamed, NamedVanishes]
    split
    · exact appendedContent_eq_nil elm
    · exact appendedNamed_eq_nil rest name

theorem appendedContent_eq_nil : ∀ elm : Element, appendedContent elm = [] ↔ ContentVanishes elm
  | .mk _ _ _ _ children => appendedAll_eq_nil children

end

/-- 自分の番号の要素が一つできるなら、その名前は今の名前である。 -/
theorem appended_tag {elm : Element} {tag tag' : String} {text : Option String}
    {children : List Node} (hnodup : (ids elm).Nodup)
    (h : appended tag elm = [.mk (some elm.id) tag' text children]) : tag = tag' := by
  obtain ⟨id, type, own, text', elems⟩ := elm
  obtain ⟨hid, -⟩ := nodup_children hnodup
  cases type with
  | list => exact absurd h ((appendedItems_from elems tag).ne_singleton hid _ _ _)
  | dict =>
    rw [appended] at h
    split at h
    · exact absurd h ((appendedNamed_from elems _).ne_singleton hid _ _ _)
    · unfold addNode at h
      split at h
      · exact absurd h ((appendedAll_from elems).ne_singleton hid _ _ _)
      · cases h
        rfl
  | plain =>
    cases h
    rfl

/-- `dict` の要素が残るのは、名前が `ignore` でないときである。 -/
theorem addNode_iff {s : List Nat} {a b : List Node} (ha : FromIds s a) {id : Nat} (hid : id ∉ s)
    (tag : String) (text : Option String) :
    addNode (.mk (some id) tag none a) = [.mk (some id) tag text b] ↔
      tag ≠ "ignore" ∧ text = none ∧ a = b := by
  by_cases htag : tag = "ignore"
  · have hadd : addNode (.mk (some id) tag none a) = a := if_pos htag
    rw [hadd]
    exact iff_of_false (ha.ne_singleton hid _ _ _) fun h => h.1 htag
  · have hadd : addNode (.mk (some id) tag none a) = [.mk (some id) tag none a] := if_neg htag
    rw [hadd]
    simp [htag, eq_comm]

theorem copy_iff (id : Nat) (tag : String) (text : Option String) (nodes : List Node) :
    [Node.mk (some id) tag text []] = [.mk (some id) tag text nodes] ↔ nodes = [] := by
  simp [eq_comm]

mutual

theorem appended_iff : ∀ elm : Element, WellFormed elm → (ids elm).Nodup →
    (appended elm.tag elm = intended elm ↔ Handled elm)
  | .mk id type tag text children, h, hnodup => by
    unfold WellFormed at h
    obtain ⟨-, hall⟩ := h
    obtain ⟨hid, hchildren⟩ := nodup_children hnodup
    cases type with
    | list => exact appendedItems_iff children tag hall hchildren
    | dict =>
      rw [appended, intended, Handled]
      split
      · exact appendedNamed_iff children _ hall hchildren
      · exact (addNode_iff (appendedAll_from children) hid tag text).trans
          (and_congr_right' (and_congr_right' (appendedAll_iff children hall hchildren)))
    | plain => exact copy_iff id tag text (intendedAll children)

theorem appendedItem_iff : ∀ (elm : Element) (tag : String), WellFormed elm → (ids elm).Nodup →
    (appended tag elm = [.mk (some elm.id) tag elm.text (intendedContent elm)] ↔
      HandledItem tag elm)
  | .mk id type own text children, tag, h, hnodup => by
    unfold WellFormed at h
    obtain ⟨-, hall⟩ := h
    obtain ⟨hid, hchildren⟩ := nodup_children hnodup
    cases type with
    | list =>
      exact iff_of_false ((appendedItems_from children tag).ne_singleton hid _ _ _) False.elim
    | dict =>
      rw [appended, HandledItem]
      cases hoption : inlineOption children with
      | true =>
        rw [if_pos rfl]
        exact iff_of_false ((appendedNamed_from children _).ne_singleton hid _ _ _) (by simp)
      | false =>
        have hcontent : intendedContent (.mk id .dict own text children)
            = intendedAll children := by
          rw [intendedContent, if_neg (by simp [hoption])]
        rw [if_neg (by simp), hcontent]
        refine (addNode_iff (appendedAll_from children) hid tag text).trans ?_
        rw [appendedAll_iff children hall hchildren]
        simp
    | plain => exact copy_iff id tag text (intendedAll children)

theorem appendedItems_iff : ∀ (elems : List Element) (tag : String), AllWellFormed elems →
    (allIds elems).Nodup → (appendedItems tag elems = intendedItems tag elems ↔
      HandledItems tag elems)
  | [], _, _, _ => iff_of_true rfl trivial
  | elm :: rest, tag, h, hnodup => by
    obtain ⟨helm, hrest, hdisjoint⟩ := nodup_cons hnodup
    rw [appendedItems, intendedItems, ← List.singleton_append, FromIds.append_inj
      (appended_from elm tag) (.singleton (mem_ids_self elm)) (appendedItems_from rest tag)
      (intendedItems_from rest tag) hdisjoint, appendedItem_iff elm tag h.1 helm,
      appendedItems_iff rest tag h.2 hrest]
    rfl

theorem appendedAll_iff : ∀ elems : List Element, AllWellFormed elems → (allIds elems).Nodup →
    (appendedAll elems = intendedAll elems ↔ AllHandled elems)
  | [], _, _ => iff_of_true rfl trivial
  | elm :: rest, h, hnodup => by
    obtain ⟨helm, hrest, hdisjoint⟩ := nodup_cons hnodup
    rw [appendedAll, intendedAll, FromIds.append_inj (appended_from elm elm.tag)
      (intended_from elm) (appendedAll_from rest) (intendedAll_from rest) hdisjoint,
      appended_iff elm h.1 helm, appendedAll_iff rest h.2 hrest]
    rfl

theorem appendedNamed_iff : ∀ (elems : List Element) (name : Option String), AllWellFormed elems →
    (allIds elems).Nodup → (appendedNamed name elems = intendedNamed name elems ↔
      HandledNamed name elems)
  | [], _, _, _ => iff_of_true rfl trivial
  | elm :: rest, name, h, hnodup => by
    obtain ⟨helm, hrest, -⟩ := nodup_cons hnodup
    rw [appendedNamed, intendedNamed, HandledNamed]
    split
    · exact appendedContent_iff elm h.1 helm
    · exact appendedNamed_iff rest name h.2 hrest

theorem appendedContent_iff : ∀ elm : Element, WellFormed elm → (ids elm).Nodup →
    (appendedContent elm = intendedContent elm ↔ HandledContent elm)
  | .mk id type tag text children, h, hnodup => by
    unfold WellFormed at h
    obtain ⟨-, hall⟩ := h
    obtain ⟨-, hchildren⟩ := nodup_children hnodup
    cases type with
    | list => exact appendedNamedItems_iff children tag hall hchildren
    | dict =>
      rw [appendedContent, intendedContent, HandledContent]
      split
      · exact appendedSole_iff children _ hall hchildren
      · exact appendedAll_iff children hall hchildren
    | plain => exact appendedAll_iff children hall hchildren

theorem appendedNamedItems_iff : ∀ (elems : List Element) (tag : String), AllWellFormed elems →
    (allIds elems).Nodup → (appendedAll elems = intendedItems tag elems ↔
      HandledNamedItems tag elems)
  | [], _, _, _ => iff_of_true rfl trivial
  | elm :: rest, tag, h, hnodup => by
    obtain ⟨helm, hrest, hdisjoint⟩ := nodup_cons hnodup
    have hitem : appended elm.tag elm
        = [.mk (some elm.id) tag elm.text (intendedContent elm)] ↔
          elm.tag = tag ∧ HandledItem tag elm := by
      constructor
      · intro heq
        obtain rfl := appended_tag helm heq
        exact ⟨rfl, (appendedItem_iff elm _ h.1 helm).mp heq⟩
      · rintro ⟨rfl, hhandled⟩
        exact (appendedItem_iff elm _ h.1 helm).mpr hhandled
    rw [appendedAll, intendedItems, ← List.singleton_append, FromIds.append_inj
      (appended_from elm elm.tag) (.singleton (mem_ids_self elm)) (appendedAll_from rest)
      (intendedItems_from rest tag) hdisjoint, hitem, appendedNamedItems_iff rest tag h.2 hrest]
    rfl

/-- 子を全部並べたものが、`name` の指す子の中身になる。 -/
theorem appendedSole_iff : ∀ (elems : List Element) (name : Option String), AllWellFormed elems →
    (allIds elems).Nodup → (appendedAll elems = intendedNamed name elems ↔ HandledSole name elems)
  | [], _, _, _ => iff_of_true rfl trivial
  | elm :: rest, name, h, hnodup => by
    obtain ⟨helm, hrest, hdisjoint⟩ := nodup_cons hnodup
    have hcontent : FromIds (ids elm) (intendedContent elm) :=
      (intendedContent_from elm).mono fun _ => mem_ids_child
    rw [appendedAll, intendedNamed, HandledSole]
    split
    · rw [← List.append_nil (intendedContent elm), FromIds.append_inj (appended_from elm elm.tag)
        hcontent (appendedAll_from rest) .nil hdisjoint, appendedDissolved_iff elm h.1 helm,
        appendedAll_eq_nil]
    · rw [← List.nil_append (intendedNamed name rest), FromIds.append_inj
        (appended_from elm elm.tag) .nil (appendedAll_from rest) (intendedNamed_from rest name)
        hdisjoint, appended_eq_nil, appendedSole_iff rest name h.2 hrest]

theorem appendedDissolved_iff : ∀ elm : Element, WellFormed elm → (ids elm).Nodup →
    (appended elm.tag elm = intendedContent elm ↔ HandledDissolved elm)
  | .mk id type tag text children, h, hnodup => by
    unfold WellFormed at h
    obtain ⟨-, hall⟩ := h
    obtain ⟨hid, hchildren⟩ := nodup_children hnodup
    cases type with
    | list => exact appendedItems_iff children tag hall hchildren
    | dict =>
      rw [appended, intendedContent, HandledDissolved]
      split
      · exact appendedNamed_iff children _ hall hchildren
      · unfold addNode
        split
        · next htag =>
          exact (appendedAll_iff children hall hchildren).trans (iff_and_self.mpr fun _ => htag)
        · next htag =>
          exact iff_of_false ((intendedAll_from children).ne_singleton hid _ _ _).symm
            fun h => htag h.1
    | plain =>
      exact iff_of_false ((intendedAll_from children).ne_singleton hid _ _ _).symm False.elim

end

/-! ## 文書 -/

/-- 一番外の要素が、`yang` に足すもの。 -/
def placed (elm : Element) : List Node :=
  if elm.type = .plain ∧ elm.tag = "ignore" then [] else appended elm.tag elm

theorem process_placed {elm : Element} (h : WellFormed elm) :
    addNode <$> processElement elm.tag elm = .ok (placed elm) := by
  obtain ⟨x, hx, hadd, hcopy⟩ := processElement_ok elm elm.tag h
  rw [hx]
  unfold placed
  by_cases hplain : elm.type = .plain
  · rw [hcopy hplain]
    by_cases htag : elm.tag = "ignore"
    · rw [if_pos ⟨hplain, htag⟩]
      exact congrArg Except.ok (if_pos htag)
    · have hnode : addNode (copyBasicElement elm.tag elm) = [copyBasicElement elm.tag elm] :=
        if_neg htag
      rw [if_neg fun h => htag h.2]
      refine (congrArg Except.ok hnode).trans ?_
      cases elm
      cases hplain
      rfl
  · rw [if_neg fun h => hplain h.1, ← hadd hplain]
    rfl

theorem AllWellFormed.mem {elms : List Element} (h : AllWellFormed elms) {elm : Element}
    (hm : elm ∈ elms) : WellFormed elm := by
  induction elms with
  | nil => cases hm
  | cons e rest ih =>
    rcases List.mem_cons.mp hm with rfl | hm
    · exact h.1
    · exact ih h.2 hm

theorem singleList_cases {elms : List Element} (h : singleList elms = true) :
    ∃ id tag text children, elms = [.mk id .list tag text children] := by
  unfold singleList at h
  split at h
  · next item =>
    obtain ⟨id, type, tag, text, children⟩ := item
    cases of_decide_eq_true h
    exact ⟨id, tag, text, children, rfl⟩
  · cases h

/-- `to_yang_xml` は、例外にならない。 -/
theorem toYangXml_ok {elms : List Element} (h : AllWellFormed elms) :
    toYangXml elms = .ok (yangNode
      (if singleList elms then elms.flatMap (appended "ignore") else elms.flatMap placed)) := by
  unfold toYangXml
  by_cases hsingle : singleList elms = true
  · obtain ⟨id, tag, text, children, rfl⟩ := singleList_cases hsingle
    obtain ⟨x, hx, hadd, -⟩ := processElement_ok _ "ignore" (h.mem List.mem_cons_self)
    have hlist : (Element.mk id .list tag text children).type ≠ .plain := by simp [Element.type]
    rw [if_pos hsingle, if_pos hsingle, Py.mapM_of_ok (g := appended "ignore")]
    · rfl
    · intro elm helm
      rw [List.mem_singleton.mp helm, hx, ← hadd hlist]
      rfl
  · rw [if_neg hsingle, if_neg hsingle, Py.mapM_of_ok fun elm helm => process_placed (h.mem helm)]
    rfl

theorem placed_from (elm : Element) : FromIds (ids elm) (placed elm) := by
  unfold placed
  split
  · exact .nil
  · exact appended_from elm elm.tag

theorem placed_iff {elm : Element} (h : WellFormed elm) (hnodup : (ids elm).Nodup) :
    placed elm = intended elm ↔ Handled elm ∧ (elm.type = .plain → elm.tag ≠ "ignore") := by
  unfold placed
  split
  · next hignore =>
    refine iff_of_false ?_ fun hh => hh.2 hignore.1 hignore.2
    cases elm
    cases hignore.1
    exact fun heq => by cases heq
  · next hignore =>
    rw [appended_iff elm h hnodup, iff_self_and]
    exact fun _ hplain htag => hignore ⟨hplain, htag⟩

theorem flatMap_placed_iff {elms : List Element} (h : AllWellFormed elms)
    (hnodup : (allIds elms).Nodup) : elms.flatMap placed = intendedAll elms ↔
      ∀ elm ∈ elms, Handled elm ∧ (elm.type = .plain → elm.tag ≠ "ignore") := by
  have hfrom : ∀ l : List Element, FromIds (allIds l) (l.flatMap placed) := by
    intro l
    induction l with
    | nil => exact .nil
    | cons e l ih => exact (placed_from e).append ih
  induction elms with
  | nil => simp [intendedAll]
  | cons elm rest ih =>
    obtain ⟨helm, hrest, hdisjoint⟩ := nodup_cons hnodup
    rw [List.flatMap_cons, intendedAll, FromIds.append_inj (placed_from elm) (intended_from elm)
      (hfrom rest) (intendedAll_from rest) hdisjoint, placed_iff h.1 helm, List.forall_mem_cons]
    exact and_congr_right' (ih h.2 hrest)

/-- 一番外の一つだけの `list` では、名前が `ignore` でないと、item が残らない。 -/
theorem single_iff (id : Nat) (tag : String) (text : Option String) {children : List Element}
    (h : AllWellFormed children) (hnodup : (allIds children).Nodup) :
    appendedItems "ignore" children = intendedItems tag children ↔
      children = [] ∨ (tag = "ignore" ∧ Handled (.mk id .list tag text children)) := by
  by_cases htag : tag = "ignore"
  · subst htag
    rw [appendedItems_iff children "ignore" h hnodup]
    constructor
    · exact fun hh => .inr ⟨rfl, hh⟩
    · rintro (rfl | ⟨-, hh⟩)
      · trivial
      · exact hh
  · cases children with
    | nil => exact iff_of_true rfl (.inl rfl)
    | cons elm rest =>
      obtain ⟨helm, -, hdisjoint⟩ := nodup_cons hnodup
      refine iff_of_false ?_ (by simp [htag])
      rw [appendedItems, intendedItems, ← List.singleton_append, FromIds.append_inj
        (appended_from elm "ignore") (.singleton (mem_ids_self elm)) (appendedItems_from rest _)
        (intendedItems_from rest tag) hdisjoint]
      exact fun heq => htag (appended_tag helm heq.1).symm

/-- 変換が正しいのは、`HandledDocument` のときに限る。 -/
theorem toYangXml_iff {elms : List Element} (h : AllWellFormed elms)
    (hnodup : (allIds elms).Nodup) :
    toYangXml elms = .ok (yangNode (intendedAll elms)) ↔ HandledDocument elms := by
  have hinj : ∀ a b : List Node, (.ok (yangNode a) : Except RpcError Node) = .ok (yangNode b) ↔
      a = b := fun a b => by simp [yangNode]
  rw [toYangXml_ok h, hinj]
  unfold HandledDocument
  by_cases hsingle : singleList elms = true
  · obtain ⟨id, tag, text, children, rfl⟩ := singleList_cases hsingle
    obtain ⟨hitem, -, -⟩ := nodup_cons hnodup
    have hchildren : AllWellFormed children := by
      have hw := h.1
      unfold WellFormed at hw
      exact hw.2
    rw [if_pos hsingle, if_pos hsingle, List.forall_mem_singleton]
    have hiff := single_iff id tag text hchildren (nodup_children hitem).2
    simpa [appended, intendedAll, intended, Element.children, Element.tag] using hiff
  · rw [if_neg hsingle, if_neg hsingle]
    exact flatMap_placed_iff h hnodup

/-! ## 答え -/

/-- `data` で包んだ答え。 -/
def wrapped (className : String) (subclass : Option String) (children : List Tree) : Tree :=
  .mk "data" none [.mk className none (match subclass with
    | some subclass => [.mk subclass none children]
    | none => children)]

/-- lxml の文書のとおり、書いた要素は同じ要素に読み戻される。 -/
structure Lxml.Documented (lxml : Lxml) (className : String) (subclass : Option String)
    (children : List Tree) : Prop where
  empty : lxml.tostring (.mk "yang" none []) = "<yang/>"
  nonempty : children ≠ [] → lxml.tostring (.mk "yang" none children)
    = "<yang>" ++ String.join (children.map lxml.tostring) ++ "</yang>"
  fromstring : lxml.fromstring (body className subclass
    (String.join (children.map lxml.tostring))) = .ok (wrapped className subclass children)
  fromstring_yang : lxml.fromstring (body className subclass "<yang/>")
    = .ok (wrapped className subclass [.mk "yang" none []])

/-- list の item は分かれたままで、答えは変換した要素だけを包む。 -/
structure KeepsApart (lxml : Lxml) (request : List (String × String)) (className : String)
    (elms : List Element) : Prop where
  converted : toYangXml elms = .ok (yangNode (intendedAll elms))
  response : buildYangResponse lxml elms (some request)
    = .ok (some (wrapped className (request.lookup "subclass") (trees (intendedAll elms))))

theorem removeYang_yang (content : String) :
    removeYang ("<yang>" ++ content ++ "</yang>") = content := by
  have hlist : ("<yang>" ++ content ++ "</yang>").toList
      = "<yang>".toList ++ (content.toList ++ "</yang>".toList) := by simp
  have hdrop : ("<yang>".toList ++ (content.toList ++ "</yang>".toList)).drop "<yang>".length
      = content.toList ++ "</yang>".toList := List.drop_left
  have htake : (content.toList ++ "</yang>".toList).take
      ((content.toList ++ "</yang>".toList).length - "</yang>".length) = content.toList := by
    have hlength : (content.toList ++ "</yang>".toList).length - "</yang>".length
        = content.toList.length := by
      rw [List.length_append, String.length_toList, String.length_toList, Nat.add_sub_cancel]
    rw [hlength, List.take_left]
  rw [removeYang, hlist, if_pos (List.prefix_append _ _)]
  simp only [hdrop, htake, if_pos (List.suffix_append content.toList "</yang>".toList),
    String.ofList_toList]

theorem trees_eq_nil {nodes : List Node} : trees nodes = [] ↔ nodes = [] := by
  cases nodes <;> simp [trees]

theorem wrapped_inj {className : String} {subclass : Option String} {a b : List Tree}
    (h : wrapped className subclass a = wrapped className subclass b) : a = b := by
  cases subclass <;> simpa [wrapped] using h

/-- 変換したものが空だと、`<yang/>` が残る。 -/
theorem buildYangResponse_ok {lxml : Lxml} {request : List (String × String)} {className : String}
    {elms : List Element} {nodes : List Node} (hclass : request.lookup "class" = some className)
    (hok : toYangXml elms = .ok (yangNode nodes))
    (hx : lxml.Documented className (request.lookup "subclass") (trees nodes)) :
    buildYangResponse lxml elms (some request) = .ok (some (wrapped className
      (request.lookup "subclass") (if nodes = [] then [.mk "yang" none []] else trees nodes))) := by
  have hbuild : buildXmlResponse lxml (some request) (tree (yangNode nodes))
      = .ok (some (wrapped className (request.lookup "subclass")
        (if nodes = [] then [.mk "yang" none []] else trees nodes))) := by
    simp only [buildXmlResponse, hclass]
    by_cases hnil : nodes = []
    · subst hnil
      have hkeep : removeYang "<yang/>" = "<yang/>" := by decide +kernel
      have hempty : lxml.tostring (tree (yangNode [])) = "<yang/>" := hx.empty
      rw [hempty, hkeep, hx.fromstring_yang, if_pos rfl]
      rfl
    · have hnonempty := hx.nonempty (mt trees_eq_nil.mp hnil)
      have htree : tree (yangNode nodes) = .mk "yang" none (trees nodes) := rfl
      rw [htree, hnonempty, removeYang_yang, hx.fromstring, if_neg hnil]
      rfl
  have hbind : (toYangXml elms >>= fun yangXml => buildXmlResponse lxml (some request)
      (tree yangXml)) = buildXmlResponse lxml (some request) (tree (yangNode nodes)) := by
    rw [hok]
    rfl
  rw [buildYangResponse, hbind, hbuild]

/-- item が分かれたままなのは、正しく変わる文書で、結果が空でないときに限る。 -/
theorem keeps_apart_iff {lxml : Lxml} {request : List (String × String)} {className : String}
    {elms : List Element} (h : AllWellFormed elms) (hnodup : (allIds elms).Nodup)
    (hclass : request.lookup "class" = some className)
    (hx : ∀ out, toYangXml elms = .ok out →
      lxml.Documented className (request.lookup "subclass") (trees out.children)) :
    (∃ out, toYangXml elms = .ok out) ∧
      (KeepsApart lxml request className elms ↔ HandledDocument elms ∧ intendedAll elms ≠ []) := by
  refine ⟨⟨_, toYangXml_ok h⟩, ?_⟩
  constructor
  · rintro ⟨hconverted, hresponse⟩
    refine ⟨(toYangXml_iff h hnodup).mp hconverted, fun hnil => ?_⟩
    rw [hnil] at hconverted hresponse
    have hyang := buildYangResponse_ok hclass hconverted (hx _ hconverted)
    rw [hresponse, if_pos rfl] at hyang
    have hinj := wrapped_inj (Option.some.inj (Except.ok.inj hyang))
    cases hinj
  · rintro ⟨hhandled, hne⟩
    have hconverted := (toYangXml_iff h hnodup).mpr hhandled
    refine ⟨hconverted, ?_⟩
    rw [buildYangResponse_ok hclass hconverted (hx _ hconverted), if_neg hne]

mutual

/-- `etree.tostring`。中身の無い要素は、一つの tag で書く。 -/
def write : Tree → String
  | .mk tag text children =>
    let content := text.getD "" ++ writes children
    if content = "" then "<" ++ tag ++ "/>" else "<" ++ tag ++ ">" ++ content ++ "</" ++ tag ++ ">"

def writes : List Tree → String
  | [] => ""
  | tree :: rest => write tree ++ writes rest

end

/-- `response` と、空の `yang` だけを読む。 -/
def readers (className : String) (response : List Tree) : Lxml where
  tostring := write
  fromstring s :=
    if s = body className none (String.join (response.map write)) then
      .ok (wrapped className none response)
    else if s = body className none "<yang/>" then
      .ok (wrapped className none [.mk "yang" none []])
    else .error .xmlSyntaxError

theorem readers_response (className : String) (response : List Tree) :
    (readers className response).fromstring
        (body className none (String.join (response.map write)))
      = .ok (wrapped className none response) := by
  simp [readers]

theorem readers_yang {className : String} {response : List Tree}
    (h : body className none "<yang/>" ≠ body className none (String.join (response.map write))) :
    (readers className response).fromstring (body className none "<yang/>")
      = .ok (wrapped className none [.mk "yang" none []]) := by
  simp [readers, h]

/-- 二つの device と、その数。 -/
def countedDevices : List Element :=
  [.mk 0 .plain "total" (some "2") [],
    .mk 1 .list "items" none
      [.mk 2 .dict "item" none [.mk 3 .plain "id" (some "a") []],
        .mk 4 .dict "item" none [.mk 5 .plain "id" (some "b") []]]]

theorem keeps_apart_counted :
    KeepsApart (readers "Voltha" (trees (intendedAll countedDevices))) [("class", "Voltha")]
      "Voltha" countedDevices := by
  have hwell : AllWellFormed countedDevices := by
    simp [countedDevices, AllWellFormed, WellFormed, inlineOption, Element.tag]
  have hhandled : HandledDocument countedDevices := by
    simp [countedDevices, HandledDocument, singleList, Handled, HandledItems, HandledItem,
      AllHandled, intendedAll, inlineOption, Element.tag, Element.type]
  have hconverted : toYangXml countedDevices = .ok (yangNode (intendedAll countedDevices)) :=
    (toYangXml_iff hwell (by decide)).mpr hhandled
  refine (keeps_apart_iff hwell (by decide) rfl fun out hout => ?_).2.mpr
    ⟨hhandled, by simp [countedDevices, intendedAll, intended]⟩
  obtain rfl := Except.ok.inj (hconverted.symm.trans hout)
  exact {
    empty := by decide +kernel
    nonempty := fun _ => by decide +kernel
    fromstring := readers_response _ _
    fromstring_yang := readers_yang (by decide +kernel) }

/-- 一番外が一つだけの `list` のとき、二つの device の中身が混ざる。 -/
def devices : List Element :=
  [.mk 0 .list "items" none
    [.mk 1 .dict "item" none [.mk 2 .plain "id" (some "a") []],
      .mk 3 .dict "item" none [.mk 4 .plain "id" (some "b") []]]]

theorem devices_merged :
    (AllWellFormed devices ∧ (allIds devices).Nodup) ∧
      toYangXml devices
        = .ok (yangNode [.mk (some 2) "id" (some "a") [], .mk (some 4) "id" (some "b") []]) ∧
      ∀ lxml request className, ¬ KeepsApart lxml request className devices := by
  have hmerged : toYangXml devices
      = .ok (yangNode [.mk (some 2) "id" (some "a") [], .mk (some 4) "id" (some "b") []]) := rfl
  refine ⟨⟨?_, by decide⟩, hmerged, fun lxml request className h => ?_⟩
  · simp [devices, AllWellFormed, WellFormed, inlineOption, Element.tag]
  · have hconverted := h.converted
    rw [hmerged] at hconverted
    simp [devices, intendedAll, intended, intendedItems, yangNode] at hconverted

end Voltha.Netconf.RpcResponse
