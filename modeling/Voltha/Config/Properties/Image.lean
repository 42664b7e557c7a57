import Voltha.Config.Properties.Isolation

/-!
# 版の見かけ

読みは、版の object の同一性にはよらず、node と local data だけで決まる。
版からその二つだけを残したものを `image` と呼ぶ。
`image` の等しい版は、どの path をどの深さで読んでも同じものを返す。
-/

namespace Voltha.Config

variable {S : Schema} {s : State} {r r' : Rev}

namespace Rev

/-- node と local data だけを残したもの。 -/
def image (r : Rev) : FieldTree (NodeId × Data) := r.map fun i => (i.node, i.config)

theorem label_image (r : Rev) : (image r).label = (node r, config r) := by
  unfold image; rw [FieldTree.label_map]; rfl

theorem node_of_image (h : image r = image r') : node r = node r' := by
  have := congrArg (fun t => t.label.1) h
  simpa [label_image] using this

theorem config_of_image (h : image r = image r') : config r = config r' := by
  have := congrArg (fun t => t.label.2) h
  simpa [label_image] using this

theorem content_of_image (h : image r = image r') : content r = content r' := by
  have hc : ∀ r : Rev, content r = (image r).map Prod.snd := by
    intro r
    unfold image content
    rw [FieldTree.map_map]
    rfl
  rw [hc r, hc r', h]

theorem child_image (r : Rev) (f : String) : (image r).child f = (r.child f).map image :=
  FieldTree.child_map _ _ _

theorem child_of_image (h : image r = image r') (f : String) :
    (r.child f).map image = (r'.child f).map image := by
  rw [← child_image, ← child_image, h]

/-- 子の辞書と local data と node から決まる。 -/
theorem image_mk (i : RevInfo) (cs : List (String × List Rev)) :
    image (.mk i cs) = .mk (i.node, i.config) (cs.map fun p => (p.1, p.2.map image)) := by
  unfold image; rw [FieldTree.map_mk]

mutual

/-- message を深さ `depth` で切る。 -/
def truncate (depth : Option Nat) : Msg → Msg
  | .mk d cs => .mk d (truncateFields depth cs)

def truncateFields : Option Nat → List (String × List Msg) → List (String × List Msg)
  | _, [] => []
  | some 0, (f, _) :: cs => (f, []) :: truncateFields (some 0) cs
  | some (d + 1), (f, l) :: cs => (f, truncateList (some d) l) :: truncateFields (some (d + 1)) cs
  | none, (f, l) :: cs => (f, truncateList none l) :: truncateFields none cs

def truncateList (depth : Option Nat) : List Msg → List Msg
  | [] => []
  | m :: ms => truncate depth m :: truncateList depth ms

end

mutual

/-- `get(depth)` は、中身を深さ `depth` で切ったもの。 -/
theorem get_eq_truncate : ∀ (depth : Option Nat) (r : Rev), get depth r = truncate depth (content r)
  | depth, .mk i cs => by
    rw [get, content_mk, truncate, getFields_eq_truncate depth cs]

theorem getFields_eq_truncate : ∀ (depth : Option Nat) (cs : List (String × List Rev)),
    getFields depth cs = truncateFields depth (cs.map fun p => (p.1, p.2.map content))
  | depth, [] => by cases depth with
    | none => rfl
    | some d => cases d <;> rfl
  | some 0, (f, l) :: cs => by
    rw [getFields, List.map_cons, truncateFields, getFields_eq_truncate (some 0) cs]
  | some (d + 1), (f, l) :: cs => by
    rw [getFields, List.map_cons, truncateFields, getFields_eq_truncate (some (d + 1)) cs,
      getList_eq_truncate (some d) l]
  | none, (f, l) :: cs => by
    rw [getFields, List.map_cons, truncateFields, getFields_eq_truncate none cs,
      getList_eq_truncate none l]

theorem getList_eq_truncate : ∀ (depth : Option Nat) (l : List Rev),
    getList depth l = truncateList depth (l.map content)
  | depth, [] => rfl
  | depth, r :: rs => by
    rw [getList, List.map_cons, truncateList, get_eq_truncate depth r, getList_eq_truncate depth rs]

end

theorem get_of_image (h : image r = image r') (depth : Option Nat) : get depth r = get depth r' := by
  rw [get_eq_truncate, get_eq_truncate, content_of_image h]

end Rev

/-! ## 列の読み -/

/-- 見かけの等しい列では、同じ位置に見かけの等しい版が見つかる。 -/
theorem findRevByKey_image {key : String} {v : Value} : ∀ {l l' : List Rev},
    l.map Rev.image = l'.map Rev.image →
    (findRevByKey key v l).map (fun p => (p.1, Rev.image p.2))
      = (findRevByKey key v l').map fun p => (p.1, Rev.image p.2)
  | [], [], _ => rfl
  | [], _ :: _, h => by simp at h
  | _ :: _, [], h => by simp at h
  | r :: l, r' :: l', h => by
    rw [List.map_cons, List.map_cons, List.cons.injEq] at h
    rw [findRevByKey, findRevByKey, Rev.config_of_image h.1]
    split
    · simp [h.1]
    · have ih := @findRevByKey_image key v _ _ h.2
      cases hq : findRevByKey key v l <;> cases hq' : findRevByKey key v l' <;>
        simp [hq, hq'] at ih ⊢
      exact ih

theorem findRevByKey_image_some {key : String} {v : Value} {l l' : List Rev} {i : Nat} {c : Rev}
    (h : l.map Rev.image = l'.map Rev.image) (hc : findRevByKey key v l = some (i, c)) :
    ∃ c', findRevByKey key v l' = some (i, c') ∧ Rev.image c = Rev.image c' := by
  have hm := @findRevByKey_image key v _ _ h
  rw [hc, Option.map_some, eq_comm, Option.map_eq_some_iff] at hm
  obtain ⟨⟨j, c'⟩, hc', he⟩ := hm
  obtain ⟨rfl, he⟩ := Prod.mk.inj he
  exact ⟨c', hc', he.symm⟩

theorem head?_image_some {l l' : List Rev} {c : Rev} (h : l.map Rev.image = l'.map Rev.image)
    (hc : l.head? = some c) : ∃ c', l'.head? = some c' ∧ Rev.image c = Rev.image c' := by
  cases l with
  | nil => cases hc
  | cons a l =>
    cases l' with
    | nil => simp at h
    | cons b l' =>
      cases hc
      rw [List.map_cons, List.map_cons, List.cons.injEq] at h
      exact ⟨b, rfl, h.1⟩

theorem doGet_image (h : Rev.image r = Rev.image r') (depth : Option Nat) :
    doGet s depth r = doGet s depth r' := by
  unfold doGet
  rw [Rev.node_of_image h, Rev.get_of_image h depth]

theorem doGetList_image (depth : Option Nat) : ∀ {l l' : List Rev},
    l.map Rev.image = l'.map Rev.image → doGetList s depth l = doGetList s depth l'
  | [], [], _ => rfl
  | [], _ :: _, h => by simp at h
  | _ :: _, [], h => by simp at h
  | r :: l, r' :: l', h => by
    rw [List.map_cons, List.map_cons, List.cons.injEq] at h
    rw [doGetList, doGetList, doGet_image h.1 depth, doGetList_image depth h.2]

/-- 見かけの等しい版は、どの path を読んでも同じものを返す。 -/
theorem getRev_image (depth : Option Nat) (path : List String) :
    ∀ r r', Rev.image r = Rev.image r' → getRev S s depth path r = getRev S s depth path r' := by
  induction path using pathInduct with
  | nil => intro r r' h; rw [getRev, getRev, doGet_image h depth]
  | cons name rest ih ih2 =>
    intro r r' h
    have hch := Rev.child_of_image h name
    have hlist := doGetList_image (s := s) depth hch
    rw [getRev, getRev, doGet_image h depth, Rev.node_of_image h]
    split
    · rfl
    · cases S.field? (s.node (Rev.node r')).type name with
      | none => rfl
      | some f =>
        dsimp only
        cases f.kind with
        | single =>
          dsimp only
          cases hc : (r.child name).head? with
          | none =>
            cases hc' : (r'.child name).head? with
            | none => rfl
            | some c' =>
              obtain ⟨c, hc1, -⟩ := head?_image_some hch.symm hc'
              rw [hc] at hc1; cases hc1
          | some c =>
            obtain ⟨c', hc', hi⟩ := head?_image_some hch hc
            rw [hc']
            exact ih c c' hi
        | list => dsimp only; rw [hlist]
        | keyed key kt =>
          cases rest with
          | nil => dsimp only; rw [hlist]
          | cons keyStr path =>
            dsimp only
            rw [hlist]
            split
            · rfl
            · cases kt.fromStr keyStr with
              | none => rfl
              | some v =>
                dsimp only
                cases hc : findRevByKey key v (r.child name) with
                | none =>
                  cases hc' : findRevByKey key v (r'.child name) with
                  | none => rfl
                  | some p =>
                    obtain ⟨c, hc1, -⟩ := findRevByKey_image_some hch.symm hc'
                    rw [hc] at hc1; cases hc1
                | some p =>
                  obtain ⟨c', hc', hi⟩ := findRevByKey_image_some hch hc
                  rw [hc']
                  exact ih2 keyStr path rfl p.2 c' hi

end Voltha.Config
