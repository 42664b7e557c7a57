import Voltha.Config.Properties.Mknode

/-!
# hash は中身を決める

`_hash_content` は子の hash を field の区切りなしにつなぐ。それでも、一つの message の子 field は
子の型が互いに異なるので、つないだ列から field ごとの列を型で選び出せる。
したがって、schema のとおりの形をした message の hash は、中身を一つに決める。
-/

namespace Voltha.Config

variable {S : Schema}

theorem Rev.label_digest (m : Msg) : (Rev.digest m).label = m.label := by
  obtain ⟨d, cs⟩ := m
  rw [Rev.digest_mk]
  rfl

/-- schema のとおりの形なら、子の辞書は field ごとの列を並べたものである。 -/
theorem LocalShape.children_eq {m : Msg} (h : LocalShape S.fields m) :
    m.children = (S.fields m.label.type).map fun f => (f.name, m.child f.name) := by
  have hnd : (m.children.map Prod.fst).Nodup := by rw [h.1]; exact S.names_nodup _
  have hself : m.children = m.children.map fun p => (p.1, m.child p.1) := by
    refine (List.map_id _).symm.trans (List.map_congr_left fun p hp => ?_)
    obtain ⟨g, l⟩ := p
    rw [FieldTree.child_eq_of_mem hnd hp]
    rfl
  have hcomp : (m.children.map fun p => (p.1, m.child p.1))
      = (m.children.map Prod.fst).map fun g => (g, m.child g) := by
    rw [List.map_map]; rfl
  rw [hself, hcomp, h.1, List.map_map]
  rfl

/-- schema のとおりの形なら、子の型はどれかの field の型である。 -/
theorem LocalShape.type_of_mem {m c : Msg} (h : LocalShape S.fields m) {name : String}
    {l : List Msg} (hl : (name, l) ∈ m.children) (hc : c ∈ l) :
    ∃ f ∈ S.fields m.label.type, c.label.type = f.type := by
  rw [h.children_eq] at hl
  obtain ⟨f, hf, he⟩ := List.mem_map.mp hl
  obtain ⟨rfl, rfl⟩ := Prod.mk.inj he
  exact ⟨f, hf, (h.2 f hf).1 c hc⟩

/-- 型の異なる列をつないだものから、一つの型のものを選び出す。 -/
theorem filter_flatMap_of_type {α : Type} {type : α → String} {lists : ChildField → List α}
    {fs : List ChildField} (hnd : (fs.map ChildField.type).Nodup)
    (hty : ∀ f ∈ fs, ∀ a ∈ lists f, type a = f.type) {f : ChildField} (hf : f ∈ fs) :
    (fs.flatMap lists).filter (fun a => type a = f.type) = lists f := by
  induction fs with
  | nil => cases hf
  | cons g fs ih =>
    have hty' : ∀ f ∈ fs, ∀ a ∈ lists f, type a = f.type :=
      fun f hf => hty f (List.mem_cons_of_mem _ hf)
    rw [List.map_cons, List.nodup_cons] at hnd
    rw [List.flatMap_cons, List.filter_append]
    rcases List.mem_cons.mp hf with rfl | hf
    · -- 自分の列はすべて残り、後ろの列は型が違うので残らない
      have hself : (lists f).filter (fun a => type a = f.type) = lists f :=
        List.filter_eq_self.mpr fun a ha => by simpa using hty f List.mem_cons_self a ha
      have hrest : (fs.flatMap lists).filter (fun a => type a = f.type) = [] := by
        rw [List.filter_eq_nil_iff]
        intro a ha
        obtain ⟨g, hg, hag⟩ := List.mem_flatMap.mp ha
        have hne : g.type ≠ f.type := fun he => hnd.1 (he ▸ List.mem_map_of_mem hg)
        simpa [hty' g hg a hag] using hne
      rw [hself, hrest, List.append_nil]
    · have hne : g.type ≠ f.type := fun he => hnd.1 (he ▸ List.mem_map_of_mem hf)
      have hhead : (lists g).filter (fun a => type a = f.type) = [] := by
        rw [List.filter_eq_nil_iff]
        intro a ha
        simpa [hty g List.mem_cons_self a ha] using hne
      rw [hhead, List.nil_append, ih hnd.2 hty' hf]

/-- つないだ hash の列から、field ごとの子の hash が読める。 -/
theorem LocalShape.filter_digest {m : Msg} (h : LocalShape S.fields m) {f : ChildField}
    (hf : f ∈ S.fields m.label.type) :
    (m.children.flatMap fun p => p.2.map Rev.digest).filter (fun a => a.label.type = f.type)
      = (m.child f.name).map Rev.digest := by
  have hfl : (m.children.flatMap fun p => p.2.map Rev.digest)
      = (S.fields m.label.type).flatMap fun f => (m.child f.name).map Rev.digest := by
    rw [h.children_eq, List.flatMap_map]
  rw [hfl]
  refine filter_flatMap_of_type (S.types_nodup _) ?_ hf
  intro g hg a ha
  obtain ⟨c, hc, rfl⟩ := List.mem_map.mp ha
  rw [Rev.label_digest]
  exact (h.2 g hg).1 c hc

/-- `f` で写した列が等しければ、一つずつ調べて `g` で写した列も等しい。 -/
theorem map_eq_of_map_eq {α β γ : Type} {f : α → β} {g : α → γ} {l l' : List α}
    (hf : ∀ a ∈ l, ∀ b ∈ l', f a = f b → g a = g b) (h : l.map f = l'.map f) :
    l.map g = l'.map g := by
  induction l generalizing l' with
  | nil =>
    cases l' with
    | nil => rfl
    | cons b l' => cases h
  | cons a l ih =>
    cases l' with
    | nil => cases h
    | cons b l' =>
      rw [List.map_cons, List.map_cons, List.cons.injEq] at h ⊢
      exact ⟨hf a List.mem_cons_self b List.mem_cons_self h.1,
        ih (fun x hx y hy => hf x (List.mem_cons_of_mem _ hx) y (List.mem_cons_of_mem _ hy)) h.2⟩

/-- hash の等しい、schema のとおりの形の message は等しい。 -/
theorem digest_injective {m m' : Msg} (hm : Shaped S.fields m) (hm' : Shaped S.fields m')
    (h : Rev.digest m = Rev.digest m') : m = m' := by
  induction m using FieldTree.induct generalizing m' with
  | h d cs ih =>
    obtain ⟨d', cs'⟩ := m'
    obtain ⟨hl, hc⟩ := shaped_mk_iff.mp hm
    obtain ⟨hl', hc'⟩ := shaped_mk_iff.mp hm'
    rw [Rev.digest_mk, Rev.digest_mk, FieldTree.mk.injEq] at h
    obtain ⟨rfl, h⟩ := h
    have hflat : (cs.flatMap fun p => p.2.map Rev.digest) = cs'.flatMap fun p => p.2.map Rev.digest := by
      simpa using h
    have hchild : ∀ f ∈ S.fields d.type,
        FieldTree.child (.mk d cs) f.name = FieldTree.child (.mk d cs') f.name := by
      intro f hf
      have h1 := hl.filter_digest hf
      have h2 := hl'.filter_digest hf
      have hdig : (FieldTree.child (.mk d cs) f.name).map Rev.digest
          = (FieldTree.child (.mk d cs') f.name).map Rev.digest := by
        rw [← h1, ← h2]
        exact congrArg (List.filter _) hflat
      rw [← List.map_id (FieldTree.child (.mk d cs) f.name),
        ← List.map_id (FieldTree.child (.mk d cs') f.name)]
      refine map_eq_of_map_eq (fun c hcm c' hcm' => ?_) hdig
      exact ih f.name _ (FieldTree.mem_children_of_mem_child hcm) c hcm
        (hc f.name _ (FieldTree.mem_children_of_mem_child hcm) c hcm)
        (hc' f.name _ (FieldTree.mem_children_of_mem_child hcm') c' hcm')
    have he : (FieldTree.mk d cs).children = (FieldTree.mk d cs').children := by
      rw [hl.children_eq, hl'.children_eq]
      exact List.map_congr_left fun f hf => by rw [hchild f hf]
    have he : cs = cs' := he
    rw [he]

end Voltha.Config
