import Mathlib.Data.List.Forall2
import Voltha.Lib.Cut
import Voltha.Netconf.NcConnection

/-!
# Netconf の message が届く条件

`receive_msg_any` は塊を一つずつ読むので、message が届くのは塊と message が一つずつ対応するときに限る。
切り方は transport が決めるので、client の側では防げない。

**余りの扱い。** 枠の外れた結果が message に一致していても、塊が枠の終わりとずれていれば、
ずれは後の塊へ持ち越される。ずれた所から読んだ結果は、message の最初か最後の文字の数が
合わないので、どこかで必ず食い違う。
-/

namespace Voltha.Netconf

/-! ## message と枠の文字 -/

/-- 1.1 の枠の数字と印。 -/
def FrameMark (c : Char) : Prop := c = '#' ∨ c.isDigit = true

/--
XML の文書としての最初と最後の文字。

`<` か空白か BOM で始まり、`>` か空白で終わるので、枠の印とは紛れない。
-/
structure Document (m : Text) : Prop where
  first : ∃ c r, m = c :: r ∧ c ∉ DELIMITER ∧ ¬FrameMark c
  last : ∃ r c, m = r ++ [c] ∧ ¬FrameMark c

/--
枠のとおりに送られる message。

1.0 の message では終わりの印が初めて現れるのが末尾であり、1.1 の片は空でない。
-/
structure Session.WellFormed (s : Session) : Prop where
  old : ∀ m ∈ s.old, Document m ∧ find DELIMITER (m ++ DELIMITER) = some m.length
  new : ∀ ps ∈ s.new, Document ps.flatten ∧ ∀ d ∈ ps, d ≠ []

theorem Document.ne_nil {m : Text} (h : Document m) : m ≠ [] := by
  obtain ⟨c, r, rfl, -⟩ := h.first
  simp

theorem notMem_toDigits {c : Char} (h : c.isDigit = false) (n : Nat) : c ∉ Nat.toDigits 10 n := by
  intro hmem
  have := Nat.isDigit_of_mem_toDigits (by decide) (by decide) hmem
  simp [h] at this

/-- 枠の印でない文字は、枠に包んでも増えない。 -/
theorem count_flatMap_piece11 {z : Char} (hz : ¬FrameMark z) (hn : z ≠ '\n') (ps : List Text) :
    (ps.flatMap piece11).count z = ps.flatten.count z := by
  simp only [FrameMark, not_or, Bool.not_eq_true] at hz
  induction ps with
  | nil => rfl
  | cons d ps ih =>
    have hd := List.count_eq_zero.mpr (notMem_toDigits hz.2 d.length)
    simp [piece11, ih, hd, Ne.symm hz.1, Ne.symm hn]

theorem count_frame11 {z : Char} (hz : ¬FrameMark z) (hn : z ≠ '\n') (ps : List Text) :
    (frame11 ps).count z = ps.flatten.count z := by
  have hsharp : z ≠ '#' := fun h => hz (Or.inl h)
  simp [frame11, count_flatMap_piece11 hz hn, Ne.symm hsharp, Ne.symm hn]

/-- 1.1 の枠では、片ごとに `#` が一つ増える。 -/
theorem count_sharp_flatMap_piece11 (ps : List Text) :
    (ps.flatMap piece11).count '#' = ps.flatten.count '#' + ps.length := by
  induction ps with
  | nil => rfl
  | cons d ps ih =>
    have hd := List.count_eq_zero.mpr (notMem_toDigits (c := '#') (by decide) d.length)
    simp [piece11, ih, hd]
    omega

/-- 枠の先頭の行。 -/
theorem frame11_cons (d : Text) (ps : List Text) :
    frame11 (d :: ps) = '\n' :: ('#' :: Nat.toDigits 10 d.length ++
      '\n' :: (d ++ ps.flatMap piece11 ++ '\n' :: (['#', '#'] ++ '\n' :: []))) := by
  simp [frame11, piece11]

theorem header_no_newline (n : Nat) : '\n' ∉ '#' :: Nat.toDigits 10 n := by
  simp [notMem_toDigits (c := '\n') (by decide) n]

/-! ## 枠のとおりの塊 -/

/-- 一つの枠の全体からは、片が一つで改行が無いときだけ、message が読める。前の余り `x` は効かない。 -/
theorem receive11_frame {x : Text} (hx : '\n' ∉ x) {ps : List Text} (hdoc : Document ps.flatten) :
    receive11 (x ++ frame11 ps) = some ps.flatten ↔ ∃ d, ps = [d] ∧ '\n' ∉ d := by
  cases ps with
  | nil => exact absurd rfl hdoc.ne_nil
  | cons d ps =>
    rw [frame11_cons, receive11_lines hx (header_no_newline _) (by simp) (by simp),
      Option.some.injEq]
    constructor
    · intro h
      have hnl : '\n' ∉ (d :: ps).flatten := by
        rw [← h]
        simp
      have hcount := congrArg (List.count '#') h
      rw [List.count_filter (by decide), List.count_append, count_sharp_flatMap_piece11,
        List.flatten_cons, List.count_append] at hcount
      obtain rfl : ps = [] := List.length_eq_zero_iff.mp (by omega)
      exact ⟨d, rfl, by simpa using hnl⟩
    · rintro ⟨d', he, hd⟩
      obtain ⟨rfl, rfl⟩ := List.cons.inj he
      have hall : ∀ c ∈ d, c ≠ '\n' := fun c hc he => hd (he ▸ hc)
      simpa using hall

/-! ## 枠とずれた塊 -/

/-- 次の枠の先頭まで含む塊からは、message は読めない。終わりの `##` が混じる。 -/
theorem receive11_longer {x : Text} (hx : '\n' ∉ x) {ps : List Text} (hdoc : Document ps.flatten)
    (u : Text) : receive11 (x ++ (frame11 ps ++ '\n' :: u)) ≠ some ps.flatten := by
  intro h
  cases ps with
  | nil => exact absurd rfl hdoc.ne_nil
  | cons d ps =>
    obtain ⟨p₀, p₁, a, b, c, h₀, h₁, hb, hc, hs, ht⟩ := receive11_eq_some h hdoc.ne_nil
    rw [frame11_cons, List.cons_append] at hs
    have hs₁ := (List.first_mark_inj hx h₀ hs).2
    rw [List.append_assoc, List.cons_append] at hs₁
    have hs₂ := (List.first_mark_inj (header_no_newline _) h₁ hs₁).2
    -- 最後の二行を除いても、`##` が残る
    have hsharp : (d ++ ps.flatMap piece11).count '#' + 2 ≤ a.count '#' := by
      have hs' : (d ++ ps.flatMap piece11 ++ ['\n', '#', '#']) ++ '\n' :: '\n' :: u
          = a ++ '\n' :: (b ++ '\n' :: c) := by
        rw [← hs₂]
        simp
      rcases List.append_eq_append_iff.mp hs' with ⟨v, ha, -⟩ | ⟨v, ha, hv⟩
      · rw [ha]
        simp
        omega
      · cases v with
        | nil =>
          rw [List.append_nil] at ha
          rw [← ha]
          simp
          omega
        | cons y v =>
          have hn := congrArg (List.count '\n') hv
          obtain ⟨rfl, -⟩ := List.cons.inj hv
          simp [List.count_eq_zero.mpr hb, List.count_eq_zero.mpr hc] at hn
          omega
    have hcount := congrArg (List.count '#') ht
    rw [List.count_filter (by decide), List.flatten_cons, List.count_append] at hcount
    rw [List.count_append, count_sharp_flatMap_piece11] at hsharp
    omega

/-- 読んだ結果の文字は改行でない。 -/
theorem ne_newline_of_filter {z : Char} {t a : Text} (ht : t = a.filter (· ≠ '\n')) (hz : z ∈ t) :
    z ≠ '\n' := by
  rw [ht] at hz
  simpa using (List.mem_filter.mp hz).2

/-- 枠の途中までの塊からは、message は読めない。最後の文字が届いていない。 -/
theorem receive11_shorter {ps : List Text} (hdoc : Document ps.flatten) (hps : ∀ d ∈ ps, d ≠ [])
    {c s : Text} (hs : s ≠ []) (h : frame11 ps = c ++ s) : receive11 c ≠ some ps.flatten := by
  intro hr
  obtain ⟨p₀, p₁, a, b, e, -, -, -, -, rfl, ht⟩ := receive11_eq_some hr hdoc.ne_nil
  obtain ⟨r, z, hlast, hz⟩ := hdoc.last
  have hzn : z ≠ '\n' := ne_newline_of_filter ht (by simp [hlast])
  -- 枠の中で、最後の文字より後ろ
  obtain ⟨g, hg⟩ : ∃ g, frame11 ps = g ++ [z, '\n', '#', '#', '\n'] := by
    rcases List.eq_nil_or_concat' ps with rfl | ⟨ps', d, rfl⟩
    · exact absurd rfl hdoc.ne_nil
    · have hd : d ≠ [] := hps d (by simp)
      obtain ⟨d', z', rfl⟩ := (List.eq_nil_or_concat' d).resolve_left hd
      have hzz : z' = z := by
        have := congrArg List.getLast? hlast
        simpa using this
      exact ⟨ps'.flatMap piece11 ++ ('\n' :: '#' :: (Nat.toDigits 10 (d' ++ [z']).length ++
        '\n' :: d')), by simp [frame11, piece11, hzz]⟩
  have hsn : '\n' ∈ s := by
    have : s.getLast? = some '\n' := by
      have := congrArg List.getLast? (h.symm.trans hg)
      rwa [List.getLast?_append_of_ne_nil _ hs, List.getLast?_append_of_ne_nil _ (by simp)] at this
    exact List.mem_of_getLast? this
  have hsplit : (p₀ ++ '\n' :: (p₁ ++ '\n' :: a)) ++ ('\n' :: (b ++ '\n' :: e) ++ s)
      = g ++ [z, '\n', '#', '#', '\n'] := by
    rw [← hg, h]
    simp
  have hzcount : (frame11 ps).count z = a.count z := by
    rw [count_frame11 hz hzn, ht, List.count_filter (by simpa using hzn)]
  rcases List.append_eq_append_iff.mp hsplit with ⟨v, hv, -⟩ | ⟨v, -, hv⟩
  · -- 読んだ行は、最後の文字より前
    have hga : a.count z ≤ g.count z := by
      rw [hv]
      simp only [List.count_append, List.count_cons]
      omega
    rw [hg, List.count_append] at hzcount
    have : 0 < List.count z [z, '\n', '#', '#', '\n'] := by simp
    omega
  · -- 改行の数が合わない
    have hn := congrArg (List.count '\n') hv
    have hsn' := List.count_pos_iff.mpr hsn
    have hz₂ : List.count '\n' [z, '\n', '#', '#', '\n'] = 2 := by simp [hzn]
    simp [hz₂] at hn
    omega

/-- 枠の途中から始まる塊からは、message は読めない。最初の文字が過ぎている。 -/
theorem receive11_inside {ps : List Text} (hdoc : Document ps.flatten) (hps : ∀ d ∈ ps, d ≠ [])
    {w c s : Text} (hw : w ≠ []) (h : frame11 ps = w ++ (c ++ s)) :
    receive11 c ≠ some ps.flatten := by
  intro hr
  obtain ⟨p₀, p₁, a, b, e, -, -, -, -, rfl, ht⟩ := receive11_eq_some hr hdoc.ne_nil
  obtain ⟨z, r, hfirst, -, hz⟩ := hdoc.first
  have hzn : z ≠ '\n' := ne_newline_of_filter ht (by simp [hfirst])
  -- 枠の中で、最初の文字まで
  obtain ⟨n, g, hg⟩ : ∃ n g, frame11 ps = '\n' :: '#' :: (Nat.toDigits 10 n ++ ['\n', z]) ++ g := by
    cases ps with
    | nil => exact absurd rfl hdoc.ne_nil
    | cons d ps =>
      cases d with
      | nil => exact absurd rfl (hps [] List.mem_cons_self)
      | cons z' d =>
        obtain ⟨rfl, -⟩ := List.cons.inj hfirst
        exact ⟨(z' :: d).length, d ++ ps.flatMap piece11 ++ ['\n', '#', '#', '\n'],
          by simp [frame11, piece11]⟩
  have hwn : '\n' ∈ w := by
    cases w with
    | nil => exact absurd rfl hw
    | cons y w =>
      obtain ⟨rfl, -⟩ := List.cons.inj (hg.symm.trans h)
      exact List.mem_cons_self
  have hsplit : (w ++ (p₀ ++ '\n' :: (p₁ ++ ['\n']))) ++ (a ++ '\n' :: (b ++ '\n' :: e) ++ s)
      = '\n' :: '#' :: (Nat.toDigits 10 n ++ ['\n', z]) ++ g := by
    rw [← hg, h]
    simp
  have hzcount : (frame11 ps).count z = a.count z := by
    rw [count_frame11 hz hzn, ht, List.count_filter (by simpa using hzn)]
  rcases List.append_eq_append_iff.mp hsplit with ⟨v, hv, -⟩ | ⟨v, -, hv⟩
  · -- 改行の数が合わない
    have hn := congrArg (List.count '\n') hv
    have hwn' := List.count_pos_iff.mpr hwn
    have hdigits := List.count_eq_zero.mpr (notMem_toDigits (c := '\n') (by decide) n)
    have hz₁ : List.count '\n' ['\n', z] = 1 := by simp [hzn]
    simp [hdigits, hz₁] at hn
    omega
  · -- 読んだ行は、最初の文字より後ろ
    have hga : a.count z ≤ g.count z := by
      rw [hv]
      simp only [List.count_append, List.count_cons]
      omega
    rw [hg, List.count_append] at hzcount
    have : 0 < List.count z ('\n' :: '#' :: (Nat.toDigits 10 n ++ ['\n', z])) :=
      List.count_pos_iff.mpr (by simp)
    omega

/-! ## 塊の列 -/

/-- 塊を一つずつ読むと、1.0 の message `old`、1.1 の message `new` の順に得られる。 -/
def Reads : List Text → List (List Text) → List Text → Prop
  | [], new, chunks => List.Forall₂ (fun ps c => receive11 c = some ps.flatten) new chunks
  | _ :: _, _, [] => False
  | m :: old, new, c :: chunks => receive10 c = m ∧ Reads old new chunks

/-- 1.1 の message が枠のとおりに送られる。 -/
abbrev Pieces (new : List (List Text)) : Prop :=
  ∀ ps ∈ new, Document ps.flatten ∧ ∀ d ∈ ps, d ≠ []

/-- 1.0 の message が枠のとおりに送られる。 -/
abbrev Delimited (old : List Text) : Prop :=
  ∀ m ∈ old, Document m ∧ find DELIMITER (m ++ DELIMITER) = some m.length

/-- 前にはみ出した分 `w` があると、1.1 の message は読めない。 -/
theorem not_reads_new {new : List (List Text)} (hnew : Pieces new) {chunks : List Text} {w : Text}
    (hw : w ≠ []) (h : (new.map frame11).flatten = w ++ chunks.flatten) :
    ¬List.Forall₂ (fun ps c => receive11 c = some ps.flatten) new chunks := by
  induction new generalizing chunks w with
  | nil =>
    simp only [List.map_nil, List.flatten_nil] at h
    exact absurd (List.append_eq_nil_iff.mp h.symm).1 hw
  | cons ps new ih =>
    rintro (_ | ⟨hread, hrest⟩)
    obtain ⟨hdoc, hps⟩ := hnew ps List.mem_cons_self
    rw [List.map_cons, List.flatten_cons, List.flatten_cons, ← List.append_assoc] at h
    rcases List.append_eq_append_iff.mp h with ⟨v, hv, hF⟩ | ⟨v, hv, -⟩
    · by_cases hempty : v = []
      · subst hempty
        refine receive11_inside hdoc hps hw (s := []) ?_ hread
        simpa using hv.symm
      · exact ih (fun x hx => hnew x (List.mem_cons_of_mem _ hx)) hempty hF hrest
    · exact receive11_inside hdoc hps hw (by rw [hv, List.append_assoc]) hread

/-- 前にはみ出した分 `w` があると、残りの message は読めない。 -/
theorem not_reads {old : List Text} {new : List (List Text)} (hold : Delimited old)
    (hnew : Pieces new) {chunks : List Text} {w : Text} (hw : w ≠ [])
    (h : (old.map frame10).flatten ++ (new.map frame11).flatten = w ++ chunks.flatten) :
    ¬Reads old new chunks := by
  induction old generalizing chunks w with
  | nil => exact not_reads_new hnew hw h
  | cons m old ih =>
    cases chunks with
    | nil => exact id
    | cons c chunks =>
      rintro ⟨hread, hrest⟩
      obtain ⟨z, r, hz, hzd, -⟩ := (hold m List.mem_cons_self).1.first
      -- 枠の途中から始まる塊
      have hinside : ∀ s, frame10 m ≠ w ++ (c ++ s) := by
        intro s hs
        have hlen := congrArg List.length hs
        have hpos := List.length_pos_of_ne_nil hw
        rcases receive10_cases c with hc | ⟨u, hc⟩
        · -- `m` の最初の文字の数が合わない
          rw [hread] at hc
          subst hc
          have hcount := congrArg (List.count z) hs
          have hzw : z ∈ w := by
            cases w with
            | nil => exact absurd rfl hw
            | cons y w =>
              rw [hz] at hs
              obtain ⟨rfl, -⟩ := List.cons.inj hs
              exact List.mem_cons_self
          have := List.count_pos_iff.mpr hzw
          simp only [frame10, List.count_append, List.count_eq_zero.mpr hzd] at hcount
          omega
        · rw [hread] at hc
          rw [hc] at hlen
          simp only [frame10, List.length_append] at hlen
          omega
      rw [List.map_cons, List.flatten_cons, List.flatten_cons, ← List.append_assoc,
        List.append_assoc] at h
      rcases List.append_eq_append_iff.mp h with ⟨v, hv, hF⟩ | ⟨v, hv, -⟩
      · by_cases hempty : v = []
        · subst hempty
          exact hinside [] (by simpa using hv.symm)
        · exact ih (fun x hx => hold x (List.mem_cons_of_mem _ hx)) hempty hF hrest
      · exact hinside v (by rw [hv, List.append_assoc])

/-- 前の余り `x` の後の、1.1 の最初の塊。 -/
theorem reads_head {x : Text} (hx : '\n' ∉ x) {ps : List Text} (hdoc : Document ps.flatten)
    (hps : ∀ d ∈ ps, d ≠ []) {new : List (List Text)} (hnew : Pieces new) {c rest : Text}
    (h : c ++ rest = x ++ (frame11 ps ++ (new.map frame11).flatten))
    (hread : receive11 c = some ps.flatten) :
    c = x ++ frame11 ps ∧ rest = (new.map frame11).flatten := by
  rw [← List.append_assoc] at h
  rcases List.append_eq_append_iff.mp h.symm with ⟨v, rfl, hF⟩ | ⟨v, hc, hrest⟩
  · cases v with
    | nil => exact ⟨by simp, by simpa using hF.symm⟩
    | cons y v =>
      -- 次の枠は改行で始まる
      cases new with
      | nil => simp at hF
      | cons qs new =>
        cases qs with
        | nil => exact absurd rfl (hnew [] List.mem_cons_self).1.ne_nil
        | cons d qs =>
          rw [List.map_cons, List.flatten_cons, frame11_cons, List.cons_append] at hF
          obtain ⟨rfl, -⟩ := List.cons.inj hF
          rw [List.append_assoc] at hread
          exact absurd hread (receive11_longer hx hdoc v)
  · by_cases hv : v = []
    · subst hv
      exact ⟨by simpa using hc.symm, by simpa using hrest⟩
    · obtain ⟨p₀, p₁, a, b, e, h₀, h₁, hb, he, rfl, ht⟩ := receive11_eq_some hread hdoc.ne_nil
      rcases List.append_eq_append_iff.mp hc with ⟨u, hu, hframe⟩ | ⟨u, hxc, -⟩
      · -- 余りを除いても同じものが読めるので、枠の途中までの塊になる
        cases u with
        | nil =>
          rw [List.append_nil] at hu
          simp [← hu] at hx
        | cons y u =>
          cases ps with
          | nil => exact absurd rfl hdoc.ne_nil
          | cons d ps =>
            have hy := hframe
            rw [frame11_cons, List.cons_append] at hy
            obtain ⟨rfl, -⟩ := List.cons.inj hy
            have hu' := (List.first_mark_inj hx h₀ hu.symm).2
            have hshort : receive11 ([] ++ '\n' :: u) = some (d :: ps).flatten := by
              rw [hu', ht]
              exact receive11_lines (by simp) h₁ hb he
            exact absurd hshort (receive11_shorter hdoc hps hv hframe)
      · simp [hxc] at hx

/-! ## 届く条件 -/

/-- 1.1 の message は、それぞれ改行の無い一片で送られる。 -/
def SinglePiece (new : List (List Text)) : Prop := ∀ ps ∈ new, ∃ d, ps = [d] ∧ '\n' ∉ d

/--
塊と message が一つずつ対応する切り方。

枠ごとに切るほかに、1.0 の最後の終わりの印が切り離されて、1.1 の最初の塊の先頭の行に入る切り方がある。
印の無い塊は全体が message とみなされ、1.1 の先頭の行は捨てられるので、これも読める。
-/
def OnePerChunk (old : List Text) (new : List (List Text)) (chunks : List Text) : Prop :=
  chunks = old.map frame10 ++ new.map frame11 ∨
  ∃ H h ps M, old = H ++ [h] ∧ new = ps :: M ∧
    chunks = H.map frame10 ++ h :: (DELIMITER ++ frame11 ps) :: M.map frame11

theorem singlePiece_cons {ps : List Text} {new : List (List Text)} :
    SinglePiece (ps :: new) ↔ (∃ d, ps = [d] ∧ '\n' ∉ d) ∧ SinglePiece new :=
  List.forall_mem_cons

theorem reads_new_iff {new : List (List Text)} (hnew : Pieces new) {chunks : List Text}
    (hne : ∀ c ∈ chunks, c ≠ []) (h : chunks.flatten = (new.map frame11).flatten) :
    List.Forall₂ (fun ps c => receive11 c = some ps.flatten) new chunks ↔
      SinglePiece new ∧ chunks = new.map frame11 := by
  induction new generalizing chunks with
  | nil =>
    have hnil : chunks = [] := by
      cases chunks with
      | nil => rfl
      | cons c chunks =>
        simp only [List.map_nil, List.flatten_nil, List.flatten_cons, List.append_eq_nil_iff] at h
        exact absurd h.1 (hne c List.mem_cons_self)
    simp [hnil, SinglePiece]
  | cons ps new ih =>
    obtain ⟨hdoc, hps⟩ := hnew ps List.mem_cons_self
    have hnew' : Pieces new := fun x hx => hnew x (List.mem_cons_of_mem _ hx)
    have hframe := receive11_frame (x := []) (by simp) hdoc
    rw [List.nil_append] at hframe
    cases chunks with
    | nil => simp [List.forall₂_nil_right_iff]
    | cons c chunks =>
      have hne' : ∀ x ∈ chunks, x ≠ [] := fun x hx => hne x (List.mem_cons_of_mem _ hx)
      rw [List.forall₂_cons, singlePiece_cons, ← hframe]
      constructor
      · rintro ⟨hread, hrest⟩
        rw [List.flatten_cons, List.map_cons, List.flatten_cons] at h
        obtain ⟨rfl, htail⟩ := reads_head (x := []) (by simp) hdoc hps hnew' h hread
        obtain ⟨hone, hchunks⟩ := (ih hnew' hne' htail).mp hrest
        exact ⟨⟨hread, hone⟩, by simp [hchunks]⟩
      · rintro ⟨⟨hread, hone⟩, hchunks⟩
        obtain ⟨rfl, rfl⟩ := List.cons.inj hchunks
        exact ⟨hread, (ih hnew' hne' rfl).mpr ⟨hone, rfl⟩⟩

/-- 枠の付いた 1.0 の message は読める。 -/
theorem receive10_frame10 {m : Text} (h : find DELIMITER (m ++ DELIMITER) = some m.length) :
    receive10 (frame10 m) = m := by
  simp [receive10, frame10, h]

/-- 終わりの印を切り離しても、1.0 の message は読める。 -/
theorem receive10_bare {m : Text} (h : find DELIMITER (m ++ DELIMITER) = some m.length) :
    receive10 m = m := by
  rcases receive10_cases m with hm | ⟨r, hm⟩
  · exact hm
  · -- 中に印があれば、末尾の印より先に見つかる
    have hlen := congrArg List.length hm
    unfold receive10 at hm hlen ⊢
    split
    · next i hi =>
      rw [find_append hi] at h
      simp [Option.some.inj h]
    · rfl

/-- 印を切り離すと、次に読めるのは 1.1 の message に限る。 -/
theorem reads_displaced {old : List Text} {new : List (List Text)} (hold : Delimited old)
    (hnew : Pieces new) {chunks : List Text} (hne : ∀ c ∈ chunks, c ≠ [])
    (h : chunks.flatten = DELIMITER ++ ((old.map frame10).flatten ++ (new.map frame11).flatten)) :
    Reads old new chunks ↔ old = [] ∧ SinglePiece new ∧
      ∃ ps M, new = ps :: M ∧ chunks = (DELIMITER ++ frame11 ps) :: M.map frame11 := by
  have hD : '\n' ∉ DELIMITER := by decide
  cases chunks with
  | nil => simp [DELIMITER] at h
  | cons c chunks =>
    have hne' : ∀ x ∈ chunks, x ≠ [] := fun x hx => hne x (List.mem_cons_of_mem _ hx)
    cases old with
    | cons m old =>
      refine iff_of_false ?_ (by simp)
      rintro ⟨hread, -⟩
      -- 塊は印の文字で始まるが、message はそうではない
      obtain ⟨z, r, hz, hzd, -⟩ := (hold m List.mem_cons_self).1.first
      obtain ⟨u, hu⟩ : ∃ u, c = z :: u := by
        rcases receive10_cases c with hc | ⟨v, hc⟩
        · exact ⟨r, by rw [← hc, hread, hz]⟩
        · exact ⟨r ++ (DELIMITER ++ v), by rw [hc, hread, hz]; rfl⟩
      rw [List.flatten_cons, hu] at h
      obtain ⟨rfl, -⟩ := List.cons.inj h
      exact hzd (by decide)
    | nil =>
      cases new with
      | nil => simp [Reads, List.forall₂_nil_left_iff]
      | cons ps new =>
        obtain ⟨hdoc, hps⟩ := hnew ps List.mem_cons_self
        have hnew' : Pieces new := fun x hx => hnew x (List.mem_cons_of_mem _ hx)
        have hframe := receive11_frame hD hdoc
        simp only [Reads, List.forall₂_cons, true_and, singlePiece_cons, ← hframe]
        constructor
        · rintro ⟨hread, hrest⟩
          obtain ⟨rfl, htail⟩ := reads_head hD hdoc hps hnew' (by simpa using h) hread
          obtain ⟨hone, rfl⟩ := (reads_new_iff hnew' hne' htail).mp hrest
          exact ⟨⟨hread, hone⟩, ps, new, rfl, rfl⟩
        · rintro ⟨⟨hread, hone⟩, ps', M, he, hchunks⟩
          obtain ⟨rfl, rfl⟩ := List.cons.inj he
          obtain ⟨rfl, rfl⟩ := List.cons.inj hchunks
          exact ⟨hread, (reads_new_iff hnew' hne' rfl).mpr ⟨hone, rfl⟩⟩

theorem onePerChunk_cons {m : Text} {old : List Text} {new : List (List Text)} {c : Text}
    {chunks : List Text} :
    OnePerChunk (m :: old) new (c :: chunks) ↔ (c = frame10 m ∧ OnePerChunk old new chunks) ∨
      (c = m ∧ old = [] ∧
        ∃ ps M, new = ps :: M ∧ chunks = (DELIMITER ++ frame11 ps) :: M.map frame11) := by
  constructor
  · rintro (h | ⟨H, h, ps, M, hold, hnew, hchunks⟩)
    · obtain ⟨rfl, rfl⟩ := List.cons.inj h
      exact Or.inl ⟨rfl, Or.inl rfl⟩
    · cases H with
      | nil =>
        obtain ⟨rfl, rfl⟩ := List.cons.inj hold
        obtain ⟨rfl, rfl⟩ := List.cons.inj hchunks
        exact Or.inr ⟨rfl, rfl, ps, M, hnew, rfl⟩
      | cons m' H =>
        obtain ⟨rfl, rfl⟩ := List.cons.inj hold
        obtain ⟨rfl, rfl⟩ := List.cons.inj hchunks
        exact Or.inl ⟨rfl, Or.inr ⟨H, h, ps, M, rfl, hnew, rfl⟩⟩
  · rintro (⟨rfl, h | ⟨H, h, ps, M, rfl, hnew, rfl⟩⟩ | ⟨rfl, rfl, ps, M, hnew, rfl⟩)
    · exact Or.inl (by simp [h])
    · exact Or.inr ⟨m :: H, h, ps, M, rfl, hnew, rfl⟩
    · exact Or.inr ⟨[], c, ps, M, rfl, hnew, rfl⟩

/-- 塊を一つずつ読んで message が得られるのは、塊と message が対応するときに限る。 -/
theorem reads_iff {old : List Text} {new : List (List Text)} (hold : Delimited old)
    (hnew : Pieces new) {chunks : List Text} (hne : ∀ c ∈ chunks, c ≠ [])
    (h : chunks.flatten = (old.map frame10).flatten ++ (new.map frame11).flatten) :
    Reads old new chunks ↔ SinglePiece new ∧ OnePerChunk old new chunks := by
  induction old generalizing chunks with
  | nil =>
    show List.Forall₂ _ new chunks ↔ _
    rw [reads_new_iff hnew hne h]
    simp [OnePerChunk]
  | cons m old ih =>
    obtain ⟨hdoc, hfind⟩ := hold m List.mem_cons_self
    have hold' : Delimited old := fun x hx => hold x (List.mem_cons_of_mem _ hx)
    cases chunks with
    | nil => simp [Reads, OnePerChunk]
    | cons c chunks =>
      have hne' : ∀ x ∈ chunks, x ≠ [] := fun x hx => hne x (List.mem_cons_of_mem _ hx)
      rw [onePerChunk_cons]
      rw [List.flatten_cons, List.map_cons, List.flatten_cons, List.append_assoc, frame10,
        List.append_assoc] at h
      constructor
      · rintro ⟨hread, hrest⟩
        rcases receive10_cases c with hc | ⟨r, hc⟩
        · -- 印が切り離されている
          obtain rfl : c = m := by rw [← hread, hc]
          obtain ⟨rfl, hone, hfirst⟩ :=
            (reads_displaced hold' hnew hne' (List.append_cancel_left h)).mp hrest
          exact ⟨hone, Or.inr ⟨rfl, rfl, hfirst⟩⟩
        · rw [hread] at hc
          subst hc
          simp only [List.append_assoc] at h
          have htail := List.append_cancel_left (List.append_cancel_left h)
          by_cases hr : r = []
          · subst hr
            obtain ⟨hone, hrest'⟩ := (ih hold' hne' htail).mp hrest
            exact ⟨hone, Or.inl ⟨by simp [frame10], hrest'⟩⟩
          · exact absurd hrest (not_reads hold' hnew hr htail.symm)
      · rintro ⟨hone, ⟨rfl, hrest⟩ | ⟨rfl, rfl, hfirst⟩⟩
        · rw [frame10, List.append_assoc] at h
          have htail := List.append_cancel_left (List.append_cancel_left h)
          exact ⟨receive10_frame10 hfind, (ih hold' hne' htail).mpr ⟨hone, hrest⟩⟩
        · refine ⟨receive10_bare hfind, ?_⟩
          exact (reads_displaced hold' hnew hne' (List.append_cancel_left h)).mpr
            ⟨rfl, hone, hfirst⟩

/-! ## 待ち行列を通して -/

open Common Common.QueueCall

/-- `receive_msg_any` の答えを順に並べたもの。`get` の印は、その呼び出しの `new_framing`。 -/
def received (l : List (QueueCall Text Bool)) : List (Option Text) :=
  (answers MessageQueue.empty l).map fun p => receiveMsgAny p.1 p.2

/--
**message がそのまま届く。**

`dataReceived` と `receive_msg_any` がどう混ざっても、枠の合った呼び出しは message を順に返し、
message が尽きた後の呼び出しは何も返さない。
-/
def Delivers (s : Session) (chunks : List Text) : Prop :=
  ∀ l, puts l = chunks → gets l <+: s.framings ∨ s.framings <+: gets l →
    received l = (s.messages.map some).take (gets l).length

theorem received_eq (l : List (QueueCall Text Bool)) :
    received l = ((gets l).zip (puts l)).map fun p => receiveMsgAny p.1 p.2 := by
  rw [received, answers_empty]

theorem reads_iff_zip (s : Session) (chunks : List Text) :
    Reads s.old s.new chunks ↔ chunks.length = s.framings.length ∧
      (s.framings.zip chunks).map (fun p => receiveMsgAny p.1 p.2) = s.messages.map some := by
  obtain ⟨old, new⟩ := s
  simp only [Session.framings, Session.messages]
  induction old generalizing chunks with
  | nil =>
    show List.Forall₂ _ new chunks ↔ _
    induction new generalizing chunks with
    | nil => simp [List.forall₂_nil_left_iff]
    | cons ps new ih =>
      cases chunks with
      | nil => simp [List.forall₂_nil_right_iff]
      | cons c chunks =>
        rw [List.forall₂_cons, ih]
        simp [receiveMsgAny]
        tauto
  | cons m old ih =>
    cases chunks with
    | nil => simp [Reads]
    | cons c chunks =>
      rw [Reads, ih]
      simp [receiveMsgAny]
      tauto

theorem zip_longer {fs e : List Bool} {chunks : List Text} (h : chunks.length = fs.length) :
    (fs ++ e).zip chunks = fs.zip chunks := by
  have happ : (fs ++ e).zip (chunks ++ []) = fs.zip chunks ++ e.zip [] := List.zip_append h.symm
  simpa using happ

/-- 待ち行列を通しても、塊を一つずつ読むのと同じである。 -/
theorem delivers_iff_reads (s : Session) (chunks : List Text) :
    Delivers s chunks ↔ Reads s.old s.new chunks := by
  have hlen : s.messages.length = s.framings.length := by simp [Session.messages, Session.framings]
  rw [reads_iff_zip]
  constructor
  · intro h
    -- 先に message の数より一つ多く待つ
    have hcall := h ((s.framings ++ [true]).map .get ++ chunks.map .put)
    have hputs : ∀ (ds : List Bool) (cs : List Text),
        puts (ds.map .get ++ cs.map .put) = cs ∧ gets (ds.map .get ++ cs.map .put) = ds := by
      intro ds cs
      induction ds with
      | nil =>
        induction cs with
        | nil => exact ⟨rfl, rfl⟩
        | cons c cs ih => exact ⟨congrArg (c :: ·) ih.1, ih.2⟩
      | cons d ds ih => exact ⟨ih.1, congrArg (d :: ·) ih.2⟩
    obtain ⟨hp, hg⟩ := hputs (s.framings ++ [true]) chunks
    rw [received_eq, hp, hg] at hcall
    have hall := hcall rfl (Or.inr (List.prefix_append _ _))
    rw [List.take_of_length_le (by simp [hlen])] at hall
    have hcount := congrArg List.length hall
    simp only [List.length_map, List.length_zip, List.length_append, List.length_singleton,
      hlen] at hcount
    have heq : chunks.length = s.framings.length := by omega
    refine ⟨heq, ?_⟩
    rwa [zip_longer heq] at hall
  · rintro ⟨heq, hmap⟩ l hputs hgets
    rw [received_eq, hputs]
    rcases hgets with hpre | ⟨e, he⟩
    · have htake : (s.framings.zip chunks).take (gets l).length = (gets l).zip chunks := by
        have hle := hpre.length_le
        calc (s.framings.zip chunks).take (gets l).length
            = (s.framings.take (gets l).length).zip (chunks.take (gets l).length) :=
              List.take_zipWith
          _ = (gets l).zip (chunks.take (gets l).length) := by
              rw [← List.prefix_iff_eq_take.mp hpre]
          _ = (gets l).zip chunks := by
              have hcut : (gets l ++ []).zip (chunks.take (gets l).length ++
                  chunks.drop (gets l).length) = (gets l).zip (chunks.take (gets l).length) ++
                    [].zip (chunks.drop (gets l).length) :=
                List.zip_append (by rw [List.length_take_of_le (by omega)])
              simpa using hcut.symm
      rw [← hmap, ← List.map_take, htake]
    · rw [← he, zip_longer heq, hmap, List.take_of_length_le (by simp [hlen])]

/--
**message がそのまま届くのは、1.1 の message がみな改行の無い一片で送られ、塊と message が一つずつ
対応するときに限る。**
-/
theorem delivers_iff_onePerChunk {s : Session} (hs : s.WellFormed) {chunks : List Text}
    (hne : ∀ c ∈ chunks, c ≠ []) (h : chunks.flatten = s.stream) :
    Delivers s chunks ↔ SinglePiece s.new ∧ OnePerChunk s.old s.new chunks := by
  rw [delivers_iff_reads]
  exact reads_iff hs.old hs.new hne h

/-- hello と、その後の 1.1 の message。 -/
def hello : Session := ⟨["<h/>".toList], [["<r/>".toList]]⟩

theorem hello_wellFormed : hello.WellFormed := by
  constructor
  · simp only [hello, List.mem_singleton, forall_eq]
    exact ⟨⟨⟨'<', ['h', '/', '>'], rfl, by decide, by simp [FrameMark]⟩,
      ⟨['<', 'h', '/'], '>', rfl, by simp [FrameMark]⟩⟩, by decide⟩
  · simp only [hello, List.mem_singleton, forall_eq]
    exact ⟨⟨⟨'<', ['r', '/', '>'], rfl, by decide, by simp [FrameMark]⟩,
      ⟨['<', 'r', '/'], '>', rfl, by simp [FrameMark]⟩⟩, by simp⟩

/-- 枠ごとに届けば読める。 -/
theorem delivers_hello : Delivers hello (["<h/>]]>]]>", "\n#4\n<r/>\n##\n"].map String.toList) :=
  (delivers_iff_onePerChunk hello_wellFormed (by decide) (by decide)).mpr
    ⟨by simp [SinglePiece, hello], Or.inl (by decide)⟩

/-- 改行を含む 1.1 の message。 -/
def multiline : Session := ⟨[], [["<r>\n</r>".toList]]⟩

theorem multiline_wellFormed : multiline.WellFormed := by
  constructor
  · simp [multiline]
  · simp only [multiline, List.mem_singleton, forall_eq]
    exact ⟨⟨⟨'<', "r>\n</r>".toList, rfl, by decide, by simp [FrameMark]⟩,
      ⟨"<r>\n</r".toList, '>', rfl, by simp [FrameMark]⟩⟩, by simp⟩

/-- hello が二つの塊に切れると途中までしか読めず、改行を含む 1.1 の message は改行を失う。 -/
theorem delivers_hello_cut_false :
    ¬(∀ (s : Session) (chunks : List Text), s.WellFormed → (∀ c ∈ chunks, c ≠ []) →
      chunks.flatten = s.stream → Delivers s chunks) ∧
    ¬Delivers hello (["<h/", ">]]>]]>", "\n#4\n<r/>\n##\n"].map String.toList) ∧
    ¬Delivers multiline ["\n#8\n<r>\n</r>\n##\n".toList] := by
  have hcut : ¬Delivers hello (["<h/", ">]]>]]>", "\n#4\n<r/>\n##\n"].map String.toList) := by
    intro h
    have := h [.put "<h/".toList, .get false, .put ">]]>]]>".toList,
      .put "\n#4\n<r/>\n##\n".toList] rfl (Or.inl (by decide))
    exact absurd this (by decide)
  have hline : ¬Delivers multiline ["\n#8\n<r>\n</r>\n##\n".toList] := by
    intro h
    have := h [.put "\n#8\n<r>\n</r>\n##\n".toList, .get true] rfl (Or.inl (by decide))
    exact absurd this (by decide)
  exact ⟨fun h => hline (h _ _ multiline_wellFormed (by decide) (by decide)), hcut, hline⟩

end Voltha.Netconf
