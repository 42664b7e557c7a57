import Voltha.Config.Properties.Aligned
import Voltha.Config.Properties.Image

/-!
# proxy の読み書き

proxy は、作られたときの node を握ってじかに読み、書くときは root から path をたどる。
path がいまも握っている node に行き着き、木が揃っているかぎり、二つは同じものを指す。
子を外して同じ key で加え直せば、path は新しい node に行き着き、proxy は古い node を読み続ける。
-/

namespace Voltha.Config

open Exec

variable {S : Schema} {κ : Mode} {X : State → Rev → Prop}
variable {s s' : State} {n : NodeId} {k : Option TxId}

/-! ## path の先の版 -/

/-- `_get` が path の先で読む版。container を指す path や、読めない path には無い。 -/
def readRev (S : Schema) (s : State) : List String → Rev → Option Rev
  | [], r => some r
  | name :: rest, r =>
    if isEmptyPath (name :: rest) then some r
    else if name = "" then none
    else
      match S.field? (s.node (Rev.node r)).type name with
      | none => none
      | some f =>
        match f.kind with
        | .single =>
          match (r.child name).head? with
          | none => none
          | some c => readRev S s rest c
        | .list => none
        | .keyed key kt =>
          match rest with
          | [] => none
          | keyStr :: path =>
            if isEmptyPath (keyStr :: path) then none
            else
              match kt.fromStr keyStr with
              | none => none
              | some v =>
                match findRevByKey key v (r.child name) with
                | none => none
                | some (_, c) => readRev S s path c

/-- path の先の版が分かれば、`get` はその版の `_do_get` である。 -/
theorem getRev_of_readRev (depth : Option Nat) (path : List String) :
    ∀ r x, readRev S s path r = some x →
      getRev S s depth path r = (doGet s depth x).map .one := by
  induction path using pathInduct with
  | nil =>
    intro r x h
    rw [readRev] at h
    rw [getRev, Option.some.inj h]
  | cons name rest ih ih2 =>
    intro r x h
    rw [readRev] at h
    rw [getRev]
    split at h
    · next he => rw [if_pos he, Option.some.inj h]
    · next he =>
      rw [if_neg he]
      split at h
      · cases h
      · cases hf : S.field? (s.node (Rev.node r)).type name with
        | none => rw [hf] at h; cases h
        | some f =>
          rw [hf] at h
          dsimp only at h ⊢
          cases hk : f.kind with
          | single =>
            rw [hk] at h
            dsimp only at h ⊢
            cases hc : (r.child name).head? with
            | none => rw [hc] at h; cases h
            | some c => rw [hc] at h; exact ih c x h
          | list => rw [hk] at h; cases h
          | keyed key kt =>
            rw [hk] at h
            dsimp only at h ⊢
            cases rest with
            | nil => cases h
            | cons keyStr path =>
              dsimp only at h ⊢
              split at h
              · cases h
              · next hne =>
                rw [if_neg hne]
                cases hv : kt.fromStr keyStr with
                | none => rw [hv] at h; cases h
                | some v =>
                  rw [hv] at h
                  dsimp only at h ⊢
                  cases hfind : findRevByKey key v (r.child name) with
                  | none => rw [hfind] at h; cases h
                  | some p => rw [hfind] at h; exact ih2 keyStr path rfl p.2 x h

/-- 中身の等しい列では、同じ key で中身の等しい版が見つかる。 -/
theorem findRevByKey_content (key : String) (v : Value) {l l' : List Rev}
    (h : l.map Rev.content = l'.map Rev.content) :
    ((findRevByKey key v l).map Prod.snd).map Rev.content
      = ((findRevByKey key v l').map Prod.snd).map Rev.content := by
  rw [← findByKey_content, ← findByKey_content, h]

/--
揃っている木では、root の版をたどって読む版と、node の最新の版をたどって行き着く node の最新の版は、
同じ中身を持つ。
-/
theorem readRev_content (hg : Good S κ X s) (hc : Coherent S s) (path : List String) :
    ∀ n route r y x m R, s.latest? n = some r → Deep S κ X s y → Rev.content y = Rev.content r →
      readRev S s path y = some x → resolve S s none path n route = .node m R →
      ∃ rm, s.latest? m = some rm ∧ Rev.content rm = Rev.content x := by
  induction path using pathInduct with
  | nil =>
    intro n route r y x m R hr _ hy hread hres
    rw [readRev] at hread
    rw [resolve] at hres
    obtain ⟨rfl, -⟩ := Target.node.inj hres
    exact ⟨r, hr, by rw [← hy, Option.some.inj hread]⟩
  | cons name rest ih ih2 =>
    intro n route r y x m R hr hd hy hread hres
    rw [readRev] at hread
    split at hread
    · next he =>
      rw [resolve_of_isEmptyPath he] at hres
      obtain ⟨rfl, -⟩ := Target.node.inj hres
      exact ⟨r, hr, by rw [← hy, Option.some.inj hread]⟩
    · split at hread
      · cases hread
      · next hname =>
        obtain ⟨b, hb, rfl⟩ := branch_of_latest? hr
        have hty : (s.node (Rev.node y)).type = (s.node n).type := by
          rw [hd.self.type_eq, ← (hg.branch n none b hb).config_type, ← Rev.label_content,
            ← Rev.label_content, hy]
        have hview : s.view none n = some b.latest := view_of_some hb
        have hchild : (y.child name).map Rev.content = (b.latest.child name).map Rev.content := by
          rw [← Rev.child_content, ← Rev.child_content, hy]
        rw [hty] at hread
        cases hf : S.field? (s.node n).type name with
        | none => rw [hf] at hread; cases hread
        | some f =>
          obtain ⟨hmem, rfl⟩ := S.field?_eq_some hf
          rw [hf] at hread
          rw [resolve_cons rest route hname hview hf] at hres
          dsimp only at hread
          cases hk : f.kind with
          | single =>
            rw [hk] at hread hres
            dsimp only at hread hres
            cases hcy : (y.child f.name).head? with
            | none => rw [hcy] at hread; cases hread
            | some cy =>
              cases hcb : (b.latest.child f.name).head? with
              | none => rw [hcb] at hres; cases hres
              | some cb =>
                rw [hcy] at hread
                rw [hcb] at hres
                have he : Rev.content cy = Rev.content cb := by
                  have := congrArg List.head? hchild
                  rw [head?_content, head?_content, hcy, hcb] at this
                  exact Option.some.inj this
                obtain ⟨rc, hrc, hrce⟩ := hc n b hb f hmem cb (List.mem_of_head? hcb) id
                exact ih _ _ rc cy x m R hrc (hd.child (List.mem_of_head? hcy))
                  (he.trans hrce.symm) hread hres
          | list => rw [hk] at hread; cases hread
          | keyed key kt =>
            rw [hk] at hread hres
            dsimp only at hread hres
            cases rest with
            | nil => cases hread
            | cons keyStr path =>
              dsimp only at hread hres
              split at hread
              · cases hread
              · next hne =>
                rw [if_neg hne] at hres
                cases hv : kt.fromStr keyStr with
                | none => rw [hv] at hread; cases hread
                | some v =>
                  rw [hv] at hread hres
                  dsimp only at hread hres
                  cases hfy : findRevByKey key v (y.child f.name) with
                  | none => rw [hfy] at hread; cases hread
                  | some py =>
                    cases hfb : findRevByKey key v (b.latest.child f.name) with
                    | none => rw [hfb] at hres; cases hres
                    | some pb =>
                      obtain ⟨iy, cy⟩ := py
                      obtain ⟨ib, cb⟩ := pb
                      rw [hfy] at hread
                      rw [hfb] at hres
                      have he : Rev.content cy = Rev.content cb := by
                        have := findRevByKey_content key v hchild
                        rw [hfy, hfb] at this
                        exact Option.some.inj this
                      have hmb := List.mem_of_getElem? (findRevByKey_eq_some hfb).1
                      have hmy := List.mem_of_getElem? (findRevByKey_eq_some hfy).1
                      obtain ⟨rc, hrc, hrce⟩ := hc n b hb f hmem cb hmb id
                      exact ih2 keyStr path rfl _ _ rc cy x m R hrc (hd.child hmy)
                        (he.trans hrce.symm) hread hres

/-! ## update の行き着く先 -/

/-- 書き込みの跡。node `m` の最新の版の local data が data のもので、data は子を持たない。 -/
structure Written (S : Schema) (s s' : State) (m : NodeId) (data : Msg) : Prop where
  latest : ∃ r, s'.latest? m = some r ∧ Rev.config r = data.label
  type : data.label.type = (s.node m).type
  childless : ∀ f ∈ S.fields (s.node m).type, data.child f.name = []

theorem doUpdate_written {b : Branch} {data : Msg} {strict : Bool} {r : Rev}
    (hb : (s.node n).branches none = some b)
    (h : doUpdate S n none b data strict s = (.ok r, s')) : Written S s s' n data := by
  have hcfg := doUpdate_config h
  unfold doUpdate at h
  rw [read_bind_apply] at h
  rcases Checks.require (data.label.type = (s.node n).type) _ s with ⟨h1, hty⟩ | ⟨e, h1⟩
  swap
  · rw [bind_error h1] at h; cases h
  rw [bind_ok h1] at h
  rcases testNoChildren_checks data s (S.fields (s.node n).type) with ⟨h2, hno⟩ | ⟨e, h2⟩
  swap
  · rw [bind_error h2] at h; cases h
  rw [bind_ok h2] at h
  rcases invokePre_checks n .preUpdate (.data data) s with ⟨h3, -⟩ | ⟨e, h3⟩
  swap
  · rw [bind_error h3] at h; cases h
  rw [bind_ok h3] at h
  refine ⟨⟨r, ?_, hcfg⟩, hty, hno⟩
  split at h
  · obtain ⟨hr, rfl⟩ := Prod.mk.inj h
    rw [← Except.ok.inj hr]
    exact latest?_of_branch hb
  · rcases Checks.require (strict = false ∨ violatedFields S data.label (Rev.config b.latest) = [])
      _ s with ⟨h4, -⟩ | ⟨e, h4⟩
    swap
    · unfold checkAccessViolation at h; rw [bind_error h4] at h; cases h
    unfold checkAccessViolation at h
    rw [bind_ok h4] at h
    obtain ⟨-, -, -, hnode⟩ := replaceLatest_spec h
    have hbr : (s'.node n).branches none
        = some { b with latest := r, revs := insertRev b.revs r } := by
      rw [hnode, setBranch_branches, if_pos ⟨rfl, rfl⟩]
    exact latest?_of_branch hbr

theorem Written.of_latest {s₁ s₂ : State} {m : NodeId} {data : Msg} (h : Written S s s₁ m data)
    (hl : s₂.latest? m = s₁.latest? m) : Written S s s₂ m data := by
  obtain ⟨r, hr, hcfg⟩ := h.latest
  exact ⟨⟨r, hl.trans hr, hcfg⟩, h.type, h.childless⟩

/-- 道筋の上の版を据えても、行き着いた先の最新の版は変わらない。 -/
theorem install_latest {b : Branch} {name : String} {l : List Rev}
    {anns : List (CallbackType × Context)} {r : Rev}
    (h : install n none b name l anns s = (.ok r, s')) {m : NodeId} (hm : m ≠ n) :
    s'.latest? m = s.latest? m := by
  obtain ⟨-, -, -, hnode⟩ := replaceLatest_spec h
  refine latest?_congr ?_
  rw [hnode, setBranch_branches, if_neg fun he => hm he.1]

/--
正常に終わった `update` は、path の行き着く node に書く。

path についての帰納法。行き着く node は道筋のどの node よりも後に作られたものなので、
帰りに据える版がそれを上書きすることは無い。
-/
theorem update_written (hg : Good S κ X s) (data : Msg) (strict : Bool) (path : List String) :
    ∀ n route r s' m R, update S none data strict path n s = (.ok r, s') →
      resolve S s none path n route = .node m R → n ≤ m ∧ Written S s s' m data := by
  induction path using pathInduct with
  | nil =>
    intro n route r s' m R h hres
    rw [update] at h
    obtain ⟨b, s₁, hb, h⟩ := bind_eq_ok h
    obtain ⟨rfl, hbr⟩ := branchFor_none_cases hb
    rw [resolve] at hres
    obtain ⟨rfl, -⟩ := Target.node.inj hres
    exact ⟨Nat.le_refl _, doUpdate_written hbr h⟩
  | cons name rest ih ih2 =>
    intro n route r s' m R h hres
    rw [update] at h
    split at h
    · next hname =>
      rw [resolve, if_pos hname] at hres
      exact ih n route r s' m R h hres
    · next hname =>
      obtain ⟨b, s₁, hb, h⟩ := bind_eq_ok h
      obtain ⟨rfl, hbr⟩ := branchFor_none_cases hb
      have hbok := hg.branch n none b hbr
      rw [read_bind_apply] at h
      cases hf : S.field? (s.node n).type name with
      | none => rw [hf] at h; cases h
      | some f =>
        obtain ⟨hmem, rfl⟩ := S.field?_eq_some hf
        rw [resolve_cons rest route hname (view_of_some hbr) hf] at hres
        rw [hf, ofOption_some, pure_bind_apply] at h
        cases hk : f.kind with
        | single =>
          rw [hk] at h hres
          dsimp only at h hres
          cases hc : (b.latest.child f.name).head? with
          | none => rw [hc] at hres; cases hres
          | some c =>
            rw [hc] at h hres
            dsimp only at hres
            rw [ofOption_some, pure_bind_apply] at h
            obtain ⟨c', s₂, hu, h⟩ := bind_eq_ok h
            have hyoung := (hbok.childAt hmem (List.mem_of_head? hc)).1.younger
            obtain ⟨hle, hw⟩ := ih _ _ c' s₂ m R hu hres
            have hlt : n < m := Nat.lt_of_lt_of_le hyoung hle
            exact ⟨Nat.le_of_lt hlt, hw.of_latest (install_latest h (Nat.ne_of_gt hlt))⟩
        | list => rw [hk] at hres; cases hres
        | keyed key kt =>
          rw [hk] at h hres
          dsimp only at h hres
          cases rest with
          | nil => cases h
          | cons keyStr path =>
            dsimp only at h hres
            split at h
            · cases h
            · next hne =>
              rw [if_neg hne] at hres
              cases hv : kt.fromStr keyStr with
              | none => rw [hv] at hres; cases hres
              | some v =>
                rw [hv] at h hres
                dsimp only at hres
                rw [ofOption_some, pure_bind_apply] at h
                cases hfind : findRevByKey key v (b.latest.child f.name) with
                | none => rw [hfind] at hres; cases hres
                | some p =>
                  obtain ⟨idx, c⟩ := p
                  rw [hfind] at h hres
                  dsimp only at hres
                  rw [ofOption_some, pure_bind_apply] at h
                  dsimp only at h
                  obtain ⟨c', s₂, hu, h⟩ := bind_eq_ok h
                  have hyoung := (hbok.childAt hmem
                    (List.mem_of_getElem? (findRevByKey_eq_some hfind).1)).1.younger
                  obtain ⟨hle, hw⟩ := ih2 keyStr path rfl _ _ c' s₂ m R hu hres
                  have hlt : n < m := Nat.lt_of_lt_of_le hyoung hle
                  refine ⟨Nat.le_of_lt hlt, ?_⟩
                  split at h
                  · obtain ⟨-, rfl⟩ := Prod.mk.inj h
                    exact hw
                  · split at h
                    · cases h
                    · exact hw.of_latest (install_latest h (Nat.ne_of_gt hlt))

/-- 書いたばかりの版を浅く読めば、書いた message が返る。 -/
theorem Written.get_eq {m : NodeId} {data : Msg} (h : Written S s s' m data)
    (hg : Good S .all X s') (hdata : Shaped S.fields data) {r : Rev}
    (hr : s'.latest? m = some r) :
    Rev.get (some 0) r = data := by
  obtain ⟨r', hr', hcfg⟩ := h.latest
  obtain rfl : r' = r := Option.some.inj (hr'.symm.trans hr)
  obtain ⟨b, hb, rfl⟩ := branch_of_latest? hr
  have hnames := ((hg.branch m none b hb).latest.self.shape trivial).names
  obtain ⟨d, ds⟩ := data
  have hlocal := (shaped_mk_iff.mp hdata).1
  have hcfg : Rev.config b.latest = d := hcfg
  -- data の辞書は schema の field の並びで、どの列も空である
  have hempty : ∀ p ∈ ds, p.2 = [] := by
    intro p hp
    have hnd : ((FieldTree.mk d ds : Msg).children.map Prod.fst).Nodup := by
      rw [hlocal.1]
      exact S.names_nodup _
    have hname : p.1 ∈ (S.fields d.type).map ChildField.name := by
      have hp : p.1 ∈ (FieldTree.mk d ds : Msg).children.map Prod.fst := List.mem_map_of_mem hp
      rw [hlocal.1] at hp
      exact hp
    obtain ⟨f, hf, hfn⟩ := List.mem_map.mp hname
    have hno := h.childless f (by rw [← h.type]; exact hf)
    rw [hfn, FieldTree.child_eq_of_mem hnd hp] at hno
    exact hno
  have hds : ds = (ds.map Prod.fst).map fun g => (g, []) := by
    rw [List.map_map]
    refine (List.map_id ds).symm.trans (List.map_congr_left fun p hp => ?_)
    rw [Function.comp_apply, ← hempty p hp]
    rfl
  have hzero : ∀ cs : List (String × List Rev), Rev.getFields (some 0) cs
      = (cs.map Prod.fst).map fun g => (g, []) := by
    intro cs
    induction cs with
    | nil => rfl
    | cons p cs ih => rw [Rev.getFields, ih]; rfl
  rcases hl : b.latest with ⟨i, cs⟩
  rw [hl] at hcfg hnames
  have hcfg : i.config = d := hcfg
  have hnames : cs.map Prod.fst = (S.fields i.config.type).map ChildField.name := hnames
  have hdn : ds.map Prod.fst = (S.fields d.type).map ChildField.name := hlocal.1
  rw [Rev.get, hzero, hnames, hcfg, ← hdn, ← hds]

/-! ## proxy -/

/--
path がいまも node `n` に行き着く。

書く操作は node の最新の版をたどり、`get` は root の版をたどるので、両方について言う。
-/
structure LeadsTo (S : Schema) (s : State) (path : List String) (n : NodeId) : Prop where
  write : ∃ R, resolve S s none path rootId [] = .node n R
  read : ∃ r x, s.latest? rootId = some r ∧ readRev S s (stripSlashes path) r = some x ∧
    Rev.node x = n

/--
node `n` の proxy `p` は、書いたものを読む。

* `reads` — 正常に返った `proxy.get('/')` は、同じ path の `root.get` と等しい
* `writes` — transaction の外の `proxy.update('/', data)` が正常に返ったすぐ後の
  `proxy.get('/')` は、GET callback が無ければ data を返す
-/
structure ReadsItsWrites (S : Schema) (s : State) (n : NodeId) (p : Proxy) : Prop where
  reads : ∀ depth v, proxyGet S s n ["", ""] depth none = .ok v →
    get S s rootId p.path none depth none = .ok v
  writes : ∀ data strict r s', Shaped S.fields data → p.callbacks .get = [] →
    proxyUpdate S p ["", ""] data strict none s = (.ok r, s') →
    proxyGet S s' n ["", ""] (some 0) none = .ok (.one (.data data))

theorem resolve_stripSlashes (path : List String) (n : NodeId) (route : List Seg) :
    resolve S s k (stripSlashes path) n route = resolve S s k path n route := by
  induction path with
  | nil => rfl
  | cons name rest ih =>
    rw [stripSlashes, resolve]
    split
    · exact ih
    · next hname => rw [resolve, if_neg hname]

/-- proxy の `get('/')` は、握っている node の最新の版の `_do_get` である。 -/
theorem proxyGet_root {r : Rev} (hr : s.latest? n = some r) (depth : Option Nat) :
    proxyGet S s n ["", ""] depth none = (doGet s depth r).map .one := by
  obtain ⟨b, hb, rfl⟩ := branch_of_latest? hr
  unfold proxyGet get readBranch
  rw [hb]
  rfl

/-- `_do_get` は、node と中身だけで決まる。 -/
theorem doGet_of_content {r x : Rev} (hn : Rev.node r = Rev.node x)
    (hc : Rev.content r = Rev.content x) (depth : Option Nat) :
    doGet s depth r = doGet s depth x := by
  unfold doGet
  rw [hn, Rev.get_eq_truncate, Rev.get_eq_truncate, hc]

/-- 揃っている木では、path の先の読みは、行き着く node の最新の版の読みである。 -/
theorem Aligned.held (h : Aligned S s) {path : List String} (hl : LeadsTo S s path n) :
    ∃ r, s.latest? n = some r ∧ Rev.node r = n ∧ n < s.nextNode ∧
      ∀ depth, get S s rootId path none depth none = (doGet s depth r).map .one := by
  obtain ⟨R, hres⟩ := hl.write
  obtain ⟨r₀, x, hr₀, hread, hx⟩ := hl.read
  obtain ⟨b, hb, rfl⟩ := branch_of_latest? hr₀
  have hok := h.sound.good.branch rootId none b hb
  rw [← resolve_stripSlashes] at hres
  obtain ⟨r, hr, hcontent⟩ := readRev_content h.sound.good h.coherent (stripSlashes path) rootId []
    b.latest b.latest x n R hr₀ hok.latest rfl hread hres
  obtain ⟨bn, hbn, rfl⟩ := branch_of_latest? hr
  have hbok := h.sound.good.branch n none bn hbn
  refine ⟨bn.latest, hr, hbok.node_latest, hbok.lt, fun depth => ?_⟩
  rw [doGet_of_content (hbok.node_latest.trans hx.symm) hcontent]
  unfold get readBranch
  rw [hb]
  exact getRev_of_readRev depth (stripSlashes path) b.latest x hread

theorem Aligned.reads (h : Aligned S s) {path : List String} (hl : LeadsTo S s path n)
    (depth : Option Nat) :
    proxyGet S s n ["", ""] depth none = get S s rootId path none depth none := by
  obtain ⟨r, hr, -, -, hget⟩ := h.held hl
  rw [hget, proxyGet_root hr]

theorem Aligned.writes (h : Aligned S s) {p : Proxy} (hp : (s.node n).proxy = some p)
    (hl : LeadsTo S s p.path n) {data : Msg} {strict : Bool} {r : Rev}
    (hdata : Shaped S.fields data) (hget : p.callbacks .get = [])
    (hu : proxyUpdate S p ["", ""] data strict none s = (.ok r, s')) :
    proxyGet S s' n ["", ""] (some 0) none = .ok (.one (.data data)) := by
  obtain ⟨R, hres⟩ := hl.write
  obtain ⟨-, -, -, hlt, -⟩ := h.held hl
  have hroot : inTransaction none (rootOp none (update S none data strict p.path rootId)) s
      = (.ok r, s') := hu
  have hisOk : (inTransaction none (rootOp none (update S none data strict p.path rootId))
      s).1.isOk = true := by rw [hroot]; rfl
  obtain ⟨r', s₁, hop, he⟩ := inTransaction_ok hisOk
  rw [hroot] at he
  obtain ⟨-, rfl⟩ := Prod.mk.inj he
  obtain ⟨-, hw⟩ := update_written h.sound.good data strict p.path rootId [] r' s₁ n R hop hres
  have heff : Effect S none (Keeping S .all) [] rootId s
      (update S none data strict p.path rootId s).1
      (update S none data strict p.path rootId s).2 :=
    update_keeping fun _ => keepsKey_of_update_ok hop
  rw [hop] at heff
  have hgood : Good S .all (fun _ _ => True) s₁ :=
    (heff.good closed_true (fun _ _ h => h) h.sound.good h.sound.root
      fun _ => h.sound.slotRoute []).good
  obtain ⟨rn, hrn, -⟩ := hw.latest
  have hnode : Rev.node rn = n := by
    obtain ⟨bn, hbn, rfl⟩ := branch_of_latest? hrn
    exact (hgood.branch n none bn hbn).node_latest
  have hproxy : (s₁.node (Rev.node rn)).proxy = some p := by
    rw [hnode, heff.frame.proxy n hlt]; exact hp
  have hread : proxyGet S (executeDeferredCallbacks s₁) n ["", ""] (some 0) none
      = (doGet s₁ (some 0) rn).map .one := proxyGet_root (S := S) hrn (some 0)
  rw [hread]
  unfold doGet
  rw [hproxy]
  dsimp only
  rw [hget, hw.get_eq hgood hdata hrn]
  rfl

/--
**path が握っている node に行き着くかぎり、proxy は書いたものを読む。**

どの一歩も key と型を守り、どの commit も断られるか古びた版を引き取らない実行で到達する
どの状態でも、path がいまも握っている node に行き着くどの proxy も、書いたものを読む。
-/
theorem proxy_reads_its_writes (S : Schema) {kv : Option Store} {data : Msg}
    (hdata : Shaped S.fields data) (hinit : (initRoot S kv data).1.isOk = true) {l : List Step}
    (hl : EveryStep S (fun s st => st.Orderly S s) (start S kv data) l) :
    ∀ n p, ((run S (start S kv data) l).node n).proxy = some p →
      LeadsTo S (run S (start S kv data) l) p.path n →
      ReadsItsWrites S (run S (start S kv data) l) n p := by
  have h := run_aligned hdata hinit hl
  intro n p hp hlead
  refine ⟨fun depth v hv => ?_, fun data strict r s' hd hget hu => h.writes hp hlead hd hget hu⟩
  rw [← h.reads hlead]
  exact hv

theorem proxyUpdate_root (p : Proxy) (data : Msg) (strict : Bool) (s : State) :
    proxyUpdate S p ["", ""] data strict none s = rootUpdate S none p.path data strict s := rfl

/-- adapter `0` に proxy を作り、直接の update と、transaction の commit で書き換える実行。 -/
def proxySteps : List Step :=
  [.getProxy ["", "adapters", "0"] false,
    .update none ["adapters", "0"] (adapterMsg "0" "b") false,
    .openTx,
    .update (some 0) ["adapters", "1"] (adapterMsg "1" "c") false,
    .commit 0]

theorem proxySteps_orderly : EveryStep volthaSchema (fun s st => st.Orderly volthaSchema s)
    (start volthaSchema none sampleInstance) proxySteps := by
  have easy : ∀ {s : State} {st : Step}, st.sameKey volthaSchema s = true → st.Typed volthaSchema s →
      (∀ t, st ≠ .commit t) → st.Orderly volthaSchema s := fun hk hty hc =>
    ⟨⟨fun _ => Step.keepsKey_of_sameKey hk, fun _ => hty⟩, fun t ht => absurd ht (hc t)⟩
  refine ⟨easy rfl trivial (by simp), easy (by decide +kernel) trivial (by simp),
    easy rfl trivial (by simp), easy (by decide +kernel) trivial (by simp),
    ⟨⟨fun _ => trivial, fun _ => trivial⟩, ?_⟩, trivial⟩
  rintro t ⟨rfl⟩
  refine Or.inr (fresh_of_freshAt (κ := ⟨False, False⟩) (X := fun _ _ => True) ?_
    (by decide +kernel))
  exact (step_sound closed_true (step_sound closed_true (step_sound closed_true
    (step_sound closed_true (start_sound closed_true False.elim (by decide +kernel)) _
      ⟨False.elim, False.elim⟩) _ ⟨False.elim, False.elim⟩) _ ⟨False.elim, False.elim⟩) _
      ⟨False.elim, False.elim⟩).good

/-- その proxy は、commit の後も adapter `0` の書いたとおりのものを読む。 -/
theorem proxy_reads_its_writes_adapter :
    ∃ p, ((run volthaSchema (start volthaSchema none sampleInstance) proxySteps).node 2).proxy
        = some p ∧ p.path = ["", "adapters", "0"] ∧
      ReadsItsWrites volthaSchema (run volthaSchema (start volthaSchema none sampleInstance)
        proxySteps) 2 p := by
  have hp : ((run volthaSchema (start volthaSchema none sampleInstance) proxySteps).node 2).proxy.map
      Proxy.path = some ["", "adapters", "0"] := by decide +kernel
  obtain ⟨p, hp, hpath⟩ := Option.map_eq_some_iff.mp hp
  refine ⟨p, hp, hpath, proxy_reads_its_writes volthaSchema (by decide +kernel) (by decide +kernel)
    proxySteps_orderly 2 p hp ?_⟩
  rw [hpath]
  refine ⟨⟨[⟨byId "adapters" "Adapter", some (.str "0")⟩], by decide +kernel⟩, ?_⟩
  have hread : (((run volthaSchema (start volthaSchema none sampleInstance) proxySteps).latest?
      rootId).bind fun r => (readRev volthaSchema (run volthaSchema
        (start volthaSchema none sampleInstance) proxySteps)
          (stripSlashes ["", "adapters", "0"]) r).map Rev.node) = some 2 := by decide +kernel
  obtain ⟨r, hr, hx⟩ := Option.bind_eq_some_iff.mp hread
  obtain ⟨x, hx, hn⟩ := Option.map_eq_some_iff.mp hx
  exact ⟨r, x, hr, hx, hn⟩

/-- adapter `0` に proxy を作り、外して、同じ key で加え直す実行。 -/
def replacedSteps : List Step :=
  [.getProxy ["", "adapters", "0"] false,
    .remove none ["adapters", "0"],
    .add none ["adapters"] (adapterMsg "0" "b")]

/--
加え直した後の proxy は、外された node を読み続ける。

`proxy.update('/')` は正常に返り、新しい node に書かれるが、すぐ後の `proxy.get('/')` は
外される前の message を返し、`root.get` とも食い違う。
-/
theorem proxy_reads_stale :
    Reachable volthaSchema
      (run volthaSchema (start volthaSchema none sampleInstance) replacedSteps) ∧
    ∃ p, ((run volthaSchema (start volthaSchema none sampleInstance) replacedSteps).node 2).proxy
        = some p ∧ p.path = ["", "adapters", "0"] ∧ p.callbacks .get = [] ∧
      (proxyGet volthaSchema (run volthaSchema (start volthaSchema none sampleInstance)
        replacedSteps) 2 ["", ""] (some 0) none).toOption
          = some (.one (.data (adapterMsg "0" "a"))) ∧
      (get volthaSchema (run volthaSchema (start volthaSchema none sampleInstance) replacedSteps)
        rootId ["", "adapters", "0"] none (some 0) none).toOption
          = some (.one (.data (adapterMsg "0" "b"))) ∧
      (proxyUpdate volthaSchema p ["", ""] (adapterMsg "0" "c") false none
        (run volthaSchema (start volthaSchema none sampleInstance) replacedSteps)).1.isOk = true ∧
      (proxyGet volthaSchema (proxyUpdate volthaSchema p ["", ""] (adapterMsg "0" "c") false none
        (run volthaSchema (start volthaSchema none sampleInstance) replacedSteps)).2
          2 ["", ""] (some 0) none).toOption = some (.one (.data (adapterMsg "0" "a"))) ∧
      ¬ReadsItsWrites volthaSchema
        (run volthaSchema (start volthaSchema none sampleInstance) replacedSteps) 2 p := by
  have hp : ((run volthaSchema (start volthaSchema none sampleInstance)
      replacedSteps).node 2).proxy.map (fun p => (p.path, (p.callbacks .get).length))
        = some (["", "adapters", "0"], 0) := by decide +kernel
  obtain ⟨p, hp, hpath⟩ := Option.map_eq_some_iff.mp hp
  obtain ⟨hpath, hlen⟩ := Prod.mk.inj hpath
  have hget : (proxyGet volthaSchema (run volthaSchema (start volthaSchema none sampleInstance)
      replacedSteps) 2 ["", ""] (some 0) none).toOption
        = some (.one (.data (adapterMsg "0" "a"))) := by decide +kernel
  have hroot : (get volthaSchema (run volthaSchema (start volthaSchema none sampleInstance)
      replacedSteps) rootId ["", "adapters", "0"] none (some 0) none).toOption
        = some (.one (.data (adapterMsg "0" "b"))) := by decide +kernel
  refine ⟨reachable_run (by decide +kernel) _, p, hp, hpath, List.length_eq_zero_iff.mp hlen, hget,
    hroot, ?_, ?_, fun h => ?_⟩
  · rw [proxyUpdate_root, hpath]; decide +kernel
  · rw [proxyUpdate_root, hpath]; decide +kernel
  · rcases hv : proxyGet volthaSchema (run volthaSchema (start volthaSchema none sampleInstance)
      replacedSteps) 2 ["", ""] (some 0) none with e | v
    · rw [hv] at hget; cases hget
    · have hr := h.reads (some 0) v hv
      rw [hpath] at hr
      rw [hv] at hget
      rw [hr] at hroot
      rw [hget] at hroot
      exact absurd hroot (by decide)

end Voltha.Config
