import Voltha.Config.Properties.Coherent
import Voltha.Config.VolthaSchema
import Voltha.Lib.Cut
import Voltha.Lib.OrderedDict

/-!
# hash に渡す文字列

`config_rev.py` の `_hash_data` と `_hash_content` を、文字列のまま表す。版の hash は、local data の hash と
子の hash を **区切りなしに** つないだ文字列の md5 の先頭 12 桁である。

md5 が、二つの版で実際に渡す文字列の上で単射なら、文字列としての hash の等しい版は `Rev.hash` も等しい。つないだ
文字列は、どの hash も 12 桁なので一つに切れる。field の切れ目は、子の型が field ごとに異なることから決まる。

子の型が field のものであることは、加える message の型から来る。`add` はそれを調べないので、隣の field に
加えた木は、hash では見分けられない。
-/

namespace Voltha.Config

/-- hash の計算が使う、protobuf の生成した code と library の関数。 -/
structure Hashing where
  /-- `md5(s).hexdigest()[:12]`。 -/
  md5 : String → String
  /-- class の `__module__`。 -/
  moduleName : String → String
  /-- `SerializeToString()`。 -/
  serialize : Data → String
  length_md5 : ∀ s, (md5 s).length = 12
  moduleName_plain : ∀ ty, ':' ∉ (moduleName ty).toList

namespace Hashing

variable (H : Hashing)

/-- `_hash_data` が md5 に渡す文字列。 -/
def dataText (d : Data) : String := H.moduleName d.type ++ ":" ++ d.type ++ ":" ++ H.serialize d

/-- `_hash_data(data)`。 -/
def hashData (d : Data) : String := H.md5 (H.dataText d)

mutual

/-- `_hash_content()`。 -/
def hashContent : Rev → String
  | .mk i cs => H.md5 (H.hashData i.config ++ joinFields cs)

/-- すべての field の子の hash をつないだもの。 -/
def joinFields : List (String × List Rev) → String
  | [] => ""
  | (_, l) :: cs => joinHashes l ++ joinFields cs

/-- `''.join(c._hash for c in children)`。 -/
def joinHashes : List Rev → String
  | [] => ""
  | r :: rs => hashContent r ++ joinHashes rs

end

/-- `_hash_content` が md5 に渡す文字列。 -/
def contentText (r : Rev) : String := H.hashData (Rev.config r) ++ H.joinFields r.children

/-- 版の hash を求めるまでに md5 に渡す文字列。 -/
def texts (r : Rev) : List String :=
  r.subtrees.flatMap fun t => [H.dataText (Rev.config t), H.contentText t]

/-! ## つないだ文字列 -/

theorem hashContent_eq (r : Rev) : H.hashContent r = H.md5 (H.contentText r) := by
  obtain ⟨i, cs⟩ := r
  rw [hashContent]
  rfl

theorem length_hashContent (r : Rev) : (H.hashContent r).length = 12 := by
  rw [hashContent_eq]
  exact H.length_md5 _

theorem joinHashes_eq (l : List Rev) :
    (H.joinHashes l).toList = (l.map fun r => (H.hashContent r).toList).flatten := by
  induction l with
  | nil => rfl
  | cons r l ih => simp [joinHashes, ih]

theorem joinFields_eq (cs : List (String × List Rev)) :
    (H.joinFields cs).toList
      = ((cs.flatMap Prod.snd).map fun r => (H.hashContent r).toList).flatten := by
  induction cs with
  | nil => rfl
  | cons p cs ih =>
    obtain ⟨f, l⟩ := p
    simp [joinFields, joinHashes_eq, ih]

/-- 子を field の区切りなしに並べて同じなら、hash は等しい。 -/
theorem hashContent_congr {r r' : Rev} (hconfig : Rev.config r = Rev.config r')
    (hchildren : r.children.flatMap Prod.snd = r'.children.flatMap Prod.snd) :
    H.hashContent r = H.hashContent r' := by
  have hjoin : H.joinFields r.children = H.joinFields r'.children := by
    refine String.toList_injective ?_
    rw [joinFields_eq, joinFields_eq, hchildren]
  rw [hashContent_eq, hashContent_eq, contentText, contentText, hconfig, hjoin]

/-- つないだ文字列から、子の hash の列が読める。 -/
theorem hashes_of_joinFields {cs cs' : List (String × List Rev)}
    (h : H.joinFields cs = H.joinFields cs') :
    (cs.flatMap Prod.snd).map H.hashContent = (cs'.flatMap Prod.snd).map H.hashContent := by
  have hlen : ∀ (l : List Rev), ∀ m ∈ l.map fun r => (H.hashContent r).toList, m.length = 12 := by
    intro l m hm
    obtain ⟨r, -, rfl⟩ := List.mem_map.mp hm
    exact (String.length_toList).trans (H.length_hashContent r)
  have hlist := congrArg String.toList h
  rw [joinFields_eq, joinFields_eq] at hlist
  have hmap := List.flatten_inj_of_length (by decide) (hlen _) (hlen _) hlist
  refine List.map_injective_iff.mpr (fun _ _ he => String.toList_injective he) ?_
  rw [List.map_map, List.map_map]
  exact hmap

/-- local data の文字列は、class と直列化した中身を決める。 -/
theorem of_dataText {d d' : Data} (hp : ':' ∉ d.type.toList) (hp' : ':' ∉ d'.type.toList)
    (h : H.dataText d = H.dataText d') : d.type = d'.type ∧ H.serialize d = H.serialize d' := by
  have hcolon : (":" : String).toList = [':'] := rfl
  have hlist := congrArg String.toList h
  simp only [dataText, String.toList_append, hcolon, List.append_assoc, List.cons_append,
    List.nil_append] at hlist
  obtain ⟨-, hrest⟩ := List.first_mark_inj (H.moduleName_plain _) (H.moduleName_plain _) hlist
  obtain ⟨hty, hser⟩ := List.first_mark_inj hp hp' hrest
  exact ⟨String.toList_injective hty, String.toList_injective hser⟩

/-! ## `Rev.hash` との対応 -/

/-- 版とその子孫の local data。 -/
def datas (r : Rev) : List Data := r.subtrees.map Rev.config

/-- 版 `r` と `r'` について、md5 と直列化が衝突しないこと。 -/
structure Separates (r r' : Rev) : Prop where
  md5 : ∀ x ∈ H.texts r, ∀ y ∈ H.texts r', H.md5 x = H.md5 y → x = y
  serialize : ∀ d ∈ datas r, ∀ d' ∈ datas r', d.type = d'.type →
    H.serialize d = H.serialize d' → d = d'
  plain : ∀ d ∈ datas r, ':' ∉ d.type.toList
  plain' : ∀ d ∈ datas r', ':' ∉ d.type.toList

theorem datas_sub {r t : Rev} (h : FieldTree.Sub t r) : datas t ⊆ datas r := by
  intro d hd
  obtain ⟨u, hu, rfl⟩ := List.mem_map.mp hd
  have hur := (FieldTree.mem_subtrees_iff.mp hu).trans h
  exact List.mem_map_of_mem (FieldTree.mem_subtrees_iff.mpr hur)

theorem texts_sub {r t : Rev} (h : FieldTree.Sub t r) : H.texts t ⊆ H.texts r := by
  intro x hx
  obtain ⟨u, hu, hxu⟩ := List.mem_flatMap.mp hx
  have hur := (FieldTree.mem_subtrees_iff.mp hu).trans h
  exact List.mem_flatMap.mpr ⟨u, FieldTree.mem_subtrees_iff.mpr hur, hxu⟩

theorem mem_texts (r : Rev) :
    H.dataText (Rev.config r) ∈ H.texts r ∧ H.contentText r ∈ H.texts r := by
  have hself := FieldTree.mem_subtrees_iff.mpr (FieldTree.Sub.refl r)
  exact ⟨List.mem_flatMap.mpr ⟨r, hself, by simp⟩, List.mem_flatMap.mpr ⟨r, hself, by simp⟩⟩

theorem config_mem_datas (r : Rev) : Rev.config r ∈ datas r :=
  List.mem_map_of_mem (FieldTree.mem_subtrees_iff.mpr (FieldTree.Sub.refl r))

variable {H}

theorem Separates.sub {r r' t t' : Rev} (h : H.Separates r r') (ht : FieldTree.Sub t r)
    (ht' : FieldTree.Sub t' r') : H.Separates t t' where
  md5 x hx y hy := h.md5 x (H.texts_sub ht hx) y (H.texts_sub ht' hy)
  serialize d hd d' hd' := h.serialize d (datas_sub ht hd) d' (datas_sub ht' hd')
  plain d hd := h.plain d (datas_sub ht hd)
  plain' d hd := h.plain' d (datas_sub ht' hd)

/-- 一段ぶん。文字列の hash が等しければ、local data が等しく、子の hash の列も等しい。 -/
theorem Separates.step {r r' : Rev} (h : H.Separates r r')
    (he : H.hashContent r = H.hashContent r') : Rev.config r = Rev.config r' ∧
      (r.children.flatMap Prod.snd).map H.hashContent
        = (r'.children.flatMap Prod.snd).map H.hashContent := by
  rw [hashContent_eq, hashContent_eq] at he
  have htext := h.md5 _ (H.mem_texts r).2 _ (H.mem_texts r').2 he
  -- 先頭の 12 桁が local data の hash である
  have hlist := congrArg String.toList htext
  simp only [contentText, String.toList_append] at hlist
  have hlen : (H.hashData (Rev.config r)).toList.length
      = (H.hashData (Rev.config r')).toList.length := by
    rw [String.length_toList, String.length_toList, hashData, hashData, H.length_md5,
      H.length_md5]
  obtain ⟨hdata, hrest⟩ := List.append_inj hlist hlen
  have hdtext := h.md5 _ (H.mem_texts r).1 _ (H.mem_texts r').1 (String.toList_injective hdata)
  obtain ⟨hty, hser⟩ := H.of_dataText (h.plain _ (config_mem_datas r))
    (h.plain' _ (config_mem_datas r')) hdtext
  exact ⟨h.serialize _ (config_mem_datas r) _ (config_mem_datas r') hty hser,
    H.hashes_of_joinFields (String.toList_injective hrest)⟩

/-- 文字列の hash の等しい版は、`Rev.hash` も等しい。 -/
theorem hash_eq_of_hashContent {r r' : Rev} (h : H.Separates r r')
    (he : H.hashContent r = H.hashContent r') : Rev.hash r = Rev.hash r' := by
  induction r using FieldTree.induct generalizing r' with
  | h i cs ih =>
    obtain ⟨i', cs'⟩ := r'
    obtain ⟨hconfig, hchildren⟩ := h.step he
    have hmap : (cs.flatMap Prod.snd).map Rev.hash = (cs'.flatMap Prod.snd).map Rev.hash := by
      refine map_eq_of_map_eq (fun c hc c' hc' => ?_) hchildren
      obtain ⟨p, hp, hcp⟩ := List.mem_flatMap.mp hc
      obtain ⟨p', hp', hcp'⟩ := List.mem_flatMap.mp hc'
      have hsub : FieldTree.Sub c (.mk i cs) := FieldTree.Sub.of_child hp hcp
      have hsub' : FieldTree.Sub c' (.mk i' cs') := FieldTree.Sub.of_child hp' hcp'
      exact ih p.1 p.2 hp c hcp (h.sub hsub hsub')
    rw [List.map_flatMap, List.map_flatMap] at hmap
    rw [Rev.hash_mk, Rev.hash_mk, hmap]
    exact congrArg (FieldTree.mk · _) hconfig

end Hashing

/-! ## VolthaInstance の schema -/

/-- `VolthaInstance` から子の field をたどって現れる message の型。 -/
def volthaTypes : List String :=
  ["VolthaInstance", "HealthStatus", "Adapter", "LogicalDevice", "Device", "DeviceType",
    "DeviceGroup", "LogicalPort", "Port", "Flows", "FlowGroups"]

theorem volthaTypes_closed {ty : String} (h : ty ∈ volthaTypes) :
    ∀ f ∈ volthaFields ty, f.type ∈ volthaTypes := by
  revert ty
  decide

theorem volthaTypes_plain {ty : String} (h : ty ∈ volthaTypes) : ':' ∉ ty.toList := by
  revert ty
  decide

/-- schema の message の版とその子孫は、どれも schema の型である。 -/
theorem datas_type {r : Rev} (hr : Shaped volthaFields (Rev.content r))
    (hty : (Rev.config r).type ∈ volthaTypes) : ∀ d ∈ Hashing.datas r, d.type ∈ volthaTypes := by
  suffices hsub : ∀ t, FieldTree.Sub t r → (Rev.config t).type ∈ volthaTypes by
    intro d hd
    obtain ⟨t, ht, rfl⟩ := List.mem_map.mp hd
    exact hsub t (FieldTree.mem_subtrees_iff.mp ht)
  induction r using FieldTree.induct with
  | h i cs ih =>
    intro t ht
    obtain ⟨hlocal, hchildren⟩ := shaped_mk_iff.mp (Rev.content_mk i cs ▸ hr)
    rcases FieldTree.sub_mk_iff.mp ht with rfl | ⟨f, l, c, hf, hc, htc⟩
    · exact hty
    · have hmem : (f, l.map Rev.content) ∈ cs.map fun p => (p.1, p.2.map Rev.content) :=
        List.mem_map.mpr ⟨(f, l), hf, rfl⟩
      refine ih f l hf c hc (hchildren f _ hmem _ (List.mem_map_of_mem hc)) ?_ t htc
      obtain ⟨g, hg, hctype⟩ :=
        LocalShape.type_of_mem (S := volthaSchema) hlocal hmem (List.mem_map_of_mem hc)
      rw [Rev.label_content] at hctype
      exact hctype ▸ volthaTypes_closed hty g hg

/-- schema の message である二つの版は、hash が等しければ、型も、子孫まで含めた中身も等しい。 -/
theorem content_eq_of_hashContent (H : Hashing) (r r' : Rev)
    (hr : Shaped volthaFields (Rev.content r)) (hr' : Shaped volthaFields (Rev.content r'))
    (hty : (Rev.config r).type ∈ volthaTypes) (hty' : (Rev.config r').type ∈ volthaTypes)
    (hmd5 : ∀ x ∈ H.texts r ++ H.texts r', ∀ y ∈ H.texts r ++ H.texts r',
      H.md5 x = H.md5 y → x = y)
    (hser : ∀ d ∈ Hashing.datas r, ∀ d' ∈ Hashing.datas r', d.type = d'.type →
      H.serialize d = H.serialize d' → d = d')
    (h : H.hashContent r = H.hashContent r') :
    (Rev.config r).type = (Rev.config r').type ∧ Rev.content r = Rev.content r' := by
  have hsep : H.Separates r r' :=
    { md5 := fun x hx y hy => hmd5 x (List.mem_append_left _ hx) y (List.mem_append_right _ hy)
      serialize := hser
      plain := fun d hd => volthaTypes_plain (datas_type hr hty d hd)
      plain' := fun d hd => volthaTypes_plain (datas_type hr' hty' d hd) }
  have hhash := Hashing.hash_eq_of_hashContent hsep h
  have hconfig := Rev.config_eq_of_hash_eq hhash
  rw [Rev.hash_eq_digest, Rev.hash_eq_digest] at hhash
  exact ⟨congrArg Data.type hconfig, digest_injective (S := volthaSchema) hr hr' hhash⟩

/-! ## 操作で作られる版 -/

/-- 生きている版は、どれも不変条件を満たす。 -/
theorem Sound.live_deep {S : Schema} {κ : Mode} {X : State → Rev → Prop} {s : State}
    (h : Sound S κ X s) {r : Rev} (hr : r ∈ s.live) : Deep S κ X s r := by
  obtain ⟨u, hu, hsub⟩ := List.mem_flatMap.mp hr
  refine Deep.sub ?_ (FieldTree.mem_subtrees_iff.mp hsub)
  rcases List.mem_append.mp hu with hu | hu
  · obtain ⟨n, -, hn⟩ := List.mem_flatMap.mp hu
    rcases List.mem_append.mp hn with hn | hn
    · obtain ⟨k, -, hk⟩ := List.mem_flatMap.mp hn
      split at hk
      · cases hk
      · next b hb => exact ((h.good.branch n k b hb).revs u hk).2
    · obtain ⟨p, hp, rfl⟩ := List.mem_map.mp hn
      exact (h.good.tags n p hp).2
  · exact h.good.detached u hu

/-- 宣言された型の message を加えていく限り、生きている版の中身は、どれも schema の message である。 -/
theorem live_revisions_shaped {kv : Option Store} {data : Msg} {l : List Step}
    (hinit : (initRoot volthaSchema kv data).1.isOk = true) (hdata : Shaped volthaFields data)
    (hl : EveryStep volthaSchema (fun s st => st.Typed volthaSchema s)
      (start volthaSchema kv data) l) :
    ∀ r ∈ (run volthaSchema (start volthaSchema kv data) l).live,
      Shaped volthaFields (Rev.content r) := by
  have hclosed : Closed fun _ _ => True := closed_true
  have hstart : Sound volthaSchema ⟨False, True⟩ (fun _ _ => True) (start volthaSchema kv data) :=
    start_sound hclosed (fun _ => hdata) hinit
  have hrun := run_sound hclosed (EveryStep.mono (fun _ _ h => ⟨False.elim, fun _ => h⟩) hl) hstart
  exact fun r hr => (hrun.live_deep hr).shaped trivial

/-- 宣言された型の message を使う操作の列で作られ、その後の状態で生きている版。 -/
def Built (r : Rev) : Prop :=
  ∃ kv data l, (initRoot volthaSchema kv data).1.isOk = true ∧ Shaped volthaFields data ∧
    EveryStep volthaSchema (fun s st => st.Typed volthaSchema s) (start volthaSchema kv data) l ∧
    r ∈ (run volthaSchema (start volthaSchema kv data) l).live

theorem Built.shaped {r : Rev} (h : Built r) : Shaped volthaFields (Rev.content r) := by
  obtain ⟨kv, data, l, hinit, hdata, hl, hr⟩ := h
  exact live_revisions_shaped hinit hdata hl r hr

/--
**hash は中身を決める。** 宣言された型の message を使う操作で作られた二つの版は、hash が等しければ、型も、
子孫まで含めた中身も等しい。二つの版は、別々の木のものでもよい。
-/
theorem hash_identifies_content (H : Hashing) (r r' : Rev) (hr : Built r) (hr' : Built r')
    (hty : (Rev.config r).type ∈ volthaTypes) (hty' : (Rev.config r').type ∈ volthaTypes)
    (hmd5 : ∀ x ∈ H.texts r ++ H.texts r', ∀ y ∈ H.texts r ++ H.texts r',
      H.md5 x = H.md5 y → x = y)
    (hser : ∀ d ∈ Hashing.datas r, ∀ d' ∈ Hashing.datas r', d.type = d'.type →
      H.serialize d = H.serialize d' → d = d')
    (h : H.hashContent r = H.hashContent r') :
    (Rev.config r).type = (Rev.config r').type ∧ Rev.content r = Rev.content r' :=
  content_eq_of_hashContent H r r' hr.shaped hr'.shaped hty hty' hmd5 hser h

section Sample

/-- 例に出る文字列の md5 の先頭 12 桁。 -/
def sampleMd5 : List (String × String) :=
  [("logical_device_pb2:LogicalDevice:\n\x01L", "d73f7b2fad47"),
    ("logical_device_pb2:LogicalPort:\n\x01P", "5af2b88cd07f"),
    ("openflow_13_pb2:Flows:", "78cc4242fb94"), ("openflow_13_pb2:FlowGroups:", "1927416732bb"),
    ("5af2b88cd07f", "43eeddcaa289"), ("78cc4242fb94", "5e8ce4c7b4b0"),
    ("1927416732bb", "1a509a83be3e"),
    ("d73f7b2fad4743eeddcaa2895e8ce4c7b4b01a509a83be3e", "a4486af363a2")]

def sampleHashing : Hashing where
  md5 s := (sampleMd5.lookup s).getD "000000000000"
  moduleName ty :=
    if ty = "LogicalDevice" ∨ ty = "LogicalPort" then "logical_device_pb2" else "openflow_13_pb2"
  serialize d :=
    match d.attr "id" with
    | some (.str "L") => "\n\x01L"
    | some (.str "P") => "\n\x01P"
    | _ => ""
  length_md5 s := by
    have htable : ∀ p ∈ sampleMd5, p.2.length = 12 := by decide
    cases h : sampleMd5.lookup s with
    | none => rfl
    | some v => exact htable _ (OrderedDict.mem_of_lookup h)
  moduleName_plain ty := by split <;> decide

/-- logical device と、その port。 -/
def sampleDevice (ports : List Msg) : Msg :=
  .mk ⟨"LogicalDevice", [("id", .str "L")]⟩
    [("ports", ports), ("flows", []), ("flow_groups", [])]

def samplePort : Msg := leafMsg "LogicalPort" [("id", .str "P")]

/-- port を初めから持つ木と、後から加える木の、最新の版。 -/
def sampleLatest (ports : List Msg) (l : List Step) : Option Rev :=
  (run volthaSchema (start volthaSchema none (sampleDevice ports)) l).latest? rootId

/-- 初めから port を持つ版も、後から port を加えた版も、hash が等しいので中身が等しい。 -/
theorem hash_identifies_content_sample : ∃ r r',
    sampleLatest [samplePort] [] = some r ∧
    sampleLatest [] [.add none ["ports"] samplePort] = some r' ∧
    (Rev.config r).type = (Rev.config r').type ∧ Rev.content r = Rev.content r' := by
  have hboth : (sampleLatest [samplePort] []).isSome = true ∧
      (sampleLatest [] [.add none ["ports"] samplePort]).isSome = true := by decide +kernel
  obtain ⟨r, hr⟩ := Option.isSome_iff_exists.mp hboth.1
  obtain ⟨r', hr'⟩ := Option.isSome_iff_exists.mp hboth.2
  refine ⟨r, r', hr, hr', ?_⟩
  have hlive : ∀ r ∈ sampleLatest [samplePort] [],
      r ∈ (start volthaSchema none (sampleDevice [samplePort])).live := by decide +kernel
  have hlive' : ∀ r ∈ sampleLatest [] [.add none ["ports"] samplePort],
      r ∈ (run volthaSchema (start volthaSchema none (sampleDevice []))
        [.add none ["ports"] samplePort]).live := by decide +kernel
  have hbuilt : Built r :=
    ⟨none, _, [], by decide +kernel, by decide +kernel, trivial, hlive r hr⟩
  have hbuilt' : Built r' := by
    refine ⟨none, sampleDevice [], [.add none ["ports"] samplePort], by decide +kernel,
      by decide +kernel, ⟨⟨by decide, ?_⟩, trivial⟩, hlive' r' hr'⟩
    intro m route f h
    have hres : resolve volthaSchema (start volthaSchema none (sampleDevice [])) none ["ports"]
        rootId [] = .container 0 [] (byId "ports" "LogicalPort") := by decide +kernel
    obtain ⟨-, -, rfl⟩ := Target.container.inj (hres.symm.trans h)
    rfl
  have htypes : ∀ r ∈ sampleLatest [samplePort] [],
      ∀ r' ∈ sampleLatest [] [.add none ["ports"] samplePort],
      (Rev.config r).type ∈ volthaTypes ∧ (Rev.config r').type ∈ volthaTypes := by
    decide +kernel
  have hmd5 : ∀ r ∈ sampleLatest [samplePort] [],
      ∀ r' ∈ sampleLatest [] [.add none ["ports"] samplePort],
      ∀ x ∈ sampleHashing.texts r ++ sampleHashing.texts r',
      ∀ y ∈ sampleHashing.texts r ++ sampleHashing.texts r',
      sampleHashing.md5 x = sampleHashing.md5 y → x = y := by decide +kernel
  have hser : ∀ r ∈ sampleLatest [samplePort] [],
      ∀ r' ∈ sampleLatest [] [.add none ["ports"] samplePort],
      ∀ d ∈ Hashing.datas r, ∀ d' ∈ Hashing.datas r', d.type = d'.type →
      sampleHashing.serialize d = sampleHashing.serialize d' → d = d' := by decide +kernel
  have hhash : ∀ r ∈ sampleLatest [samplePort] [],
      ∀ r' ∈ sampleLatest [] [.add none ["ports"] samplePort],
      sampleHashing.hashContent r = sampleHashing.hashContent r' := by decide +kernel
  exact hash_identifies_content sampleHashing r r' hbuilt hbuilt' (htypes r hr r' hr').1
    (htypes r hr r' hr').2 (hmd5 r hr r' hr') (hser r hr r' hr') (hhash r hr r' hr')

/-- `Device` の message。 -/
def strayDevice : Msg :=
  .mk ⟨"Device", [("id", .str "x")]⟩ [("ports", []), ("flows", []), ("flow_groups", [])]

/-- `strayDevice` を container `name` に加えた木の、最新の版。 -/
def strayLatest (name : String) : Option Rev :=
  (run volthaSchema (start volthaSchema none (instanceMsg "v0" [] [] []))
    [.add none [name] strayDevice]).latest? rootId

/-- 隣の container に加えた `Device` は、hash では見分けられない。`add` は型を調べない。 -/
theorem hash_misses_container : ∃ r r',
    strayLatest "devices" = some r ∧ strayLatest "logical_devices" = some r' ∧
    (∀ H : Hashing, H.hashContent r = H.hashContent r') ∧ Rev.content r ≠ Rev.content r' := by
  have hboth : (strayLatest "devices").isSome = true ∧
      (strayLatest "logical_devices").isSome = true := by decide +kernel
  obtain ⟨r, hr⟩ := Option.isSome_iff_exists.mp hboth.1
  obtain ⟨r', hr'⟩ := Option.isSome_iff_exists.mp hboth.2
  have hsame : ∀ r ∈ strayLatest "devices", ∀ r' ∈ strayLatest "logical_devices",
      Rev.config r = Rev.config r' ∧
      r.children.flatMap Prod.snd = r'.children.flatMap Prod.snd ∧
      Rev.content r ≠ Rev.content r' := by decide +kernel
  obtain ⟨hconfig, hchildren, hcontent⟩ := hsame r hr r' hr'
  exact ⟨r, r', hr, hr', fun H => H.hashContent_congr hconfig hchildren, hcontent⟩

end Sample

end Voltha.Config
