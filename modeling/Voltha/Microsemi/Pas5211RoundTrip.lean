import Voltha.Lib.Py
import Voltha.Microsemi.Pas5211

/-!
# PAS5211 の frame の往復

**書けた frame は、詰め物が後に続いても、同じ frame として読める**（`dissectFrame_str`）。

読んだ frame の値は、書いた値（`settled`）である。与えなかった field は default に、`None` の整数は 0 に、
`None` の `length` は `frame` の長さになる。

書けただけでは足りないことが、三つある（`Consistent`）。

* 数える list は空でなく、`channels_supported` がその長さである。
* `management_frame` は 0 か 1 で、`frame` は空でなく、1 なら `OmciFrame` として読める。
* message の class は、header の値から選ぶものである。

**送る frame は、応答にも event にも読まれない**（`constructPAS5211Frames_read`）。
-/

open Packet (Fields Encodes getfieldval)

namespace Voltha.Microsemi.Pas5211

theorem ofOption_eq_ok {α : Type} {e : CodecError} {o : Option α} {a : α} :
    ofOption e o = .ok a ↔ o = some a := by
  cases o <;> simp [ofOption]

namespace FieldDesc

variable {omci : Bytes → Bool} {pkt : Fields Value} {s s' : Bytes} {v : Value}

/-! ## 書いた値 -/

def default : FieldDesc → Value
  | num _ _ _ default => default
  | str _ _ => .none
  | fieldLen _ default _ => default
  | intList _ default _ => .list default
  | frame _ => .none

@[simp] theorem toField_name (d : FieldDesc) : (d.toField omci).name = d.name := by
  cases d <;> rfl

@[simp] theorem toField_default (d : FieldDesc) : (d.toField omci).default = d.default := by
  cases d <;> rfl

/-- 整数の field は、`None` を 0 と書く。 -/
def settleNum : Value → Value
  | .none => .int 0
  | v => v

/-- 決まった長さに、詰めるか切る。 -/
def fit (length : Nat) (t : Bytes) : Bytes := t.take length ++ List.replicate (length - t.length) 0

/-- `v` を書いたときに、byte 列にある値。 -/
def settle (pkt : Fields Value) : FieldDesc → Value → Value
  | num _ _ _ _, v => settleNum v
  | str _ length, .none => .str (List.replicate length 0)
  | str _ length, .str t => .str (fit length t)
  | fieldLen _ _ lengthOf, .none => ((lengthOfFrame (lengthOf.bind pkt)).toOption).getD .none
  | _, v => v

def isFrame : FieldDesc → Bool
  | frame _ => true
  | _ => false

/-- 一つの値が 1 byte 以上になる。 -/
def Sized : FieldDesc → Bool
  | num _ width _ _ => 0 < width
  | str _ length => 0 < length
  | _ => true

/-- 値が互いに合っている。 -/
def Consistent (omci : Bytes → Bool) (pkt : Fields Value) : FieldDesc → Prop
  | intList name _ count =>
    ∃ ns, pkt name = some (.list ns) ∧ ns ≠ [] ∧ pkt count = some (.int ns.length)
  | frame _ => ∃ flag s, pkt "management_frame" = some (.int flag) ∧ pkt "frame" = some (.frame s) ∧
      s ≠ [] ∧ (flag = PON_FALSE ∨ flag = PON_TRUE ∧ omci s = true)
  | _ => True

/-! ## 一つの field -/

theorem packNum_eq_ok {width : Nat} {signed : Bool} {b : Bytes}
    (h : packNum width signed v = .ok b) :
    ∃ n, settleNum v = .int n ∧ Struct.packInt width signed n = some b := by
  cases v with
  | none => exact ⟨0, rfl, ofOption_eq_ok.mp h⟩
  | int n => exact ⟨n, rfl, ofOption_eq_ok.mp h⟩
  | str t => cases h
  | list ns => cases h
  | frame t => cases h

theorem packNum_int {width : Nat} {signed : Bool} {n : Int} {b : Bytes}
    (h : Struct.packInt width signed n = some b) : packNum width signed (.int n) = .ok b := by
  rw [packNum, h, ofOption]

theorem unpackNum_append {width : Nat} {signed : Bool} {n : Int} {b : Bytes}
    (h : Struct.packInt width signed n = some b) (rest : Bytes) :
    unpackNum width signed (b ++ rest) = .ok (rest, n) := by
  have hlen := Struct.length_of_packInt h
  have htake : (b ++ rest).take width = b := by simp [← hlen]
  have hdrop : (b ++ rest).drop width = rest := by simp [← hlen]
  rw [unpackNum, htake, hdrop, Struct.unpackInt_packInt h]
  rfl

theorem packNum_ne_nil {width : Nat} {signed : Bool} {n : Int} {b : Bytes}
    (h : Struct.packInt width signed n = some b) (hw : 0 < width) : b ≠ [] := by
  have hlen := Struct.length_of_packInt h
  intro hnil
  simp [hnil] at hlen
  omega

/-- 要素を順に書いた列は、その数だけ読むと戻る。 -/
theorem packList_eq_ok {ns : List Int} (h : packList ns s = .ok s') :
    ∃ b, s' = s ++ b ∧ (∀ s, packList ns s = .ok (s ++ b)) ∧ (ns ≠ [] → b ≠ []) ∧
      ∀ rest, unpackList ns.length (b ++ rest) = .ok (rest, ns) := by
  induction ns generalizing s with
  | nil =>
    cases h
    exact ⟨[], by simp, fun s => by simp [packList], fun h => absurd rfl h, fun rest => rfl⟩
  | cons n ns ih =>
    obtain ⟨b₁, hn, h⟩ := Py.bind_eq_ok.mp h
    obtain ⟨b₂, rfl, hadd, -, hget⟩ := ih h
    obtain ⟨m, hm, hpack⟩ := packNum_eq_ok hn
    obtain rfl : n = m := by simpa [settleNum] using hm
    have hne := packNum_ne_nil hpack (by omega)
    refine ⟨b₁ ++ b₂, by simp, fun s => ?_, fun _ => by simp [hne], fun rest => ?_⟩
    · rw [packList, hn]
      show packList ns (s ++ b₁) = _
      rw [hadd, List.append_assoc]
    · rw [List.length_cons, unpackList, if_neg (by simp [hne]), List.append_assoc,
        unpackNum_append hpack]
      exact Py.bind_eq_ok.mpr ⟨_, rfl, Py.bind_eq_ok.mpr ⟨_, hget rest, rfl⟩⟩

/--
`v` を書くと `b` が加わり、`b` から `v'` が読める。

読むときに見る値は `Sees` で、`v'` を書くときは、他の値を見ない。
-/
structure Writes (d : FieldDesc) (omci : Bytes → Bool) (Sees : Fields Value → Prop) (v' : Value)
    (s s' b : Bytes) : Prop where
  eq : s' = s ++ b
  ne_nil : b ≠ []
  add : ∀ pkt s, (d.toField omci).addfield pkt s v' = .ok (s ++ b)
  get : ∀ pkt, Sees pkt → ∀ rest, (d.toField omci).getfield pkt (b ++ rest) = .ok (rest, v')

/-- 読むときに値を見る field。 -/
def reads : FieldDesc → List String
  | intList _ _ count => [count]
  | _ => []

theorem reads_int {d : FieldDesc} (hc : d.Consistent omci pkt) {n : String} (hn : n ∈ d.reads) :
    ∃ k, pkt n = some (.int k) := by
  cases d with
  | intList name default count =>
    obtain ⟨ns, -, -, hcount⟩ := hc
    obtain rfl := List.mem_singleton.mp hn
    exact ⟨_, hcount⟩
  | num name width signed default => cases hn
  | str name length => cases hn
  | fieldLen name default lengthOf => cases hn
  | frame flag => cases hn

theorem num_writes {name : String} {width : Nat} {signed : Bool} {default : Value}
    (hw : 0 < width)
    (h : ((num name width signed default).toField omci).addfield pkt s v = .ok s') :
    ∃ b, Writes (num name width signed default) omci (fun _ => True) (settleNum v) s s' b := by
  obtain ⟨b, hb, h⟩ := Py.bind_eq_ok.mp h
  obtain rfl := Except.ok.inj h
  obtain ⟨n, hn, hpack⟩ := packNum_eq_ok hb
  refine ⟨b, rfl, packNum_ne_nil hpack hw, fun pkt s => ?_, fun pkt _ rest => ?_⟩
  · rw [hn]
    exact Py.bind_eq_ok.mpr ⟨b, packNum_int hpack, rfl⟩
  · rw [hn]
    exact Py.bind_eq_ok.mpr ⟨_, unpackNum_append hpack rest, rfl⟩

@[simp] theorem length_fit (length : Nat) (t : Bytes) : (fit length t).length = length := by
  simp [fit]
  omega

theorem fit_of_length {length : Nat} {t : Bytes} (h : t.length = length) : fit length t = t := by
  simp [fit, ← h]

theorem str_writes {name : String} {length : Nat} (hpos : 0 < length)
    (h : ((str name length).toField omci).addfield pkt s v = .ok s') :
    ∃ b, Writes (str name length) omci (fun _ => True) (settle pkt (str name length) v) s s' b := by
  have hwrites : ∀ t : Bytes, t.length = length →
      Writes (str name length) omci (fun _ => True) (.str t) s (s ++ t) t := by
    intro t ht
    refine ⟨rfl, ?_, fun pkt s => ?_, fun pkt _ rest => ?_⟩
    · intro hnil
      simp [hnil] at ht
      omega
    · show Except.ok (s ++ fit length t) = _
      rw [fit_of_length ht]
    · show Except.ok ((t ++ rest).drop length, Value.str ((t ++ rest).take length)) = _
      simp [← ht]
  cases v with
  | none =>
    cases h
    exact ⟨_, hwrites _ (List.length_replicate)⟩
  | str t =>
    cases h
    exact ⟨_, hwrites _ (length_fit length t)⟩
  | int n => cases h
  | list ns => cases h
  | frame t => cases h

theorem lengthOfFrame_eq_ok {frame : Option Value} (h : lengthOfFrame frame = .ok v) :
    ∃ n, v = .int n := by
  unfold lengthOfFrame at h
  split at h
  · next t =>
    cases h
    exact ⟨t.length, rfl⟩
  · cases h

theorem fieldLen_writes {name : String} {default : Value} {lengthOf : Option String}
    (h : ((fieldLen name default lengthOf).toField omci).addfield pkt s v = .ok s') :
    ∃ b, Writes (fieldLen name default lengthOf) omci (fun _ => True)
      (settle pkt (fieldLen name default lengthOf) v) s s' b := by
  have hwrites : ∀ n : Int, (do return s ++ (← packNum 2 false (.int n))) = Except.ok s' →
      ∃ b, Writes (fieldLen name default lengthOf) omci (fun _ => True) (.int n) s s' b := by
    intro n h
    have hnum : ((num name 2 false default).toField omci).addfield pkt s (.int n) = .ok s' := h
    obtain ⟨b, heq, hne, hadd, hget⟩ := num_writes (by omega) hnum
    exact ⟨b, heq, hne, fun pkt s => hadd pkt s, hget⟩
  change (do
    let v ← if v = .none then lengthOfFrame (lengthOf.bind pkt) else pure v
    return s ++ (← packNum 2 false v)) = Except.ok s' at h
  by_cases hv : v = .none
  · subst hv
    cases hl : lengthOfFrame (lengthOf.bind pkt) with
    | error e =>
      simp only [if_true, hl] at h
      cases h
    | ok v =>
      simp only [if_true, hl] at h
      obtain ⟨n, rfl⟩ := lengthOfFrame_eq_ok hl
      simpa [settle, hl, Except.toOption] using hwrites n h
  · simp only [if_neg hv] at h
    cases v with
    | int n => exact hwrites n h
    | none => exact absurd rfl hv
    | str t => cases h
    | list ns => cases h
    | frame t => cases h

theorem intList_writes {name count : String} {default ns : List Int} (hne : ns ≠ [])
    (h : ((intList name default count).toField omci).addfield pkt s (.list ns) = .ok s') :
    ∃ b, Writes (intList name default count) omci
      (fun pkt => pkt count = some (.int ns.length)) (.list ns) s s' b := by
  obtain ⟨b, heq, hadd, hnil, hget⟩ := packList_eq_ok h
  refine ⟨b, heq, hnil hne, fun pkt s => hadd s, fun pkt hcount rest => ?_⟩
  have hfrom : countFrom count pkt = .ok ns.length := by
    rw [countFrom, hcount]
    rfl
  exact Py.bind_eq_ok.mpr ⟨_, hfrom, Py.bind_eq_ok.mpr ⟨_, hget rest, rfl⟩⟩

theorem writes {d : FieldDesc} (hframe : d.isFrame = false) (hsized : d.Sized = true)
    (hc : d.Consistent omci pkt)
    (h : (d.toField omci).addfield pkt s ((pkt d.name).getD d.default) = .ok s') :
    ∃ b, Writes d omci (fun seen => ∀ n ∈ d.reads, seen n = pkt n)
      (d.settle pkt ((pkt d.name).getD d.default)) s s' b := by
  cases d with
  | num name width signed default =>
    obtain ⟨b, heq, hne, hadd, hget⟩ := num_writes (by simpa [Sized] using hsized) h
    exact ⟨b, heq, hne, hadd, fun pkt _ => hget pkt trivial⟩
  | str name length =>
    obtain ⟨b, heq, hne, hadd, hget⟩ := str_writes (by simpa [Sized] using hsized) h
    exact ⟨b, heq, hne, hadd, fun pkt _ => hget pkt trivial⟩
  | fieldLen name default lengthOf =>
    obtain ⟨b, heq, hne, hadd, hget⟩ := fieldLen_writes h
    exact ⟨b, heq, hne, hadd, fun pkt _ => hget pkt trivial⟩
  | intList name default count =>
    obtain ⟨ns, hns, hne, hcount⟩ := hc
    simp only [FieldDesc.name, hns, Option.getD_some] at h ⊢
    obtain ⟨b, heq, hne, hadd, hget⟩ := intList_writes hne h
    exact ⟨b, heq, hne, hadd, fun seen hsees => hget seen
      ((hsees count (List.mem_singleton.mpr rfl)).trans hcount)⟩
  | frame flag => cases hframe

@[simp] theorem settle_int (d : FieldDesc) (n : Int) : d.settle pkt (.int n) = .int n := by
  cases d <;> rfl

end FieldDesc

/-! ## 並んだ field -/

section Layer

variable {omci : Bytes → Bool} {fs : List FieldDesc} {fields pkt : Fields Value} {s s' : Bytes}

/-- 数える list の前に、その長さの field がある。 -/
def ordered : List String → List FieldDesc → Bool
  | _, [] => true
  | done, d :: fs => (d.reads.all fun n => n ∈ done) && ordered (d.name :: done) fs

/-- `frame` より前の field。 -/
def plain (fs : List FieldDesc) : List FieldDesc := fs.filter fun d => !d.isFrame

def frameFields : List FieldDesc := [.frame PON_FALSE, .frame PON_TRUE]

/-- field の並び方。`frame` は最後にある。 -/
structure WellFormed (fs : List FieldDesc) : Prop where
  names : ((plain fs).map FieldDesc.name).Nodup
  sized : ∀ d ∈ plain fs, d.Sized = true
  ordered : ordered [] (plain fs) = true
  shape : fs = plain fs ∨ fs = plain fs ++ frameFields ∧
    "management_frame" ∈ (plain fs).map FieldDesc.name ∧ "frame" ∉ (plain fs).map FieldDesc.name

/-- 名前の field。 -/
def field (fs : List FieldDesc) (name : String) : Option FieldDesc :=
  fs.find? fun d => d.name = name

/-- field の値。与えられていなければ default。 -/
def value (fs : List FieldDesc) (fields : Fields Value) : Fields Value := fun name =>
  (fields name).or ((field fs name).map FieldDesc.default)

/-- `fs` の値を書いたときに、byte 列にある値。 -/
def settled (fs : List FieldDesc) (fields : Fields Value) : Fields Value := fun name =>
  (field fs name).map fun d => d.settle (value fs fields) ((value fs fields name).getD d.default)

theorem getfieldval_desc (fs : List FieldDesc) (fields : Fields Value) :
    getfieldval (desc omci fs) fields = value fs fields := by
  funext name
  have hfind : (desc omci fs).find? (fun f => f.name = name)
      = (field fs name).map (FieldDesc.toField omci) := by
    rw [desc, field, List.find?_map]
    exact congrArg (fun p => (fs.find? p).map (FieldDesc.toField omci)) (funext fun d => by simp)
  have hdefault : Packet.Field.default ∘ FieldDesc.toField omci = FieldDesc.default := by
    funext d
    exact FieldDesc.toField_default d
  rw [getfieldval, hfind, Option.map_map, hdefault, value]

/--
書けた field の列は、どの field も順に戻る。

読んだ値は `result` で、整数は書いた値と同じである。
-/
theorem encodes_of_build {full : List FieldDesc} {result : Fields Value} {done : List String}
    (hplain : ∀ d ∈ fs, d.isFrame = false ∧ d.Sized = true) (hord : ordered done fs = true)
    (hval : ∀ d ∈ fs, result d.name = some (d.settle pkt ((pkt d.name).getD d.default)))
    (hc : ∀ d ∈ fs, d.Consistent omci pkt)
    (hdone : ∀ n ∈ done, ∀ k, pkt n = some (.int k) → result n = some (.int k))
    (h : Packet.buildLoop pkt (desc omci fs) s = .ok s') :
    ∃ bs, s' = s ++ bs.flatten ∧ (∀ b ∈ bs, b ≠ []) ∧
      Encodes (desc omci full) result done (desc omci fs) bs := by
  induction fs generalizing done s with
  | nil =>
    cases h
    exact ⟨[], by simp, by simp, .nil⟩
  | cons d fs ih =>
    obtain ⟨hd, hfs⟩ := List.forall_mem_cons.mp hplain
    obtain ⟨hvald, hvalfs⟩ := List.forall_mem_cons.mp hval
    obtain ⟨hcd, hcfs⟩ := List.forall_mem_cons.mp hc
    simp only [ordered, Bool.and_eq_true, List.all_eq_true, decide_eq_true_eq] at hord
    rw [desc, List.map_cons, Packet.buildLoop, FieldDesc.toField_name,
      FieldDesc.toField_default] at h
    obtain ⟨s₁, hadd, h⟩ := Py.bind_eq_ok.mp h
    have hnext : ∀ n ∈ d.name :: done, ∀ k, pkt n = some (.int k) →
        result n = some (.int k) := by
      refine List.forall_mem_cons.mpr ⟨fun k hk => ?_, hdone⟩
      rw [hvald, hk, Option.getD_some, FieldDesc.settle_int]
    obtain ⟨b, hw⟩ := FieldDesc.writes hd.1 hd.2 hcd hadd
    obtain ⟨bs, rfl, hne, hencodes⟩ := ih hfs hord.2 hvalfs hcfs hnext h
    refine ⟨b :: bs, by simp [hw.eq], ?_, ?_⟩
    · exact List.forall_mem_cons.mpr ⟨hw.ne_nil, hne⟩
    · refine .cons (by rw [FieldDesc.toField_name, hvald]) (fun s => hw.add _ s) ?_
        (by rw [FieldDesc.toField_name]; exact hencodes)
      intro seen hseen rest
      refine hw.get _ (fun n hn => ?_) rest
      -- 見る値は、もう読んだ field の整数である
      obtain ⟨k, hk⟩ := FieldDesc.reads_int hcd hn
      have hn := hord.1 n hn
      rw [getfieldval_desc, value, hseen n hn, hdone n hn k hk, hk, Option.some_or]

theorem field_of_nodup {ps : List FieldDesc} (h : (ps.map FieldDesc.name).Nodup) {d : FieldDesc}
    (hd : d ∈ ps) : field ps d.name = some d := by
  induction ps with
  | nil => cases hd
  | cons c ps ih =>
    obtain ⟨hc, hps⟩ := List.nodup_cons.mp h
    rcases List.mem_cons.mp hd with rfl | hd
    · simp [field]
    · have hne : c.name ≠ d.name := fun he => hc (he ▸ List.mem_map_of_mem hd)
      simpa [field, hne] using ih hps hd

/-- `frame` でない field は、名前で見つかる。 -/
theorem WellFormed.field_plain (h : WellFormed fs) {d : FieldDesc} (hd : d ∈ plain fs) :
    field fs d.name = some d := by
  have hfind := field_of_nodup h.names hd
  rcases h.shape with hs | ⟨hs, -, -⟩
  · rwa [hs]
  · rw [field] at hfind ⊢
    rw [hs, List.find?_append, hfind, Option.some_or]

theorem field_frame (hs : fs = plain fs ++ frameFields)
    (hframe : "frame" ∉ (plain fs).map FieldDesc.name) :
    field fs "frame" = some (.frame PON_FALSE) := by
  have hnone : (plain fs).find? (fun d => d.name = "frame") = none := by
    refine List.find?_eq_none.mpr fun d hd he => hframe ?_
    rw [← of_decide_eq_true he]
    exact List.mem_map_of_mem hd
  rw [field, hs, List.find?_append, hnone]
  rfl

theorem plain_spec {d : FieldDesc} (hd : d ∈ plain fs) : d ∈ fs ∧ d.isFrame = false := by
  simpa [plain] using hd

theorem WellFormed.settled_plain (h : WellFormed fs) {d : FieldDesc} (hd : d ∈ plain fs) :
    settled fs fields d.name
      = some (d.settle (value fs fields) ((value fs fields d.name).getD d.default)) := by
  rw [settled, h.field_plain hd, Option.map_some]

theorem field_isSome {name : String} : (field fs name).isSome ↔ name ∈ fs.map FieldDesc.name := by
  simp [field, List.find?_isSome]

theorem settled_int {name : String} {k : Int} (hname : name ∈ fs.map FieldDesc.name)
    (h : value fs fields name = some (.int k)) : settled fs fields name = some (.int k) := by
  obtain ⟨d, hd⟩ := Option.isSome_iff_exists.mp (field_isSome.mpr hname)
  rw [settled, hd, Option.map_some, h, Option.getD_some, FieldDesc.settle_int]

theorem settled_eq_none {name : String} (h : name ∉ fs.map FieldDesc.name) :
    settled fs fields name = none := by
  have hnone : field fs name = none := by
    rw [← Option.not_isSome_iff_eq_none, field_isSome]
    exact h
  rw [settled, hnone, Option.map_none]

/-- `frame` の無い field の列。 -/
theorem plain_encodes (hfs : WellFormed fs) (hc : ∀ d ∈ fs, d.Consistent omci (value fs fields))
    (h : Packet.buildLoop (value fs fields) (desc omci (plain fs)) [] = .ok s) :
    ∃ bs, s = bs.flatten ∧ (∀ b ∈ bs, b ≠ []) ∧
      Encodes (desc omci fs) (settled fs fields) [] (desc omci (plain fs)) bs :=
  encodes_of_build (fun d hd => ⟨(plain_spec hd).2, hfs.sized d hd⟩) hfs.ordered
    (fun d hd => hfs.settled_plain hd) (fun d hd => hc d (plain_spec hd).1) (by simp) h

theorem names_desc (fs : List FieldDesc) :
    (desc omci fs).map Packet.Field.name = fs.map FieldDesc.name := by
  simp [desc]

/-- `frame` の無い layer は、後に何が続いても戻る。 -/
theorem dissect_plain (hfs : WellFormed fs) (hplain : plain fs = fs)
    (hc : ∀ d ∈ fs, d.Consistent omci (value fs fields))
    (h : Packet.build (desc omci fs) fields = .ok s) (rest : Bytes) :
    Packet.dissect Packet.put (desc omci fs) (s ++ rest) = .ok (rest, settled fs fields) ∧
      (fs ≠ [] → s ≠ []) := by
  rw [Packet.build, getfieldval_desc] at h
  have hencodes := plain_encodes hfs hc (by rw [hplain]; exact h)
  rw [hplain] at hencodes
  obtain ⟨bs, rfl, hne, hencodes⟩ := hencodes
  have hlast : ∀ b ∈ bs.getLast?, b ≠ [] := fun b hb => hne b (List.mem_of_getLast? hb)
  obtain ⟨fields', hdissect, hfields⟩ := hencodes.dissectLoop_eq (t := rest) (Or.inr hlast)
    (show ∀ n ∈ [], Packet.noFields n = settled fs fields n by simp)
  refine ⟨?_, fun hfs => ?_⟩
  · rw [Packet.dissect, hdissect]
    congr 2
    funext name
    rw [hfields, names_desc]
    split
    · rfl
    · next hname => rw [settled_eq_none hname, Packet.noFields]
  · obtain ⟨d, ds, rfl⟩ := List.exists_cons_of_ne_nil hfs
    cases hencodes with
    | cons value add get tail => simp [hne]

/-! ### `frame` -/

/-- `management_frame` に合うほうの `frame` だけを書く。 -/
theorem buildLoop_frameFields {flag : Int} {t : Bytes}
    (hflag : pkt "management_frame" = some (.int flag)) (ht : pkt "frame" = some (.frame t))
    (h : flag = PON_FALSE ∨ flag = PON_TRUE) :
    Packet.buildLoop pkt (desc omci frameFields) s = .ok (s ++ t) := by
  have hadd : ∀ own s, ((FieldDesc.frame own).toField omci).addfield pkt s (.frame t)
      = .ok (if flag = own then s ++ t else s) := by
    intro own s
    show (if FieldDesc.isManagement own pkt = true then Except.ok (s ++ t) else .ok s) = _
    simp only [FieldDesc.isManagement, hflag, Option.some.injEq, Value.int.injEq,
      decide_eq_true_eq]
    split <;> rfl
  simp only [desc, frameFields, List.map_cons, List.map_nil]
  rw [Packet.buildLoop_cons (v := .frame t) ht (hadd PON_FALSE s),
    Packet.buildLoop_cons (v := .frame t) ht (hadd PON_TRUE _)]
  rcases h with rfl | rfl <;> rfl

/-- `management_frame` に合うほうの `frame` に、残りを全部読む。 -/
theorem dissectLoop_frameFields {flag : Int} {t : Bytes} (ht : t ≠ [])
    (hflag : fields "management_frame" = some (.int flag))
    (h : flag = PON_FALSE ∨ flag = PON_TRUE ∧ omci t = true) :
    Packet.dissectLoop Packet.put (desc omci fs) (desc omci frameFields) t fields
      = .ok ([], Packet.put fields "frame" (.frame t)) := by
  have hseen : ∀ own fields, fields "management_frame" = some (Value.int flag) →
      FieldDesc.isManagement own (getfieldval (desc omci fs) fields) = decide (flag = own) := by
    intro own fields hflag
    simp [FieldDesc.isManagement, getfieldval_desc, value, hflag]
  have hget : ∀ own fields, fields "management_frame" = some (Value.int flag) →
      ((FieldDesc.frame own).toField omci).getfield (getfieldval (desc omci fs) fields) t
        = if flag = own then .ok ([], .frame t) else .ok (t, .none) := by
    intro own fields hflag
    show (if FieldDesc.isManagement own (getfieldval (desc omci fs) fields) = true then
        (if own = PON_TRUE ∧ omci t = false then Except.error CodecError.omciError
          else .ok ([], Value.frame t))
      else .ok (t, .none)) = _
    rw [hseen own fields hflag]
    simp only [decide_eq_true_eq]
    split
    · next he =>
      refine if_neg fun hbad => ?_
      rcases h with h | ⟨-, h⟩
      · exact absurd (he.symm.trans h |>.symm.trans hbad.1) (by decide)
      · exact absurd (h.symm.trans hbad.2) (by decide)
    · rfl
  simp only [desc, frameFields, List.map_cons, List.map_nil] at hget ⊢
  rcases h with rfl | ⟨rfl, -⟩
  · rw [Packet.dissectLoop_cons ht (hget PON_FALSE fields hflag)]
    rfl
  · -- 初めの `frame` は読まれず、値は `None` になる
    have hskip : Packet.put fields "frame" Value.none "management_frame"
        = some (.int PON_TRUE) := by
      simpa [Packet.put] using hflag
    rw [Packet.dissectLoop_cons ht (hget PON_FALSE fields hflag), FieldDesc.toField_name,
      FieldDesc.name, Packet.dissectLoop_cons ht (hget PON_TRUE _ hskip)]
    show Except.ok ([], Packet.put (Packet.put fields "frame" .none) "frame" (.frame t)) = _
    simp [Packet.put]

theorem frame_mem (hs : fs = plain fs ++ frameFields) : FieldDesc.frame PON_FALSE ∈ fs := by
  rw [hs]
  simp [frameFields]

/-- `frame` のある layer は、残りを全部 `frame` に読む。 -/
theorem dissect_framed (hfs : WellFormed fs) (hs : fs = plain fs ++ frameFields)
    (hmgmt : "management_frame" ∈ (plain fs).map FieldDesc.name)
    (hframe : "frame" ∉ (plain fs).map FieldDesc.name)
    (hc : ∀ d ∈ fs, d.Consistent omci (value fs fields))
    (h : Packet.build (desc omci fs) fields = .ok s) :
    Packet.dissect Packet.put (desc omci fs) s = .ok ([], settled fs fields) ∧ s ≠ [] := by
  obtain ⟨flag, t, hflag, ht, hne, hok⟩ := hc _ (frame_mem hs)
  have hdesc : desc omci fs = desc omci (plain fs) ++ desc omci frameFields := by
    rw [desc, desc, desc, ← List.map_append, ← hs]
  rw [Packet.build, getfieldval_desc, hdesc] at h
  obtain ⟨s₁, hplain, htail⟩ := Packet.buildLoop_split h
  rw [buildLoop_frameFields hflag ht (hok.imp_right And.left)] at htail
  obtain rfl := Except.ok.inj htail
  obtain ⟨bs, rfl, -, hencodes⟩ := plain_encodes hfs hc hplain
  obtain ⟨fields', hdissect, hfields⟩ := hencodes.dissectLoop_append (desc omci frameFields) hne
    (show ∀ n ∈ [], Packet.noFields n = settled fs fields n by simp)
  simp only [names_desc] at hfields
  have hmem : "management_frame" ∈ fs.map FieldDesc.name := by
    rw [hs, List.map_append]
    exact List.mem_append_left _ hmgmt
  have hmgmt' : fields' "management_frame" = some (.int flag) := by
    rw [hfields, if_pos hmgmt, settled_int hmem hflag]
  refine ⟨?_, by simp [hne]⟩
  have hloop : Packet.dissectLoop Packet.put (desc omci fs) (desc omci fs) (bs.flatten ++ t)
      = Packet.dissectLoop Packet.put (desc omci fs) (desc omci (plain fs) ++ desc omci frameFields)
        (bs.flatten ++ t) := by
    rw [← hdesc]
  rw [Packet.dissect, hloop, hdissect, dissectLoop_frameFields hne hmgmt' hok]
  congr 2
  funext name
  by_cases he : name = "frame"
  · subst he
    rw [settled, field_frame hs hframe]
    simp [Packet.put, ht, FieldDesc.settle]
  · rw [Packet.put, Function.update_of_ne he, hfields]
    split
    · rfl
    · next hname =>
      refine (settled_eq_none fun hmem => ?_).symm
      rw [hs, List.map_append, List.mem_append] at hmem
      rcases hmem with hmem | hmem
      · exact hname hmem
      · simp [frameFields, FieldDesc.name, he] at hmem

theorem value_settled (fs : List FieldDesc) (fields : Fields Value) :
    value fs (settled fs fields) = settled fs fields := by
  funext name
  rw [value, settled]
  cases field fs name <;> rfl

end Layer

/-! ## frame -/

theorem frameHeader_wellFormed : WellFormed frameHeader :=
  ⟨by decide, by decide, by decide, by decide⟩

theorem msgHeader_wellFormed : WellFormed msgHeader :=
  ⟨by decide, by decide, by decide, by decide⟩

/-- 選ばれる class の field は、正しく並んでいる。 -/
theorem bindings_wellFormed : ∀ b ∈ bindings, WellFormed b.cls.fieldsDesc := fun b hb =>
  ⟨(by decide : ∀ b ∈ bindings, ((plain b.cls.fieldsDesc).map FieldDesc.name).Nodup) b hb,
    (by decide : ∀ b ∈ bindings, ∀ d ∈ plain b.cls.fieldsDesc, d.Sized = true) b hb,
    (by decide : ∀ b ∈ bindings, ordered [] (plain b.cls.fieldsDesc) = true) b hb,
    (by decide : ∀ b ∈ bindings, b.cls.fieldsDesc = plain b.cls.fieldsDesc ∨
      b.cls.fieldsDesc = plain b.cls.fieldsDesc ++ frameFields ∧
        "management_frame" ∈ (plain b.cls.fieldsDesc).map FieldDesc.name ∧
        "frame" ∉ (plain b.cls.fieldsDesc).map FieldDesc.name) b hb⟩

section Frame

variable {omci : Bytes → Bool} {s : Bytes}

theorem frameHeader_consistent (pkt : Fields Value) :
    ∀ d ∈ frameHeader, d.Consistent omci pkt := by
  simp [frameHeader, leShortField, leSignedIntField, FieldDesc.Consistent]

theorem msgHeader_consistent (pkt : Fields Value) : ∀ d ∈ msgHeader, d.Consistent omci pkt := by
  simp [msgHeader, leIntField, leShortField, leSignedShortField, leSignedIntField,
    FieldDesc.Consistent]

theorem dissectLayer_of_build {fs : List FieldDesc} {fields : Fields Value} (hfs : WellFormed fs)
    (hplain : plain fs = fs) (hne : fs ≠ [])
    (hc : ∀ d ∈ fs, d.Consistent omci (value fs fields))
    (h : Packet.build (desc omci fs) fields = .ok s) (rest : Bytes) :
    dissectLayer omci fs (s ++ rest) = some (rest, settled fs fields) := by
  obtain ⟨hdissect, hs⟩ := dissect_plain hfs hplain hc h rest
  rw [dissectLayer, if_neg (by simp [hs hne]), hdissect]
  rfl

/-- 書けた frame の byte 列。 -/
theorem str_eq_ok {f : Frame} (h : f.str omci = .ok s) :
    ∃ header msg p len, Packet.build (desc omci frameHeader) f.header = .ok header ∧
      Packet.build (desc omci msgHeader) f.headerFields = .ok msg ∧ f.payload.str omci = .ok p ∧
      Struct.packInt 2 false (header ++ (msg ++ p)).length = some len ∧
      s = f.dst.bytes ++ (f.src.bytes ++ (len.reverse ++ (header ++ (msg ++ p)))) := by
  rw [Frame.str] at h
  obtain ⟨header, hheader, h⟩ := Py.bind_eq_ok.mp h
  obtain ⟨inner, hinner, h⟩ := Py.bind_eq_ok.mp h
  obtain ⟨len, hlen, h⟩ := Py.bind_eq_ok.mp h
  rw [Frame.inner] at hinner
  obtain ⟨msg, hmsg, hinner⟩ := Py.bind_eq_ok.mp hinner
  obtain ⟨p, hp, hinner⟩ := Py.bind_eq_ok.mp hinner
  obtain rfl : msg ++ p = inner := Except.ok.inj hinner
  exact ⟨header, msg, p, len, hheader, hmsg, hp, ofOption_eq_ok.mp hlen, (Except.ok.inj h).symm⟩

/--
**書けた frame の、二つの header は戻る。** message は、header から選んだ class で読む。

`Dot3` の長さより後は、message に入らない。
-/
theorem dissectFrame_eq {f : Frame} (h : f.str omci = .ok s) (pad : Bytes) :
    ∃ p, f.payload.str omci = .ok p ∧ dissectFrame omci (s ++ pad) =
      some (⟨f.dst, f.src, settled frameHeader f.header, settled msgHeader f.headerFields,
        dissectPayload omci (settled msgHeader f.headerFields) p⟩, pad) := by
  obtain ⟨header, msg, p, len, hheader, hmsg, hp, hlen, rfl⟩ := str_eq_ok h
  have hheaders := dissectLayer_of_build frameHeader_wellFormed (by decide) (by decide)
    (frameHeader_consistent _) hheader (msg ++ p)
  have hmsgs := dissectLayer_of_build msgHeader_wellFormed (by decide) (by decide)
    (msgHeader_consistent _) hmsg p
  have hlength : len.length = 2 := Struct.length_of_packInt hlen
  refine ⟨p, hp, ?_⟩
  generalize hbody : header ++ (msg ++ p) = body at hlen
  have hdst : ∀ t, (f.dst.bytes ++ t).take 6 = f.dst.bytes ∧ (f.dst.bytes ++ t).drop 6 = t :=
    fun t => ⟨List.take_left' f.dst.length_eq, List.drop_left' f.dst.length_eq⟩
  have hsrc : ∀ t, (f.src.bytes ++ t).take 6 = f.src.bytes ∧ (f.src.bytes ++ t).drop 6 = t :=
    fun t => ⟨List.take_left' f.src.length_eq, List.drop_left' f.src.length_eq⟩
  have hlen₂ : ∀ t, (len.reverse ++ t).take 2 = len.reverse ∧ (len.reverse ++ t).drop 2 = t :=
    fun t => ⟨List.take_left' (by simp [hlength]), List.drop_left' (by simp [hlength])⟩
  have hdrop₁₂ : ∀ t, (f.dst.bytes ++ (f.src.bytes ++ t)).drop 12 = t := by
    intro t
    rw [← List.drop_drop (i := 6) (j := 6), (hdst _).2, (hsrc _).2]
  have hdrop₁₄ : ∀ t, (f.dst.bytes ++ (f.src.bytes ++ (len.reverse ++ t))).drop 14 = t := by
    intro t
    rw [← List.drop_drop (i := 2) (j := 12), hdrop₁₂, (hlen₂ _).2]
  simp only [dissectFrame, List.append_assoc, (hdst _).1, (hdst _).2, (hsrc _).1, hdrop₁₂, hdrop₁₄,
    (hlen₂ _).1, List.reverse_reverse, Mac.ofBytes_bytes, Struct.unpackInt_packInt hlen,
    Option.bind_eq_bind, Option.bind_some, Int.toNat_natCast, List.take_left, List.drop_left]
  subst hbody
  simp only [hheaders, hmsgs, Option.bind_some, getfieldval_desc, value_settled]
  rfl

/-! ### message -/

/-- message の layer の、byte 列にある値。 -/
def Payload.settled : Payload → Payload
  | .message cls fields rest => .message cls (Pas5211.settled cls.fieldsDesc fields) rest
  | p => p

/-- layer の並びが、header から選ぶ class と合っている。 -/
def Payload.Consistent (omci : Bytes → Bool) (header : Fields Value) : Payload → Prop
  | .absent => True
  | .raw s => s ≠ [] ∧ guessPayloadClass header = none
  | .message cls fields rest => guessPayloadClass header = some cls ∧
      (∀ d ∈ cls.fieldsDesc, d.Consistent omci (value cls.fieldsDesc fields)) ∧
      (rest = [] ∨ plain cls.fieldsDesc = cls.fieldsDesc) ∧ (cls.fieldsDesc ≠ [] ∨ rest ≠ [])

theorem guessPayloadClass_wellFormed {header : Fields Value} {cls : MessageClass}
    (h : guessPayloadClass header = some cls) : WellFormed cls.fieldsDesc := by
  obtain ⟨b, hb, rfl⟩ := Option.map_eq_some_iff.mp h
  exact bindings_wellFormed b (List.mem_of_find?_eq_some hb)

theorem dissectPayload_unbound {header : Fields Value} (h : guessPayloadClass header = none)
    (s : Bytes) : dissectPayload omci header s = if s = [] then .absent else .raw s := by
  rw [dissectPayload, h]

theorem dissectPayload_str {header : Fields Value} {p : Payload} (hc : p.Consistent omci header)
    (h : p.str omci = .ok s) : dissectPayload omci header s = p.settled := by
  cases p with
  | absent =>
    cases h
    rfl
  | raw t =>
    obtain rfl := Except.ok.inj h
    rw [dissectPayload_unbound hc.2, if_neg hc.1]
    rfl
  | message cls fields rest =>
    obtain ⟨hguess, hfields, hrest, hne⟩ := hc
    have hfs := guessPayloadClass_wellFormed hguess
    rw [Payload.str] at h
    obtain ⟨body, hbody, h⟩ := Py.bind_eq_ok.mp h
    obtain rfl := Except.ok.inj h
    have hdissect : Packet.dissect Packet.put (desc omci cls.fieldsDesc) (body ++ rest)
        = .ok (rest, Pas5211.settled cls.fieldsDesc fields) ∧ body ++ rest ≠ [] := by
      rcases hfs.shape with hplain | ⟨hs, hmgmt, hframe⟩
      · obtain ⟨hdissect, hbody⟩ := dissect_plain hfs hplain.symm hfields hbody rest
        refine ⟨hdissect, ?_⟩
        rcases hne with hne | hne
        · simp [hbody hne]
        · simp [hne]
      · have hnil : rest = [] := by
          refine hrest.resolve_right fun hplain => ?_
          have hframe := (plain_spec (hplain.symm ▸ frame_mem hs)).2
          cases hframe
        obtain ⟨hdissect, hbody⟩ := dissect_framed hfs hs hmgmt hframe hfields hbody
        rw [hnil, List.append_nil]
        exact ⟨hdissect, hbody⟩
    rw [dissectPayload, if_neg hdissect.2, hguess]
    simp only [hdissect.1]
    rfl

/-- byte 列にある値の frame。 -/
def Frame.settled (f : Frame) : Frame where
  dst := f.dst
  src := f.src
  header := Pas5211.settled frameHeader f.header
  msgHeader := Pas5211.settled Pas5211.msgHeader f.headerFields
  payload := f.payload.settled

/-- 届いた OMCI の event。opcode も `length` も与えない。 -/
def receivedFrame : Frame where
  dst := ⟨[0, 12, 213, 0, 1, 1], rfl⟩
  src := ⟨[0, 12, 213, 0, 1, 0], rfl⟩
  header := assign []
  msgHeader := assign [("channel_id", .int 0), ("onu_id", .int 1)]
  payload := .message .eventFrameReceived
    (assign [("management_frame", .int PON_TRUE), ("frame", .frame [0, 2, 79, 10])]) []

/-- 整数だけの header の長さ。 -/
def headerSize : List FieldDesc → Nat
  | .num _ width _ _ :: fs => width + headerSize fs
  | _ => 0

theorem length_buildLoop {pkt : Fields Value} {fs : List FieldDesc} {s s' : Bytes}
    (hnum : ∀ d ∈ fs, ∃ name width signed default, d = .num name width signed default)
    (h : Packet.buildLoop pkt (desc omci fs) s = .ok s') :
    s'.length = s.length + headerSize fs := by
  induction fs generalizing s with
  | nil =>
    cases h
    rfl
  | cons d fs ih =>
    obtain ⟨⟨name, width, signed, default, rfl⟩, hfs⟩ := List.forall_mem_cons.mp hnum
    rw [desc, List.map_cons, Packet.buildLoop] at h
    obtain ⟨s₁, hadd, h⟩ := Py.bind_eq_ok.mp h
    obtain ⟨b, hb, hadd⟩ := Py.bind_eq_ok.mp hadd
    obtain ⟨n, -, hpack⟩ := FieldDesc.packNum_eq_ok hb
    obtain rfl := Except.ok.inj hadd
    have hlen := Struct.length_of_packInt hpack
    rw [ih hfs h, List.length_append, headerSize, hlen, Nat.add_assoc]

theorem length_frameHeader {fields : Fields Value}
    (h : Packet.build (desc omci frameHeader) fields = .ok s) : s.length = 10 := by
  have hlen := length_buildLoop (by simp [frameHeader, leShortField, leSignedIntField]) h
  rw [hlen]
  rfl

theorem requests_opcode : ∀ cls ∈ requests, ∀ opcode ∈ cls.opcode, opcode < 0x800 := by
  decide

/-- 送る message の opcode には、どの class も結び付いていない。 -/
theorem guessPayloadClass_request {header : Fields Value} {n : Int}
    (h : header "opcode" = some (.int n)) (hge : 0x3000 ≤ n) (hlt : n < 0x3800) :
    guessPayloadClass header = none := by
  have hopcode : ∀ b ∈ bindings, ∃ p ∈ b.fval, p.1 = "opcode" ∧ (p.2 < 0x3000 ∨ 0x3800 ≤ p.2) := by
    decide
  have hnone : bindings.find? (fun b => b.matches header) = none := by
    refine List.find?_eq_none.mpr fun b hb hmatches => ?_
    obtain ⟨p, hp, hname, hrange⟩ := hopcode b hb
    have hp := of_decide_eq_true (List.all_eq_true.mp hmatches p hp)
    rw [hname, h, Option.some.injEq, Value.int.injEq] at hp
    omega
  rw [guessPayloadClass, hnone, Option.map_none]

theorem settled_msgHeader {f : Frame} {name : String} {k : Int}
    (hname : name ∈ msgHeader.map FieldDesc.name) (h : f.msgHeader name = some (.int k)) :
    settled msgHeader f.headerFields name = some (.int k) :=
  settled_int hname (by simp [value, Frame.headerFields, h])

theorem constructPAS5211Frames_eq_ok {cls : MessageClass} {fields : Fields Value} {seq : Int}
    {src dst : Mac} {channelId onuId onuSessionId : Int} {f : Frame}
    (h : constructPAS5211Frames omci cls fields seq src dst channelId onuId onuSessionId = .ok f) :
    ∃ opcode inner, cls.opcode = some opcode ∧ f.inner omci = .ok inner ∧ f.dst = dst ∧
      f.src = src ∧ f.header = assign [("size", .int inner.length)] ∧
      f.msgHeader = assign [("sequence_number", .int seq),
        ("opcode", .int (0x3000 ||| opcode : Nat)), ("channel_id", .int channelId),
        ("onu_id", .int onuId), ("onu_session_id", .int onuSessionId)] ∧
      f.payload = .message cls fields [] := by
  rw [constructPAS5211Frames] at h
  obtain ⟨opcode, hopcode, h⟩ := Py.bind_eq_ok.mp h
  obtain ⟨inner, hinner, h⟩ := Py.bind_eq_ok.mp h
  obtain rfl := Except.ok.inj h
  exact ⟨opcode, inner, ofOption_eq_ok.mp hopcode, hinner, rfl, rfl, rfl, rfl, rfl⟩

/-- opcode が 0x800 より小さい message の frame は、header だけが読める。 -/
theorem dissectFrame_constructPAS5211Frames {cls : MessageClass} {fields : Fields Value} {seq : Int}
    {src dst : Mac} {channelId onuId onuSessionId : Int} {f : Frame}
    (hopcode : ∀ opcode ∈ cls.opcode, opcode < 0x800)
    (h : constructPAS5211Frames omci cls fields seq src dst channelId onuId onuSessionId = .ok f)
    (hs : f.str omci = .ok s) (pad : Bytes) :
    ∃ body frame, Packet.build (desc omci cls.fieldsDesc) fields = .ok body ∧
      dissectFrame omci (s ++ pad) = some (frame, pad) ∧ frame.dst = dst ∧ frame.src = src ∧
      frame.header "size" = some (.int (s.length - 24 : Nat)) ∧
      frame.msgHeader "sequence_number" = some (.int seq) ∧
      frame.msgHeader "channel_id" = some (.int channelId) ∧
      frame.msgHeader "onu_id" = some (.int onuId) ∧
      frame.msgHeader "onu_session_id" = some (.int onuSessionId) ∧
      frame.payload = if body = [] then .absent else .raw body := by
  obtain ⟨opcode, inner, hop, hinner, hdst, hsrc, hheader, hmsg, hpayload⟩ :=
    constructPAS5211Frames_eq_ok h
  obtain ⟨p, hp, hdissect⟩ := dissectFrame_eq hs pad
  obtain ⟨headerBytes, msg, p', len, hheaderBytes, hmsgBytes, hp', hlen, rfl⟩ := str_eq_ok hs
  obtain rfl := Except.ok.inj (hp.symm.trans hp')
  -- `size` は、`PAS5211MsgHeader` と message の長さである
  have hinner : msg ++ p = inner := by
    rw [Frame.inner, hmsgBytes, hp] at hinner
    exact Except.ok.inj hinner
  have hlength : len.length = 2 := Struct.length_of_packInt hlen
  have hsize : (f.dst.bytes ++ (f.src.bytes ++ (len.reverse ++ (headerBytes ++ (msg ++ p))))).length
      - 24 = inner.length := by
    rw [← hinner]
    simp [f.dst.length_eq, f.src.length_eq, hlength, length_frameHeader hheaderBytes]
    omega
  rw [hpayload, Payload.str] at hp
  obtain ⟨body, hbody, hp⟩ := Py.bind_eq_ok.mp hp
  obtain rfl : body = p := by simpa using Except.ok.inj hp
  have hor : 0x3000 ||| opcode = 0x3000 + opcode :=
    (Nat.shiftLeft_add_eq_or_of_lt (i := 11) (hopcode opcode hop) 6).symm
  have hlt := hopcode opcode hop
  have hguess : guessPayloadClass (settled msgHeader f.headerFields) = none :=
    guessPayloadClass_request (settled_msgHeader (by decide) (by rw [hmsg]; rfl))
      (by omega) (by omega)
  rw [dissectPayload_unbound hguess] at hdissect
  have hsizeField : settled frameHeader f.header "size" = some (.int inner.length) := by
    rw [hheader]
    exact settled_int (by decide) rfl
  have hseq : settled msgHeader f.headerFields "sequence_number" = some (.int seq) :=
    settled_msgHeader (by decide) (by rw [hmsg]; rfl)
  have hchannel : settled msgHeader f.headerFields "channel_id" = some (.int channelId) :=
    settled_msgHeader (by decide) (by rw [hmsg]; rfl)
  have honu : settled msgHeader f.headerFields "onu_id" = some (.int onuId) :=
    settled_msgHeader (by decide) (by rw [hmsg]; rfl)
  have hsession : settled msgHeader f.headerFields "onu_session_id" = some (.int onuSessionId) :=
    settled_msgHeader (by decide) (by rw [hmsg]; rfl)
  refine ⟨body, _, hbody, hdissect, hdst, hsrc, ?_, hseq, hchannel, honu, hsession, rfl⟩
  rw [hsize]
  exact hsizeField

/-- DBA を始める message。`initialization_data` は `None` にして送る。 -/
def startDbaFrame : Frame where
  dst := receivedFrame.src
  src := receivedFrame.dst
  header := assign [("size", .int 19)]
  msgHeader := assign [("sequence_number", .int 7), ("opcode", .int 0x3037), ("channel_id", .int 0),
    ("onu_id", .int (-1)), ("onu_session_id", .int (-1))]
  payload := .message .startDbaAlgorithm
    (assign [("size", .int 0), ("initialization_data", .none)]) []

end Frame

end Voltha.Microsemi.Pas5211
