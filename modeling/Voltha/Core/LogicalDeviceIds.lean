import Mathlib.Data.Finset.Card
import Mathlib.Order.Bounds.Basic
import Mathlib.Order.Interval.Finset.Nat
import Voltha.Core.AdapterBus

/-!
# logical device の id の割り当て

`_find_first_available_id` の loop には上限が無い。`i` は、二つの表のどちらにも無いところで止まる。一つの
logical device が塞ぐ数は、datapath id と id の、多くても二つである。だから `2 * n + 1` までに必ず止まる。

割り当てた id は木に書かれるので、次の呼び出しからは塞がっている。
-/

namespace Voltha.Core

variable {devices : List LogicalDevice} {i j : Nat}

/-! ## loop -/

/-- `_find_first_available_id` の loop の、`i` からの `fuel` 回。 -/
def availableLoop (logicalDevices : List LogicalDevice) : Nat → Nat → Option Nat
  | 0, _ => none
  | fuel + 1, i =>
    if i ∉ logicalDevices.map LogicalDevice.datapathId ∧
        toString i ∉ logicalDevices.map LogicalDevice.id then some i
    else availableLoop logicalDevices fuel (i + 1)

/-- loop は、`i` から数えて最初の空いている数で止まる。 -/
theorem availableLoop_eq (hj : Available devices j) :
    ∀ {fuel i : Nat}, 1 ≤ i → i ≤ j → j < i + fuel →
      (∀ k, i ≤ k → k < j → ¬Available devices k) → availableLoop devices fuel i = some j := by
  intro fuel
  induction fuel with
  | zero => intro i _ hle hlt _; omega
  | succ fuel ih =>
    intro i hi hle hlt hleast
    unfold availableLoop
    rcases Nat.eq_or_lt_of_le hle with rfl | hlt'
    · rw [if_pos hj.2]
    · have hfull : ¬Available devices i := hleast i le_rfl hlt'
      rw [if_neg fun h => hfull ⟨hi, h⟩]
      exact ih (by omega) hlt' (by omega) fun k hk => hleast k (by omega)

theorem toString_injective {m n : Nat} (h : toString m = toString n) : m = n := by
  have hdigits : Nat.toDigits 10 m = Nat.toDigits 10 n := by
    rw [← Nat.toList_repr, ← Nat.toList_repr]
    exact congrArg String.toList h
  have hback : ∀ k, Nat.ofDigitChars 10 (Nat.toDigits 10 k) 0 = k := fun k =>
    Nat.ofDigitChars_toDigits (by omega) le_rfl
  rw [← hback m, hdigits, hback]

/-- 塞がっている数は、logical device の数の二倍までしか無い。 -/
theorem exists_available_le (devices : List LogicalDevice) :
    ∃ i, Available devices i ∧ i ≤ 2 * devices.length + 1 := by
  by_contra hnone
  let window := Finset.Icc 1 (2 * devices.length + 1)
  let named := window.filter fun i => toString i ∈ devices.map LogicalDevice.id
  have hfull : window ⊆ (devices.map LogicalDevice.datapathId).toFinset ∪ named := by
    intro i hi
    by_cases hnamed : toString i ∈ devices.map LogicalDevice.id
    · exact Finset.mem_union_right _ (Finset.mem_filter.mpr ⟨hi, hnamed⟩)
    · refine Finset.mem_union_left _ (List.mem_toFinset.mpr ?_)
      by_contra hfree
      obtain ⟨h1, hle⟩ := Finset.mem_Icc.mp hi
      exact hnone ⟨i, ⟨h1, hfree, hnamed⟩, hle⟩
  -- 一つの id が塞ぐ数は一つである
  have hnamed : named.card ≤ devices.length := by
    have hle := Finset.card_le_card_of_injOn (s := named)
      (t := (devices.map LogicalDevice.id).toFinset) toString
      (fun i hi => List.mem_toFinset.mpr (Finset.mem_filter.mp hi).2)
      (fun i _ j _ h => toString_injective h)
    exact hle.trans ((List.toFinset_card_le _).trans (by simp))
  have hdatapath : (devices.map LogicalDevice.datapathId).toFinset.card ≤ devices.length :=
    (List.toFinset_card_le _).trans (by simp)
  have hcard := (Finset.card_le_card hfull).trans (Finset.card_union_le _ _)
  have hwindow : window.card = 2 * devices.length + 1 := by simp [window]
  omega

/-- loop は `2 * n + 1` 回までに、空いている最小の数で止まる。 -/
theorem availableLoop_ends {fuel : Nat} (h : 2 * devices.length < fuel) :
    availableLoop devices fuel 1 = some (findFirstAvailableId devices) := by
  obtain ⟨i, hi, hle⟩ := exists_available_le devices
  have hspec : Available devices (findFirstAvailableId devices) :=
    Nat.find_spec (exists_available devices)
  have hmin : findFirstAvailableId devices ≤ i := Nat.find_min' _ hi
  exact availableLoop_eq hspec le_rfl hspec.1 (by omega) fun k _ hk => Nat.find_min _ hk

/-! ## 呼び出しの列 -/

section Calls

variable {Data : Type}

/-- `create_logical_device` を順に呼ぶ。正常に終わったものの結果と、後の agent。 -/
def createLogicalDevices : List (LogicalDevice × Bool) → AdapterAgent Data →
    List LogicalDevice × AdapterAgent Data
  | [], s => ([], s)
  | (logicalDevice, writes) :: calls, s =>
    match createLogicalDevice logicalDevice writes s with
    | (.ok created, s') =>
      (created :: (createLogicalDevices calls s').1, (createLogicalDevices calls s').2)
    | (.error _, s') => createLogicalDevices calls s'

/-- 木の `/logical_devices`。key は id である。 -/
def keyed (devices : List LogicalDevice) : List (String × LogicalDevice) :=
  devices.map fun ld => (ld.id, ld)

theorem map_snd_keyed : (keyed devices).map Prod.snd = devices := by
  simp [keyed, Function.comp_def]

/-- 新しい id なら、末尾に足す。 -/
theorem set_keyed {ld : LogicalDevice} (h : ld.id ∉ devices.map LogicalDevice.id) :
    OrderedDict.set (keyed devices) ld.id ld = keyed (devices ++ [ld]) := by
  have hkeys : (keyed devices).map Prod.fst = devices.map LogicalDevice.id := by
    simp [keyed, Function.comp_def]
  rw [OrderedDict.set, hkeys, if_neg h, keyed, keyed, List.map_append]
  rfl

/-- id の無い呼び出しは、空いている数を木の末尾に書く。 -/
theorem createLogicalDevice_fresh {ld : LogicalDevice} (hid : ld.id = "") {s : AdapterAgent Data}
    (hs : s.logicalDevices = keyed devices) : ∃ created s',
      createLogicalDevice ld true s = (.ok created, s') ∧
      s'.logicalDevices = keyed (devices ++ [created]) ∧
      created.id ∉ devices.map LogicalDevice.id ∧
      created.datapathId ∉ devices.map LogicalDevice.datapathId := by
  obtain ⟨-, hdatapath, hname⟩ : Available devices (findFirstAvailableId devices) :=
    Nat.find_spec (exists_available devices)
  have hassign : s.assignId ld
      = ⟨toString (findFirstAvailableId devices), findFirstAvailableId devices⟩ := by
    rw [AdapterAgent.assignId, if_pos hid, hs, map_snd_keyed]
  have hset : OrderedDict.set s.logicalDevices (s.assignId ld).id (s.assignId ld)
      = keyed (devices ++ [s.assignId ld]) := by
    rw [hs]
    exact set_keyed (by rw [hassign]; exact hname)
  exact ⟨s.assignId ld, _, rfl, hset, by rw [hassign]; exact hname,
    by rw [hassign]; exact hdatapath⟩

theorem createLogicalDevice_refused (ld : LogicalDevice) (s : AdapterAgent Data) :
    createLogicalDevice ld false s = (.error .tree, s) := rfl

/-- 作ったものを足していっても、id も datapath id も新しい。 -/
theorem createLogicalDevices_fresh {calls : List (LogicalDevice × Bool)} :
    ∀ {devices : List LogicalDevice} {s : AdapterAgent Data}, s.logicalDevices = keyed devices →
      (∀ c ∈ calls, c.1.id = "") →
      (createLogicalDevices calls s).1.length = calls.countP Prod.snd ∧
      ((createLogicalDevices calls s).1.map LogicalDevice.id).Nodup ∧
      ((createLogicalDevices calls s).1.map LogicalDevice.datapathId).Nodup ∧
      ∀ d ∈ (createLogicalDevices calls s).1, d.id ∉ devices.map LogicalDevice.id ∧
        d.datapathId ∉ devices.map LogicalDevice.datapathId := by
  induction calls with
  | nil => simp [createLogicalDevices]
  | cons call calls ih =>
    intro devices s hs hcalls
    obtain ⟨ld, writes⟩ := call
    have hrest : ∀ c ∈ calls, c.1.id = "" := fun c hc => hcalls c (List.mem_cons_of_mem _ hc)
    cases writes with
    | false =>
      rw [createLogicalDevices, createLogicalDevice_refused]
      simpa using ih hs hrest
    | true =>
      obtain ⟨created, s', hrun, hs', hid, hdatapath⟩ :=
        createLogicalDevice_fresh (hcalls _ List.mem_cons_self) hs
      obtain ⟨hlength, hids, hdatapaths, hnew⟩ := ih hs' hrest
      rw [createLogicalDevices, hrun]
      refine ⟨by simp [hlength], ?_, ?_, ?_⟩
      · refine List.nodup_cons.mpr ⟨?_, hids⟩
        rintro hmem
        obtain ⟨d, hd, heq⟩ := List.mem_map.mp hmem
        exact (hnew d hd).1 (by simp [heq])
      · refine List.nodup_cons.mpr ⟨?_, hdatapaths⟩
        rintro hmem
        obtain ⟨d, hd, heq⟩ := List.mem_map.mp hmem
        exact (hnew d hd).2 (by simp [heq])
      · intro d hd
        rcases List.mem_cons.mp hd with rfl | hd
        · exact ⟨hid, hdatapath⟩
        · obtain ⟨hnid, hndatapath⟩ := hnew d hd
          rw [List.map_append, List.mem_append, not_or] at hnid hndatapath
          exact ⟨hnid.1, hndatapath.1⟩

/--
**新しい logical device の番号。**

loop は必ず止まり、空いている最小の数を返す。id の無い呼び出しをどう並べても、木に書けた呼び出しの
id と datapath id は互いに違い、前からあるものとも違う。
-/
theorem logical_device_ids_fresh (devices : List LogicalDevice) :
    (∀ fuel, 2 * devices.length < fuel → ∃ i, availableLoop devices fuel 1 = some i ∧
      IsLeast {i | 1 ≤ i ∧ i ∉ devices.map LogicalDevice.datapathId ∧
        toString i ∉ devices.map LogicalDevice.id} i) ∧
    ∀ (s : AdapterAgent Data) (calls : List (LogicalDevice × Bool)),
      s.logicalDevices = keyed devices → (∀ c ∈ calls, c.1.id = "") →
        (createLogicalDevices calls s).1.length = calls.countP Prod.snd ∧
        ((createLogicalDevices calls s).1.map LogicalDevice.id).Nodup ∧
        ((createLogicalDevices calls s).1.map LogicalDevice.datapathId).Nodup ∧
        ∀ d ∈ (createLogicalDevices calls s).1, d.id ∉ devices.map LogicalDevice.id ∧
          d.datapathId ∉ devices.map LogicalDevice.datapathId := by
  refine ⟨fun fuel h => ⟨_, availableLoop_ends h, ?_⟩, fun s calls => createLogicalDevices_fresh⟩
  exact ⟨Nat.find_spec (exists_available devices), fun i hi => Nat.find_min' _ hi⟩

/-- 番号の一部が塞がっている木で、二つ続けて作る。 -/
theorem logical_device_ids_fresh_two :
    let devices : List LogicalDevice := [⟨"1", 7⟩, ⟨"olt", 2⟩]
    let s : AdapterAgent Unit := ⟨keyed devices, [], .initial, [], []⟩
    let calls : List (LogicalDevice × Bool) := [(⟨"", 0⟩, true), (⟨"", 0⟩, true)]
    availableLoop devices 5 1 = some 3 ∧
      ((createLogicalDevices calls s).1.map LogicalDevice.id).Nodup := by
  intro devices s calls
  obtain ⟨hloop, hcreated⟩ := logical_device_ids_fresh devices
  obtain ⟨i, hi, -⟩ := hloop 5 (by decide)
  have hthree : availableLoop devices 5 1 = some 3 := by decide
  obtain rfl : i = 3 := Option.some.inj (hi.symm.trans hthree)
  exact ⟨hi, (hcreated s calls rfl (by decide)).2.1⟩

end Calls

end Voltha.Core
