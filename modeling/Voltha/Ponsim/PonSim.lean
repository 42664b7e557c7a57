import Voltha.Lib.Py
import Voltha.Ponsim.SimDevice

/-!
# 模擬の PON

`ponsim/ponsim.py` の `PonSim`。一つの OLT と、その port 1 に並んだ ONU。

OLT は、PON へ送る frame の同じ object を ONU に順に渡す。ONU が写しを作る前に `SET_FIELD` で
書くと、次の ONU は書かれた frame を受け取り、例外になれば残りの ONU には届かない。
他の ONU がどの ONU にも影響しないのは、どの ONU もその frame を元のままに残すときに限る
（`independent_iff`）。
-/

namespace Voltha.Ponsim

open Voltha.Flow Precedence

/-! ## つなぎ方 -/

inductive Device where
  | olt
  | onu (i : Nat)
deriving DecidableEq, Repr

/-- `links` の関数。 -/
inductive Target where
  /-- `self.egress_fun(port_no, frame)`。 -/
  | egress (portNo : Nat)
  /-- `device.ingress(port, frame)`。 -/
  | ingress (device : Device) (port : UInt32)
deriving DecidableEq, Repr

/-- それぞれの device の、`install_flows` に渡した flow。 -/
structure PonSim where
  oltFlows : List FlowStats
  onuFlows : List (List FlowStats)
deriving DecidableEq, Repr

/-- 呼び出しの間に `egress_fun` に渡った frame と、呼び出しの後の frame の中身。 -/
structure Run where
  delivered : List (Nat × Frame)
  result : Except SimError Frame

/-- 例外が無ければ続ける。 -/
def Run.andThen (run : Run) (next : Frame → Run) : Run :=
  match run.result with
  | .error _ => run
  | .ok frame => ⟨run.delivered ++ (next frame).delivered, (next frame).result⟩

/-- `for fun in links: fun(egress_port, egress_frame)`。どの関数も同じ object を受け取る。 -/
def forward (call : Device → UInt32 → Frame → Run) : List Target → Frame → Run
  | [], frame => ⟨[], .ok frame⟩
  | .egress portNo :: rest, frame => Run.andThen ⟨[(portNo, frame)], .ok frame⟩ (forward call rest)
  | .ingress device port :: rest, frame => (call device port frame).andThen (forward call rest)

/-- 転送の後の、受け取った frame。写しを送ったのなら、転送先は元の frame に触れない。 -/
def Frames.afterForward (frames : Frames) (sent : Frame) : Frame :=
  match frames.rebuilt with
  | none => sent
  | some _ => frames.received

namespace PonSim

/-- `device.flows`。 -/
def flows (sim : PonSim) : Device → List FlowStats
  | .olt => installFlows sim.oltFlows
  | .onu i => installFlows (sim.onuFlows.getD i [])

/-- `device.links.get(port)`。 -/
def links (sim : PonSim) (device : Device) (port : UInt32) : List Target :=
  match device with
  | .olt =>
    if port = 1 then (List.range sim.onuFlows.length).map fun i => .ingress (.onu i) 1
    else if port = 2 then [.egress 0]
    else []
  | .onu i =>
    if port = 1 then [.ingress .olt 1]
    else if port = 2 then [.egress (128 + i)]
    else []

/-- `self.devices[port]`。 -/
def device (sim : PonSim) (port : Nat) : Option Device :=
  if port = 0 then some .olt
  else if 128 ≤ port ∧ port < 128 + sim.onuFlows.length then some (.onu (port - 128))
  else none

/-- `SimDevice.ingress(port, frame)`。`depth` は呼び出しの深さの上限。 -/
def deviceIngress (sim : PonSim) : Nat → Device → UInt32 → Frame → Run
  | 0, _, _, _ => ⟨[], .error .recursionError⟩
  | depth + 1, device, port, frame =>
    match processFrame (sim.flows device) port frame with
    | .error e => ⟨[], .error e⟩
    | .ok none => ⟨[], .ok frame⟩
    | .ok (some (none, frames)) => ⟨[], .ok frames.received⟩
    | .ok (some (some egressPort, frames)) =>
      let run := forward (sim.deviceIngress depth) (sim.links device egressPort) frames.current
      ⟨run.delivered, run.result.map frames.afterForward⟩

/-- `PonSim.ingress(port, frame)`。 -/
def ingress (sim : PonSim) (depth : Nat) (port : Nat) (frame : Frame) : Run :=
  match sim.device port with
  | none => ⟨[], .error (.flow .keyError)⟩
  | some device => sim.deviceIngress depth device 2 frame

/-- 下りの frame 一つで、`i` 番の ONU の UNI に届く frame。 -/
def delivered (sim : PonSim) (depth : Nat) (frame : Frame) (i : Nat) : List Frame :=
  ((sim.ingress depth 0 frame).delivered.filter fun e => decide (e.1 = 128 + i)).map Prod.snd

end PonSim

/-! ## 一つの ONU -/

section Onu

variable {table : List FlowStats} {frame sent : Frame}

/-- PON から来た frame を PON へ送り返さない。 -/
def NeverBack (table : List FlowStats) : Prop :=
  ∀ frame egressPort frames,
    processFrame (installFlows table) 1 frame = .ok (some (egressPort, frames)) →
    egressPort ≠ some 1

/-- ONU が UNI に出す frame。 -/
def uniFrames (table : List FlowStats) (frame : Frame) : List Frame :=
  match processFrame (installFlows table) 1 frame with
  | .ok (some (egressPort, frames)) => if egressPort = some 2 then [frames.current] else []
  | _ => []

/-- ONU が残す frame。 -/
def leaves (table : List FlowStats) (frame : Frame) : Except SimError Frame :=
  match processFrame (installFlows table) 1 frame with
  | .error e => .error e
  | .ok none => .ok frame
  | .ok (some (_, frames)) => .ok frames.received

theorem Frames.afterForward_current (frames : Frames) :
    frames.afterForward frames.current = frames.received := by
  cases hrebuilt : frames.rebuilt with
  | none => simp [Frames.afterForward, Frames.current, hrebuilt]
  | some copy => simp [Frames.afterForward, hrebuilt]

/-- PON の側から呼んだ ONU は、UNI に出すだけで戻る。 -/
theorem onu_ingress {sim : PonSim} {i depth : Nat} (htable : sim.onuFlows[i]? = some table)
    (hback : NeverBack table) : sim.deviceIngress (depth + 1) (.onu i) 1 frame
      = ⟨(uniFrames table frame).map fun f => (128 + i, f), leaves table frame⟩ := by
  have hflows : sim.flows (.onu i) = installFlows table := by
    simp [PonSim.flows, List.getD_eq_getElem?_getD, htable]
  unfold PonSim.deviceIngress uniFrames leaves
  rw [hflows]
  cases hproc : processFrame (installFlows table) 1 frame with
  | error e => rfl
  | ok outcome =>
    cases outcome with
    | none => rfl
    | some outcome =>
      obtain ⟨egressPort, frames⟩ := outcome
      cases egressPort with
      | none => simp
      | some egressPort =>
        have hport : egressPort ≠ 1 := fun h => hback _ _ _ hproc (congrArg some h)
        by_cases huni : egressPort = 2
        · subst huni
          simp [PonSim.links, forward, Run.andThen, Except.map, Frames.afterForward_current]
        · simp [PonSim.links, forward, Except.map, Frames.afterForward_current, hport, huni]

end Onu

/-! ## ONU の列 -/

section Onus

variable {sim : PonSim} {table : List FlowStats} {tables rest : List (List FlowStats)}
  {frame : Frame} {depth i k : Nat}

/-- `k` 番からの ONU に、同じ frame を順に渡す。 -/
def visit : Nat → List (List FlowStats) → Frame → Run
  | _, [], frame => ⟨[], .ok frame⟩
  | k, table :: rest, frame =>
    Run.andThen ⟨(uniFrames table frame).map fun f => (128 + k, f), leaves table frame⟩
      (visit (k + 1) rest)

theorem forward_onus (sim : PonSim) (depth : Nat) (hback : ∀ table ∈ sim.onuFlows, NeverBack table) :
    ∀ (rest : List (List FlowStats)) (k : Nat) (frame : Frame), sim.onuFlows.drop k = rest →
      forward (sim.deviceIngress (depth + 1))
        ((List.range' k rest.length).map fun i => .ingress (.onu i) 1) frame = visit k rest frame
  | [], _, _, _ => rfl
  | table :: rest, k, frame, hdrop => by
    have htable : sim.onuFlows[k]? = some table := by
      rw [← List.head?_drop, hdrop, List.head?_cons]
    have hrest : sim.onuFlows.drop (k + 1) = rest := by
      rw [← List.tail_drop, hdrop, List.tail_cons]
    have hnext : forward (sim.deviceIngress (depth + 1))
        ((List.range' (k + 1) rest.length).map fun i => .ingress (.onu i) 1)
          = visit (k + 1) rest :=
      funext fun f => forward_onus sim depth hback rest (k + 1) f hrest
    rw [List.length_cons, List.range'_succ, List.map_cons, forward,
      onu_ingress htable (hback table (List.mem_of_getElem? htable)), hnext]
    rfl

/-- `port` に届いた frame。 -/
def framesAt (port : Nat) (events : List (Nat × Frame)) : List Frame :=
  (events.filter fun e => decide (e.1 = port)).map Prod.snd

theorem framesAt_append (port : Nat) (a b : List (Nat × Frame)) :
    framesAt port (a ++ b) = framesAt port a ++ framesAt port b := by
  simp [framesAt]

theorem framesAt_self (port : Nat) (frames : List Frame) :
    framesAt port (frames.map fun f => (port, f)) = frames := by
  simp [framesAt, List.filter_map, Function.comp_def]

theorem framesAt_ne {port port' : Nat} (h : port' ≠ port) (frames : List Frame) :
    framesAt port (frames.map fun f => (port', f)) = [] := by
  simp [framesAt, List.filter_map, Function.comp_def, h]

theorem Run.framesAt_andThen (port : Nat) (run : Run) (next : Frame → Run) :
    framesAt port (run.andThen next).delivered = framesAt port run.delivered ++
      match run.result with
      | .error _ => []
      | .ok frame => framesAt port (next frame).delivered := by
  unfold Run.andThen
  cases run.result with
  | error e => simp
  | ok frame => exact framesAt_append port _ _

/-- 始まる前の番号には届かない。 -/
theorem framesAt_visit_of_lt : ∀ {tables : List (List FlowStats)} {k : Nat} {frame : Frame},
    i < k → framesAt (128 + i) (visit k tables frame).delivered = []
  | [], _, _, _ => rfl
  | table :: rest, k, frame, h => by
    rw [visit, Run.framesAt_andThen, framesAt_ne (by omega), List.nil_append]
    cases hleaves : leaves table frame with
    | error e => rfl
    | ok sent => exact framesAt_visit_of_lt (by omega)

/-- `i` 番の UNI に届くのは、前の ONU が順に残した frame を処理したものである。 -/
theorem framesAt_visit : ∀ (tables : List (List FlowStats)) (k i : Nat) (frame : Frame),
    tables[i]? = some table → framesAt (128 + (k + i)) (visit k tables frame).delivered =
      match (tables.take i).foldlM (fun f t => leaves t f) frame with
      | .error _ => []
      | .ok sent => uniFrames table sent
  | first :: rest, k, 0, frame, htable => by
    obtain rfl : first = table := Option.some.inj htable
    rw [visit, Run.framesAt_andThen, Nat.add_zero, framesAt_self]
    cases hleaves : leaves first frame with
    | error e => exact List.append_nil _
    | ok sent => simp [framesAt_visit_of_lt (Nat.lt_succ_self k), pure, Except.pure]
  | first :: rest, k, i + 1, frame, htable => by
    rw [visit, Run.framesAt_andThen, framesAt_ne (by omega), List.nil_append, List.take_succ_cons,
      List.foldlM_cons]
    cases hleaves : leaves first frame with
    | error e => rfl
    | ok sent =>
      have ih := framesAt_visit rest (k + 1) i sent htable
      rw [show k + 1 + i = k + (i + 1) by omega] at ih
      exact ih

end Onus

/-! ## 受け取った frame への書き込み -/

/-- 写しを作る前の `SET_FIELD` の field。`POP_VLAN` は、tag があるときだけ写しを作る。 -/
def inPlaceFields (tagged : Bool) : List Action → List OfbField
  | [] => []
  | action :: rest =>
    match action.type with
    | .pushVlan => []
    | .popVlan => if tagged then [] else inPlaceFields tagged rest
    | .setField => (setFieldOf action).ofbField :: inPlaceFields tagged rest
    | _ => inPlaceFields tagged rest

/-- `shim` に一つの field を書く。 -/
def setShim (shim : Dot1Q) (field : OfbField) : Dot1Q :=
  match field.type with
  | .vlanVid => { shim with vlan := intValue .vlanVid field &&& 4095 }
  | .vlanPcp => { shim with prio := intValue .vlanPcp field }
  | _ => shim

/-- その ONU で例外が起きず、行う action が写しを作る前に書く値は、frame の元の値である。 -/
def Undisturbed (table : List FlowStats) (frame : Frame) : Prop :=
  ∃ found, findMatch 1 frame (installFlows table) = .ok found ∧ ∀ flow, found = some flow →
    ∃ actions, getActions flow = some actions ∧
      (∃ state, actions.foldlM applyAction (none, ⟨frame, none⟩) = .ok state) ∧
      ∀ shim, frame.shim = some shim →
        (inPlaceFields frame.shim.isSome actions).foldl setShim shim = shim

section InPlace

variable {table : List FlowStats} {frame copy : Frame} {frames frames' : Frames}
  {action : Action} {state state' : Option UInt32 × Frames}

/-- `SET_FIELD` は、今の frame の `Dot1Q` に書く。 -/
theorem applySetField_eq (h : applySetField action frames = .ok frames') :
    frames' = frames.write fun shim => setShim shim (setFieldOf action).ofbField := by
  unfold applySetField at h
  by_cases hclass : (setFieldOf action).oxmClass = .openflowBasic
  · cases hwrite : shimWrite (setFieldOf action).ofbField with
    | error e => simp [hclass, hwrite, bind, Except.bind] at h
    | ok write =>
      have hset : write.2 = fun shim => setShim shim (setFieldOf action).ofbField := by
        unfold shimWrite at hwrite
        funext shim
        unfold setShim
        split at hwrite
        · obtain rfl := Except.ok.inj hwrite
          simp [*]
        · obtain rfl := Except.ok.inj hwrite
          simp [*]
        · exact absurd hwrite (by simp)
      by_cases hshim : frames.current.shim = none
      · simp [hclass, hwrite, hshim, bind, Except.bind, throw, throwThe, MonadExceptOf.throw] at h
      · rw [← hset]
        simpa [hclass, hwrite, hshim, bind, Except.bind, pure, Except.pure, eq_comm] using h
  · simp [hclass, bind, Except.bind, throw, throwThe, MonadExceptOf.throw] at h

/-- 一つの action の行うこと。 -/
theorem applyAction_cases (h : applyAction state action = .ok state') :
    (action.type = .output ∧ state' = (some action.outputPort, state.2)) ∨
    (action.type = .popVlan ∧ state' = (state.1, applyPopVlan state.2)) ∨
    (action.type = .pushVlan ∧ ∃ copy, state' = (state.1, state.2.rebuild copy)) ∨
    (action.type = .setField ∧ state' = (state.1,
      state.2.write fun shim => setShim shim (setFieldOf action).ofbField)) := by
  unfold applyAction at h
  cases htype : action.type <;> rw [htype] at h
  case output =>
    obtain rfl := Except.ok.inj h
    exact .inl ⟨rfl, rfl⟩
  case popVlan =>
    obtain rfl := Except.ok.inj h
    exact .inr (.inl ⟨rfl, rfl⟩)
  case pushVlan =>
    unfold applyPushVlan at h
    cases hcurrent : state.2.current.type with
    | none => simp [hcurrent, bind, Except.bind] at h
    | some type =>
      rw [hcurrent] at h
      obtain rfl := Except.ok.inj h
      exact .inr (.inr (.inl ⟨rfl, _, rfl⟩))
  case setField =>
    refine .inr (.inr (.inr ⟨rfl, ?_⟩))
    obtain ⟨frames', hset, rfl⟩ : ∃ frames', applySetField action state.2 = .ok frames' ∧
        (state.1, frames') = state' := by
      cases hset : applySetField action state.2 with
      | error e => simp [hset, bind, Except.bind] at h
      | ok frames' =>
        exact ⟨frames', rfl, by simpa [hset, bind, Except.bind, pure, Except.pure] using h⟩
    rw [applySetField_eq hset]
  all_goals exact absurd h (by simp)

theorem applyPopVlan_untagged (h : frame.shim = none) :
    applyPopVlan ⟨frame, none⟩ = ⟨frame, none⟩ := by
  simp [applyPopVlan, Frames.current, h]

theorem applyPopVlan_tagged {shim : Dot1Q} (h : frame.shim = some shim) :
    ∃ copy, applyPopVlan ⟨frame, none⟩ = ⟨frame, some copy⟩ := by
  simp [applyPopVlan, Frames.current, Frames.rebuild, h]

/-- 写しを作った後は、受け取った frame に触れない。 -/
theorem received_of_rebuilt {actions : List Action} {p p' : Option UInt32} {original copy : Frame}
    (h : actions.foldlM applyAction (p, ⟨original, some copy⟩) = .ok (p', frames')) :
    frames'.received = original := by
  induction actions generalizing p copy with
  | nil =>
    obtain ⟨-, rfl⟩ := Prod.mk.inj (Except.ok.inj h)
    rfl
  | cons action rest ih =>
    obtain ⟨⟨p₁, frames₁⟩, hstep, hrest⟩ := Py.bind_eq_ok.mp h
    obtain ⟨copy₁, rfl⟩ : ∃ copy₁, frames₁ = ⟨original, some copy₁⟩ := by
      rcases applyAction_cases hstep with ⟨-, h⟩ | ⟨-, h⟩ | ⟨-, _, h⟩ | ⟨-, h⟩
      · exact ⟨copy, (Prod.mk.inj h).2⟩
      · rw [applyPopVlan] at h
        split at h
        · exact ⟨copy, (Prod.mk.inj h).2⟩
        · exact ⟨_, (Prod.mk.inj h).2⟩
      · exact ⟨_, (Prod.mk.inj h).2⟩
      · exact ⟨_, (Prod.mk.inj h).2⟩
    exact ih hrest

/-- 受け取った frame には、写しを作る前の値だけが書かれる。 -/
theorem received_eq {actions : List Action} {p p' : Option UInt32} {original : Frame}
    (h : actions.foldlM applyAction (p, ⟨original, none⟩) = .ok (p', frames')) :
    frames'.received = original.writeShim fun shim =>
      (inPlaceFields original.shim.isSome actions).foldl setShim shim := by
  induction actions generalizing p original with
  | nil =>
    obtain ⟨-, rfl⟩ := Prod.mk.inj (Except.ok.inj h)
    exact (Frame.writeShim_eq_self_iff.mpr fun _ _ => rfl).symm
  | cons action rest ih =>
    obtain ⟨⟨p₁, frames₁⟩, hstep, hrest⟩ := Py.bind_eq_ok.mp h
    have hself : original = original.writeShim fun shim => [].foldl setShim shim :=
      (Frame.writeShim_eq_self_iff.mpr fun _ _ => rfl).symm
    rcases applyAction_cases hstep with ⟨htype, h⟩ | ⟨htype, h⟩ | ⟨htype, _, h⟩ | ⟨htype, h⟩
    · obtain ⟨-, rfl⟩ := Prod.mk.inj h
      rw [ih hrest, inPlaceFields, htype]
    · cases hshim : original.shim with
      | none =>
        obtain rfl : frames₁ = ⟨original, none⟩ :=
          (Prod.mk.inj h).2.trans (applyPopVlan_untagged hshim)
        rw [ih hrest, inPlaceFields, htype, hshim]
        rfl
      | some shim =>
        obtain ⟨copy, hcopy⟩ := applyPopVlan_tagged hshim
        obtain rfl : frames₁ = ⟨original, some copy⟩ := (Prod.mk.inj h).2.trans hcopy
        rw [received_of_rebuilt hrest, inPlaceFields, htype]
        exact hself
    · obtain ⟨copy, rfl⟩ : ∃ copy, frames₁ = ⟨original, some copy⟩ :=
        ⟨_, (Prod.mk.inj h).2⟩
      rw [received_of_rebuilt hrest, inPlaceFields, htype]
      exact hself
    · obtain ⟨-, rfl⟩ := Prod.mk.inj h
      rw [Frames.write] at hrest
      rw [ih hrest, Frame.writeShim_writeShim, Frame.shim_writeShim, Option.isSome_map,
        inPlaceFields, htype]
      rfl

/-- 出口は、最後の `OUTPUT` の port である。 -/
theorem egressPort_of_run {actions : List Action} {p p' : Option UInt32}
    (h : actions.foldlM applyAction (p, frames) = .ok (p', frames')) :
    p' = p ∨ ∃ action ∈ actions, action.type = .output ∧ p' = some action.outputPort := by
  induction actions generalizing p frames with
  | nil => exact .inl (Prod.mk.inj (Except.ok.inj h)).1.symm
  | cons action rest ih =>
    obtain ⟨⟨p₁, frames₁⟩, hstep, hrest⟩ := Py.bind_eq_ok.mp h
    rcases ih hrest with rfl | ⟨a, ha, htype, rfl⟩
    · rcases applyAction_cases hstep with ⟨htype, h⟩ | ⟨-, h⟩ | ⟨-, _, h⟩ | ⟨-, h⟩
      · exact .inr ⟨action, List.mem_cons_self, htype, (Prod.mk.inj h).1⟩
      · exact .inl (Prod.mk.inj h).1
      · exact .inl (Prod.mk.inj h).1
      · exact .inl (Prod.mk.inj h).1
    · exact .inr ⟨a, List.mem_cons_of_mem _ ha, htype, rfl⟩

theorem mem_of_findMatch {flow : FlowStats} {port : UInt32} :
    ∀ {flows : List FlowStats}, findMatch port frame flows = .ok (some flow) → flow ∈ flows
  | first :: rest, h => by
    obtain ⟨b, -, hrest⟩ := Py.bind_eq_ok.mp h
    cases b with
    | true =>
      obtain rfl := Option.some.inj (Except.ok.inj hrest)
      exact List.mem_cons_self
    | false => exact List.mem_cons_of_mem _ (mem_of_findMatch hrest)

/-- port 1 への `OUTPUT` の無い表は、PON へ送り返さない。 -/
theorem neverBack_of_output (h : ∀ flow ∈ table, ∀ actions, getActions flow = some actions →
    ∀ action ∈ actions, action.type = .output → action.outputPort ≠ 1) : NeverBack table := by
  intro frame egressPort frames hproc
  obtain ⟨found, hfind, hproc⟩ := Py.bind_eq_ok.mp hproc
  cases found with
  | none => exact absurd hproc (by simp [pure, Except.pure])
  | some flow =>
    obtain ⟨outcome, hrun, hsome⟩ := Py.bind_eq_ok.mp hproc
    obtain rfl := Option.some.inj (Except.ok.inj hsome)
    have hflow : flow ∈ table := mem_installFlows.mp (mem_of_findMatch hfind)
    unfold processActions eachAction at hrun
    cases hactions : getActions flow with
    | none => simp [hactions, bind, Except.bind] at hrun
    | some actions =>
      simp only [hactions, lift_ok] at hrun
      rcases egressPort_of_run hrun with rfl | ⟨action, haction, htype, rfl⟩
      · exact fun hnone => absurd hnone (by simp)
      · exact fun hport => h flow hflow actions hactions action haction htype
          (Option.some.inj hport)

/-- ONU が frame を元のまま残すのは、`Undisturbed` のときに限る。 -/
theorem leaves_eq_self_iff : leaves table frame = .ok frame ↔ Undisturbed table frame := by
  unfold leaves Undisturbed processFrame
  cases hfind : findMatch 1 frame (installFlows table) with
  | error e => simp [bind, Except.bind]
  | ok found =>
    cases found with
    | none => simp [bind, Except.bind, pure, Except.pure]
    | some flow =>
      unfold processActions eachAction
      cases hactions : getActions flow with
      | none => simp [bind, Except.bind, hactions]
      | some actions =>
        cases hrun : actions.foldlM applyAction (none, ⟨frame, none⟩) with
        | error e => simp [bind, Except.bind, hactions, hrun]
        | ok state =>
          obtain ⟨p, frames⟩ := state
          simp [bind, Except.bind, pure, Except.pure, hactions, hrun, received_eq hrun,
            Frame.writeShim_eq_self_iff]

end InPlace

/-! ## 独立 -/

section Independence

variable {olt table : List FlowStats} {tables onus : List (List FlowStats)} {frame sent : Frame}
  {depth i : Nat}

/-- OLT が PON へ送る frame。 -/
def onPon (olt : List FlowStats) (frame : Frame) : Option Frame :=
  match processFrame (installFlows olt) 2 frame with
  | .ok (some (some egressPort, frames)) => if egressPort = 1 then some frames.current else none
  | _ => none

/-- `i` 番の UNI に届くのは、OLT が送った frame を前の ONU が順に通したものである。 -/
theorem delivered_eq (hback : ∀ table ∈ tables, NeverBack table)
    (htable : tables[i]? = some table) :
    PonSim.delivered ⟨olt, tables⟩ (depth + 2) frame i =
      match onPon olt frame with
      | none => []
      | some sent =>
        match (tables.take i).foldlM (fun f t => leaves t f) sent with
        | .error _ => []
        | .ok sent => uniFrames table sent := by
  show framesAt (128 + i) (PonSim.deviceIngress ⟨olt, tables⟩ (depth + 2) .olt 2 frame).delivered
    = _
  have hflows : PonSim.flows ⟨olt, tables⟩ .olt = installFlows olt := rfl
  unfold PonSim.deviceIngress onPon
  rw [hflows]
  cases hproc : processFrame (installFlows olt) 2 frame with
  | error e => rfl
  | ok outcome =>
    cases outcome with
    | none => rfl
    | some outcome =>
      obtain ⟨egressPort, frames⟩ := outcome
      cases egressPort with
      | none => rfl
      | some egressPort =>
        by_cases hpon : egressPort = 1
        · subst hpon
          have hvisit := forward_onus (⟨olt, tables⟩ : PonSim) depth hback tables 0 frames.current rfl
          have hframes := framesAt_visit tables 0 i frames.current htable
          rw [Nat.zero_add] at hframes
          simp only [PonSim.links, if_true, List.range_eq_range']
          rw [hvisit, hframes]
        · by_cases hnni : egressPort = 2
          · subst hnni
            have hport : (0 : Nat) ≠ 128 + i := by omega
            simp [PonSim.links, forward, Run.andThen, framesAt, hport]
          · simp [PonSim.links, forward, framesAt, hpon, hnni]

/-- どの ONU も frame を元のまま残せば、最後まで元のままである。 -/
theorem foldlM_leaves (h : ∀ table ∈ tables, Undisturbed table sent) :
    tables.foldlM (fun f t => leaves t f) sent = .ok sent := by
  induction tables with
  | nil => rfl
  | cons table rest ih =>
    obtain ⟨htable, hrest⟩ := List.forall_mem_cons.mp h
    rw [List.foldlM_cons, leaves_eq_self_iff.mpr htable]
    exact ih hrest

/-- 下りの frame をそのまま UNI に出す flow。 -/
def passFlow : FlowStats := mkFlowStat (fun _ => 0) [] [output 2] 0 0

theorem processFrame_passFlow (frame : Frame) :
    processFrame (installFlows [passFlow]) 1 frame = .ok (some (some 2, ⟨frame, none⟩)) := by
  rw [installFlows_singleton]
  rfl

theorem passFlow_neverBack : NeverBack [passFlow] := by
  intro frame egressPort frames h
  rw [processFrame_passFlow] at h
  obtain ⟨rfl, -⟩ := Prod.mk.inj (Option.some.inj (Except.ok.inj h))
  decide

theorem uniFrames_passFlow (frame : Frame) : uniFrames [passFlow] frame = [frame] := by
  unfold uniFrames
  rw [processFrame_passFlow]
  rfl

/-- `onus` の ONU が並んでいても、どの ONU の UNI にも、その ONU だけのときと同じ frame が届く。 -/
def Independent (depth : Nat) (olt : List FlowStats) (onus : List (List FlowStats))
    (frame : Frame) : Prop :=
  ∀ table, NeverBack table → ∀ arranged : List (List FlowStats), arranged.Perm (table :: onus) →
    ∀ i, arranged[i]? = some table →
      PonSim.delivered ⟨olt, arranged⟩ depth frame i
        = PonSim.delivered ⟨olt, [table]⟩ depth frame 0

/-- **他の ONU が影響しないのは、OLT が PON へ送る frame を、どの ONU も元のままに残すときに
限る。** -/
theorem independent_iff (hback : ∀ table ∈ onus, NeverBack table) :
    Independent (depth + 2) olt onus frame ↔
      ∀ sent, onPon olt frame = some sent → ∀ table ∈ onus, Undisturbed table sent := by
  constructor
  · intro h sent hsent table htable
    -- 前に `table` の ONU があっても、`passFlow` の ONU には `sent` が届く
    have hperm : (table :: [passFlow] :: onus.erase table).Perm ([passFlow] :: onus) :=
      (List.Perm.swap _ _ _).trans ((List.perm_cons_erase htable).symm.cons _)
    have hall : ∀ t ∈ table :: [passFlow] :: onus.erase table, NeverBack t := by
      intro t ht
      rcases List.mem_cons.mp (hperm.mem_iff.mp ht) with rfl | ht
      · exact passFlow_neverBack
      · exact hback t ht
    have hone : ∀ t ∈ [[passFlow]], NeverBack t :=
      fun t ht => List.mem_singleton.mp ht ▸ passFlow_neverBack
    have heq := h [passFlow] passFlow_neverBack _ hperm 1 rfl
    rw [delivered_eq hall rfl, delivered_eq hone rfl, hsent] at heq
    apply leaves_eq_self_iff.mp
    cases hleaves : leaves table sent with
    | error e => simp [hleaves, bind, Except.bind, uniFrames_passFlow, pure, Except.pure] at heq
    | ok left =>
      simp [hleaves, bind, Except.bind, uniFrames_passFlow, pure, Except.pure] at heq
      rw [heq]
  · intro h table htable arranged hperm i hi
    have hall : ∀ t ∈ arranged, NeverBack t := by
      intro t ht
      rcases List.mem_cons.mp (hperm.mem_iff.mp ht) with rfl | ht
      · exact htable
      · exact hback t ht
    have hone : ∀ t ∈ [table], NeverBack t := fun t ht => List.mem_singleton.mp ht ▸ htable
    rw [delivered_eq hall hi, delivered_eq hone (i := 0) rfl]
    cases hsent : onPon olt frame with
    | none => rfl
    | some sent =>
      -- `i` より前の ONU は、どれも `onus` のものである
      have hothers : (arranged.take i ++ arranged.drop (i + 1)).Perm onus := by
        obtain ⟨hlt, hget⟩ := List.getElem?_eq_some_iff.mp hi
        have hsplit : arranged = arranged.take i ++ table :: arranged.drop (i + 1) := by
          rw [← hget, ← List.drop_eq_getElem_cons hlt, List.take_append_drop]
        exact (List.perm_middle.symm.trans (hsplit ▸ hperm)).cons_inv
      have hbefore : ∀ t ∈ arranged.take i, Undisturbed t sent :=
        fun t ht => h sent hsent t (hothers.mem_iff.mp (List.mem_append_left _ ht))
      show (match (arranged.take i).foldlM (fun f t => leaves t f) sent with
        | .error _ => []
        | .ok sent => uniFrames table sent) = uniFrames table sent
      rw [foldlM_leaves hbefore]

/-! ## 二つの ONU -/

/-- 外側の tag 1000 を外して PON へ送る、OLT の flow。 -/
def popFlow : FlowStats :=
  mkFlowStat (fun _ => 0) [inPort 2, vlanVid (4096 + 1000)] [popVlan, output 1] 500 0

/-- tag 128 の frame をそのまま UNI に出す、ONU の flow。 -/
def keepFlow : FlowStats :=
  mkFlowStat (fun _ => 0) [inPort 1, vlanVid (4096 + 128)] [output 2] 500 0

/-- tag 128 を 0 に書き換えて UNI に出す、ONU の flow。 -/
def translateFlow : FlowStats :=
  mkFlowStat (fun _ => 0) [inPort 1, vlanVid (4096 + 128)]
    [setField (vlanVid (4096 + 0)), output 2] 500 0

/-- tag `vlan` の frame。 -/
def taggedFrame (vlan : Nat) : Frame :=
  ⟨[0, 0, 0, 17, 17, 17], [0, 0, 0, 34, 34, 34], some 0x8100,
    [.dot1Q ⟨0, 0, vlan, 0x800⟩, .ip 17 "228.1.1.4" []]⟩

/-- 二重の tag を持つ下りの frame。 -/
def doubleTagged : Frame :=
  ⟨[0, 0, 0, 17, 17, 17], [0, 0, 0, 34, 34, 34], some 0x8100,
    [.dot1Q ⟨0, 0, 1000, 0x8100⟩, .dot1Q ⟨0, 0, 128, 0x800⟩, .ip 17 "228.1.1.4" []]⟩

theorem onPon_doubleTagged : onPon [popFlow] doubleTagged = some (taggedFrame 128) := by
  unfold onPon
  rw [installFlows_singleton]
  rfl

theorem keepFlow_neverBack : NeverBack [keepFlow] := by
  apply neverBack_of_output
  intro flow hflow actions hactions
  obtain rfl := List.mem_singleton.mp hflow
  obtain rfl : [output 2] = actions := Option.some.inj hactions
  decide

theorem translateFlow_neverBack : NeverBack [translateFlow] := by
  apply neverBack_of_output
  intro flow hflow actions hactions
  obtain rfl := List.mem_singleton.mp hflow
  obtain rfl : [setField (vlanVid (4096 + 0)), output 2] = actions := Option.some.inj hactions
  decide

theorem keepFlow_undisturbed : Undisturbed [keepFlow] (taggedFrame 128) := by
  apply leaves_eq_self_iff.mp
  unfold leaves
  rw [installFlows_singleton]
  rfl

theorem translateFlow_leaves :
    leaves [translateFlow] (taggedFrame 128) = .ok (taggedFrame 0) := by
  unfold leaves
  rw [installFlows_singleton]
  rfl

theorem independent_iff_keep : Independent 2 [popFlow] [[keepFlow]] doubleTagged := by
  refine (@independent_iff _ _ _ 0 fun table htable => ?_).mpr fun sent hsent table htable => ?_
  · obtain rfl := List.mem_singleton.mp htable
    exact keepFlow_neverBack
  · obtain rfl := List.mem_singleton.mp htable
    obtain rfl := Option.some.inj (onPon_doubleTagged.symm.trans hsent)
    exact keepFlow_undisturbed

/-- 前の ONU が tag を書き換えると、後の ONU の UNI には書き換えた frame が出る。 -/
theorem independent_fails : ¬ ∀ (depth : Nat) (olt : List FlowStats)
    (onus : List (List FlowStats)) (frame : Frame), (∀ table ∈ onus, NeverBack table) →
      Independent (depth + 2) olt onus frame := by
  intro h
  have hboth : ∀ table ∈ [[translateFlow], [passFlow]], NeverBack table := by
    intro table htable
    rcases List.mem_cons.mp htable with rfl | htable
    · exact translateFlow_neverBack
    · obtain rfl := List.mem_singleton.mp htable
      exact passFlow_neverBack
  have hone : ∀ table ∈ [[passFlow]], NeverBack table :=
    fun table htable => hboth table (List.mem_cons_of_mem _ htable)
  have hothers : ∀ table ∈ [[translateFlow]], NeverBack table :=
    fun table htable => hboth table (List.mem_singleton.mp htable ▸ List.mem_cons_self)
  have heq := h 0 [popFlow] [[translateFlow]] doubleTagged hothers [passFlow] passFlow_neverBack
    [[translateFlow], [passFlow]] (List.Perm.swap _ _ _) 1 rfl
  rw [delivered_eq hboth rfl, delivered_eq hone rfl, onPon_doubleTagged] at heq
  have htag : [taggedFrame 0] = [taggedFrame 128] := by
    simpa [translateFlow_leaves, bind, Except.bind, uniFrames_passFlow, pure, Except.pure] using heq
  exact absurd htag (by decide)

end Independence

end Voltha.Ponsim
