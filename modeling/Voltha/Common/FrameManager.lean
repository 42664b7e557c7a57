import Mathlib.Logic.Function.Basic
import Voltha.Lib.OrderedDict

/-!
# 生の frame の送受信

`common/frameio/frameio.py` の `FrameIOManager`。二つの thread が同じ object を触る。

* **main thread** — `add_interface`、`del_interface`、`stop` を呼び、`callFromThread` で渡された frame の
  callback を呼ぶ
* **select thread** — `run()` の loop。socket の一覧を作り、`select` で待ち、届いた frame を読む

lock は無い。`ports_changed` の旗と、pipe に書く一 byte だけが、一覧の作り直しを頼む。
ここでは一文を一歩とし、二つの thread の一歩はどのような順にも混ざる。

`start()` の済んだ manager を扱う。`cvar` は他の誰も取らないので省く。
-/

namespace Voltha.Common.FrameIo

/-- `FrameIOPort` の object。作られた順の番号である。 -/
abbrev PortId := Nat

variable {Frame : Type}

/-- `FrameIOPort`。`filter` の例外は `none`。 -/
structure Port (Frame : Type) where
  ifaceName : String
  filter : Option (Frame → Option Bool)
  received : Nat
  discarded : Nat

/-- `self.filter is None or self.filter(frame)`。 -/
def Port.passes (port : Port Frame) (frame : Frame) : Option Bool :=
  match port.filter with
  | none => some true
  | some f => f frame

/-- socket から次に読まれるもの。 -/
inductive Arrival (Frame : Type) where
  | frame (frame : Frame)
  /-- `recvmsg` の失敗。`afpacket.recv` は `RuntimeError` を投げる。 -/
  | runtimeError
  /-- `afpacket.recv` のほかの例外。 -/
  | otherError

/-- `select.select` が返す一つ。 -/
inductive Ready where
  | waker
  | port (p : PortId)
deriving DecidableEq, Repr

/-- `run()` が次に行う文。`sockets` は、`self.waker` を除いた select の対象である。 -/
inductive Loop where
  /-- 外の `while not self.stopped`。 -/
  | outer
  /-- `sockets = [self.waker] + self.ports.values()`。 -/
  | snapshot
  /-- `self.ports_changed = False`。 -/
  | reset (sockets : List PortId)
  /-- 内の `while not self.stopped`。 -/
  | inner (sockets : List PortId)
  /-- `select.select(sockets, empty, empty, 1)`。 -/
  | select (sockets : List PortId)
  /-- `for port in _in`。 -/
  | serve (sockets : List PortId) (ready : List Ready)
  /-- `if self.ports_changed: break`。 -/
  | check (sockets : List PortId)
  | exited
  /-- 受けられない例外で thread が終わった。 -/
  | dead
deriving DecidableEq, Repr

/-- main thread の、途中の呼び出しが次に行う文。 -/
inductive Main where
  | idle
  /-- `add_interface` と `del_interface` の `self.ports_changed = True`。 -/
  | flag
  /-- その後の `self.waker.notify()`。 -/
  | notify
  /-- `stop` の `self.waker.notify()`。 -/
  | stopNotify
  /-- `self.join()` と `del self.ports`。 -/
  | join
  /-- 止まった。manager は、もう呼ばれない。 -/
  | finished
deriving DecidableEq, Repr

/--
`FrameIOManager` のうち、二つの thread の進み方を決めるもの。

`pipe` は waker の pipe に溜まった byte の数である。
-/
structure Control where
  ports : List (String × PortId)
  portsChanged : Bool
  stopped : Bool
  pipe : Nat
  main : Main
  thread : Loop

/-- `self.ports.values()`。 -/
def Control.values (c : Control) : List PortId := c.ports.map Prod.snd

/-- select thread は終わったか。 -/
def Control.ended (c : Control) : Bool := c.thread = .exited || c.thread = .dead

/--
二つの thread の間を流れる frame。

`inbox` は socket ごとの読まれていないもの、`calls` は `callFromThread` で渡されて待つ呼び出し、
`dispatched` は呼ばれた callback の記録である。
-/
structure Traffic (Frame : Type) where
  port : PortId → Port Frame
  next : PortId
  inbox : PortId → List (Arrival Frame)
  calls : List (PortId × Frame)
  dispatched : List (PortId × Frame)

namespace Traffic

variable (d : Traffic Frame)

/-- `_FrameIOPort(iface_name, callback, filter)`。 -/
def newPort (ifaceName : String) (filter : Option (Frame → Option Bool)) : Traffic Frame :=
  { d with port := Function.update d.port d.next ⟨ifaceName, filter, 0, 0⟩, next := d.next + 1 }

/-- 開いている socket に届く。 -/
def arrive (p : PortId) (a : Arrival Frame) : Traffic Frame :=
  if p < d.next then { d with inbox := Function.update d.inbox p (d.inbox p ++ [a]) } else d

/-- reactor が、待つ呼び出しを一つ行う。callback の例外は `_dispatch` が受ける。 -/
def callback : Traffic Frame :=
  match d.calls with
  | [] => d
  | c :: rest => { d with calls := rest, dispatched := d.dispatched ++ [c] }

/-- `recv()` の後半。読んだ frame を渡すか捨てる。偽は、例外が loop の外へ出ることである。 -/
def received (p : PortId) (frame : Frame) : Traffic Frame × Bool :=
  let port := { d.port p with received := (d.port p).received + 1 }
  let d := { d with port := Function.update d.port p port }
  match port.passes frame with
  | some true => ({ d with calls := d.calls ++ [(p, frame)] }, true)
  | some false =>
    let port := { port with discarded := port.discarded + 1 }
    ({ d with port := Function.update d.port p port }, true)
  | none => (d, false)

/-- `port.recv()`。読むものが無ければ `recvmsg` は失敗し、`RuntimeError` になる。 -/
def recv (p : PortId) : Traffic Frame × Bool :=
  match d.inbox p with
  | [] => (d, true)
  | a :: rest =>
    let d := { d with inbox := Function.update d.inbox p rest }
    match a with
    | .frame frame => d.received p frame
    | .runtimeError => (d, true)
    | .otherError => (d, false)

end Traffic

/-- `FrameIOManager` と二つの thread。 -/
structure Manager (Frame : Type) extends Control, Traffic Frame

namespace Manager

/-- 始まったばかりの manager。 -/
def initial : Manager Frame where
  ports := []
  portsChanged := false
  stopped := false
  pipe := 0
  main := .idle
  thread := .outer
  port := fun _ => ⟨"", none, 0, 0⟩
  next := 0
  inbox := fun _ => []
  calls := []
  dispatched := []

variable (room : Nat) (s : Manager Frame)

/-! ## main thread -/

/-- `add_interface(iface_name, callback, filter)` の、旗を立てる前まで。 -/
def addInterface (ifaceName : String) (filter : Option (Frame → Option Bool)) : Manager Frame :=
  if ifaceName ∈ s.ports.map Prod.fst then s
  else
    { s with
      toTraffic := s.newPort ifaceName filter
      ports := s.ports ++ [(ifaceName, s.next)]
      main := .flag }

/-- `del_interface(iface_name)` の、旗を立てる前まで。 -/
def delInterface (ifaceName : String) : Manager Frame :=
  if ifaceName ∈ s.ports.map Prod.fst then
    { s with ports := OrderedDict.del s.ports ifaceName, main := .flag }
  else s

/-- `stop()` の最初の文。 -/
def stop : Manager Frame := { s with stopped := true, main := .stopNotify }

/-- `self.waker.notify()`。pipe は `O_NONBLOCK` で、`room` byte まで書ける。 -/
def notify : Manager Frame := if s.pipe < room then { s with pipe := s.pipe + 1 } else s

/-- 途中の呼び出しの次の一文。`notify` の例外は呼び出しを終わらせる。 -/
def mainStep : Manager Frame :=
  match s.main with
  | .idle | .finished => s
  | .flag => { s with portsChanged := true, main := .notify }
  | .notify => { s.notify room with main := .idle }
  | .stopNotify => { s.notify room with main := if s.pipe < room then .join else .idle }
  | .join => if s.ended then { s with ports := [], main := .finished } else s

/-! ## select thread -/

/-- `select` が返すもの。読めるものが無ければ、一秒の後に空の列を返す。 -/
def ready (sockets : List PortId) : List Ready :=
  (if 0 < s.pipe then [.waker] else []) ++
    (sockets.filter fun p => !(s.inbox p).isEmpty).map .port

/-- `run()` の次の一文。 -/
def threadStep : Manager Frame :=
  match s.thread with
  | .outer => { s with thread := if s.stopped then .exited else .snapshot }
  | .snapshot => { s with thread := .reset s.values }
  | .reset sockets => { s with portsChanged := false, thread := .inner sockets }
  | .inner sockets => { s with thread := if s.stopped then .outer else .select sockets }
  | .select sockets => { s with thread := .serve sockets (s.ready sockets) }
  | .serve sockets [] => { s with thread := .check sockets }
  | .serve sockets (.waker :: ready) =>
    { s with pipe := s.pipe - 1, thread := .serve sockets ready }
  | .serve sockets (.port p :: ready) =>
    { s with
      toTraffic := (s.recv p).1
      thread := if (s.recv p).2 then .serve sockets ready else .dead }
  | .check sockets => { s with thread := if s.portsChanged then .outer else .inner sockets }
  | .exited | .dead => s

/-- `select` の例外。内の loop を抜ける。 -/
def selectError : Manager Frame :=
  match s.thread with
  | .select _ => { s with thread := .outer }
  | _ => s

end Manager

/-! ## 混ざった列 -/

/-- 一歩。 -/
inductive Event (Frame : Type) where
  | addInterface (ifaceName : String) (filter : Option (Frame → Option Bool))
  | delInterface (ifaceName : String)
  | stop
  /-- 途中の呼び出しの次の一文。 -/
  | main
  /-- reactor が待つ呼び出しを一つ行う。 -/
  | callback
  /-- select thread の次の一文。 -/
  | thread
  | selectError
  | arrive (p : PortId) (a : Arrival Frame)

/-- 一歩。main thread は、途中の呼び出しを終えるまで、ほかの呼び出しも callback も始めない。 -/
def Manager.step (room : Nat) (s : Manager Frame) : Event Frame → Manager Frame
  | .addInterface ifaceName filter =>
    if s.main = .idle then s.addInterface ifaceName filter else s
  | .delInterface ifaceName => if s.main = .idle then s.delInterface ifaceName else s
  | .stop => if s.main = .idle then s.stop else s
  | .main => s.mainStep room
  | .callback =>
    if s.main = .idle ∨ s.main = .finished then { s with toTraffic := s.toTraffic.callback } else s
  | .thread => s.threadStep
  | .selectError => s.selectError
  | .arrive p a => { s with toTraffic := s.toTraffic.arrive p a }

end Voltha.Common.FrameIo
