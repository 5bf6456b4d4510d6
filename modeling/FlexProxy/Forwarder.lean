import Mathlib.Logic.Relation
import FlexProxy.KcpStream

/-! # The forwarders

`ClientSideForwarder` and the server's `Forwarder` are one machine with two
roles.  Each is a set of coroutines on one thread, so a run is a sequence of
resumptions: every event below resumes one coroutine where it is suspended, with
the result of its operation, and runs it to its next suspension.

The **data path** (`DataPath`) is what the coroutines work on: the control block
with its scratch buffer, the message being written to the TCP socket, and, as
history, the chunks read from the TCP socket, the bytes written to it, the segments
numbered and the datagrams sent.  The coroutines themselves are the rest of the
`Forwarder`.

What is assumed of asio is in the guards of `step`: an operation started on an
open socket completes with any result it can have, also when the socket has been
closed meanwhile, but a write transfers bytes only while the socket is open; an
operation started on a closed socket fails, and not with try-again.
-/
namespace FlexProxy

/-! ## The data path -/

/-- What the coroutines of a forwarder work on, with its history. -/
structure DataPath (α D B : Type) where
  kcp : Ikcpcb α
  /-- The scratch buffer of the control block. -/
  buffer : B
  /-- The `n` bytes in `receiveBuffer` of the kcp to tcp coroutine. -/
  message : List α
  /-- What the TCP write in progress has still to transfer of them. -/
  pending : List α
  /-- The chunks read from the TCP socket. -/
  read : List (List α)
  /-- The bytes written to the TCP socket. -/
  written : List α
  /-- The segments numbered. -/
  sent : List (IkcpSeg α)
  /-- The datagrams sent. -/
  emitted : List D

namespace DataPath
variable {α D B : Type} (T : Transport α D B)

/-- "Receive from tcp, send to kcp": a chunk was received. -/
def tcpToKcp (p : DataPath α D B) (chunk : List α) : DataPath α D B :=
  { p with kcp := (ikcpSend p.kcp chunk).1, read := p.read ++ [chunk] }

/-- "feed data from network to kcp": a datagram was received. -/
def feed (p : DataPath α D B) (d : D) : DataPath α D B := { p with kcp := T.feed p.kcp d }

/-- `ikcp_update`.  The output callback ignores the result of `send`, which sends
nothing if the socket is closed. -/
def update (p : DataPath α D B) (current : UInt32) (isOpen : Bool) : DataPath α D B :=
  let r := T.update p.kcp p.buffer current
  { p with
    kcp := r.1.1
    buffer := r.1.2
    sent := p.sent ++ p.kcp.sndQueue.take (p.kcp.sndQueue.length - r.1.1.sndQueue.length)
    emitted := if isOpen then p.emitted ++ r.2 else p.emitted }

/-- `sizeof(receiveBuffer)` of the kcp to tcp coroutine. -/
def recvBufferSize : Int := 4 * 4096

theorem recvBufferSize_nonneg : 0 ≤ recvBufferSize := by decide

/-- `ikcp_recv`, with its return value; the message is what is written next. -/
def recv (p : DataPath α D B) : DataPath α D B × Int :=
  let r := ikcpRecv p.kcp recvBufferSize
  ({ p with kcp := r.1, message := r.2.2, pending := r.2.2 }, r.2.1)

/-- The message is written once more, from its start. -/
def rewrite (p : DataPath α D B) : DataPath α D B := { p with pending := p.message }

/-- The TCP write in progress transfers `n` bytes. -/
def transfer (p : DataPath α D B) (n : Nat) : DataPath α D B :=
  { p with written := p.written ++ p.pending.take n, pending := p.pending.drop n }

/-- What can happen to the data path.  Datagrams that arrive are among those that
`arrives` allows, and writes are retried only if `retries` does. -/
inductive Step (retries : Prop) (arrives : D → Prop) : DataPath α D B → DataPath α D B → Prop
  | tcpToKcp (p : DataPath α D B) (chunk : List α) (h : chunk.length ≤ 8192) :
      Step retries arrives p (p.tcpToKcp chunk)
  | feed (p : DataPath α D B) (d : D) (h : arrives d) : Step retries arrives p (p.feed T d)
  | update (p : DataPath α D B) (current : UInt32) (isOpen : Bool) :
      Step retries arrives p (p.update T current isOpen)
  | recv (p : DataPath α D B) (h : p.pending = []) : Step retries arrives p p.recv.1
  | transfer (p : DataPath α D B) (n : Nat) : Step retries arrives p (p.transfer n)
  | rewrite (p : DataPath α D B) (h : retries) : Step retries arrives p p.rewrite

/-- Any number of steps. -/
def Steps (retries : Prop) (arrives : D → Prop) : DataPath α D B → DataPath α D B → Prop :=
  Relation.ReflTransGen (Step T retries arrives)

end DataPath

/-! ## The coroutines -/

/-- Which of the two programs the forwarder belongs to. -/
inductive Role where
  | client
  | server
  deriving DecidableEq

/-- `sizeof(receiveBufferMemory)` of the tcp to kcp coroutine. -/
def Role.tcpBufferSize : Role → Nat
  | .client => 8192
  | .server => 4096

/-- Where a coroutine is that waits for one kind of operation. -/
inductive Worker where
  /-- not spawned -/
  | unborn
  /-- spawned, and not run yet -/
  | spawned
  /-- suspended; `live` says whether the operation was started on an open socket -/
  | waiting (live : Bool)
  | returned
  deriving DecidableEq

/-- Where the kcp to tcp coroutine is. -/
inductive Writer where
  | unborn
  | spawned
  /-- in `AsyncWrite`; `live` says whether it was started on an open socket -/
  | writing (live : Bool)
  /-- in `AsyncWait` of 2 ms before it tries to write again -/
  | retrying
  /-- in `AsyncWait` until the next tick -/
  | sleeping
  | returned
  deriving DecidableEq

/-- Where `Stop` is called from. -/
inductive StopCause where
  | tcpEof
  | tcpReadError
  | tcpWriteError
  | udpError
  | inactive
  deriving DecidableEq

/-- A forwarder whose `Start` has returned true. -/
structure Forwarder (α D B : Type) extends DataPath α D B where
  /-- `isRunning_`, `none` until it is assigned -/
  isRunning : Option Bool
  isKcpAlive : Bool
  /-- The start coroutine is suspended in `AsyncConnect`. -/
  starting : Bool
  /-- tcp to kcp coroutine -/
  reader : Worker
  /-- kcp to tcp coroutine -/
  writer : Writer
  /-- kcp feed coroutine -/
  feeder : Worker
  /-- active timer coroutine -/
  timer : Worker
  /-- How many coroutines hold `spThis`; the destructor runs when this becomes 0. -/
  refs : Nat
  /-- The local `now` of the kcp to tcp coroutine, in milliseconds. -/
  now : Nat
  /-- The first call of `Stop`: where it was called from, and what the control block
  had still to send.  From then on both sockets are closed. -/
  stopped : Option (StopCause × Outgoing α)

/-- What resumes a coroutine. -/
inductive Event (α D : Type) where
  /-- The start coroutine: `AsyncConnect` succeeded. -/
  | connected
  /-- The start coroutine: `AsyncConnect` failed. -/
  | connectFailed
  /-- `OnUdpData`, called by `UdpAcceptCoroutine`. -/
  | onUdpData (d : D)
  | readerRun
  | tcpData (chunk : List α)
  | tcpAgain
  | tcpEof
  | tcpReadError
  | writerRun (now : Nat)
  | tick (now : Nat)
  /-- The write in progress transfers `n` bytes; nothing is resumed. -/
  | transfer (n : Nat)
  | writeOk
  | writeAgain
  | writeError
  | retry
  | feederRun
  | udpData (d : D)
  | udpAgain
  | udpError
  | timerRun
  | expire

/-- The datagram an event feeds to the control block. -/
def Event.datagram {α D : Type} : Event α D → Option D
  | .onUdpData d => some d
  | .udpData d => some d
  | _ => none

namespace Forwarder
variable {α D B : Type} (T : Transport α D B) (role : Role)

def isOpen (f : Forwarder α D B) : Bool := f.stopped.isNone

/-- The current TCP write, or the one about to be retried: what it has still to
transfer. -/
def current (f : Forwarder α D B) : List α :=
  match f.writer with
  | .writing _ => f.pending
  | .retrying => f.pending
  | _ => []

/-- `Stop` -/
def stop (f : Forwarder α D B) (cause : StopCause) : Forwarder α D B :=
  { f with
    isRunning := some false
    stopped := f.stopped.or (some (cause, f.kcp.outgoing)) }

/-- A coroutine ends and its `spThis` goes. -/
def dropRef (f : Forwarder α D B) : Forwarder α D B := { f with refs := f.refs - 1 }

/-- `while (isRunning_)` of a coroutine that waits for one kind of operation: it
starts the next one or ends.  `put` records where it is. -/
def workerLoop (f : Forwarder α D B) (put : Worker → Forwarder α D B) (live : Bool) :
    Forwarder α D B :=
  if f.isRunning = some true then put (.waiting live) else (put .returned).dropRef

/-- The tcp to kcp coroutine at the head of its loop. -/
def readerLoop (f : Forwarder α D B) : Forwarder α D B :=
  f.workerLoop (fun w => { f with reader := w }) f.isOpen

/-- The kcp feed coroutine at the head of its loop. -/
def feederLoop (f : Forwarder α D B) : Forwarder α D B :=
  f.workerLoop (fun w => { f with feeder := w }) f.isOpen

/-- The active timer coroutine at the head of its loop. -/
def timerLoop (f : Forwarder α D B) : Forwarder α D B :=
  f.workerLoop (fun w => { f with timer := w }) true

/-- The loop that reads from kcp and forwards to tcp, up to the next write. -/
def drain (f : Forwarder α D B) : Forwarder α D B :=
  let r := f.toDataPath.recv
  if r.2 ≤ 0 then { f with toDataPath := r.1, writer := .sleeping }
  else { f with toDataPath := r.1, writer := .writing f.isOpen }

/-- `while (isRunning_)` of the kcp to tcp coroutine. -/
def writerLoop (f : Forwarder α D B) : Forwarder α D B :=
  if f.isRunning = some true then
    { f with toDataPath := f.toDataPath.update T (UInt32.ofNat f.now) f.isOpen }.drain
  else { f with writer := .returned }.dropRef

/-- The start coroutine after the connect: the four other coroutines are spawned. -/
def run (f : Forwarder α D B) : Forwarder α D B :=
  { f with
    isRunning := some true
    starting := false
    reader := .spawned
    writer := .spawned
    feeder := .spawned
    timer := .spawned
    refs := f.refs + 4 }

/-- The start coroutine cannot open or connect its TCP socket, and ends. -/
def abandon (f : Forwarder α D B) : Forwarder α D B := { f with starting := false }.dropRef

/-- `OnUdpData` -/
def onUdpData (f : Forwarder α D B) (d : D) : Forwarder α D B :=
  { f with toDataPath := f.toDataPath.feed T d, isKcpAlive := true }

/-- One event; `none` if it cannot happen. -/
def step (f : Forwarder α D B) : Event α D → Option (Forwarder α D B)
  | .connected => if f.starting then some f.run.dropRef else none
  | .connectFailed => if f.starting then some f.abandon else none
  | .onUdpData d =>
    if role = .server ∧ 0 < f.refs then some (f.onUdpData T d) else none
  | .readerRun => if f.reader = .spawned then some f.readerLoop else none
  | .tcpData chunk =>
    if f.reader = .waiting true ∧ 0 < chunk.length ∧ chunk.length ≤ role.tcpBufferSize then
      some { f with toDataPath := f.toDataPath.tcpToKcp chunk }.readerLoop
    else none
  | .tcpAgain => if f.reader = .waiting true then some f.readerLoop else none
  | .tcpEof =>
    if f.reader = .waiting true then some { f.stop .tcpEof with reader := .returned }.dropRef
    else none
  | .tcpReadError =>
    if ∃ live, f.reader = .waiting live then
      some { f.stop .tcpReadError with reader := .returned }.dropRef
    else none
  | .writerRun now =>
    if f.writer = .spawned then some ({ f with now := now }.writerLoop T) else none
  | .tick now =>
    if f.writer = .sleeping ∧ f.now ≤ now then some ({ f with now := now }.writerLoop T) else none
  | .transfer n =>
    if f.writer = .writing true ∧ f.isOpen ∧ n ≤ f.pending.length then
      some { f with toDataPath := f.toDataPath.transfer n }
    else none
  | .writeOk => if f.writer = .writing true ∧ f.pending.length = 0 then some f.drain else none
  | .writeAgain => if f.writer = .writing true then some { f with writer := .retrying } else none
  | .writeError =>
    if ∃ live, f.writer = .writing live then
      some { f.stop .tcpWriteError with writer := .returned }.dropRef
    else none
  | .retry =>
    if f.writer = .retrying then
      some { f with toDataPath := f.toDataPath.rewrite, writer := .writing f.isOpen }
    else none
  | .feederRun => if f.feeder = .spawned then some f.feederLoop else none
  | .udpData d =>
    if f.feeder = .waiting true then
      some { f with toDataPath := f.toDataPath.feed T d, isKcpAlive := true }.feederLoop
    else none
  | .udpAgain => if f.feeder = .waiting true then some f.feederLoop else none
  | .udpError =>
    if ∃ live, f.feeder = .waiting live then
      some { f.stop .udpError with feeder := .returned }.dropRef
    else none
  | .timerRun => if f.timer = .spawned then some f.timerLoop else none
  | .expire =>
    if ∃ live, f.timer = .waiting live then
      if f.isKcpAlive then some { f with isKcpAlive := false }.timerLoop
      else some { f.stop .inactive with timer := .returned }.dropRef
    else none

/-- A forwarder when its `Start` has returned: the client's coroutines are spawned,
the server's start coroutine connects.  `isKcpAlive_` has no initial value. -/
def started (buffer : B) (isKcpAlive : Bool) : Forwarder α D B where
  kcp := forwarderKcp
  buffer := buffer
  message := []
  pending := []
  read := []
  written := []
  sent := []
  emitted := []
  isRunning := if role = .client then some true else none
  isKcpAlive := isKcpAlive
  starting := decide (role = .server)
  reader := if role = .client then .spawned else .unborn
  writer := if role = .client then .spawned else .unborn
  feeder := if role = .client then .spawned else .unborn
  timer := .unborn
  refs := if role = .client then 3 else 1
  now := 0
  stopped := none

/-! ## What a step does to the data path -/

/-- `g` differs from `f` in nothing that the data path, the start coroutine or the
kcp to tcp coroutine sees. -/
structure SameWork (f g : Forwarder α D B) : Prop where
  dataPath : g.toDataPath = f.toDataPath
  writer : g.writer = f.writer
  starting : g.starting = f.starting

theorem sameWork_workerLoop {f : Forwarder α D B} {put : Worker → Forwarder α D B} (live : Bool)
    (hput : ∀ w, SameWork f (put w)) : SameWork f (f.workerLoop put live) := by
  unfold workerLoop
  split
  · exact hput _
  · have h := hput .returned
    exact ⟨h.dataPath, h.writer, h.starting⟩

theorem sameWork_readerLoop (f : Forwarder α D B) : SameWork f f.readerLoop :=
  sameWork_workerLoop _ (fun _ => ⟨rfl, rfl, rfl⟩)

theorem sameWork_feederLoop (f : Forwarder α D B) : SameWork f f.feederLoop :=
  sameWork_workerLoop _ (fun _ => ⟨rfl, rfl, rfl⟩)

theorem sameWork_timerLoop (f : Forwarder α D B) : SameWork f f.timerLoop :=
  sameWork_workerLoop _ (fun _ => ⟨rfl, rfl, rfl⟩)

@[simp] theorem toDataPath_drain (f : Forwarder α D B) :
    f.drain.toDataPath = f.toDataPath.recv.1 := by
  unfold drain
  dsimp only
  split <;> rfl

end Forwarder

/-- What an event does to the data path, if it resumes neither the start coroutine nor the
kcp to tcp coroutine and is no transfer of a write; else `none`. -/
def Event.work {α D B : Type} (T : Transport α D B) (p : DataPath α D B) :
    Event α D → Option (DataPath α D B)
  | .onUdpData d | .udpData d => some (p.feed T d)
  | .tcpData chunk => some (p.tcpToKcp chunk)
  | .readerRun | .tcpAgain | .tcpEof | .tcpReadError => some p
  | .feederRun | .udpAgain | .udpError | .timerRun | .expire => some p
  | .connected | .connectFailed => none
  | .writerRun _ | .tick _ | .transfer _ | .writeOk | .writeAgain | .writeError | .retry => none

namespace Forwarder
variable {α D B : Type} (T : Transport α D B) (role : Role)

section Work
variable {role} {f f' : Forwarder α D B} {e : Event α D} {p : DataPath α D B}

/-- **An event that leaves the kcp to tcp coroutine alone** works on the data path; then the
coroutine it resumes goes on or ends. -/
theorem sameWork_step (he : e.work T f.toDataPath = some p) (h : step T role f e = some f') :
    SameWork { f with toDataPath := p } f' := by
  cases e with
  | readerRun | tcpAgain =>
    obtain ⟨-, h⟩ := Option.ite_none_right_eq_some.mp h
    cases h
    cases he
    exact sameWork_readerLoop f
  | tcpData chunk =>
    obtain ⟨-, h⟩ := Option.ite_none_right_eq_some.mp h
    cases h
    cases he
    exact sameWork_readerLoop { f with toDataPath := f.toDataPath.tcpToKcp chunk }
  | feederRun | udpAgain =>
    obtain ⟨-, h⟩ := Option.ite_none_right_eq_some.mp h
    cases h
    cases he
    exact sameWork_feederLoop f
  | udpData d =>
    obtain ⟨-, h⟩ := Option.ite_none_right_eq_some.mp h
    cases h
    cases he
    have hsame := sameWork_feederLoop
      { f with toDataPath := f.toDataPath.feed T d, isKcpAlive := true }
    exact ⟨hsame.dataPath, hsame.writer, hsame.starting⟩
  | timerRun =>
    obtain ⟨-, h⟩ := Option.ite_none_right_eq_some.mp h
    cases h
    cases he
    exact sameWork_timerLoop f
  | expire =>
    obtain ⟨-, h⟩ := Option.ite_none_right_eq_some.mp h
    cases he
    split at h
    · cases h
      have hsame := sameWork_timerLoop { f with isKcpAlive := false }
      exact ⟨hsame.dataPath, hsame.writer, hsame.starting⟩
    · cases h
      exact ⟨rfl, rfl, rfl⟩
  | onUdpData d | tcpEof | tcpReadError | udpError =>
    obtain ⟨-, h⟩ := Option.ite_none_right_eq_some.mp h
    cases h
    cases he
    exact ⟨rfl, rfl, rfl⟩
  | connected | connectFailed | writerRun now | tick now | transfer n | writeOk | writeAgain |
      writeError | retry =>
    cases he

/-- That work is: nothing, a chunk for `ikcp_send`, or a datagram for `ikcp_input`. -/
theorem work_cases (he : e.work T f.toDataPath = some p) (h : step T role f e = some f') :
    p = f.toDataPath ∨
    (∃ chunk, 0 < chunk.length ∧ chunk.length ≤ role.tcpBufferSize ∧
      p = f.toDataPath.tcpToKcp chunk) ∨
    ∃ d, e.datagram = some d ∧ p = f.toDataPath.feed T d := by
  cases e with
  | tcpData chunk =>
    obtain ⟨⟨-, hpos, hlen⟩, -⟩ := Option.ite_none_right_eq_some.mp h
    cases he
    exact Or.inr (Or.inl ⟨chunk, hpos, hlen, rfl⟩)
  | onUdpData d | udpData d =>
    cases he
    exact Or.inr (Or.inr ⟨d, rfl, rfl⟩)
  | readerRun | tcpAgain | tcpEof | tcpReadError | feederRun | udpAgain | udpError | timerRun |
      expire =>
    cases he
    exact Or.inl rfl
  | connected | connectFailed | writerRun now | tick now | transfer n | writeOk | writeAgain |
      writeError | retry =>
    cases he

/-- It leaves the current TCP write alone, and what has been written and sent. -/
theorem work_frame (he : e.work T f.toDataPath = some p) (h : step T role f e = some f') :
    p.message = f.message ∧ p.pending = f.pending ∧ p.written = f.written ∧
      p.emitted = f.emitted := by
  rcases work_cases T he h with rfl | ⟨chunk, -, -, rfl⟩ | ⟨d, -, rfl⟩
  · exact ⟨rfl, rfl, rfl, rfl⟩
  · exact ⟨rfl, rfl, rfl, rfl⟩
  · exact ⟨rfl, rfl, rfl, rfl⟩

end Work

/-- Between two writes nothing is pending, and no write is to be retried unless
`retries` says so. -/
def WriterCalm (retries : Prop) (writer : Writer) (pending : List α) : Prop :=
  match writer with
  | .writing _ => True
  | .retrying => retries
  | .returned => True
  | _ => pending = []

/-- The writer is calm, and nothing is written before the start coroutine has
ended. -/
structure Calm (retries : Prop) (f : Forwarder α D B) : Prop where
  writer : WriterCalm retries f.writer f.pending
  starting : f.starting = true → f.pending = [] ∧ f.writer = .unborn

theorem calm_started (retries : Prop) (buffer : B) (alive : Bool) :
    Calm retries (started (α := α) (D := D) role buffer alive) := by
  cases role with
  | client => exact ⟨rfl, fun h => nomatch h⟩
  | server => exact ⟨rfl, fun _ => ⟨rfl, rfl⟩⟩

/-- When the start coroutine has ended only the writer matters. -/
theorem Calm.of_writer {retries : Prop} {f : Forwarder α D B} (hs : f.starting = false)
    (h : WriterCalm retries f.writer f.pending) : Calm retries f where
  writer := h
  starting := fun h' => nomatch hs.symm.trans h'

/-- A writer that has been spawned shows that the start coroutine has ended. -/
theorem Calm.started {retries : Prop} {f : Forwarder α D B} (h : Calm retries f) {w : Writer}
    (hw : f.writer = w) (hne : w ≠ .unborn) : f.starting = false := by
  by_contra hs
  exact hne (hw ▸ (h.starting (Bool.not_eq_false _ |>.mp hs)).2)

theorem pending_recv_of_nonpos (p : DataPath α D B) (h : p.recv.2 ≤ 0) : p.recv.1.pending = [] := by
  have hlen := length_ikcpRecv p.kcp DataPath.recvBufferSize_nonneg
  have hr : (ikcpRecv p.kcp DataPath.recvBufferSize).2.1 ≤ 0 := h
  rw [max_eq_left hr] at hlen
  exact List.length_eq_zero_iff.mp (Int.natCast_eq_zero.mp hlen)

theorem calm_drain {retries : Prop} {f : Forwarder α D B} (hs : f.starting = false) :
    Calm retries f.drain := by
  unfold drain
  dsimp only
  split
  · rename_i h
    exact Calm.of_writer hs (pending_recv_of_nonpos f.toDataPath h)
  · exact Calm.of_writer hs trivial

section Step
variable {role} {f f' : Forwarder α D B} {retries : Prop} {arrives : D → Prop}

/-- The kcp to tcp coroutine at the head of its loop: an update and a read, or the
end. -/
theorem writerLoop_spec (hp : f.pending = []) (hs : f.starting = false) :
    Calm retries (f.writerLoop T) ∧
      DataPath.Steps T retries arrives f.toDataPath (f.writerLoop T).toDataPath := by
  unfold writerLoop
  split
  · refine ⟨calm_drain hs, ?_⟩
    rw [toDataPath_drain]
    have hup : DataPath.Step T retries arrives f.toDataPath
        (f.toDataPath.update T (UInt32.ofNat f.now) f.isOpen) := DataPath.Step.update _ _ _
    exact (Relation.ReflTransGen.single hup).tail (DataPath.Step.recv _ hp)
  · exact ⟨Calm.of_writer hs trivial, Relation.ReflTransGen.refl⟩

/-- A coroutine that leaves the kcp to tcp coroutine alone: first it works on the
data path, then it goes on. -/
theorem calm_steps_of_sameWork {p : DataPath α D B} (hf : Calm retries f)
    (hd : DataPath.Steps T retries arrives f.toDataPath p) (hp : p.pending = f.pending)
    (h : SameWork { f with toDataPath := p } f') :
    Calm retries f' ∧ DataPath.Steps T retries arrives f.toDataPath f'.toDataPath := by
  have hpend : f'.pending = f.pending := (congrArg DataPath.pending h.dataPath).trans hp
  refine ⟨⟨?_, ?_⟩, ?_⟩
  · rw [h.writer, hpend]
    exact hf.writer
  · intro hs
    rw [h.writer, hpend]
    exact hf.starting (h.starting ▸ hs)
  · rw [h.dataPath]
    exact hd

theorem steps_work {e : Event α D} {p : DataPath α D B}
    (harr : ∀ d, e.datagram = some d → arrives d) (he : e.work T f.toDataPath = some p)
    (h : step T role f e = some f') : DataPath.Steps T retries arrives f.toDataPath p := by
  rcases work_cases T he h with rfl | ⟨chunk, -, hlen, rfl⟩ | ⟨d, hd, rfl⟩
  · exact Relation.ReflTransGen.refl
  · have hmax : chunk.length ≤ 8192 := by
      refine Nat.le_trans hlen ?_
      cases role <;> decide
    exact Relation.ReflTransGen.single (DataPath.Step.tcpToKcp _ chunk hmax)
  · exact Relation.ReflTransGen.single (DataPath.Step.feed _ d (harr d hd))

/-- **One event is a few steps of the data path.**  The only datagram that arrives
is the one the event brings, and a write is retried only if one has failed with
try-again. -/
theorem step_dataPath (hf : Calm retries f) {e : Event α D} (hagain : e = .writeAgain → retries)
    (harr : ∀ d, e.datagram = some d → arrives d) (h : step T role f e = some f') :
    Calm retries f' ∧ DataPath.Steps T retries arrives f.toDataPath f'.toDataPath := by
  have hrefl : DataPath.Steps T retries arrives f.toDataPath f.toDataPath :=
    Relation.ReflTransGen.refl
  cases hwork : e.work T f.toDataPath with
  | some p =>
    exact calm_steps_of_sameWork T hf (steps_work T harr hwork h) (work_frame T hwork h).2.1
      (sameWork_step T hwork h)
  | none =>
    cases e with
    | connected =>
      obtain ⟨hs, h⟩ := Option.ite_none_right_eq_some.mp h
      cases h
      exact ⟨Calm.of_writer rfl (hf.starting hs).1, hrefl⟩
    | connectFailed =>
      obtain ⟨hs, h⟩ := Option.ite_none_right_eq_some.mp h
      cases h
      exact ⟨Calm.of_writer rfl hf.writer, hrefl⟩
    | writerRun now =>
      obtain ⟨hw, h⟩ := Option.ite_none_right_eq_some.mp h
      cases h
      have hs := hf.started hw (fun h => nomatch h)
      have hp := hf.writer
      rw [hw] at hp
      exact writerLoop_spec (f := { f with now := now }) T hp hs
    | tick now =>
      obtain ⟨⟨hw, -⟩, h⟩ := Option.ite_none_right_eq_some.mp h
      cases h
      have hs := hf.started hw (fun h => nomatch h)
      have hp := hf.writer
      rw [hw] at hp
      exact writerLoop_spec (f := { f with now := now }) T hp hs
    | transfer n =>
      obtain ⟨⟨hw, -⟩, h⟩ := Option.ite_none_right_eq_some.mp h
      cases h
      have hs := hf.started hw (fun h => nomatch h)
      refine ⟨Calm.of_writer hs ?_, Relation.ReflTransGen.single (DataPath.Step.transfer _ n)⟩
      show WriterCalm retries f.writer _
      rw [hw]
      trivial
    | writeOk =>
      obtain ⟨⟨hw, hp⟩, h⟩ := Option.ite_none_right_eq_some.mp h
      cases h
      refine ⟨calm_drain (hf.started hw (fun h => nomatch h)), ?_⟩
      rw [toDataPath_drain]
      exact Relation.ReflTransGen.single (DataPath.Step.recv _ (List.length_eq_zero_iff.mp hp))
    | writeAgain =>
      obtain ⟨hw, h⟩ := Option.ite_none_right_eq_some.mp h
      cases h
      exact ⟨Calm.of_writer (hf.started hw (fun h => nomatch h)) (hagain rfl), hrefl⟩
    | writeError =>
      obtain ⟨⟨live, hw⟩, h⟩ := Option.ite_none_right_eq_some.mp h
      cases h
      exact ⟨Calm.of_writer (hf.started hw (fun h => nomatch h)) trivial, hrefl⟩
    | retry =>
      obtain ⟨hw, h⟩ := Option.ite_none_right_eq_some.mp h
      cases h
      have hretry := hf.writer
      rw [hw] at hretry
      exact ⟨Calm.of_writer (hf.started hw (fun h => nomatch h)) trivial,
        Relation.ReflTransGen.single (DataPath.Step.rewrite _ hretry)⟩
    | _ => cases hwork

end Step

end Forwarder
end FlexProxy
