import FlexProxy.KcpProgress
import FlexProxy.Pump

/-! # Quiet runs of a forwarder

An event is quiet if it neither brings bytes from a TCP socket nor an error (`Event.Quiet`).
While its sockets are open a forwarder can always go on with quiet events until all its
coroutines wait: no operation waits that was started on a closed socket
(`attentive_step`), a drain loop comes to its end (`empties_drain`), and so every
coroutine comes to rest (`settle`).
-/
namespace FlexProxy
open TransitionSystem
variable {α D B : Type}

/-- An event that neither brings bytes from a TCP socket nor an error: a coroutine goes on,
or a datagram arrives. -/
def Event.Quiet : Event α D → Prop
  | .connected | .readerRun | .writerRun _ | .tick _ | .transfer _ | .writeOk | .retry => True
  | .feederRun | .udpData _ => True
  | _ => False

namespace Forwarder
variable {T : Transport α D B} {Carries : D → List (WireSeg α) → Prop} {role : Role}
  {f f' : Forwarder α D B}

/-! ## Waiting on open sockets -/

/-- No operation waits that was started on a closed socket. -/
structure Heeds (f : Forwarder α D B) : Prop where
  reader : f.reader ≠ .waiting false
  feeder : f.feeder ≠ .waiting false
  writer : f.writer ≠ .writing false

/-- So it is while the sockets are open. -/
def Attentive (f : Forwarder α D B) : Prop := f.stopped = none → f.Heeds

theorem attentive_started (buffer : B) (alive : Bool) :
    (started (α := α) (D := D) role buffer alive).Attentive := by
  intro _
  cases role with
  | client => exact ⟨(fun h => nomatch h), (fun h => nomatch h), fun h => nomatch h⟩
  | server => exact ⟨(fun h => nomatch h), (fun h => nomatch h), fun h => nomatch h⟩

theorem heeds_workerLoop {put : Worker → Forwarder α D B} {live : Bool} (hlive : live = true)
    (hput : ∀ w, w ≠ .waiting false → (put w).Heeds) : (f.workerLoop put live).Heeds := by
  unfold workerLoop
  split
  · rw [hlive]
    exact hput _ (fun h => nomatch h)
  · obtain ⟨hr, hfd, hw⟩ := hput .returned (fun h => nomatch h)
    exact ⟨hr, hfd, hw⟩

theorem heeds_drain (hopen : f.isOpen = true) (hr : f.reader ≠ .waiting false)
    (hfd : f.feeder ≠ .waiting false) : f.drain.Heeds := by
  unfold drain
  dsimp only
  split
  · exact ⟨hr, hfd, fun h => nomatch h⟩
  · rw [hopen]
    exact ⟨hr, hfd, fun h => nomatch h⟩

theorem heeds_writerLoop (hopen : f.isOpen = true) (hr : f.reader ≠ .waiting false)
    (hfd : f.feeder ≠ .waiting false) : (f.writerLoop T).Heeds := by
  unfold writerLoop
  split
  · exact heeds_drain hopen hr hfd
  · exact ⟨hr, hfd, fun h => nomatch h⟩

/-- What has not been stopped had not been stopped before. -/
theorem stopped_eq_none {e : Event α D} (h : step T role f e = some f')
    (hnone : f'.stopped = none) : f.stopped = none := by
  cases hs : f.stopped with
  | none => rfl
  | some x =>
    rw [stopped_step hs h] at hnone
    cases hnone

/-- **No event makes a coroutine wait in vain.** -/
theorem attentive_step {e : Event α D} (hf : f.Attentive) (h : step T role f e = some f') :
    f'.Attentive := by
  intro hnone
  have hbefore := stopped_eq_none h hnone
  obtain ⟨hr, hfd, hw⟩ := hf hbefore
  have hopen : f.isOpen = true := by
    rw [isOpen, hbefore]
    rfl
  have hstop : ∀ (g : Forwarder α D B) cause, (g.stop cause).stopped ≠ none := by
    intro g cause
    show g.stopped.or _ ≠ none
    cases g.stopped <;> (intro h; cases h)
  cases e with
  | connected =>
    obtain ⟨-, h⟩ := Option.ite_none_right_eq_some.mp h
    cases h
    constructor <;> (intro h; cases h)
  | connectFailed | transfer n | onUdpData d =>
    obtain ⟨-, h⟩ := Option.ite_none_right_eq_some.mp h
    cases h
    exact ⟨hr, hfd, hw⟩
  | readerRun | tcpAgain | tcpData chunk =>
    obtain ⟨-, h⟩ := Option.ite_none_right_eq_some.mp h
    cases h
    exact heeds_workerLoop hopen (fun w hwait => ⟨hwait, hfd, hw⟩)
  | feederRun | udpAgain | udpData d =>
    obtain ⟨-, h⟩ := Option.ite_none_right_eq_some.mp h
    cases h
    exact heeds_workerLoop hopen (fun w hwait => ⟨hr, hwait, hw⟩)
  | timerRun =>
    obtain ⟨-, h⟩ := Option.ite_none_right_eq_some.mp h
    cases h
    exact heeds_workerLoop rfl (fun w _ => ⟨hr, hfd, hw⟩)
  | writerRun now | tick now =>
    obtain ⟨-, h⟩ := Option.ite_none_right_eq_some.mp h
    cases h
    exact heeds_writerLoop (f := { f with now := now }) hopen hr hfd
  | writeOk =>
    obtain ⟨-, h⟩ := Option.ite_none_right_eq_some.mp h
    cases h
    exact heeds_drain hopen hr hfd
  | writeAgain =>
    obtain ⟨-, h⟩ := Option.ite_none_right_eq_some.mp h
    cases h
    refine ⟨hr, hfd, ?_⟩
    intro h
    cases h
  | retry =>
    obtain ⟨-, h⟩ := Option.ite_none_right_eq_some.mp h
    cases h
    refine ⟨hr, hfd, ?_⟩
    show Writer.writing f.isOpen ≠ _
    rw [hopen]
    intro h
    cases h
  | tcpEof | tcpReadError | writeError | udpError =>
    obtain ⟨-, h⟩ := Option.ite_none_right_eq_some.mp h
    cases h
    exact absurd hnone (hstop f _)
  | expire =>
    obtain ⟨-, h⟩ := Option.ite_none_right_eq_some.mp h
    split at h
    · cases h
      exact heeds_workerLoop rfl (fun w _ => ⟨hr, hfd, hw⟩)
    · cases h
      exact absurd hnone (hstop f _)

/-- Workers that have been spawned stay so. -/
theorem spawned_step {e : Event α D} (hsp : f.Spawned) (h : step T role f e = some f') :
    f'.Spawned := by
  have hreturned : ∀ c, f'.status = Function.update f.status c .returned → f'.Spawned := by
    intro c hstatus
    rw [Spawned, hstatus, Function.update_apply]
    split
    · intro h
      cases h
    · exact hsp
  cases moves_of_step h with
  | stays status | fails event before status =>
    rw [Spawned, status]
    exact hsp
  | ends c alive loop status => exact hreturned c status
  | stops c cause alive eof status => exact hreturned c status
  | connects before status =>
    rw [Spawned, status]
    intro h
    cases h

/-! ## Finishing a write -/

/-- From `kcp` to `kcp'` messages have been taken, and nothing else was done. -/
def RecvOnly (kcp kcp' : Ikcpcb α) : Prop :=
  ∃ buf nbuf queue nque nxt probe, kcp' =
    { kcp with
      rcvBuf := buf, nrcvBuf := nbuf, rcvQueue := queue, nrcvQue := nque, rcvNxt := nxt
      probe := probe }

theorem RecvOnly.refl (kcp : Ikcpcb α) : RecvOnly kcp kcp :=
  ⟨kcp.rcvBuf, kcp.nrcvBuf, kcp.rcvQueue, kcp.nrcvQue, kcp.rcvNxt, kcp.probe, rfl⟩

theorem RecvOnly.trans {kcp kcp' kcp'' : Ikcpcb α} (h : RecvOnly kcp kcp') (h' : RecvOnly kcp' kcp'') :
    RecvOnly kcp kcp'' := by
  obtain ⟨_, _, _, _, _, _, rfl⟩ := h
  obtain ⟨buf, nbuf, queue, nque, nxt, probe, rfl⟩ := h'
  exact ⟨buf, nbuf, queue, nque, nxt, probe, rfl⟩

theorem recvOnly_recv (p : DataPath α D B) : RecvOnly p.kcp p.recv.1.kcp :=
  ikcpRecv_writes p.kcp DataPath.recvBufferSize_nonneg

/-- How many segments wait to be taken. -/
def waiting (kcp : Ikcpcb α) : Nat := kcp.rcvQueue.length + kcp.rcvBuf.length

theorem waiting_moveAvailable (l : List (IkcpSeg α)) (kcp : Ikcpcb α) (hl : kcp.rcvBuf = l) :
    waiting (moveAvailable l kcp) = waiting kcp := by
  induction l generalizing kcp with
  | nil => rfl
  | cons seg rest ih =>
    unfold moveAvailable
    split
    · rw [ih _ rfl]
      show (kcp.rcvQueue ++ [seg]).length + rest.length = kcp.rcvQueue.length + kcp.rcvBuf.length
      rw [hl, List.length_append, List.length_singleton, List.length_cons]
      omega
    · rfl

/-- A message that is taken consists of at least one segment. -/
theorem waiting_recv (p : DataPath α D B) (h : 0 < p.recv.2) : waiting p.recv.1.kcp < waiting p.kcp := by
  have hkcp : p.recv.1.kcp = (ikcpRecv p.kcp DataPath.recvBufferSize).1 := rfl
  have hval : p.recv.2 = (ikcpRecv p.kcp DataPath.recvBufferSize).2.1 := rfl
  rcases ikcpRecv_cases p.kcp DataPath.recvBufferSize_nonneg with ⟨n, hn, he⟩ | he
  · rw [hval, he] at h
    have hn' : 0 < n := h
    omega
  · have hqueue : p.kcp.rcvQueue ≠ [] := by
      intro hnil
      rw [hval, he, hnil] at h
      exact absurd h (Int.lt_irrefl 0)
    have hdrop : waiting (dropMessage p.kcp) < waiting p.kcp := by
      obtain ⟨seg, rest, hcons⟩ := List.exists_cons_of_ne_nil hqueue
      have hsplit := congrArg List.length (takeMessage_append p.kcp.rcvQueue)
      have hpos : 0 < (takeMessage p.kcp.rcvQueue).1.length := by
        rw [hcons]
        unfold takeMessage
        split
        · exact Nat.one_pos
        · exact Nat.succ_pos _
      rw [List.length_append] at hsplit
      show (takeMessage p.kcp.rcvQueue).2.length + p.kcp.rcvBuf.length < _
      show _ < p.kcp.rcvQueue.length + p.kcp.rcvBuf.length
      omega
    obtain ⟨probe, hfast⟩ := fastRecover_writes (decide (p.kcp.nrcvQue ≥ p.kcp.rcvWnd))
      (moveAvailable (dropMessage p.kcp).rcvBuf (dropMessage p.kcp))
    rw [hkcp, he, hfast]
    exact (waiting_moveAvailable _ _ rfl).trans_lt hdrop

/-- Both sockets are open, and the tcp to kcp and the kcp feed coroutine wait. -/
structure Waits (f : Forwarder α D B) : Prop where
  isRunning : f.isRunning = some true
  stopped : f.stopped = none
  reader : f.reader = .waiting true
  feeder : f.feeder = .waiting true

theorem Waits.isOpen (h : f.Waits) : f.isOpen = true := by
  rw [Forwarder.isOpen, h.stopped]
  rfl

theorem Ready.waits (h : f.Ready) : f.Waits := ⟨h.isRunning, h.stopped, h.reader, h.feeder⟩

/-- From `p`, an end whose kcp to tcp coroutine is at its drain loop, to `f'`: messages have
been taken and written, until none was left. -/
structure Empties (T : Transport α D B) (p : DataPath α D B) (f' : Forwarder α D B) : Prop where
  ready : f'.Ready
  emitted : f'.emitted = p.emitted
  kcp : RecvOnly p.kcp f'.kcp
  last : ∃ q, DataPath.Steps T True (fun _ => False) p q ∧ q.pending = [] ∧ q.recv.2 ≤ 0 ∧
    f'.toDataPath = q.recv.1

/-- Events that quiet coroutines go on with, without a datagram. -/
def Silent (es : List (Event α D)) : Prop := ∀ e ∈ es, e.Quiet ∧ e.datagram = none

theorem silent_nil : Silent ([] : List (Event α D)) := fun _ he => absurd he List.not_mem_nil

theorem Silent.cons {e : Event α D} {es : List (Event α D)} (hq : e.Quiet) (hd : e.datagram = none)
    (h : Silent es) : Silent (e :: es) := by
  intro e' he
  rcases List.mem_cons.mp he with rfl | he
  · exact ⟨hq, hd⟩
  · exact h e' he

theorem Silent.append {es es' : List (Event α D)} (h : Silent es) (h' : Silent es') :
    Silent (es ++ es') := by
  intro e he
  rcases List.mem_append.mp he with he | he
  · exact h e he
  · exact h' e he

/-- A write that goes on is done. -/
theorem exec_write (h : f.Waits) (hw : f.writer = .writing true) :
    exec (step T role) f [.transfer f.pending.length, .writeOk] =
      some { f with toDataPath := f.toDataPath.transfer f.pending.length }.drain := by
  let written : Forwarder α D B := { f with toDataPath := f.toDataPath.transfer f.pending.length }
  have htransfer : step T role f (.transfer f.pending.length) = some written :=
    if_pos ⟨hw, h.isOpen, Nat.le_refl _⟩
  have hempty : written.pending.length = 0 := by
    show (f.pending.drop _).length = 0
    rw [List.drop_length]
    rfl
  have hok : step T role written .writeOk = some written.drain := if_pos ⟨hw, hempty⟩
  rw [exec_cons, htransfer, Option.bind_some, exec_singleton, hok]

/-- **A drain loop comes to its end**, since every message that is taken leaves fewer
segments. -/
theorem empties_drain (role : Role) (n : Nat) (f : Forwarder α D B) (hn : waiting f.kcp < n)
    (h : f.Waits) (hp : f.pending = []) :
    ∃ es f', exec (step T role) f.drain es = some f' ∧ Silent es ∧ f'.read = f.read ∧
      Empties T f.toDataPath f' := by
  induction n generalizing f with
  | zero => exact absurd hn (Nat.not_lt_zero _)
  | succ n ih =>
    by_cases hquiet : f.toDataPath.recv.2 ≤ 0
    · have hdrain : f.drain = { f with toDataPath := f.toDataPath.recv.1, writer := .sleeping } := by
        unfold drain
        dsimp only
        rw [if_pos hquiet]
      rw [hdrain]
      exact ⟨[], _, rfl, (fun _ he => absurd he List.not_mem_nil), rfl,
        ⟨h.isRunning, h.stopped, h.reader, rfl, h.feeder⟩, rfl, recvOnly_recv _,
        f.toDataPath, Relation.ReflTransGen.refl, hp, hquiet, rfl⟩
    · -- a message is written, and the loop goes on
      have hlt := waiting_recv f.toDataPath (by omega)
      let writing : Forwarder α D B :=
        { f with toDataPath := f.toDataPath.recv.1, writer := .writing true }
      have hdrain : f.drain = writing := by
        unfold drain
        dsimp only
        rw [if_neg hquiet, h.isOpen]
      let written : Forwarder α D B :=
        { writing with toDataPath := writing.toDataPath.transfer writing.pending.length }
      have hempty : written.pending = [] := by
        show writing.pending.drop _ = []
        exact List.drop_length
      have hwaits : writing.Waits := ⟨h.isRunning, h.stopped, h.reader, h.feeder⟩
      have hwrite : exec (step T role) writing [.transfer writing.pending.length, .writeOk] =
          some written.drain := exec_write hwaits rfl
      have hsmall : waiting written.kcp < n := by
        have hsame : waiting written.kcp = waiting f.toDataPath.recv.1.kcp := rfl
        omega
      obtain ⟨es, f', hes, hsilent, hread, hdone⟩ :=
        ih written hsmall ⟨h.isRunning, h.stopped, h.reader, h.feeder⟩ hempty
      obtain ⟨q, hsteps, hq⟩ := hdone.last
      have hfirst : DataPath.Steps T True (fun _ => False) f.toDataPath written.toDataPath :=
        (Relation.ReflTransGen.single (DataPath.Step.recv f.toDataPath hp)).tail
          (DataPath.Step.transfer _ _)
      refine ⟨.transfer writing.pending.length :: .writeOk :: es, f', ?_,
        Silent.cons trivial rfl (Silent.cons trivial rfl hsilent), hread, hdone.ready, hdone.emitted,
        (recvOnly_recv f.toDataPath).trans hdone.kcp, q, hfirst.trans hsteps, hq⟩
      have hall := exec_append_eq_some.mpr ⟨_, hwrite, hes⟩
      rw [hdrain]
      exact hall

/-! ## A tick -/

/-- The first time from now on whose word is `current`. -/
def timeOf (f : Forwarder α D B) (current : UInt32) : Nat :=
  f.now + (current - UInt32.ofNat f.now).toNat

theorem ofNat_timeOf (f : Forwarder α D B) (current : UInt32) :
    UInt32.ofNat (f.timeOf current) = current := by
  rw [timeOf, UInt32.ofNat_add, UInt32.ofNat_toNat]
  grind

/-- **A tick, and the writes that follow.** -/
theorem Ready.tick (T : Transport α D B) (role : Role) (h : f.Ready) (hp : f.pending = [])
    (current : UInt32) :
    ∃ es f', exec (step T role) f es = some f' ∧ Silent es ∧ f'.read = f.read ∧
      Empties T (f.toDataPath.update T current true) f' := by
  let ticked : Forwarder α D B :=
    { f with now := f.timeOf current, toDataPath := f.toDataPath.update T current true }
  have hloop : { f with now := f.timeOf current }.writerLoop T = ticked.drain := by
    have hopen : f.isOpen = true := h.waits.isOpen
    unfold writerLoop
    rw [if_pos h.isRunning]
    show ({ f with
      now := f.timeOf current
      toDataPath := f.toDataPath.update T (UInt32.ofNat (f.timeOf current)) f.isOpen } :
        Forwarder α D B).drain = _
    rw [ofNat_timeOf, hopen]
  have htick : step T role f (.tick (f.timeOf current)) = some ticked.drain := by
    have hstep : step T role f (.tick (f.timeOf current)) =
        some ({ f with now := f.timeOf current }.writerLoop T) :=
      if_pos ⟨h.writer, Nat.le_add_right _ _⟩
    rw [hstep, hloop]
  obtain ⟨es, f', hes, hsilent, hread, hdone⟩ :=
    empties_drain (T := T) role (waiting ticked.kcp + 1) ticked (Nat.lt_succ_self _)
      ⟨h.isRunning, h.stopped, h.reader, h.feeder⟩ hp
  refine ⟨.tick (f.timeOf current) :: es, f', ?_, Silent.cons trivial rfl hsilent, hread, hdone⟩
  rw [exec_cons, htick, Option.bind_some]
  exact hes

/-! ## Coming to rest -/

/-- A worker that is alive and heeded is at the head of its loop, or waits on an open socket. -/
theorem Worker.of_alive {w : Worker} (h : w.status = .alive) (hheed : w ≠ .waiting false) :
    w = .spawned ∨ w = .waiting true := by
  cases w with
  | unborn => cases h
  | spawned => exact Or.inl rfl
  | waiting live =>
    cases live with
    | false => exact absurd rfl hheed
    | true => exact Or.inr rfl
  | returned => cases h

theorem settle_reader (T : Transport α D B) (role : Role) (hrun : f.isRunning = some true)
    (hopen : f.isOpen = true) (hr : f.reader = .spawned ∨ f.reader = .waiting true) :
    ∃ es, Silent es ∧ exec (step T role) f es = some { f with reader := .waiting true } := by
  rcases hr with hr | hr
  · refine ⟨[.readerRun], Silent.cons trivial rfl silent_nil, ?_⟩
    have hloop : f.readerLoop = { f with reader := .waiting true } := by
      unfold readerLoop workerLoop
      rw [if_pos hrun, hopen]
    have hstep : step T role f .readerRun = some f.readerLoop := if_pos hr
    rw [exec_singleton, hstep, hloop]
  · refine ⟨[], silent_nil, ?_⟩
    rw [← hr]
    rfl

theorem settle_feeder (T : Transport α D B) (role : Role) (hrun : f.isRunning = some true)
    (hopen : f.isOpen = true) (hr : f.feeder = .spawned ∨ f.feeder = .waiting true) :
    ∃ es, Silent es ∧ exec (step T role) f es = some { f with feeder := .waiting true } := by
  rcases hr with hr | hr
  · refine ⟨[.feederRun], Silent.cons trivial rfl silent_nil, ?_⟩
    have hloop : f.feederLoop = { f with feeder := .waiting true } := by
      unfold feederLoop workerLoop
      rw [if_pos hrun, hopen]
    have hstep : step T role f .feederRun = some f.feederLoop := if_pos hr
    rw [exec_singleton, hstep, hloop]
  · refine ⟨[], silent_nil, ?_⟩
    rw [← hr]
    rfl

/-- A write that goes on is done, and all that waits is written behind it. -/
theorem settle_write (T : Transport α D B) (role : Role) (h : f.Waits) (hw : f.writer = .writing true) :
    ∃ es f', exec (step T role) f es = some f' ∧ Silent es ∧ f'.read = f.read ∧ f'.Ready := by
  let written : Forwarder α D B := { f with toDataPath := f.toDataPath.transfer f.pending.length }
  have hempty : written.pending = [] := by
    show f.pending.drop _ = []
    exact List.drop_length
  obtain ⟨es, f', hes, hsilent, hread, hdone⟩ :=
    empties_drain (T := T) role (waiting written.kcp + 1) written (Nat.lt_succ_self _)
      ⟨h.isRunning, h.stopped, h.reader, h.feeder⟩ hempty
  have hall := exec_append_eq_some.mpr ⟨_, exec_write h hw, hes⟩
  exact ⟨.transfer f.pending.length :: .writeOk :: es, f', hall,
    Silent.cons trivial rfl (Silent.cons trivial rfl hsilent), hread, hdone.ready⟩

theorem settle_writer (T : Transport α D B) (role : Role) (h : f.Waits) (hcalm : Calm True f)
    (hheed : f.writer ≠ .writing false) (halive : f.writer.status = .alive) :
    ∃ es f', exec (step T role) f es = some f' ∧ Silent es ∧ f'.read = f.read ∧ f'.Ready := by
  cases hw : f.writer with
  | unborn | returned =>
    rw [hw] at halive
    cases halive
  | spawned =>
    have hpend := hcalm.writer
    rw [hw] at hpend
    let ticked : Forwarder α D B :=
      { f with toDataPath := f.toDataPath.update T (UInt32.ofNat f.now) f.isOpen }
    have hstep : step T role f (.writerRun f.now) = some ticked.drain := by
      have hrun : step T role f (.writerRun f.now) = some (f.writerLoop T) := if_pos hw
      rw [hrun]
      unfold writerLoop
      rw [if_pos h.isRunning]
    obtain ⟨es, f', hes, hsilent, hread, hdone⟩ :=
      empties_drain (T := T) role (waiting ticked.kcp + 1) ticked (Nat.lt_succ_self _)
        ⟨h.isRunning, h.stopped, h.reader, h.feeder⟩ hpend
    refine ⟨.writerRun f.now :: es, f', ?_, Silent.cons trivial rfl hsilent, hread, hdone.ready⟩
    rw [exec_cons, hstep, Option.bind_some]
    exact hes
  | writing live =>
    cases live with
    | false => exact absurd hw hheed
    | true => exact settle_write T role h hw
  | retrying =>
    let again : Forwarder α D B :=
      { f with toDataPath := f.toDataPath.rewrite, writer := .writing true }
    have hstep : step T role f .retry = some again := by
      have hretry : step T role f .retry =
          some { f with toDataPath := f.toDataPath.rewrite, writer := .writing f.isOpen } :=
        if_pos hw
      rw [hretry, h.isOpen]
    obtain ⟨es, f', hes, hsilent, hread, hready⟩ :=
      settle_write (f := again) T role ⟨h.isRunning, h.stopped, h.reader, h.feeder⟩ rfl
    refine ⟨.retry :: es, f', ?_, Silent.cons trivial rfl hsilent, hread, hready⟩
    rw [exec_cons, hstep, Option.bind_some]
    exact hes
  | sleeping =>
    exact ⟨[], f, rfl, silent_nil, rfl, h.isRunning, h.stopped, h.reader, hw, h.feeder⟩

/-- **An end that runs comes to rest**: each of its coroutines goes on until it waits. -/
theorem settle_spawned (T : Transport α D B) (role : Role) (hlife : Life role f)
    (hatt : f.Attentive) (hcalm : Calm True f) (hstop : f.stopped = none) (hsp : f.Spawned) :
    ∃ es f', exec (step T role) f es = some f' ∧ Silent es ∧ f'.read = f.read ∧ f'.Ready := by
  have hopen : f.isOpen = true := by
    rw [isOpen, hstop]
    rfl
  have hrun : f.isRunning = some true := by
    rw [(hlife.spawned hsp).1, hopen]
  have halive : ∀ c, c ≠ .timer → f.status c = .alive := by
    intro c hc
    have hret := hlife.running hstop c
    have hun := (hlife.spawned hsp).2 c
    cases hs : f.status c with
    | unborn => exact absurd (hun hs).1 hc
    | alive => rfl
    | returned => exact absurd hs hret
  obtain ⟨hr, hfd, hw⟩ := hatt hstop
  obtain ⟨es₁, hsilent₁, hes₁⟩ := settle_reader T role hrun hopen
    (Worker.of_alive (halive .reader (by decide)) hr)
  obtain ⟨es₂, hsilent₂, hes₂⟩ := settle_feeder (f := { f with reader := .waiting true }) T role hrun
    hopen (Worker.of_alive (halive .feeder (by decide)) hfd)
  obtain ⟨es₃, f', hes₃, hsilent₃, hread, hready⟩ :=
    settle_writer (f := { f with reader := .waiting true, feeder := .waiting true }) T role
      ⟨hrun, hstop, rfl, rfl⟩ ⟨hcalm.writer, hcalm.starting⟩ hw (halive .writer (by decide))
  exact ⟨es₁ ++ (es₂ ++ es₃), f', exec_append_eq_some.mpr ⟨_, hes₁, exec_append_eq_some.mpr
    ⟨_, hes₂, hes₃⟩⟩, hsilent₁.append (hsilent₂.append hsilent₃), hread, hready⟩

/-- The same for an end whose start coroutine is still connecting. -/
theorem settle (T : Transport α D B) (role : Role) (hlife : Life role f) (hatt : f.Attentive)
    (hcalm : Calm True f) (hstop : f.stopped = none) (hrefs : 0 < f.refs) :
    ∃ es f', exec (step T role) f es = some f' ∧ Silent es ∧ f'.read = f.read ∧ f'.Ready := by
  by_cases hstart : f.starting = true
  · have hstep : step T role f .connected = some f.run.dropRef := if_pos hstart
    have hretries : (Event.connected : Event α D) = .writeAgain → True := fun _ => trivial
    have hnone : ∀ d, (Event.connected : Event α D).datagram = some d → (fun _ => False) d :=
      fun _ h => nomatch h
    obtain ⟨es, f', hes, hsilent, hread, hready⟩ :=
      settle_spawned T role (life_step hlife hstep) (attentive_step hatt hstep)
        (step_dataPath T hcalm hretries hnone hstep).1 hstop (fun h => nomatch h)
    refine ⟨.connected :: es, f', ?_, Silent.cons trivial rfl hsilent, hread, hready⟩
    rw [exec_cons, hstep, Option.bind_some]
    exact hes
  · refine settle_spawned T role hlife hatt hcalm hstop ?_
    -- otherwise no coroutine would hold a reference
    intro hunborn
    have hall := (hlife.unspawned (fun h => h hunborn)).1
    have hcount := hlife.refs
    rw [if_neg hstart, show f.status = fun _ => .unborn from funext hall] at hcount
    have hzero : holders (fun _ => Status.unborn) = 0 := rfl
    omega

end Forwarder
end FlexProxy
