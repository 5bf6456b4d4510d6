import FlexProxy.Datagram
import FlexProxy.Lifecycle

/-! # Shutting down

Once a coroutine has called `Stop`, both sockets are closed and `isRunning_` is
false.  What is left is to wind down.  A coroutine that is resumed from then on can
only go through what remains of its inner loops and end: the kcp to tcp coroutine
may still have a write completed, or wait and try once more, but the next write
fails, since it is started on a closed socket.

The argument is a rank (`rank`): how often a coroutine can still be resumed.  It
is at most 3, no event raises it, and every resumption lowers it
(`winding_of_step`).  The last coroutine to end drops the last reference, so the
destructor runs when none is left.
-/
namespace FlexProxy
open TransitionSystem

/-- How often the coroutine `c` is resumed in a run. -/
def resumptions {α D : Type} (c : Coroutine) (run : List (Event α D)) : Nat :=
  run.countP (fun e => e.resumes = some c)

/-- The coroutine whose operation on a socket of the forwarder moves bytes in an
event. -/
def Event.transfers {α D : Type} : Event α D → Option Coroutine
  | .tcpData _ => some .reader
  | .transfer _ => some .writer
  | .udpData _ => some .feeder
  | _ => none

/-- How often a coroutine can be resumed once `isRunning_` is false. -/
def Worker.rank : Worker → Nat
  | .unborn => 0
  | .spawned => 1
  | .waiting _ => 1
  | .returned => 0

/-- A write started on an open socket may complete, and the next one is not.  Or it
may fail with try-again, and is tried once more. -/
def Writer.rank : Writer → Nat
  | .unborn => 0
  | .spawned => 1
  | .writing true => 3
  | .writing false => 1
  | .retrying => 2
  | .sleeping => 1
  | .returned => 0

namespace Forwarder
variable {α D B : Type} {T : Transport α D B} {role : Role} {f f' : Forwarder α D B}
  {e : Event α D}

def rank (f : Forwarder α D B) : Coroutine → Nat
  | .reader => f.reader.rank
  | .writer => f.writer.rank
  | .feeder => f.feeder.rank
  | .timer => f.timer.rank

/-- The coroutine is suspended in an operation that was started on an open socket. -/
def Live (f : Forwarder α D B) : Coroutine → Prop
  | .reader => f.reader = .waiting true
  | .writer => f.writer = .writing true
  | .feeder => f.feeder = .waiting true
  | .timer => False

theorem rank_le_three (f : Forwarder α D B) (c : Coroutine) : f.rank c ≤ 3 := by
  have hworker : ∀ w : Worker, w.rank ≤ 3 := by
    rintro (_ | _ | (_ | _) | _) <;> decide
  cases c with
  | reader => exact hworker _
  | feeder => exact hworker _
  | timer => exact hworker _
  | writer =>
    show f.writer.rank ≤ 3
    rcases f.writer with _ | _ | (_ | _) | _ | _ | _ <;> decide

/-- The rank is 0 exactly of a coroutine that holds no reference. -/
theorem rank_eq_zero_iff (f : Forwarder α D B) (c : Coroutine) :
    f.rank c = 0 ↔ f.status c ≠ .alive := by
  have hworker : ∀ w : Worker, w.rank = 0 ↔ w.status ≠ .alive := by
    rintro (_ | _ | (_ | _) | _) <;> decide
  cases c with
  | reader => exact hworker _
  | feeder => exact hworker _
  | timer => exact hworker _
  | writer =>
    show f.writer.rank = 0 ↔ f.writer.status ≠ .alive
    rcases f.writer with _ | _ | (_ | _) | _ | _ | _ <;> decide

/-! ## One event after `Stop` -/

/-- What an event does once `Stop` has been called. -/
structure Winding (e : Event α D) (f f' : Forwarder α D B) : Prop where
  resumed : ∀ c, e.resumes = some c → f'.rank c < f.rank c ∧ ¬ f'.Live c
  others : ∀ c, e.resumes ≠ some c → f'.rank c = f.rank c ∧ (f'.Live c ↔ f.Live c)
  written : f'.written = f.written
  emitted : f'.emitted = f.emitted

theorem AgreeExcept.others {c : Coroutine} (h : AgreeExcept c f f') {c' : Coroutine} (hne : c ≠ c') :
    f'.rank c' = f.rank c' ∧ (f'.Live c' ↔ f.Live c') := by
  obtain ⟨hr, hw, hfd, ht⟩ := h
  cases c' with
  | reader => exact ⟨congrArg Worker.rank (hr hne), by rw [Live, hr hne, Live]⟩
  | writer => exact ⟨congrArg Writer.rank (hw hne), by rw [Live, hw hne, Live]⟩
  | feeder => exact ⟨congrArg Worker.rank (hfd hne), by rw [Live, hfd hne, Live]⟩
  | timer => exact ⟨congrArg Worker.rank (ht hne), Iff.rfl⟩

/-- An event that resumes the coroutine `c` and nothing else. -/
theorem winding_of_resumed {c : Coroutine} (hc : e.resumes = some c) (hagree : AgreeExcept c f f')
    (hrank : f'.rank c < f.rank c) (hlive : ¬ f'.Live c) (hwritten : f'.written = f.written)
    (hemitted : f'.emitted = f.emitted) : Winding e f f' where
  resumed := by
    intro c' hc'
    cases hc.symm.trans hc'
    exact ⟨hrank, hlive⟩
  others := by
    intro c' hc'
    exact hagree.others (fun h => hc' (h ▸ hc))
  written := hwritten
  emitted := hemitted

/-- An event that resumes none of the coroutines. -/
theorem winding_of_stays (hc : e.resumes = none) (hr : f'.reader = f.reader)
    (hw : f'.writer = f.writer) (hfd : f'.feeder = f.feeder) (ht : f'.timer = f.timer)
    (hwritten : f'.written = f.written) (hemitted : f'.emitted = f.emitted) : Winding e f f' where
  resumed := by
    intro c hc'
    rw [hc] at hc'
    cases hc'
  others := by
    rintro (_ | _ | _ | _) -
    · exact ⟨congrArg Worker.rank hr, by rw [Live, hr, Live]⟩
    · exact ⟨congrArg Writer.rank hw, by rw [Live, hw, Live]⟩
    · exact ⟨congrArg Worker.rank hfd, by rw [Live, hfd, Live]⟩
    · exact ⟨congrArg Worker.rank ht, Iff.rfl⟩
  written := hwritten
  emitted := hemitted

/-- A coroutine at the head of its loop ends. -/
theorem workerLoop_stopped (hrun : f.isRunning = some false) (put : Worker → Forwarder α D B)
    (live : Bool) : f.workerLoop put live = (put .returned).dropRef := by
  refine if_neg ?_
  rw [hrun]
  decide

theorem readerLoop_stopped (hrun : f.isRunning = some false) :
    f.readerLoop = { f with reader := .returned }.dropRef :=
  workerLoop_stopped hrun (fun w => { f with reader := w }) f.isOpen

theorem feederLoop_stopped (hrun : f.isRunning = some false) :
    f.feederLoop = { f with feeder := .returned }.dropRef :=
  workerLoop_stopped hrun (fun w => { f with feeder := w }) f.isOpen

theorem timerLoop_stopped (hrun : f.isRunning = some false) :
    f.timerLoop = { f with timer := .returned }.dropRef :=
  workerLoop_stopped hrun (fun w => { f with timer := w }) true

theorem writerLoop_stopped (hrun : f.isRunning = some false) :
    f.writerLoop T = { f with writer := .returned }.dropRef := by
  refine if_neg ?_
  rw [hrun]
  decide

/-- Draining starts a write on the closed socket, or none. -/
theorem writer_drain_stopped (hopen : f.isOpen = false) :
    f.drain.writer = .sleeping ∨ f.drain.writer = .writing false := by
  unfold drain
  dsimp only
  split
  · exact Or.inl rfl
  · exact Or.inr (congrArg Writer.writing hopen)

theorem drain_frame (f : Forwarder α D B) :
    f.drain.reader = f.reader ∧ f.drain.feeder = f.feeder ∧ f.drain.timer = f.timer ∧
      f.drain.written = f.written ∧ f.drain.emitted = f.emitted := by
  unfold drain
  dsimp only
  split <;> exact ⟨rfl, rfl, rfl, rfl, rfl⟩

/-- A worker that ends: it was alive, and its operation is over. -/
theorem Worker.rank_pos {w : Worker} (h : w.status = .alive) : Worker.returned.rank < w.rank := by
  cases w with
  | unborn | returned => cases h
  | spawned | waiting live => exact Nat.zero_lt_one

/-- `Stop` has been called. -/
structure Halted (f : Forwarder α D B) : Prop where
  running : f.isRunning = some false
  closed : f.isOpen = false
  starting : f.starting = false

/-- **What an event does once `Stop` has been called.** -/
theorem winding_of_step (hf : f.Halted)
    (h : step T role f e = some f') : Winding e f f' := by
  have halive : ∀ {c}, e.resumes = some c → f.status c = .alive := fun hc => alive_of_resumes hc h
  cases e with
  | connected =>
    obtain ⟨hs, h⟩ := Option.ite_none_right_eq_some.mp h
    exact absurd hs (Bool.eq_false_iff.mp hf.starting)
  | transfer n =>
    obtain ⟨⟨-, ho, -⟩, h⟩ := Option.ite_none_right_eq_some.mp h
    exact absurd ho (Bool.eq_false_iff.mp hf.closed)
  | connectFailed | onUdpData d =>
    obtain ⟨-, h⟩ := Option.ite_none_right_eq_some.mp h
    cases h
    exact winding_of_stays rfl rfl rfl rfl rfl rfl rfl
  | readerRun | tcpData chunk | tcpAgain =>
    obtain ⟨-, h⟩ := Option.ite_none_right_eq_some.mp h
    rw [readerLoop_stopped (by exact hf.running)] at h
    cases h
    exact winding_of_resumed rfl (agree_reader rfl rfl rfl) (Worker.rank_pos (halive rfl))
      (fun h => nomatch h) rfl rfl
  | tcpEof | tcpReadError =>
    obtain ⟨-, h⟩ := Option.ite_none_right_eq_some.mp h
    cases h
    exact winding_of_resumed rfl (agree_reader rfl rfl rfl) (Worker.rank_pos (halive rfl))
      (fun h => nomatch h) rfl rfl
  | writerRun now =>
    obtain ⟨hw, h⟩ := Option.ite_none_right_eq_some.mp h
    rw [writerLoop_stopped (by exact hf.running)] at h
    cases h
    refine winding_of_resumed rfl (agree_writer rfl rfl rfl) ?_ (fun h => nomatch h) rfl rfl
    show 0 < f.writer.rank
    rw [hw]
    decide
  | tick now =>
    obtain ⟨⟨hw, -⟩, h⟩ := Option.ite_none_right_eq_some.mp h
    rw [writerLoop_stopped (by exact hf.running)] at h
    cases h
    refine winding_of_resumed rfl (agree_writer rfl rfl rfl) ?_ (fun h => nomatch h) rfl rfl
    show 0 < f.writer.rank
    rw [hw]
    decide
  | writeOk =>
    obtain ⟨⟨hw, -⟩, h⟩ := Option.ite_none_right_eq_some.mp h
    cases h
    obtain ⟨hr, hfd, ht, hwritten, hemitted⟩ := drain_frame f
    -- the inner loop may go on to one more write, but that one is started on the closed socket
    have hd := writer_drain_stopped hf.closed
    refine winding_of_resumed rfl (agree_writer hr hfd ht) ?_ ?_ hwritten hemitted
    · show f.drain.writer.rank < f.writer.rank
      rw [hw]
      rcases hd with hd | hd <;> rw [hd] <;> decide
    · show f.drain.writer ≠ .writing true
      rcases hd with hd | hd <;> rw [hd] <;> decide
  | writeAgain =>
    obtain ⟨hw, h⟩ := Option.ite_none_right_eq_some.mp h
    cases h
    refine winding_of_resumed rfl (agree_writer rfl rfl rfl) ?_ (fun h => nomatch h) rfl rfl
    show 2 < f.writer.rank
    rw [hw]
    decide
  | writeError =>
    obtain ⟨⟨live, hw⟩, h⟩ := Option.ite_none_right_eq_some.mp h
    cases h
    refine winding_of_resumed rfl (agree_writer rfl rfl rfl) ?_ (fun h => nomatch h) rfl rfl
    show 0 < f.writer.rank
    rw [hw]
    cases live <;> decide
  | retry =>
    obtain ⟨hw, h⟩ := Option.ite_none_right_eq_some.mp h
    cases h
    refine winding_of_resumed rfl (agree_writer rfl rfl rfl) ?_ ?_ rfl rfl
    · show (Writer.writing f.isOpen).rank < f.writer.rank
      rw [hw, hf.closed]
      decide
    · show Writer.writing f.isOpen ≠ .writing true
      rw [hf.closed]
      decide
  | feederRun | udpData d | udpAgain =>
    obtain ⟨-, h⟩ := Option.ite_none_right_eq_some.mp h
    rw [feederLoop_stopped (by exact hf.running)] at h
    cases h
    exact winding_of_resumed rfl (agree_feeder rfl rfl rfl) (Worker.rank_pos (halive rfl))
      (fun h => nomatch h) rfl rfl
  | udpError =>
    obtain ⟨-, h⟩ := Option.ite_none_right_eq_some.mp h
    cases h
    exact winding_of_resumed rfl (agree_feeder rfl rfl rfl) (Worker.rank_pos (halive rfl))
      (fun h => nomatch h) rfl rfl
  | timerRun =>
    obtain ⟨-, h⟩ := Option.ite_none_right_eq_some.mp h
    rw [timerLoop_stopped (by exact hf.running)] at h
    cases h
    exact winding_of_resumed rfl (agree_timer rfl rfl rfl) (Worker.rank_pos (halive rfl)) not_false
      rfl rfl
  | expire =>
    -- the timer ends whether it finds the session idle or `isRunning_` false
    obtain ⟨-, h⟩ := Option.ite_none_right_eq_some.mp h
    rw [timerLoop_stopped (by exact hf.running)] at h
    split at h
    · cases h
      exact winding_of_resumed rfl (agree_timer rfl rfl rfl) (Worker.rank_pos (halive rfl))
        not_false rfl rfl
    · cases h
      exact winding_of_resumed rfl (agree_timer rfl rfl rfl) (Worker.rank_pos (halive rfl))
        not_false rfl rfl

/-- Only an operation started on an open socket moves bytes. -/
theorem live_of_transfers {c : Coroutine} (hc : e.transfers = some c)
    (h : step T role f e = some f') : f.Live c := by
  cases e with
  | tcpData chunk =>
    cases hc
    exact (Option.ite_none_right_eq_some.mp h).1.1
  | udpData d =>
    cases hc
    exact (Option.ite_none_right_eq_some.mp h).1
  | transfer n =>
    cases hc
    exact (Option.ite_none_right_eq_some.mp h).1.1
  | _ => cases hc

/-- A coroutine that has not ended can be resumed: its operation can fail, its timer
can expire. -/
theorem exists_resumes {c : Coroutine} (h : f.status c = .alive) :
    ∃ e : Event α D, e.resumes = some c ∧ (step T role f e).isSome := by
  have hsome : ∀ {p : Prop} [Decidable p] {x : Forwarder α D B},
      p → (if p then some x else none).isSome :=
    fun hp => by rw [if_pos hp]; rfl
  cases c with
  | reader =>
    have h' : f.reader.status = .alive := h
    cases hw : f.reader with
    | spawned => exact ⟨.readerRun, rfl, hsome hw⟩
    | waiting live => exact ⟨.tcpReadError, rfl, hsome ⟨live, hw⟩⟩
    | _ => rw [hw] at h'; cases h'
  | writer =>
    have h' : f.writer.status = .alive := h
    cases hw : f.writer with
    | spawned => exact ⟨.writerRun 0, rfl, hsome hw⟩
    | writing live => exact ⟨.writeError, rfl, hsome ⟨live, hw⟩⟩
    | retrying => exact ⟨.retry, rfl, hsome hw⟩
    | sleeping => exact ⟨.tick f.now, rfl, hsome ⟨hw, Nat.le_refl _⟩⟩
    | _ => rw [hw] at h'; cases h'
  | feeder =>
    have h' : f.feeder.status = .alive := h
    cases hw : f.feeder with
    | spawned => exact ⟨.feederRun, rfl, hsome hw⟩
    | waiting live => exact ⟨.udpError, rfl, hsome ⟨live, hw⟩⟩
    | _ => rw [hw] at h'; cases h'
  | timer =>
    have h' : f.timer.status = .alive := h
    cases hw : f.timer with
    | spawned => exact ⟨.timerRun, rfl, hsome hw⟩
    | waiting live =>
      refine ⟨.expire, rfl, ?_⟩
      have hlive : ∃ live, f.timer = .waiting live := ⟨live, hw⟩
      rw [step, if_pos hlive]
      split <;> rfl
    | _ => rw [hw] at h'; cases h'

/-! ## Runs after `Stop` -/

theorem Life.halted (hf : Life role f) (hstop : f.stopped ≠ none) : f.Halted := by
  have hsp : f.Spawned := by
    by_contra h
    exact hstop (hf.unspawned h).2.2
  have hopen : f.isOpen = false := Option.isNone_eq_false_iff.mpr (Option.ne_none_iff_isSome.mp hstop)
  refine ⟨?_, hopen, hf.not_starting hsp⟩
  rw [(hf.spawned hsp).1, hopen]

/-- What a run `rest` after `Stop` does, from `f` to `f'`. -/
structure WindsDown (T : Transport α D B) (role : Role) (f : Forwarder α D B)
    (rest : List (Event α D)) (f' : Forwarder α D B) : Prop where
  /-- `isRunning_` stays false. -/
  running : f'.isRunning = some false
  /-- Nothing is written to the TCP socket, and nothing sent. -/
  quiet : f'.written = f.written ∧ f'.emitted = f.emitted
  /-- What can still transfer bytes is an operation that was pending at `Stop`: its
  coroutine has not been resumed since. -/
  pending : ∀ e c, e.transfers = some c → (step T role f' e).isSome →
    resumptions c rest = 0
  /-- No coroutine is resumed more than three times, and after its last resumption it
  has returned. -/
  bounded : ∀ c, ∃ n ≤ 3, resumptions c rest ≤ n ∧
    (resumptions c rest = n → f'.status c ≠ .alive)
  /-- Until then it can be resumed. -/
  resumable : ∀ c, f'.status c = .alive →
    ∃ e : Event α D, e.resumes = some c ∧ (step T role f' e).isSome

/-- A state after `Stop` in a run that goes on from `f`. -/
structure Stopped (role : Role) (f : Forwarder α D B) : Prop where
  life : f.Life role
  stopped : f.stopped ≠ none

theorem Stopped.next (hf : f.Stopped role) (h : step T role f e = some f') : f'.Stopped role := by
  refine ⟨life_step hf.life h, ?_⟩
  obtain ⟨x, hx⟩ := Option.ne_none_iff_exists'.mp hf.stopped
  rw [stopped_step hx h]
  exact fun h => nomatch h

theorem Stopped.winding (hf : f.Stopped role) (h : step T role f e = some f') : Winding e f f' :=
  winding_of_step (hf.life.halted hf.stopped) h

/-- Along a run after `Stop` the rank of a coroutine is used up. -/
theorem rank_exec {c : Coroutine} {rest : List (Event α D)} (hf : f.Stopped role)
    (h : exec (step T role) f rest = some f') :
    f'.rank c + resumptions c rest ≤ f.rank c := by
  refine exec_measure (fun f => f.rank c) _ (fun _ _ _ hs h => hs.next h) ?_ hf h
  intro s e s' hs hstep
  have hw := hs.winding hstep
  by_cases hc : e.resumes = some c
  · rw [if_pos (decide_eq_true hc)]
    exact (hw.resumed c hc).1
  · rw [if_neg (fun h => hc (of_decide_eq_true h))]
    exact Nat.le_of_eq (hw.others c hc).1

/-- An operation on an open socket that is pending has been pending since `Stop`. -/
theorem live_exec {c : Coroutine} {rest : List (Event α D)} (hf : f.Stopped role)
    (h : exec (step T role) f rest = some f') (hlive : f'.Live c) :
    f.Live c ∧ resumptions c rest = 0 := by
  induction rest generalizing f with
  | nil =>
    cases h
    exact ⟨hlive, rfl⟩
  | cons e rest ih =>
    obtain ⟨s, hs, hrest⟩ := exec_cons_eq_some.mp h
    obtain ⟨hls, hcount⟩ := ih (hf.next hs) hrest
    have hw := hf.winding hs
    have hc : e.resumes ≠ some c := fun hc => (hw.resumed c hc).2 hls
    refine ⟨(hw.others c hc).2.mp hls, ?_⟩
    show (e :: rest).countP (fun e => e.resumes = some c) = 0
    rw [List.countP_cons, if_neg (fun h => hc (of_decide_eq_true h))]
    exact hcount

theorem quiet_exec {rest : List (Event α D)} (hf : f.Stopped role)
    (h : exec (step T role) f rest = some f') :
    f'.Stopped role ∧ f'.written = f.written ∧ f'.emitted = f.emitted := by
  have hstep : ∀ s e s', (s.Stopped role ∧ s.written = f.written ∧ s.emitted = f.emitted) →
      step T role s e = some s' →
      s'.Stopped role ∧ s'.written = f.written ∧ s'.emitted = f.emitted := by
    rintro s e s' ⟨hs, hwritten, hemitted⟩ h
    have hw := hs.winding h
    exact ⟨hs.next h, hw.written.trans hwritten, hw.emitted.trans hemitted⟩
  exact exec_invariant hstep ⟨hf, rfl, rfl⟩ h

/-- **A run after `Stop` winds down.** -/
theorem windsDown_exec {rest : List (Event α D)} (hf : f.Stopped role)
    (h : exec (step T role) f rest = some f') : WindsDown T role f rest f' := by
  obtain ⟨hf', hwritten, hemitted⟩ := quiet_exec hf h
  refine ⟨(hf'.life.halted hf'.stopped).running, ⟨hwritten, hemitted⟩, ?_, ?_, ?_⟩
  · intro e c hc he
    obtain ⟨s, hs⟩ := Option.isSome_iff_exists.mp he
    exact (live_exec hf h (live_of_transfers hc hs)).2
  · intro c
    have hrank := rank_exec (c := c) hf h
    refine ⟨f.rank c, rank_le_three f c, by omega, fun hcount => ?_⟩
    exact (rank_eq_zero_iff f' c).mp (by omega)
  · exact fun c halive => exists_resumes halive

/-- **A stopped forwarder stays stopped and winds down.**  In every run of either
forwarder: once `Stop` has been called, every way to go on winds down, and the
destructor runs (nothing holds a reference) exactly when every coroutine that was
spawned has returned, with `isRunning_` false and no event possible any more. -/
theorem stopped_winds_down (checkSum : Bool) (role : Role) (buffer : List UInt8) (alive : Bool)
    (run : List (Event UInt8 (List UInt8))) (f : Forwarder UInt8 (List UInt8) (List UInt8))
    (hrun : exec (step (udp checkSum) role) (started role buffer alive) run = some f)
    (hspawned : f.Spawned) :
    (f.stopped ≠ none → ∀ rest f', exec (step (udp checkSum) role) f rest = some f' →
      WindsDown (udp checkSum) role f rest f') ∧
    (f.refs = 0 ↔ ∀ c, f.status c ≠ .alive) ∧
    (f.refs = 0 → f.isRunning = some false ∧ ∀ e, step (udp checkSum) role f e = none) := by
  have hlife := life_exec hrun
  refine ⟨fun hstop rest f' hrest => ?_, hlife.refs_eq_zero_iff hspawned, fun hrefs => ?_⟩
  · exact windsDown_exec ⟨hlife, hstop⟩ hrest
  · exact ⟨hlife.isRunning_of_refs hspawned hrefs, hlife.step_eq_none hrefs⟩

/-- The TCP peer closes the connection; the two coroutines left are resumed and end. -/
theorem stopped_winds_down_eof :
    ∃ f f' : Forwarder UInt8 (List UInt8) (List UInt8),
      exec (step (udp true) .client) (started .client [] true) [.readerRun, .tcpEof] = some f ∧
      exec (step (udp true) .client) f [.feederRun, .writerRun 5] = some f' ∧ f'.refs = 0 ∧
      WindsDown (udp true) .client f [.feederRun, .writerRun 5] f' := by
  refine ⟨_, _, rfl, rfl, rfl, ?_⟩
  have h := stopped_winds_down true .client [] true [.readerRun, .tcpEof] _ rfl (fun h => nomatch h)
  exact h.1 (fun h => nomatch h) _ _ rfl

end Forwarder
end FlexProxy
