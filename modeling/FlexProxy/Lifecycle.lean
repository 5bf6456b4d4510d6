import Mathlib.Logic.Function.Basic
import FlexProxy.Forwarder
import FlexProxy.TransitionSystem

/-! # The life of a forwarder

Whatever an event does to the data path, it does one of five things to the
coroutines (`Moves`, `moves_of_step`): nothing; one of them ends because
`isRunning_` is false; one of them calls `Stop` and ends; the start coroutine
connects and spawns the others; or it fails to.

From this follows what every reachable forwarder satisfies (`Life`): the
coroutines that have not ended are those that hold a reference, `isRunning_` is
true exactly from the connect to the first `Stop`, and no coroutine has ended
before it.
-/
namespace FlexProxy

/-- The coroutines `Start` or the start coroutine spawn. -/
inductive Coroutine where
  | reader
  | writer
  | feeder
  | timer
  deriving DecidableEq

/-- Whether a coroutine holds `spThis`. -/
inductive Status where
  | unborn
  | alive
  | returned
  deriving DecidableEq

def Worker.status : Worker → Status
  | .unborn => .unborn
  | .spawned => .alive
  | .waiting _ => .alive
  | .returned => .returned

def Writer.status : Writer → Status
  | .unborn => .unborn
  | .spawned => .alive
  | .writing _ => .alive
  | .retrying => .alive
  | .sleeping => .alive
  | .returned => .returned

/-- The coroutine an event resumes. -/
def Event.resumes {α D : Type} : Event α D → Option Coroutine
  | .readerRun | .tcpData _ | .tcpAgain | .tcpEof | .tcpReadError => some .reader
  | .writerRun _ | .tick _ | .writeOk | .writeAgain | .writeError | .retry => some .writer
  | .feederRun | .udpData _ | .udpAgain | .udpError => some .feeder
  | .timerRun | .expire => some .timer
  | .connected | .connectFailed | .onUdpData _ | .transfer _ => none

namespace Forwarder
variable {α D B : Type} {T : Transport α D B} {role : Role} {f f' g : Forwarder α D B}
  {e : Event α D}

def status (f : Forwarder α D B) : Coroutine → Status
  | .reader => f.reader.status
  | .writer => f.writer.status
  | .feeder => f.feeder.status
  | .timer => f.timer.status

/-- Only a coroutine that holds a reference is resumed. -/
theorem alive_of_resumes {c : Coroutine} (hc : e.resumes = some c)
    (h : step T role f e = some f') : f.status c = .alive := by
  have hspawned : ∀ {w : Worker}, w = .spawned → w.status = .alive := by
    rintro _ rfl
    rfl
  have hwaiting : ∀ {w : Worker} {live : Bool}, w = .waiting live → w.status = .alive := by
    rintro _ _ rfl
    rfl
  cases e with
  | readerRun | feederRun | timerRun =>
    cases hc
    exact hspawned (Option.ite_none_right_eq_some.mp h).1
  | tcpData chunk =>
    cases hc
    exact hwaiting (Option.ite_none_right_eq_some.mp h).1.1
  | tcpAgain | tcpEof | udpData d | udpAgain =>
    cases hc
    exact hwaiting (Option.ite_none_right_eq_some.mp h).1
  | tcpReadError | udpError | expire =>
    cases hc
    obtain ⟨live, hw⟩ := (Option.ite_none_right_eq_some.mp h).1
    exact hwaiting hw
  | writerRun now | writeAgain | retry =>
    cases hc
    exact congrArg Writer.status (Option.ite_none_right_eq_some.mp h).1
  | tick now | writeOk =>
    cases hc
    exact congrArg Writer.status (Option.ite_none_right_eq_some.mp h).1.1
  | writeError =>
    cases hc
    obtain ⟨live, hw⟩ := (Option.ite_none_right_eq_some.mp h).1
    exact congrArg Writer.status hw
  | connected | connectFailed | onUdpData d | transfer n => cases hc

/-! ## What an event does to the coroutines -/

/-- What the event `e` does to the coroutines from `f` to `f'`. -/
inductive Moves (e : Event α D) (f f' : Forwarder α D B) : Prop
  | stays (status : f'.status = f.status) (running : f'.isRunning = f.isRunning)
      (starting : f'.starting = f.starting) (refs : f'.refs = f.refs)
      (stopped : f'.stopped = f.stopped)
  | ends (c : Coroutine) (alive : f.status c = .alive) (loop : f.isRunning ≠ some true)
      (status : f'.status = Function.update f.status c .returned)
      (running : f'.isRunning = f.isRunning) (starting : f'.starting = f.starting)
      (refs : f'.refs = f.refs - 1) (stopped : f'.stopped = f.stopped)
  | stops (c : Coroutine) (cause : StopCause) (alive : f.status c = .alive)
      (eof : cause = .tcpEof → e = .tcpEof)
      (status : f'.status = Function.update f.status c .returned)
      (running : f'.isRunning = some false) (starting : f'.starting = f.starting)
      (refs : f'.refs = f.refs - 1)
      (stopped : f'.stopped = f.stopped.or (some (cause, f.kcp.outgoing)))
  | connects (before : f.starting = true) (status : f'.status = fun _ => .alive)
      (running : f'.isRunning = some true) (starting : f'.starting = false)
      (refs : f'.refs = f.refs + 3) (stopped : f'.stopped = f.stopped)
  | fails (event : e = .connectFailed) (before : f.starting = true) (status : f'.status = f.status)
      (running : f'.isRunning = f.isRunning) (starting : f'.starting = false)
      (refs : f'.refs = f.refs - 1) (stopped : f'.stopped = f.stopped)

/-- `f` and `g` agree on every coroutine but `c`. -/
def AgreeExcept (c : Coroutine) (f g : Forwarder α D B) : Prop :=
  (c ≠ .reader → g.reader = f.reader) ∧ (c ≠ .writer → g.writer = f.writer) ∧
  (c ≠ .feeder → g.feeder = f.feeder) ∧ (c ≠ .timer → g.timer = f.timer)

section Agree

theorem agree_reader (hw : g.writer = f.writer) (hfd : g.feeder = f.feeder)
    (ht : g.timer = f.timer) : AgreeExcept .reader f g :=
  ⟨fun h => absurd rfl h, fun _ => hw, fun _ => hfd, fun _ => ht⟩

theorem agree_writer (hr : g.reader = f.reader) (hfd : g.feeder = f.feeder)
    (ht : g.timer = f.timer) : AgreeExcept .writer f g :=
  ⟨fun _ => hr, fun h => absurd rfl h, fun _ => hfd, fun _ => ht⟩

theorem agree_feeder (hr : g.reader = f.reader) (hw : g.writer = f.writer)
    (ht : g.timer = f.timer) : AgreeExcept .feeder f g :=
  ⟨fun _ => hr, fun _ => hw, fun h => absurd rfl h, fun _ => ht⟩

theorem agree_timer (hr : g.reader = f.reader) (hw : g.writer = f.writer)
    (hfd : g.feeder = f.feeder) : AgreeExcept .timer f g :=
  ⟨fun _ => hr, fun _ => hw, fun _ => hfd, fun h => absurd rfl h⟩

end Agree

/-- `g` is `f` with the coroutine `c` at `s`; nothing else of the coroutines has
changed. -/
structure Puts (c : Coroutine) (s : Status) (f g : Forwarder α D B) : Prop where
  status : g.status = Function.update f.status c s
  running : g.isRunning = f.isRunning
  starting : g.starting = f.starting
  refs : g.refs = f.refs
  stopped : g.stopped = f.stopped

theorem status_congr (c : Coroutine) (s : Status) (hc : g.status c = s)
    (hother : ∀ c', c' ≠ c → g.status c' = f.status c') :
    g.status = Function.update f.status c s := by
  funext c'
  by_cases h : c' = c
  · rw [h, Function.update_self, hc]
  · rw [Function.update_of_ne h, hother c' h]

/-- A coroutine that is alive and stays alive. -/
theorem Puts.moves {c : Coroutine} (h : Puts c .alive f f') (halive : f.status c = .alive) :
    Moves e f f' := by
  refine .stays ?_ h.running h.starting h.refs h.stopped
  rw [h.status, ← halive, Function.update_eq_self]

/-- A coroutine at the head of its loop goes on or ends. -/
theorem moves_workerLoop {c : Coroutine} {put : Worker → Forwarder α D B} (live : Bool)
    (hput : ∀ w, Puts c w.status f (put w)) (hrun : g.isRunning = f.isRunning)
    (halive : f.status c = .alive) : Moves e f (g.workerLoop put live) := by
  unfold workerLoop
  split
  · exact (hput (.waiting live)).moves halive
  · rename_i hloop
    have h := hput .returned
    exact .ends c halive (hrun ▸ hloop) h.status h.running h.starting (congrArg (· - 1) h.refs)
      h.stopped

/-- A coroutine that calls `Stop` and ends. -/
theorem moves_stop {c : Coroutine} {cause : StopCause} (hput : Puts c .returned (f.stop cause) g)
    (halive : f.status c = .alive) (heof : cause = .tcpEof → e = .tcpEof) :
    Moves e f g.dropRef :=
  .stops c cause halive heof hput.status hput.running hput.starting (congrArg (· - 1) hput.refs)
    hput.stopped

theorem puts_of_agree {c : Coroutine} {s : Status} (hagree : AgreeExcept c f g)
    (hs : g.status c = s) (h : g.isRunning = f.isRunning ∧ g.starting = f.starting ∧
      g.refs = f.refs ∧ g.stopped = f.stopped) : Puts c s f g where
  status := by
    obtain ⟨hr, hw, hfd, ht⟩ := hagree
    refine status_congr c s hs ?_
    rintro (_ | _ | _ | _) hne
    · exact congrArg Worker.status (hr hne.symm)
    · exact congrArg Writer.status (hw hne.symm)
    · exact congrArg Worker.status (hfd hne.symm)
    · exact congrArg Worker.status (ht hne.symm)
  running := h.1
  starting := h.2.1
  refs := h.2.2.1
  stopped := h.2.2.2

/-- Draining leaves the coroutine writing or asleep. -/
theorem puts_drain (f : Forwarder α D B) : Puts .writer .alive f f.drain := by
  unfold drain
  dsimp only
  split <;> exact puts_of_agree (agree_writer rfl rfl rfl) rfl ⟨rfl, rfl, rfl, rfl⟩

theorem moves_writerLoop (f : Forwarder α D B) (now : Nat) (halive : f.status .writer = .alive) :
    Moves e f ({ f with now := now }.writerLoop T) := by
  unfold writerLoop
  split
  · have h := puts_drain
      { f with
        now := now
        toDataPath := f.toDataPath.update T (UInt32.ofNat now) f.isOpen }
    exact Puts.moves ⟨h.status, h.running, h.starting, h.refs, h.stopped⟩ halive
  · rename_i hloop
    have h : Puts .writer .returned f { f with now := now, writer := .returned } :=
      puts_of_agree (agree_writer rfl rfl rfl) rfl ⟨rfl, rfl, rfl, rfl⟩
    exact .ends .writer halive hloop h.status rfl rfl rfl rfl

/-- **What an event does to the coroutines.** -/
theorem moves_of_step (h : step T role f e = some f') : Moves e f f' := by
  have halive : ∀ {c}, e.resumes = some c → f.status c = .alive := fun hc => alive_of_resumes hc h
  cases e with
  | connected =>
    obtain ⟨hs, h⟩ := Option.ite_none_right_eq_some.mp h
    cases h
    exact .connects hs (funext fun c => by cases c <;> rfl) rfl rfl rfl rfl
  | connectFailed =>
    obtain ⟨hs, h⟩ := Option.ite_none_right_eq_some.mp h
    cases h
    exact .fails rfl hs rfl rfl rfl rfl rfl
  | onUdpData d | transfer n =>
    obtain ⟨-, h⟩ := Option.ite_none_right_eq_some.mp h
    cases h
    exact .stays rfl rfl rfl rfl rfl
  | readerRun | tcpData chunk | tcpAgain =>
    obtain ⟨-, h⟩ := Option.ite_none_right_eq_some.mp h
    cases h
    exact moves_workerLoop _
      (fun _ => puts_of_agree (agree_reader rfl rfl rfl) rfl ⟨rfl, rfl, rfl, rfl⟩) rfl (halive rfl)
  | tcpEof =>
    obtain ⟨-, h⟩ := Option.ite_none_right_eq_some.mp h
    cases h
    exact moves_stop (puts_of_agree (agree_reader rfl rfl rfl) rfl ⟨rfl, rfl, rfl, rfl⟩)
      (halive rfl) (fun _ => rfl)
  | tcpReadError =>
    obtain ⟨-, h⟩ := Option.ite_none_right_eq_some.mp h
    cases h
    exact moves_stop (puts_of_agree (agree_reader rfl rfl rfl) rfl ⟨rfl, rfl, rfl, rfl⟩)
      (halive rfl) (fun h => nomatch h)
  | writerRun now | tick now =>
    obtain ⟨-, h⟩ := Option.ite_none_right_eq_some.mp h
    cases h
    exact moves_writerLoop f now (halive rfl)
  | writeOk =>
    obtain ⟨-, h⟩ := Option.ite_none_right_eq_some.mp h
    cases h
    exact (puts_drain f).moves (halive rfl)
  | writeAgain | retry =>
    obtain ⟨-, h⟩ := Option.ite_none_right_eq_some.mp h
    cases h
    exact Puts.moves (puts_of_agree (agree_writer rfl rfl rfl) rfl ⟨rfl, rfl, rfl, rfl⟩)
      (halive rfl)
  | writeError =>
    obtain ⟨-, h⟩ := Option.ite_none_right_eq_some.mp h
    cases h
    exact moves_stop (puts_of_agree (agree_writer rfl rfl rfl) rfl ⟨rfl, rfl, rfl, rfl⟩)
      (halive rfl) (fun h => nomatch h)
  | feederRun | udpData d | udpAgain =>
    obtain ⟨-, h⟩ := Option.ite_none_right_eq_some.mp h
    cases h
    exact moves_workerLoop _
      (fun _ => puts_of_agree (agree_feeder rfl rfl rfl) rfl ⟨rfl, rfl, rfl, rfl⟩) rfl (halive rfl)
  | udpError =>
    obtain ⟨-, h⟩ := Option.ite_none_right_eq_some.mp h
    cases h
    exact moves_stop (puts_of_agree (agree_feeder rfl rfl rfl) rfl ⟨rfl, rfl, rfl, rfl⟩)
      (halive rfl) (fun h => nomatch h)
  | timerRun =>
    obtain ⟨-, h⟩ := Option.ite_none_right_eq_some.mp h
    cases h
    exact moves_workerLoop _
      (fun _ => puts_of_agree (agree_timer rfl rfl rfl) rfl ⟨rfl, rfl, rfl, rfl⟩) rfl (halive rfl)
  | expire =>
    obtain ⟨-, h⟩ := Option.ite_none_right_eq_some.mp h
    split at h
    · cases h
      exact moves_workerLoop _
        (fun _ => puts_of_agree (agree_timer rfl rfl rfl) rfl ⟨rfl, rfl, rfl, rfl⟩) rfl (halive rfl)
    · cases h
      exact moves_stop (puts_of_agree (agree_timer rfl rfl rfl) rfl ⟨rfl, rfl, rfl, rfl⟩)
        (halive rfl) (fun h => nomatch h)

/-- What the first `Stop` closed the sockets on is not forgotten. -/
theorem stopped_step {x : StopCause × Outgoing α} (hx : f.stopped = some x)
    (h : step T role f e = some f') : f'.stopped = some x := by
  cases moves_of_step h with
  | stays status running starting refs stopped => rw [stopped, hx]
  | ends c alive loop status running starting refs stopped => rw [stopped, hx]
  | stops c cause alive eof status running starting refs stopped =>
    rw [stopped, hx]
    rfl
  | connects before status running starting refs stopped => rw [stopped, hx]
  | fails event before status running starting refs stopped => rw [stopped, hx]

theorem stopped_exec {x : StopCause × Outgoing α} {run : List (Event α D)} (hx : f.stopped = some x)
    (h : TransitionSystem.exec (step T role) f run = some f') : f'.stopped = some x :=
  TransitionSystem.exec_invariant (fun _ _ _ hx h => stopped_step hx h) hx h

/-! ## What every reachable forwarder satisfies -/

/-- The worker coroutines have been spawned. -/
def Spawned (f : Forwarder α D B) : Prop := f.status .reader ≠ .unborn

/-- How many coroutines with the given statuses hold `spThis`. -/
def holders (status : Coroutine → Status) : Nat :=
  [Coroutine.reader, .writer, .feeder, .timer].countP (fun c => status c = .alive)

theorem holders_returned {status : Coroutine → Status} {c : Coroutine} (h : status c = .alive) :
    holders (Function.update status c .returned) + 1 = holders status := by
  cases c <;> simp [holders, List.countP_cons, Function.update, h] <;> omega

/-- What every reachable forwarder satisfies. -/
structure Life (role : Role) (f : Forwarder α D B) : Prop where
  refs : f.refs = (if f.starting then 1 else 0) + holders f.status
  starting : f.starting = true → role = .server ∧ ¬ f.Spawned
  unspawned : ¬ f.Spawned → (∀ c, f.status c = .unborn) ∧ f.isRunning = none ∧ f.stopped = none
  spawned : f.Spawned → f.isRunning = some f.isOpen ∧
    ∀ c, f.status c = .unborn → c = .timer ∧ role = .client
  running : f.stopped = none → ∀ c, f.status c ≠ .returned

theorem life_started (buffer : B) (alive : Bool) :
    Life role (started (α := α) (D := D) role buffer alive) := by
  cases role with
  | client =>
    refine ⟨rfl, (fun h => nomatch h), fun h => absurd (fun h => nomatch h) h, fun _ => ⟨rfl, ?_⟩, ?_⟩
    · rintro (_ | _ | _ | _) h
      · cases h
      · cases h
      · cases h
      · exact ⟨rfl, rfl⟩
    · rintro - (_ | _ | _ | _) h <;> cases h
  | server =>
    refine ⟨rfl, fun _ => ⟨rfl, fun h => h rfl⟩, fun _ => ⟨?_, rfl, rfl⟩, fun h => absurd rfl h, ?_⟩
    · rintro (_ | _ | _ | _) <;> rfl
    · rintro - (_ | _ | _ | _) h <;> cases h

/-- A coroutine that holds a reference shows that the workers have been spawned. -/
theorem Life.spawned_of_alive (hf : Life role f) {c : Coroutine} (h : f.status c = .alive) :
    f.Spawned := by
  intro hr
  have hun := (hf.unspawned (fun hs => hs hr)).1 c
  rw [h] at hun
  cases hun

/-- Once the workers have been spawned the start coroutine has ended. -/
theorem Life.not_starting (hf : Life role f) (hsp : f.Spawned) : f.starting = false := by
  by_contra h
  exact (hf.starting (Bool.not_eq_false _ |>.mp h)).2 hsp

/-- No coroutine is born by another's end. -/
theorem unborn_of_returned {c c' : Coroutine}
    (hstatus : f'.status = Function.update f.status c .returned) (h : f'.status c' = .unborn) :
    f.status c' = .unborn := by
  by_cases hc : c' = c
  · rw [hstatus, hc, Function.update_self] at h
    cases h
  · rwa [hstatus, Function.update_of_ne hc] at h

/-- The coroutine `c` ends: whatever holds after that holds of `isRunning_` and of
`stopped`. -/
theorem Life.returned (hf : Life role f) {c : Coroutine} (halive : f.status c = .alive)
    (hstatus : f'.status = Function.update f.status c .returned)
    (hstarting : f'.starting = f.starting) (hrefs : f'.refs = f.refs - 1)
    (hrunning : f'.isRunning = some f'.isOpen) (hstopped : f'.stopped ≠ none) : Life role f' := by
  have hsp := hf.spawned_of_alive halive
  have hns := hf.not_starting hsp
  have hsp' : f'.Spawned := fun h => hsp (unborn_of_returned hstatus h)
  refine ⟨?_, ?_, fun h => absurd hsp' h, fun _ => ⟨hrunning, ?_⟩, fun h => absurd h hstopped⟩
  · have h1 := holders_returned halive
    rw [hrefs, hf.refs, hstarting, hns, hstatus]
    simp only [Bool.false_eq_true, if_false]
    omega
  · intro h
    rw [hstarting, hns] at h
    cases h
  · exact fun c' h => (hf.spawned hsp).2 c' (unborn_of_returned hstatus h)

/-- The start coroutine ends without having spawned the others. -/
theorem Life.fails (hf : Life role f) (before : f.starting = true) (status : f'.status = f.status)
    (running : f'.isRunning = f.isRunning) (starting : f'.starting = false)
    (refs : f'.refs = f.refs - 1) (stopped : f'.stopped = f.stopped) : Life role f' := by
  obtain ⟨-, hns⟩ := hf.starting before
  have hns' : ¬ f'.Spawned := by
    rw [Spawned, status]
    exact hns
  refine ⟨?_, ?_, fun _ => ?_, fun h => absurd h hns', ?_⟩
  · rw [refs, hf.refs, starting, before, status]
    simp
  · rw [starting]
    exact fun h => nomatch h
  · rw [status, running, stopped]
    exact hf.unspawned hns
  · rw [status]
    intro _ c h
    rw [(hf.unspawned hns).1 c] at h
    cases h

/-- **Every event keeps the life of a forwarder.** -/
theorem life_step (hf : Life role f) (h : step T role f e = some f') : Life role f' := by
  cases moves_of_step h with
  | stays status running starting refs stopped =>
    have hsp : f'.Spawned ↔ f.Spawned := by rw [Spawned, status, Spawned]
    refine ⟨?_, ?_, ?_, ?_, ?_⟩
    · rw [refs, starting, status, hf.refs]
    · rw [starting, hsp]
      exact hf.starting
    · rw [hsp, status, running, stopped]
      exact hf.unspawned
    · rw [hsp, status, running, isOpen, stopped]
      exact hf.spawned
    · rw [stopped, status]
      exact hf.running
  | ends c alive loop status running starting refs stopped =>
    have hrun := (hf.spawned (hf.spawned_of_alive alive)).1
    have hstop : f'.stopped ≠ none := by
      intro hnone
      rw [stopped] at hnone
      apply loop
      rw [hrun, isOpen, hnone]
      rfl
    refine hf.returned alive status starting refs ?_ hstop
    rw [running, hrun, isOpen, isOpen, stopped]
  | stops c cause alive eof status running starting refs stopped =>
    have hstop : f'.stopped ≠ none := by
      rw [stopped]
      cases f.stopped <;> exact fun h => nomatch h
    refine hf.returned alive status starting refs ?_ hstop
    rw [running, isOpen, Option.isNone_eq_false_iff.mpr (Option.ne_none_iff_isSome.mp hstop)]
  | connects before status running starting refs stopped =>
    obtain ⟨hrole, hns⟩ := hf.starting before
    obtain ⟨hun, -, hstop⟩ := hf.unspawned hns
    have hstatus : f.status = fun _ => .unborn := funext hun
    have hsp : f'.Spawned := by
      rw [Spawned, status]
      exact fun h => nomatch h
    refine ⟨?_, ?_, fun h => absurd hsp h, fun _ => ⟨?_, ?_⟩, ?_⟩
    · rw [refs, hf.refs, starting, before, status, hstatus]
      rfl
    · rw [starting]
      exact fun h => nomatch h
    · rw [running, isOpen, stopped, hstop]
      rfl
    · rw [status]
      exact fun _ h => nomatch h
    · rw [status]
      exact fun _ _ h => nomatch h
  | fails event before status running starting refs stopped =>
    exact hf.fails before status running starting refs stopped

/-- **Every reachable forwarder has a life.** -/
theorem life_exec {buffer : B} {alive : Bool} {run : List (Event α D)}
    (h : TransitionSystem.exec (step T role) (started role buffer alive) run = some f) :
    Life role f :=
  TransitionSystem.exec_invariant (fun _ _ _ hf hstep => life_step hf hstep)
    (life_started buffer alive) h

/-- Nothing holds a reference exactly when no coroutine is left. -/
theorem Life.refs_eq_zero_iff (hf : Life role f) (hsp : f.Spawned) :
    f.refs = 0 ↔ ∀ c, f.status c ≠ .alive := by
  rw [hf.refs, hf.not_starting hsp, holders, if_neg (by decide), Nat.zero_add, List.countP_eq_zero]
  constructor
  · intro h c
    have hc := h c (by cases c <;> decide)
    exact fun halive => hc (decide_eq_true halive)
  · exact fun h c _ hc => h c (of_decide_eq_true hc)

/-- Before `Stop` no coroutine has returned, so one that has been spawned holds a
reference. -/
theorem Life.stopped_of_refs (hf : Life role f) (hsp : f.Spawned) (hrefs : f.refs = 0) :
    f.stopped ≠ none := by
  intro hnone
  have hreturned := hf.running hnone .reader
  cases hs : f.status .reader with
  | unborn => exact hsp hs
  | alive => exact (hf.refs_eq_zero_iff hsp).mp hrefs .reader hs
  | returned => exact hreturned hs

/-- When the destructor runs, `isRunning_` is false, if the workers were spawned. -/
theorem Life.isRunning_of_refs (hf : Life role f) (hsp : f.Spawned) (hrefs : f.refs = 0) :
    f.isRunning = some false := by
  rw [(hf.spawned hsp).1, isOpen,
    Option.isNone_eq_false_iff.mpr (Option.ne_none_iff_isSome.mp (hf.stopped_of_refs hsp hrefs))]

/-- `OnUdpData` does not touch the coroutines. -/
theorem Life.onUdpData (hf : Life role f) (d : D) : Life role (f.onUdpData T d) :=
  ⟨hf.refs, hf.starting, hf.unspawned, hf.spawned, hf.running⟩

/-- **Nothing happens to a forwarder that nothing refers to.** -/
theorem Life.step_eq_none (hf : Life role f) (hrefs : f.refs = 0) (e : Event α D) :
    step T role f e = none := by
  have hholds := hf.refs
  have hns : f.starting = false := by
    by_contra hs
    rw [hrefs, if_pos (Bool.not_eq_false _ |>.mp hs)] at hholds
    omega
  have hdead : ∀ c, f.status c ≠ .alive := by
    by_cases hsp : f.Spawned
    · exact (hf.refs_eq_zero_iff hsp).mp hrefs
    · intro c halive
      exact hsp (hf.spawned_of_alive halive)
  by_contra hne
  obtain ⟨f', h⟩ := Option.ne_none_iff_exists'.mp hne
  cases hc : e.resumes with
  | some c => exact hdead c (alive_of_resumes hc h)
  | none =>
    cases e with
    | connected | connectFailed =>
      exact absurd (Option.ite_none_right_eq_some.mp h).1 (Bool.eq_false_iff.mp hns)
    | onUdpData d =>
      have hpos := (Option.ite_none_right_eq_some.mp h).1.2
      omega
    | transfer n =>
      exact hdead .writer (congrArg Writer.status (Option.ite_none_right_eq_some.mp h).1.1)
    | _ => cases hc

/-- When the last reference goes, either the connect has just failed and `isRunning_` has never
been assigned, or it is false. -/
theorem Life.isRunning_of_dead (hf : Life role f) (h : step T role f e = some f')
    (hrefs : f'.refs = 0) :
    e = .connectFailed ∧ f'.isRunning = none ∨ e ≠ .connectFailed ∧ f'.isRunning = some false := by
  have hnot : f.Spawned → e ≠ .connectFailed := by
    rintro hsp rfl
    have hstarting := (Option.ite_none_right_eq_some.mp h).1
    rw [hf.not_starting hsp] at hstarting
    cases hstarting
  cases moves_of_step h with
  | stays status running starting refs stopped =>
    rw [hf.step_eq_none (refs.symm.trans hrefs) e] at h
    cases h
  | ends c alive loop status running starting refs stopped =>
    have hsp := hf.spawned_of_alive alive
    have hsp' : f'.Spawned := fun h => hsp (unborn_of_returned status h)
    exact Or.inr ⟨hnot hsp, (life_step hf h).isRunning_of_refs hsp' hrefs⟩
  | stops c cause alive eof status running starting refs stopped =>
    exact Or.inr ⟨hnot (hf.spawned_of_alive alive), running⟩
  | connects before status running starting refs stopped => omega
  | fails event before status running starting refs stopped =>
    exact Or.inl ⟨event, running.trans (hf.unspawned (hf.starting before).2).2.1⟩

/-- A failed connect lets the last reference go. -/
theorem Life.refs_of_connectFailed (hf : Life role f)
    (h : step T role f .connectFailed = some f') : f'.refs = 0 := by
  obtain ⟨hstarting, h⟩ := Option.ite_none_right_eq_some.mp h
  cases h
  have hstatus : f.status = fun _ => .unborn :=
    funext (hf.unspawned (hf.starting hstarting).2).1
  show f.refs - 1 = 0
  rw [hf.refs, hstarting, hstatus]
  rfl

/-! ## Before the connect -/

/-- The kcp to tcp coroutine has been spawned: on the server, the TCP connect has
succeeded. -/
def Connected (f : Forwarder α D B) : Prop := f.writer ≠ .unborn

/-- From `f` to `f'` the forwarder stays connected, and sends nothing if it is not. -/
structure Mute (f f' : Forwarder α D B) : Prop where
  connected : f.Connected → f'.Connected
  silent : ¬ f'.Connected → f'.emitted = f.emitted

theorem mute_onUdpData (f : Forwarder α D B) (d : D) : Mute f (f.onUdpData T d) :=
  ⟨id, fun _ => rfl⟩

theorem mute_of_connected (h : f'.Connected) : Mute f f' := ⟨fun _ => h, fun hn => absurd h hn⟩

theorem connected_drain (f : Forwarder α D B) : f.drain.Connected := by
  unfold drain
  dsimp only
  split <;> exact fun h => nomatch h

theorem connected_writerLoop (f : Forwarder α D B) : (f.writerLoop T).Connected := by
  unfold writerLoop
  split
  · exact connected_drain _
  · exact fun h => nomatch h

/-- **Nothing is sent before the connect.** -/
theorem mute_step (h : step T role f e = some f') : Mute f f' := by
  cases hwork : e.work T f.toDataPath with
  | some p =>
    have hsame := sameWork_step T hwork h
    refine ⟨fun hf => ?_, fun _ => ?_⟩
    · rw [Connected, hsame.writer]
      exact hf
    · exact (congrArg DataPath.emitted hsame.dataPath).trans (work_frame T hwork h).2.2.2
  | none =>
    cases e with
    | connected | writeAgain | writeError | retry =>
      obtain ⟨-, h⟩ := Option.ite_none_right_eq_some.mp h
      cases h
      exact mute_of_connected (fun h => nomatch h)
    | writerRun now | tick now =>
      obtain ⟨-, h⟩ := Option.ite_none_right_eq_some.mp h
      cases h
      exact mute_of_connected (connected_writerLoop _)
    | writeOk =>
      obtain ⟨-, h⟩ := Option.ite_none_right_eq_some.mp h
      cases h
      exact mute_of_connected (connected_drain f)
    | connectFailed | transfer n =>
      -- neither the kcp to tcp coroutine nor what has been sent changes
      obtain ⟨-, h⟩ := Option.ite_none_right_eq_some.mp h
      cases h
      exact ⟨id, fun _ => rfl⟩
    | _ => cases hwork

end Forwarder
end FlexProxy
