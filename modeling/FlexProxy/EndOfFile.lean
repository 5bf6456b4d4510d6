import FlexProxy.Datagram
import FlexProxy.Lifecycle
import FlexProxy.Link

/-! # End of file

When its TCP peer closes the connection, a forwarder calls `Stop` at once: the
branch that handles errors of `async_receive` is the one that handles the end of
file.  `Stop` closes the UDP socket, so what is still queued or not acknowledged
is not sent any more.

Hence data is cut off unless the end of file comes when nothing is waiting.
`eof_drained_iff` says that this is exactly when it is not, for runs with any
datagrams: the count of what is waiting is the one `ikcp_waitsnd` gives.
-/
namespace FlexProxy
open TransitionSystem

namespace Forwarder
variable {α D B : Type} {T : Transport α D B} {Carries : D → List (WireSeg α) → Prop}
  {role : Role} {f f' : Forwarder α D B} {e : Event α D}

/-! ## Runs with any datagrams -/

/-- What holds of a forwarder whatever datagrams reach it. -/
structure Alone (f : Forwarder α D B) : Prop where
  calm : f.Calm True
  sender : Sender f.toDataPath

theorem alone_started (buffer : B) (alive : Bool) :
    (started (α := α) (D := D) role buffer alive).Alone where
  calm := calm_started role True buffer alive
  sender := (fresh_started role buffer alive).sender

theorem alone_step (hT : Lawful T Carries) (hf : f.Alone) (h : step T role f e = some f') :
    f'.Alone := by
  have harr : ∀ d, e.datagram = some d → (fun _ : D => True) d := fun _ _ => trivial
  obtain ⟨hcalm, hsteps⟩ := step_dataPath T hf.calm (fun _ => trivial) harr h
  exact ⟨hcalm, sender_steps hT hf.sender hsteps⟩

/-- `ikcp_waitsnd` counts what is waiting, as long as the count does not overflow. -/
theorem waitsnd_eq_zero_iff {p : DataPath α D B} (hp : Sender p) :
    (ikcpWaitsnd p.kcp = 0 ∧ p.kcp.sndQueue.length + p.kcp.sndBuf.length < 2 ^ 32) ↔
      p.kcp.sndQueue = [] ∧ p.kcp.sndBuf = [] := by
  have hq : p.kcp.nsndQue = UInt32.ofNat p.kcp.sndQueue.length := hp.sends.nsndQue
  have hb : p.kcp.nsndBuf = UInt32.ofNat p.kcp.sndBuf.length :=
    hp.sends.nsndBuf.trans (congrArg UInt32.ofNat (List.length_map _))
  rw [ikcpWaitsnd, hq, hb, ← UInt32.ofNat_add]
  constructor
  · rintro ⟨hzero, hlt⟩
    have hword : UInt32.ofNat (p.kcp.sndBuf.length + p.kcp.sndQueue.length) = UInt32.ofNat 0 :=
      congrArg Int32.toUInt32 hzero
    have hlen := (SerialNumber.ofNat_inj (by omega) (by decide)).mp hword
    exact ⟨List.length_eq_zero_iff.mp (by omega), List.length_eq_zero_iff.mp (by omega)⟩
  · rintro ⟨hnq, hnb⟩
    rw [hnq, hnb]
    exact ⟨rfl, Nat.two_pow_pos 32⟩

/-! ## Stopping at end of file -/

/-- If the first call of `Stop` was the one at a clean end of file, everything read
before it had been sent and acknowledged. -/
def EofDrained (f : Forwarder α D B) : Prop :=
  ∀ o, f.stopped = some (.tcpEof, o) → o.sndQueue = [] ∧ o.sndBuf = []

/-- An end of file that is the first reason to call `Stop` comes when, by
`ikcp_waitsnd`, nothing is waiting to be sent or acknowledged. -/
def NothingWaitsAtEof (f : Forwarder α D B) (e : Event α D) : Prop :=
  e = .tcpEof → f.stopped = none →
    ikcpWaitsnd f.kcp = 0 ∧ f.kcp.sndQueue.length + f.kcp.sndBuf.length < 2 ^ 32

/-- What an end of file leaves behind. -/
theorem stopped_tcpEof (h : step T role f .tcpEof = some f') (hnone : f.stopped = none) :
    f'.stopped = some (.tcpEof, f.kcp.outgoing) := by
  obtain ⟨-, h⟩ := Option.ite_none_right_eq_some.mp h
  cases h
  show f.stopped.or (some (.tcpEof, f.kcp.outgoing)) = _
  rw [hnone]
  rfl

/-- One event that meets the condition cuts nothing off. -/
theorem eofDrained_step (hf : f.Alone) (hd : f.EofDrained) (he : NothingWaitsAtEof f e)
    (h : step T role f e = some f') : f'.EofDrained := by
  intro o ho
  cases hstop : f.stopped with
  | some x =>
    rw [stopped_step hstop h] at ho
    cases ho
    exact hd o hstop
  | none =>
    cases moves_of_step h with
    | stops c cause alive eof status running starting refs stopped =>
      rw [stopped, hstop] at ho
      cases ho
      obtain ⟨hq, hb⟩ := (waitsnd_eq_zero_iff hf.sender).mp (he (eof rfl) hstop)
      refine ⟨hq, ?_⟩
      show f.kcp.sndBuf.map IkcpSeg.key = []
      rw [hb]
      rfl
    | stays status running starting refs stopped =>
      rw [stopped, hstop] at ho
      cases ho
    | ends c alive loop status running starting refs stopped =>
      rw [stopped, hstop] at ho
      cases ho
    | connects before status running starting refs stopped =>
      rw [stopped, hstop] at ho
      cases ho
    | fails event before status running starting refs stopped =>
      rw [stopped, hstop] at ho
      cases ho

theorem eofDrained_iff_along (hT : Lawful T Carries) {run : List (Event α D)} (hf : f.Alone)
    (hd : f.EofDrained) (hrun : exec (step T role) f run = some f') :
    f'.EofDrained ↔ Along (step T role) NothingWaitsAtEof f run := by
  induction run generalizing f with
  | nil =>
    cases hrun
    exact ⟨fun _ => trivial, fun _ => hd⟩
  | cons e run ih =>
    obtain ⟨g, hg, hrest⟩ := exec_cons_eq_some.mp hrun
    have halone := alone_step hT hf hg
    by_cases he : NothingWaitsAtEof f e
    · rw [ih halone (eofDrained_step hf hd he hg) hrest]
      constructor
      · refine fun h => ⟨he, fun s' hs' => ?_⟩
        cases hg.symm.trans hs'
        exact h
      · exact fun h => h.2 g hg
    · -- the end of file comes while something waits, and that is not forgotten
      refine ⟨fun hdrained => ?_, fun h => absurd h.1 he⟩
      refine absurd (fun heof hnone => ?_) he
      subst heof
      have hstop := stopped_exec (stopped_tcpEof hg hnone) hrest
      obtain ⟨hq, hb⟩ := hdrained _ hstop
      exact (waitsnd_eq_zero_iff hf.sender).mpr ⟨hq, List.map_eq_nil_iff.mp hb⟩

/-- **Data is cut off at end of file exactly when something waits.**  In every run of
either forwarder, with any datagrams and any interleaving: the first `Stop`, if it
was called at a clean end of file, found both queues empty, if and only if
`ikcp_waitsnd` was zero when the end of file was received. -/
theorem eof_drained_iff (checkSum : Bool) (role : Role) (buffer : List UInt8) (alive : Bool)
    (run : List (Event UInt8 (List UInt8))) (f : Forwarder UInt8 (List UInt8) (List UInt8))
    (hrun : exec (step (udp checkSum) role) (started role buffer alive) run = some f) :
    f.EofDrained ↔
      Along (step (udp checkSum) role) NothingWaitsAtEof (started role buffer alive) run :=
  eofDrained_iff_along (lawful_udp checkSum) (alone_started buffer alive)
    (fun _ h => nomatch h) hrun

/-- One byte is read, sent and acknowledged. -/
def quietRun : List (Event UInt8 (List UInt8)) :=
  [.readerRun, .tcpData [1], .writerRun 5, .feederRun,
    .udpData (datagramOf [segmentOf 82 1024 5 0 1 []])]

/-- When it has been acknowledged nothing waits. -/
theorem quietRun_idle :
    (exec (step (udp true) .client) (started .client [] true) quietRun).map
      (fun f => (ikcpWaitsnd f.kcp, f.kcp.sndQueue.length + f.kcp.sndBuf.length)) =
        some (0, 0) := by
  decide +kernel

theorem quietRun_along :
    Along (step (udp true) .client) NothingWaitsAtEof (started .client [] true)
      (quietRun ++ [.tcpEof]) := by
  have hbefore : ∀ e ∈ quietRun, e ≠ .tcpEof := by simp [quietRun]
  refine along_append ((along_of_forall _ hbefore).imp (fun _ _ he heof => absurd heof he)) ?_
  intro f hf
  have hidle := quietRun_idle
  rw [hf] at hidle
  obtain ⟨hcount, hlength⟩ := Prod.mk.inj (Option.some.inj hidle)
  exact ⟨fun _ _ => ⟨hcount, by rw [hlength]; decide⟩, fun _ _ => trivial⟩

theorem quietRun_seen :
    (exec (step (udp true) .client) (started .client [] true)
      (quietRun ++ [.tcpEof])).map (fun f => (f.read, f.emitted, f.stopped.isSome)) =
        some ([[1]], [datagramOf [segmentOf 81 1024 5 0 0 [1]]], true) := by
  decide +kernel

/-- Then the connection is closed. -/
theorem eof_drained_quiet :
    ∃ f : Forwarder UInt8 (List UInt8) (List UInt8),
      exec (step (udp true) .client) (started .client [] true) (quietRun ++ [.tcpEof]) = some f ∧
      f.read = [[1]] ∧ f.emitted = [datagramOf [segmentOf 81 1024 5 0 0 [1]]] ∧
      f.stopped.isSome ∧ f.EofDrained := by
  obtain ⟨f, hrun, hobs⟩ := Option.map_eq_some_iff.mp quietRun_seen
  simp only [Prod.mk.injEq] at hobs
  obtain ⟨hread, hsent, hstopped⟩ := hobs
  have hiff := eof_drained_iff true .client [] true (quietRun ++ [.tcpEof]) f
  exact ⟨f, hrun, hread, hsent, hstopped, (hiff hrun).mpr quietRun_along⟩

/-- One byte is read and the connection closed. -/
def cutRun : Role → List (Event UInt8 (List UInt8))
  | .client => [.readerRun, .tcpData [1], .tcpEof]
  | .server => [.connected, .readerRun, .tcpData [1], .tcpEof]

/-- A byte that was read is in `snd_queue` when the UDP socket is closed. -/
theorem eof_not_drained :
    (∃ f : Forwarder UInt8 (List UInt8) (List UInt8),
      exec (step (udp true) .client) (started .client [] true) (cutRun .client) = some f ∧
      ¬ f.EofDrained) ∧
    (∃ f : Forwarder UInt8 (List UInt8) (List UInt8),
      exec (step (udp true) .server) (started .server [] true) (cutRun .server) = some f ∧
      ¬ f.EofDrained) := by
  refine ⟨⟨_, rfl, fun h => ?_⟩, ⟨_, rfl, fun h => ?_⟩⟩ <;>
  · have hqueue := (h _ rfl).1
    exact absurd hqueue (by decide)

end Forwarder
end FlexProxy
