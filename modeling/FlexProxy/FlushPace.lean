import FlexProxy.KcpSchedule
import FlexProxy.Forwarder
import FlexProxy.WellFormed

/-! # The pace of the flushes

The kcp to tcp coroutine calls `ikcp_update` on every turn, however often it is resumed.  The
flush timer makes of this a flush every 10 ms: each flush moves the timer on by `interval` at
least, and to at most `interval` from now (`Paced.update`).  So flushes neither come in bursts,
nor is one left out when its time has come (`flush_pace`).
-/
namespace FlexProxy
open TransitionSystem
variable {α : Type}

/-! ## The timer -/

section Timer
variable {kcp : Ikcpcb α} {current : UInt32}

/-- What a flush sets the timer to. -/
theorem tsFlush_due (h : Due kcp current) :
    (updateClock kcp current).1.tsFlush = current + kcp.interval ∨
    (kcp.updated ≠ 0 ∧ 0 ≤ itimediff current kcp.tsFlush ∧
      itimediff current kcp.tsFlush < 10000 ∧
      itimediff current (kcp.tsFlush + kcp.interval) < 0 ∧
      (updateClock kcp current).1.tsFlush = kcp.tsFlush + kcp.interval) := by
  have hself : itimediff current current = 0 := SerialNumber.diff_self _
  -- the flush timer is set anew
  have hanew : ∀ k : Ikcpcb α, k.current = current →
      nextFlush k current = current + k.interval := by
    intro k hk
    unfold nextFlush
    rw [hk]
    split_ifs
    · rfl
    · rfl
  unfold updateClock startClock
  by_cases hu : kcp.updated = 0
  · simp only [if_pos hu, hself]
    exact Or.inl (hanew _ rfl)
  · simp only [if_neg hu]
    by_cases hlate : itimediff current kcp.tsFlush ≥ 10000 ∨ itimediff current kcp.tsFlush < -10000
    · simp only [if_pos hlate]
      exact Or.inl (hanew _ rfl)
    · have hrange := h.resolve_left hu
      have hslap : itimediff current kcp.tsFlush ≥ 0 := by omega
      simp only [if_neg hlate, if_pos hslap, nextFlush]
      split_ifs with hpast
      · exact Or.inl rfl
      · exact Or.inr ⟨hu, hslap, by omega, by omega, rfl⟩

end Timer

/-- The flush timer stands at `T`, which is at most 10 s ahead; or it has not been started, and
`T` is some time before. -/
structure Paced (kcp : Ikcpcb α) (now T : Nat) : Prop where
  timer : kcp.updated ≠ 0 → kcp.tsFlush = UInt32.ofNat T
  ahead : T ≤ now + 10000
  unset : kcp.updated = 0 → T ≤ now

section Paced
variable {kcp : Ikcpcb α} {now t T : Nat}

theorem Paced.congr (h : Paced kcp now T) {kcp' : Ikcpcb α}
    (htimer : kcp'.clock.2 = kcp.clock.2) (hle : now ≤ t) : Paced kcp' t T where
  timer := by
    have hu : kcp'.updated = kcp.updated := congrArg Prod.fst htimer
    have hts : kcp'.tsFlush = kcp.tsFlush := congrArg Prod.snd htimer
    rw [hu, hts]
    exact h.timer
  ahead := Nat.le_trans h.ahead (Nat.add_le_add_right hle _)
  unset := fun hu =>
    Nat.le_trans (h.unset ((congrArg Prod.fst htimer).symm.trans hu)) hle

/-- A flush is due only when the timer has run out. -/
theorem Paced.le_of_due (h : Paced kcp now T) (hle : now ≤ t) (hdue : Due kcp (UInt32.ofNat t)) :
    T ≤ t := by
  by_cases hu : kcp.updated = 0
  · exact Nat.le_trans (h.unset hu) hle
  · by_contra hlt
    have hrange := hdue.resolve_left hu
    have hahead := h.ahead
    have hdiff : itimediff (UInt32.ofNat t) (UInt32.ofNat T) = (t : Int) - T :=
      SerialNumber.diff_ofNat (by omega) (by omega)
    rw [h.timer hu, hdiff] at hrange
    omega

/-- The timer moves on by `interval`, from a time not in the future. -/
theorem exists_timer {d i : Nat} (hdiff : itimediff (UInt32.ofNat t) (UInt32.ofNat T) = d)
    (hd : d < 10000) (hi : i ≤ 5000) (hT : T ≤ t)
    (hneg : itimediff (UInt32.ofNat t) (UInt32.ofNat (T + i)) < 0) :
    ∃ T', UInt32.ofNat T' = UInt32.ofNat (T + i) ∧ T + i ≤ T' ∧ t < T' ∧ T' ≤ t + i := by
  have hmod : ((t : Int) - T) % 2 ^ 32 = d := by
    have hbmod := Int.bmod_def ((t : Int) - T) (2 ^ 32)
    rw [(SerialNumber.diff_eq_bmod t T).symm.trans hdiff] at hbmod
    simp only [Nat.reducePow] at hbmod
    split_ifs at hbmod <;> omega
  have hlt : d < i := by
    have hword : itimediff (UInt32.ofNat t) (UInt32.ofNat (T + i)) =
        ((t : Int) - (T + i : Nat)).bmod (2 ^ 32) := SerialNumber.diff_eq_bmod t (T + i)
    have hbmod := Int.bmod_def ((t : Int) - (T + i : Nat)) (2 ^ 32)
    rw [← hword] at hbmod
    simp only [Nat.reducePow] at hbmod
    split_ifs at hbmod <;> omega
  refine ⟨t + (i - d), ?_, by omega, by omega, by omega⟩
  apply UInt32.toNat_inj.mp
  simp only [UInt32.toNat_ofNat', Nat.reducePow]
  omega

/-- **What one call of `ikcp_update` does to the timer.** -/
theorem Paced.update (h : Paced kcp now T) (hle : now ≤ t) (hpos : 0 < kcp.interval.toNat)
    (hint : kcp.interval.toNat ≤ 5000) :
    ((updateClock kcp (UInt32.ofNat t)).2 = false ∧
      Paced (updateClock kcp (UInt32.ofNat t)).1 t T) ∨
    ∃ T', (updateClock kcp (UInt32.ofNat t)).2 = true ∧
      Paced (updateClock kcp (UInt32.ofNat t)).1 t T' ∧
      T + kcp.interval.toNat ≤ T' ∧ t < T' ∧ T' ≤ t + kcp.interval.toNat := by
  by_cases hdue : Due kcp (UInt32.ofNat t)
  · have hT := h.le_of_due hle hdue
    have hu := updated_updateClock kcp (UInt32.ofNat t)
    have hword : UInt32.ofNat kcp.interval.toNat = kcp.interval := UInt32.ofNat_toNat
    rcases tsFlush_due hdue with hts | ⟨hset, hlow, hhigh, hneg, hts⟩
    · refine Or.inr ⟨t + kcp.interval.toNat, updateClock_due hdue,
        ⟨?_, by omega, fun h0 => absurd h0 hu⟩, by omega, by omega, Nat.le_refl _⟩
      intro _
      rw [hts, UInt32.ofNat_add, hword]
    · have hnext : kcp.tsFlush + kcp.interval = UInt32.ofNat (T + kcp.interval.toNat) := by
        rw [h.timer hset, UInt32.ofNat_add, hword]
      rw [h.timer hset] at hlow hhigh
      rw [hnext] at hneg hts
      obtain ⟨T', htimer, hadd, hlt, hmax⟩ :=
        exists_timer (d := (itimediff (UInt32.ofNat t) (UInt32.ofNat T)).toNat) (by omega)
          (by omega) hint hT hneg
      exact Or.inr ⟨T', updateClock_due hdue,
        ⟨fun _ => hts.trans htimer.symm, by omega, fun h0 => absurd h0 hu⟩, hadd, hlt, hmax⟩
  · rw [updateClock_not_due hdue]
    exact Or.inl ⟨rfl, h.congr rfl hle⟩

end Paced

/-! ## The coroutines -/

section Update
variable {B : Type} (sink : Sink α B) (kcp : Ikcpcb α) (b : B)

theorem clock_ikcpFlush : (ikcpFlush sink kcp b).1.clock = kcp.clock := by
  by_cases hu : kcp.updated = 0
  · have h : ikcpFlush sink kcp b = (kcp, b) := if_pos hu
    rw [h]
  · obtain ⟨_, _, _, _, _, _, _, _, _, _, _, h⟩ := ikcpFlush_writes sink kcp b hu
    rw [h]
    rfl

theorem clock_ikcpUpdate (current : UInt32) :
    (ikcpUpdate sink kcp b current).1.clock = (updateClock kcp current).1.clock := by
  unfold ikcpUpdate
  dsimp only
  split_ifs
  · exact clock_ikcpFlush sink _ b
  · rfl

end Update

section Input
variable (kcp : Ikcpcb α)

theorem clock_inputUna (w : WireSeg α) : (inputUna kcp w).clock = kcp.clock := by
  obtain ⟨buf, nbuf, una, h⟩ := inputUna_writes kcp w
  rw [h]
  rfl

theorem clock_inputSeg (acc : InputAcc) (w : WireSeg α) :
    (inputSeg kcp acc w).1.clock = kcp.clock := by
  unfold inputSeg
  dsimp only
  split_ifs
  · obtain ⟨rttval, srtt, rto, buf, nbuf, una, h⟩ := inputAck_writes (inputUna kcp w) w
    rw [h]
    exact clock_inputUna kcp w
  · obtain ⟨acks, buf, nbuf, queue, nque, nxt, h⟩ := inputPush_writes (inputUna kcp w) w
    rw [h]
    exact clock_inputUna kcp w
  · exact clock_inputUna kcp w
  · exact clock_inputUna kcp w

theorem clock_inputLoop (prevUna : UInt32) (segs : List (WireSeg α)) (acc : InputAcc) :
    (inputLoop prevUna segs kcp acc).1.clock = kcp.clock := by
  induction segs generalizing kcp acc with
  | nil =>
    obtain ⟨buf, cwnd, incr, -, h⟩ := inputEnd_writes kcp prevUna acc
    show (inputEnd prevUna kcp acc).clock = _
    rw [h]
    rfl
  | cons w rest ih =>
    unfold inputLoop
    split_ifs
    · rfl
    · rfl
    · rw [ih, clock_inputSeg]

theorem clock_inputSegs (segs : List (WireSeg α)) :
    (inputSegs kcp segs).1.clock = kcp.clock := by
  unfold inputSegs
  split
  · rfl
  · exact clock_inputLoop kcp _ _ _

end Input

namespace Forwarder
variable {D B : Type} {T : Transport α D B} {Carries : D → List (WireSeg α) → Prop} {role : Role}
  {f f' : Forwarder α D B}

/-- The event makes the kcp to tcp coroutine flush. -/
def flushes (f : Forwarder α D B) : Event α D → Bool
  | .writerRun now | .tick now =>
    decide (f.isRunning = some true) && (updateClock f.kcp (UInt32.ofNat now)).2
  | _ => false

/-- What only the kcp to tcp coroutine changes: its clock, that of the control block, and what
has been sent. -/
def pace (f : Forwarder α D B) : Nat × (UInt32 × UInt32 × UInt32) × List D :=
  (f.now, f.kcp.clock, f.emitted)

theorem pace_workerLoop {put : Worker → Forwarder α D B} {live : Bool}
    {x : Nat × (UInt32 × UInt32 × UInt32) × List D} (hput : ∀ w, (put w).pace = x) :
    (f.workerLoop put live).pace = x := by
  unfold workerLoop
  split_ifs
  · exact hput _
  · exact hput _

theorem pace_drain (f : Forwarder α D B) : f.drain.pace = f.pace := by
  have hrecv : (f.now, f.toDataPath.recv.1.kcp.clock, f.emitted) = f.pace :=
    congrArg (fun c => (f.now, c, f.emitted)) (clock_ikcpRecv _ _)
  unfold drain
  dsimp only
  split_ifs
  · exact hrecv
  · exact hrecv

theorem pace_feed (hT : Lawful T Carries) (f : Forwarder α D B) (d : D) :
    (f.now, (f.toDataPath.feed T d).kcp.clock, f.emitted) = f.pace := by
  obtain ⟨segs, hfeed⟩ := hT.feeds f.kcp d
  have hkcp : (f.toDataPath.feed T d).kcp = (inputSegs f.kcp segs).1 := hfeed
  rw [hkcp, clock_inputSegs]
  rfl

/-- The data path after the update in a turn of the kcp to tcp coroutine. -/
def turned (T : Transport α D B) (f : Forwarder α D B) (now : Nat) : DataPath α D B :=
  if f.isRunning = some true then f.toDataPath.update T (UInt32.ofNat now) f.isOpen
  else f.toDataPath

theorem pace_writerLoop (f : Forwarder α D B) (now : Nat) :
    ({ f with now := now }.writerLoop T).pace =
      (now, (f.turned T now).kcp.clock, (f.turned T now).emitted) := by
  unfold writerLoop turned
  by_cases hrun : f.isRunning = some true
  · rw [if_pos hrun, if_pos hrun, pace_drain]
    rfl
  · rw [if_neg hrun, if_neg hrun]
    rfl

/-- An update sets the clock as `ikcp_update` does. -/
theorem clock_turned (hT : Lawful T Carries) (hrun : f.isRunning = some true) (now : Nat) :
    (f.turned T now).kcp.clock = (updateClock f.kcp (UInt32.ofNat now)).1.clock := by
  have hupdate : (f.toDataPath.update T (UInt32.ofNat now) f.isOpen).kcp =
      (ikcpUpdate listSink f.kcp [] (UInt32.ofNat now)).1 := hT.update _ _ _
  unfold turned
  rw [if_pos hrun, hupdate, clock_ikcpUpdate]

/-- **What one event does to the clocks.** -/
theorem pace_step (hT : Lawful T Carries) {e : Event α D} (h : step T role f e = some f') :
    (∃ now, (e = .writerRun now ∧ f.writer = .spawned ∨ e = .tick now ∧ f.now ≤ now) ∧
      f'.pace = (now, (f.turned T now).kcp.clock, (f.turned T now).emitted)) ∨
    (f.flushes e = false ∧ f'.pace = f.pace) := by
  cases e with
  | writerRun now =>
    obtain ⟨hw, h⟩ := Option.ite_none_right_eq_some.mp h
    cases h
    exact Or.inl ⟨now, Or.inl ⟨rfl, hw⟩, pace_writerLoop f now⟩
  | tick now =>
    obtain ⟨⟨-, hle⟩, h⟩ := Option.ite_none_right_eq_some.mp h
    cases h
    exact Or.inl ⟨now, Or.inr ⟨rfl, hle⟩, pace_writerLoop f now⟩
  | connected | connectFailed | transfer n | writeAgain | retry =>
    obtain ⟨-, h⟩ := Option.ite_none_right_eq_some.mp h
    cases h
    exact Or.inr ⟨rfl, rfl⟩
  | onUdpData d =>
    obtain ⟨-, h⟩ := Option.ite_none_right_eq_some.mp h
    cases h
    exact Or.inr ⟨rfl, pace_feed hT f d⟩
  | readerRun | tcpAgain | feederRun | udpAgain | timerRun =>
    obtain ⟨-, h⟩ := Option.ite_none_right_eq_some.mp h
    cases h
    exact Or.inr ⟨rfl, pace_workerLoop fun _ => rfl⟩
  | tcpData chunk =>
    obtain ⟨-, h⟩ := Option.ite_none_right_eq_some.mp h
    cases h
    refine Or.inr ⟨rfl, pace_workerLoop fun _ => ?_⟩
    exact congrArg (fun c => (f.now, c, f.emitted)) (clock_ikcpSend f.kcp chunk)
  | udpData d =>
    obtain ⟨-, h⟩ := Option.ite_none_right_eq_some.mp h
    cases h
    exact Or.inr ⟨rfl, pace_workerLoop fun _ => pace_feed hT f d⟩
  | writeOk =>
    obtain ⟨-, h⟩ := Option.ite_none_right_eq_some.mp h
    cases h
    exact Or.inr ⟨rfl, pace_drain f⟩
  | tcpEof | tcpReadError | writeError | udpError =>
    obtain ⟨-, h⟩ := Option.ite_none_right_eq_some.mp h
    cases h
    exact Or.inr ⟨rfl, rfl⟩
  | expire =>
    obtain ⟨-, h⟩ := Option.ite_none_right_eq_some.mp h
    split at h
    · cases h
      exact Or.inr ⟨rfl, pace_workerLoop fun _ => rfl⟩
    · cases h
      exact Or.inr ⟨rfl, rfl⟩

/-- Before its first turn the kcp to tcp coroutine has not read the clock. -/
def Unread (f : Forwarder α D B) : Prop :=
  f.writer = .unborn ∨ f.writer = .spawned → f.now = 0

theorem unread_drain (f : Forwarder α D B) : f.drain.Unread := by
  intro hw
  unfold drain at hw
  dsimp only at hw
  split_ifs at hw
  · rcases hw with hw | hw <;> cases hw
  · rcases hw with hw | hw <;> cases hw

theorem unread_writerLoop (f : Forwarder α D B) : (f.writerLoop T).Unread := by
  unfold writerLoop
  split_ifs
  · exact unread_drain _
  · intro hw
    rcases hw with hw | hw <;> cases hw

theorem unread_step (hT : Lawful T Carries) (hcalm : f.Calm True) (hf : f.Unread)
    {e : Event α D} (h : step T role f e = some f') : f'.Unread := by
  cases hwork : e.work T f.toDataPath with
  | some p =>
    have hwriter : f'.writer = f.writer := (sameWork_step T hwork h).writer
    have hnow : f'.now = f.now := by
      rcases pace_step hT h with ⟨now, ⟨rfl, -⟩ | ⟨rfl, -⟩, -⟩ | ⟨-, hpace⟩
      · cases hwork
      · cases hwork
      · exact congrArg Prod.fst hpace
    unfold Unread
    rw [hwriter, hnow]
    exact hf
  | none =>
    cases e with
    | connected =>
      obtain ⟨hs, h⟩ := Option.ite_none_right_eq_some.mp h
      cases h
      exact fun _ => hf (Or.inl (hcalm.starting hs).2)
    | connectFailed | transfer n =>
      obtain ⟨-, h⟩ := Option.ite_none_right_eq_some.mp h
      cases h
      exact hf
    | writerRun now | tick now =>
      obtain ⟨-, h⟩ := Option.ite_none_right_eq_some.mp h
      cases h
      exact unread_writerLoop _
    | writeOk =>
      obtain ⟨-, h⟩ := Option.ite_none_right_eq_some.mp h
      cases h
      exact unread_drain f
    | writeAgain | writeError | retry =>
      obtain ⟨-, h⟩ := Option.ite_none_right_eq_some.mp h
      cases h
      intro hw
      rcases hw with hw | hw <;> cases hw
    | _ => cases hwork

/-! ## Runs -/

/-- A forwarder between two events, whose flush timer stands at `τ`. -/
structure Timed (f : Forwarder α D B) (τ : Nat) : Prop where
  calm : f.Calm True
  sender : Sender f.toDataPath
  unread : f.Unread
  paced : Paced f.kcp f.now τ

theorem timed_started (role : Role) (buffer : B) (alive : Bool) :
    (started (α := α) (D := D) role buffer alive).Timed 0 where
  calm := calm_started role True buffer alive
  sender := (fresh_started role buffer alive).sender
  unread := fun _ => rfl
  paced := ⟨fun hu => absurd rfl hu, Nat.zero_le _, fun _ => Nat.le_refl _⟩

/-- **One event.**  The flush timer stays, or it is moved on by a flush: by 10 ms at least, and
to at most 10 ms from now. -/
theorem timed_step (hT : Lawful T Carries) {τ : Nat} (hf : f.Timed τ) {e : Event α D}
    (h : step T role f e = some f') :
    f.now ≤ f'.now ∧
    ((f.flushes e = false ∧ f'.Timed τ) ∨
      ∃ τ', f.flushes e = true ∧ f'.Timed τ' ∧ τ + 10 ≤ τ' ∧ f'.now < τ' ∧ τ' ≤ f'.now + 10) := by
  have hretries : e = .writeAgain → True := fun _ => trivial
  have harrives : ∀ d, e.datagram = some d → (fun _ => True) d := fun _ _ => trivial
  obtain ⟨hcalm, hsteps⟩ := step_dataPath T hf.calm hretries harrives h
  have hsender := sender_steps hT hf.sender hsteps
  have hunread := unread_step hT hf.calm hf.unread h
  rcases pace_step hT h with ⟨now, hevent, hpace⟩ | ⟨hno, hpace⟩
  · have hnow : f'.now = now := congrArg Prod.fst hpace
    have htimer : f'.kcp.clock = (f.turned T now).kcp.clock := congrArg (fun x => x.2.1) hpace
    have hle : f.now ≤ now := by
      rcases hevent with ⟨-, hw⟩ | ⟨-, hle⟩
      · rw [hf.unread (Or.inr hw)]
        exact Nat.zero_le _
      · exact hle
    have hflushes : f.flushes e =
        (decide (f.isRunning = some true) && (updateClock f.kcp (UInt32.ofNat now)).2) := by
      rcases hevent with ⟨rfl, -⟩ | ⟨rfl, -⟩
      · rfl
      · rfl
    rw [hnow]
    refine ⟨hle, ?_⟩
    by_cases hrun : f.isRunning = some true
    · have hinterval : f.kcp.interval = 10 := congrArg Config.interval hf.sender.config
      have hkcp : ∀ τ', Paced (updateClock f.kcp (UInt32.ofNat now)).1 now τ' →
          Paced f'.kcp f'.now τ' := by
        intro τ' hpaced
        rw [hnow]
        exact hpaced.congr (congrArg Prod.snd (htimer.trans (clock_turned hT hrun now)))
          (Nat.le_refl _)
      rw [decide_eq_true hrun, Bool.true_and] at hflushes
      have hpos : 0 < f.kcp.interval.toNat := by rw [hinterval]; decide
      have hint : f.kcp.interval.toNat ≤ 5000 := by rw [hinterval]; decide
      rcases hf.paced.update hle hpos hint with ⟨hno, hpaced⟩ | ⟨τ', hdue, hpaced, hadd, hlt, hmax⟩
      · exact Or.inl ⟨hflushes.trans hno, hcalm, hsender, hunread, hkcp τ hpaced⟩
      · rw [hinterval] at hadd hmax
        exact Or.inr ⟨τ', hflushes.trans hdue, ⟨hcalm, hsender, hunread, hkcp τ' hpaced⟩, hadd,
          hlt, hmax⟩
    · have hturned : f.turned T now = f.toDataPath := if_neg hrun
      refine Or.inl ⟨?_, hcalm, hsender, hunread, ?_⟩
      · rw [hflushes, decide_eq_false hrun]
        rfl
      · rw [hnow]
        rw [hturned] at htimer
        exact hf.paced.congr (congrArg Prod.snd htimer) hle
  · have hnow : f'.now = f.now := congrArg Prod.fst hpace
    have htimer : f'.kcp.clock = f.kcp.clock := congrArg (fun x => x.2.1) hpace
    refine ⟨Nat.le_of_eq hnow.symm, Or.inl ⟨hno, hcalm, hsender, hunread, ?_⟩⟩
    exact hf.paced.congr (congrArg Prod.snd htimer) (Nat.le_of_eq hnow.symm)

/-- **No bursts**: from a state whose flush timer stands at `τ`. -/
theorem Timed.flushes_le (hT : Lawful T Carries) {τ : Nat} (hf : f.Timed τ)
    {es : List (Event α D)} (h : exec (step T role) f es = some f') :
    10 * countAlong (step T role) flushes f es ≤ (f'.now - f.now) + 19 := by
  have hstep : ∀ n (g : Forwarder α D B) e g',
      (∃ σ, g.Timed σ ∧ f.now ≤ g.now ∧ (0 < n → f.now + 10 * n ≤ σ + 9) ∧
        10 * n ≤ (g.now - f.now) + 19) → step T role g e = some g' →
      ∃ σ, g'.Timed σ ∧ f.now ≤ g'.now ∧
        (0 < n + (if g.flushes e then 1 else 0) →
          f.now + 10 * (n + if g.flushes e then 1 else 0) ≤ σ + 9) ∧
        10 * (n + if g.flushes e then 1 else 0) ≤ (g'.now - f.now) + 19 := by
    rintro n g e g' ⟨σ, hg, hle, hlow, hcount⟩ he
    obtain ⟨hmono, ⟨hno, hg'⟩ | ⟨σ', hyes, hg', hadd, hlt, hmax⟩⟩ := timed_step hT hg he
    · rw [hno]
      refine ⟨σ, hg', Nat.le_trans hle hmono, hlow, ?_⟩
      simp only [Bool.false_eq_true, if_false]
      omega
    · rw [hyes]
      simp only [if_true]
      refine ⟨σ', hg', Nat.le_trans hle hmono, ?_, ?_⟩
      all_goals
        rcases Nat.eq_zero_or_pos n with rfl | hn
        · omega
        · have := hlow hn
          omega
  obtain ⟨σ, -, -, -, hcount⟩ := exec_count hstep
    ⟨τ, hf, Nat.le_refl _, fun h => absurd h (Nat.lt_irrefl 0), Nat.zero_le _⟩ h
  rwa [Nat.zero_add] at hcount

/-- **None left out**: 10 ms after a flush that left the flush timer at `τ`. -/
theorem Timed.flushes_tick {τ : Nat} (hf : f.Timed τ) (hrun : f.isRunning = some true) {now : Nat}
    (hle : τ ≤ now) (hlt : now < τ + 2 ^ 31) : f.flushes (.tick now) = true := by
  have hdue : Due f.kcp (UInt32.ofNat now) := by
    by_cases hu : f.kcp.updated = 0
    · exact Or.inl hu
    · refine Or.inr ?_
      have hdiff : itimediff (UInt32.ofNat now) (UInt32.ofNat τ) = (now : Int) - τ :=
        SerialNumber.diff_ofNat (by omega) (by omega)
      rw [hf.paced.timer hu, hdiff]
      omega
  show (decide (f.isRunning = some true) && (updateClock f.kcp (UInt32.ofNat now)).2) = true
  rw [decide_eq_true hrun, updateClock_due hdue]
  rfl

theorem timed_exec (hT : Lawful T Carries) {buffer : B} {alive : Bool} {run : List (Event α D)}
    (h : exec (step T role) (started role buffer alive) run = some f) : ∃ τ, f.Timed τ := by
  have hstep : ∀ (g : Forwarder α D B) e g', (∃ τ, g.Timed τ) → step T role g e = some g' →
      ∃ τ, g'.Timed τ := by
    rintro g e g' ⟨τ, hg⟩ he
    obtain ⟨-, ⟨-, hg'⟩ | ⟨τ', -, hg', -⟩⟩ := timed_step hT hg he
    · exact ⟨τ, hg'⟩
    · exact ⟨τ', hg'⟩
  exact exec_invariant hstep ⟨0, timed_started role buffer alive⟩ h

/-- While nothing flushes, the flush timer stays where it is. -/
theorem Timed.exec_of_countAlong (hT : Lawful T Carries) {τ : Nat} (hf : f.Timed τ)
    {es : List (Event α D)} (h : exec (step T role) f es = some f')
    (hnone : countAlong (step T role) flushes f es = 0) : f'.Timed τ := by
  have hstep : ∀ n (g : Forwarder α D B) e g', (n = 0 → g.Timed τ) →
      step T role g e = some g' → (n + (if g.flushes e then 1 else 0) = 0 → g'.Timed τ) := by
    intro n g e g' hg he hzero
    obtain ⟨-, ⟨-, hg'⟩ | ⟨τ', hyes, -⟩⟩ := timed_step hT (hg (by omega)) he
    · exact hg'
    · rw [hyes, if_pos rfl] at hzero
      omega
  exact exec_count hstep (n := 0) (fun _ => hf) h (by rw [hnone])

/-- **The pace of the flushes.**  From any state of a run on, however often the coroutines are
resumed: in `t` ms there are at most `(t + 19) / 10` flushes.  And when one event flushed and
none has flushed since, the kcp to tcp coroutine flushes in its next turn, if 10 ms have passed
and the forwarder is running. -/
theorem flush_pace (hT : Lawful T Carries) {buffer : B} {alive : Bool}
    {run es : List (Event α D)} (h : exec (step T role) (started role buffer alive) run = some f)
    (hes : exec (step T role) f es = some f') :
    10 * countAlong (step T role) flushes f es ≤ (f'.now - f.now) + 19 ∧
    ∀ t e rest, (e = .writerRun t ∨ e = .tick t) → es = e :: rest → f.flushes e = true →
      countAlong (step T role) flushes f es = 1 → f'.isRunning = some true →
      ∀ now, t + 10 ≤ now → now < t + 2 ^ 31 → f'.flushes (.tick now) = true := by
  obtain ⟨τ, hf⟩ := timed_exec hT h
  refine ⟨hf.flushes_le hT hes, ?_⟩
  rintro t e rest htime rfl hflush hcount hrun now hlow hhigh
  obtain ⟨g, hg, hrest⟩ := exec_cons_eq_some.mp hes
  have hnone : countAlong (step T role) flushes g rest = 0 := by
    rw [countAlong_cons hg, hflush, if_pos rfl] at hcount
    omega
  have hnow : g.now = t := by
    rcases pace_step hT hg with ⟨now', hevent, hpace⟩ | ⟨hno, -⟩
    · have htime' : now' = t := by
        rcases htime with rfl | rfl
        · rcases hevent with ⟨heq, -⟩ | ⟨heq, -⟩ <;> cases heq
          rfl
        · rcases hevent with ⟨heq, -⟩ | ⟨heq, -⟩ <;> cases heq
          rfl
      exact (congrArg Prod.fst hpace).trans htime'
    · rw [hno] at hflush
      cases hflush
  obtain ⟨-, ⟨hno, -⟩ | ⟨σ, -, hg', -, hlt, hmax⟩⟩ := timed_step hT hf hg
  · rw [hno] at hflush
    cases hflush
  · exact (hg'.exec_of_countAlong hT hrest hnone).flushes_tick hrun (by omega) (by omega)

/-- Two turns of a client's kcp to tcp coroutine: the first flushes, the second comes too early;
one at 15 ms will flush again. -/
theorem flush_pace_turns :
    ∃ f f' : Forwarder UInt8 (List (WireSeg UInt8)) Unit,
      exec (step plain .client) (started .client () true) [.readerRun, .feederRun] = some f ∧
      exec (step plain .client) f [.writerRun 5, .tick 9] = some f' ∧
      countAlong (step plain .client) flushes f [.writerRun 5, .tick 9] = 1 ∧
      10 * 1 ≤ (f'.now - f.now) + 19 ∧ f'.flushes (.tick 15) = true := by
  have hobs : (exec (step plain .client) (started .client () true) [.readerRun, .feederRun]).bind
      (fun f : Forwarder UInt8 (List (WireSeg UInt8)) Unit =>
        (exec (step plain .client) f [.writerRun 5, .tick 9]).map fun f' =>
          (countAlong (step plain .client) flushes f [.writerRun 5, .tick 9],
            f.flushes (.writerRun 5), f'.isRunning)) = some (1, true, some true) := by
    decide +kernel
  obtain ⟨f, hrun, hobs⟩ := Option.bind_eq_some_iff.mp hobs
  obtain ⟨f', hes, hobs⟩ := Option.map_eq_some_iff.mp hobs
  simp only [Prod.mk.injEq] at hobs
  obtain ⟨hcount, hflush, hrunning⟩ := hobs
  obtain ⟨hpace, hnext⟩ := flush_pace lawful_plain hrun hes
  rw [hcount] at hpace
  exact ⟨f, f', hrun, hes, hcount, hpace,
    hnext 5 _ _ (Or.inl rfl) rfl hflush hcount hrunning 15 (by decide) (by decide)⟩

end Forwarder

end FlexProxy
