import FlexProxy.TransitionSystem
import FlexProxy.KcpProgress

/-! # When `ikcp_update` has to be called

`ikcp_check` names the time of the next call of `ikcp_update` that is needed.  A caller that
sleeps until then and one that calls `ikcp_update` at every opportunity get the same
(`check_schedule`): before that time `ikcp_update` does nothing but set the clock
(`not_due_of_lt_checkWait`), and what the other calls do in between does not depend on the
clock.

Times are natural numbers, of which `ikcp_update` gets the low 32 bits.
-/
namespace FlexProxy
open TransitionSystem
variable {α B : Type}

/-! ## `ikcp_check` -/

/-- The loop of `ikcp_check` over `snd_buf`: the time until the first retransmission, or
`none` if one is due. -/
def checkLoop (current : UInt32) : List (IkcpSeg α) → Int → Option Int
  | [], tmPacket => some tmPacket
  | seg :: rest, tmPacket =>
    let diff := itimediff seg.resendts current
    if diff ≤ 0 then none
    else checkLoop current rest (if diff < tmPacket then diff else tmPacket)

/-- `ikcp_check` -/
def ikcpCheck (kcp : Ikcpcb α) (current : UInt32) : UInt32 :=
  if kcp.updated = 0 then current
  else
    let slap := itimediff current kcp.tsFlush
    let tsFlush := if slap ≥ 10000 ∨ slap < -10000 then current else kcp.tsFlush
    if itimediff current tsFlush ≥ 0 then current
    else
      let tmFlush := itimediff tsFlush current
      match checkLoop current kcp.sndBuf 0x7fffffff with
      | none => current
      | some tmPacket =>
        let minimal := UInt32.ofInt (if tmPacket < tmFlush then tmPacket else tmFlush)
        current + (if minimal ≥ kcp.interval then kcp.interval else minimal)

/-- How long `ikcp_check` says to wait. -/
def checkWait (kcp : Ikcpcb α) (current : UInt32) : Nat := (ikcpCheck kcp current - current).toNat

/-- What the loop finds is later than now. -/
theorem checkLoop_pos {current : UInt32} {segs : List (IkcpSeg α)} {tm tm' : Int} (h : 0 < tm)
    (hloop : checkLoop current segs tm = some tm') : 0 < tm' := by
  induction segs generalizing tm with
  | nil =>
    cases hloop
    exact h
  | cons seg rest ih =>
    unfold checkLoop at hloop
    dsimp only at hloop
    split_ifs at hloop with hdue hless
    · exact ih (by omega) hloop
    · exact ih h hloop

theorem toNat_ofInt {x : Int} (h0 : 0 ≤ x) (h1 : x < 2 ^ 32) :
    (UInt32.ofInt x).toNat = x.toNat := by
  have hmod : x % 2 ^ 32 = x := Int.emod_eq_of_lt h0 h1
  show (UInt32.ofNat (x % 2 ^ 32).toNat).toNat = x.toNat
  rw [hmod]
  exact UInt32.toNat_ofNat_of_lt' (by simp only [UInt32.size]; omega)

/-- A serial number that has gone on by `k`. -/
theorem itimediff_add {a b : UInt32} {k : Nat} (hlow : -2 ^ 31 ≤ itimediff a b + k)
    (hhigh : itimediff a b + k < 2 ^ 31) :
    itimediff (a + UInt32.ofNat k) b = itimediff a b + k := by
  have ha : UInt32.ofNat a.toNat = a := UInt32.ofNat_toNat
  have hb : UInt32.ofNat b.toNat = b := UInt32.ofNat_toNat
  have hsum : a + UInt32.ofNat k = UInt32.ofNat (a.toNat + k) := by rw [UInt32.ofNat_add, ha]
  have hdiff : itimediff a b = ((a.toNat : Int) - b.toNat).bmod (2 ^ 32) := by
    rw [← SerialNumber.diff_eq_bmod, ha, hb]
  have hmod : ((a.toNat + k : Nat) : Int) - b.toNat = ((a.toNat : Int) - b.toNat) + k := by omega
  calc itimediff (a + UInt32.ofNat k) b
      = (((a.toNat : Int) - b.toNat) + k).bmod (2 ^ 32) := by
        rw [hsum, ← hmod, ← SerialNumber.diff_eq_bmod, hb]
    _ = (itimediff a b + k).bmod (2 ^ 32) := by rw [hdiff, Int.bmod_add_bmod]
    _ = itimediff a b + k := Int.bmod_eq_of_le (by omega) (by omega)

section Wait
variable {kcp : Ikcpcb α} {current : UInt32}

theorem ikcpCheck_due (h : Due kcp current) : ikcpCheck kcp current = current := by
  have hself : itimediff current current = 0 := SerialNumber.diff_self _
  unfold ikcpCheck
  by_cases hu : kcp.updated = 0
  · rw [if_pos hu]
  · have hnow : itimediff current
        (if itimediff current kcp.tsFlush ≥ 10000 ∨ itimediff current kcp.tsFlush < -10000 then
          current else kcp.tsFlush) ≥ 0 := by
      have hrange := h.resolve_left hu
      split_ifs
      · omega
      · omega
    rw [if_neg hu]
    dsimp only
    rw [if_pos hnow]

/-- If no flush is due, `ikcp_check` takes the flush timer as it is. -/
theorem ikcpCheck_not_due (h : ¬ Due kcp current) :
    ikcpCheck kcp current = current ∨
    ∃ wait : Int, 0 ≤ wait ∧ wait ≤ itimediff kcp.tsFlush current ∧ wait ≤ 10000 ∧
      ikcpCheck kcp current = current +
        (if UInt32.ofInt wait ≥ kcp.interval then kcp.interval else UInt32.ofInt wait) := by
  simp only [Due, not_or, not_not] at h
  obtain ⟨hu, hlow, hneg⟩ := h
  have hlate : ¬ (itimediff current kcp.tsFlush ≥ 10000 ∨
      itimediff current kcp.tsFlush < -10000) := by
    omega
  have hnow : ¬ itimediff current kcp.tsFlush ≥ 0 := by omega
  have hflush : itimediff kcp.tsFlush current = -itimediff current kcp.tsFlush :=
    itimediff_neg (by omega)
  unfold ikcpCheck
  simp only [if_neg hu, if_neg hlate, if_neg hnow]
  cases hloop : checkLoop current kcp.sndBuf 0x7fffffff with
  | none => exact Or.inl rfl
  | some tmPacket =>
    have hpos := checkLoop_pos (by decide) hloop
    refine Or.inr ⟨_, ?_, ?_, ?_, rfl⟩
    all_goals split_ifs <;> omega

/-- **What `ikcp_check` says**: to call at once; or to wait at most `interval`, and not beyond
the flush timer, which is running. -/
theorem checkWait_cases (kcp : Ikcpcb α) (current : UInt32) :
    checkWait kcp current = 0 ∨
    (¬ Due kcp current ∧ checkWait kcp current ≤ kcp.interval.toNat ∧
      (checkWait kcp current : Int) ≤ itimediff kcp.tsFlush current) := by
  have hnow : ikcpCheck kcp current = current → checkWait kcp current = 0 := by
    intro h
    unfold checkWait
    rw [h, UInt32.sub_self]
    rfl
  by_cases hdue : Due kcp current
  · exact Or.inl (hnow (ikcpCheck_due hdue))
  · rcases ikcpCheck_not_due hdue with h | ⟨wait, hpos, hflush, hbound, h⟩
    · exact Or.inl (hnow h)
    · have hwait := toNat_ofInt hpos (by omega)
      have heq : checkWait kcp current =
          (if UInt32.ofInt wait ≥ kcp.interval then kcp.interval else UInt32.ofInt wait).toNat := by
        unfold checkWait
        rw [h]
        congr 1
        grind
      have hmin : checkWait kcp current ≤ kcp.interval.toNat ∧
          checkWait kcp current ≤ wait.toNat := by
        rw [heq]
        split_ifs with hcap
        · rw [ge_iff_le, UInt32.le_iff_toNat_le, hwait] at hcap
          exact ⟨Nat.le_refl _, hcap⟩
        · rw [ge_iff_le, UInt32.le_iff_toNat_le, hwait] at hcap
          omega
      exact Or.inr ⟨hdue, hmin.1, by omega⟩

/-- **Before the time it names** no flush is due. -/
theorem not_due_of_lt_checkWait {t k : Nat} (h : k < checkWait kcp (UInt32.ofNat t)) :
    ¬ Due kcp (UInt32.ofNat (t + k)) := by
  rcases checkWait_cases kcp (UInt32.ofNat t) with h0 | ⟨hdue, -, hflush⟩
  · omega
  · simp only [Due, not_or, not_not] at hdue ⊢
    obtain ⟨hu, hlow, hneg⟩ := hdue
    rw [itimediff_neg (by omega)] at hflush
    rw [UInt32.ofNat_add, itimediff_add (by omega) (by omega)]
    exact ⟨hu, by omega, by omega⟩

/-- A call of `ikcp_update` at which no flush is due does nothing but set the clock. -/
theorem updateClock_not_due (h : ¬ Due kcp current) :
    updateClock kcp current = ({ kcp with current := current }, false) := by
  simp only [Due, not_or, not_not] at h
  obtain ⟨hu, hlow, hneg⟩ := h
  have hlate : ¬ (itimediff current kcp.tsFlush ≥ 10000 ∨
      itimediff current kcp.tsFlush < -10000) := by
    omega
  have hslap : ¬ itimediff current kcp.tsFlush ≥ 0 := by omega
  unfold updateClock startClock
  simp only [if_neg hu, if_neg hlate, if_neg hslap]

end Wait

/-! ## The clock between two updates -/

/-- The control block at another time. -/
def Ikcpcb.at (kcp : Ikcpcb α) (current : UInt32) : Ikcpcb α := { kcp with current := current }

section At
variable (kcp : Ikcpcb α) (current : UInt32)

theorem ikcpUpdate_at (sink : Sink α B) (b : B) (time : UInt32) :
    ikcpUpdate sink (kcp.at current) b time = ikcpUpdate sink kcp b time := by
  have hstart : startClock (kcp.at current) time = startClock kcp time := rfl
  unfold ikcpUpdate updateClock
  rw [hstart]

theorem ikcpUpdate_not_due (sink : Sink α B) (b : B) {time : UInt32} (h : ¬ Due kcp time) :
    ikcpUpdate sink kcp b time = (kcp.at time, b) := by
  unfold ikcpUpdate
  rw [updateClock_not_due h]
  rfl

theorem appendToLast_at (buffer : List α) :
    appendToLast (kcp.at current) buffer =
      ((appendToLast kcp buffer).1.at current, (appendToLast kcp buffer).2) := by
  have hqueue : (kcp.at current).sndQueue = kcp.sndQueue := rfl
  have hmss : (kcp.at current).mss = kcp.mss := rfl
  unfold appendToLast
  rw [hqueue, hmss]
  cases kcp.sndQueue.getLast? with
  | none => rfl
  | some old =>
    dsimp only
    by_cases h : old.len < kcp.mss.toNat
    · rw [if_pos h, if_pos h]
      rfl
    · rw [if_neg h, if_neg h]

/-- `ikcp_send` does not look at the clock. -/
theorem ikcpSend_at (buffer : List α) :
    ikcpSend (kcp.at current) buffer =
      ((ikcpSend kcp buffer).1.at current, (ikcpSend kcp buffer).2) := by
  have hstream : ∀ k : Ikcpcb α, (k.at current).stream = k.stream := fun _ => rfl
  have hmss : ∀ k : Ikcpcb α, (k.at current).mss = k.mss := fun _ => rfl
  unfold ikcpSend
  by_cases hs : kcp.stream ≠ 0
  · simp only [hstream, if_pos hs, appendToLast_at]
    generalize appendToLast kcp buffer = r
    simp only [hmss]
    split_ifs
    all_goals rfl
  · simp only [hstream, hmss, if_neg hs]
    split_ifs
    all_goals rfl

theorem moveAvailable_at (segs : List (IkcpSeg α)) (kcp : Ikcpcb α) :
    moveAvailable segs (kcp.at current) = (moveAvailable segs kcp).at current := by
  induction segs generalizing kcp with
  | nil => rfl
  | cons seg rest ih =>
    by_cases h : seg.sn = kcp.rcvNxt ∧ kcp.nrcvQue < kcp.rcvWnd
    · have h' : seg.sn = (kcp.at current).rcvNxt ∧
          (kcp.at current).nrcvQue < (kcp.at current).rcvWnd := h
      rw [moveAvailable, moveAvailable, if_pos h', if_pos h, ← ih]
      rfl
    · have h' : ¬ (seg.sn = (kcp.at current).rcvNxt ∧
          (kcp.at current).nrcvQue < (kcp.at current).rcvWnd) := h
      rw [moveAvailable, moveAvailable, if_neg h', if_neg h]

theorem fastRecover_at (recover : Bool) (kcp : Ikcpcb α) :
    fastRecover recover (kcp.at current) = (fastRecover recover kcp).at current := by
  unfold fastRecover
  by_cases h : kcp.nrcvQue < kcp.rcvWnd ∧ recover
  · have h' : (kcp.at current).nrcvQue < (kcp.at current).rcvWnd ∧ recover := h
    rw [if_pos h, if_pos h']
    rfl
  · have h' : ¬ ((kcp.at current).nrcvQue < (kcp.at current).rcvWnd ∧ recover) := h
    rw [if_neg h, if_neg h']

/-- `ikcp_recv` does not look at the clock. -/
theorem ikcpRecv_at (len : Int) :
    ikcpRecv (kcp.at current) len = ((ikcpRecv kcp len).1.at current, (ikcpRecv kcp len).2) := by
  have hpeek : ikcpPeeksize (kcp.at current) = ikcpPeeksize kcp := rfl
  have hqueue : (kcp.at current).rcvQueue = kcp.rcvQueue := rfl
  have hfull : decide ((kcp.at current).nrcvQue ≥ (kcp.at current).rcvWnd) =
      decide (kcp.nrcvQue ≥ kcp.rcvWnd) := rfl
  have hdrop : dropMessage (kcp.at current) = (dropMessage kcp).at current := rfl
  have hmove : ∀ k : Ikcpcb α, moveAvailable (k.at current).rcvBuf (k.at current) =
      (moveAvailable k.rcvBuf k).at current :=
    fun k => moveAvailable_at current k.rcvBuf k
  unfold ikcpRecv
  simp only [hpeek, hqueue, hfull]
  split_ifs
  · rfl
  · rfl
  · rfl
  · rw [hmove, fastRecover_at]
  · rfl
  · rw [hdrop, hmove, fastRecover_at]

theorem ikcpWndsize_at (sndwnd rcvwnd : Int32) :
    ikcpWndsize (kcp.at current) sndwnd rcvwnd = (ikcpWndsize kcp sndwnd rcvwnd).at current := by
  unfold ikcpWndsize
  split_ifs
  all_goals rfl

theorem ikcpNodelay_at (nodelay interval resend nc : Int32) :
    ikcpNodelay (kcp.at current) nodelay interval resend nc =
      (ikcpNodelay kcp nodelay interval resend nc).at current := by
  unfold ikcpNodelay
  split_ifs
  all_goals rfl

end At

/-! ## The clock and the flush timer -/

/-- The fields that only `ikcp_update` writes. -/
def Ikcpcb.clock (kcp : Ikcpcb α) : UInt32 × UInt32 × UInt32 :=
  (kcp.current, kcp.updated, kcp.tsFlush)

section Clock
variable (kcp : Ikcpcb α)

theorem due_congr {kcp kcp' : Ikcpcb α} (h : kcp'.clock.2 = kcp.clock.2) (current : UInt32) :
    Due kcp' current ↔ Due kcp current := by
  have hu : kcp'.updated = kcp.updated := congrArg Prod.fst h
  have hts : kcp'.tsFlush = kcp.tsFlush := congrArg Prod.snd h
  unfold Due
  rw [hu, hts]

theorem clock_ikcpSend (buffer : List α) :
    (ikcpSend kcp buffer).1.clock = kcp.clock := by
  have happend : (appendToLast kcp buffer).1.clock = kcp.clock := by
    unfold appendToLast
    cases kcp.sndQueue.getLast? with
    | none => rfl
    | some old =>
      dsimp only
      split
      · rfl
      · rfl
  unfold ikcpSend
  by_cases hs : kcp.stream ≠ 0
  · simp only [if_pos hs]
    split_ifs
    all_goals exact happend
  · simp only [if_neg hs]
    split_ifs
    all_goals rfl

theorem clock_ikcpRecv (len : Int) : (ikcpRecv kcp len).1.clock = kcp.clock := by
  have hrecover : ∀ recover (k : Ikcpcb α), (fastRecover recover k).clock = k.clock := by
    intro recover k
    unfold fastRecover
    split_ifs
    · rfl
    · rfl
  have hmove : ∀ segs (k : Ikcpcb α), (moveAvailable segs k).clock = k.clock := by
    intro segs k
    obtain ⟨_, _, _, _, _, h⟩ := moveAvailable_writes segs k
    rw [h]
    rfl
  unfold ikcpRecv
  dsimp only
  split_ifs
  · rfl
  · rfl
  · rfl
  · rw [hrecover, hmove]
  · rfl
  · rw [hrecover, hmove]
    rfl

theorem clock_ikcpWndsize (sndwnd rcvwnd : Int32) :
    (ikcpWndsize kcp sndwnd rcvwnd).clock = kcp.clock := by
  unfold ikcpWndsize
  split_ifs
  all_goals rfl

theorem clock_ikcpNodelay (nodelay interval resend nc : Int32) :
    (ikcpNodelay kcp nodelay interval resend nc).clock = kcp.clock := by
  unfold ikcpNodelay
  split_ifs
  all_goals rfl

end Clock

/-! ## Two callers -/

/-- What a caller does. -/
inductive Act (α : Type) where
  /-- It could call `ikcp_update`. -/
  | poll (now : Nat)
  | send (buffer : List α)
  | recv (len : Int)
  /-- A datagram arrives: the clock is set by `ikcp_update`, then `ikcp_input` is called. -/
  | datagram (now : Nat) (segs : List (WireSeg α))
  | wndsize (sndwnd rcvwnd : Int32)
  | nodelay (nodelay interval resend nc : Int32)

/-- A control block and its caller. -/
structure Caller (α B : Type) where
  kcp : Ikcpcb α
  /-- The scratch buffer, with what has been handed to the output callback. -/
  buffer : B
  now : Nat
  /-- When `ikcp_check` said to call `ikcp_update`. -/
  next : Nat
  /-- What the calls have returned and copied out. -/
  replies : List (Int × List α)

namespace Caller

/-- `ikcp_update` is called. -/
def update (sink : Sink α B) (c : Caller α B) (now : Nat) : Caller α B :=
  let r := ikcpUpdate sink c.kcp c.buffer (UInt32.ofNat now)
  { c with kcp := r.1, buffer := r.2, now := now }

/-- `ikcp_check` is called. -/
def check (c : Caller α B) : Caller α B :=
  { c with next := c.now + checkWait c.kcp (UInt32.ofNat c.now) }

/-- One turn of the caller.  If `patient`, it calls `ikcp_update` when `ikcp_check` said to,
otherwise whenever it can. -/
def step (sink : Sink α B) (patient : Bool) (c : Caller α B) : Act α → Option (Caller α B)
  | .poll now =>
    if now < c.now then none
    else if patient ∧ now < c.next then some { c with now := now }
    else some (c.update sink now).check
  | .datagram now segs =>
    if now < c.now then none
    else
      let c := c.update sink now
      let r := inputSegs c.kcp segs
      some { c with kcp := r.1, replies := c.replies ++ [(r.2, [])] }.check
  | .send buffer =>
    let r := ikcpSend c.kcp buffer
    some { c with kcp := r.1, replies := c.replies ++ [(r.2, [])] }
  | .recv len =>
    let r := ikcpRecv c.kcp len
    some { c with kcp := r.1, replies := c.replies ++ [r.2] }
  | .wndsize sndwnd rcvwnd => some { c with kcp := ikcpWndsize c.kcp sndwnd rcvwnd }
  | .nodelay nodelay interval resend nc =>
    some { c with kcp := ikcpNodelay c.kcp nodelay interval resend nc }

/-- The same control block, up to the time, and the same effects. -/
structure Agree (c e : Caller α B) : Prop where
  kcp : e.kcp = c.kcp.at e.kcp.current
  buffer : e.buffer = c.buffer
  now : e.now = c.now
  replies : e.replies = c.replies

/-- No flush is due before the next call. -/
def Rests (c : Caller α B) : Prop := ∀ t, c.now ≤ t → t < c.next → ¬ Due c.kcp (UInt32.ofNat t)

section Step
variable {sink : Sink α B} {c e : Caller α B}

theorem rests_check (c : Caller α B) : c.check.Rests := by
  intro t hle hlt
  have hnow : c.now ≤ t := hle
  have hnext : t < c.now + checkWait c.kcp (UInt32.ofNat c.now) := hlt
  have ht : c.now + (t - c.now) = t := by omega
  show ¬ Due c.kcp (UInt32.ofNat t)
  rw [← ht]
  exact not_due_of_lt_checkWait (by omega)

/-- What leaves the flush timer alone leaves the caller at rest. -/
theorem Rests.congr (h : c.Rests) {c' : Caller α B} (htimer : c'.kcp.clock.2 = c.kcp.clock.2)
    (hnow : c.now ≤ c'.now) (hnext : c'.next = c.next) : c'.Rests := by
  intro t hle hlt
  rw [due_congr htimer]
  exact h t (Nat.le_trans hnow hle) (hnext ▸ hlt)

/-- An update brings the clocks together. -/
theorem Agree.update (sink : Sink α B) (h : c.Agree e) (now : Nat) :
    (e.update sink now).kcp = (c.update sink now).kcp ∧
      (c.update sink now).Agree (e.update sink now) := by
  have hsame : ikcpUpdate sink e.kcp e.buffer (UInt32.ofNat now) =
      ikcpUpdate sink c.kcp c.buffer (UInt32.ofNat now) := by
    rw [h.kcp, ikcpUpdate_at, h.buffer]
  have hk : (e.update sink now).kcp = (c.update sink now).kcp := congrArg Prod.fst hsame
  refine ⟨hk, ?_, congrArg Prod.snd hsame, rfl, h.replies⟩
  rw [hk]
  rfl

theorem Agree.check (h : c.Agree e) : c.check.Agree e.check := ⟨h.kcp, h.buffer, h.now, h.replies⟩

/-- A call that does not look at the clock and leaves the flush timer alone. -/
theorem agree_call (h : c.Agree e) (hrest : c.Rests) {f : Ikcpcb α → Ikcpcb α}
    (hclock : ∀ kcp current, f (kcp.at current) = (f kcp).at current)
    (htimer : ∀ kcp, (f kcp).clock = kcp.clock) {replies replies' : List (Int × List α)}
    (hreplies : replies' = replies) :
    { c with kcp := f c.kcp, replies := replies }.Agree
        { e with kcp := f e.kcp, replies := replies' } ∧
      { c with kcp := f c.kcp, replies := replies }.Rests := by
  refine ⟨⟨?_, h.buffer, h.now, hreplies⟩, hrest.congr (congrArg Prod.snd (htimer _)) (Nat.le_refl _) rfl⟩
  show f e.kcp = (f c.kcp).at (f e.kcp).current
  rw [h.kcp, hclock]
  rfl

/-- **One turn of the two callers.** -/
theorem agree_step (h : c.Agree e) (hrest : c.Rests) (a : Act α) :
    Option.Rel (fun c e => c.Agree e ∧ c.Rests) (c.step sink true a) (e.step sink false a) := by
  cases a with
  | poll now =>
    simp only [step, h.now, true_and, Bool.false_eq_true, false_and, if_false]
    by_cases hpast : now < c.now
    · rw [if_pos hpast, if_pos hpast]
      exact .none
    · rw [if_neg hpast, if_neg hpast]
      by_cases hskip : now < c.next
      · -- the update that is left out does nothing but set the clock
        have hidle : ¬ Due c.kcp (UInt32.ofNat now) :=
          hrest now (Nat.le_of_not_lt hpast) hskip
        have hupdate : ikcpUpdate sink e.kcp e.buffer (UInt32.ofNat now) =
            (c.kcp.at (UInt32.ofNat now), c.buffer) := by
          rw [h.kcp, ikcpUpdate_at, h.buffer, ikcpUpdate_not_due _ _ _ hidle]
        have hk : (e.update sink now).kcp = c.kcp.at (UInt32.ofNat now) :=
          congrArg Prod.fst hupdate
        rw [if_pos hskip]
        refine .some ⟨Agree.mk ?_ ?_ rfl h.replies, ?_⟩
        · show (e.update sink now).kcp = c.kcp.at (e.update sink now).kcp.current
          rw [hk]
          rfl
        · exact congrArg Prod.snd hupdate
        · exact hrest.congr rfl (Nat.le_of_not_lt hpast) rfl
      · rw [if_neg hskip]
        exact .some ⟨(h.update sink now).2.check, rests_check _⟩
  | datagram now segs =>
    simp only [step, h.now]
    by_cases hpast : now < c.now
    · rw [if_pos hpast, if_pos hpast]
      exact .none
    · rw [if_neg hpast, if_neg hpast]
      obtain ⟨hk, hupdate⟩ := h.update sink now
      refine .some ⟨Agree.check ⟨?_, hupdate.buffer, hupdate.now, ?_⟩, rests_check _⟩
      · dsimp only
        rw [hk]
        rfl
      · dsimp only
        rw [hk, hupdate.replies]
  | send buffer =>
    have hreply : (ikcpSend e.kcp buffer).2 = (ikcpSend c.kcp buffer).2 := by
      rw [h.kcp, ikcpSend_at]
    refine .some (agree_call h hrest (f := fun kcp => (ikcpSend kcp buffer).1) ?_ ?_ ?_)
    · intro kcp current
      exact congrArg Prod.fst (ikcpSend_at kcp current buffer)
    · exact fun kcp => clock_ikcpSend kcp buffer
    · rw [hreply, h.replies]
  | recv len =>
    have hreply : (ikcpRecv e.kcp len).2 = (ikcpRecv c.kcp len).2 := by
      rw [h.kcp, ikcpRecv_at]
    refine .some (agree_call h hrest (f := fun kcp => (ikcpRecv kcp len).1) ?_ ?_ ?_)
    · intro kcp current
      exact congrArg Prod.fst (ikcpRecv_at kcp current len)
    · exact fun kcp => clock_ikcpRecv kcp len
    · rw [hreply, h.replies]
  | wndsize sndwnd rcvwnd =>
    refine .some (agree_call h hrest (f := fun kcp => ikcpWndsize kcp sndwnd rcvwnd) ?_ ?_
      h.replies)
    · exact fun kcp current => ikcpWndsize_at kcp current sndwnd rcvwnd
    · exact fun kcp => clock_ikcpWndsize kcp sndwnd rcvwnd
  | nodelay nodelay interval resend nc =>
    refine .some (agree_call h hrest (f := fun kcp => ikcpNodelay kcp nodelay interval resend nc)
      ?_ ?_ h.replies)
    · exact fun kcp current => ikcpNodelay_at kcp current nodelay interval resend nc
    · exact fun kcp => clock_ikcpNodelay kcp nodelay interval resend nc

end Step

/-- A caller that has not called `ikcp_update` yet. -/
def fresh (kcp : Ikcpcb α) (buffer : B) (now : Nat) : Caller α B :=
  { kcp := kcp, buffer := buffer, now := now, next := now, replies := [] }

end Caller

/-- **Calling `ikcp_update` when `ikcp_check` says to is enough.**  Whatever a caller does, in
any order and at any times: if it leaves out every call of `ikcp_update` before the time that
`ikcp_check` named, each of its calls is as possible, returns the same and copies the same out,
the output callback gets the same, and the control block is the same up to the clock. -/
theorem check_schedule (sink : Sink α B) (kcp : Ikcpcb α) (buffer : B) (now : Nat)
    (acts : List (Act α)) :
    Option.Rel Caller.Agree (exec (Caller.step sink true) (Caller.fresh kcp buffer now) acts)
      (exec (Caller.step sink false) (Caller.fresh kcp buffer now) acts) := by
  have hfresh : (Caller.fresh kcp buffer now).Agree (Caller.fresh kcp buffer now) ∧
      (Caller.fresh kcp buffer now).Rests := by
    refine ⟨⟨rfl, rfl, rfl, rfl⟩, fun t hle hlt => ?_⟩
    exact absurd hlt (Nat.not_lt_of_ge hle)
  have hrun : Option.Rel (fun c e => c.Agree e ∧ c.Rests)
      (exec (Caller.step sink true) (Caller.fresh kcp buffer now) acts)
      (exec (Caller.step sink false) (Caller.fresh kcp buffer now) (acts.map id)) :=
    exec_rel (fun c e a h => Caller.agree_step h.1 h.2 a) hfresh acts
  rw [List.map_id] at hrun
  generalize exec (Caller.step sink true) (Caller.fresh kcp buffer now) acts = c at hrun ⊢
  generalize exec (Caller.step sink false) (Caller.fresh kcp buffer now) acts = e at hrun ⊢
  cases hrun with
  | none => exact .none
  | some h => exact .some h.1

end FlexProxy
