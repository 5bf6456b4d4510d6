import FlexProxy.KcpInput

/-! # `ikcp_flush` and `ikcp_update`

A flush packs acknowledgements, window probes and due segments into datagrams of
at most `mtu` bytes.  It writes them into the scratch buffer of the control block
and hands the buffer to the output callback whenever the next segment would not
fit.  What it needs of the buffer is collected in a `Sink`: how much is written,
writing one more segment, and handing the buffer out.  Two sinks are used:

* `listSink` only lists what is written, in order (`flushed`);
* the byte buffer of `KcpWire` is what the program has.

Whatever the sink, a flush leaves the control block the same (`ikcpFlush_fst`),
and leaves in the buffer what packing the list `flushed` leaves there
(`ikcpFlush_snd`).
-/
namespace FlexProxy
variable {α : Type}

/-- The scratch buffer as `ikcp_flush` uses it. -/
structure Sink (α B : Type) where
  /-- `(int)(ptr - buffer)` -/
  size : B → Nat
  /-- `ikcp_encode_seg`, and the segment's data behind it. -/
  put : B → IkcpSeg α → B
  /-- The output callback on what is written, then `ptr = buffer`.  (After the last
  output of a flush `ptr` is not used again, so it may as well be reset there.) -/
  output : B → B
  size_output : ∀ b, size (output b) = 0

/-- `ikcp_output` and `ptr = buffer`: an empty buffer is not handed out. -/
def ikcpOutput {B : Type} (sink : Sink α B) (b : B) : B :=
  if sink.size b = 0 then b else sink.output b

/-- `if (size + need > mtu) { ikcp_output(kcp, buffer, size); ptr = buffer; }` -/
def makeRoom {B : Type} (sink : Sink α B) (mtu : UInt32) (need : Nat) (b : B) : B :=
  if sink.size b + need > mtu.toNat then ikcpOutput sink b else b

/-- `ikcp_wnd_unused` -/
def ikcpWndUnused (kcp : Ikcpcb α) : UInt32 :=
  if kcp.nrcvQue < kcp.rcvWnd then kcp.rcvWnd - kcp.nrcvQue else 0

/-! ## Acknowledgements and probes -/

/-- "flush acknowledges": the loop over `acklist`.  The local `seg` keeps the `sn`
and `ts` of the last one. -/
def flushAcks {B : Type} (sink : Sink α B) (mtu : UInt32) :
    List (UInt32 × UInt32) → IkcpSeg α → B → IkcpSeg α × B
  | [], seg, b => (seg, b)
  | (sn, ts) :: rest, seg, b =>
    let b := makeRoom sink mtu IKCP_OVERHEAD.toNat b
    let seg := { seg with sn := sn, ts := ts }
    flushAcks sink mtu rest seg (sink.put b seg)

/-- The next wait between two window probes. -/
def nextProbeWait (wait : UInt32) : UInt32 :=
  let wait := if wait < IKCP_PROBE_INIT then IKCP_PROBE_INIT else wait
  let wait := wait + wait / 2
  if wait > IKCP_PROBE_LIMIT then IKCP_PROBE_LIMIT else wait

/-- "probe window size (if remote window size equals zero)" -/
def probeWindow (kcp : Ikcpcb α) : Ikcpcb α :=
  if kcp.rmtWnd = 0 then
    if kcp.probeWait = 0 then
      { kcp with probeWait := IKCP_PROBE_INIT, tsProbe := kcp.current + IKCP_PROBE_INIT }
    else if itimediff kcp.current kcp.tsProbe ≥ 0 then
      { kcp with
        probeWait := nextProbeWait kcp.probeWait
        tsProbe := kcp.current + nextProbeWait kcp.probeWait
        probe := kcp.probe ||| IKCP_ASK_SEND }
    else kcp
  else { kcp with tsProbe := 0, probeWait := 0 }

/-- "flush window probing commands": `cmd` is sent if the flag `ask` is set. -/
def flushProbe {B : Type} (sink : Sink α B) (kcp : Ikcpcb α) (ask cmd : UInt32)
    (seg : IkcpSeg α) (b : B) : IkcpSeg α × B :=
  if kcp.probe &&& ask ≠ 0 then
    let seg := { seg with cmd := cmd }
    (seg, sink.put (makeRoom sink kcp.mtu IKCP_OVERHEAD.toNat b) seg)
  else (seg, b)

/-! ## Data -/

/-- "calculate window size" -/
def flushCwnd (kcp : Ikcpcb α) : UInt32 :=
  let cwnd := imin kcp.sndWnd kcp.rmtWnd
  if kcp.nocwnd = 0 then imin kcp.cwnd cwnd else cwnd

/-- "move data from snd_queue to snd_buf": the loop over `snd_queue`. -/
def moveQueue (cwnd wnd current : UInt32) : List (IkcpSeg α) → Ikcpcb α → Ikcpcb α
  | [], kcp => kcp
  | newseg :: rest, kcp =>
    if itimediff kcp.sndNxt (kcp.sndUna + cwnd) < 0 then
      moveQueue cwnd wnd current rest
        { kcp with
          sndQueue := rest
          sndBuf := kcp.sndBuf ++
            [{ newseg with
                conv := kcp.conv
                cmd := IKCP_CMD_PUSH
                wnd := wnd
                ts := current
                sn := kcp.sndNxt
                una := kcp.rcvNxt
                resendts := current
                rto := kcp.rxRto.toUInt32
                fastack := 0
                xmit := 0 }]
          nsndQue := kcp.nsndQue - 1
          nsndBuf := kcp.nsndBuf + 1
          sndNxt := kcp.sndNxt + 1 }
    else kcp

/-- What the loop over `snd_buf` changes besides the segments and the buffer: two
locals of `ikcp_flush`, and two fields of the control block. -/
structure FlushAcc where
  change : Nat
  lost : Bool
  xmit : UInt32
  state : UInt32

/-- Whether a segment is due: it is new, its timer has run out, or it was skipped
often enough.  `none` if it is not; else the segment with its new timers. -/
def dueSeg (kcp : Ikcpcb α) (current resent rtomin : UInt32) (segment : IkcpSeg α)
    (acc : FlushAcc) : Option (IkcpSeg α × FlushAcc) :=
  if segment.xmit = 0 then
    let rto := kcp.rxRto.toUInt32
    some ({ segment with
      xmit := segment.xmit + 1, rto := rto, resendts := current + rto + rtomin }, acc)
  else if itimediff current segment.resendts ≥ 0 then
    let rto :=
      if kcp.nodelay = 0 then segment.rto + imax segment.rto kcp.rxRto.toUInt32
      else
        let step := if kcp.nodelay < 2 then segment.rto.toInt32 else kcp.rxRto
        segment.rto + (step / 2).toUInt32
    some ({ segment with xmit := segment.xmit + 1, rto := rto, resendts := current + rto },
      { acc with xmit := acc.xmit + 1, lost := true })
  else if segment.fastack ≥ resent then
    if segment.xmit.toInt32 ≤ kcp.fastlimit ∨ kcp.fastlimit ≤ 0 then
      some ({ segment with
        xmit := segment.xmit + 1, fastack := 0, resendts := current + segment.rto },
        { acc with change := acc.change + 1 })
    else none
  else none

/-- "flush data segments": the loop over `snd_buf`. -/
def flushData {B : Type} (sink : Sink α B) (kcp : Ikcpcb α) (wnd current resent rtomin : UInt32) :
    List (IkcpSeg α) → FlushAcc → B → (List (IkcpSeg α) × FlushAcc) × B
  | [], acc, b => (([], acc), b)
  | segment :: rest, acc, b =>
    match dueSeg kcp current resent rtomin segment acc with
    | none =>
      let r := flushData sink kcp wnd current resent rtomin rest acc b
      ((segment :: r.1.1, r.1.2), r.2)
    | some (segment, acc) =>
      let segment := { segment with ts := current, wnd := wnd, una := kcp.rcvNxt }
      let b := makeRoom sink kcp.mtu (IKCP_OVERHEAD.toNat + segment.len) b
      let state := if segment.xmit ≥ kcp.deadLink then 0xffffffff else acc.state
      let r := flushData sink kcp wnd current resent rtomin rest { acc with state := state }
        (sink.put b segment)
      ((segment :: r.1.1, r.1.2), r.2)

/-- "update ssthresh": the end of `ikcp_flush`. -/
def flushEnd (kcp : Ikcpcb α) (cwnd resent : UInt32) (change : Nat) (lost : Bool) : Ikcpcb α :=
  let kcp : Ikcpcb α :=
    if change ≠ 0 then
      let ssthresh := (kcp.sndNxt - kcp.sndUna) / 2
      let ssthresh := if ssthresh < IKCP_THRESH_MIN then IKCP_THRESH_MIN else ssthresh
      { kcp with
        ssthresh := ssthresh, cwnd := ssthresh + resent, incr := (ssthresh + resent) * kcp.mss }
    else kcp
  let kcp : Ikcpcb α :=
    if lost then
      let ssthresh := cwnd / 2
      { kcp with
        ssthresh := if ssthresh < IKCP_THRESH_MIN then IKCP_THRESH_MIN else ssthresh
        cwnd := 1
        incr := kcp.mss }
    else kcp
  if kcp.cwnd < 1 then { kcp with cwnd := 1, incr := kcp.mss } else kcp

/-- The local segment `ikcp_flush` sends acknowledgements and probes with. -/
def flushSeg (kcp : Ikcpcb α) : IkcpSeg α where
  conv := kcp.conv
  cmd := IKCP_CMD_ACK
  frg := 0
  wnd := ikcpWndUnused kcp
  una := kcp.rcvNxt
  sn := 0
  ts := 0
  data := []

/-- The control block when `ikcp_flush` has sent acknowledgements and probes and
numbered what the window allows. -/
def flushMoved (kcp : Ikcpcb α) : Ikcpcb α :=
  let probed := probeWindow { kcp with acklist := [] }
  moveQueue (flushCwnd kcp) (ikcpWndUnused kcp) kcp.current probed.sndQueue
    { probed with probe := 0 }

/-- The buffer at that point. -/
def flushCtl {B : Type} (sink : Sink α B) (kcp : Ikcpcb α) (b : B) : B :=
  let acks := flushAcks sink kcp.mtu kcp.acklist (flushSeg kcp) b
  let probed := probeWindow { kcp with acklist := [] }
  let wask := flushProbe sink probed IKCP_ASK_SEND IKCP_CMD_WASK acks.1 acks.2
  (flushProbe sink probed IKCP_ASK_TELL IKCP_CMD_WINS wask.1 wask.2).2

/-- `ikcp_flush` -/
def ikcpFlush {B : Type} (sink : Sink α B) (kcp : Ikcpcb α) (b : B) : Ikcpcb α × B :=
  if kcp.updated = 0 then (kcp, b)
  else
    let b := flushCtl sink kcp b
    let moved := flushMoved kcp
    let resent := if kcp.fastresend > 0 then kcp.fastresend.toUInt32 else 0xffffffff
    let rtomin := if kcp.nodelay = 0 then (kcp.rxRto >>> 3).toUInt32 else 0
    let r := flushData sink moved (ikcpWndUnused kcp) kcp.current resent rtomin moved.sndBuf
      ⟨0, false, moved.xmit, moved.state⟩ b
    (flushEnd { moved with sndBuf := r.1.1, xmit := r.1.2.xmit, state := r.1.2.state }
        (flushCwnd kcp) resent r.1.2.change r.1.2.lost,
      ikcpOutput sink r.2)

/-- The start of `ikcp_update`: the clock, and on the first call the flush timer. -/
def startClock (kcp : Ikcpcb α) (current : UInt32) : Ikcpcb α :=
  if kcp.updated = 0 then { kcp with current := current, updated := 1, tsFlush := current }
  else { kcp with current := current }

/-- The next flush is `interval` after the last one, or after now if that has
passed. -/
def nextFlush (kcp : Ikcpcb α) (tsFlush : UInt32) : UInt32 :=
  if itimediff kcp.current (tsFlush + kcp.interval) ≥ 0 then kcp.current + kcp.interval
  else tsFlush + kcp.interval

/-- The part of `ikcp_update` before the flush.  The flag says whether a flush is
due. -/
def updateClock (kcp : Ikcpcb α) (current : UInt32) : Ikcpcb α × Bool :=
  let kcp := startClock kcp current
  let slap := itimediff kcp.current kcp.tsFlush
  let late := slap ≥ 10000 ∨ slap < -10000
  let tsFlush := if late then kcp.current else kcp.tsFlush
  let slap := if late then 0 else slap
  if slap ≥ 0 then ({ kcp with tsFlush := nextFlush kcp tsFlush }, true)
  else ({ kcp with tsFlush := tsFlush }, false)

/-- `ikcp_update` -/
def ikcpUpdate {B : Type} (sink : Sink α B) (kcp : Ikcpcb α) (b : B) (current : UInt32) :
    Ikcpcb α × B :=
  let r := updateClock kcp current
  if r.2 then ikcpFlush sink r.1 b else (r.1, b)

/-! ## What each step writes -/

section Writes
variable (kcp : Ikcpcb α)

theorem probeWindow_writes :
    ∃ wait ts probe, probeWindow kcp =
      { kcp with probeWait := wait, tsProbe := ts, probe := probe } := by
  unfold probeWindow
  split_ifs
  · exact ⟨IKCP_PROBE_INIT, kcp.current + IKCP_PROBE_INIT, kcp.probe, rfl⟩
  · exact ⟨nextProbeWait kcp.probeWait, kcp.current + nextProbeWait kcp.probeWait,
      kcp.probe ||| IKCP_ASK_SEND, rfl⟩
  · exact ⟨kcp.probeWait, kcp.tsProbe, kcp.probe, rfl⟩
  · exact ⟨0, 0, kcp.probe, rfl⟩

theorem moveQueue_writes (cwnd wnd current : UInt32) (l : List (IkcpSeg α)) :
    ∃ queue buf nque nbuf nxt, moveQueue cwnd wnd current l kcp =
      { kcp with
        sndQueue := queue, sndBuf := buf, nsndQue := nque, nsndBuf := nbuf, sndNxt := nxt } := by
  induction l generalizing kcp with
  | nil => exact ⟨kcp.sndQueue, kcp.sndBuf, kcp.nsndQue, kcp.nsndBuf, kcp.sndNxt, rfl⟩
  | cons newseg rest ih =>
    by_cases h : itimediff kcp.sndNxt (kcp.sndUna + cwnd) < 0
    · rw [moveQueue, if_pos h]
      obtain ⟨queue, buf, nque, nbuf, nxt, hrest⟩ := ih _
      exact ⟨queue, buf, nque, nbuf, nxt, hrest⟩
    · rw [moveQueue, if_neg h]
      exact ⟨kcp.sndQueue, kcp.sndBuf, kcp.nsndQue, kcp.nsndBuf, kcp.sndNxt, rfl⟩

/-- Up to the data, a flush writes the sending side, sends the acknowledgements off and
sets the times of the probes. -/
theorem flushMoved_writes :
    ∃ queue buf nque nbuf nxt ts, flushMoved kcp =
      { kcp with
        sndQueue := queue, sndBuf := buf, nsndQue := nque, nsndBuf := nbuf, sndNxt := nxt
        acklist := [], probe := 0, tsProbe := ts
        probeWait := (probeWindow { kcp with acklist := [] }).probeWait } := by
  obtain ⟨wait, ts, probe, hprobe⟩ := probeWindow_writes { kcp with acklist := [] }
  unfold flushMoved
  dsimp only
  rw [hprobe]
  obtain ⟨queue, buf, nque, nbuf, nxt, hmove⟩ := moveQueue_writes
    { kcp with acklist := [], probeWait := wait, tsProbe := ts, probe := 0 }
    (flushCwnd kcp) (ikcpWndUnused kcp) kcp.current kcp.sndQueue
  exact ⟨queue, buf, nque, nbuf, nxt, ts, hmove⟩

theorem flushEnd_writes (cwnd resent : UInt32) (change : Nat) (lost : Bool) :
    ∃ ssthresh cwnd' incr, flushEnd kcp cwnd resent change lost =
      { kcp with ssthresh := ssthresh, cwnd := cwnd', incr := incr } := by
  unfold flushEnd
  dsimp only
  split_ifs
  all_goals exact ⟨_, _, _, rfl⟩

theorem updateClock_writes (current : UInt32) :
    ∃ updated tsFlush, updated ≠ 0 ∧ (updateClock kcp current).1 =
      { kcp with current := current, updated := updated, tsFlush := tsFlush } := by
  have hstart : ∃ updated tsFlush, updated ≠ 0 ∧ startClock kcp current =
      { kcp with current := current, updated := updated, tsFlush := tsFlush } := by
    by_cases h : kcp.updated = 0
    · exact ⟨1, current, by decide, if_pos h⟩
    · exact ⟨kcp.updated, kcp.tsFlush, h, if_neg h⟩
  obtain ⟨updated, tsFlush, hu, h⟩ := hstart
  unfold updateClock
  dsimp only
  rw [h]
  split_ifs
  all_goals exact ⟨updated, _, hu, rfl⟩

end Writes

/-! ## The flush does not depend on the buffer -/

/-- The sink that lists what is written. -/
def listSink : Sink α (List (IkcpSeg α)) where
  size _ := 0
  put b seg := b ++ [seg]
  output b := b
  size_output _ := rfl

/-- What a flush writes, in order. -/
def flushed (kcp : Ikcpcb α) : List (IkcpSeg α) := (ikcpFlush listSink kcp []).2

/-- Packing segments: each is preceded by an output if it does not fit. -/
def pack {B : Type} (sink : Sink α B) (mtu : UInt32) (segs : List (IkcpSeg α)) (b : B) : B :=
  segs.foldl (fun b seg => sink.put (makeRoom sink mtu (IKCP_OVERHEAD.toNat + seg.len) b) seg) b

section Pack
variable {B : Type} (sink : Sink α B)

@[simp] theorem pack_nil (mtu : UInt32) (b : B) : pack sink mtu [] b = b := rfl

@[simp] theorem pack_cons (mtu : UInt32) (seg : IkcpSeg α) (segs : List (IkcpSeg α)) (b : B) :
    pack sink mtu (seg :: segs) b =
      pack sink mtu segs
        (sink.put (makeRoom sink mtu (IKCP_OVERHEAD.toNat + seg.len) b) seg) := rfl

theorem pack_append (mtu : UInt32) (s t : List (IkcpSeg α)) (b : B) :
    pack sink mtu (s ++ t) b = pack sink mtu t (pack sink mtu s b) := List.foldl_append

@[simp] theorem makeRoom_listSink (mtu : UInt32) (need : Nat) (b : List (IkcpSeg α)) :
    makeRoom listSink mtu need b = b := by
  unfold makeRoom ikcpOutput
  split <;> rfl

@[simp] theorem pack_listSink (mtu : UInt32) (segs b : List (IkcpSeg α)) :
    pack listSink mtu segs b = b ++ segs := by
  induction segs generalizing b with
  | nil => rw [pack_nil, List.append_nil]
  | cons seg segs ih =>
    rw [pack_cons, makeRoom_listSink, ih]
    simp [listSink]

/-- The acknowledgements a flush writes. -/
def ackSegs (acks : List (UInt32 × UInt32)) (seg : IkcpSeg α) : List (IkcpSeg α) :=
  acks.map (fun p => { seg with sn := p.1, ts := p.2 })

/-- The local `seg` after the acknowledgements. -/
def lastAck : List (UInt32 × UInt32) → IkcpSeg α → IkcpSeg α
  | [], seg => seg
  | (sn, ts) :: rest, seg => lastAck rest { seg with sn := sn, ts := ts }

theorem flushAcks_eq (mtu : UInt32) (acks : List (UInt32 × UInt32)) (seg : IkcpSeg α)
    (hs : seg.data = []) (b : B) :
    flushAcks sink mtu acks seg b =
      (lastAck acks seg, pack sink mtu (ackSegs acks seg) b) := by
  induction acks generalizing seg b with
  | nil => rfl
  | cons p rest ih =>
    have hlen : ∀ sn ts, IKCP_OVERHEAD.toNat + { seg with sn := sn, ts := ts : IkcpSeg α }.len =
        IKCP_OVERHEAD.toNat := by
      intro sn ts
      simp [IkcpSeg.len, hs]
    show flushAcks sink mtu rest { seg with sn := p.1, ts := p.2 } _ = _
    rw [ih { seg with sn := p.1, ts := p.2 } hs, lastAck]
    simp only [ackSegs, List.map_cons, pack_cons, hlen]

/-- The probes a flush writes. -/
def probeSegs (kcp : Ikcpcb α) (ask cmd : UInt32) (seg : IkcpSeg α) : List (IkcpSeg α) :=
  if kcp.probe &&& ask ≠ 0 then [{ seg with cmd := cmd }] else []

theorem flushProbe_eq (kcp : Ikcpcb α) (ask cmd : UInt32) (seg : IkcpSeg α) (hs : seg.data = [])
    (b : B) :
    flushProbe sink kcp ask cmd seg b =
      (if kcp.probe &&& ask ≠ 0 then { seg with cmd := cmd } else seg,
        pack sink kcp.mtu (probeSegs kcp ask cmd seg) b) := by
  unfold flushProbe probeSegs
  split
  · have hlen : IKCP_OVERHEAD.toNat + { seg with cmd := cmd : IkcpSeg α }.len =
        IKCP_OVERHEAD.toNat := by
      simp [IkcpSeg.len, hs]
    rw [pack_cons, hlen]
    rfl
  · rfl

theorem data_lastAck (acks : List (UInt32 × UInt32)) (seg : IkcpSeg α) :
    (lastAck acks seg).data = seg.data := by
  induction acks generalizing seg with
  | nil => rfl
  | cons p rest ih => exact ih _

theorem mtu_probeWindow (kcp : Ikcpcb α) : (probeWindow kcp).mtu = kcp.mtu := by
  obtain ⟨wait, ts, probe, h⟩ := probeWindow_writes kcp
  rw [h]

theorem mtu_flushMoved (kcp : Ikcpcb α) : (flushMoved kcp).mtu = kcp.mtu := by
  obtain ⟨queue, buf, nque, nbuf, nxt, ts, h⟩ := flushMoved_writes kcp
  rw [h]

/-- The acknowledgements and probes a flush writes. -/
def ctlSegs (kcp : Ikcpcb α) : List (IkcpSeg α) :=
  let probed := probeWindow { kcp with acklist := [] }
  let last := lastAck kcp.acklist (flushSeg kcp)
  let wask := if probed.probe &&& IKCP_ASK_SEND ≠ 0 then { last with cmd := IKCP_CMD_WASK } else last
  ackSegs kcp.acklist (flushSeg kcp) ++
    (probeSegs probed IKCP_ASK_SEND IKCP_CMD_WASK last ++
      probeSegs probed IKCP_ASK_TELL IKCP_CMD_WINS wask)

/-- The acknowledgements and probes are packed in order. -/
theorem flushCtl_eq (kcp : Ikcpcb α) (b : B) :
    flushCtl sink kcp b = pack sink kcp.mtu (ctlSegs kcp) b := by
  have hdata : (lastAck kcp.acklist (flushSeg kcp)).data = [] := data_lastAck _ _
  unfold flushCtl ctlSegs
  simp only
  rw [flushAcks_eq _ _ _ _ rfl, flushProbe_eq _ _ _ _ _ hdata, flushProbe_eq, mtu_probeWindow,
    pack_append, pack_append]
  split <;> exact hdata

theorem flushData_fst (sink' : Sink α (List (IkcpSeg α))) (kcp : Ikcpcb α)
    (wnd current resent rtomin : UInt32) (l : List (IkcpSeg α)) (acc : FlushAcc) (b : B)
    (b' : List (IkcpSeg α)) :
    (flushData sink kcp wnd current resent rtomin l acc b).1 =
      (flushData sink' kcp wnd current resent rtomin l acc b').1 := by
  induction l generalizing acc b b' with
  | nil => rfl
  | cons segment rest ih =>
    unfold flushData
    split
    · simp only [ih acc b b']
    · rename_i segment' acc' _
      simp only
      rw [ih]

theorem flushData_listSink (kcp : Ikcpcb α) (wnd current resent rtomin : UInt32)
    (l : List (IkcpSeg α)) (acc : FlushAcc) (b : List (IkcpSeg α)) :
    (flushData listSink kcp wnd current resent rtomin l acc b).2 =
      b ++ (flushData listSink kcp wnd current resent rtomin l acc []).2 := by
  induction l generalizing acc b with
  | nil => exact (List.append_nil b).symm
  | cons segment rest ih =>
    unfold flushData
    split
    · exact ih acc b
    · simp only [makeRoom_listSink]
      rw [ih, ih _ (listSink.put [] _)]
      simp [listSink]

/-- The due segments are packed in order. -/
theorem flushData_snd (kcp : Ikcpcb α) (wnd current resent rtomin : UInt32)
    (l : List (IkcpSeg α)) (acc : FlushAcc) (b : B) :
    (flushData sink kcp wnd current resent rtomin l acc b).2 =
      pack sink kcp.mtu (flushData listSink kcp wnd current resent rtomin l acc []).2 b := by
  induction l generalizing acc b with
  | nil => rfl
  | cons segment rest ih =>
    unfold flushData
    split
    · exact ih acc b
    · simp only [makeRoom_listSink]
      rw [ih, flushData_listSink _ _ _ _ _ _ _ (listSink.put [] _)]
      rfl

/-- **The control block after a flush does not depend on the buffer.** -/
theorem ikcpFlush_fst {B' : Type} (sink' : Sink α B') (kcp : Ikcpcb α) (b : B) (b' : B') :
    (ikcpFlush sink kcp b).1 = (ikcpFlush sink' kcp b').1 := by
  unfold ikcpFlush
  split
  · rfl
  · simp only
    rw [flushData_fst sink listSink _ _ _ _ _ _ _ _ [],
      flushData_fst sink' listSink _ _ _ _ _ _ _ _ []]

/-- The loop over `snd_buf`, as a flush enters it. -/
def flushDue (kcp : Ikcpcb α) (b : B) : (List (IkcpSeg α) × FlushAcc) × B :=
  flushData sink (flushMoved kcp) (ikcpWndUnused kcp) kcp.current
    (if kcp.fastresend > 0 then kcp.fastresend.toUInt32 else 0xffffffff)
    (if kcp.nodelay = 0 then (kcp.rxRto >>> 3).toUInt32 else 0) (flushMoved kcp).sndBuf
    ⟨0, false, (flushMoved kcp).xmit, (flushMoved kcp).state⟩ b

theorem ikcpFlush_eq (kcp : Ikcpcb α) (b : B) (hu : kcp.updated ≠ 0) :
    (ikcpFlush sink kcp b).2 = ikcpOutput sink (flushDue sink kcp (flushCtl sink kcp b)).2 := by
  unfold ikcpFlush
  rw [if_neg hu]
  rfl

/-- A flush writes acknowledgements and probes, then what is due. -/
theorem flushed_eq (kcp : Ikcpcb α) (hu : kcp.updated ≠ 0) :
    flushed kcp = ctlSegs kcp ++ (flushDue listSink kcp []).2 := by
  have h : flushed kcp = (flushDue listSink kcp (flushCtl listSink kcp [])).2 :=
    (ikcpFlush_eq listSink kcp [] hu).trans (if_pos rfl)
  rw [h, flushCtl_eq, pack_listSink]
  exact flushData_listSink _ _ _ _ _ _ _ _

/-- **What a flush leaves in the buffer**: it packs the segments `flushed` and hands
out the rest. -/
theorem ikcpFlush_snd (kcp : Ikcpcb α) (b : B) (hu : kcp.updated ≠ 0) :
    (ikcpFlush sink kcp b).2 = ikcpOutput sink (pack sink kcp.mtu (flushed kcp) b) := by
  have hdue : ∀ b, (flushDue sink kcp b).2 =
      pack sink kcp.mtu (flushDue listSink kcp []).2 b := by
    intro b
    rw [← mtu_flushMoved kcp]
    exact flushData_snd _ _ _ _ _ _ _ _ _
  rw [ikcpFlush_eq sink kcp b hu, hdue, flushCtl_eq, ← pack_append, flushed_eq kcp hu]

end Pack

/-! ## What a flush changes -/

/-- The keys the segments `segs` get when they are numbered from `sn` on. -/
def numbered (conv : UInt32) : UInt32 → List (IkcpSeg α) → List (SegKey α)
  | _, [] => []
  | sn, seg :: rest => ⟨conv, IKCP_CMD_PUSH, seg.frg, sn, seg.data⟩ :: numbered conv (sn + 1) rest

@[simp] theorem length_numbered (conv sn : UInt32) (segs : List (IkcpSeg α)) :
    (numbered conv sn segs).length = segs.length := by
  induction segs generalizing sn with
  | nil => rfl
  | cons seg rest ih => simp [numbered, ih]

/-- From `o` to `o'` the segments `moved` at the head of `snd_queue` were numbered
and went to the end of `snd_buf`. -/
structure Numbers (conv : UInt32) (moved : List (IkcpSeg α)) (o o' : Outgoing α) : Prop where
  sndQueue : o.sndQueue = moved ++ o'.sndQueue
  sndNxt : o'.sndNxt = o.sndNxt + UInt32.ofNat moved.length
  sndBuf : o'.sndBuf = o.sndBuf ++ numbered conv o.sndNxt moved
  nsndQue : o.nsndQue = o'.nsndQue + UInt32.ofNat moved.length
  nsndBuf : o'.nsndBuf = o.nsndBuf + UInt32.ofNat moved.length

theorem Numbers.nil (conv : UInt32) (o : Outgoing α) : Numbers conv [] o o where
  sndQueue := rfl
  sndNxt := (UInt32.add_zero _).symm
  sndBuf := (List.append_nil _).symm
  nsndQue := (UInt32.add_zero _).symm
  nsndBuf := (UInt32.add_zero _).symm

@[simp] theorem config_probeWindow (kcp : Ikcpcb α) : (probeWindow kcp).config = kcp.config := by
  obtain ⟨wait, ts, probe, h⟩ := probeWindow_writes kcp
  rw [h]
  rfl

@[simp] theorem outgoing_probeWindow (kcp : Ikcpcb α) :
    (probeWindow kcp).outgoing = kcp.outgoing := by
  obtain ⟨wait, ts, probe, h⟩ := probeWindow_writes kcp
  rw [h]
  rfl

theorem numbers_moveQueue (cwnd wnd current : UInt32) (l : List (IkcpSeg α)) (kcp : Ikcpcb α)
    (hl : kcp.sndQueue = l) :
    ∃ moved, Numbers kcp.conv moved kcp.outgoing (moveQueue cwnd wnd current l kcp).outgoing := by
  induction l generalizing kcp with
  | nil => exact ⟨[], Numbers.nil _ _⟩
  | cons newseg rest ih =>
    unfold moveQueue
    split
    · obtain ⟨moved, h⟩ := ih
        { kcp with
          sndQueue := rest
          sndBuf := kcp.sndBuf ++
            [{ newseg with
                conv := kcp.conv, cmd := IKCP_CMD_PUSH, wnd := wnd, ts := current
                sn := kcp.sndNxt, una := kcp.rcvNxt, resendts := current
                rto := kcp.rxRto.toUInt32, fastack := 0, xmit := 0 }]
          nsndQue := kcp.nsndQue - 1
          nsndBuf := kcp.nsndBuf + 1
          sndNxt := kcp.sndNxt + 1 } rfl
      refine ⟨newseg :: moved, ?_, ?_, ?_, ?_, ?_⟩
      · have hq : rest = moved ++ _ := h.sndQueue
        show kcp.sndQueue = newseg :: (moved ++ _)
        rw [hl, ← hq]
      · rw [h.sndNxt, List.length_cons, SerialNumber.ofNat_succ]
        show kcp.sndNxt + 1 + _ = kcp.sndNxt + _
        grind
      · rw [h.sndBuf]
        simp [Ikcpcb.outgoing, numbered, IkcpSeg.key]
      · have hn : kcp.nsndQue - 1 = _ := h.nsndQue
        rw [List.length_cons, SerialNumber.ofNat_succ]
        show kcp.nsndQue = _
        grind
      · rw [h.nsndBuf, List.length_cons, SerialNumber.ofNat_succ]
        show kcp.nsndBuf + 1 + _ = kcp.nsndBuf + _
        grind
    · exact ⟨[], Numbers.nil _ _⟩

@[simp] theorem incoming_flushMoved (kcp : Ikcpcb α) :
    (flushMoved kcp).incoming = { kcp.incoming with acklist := [] } := by
  obtain ⟨queue, buf, nque, nbuf, nxt, ts, h⟩ := flushMoved_writes kcp
  rw [h]
  rfl

theorem numbers_flushMoved (kcp : Ikcpcb α) :
    ∃ moved, Numbers kcp.conv moved kcp.outgoing (flushMoved kcp).outgoing := by
  have hconv : (probeWindow { kcp with acklist := [] }).conv = kcp.conv :=
    congrArg Config.conv (config_probeWindow _)
  have hout : (probeWindow { kcp with acklist := [] }).outgoing = kcp.outgoing :=
    outgoing_probeWindow _
  rw [← hconv, ← hout]
  exact numbers_moveQueue _ _ _ _ { probeWindow { kcp with acklist := [] } with probe := 0 } rfl

theorem dueSeg_key {kcp : Ikcpcb α} {current resent rtomin : UInt32} {segment : IkcpSeg α}
    {acc : FlushAcc} {r : IkcpSeg α × FlushAcc}
    (h : dueSeg kcp current resent rtomin segment acc = some r) : r.1.key = segment.key := by
  unfold dueSeg at h
  simp only at h
  split_ifs at h <;> cases h <;> rfl

/-- A flush sends segments again, it does not change what they are. -/
theorem map_key_flushData {B : Type} (sink : Sink α B) (kcp : Ikcpcb α)
    (wnd current resent rtomin : UInt32) (l : List (IkcpSeg α)) (acc : FlushAcc) (b : B) :
    (flushData sink kcp wnd current resent rtomin l acc b).1.1.map IkcpSeg.key =
      l.map IkcpSeg.key := by
  induction l generalizing acc b with
  | nil => rfl
  | cons segment rest ih =>
    unfold flushData
    split
    · simp only [List.map_cons, ih]
    · rename_i segment' acc' h
      simp only [List.map_cons, ih]
      exact congrArg (· :: rest.map IkcpSeg.key) (dueSeg_key h)

theorem frame_flushEnd (kcp : Ikcpcb α) (cwnd resent : UInt32) (change : Nat) (lost : Bool) :
    (flushEnd kcp cwnd resent change lost).config = kcp.config ∧
    (flushEnd kcp cwnd resent change lost).outgoing = kcp.outgoing ∧
    (flushEnd kcp cwnd resent change lost).incoming = kcp.incoming := by
  obtain ⟨ssthresh, cwnd', incr, h⟩ := flushEnd_writes kcp cwnd resent change lost
  rw [h]
  exact ⟨rfl, rfl, rfl⟩

section Flush
variable {B : Type} (sink : Sink α B) (kcp : Ikcpcb α) (b : B)

/-- **A flush writes the sending side, the times of the probes and its counters**, and
sends the acknowledgements off. -/
theorem ikcpFlush_writes (hu : kcp.updated ≠ 0) :
    ∃ queue buf nque nbuf nxt ts xmit state ssthresh cwnd incr, (ikcpFlush sink kcp b).1 =
      { kcp with
        sndQueue := queue, sndBuf := buf, nsndQue := nque, nsndBuf := nbuf, sndNxt := nxt
        acklist := [], probe := 0, tsProbe := ts
        probeWait := (probeWindow { kcp with acklist := [] }).probeWait
        xmit := xmit, state := state, ssthresh := ssthresh, cwnd := cwnd, incr := incr } := by
  obtain ⟨queue, buf, nque, nbuf, nxt, ts, hmoved⟩ := flushMoved_writes kcp
  unfold ikcpFlush
  rw [if_neg hu]
  dsimp only
  obtain ⟨ssthresh, cwnd, incr, hend⟩ := flushEnd_writes _ _ _ _ _
  rw [hend, hmoved]
  exact ⟨queue, _, nque, nbuf, nxt, ts, _, _, ssthresh, cwnd, incr, rfl⟩

@[simp] theorem config_ikcpFlush : (ikcpFlush sink kcp b).1.config = kcp.config := by
  by_cases hu : kcp.updated = 0
  · have h : ikcpFlush sink kcp b = (kcp, b) := if_pos hu
    rw [h]
  · obtain ⟨_, _, _, _, _, _, _, _, _, _, _, h⟩ := ikcpFlush_writes sink kcp b hu
    rw [h]
    rfl

/-- A flush reads the receiving side and empties the list of acknowledgements. -/
theorem incoming_ikcpFlush (hu : kcp.updated ≠ 0) :
    (ikcpFlush sink kcp b).1.incoming = { kcp.incoming with acklist := [] } := by
  obtain ⟨_, _, _, _, _, _, _, _, _, _, _, h⟩ := ikcpFlush_writes sink kcp b hu
  rw [h]
  rfl

theorem outgoing_ikcpFlush (hu : kcp.updated ≠ 0) :
    (ikcpFlush sink kcp b).1.outgoing = (flushMoved kcp).outgoing := by
  unfold ikcpFlush
  rw [if_neg hu]
  refine (frame_flushEnd _ _ _ _ _).2.1.trans ?_
  simp only [Ikcpcb.outgoing, map_key_flushData]

/-- **A flush numbers segments at the head of `snd_queue`**, as many as the window
allows. -/
theorem numbers_ikcpFlush :
    ∃ moved, Numbers kcp.conv moved kcp.outgoing (ikcpFlush sink kcp b).1.outgoing := by
  by_cases hu : kcp.updated = 0
  · have h : ikcpFlush sink kcp b = (kcp, b) := if_pos hu
    rw [h]
    exact ⟨[], Numbers.nil _ _⟩
  · rw [outgoing_ikcpFlush sink kcp b hu]
    exact numbers_flushMoved kcp

end Flush

/-! ## What a flush sends -/

/-- An acknowledgement or a probe of the control block `kcp`. -/
structure IsControl (kcp : Ikcpcb α) (seg : IkcpSeg α) : Prop where
  conv : seg.conv = kcp.conv
  data : seg.data = []
  cmd : seg.cmd = IKCP_CMD_ACK ∧ (seg.sn, seg.ts) ∈ kcp.acklist ∨
    seg.cmd = IKCP_CMD_WASK ∨ seg.cmd = IKCP_CMD_WINS

theorem mem_probeSegs {kcp : Ikcpcb α} {ask cmd : UInt32} {seg x : IkcpSeg α}
    (h : x ∈ probeSegs kcp ask cmd seg) : x = { seg with cmd := cmd } := by
  unfold probeSegs at h
  split at h
  · exact List.mem_singleton.mp h
  · cases h

theorem lastAck_eq (acks : List (UInt32 × UInt32)) (seg : IkcpSeg α) :
    ∃ sn ts, lastAck acks seg = { seg with sn := sn, ts := ts } := by
  induction acks generalizing seg with
  | nil => exact ⟨seg.sn, seg.ts, rfl⟩
  | cons p rest ih =>
    obtain ⟨sn, ts, h⟩ := ih { seg with sn := p.1, ts := p.2 }
    exact ⟨sn, ts, h⟩

theorem mem_ctlSegs {kcp : Ikcpcb α} {seg : IkcpSeg α} (h : seg ∈ ctlSegs kcp) :
    IsControl kcp seg ∧ seg.una = kcp.rcvNxt := by
  obtain ⟨sn, ts, hlast⟩ := lastAck_eq kcp.acklist (flushSeg kcp)
  unfold ctlSegs at h
  simp only [hlast, List.mem_append] at h
  rcases h with h | h | h
  · obtain ⟨p, hp, rfl⟩ := List.mem_map.mp h
    exact ⟨⟨rfl, rfl, Or.inl ⟨rfl, hp⟩⟩, rfl⟩
  · rw [mem_probeSegs h]
    exact ⟨⟨rfl, rfl, Or.inr (Or.inl rfl)⟩, rfl⟩
  · rw [mem_probeSegs h]
    split <;> exact ⟨⟨rfl, rfl, Or.inr (Or.inr rfl)⟩, rfl⟩

theorem mem_flushData {kcp : Ikcpcb α} {wnd current resent rtomin : UInt32} {l : List (IkcpSeg α)}
    {acc : FlushAcc} {seg : IkcpSeg α}
    (h : seg ∈ (flushData listSink kcp wnd current resent rtomin l acc []).2) :
    seg.key ∈ l.map IkcpSeg.key ∧ seg.una = kcp.rcvNxt := by
  induction l generalizing acc with
  | nil => cases h
  | cons segment rest ih =>
    unfold flushData at h
    split at h
    · exact ⟨List.mem_cons_of_mem _ (ih h).1, (ih h).2⟩
    · rename_i segment' acc' hdue
      simp only [makeRoom_listSink] at h
      rw [flushData_listSink] at h
      rcases List.mem_append.mp h with h | h
      · rw [List.mem_singleton.mp h]
        exact ⟨List.mem_cons.mpr (Or.inl (dueSeg_key hdue)), rfl⟩
      · exact ⟨List.mem_cons_of_mem _ (ih h).1, (ih h).2⟩

/-- **What a flush sends**: its own acknowledgements and probes, and segments of
`snd_buf`; all of them report `rcv_nxt`. -/
theorem mem_flushed {kcp : Ikcpcb α} {seg : IkcpSeg α} (h : seg ∈ flushed kcp) :
    (IsControl kcp seg ∨ seg.key ∈ (ikcpFlush listSink kcp []).1.outgoing.sndBuf) ∧
      seg.una = kcp.rcvNxt := by
  by_cases hu : kcp.updated = 0
  · have hf : flushed kcp = [] := congrArg Prod.snd (if_pos hu)
    rw [hf] at h
    cases h
  · rw [flushed_eq kcp hu] at h
    rcases List.mem_append.mp h with h | h
    · exact ⟨Or.inl (mem_ctlSegs h).1, (mem_ctlSegs h).2⟩
    · obtain ⟨hk, hu'⟩ := mem_flushData h
      refine ⟨Or.inr ?_, hu'.trans (congrArg Incoming.rcvNxt (incoming_flushMoved kcp))⟩
      rw [outgoing_ikcpFlush listSink kcp [] hu]
      exact hk

/-! ## `ikcp_update` -/

theorem frame_updateClock (kcp : Ikcpcb α) (current : UInt32) :
    (updateClock kcp current).1.config = kcp.config ∧
    (updateClock kcp current).1.outgoing = kcp.outgoing ∧
    (updateClock kcp current).1.incoming = kcp.incoming := by
  obtain ⟨updated, tsFlush, -, h⟩ := updateClock_writes kcp current
  rw [h]
  exact ⟨rfl, rfl, rfl⟩

theorem updated_updateClock (kcp : Ikcpcb α) (current : UInt32) :
    (updateClock kcp current).1.updated ≠ 0 := by
  obtain ⟨updated, tsFlush, hu, h⟩ := updateClock_writes kcp current
  rw [h]
  exact hu

/-- What one update sends: what the flush sends, if one is due. -/
def updateFlushed (kcp : Ikcpcb α) (current : UInt32) : List (IkcpSeg α) :=
  (ikcpUpdate listSink kcp [] current).2

section Update
variable {B : Type} (sink : Sink α B) (kcp : Ikcpcb α) (b : B) (current : UInt32)

/-- **The control block after an update does not depend on the buffer.** -/
theorem ikcpUpdate_fst {B' : Type} (sink' : Sink α B') (b' : B') :
    (ikcpUpdate sink kcp b current).1 = (ikcpUpdate sink' kcp b' current).1 := by
  unfold ikcpUpdate
  dsimp only
  split
  · exact ikcpFlush_fst sink sink' _ _ _
  · rfl

/-- What an update leaves in the buffer. -/
theorem ikcpUpdate_snd (hb : sink.size b = 0) :
    (ikcpUpdate sink kcp b current).2 =
      ikcpOutput sink (pack sink kcp.mtu (updateFlushed kcp current) b) := by
  have hmtu : (updateClock kcp current).1.mtu = kcp.mtu :=
    congrArg Config.mtu (frame_updateClock kcp current).1
  unfold updateFlushed ikcpUpdate
  dsimp only
  split
  · rw [ikcpFlush_snd sink _ _ (updated_updateClock kcp current), hmtu]
    rfl
  · exact (if_pos hb).symm

@[simp] theorem config_ikcpUpdate : (ikcpUpdate sink kcp b current).1.config = kcp.config := by
  unfold ikcpUpdate
  dsimp only
  split
  · exact (config_ikcpFlush _ _ _).trans (frame_updateClock kcp current).1
  · exact (frame_updateClock kcp current).1

/-- An update may send the acknowledgements off; the rest of the receiving side
stays. -/
theorem incoming_ikcpUpdate :
    (ikcpUpdate sink kcp b current).1.incoming = kcp.incoming ∨
    (ikcpUpdate sink kcp b current).1.incoming = { kcp.incoming with acklist := [] } := by
  unfold ikcpUpdate
  dsimp only
  split
  · rw [incoming_ikcpFlush _ _ _ (updated_updateClock kcp current),
      (frame_updateClock kcp current).2.2]
    exact Or.inr rfl
  · exact Or.inl (frame_updateClock kcp current).2.2

/-- An update numbers segments at the head of `snd_queue`. -/
theorem numbers_ikcpUpdate :
    ∃ moved, Numbers kcp.conv moved kcp.outgoing (ikcpUpdate sink kcp b current).1.outgoing := by
  have hconv : (updateClock kcp current).1.conv = kcp.conv :=
    congrArg Config.conv (frame_updateClock kcp current).1
  unfold ikcpUpdate
  dsimp only
  rw [← hconv, ← (frame_updateClock kcp current).2.1]
  split
  · exact numbers_ikcpFlush _ _ _
  · exact ⟨[], Numbers.nil _ _⟩

end Update

/-- **What an update sends.** -/
theorem mem_updateFlushed {kcp : Ikcpcb α} {current : UInt32} {seg : IkcpSeg α}
    (h : seg ∈ updateFlushed kcp current) :
    (IsControl kcp seg ∨ seg.key ∈ (ikcpUpdate listSink kcp [] current).1.outgoing.sndBuf) ∧
      seg.una = kcp.rcvNxt := by
  obtain ⟨hcfg, -, hin⟩ := frame_updateClock kcp current
  have hconv : (updateClock kcp current).1.conv = kcp.conv := congrArg Config.conv hcfg
  have hack : (updateClock kcp current).1.acklist = kcp.acklist := congrArg Incoming.acklist hin
  have hnxt : (updateClock kcp current).1.rcvNxt = kcp.rcvNxt := congrArg Incoming.rcvNxt hin
  unfold updateFlushed ikcpUpdate at h
  unfold ikcpUpdate
  dsimp only at h ⊢
  split at h
  · rename_i hdue
    rw [if_pos hdue]
    obtain ⟨hk, hu⟩ := mem_flushed h
    refine ⟨hk.imp_left ?_, hu.trans hnxt⟩
    rintro ⟨h1, h2, h3⟩
    rw [hconv] at h1
    rw [hack] at h3
    exact ⟨h1, h2, h3⟩
  · cases h

end FlexProxy
