import FlexProxy.KcpQueue

/-! # `ikcp_input`

A datagram is a sequence of segments.  Every segment reports the sender's window
and, in `una`, up to where the sender has received everything; then an
acknowledgement releases one segment of `snd_buf`, a push is acknowledged and
stored, and the two window commands set or clear flags.

The loop is written over segments already decoded (`WireSeg`); `KcpWire` gives
the loop over bytes and shows that it is this one.
-/
namespace FlexProxy
variable {α : Type}

/-! ## Acknowledgements -/

/-- `ikcp_update_ack` -/
def ikcpUpdateAck (kcp : Ikcpcb α) (rtt : Int32) : Ikcpcb α :=
  let kcp :=
    if kcp.rxSrtt = 0 then { kcp with rxSrtt := rtt, rxRttval := rtt / 2 }
    else
      let delta := (rtt - kcp.rxSrtt).toInt
      let delta := if delta < 0 then -delta else delta
      let rttval := Int32.ofInt (((3 * kcp.rxRttval).toInt + delta).tdiv 4)
      let srtt := (7 * kcp.rxSrtt + rtt) / 8
      { kcp with rxRttval := rttval, rxSrtt := if srtt < 1 then 1 else srtt }
  let rto := (kcp.rxSrtt.toUInt32 + imax kcp.interval (4 * kcp.rxRttval).toUInt32).toInt32
  { kcp with rxRto := (ibound kcp.rxMinrto.toUInt32 rto.toUInt32 IKCP_RTO_MAX).toInt32 }

/-- `ikcp_shrink_buf` -/
def ikcpShrinkBuf (kcp : Ikcpcb α) : Ikcpcb α :=
  match kcp.sndBuf with
  | seg :: _ => { kcp with sndUna := seg.sn }
  | [] => { kcp with sndUna := kcp.sndNxt }

/-- The loop of `ikcp_parse_ack`: `snd_buf` without the segment numbered `sn`,
`none` if the loop ends without deleting one. -/
def parseAckLoop (sn : UInt32) : List (IkcpSeg α) → Option (List (IkcpSeg α))
  | [] => none
  | seg :: next =>
    if sn = seg.sn then some next
    else if itimediff sn seg.sn < 0 then none
    else (parseAckLoop sn next).map (seg :: ·)

/-- `ikcp_parse_ack` -/
def ikcpParseAck (kcp : Ikcpcb α) (sn : UInt32) : Ikcpcb α :=
  if itimediff sn kcp.sndUna < 0 ∨ itimediff sn kcp.sndNxt ≥ 0 then kcp
  else
    match parseAckLoop sn kcp.sndBuf with
    | none => kcp
    | some sndBuf => { kcp with sndBuf := sndBuf, nsndBuf := kcp.nsndBuf - 1 }

/-- The loop of `ikcp_parse_una`, over `snd_buf`. -/
def parseUnaLoop (una : UInt32) : List (IkcpSeg α) → Ikcpcb α → Ikcpcb α
  | [], kcp => kcp
  | seg :: next, kcp =>
    if itimediff una seg.sn > 0 then
      parseUnaLoop una next { kcp with sndBuf := next, nsndBuf := kcp.nsndBuf - 1 }
    else kcp

/-- `ikcp_parse_una` -/
def ikcpParseUna (kcp : Ikcpcb α) (una : UInt32) : Ikcpcb α := parseUnaLoop una kcp.sndBuf kcp

/-- The loop of `ikcp_parse_fastack`. -/
def parseFastackLoop (sn : UInt32) : List (IkcpSeg α) → List (IkcpSeg α)
  | [] => []
  | seg :: next =>
    if itimediff sn seg.sn < 0 then seg :: next
    else if sn ≠ seg.sn then { seg with fastack := seg.fastack + 1 } :: parseFastackLoop sn next
    else seg :: parseFastackLoop sn next

/-- `ikcp_parse_fastack`.  Its argument `ts` is read only under
`IKCP_FASTACK_CONSERVE`, which is not defined. -/
def ikcpParseFastack (kcp : Ikcpcb α) (sn : UInt32) : Ikcpcb α :=
  if itimediff sn kcp.sndUna < 0 ∨ itimediff sn kcp.sndNxt ≥ 0 then kcp
  else { kcp with sndBuf := parseFastackLoop sn kcp.sndBuf }

/-- `ikcp_ack_push` -/
def ikcpAckPush (kcp : Ikcpcb α) (sn ts : UInt32) : Ikcpcb α :=
  { kcp with acklist := kcp.acklist ++ [(sn, ts)] }

/-! ## Data -/

/-- The scan of `ikcp_parse_data` over `rcv_buf`, from its tail: the new segment
goes behind the first segment it is after.  `none` if it is there already. -/
def insertSeg (newseg : IkcpSeg α) : List (IkcpSeg α) → Option (List (IkcpSeg α))
  | [] => some [newseg]
  | seg :: prev =>
    if seg.sn = newseg.sn then none
    else if itimediff newseg.sn seg.sn > 0 then some (newseg :: seg :: prev)
    else (insertSeg newseg prev).map (seg :: ·)

/-- Storing a segment in `rcv_buf`, unless it is a repeat. -/
def storeSeg (kcp : Ikcpcb α) (newseg : IkcpSeg α) : Ikcpcb α :=
  match insertSeg newseg kcp.rcvBuf.reverse with
  | some rev => { kcp with rcvBuf := rev.reverse, nrcvBuf := kcp.nrcvBuf + 1 }
  | none => kcp

/-- `ikcp_parse_data` -/
def ikcpParseData (kcp : Ikcpcb α) (newseg : IkcpSeg α) : Ikcpcb α :=
  if itimediff newseg.sn (kcp.rcvNxt + kcp.rcvWnd) ≥ 0 ∨ itimediff newseg.sn kcp.rcvNxt < 0 then
    kcp
  else moveAvailable (storeSeg kcp newseg).rcvBuf (storeSeg kcp newseg)

/-! ## One segment -/

/-- The locals of `ikcp_input` that live across segments. -/
structure InputAcc where
  flag : Bool
  maxack : UInt32
  latestTs : UInt32

/-- The segment `ikcp_input` makes of a push. -/
def pushSeg (w : WireSeg α) : IkcpSeg α where
  conv := w.conv
  cmd := w.cmd.toUInt32
  frg := w.frg.toUInt32
  wnd := w.wnd.toUInt32
  ts := w.ts
  sn := w.sn
  una := w.una
  data := w.data

/-- What `ikcp_input` does with every segment first: the remote window, and
everything before `una` is received. -/
def inputUna (kcp : Ikcpcb α) (w : WireSeg α) : Ikcpcb α :=
  ikcpShrinkBuf (ikcpParseUna { kcp with rmtWnd := w.wnd.toUInt32 } w.una)

/-- `IKCP_CMD_ACK` -/
def inputAck (kcp : Ikcpcb α) (w : WireSeg α) : Ikcpcb α :=
  let kcp :=
    if itimediff kcp.current w.ts ≥ 0 then
      ikcpUpdateAck kcp (Int32.ofInt (itimediff kcp.current w.ts))
    else kcp
  ikcpShrinkBuf (ikcpParseAck kcp w.sn)

/-- The latest acknowledgement of the datagram. -/
def InputAcc.ack (acc : InputAcc) (w : WireSeg α) : InputAcc :=
  if !acc.flag then ⟨true, w.sn, w.ts⟩
  else if itimediff w.sn acc.maxack > 0 then { acc with maxack := w.sn, latestTs := w.ts }
  else acc

/-- `IKCP_CMD_PUSH` -/
def inputPush (kcp : Ikcpcb α) (w : WireSeg α) : Ikcpcb α :=
  if itimediff w.sn (kcp.rcvNxt + kcp.rcvWnd) < 0 then
    let kcp := ikcpAckPush kcp w.sn w.ts
    if itimediff w.sn kcp.rcvNxt ≥ 0 then ikcpParseData kcp (pushSeg w) else kcp
  else kcp

/-- The body of the loop of `ikcp_input`, once the header has been checked. -/
def inputSeg (kcp : Ikcpcb α) (acc : InputAcc) (w : WireSeg α) : Ikcpcb α × InputAcc :=
  let kcp := inputUna kcp w
  if w.cmd.toUInt32 = IKCP_CMD_ACK then (inputAck kcp w, acc.ack w)
  else if w.cmd.toUInt32 = IKCP_CMD_PUSH then (inputPush kcp w, acc)
  else if w.cmd.toUInt32 = IKCP_CMD_WASK then
    ({ kcp with probe := kcp.probe ||| IKCP_ASK_TELL }, acc)
  else (kcp, acc)

/-! ## The datagram -/

/-- The growth of the congestion window when `snd_una` has advanced. -/
def growCwnd (kcp : Ikcpcb α) : Ikcpcb α :=
  if kcp.cwnd < kcp.rmtWnd then
    let mss := kcp.mss
    let kcp : Ikcpcb α :=
      if kcp.cwnd < kcp.ssthresh then
        { kcp with cwnd := kcp.cwnd + 1, incr := kcp.incr + mss }
      else
        let incr := if kcp.incr < mss then mss else kcp.incr
        let incr := incr + ((mss * mss) / incr + (mss / 16))
        if (kcp.cwnd + 1) * mss ≤ incr then
          { kcp with incr := incr, cwnd := (incr + mss - 1) / (if mss > 0 then mss else 1) }
        else { kcp with incr := incr }
    if kcp.cwnd > kcp.rmtWnd then
      { kcp with cwnd := kcp.rmtWnd, incr := kcp.rmtWnd * mss }
    else kcp
  else kcp

/-- What `ikcp_input` does after the loop. -/
def inputEnd (prevUna : UInt32) (kcp : Ikcpcb α) (acc : InputAcc) : Ikcpcb α :=
  let kcp := if acc.flag then ikcpParseFastack kcp acc.maxack else kcp
  if itimediff kcp.sndUna prevUna > 0 then growCwnd kcp else kcp

/-- The commands `ikcp_input` knows. -/
def knownCmd (cmd : UInt8) : Bool :=
  cmd.toUInt32 = IKCP_CMD_PUSH || cmd.toUInt32 = IKCP_CMD_ACK ||
  cmd.toUInt32 = IKCP_CMD_WASK || cmd.toUInt32 = IKCP_CMD_WINS

/-- The loop of `ikcp_input` over decoded segments, with the return value. -/
def inputLoop (prevUna : UInt32) : List (WireSeg α) → Ikcpcb α → InputAcc → Ikcpcb α × Int
  | [], kcp, acc => (inputEnd prevUna kcp acc, 0)
  | w :: rest, kcp, acc =>
    if w.conv ≠ kcp.conv then (kcp, -1)
    else if !knownCmd w.cmd then (kcp, -3)
    else inputLoop prevUna rest (inputSeg kcp acc w).1 (inputSeg kcp acc w).2

/-- `ikcp_input` on a datagram of decoded segments.  A datagram without a whole
header is refused. -/
def inputSegs (kcp : Ikcpcb α) (segs : List (WireSeg α)) : Ikcpcb α × Int :=
  if segs.isEmpty then (kcp, -1) else inputLoop kcp.sndUna segs kcp ⟨false, 0, 0⟩

/-! ## What each step writes -/

section Writes
variable (kcp : Ikcpcb α)

theorem ikcpUpdateAck_writes (rtt : Int32) :
    ∃ rttval srtt rto, ikcpUpdateAck kcp rtt =
      { kcp with rxRttval := rttval, rxSrtt := srtt, rxRto := rto } := by
  unfold ikcpUpdateAck
  split
  · exact ⟨_, _, _, rfl⟩
  · exact ⟨_, _, _, rfl⟩

theorem ikcpShrinkBuf_writes : ∃ una, ikcpShrinkBuf kcp = { kcp with sndUna := una } := by
  unfold ikcpShrinkBuf
  split
  · exact ⟨_, rfl⟩
  · exact ⟨_, rfl⟩

theorem ikcpParseAck_writes (sn : UInt32) :
    ∃ buf nbuf, ikcpParseAck kcp sn = { kcp with sndBuf := buf, nsndBuf := nbuf } := by
  unfold ikcpParseAck
  split
  · exact ⟨kcp.sndBuf, kcp.nsndBuf, rfl⟩
  · split
    · exact ⟨kcp.sndBuf, kcp.nsndBuf, rfl⟩
    · exact ⟨_, _, rfl⟩

theorem parseUnaLoop_writes (una : UInt32) (l : List (IkcpSeg α)) :
    ∃ buf nbuf, parseUnaLoop una l kcp = { kcp with sndBuf := buf, nsndBuf := nbuf } := by
  induction l generalizing kcp with
  | nil => exact ⟨kcp.sndBuf, kcp.nsndBuf, rfl⟩
  | cons seg next ih =>
    by_cases h : itimediff una seg.sn > 0
    · rw [parseUnaLoop, if_pos h]
      obtain ⟨buf, nbuf, hrest⟩ := ih _
      exact ⟨buf, nbuf, hrest⟩
    · rw [parseUnaLoop, if_neg h]
      exact ⟨kcp.sndBuf, kcp.nsndBuf, rfl⟩

/-- The remote window and the `una` of a segment are about the sending side. -/
theorem inputUna_writes (w : WireSeg α) :
    ∃ buf nbuf una, inputUna kcp w =
      { kcp with rmtWnd := w.wnd.toUInt32, sndBuf := buf, nsndBuf := nbuf, sndUna := una } := by
  obtain ⟨buf, nbuf, hparse⟩ :=
    parseUnaLoop_writes { kcp with rmtWnd := w.wnd.toUInt32 } w.una kcp.sndBuf
  obtain ⟨una, hshrink⟩ :=
    ikcpShrinkBuf_writes (ikcpParseUna { kcp with rmtWnd := w.wnd.toUInt32 } w.una)
  refine ⟨buf, nbuf, una, hshrink.trans ?_⟩
  rw [ikcpParseUna, hparse]

/-- So is an acknowledgement. -/
theorem inputAck_writes (w : WireSeg α) :
    ∃ rttval srtt rto buf nbuf una, inputAck kcp w =
      { kcp with
        rxRttval := rttval, rxSrtt := srtt, rxRto := rto
        sndBuf := buf, nsndBuf := nbuf, sndUna := una } := by
  have hparse : ∀ k : Ikcpcb α, ∃ buf nbuf una, ikcpShrinkBuf (ikcpParseAck k w.sn) =
      { k with sndBuf := buf, nsndBuf := nbuf, sndUna := una } := by
    intro k
    obtain ⟨buf, nbuf, hack⟩ := ikcpParseAck_writes k w.sn
    obtain ⟨una, hshrink⟩ := ikcpShrinkBuf_writes (ikcpParseAck k w.sn)
    exact ⟨buf, nbuf, una, by rw [hshrink, hack]⟩
  unfold inputAck
  dsimp only
  split
  · obtain ⟨rttval, srtt, rto, hrtt⟩ :=
      ikcpUpdateAck_writes kcp (Int32.ofInt (itimediff kcp.current w.ts))
    obtain ⟨buf, nbuf, una, h⟩ := hparse
      (ikcpUpdateAck kcp (Int32.ofInt (itimediff kcp.current w.ts)))
    rw [h, hrtt]
    exact ⟨rttval, srtt, rto, buf, nbuf, una, rfl⟩
  · obtain ⟨buf, nbuf, una, h⟩ := hparse kcp
    exact ⟨kcp.rxRttval, kcp.rxSrtt, kcp.rxRto, buf, nbuf, una, h⟩

theorem storeSeg_writes (newseg : IkcpSeg α) :
    ∃ buf nbuf, storeSeg kcp newseg = { kcp with rcvBuf := buf, nrcvBuf := nbuf } := by
  unfold storeSeg
  split
  · exact ⟨_, _, rfl⟩
  · exact ⟨kcp.rcvBuf, kcp.nrcvBuf, rfl⟩

theorem ikcpParseData_writes (newseg : IkcpSeg α) :
    ∃ buf nbuf queue nque nxt, ikcpParseData kcp newseg =
      { kcp with
        rcvBuf := buf, nrcvBuf := nbuf, rcvQueue := queue, nrcvQue := nque, rcvNxt := nxt } := by
  unfold ikcpParseData
  split
  · exact ⟨kcp.rcvBuf, kcp.nrcvBuf, kcp.rcvQueue, kcp.nrcvQue, kcp.rcvNxt, rfl⟩
  · obtain ⟨buf, nbuf, queue, nque, nxt, hmove⟩ :=
      moveAvailable_writes (storeSeg kcp newseg).rcvBuf (storeSeg kcp newseg)
    obtain ⟨buf', nbuf', hstore⟩ := storeSeg_writes kcp newseg
    rw [hmove, hstore]
    exact ⟨buf, nbuf, queue, nque, nxt, rfl⟩

/-- A push is about the receiving side. -/
theorem inputPush_writes (w : WireSeg α) :
    ∃ acks buf nbuf queue nque nxt, inputPush kcp w =
      { kcp with
        acklist := acks, rcvBuf := buf, nrcvBuf := nbuf, rcvQueue := queue, nrcvQue := nque
        rcvNxt := nxt } := by
  unfold inputPush
  dsimp only
  split_ifs
  · obtain ⟨buf, nbuf, queue, nque, nxt, h⟩ :=
      ikcpParseData_writes (ikcpAckPush kcp w.sn w.ts) (pushSeg w)
    exact ⟨kcp.acklist ++ [(w.sn, w.ts)], buf, nbuf, queue, nque, nxt, h⟩
  · exact ⟨kcp.acklist ++ [(w.sn, w.ts)],
      kcp.rcvBuf, kcp.nrcvBuf, kcp.rcvQueue, kcp.nrcvQue, kcp.rcvNxt, rfl⟩
  · exact ⟨kcp.acklist, kcp.rcvBuf, kcp.nrcvBuf, kcp.rcvQueue, kcp.nrcvQue, kcp.rcvNxt, rfl⟩

theorem map_key_parseFastackLoop (sn : UInt32) (l : List (IkcpSeg α)) :
    (parseFastackLoop sn l).map IkcpSeg.key = l.map IkcpSeg.key := by
  induction l with
  | nil => rfl
  | cons seg next ih =>
    unfold parseFastackLoop
    split_ifs
    · rfl
    · rw [List.map_cons, ih]
      rfl
    · rw [List.map_cons, ih]
      rfl

/-- Skipped segments are counted; they stay what they are. -/
theorem ikcpParseFastack_writes (sn : UInt32) :
    ∃ buf, buf.map IkcpSeg.key = kcp.sndBuf.map IkcpSeg.key ∧
      ikcpParseFastack kcp sn = { kcp with sndBuf := buf } := by
  unfold ikcpParseFastack
  split
  · exact ⟨kcp.sndBuf, rfl, rfl⟩
  · exact ⟨_, map_key_parseFastackLoop sn kcp.sndBuf, rfl⟩

theorem growCwnd_writes : ∃ cwnd incr, growCwnd kcp = { kcp with cwnd := cwnd, incr := incr } := by
  unfold growCwnd
  dsimp only
  split_ifs
  all_goals exact ⟨_, _, rfl⟩

/-- The end of `ikcp_input` counts and adjusts windows, nothing else. -/
theorem inputEnd_writes (prevUna : UInt32) (acc : InputAcc) :
    ∃ buf cwnd incr, buf.map IkcpSeg.key = kcp.sndBuf.map IkcpSeg.key ∧
      inputEnd prevUna kcp acc = { kcp with sndBuf := buf, cwnd := cwnd, incr := incr } := by
  obtain ⟨buf, hkey, hfast⟩ : ∃ buf, buf.map IkcpSeg.key = kcp.sndBuf.map IkcpSeg.key ∧
      (if acc.flag then ikcpParseFastack kcp acc.maxack else kcp) = { kcp with sndBuf := buf } := by
    by_cases h : acc.flag
    · rw [if_pos h]
      exact ikcpParseFastack_writes kcp acc.maxack
    · rw [if_neg h]
      exact ⟨kcp.sndBuf, rfl, rfl⟩
  unfold inputEnd
  rw [hfast]
  dsimp only
  split
  · obtain ⟨cwnd, incr, h⟩ := growCwnd_writes { kcp with sndBuf := buf }
    exact ⟨buf, cwnd, incr, hkey, h⟩
  · exact ⟨buf, kcp.cwnd, kcp.incr, hkey, rfl⟩

end Writes

/-! ## What stays the same -/

section Frame

@[simp] theorem outgoing_ikcpUpdateAck (kcp : Ikcpcb α) (rtt : Int32) :
    (ikcpUpdateAck kcp rtt).outgoing = kcp.outgoing := by
  obtain ⟨rttval, srtt, rto, h⟩ := ikcpUpdateAck_writes kcp rtt
  rw [h]
  rfl

@[simp] theorem outgoing_ikcpShrinkBuf (kcp : Ikcpcb α) :
    (ikcpShrinkBuf kcp).outgoing = kcp.outgoing := by
  obtain ⟨una, h⟩ := ikcpShrinkBuf_writes kcp
  rw [h]
  rfl

@[simp] theorem config_inputUna (kcp : Ikcpcb α) (w : WireSeg α) :
    (inputUna kcp w).config = kcp.config := by
  obtain ⟨buf, nbuf, una, h⟩ := inputUna_writes kcp w
  rw [h]
  rfl

@[simp] theorem incoming_inputUna (kcp : Ikcpcb α) (w : WireSeg α) :
    (inputUna kcp w).incoming = kcp.incoming := by
  obtain ⟨buf, nbuf, una, h⟩ := inputUna_writes kcp w
  rw [h]
  rfl

@[simp] theorem config_inputAck (kcp : Ikcpcb α) (w : WireSeg α) :
    (inputAck kcp w).config = kcp.config := by
  obtain ⟨rttval, srtt, rto, buf, nbuf, una, h⟩ := inputAck_writes kcp w
  rw [h]
  rfl

@[simp] theorem incoming_inputAck (kcp : Ikcpcb α) (w : WireSeg α) :
    (inputAck kcp w).incoming = kcp.incoming := by
  obtain ⟨rttval, srtt, rto, buf, nbuf, una, h⟩ := inputAck_writes kcp w
  rw [h]
  rfl

@[simp] theorem config_inputPush (kcp : Ikcpcb α) (w : WireSeg α) :
    (inputPush kcp w).config = kcp.config := by
  obtain ⟨acks, buf, nbuf, queue, nque, nxt, h⟩ := inputPush_writes kcp w
  rw [h]
  rfl

@[simp] theorem outgoing_inputPush (kcp : Ikcpcb α) (w : WireSeg α) :
    (inputPush kcp w).outgoing = kcp.outgoing := by
  obtain ⟨acks, buf, nbuf, queue, nque, nxt, h⟩ := inputPush_writes kcp w
  rw [h]
  rfl

@[simp] theorem config_inputSeg (kcp : Ikcpcb α) (acc : InputAcc) (w : WireSeg α) :
    (inputSeg kcp acc w).1.config = kcp.config := by
  unfold inputSeg
  simp only
  split_ifs
  · rw [config_inputAck, config_inputUna]
  · rw [config_inputPush, config_inputUna]
  · exact config_inputUna kcp w
  · exact config_inputUna kcp w

theorem frame_inputEnd (prevUna : UInt32) (kcp : Ikcpcb α) (acc : InputAcc) :
    (inputEnd prevUna kcp acc).config = kcp.config ∧
    (inputEnd prevUna kcp acc).outgoing = kcp.outgoing ∧
    (inputEnd prevUna kcp acc).incoming = kcp.incoming := by
  obtain ⟨buf, cwnd, incr, hkey, h⟩ := inputEnd_writes kcp prevUna acc
  rw [h]
  refine ⟨rfl, ?_, rfl⟩
  simp only [Ikcpcb.outgoing, hkey]

theorem config_inputLoop (prevUna : UInt32) (segs : List (WireSeg α)) (kcp : Ikcpcb α)
    (acc : InputAcc) : (inputLoop prevUna segs kcp acc).1.config = kcp.config := by
  induction segs generalizing kcp acc with
  | nil => exact (frame_inputEnd prevUna kcp acc).1
  | cons w rest ih =>
    unfold inputLoop
    split_ifs
    · rfl
    · rfl
    · rw [ih, config_inputSeg]

@[simp] theorem config_inputSegs (kcp : Ikcpcb α) (segs : List (WireSeg α)) :
    (inputSegs kcp segs).1.config = kcp.config := by
  unfold inputSegs
  split
  · rfl
  · exact config_inputLoop _ _ _ _

end Frame

/-! ## What is released

An incoming segment releases numbered segments of `snd_buf` in two ways: those
before its `una`, and, if it is an acknowledgement, the one it names. -/

/-- The incoming segment `w` says that segment number `sn` has arrived. -/
def Acknowledges (w : WireSeg α) (sn : UInt32) : Prop :=
  itimediff w.una sn > 0 ∨ w.cmd.toUInt32 = IKCP_CMD_ACK ∧ w.sn = sn

/-- From `o` to `o'` only numbered segments that satisfy `P` were released, and
the counter counted them. -/
structure Releases (P : UInt32 → Prop) (o o' : Outgoing α) : Prop where
  sndNxt : o'.sndNxt = o.sndNxt
  sndQueue : o'.sndQueue = o.sndQueue
  nsndQue : o'.nsndQue = o.nsndQue
  sub : o'.sndBuf.Sublist o.sndBuf
  kept : ∀ x ∈ o.sndBuf, x ∈ o'.sndBuf ∨ P x.sn
  count : o'.nsndBuf + UInt32.ofNat o.sndBuf.length = o.nsndBuf + UInt32.ofNat o'.sndBuf.length

namespace Releases
variable {P Q : UInt32 → Prop} {o o' o'' : Outgoing α}

theorem refl (P : UInt32 → Prop) (o : Outgoing α) : Releases P o o where
  sndNxt := rfl
  sndQueue := rfl
  nsndQue := rfl
  sub := List.Sublist.refl _
  kept := fun _ hx => Or.inl hx
  count := rfl

theorem trans (h : Releases P o o') (h' : Releases P o' o'') : Releases P o o'' where
  sndNxt := h'.sndNxt.trans h.sndNxt
  sndQueue := h'.sndQueue.trans h.sndQueue
  nsndQue := h'.nsndQue.trans h.nsndQue
  sub := h'.sub.trans h.sub
  kept := by
    intro x hx
    rcases h.kept x hx with hx | hx
    · exact h'.kept x hx
    · exact Or.inr hx
  count := by
    have h1 := h.count
    have h2 := h'.count
    grind

theorem mono (hPQ : ∀ sn, P sn → Q sn) (h : Releases P o o') : Releases Q o o' where
  sndNxt := h.sndNxt
  sndQueue := h.sndQueue
  nsndQue := h.nsndQue
  sub := h.sub
  kept := fun x hx => (h.kept x hx).imp_right (hPQ x.sn)
  count := h.count

end Releases

theorem parseAckLoop_eq {sn : UInt32} {l l' : List (IkcpSeg α)} (h : parseAckLoop sn l = some l') :
    ∃ l1 seg l2, l = l1 ++ seg :: l2 ∧ l' = l1 ++ l2 ∧ seg.sn = sn := by
  induction l generalizing l' with
  | nil => cases h
  | cons seg next ih =>
    unfold parseAckLoop at h
    split_ifs at h with h1 h2
    · cases h
      exact ⟨[], seg, next, rfl, rfl, h1.symm⟩
    · obtain ⟨m, hm, rfl⟩ := Option.map_eq_some_iff.mp h
      obtain ⟨l1, s, l2, rfl, rfl, hs⟩ := ih hm
      exact ⟨seg :: l1, s, l2, rfl, rfl, hs⟩

theorem releases_ikcpParseAck (kcp : Ikcpcb α) (sn : UInt32) :
    Releases (· = sn) kcp.outgoing (ikcpParseAck kcp sn).outgoing := by
  unfold ikcpParseAck
  split
  · exact Releases.refl _ _
  · split
    · exact Releases.refl _ _
    · rename_i l' h
      obtain ⟨l1, seg, l2, hl, rfl, hs⟩ := parseAckLoop_eq h
      refine ⟨rfl, rfl, rfl, ?_, ?_, ?_⟩
      · simp [Ikcpcb.outgoing, hl]
      · intro x hx
        simp only [Ikcpcb.outgoing, hl, List.map_append, List.map_cons, List.mem_append,
          List.mem_cons] at hx ⊢
        rcases hx with hx | rfl | hx
        · exact Or.inl (Or.inl hx)
        · exact Or.inr hs
        · exact Or.inl (Or.inr hx)
      · simp only [Ikcpcb.outgoing, hl, List.length_map, List.length_append, List.length_cons]
        rw [← Nat.add_assoc, SerialNumber.ofNat_succ]
        grind

theorem releases_parseUnaLoop (una : UInt32) (l : List (IkcpSeg α)) (kcp : Ikcpcb α)
    (hl : kcp.sndBuf = l) :
    Releases (fun sn => itimediff una sn > 0) kcp.outgoing (parseUnaLoop una l kcp).outgoing := by
  induction l generalizing kcp with
  | nil => exact Releases.refl _ _
  | cons seg next ih =>
    unfold parseUnaLoop
    split
    · rename_i h
      refine Releases.trans ?_ (ih { kcp with sndBuf := next, nsndBuf := kcp.nsndBuf - 1 } rfl)
      refine ⟨rfl, rfl, rfl, ?_, ?_, ?_⟩
      · simp [Ikcpcb.outgoing, hl]
      · intro x hx
        simp only [Ikcpcb.outgoing, hl, List.map_cons, List.mem_cons] at hx ⊢
        rcases hx with rfl | hx
        · exact Or.inr h
        · exact Or.inl hx
      · simp only [Ikcpcb.outgoing, hl, List.length_map, List.length_cons]
        rw [SerialNumber.ofNat_succ]
        grind
    · exact Releases.refl _ _

theorem releases_inputUna (kcp : Ikcpcb α) (w : WireSeg α) :
    Releases (Acknowledges w) kcp.outgoing (inputUna kcp w).outgoing := by
  rw [inputUna, outgoing_ikcpShrinkBuf]
  exact (releases_parseUnaLoop w.una _ { kcp with rmtWnd := w.wnd.toUInt32 } rfl).mono
    (fun _ h => Or.inl h)

theorem releases_inputAck (kcp : Ikcpcb α) (w : WireSeg α) (hw : w.cmd.toUInt32 = IKCP_CMD_ACK) :
    Releases (Acknowledges w) kcp.outgoing (inputAck kcp w).outgoing := by
  rw [inputAck, outgoing_ikcpShrinkBuf]
  have h : ∀ k : Ikcpcb α, k.outgoing = kcp.outgoing →
      Releases (Acknowledges w) kcp.outgoing (ikcpParseAck k w.sn).outgoing := by
    intro k hk
    rw [← hk]
    exact (releases_ikcpParseAck k w.sn).mono (fun _ hs => Or.inr ⟨hw, hs.symm⟩)
  split
  · exact h _ (outgoing_ikcpUpdateAck _ _)
  · exact h _ rfl

/-- One incoming segment releases only what it acknowledges. -/
theorem releases_inputSeg (kcp : Ikcpcb α) (acc : InputAcc) (w : WireSeg α) :
    Releases (Acknowledges w) kcp.outgoing (inputSeg kcp acc w).1.outgoing := by
  have h := releases_inputUna kcp w
  unfold inputSeg
  simp only
  split_ifs with h1
  · exact h.trans (releases_inputAck _ w h1)
  · rw [outgoing_inputPush]
    exact h
  · exact h
  · exact h

theorem releases_inputLoop (prevUna : UInt32) (segs : List (WireSeg α)) (kcp : Ikcpcb α)
    (acc : InputAcc) :
    Releases (fun sn => ∃ w ∈ segs, Acknowledges w sn) kcp.outgoing
      (inputLoop prevUna segs kcp acc).1.outgoing := by
  induction segs generalizing kcp acc with
  | nil =>
    unfold inputLoop
    rw [(frame_inputEnd prevUna kcp acc).2.1]
    exact Releases.refl _ _
  | cons w rest ih =>
    unfold inputLoop
    split_ifs
    · exact Releases.refl _ _
    · exact Releases.refl _ _
    · refine ((releases_inputSeg kcp acc w).mono ?_).trans ((ih _ _).mono ?_)
      · exact fun _ h => ⟨w, List.mem_cons_self .., h⟩
      · exact fun _ ⟨v, hv, h⟩ => ⟨v, List.mem_cons_of_mem _ hv, h⟩

/-- **A datagram releases only segments that one of its segments
acknowledges.** -/
theorem releases_inputSegs (kcp : Ikcpcb α) (segs : List (WireSeg α)) :
    Releases (fun sn => ∃ w ∈ segs, Acknowledges w sn) kcp.outgoing
      (inputSegs kcp segs).1.outgoing := by
  unfold inputSegs
  split
  · exact Releases.refl _ _
  · exact releases_inputLoop _ _ _ _

end FlexProxy
