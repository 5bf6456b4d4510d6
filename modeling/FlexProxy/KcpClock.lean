import FlexProxy.Transport

/-! # A control block with another clock

`ikcp_update` is given the time as a 32-bit word.  Here the words of one machine are
moved by a constant `own`, and those of the machine it talks to by `peer`.

`Ikcpcb.shift` says what that does to a control block: every time in it moves with the
clock it was taken from, and nothing else changes.  Every operation commutes with it
(`shift_ikcpSend`, `shift_ikcpRecv`, `shift_inputSegs`, `shift_ikcpUpdate`), because
`ikcp.c` subtracts times and never looks at one by itself.  The exceptions are the
zeros that stand for "not set yet": `current` and `ts_flush` before the first update,
and `ts_probe` while no probe is due.  They do not move.
-/
namespace FlexProxy
variable {α : Type}

/-! ## Shifted segments -/

/-- A segment of `snd_buf`: both times are of the own clock. -/
def IkcpSeg.shift (own : UInt32) (seg : IkcpSeg α) : IkcpSeg α :=
  { seg with ts := seg.ts + own, resendts := seg.resendts + own }

/-- A segment received: `ts` is of the sender's clock. -/
def IkcpSeg.shiftTs (peer : UInt32) (seg : IkcpSeg α) : IkcpSeg α := { seg with ts := seg.ts + peer }

/-- An entry of `acklist`, which echoes a time of the peer. -/
def shiftAck (peer : UInt32) (a : UInt32 × UInt32) : UInt32 × UInt32 := (a.1, a.2 + peer)

/-- `w'` is `w` from a machine whose clock is moved by `own`, talking to one whose clock
is moved by `peer`: the time of a push is its own, and that of an acknowledgement is the
one it echoes. -/
structure WireSeg.Shifted (own peer : UInt32) (w w' : WireSeg α) : Prop where
  conv : w'.conv = w.conv
  cmd : w'.cmd = w.cmd
  frg : w'.frg = w.frg
  wnd : w'.wnd = w.wnd
  sn : w'.sn = w.sn
  una : w'.una = w.una
  data : w'.data = w.data
  push : w.cmd.toUInt32 = IKCP_CMD_PUSH → w'.ts = w.ts + own
  ack : w.cmd.toUInt32 = IKCP_CMD_ACK → w'.ts = w.ts + peer

/-- The control block of a machine whose clock is moved by `own`, when the clock of the
peer is moved by `peer`. -/
def Ikcpcb.shift (own peer : UInt32) (kcp : Ikcpcb α) : Ikcpcb α :=
  { kcp with
    current := if kcp.updated = 0 then kcp.current else kcp.current + own
    tsFlush := if kcp.updated = 0 then kcp.tsFlush else kcp.tsFlush + own
    tsProbe := if kcp.probeWait = 0 then kcp.tsProbe else kcp.tsProbe + own
    sndBuf := kcp.sndBuf.map (IkcpSeg.shift own)
    rcvQueue := kcp.rcvQueue.map (IkcpSeg.shiftTs peer)
    rcvBuf := kcp.rcvBuf.map (IkcpSeg.shiftTs peer)
    acklist := kcp.acklist.map (shiftAck peer) }

/-- Which times have been set: those of the clock, by the first update, and that of the
next window probe. -/
def Ikcpcb.timesSet (kcp : Ikcpcb α) : UInt32 × UInt32 := (kcp.updated, kcp.probeWait)

section Shift
variable (own peer : UInt32)

/-- While no time has been set, nothing moves. -/
theorem shift_eq_self {kcp : Ikcpcb α} (hu : kcp.updated = 0) (hw : kcp.probeWait = 0)
    (hs : kcp.sndBuf = []) (hi : kcp.rcvQueue = [] ∧ kcp.rcvBuf = [] ∧ kcp.acklist = []) :
    kcp.shift own peer = kcp := by
  obtain ⟨hq, hb, ha⟩ := hi
  cases kcp
  simp only at hu hw hs hq hb ha
  subst hu hw hs hq hb ha
  rfl

theorem shift_forwarderKcp : (forwarderKcp (α := α)).shift own peer = forwarderKcp :=
  shift_eq_self own peer rfl rfl rfl ⟨rfl, rfl, rfl⟩

/-- What is sent does not depend on the clocks. -/
@[simp] theorem outgoing_shift (kcp : Ikcpcb α) : (kcp.shift own peer).outgoing = kcp.outgoing := by
  simp only [Ikcpcb.outgoing, Ikcpcb.shift, List.map_map]
  rfl

@[simp] theorem segData_map_shiftTs (segs : List (IkcpSeg α)) :
    segData (segs.map (IkcpSeg.shiftTs peer)) = segData segs := by
  rw [segData, List.flatMap_map]
  rfl

/-! ## `ikcp_send` and `ikcp_recv` -/

/-- `ikcp_send` works on `snd_queue`, in which no times have been set. -/
theorem shift_ikcpSend {kcp : Ikcpcb α} (hc : kcp.config = forwarderConfig) {buffer : List α}
    (hb : buffer.length ≤ 127 * 1376) :
    ikcpSend (kcp.shift own peer) buffer =
      ((ikcpSend kcp buffer).1.shift own peer, (ikcpSend kcp buffer).2) := by
  have hc' : (kcp.shift own peer).config = forwarderConfig := hc
  rw [ikcpSend_eq hc' hb, ikcpSend_eq hc hb]
  rfl

theorem takeMessage_map_shiftTs (queue : List (IkcpSeg α)) :
    takeMessage (queue.map (IkcpSeg.shiftTs peer)) =
      ((takeMessage queue).1.map (IkcpSeg.shiftTs peer),
        (takeMessage queue).2.map (IkcpSeg.shiftTs peer)) := by
  induction queue with
  | nil => rfl
  | cons seg rest ih =>
    by_cases h : seg.frg = 0
    · have h' : (seg.shiftTs peer).frg = 0 := h
      rw [List.map_cons, takeMessage, takeMessage, if_pos h', if_pos h]
      rfl
    · have h' : ¬ (seg.shiftTs peer).frg = 0 := h
      rw [List.map_cons, takeMessage, takeMessage, if_neg h', if_neg h, ih]
      rfl

theorem ikcpPeeksize_shift (kcp : Ikcpcb α) :
    ikcpPeeksize (kcp.shift own peer) = ikcpPeeksize kcp := by
  have hlen : ∀ segs : List (IkcpSeg α),
      (segs.map (IkcpSeg.shiftTs peer)).map IkcpSeg.len = segs.map IkcpSeg.len := by
    intro segs
    rw [List.map_map]
    rfl
  have hqueue : (kcp.shift own peer).rcvQueue = kcp.rcvQueue.map (IkcpSeg.shiftTs peer) := rfl
  unfold ikcpPeeksize
  rw [hqueue, takeMessage_map_shiftTs, hlen]
  cases kcp.rcvQueue <;> rfl

theorem shift_moveAvailable (l : List (IkcpSeg α)) (kcp : Ikcpcb α) :
    moveAvailable (l.map (IkcpSeg.shiftTs peer)) (kcp.shift own peer) =
      (moveAvailable l kcp).shift own peer := by
  induction l generalizing kcp with
  | nil => rfl
  | cons seg rest ih =>
    by_cases h : seg.sn = kcp.rcvNxt ∧ kcp.nrcvQue < kcp.rcvWnd
    · have h' : (seg.shiftTs peer).sn = (kcp.shift own peer).rcvNxt ∧
          (kcp.shift own peer).nrcvQue < (kcp.shift own peer).rcvWnd := h
      rw [List.map_cons, moveAvailable, moveAvailable, if_pos h', if_pos h, ← ih]
      simp only [Ikcpcb.shift, List.map_append, List.map_cons, List.map_nil]
    · have h' : ¬ ((seg.shiftTs peer).sn = (kcp.shift own peer).rcvNxt ∧
          (kcp.shift own peer).nrcvQue < (kcp.shift own peer).rcvWnd) := h
      rw [List.map_cons, moveAvailable, moveAvailable, if_neg h', if_neg h]

theorem shift_dropMessage (kcp : Ikcpcb α) :
    dropMessage (kcp.shift own peer) = (dropMessage kcp).shift own peer := by
  simp only [dropMessage, Ikcpcb.shift, takeMessage_map_shiftTs, List.length_map]
  rfl

theorem shift_fastRecover (recover : Bool) (kcp : Ikcpcb α) :
    fastRecover recover (kcp.shift own peer) = (fastRecover recover kcp).shift own peer := by
  unfold fastRecover
  by_cases h : kcp.nrcvQue < kcp.rcvWnd ∧ recover
  · have h' : (kcp.shift own peer).nrcvQue < (kcp.shift own peer).rcvWnd ∧ recover := h
    rw [if_pos h, if_pos h']
    rfl
  · have h' : ¬ ((kcp.shift own peer).nrcvQue < (kcp.shift own peer).rcvWnd ∧ recover) := h
    rw [if_neg h, if_neg h']

/-- `ikcp_recv` hands out the same bytes. -/
theorem shift_ikcpRecv (kcp : Ikcpcb α) (len : Int) :
    ikcpRecv (kcp.shift own peer) len =
      ((ikcpRecv kcp len).1.shift own peer, (ikcpRecv kcp len).2) := by
  have hempty : (kcp.shift own peer).rcvQueue.isEmpty = kcp.rcvQueue.isEmpty := List.isEmpty_map
  have hmessage : segData (takeMessage (kcp.shift own peer).rcvQueue).1 =
      segData (takeMessage kcp.rcvQueue).1 := by
    show segData (takeMessage (kcp.rcvQueue.map (IkcpSeg.shiftTs peer))).1 = _
    rw [takeMessage_map_shiftTs, segData_map_shiftTs]
  have hmove : ∀ k : Ikcpcb α, moveAvailable (k.shift own peer).rcvBuf (k.shift own peer) =
      (moveAvailable k.rcvBuf k).shift own peer :=
    fun k => shift_moveAvailable own peer k.rcvBuf k
  have hfull : decide ((kcp.shift own peer).nrcvQue ≥ (kcp.shift own peer).rcvWnd) =
      decide (kcp.nrcvQue ≥ kcp.rcvWnd) := rfl
  unfold ikcpRecv
  simp only [hempty, ikcpPeeksize_shift, hmessage, hfull]
  split_ifs
  · rfl
  · rfl
  · rfl
  · rw [hmove, shift_fastRecover]
  · rfl
  · rw [shift_dropMessage, hmove, shift_fastRecover]

/-! ## `ikcp_input` -/

theorem shift_ikcpUpdateAck (kcp : Ikcpcb α) (rtt : Int32) :
    ikcpUpdateAck (kcp.shift own peer) rtt = (ikcpUpdateAck kcp rtt).shift own peer := by
  unfold ikcpUpdateAck
  by_cases h : kcp.rxSrtt = 0
  · have h' : (kcp.shift own peer).rxSrtt = 0 := h
    simp only [h, h', if_true]
    rfl
  · have h' : ¬ (kcp.shift own peer).rxSrtt = 0 := h
    simp only [h, h', if_false]
    rfl

theorem shift_ikcpShrinkBuf (kcp : Ikcpcb α) :
    ikcpShrinkBuf (kcp.shift own peer) = (ikcpShrinkBuf kcp).shift own peer := by
  have hbuf : (kcp.shift own peer).sndBuf = kcp.sndBuf.map (IkcpSeg.shift own) := rfl
  unfold ikcpShrinkBuf
  rw [hbuf]
  cases kcp.sndBuf <;> rfl

theorem parseAckLoop_map_shift (sn : UInt32) (l : List (IkcpSeg α)) :
    parseAckLoop sn (l.map (IkcpSeg.shift own)) =
      (parseAckLoop sn l).map (List.map (IkcpSeg.shift own)) := by
  induction l with
  | nil => rfl
  | cons seg next ih =>
    have hsn : (seg.shift own).sn = seg.sn := rfl
    rw [List.map_cons, parseAckLoop, parseAckLoop, hsn, ih]
    split_ifs
    · rfl
    · rfl
    · rw [Option.map_map, Option.map_map]
      rfl

theorem shift_ikcpParseAck (kcp : Ikcpcb α) (sn : UInt32) :
    ikcpParseAck (kcp.shift own peer) sn = (ikcpParseAck kcp sn).shift own peer := by
  have hbuf : (kcp.shift own peer).sndBuf = kcp.sndBuf.map (IkcpSeg.shift own) := rfl
  have huna : (kcp.shift own peer).sndUna = kcp.sndUna := rfl
  have hnxt : (kcp.shift own peer).sndNxt = kcp.sndNxt := rfl
  unfold ikcpParseAck
  rw [hbuf, huna, hnxt, parseAckLoop_map_shift]
  split
  · rfl
  · cases parseAckLoop sn kcp.sndBuf <;> rfl

theorem shift_parseUnaLoop (una : UInt32) (l : List (IkcpSeg α)) (kcp : Ikcpcb α) :
    parseUnaLoop una (l.map (IkcpSeg.shift own)) (kcp.shift own peer) =
      (parseUnaLoop una l kcp).shift own peer := by
  induction l generalizing kcp with
  | nil => rfl
  | cons seg next ih =>
    have hsn : (seg.shift own).sn = seg.sn := rfl
    rw [List.map_cons, parseUnaLoop, parseUnaLoop, hsn]
    split
    · exact ih { kcp with sndBuf := next, nsndBuf := kcp.nsndBuf - 1 }
    · rfl

theorem parseFastackLoop_map_shift (sn : UInt32) (l : List (IkcpSeg α)) :
    parseFastackLoop sn (l.map (IkcpSeg.shift own)) =
      (parseFastackLoop sn l).map (IkcpSeg.shift own) := by
  induction l with
  | nil => rfl
  | cons seg next ih =>
    have hsn : (seg.shift own).sn = seg.sn := rfl
    rw [List.map_cons, parseFastackLoop, parseFastackLoop, hsn, ih]
    split_ifs <;> rfl

theorem shift_ikcpParseFastack (kcp : Ikcpcb α) (sn : UInt32) :
    ikcpParseFastack (kcp.shift own peer) sn = (ikcpParseFastack kcp sn).shift own peer := by
  have hbuf : (kcp.shift own peer).sndBuf = kcp.sndBuf.map (IkcpSeg.shift own) := rfl
  have huna : (kcp.shift own peer).sndUna = kcp.sndUna := rfl
  have hnxt : (kcp.shift own peer).sndNxt = kcp.sndNxt := rfl
  unfold ikcpParseFastack
  rw [hbuf, huna, hnxt, parseFastackLoop_map_shift]
  split <;> rfl

theorem insertSeg_map_shiftTs {newseg newseg' : IkcpSeg α} (h : newseg' = newseg.shiftTs peer)
    (l : List (IkcpSeg α)) :
    insertSeg newseg' (l.map (IkcpSeg.shiftTs peer)) =
      (insertSeg newseg l).map (List.map (IkcpSeg.shiftTs peer)) := by
  subst h
  induction l with
  | nil => rfl
  | cons seg prev ih =>
    have hsn : (seg.shiftTs peer).sn = seg.sn := rfl
    have hnew : (newseg.shiftTs peer).sn = newseg.sn := rfl
    rw [List.map_cons, insertSeg, insertSeg, hsn, hnew, ih]
    split_ifs
    · rfl
    · rfl
    · rw [Option.map_map, Option.map_map]
      rfl

theorem shift_storeSeg (kcp : Ikcpcb α) (newseg : IkcpSeg α) :
    storeSeg (kcp.shift own peer) (newseg.shiftTs peer) = (storeSeg kcp newseg).shift own peer := by
  have hbuf : (kcp.shift own peer).rcvBuf.reverse = kcp.rcvBuf.reverse.map (IkcpSeg.shiftTs peer) :=
    List.map_reverse.symm
  unfold storeSeg
  rw [hbuf, insertSeg_map_shiftTs peer rfl]
  cases insertSeg newseg kcp.rcvBuf.reverse with
  | none => rfl
  | some rev =>
    simp only [Option.map_some, ← List.map_reverse]
    rfl

theorem shift_ikcpParseData (kcp : Ikcpcb α) (newseg : IkcpSeg α) :
    ikcpParseData (kcp.shift own peer) (newseg.shiftTs peer) =
      (ikcpParseData kcp newseg).shift own peer := by
  have hsn : (newseg.shiftTs peer).sn = newseg.sn := rfl
  have hnxt : (kcp.shift own peer).rcvNxt = kcp.rcvNxt := rfl
  have hwnd : (kcp.shift own peer).rcvWnd = kcp.rcvWnd := rfl
  unfold ikcpParseData
  rw [hsn, hnxt, hwnd, shift_storeSeg]
  split
  · rfl
  · exact shift_moveAvailable own peer _ _

theorem shift_growCwnd (kcp : Ikcpcb α) :
    growCwnd (kcp.shift own peer) = (growCwnd kcp).shift own peer := by
  have hcwnd : (kcp.shift own peer).cwnd = kcp.cwnd := rfl
  have hrmt : (kcp.shift own peer).rmtWnd = kcp.rmtWnd := rfl
  have hthresh : (kcp.shift own peer).ssthresh = kcp.ssthresh := rfl
  have hmss : (kcp.shift own peer).mss = kcp.mss := rfl
  have hincr : (kcp.shift own peer).incr = kcp.incr := rfl
  unfold growCwnd
  simp only [hcwnd, hrmt, hthresh, hmss, hincr]
  split_ifs <;> rfl

@[simp] theorem timesSet_inputUna (kcp : Ikcpcb α) (w : WireSeg α) :
    (inputUna kcp w).timesSet = kcp.timesSet := by
  obtain ⟨buf, nbuf, una, h⟩ := inputUna_writes kcp w
  rw [h]
  rfl

@[simp] theorem timesSet_inputAck (kcp : Ikcpcb α) (w : WireSeg α) :
    (inputAck kcp w).timesSet = kcp.timesSet := by
  obtain ⟨rttval, srtt, rto, buf, nbuf, una, h⟩ := inputAck_writes kcp w
  rw [h]
  rfl

@[simp] theorem timesSet_inputPush (kcp : Ikcpcb α) (w : WireSeg α) :
    (inputPush kcp w).timesSet = kcp.timesSet := by
  obtain ⟨acks, buf, nbuf, queue, nque, nxt, h⟩ := inputPush_writes kcp w
  rw [h]
  rfl

/-- What arrives does not start the clock. -/
theorem timesSet_inputSeg (kcp : Ikcpcb α) (acc : InputAcc) (w : WireSeg α) :
    (inputSeg kcp acc w).1.timesSet = kcp.timesSet := by
  unfold inputSeg
  dsimp only
  split_ifs
  · rw [timesSet_inputAck, timesSet_inputUna]
  · rw [timesSet_inputPush, timesSet_inputUna]
  · exact timesSet_inputUna kcp w
  · exact timesSet_inputUna kcp w

/-- The segment made of a shifted push. -/
theorem pushSeg_shifted {w w' : WireSeg α} (h : w.Shifted peer own w')
    (hcmd : w.cmd.toUInt32 = IKCP_CMD_PUSH) : pushSeg w' = (pushSeg w).shiftTs peer := by
  simp only [pushSeg, IkcpSeg.shiftTs, h.conv, h.cmd, h.frg, h.wnd, h.sn, h.una, h.data, h.push hcmd]

theorem shift_inputUna (kcp : Ikcpcb α) {w w' : WireSeg α} (h : w.Shifted peer own w') :
    inputUna (kcp.shift own peer) w' = (inputUna kcp w).shift own peer := by
  unfold inputUna
  rw [h.wnd, h.una, ← shift_ikcpShrinkBuf]
  congr 1
  exact shift_parseUnaLoop own peer w.una kcp.sndBuf { kcp with rmtWnd := w.wnd.toUInt32 }

/-- A round trip is measured with one clock: both the time now and the time that comes
back are its own. -/
theorem shift_inputAck {kcp : Ikcpcb α} (hu : kcp.updated ≠ 0) {w w' : WireSeg α}
    (h : w.Shifted peer own w') (hcmd : w.cmd.toUInt32 = IKCP_CMD_ACK) :
    inputAck (kcp.shift own peer) w' = (inputAck kcp w).shift own peer := by
  have hrtt : itimediff (kcp.shift own peer).current w'.ts = itimediff kcp.current w.ts := by
    rw [h.ack hcmd]
    show itimediff (if kcp.updated = 0 then _ else _) _ = _
    rw [if_neg hu]
    exact SerialNumber.diff_add_right _ _ _
  unfold inputAck
  dsimp only
  rw [hrtt, h.sn, shift_ikcpUpdateAck]
  split
  · rw [shift_ikcpParseAck, shift_ikcpShrinkBuf]
  · rw [shift_ikcpParseAck, shift_ikcpShrinkBuf]

theorem shift_inputPush (kcp : Ikcpcb α) {w w' : WireSeg α} (h : w.Shifted peer own w')
    (hcmd : w.cmd.toUInt32 = IKCP_CMD_PUSH) :
    inputPush (kcp.shift own peer) w' = (inputPush kcp w).shift own peer := by
  have hack : ikcpAckPush (kcp.shift own peer) w'.sn w'.ts =
      (ikcpAckPush kcp w.sn w.ts).shift own peer := by
    rw [h.sn, h.push hcmd]
    simp only [ikcpAckPush, Ikcpcb.shift, List.map_append]
    rfl
  have hnxt : ∀ k : Ikcpcb α, (k.shift own peer).rcvNxt = k.rcvNxt := fun _ => rfl
  have hwnd : (kcp.shift own peer).rcvWnd = kcp.rcvWnd := rfl
  unfold inputPush
  dsimp only
  rw [hack, pushSeg_shifted own peer h hcmd, h.sn, hnxt, hnxt, hwnd, shift_ikcpParseData]
  split_ifs <;> rfl

/-- The locals of `ikcp_input`, but for the time it never uses. -/
structure InputAcc.Same (acc acc' : InputAcc) : Prop where
  flag : acc'.flag = acc.flag
  maxack : acc'.maxack = acc.maxack

theorem InputAcc.Same.ack {acc acc' : InputAcc} (h : acc.Same acc') {w w' : WireSeg α}
    (hsn : w'.sn = w.sn) : (acc.ack w).Same (acc'.ack w') := by
  unfold InputAcc.ack
  rw [h.flag, h.maxack, hsn]
  split_ifs
  · exact ⟨rfl, rfl⟩
  · exact ⟨rfl, rfl⟩
  · exact h

/-- No acknowledgement arrives before the first update: there is nothing to be
acknowledged. -/
def Answers (kcp : Ikcpcb α) (w : WireSeg α) : Prop :=
  w.cmd.toUInt32 = IKCP_CMD_ACK → kcp.updated ≠ 0

theorem shift_inputSeg {kcp : Ikcpcb α} {acc acc' : InputAcc} (hacc : acc.Same acc')
    {w w' : WireSeg α} (h : w.Shifted peer own w') (ha : Answers kcp w) :
    (inputSeg (kcp.shift own peer) acc' w').1 = (inputSeg kcp acc w).1.shift own peer ∧
      (inputSeg kcp acc w).2.Same (inputSeg (kcp.shift own peer) acc' w').2 := by
  unfold inputSeg
  dsimp only
  rw [h.cmd, shift_inputUna own peer kcp h]
  split_ifs with hack hpush hask
  · have hu : (inputUna kcp w).updated ≠ 0 := by
      rw [show (inputUna kcp w).updated = kcp.updated from congrArg Prod.fst (timesSet_inputUna kcp w)]
      exact ha hack
    exact ⟨shift_inputAck own peer hu h hack, hacc.ack h.sn⟩
  · exact ⟨shift_inputPush own peer _ h hpush, hacc⟩
  · exact ⟨rfl, hacc⟩
  · exact ⟨rfl, hacc⟩

theorem shift_inputEnd (prevUna : UInt32) (kcp : Ikcpcb α) {acc acc' : InputAcc}
    (hacc : acc.Same acc') :
    inputEnd prevUna (kcp.shift own peer) acc' = (inputEnd prevUna kcp acc).shift own peer := by
  have huna : ∀ k : Ikcpcb α, (k.shift own peer).sndUna = k.sndUna := fun _ => rfl
  unfold inputEnd
  dsimp only
  rw [hacc.flag, hacc.maxack, shift_ikcpParseFastack]
  split
  · rw [huna, shift_growCwnd]
    split <;> rfl
  · rw [huna, shift_growCwnd]
    split <;> rfl

theorem shift_inputLoop (prevUna : UInt32) {segs segs' : List (WireSeg α)}
    (h : List.Forall₂ (WireSeg.Shifted peer own) segs segs') (kcp : Ikcpcb α)
    {acc acc' : InputAcc} (hacc : acc.Same acc') (ha : ∀ w ∈ segs, Answers kcp w) :
    inputLoop prevUna segs' (kcp.shift own peer) acc' =
      ((inputLoop prevUna segs kcp acc).1.shift own peer, (inputLoop prevUna segs kcp acc).2) := by
  induction h generalizing kcp acc acc' with
  | nil =>
    rw [inputLoop, inputLoop, shift_inputEnd own peer prevUna kcp hacc]
  | @cons w w' rest rest' hw _ ih =>
    have hconv : (kcp.shift own peer).conv = kcp.conv := rfl
    obtain ⟨hseg, hacc'⟩ := shift_inputSeg own peer hacc hw (ha w (List.mem_cons_self ..))
    have hrest : ∀ v ∈ rest, Answers (inputSeg kcp acc w).1 v := by
      intro v hv hcmd
      rw [show (inputSeg kcp acc w).1.updated = kcp.updated from
        congrArg Prod.fst (timesSet_inputSeg kcp acc w)]
      exact ha v (List.mem_cons_of_mem _ hv) hcmd
    rw [inputLoop, inputLoop, hw.conv, hconv, hw.cmd]
    split_ifs
    · rfl
    · rfl
    · rw [hseg]
      exact ih _ hacc' hrest

/-- `ikcp_input` on a shifted datagram. -/
theorem shift_inputSegs {segs segs' : List (WireSeg α)}
    (h : List.Forall₂ (WireSeg.Shifted peer own) segs segs') (kcp : Ikcpcb α)
    (ha : ∀ w ∈ segs, Answers kcp w) :
    (inputSegs (kcp.shift own peer) segs').1 = (inputSegs kcp segs).1.shift own peer := by
  have hempty : segs'.isEmpty = segs.isEmpty := by
    cases h <;> rfl
  unfold inputSegs
  rw [hempty]
  split
  · rfl
  · exact congrArg Prod.fst (shift_inputLoop own peer kcp.sndUna h kcp ⟨rfl, rfl⟩ ha)

/-! ## `ikcp_update` -/

theorem current_shift {kcp : Ikcpcb α} (hu : kcp.updated ≠ 0) :
    (kcp.shift own peer).current = kcp.current + own := if_neg hu

theorem tsFlush_shift {kcp : Ikcpcb α} (hu : kcp.updated ≠ 0) :
    (kcp.shift own peer).tsFlush = kcp.tsFlush + own := if_neg hu

theorem updated_startClock (kcp : Ikcpcb α) (current : UInt32) :
    (startClock kcp current).updated ≠ 0 := by
  unfold startClock
  split
  · exact (by decide : (1 : UInt32) ≠ 0)
  · assumption

theorem shift_startClock (kcp : Ikcpcb α) (current : UInt32) :
    startClock (kcp.shift own peer) (current + own) = (startClock kcp current).shift own peer := by
  have hone : ¬ (1 : UInt32) = 0 := by decide
  unfold startClock
  by_cases hu : kcp.updated = 0
  · rw [if_pos hu, if_pos (show (kcp.shift own peer).updated = 0 from hu)]
    simp only [Ikcpcb.shift, if_neg hone]
  · rw [if_neg hu, if_neg (show ¬ (kcp.shift own peer).updated = 0 from hu)]
    simp only [Ikcpcb.shift, if_neg hu]

/-- The timer of the flush is compared with the clock that set it. -/
theorem shift_updateClock (kcp : Ikcpcb α) (current : UInt32) :
    updateClock (kcp.shift own peer) (current + own) =
      ((updateClock kcp current).1.shift own peer, (updateClock kcp current).2) := by
  have hu := updated_startClock kcp current
  unfold updateClock
  rw [shift_startClock]
  generalize startClock kcp current = k at hu ⊢
  have hslap : itimediff (k.shift own peer).current (k.shift own peer).tsFlush =
      itimediff k.current k.tsFlush := by
    rw [current_shift own peer hu, tsFlush_shift own peer hu]
    exact SerialNumber.diff_add_right _ _ _
  have hnext : ∀ t, nextFlush (k.shift own peer) (t + own) = nextFlush k t + own := by
    intro t
    have hlate : itimediff (k.shift own peer).current (t + own + (k.shift own peer).interval) =
        itimediff k.current (t + k.interval) := by
      have hcomm : t + own + k.interval = t + k.interval + own := by grind
      rw [current_shift own peer hu]
      show itimediff _ (t + own + k.interval) = _
      rw [hcomm]
      exact SerialNumber.diff_add_right _ _ _
    unfold nextFlush
    rw [hlate, current_shift own peer hu]
    show (if _ then k.current + own + k.interval else t + own + k.interval) = _
    split <;> grind
  have hlate : (if itimediff k.current k.tsFlush ≥ 10000 ∨ itimediff k.current k.tsFlush < -10000
      then k.current + own else k.tsFlush + own) =
      (if itimediff k.current k.tsFlush ≥ 10000 ∨ itimediff k.current k.tsFlush < -10000
      then k.current else k.tsFlush) + own := by
    split <;> rfl
  dsimp only
  rw [hslap, current_shift own peer hu, tsFlush_shift own peer hu, hlate, hnext]
  split_ifs <;> simp only [Ikcpcb.shift, if_neg hu]

/-- The wait between two probes never becomes 0. -/
theorem nextProbeWait_bounds {wait : UInt32} (h : wait ≤ IKCP_PROBE_LIMIT) :
    nextProbeWait wait ≠ 0 ∧ nextProbeWait wait ≤ IKCP_PROBE_LIMIT := by
  have hbase : ∀ w : UInt32, w.toNat ≤ 120000 → 7000 ≤ w.toNat →
      (w + w / 2).toNat = w.toNat + w.toNat / 2 := by
    intro w hhigh _
    rw [UInt32.toNat_add, UInt32.toNat_div]
    exact Nat.mod_eq_of_lt (by simp only [UInt32.reduceToNat]; omega)
  have hlimit : wait.toNat ≤ 120000 := UInt32.le_iff_toNat_le.mp h
  unfold nextProbeWait
  dsimp only
  split
  · split <;> decide
  · rename_i hge
    have h7000 : 7000 ≤ wait.toNat := Nat.not_lt.mp (fun hlt => hge (UInt32.lt_iff_toNat_lt.mpr hlt))
    have hsum := hbase wait hlimit h7000
    split
    · decide
    · rename_i hle
      refine ⟨fun h0 => ?_, UInt32.not_lt.mp hle⟩
      rw [h0] at hsum
      simp only [UInt32.reduceToNat] at hsum
      omega

theorem shift_setProbe {kcp : Ikcpcb α} (hu : kcp.updated ≠ 0) {wait : UInt32} (hw : wait ≠ 0)
    (probe : UInt32) :
    { kcp.shift own peer with
        probeWait := wait, tsProbe := (kcp.shift own peer).current + wait, probe := probe } =
      Ikcpcb.shift own peer
        { kcp with probeWait := wait, tsProbe := kcp.current + wait, probe := probe } := by
  simp only [Ikcpcb.shift, if_neg hu, if_neg hw, add_right_comm]

theorem shift_probeWindow {kcp : Ikcpcb α} (hu : kcp.updated ≠ 0)
    (hw : kcp.probeWait ≤ IKCP_PROBE_LIMIT) :
    probeWindow (kcp.shift own peer) = (probeWindow kcp).shift own peer := by
  have hrmt : (kcp.shift own peer).rmtWnd = kcp.rmtWnd := rfl
  have hwait : (kcp.shift own peer).probeWait = kcp.probeWait := rfl
  have hprobe : (kcp.shift own peer).probe = kcp.probe := rfl
  unfold probeWindow
  rw [hrmt, hwait, hprobe]
  by_cases hr : kcp.rmtWnd = 0
  · rw [if_pos hr, if_pos hr]
    by_cases hw0 : kcp.probeWait = 0
    · rw [if_pos hw0, if_pos hw0]
      exact shift_setProbe own peer hu (by decide) kcp.probe
    · have hdue : itimediff (kcp.shift own peer).current (kcp.shift own peer).tsProbe =
          itimediff kcp.current kcp.tsProbe := by
        rw [current_shift own peer hu,
          show (kcp.shift own peer).tsProbe = kcp.tsProbe + own from if_neg hw0]
        exact SerialNumber.diff_add_right _ _ _
      rw [if_neg hw0, if_neg hw0, hdue]
      split
      · exact shift_setProbe own peer hu (nextProbeWait_bounds hw).1 _
      · rfl
  · rw [if_neg hr, if_neg hr]
    rfl

/-- The probe of a flush, which has emptied `acklist`. -/
theorem shift_probeCleared {kcp : Ikcpcb α} (hu : kcp.updated ≠ 0)
    (hw : kcp.probeWait ≤ IKCP_PROBE_LIMIT) :
    probeWindow { kcp.shift own peer with acklist := [] } =
      (probeWindow { kcp with acklist := [] }).shift own peer :=
  @shift_probeWindow α own peer { kcp with acklist := [] } hu hw

theorem shift_moveQueue (cwnd wnd current : UInt32) (l : List (IkcpSeg α)) (kcp : Ikcpcb α) :
    moveQueue cwnd wnd (current + own) l (kcp.shift own peer) =
      (moveQueue cwnd wnd current l kcp).shift own peer := by
  induction l generalizing kcp with
  | nil => rfl
  | cons newseg rest ih =>
    by_cases h : itimediff kcp.sndNxt (kcp.sndUna + cwnd) < 0
    · have h' : itimediff (kcp.shift own peer).sndNxt ((kcp.shift own peer).sndUna + cwnd) < 0 := h
      rw [moveQueue, moveQueue, if_pos h', if_pos h, ← ih]
      simp only [Ikcpcb.shift, List.map_append]
      rfl
    · have h' : ¬ itimediff (kcp.shift own peer).sndNxt ((kcp.shift own peer).sndUna + cwnd) < 0 := h
      rw [moveQueue, moveQueue, if_neg h', if_neg h]

theorem shift_flushMoved {kcp : Ikcpcb α} (hu : kcp.updated ≠ 0)
    (hw : kcp.probeWait ≤ IKCP_PROBE_LIMIT) :
    flushMoved (kcp.shift own peer) = (flushMoved kcp).shift own peer := by
  unfold flushMoved
  dsimp only
  rw [shift_probeCleared own peer hu hw, current_shift own peer hu]
  exact shift_moveQueue own peer _ _ _ _ { probeWindow { kcp with acklist := [] } with probe := 0 }

theorem shift_flushEnd (kcp : Ikcpcb α) (cwnd resent : UInt32) (change : Nat) (lost : Bool) :
    flushEnd (kcp.shift own peer) cwnd resent change lost =
      (flushEnd kcp cwnd resent change lost).shift own peer := by
  have hcwnd : (kcp.shift own peer).cwnd = kcp.cwnd := rfl
  have hnxt : (kcp.shift own peer).sndNxt = kcp.sndNxt := rfl
  have huna : (kcp.shift own peer).sndUna = kcp.sndUna := rfl
  have hmss : (kcp.shift own peer).mss = kcp.mss := rfl
  unfold flushEnd
  simp only [hnxt, huna, hmss]
  by_cases hchange : change = 0
  · simp only [hchange, ne_eq, not_true_eq_false, if_false]
    cases lost
    · simp only [Bool.false_eq_true, if_false, hcwnd]
      split <;> rfl
    · rfl
  · simp only [hchange, ne_eq, not_false_eq_true, if_true]
    cases lost
    · simp only [Bool.false_eq_true, if_false]
      split_ifs <;> rfl
    · rfl

/-- A resend timer is compared with the clock that set it. -/
theorem shift_dueSeg (kcp : Ikcpcb α) (current resent rtomin : UInt32) (segment : IkcpSeg α)
    (acc : FlushAcc) :
    dueSeg (kcp.shift own peer) (current + own) resent rtomin (segment.shift own) acc =
      (dueSeg kcp current resent rtomin segment acc).map (fun r => (r.1.shift own, r.2)) := by
  have hxmit : (segment.shift own).xmit = segment.xmit := rfl
  have hfast : (segment.shift own).fastack = segment.fastack := rfl
  have hrto : (segment.shift own).rto = segment.rto := rfl
  have hlimit : (kcp.shift own peer).fastlimit = kcp.fastlimit := rfl
  have hrx : (kcp.shift own peer).rxRto = kcp.rxRto := rfl
  have hnodelay : (kcp.shift own peer).nodelay = kcp.nodelay := rfl
  have hdue : itimediff (current + own) (segment.shift own).resendts =
      itimediff current segment.resendts := SerialNumber.diff_add_right _ _ _
  unfold dueSeg
  simp only [hxmit, hfast, hrto, hlimit, hrx, hnodelay, hdue]
  split_ifs <;> simp only [Option.map_some, Option.map_none, IkcpSeg.shift, Option.some.injEq,
    Prod.mk.injEq, and_true] <;> congr 1 <;> grind

/-- Segments written to the wire. -/
def IkcpSeg.Shifted (seg seg' : IkcpSeg α) : Prop :=
  (ikcpEncodeSeg seg).Shifted own peer (ikcpEncodeSeg seg')

/-- A segment of `snd_buf` is sent with the time of the flush. -/
theorem shifted_push {seg : IkcpSeg α} (hcmd : seg.cmd = IKCP_CMD_PUSH) (wnd current una : UInt32) :
    IkcpSeg.Shifted own peer { seg with ts := current, wnd := wnd, una := una }
      { seg.shift own with ts := current + own, wnd := wnd, una := una } where
  conv := rfl
  cmd := rfl
  frg := rfl
  wnd := rfl
  sn := rfl
  una := rfl
  data := rfl
  push := fun _ => rfl
  ack := by
    intro h
    have h' : seg.cmd.toUInt8.toUInt32 = IKCP_CMD_ACK := h
    rw [hcmd] at h'
    exact absurd h' (by decide)

theorem shift_flushData (kcp : Ikcpcb α) (wnd current resent rtomin : UInt32)
    (l : List (IkcpSeg α)) (hl : ∀ seg ∈ l, seg.cmd = IKCP_CMD_PUSH) (acc : FlushAcc) :
    (flushData listSink (kcp.shift own peer) wnd (current + own) resent rtomin
        (l.map (IkcpSeg.shift own)) acc []).1 =
      ((flushData listSink kcp wnd current resent rtomin l acc []).1.1.map (IkcpSeg.shift own),
        (flushData listSink kcp wnd current resent rtomin l acc []).1.2) ∧
    List.Forall₂ (IkcpSeg.Shifted own peer)
      (flushData listSink kcp wnd current resent rtomin l acc []).2
      (flushData listSink (kcp.shift own peer) wnd (current + own) resent rtomin
        (l.map (IkcpSeg.shift own)) acc []).2 := by
  induction l generalizing acc with
  | nil => exact ⟨rfl, List.Forall₂.nil⟩
  | cons segment rest ih =>
    have hrest := fun seg hs => hl seg (List.mem_cons_of_mem _ hs)
    have hdead : (kcp.shift own peer).deadLink = kcp.deadLink := rfl
    have hnxt : (kcp.shift own peer).rcvNxt = kcp.rcvNxt := rfl
    rw [List.map_cons, flushData, flushData, shift_dueSeg]
    cases hdue : dueSeg kcp current resent rtomin segment acc with
    | none =>
      obtain ⟨h1, h2⟩ := ih hrest acc
      simp only [Option.map_none]
      rw [h1]
      exact ⟨rfl, h2⟩
    | some due =>
      have hcmd : due.1.cmd = IKCP_CMD_PUSH :=
        (congrArg SegKey.cmd (dueSeg_key hdue)).trans (hl segment (List.mem_cons_self ..))
      have hxmit : (due.1.shift own).xmit = due.1.xmit := rfl
      simp only [Option.map_some, makeRoom_listSink, hdead, hnxt, hxmit]
      obtain ⟨h1, h2⟩ := ih hrest
        { due.2 with state := if due.1.xmit ≥ kcp.deadLink then 0xffffffff else due.2.state }
      rw [flushData_fst listSink listSink _ _ _ _ _ _ _ _ [],
        flushData_fst listSink listSink kcp wnd current _ _ _ _ _ [],
        flushData_listSink kcp, flushData_listSink (kcp.shift own peer), h1]
      exact ⟨rfl, List.rel_append (List.Forall₂.cons (shifted_push own peer hcmd _ _ _) .nil) h2⟩

/-- Two control segments that differ in `ts` only. -/
theorem shifted_control {seg seg' : IkcpSeg α} (h : seg' = { seg with ts := seg'.ts })
    (hpush : seg.cmd.toUInt8.toUInt32 ≠ IKCP_CMD_PUSH)
    (hack : seg.cmd.toUInt8.toUInt32 = IKCP_CMD_ACK → seg'.ts = seg.ts + peer) :
    seg.Shifted own peer seg' := by
  rw [h]
  exact ⟨rfl, rfl, rfl, rfl, rfl, rfl, rfl, fun hp => absurd hp hpush, hack⟩

theorem flushSeg_shift (kcp : Ikcpcb α) : flushSeg (kcp.shift own peer) = flushSeg kcp := rfl

theorem lastAck_map_shiftAck (acks : List (UInt32 × UInt32)) (seg seg' : IkcpSeg α)
    (h : seg' = { seg with ts := seg'.ts }) :
    lastAck (acks.map (shiftAck peer)) seg' =
      { lastAck acks seg with ts := (lastAck (acks.map (shiftAck peer)) seg').ts } := by
  induction acks generalizing seg seg' with
  | nil => exact h
  | cons a rest ih =>
    have hseg : ({ seg' with sn := (shiftAck peer a).1, ts := (shiftAck peer a).2 } : IkcpSeg α) =
        { { seg with sn := a.1, ts := a.2 : IkcpSeg α } with ts := (shiftAck peer a).2 } := by
      rw [h]
      rfl
    exact ih _ _ hseg

/-- The acknowledgements echo the time of the peer; the time in a probe is whatever the
local `seg` held. -/
theorem shift_ctlSegs {kcp : Ikcpcb α} (hu : kcp.updated ≠ 0)
    (hw : kcp.probeWait ≤ IKCP_PROBE_LIMIT) :
    List.Forall₂ (IkcpSeg.Shifted own peer) (ctlSegs kcp) (ctlSegs (kcp.shift own peer)) := by
  have hprobed : (probeWindow { kcp.shift own peer with acklist := [] }).probe =
      (probeWindow { kcp with acklist := [] }).probe := by
    rw [shift_probeCleared own peer hu hw]
    rfl
  have hlast := lastAck_map_shiftAck peer kcp.acklist (flushSeg kcp) (flushSeg kcp) rfl
  have hacks : (kcp.shift own peer).acklist = kcp.acklist.map (shiftAck peer) := rfl
  have hcmd : ∀ cmd : UInt32, cmd = IKCP_CMD_WASK ∨ cmd = IKCP_CMD_WINS →
      cmd.toUInt8.toUInt32 ≠ IKCP_CMD_PUSH ∧ cmd.toUInt8.toUInt32 ≠ IKCP_CMD_ACK := by
    rintro cmd (rfl | rfl) <;> decide
  have hprobe : ∀ (ask cmd : UInt32) (seg seg' : IkcpSeg α),
      cmd = IKCP_CMD_WASK ∨ cmd = IKCP_CMD_WINS → seg' = { seg with ts := seg'.ts } →
      List.Forall₂ (IkcpSeg.Shifted own peer)
        (probeSegs (probeWindow { kcp with acklist := [] }) ask cmd seg)
        (probeSegs (probeWindow { kcp.shift own peer with acklist := [] }) ask cmd seg') := by
    intro ask cmd seg seg' hc hseg
    unfold probeSegs
    rw [hprobed]
    split
    · refine .cons
        (shifted_control own peer ?_ (hcmd cmd hc).1 (fun h => absurd h (hcmd cmd hc).2)) .nil
      rw [hseg]
    · exact .nil
  unfold ctlSegs
  dsimp only
  rw [flushSeg_shift, hacks, hprobed]
  refine List.rel_append ?_ (List.rel_append ?_ ?_)
  · rw [ackSegs, ackSegs, List.map_map, List.forall₂_map_left_iff, List.forall₂_map_right_iff]
    refine List.forall₂_same.mpr (fun a _ => ?_)
    exact shifted_control own peer rfl (show IKCP_CMD_ACK.toUInt8.toUInt32 ≠ _ by decide)
      (fun _ => rfl)
  · exact hprobe _ _ _ _ (Or.inl rfl) hlast
  · refine hprobe _ _ _ _ (Or.inr rfl) ?_
    split
    · rw [hlast]
    · exact hlast

/-- The control block after a flush. -/
theorem ikcpFlush_fst_eq (kcp : Ikcpcb α) (hu : kcp.updated ≠ 0) :
    (ikcpFlush listSink kcp []).1 =
      flushEnd
        { flushMoved kcp with
          sndBuf := (flushDue listSink kcp []).1.1
          xmit := (flushDue listSink kcp []).1.2.xmit
          state := (flushDue listSink kcp []).1.2.state }
        (flushCwnd kcp) (if kcp.fastresend > 0 then kcp.fastresend.toUInt32 else 0xffffffff)
        (flushDue listSink kcp []).1.2.change (flushDue listSink kcp []).1.2.lost := by
  unfold ikcpFlush
  rw [if_neg hu]
  dsimp only
  rw [flushData_fst listSink listSink _ _ _ _ _ _ _ _ []]
  rfl

theorem shift_ikcpFlush {kcp : Ikcpcb α} (hu : kcp.updated ≠ 0)
    (hw : kcp.probeWait ≤ IKCP_PROBE_LIMIT)
    (hcmd : ∀ seg ∈ (flushMoved kcp).sndBuf, seg.cmd = IKCP_CMD_PUSH) :
    (ikcpFlush listSink (kcp.shift own peer) []).1 =
      (ikcpFlush listSink kcp []).1.shift own peer ∧
    List.Forall₂ (IkcpSeg.Shifted own peer) (flushed kcp) (flushed (kcp.shift own peer)) := by
  have hu' : (kcp.shift own peer).updated ≠ 0 := hu
  have hmoved := shift_flushMoved own peer hu hw
  have hcurrent := current_shift own peer hu
  have hwnd : ikcpWndUnused (kcp.shift own peer) = ikcpWndUnused kcp := rfl
  have hdue : flushDue listSink (kcp.shift own peer) [] =
      flushData listSink ((flushMoved kcp).shift own peer) (ikcpWndUnused kcp) (kcp.current + own)
        (if kcp.fastresend > 0 then kcp.fastresend.toUInt32 else 0xffffffff)
        (if kcp.nodelay = 0 then (kcp.rxRto >>> 3).toUInt32 else 0)
        ((flushMoved kcp).sndBuf.map (IkcpSeg.shift own))
        ⟨0, false, (flushMoved kcp).xmit, (flushMoved kcp).state⟩ [] := by
    unfold flushDue
    rw [hmoved, hcurrent, hwnd]
    rfl
  obtain ⟨hfst, hsnd⟩ := shift_flushData own peer (flushMoved kcp) (ikcpWndUnused kcp) kcp.current
    (if kcp.fastresend > 0 then kcp.fastresend.toUInt32 else 0xffffffff)
    (if kcp.nodelay = 0 then (kcp.rxRto >>> 3).toUInt32 else 0) (flushMoved kcp).sndBuf hcmd
    ⟨0, false, (flushMoved kcp).xmit, (flushMoved kcp).state⟩
  rw [← hdue] at hfst hsnd
  refine ⟨?_, ?_⟩
  · rw [ikcpFlush_fst_eq kcp hu, ikcpFlush_fst_eq _ hu', hmoved, hfst, ← shift_flushEnd]
    rfl
  · rw [flushed_eq kcp hu, flushed_eq _ hu']
    exact List.rel_append (shift_ctlSegs own peer hu hw) hsnd

theorem probeWait_updateClock (kcp : Ikcpcb α) (current : UInt32) :
    (updateClock kcp current).1.probeWait = kcp.probeWait := by
  obtain ⟨updated, tsFlush, -, h⟩ := updateClock_writes kcp current
  rw [h]

/-- **An update with a shifted clock** leaves the shifted control block, and writes the
shifted segments. -/
theorem shift_ikcpUpdate {kcp : Ikcpcb α} (current : UInt32)
    (hw : kcp.probeWait ≤ IKCP_PROBE_LIMIT)
    (hcmd : ∀ x ∈ (ikcpUpdate listSink kcp [] current).1.outgoing.sndBuf, x.cmd = IKCP_CMD_PUSH) :
    (ikcpUpdate listSink (kcp.shift own peer) [] (current + own)).1 =
      (ikcpUpdate listSink kcp [] current).1.shift own peer ∧
    List.Forall₂ (IkcpSeg.Shifted own peer) (updateFlushed kcp current)
      (updateFlushed (kcp.shift own peer) (current + own)) := by
  have hu := updated_updateClock kcp current
  have hwait := probeWait_updateClock kcp current
  unfold updateFlushed
  unfold ikcpUpdate at hcmd ⊢
  rw [shift_updateClock]
  dsimp only at hcmd ⊢
  -- from here on only what is known of the clock's result matters
  generalize updateClock kcp current = r at hcmd hu hwait ⊢
  split_ifs at hcmd ⊢
  · rw [outgoing_ikcpFlush _ _ _ hu] at hcmd
    have hpush : ∀ seg ∈ (flushMoved r.1).sndBuf, seg.cmd = IKCP_CMD_PUSH :=
      fun seg hs => hcmd seg.key (List.mem_map_of_mem hs)
    exact shift_ikcpFlush own peer hu (hwait ▸ hw) hpush
  · exact ⟨rfl, .nil⟩

/-! ## Which times have been set -/

theorem timesSet_inputLoop (prevUna : UInt32) (segs : List (WireSeg α)) (kcp : Ikcpcb α)
    (acc : InputAcc) : (inputLoop prevUna segs kcp acc).1.timesSet = kcp.timesSet := by
  induction segs generalizing kcp acc with
  | nil =>
    obtain ⟨buf, cwnd, incr, -, h⟩ := inputEnd_writes kcp prevUna acc
    rw [inputLoop, h]
    rfl
  | cons w rest ih =>
    unfold inputLoop
    split_ifs
    · rfl
    · rfl
    · rw [ih, timesSet_inputSeg]

/-- What arrives sets no time. -/
theorem timesSet_inputSegs (kcp : Ikcpcb α) (segs : List (WireSeg α)) :
    (inputSegs kcp segs).1.timesSet = kcp.timesSet := by
  unfold inputSegs
  split
  · rfl
  · exact timesSet_inputLoop _ _ _ _

theorem timesSet_ikcpRecv (kcp : Ikcpcb α) {len : Int} (hl : 0 ≤ len) :
    (ikcpRecv kcp len).1.timesSet = kcp.timesSet := by
  obtain ⟨buf, nbuf, queue, nque, nxt, probe, h⟩ := ikcpRecv_writes kcp hl
  rw [h]
  rfl

theorem timesSet_ikcpFlush (kcp : Ikcpcb α) (hu : kcp.updated ≠ 0) :
    (ikcpFlush listSink kcp []).1.timesSet =
      (kcp.updated, (probeWindow { kcp with acklist := [] }).probeWait) := by
  obtain ⟨_, _, _, _, _, _, _, _, _, _, _, h⟩ := ikcpFlush_writes listSink kcp [] hu
  rw [h]
  rfl

theorem probeWait_probeWindow {kcp : Ikcpcb α} (hw : kcp.probeWait ≤ IKCP_PROBE_LIMIT) :
    (probeWindow kcp).probeWait ≤ IKCP_PROBE_LIMIT := by
  unfold probeWindow
  split_ifs
  · exact (by decide : IKCP_PROBE_INIT ≤ IKCP_PROBE_LIMIT)
  · exact (nextProbeWait_bounds hw).2
  · exact hw
  · exact UInt32.zero_le

/-- An update starts the clock, and the wait between probes stays in its bounds. -/
theorem timesSet_ikcpUpdate (kcp : Ikcpcb α) (current : UInt32)
    (hw : kcp.probeWait ≤ IKCP_PROBE_LIMIT) :
    (ikcpUpdate listSink kcp [] current).1.timesSet.1 ≠ 0 ∧
      (ikcpUpdate listSink kcp [] current).1.timesSet.2 ≤ IKCP_PROBE_LIMIT := by
  have hu := updated_updateClock kcp current
  have hwait : (updateClock kcp current).1.probeWait ≤ IKCP_PROBE_LIMIT := by
    rw [probeWait_updateClock]
    exact hw
  unfold ikcpUpdate
  dsimp only
  split
  · rw [timesSet_ikcpFlush _ hu]
    exact ⟨hu, @probeWait_probeWindow α { (updateClock kcp current).1 with acklist := [] } hwait⟩
  · exact ⟨hu, hwait⟩

/-! ## Datagrams -/

/-- Buffers that hold shifted segments. -/
structure Packets.Shifted (p p' : Packets α) : Prop where
  current : List.Forall₂ (WireSeg.Shifted own peer) p.current p'.current
  sent : List.Forall₂ (List.Forall₂ (WireSeg.Shifted own peer)) p.sent p'.sent

theorem wireSize_shifted {segs segs' : List (WireSeg α)}
    (h : List.Forall₂ (WireSeg.Shifted own peer) segs segs') : wireSize segs' = wireSize segs := by
  induction h with
  | nil => rfl
  | cons hw _ ih =>
    rw [wireSize, wireSize, List.map_cons, List.map_cons, List.sum_cons, List.sum_cons, hw.data]
    exact congrArg _ ih

theorem shifted_ikcpOutput {p p' : Packets α} (h : p.Shifted own peer p') :
    (ikcpOutput segSink p).Shifted own peer (ikcpOutput segSink p') := by
  have hsize : segSink.size p' = segSink.size p := wireSize_shifted own peer h.current
  unfold ikcpOutput
  rw [hsize]
  split
  · exact h
  · exact ⟨.nil, List.rel_append h.sent (.cons h.current .nil)⟩

/-- Where the datagrams end depends on the sizes of the segments only. -/
theorem shifted_pack (mtu : UInt32) {segs segs' : List (IkcpSeg α)}
    (h : List.Forall₂ (IkcpSeg.Shifted own peer) segs segs') {p p' : Packets α}
    (hp : p.Shifted own peer p') :
    (pack segSink mtu segs p).Shifted own peer (pack segSink mtu segs' p') := by
  induction h generalizing p p' with
  | nil => exact hp
  | @cons seg seg' rest rest' hs _ ih =>
    have hlen : seg'.len = seg.len := congrArg List.length hs.data
    have hsize : segSink.size p' = segSink.size p := wireSize_shifted own peer hp.current
    have hroom : (makeRoom segSink mtu (IKCP_OVERHEAD.toNat + seg.len) p).Shifted own peer
        (makeRoom segSink mtu (IKCP_OVERHEAD.toNat + seg.len) p') := by
      unfold makeRoom
      rw [hsize]
      split
      · exact shifted_ikcpOutput own peer hp
      · exact hp
    rw [pack_cons, pack_cons, hlen]
    exact ih ⟨List.rel_append hroom.current (.cons hs .nil), hroom.sent⟩

/-- **An update with a shifted clock sends the same datagrams**, with shifted times. -/
theorem shift_packets {kcp : Ikcpcb α} (current : UInt32)
    (hw : kcp.probeWait ≤ IKCP_PROBE_LIMIT)
    (hcmd : ∀ x ∈ (ikcpUpdate listSink kcp [] current).1.outgoing.sndBuf, x.cmd = IKCP_CMD_PUSH) :
    List.Forall₂ (List.Forall₂ (WireSeg.Shifted own peer)) (packets kcp current)
      (packets (kcp.shift own peer) (current + own)) := by
  have hflushed := (shift_ikcpUpdate own peer current hw hcmd).2
  have hempty : ({} : Packets α).Shifted own peer {} := ⟨.nil, .nil⟩
  rw [packets_eq, packets_eq]
  exact (shifted_ikcpOutput own peer (shifted_pack own peer kcp.mtu hflushed hempty)).sent

end Shift
end FlexProxy
