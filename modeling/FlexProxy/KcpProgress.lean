import FlexProxy.DatagramSize
import FlexProxy.RoundTrip
import FlexProxy.WellFormed

/-! # What one flush and one datagram achieve

The parts of a round trip that do not depend on what the other end has sent before:

* a flush that is due sends the first segment of `snd_buf` once its timer has run out
  (`head_flushed`), answers what is to be answered (`flushed_ne_nil`), probes a closed
  window (`probe_flushed`) and fills an empty `snd_buf` while the window is open
  (`sndBuf_flushed`);
* a datagram releases what its `una` is past (`backlog_inputSegs_lt`), brings the
  remote window (`rmtWnd_inputSegs`), asks for a report (`probe_inputSegs`), and has its
  segments acknowledged (`arrives_inputSegs`).

Both leave nothing behind: what is queued and what is held together never grow
(`backlog`).
-/
namespace FlexProxy
variable {α : Type}

/-! ## Times -/

/-- A negative difference is positive the other way round. -/
theorem itimediff_neg {a b : UInt32} (h : -2 ^ 31 < itimediff a b) :
    itimediff b a = -itimediff a b := by
  have hneg : b - a = -(a - b) := by grind
  have hint : itimediff b a = (-(a - b).toBitVec).toInt := by
    show (b - a).toBitVec.toInt = _
    rw [hneg]
    rfl
  have hbound : -2 ^ 31 < (a - b).toBitVec.toInt := h
  have hlt : (a - b).toBitVec.toInt < 2 ^ 31 := (a - b).toInt32.toInt_lt
  rw [hint, BitVec.toInt_neg]
  exact Int.bmod_eq_of_le (by omega) (by omega)

/-- A call of `ikcp_update` at `current` flushes: the flush timer has run out, or is so far
off that it is set anew. -/
def Due (kcp : Ikcpcb α) (current : UInt32) : Prop :=
  kcp.updated = 0 ∨
    ¬ (-10000 ≤ itimediff current kcp.tsFlush ∧ itimediff current kcp.tsFlush < 0)

/-- There is a time at which a flush is due and `ts` is over. -/
theorem exists_due (kcp : Ikcpcb α) (ts : UInt32) :
    ∃ current, Due kcp current ∧ 0 ≤ itimediff current ts := by
  by_cases h : -10000 ≤ itimediff ts kcp.tsFlush ∧ itimediff ts kcp.tsFlush < 0
  · -- the flush timer runs out a little later
    have hself : itimediff kcp.tsFlush kcp.tsFlush = 0 := SerialNumber.diff_self _
    refine ⟨kcp.tsFlush, Or.inr (by omega), ?_⟩
    rw [itimediff_neg (by omega)]
    omega
  · have hself : itimediff ts ts = 0 := SerialNumber.diff_self _
    exact ⟨ts, Or.inr h, by omega⟩

theorem due_tsFlush (kcp : Ikcpcb α) : Due kcp kcp.tsFlush := by
  have hself : itimediff kcp.tsFlush kcp.tsFlush = 0 := SerialNumber.diff_self _
  exact Or.inr (by omega)

section Update
variable {kcp : Ikcpcb α} {current : UInt32}

theorem updateClock_due (h : Due kcp current) : (updateClock kcp current).2 = true := by
  have hself : itimediff current current = 0 := SerialNumber.diff_self _
  have hclock : ∀ k : Ikcpcb α, startClock kcp current = k →
      ¬ (-10000 ≤ itimediff k.current k.tsFlush ∧ itimediff k.current k.tsFlush < 0) →
      (updateClock kcp current).2 = true := by
    intro k hk hdue
    unfold updateClock
    dsimp only
    rw [hk]
    split_ifs
    · rfl
    · omega
    · rfl
    · omega
  by_cases hu : kcp.updated = 0
  · exact hclock _ (if_pos hu) (by dsimp only; omega)
  · exact hclock _ (if_neg hu) (h.resolve_left hu)

theorem ikcpUpdate_due (h : Due kcp current) :
    ikcpUpdate listSink kcp [] current = ikcpFlush listSink (updateClock kcp current).1 [] :=
  if_pos (updateClock_due h)

theorem updateFlushed_due (h : Due kcp current) :
    updateFlushed kcp current = flushed (updateClock kcp current).1 :=
  congrArg Prod.snd (ikcpUpdate_due h)

end Update

/-! ## What a flush sends -/

section Flush
variable {kcp : Ikcpcb α}

theorem wnd_lastAck (acks : List (UInt32 × UInt32)) (seg : IkcpSeg α) :
    (lastAck acks seg).wnd = seg.wnd := by
  obtain ⟨sn, ts, h⟩ := lastAck_eq acks seg
  rw [h]

theorem wnd_of_mem_ctlSegs {seg : IkcpSeg α} (h : seg ∈ ctlSegs kcp) :
    seg.wnd = ikcpWndUnused kcp := by
  have hlast : (lastAck kcp.acklist (flushSeg kcp)).wnd = ikcpWndUnused kcp := wnd_lastAck _ _
  unfold ctlSegs at h
  simp only [List.mem_append] at h
  rcases h with h | h | h
  · obtain ⟨p, -, rfl⟩ := List.mem_map.mp h
    rfl
  · rw [mem_probeSegs h]
    exact hlast
  · rw [mem_probeSegs h]
    split
    · exact hlast
    · exact hlast

theorem wnd_of_mem_flushData {wnd current resent rtomin : UInt32} {l : List (IkcpSeg α)}
    {acc : FlushAcc} {seg : IkcpSeg α}
    (h : seg ∈ (flushData listSink kcp wnd current resent rtomin l acc []).2) : seg.wnd = wnd := by
  induction l generalizing acc with
  | nil => cases h
  | cons segment rest ih =>
    unfold flushData at h
    split at h
    · exact ih h
    · simp only [makeRoom_listSink] at h
      rw [flushData_listSink] at h
      rcases List.mem_append.mp h with h | h
      · rw [List.mem_singleton.mp h]
      · exact ih h

/-- **Every segment of a flush reports the room in `rcv_queue`.** -/
theorem wnd_of_mem_flushed (hu : kcp.updated ≠ 0) {seg : IkcpSeg α} (h : seg ∈ flushed kcp) :
    seg.wnd = ikcpWndUnused kcp := by
  rw [flushed_eq kcp hu] at h
  rcases List.mem_append.mp h with h | h
  · exact wnd_of_mem_ctlSegs h
  · exact wnd_of_mem_flushData h

/-- The first segment of `snd_buf` is sent if it is new, or its timer has run out. -/
theorem head_flushed (hu : kcp.updated ≠ 0) {x : IkcpSeg α} {rest : List (IkcpSeg α)}
    (hbuf : (flushMoved kcp).sndBuf = x :: rest)
    (hdue : x.xmit = 0 ∨ 0 ≤ itimediff kcp.current x.resendts) :
    ∃ seg ∈ flushed kcp, seg.key = x.key := by
  have hsome : ∀ resent rtomin acc, ∃ r, dueSeg (flushMoved kcp) kcp.current resent rtomin x acc = some r := by
    intro resent rtomin acc
    unfold dueSeg
    by_cases hx : x.xmit = 0
    · rw [if_pos hx]
      exact ⟨_, rfl⟩
    · rw [if_neg hx, if_pos (hdue.resolve_left hx)]
      exact ⟨_, rfl⟩
  have hmem : ∀ wnd resent rtomin acc,
      ∃ seg ∈ (flushData listSink (flushMoved kcp) wnd kcp.current resent rtomin (x :: rest) acc []).2,
        seg.key = x.key := by
    intro wnd resent rtomin acc
    obtain ⟨r, hr⟩ := hsome resent rtomin acc
    have hkey := dueSeg_key hr
    unfold flushData
    rw [hr]
    simp only [makeRoom_listSink]
    rw [flushData_listSink]
    exact ⟨_, List.mem_append_left _ (List.mem_singleton_self _), hkey⟩
  obtain ⟨seg, hseg, hkey⟩ := hmem (ikcpWndUnused kcp)
    (if kcp.fastresend > 0 then kcp.fastresend.toUInt32 else 0xffffffff)
    (if kcp.nodelay = 0 then (kcp.rxRto >>> 3).toUInt32 else 0)
    ⟨0, false, (flushMoved kcp).xmit, (flushMoved kcp).state⟩
  rw [← hbuf] at hseg
  refine ⟨seg, ?_, hkey⟩
  rw [flushed_eq kcp hu]
  exact List.mem_append_right _ hseg

/-- An acknowledgement or a report that is due is sent. -/
theorem flushed_ne_nil (hu : kcp.updated ≠ 0)
    (h : kcp.acklist ≠ [] ∨ kcp.probe = IKCP_ASK_TELL) : flushed kcp ≠ [] := by
  have hctl : ctlSegs kcp ≠ [] := by
    unfold ctlSegs
    dsimp only
    rcases h with h | h
    · obtain ⟨a, rest, ha⟩ := List.exists_cons_of_ne_nil h
      rw [ha]
      exact List.cons_ne_nil _ _
    · have hset : (probeWindow { kcp with acklist := [] }).probe = IKCP_ASK_TELL ∨
          (probeWindow { kcp with acklist := [] }).probe = IKCP_ASK_TELL ||| IKCP_ASK_SEND := by
        unfold probeWindow
        split_ifs
        · exact Or.inl h
        · exact Or.inr (congrArg (· ||| IKCP_ASK_SEND) h)
        · exact Or.inl h
        · exact Or.inl h
      have hprobe : (probeWindow { kcp with acklist := [] }).probe &&& IKCP_ASK_TELL ≠ 0 := by
        rcases hset with hp | hp
        · rw [hp]
          decide
        · rw [hp]
          decide
      intro hnil
      have hwins := (List.append_eq_nil_iff.mp (List.append_eq_nil_iff.mp hnil).2).2
      unfold probeSegs at hwins
      rw [if_pos hprobe] at hwins
      cases hwins
  rw [flushed_eq kcp hu]
  exact fun hnil => hctl (List.append_eq_nil_iff.mp hnil).1

/-- **A closed window is probed** when the wait is over. -/
theorem probe_flushed (hu : kcp.updated ≠ 0) (ht : Timers kcp) (hwnd : kcp.rmtWnd = 0)
    (hwait : kcp.probeWait ≠ 0) (hts : 0 ≤ itimediff kcp.current kcp.tsProbe) :
    ∃ seg ∈ flushed kcp, seg.cmd = IKCP_CMD_WASK := by
  have hask : (probeWindow { kcp with acklist := [] }).probe &&& IKCP_ASK_SEND ≠ 0 := by
    unfold probeWindow
    dsimp only
    rw [if_pos hwnd, if_neg hwait, if_pos hts]
    show (kcp.probe ||| IKCP_ASK_SEND) &&& IKCP_ASK_SEND ≠ 0
    rcases ht.probe with hp | hp
    · rw [hp]
      decide
    · rw [hp]
      decide
  refine ⟨{ lastAck kcp.acklist (flushSeg kcp) with cmd := IKCP_CMD_WASK }, ?_, rfl⟩
  rw [flushed_eq kcp hu]
  refine List.mem_append_left _ ?_
  unfold ctlSegs
  refine List.mem_append_right _ (List.mem_append_left _ ?_)
  unfold probeSegs
  rw [if_pos hask]
  exact List.mem_singleton_self _

end Flush

/-! ## What a flush moves -/

/-- What is queued, and what is held until it is acknowledged. -/
def backlog (kcp : Ikcpcb α) : Nat := kcp.sndBuf.length + kcp.sndQueue.length

theorem backlog_eq (kcp : Ikcpcb α) :
    backlog kcp = kcp.outgoing.sndBuf.length + kcp.outgoing.sndQueue.length := by
  rw [show kcp.outgoing.sndBuf.length = kcp.sndBuf.length from List.length_map _]
  rfl

/-- An update moves segments from the one to the other. -/
theorem backlog_ikcpUpdate (kcp : Ikcpcb α) (current : UInt32) :
    backlog (ikcpUpdate listSink kcp [] current).1 = backlog kcp := by
  obtain ⟨moved, hn⟩ := numbers_ikcpUpdate listSink kcp [] current
  have hbuf := congrArg List.length hn.sndBuf
  have hqueue := congrArg List.length hn.sndQueue
  rw [List.length_append, length_numbered] at hbuf
  rw [List.length_append] at hqueue
  rw [backlog_eq, backlog_eq]
  omega

/-- A datagram releases segments. -/
theorem backlog_inputSegs (kcp : Ikcpcb α) (segs : List (WireSeg α)) :
    backlog (inputSegs kcp segs).1 ≤ backlog kcp := by
  have hr := releases_inputSegs kcp segs
  have hle := hr.sub.length_le
  rw [backlog_eq, backlog_eq, hr.sndQueue]
  omega

section Moves
variable {kcp : Ikcpcb α}

theorem sndBuf_moveQueue (cwnd wnd current : UInt32) (l : List (IkcpSeg α)) (kcp : Ikcpcb α) :
    ∃ more, (moveQueue cwnd wnd current l kcp).sndBuf = kcp.sndBuf ++ more := by
  induction l generalizing kcp with
  | nil => exact ⟨[], (List.append_nil _).symm⟩
  | cons newseg rest ih =>
    unfold moveQueue
    split
    · obtain ⟨more, h⟩ := ih _
      exact ⟨_ :: more, h.trans (List.append_assoc _ [_] more)⟩
    · exact ⟨[], (List.append_nil _).symm⟩

/-- The first segment held stays the first. -/
theorem sndBuf_flushMoved (kcp : Ikcpcb α) : ∃ more, (flushMoved kcp).sndBuf = kcp.sndBuf ++ more := by
  obtain ⟨wait, ts, probe, hprobe⟩ := probeWindow_writes { kcp with acklist := [] }
  unfold flushMoved
  dsimp only
  rw [hprobe]
  exact sndBuf_moveQueue _ _ _ _ _

theorem flushCwnd_eq (hc : kcp.config = forwarderConfig) : flushCwnd kcp = imin 1024 kcp.rmtWnd := by
  have hwnd : kcp.sndWnd = 1024 := congrArg Config.sndWnd hc
  have hno : kcp.nocwnd = 1 := congrArg Config.nocwnd hc
  unfold flushCwnd
  rw [hwnd, hno]
  rfl

/-- **An open window is used**: if nothing is held, something is numbered. -/
theorem sndBuf_flushed (hc : kcp.config = forwarderConfig)
    (hwin : SendWindow kcp.sndUna kcp.outgoing) (hbuf : kcp.sndBuf = []) (hqueue : kcp.sndQueue ≠ [])
    (hwnd : kcp.rmtWnd ≠ 0) : (flushMoved kcp).sndBuf ≠ [] := by
  obtain ⟨wait, ts, probe, hprobe⟩ := probeWindow_writes { kcp with acklist := [] }
  obtain ⟨newseg, rest, hcons⟩ := List.exists_cons_of_ne_nil hqueue
  have huna : kcp.sndUna = kcp.sndNxt := by
    have hfirst := hwin.first
    rw [show kcp.outgoing.sndBuf = [] from congrArg (List.map IkcpSeg.key) hbuf] at hfirst
    exact hfirst
  have hadmits : itimediff kcp.sndNxt (kcp.sndUna + flushCwnd kcp) < 0 := by
    obtain ⟨hpos, hle⟩ := imin_window hwnd
    rw [huna, flushCwnd_eq hc]
    exact itimediff_add_lt kcp.sndNxt hpos hle
  unfold flushMoved
  dsimp only
  rw [hprobe]
  dsimp only
  rw [hcons]
  unfold moveQueue
  rw [if_pos hadmits]
  obtain ⟨more, hmore⟩ := sndBuf_moveQueue (flushCwnd kcp) (ikcpWndUnused kcp) kcp.current rest _
  rw [hmore]
  simp

/-- While the window is closed nothing is numbered. -/
theorem sndBuf_closed (hc : kcp.config = forwarderConfig)
    (hwin : SendWindow kcp.sndUna kcp.outgoing) (hbuf : kcp.sndBuf = []) (hwnd : kcp.rmtWnd = 0) :
    (flushMoved kcp).sndBuf = [] := by
  obtain ⟨wait, ts, probe, hprobe⟩ := probeWindow_writes { kcp with acklist := [] }
  have huna : kcp.sndUna = kcp.sndNxt := by
    have hfirst := hwin.first
    rw [show kcp.outgoing.sndBuf = [] from congrArg (List.map IkcpSeg.key) hbuf] at hfirst
    exact hfirst
  have hfull : ¬ itimediff kcp.sndNxt (kcp.sndUna + flushCwnd kcp) < 0 := by
    have hzero : flushCwnd kcp = 0 := by
      rw [flushCwnd_eq hc, hwnd]
      decide
    rw [huna, hzero, UInt32.add_zero, itimediff, SerialNumber.diff_self]
    decide
  unfold flushMoved
  dsimp only
  rw [hprobe]
  dsimp only
  cases kcp.sndQueue with
  | nil => exact hbuf
  | cons newseg rest =>
    unfold moveQueue
    rw [if_neg hfull]
    exact hbuf

/-- A flush that finds the window closed has set the wait for the next probe. -/
theorem probeWait_flushed (hu : kcp.updated ≠ 0) (ht : Timers kcp) (hwnd : kcp.rmtWnd = 0) :
    (ikcpFlush listSink kcp []).1.probeWait ≠ 0 ∧ (ikcpFlush listSink kcp []).1.rmtWnd = 0 := by
  obtain ⟨_, _, _, _, _, _, _, _, _, _, _, hflush⟩ := ikcpFlush_writes listSink kcp [] hu
  rw [hflush]
  refine ⟨?_, hwnd⟩
  show (probeWindow { kcp with acklist := [] }).probeWait ≠ 0
  unfold probeWindow
  dsimp only
  rw [if_pos hwnd]
  split_ifs with hwait
  · exact (by decide : IKCP_PROBE_INIT ≠ 0)
  · exact (nextProbeWait_bounds (probeWait_bounds ht)).1
  · exact hwait

end Moves

/-! ## What a datagram brings -/

section Input
variable {kcp : Ikcpcb α}

theorem inputSeg_fields (kcp : Ikcpcb α) (acc : InputAcc) (w : WireSeg α) :
    (inputSeg kcp acc w).1.rmtWnd = w.wnd.toUInt32 ∧
    (inputSeg kcp acc w).1.probe =
      if w.cmd.toUInt32 = IKCP_CMD_WASK then kcp.probe ||| IKCP_ASK_TELL else kcp.probe := by
  obtain ⟨buf, nbuf, una, huna⟩ := inputUna_writes kcp w
  unfold inputSeg
  dsimp only
  by_cases hack : w.cmd.toUInt32 = IKCP_CMD_ACK
  · obtain ⟨rttval, srtt, rto, buf', nbuf', una', h⟩ := inputAck_writes (inputUna kcp w) w
    rw [if_pos hack, hack, if_neg (by decide), h, huna]
    exact ⟨rfl, rfl⟩
  · rw [if_neg hack]
    by_cases hpush : w.cmd.toUInt32 = IKCP_CMD_PUSH
    · obtain ⟨acks, buf', nbuf', queue, nque, nxt, h⟩ := inputPush_writes (inputUna kcp w) w
      rw [if_pos hpush, hpush, if_neg (by decide), h, huna]
      exact ⟨rfl, rfl⟩
    · rw [if_neg hpush, huna]
      split_ifs
      · exact ⟨rfl, rfl⟩
      · exact ⟨rfl, rfl⟩

theorem fields_inputEnd (prevUna : UInt32) (kcp : Ikcpcb α) (acc : InputAcc) :
    (inputEnd prevUna kcp acc).rmtWnd = kcp.rmtWnd ∧ (inputEnd prevUna kcp acc).probe = kcp.probe ∧
      (inputEnd prevUna kcp acc).acklist = kcp.acklist := by
  obtain ⟨buf, cwnd, incr, -, h⟩ := inputEnd_writes kcp prevUna acc
  rw [h]
  exact ⟨rfl, rfl, rfl⟩

/-- One turn of the loop, for a segment it does not stop at. -/
theorem inputLoop_cons (prevUna : UInt32) {w : WireSeg α} (rest : List (WireSeg α))
    (acc : InputAcc) (h : Admissible kcp.conv w) :
    inputLoop prevUna (w :: rest) kcp acc =
      inputLoop prevUna rest (inputSeg kcp acc w).1 (inputSeg kcp acc w).2 := by
  obtain ⟨hconv, hcmd⟩ := h
  rw [inputLoop, if_neg (not_not.mpr hconv), hcmd, Bool.not_true, if_neg Bool.false_ne_true]

theorem admissible_inputSeg {w v : WireSeg α} (acc : InputAcc) (h : Admissible kcp.conv v) :
    Admissible (inputSeg kcp acc w).1.conv v := by
  have hsame : (inputSeg kcp acc w).1.conv = kcp.conv :=
    congrArg Config.conv (config_inputSeg kcp acc w)
  rw [hsame]
  exact h

theorem backlog_of_releases {P : UInt32 → Prop} {kcp' : Ikcpcb α}
    (h : Releases P kcp.outgoing kcp'.outgoing) : backlog kcp' ≤ backlog kcp := by
  have hle := h.sub.length_le
  rw [backlog_eq, backlog_eq, h.sndQueue]
  omega

/-- What a segment releases besides what is before its `una`. -/
theorem releases_afterUna (kcp : Ikcpcb α) (acc : InputAcc) (w : WireSeg α) :
    Releases (Acknowledges w) (inputUna kcp w).outgoing (inputSeg kcp acc w).1.outgoing := by
  unfold inputSeg
  dsimp only
  split_ifs with hack
  · exact releases_inputAck _ w hack
  · rw [outgoing_inputPush]
    exact Releases.refl _ _
  · exact Releases.refl _ _
  · exact Releases.refl _ _

/-- **A `una` past the first segment held releases it.** -/
theorem backlog_inputSegs_lt {w : WireSeg α} (rest : List (WireSeg α)) (hadm : Admissible kcp.conv w)
    {x : IkcpSeg α} {l : List (IkcpSeg α)} (hbuf : kcp.sndBuf = x :: l)
    (huna : itimediff w.una x.sn > 0) :
    backlog (inputSegs kcp (w :: rest)).1 < backlog kcp := by
  have hhead : backlog (inputUna kcp w) < backlog kcp := by
    let rest : Ikcpcb α :=
      { kcp with rmtWnd := w.wnd.toUInt32, sndBuf := l, nsndBuf := kcp.nsndBuf - 1 }
    have hloop : ikcpParseUna { kcp with rmtWnd := w.wnd.toUInt32 } w.una =
        parseUnaLoop w.una l rest := by
      unfold ikcpParseUna
      dsimp only
      rw [hbuf, parseUnaLoop, if_pos huna]
    have hle : backlog (inputUna kcp w) ≤ backlog rest := by
      refine backlog_of_releases (P := fun sn => itimediff w.una sn > 0) ?_
      rw [inputUna, outgoing_ikcpShrinkBuf, hloop]
      exact releases_parseUnaLoop w.una l rest rfl
    have hone : backlog rest + 1 = backlog kcp := by
      show l.length + kcp.sndQueue.length + 1 = kcp.sndBuf.length + kcp.sndQueue.length
      rw [hbuf, List.length_cons]
      omega
    omega
  have hseg := backlog_of_releases (releases_afterUna kcp ⟨false, 0, 0⟩ w)
  have hrest := backlog_of_releases (releases_inputLoop kcp.sndUna rest
    (inputSeg kcp ⟨false, 0, 0⟩ w).1 (inputSeg kcp ⟨false, 0, 0⟩ w).2)
  have hall : (inputSegs kcp (w :: rest)).1 = _ :=
    congrArg Prod.fst (inputLoop_cons kcp.sndUna rest ⟨false, 0, 0⟩ hadm)
  rw [hall]
  omega

/-- The remote window is what the last segment reports. -/
theorem rmtWnd_inputLoop (prevUna : UInt32) (segs : List (WireSeg α)) (kcp : Ikcpcb α)
    (acc : InputAcc) (hadm : ∀ w ∈ segs, Admissible kcp.conv w)
    (hopen : ∀ w ∈ segs, w.wnd.toUInt32 ≠ 0) (h : kcp.rmtWnd ≠ 0 ∨ segs ≠ []) :
    (inputLoop prevUna segs kcp acc).1.rmtWnd ≠ 0 := by
  induction segs generalizing kcp acc with
  | nil =>
    show (inputEnd prevUna kcp acc).rmtWnd ≠ 0
    rw [(fields_inputEnd prevUna kcp acc).1]
    exact h.resolve_right (fun hne => hne rfl)
  | cons w rest ih =>
    rw [inputLoop_cons prevUna rest acc (hadm w (List.mem_cons_self ..))]
    refine ih _ _ (fun v hv => admissible_inputSeg acc (hadm v (List.mem_cons_of_mem _ hv)))
      (fun v hv => hopen v (List.mem_cons_of_mem _ hv)) (Or.inl ?_)
    rw [(inputSeg_fields kcp acc w).1]
    exact hopen w (List.mem_cons_self ..)

theorem rmtWnd_inputSegs {segs : List (WireSeg α)} (hne : segs ≠ [])
    (hadm : ∀ w ∈ segs, Admissible kcp.conv w) (hopen : ∀ w ∈ segs, w.wnd.toUInt32 ≠ 0) :
    (inputSegs kcp segs).1.rmtWnd ≠ 0 := by
  rw [inputSegs, if_neg (by simp [hne])]
  exact rmtWnd_inputLoop _ segs kcp _ hadm hopen (Or.inr hne)

/-- A probe asks for a report, and the report stays asked for. -/
theorem probe_inputLoop (prevUna : UInt32) (segs : List (WireSeg α)) (kcp : Ikcpcb α)
    (acc : InputAcc) (ht : Timers kcp) (hadm : ∀ w ∈ segs, Admissible kcp.conv w)
    (h : kcp.probe = IKCP_ASK_TELL ∨ ∃ w ∈ segs, w.cmd.toUInt32 = IKCP_CMD_WASK) :
    (inputLoop prevUna segs kcp acc).1.probe = IKCP_ASK_TELL := by
  induction segs generalizing kcp acc with
  | nil =>
    show (inputEnd prevUna kcp acc).probe = _
    rw [(fields_inputEnd prevUna kcp acc).2.1]
    exact h.resolve_right (fun ⟨_, hw, _⟩ => nomatch hw)
  | cons w rest ih =>
    rw [inputLoop_cons prevUna rest acc (hadm w (List.mem_cons_self ..))]
    have hprobe := (inputSeg_fields kcp acc w).2
    refine ih _ _ (ht.inputSeg acc w)
      (fun v hv => admissible_inputSeg acc (hadm v (List.mem_cons_of_mem _ hv))) ?_
    by_cases hask : w.cmd.toUInt32 = IKCP_CMD_WASK
    · left
      rw [hprobe, if_pos hask]
      rcases ht.probe with hp | hp
      · rw [hp]
        rfl
      · rw [hp]
        rfl
    · rw [hprobe, if_neg hask]
      refine h.imp_right ?_
      rintro ⟨v, hv, hcmd⟩
      rcases List.mem_cons.mp hv with rfl | hv
      · exact absurd hcmd hask
      · exact ⟨v, hv, hcmd⟩

theorem probe_inputSegs {segs : List (WireSeg α)} (ht : Timers kcp)
    (hadm : ∀ w ∈ segs, Admissible kcp.conv w)
    (h : ∃ w ∈ segs, w.cmd.toUInt32 = IKCP_CMD_WASK) :
    (inputSegs kcp segs).1.probe = IKCP_ASK_TELL := by
  have hne : segs ≠ [] := by
    rintro rfl
    obtain ⟨_, hw, -⟩ := h
    cases hw
  rw [inputSegs, if_neg (by simp [hne])]
  exact probe_inputLoop _ segs kcp _ ht hadm (Or.inr h)

/-- What is no push leaves the receiving side alone. -/
theorem window_inputLoop (prevUna : UInt32) (segs : List (WireSeg α)) (kcp : Ikcpcb α)
    (acc : InputAcc) (h : ∀ w ∈ segs, w.cmd.toUInt32 ≠ IKCP_CMD_PUSH) :
    (inputLoop prevUna segs kcp acc).1.window = kcp.window := by
  induction segs generalizing kcp acc with
  | nil => exact window_inputEnd kcp prevUna acc
  | cons w rest ih =>
    have hseg : (inputSeg kcp acc w).1.window = kcp.window := by
      unfold inputSeg
      dsimp only
      rw [if_neg (h w (List.mem_cons_self ..))]
      split_ifs
      · rw [window_inputAck, window_inputUna]
      · exact window_inputUna kcp w
      · exact window_inputUna kcp w
    unfold inputLoop
    split_ifs
    · rfl
    · rfl
    · rw [ih _ _ (fun v hv => h v (List.mem_cons_of_mem _ hv)), hseg]

theorem window_inputSegs {segs : List (WireSeg α)}
    (h : ∀ w ∈ segs, w.cmd.toUInt32 ≠ IKCP_CMD_PUSH) : (inputSegs kcp segs).1.window = kcp.window := by
  unfold inputSegs
  split
  · rfl
  · exact window_inputLoop _ segs kcp _ h

/-! ## What is acknowledged -/

/-- Acknowledgements that wait are not forgotten. -/
theorem acklist_inputSeg (kcp : Ikcpcb α) (acc : InputAcc) (w : WireSeg α) :
    kcp.acklist <+: (inputSeg kcp acc w).1.acklist := by
  have huna : (inputUna kcp w).acklist = kcp.acklist :=
    congrArg Incoming.acklist (incoming_inputUna kcp w)
  unfold inputSeg
  dsimp only
  split_ifs
  · have hack : (inputAck (inputUna kcp w) w).acklist = (inputUna kcp w).acklist :=
      congrArg Incoming.acklist (incoming_inputAck _ w)
    rw [hack, huna]
  · rw [← huna]
    unfold inputPush
    dsimp only
    split_ifs
    · rw [acklist_ikcpParseData]
      exact List.prefix_append _ _
    · exact List.prefix_append _ _
    · exact List.prefix_refl _
  · rw [← huna]
  · rw [huna]

theorem acklist_inputLoop (prevUna : UInt32) (segs : List (WireSeg α)) (kcp : Ikcpcb α)
    (acc : InputAcc) : kcp.acklist <+: (inputLoop prevUna segs kcp acc).1.acklist := by
  induction segs generalizing kcp acc with
  | nil =>
    show _ <+: (inputEnd prevUna kcp acc).acklist
    rw [(fields_inputEnd prevUna kcp acc).2.2]
  | cons w rest ih =>
    unfold inputLoop
    split_ifs
    · exact List.prefix_refl _
    · exact List.prefix_refl _
    · exact (acklist_inputSeg kcp acc w).trans (ih _ _)

section Receives
variable {sent : List (IkcpSeg α)} {taken : List (UInt32 × List α)} {r : Nat}

/-- A push that is not ahead of what has been received is acknowledged. -/
theorem mem_acklist_inputSeg (hwnd : kcp.rcvWnd = 1024)
    (h : Receives sent taken r kcp.incoming) (acc : InputAcc) {w : WireSeg α}
    (hpush : w.cmd.toUInt32 = IKCP_CMD_PUSH) {k : Nat} (hsn : w.sn = UInt32.ofNat k) (hk : k ≤ r)
    (hnear : sent.length ≤ k + 1024) : (w.sn, w.ts) ∈ (inputSeg kcp acc w).1.acklist := by
  have hin := incoming_inputUna kcp w
  have hwnd' : (inputUna kcp w).rcvWnd = 1024 :=
    (congrArg Config.rcvWnd (config_inputUna kcp w)).trans hwnd
  have hnxt : (inputUna kcp w).rcvNxt = UInt32.ofNat r := by
    rw [show (inputUna kcp w).rcvNxt = kcp.rcvNxt from congrArg Incoming.rcvNxt hin]
    exact h.rcvNxt
  have hle := h.le
  have hwindow : itimediff w.sn ((inputUna kcp w).rcvNxt + (inputUna kcp w).rcvWnd) < 0 := by
    rw [hnxt, hwnd', hsn, show (1024 : UInt32) = UInt32.ofNat 1024 from rfl, ← UInt32.ofNat_add,
      itimediff, SerialNumber.diff_ofNat (by omega) (by omega)]
    omega
  have hack : ¬ w.cmd.toUInt32 = IKCP_CMD_ACK := by
    rw [hpush]
    decide
  unfold inputSeg
  dsimp only
  rw [if_neg hack, if_pos hpush]
  unfold inputPush
  dsimp only
  rw [if_pos hwindow]
  split_ifs
  · rw [acklist_ikcpParseData]
    exact List.mem_append_right _ (List.mem_singleton_self _)
  · exact List.mem_append_right _ (List.mem_singleton_self _)

theorem mem_acklist_inputLoop (hb : sent.length < 2 ^ 32) (prevUna : UInt32)
    (segs : List (WireSeg α)) (kcp : Ikcpcb α) (acc : InputAcc) (hwnd : kcp.rcvWnd = 1024)
    (h : Receives sent taken r kcp.incoming) (hadm : ∀ v ∈ segs, Admissible kcp.conv v)
    (hcopy : ∀ v ∈ segs, v.cmd.toUInt32 = IKCP_CMD_PUSH → Copy sent v.sn (v.frg.toUInt32, v.data))
    {w : WireSeg α} (hw : w ∈ segs) (hpush : w.cmd.toUInt32 = IKCP_CMD_PUSH) {k : Nat}
    (hsn : w.sn = UInt32.ofNat k) (hk : k ≤ r) (hnear : sent.length ≤ k + 1024) :
    (w.sn, w.ts) ∈ (inputLoop prevUna segs kcp acc).1.acklist := by
  induction segs generalizing kcp acc r with
  | nil => cases hw
  | cons v rest ih =>
    rw [inputLoop_cons prevUna rest acc (hadm v (List.mem_cons_self ..))]
    rcases List.mem_cons.mp hw with rfl | hw
    · exact (acklist_inputLoop prevUna rest _ _).subset
        (mem_acklist_inputSeg hwnd h acc hpush hsn hk hnear)
    · obtain ⟨r', hr'⟩ := progress_inputSeg hb kcp acc h (hcopy v (List.mem_cons_self ..))
      have hwnd' : (inputSeg kcp acc v).1.rcvWnd = 1024 :=
        (congrArg Config.rcvWnd (config_inputSeg kcp acc v)).trans hwnd
      exact ih _ _ hwnd' hr'.receives
        (fun x hx => admissible_inputSeg acc (hadm x (List.mem_cons_of_mem _ hx)))
        (fun x hx => hcopy x (List.mem_cons_of_mem _ hx)) hw (Nat.le_trans hk hr'.le)

theorem length_rcvQueue (h : Receives sent taken r kcp.incoming) :
    taken.length + kcp.rcvQueue.length = r := by
  have hcount := congrArg List.length h.queue
  have hle := h.le
  rw [List.length_append, List.length_map, List.length_map, List.length_take] at hcount
  have hqueue : kcp.incoming.rcvQueue.length = kcp.rcvQueue.length := rfl
  omega

/-- **A segment that is not ahead of what has been received arrives**, if `rcv_queue` has
room: it is behind `rcv_nxt` afterwards, and acknowledged. -/
theorem arrives_inputSegs (hb : sent.length < 2 ^ 31) (hwnd : kcp.rcvWnd = 1024) (ht : Tidy kcp)
    (hroom : kcp.rcvQueue.length < 1024) (h : Receives sent taken r kcp.incoming)
    (hacked : Acked sent r kcp.incoming) {segs : List (WireSeg α)}
    (hadm : ∀ v ∈ segs, Admissible kcp.conv v)
    (hcopy : ∀ v ∈ segs, v.cmd.toUInt32 = IKCP_CMD_PUSH → Copy sent v.sn (v.frg.toUInt32, v.data))
    {w : WireSeg α} (hw : w ∈ segs) (hpush : w.cmd.toUInt32 = IKCP_CMD_PUSH) {k : Nat}
    (hlt : k < sent.length) (hsn : w.sn = UInt32.ofNat k) (hk : k ≤ r)
    (hnear : sent.length ≤ k + 1024) :
    ∃ r', Receives sent taken r' (inputSegs kcp segs).1.incoming ∧ k < r' ∧
      (inputSegs kcp segs).1.acklist ≠ [] := by
  have hne : segs ≠ [] := List.ne_nil_of_mem hw
  have hmem : (w.sn, w.ts) ∈ (inputSegs kcp segs).1.acklist := by
    rw [inputSegs, if_neg (by simp [hne])]
    exact mem_acklist_inputLoop (by omega) _ segs kcp _ hwnd h hadm hcopy hw hpush hsn hk hnear
  obtain ⟨r', hr'⟩ := progress_inputSegs (by omega) kcp segs h hcopy
  refine ⟨r', hr'.receives, ?_, List.ne_nil_of_mem hmem⟩
  -- what is acknowledged has arrived
  obtain ⟨j, hj, hjsn, hgot⟩ := hr'.acked hb hacked _ hmem
  have hjk : j = k := (SerialNumber.ofNat_inj (by omega) (by omega)).mp (hjsn.symm.trans hsn)
  subst hjk
  rcases hgot with hbehind | ⟨seg, hseg, hsegsn⟩
  · exact hbehind
  · -- a segment at `rcv_nxt` would have moved
    by_contra hnot
    have hle := hr'.le
    have hrr : r' = j := by omega
    have hnxt : (inputSegs kcp segs).1.rcvNxt = UInt32.ofNat r' := hr'.receives.rcvNxt
    have hfull := (ht.inputSegs segs).next seg hseg (by rw [hsegsn, hnxt, hrr])
    have h1 := length_rcvQueue h
    have h2 := length_rcvQueue hr'.receives
    omega

end Receives

end Input

/-! ## What is held -/

theorem pairwise_numbered {segs : List (IkcpSeg α)} {n : Nat} (h : n + segs.length ≤ 2 ^ 32) :
    (numbered forwarderConv (UInt32.ofNat n) segs).Pairwise
      (fun a b => a.sn.toNat < b.sn.toNat) := by
  induction segs generalizing n with
  | nil => exact List.Pairwise.nil
  | cons seg rest ih =>
    rw [List.length_cons] at h
    have hsucc : UInt32.ofNat n + 1 = UInt32.ofNat (n + 1) := (SerialNumber.ofNat_succ n).symm
    unfold numbered
    rw [hsucc]
    refine List.pairwise_cons.mpr ⟨?_, ih (by omega)⟩
    intro x hx
    obtain ⟨k, s, hk, rfl⟩ := mem_numbered.mp hx
    have hlt : k < rest.length := (List.getElem?_eq_some_iff.mp hk).1
    show (UInt32.ofNat n).toNat < (UInt32.ofNat (n + 1) + UInt32.ofNat k).toNat
    rw [← UInt32.ofNat_add, UInt32.toNat_ofNat_of_lt' (by simp only [UInt32.size]; omega),
      UInt32.toNat_ofNat_of_lt' (by simp only [UInt32.size]; omega)]
    omega

/-- The first segment held has the least number. -/
theorem Sends.head_le {read : List α} {sent : List (IkcpSeg α)} {o : Outgoing α}
    (hb : sent.length < 2 ^ 31) (h : Sends read sent o) {x y : SegKey α} {rest : List (SegKey α)}
    (hbuf : o.sndBuf = x :: rest) (hy : y ∈ o.sndBuf) {j k : Nat} (hj : j < 2 ^ 31) (hk : k < 2 ^ 31)
    (hx : x.sn = UInt32.ofNat k) (hyj : y.sn = UInt32.ofNat j) : k ≤ j := by
  have hsorted : o.sndBuf.Pairwise (fun a b => a.sn.toNat < b.sn.toNat) :=
    (pairwise_numbered (n := 0) (by omega)).sublist h.sndBuf
  rw [hbuf] at hsorted hy
  rcases List.mem_cons.mp hy with rfl | hy
  · have hkj := (SerialNumber.ofNat_inj (by omega) (by omega)).mp (hx.symm.trans hyj)
    omega
  · have hlt := (List.pairwise_cons.mp hsorted).1 y hy
    rw [hx, hyj, UInt32.toNat_ofNat_of_lt' (by simp only [UInt32.size]; omega),
      UInt32.toNat_ofNat_of_lt' (by simp only [UInt32.size]; omega)] at hlt
    omega

/-- At most a window has been numbered from the first segment held on. -/
theorem SendWindow.near {read : List α} {sent : List (IkcpSeg α)} {una : UInt32} {o : Outgoing α}
    (hb : sent.length < 2 ^ 31) (h : SendWindow una o) (hs : Sends read sent o) {x : SegKey α}
    {rest : List (SegKey α)} (hbuf : o.sndBuf = x :: rest) {k : Nat} (hk : k < sent.length)
    (hx : x.sn = UInt32.ofNat k) : sent.length ≤ k + 1024 := by
  have huna : una = UInt32.ofNat k := by
    rw [h.first, hbuf]
    exact hx
  have hspan := h.span
  rw [huna, hs.sndNxt, ahead] at hspan
  have hsub : UInt32.ofNat sent.length - UInt32.ofNat k = UInt32.ofNat (sent.length - k) := by
    have hadd : UInt32.ofNat sent.length = UInt32.ofNat (sent.length - k) + UInt32.ofNat k := by
      rw [← UInt32.ofNat_add]
      congr 1
      omega
    rw [hadd]
    grind
  rw [hsub, UInt32.toNat_ofNat_of_lt' (by simp only [UInt32.size]; omega)] at hspan
  omega

/-! ## Datagrams -/

section Emits
variable {D B : Type} {T : Transport α D B} {Carries : D → List (WireSeg α) → Prop}
  {kcp : Ikcpcb α} {b : B} {current : UInt32}

/-- **What a flush packs is sent**: some datagram of the update carries it. -/
theorem emits_updateFlushed (hT : Lawful T Carries) (hc : kcp.config = forwarderConfig)
    {read : List α} {sent : List (IkcpSeg α)} (hs : Sends read sent kcp.outgoing)
    {seg : IkcpSeg α} (h : seg ∈ updateFlushed kcp current) :
    ∃ d ∈ (T.update kcp b current).2, ∃ segs, Carries d segs ∧ ikcpEncodeSeg seg ∈ segs ∧
      ∀ w ∈ segs, Admissible forwarderConv w ∧
        ∃ s ∈ updateFlushed kcp current, w = ikcpEncodeSeg s := by
  have hflat : ikcpEncodeSeg seg ∈ (packets kcp current).flatten := by
    rw [flatten_packets]
    exact List.mem_map_of_mem h
  obtain ⟨segs, hsegs, hmem⟩ := List.mem_flatten.mp hflat
  obtain ⟨d, hd, hcar⟩ := mem_of_forall₂ (hT.sends kcp b current hc hs.fits).flip hsegs
  refine ⟨d, hd, segs, hcar, hmem, fun w hw => ?_⟩
  have hw' : w ∈ (packets kcp current).flatten := List.mem_flatten.mpr ⟨segs, hsegs, hw⟩
  rw [flatten_packets] at hw'
  obtain ⟨s, hseg, rfl⟩ := List.mem_map.mp hw'
  exact ⟨admissible_of_mem_updateFlushed hc hs hseg, s, hseg, rfl⟩

end Emits

end FlexProxy
