import FlexProxy.Tunnel

/-! # Round trips

An end that reads a byte sends it in a segment of its own.  The other end writes it to its
TCP socket and acknowledges it, and when the acknowledgement has come back both are where
they were, with the next number (`round`).  So any number of segments can be numbered in a
run (`rounds`), also so many that the numbers come round, while a datagram sent long ago is
still under way.
-/
namespace FlexProxy
open TransitionSystem
variable {α D B : Type}

/-! ## The control block -/

/-- A control block with empty `snd_queue` and `rcv_buf`: its numbers, the segments that are
in flight, `rcv_queue`, and what is to be acknowledged. -/
structure Snapshot (kcp : Ikcpcb α) (una nxt : UInt32) (inflight : List UInt32) (rcv : UInt32)
    (queue : List (IkcpSeg α)) (acks : List (UInt32 × UInt32)) : Prop where
  config : kcp.config = forwarderConfig
  updated : kcp.updated ≠ 0
  sndUna : kcp.sndUna = una
  sndNxt : kcp.sndNxt = nxt
  sndQueue : kcp.sndQueue = []
  sndBuf : kcp.sndBuf.map IkcpSeg.sn = inflight
  rmtWnd : kcp.rmtWnd ≠ 0
  probe : kcp.probe = 0
  rcvNxt : kcp.rcvNxt = rcv
  rcvQueue : kcp.rcvQueue = queue
  rcvBuf : kcp.rcvBuf = []
  acklist : kcp.acklist = acks
  nrcvQue : kcp.nrcvQue = UInt32.ofNat queue.length

deriving instance DecidableEq for Config

instance [DecidableEq α] (kcp : Ikcpcb α) (una nxt : UInt32) (inflight : List UInt32) (rcv : UInt32)
    (queue : List (IkcpSeg α)) (acks : List (UInt32 × UInt32)) :
    Decidable (Snapshot kcp una nxt inflight rcv queue acks) :=
  decidable_of_iff
    (kcp.config = forwarderConfig ∧ kcp.updated ≠ 0 ∧ kcp.sndUna = una ∧ kcp.sndNxt = nxt ∧
      kcp.sndQueue = [] ∧ kcp.sndBuf.map IkcpSeg.sn = inflight ∧ kcp.rmtWnd ≠ 0 ∧ kcp.probe = 0 ∧
      kcp.rcvNxt = rcv ∧ kcp.rcvQueue = queue ∧ kcp.rcvBuf = [] ∧ kcp.acklist = acks ∧
      kcp.nrcvQue = UInt32.ofNat queue.length)
    ⟨fun ⟨h1, h2, h3, h4, h5, h6, h7, h8, h9, h10, h11, h12, h13⟩ =>
      ⟨h1, h2, h3, h4, h5, h6, h7, h8, h9, h10, h11, h12, h13⟩,
      fun ⟨h1, h2, h3, h4, h5, h6, h7, h8, h9, h10, h11, h12, h13⟩ =>
      ⟨h1, h2, h3, h4, h5, h6, h7, h8, h9, h10, h11, h12, h13⟩⟩

theorem itimediff_add_lt (n : UInt32) {c : UInt32} (hpos : c ≠ 0) (hle : c ≤ 1024) :
    itimediff n (n + c) < 0 := by
  have hc : c.toNat ≤ 1024 := UInt32.le_iff_toNat_le.mp hle
  have hne : c.toNat ≠ 0 := fun h => hpos (UInt32.toNat_inj.mp h)
  have hdiff : itimediff n (n + c) = SerialNumber.diff 0 c := by
    have h := SerialNumber.diff_add_right 0 c n
    rw [UInt32.zero_add, UInt32.add_comm] at h
    exact h
  have hword : SerialNumber.diff 0 c = (0 : Int) - c.toNat := by
    have h := SerialNumber.diff_ofNat (a := 0) (b := c.toNat) (by omega) (by omega)
    rw [UInt32.ofNat_toNat] at h
    exact h
  omega

theorem itimediff_succ (n : UInt32) : itimediff (n + 1) n = 1 := by
  have h := SerialNumber.diff_add_right 1 0 n
  rw [UInt32.zero_add, UInt32.add_comm] at h
  exact h

theorem imin_window {wnd : UInt32} (h : wnd ≠ 0) : imin 1024 wnd ≠ 0 ∧ imin 1024 wnd ≤ 1024 := by
  unfold imin
  split
  · exact ⟨by decide, UInt32.le_refl _⟩
  · rename_i hlt
    exact ⟨h, UInt32.le_of_lt (UInt32.not_le.mp hlt)⟩

theorem toUInt32_ne_zero {wnd : UInt16} (h : wnd ≠ 0) : wnd.toUInt32 ≠ 0 := by
  intro hz
  apply h
  apply UInt16.toNat_inj.mp
  rw [← UInt16.toNat_toUInt32, hz]
  rfl

/-- While nothing is in flight, only what waits in `snd_queue` has to fit. -/
theorem fits_of_sndBuf_nil {kcp : Ikcpcb α} (hbuf : kcp.sndBuf = [])
    (hqueue : ∀ seg ∈ kcp.sndQueue, SegFits seg.frg seg.data) : kcp.outgoing.Fits where
  queued := hqueue
  numbered := by
    intro x hx
    have hnil : kcp.outgoing.sndBuf = [] := congrArg (List.map IkcpSeg.key) hbuf
    rw [hnil] at hx
    cases hx

section Kcp
variable {kcp : Ikcpcb α} {una nxt rcv n : UInt32} {inflight : List UInt32}
  {queue : List (IkcpSeg α)} {acks : List (UInt32 × UInt32)}

theorem Snapshot.flushEnd (h : Snapshot kcp una nxt inflight rcv queue acks)
    (cwnd resent : UInt32) (change : Nat) (lost : Bool) :
    Snapshot (flushEnd kcp cwnd resent change lost) una nxt inflight rcv queue acks := by
  obtain ⟨ssthresh, cwnd', incr, hend⟩ := flushEnd_writes kcp cwnd resent change lost
  rw [hend]
  exact { h with }

theorem Snapshot.updateAck (h : Snapshot kcp una nxt inflight rcv queue acks) (rtt : Int32) :
    Snapshot (ikcpUpdateAck kcp rtt) una nxt inflight rcv queue acks := by
  obtain ⟨rttval, srtt, rto, hrtt⟩ := ikcpUpdateAck_writes kcp rtt
  rw [hrtt]
  exact { h with }

theorem Snapshot.growCwnd (h : Snapshot kcp una nxt inflight rcv queue acks) :
    Snapshot (growCwnd kcp) una nxt inflight rcv queue acks := by
  obtain ⟨cwnd, incr, hgrow⟩ := growCwnd_writes kcp
  rw [hgrow]
  exact { h with }

/-- **Sending**: a chunk that fits into one segment is numbered and sent when the next flush
is due. -/
theorem snapshot_push (h : Snapshot kcp n n [] rcv [] []) {chunk : List α}
    (hlen : chunk.length ≤ 1376) :
    Snapshot (ikcpUpdate listSink (ikcpSend kcp chunk).1 [] kcp.tsFlush).1 n (n + 1) [n] rcv [] [] ∧
    ∃ seg, updateFlushed (ikcpSend kcp chunk).1 kcp.tsFlush = [seg] ∧
      ikcpEncodeSeg seg = ⟨forwarderConv, 81, 0, 1024, kcp.tsFlush, n, rcv, chunk⟩ := by
  have hsend := ikcpSend_eq h.config (Nat.le_trans hlen (by decide) : chunk.length ≤ 127 * 1376)
  have hcount : fragmentCount 1376 chunk.length = 1 := if_pos hlen
  have htake : chunk.take 1376 = chunk := List.take_of_length_le hlen
  rw [hsend, hcount]
  clear hsend
  obtain ⟨hc, hu, h1, h2, h3, h4, hw, h5, h6, h7, h8, h9, h10⟩ := h
  rw [List.map_eq_nil_iff] at h4
  have hroom : itimediff n (n + imin 1024 kcp.rmtWnd) < 0 :=
    itimediff_add_lt n (imin_window hw).1 (imin_window hw).2
  cases kcp
  dsimp only at *
  simp only [Ikcpcb.config, forwarderConfig, Config.mk.injEq] at hc
  obtain ⟨rfl, rfl, rfl, rfl, rfl, rfl, rfl, rfl, rfl, rfl⟩ := hc
  subst h1 h2 h3 h4 h5 h6 h7 h8 h9 h10
  simp [updateFlushed, ikcpUpdate, updateClock, startClock, hu, ikcpFlush, flushCtl, flushAcks,
    probeWindow, hw, flushProbe, flushMoved, moveQueue, fragment, flushCwnd, htake, hroom, flushData,
    dueSeg, listSink, ikcpOutput, ikcpWndUnused, makeRoom, ikcpEncodeSeg, IKCP_CMD_PUSH]
  apply Snapshot.flushEnd
  exact ⟨rfl, hu, rfl, rfl, rfl, rfl, hw, rfl, rfl, rfl, rfl, rfl, rfl⟩

/-- **Receiving**: a push with the number expected is queued, and is to be acknowledged. -/
theorem snapshot_input_push (h : Snapshot kcp una una [] n [] []) {w : WireSeg α}
    (hconv : w.conv = forwarderConv) (hcmd : w.cmd = 81) (hwnd : w.wnd ≠ 0) (hsn : w.sn = n) :
    Snapshot (inputSegs kcp [w]).1 una una [] (n + 1) [pushSeg w] [(n, w.ts)] := by
  have hin : itimediff n (n + 1024) < 0 := itimediff_add_lt n (by decide) (by decide)
  have hin' : ¬ 0 ≤ itimediff n (n + 1024) := by omega
  have hwnd' := toUInt32_ne_zero hwnd
  obtain ⟨hc, hu, h1, h2, h3, h4, hw, h5, h6, h7, h8, h9, h10⟩ := h
  rw [List.map_eq_nil_iff] at h4
  cases kcp
  cases w
  dsimp only at *
  simp only [Ikcpcb.config, forwarderConfig, Config.mk.injEq] at hc
  obtain ⟨rfl, rfl, rfl, rfl, rfl, rfl, rfl, rfl, rfl, rfl⟩ := hc
  subst hconv hcmd hsn h1 h2 h3 h4 h5 h6 h7 h8 h9 h10
  simp [inputSegs, inputLoop, inputSeg, inputUna, ikcpParseUna, parseUnaLoop, ikcpShrinkBuf,
    knownCmd, IKCP_CMD_ACK, IKCP_CMD_PUSH, inputPush, ikcpAckPush, ikcpParseData, hin, hin', storeSeg,
    insertSeg, moveAvailable, pushSeg, inputEnd]
  exact ⟨rfl, hu, rfl, rfl, rfl, rfl, hwnd', rfl, rfl, rfl, rfl, rfl, rfl⟩

/-- **Acknowledging**: when the next flush is due, one acknowledgement is sent. -/
theorem snapshot_ack {sn ts : UInt32} {seg : IkcpSeg α}
    (h : Snapshot kcp una una [] rcv [seg] [(sn, ts)]) :
    Snapshot (ikcpUpdate listSink kcp [] kcp.tsFlush).1 una una [] rcv [seg] [] ∧
    ∃ ack, updateFlushed kcp kcp.tsFlush = [ack] ∧
      ikcpEncodeSeg ack = ⟨forwarderConv, 82, 0, 1023, ts, sn, rcv, []⟩ := by
  obtain ⟨hc, hu, h1, h2, h3, h4, hw, h5, h6, h7, h8, h9, h10⟩ := h
  rw [List.map_eq_nil_iff] at h4
  cases kcp
  dsimp only at *
  simp only [Ikcpcb.config, forwarderConfig, Config.mk.injEq] at hc
  obtain ⟨rfl, rfl, rfl, rfl, rfl, rfl, rfl, rfl, rfl, rfl⟩ := hc
  subst h1 h2 h3 h4 h5 h6 h7 h8 h9 h10
  simp [updateFlushed, ikcpUpdate, updateClock, startClock, hu, ikcpFlush, flushCtl, flushAcks,
    probeWindow, hw, flushProbe, flushMoved, moveQueue, flushCwnd, flushData, listSink, ikcpOutput,
    ikcpWndUnused, makeRoom, ikcpEncodeSeg, flushSeg, IKCP_CMD_ACK]
  apply Snapshot.flushEnd
  exact ⟨rfl, hu, rfl, rfl, rfl, rfl, hw, rfl, rfl, rfl, rfl, rfl, rfl⟩

/-- **Reading** a message of one segment. -/
theorem snapshot_recv {seg : IkcpSeg α} {len : Int} (h : Snapshot kcp una una [] rcv [seg] [])
    (hfrg : seg.frg = 0) (hlen : (seg.data.length : Int) ≤ len) :
    Snapshot (ikcpRecv kcp len).1 una una [] rcv [] [] ∧
    (ikcpRecv kcp len).2 = ((seg.data.length : Int), seg.data) := by
  obtain ⟨hc, hu, h1, h2, h3, h4, hw, h5, h6, h7, h8, h9, h10⟩ := h
  have hnonneg : ¬ len < 0 := by omega
  have hfits : ¬ len < (seg.len : Int) := by
    show ¬ len < (seg.data.length : Int)
    omega
  have hpos : ¬ (seg.len : Int) < 0 := by omega
  rw [List.map_eq_nil_iff] at h4
  cases kcp
  dsimp only at *
  simp only [Ikcpcb.config, forwarderConfig, Config.mk.injEq] at hc
  obtain ⟨rfl, rfl, rfl, rfl, rfl, rfl, rfl, rfl, rfl, rfl⟩ := hc
  subst h1 h2 h3 h4 h5 h6 h7 h8 h9 h10
  simp [ikcpRecv, ikcpPeeksize, hfrg, hnonneg, hfits, hpos, takeMessage, dropMessage, moveAvailable,
    fastRecover]
  exact ⟨rfl, hu, rfl, rfl, rfl, rfl, hw, rfl, rfl, rfl, rfl, rfl, rfl⟩

/-- There is nothing to read. -/
theorem snapshot_recv_nil {len : Int} (h : Snapshot kcp una nxt inflight rcv [] acks) :
    ikcpRecv kcp len = (kcp, -1, []) := by
  rw [ikcpRecv, h.rcvQueue]
  rfl

/-- A fragment that is not the last one of its message is not read alone. -/
theorem snapshot_recv_part {seg : IkcpSeg α} {len : Int}
    (h : Snapshot kcp una nxt inflight rcv [seg] acks) (hfrg : seg.frg ≠ 0)
    (hsmall : seg.frg.toNat < 128) : ikcpRecv kcp len = (kcp, -2, []) := by
  have hfew : kcp.nrcvQue < seg.frg + 1 := by
    have hpos : seg.frg.toNat ≠ 0 := fun h => hfrg (UInt32.toNat_inj.mp h)
    have hone : kcp.nrcvQue = 1 := h.nrcvQue
    rw [hone, UInt32.lt_iff_toNat_lt, UInt32.toNat_add]
    show 1 < (seg.frg.toNat + 1) % 2 ^ 32
    omega
  have hpeek : ikcpPeeksize kcp = -1 := by
    unfold ikcpPeeksize
    rw [h.rcvQueue]
    show (if seg.frg = 0 then _ else _) = _
    rw [if_neg hfrg, if_pos hfew]
  rw [ikcpRecv, h.rcvQueue, hpeek]
  rfl

/-- **Releasing**: the acknowledgement of the segment in flight. -/
theorem snapshot_input_ack (h : Snapshot kcp n (n + 1) [n] rcv [] []) {w : WireSeg α}
    (hconv : w.conv = forwarderConv) (hcmd : w.cmd = 82) (hwnd : w.wnd ≠ 0) (hsn : w.sn = n)
    (huna : w.una = n + 1) : Snapshot (inputSegs kcp [w]).1 (n + 1) (n + 1) [] rcv [] [] := by
  have hafter := itimediff_succ n
  have hbefore : itimediff n (n + 1) < 0 := itimediff_add_lt n (by decide) (by decide)
  -- `una` releases the segment, and the acknowledgement finds nothing more
  have hfirst : Snapshot (inputUna kcp w) (n + 1) (n + 1) [] rcv [] [] := by
    obtain ⟨seg, hbuf, hseg⟩ := List.map_eq_singleton_iff.mp h.sndBuf
    have hone : inputUna kcp w =
        { kcp with
          rmtWnd := w.wnd.toUInt32, sndBuf := [], nsndBuf := kcp.nsndBuf - 1
          sndUna := kcp.sndNxt } := by
      simp [inputUna, ikcpParseUna, hbuf, parseUnaLoop, huna, hseg, hafter, ikcpShrinkBuf]
    rw [hone]
    exact ⟨h.config, h.updated, h.sndNxt, h.sndNxt, h.sndQueue, rfl, toUInt32_ne_zero hwnd, h.probe,
      h.rcvNxt, h.rcvQueue, h.rcvBuf, h.acklist, h.nrcvQue⟩
  have hstay : ∀ k : Ikcpcb α, Snapshot k (n + 1) (n + 1) [] rcv [] [] →
      Snapshot (ikcpShrinkBuf (ikcpParseAck k w.sn)) (n + 1) (n + 1) [] rcv [] [] ∧
      ikcpParseFastack k w.sn = k := by
    intro k hk
    have hbuf : k.sndBuf = [] := List.map_eq_nil_iff.mp hk.sndBuf
    have hack : ikcpParseAck k w.sn = k := by
      rw [ikcpParseAck, hk.sndUna, hsn, if_pos (Or.inl hbefore)]
    have hfast : ikcpParseFastack k w.sn = k := by
      rw [ikcpParseFastack, hk.sndUna, hsn, if_pos (Or.inl hbefore)]
    refine ⟨?_, hfast⟩
    rw [hack, ikcpShrinkBuf, hbuf]
    exact ⟨hk.config, hk.updated, hk.sndNxt, hk.sndNxt, hk.sndQueue, rfl, hk.rmtWnd,
      hk.probe, hk.rcvNxt, hk.rcvQueue, hk.rcvBuf, hk.acklist, hk.nrcvQue⟩
  have hack : Snapshot (inputAck (inputUna kcp w) w) (n + 1) (n + 1) [] rcv [] [] := by
    unfold inputAck
    dsimp only
    split
    · exact (hstay _ (hfirst.updateAck _)).1
    · exact (hstay _ hfirst).1
  have hrun : (inputSegs kcp [w]).1 =
      inputEnd kcp.sndUna (inputAck (inputUna kcp w) w) ⟨true, w.sn, w.ts⟩ := by
    have hc : kcp.conv = forwarderConv := congrArg Config.conv h.config
    simp [inputSegs, inputLoop, hconv, hc, hcmd, knownCmd, inputSeg, IKCP_CMD_ACK, InputAcc.ack]
  rw [hrun, inputEnd]
  dsimp only
  rw [if_pos rfl, (hstay _ hack).2]
  split
  · exact hack.growCwnd
  · exact hack

end Kcp

/-! ## The data path -/

/-- A single segment goes out in a single datagram. -/
theorem packets_one {kcp : Ikcpcb α} {current : UInt32} {seg : IkcpSeg α}
    (h : updateFlushed kcp current = [seg]) : packets kcp current = [[ikcpEncodeSeg seg]] := by
  have hflat : (packets kcp current).flatten = [ikcpEncodeSeg seg] := by
    rw [flatten_packets, h]
    rfl
  have hne : ∀ segs ∈ packets kcp current, segs ≠ [] := fun _ hs => ne_nil_of_mem_packets hs
  cases hp : packets kcp current with
  | nil =>
    rw [hp] at hflat
    cases hflat
  | cons first rest =>
    rw [hp] at hflat hne
    obtain ⟨w, ws, rfl⟩ := List.exists_cons_of_ne_nil (hne first (List.mem_cons_self ..))
    obtain ⟨hw, hrest⟩ := List.cons.inj hflat
    obtain ⟨hws, hnil⟩ := List.append_eq_nil_iff.mp hrest
    have hempty : rest = [] := by
      apply List.eq_nil_iff_forall_not_mem.mpr
      intro segs hs
      exact hne segs (List.mem_cons_of_mem _ hs) (List.flatten_eq_nil_iff.mp hnil segs hs)
    rw [hw, hws, hempty]

namespace DataPath
variable {T : Transport α D B} {Carries : D → List (WireSeg α) → Prop} {p : DataPath α D B}
  {n rcv una : UInt32}

/-- An update that flushes one segment. -/
theorem update_one (hT : Lawful T Carries) (hc : p.kcp.config = forwarderConfig)
    (hf : p.kcp.outgoing.Fits) {current : UInt32} {seg : IkcpSeg α}
    (h : updateFlushed p.kcp current = [seg]) :
    ∃ d, (p.update T current true).emitted = p.emitted ++ [d] ∧ Carries d [ikcpEncodeSeg seg] := by
  have hsends := hT.sends p.kcp p.buffer current hc hf
  rw [packets_one h] at hsends
  obtain ⟨d, rest, hd, hrest, heq⟩ := List.forall₂_cons_right_iff.mp hsends
  have hnil : rest = [] := List.forall₂_nil_right_iff.mp hrest
  refine ⟨d, ?_, hd⟩
  show p.emitted ++ (T.update p.kcp p.buffer current).2 = _
  rw [heq, hnil]

/-- There is nothing to hand to the TCP socket. -/
theorem recv_of_snapshot {nxt : UInt32} {inflight : List UInt32} {acks : List (UInt32 × UInt32)}
    (h : Snapshot p.kcp una nxt inflight rcv [] acks) :
    p.recv = ({ p with message := [], pending := [] }, -1) := by
  unfold recv
  rw [snapshot_recv_nil h]

end DataPath

/-! ## The forwarder -/

namespace Forwarder
variable {T : Transport α D B} {Carries : D → List (WireSeg α) → Prop} {role : Role}
  {f : Forwarder α D B} {n rcv una : UInt32}

/-- Every coroutine waits, and both sockets are open. -/
structure Ready (f : Forwarder α D B) : Prop where
  isRunning : f.isRunning = some true
  stopped : f.stopped = none
  reader : f.reader = .waiting true
  writer : f.writer = .sleeping
  feeder : f.feeder = .waiting true

instance (f : Forwarder α D B) : Decidable f.Ready :=
  decidable_of_iff
    (f.isRunning = some true ∧ f.stopped.isNone ∧ f.reader = .waiting true ∧ f.writer = .sleeping ∧
      f.feeder = .waiting true)
    ⟨fun ⟨h1, h2, h3, h4, h5⟩ => ⟨h1, Option.isNone_iff_eq_none.mp h2, h3, h4, h5⟩,
      fun ⟨h1, h2, h3, h4, h5⟩ => ⟨h1, Option.isNone_iff_eq_none.mpr h2, h3, h4, h5⟩⟩

/-- The time of the next flush. -/
def flushTime (f : Forwarder α D B) : Nat := f.now + (f.kcp.tsFlush - UInt32.ofNat f.now).toNat

theorem ofNat_flushTime (f : Forwarder α D B) : UInt32.ofNat f.flushTime = f.kcp.tsFlush := by
  rw [flushTime, UInt32.ofNat_add, UInt32.ofNat_toNat]
  grind

theorem Ready.tcpData (T : Transport α D B) (role : Role) (h : f.Ready) {chunk : List α}
    (hpos : 0 < chunk.length) (hmax : chunk.length ≤ role.tcpBufferSize) :
    ∃ g, step T role f (.tcpData chunk) = some g ∧ g.Ready ∧
      g.toDataPath = f.toDataPath.tcpToKcp chunk := by
  refine ⟨_, if_pos ⟨h.reader, hpos, hmax⟩, ?_⟩
  unfold readerLoop workerLoop
  rw [if_pos h.isRunning]
  refine ⟨⟨h.isRunning, h.stopped, ?_, h.writer, h.feeder⟩, rfl⟩
  show Worker.waiting f.stopped.isNone = _
  rw [h.stopped]
  rfl

theorem Ready.udpData (T : Transport α D B) (role : Role) (h : f.Ready) (d : D) :
    ∃ g, step T role f (.udpData d) = some g ∧ g.Ready ∧
      g.toDataPath = f.toDataPath.feed T d := by
  refine ⟨_, if_pos h.feeder, ?_⟩
  unfold feederLoop workerLoop
  rw [if_pos h.isRunning]
  refine ⟨⟨h.isRunning, h.stopped, h.reader, h.writer, ?_⟩, rfl⟩
  show Worker.waiting f.stopped.isNone = _
  rw [h.stopped]
  rfl

/-- The data path when a flush is due, and `ikcp_recv` is called. -/
def flushed (T : Transport α D B) (f : Forwarder α D B) : DataPath α D B :=
  f.toDataPath.update T f.kcp.tsFlush true

theorem kcp_flushed (hT : Lawful T Carries) (f : Forwarder α D B) :
    (f.flushed T).kcp = (ikcpUpdate listSink f.kcp [] f.kcp.tsFlush).1 :=
  hT.update f.kcp f.buffer f.kcp.tsFlush

theorem writerLoop_flushTime (h : f.Ready) :
    ({ f with now := f.flushTime }.writerLoop T) =
      { f with now := f.flushTime, toDataPath := f.flushed T }.drain := by
  have hopen : f.isOpen = true := by
    rw [isOpen, h.stopped]
    rfl
  unfold writerLoop
  rw [if_pos h.isRunning]
  show ({ f with
    now := f.flushTime
    toDataPath := f.toDataPath.update T (UInt32.ofNat f.flushTime) f.isOpen } :
      Forwarder α D B).drain = _
  rw [ofNat_flushTime, hopen]
  rfl

/-- A flush, and nothing to write. -/
theorem Ready.tick_quiet (T : Transport α D B) (role : Role) (h : f.Ready)
    (hquiet : (f.flushed T).recv.2 ≤ 0) :
    ∃ g, step T role f (.tick f.flushTime) = some g ∧ g.Ready ∧
      g.toDataPath = (f.flushed T).recv.1 := by
  refine ⟨_, if_pos ⟨h.writer, Nat.le_add_right _ _⟩, ?_⟩
  rw [writerLoop_flushTime h]
  refine ⟨?_, toDataPath_drain _⟩
  unfold drain
  dsimp only
  rw [if_pos hquiet]
  exact ⟨h.isRunning, h.stopped, h.reader, rfl, h.feeder⟩

/-- A flush, a message that is written at once, and nothing more to write. -/
theorem Ready.tick_write (T : Transport α D B) (role : Role) (h : f.Ready)
    (hmessage : 0 < (f.flushed T).recv.2)
    (hquiet : ((f.flushed T).recv.1.transfer (f.flushed T).recv.1.pending.length).recv.2 ≤ 0) :
    ∃ g, exec (step T role) f [.tick f.flushTime, .transfer (f.flushed T).recv.1.pending.length,
        .writeOk] = some g ∧ g.Ready ∧
      g.toDataPath =
        ((f.flushed T).recv.1.transfer (f.flushed T).recv.1.pending.length).recv.1 := by
  have hopen : f.isOpen = true := by
    rw [isOpen, h.stopped]
    rfl
  let writing : Forwarder α D B :=
    { f with now := f.flushTime, toDataPath := (f.flushed T).recv.1, writer := .writing true }
  let written : Forwarder α D B :=
    { writing with
      toDataPath := (f.flushed T).recv.1.transfer (f.flushed T).recv.1.pending.length }
  have htick : step T role f (.tick f.flushTime) = some writing := by
    have hstep : step T role f (.tick f.flushTime) =
        some ({ f with now := f.flushTime }.writerLoop T) := if_pos ⟨h.writer, Nat.le_add_right _ _⟩
    rw [hstep, writerLoop_flushTime h]
    unfold drain
    dsimp only
    rw [if_neg (by omega)]
    show some ({ f with
      now := f.flushTime, toDataPath := (f.flushed T).recv.1, writer := .writing f.isOpen } :
        Forwarder α D B) = _
    rw [hopen]
  have htransfer : step T role writing (.transfer (f.flushed T).recv.1.pending.length) =
      some written := if_pos ⟨rfl, hopen, Nat.le_refl _⟩
  have hempty : written.pending.length = 0 := by
    show ((f.flushed T).recv.1.pending.drop _).length = 0
    rw [List.drop_length]
    rfl
  have hok : step T role written .writeOk = some written.drain := if_pos ⟨rfl, hempty⟩
  refine ⟨written.drain, ?_, ?_, toDataPath_drain written⟩
  · rw [exec_cons, htick, Option.bind_some, exec_cons, htransfer, Option.bind_some, exec_singleton,
      hok]
  · unfold drain
    dsimp only
    rw [if_pos hquiet]
    exact ⟨h.isRunning, h.stopped, h.reader, rfl, h.feeder⟩

/-- From `f` to `g` an end has read `chunk`, and sent it as segment `n` in the datagram `d`. -/
structure Pushed (Carries : D → List (WireSeg α) → Prop) (n rcv : UInt32) (chunk : List α) (d : D)
    (f g : Forwarder α D B) : Prop where
  ready : g.Ready
  kcp : Snapshot g.kcp n (n + 1) [n] rcv [] []
  read : g.read = f.read ++ [chunk]
  written : g.written = f.written
  emitted : g.emitted = f.emitted ++ [d]
  carries : ∃ ts, Carries d [⟨forwarderConv, 81, 0, 1024, ts, n, rcv, chunk⟩]

/-- **An end reads a chunk that fits into one segment, and sends it.** -/
theorem Ready.push (role : Role) (hT : Lawful T Carries) (h : f.Ready)
    (hs : Snapshot f.kcp n n [] rcv [] []) {chunk : List α} (hpos : 0 < chunk.length)
    (hlen : chunk.length ≤ 1376) :
    ∃ now d g, exec (step T role) f [.tcpData chunk, .tick now] = some g ∧
      Pushed Carries n rcv chunk d f g := by
  have hmax : chunk.length ≤ role.tcpBufferSize := by
    refine Nat.le_trans hlen ?_
    cases role <;> decide
  -- `ikcp_send` queues the chunk as one segment
  obtain ⟨f₁, hread, hready, hpath⟩ := h.tcpData T role hpos hmax
  have hsend := ikcpSend_eq hs.config (Nat.le_trans hlen (by decide) : chunk.length ≤ 127 * 1376)
  have hcount : fragmentCount 1376 chunk.length = 1 := if_pos hlen
  rw [hcount, hs.sndQueue, List.nil_append] at hsend
  have hk₁ : f₁.kcp = (ikcpSend f.kcp chunk).1 := congrArg DataPath.kcp hpath
  have hflush : f₁.kcp.tsFlush = f.kcp.tsFlush := by rw [hk₁, hsend]
  have hqueue : f₁.kcp.sndQueue = fragment 1376 0 1 chunk := by rw [hk₁, hsend]
  have hc₁ : f₁.kcp.config = forwarderConfig := by
    rw [hk₁, hsend]
    exact hs.config
  have hbuf : f₁.kcp.sndBuf = [] := by
    rw [hk₁, hsend]
    exact List.map_eq_nil_iff.mp hs.sndBuf
  have hfits : f₁.kcp.outgoing.Fits := by
    apply fits_of_sndBuf_nil hbuf
    intro seg hseg
    rw [hqueue] at hseg
    exact ⟨len_le_of_mem_fragment hseg, frg_lt_of_mem_fragment (by decide) hseg⟩
  -- the flush that is due numbers it, and it is a datagram of its own
  obtain ⟨hsnap, seg, hseg, hencode⟩ := snapshot_push hs hlen
  rw [← hk₁, ← hflush] at hsnap hseg
  rw [← kcp_flushed hT] at hsnap
  have hnone := DataPath.recv_of_snapshot hsnap
  have hquiet : (f₁.flushed T).recv.2 ≤ 0 := by
    rw [hnone]
    exact (by decide : (-1 : Int) ≤ 0)
  obtain ⟨g, htick, hg, hpath'⟩ := hready.tick_quiet T role hquiet
  rw [hnone] at hpath'
  obtain ⟨d, hd, hcar⟩ := DataPath.update_one hT hc₁ hfits hseg
  rw [hencode] at hcar
  refine ⟨f₁.flushTime, d, g, ?_, hg, ?_, ?_, ?_, ?_, _, hcar⟩
  · rw [exec_cons, hread, Option.bind_some, exec_singleton, htick]
  · rw [hpath']
    exact hsnap
  · rw [hpath']
    show f₁.read = f.read ++ [chunk]
    rw [hpath]
    rfl
  · rw [hpath']
    show f₁.written = f.written
    rw [hpath]
    rfl
  · rw [hpath']
    show (f₁.flushed T).emitted = _
    rw [flushed, hd, hpath]
    rfl

/-- From `f` to `g` an end has received the segment `n` with `data`, written it, and sent the
acknowledgement in the datagram `d`. -/
structure Delivered (Carries : D → List (WireSeg α) → Prop) (una n : UInt32) (data : List α) (d : D)
    (f g : Forwarder α D B) : Prop where
  ready : g.Ready
  kcp : Snapshot g.kcp una una [] (n + 1) [] []
  read : g.read = f.read
  written : g.written = f.written ++ data
  emitted : g.emitted = f.emitted ++ [d]
  carries : ∃ ts, Carries d [⟨forwarderConv, 82, 0, 1023, ts, n, n + 1, []⟩]

/-- A push with the number that an end expects. -/
structure Expected (w : WireSeg α) (n : UInt32) : Prop where
  conv : w.conv = forwarderConv
  cmd : w.cmd = 81
  wnd : w.wnd ≠ 0
  sn : w.sn = n

/-- The end has received the push, and flushes its acknowledgement. -/
theorem Ready.receive (role : Role) (hT : Lawful T Carries) (h : f.Ready)
    (hs : Snapshot f.kcp una una [] n [] []) {w : WireSeg α} (hw : Expected w n) {d : D}
    (hd : Carries d [w]) :
    ∃ f₁, step T role f (.udpData d) = some f₁ ∧ f₁.Ready ∧
      Snapshot (f₁.flushed T).kcp una una [] (n + 1) [pushSeg w] [] ∧
      (f₁.flushed T).read = f.read ∧ (f₁.flushed T).written = f.written ∧
      ∃ d', (f₁.flushed T).emitted = f.emitted ++ [d'] ∧
        ∃ ts, Carries d' [⟨forwarderConv, 82, 0, 1023, ts, n, n + 1, []⟩] := by
  obtain ⟨f₁, hfeed, hready, hpath⟩ := h.udpData T role d
  have hk₁ : f₁.kcp = (inputSegs f.kcp [w]).1 :=
    (congrArg DataPath.kcp hpath).trans (hT.feed f.kcp d [w] hd)
  have hqueued := snapshot_input_push hs hw.conv hw.cmd hw.wnd hw.sn
  rw [← hk₁] at hqueued
  -- the flush comes before `ikcp_recv`, so it reports a window with one place taken
  obtain ⟨hsnap, ack, hack, hencode⟩ := snapshot_ack hqueued
  rw [← kcp_flushed hT] at hsnap
  have hfits : f₁.kcp.outgoing.Fits := by
    apply fits_of_sndBuf_nil (List.map_eq_nil_iff.mp hqueued.sndBuf)
    intro seg hseg
    rw [hqueued.sndQueue] at hseg
    cases hseg
  obtain ⟨d', hd', hcar⟩ := DataPath.update_one hT hqueued.config hfits hack
  rw [hencode] at hcar
  refine ⟨f₁, hfeed, hready, hsnap, ?_, ?_, d', ?_, _, hcar⟩
  · show f₁.read = f.read
    rw [hpath]
    rfl
  · show f₁.written = f.written
    rw [hpath]
    rfl
  · rw [flushed, hd', hpath]
    rfl

/-- **An end receives a message of one segment, writes it and acknowledges it.** -/
theorem Ready.deliver (role : Role) (hT : Lawful T Carries) (h : f.Ready)
    (hs : Snapshot f.kcp una una [] n [] []) {w : WireSeg α} (hw : Expected w n)
    (hfrg : w.frg = 0) (hpos : 0 < w.data.length) (hlen : w.data.length ≤ 16384) {d : D}
    (hd : Carries d [w]) :
    ∃ now k d' g, exec (step T role) f [.udpData d, .tick now, .transfer k, .writeOk] = some g ∧
      Delivered Carries una n w.data d' f g := by
  obtain ⟨f₁, hfeed, hready, hsnap, hread, hwritten, d', hemit, hcar⟩ :=
    h.receive role hT hs hw hd
  have hzero : (pushSeg w).frg = 0 := by
    show w.frg.toUInt32 = 0
    rw [hfrg]
    rfl
  have hsize : (((pushSeg w).data.length : Nat) : Int) ≤ DataPath.recvBufferSize := by
    have h16 : DataPath.recvBufferSize = 16384 := rfl
    have hdata : (pushSeg w).data = w.data := rfl
    rw [h16, hdata]
    omega
  obtain ⟨hafter, hvalue⟩ := snapshot_recv hsnap hzero hsize
  have hnum : (f₁.flushed T).recv.2 = (w.data.length : Int) := congrArg Prod.fst hvalue
  have hpend : (f₁.flushed T).recv.1.pending = w.data := congrArg Prod.snd hvalue
  have hempty : Snapshot ((f₁.flushed T).recv.1.transfer (f₁.flushed T).recv.1.pending.length).kcp
      una una [] (n + 1) [] [] := hafter
  have hnone := DataPath.recv_of_snapshot hempty
  have hquiet : ((f₁.flushed T).recv.1.transfer (f₁.flushed T).recv.1.pending.length).recv.2 ≤ 0 := by
    rw [hnone]
    exact (by decide : (-1 : Int) ≤ 0)
  obtain ⟨g, htick, hg, hpath⟩ := hready.tick_write T role
    (by rw [hnum]; omega) hquiet
  rw [hnone] at hpath
  refine ⟨f₁.flushTime, (f₁.flushed T).recv.1.pending.length, d', g, ?_, hg, ?_, ?_, ?_, ?_, hcar⟩
  · rw [exec_cons, hfeed, Option.bind_some, htick]
  · rw [hpath]
    exact hafter
  · rw [hpath]
    exact hread
  · rw [hpath]
    show (f₁.flushed T).written ++ (f₁.flushed T).recv.1.pending.take
      (f₁.flushed T).recv.1.pending.length = _
    rw [List.take_length, hwritten, hpend]
  · rw [hpath]
    exact hemit

/-- **An end receives the acknowledgement of its segment in flight.** -/
theorem Ready.release (role : Role) (hT : Lawful T Carries) (h : f.Ready)
    (hs : Snapshot f.kcp n (n + 1) [n] rcv [] []) {ts : UInt32} {d : D}
    (hd : Carries d [⟨forwarderConv, 82, 0, 1023, ts, n, n + 1, []⟩]) :
    ∃ g, step T role f (.udpData d) = some g ∧ g.Ready ∧
      Snapshot g.kcp (n + 1) (n + 1) [] rcv [] [] ∧ g.read = f.read ∧ g.written = f.written ∧
      g.emitted = f.emitted := by
  obtain ⟨g, hfeed, hready, hpath⟩ := h.udpData T role d
  have hk : g.kcp = (inputSegs f.kcp _).1 :=
    (congrArg DataPath.kcp hpath).trans (hT.feed f.kcp d _ hd)
  refine ⟨g, hfeed, hready, ?_, ?_⟩
  · rw [hk]
    exact snapshot_input_ack hs rfl rfl (show (1023 : UInt16) ≠ 0 by decide) rfl rfl
  · rw [hpath]
    exact ⟨rfl, rfl, rfl⟩

/-- **A fragment that is not the last one stays in `rcv_queue`.** -/
theorem Ready.hold (role : Role) (hT : Lawful T Carries) (h : f.Ready)
    (hs : Snapshot f.kcp una una [] n [] []) {w : WireSeg α} (hw : Expected w n)
    (hfrg : w.frg ≠ 0) (hsmall : w.frg.toNat < 128) {d : D} (hd : Carries d [w]) :
    ∃ now g, exec (step T role) f [.udpData d, .tick now] = some g ∧ g.Ready ∧
      g.kcp.rcvQueue = [pushSeg w] := by
  obtain ⟨f₁, hfeed, hready, hsnap, -⟩ := h.receive role hT hs hw hd
  have hne : (pushSeg w).frg ≠ 0 := by
    intro hz
    have hword : w.frg.toUInt32 = 0 := hz
    apply hfrg
    apply UInt8.toNat_inj.mp
    rw [← UInt8.toNat_toUInt32, hword]
    rfl
  have hlt : (pushSeg w).frg.toNat < 128 := by
    show w.frg.toUInt32.toNat < 128
    rw [UInt8.toNat_toUInt32]
    exact hsmall
  have hpart : (f₁.flushed T).recv = ({ f₁.flushed T with message := [], pending := [] }, -2) := by
    unfold DataPath.recv
    rw [snapshot_recv_part hsnap hne hlt]
  have hquiet : (f₁.flushed T).recv.2 ≤ 0 := by
    rw [hpart]
    exact (by decide : (-2 : Int) ≤ 0)
  obtain ⟨g, htick, hg, hpath⟩ := hready.tick_quiet T role hquiet
  rw [hpart] at hpath
  refine ⟨f₁.flushTime, g, ?_, hg, ?_⟩
  · rw [exec_cons, hfeed, Option.bind_some, exec_singleton, htick]
  · rw [hpath]
    exact hsnap.rcvQueue

end Forwarder

/-! ## The tunnel -/

namespace Tunnel
variable [DecidableEq D] {T : Transport α D B} {Carries : D → List (WireSeg α) → Prop}
  {t : Tunnel α D B} {n una : UInt32}

theorem exec_client {es : List (Event α D)} {f : Forwarder α D B}
    (h : exec (Forwarder.step T .client) t.client es = some f)
    (hnet : ∀ e ∈ es, ∀ d ∈ e.datagram, d ∈ t.server.emitted) :
    exec (step T) t (es.map .client) = some { t with client := f } := by
  induction es generalizing t with
  | nil =>
    cases h
    rfl
  | cons e es ih =>
    obtain ⟨g, hg, hes⟩ := exec_cons_eq_some.mp h
    have hstep : step T t (.client e) = some { t with client := g } := by
      show (if ∀ d ∈ e.datagram, d ∈ t.server.emitted then _ else none) = _
      rw [if_pos (hnet e (List.mem_cons_self ..)), hg]
      rfl
    rw [List.map_cons, exec_cons, hstep, Option.bind_some]
    exact ih (t := { t with client := g }) hes (fun e he => hnet e (List.mem_cons_of_mem _ he))

theorem exec_server {es : List (Event α D)} {f : Forwarder α D B}
    (h : exec (Forwarder.step T .server) t.server es = some f)
    (hnet : ∀ e ∈ es, ∀ d ∈ e.datagram, d ∈ t.client.emitted) :
    exec (step T) t (es.map .server) = some { t with server := f } := by
  induction es generalizing t with
  | nil =>
    cases h
    rfl
  | cons e es ih =>
    obtain ⟨g, hg, hes⟩ := exec_cons_eq_some.mp h
    have hstep : step T t (.server e) = some { t with server := g } := by
      show (if ∀ d ∈ e.datagram, d ∈ t.client.emitted then _ else none) = _
      rw [if_pos (hnet e (List.mem_cons_self ..)), hg]
      rfl
    rw [List.map_cons, exec_cons, hstep, Option.bind_some]
    exact ih (t := { t with server := g }) hes (fun e he => hnet e (List.mem_cons_of_mem _ he))

/-- No write fails with try-again, and no datagram comes from the accept coroutine. -/
def Plain : TunnelEvent α D → Prop
  | .client e => e ≠ .writeAgain
  | .server e => e ≠ .writeAgain ∧ ∀ d, e ≠ .onUdpData d

/-- Both ends wait: the client goes on with segment `n`, which the server expects. -/
structure AtRest (una n : UInt32) (t : Tunnel α D B) : Prop where
  client : t.client.Ready
  server : t.server.Ready
  clientKcp : Snapshot t.client.kcp n n [] una [] []
  serverKcp : Snapshot t.server.kcp una una [] n [] []

instance [DecidableEq α] (una n : UInt32) (t : Tunnel α D B) : Decidable (t.AtRest una n) :=
  decidable_of_iff
    (t.client.Ready ∧ t.server.Ready ∧ Snapshot t.client.kcp n n [] una [] [] ∧
      Snapshot t.server.kcp una una [] n [] [])
    ⟨fun ⟨h1, h2, h3, h4⟩ => ⟨h1, h2, h3, h4⟩, fun ⟨h1, h2, h3, h4⟩ => ⟨h1, h2, h3, h4⟩⟩

/-- From `t` to `t'` the chunks `chunks` have gone from the client's TCP socket to that of
the server. -/
structure Passed (chunks : List (List α)) (t t' : Tunnel α D B) : Prop where
  read : t'.client.read = t.client.read ++ chunks
  written : t'.server.written = t.server.written ++ chunks.flatten
  emitted : t.client.emitted <+: t'.client.emitted

/-- **One round trip.** -/
theorem round (hT : Lawful T Carries) (h : t.AtRest una n) (chunk : List α) (hpos : 0 < chunk.length)
    (hlen : chunk.length ≤ 1376) :
    ∃ run t', exec (step T) t run = some t' ∧ (∀ e ∈ run, Plain e) ∧ t'.AtRest una (n + 1) ∧
      Passed [chunk] t t' := by
  obtain ⟨now, d, f, hpush, hf⟩ := h.client.push .client hT h.clientKcp hpos hlen
  obtain ⟨ts, hd⟩ := hf.carries
  obtain ⟨now', k, d', g, hdeliver, hg⟩ := h.server.deliver .server hT h.serverKcp
    ⟨rfl, rfl, show (1024 : UInt16) ≠ 0 by decide, rfl⟩ rfl hpos (Nat.le_trans hlen (by decide)) hd
  obtain ⟨ts', hd'⟩ := hg.carries
  obtain ⟨f', hrelease, hready, hkcp, hread, hwritten, hemit⟩ :=
    hf.ready.release .client hT hf.kcp hd'
  have hup : exec (step T) t [.client (.tcpData chunk), .client (.tick now)] =
      some { t with client := f } :=
    exec_client hpush (by simp [Event.datagram])
  have hin : d ∈ f.emitted := by
    rw [hf.emitted]
    exact List.mem_append_right _ (List.mem_singleton_self d)
  have hacross : exec (step T) { t with client := f } [.server (.udpData d), .server (.tick now'),
      .server (.transfer k), .server .writeOk] = some ⟨f, g⟩ :=
    exec_server (t := { t with client := f }) hdeliver (by simp [Event.datagram, hin])
  have hin' : d' ∈ g.emitted := by
    rw [hg.emitted]
    exact List.mem_append_right _ (List.mem_singleton_self d')
  have hback : exec (step T) ⟨f, g⟩ [.client (.udpData d')] = some ⟨f', g⟩ :=
    exec_client (t := ⟨f, g⟩) ((exec_singleton _ _).trans hrelease) (by simp [Event.datagram, hin'])
  refine ⟨_, ⟨f', g⟩, exec_append_eq_some.mpr ⟨_, hup, exec_append_eq_some.mpr ⟨_, hacross, hback⟩⟩,
    ?_, ⟨hready, hg.ready, hkcp, hg.kcp⟩, ?_, ?_, ?_⟩
  · simp [Plain]
  · show f'.read = _
    rw [hread, hf.read]
  · show g.written = _
    rw [hg.written, List.flatten_singleton]
  · show t.client.emitted <+: f'.emitted
    rw [hemit, hf.emitted]
    exact List.prefix_append _ _

/-- **Any number of round trips.** -/
theorem rounds (hT : Lawful T Carries) (h : t.AtRest una n) (chunk : List α) (hpos : 0 < chunk.length)
    (hlen : chunk.length ≤ 1376) (k : Nat) :
    ∃ run t', exec (step T) t run = some t' ∧ (∀ e ∈ run, Plain e) ∧
      t'.AtRest una (n + UInt32.ofNat k) ∧ Passed (List.replicate k chunk) t t' := by
  induction k with
  | zero =>
    refine ⟨[], t, rfl, fun _ he => absurd he List.not_mem_nil, ?_, ?_, ?_, List.prefix_refl _⟩
    · rw [show UInt32.ofNat 0 = 0 from rfl, UInt32.add_zero]
      exact h
    · exact (List.append_nil _).symm
    · exact (List.append_nil _).symm
  | succ k ih =>
    obtain ⟨run, t₁, hrun, hplain, hrest, hpassed⟩ := ih
    obtain ⟨run', t₂, hrun', hplain', hrest', hpassed'⟩ := round hT hrest chunk hpos hlen
    refine ⟨run ++ run', t₂, exec_append_eq_some.mpr ⟨t₁, hrun, hrun'⟩, ?_, ?_, ?_, ?_,
      hpassed.emitted.trans hpassed'.emitted⟩
    · intro e he
      exact (List.mem_append.mp he).elim (hplain e) (hplain' e)
    · rw [SerialNumber.ofNat_succ, ← UInt32.add_assoc]
      exact hrest'
    · rw [hpassed'.read, hpassed.read, List.replicate_succ', List.append_assoc]
    · rw [hpassed'.written, hpassed.written, List.replicate_succ', List.flatten_append,
        List.append_assoc]

/-! ## A datagram that comes late -/

section Late
variable {w : WireSeg α} {d : D}

/-- A segment with the number expected that is part of a message stays in `rcv_queue`. -/
theorem late_part (hT : Lawful T Carries) (h : t.AtRest una n) (hw : Forwarder.Expected w n)
    (hfrg : w.frg ≠ 0) (hsmall : w.frg.toNat < 128) (hd : d ∈ t.client.emitted)
    (hcar : Carries d [w]) :
    ∃ now g, exec (step T) t [.server (.udpData d), .server (.tick now)] =
        some { t with server := g } ∧ g.Ready ∧ g.kcp.rcvQueue = [pushSeg w] := by
  obtain ⟨now, g, hhold, hready, hqueue⟩ :=
    h.server.hold .server hT h.serverKcp hw hfrg hsmall hcar
  exact ⟨now, g, exec_server hhold (by simp [Event.datagram, hd]), hready, hqueue⟩

/-- A segment with the number expected that is a whole message is written. -/
theorem late_message (hT : Lawful T Carries) (h : t.AtRest una n) (hw : Forwarder.Expected w n)
    (hfrg : w.frg = 0) (hpos : 0 < w.data.length) (hlen : w.data.length ≤ 16384)
    (hd : d ∈ t.client.emitted) (hcar : Carries d [w]) :
    ∃ run g, exec (step T) t run = some { t with server := g } ∧ (∀ e ∈ run, Plain e) ∧ g.Ready ∧
      g.written = t.server.written ++ w.data := by
  obtain ⟨now, k, d', g, hdeliver, hg⟩ :=
    h.server.deliver .server hT h.serverKcp hw hfrg hpos hlen hcar
  exact ⟨_, g, exec_server hdeliver (by simp [Event.datagram, hd]), by simp [Plain], hg.ready,
    hg.written⟩

end Late

end Tunnel
end FlexProxy
