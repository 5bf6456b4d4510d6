import FlexProxy.Datagram
import FlexProxy.KcpClock
import FlexProxy.Lifecycle
import FlexProxy.Link
import FlexProxy.SendWindow

/-! # The control block under any traffic

`ikcp_input` is handed whatever passes the checksum, so its caller knows nothing of the
segments in it.  Whatever they are, the control block of a forwarder stays what its own
functions rely on (`WellFormed`): the counters count, both windows are in order and at most
1024 segments wide, and the times the timers are set from stay in their bounds.
-/
namespace FlexProxy
variable {α : Type}

/-! ## Times -/

/-- What the timers are set from: the retransmission timeout, and the wait between two
window probes.  `IKCP_ASK_SEND` is only set during a flush. -/
structure Timers (kcp : Ikcpcb α) : Prop where
  minrto : kcp.rxMinrto = 30
  rto : 30 ≤ kcp.rxRto.toInt ∧ kcp.rxRto.toInt ≤ 60000
  srtt : 0 ≤ kcp.rxSrtt.toInt
  wait : kcp.probeWait = 0 ∨
    IKCP_PROBE_INIT ≤ kcp.probeWait ∧ kcp.probeWait ≤ IKCP_PROBE_LIMIT
  probe : kcp.probe = 0 ∨ kcp.probe = IKCP_ASK_TELL

theorem timers_forwarderKcp : Timers (forwarderKcp (α := α)) where
  minrto := rfl
  rto := by
    show 30 ≤ (200 : Int32).toInt ∧ (200 : Int32).toInt ≤ 60000
    decide
  srtt := by
    show 0 ≤ (0 : Int32).toInt
    decide
  wait := Or.inl rfl
  probe := Or.inl rfl

theorem ibound_bounds {lower upper : UInt32} (h : lower ≤ upper) (middle : UInt32) :
    lower ≤ ibound lower middle upper ∧ ibound lower middle upper ≤ upper := by
  unfold ibound imin imax
  split_ifs with h1 h2
  · exact ⟨UInt32.le_refl _, h⟩
  · exact ⟨UInt32.le_of_lt (UInt32.not_le.mp h1), h2⟩
  · exact ⟨h, UInt32.le_refl _⟩

/-- A word below `2^31` is not negative as a signed number. -/
theorem toInt_toInt32 {x : UInt32} (h : x.toNat < 2 ^ 31) : x.toInt32.toInt = x.toNat := by
  have hword : x.toInt32.toInt = (x.toNat : Int).bmod (2 ^ 32) := by
    show x.toBitVec.toInt = _
    rw [BitVec.toInt_eq_toNat_bmod]
    rfl
  rw [hword]
  exact Int.bmod_eq_of_le (by omega) (by omega)

section Timers
variable {kcp : Ikcpcb α}

/-- **The retransmission timeout stays between 30 ms and a minute**, whatever round trip
time an acknowledgement suggests. -/
theorem Timers.updateAck (h : Timers kcp) {rtt : Int32} (hrtt : 0 ≤ rtt.toInt) :
    Timers (ikcpUpdateAck kcp rtt) := by
  have hrto : ∀ (k : Ikcpcb α) (r : Int32), k.rxMinrto = 30 →
      30 ≤ (ibound k.rxMinrto.toUInt32 r.toUInt32 IKCP_RTO_MAX).toInt32.toInt ∧
      (ibound k.rxMinrto.toUInt32 r.toUInt32 IKCP_RTO_MAX).toInt32.toInt ≤ 60000 := by
    intro k r hk
    rw [hk]
    obtain ⟨hlow, hhigh⟩ := ibound_bounds (by decide : (30 : Int32).toUInt32 ≤ IKCP_RTO_MAX) r.toUInt32
    have hl : 30 ≤ (ibound (30 : Int32).toUInt32 r.toUInt32 IKCP_RTO_MAX).toNat :=
      UInt32.le_iff_toNat_le.mp hlow
    have hh : (ibound (30 : Int32).toUInt32 r.toUInt32 IKCP_RTO_MAX).toNat ≤ 60000 :=
      UInt32.le_iff_toNat_le.mp hhigh
    rw [toInt_toInt32 (by omega)]
    omega
  unfold ikcpUpdateAck
  split
  · exact ⟨h.minrto, hrto _ _ h.minrto, hrtt, h.wait, h.probe⟩
  · refine ⟨h.minrto, hrto _ _ h.minrto, ?_, h.wait, h.probe⟩
    show 0 ≤ (if (7 * kcp.rxSrtt + rtt) / 8 < 1 then 1 else (7 * kcp.rxSrtt + rtt) / 8 : Int32).toInt
    split
    · decide
    · rename_i hge
      have hlt := Int32.not_lt.mp hge
      have hone : (1 : Int32).toInt ≤ ((7 * kcp.rxSrtt + rtt) / 8).toInt := Int32.le_iff_toInt_le.mp hlt
      exact Int.le_trans (by decide) hone

theorem Timers.inputAck (h : Timers kcp) (w : WireSeg α) : Timers (inputAck kcp w) := by
  have hrest : ∀ k : Ikcpcb α, Timers k → Timers (ikcpShrinkBuf (ikcpParseAck k w.sn)) := by
    intro k hk
    obtain ⟨buf, nbuf, hack⟩ := ikcpParseAck_writes k w.sn
    obtain ⟨una, hshrink⟩ := ikcpShrinkBuf_writes (ikcpParseAck k w.sn)
    rw [hshrink, hack]
    exact ⟨hk.minrto, hk.rto, hk.srtt, hk.wait, hk.probe⟩
  unfold FlexProxy.inputAck
  dsimp only
  split
  · rename_i hge
    refine hrest _ (h.updateAck ?_)
    have hlt : itimediff kcp.current w.ts < 2 ^ 31 := (kcp.current - w.ts).toInt32.toInt_lt
    rw [Int32.toInt_ofInt]
    show 0 ≤ (itimediff kcp.current w.ts).bmod (2 ^ 32)
    rw [Int.bmod_eq_of_le (by omega) (by omega)]
    exact hge
  · exact hrest _ h

theorem Timers.inputSeg (h : Timers kcp) (acc : InputAcc) (w : WireSeg α) :
    Timers (inputSeg kcp acc w).1 := by
  have huna : Timers (inputUna kcp w) := by
    obtain ⟨buf, nbuf, una, hw⟩ := inputUna_writes kcp w
    rw [hw]
    exact ⟨h.minrto, h.rto, h.srtt, h.wait, h.probe⟩
  unfold FlexProxy.inputSeg
  dsimp only
  split_ifs
  · exact huna.inputAck w
  · obtain ⟨acks, buf, nbuf, queue, nque, nxt, hpush⟩ := inputPush_writes (inputUna kcp w) w
    rw [hpush]
    exact ⟨huna.minrto, huna.rto, huna.srtt, huna.wait, huna.probe⟩
  · refine ⟨huna.minrto, huna.rto, huna.srtt, huna.wait, Or.inr ?_⟩
    show (inputUna kcp w).probe ||| IKCP_ASK_TELL = _
    rcases huna.probe with hp | hp
    · rw [hp]
      rfl
    · rw [hp]
      rfl
  · exact huna

theorem Timers.inputLoop (h : Timers kcp) (prevUna : UInt32) (segs : List (WireSeg α))
    (acc : InputAcc) : Timers (inputLoop prevUna segs kcp acc).1 := by
  induction segs generalizing kcp acc with
  | nil =>
    obtain ⟨buf, cwnd, incr, -, hend⟩ := inputEnd_writes kcp prevUna acc
    unfold FlexProxy.inputLoop
    rw [hend]
    exact ⟨h.minrto, h.rto, h.srtt, h.wait, h.probe⟩
  | cons w rest ih =>
    unfold FlexProxy.inputLoop
    split_ifs
    · exact h
    · exact h
    · exact ih (h.inputSeg acc w) _

theorem Timers.inputSegs (h : Timers kcp) (segs : List (WireSeg α)) :
    Timers (inputSegs kcp segs).1 := by
  unfold FlexProxy.inputSegs
  split
  · exact h
  · exact h.inputLoop _ _ _

theorem probeWait_bounds (h : Timers kcp) : kcp.probeWait ≤ IKCP_PROBE_LIMIT := by
  rcases h.wait with hw | ⟨-, hw⟩
  · rw [hw]
    exact UInt32.zero_le
  · exact hw

/-- The wait between two probes starts at 7 s, and grows to two minutes. -/
theorem Timers.probeWindow (h : Timers kcp) :
    (probeWindow kcp).probeWait = 0 ∨
      IKCP_PROBE_INIT ≤ (FlexProxy.probeWindow kcp).probeWait ∧
        (FlexProxy.probeWindow kcp).probeWait ≤ IKCP_PROBE_LIMIT := by
  have hnext : ∀ wait : UInt32, wait ≤ IKCP_PROBE_LIMIT → IKCP_PROBE_INIT ≤ nextProbeWait wait := by
    intro wait hle
    have hlimit : wait.toNat ≤ 120000 := UInt32.le_iff_toNat_le.mp hle
    have hsum : ∀ w : UInt32, w.toNat ≤ 120000 → w ≤ w + w / 2 := by
      intro w hw
      have hmod : (w.toNat + w.toNat / 2) % 2 ^ 32 = w.toNat + w.toNat / 2 :=
        Nat.mod_eq_of_lt (by omega)
      refine UInt32.le_iff_toNat_le.mpr ?_
      rw [UInt32.toNat_add, UInt32.toNat_div]
      show w.toNat ≤ (w.toNat + w.toNat / 2) % 2 ^ 32
      omega
    unfold nextProbeWait
    dsimp only
    split
    · split <;> decide
    · rename_i hge
      split
      · decide
      · exact UInt32.le_trans (UInt32.not_lt.mp hge) (hsum wait hlimit)
  unfold FlexProxy.probeWindow
  split_ifs
  · exact Or.inr ⟨UInt32.le_refl _, (by decide : IKCP_PROBE_INIT ≤ IKCP_PROBE_LIMIT)⟩
  · exact Or.inr ⟨hnext _ (probeWait_bounds h), (nextProbeWait_bounds (probeWait_bounds h)).2⟩
  · exact h.wait
  · exact Or.inl rfl

theorem Timers.flush {B : Type} (h : Timers kcp) (sink : Sink α B) (b : B) :
    Timers (ikcpFlush sink kcp b).1 := by
  by_cases hu : kcp.updated = 0
  · have hf : ikcpFlush sink kcp b = (kcp, b) := if_pos hu
    rw [hf]
    exact h
  · have hcleared : Timers { kcp with acklist := [] } := ⟨h.minrto, h.rto, h.srtt, h.wait, h.probe⟩
    obtain ⟨_, _, _, _, _, _, _, _, _, _, _, hflush⟩ := ikcpFlush_writes sink kcp b hu
    rw [hflush]
    exact ⟨h.minrto, h.rto, h.srtt, hcleared.probeWindow, Or.inl rfl⟩

theorem Timers.update (h : Timers kcp) (current : UInt32) :
    Timers (ikcpUpdate listSink kcp [] current).1 := by
  have hclock : Timers (updateClock kcp current).1 := by
    obtain ⟨updated, tsFlush, -, hw⟩ := updateClock_writes kcp current
    rw [hw]
    exact ⟨h.minrto, h.rto, h.srtt, h.wait, h.probe⟩
  unfold ikcpUpdate
  dsimp only
  split
  · exact hclock.flush listSink []
  · exact hclock

theorem Timers.fastRecover (h : Timers kcp) (recover : Bool) : Timers (fastRecover recover kcp) := by
  unfold FlexProxy.fastRecover
  split
  · refine ⟨h.minrto, h.rto, h.srtt, h.wait, Or.inr ?_⟩
    show kcp.probe ||| IKCP_ASK_TELL = _
    rcases h.probe with hp | hp
    · rw [hp]
      rfl
    · rw [hp]
      rfl
  · exact h

theorem Timers.recv (h : Timers kcp) {len : Int} (hl : 0 ≤ len) : Timers (ikcpRecv kcp len).1 := by
  rcases ikcpRecv_cases kcp hl with ⟨n, -, he⟩ | he
  · rw [he]
    exact h
  · obtain ⟨buf, nbuf, queue, nque, nxt, hmove⟩ :=
      moveAvailable_writes (dropMessage kcp).rcvBuf (dropMessage kcp)
    rw [he]
    refine Timers.fastRecover ?_ _
    rw [hmove]
    exact ⟨h.minrto, h.rto, h.srtt, h.wait, h.probe⟩

end Timers

/-! ## Counters -/

/-- `nrcv_buf` counts `rcv_buf`. -/
def RcvBufCounted (kcp : Ikcpcb α) : Prop := kcp.nrcvBuf = UInt32.ofNat kcp.rcvBuf.length

section RcvBuf
variable {kcp : Ikcpcb α}

theorem RcvBufCounted.moveAvailable (l : List (IkcpSeg α)) (kcp : Ikcpcb α) (hl : kcp.rcvBuf = l)
    (h : RcvBufCounted kcp) : RcvBufCounted (moveAvailable l kcp) := by
  induction l generalizing kcp with
  | nil => exact h
  | cons seg rest ih =>
    unfold FlexProxy.moveAvailable
    split
    · refine ih _ rfl ?_
      have hcount : kcp.nrcvBuf = UInt32.ofNat kcp.rcvBuf.length := h
      rw [hl, List.length_cons, SerialNumber.ofNat_succ] at hcount
      show kcp.nrcvBuf - 1 = UInt32.ofNat rest.length
      grind
    · exact h

theorem length_insertSeg {newseg : IkcpSeg α} {l l' : List (IkcpSeg α)}
    (h : insertSeg newseg l = some l') : l'.length = l.length + 1 := by
  induction l generalizing l' with
  | nil =>
    cases h
    rfl
  | cons seg prev ih =>
    unfold insertSeg at h
    split_ifs at h
    · cases h
      rfl
    · obtain ⟨m, hm, rfl⟩ := Option.map_eq_some_iff.mp h
      rw [List.length_cons, ih hm, List.length_cons]

theorem RcvBufCounted.storeSeg (h : RcvBufCounted kcp) (newseg : IkcpSeg α) :
    RcvBufCounted (storeSeg kcp newseg) := by
  unfold FlexProxy.storeSeg
  split
  · rename_i rev hrev
    have hlen := length_insertSeg hrev
    rw [List.length_reverse] at hlen
    show kcp.nrcvBuf + 1 = UInt32.ofNat rev.reverse.length
    rw [List.length_reverse, hlen, SerialNumber.ofNat_succ, show kcp.nrcvBuf = _ from h]
  · exact h

theorem RcvBufCounted.inputPush (h : RcvBufCounted kcp) (w : WireSeg α) :
    RcvBufCounted (inputPush kcp w) := by
  have hparse : ∀ (k : Ikcpcb α) (newseg : IkcpSeg α), RcvBufCounted k →
      RcvBufCounted (ikcpParseData k newseg) := by
    intro k newseg hk
    unfold ikcpParseData
    split
    · exact hk
    · exact RcvBufCounted.moveAvailable _ _ rfl (hk.storeSeg newseg)
  unfold FlexProxy.inputPush
  dsimp only
  split_ifs
  · exact hparse _ _ h
  · exact h
  · exact h

theorem RcvBufCounted.inputSeg (h : RcvBufCounted kcp) (acc : InputAcc) (w : WireSeg α) :
    RcvBufCounted (inputSeg kcp acc w).1 := by
  have huna : RcvBufCounted (inputUna kcp w) := by
    obtain ⟨buf, nbuf, una, hw⟩ := inputUna_writes kcp w
    rw [hw]
    exact h
  unfold FlexProxy.inputSeg
  dsimp only
  split_ifs
  · obtain ⟨rttval, srtt, rto, buf, nbuf, una, hack⟩ := inputAck_writes (inputUna kcp w) w
    rw [hack]
    exact huna
  · exact huna.inputPush w
  · exact huna
  · exact huna

theorem RcvBufCounted.inputLoop (h : RcvBufCounted kcp) (prevUna : UInt32)
    (segs : List (WireSeg α)) (acc : InputAcc) :
    RcvBufCounted (inputLoop prevUna segs kcp acc).1 := by
  induction segs generalizing kcp acc with
  | nil =>
    obtain ⟨buf, cwnd, incr, -, hend⟩ := inputEnd_writes kcp prevUna acc
    unfold FlexProxy.inputLoop
    rw [hend]
    exact h
  | cons w rest ih =>
    unfold FlexProxy.inputLoop
    split_ifs
    · exact h
    · exact h
    · exact ih (h.inputSeg acc w) _

theorem RcvBufCounted.inputSegs (h : RcvBufCounted kcp) (segs : List (WireSeg α)) :
    RcvBufCounted (inputSegs kcp segs).1 := by
  unfold FlexProxy.inputSegs
  split
  · exact h
  · exact h.inputLoop _ _ _

theorem RcvBufCounted.recv (h : RcvBufCounted kcp) {len : Int} (hl : 0 ≤ len) :
    RcvBufCounted (ikcpRecv kcp len).1 := by
  rcases ikcpRecv_cases kcp hl with ⟨n, -, he⟩ | he
  · rw [he]
    exact h
  · obtain ⟨probe, hfast⟩ := fastRecover_writes (decide (kcp.nrcvQue ≥ kcp.rcvWnd))
      (FlexProxy.moveAvailable (dropMessage kcp).rcvBuf (dropMessage kcp))
    have hdrop : RcvBufCounted (dropMessage kcp) := h
    rw [he, hfast]
    exact hdrop.moveAvailable _ _ rfl

theorem RcvBufCounted.update (h : RcvBufCounted kcp) (current : UInt32) :
    RcvBufCounted (ikcpUpdate listSink kcp [] current).1 := by
  obtain ⟨updated, tsFlush, hu, hclock⟩ := updateClock_writes kcp current
  have hkept : RcvBufCounted (updateClock kcp current).1 := by
    rw [hclock]
    exact h
  unfold ikcpUpdate
  dsimp only
  split
  · obtain ⟨_, _, _, _, _, _, _, _, _, _, _, hflush⟩ := ikcpFlush_writes listSink
      (updateClock kcp current).1 [] (updated_updateClock kcp current)
    rw [hflush]
    exact hkept
  · exact hkept

end RcvBuf

/-- A receive window of segments is less than a window long. -/
theorem Ordered.length_le {kcp : Ikcpcb α} (h : Ordered kcp) : kcp.rcvBuf.length ≤ 1024 := by
  have hnodup : (kcp.rcvBuf.map (fun x => ahead kcp.rcvNxt x.sn)).Nodup :=
    List.pairwise_map.mpr (h.sorted.imp (fun hlt => Nat.ne_of_lt hlt))
  have hsub : kcp.rcvBuf.map (fun x => ahead kcp.rcvNxt x.sn) ⊆ List.range 1024 := by
    intro n hn
    obtain ⟨x, hx, rfl⟩ := List.mem_map.mp hn
    exact List.mem_range.mpr (h.inside x hx)
  have hlen := (hnodup.subperm hsub).length_le
  rwa [List.length_map, List.length_range] at hlen

/-! ## The control block -/

/-- The part of it that does not depend on what has been read. -/
structure Intact (kcp : Ikcpcb α) : Prop where
  sendWindow : SendWindow kcp.sndUna kcp.outgoing
  tidy : Tidy kcp
  timers : Timers kcp
  rcvBuf : RcvBufCounted kcp

section Intact
variable {kcp : Ikcpcb α}

theorem intact_forwarderKcp : Intact (forwarderKcp (α := α)) where
  sendWindow := sendWindow_forwarderKcp
  tidy := tidy_forwarderKcp
  timers := timers_forwarderKcp
  rcvBuf := rfl

theorem Intact.send (hc : kcp.config = forwarderConfig) (h : Intact kcp) {buffer : List α}
    (hb : buffer.length ≤ 127 * 1376) : Intact (ikcpSend kcp buffer).1 := by
  have hwindow : (ikcpSend kcp buffer).1.window = kcp.window := by
    rw [ikcpSend_eq hc hb]
    rfl
  refine ⟨?_, Tidy.of_window hwindow h.tidy, ?_, ?_⟩ <;> rw [ikcpSend_eq hc hb]
  · exact ⟨h.sendWindow.first, h.sendWindow.span, h.sendWindow.inside, h.sendWindow.sorted⟩
  · exact ⟨h.timers.minrto, h.timers.rto, h.timers.srtt, h.timers.wait, h.timers.probe⟩
  · exact h.rcvBuf

theorem Intact.inputSegs (h : Intact kcp) (segs : List (WireSeg α)) :
    Intact (inputSegs kcp segs).1 where
  sendWindow := h.sendWindow.inputSegs segs
  tidy := h.tidy.inputSegs segs
  timers := h.timers.inputSegs segs
  rcvBuf := h.rcvBuf.inputSegs segs

theorem Intact.recv (h : Intact kcp) {len : Int} (hl : 0 ≤ len) : Intact (ikcpRecv kcp len).1 where
  sendWindow := by
    obtain ⟨buf, nbuf, queue, nque, nxt, probe, hw⟩ := ikcpRecv_writes kcp hl
    rw [hw]
    exact h.sendWindow
  tidy := h.tidy.recv hl
  timers := h.timers.recv hl
  rcvBuf := h.rcvBuf.recv hl

theorem Intact.update (hc : kcp.config = forwarderConfig) (h : Intact kcp) (current : UInt32) :
    Intact (ikcpUpdate listSink kcp [] current).1 where
  sendWindow := SendWindow.update (congrArg Config.sndWnd hc) h.sendWindow current
  tidy := h.tidy.update current
  timers := h.timers.update current
  rcvBuf := h.rcvBuf.update current

end Intact

section Steps
variable {D B : Type} {T : Transport α D B} {Carries : D → List (WireSeg α) → Prop}
  {p p' : DataPath α D B} {retries : Prop} {arrives : D → Prop}

/-- **One step of the data path**, whatever datagram it is fed. -/
theorem intact_step (hT : Lawful T Carries) (hc : p.kcp.config = forwarderConfig)
    (h : Intact p.kcp) (hs : DataPath.Step T retries arrives p p') : Intact p'.kcp := by
  cases hs with
  | tcpToKcp chunk hl => exact h.send hc (Nat.le_trans hl (by decide))
  | feed d hd =>
    obtain ⟨segs, hfeed⟩ := hT.feeds p.kcp d
    have hkcp : (p.feed T d).kcp = (inputSegs p.kcp segs).1 := hfeed
    rw [hkcp]
    exact h.inputSegs segs
  | update current isOpen =>
    have hkcp : (p.update T current isOpen).kcp = (ikcpUpdate listSink p.kcp [] current).1 :=
      hT.update p.kcp p.buffer current
    rw [hkcp]
    exact h.update hc current
  | recv hp => exact h.recv DataPath.recvBufferSize_nonneg
  | transfer n => exact h
  | rewrite hr => exact h

theorem intact_steps (hT : Lawful T Carries) (hp : Sender p) (h : Intact p.kcp)
    (hs : DataPath.Steps T retries arrives p p') : Sender p' ∧ Intact p'.kcp := by
  induction hs with
  | refl => exact ⟨hp, h⟩
  | tail _ hs ih => exact ⟨sender_step hT ih.1 hs, intact_step hT ih.1.config ih.2 hs⟩

end Steps

namespace Forwarder
variable {D B : Type} {T : Transport α D B} {Carries : D → List (WireSeg α) → Prop} {role : Role}
  {f : Forwarder α D B}

end Forwarder

end FlexProxy
