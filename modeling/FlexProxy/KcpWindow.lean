import FlexProxy.KcpStream

/-! # The receive window

Segments received ahead of a gap wait in `rcv_buf`, in the order of their numbers and less
than a window ahead of `rcv_nxt`; when the gap closes they move to `rcv_queue`.  The
numbers are words, so their order is that of the distances from `rcv_nxt` (`ahead`).

`Tidy` is what every operation keeps up (`Tidy.inputSegs`, `Tidy.recv`, `Tidy.update`).
Its last part is the one the readers of `rcv_queue` rely on: a segment that could have
moved has moved, unless `rcv_queue` is full.
-/
namespace FlexProxy
variable {α : Type}

/-- How far the word `sn` is ahead of the word `nxt`. -/
def ahead (nxt sn : UInt32) : Nat := (sn - nxt).toNat

theorem ahead_lt (nxt sn : UInt32) : ahead nxt sn < 2 ^ 32 := (sn - nxt).toNat_lt

theorem ofNat_ahead_add (nxt sn : UInt32) : UInt32.ofNat (ahead nxt sn) + nxt = sn := by
  rw [ahead, UInt32.ofNat_toNat]
  grind

theorem ahead_self (nxt : UInt32) : ahead nxt nxt = 0 := by
  rw [ahead, UInt32.sub_self]
  rfl

theorem eq_of_ahead_eq {nxt a b : UInt32} (h : ahead nxt a = ahead nxt b) : a = b := by
  rw [← ofNat_ahead_add nxt a, h, ofNat_ahead_add]

/-- Past `nxt` the distance is one less. -/
theorem ahead_succ {nxt sn : UInt32} (h : 0 < ahead nxt sn) :
    ahead (nxt + 1) sn = ahead nxt sn - 1 := by
  have hsub : sn - (nxt + 1) = (sn - nxt) - 1 := by grind
  have hle : (1 : UInt32) ≤ sn - nxt := UInt32.le_iff_toNat_le.mpr h
  rw [ahead, ahead, hsub, UInt32.toNat_sub_of_le _ _ hle]
  rfl

/-- Words less than `2^31` ahead compare as their distances. -/
theorem itimediff_ahead {nxt a b : UInt32} (ha : ahead nxt a < 2 ^ 31) (hb : ahead nxt b < 2 ^ 31) :
    itimediff a b = (ahead nxt a : Int) - ahead nxt b := by
  have h := SerialNumber.diff_add_right (UInt32.ofNat (ahead nxt a)) (UInt32.ofNat (ahead nxt b)) nxt
  rw [ofNat_ahead_add, ofNat_ahead_add] at h
  rw [itimediff, h]
  exact SerialNumber.diff_ofNat (by omega) (by omega)

/-- What `ikcp_parse_data` lets through is inside the window. -/
theorem ahead_of_admitted {nxt sn : UInt32} (hge : ¬ itimediff sn nxt < 0)
    (hlt : ¬ itimediff sn (nxt + 1024) ≥ 0) : ahead nxt sn < 1024 := by
  have hword := ofNat_ahead_add nxt sn
  have hbound := ahead_lt nxt sn
  have h0 : itimediff sn nxt = ((ahead nxt sn : Int)).bmod (2 ^ 32) := by
    have h := SerialNumber.diff_add_right (UInt32.ofNat (ahead nxt sn)) 0 nxt
    rw [hword, UInt32.zero_add] at h
    rw [itimediff, h]
    have h' := SerialNumber.diff_eq_bmod (ahead nxt sn) 0
    rw [Int.natCast_zero, Int.sub_zero] at h'
    exact h'
  -- from `2^31` on the difference would be read as negative
  have hsmall : ahead nxt sn < 2 ^ 31 := by
    by_contra hbig
    rw [h0, Int.bmod_def] at hge
    omega
  have h1024 : ahead nxt (nxt + 1024) = 1024 := by
    rw [ahead, show nxt + 1024 - nxt = 1024 by grind]
    rfl
  have h1 : itimediff sn (nxt + 1024) = (ahead nxt sn : Int) - ahead nxt (nxt + 1024) :=
    itimediff_ahead hsmall (by omega)
  rw [h1024] at h1
  omega

/-! ## The invariant -/

/-- The receiving side, before segments are moved: `rcv_queue` is counted and not over
full, and `rcv_buf` is in order and inside the window. -/
structure Ordered (kcp : Ikcpcb α) : Prop where
  rcvWnd : kcp.rcvWnd = 1024
  count : kcp.nrcvQue = UInt32.ofNat kcp.rcvQueue.length
  room : kcp.rcvQueue.length ≤ 1024
  inside : ∀ seg ∈ kcp.rcvBuf, ahead kcp.rcvNxt seg.sn < 1024
  sorted : kcp.rcvBuf.Pairwise (fun a b => ahead kcp.rcvNxt a.sn < ahead kcp.rcvNxt b.sn)

/-- After segments have been moved, the next one is not in `rcv_buf` unless `rcv_queue`
is full. -/
structure Tidy (kcp : Ikcpcb α) : Prop extends Ordered kcp where
  next : ∀ seg ∈ kcp.rcvBuf, seg.sn = kcp.rcvNxt → kcp.rcvQueue.length = 1024

/-- What `Tidy` looks at. -/
structure Window (α : Type) where
  rcvWnd : UInt32
  nrcvQue : UInt32
  rcvNxt : UInt32
  rcvQueue : List (IkcpSeg α)
  rcvBuf : List (IkcpSeg α)

def Ikcpcb.window (kcp : Ikcpcb α) : Window α :=
  ⟨kcp.rcvWnd, kcp.nrcvQue, kcp.rcvNxt, kcp.rcvQueue, kcp.rcvBuf⟩

theorem Tidy.of_window {kcp kcp' : Ikcpcb α} (h : kcp'.window = kcp.window) (ht : Tidy kcp) :
    Tidy kcp' := by
  simp only [Ikcpcb.window, Window.mk.injEq] at h
  obtain ⟨hwnd, hque, hnxt, hqueue, hbuf⟩ := h
  refine ⟨⟨?_, ?_, ?_, ?_, ?_⟩, ?_⟩
  · rw [hwnd, ht.rcvWnd]
  · rw [hque, hqueue, ht.count]
  · rw [hqueue]
    exact ht.room
  · rw [hbuf, hnxt]
    exact ht.inside
  · rw [hbuf, hnxt]
    exact ht.sorted
  · rw [hbuf, hnxt, hqueue]
    exact ht.next

/-- Nothing has arrived at a fresh control block. -/
theorem tidy_forwarderKcp : Tidy (forwarderKcp (α := α)) where
  rcvWnd := rfl
  count := rfl
  room := Nat.zero_le _
  inside := fun _ h => absurd h List.not_mem_nil
  sorted := List.Pairwise.nil
  next := fun _ h => absurd h List.not_mem_nil

/-! ## Moving segments -/

theorem nrcvQue_lt_iff {kcp : Ikcpcb α} (h : Ordered kcp) :
    kcp.nrcvQue < kcp.rcvWnd ↔ kcp.rcvQueue.length < 1024 := by
  have hroom := h.room
  rw [h.count, h.rcvWnd, UInt32.lt_iff_toNat_lt,
    UInt32.toNat_ofNat_of_lt' (by simp only [UInt32.size]; omega)]
  rfl

/-- The segment at `rcv_nxt` moves, and those behind it come one nearer. -/
theorem Ordered.moved {kcp : Ikcpcb α} (h : Ordered kcp) {seg : IkcpSeg α} {rest : List (IkcpSeg α)}
    (hbuf : kcp.rcvBuf = seg :: rest) (hsn : seg.sn = kcp.rcvNxt)
    (hroom : kcp.rcvQueue.length < 1024) :
    Ordered
      { kcp with
        rcvBuf := rest
        nrcvBuf := kcp.nrcvBuf - 1
        rcvQueue := kcp.rcvQueue ++ [seg]
        nrcvQue := kcp.nrcvQue + 1
        rcvNxt := kcp.rcvNxt + 1 } := by
  have hinside := h.inside
  have hsorted := h.sorted
  rw [hbuf] at hinside hsorted
  obtain ⟨hfirst, hrest⟩ := List.pairwise_cons.mp hsorted
  have hzero : ahead kcp.rcvNxt seg.sn = 0 := by rw [hsn, ahead_self]
  have hpos : ∀ x ∈ rest, 0 < ahead kcp.rcvNxt x.sn := by
    intro x hx
    have hlt := hfirst x hx
    omega
  refine ⟨h.rcvWnd, ?_, ?_, ?_, ?_⟩
  · show kcp.nrcvQue + 1 = UInt32.ofNat (kcp.rcvQueue ++ [seg]).length
    rw [List.length_append, List.length_singleton, SerialNumber.ofNat_succ, h.count]
  · show (kcp.rcvQueue ++ [seg]).length ≤ 1024
    rw [List.length_append, List.length_singleton]
    omega
  · intro x hx
    have hlt := hinside x (List.mem_cons_of_mem _ hx)
    show ahead (kcp.rcvNxt + 1) x.sn < 1024
    rw [ahead_succ (hpos x hx)]
    omega
  · refine hrest.imp_of_mem (fun {a b} ha hb hab => ?_)
    show ahead (kcp.rcvNxt + 1) a.sn < ahead (kcp.rcvNxt + 1) b.sn
    have hposa := hpos a ha
    rw [ahead_succ hposa, ahead_succ (hpos b hb)]
    omega

/-- **Moving what is contiguous leaves the receiving side tidy.** -/
theorem Ordered.moveAvailable (l : List (IkcpSeg α)) (kcp : Ikcpcb α) (hl : kcp.rcvBuf = l)
    (h : Ordered kcp) : Tidy (moveAvailable l kcp) := by
  induction l generalizing kcp with
  | nil =>
    refine ⟨h, fun seg hs => ?_⟩
    have hs' : seg ∈ kcp.rcvBuf := hs
    rw [hl] at hs'
    cases hs'
  | cons seg rest ih =>
    unfold FlexProxy.moveAvailable
    split
    · rename_i hmove
      exact ih _ rfl (h.moved hl hmove.1 ((nrcvQue_lt_iff h).mp hmove.2))
    · rename_i hstay
      refine ⟨h, fun x hx hsn => ?_⟩
      -- the segment at `rcv_nxt` is the first one, so it is `rcv_queue` that is full
      have hsorted := h.sorted
      rw [hl] at hx hsorted
      have hhead : seg.sn = kcp.rcvNxt := by
        rcases List.mem_cons.mp hx with rfl | hx
        · exact hsn
        · have hlt := (List.pairwise_cons.mp hsorted).1 x hx
          rw [hsn, ahead_self] at hlt
          omega
      have hfull : ¬ kcp.rcvQueue.length < 1024 :=
        fun hlt => hstay ⟨hhead, (nrcvQue_lt_iff h).mpr hlt⟩
      have hroom := h.room
      omega

/-! ## Storing a segment -/

/-- The scan from the tail finds the place of the new segment. -/
theorem sorted_insertSeg {nxt : UInt32} {newseg : IkcpSeg α} (hnew : ahead nxt newseg.sn < 1024)
    {l l' : List (IkcpSeg α)} (h : insertSeg newseg l = some l')
    (hin : ∀ seg ∈ l, ahead nxt seg.sn < 1024)
    (hs : l.Pairwise (fun a b => ahead nxt b.sn < ahead nxt a.sn)) :
    l'.Pairwise (fun a b => ahead nxt b.sn < ahead nxt a.sn) := by
  induction l generalizing l' with
  | nil =>
    cases h
    exact List.pairwise_singleton _ _
  | cons seg prev ih =>
    obtain ⟨hfirst, hprev⟩ := List.pairwise_cons.mp hs
    have hseg := hin seg (List.mem_cons_self ..)
    have hdiff : itimediff newseg.sn seg.sn = (ahead nxt newseg.sn : Int) - ahead nxt seg.sn :=
      itimediff_ahead (by omega) (by omega)
    unfold insertSeg at h
    by_cases heq : seg.sn = newseg.sn
    · rw [if_pos heq] at h
      cases h
    · by_cases hafter : itimediff newseg.sn seg.sn > 0
      · -- the scan stops at the first segment, and the others are further behind
        rw [if_neg heq, if_pos hafter] at h
        cases h
        refine List.pairwise_cons.mpr ⟨?_, hs⟩
        intro x hx
        rcases List.mem_cons.mp hx with rfl | hx
        · omega
        · have hlt := hfirst x hx
          omega
      · rw [if_neg heq, if_neg hafter] at h
        obtain ⟨m, hm, rfl⟩ := Option.map_eq_some_iff.mp h
        refine List.pairwise_cons.mpr
          ⟨?_, ih hm (fun x hx => hin x (List.mem_cons_of_mem _ hx)) hprev⟩
        intro x hx
        rcases (mem_insertSeg hm x).mp hx with rfl | hx
        · have hne : ahead nxt seg.sn ≠ ahead nxt x.sn := fun he => heq (eq_of_ahead_eq he)
          omega
        · exact hfirst x hx

theorem Ordered.storeSeg {kcp : Ikcpcb α} (h : Ordered kcp) {newseg : IkcpSeg α}
    (hnew : ahead kcp.rcvNxt newseg.sn < 1024) : Ordered (storeSeg kcp newseg) := by
  unfold FlexProxy.storeSeg
  split
  · rename_i rev hrev
    have hsorted : rev.Pairwise (fun a b => ahead kcp.rcvNxt b.sn < ahead kcp.rcvNxt a.sn) :=
      sorted_insertSeg hnew hrev (fun seg hs => h.inside seg (List.mem_reverse.mp hs))
        (List.pairwise_reverse.mpr h.sorted)
    refine ⟨h.rcvWnd, h.count, h.room, ?_, List.pairwise_reverse.mpr hsorted⟩
    intro seg hs
    rcases (mem_insertSeg hrev seg).mp (List.mem_reverse.mp hs) with rfl | hold
    · exact hnew
    · exact h.inside seg (List.mem_reverse.mp hold)
  · exact h

theorem Tidy.ikcpParseData {kcp : Ikcpcb α} (h : Tidy kcp) (newseg : IkcpSeg α) :
    Tidy (ikcpParseData kcp newseg) := by
  unfold FlexProxy.ikcpParseData
  split
  · exact h
  · rename_i hin
    rw [h.rcvWnd] at hin
    have hnew := ahead_of_admitted (fun hlt => hin (Or.inr hlt)) (fun hge => hin (Or.inl hge))
    exact (h.toOrdered.storeSeg hnew).moveAvailable _ _ rfl

/-! ## The operations -/

section Frame
variable (kcp : Ikcpcb α)

@[simp] theorem window_inputUna (w : WireSeg α) : (inputUna kcp w).window = kcp.window := by
  obtain ⟨buf, nbuf, una, h⟩ := inputUna_writes kcp w
  rw [h]
  rfl

@[simp] theorem window_inputAck (w : WireSeg α) : (inputAck kcp w).window = kcp.window := by
  obtain ⟨rttval, srtt, rto, buf, nbuf, una, h⟩ := inputAck_writes kcp w
  rw [h]
  rfl

@[simp] theorem window_inputEnd (prevUna : UInt32) (acc : InputAcc) :
    (inputEnd prevUna kcp acc).window = kcp.window := by
  obtain ⟨buf, cwnd, incr, -, h⟩ := inputEnd_writes kcp prevUna acc
  rw [h]
  rfl

@[simp] theorem window_fastRecover (recover : Bool) :
    (fastRecover recover kcp).window = kcp.window := by
  obtain ⟨probe, h⟩ := fastRecover_writes recover kcp
  rw [h]
  rfl

/-- A flush reads the receiving side. -/
@[simp] theorem window_ikcpFlush : (ikcpFlush listSink kcp []).1.window = kcp.window := by
  by_cases hu : kcp.updated = 0
  · have h : ikcpFlush listSink kcp [] = (kcp, []) := if_pos hu
    rw [h]
  · obtain ⟨_, _, _, _, _, _, _, _, _, _, _, h⟩ := ikcpFlush_writes listSink kcp [] hu
    rw [h]
    rfl

@[simp] theorem window_ikcpUpdate (current : UInt32) :
    (ikcpUpdate listSink kcp [] current).1.window = kcp.window := by
  have hclock : (updateClock kcp current).1.window = kcp.window := by
    obtain ⟨updated, tsFlush, -, h⟩ := updateClock_writes kcp current
    rw [h]
    rfl
  unfold ikcpUpdate
  dsimp only
  split
  · rw [window_ikcpFlush, hclock]
  · exact hclock

end Frame

theorem Tidy.inputPush {kcp : Ikcpcb α} (h : Tidy kcp) (w : WireSeg α) : Tidy (inputPush kcp w) := by
  have hwin : (ikcpAckPush kcp w.sn w.ts).window = kcp.window := rfl
  have hack : Tidy (ikcpAckPush kcp w.sn w.ts) := Tidy.of_window hwin h
  unfold FlexProxy.inputPush
  dsimp only
  split_ifs
  · exact hack.ikcpParseData _
  · exact hack
  · exact h

theorem Tidy.inputSeg {kcp : Ikcpcb α} (h : Tidy kcp) (acc : InputAcc) (w : WireSeg α) :
    Tidy (inputSeg kcp acc w).1 := by
  have huna : Tidy (inputUna kcp w) := Tidy.of_window (window_inputUna kcp w) h
  have hprobe : ∀ (k : Ikcpcb α) (p : UInt32), ({ k with probe := p } : Ikcpcb α).window = k.window :=
    fun _ _ => rfl
  unfold FlexProxy.inputSeg
  dsimp only
  split_ifs
  · exact Tidy.of_window (window_inputAck _ w) huna
  · exact huna.inputPush w
  · exact Tidy.of_window (hprobe _ _) huna
  · exact huna

theorem Tidy.inputLoop {kcp : Ikcpcb α} (h : Tidy kcp) (prevUna : UInt32)
    (segs : List (WireSeg α)) (acc : InputAcc) : Tidy (inputLoop prevUna segs kcp acc).1 := by
  induction segs generalizing kcp acc with
  | nil => exact Tidy.of_window (window_inputEnd kcp prevUna acc) h
  | cons w rest ih =>
    unfold FlexProxy.inputLoop
    split_ifs
    · exact h
    · exact h
    · exact ih (h.inputSeg acc w) _

/-- **Whatever arrives, the receiving side stays tidy.** -/
theorem Tidy.inputSegs {kcp : Ikcpcb α} (h : Tidy kcp) (segs : List (WireSeg α)) :
    Tidy (inputSegs kcp segs).1 := by
  unfold FlexProxy.inputSegs
  split
  · exact h
  · exact h.inputLoop _ _ _

theorem Tidy.update {kcp : Ikcpcb α} (h : Tidy kcp) (current : UInt32) :
    Tidy (ikcpUpdate listSink kcp [] current).1 :=
  Tidy.of_window (window_ikcpUpdate kcp current) h

theorem Ordered.dropMessage {kcp : Ikcpcb α} (h : Ordered kcp) : Ordered (dropMessage kcp) := by
  have hsplit := congrArg List.length (takeMessage_append kcp.rcvQueue)
  rw [List.length_append] at hsplit
  have hroom := h.room
  refine ⟨h.rcvWnd, ?_, ?_, h.inside, h.sorted⟩
  · show kcp.nrcvQue - UInt32.ofNat (takeMessage kcp.rcvQueue).1.length =
      UInt32.ofNat (takeMessage kcp.rcvQueue).2.length
    rw [h.count, ← hsplit, UInt32.ofNat_add]
    grind
  · show (takeMessage kcp.rcvQueue).2.length ≤ 1024
    omega

/-- Reading a message makes room, and what is contiguous moves up. -/
theorem Tidy.recv {kcp : Ikcpcb α} (h : Tidy kcp) {len : Int} (hl : 0 ≤ len) :
    Tidy (ikcpRecv kcp len).1 := by
  rcases ikcpRecv_cases kcp hl with ⟨n, -, he⟩ | he
  · rw [he]
    exact h
  · rw [he]
    exact Tidy.of_window (window_fastRecover _ _) (h.toOrdered.dropMessage.moveAvailable _ _ rfl)

end FlexProxy
