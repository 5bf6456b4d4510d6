import Mathlib.Data.List.Basic
import FlexProxy.Kcp

/-! # `ikcp_send` and `ikcp_recv`

The two calls of the forwarders' TCP side.  `ikcp_send` cuts a chunk into
fragments at most `mss` long and queues them; `ikcp_recv` takes the message at
the head of `rcv_queue`, if all its fragments are there, and then moves segments
that have become contiguous from `rcv_buf` to `rcv_queue`.
-/
namespace FlexProxy
variable {α : Type}

/-- The data of a list of segments, in order. -/
def segData (segs : List (IkcpSeg α)) : List α := segs.flatMap IkcpSeg.data

@[simp] theorem segData_nil : segData ([] : List (IkcpSeg α)) = [] := rfl

@[simp] theorem segData_cons (seg : IkcpSeg α) (segs : List (IkcpSeg α)) :
    segData (seg :: segs) = seg.data ++ segData segs := rfl

@[simp] theorem segData_append (s t : List (IkcpSeg α)) :
    segData (s ++ t) = segData s ++ segData t := List.flatMap_append

/-! ## `ikcp_send` -/

/-- Streaming mode of `ikcp_send`: the last queued segment is filled up first.
Returns what is left of the buffer. -/
def appendToLast (kcp : Ikcpcb α) (buffer : List α) : Ikcpcb α × List α :=
  match kcp.sndQueue.getLast? with
  | none => (kcp, buffer)
  | some old =>
    if old.len < kcp.mss.toNat then
      let capacity := kcp.mss.toNat - old.len
      let extend := if buffer.length < capacity then buffer.length else capacity
      ({ kcp with
          sndQueue := kcp.sndQueue.dropLast ++ [{ data := old.data ++ buffer.take extend }] },
        buffer.drop extend)
    else (kcp, buffer)

/-- The loop of `ikcp_send` that makes `count` segments.  `frg` counts down to
zero, except in streaming mode. -/
def fragment (mss : Nat) (stream : Int32) : Nat → List α → List (IkcpSeg α)
  | 0, _ => []
  | count + 1, buffer =>
    { frg := if stream = 0 then UInt32.ofNat count else 0, data := buffer.take mss } ::
      fragment mss stream count (buffer.drop mss)

/-- The number of segments `ikcp_send` makes for `len` bytes. -/
def fragmentCount (mss len : Nat) : Nat :=
  if len ≤ mss then 1 else (len + mss - 1) / mss

/-- `ikcp_send`, with its return value. -/
def ikcpSend (kcp : Ikcpcb α) (buffer : List α) : Ikcpcb α × Int :=
  let (kcp, buffer) := if kcp.stream ≠ 0 then appendToLast kcp buffer else (kcp, buffer)
  if kcp.stream ≠ 0 ∧ buffer.length = 0 then (kcp, 0)
  else
    let count := fragmentCount kcp.mss.toNat buffer.length
    if count ≥ IKCP_WND_RCV.toNat then (kcp, -2)
    else
      let count := if count = 0 then 1 else count
      ({ kcp with
          sndQueue := kcp.sndQueue ++ fragment kcp.mss.toNat kcp.stream count buffer
          nsndQue := kcp.nsndQue + UInt32.ofNat count }, 0)

/-- `ikcp_waitsnd` -/
def ikcpWaitsnd (kcp : Ikcpcb α) : Int32 := (kcp.nsndBuf + kcp.nsndQue).toInt32

@[simp] theorem length_fragment (mss : Nat) (stream : Int32) (count : Nat) (buffer : List α) :
    (fragment mss stream count buffer).length = count := by
  induction count generalizing buffer with
  | zero => rfl
  | succ count ih => simp [fragment, ih]

/-- The fragments carry the first `count * mss` bytes, in order. -/
theorem segData_fragment (mss : Nat) (stream : Int32) (count : Nat) (buffer : List α) :
    segData (fragment mss stream count buffer) = buffer.take (count * mss) := by
  induction count generalizing buffer with
  | zero => simp [fragment]
  | succ count ih =>
    rw [fragment, segData_cons, ih, Nat.succ_mul, Nat.add_comm (count * mss), List.take_add]

theorem len_le_of_mem_fragment {mss : Nat} {stream : Int32} {count : Nat} {buffer : List α}
    {seg : IkcpSeg α} (h : seg ∈ fragment mss stream count buffer) : seg.len ≤ mss := by
  induction count generalizing buffer with
  | zero => cases h
  | succ count ih =>
    rcases List.mem_cons.mp h with rfl | h
    · exact List.length_take_le _ _
    · exact ih h

/-- `frg` counts down from less than the number of segments. -/
theorem frg_lt_of_mem_fragment {mss : Nat} {stream : Int32} {count : Nat} (hc : count ≤ 127)
    {buffer : List α} {seg : IkcpSeg α} (h : seg ∈ fragment mss stream count buffer) :
    seg.frg.toNat < 128 := by
  induction count generalizing buffer with
  | zero => cases h
  | succ count ih =>
    rcases List.mem_cons.mp h with rfl | h
    · show (if stream = 0 then UInt32.ofNat count else 0).toNat < 128
      split
      · rw [UInt32.toNat_ofNat_of_lt' (by simp only [UInt32.size]; omega)]
        omega
      · decide
    · exact ih (by omega) h

theorem le_fragmentCount_mul {mss : Nat} (hm : 0 < mss) (len : Nat) :
    len ≤ fragmentCount mss len * mss := by
  unfold fragmentCount
  split
  · omega
  · have h1 := Nat.div_add_mod (len + mss - 1) mss
    have h2 := Nat.mod_lt (len + mss - 1) hm
    rw [Nat.mul_comm] at h1
    omega

theorem fragmentCount_pos (mss : Nat) (hm : 0 < mss) (len : Nat) : 0 < fragmentCount mss len := by
  unfold fragmentCount
  split
  · exact Nat.one_pos
  · exact Nat.div_pos (by omega) hm

theorem fragmentCount_le (mss : Nat) {len n : Nat} (hm : 0 < mss) (hn : 0 < n) (h : len ≤ n * mss) :
    fragmentCount mss len ≤ n := by
  unfold fragmentCount
  split
  · exact hn
  · have h1 : len + mss - 1 < (n + 1) * mss := by rw [Nat.succ_mul]; omega
    exact Nat.lt_succ_iff.mp (Nat.div_lt_of_lt_mul (by rwa [Nat.mul_comm] at h1))

/-- **What `ikcp_send` does in message mode**: a chunk of fewer than 128
fragments is accepted whole, and only `snd_queue` grows. -/
theorem ikcpSend_eq {kcp : Ikcpcb α} (hc : kcp.config = forwarderConfig) {buffer : List α}
    (hb : buffer.length ≤ 127 * 1376) :
    ikcpSend kcp buffer =
      ({ kcp with
          sndQueue := kcp.sndQueue ++ fragment 1376 0 (fragmentCount 1376 buffer.length) buffer
          nsndQue := kcp.nsndQue + UInt32.ofNat (fragmentCount 1376 buffer.length) }, 0) := by
  have hs : kcp.stream = 0 := congrArg Config.stream hc
  have hm : kcp.mss = 1376 := congrArg Config.mss hc
  have hpos := fragmentCount_pos 1376 (by omega) buffer.length
  have hle := fragmentCount_le 1376 (by omega) (by omega) hb
  have hlt : ¬ fragmentCount 1376 buffer.length ≥ 128 := by omega
  have hne : fragmentCount 1376 buffer.length ≠ 0 := by omega
  simp only [ikcpSend, hs, hm, ne_eq, not_true_eq_false, if_false, false_and, UInt32.reduceToNat,
    IKCP_WND_RCV, hlt, hne]

/-- The fragments of a chunk carry exactly the chunk. -/
theorem segData_fragments (buffer : List α) :
    segData (fragment 1376 0 (fragmentCount 1376 buffer.length) buffer) = buffer := by
  rw [segData_fragment]
  exact List.take_of_length_le (le_fragmentCount_mul (by omega) _)

/-! ## `ikcp_recv` -/

/-- The loop of `ikcp_peeksize` and `ikcp_recv` over `rcv_queue`: the segments up
to the first with `frg = 0`, and the segments after it. -/
def takeMessage : List (IkcpSeg α) → List (IkcpSeg α) × List (IkcpSeg α)
  | [] => ([], [])
  | seg :: rest =>
    if seg.frg = 0 then ([seg], rest)
    else (seg :: (takeMessage rest).1, (takeMessage rest).2)

theorem takeMessage_append (queue : List (IkcpSeg α)) :
    (takeMessage queue).1 ++ (takeMessage queue).2 = queue := by
  induction queue with
  | nil => rfl
  | cons seg rest ih =>
    unfold takeMessage
    split
    · rfl
    · exact congrArg (seg :: ·) ih

/-- `ikcp_peeksize` -/
def ikcpPeeksize (kcp : Ikcpcb α) : Int :=
  match kcp.rcvQueue with
  | [] => -1
  | seg :: _ =>
    if seg.frg = 0 then seg.len
    else if kcp.nrcvQue < seg.frg + 1 then -1
    else ((takeMessage kcp.rcvQueue).1.map IkcpSeg.len).sum

/-- The loop "move available data from rcv_buf -> rcv_queue", over `rcv_buf`. -/
def moveAvailable : List (IkcpSeg α) → Ikcpcb α → Ikcpcb α
  | [], kcp => kcp
  | seg :: rest, kcp =>
    if seg.sn = kcp.rcvNxt ∧ kcp.nrcvQue < kcp.rcvWnd then
      moveAvailable rest
        { kcp with
          rcvBuf := rest
          nrcvBuf := kcp.nrcvBuf - 1
          rcvQueue := kcp.rcvQueue ++ [seg]
          nrcvQue := kcp.nrcvQue + 1
          rcvNxt := kcp.rcvNxt + 1 }
    else kcp

/-- Taking the message at the head off `rcv_queue`. -/
def dropMessage (kcp : Ikcpcb α) : Ikcpcb α :=
  { kcp with
    rcvQueue := (takeMessage kcp.rcvQueue).2
    nrcvQue := kcp.nrcvQue - UInt32.ofNat (takeMessage kcp.rcvQueue).1.length }

/-- "fast recover": tell the remote end that the window is open again. -/
def fastRecover (recover : Bool) (kcp : Ikcpcb α) : Ikcpcb α :=
  if kcp.nrcvQue < kcp.rcvWnd ∧ recover then { kcp with probe := kcp.probe ||| IKCP_ASK_TELL }
  else kcp

/-- `ikcp_recv` into a buffer of `len` bytes: the control block, the return value
and the bytes copied out.  A negative `len` peeks. -/
def ikcpRecv (kcp : Ikcpcb α) (len : Int) : Ikcpcb α × Int × List α :=
  if kcp.rcvQueue.isEmpty then (kcp, -1, [])
  else if ikcpPeeksize kcp < 0 then (kcp, -2, [])
  else if ikcpPeeksize kcp > (if len < 0 then -len else len) then (kcp, -3, [])
  else
    let recover := decide (kcp.nrcvQue ≥ kcp.rcvWnd)
    let buffer := segData (takeMessage kcp.rcvQueue).1
    let kcp := if len < 0 then kcp else dropMessage kcp
    (fastRecover recover (moveAvailable kcp.rcvBuf kcp), (buffer.length : Int), buffer)

/-- **What `ikcp_recv` does**: nothing, with a negative return value and no
bytes; or it hands out the message at the head and moves what became
contiguous. -/
theorem ikcpRecv_cases (kcp : Ikcpcb α) {len : Int} (hl : 0 ≤ len) :
    (∃ n, n < 0 ∧ ikcpRecv kcp len = (kcp, n, [])) ∨
    ikcpRecv kcp len =
      (fastRecover (decide (kcp.nrcvQue ≥ kcp.rcvWnd))
        (moveAvailable (dropMessage kcp).rcvBuf (dropMessage kcp)),
        ((segData (takeMessage kcp.rcvQueue).1).length : Int),
        segData (takeMessage kcp.rcvQueue).1) := by
  have hneg : ¬ len < 0 := by omega
  unfold ikcpRecv
  simp only [hneg, if_false]
  split_ifs
  · exact Or.inl ⟨-1, by omega, rfl⟩
  · exact Or.inl ⟨-2, by omega, rfl⟩
  · exact Or.inl ⟨-3, by omega, rfl⟩
  · exact Or.inr rfl

/-- Moving segments writes the receiving side, not what is to be acknowledged. -/
theorem moveAvailable_writes (l : List (IkcpSeg α)) (kcp : Ikcpcb α) :
    ∃ buf nbuf queue nque nxt, moveAvailable l kcp =
      { kcp with
        rcvBuf := buf, nrcvBuf := nbuf, rcvQueue := queue, nrcvQue := nque, rcvNxt := nxt } := by
  induction l generalizing kcp with
  | nil => exact ⟨kcp.rcvBuf, kcp.nrcvBuf, kcp.rcvQueue, kcp.nrcvQue, kcp.rcvNxt, rfl⟩
  | cons seg rest ih =>
    by_cases h : seg.sn = kcp.rcvNxt ∧ kcp.nrcvQue < kcp.rcvWnd
    · rw [moveAvailable, if_pos h]
      obtain ⟨buf, nbuf, queue, nque, nxt, hrest⟩ := ih _
      exact ⟨buf, nbuf, queue, nque, nxt, hrest⟩
    · rw [moveAvailable, if_neg h]
      exact ⟨kcp.rcvBuf, kcp.nrcvBuf, kcp.rcvQueue, kcp.nrcvQue, kcp.rcvNxt, rfl⟩

theorem fastRecover_writes (recover : Bool) (kcp : Ikcpcb α) :
    ∃ probe, fastRecover recover kcp = { kcp with probe := probe } := by
  by_cases h : kcp.nrcvQue < kcp.rcvWnd ∧ recover
  · exact ⟨kcp.probe ||| IKCP_ASK_TELL, if_pos h⟩
  · exact ⟨kcp.probe, if_neg h⟩

/-- **`ikcp_recv` writes the receiving side and `probe`.** -/
theorem ikcpRecv_writes (kcp : Ikcpcb α) {len : Int} (hl : 0 ≤ len) :
    ∃ buf nbuf queue nque nxt probe, (ikcpRecv kcp len).1 =
      { kcp with
        rcvBuf := buf, nrcvBuf := nbuf, rcvQueue := queue, nrcvQue := nque, rcvNxt := nxt
        probe := probe } := by
  rcases ikcpRecv_cases kcp hl with ⟨n, -, h⟩ | h
  · rw [h]
    exact ⟨kcp.rcvBuf, kcp.nrcvBuf, kcp.rcvQueue, kcp.nrcvQue, kcp.rcvNxt, kcp.probe, rfl⟩
  · obtain ⟨buf, nbuf, queue, nque, nxt, hmove⟩ :=
      moveAvailable_writes (dropMessage kcp).rcvBuf (dropMessage kcp)
    obtain ⟨probe, hfast⟩ := fastRecover_writes (decide (kcp.nrcvQue ≥ kcp.rcvWnd))
      (moveAvailable (dropMessage kcp).rcvBuf (dropMessage kcp))
    rw [h, hfast, hmove]
    exact ⟨buf, nbuf, queue, nque, nxt, probe, rfl⟩

@[simp] theorem incoming_fastRecover (recover : Bool) (kcp : Ikcpcb α) :
    (fastRecover recover kcp).incoming = kcp.incoming := by
  obtain ⟨probe, h⟩ := fastRecover_writes recover kcp
  rw [h]
  rfl

theorem config_ikcpRecv (kcp : Ikcpcb α) {len : Int} (hl : 0 ≤ len) :
    (ikcpRecv kcp len).1.config = kcp.config := by
  obtain ⟨buf, nbuf, queue, nque, nxt, probe, h⟩ := ikcpRecv_writes kcp hl
  rw [h]
  rfl

theorem outgoing_ikcpRecv (kcp : Ikcpcb α) {len : Int} (hl : 0 ≤ len) :
    (ikcpRecv kcp len).1.outgoing = kcp.outgoing := by
  obtain ⟨buf, nbuf, queue, nque, nxt, probe, h⟩ := ikcpRecv_writes kcp hl
  rw [h]
  rfl

/-- The bytes copied out are as many as the return value says. -/
theorem length_ikcpRecv (kcp : Ikcpcb α) {len : Int} (hl : 0 ≤ len) :
    ((ikcpRecv kcp len).2.2.length : Int) = max 0 (ikcpRecv kcp len).2.1 := by
  rcases ikcpRecv_cases kcp hl with ⟨n, hn, h⟩ | h
  · rw [h]
    exact (max_eq_left (Int.le_of_lt hn)).symm
  · rw [h]
    exact (max_eq_right (Int.natCast_nonneg _)).symm

end FlexProxy
