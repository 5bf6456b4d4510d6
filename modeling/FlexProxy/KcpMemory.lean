import FlexProxy.IQueue
import FlexProxy.KcpFlush

/-! # The control block in memory

`ikcp.c` keeps its segments in cells it allocates, chained into four circular doubly linked
lists whose anchors are fields of the control block.  This module is `ikcp.c` at that level:
what it does to the cells, pointer by pointer.  `KcpQueue`, `KcpInput` and `KcpFlush` have the
same functions on lists; `KcpRefinement` relates the two.

A function returns `none` where the program would follow a null pointer, use or give back a
cell that is not allocated, or go round a list for ever.  Of the other fields of the control
block a function does what it does on lists, so those steps are shared.
-/
namespace FlexProxy
open LinkedRing

/-- The four queues of a control block. -/
inductive Queue where
  | sndQueue
  | rcvQueue
  | sndBuf
  | rcvBuf
  deriving DecidableEq

/-- `ikcp_malloc` for segments: an address that is not in use. -/
structure Allocator (M : Type) where
  malloc : Finset (Place Queue M) → M
  fresh : ∀ used, Place.node (malloc used) ∉ used

/-- A number above the address of a cell. -/
def aboveCell : Place Queue Nat → Nat
  | .head _ => 0
  | .node m => m + 1

/-- Such allocators exist: with numbers for addresses one is always free. -/
theorem nonempty_allocator : Nonempty (Allocator Nat) := by
  have hfree : ∀ used : Finset (Place Queue Nat), ∃ m, Place.node m ∉ used := by
    intro used
    obtain ⟨n, hn⟩ := (used.image aboveCell).exists_nat_subset_range
    refine ⟨n, fun hmem => ?_⟩
    have habove : n + 1 ∈ Finset.range n := hn (Finset.mem_image_of_mem aboveCell hmem)
    rw [Finset.mem_range] at habove
    omega
  exact ⟨⟨fun used => (hfree used).choose, fun used => (hfree used).choose_spec⟩⟩

/-- The cells of segments and the anchors of the queues. -/
abbrev SegHeap (M α : Type) := Heap (Place Queue M) (Option (IkcpSeg α))

/-- A control block and the segments.  The queues are in the heap; the lists of `cb` stay
empty. -/
structure KcpMemory (M α : Type) where
  cb : Ikcpcb α
  heap : SegHeap M α

namespace KcpMemory
variable {M α : Type} [DecidableEq M]

/-- `ikcp_create` -/
def ikcpCreate (conv : UInt32) : Option (KcpMemory M α) := do
  let heap : SegHeap M α :=
    ((((∅ : SegHeap M α).alloc (.head .sndQueue) none).alloc (.head .rcvQueue) none).alloc
      (.head .sndBuf) none).alloc (.head .rcvBuf) none
  let heap ← iqueueInit (.head .sndQueue) heap
  let heap ← iqueueInit (.head .rcvQueue) heap
  let heap ← iqueueInit (.head .sndBuf) heap
  let heap ← iqueueInit (.head .rcvBuf) heap
  some ⟨FlexProxy.ikcpCreate conv, heap⟩

/-! ## Segments -/

/-- `ikcp_segment_new`, and the assignments to the new segment. -/
def segmentNew (A : Allocator M) (s : KcpMemory M α) (seg : IkcpSeg α) : M × KcpMemory M α :=
  (A.malloc s.heap.keys, { s with heap := s.heap.alloc (.node (A.malloc s.heap.keys)) (some seg) })

/-- `ikcp_segment_delete` -/
def segmentDelete (s : KcpMemory M α) (p : Place Queue M) : Option (KcpMemory M α) :=
  (s.heap.free p).map (fun heap => { s with heap := heap })

/-- One of the macros on queues. -/
def link (s : KcpMemory M α)
    (op : SegHeap M α → Option (SegHeap M α)) : Option (KcpMemory M α) :=
  (op s.heap).map (fun heap => { s with heap := heap })

/-- Assigning to the segment at `p`. -/
def assign (s : KcpMemory M α) (p : Place Queue M) (seg : IkcpSeg α) : Option (KcpMemory M α) :=
  (s.heap.setVal p (some seg)).map (fun heap => { s with heap := heap })

/-- A loop that has not ended after this many turns goes round a list for ever. -/
def turns (s : KcpMemory M α) : Nat := s.heap.keys.card

/-! ## `ikcp_send` -/

/-- Streaming mode of `ikcp_send`. -/
def appendToLast (A : Allocator M) (s : KcpMemory M α) (buffer : List α) :
    Option (KcpMemory M α × List α) := do
  let empty ← iqueueIsEmpty (.head .sndQueue) s.heap
  if empty then some (s, buffer)
  else
    let p ← s.heap.prev (.head .sndQueue)
    let old ← s.heap.entry p
    if old.len < s.cb.mss.toNat then
      let capacity := s.cb.mss.toNat - old.len
      let extend := if buffer.length < capacity then buffer.length else capacity
      let new := s.segmentNew A { data := old.data ++ buffer.take extend }
      let s ← new.2.link (iqueueAddTail (.node new.1) (.head .sndQueue))
      let s ← s.link (iqueueDelInit p)
      let s ← s.segmentDelete p
      some (s, buffer.drop extend)
    else some (s, buffer)

/-- The loop of `ikcp_send` that makes `count` segments. -/
def fragment (A : Allocator M) (mss : Nat) (stream : Int32) :
    Nat → List α → KcpMemory M α → Option (KcpMemory M α)
  | 0, _, s => some s
  | count + 1, buffer, s => do
    let new := s.segmentNew A
      { frg := if stream = 0 then UInt32.ofNat count else 0, data := buffer.take mss }
    let s ← new.2.link (iqueueInit (.node new.1))
    let s ← s.link (iqueueAddTail (.node new.1) (.head .sndQueue))
    fragment A mss stream count (buffer.drop mss)
      { s with cb := { s.cb with nsndQue := s.cb.nsndQue + 1 } }

/-- `ikcp_send` -/
def ikcpSend (A : Allocator M) (s : KcpMemory M α) (buffer : List α) :
    Option (KcpMemory M α × Int) := do
  let r ← if s.cb.stream ≠ 0 then s.appendToLast A buffer else some (s, buffer)
  let s := r.1
  let buffer := r.2
  if s.cb.stream ≠ 0 ∧ buffer.length = 0 then some (s, 0)
  else
    let count := fragmentCount s.cb.mss.toNat buffer.length
    if count ≥ IKCP_WND_RCV.toNat then some (s, -2)
    else
      let count := if count = 0 then 1 else count
      let s ← fragment A s.cb.mss.toNat s.cb.stream count buffer s
      some (s, 0)

/-! ## `ikcp_recv` -/

/-- The loop of `ikcp_peeksize`. -/
def peekLoop (s : KcpMemory M α) : Nat → Place Queue M → Nat → Option Nat
  | 0, _, _ => none
  | turns + 1, p, length =>
    if p = .head .rcvQueue then some length
    else do
      let seg ← s.heap.entry p
      if seg.frg = 0 then some (length + seg.len)
      else
        let next ← s.heap.next p
        peekLoop s turns next (length + seg.len)

/-- `ikcp_peeksize` -/
def ikcpPeeksize (s : KcpMemory M α) : Option Int := do
  let empty ← iqueueIsEmpty (.head .rcvQueue) s.heap
  if empty then some (-1)
  else
    let p ← s.heap.next (.head .rcvQueue)
    let seg ← s.heap.entry p
    if seg.frg = 0 then some seg.len
    else if s.cb.nrcvQue < seg.frg + 1 then some (-1)
    else
      let length ← s.peekLoop s.turns p 0
      some length

/-- "merge fragment": the loop of `ikcp_recv` over `rcv_queue`. -/
def mergeLoop (ispeek : Bool) :
    Nat → Place Queue M → List α → KcpMemory M α → Option (KcpMemory M α × List α)
  | 0, _, _, _ => none
  | turns + 1, p, buffer, s =>
    if p = .head .rcvQueue then some (s, buffer)
    else do
      let seg ← s.heap.entry p
      let next ← s.heap.next p
      let s ←
        if ispeek then some s
        else do
          let s ← s.link (iqueueDel p)
          let s ← s.segmentDelete p
          some { s with cb := { s.cb with nrcvQue := s.cb.nrcvQue - 1 } }
      if seg.frg = 0 then some (s, buffer ++ seg.data)
      else mergeLoop ispeek turns next (buffer ++ seg.data) s

/-- "move available data from rcv_buf -> rcv_queue" -/
def moveAvailable : Nat → KcpMemory M α → Option (KcpMemory M α)
  | 0, _ => none
  | turns + 1, s => do
    let empty ← iqueueIsEmpty (.head .rcvBuf) s.heap
    if empty then some s
    else
      let p ← s.heap.next (.head .rcvBuf)
      let seg ← s.heap.entry p
      if seg.sn = s.cb.rcvNxt ∧ s.cb.nrcvQue < s.cb.rcvWnd then
        let s ← s.link (iqueueDel p)
        let s := { s with cb := { s.cb with nrcvBuf := s.cb.nrcvBuf - 1 } }
        let s ← s.link (iqueueAddTail p (.head .rcvQueue))
        moveAvailable turns
          { s with cb := { s.cb with nrcvQue := s.cb.nrcvQue + 1, rcvNxt := s.cb.rcvNxt + 1 } }
      else some s

/-- `ikcp_recv` -/
def ikcpRecv (s : KcpMemory M α) (len : Int) : Option (KcpMemory M α × Int × List α) := do
  let empty ← iqueueIsEmpty (.head .rcvQueue) s.heap
  if empty then some (s, -1, [])
  else
    let peeksize ← s.ikcpPeeksize
    if peeksize < 0 then some (s, -2, [])
    else if peeksize > (if len < 0 then -len else len) then some (s, -3, [])
    else
      let recover := decide (s.cb.nrcvQue ≥ s.cb.rcvWnd)
      let p ← s.heap.next (.head .rcvQueue)
      let r ← mergeLoop (decide (len < 0)) s.turns p [] s
      let s ← moveAvailable r.1.turns r.1
      some ({ s with cb := fastRecover recover s.cb }, (r.2.length : Int), r.2)

/-! ## `ikcp_input` -/

/-- `ikcp_shrink_buf` -/
def ikcpShrinkBuf (s : KcpMemory M α) : Option (KcpMemory M α) := do
  let p ← s.heap.next (.head .sndBuf)
  if p ≠ .head .sndBuf then
    let seg ← s.heap.entry p
    some { s with cb := { s.cb with sndUna := seg.sn } }
  else some { s with cb := { s.cb with sndUna := s.cb.sndNxt } }

/-- The loop of `ikcp_parse_ack`. -/
def parseAckLoop (sn : UInt32) : Nat → Place Queue M → KcpMemory M α → Option (KcpMemory M α)
  | 0, _, _ => none
  | turns + 1, p, s =>
    if p = .head .sndBuf then some s
    else do
      let seg ← s.heap.entry p
      let next ← s.heap.next p
      if sn = seg.sn then
        let s ← s.link (iqueueDel p)
        let s ← s.segmentDelete p
        some { s with cb := { s.cb with nsndBuf := s.cb.nsndBuf - 1 } }
      else if itimediff sn seg.sn < 0 then some s
      else parseAckLoop sn turns next s

/-- `ikcp_parse_ack` -/
def ikcpParseAck (s : KcpMemory M α) (sn : UInt32) : Option (KcpMemory M α) :=
  if itimediff sn s.cb.sndUna < 0 ∨ itimediff sn s.cb.sndNxt ≥ 0 then some s
  else do
    let p ← s.heap.next (.head .sndBuf)
    parseAckLoop sn s.turns p s

/-- The loop of `ikcp_parse_una`. -/
def parseUnaLoop (una : UInt32) : Nat → Place Queue M → KcpMemory M α → Option (KcpMemory M α)
  | 0, _, _ => none
  | turns + 1, p, s =>
    if p = .head .sndBuf then some s
    else do
      let seg ← s.heap.entry p
      let next ← s.heap.next p
      if itimediff una seg.sn > 0 then
        let s ← s.link (iqueueDel p)
        let s ← s.segmentDelete p
        parseUnaLoop una turns next { s with cb := { s.cb with nsndBuf := s.cb.nsndBuf - 1 } }
      else some s

/-- `ikcp_parse_una` -/
def ikcpParseUna (s : KcpMemory M α) (una : UInt32) : Option (KcpMemory M α) := do
  let p ← s.heap.next (.head .sndBuf)
  parseUnaLoop una s.turns p s

/-- The loop of `ikcp_parse_fastack`. -/
def parseFastackLoop (sn : UInt32) :
    Nat → Place Queue M → KcpMemory M α → Option (KcpMemory M α)
  | 0, _, _ => none
  | turns + 1, p, s =>
    if p = .head .sndBuf then some s
    else do
      let seg ← s.heap.entry p
      let next ← s.heap.next p
      if itimediff sn seg.sn < 0 then some s
      else if sn ≠ seg.sn then
        let s ← s.assign p { seg with fastack := seg.fastack + 1 }
        parseFastackLoop sn turns next s
      else parseFastackLoop sn turns next s

/-- `ikcp_parse_fastack` -/
def ikcpParseFastack (s : KcpMemory M α) (sn : UInt32) : Option (KcpMemory M α) :=
  if itimediff sn s.cb.sndUna < 0 ∨ itimediff sn s.cb.sndNxt ≥ 0 then some s
  else do
    let p ← s.heap.next (.head .sndBuf)
    parseFastackLoop sn s.turns p s

/-- The loop of `ikcp_parse_data` over `rcv_buf`, from its tail: the place to put the new
segment behind, and `repeat`. -/
def scanLoop (sn : UInt32) (s : KcpMemory M α) : Nat → Place Queue M → Option (Place Queue M × Bool)
  | 0, _ => none
  | turns + 1, p =>
    if p = .head .rcvBuf then some (p, false)
    else do
      let seg ← s.heap.entry p
      let prev ← s.heap.prev p
      if seg.sn = sn then some (p, true)
      else if itimediff sn seg.sn > 0 then some (p, false)
      else scanLoop sn s turns prev

/-- `ikcp_parse_data` -/
def ikcpParseData (s : KcpMemory M α) (new : M) : Option (KcpMemory M α) := do
  let newseg ← s.heap.entry (.node new)
  if itimediff newseg.sn (s.cb.rcvNxt + s.cb.rcvWnd) ≥ 0 ∨ itimediff newseg.sn s.cb.rcvNxt < 0 then
    s.segmentDelete (.node new)
  else
    let last ← s.heap.prev (.head .rcvBuf)
    let r ← scanLoop newseg.sn s s.turns last
    let s ←
      if r.2 then s.segmentDelete (.node new)
      else do
        let s ← s.link (iqueueInit (.node new))
        let s ← s.link (iqueueAdd (.node new) r.1)
        some { s with cb := { s.cb with nrcvBuf := s.cb.nrcvBuf + 1 } }
    moveAvailable s.turns s

/-- What `ikcp_input` does with every segment first. -/
def inputUna (s : KcpMemory M α) (w : WireSeg α) : Option (KcpMemory M α) := do
  let s ← ikcpParseUna { s with cb := { s.cb with rmtWnd := w.wnd.toUInt32 } } w.una
  s.ikcpShrinkBuf

/-- `IKCP_CMD_ACK` -/
def inputAck (s : KcpMemory M α) (w : WireSeg α) : Option (KcpMemory M α) := do
  let cb :=
    if itimediff s.cb.current w.ts ≥ 0 then
      ikcpUpdateAck s.cb (Int32.ofInt (itimediff s.cb.current w.ts))
    else s.cb
  let s ← ikcpParseAck { s with cb := cb } w.sn
  s.ikcpShrinkBuf

/-- `IKCP_CMD_PUSH` -/
def inputPush (A : Allocator M) (s : KcpMemory M α) (w : WireSeg α) : Option (KcpMemory M α) :=
  if itimediff w.sn (s.cb.rcvNxt + s.cb.rcvWnd) < 0 then
    let s : KcpMemory M α := { s with cb := ikcpAckPush s.cb w.sn w.ts }
    if itimediff w.sn s.cb.rcvNxt ≥ 0 then
      let new := s.segmentNew A (pushSeg w)
      new.2.ikcpParseData new.1
    else some s
  else some s

/-- The body of the loop of `ikcp_input`, once the header has been checked. -/
def inputSeg (A : Allocator M) (s : KcpMemory M α) (acc : InputAcc) (w : WireSeg α) :
    Option (KcpMemory M α × InputAcc) := do
  let s ← s.inputUna w
  if w.cmd.toUInt32 = IKCP_CMD_ACK then
    let s ← s.inputAck w
    some (s, acc.ack w)
  else if w.cmd.toUInt32 = IKCP_CMD_PUSH then
    let s ← s.inputPush A w
    some (s, acc)
  else if w.cmd.toUInt32 = IKCP_CMD_WASK then
    some ({ s with cb := { s.cb with probe := s.cb.probe ||| IKCP_ASK_TELL } }, acc)
  else some (s, acc)

/-- What `ikcp_input` does after the loop. -/
def inputEnd (prevUna : UInt32) (s : KcpMemory M α) (acc : InputAcc) : Option (KcpMemory M α) := do
  let s ← if acc.flag then s.ikcpParseFastack acc.maxack else some s
  some { s with cb := if itimediff s.cb.sndUna prevUna > 0 then growCwnd s.cb else s.cb }

/-- The loop of `ikcp_input` over decoded segments. -/
def inputLoop (A : Allocator M) (prevUna : UInt32) :
    List (WireSeg α) → KcpMemory M α → InputAcc → Option (KcpMemory M α × Int)
  | [], s, acc => do
    let s ← s.inputEnd prevUna acc
    some (s, 0)
  | w :: rest, s, acc =>
    if w.conv ≠ s.cb.conv then some (s, -1)
    else if !knownCmd w.cmd then some (s, -3)
    else do
      let r ← s.inputSeg A acc w
      inputLoop A prevUna rest r.1 r.2

/-- `ikcp_input` on a datagram of decoded segments. -/
def inputSegs (A : Allocator M) (s : KcpMemory M α) (segs : List (WireSeg α)) :
    Option (KcpMemory M α × Int) :=
  if segs.isEmpty then some (s, -1) else inputLoop A s.cb.sndUna segs s ⟨false, 0, 0⟩

/-! ## `ikcp_flush` -/

/-- "move data from snd_queue to snd_buf" -/
def moveQueue (cwnd wnd current : UInt32) : Nat → KcpMemory M α → Option (KcpMemory M α)
  | 0, _ => none
  | turns + 1, s =>
    if itimediff s.cb.sndNxt (s.cb.sndUna + cwnd) < 0 then do
      let empty ← iqueueIsEmpty (.head .sndQueue) s.heap
      if empty then some s
      else
        let p ← s.heap.next (.head .sndQueue)
        let newseg ← s.heap.entry p
        let s ← s.link (iqueueDel p)
        let s ← s.link (iqueueAddTail p (.head .sndBuf))
        let s ← s.assign p
          { newseg with
            conv := s.cb.conv
            cmd := IKCP_CMD_PUSH
            wnd := wnd
            ts := current
            sn := s.cb.sndNxt
            una := s.cb.rcvNxt
            resendts := current
            rto := s.cb.rxRto.toUInt32
            fastack := 0
            xmit := 0 }
        moveQueue cwnd wnd current turns
          { s with
            cb := { s.cb with
              nsndQue := s.cb.nsndQue - 1
              nsndBuf := s.cb.nsndBuf + 1
              sndNxt := s.cb.sndNxt + 1 } }
    else some s

/-- "flush data segments": the loop over `snd_buf`. -/
def flushData {B : Type} (sink : Sink α B) (wnd current resent rtomin : UInt32) :
    Nat → Place Queue M → FlushAcc → B → KcpMemory M α → Option ((KcpMemory M α × FlushAcc) × B)
  | 0, _, _, _, _ => none
  | turns + 1, p, acc, b, s =>
    if p = .head .sndBuf then some ((s, acc), b)
    else do
      let segment ← s.heap.entry p
      match dueSeg s.cb current resent rtomin segment acc with
      | none =>
        let next ← s.heap.next p
        flushData sink wnd current resent rtomin turns next acc b s
      | some (segment, acc) =>
        let segment := { segment with ts := current, wnd := wnd, una := s.cb.rcvNxt }
        let s ← s.assign p segment
        let b := makeRoom sink s.cb.mtu (IKCP_OVERHEAD.toNat + segment.len) b
        let state := if segment.xmit ≥ s.cb.deadLink then 0xffffffff else acc.state
        let next ← s.heap.next p
        flushData sink wnd current resent rtomin turns next { acc with state := state }
          (sink.put b segment) s

/-- `ikcp_flush` -/
def ikcpFlush {B : Type} (sink : Sink α B) (s : KcpMemory M α) (b : B) :
    Option (KcpMemory M α × B) :=
  if s.cb.updated = 0 then some (s, b)
  else do
    let cb := s.cb
    let b := flushCtl sink cb b
    let s : KcpMemory M α :=
      { s with cb := { probeWindow { cb with acklist := [] } with probe := 0 } }
    let s ← moveQueue (flushCwnd cb) (ikcpWndUnused cb) cb.current s.turns s
    let resent := if cb.fastresend > 0 then cb.fastresend.toUInt32 else 0xffffffff
    let rtomin := if cb.nodelay = 0 then (cb.rxRto >>> 3).toUInt32 else 0
    let p ← s.heap.next (.head .sndBuf)
    let r ← flushData sink (ikcpWndUnused cb) cb.current resent rtomin s.turns p
      ⟨0, false, s.cb.xmit, s.cb.state⟩ b s
    let s := r.1.1
    some ({ s with
        cb := flushEnd { s.cb with xmit := r.1.2.xmit, state := r.1.2.state } (flushCwnd cb) resent
          r.1.2.change r.1.2.lost },
      ikcpOutput sink r.2)

/-- `ikcp_update` -/
def ikcpUpdate {B : Type} (sink : Sink α B) (s : KcpMemory M α) (b : B) (current : UInt32) :
    Option (KcpMemory M α × B) :=
  let r := updateClock s.cb current
  if r.2 then ikcpFlush sink { s with cb := r.1 } b else some ({ s with cb := r.1 }, b)

/-! ## `ikcp_release` -/

end KcpMemory
end FlexProxy
