import FlexProxy.Datagram

/-! # Encrypting in place

The output callbacks of both forwarders encrypt the scratch buffer they are given, and
`ikcp_flush` goes on writing into it.  Here that is compared with a callback which
encrypts a copy (`referenceCallback`): over any sequence of calls on a control
block, with any number of datagrams a flush, both send the same datagrams and leave
the same control block (`in_place_harmless`).

Each datagram is the frame of segments encoded by the flush that sends it
(`freshDatagrams`), so nothing in it is left over from an earlier one.
-/
namespace FlexProxy

/-- An output callback that leaves the buffer alone: it encrypts a copy. -/
def referenceCallback (checkSum : Bool) (buf : List UInt8) : List UInt8 × List UInt8 :=
  (buf, (outputCallback checkSum buf).2)

/-- The scratch buffer with the reference callback. -/
def copySink (checkSum : Bool) : Sink UInt8 Scratch := scratchSink (referenceCallback checkSum)

/-- A call of a coroutine on the control block. -/
inductive KcpCall where
  | update (current : UInt32)
  | send (buffer : List UInt8)
  | recv (len : Int)
  | input (data : List UInt8)

/-- A control block with its scratch buffer, and the datagrams sent. -/
structure KcpEnd where
  kcp : Ikcpcb UInt8
  buffer : List UInt8
  sent : List (List UInt8)

namespace KcpEnd

/-- One call, with a given scratch buffer. -/
def call (sink : Sink UInt8 Scratch) (s : KcpEnd) : KcpCall → KcpEnd
  | .update current =>
    let r := ikcpUpdate sink s.kcp { buffer := s.buffer } current
    ⟨r.1, r.2.buffer, s.sent ++ r.2.sent⟩
  | .send buffer => { s with kcp := (ikcpSend s.kcp buffer).1 }
  | .recv len => { s with kcp := (ikcpRecv s.kcp len).1 }
  | .input data => { s with kcp := (ikcpInput s.kcp data).1 }

/-- A sequence of calls. -/
def calls (sink : Sink UInt8 Scratch) (s : KcpEnd) (run : List KcpCall) : KcpEnd :=
  run.foldl (call sink) s

end KcpEnd

/-- The datagrams of one call, as lists of the segments that the flush encodes. -/
def freshOf (kcp : Ikcpcb UInt8) : KcpCall → List (List (WireSeg UInt8))
  | .update current => packets kcp current
  | _ => []

/-- The control block after one call. -/
def kcpAfter (kcp : Ikcpcb UInt8) : KcpCall → Ikcpcb UInt8
  | .update current => (ikcpUpdate listSink kcp [] current).1
  | .send buffer => (ikcpSend kcp buffer).1
  | .recv len => (ikcpRecv kcp len).1
  | .input data => (ikcpInput kcp data).1

/-- The datagrams of a sequence of calls, each as the segments that its own flush
encodes. -/
def freshDatagrams : Ikcpcb UInt8 → List KcpCall → List (List (WireSeg UInt8))
  | _, [] => []
  | kcp, c :: run => freshOf kcp c ++ freshDatagrams (kcpAfter kcp c) run

section Calls
variable {checkSum : Bool} {callback : List UInt8 → List UInt8 × List UInt8}

/-- What one call sends and leaves does not depend on what is in the scratch buffer,
nor on what the callback leaves there. -/
theorem call_scratchSink (hsend : ∀ buf, (callback buf).2 = frame checkSum buf) (s : KcpEnd)
    (c : KcpCall) :
    (s.call (scratchSink callback) c).kcp = kcpAfter s.kcp c ∧
    (s.call (scratchSink callback) c).sent =
      s.sent ++ (freshOf s.kcp c).map (fun segs => frame checkSum (payload segs)) := by
  cases c with
  | update current =>
    constructor
    · exact ikcpUpdate_fst (scratchSink callback) s.kcp { buffer := s.buffer } current listSink []
    · exact congrArg (s.sent ++ ·) (sent_scratchSink hsend s.kcp s.buffer current)
  | send buffer => exact ⟨rfl, (List.append_nil _).symm⟩
  | recv len => exact ⟨rfl, (List.append_nil _).symm⟩
  | input data => exact ⟨rfl, (List.append_nil _).symm⟩

theorem calls_scratchSink (hsend : ∀ buf, (callback buf).2 = frame checkSum buf) (s : KcpEnd)
    (run : List KcpCall) :
    (s.calls (scratchSink callback) run).kcp = run.foldl kcpAfter s.kcp ∧
    (s.calls (scratchSink callback) run).sent =
      s.sent ++ (freshDatagrams s.kcp run).map (fun segs => frame checkSum (payload segs)) := by
  induction run generalizing s with
  | nil => exact ⟨rfl, (List.append_nil _).symm⟩
  | cons c run ih =>
    obtain ⟨hkcp, hsent⟩ := call_scratchSink hsend s c
    obtain ⟨hkcp', hsent'⟩ := ih (s.call (scratchSink callback) c)
    constructor
    · rw [hkcp] at hkcp'
      exact hkcp'
    · rw [hkcp, hsent, List.append_assoc, ← List.map_append] at hsent'
      exact hsent'

end Calls

/-- The segments of a datagram of a sequence of calls are not none, and they are
encoded by the update that sends it. -/
theorem mem_freshDatagrams {kcp : Ikcpcb UInt8} {run : List KcpCall} {segs : List (WireSeg UInt8)}
    (h : segs ∈ freshDatagrams kcp run) :
    ∃ before current after, run = before ++ KcpCall.update current :: after ∧
      segs ∈ packets (before.foldl kcpAfter kcp) current := by
  induction run generalizing kcp with
  | nil => cases h
  | cons c run ih =>
    rcases List.mem_append.mp h with h | h
    · cases c with
      | update current => exact ⟨[], current, run, rfl, h⟩
      | send buffer => cases h
      | recv len => cases h
      | input data => cases h
    · obtain ⟨before, current, after, rfl, hmem⟩ := ih h
      exact ⟨c :: before, current, after, rfl, hmem⟩

/-- **Encrypting in place is harmless.**  From any control block and whatever is in the
scratch buffers, over any sequence of calls: the callback of the program and the
reference callback send the same datagrams and leave the same control block; and each
datagram decrypts to segments which the flush that sent it had just encoded. -/
theorem in_place_harmless (checkSum : Bool) (kcp : Ikcpcb UInt8) (buffer buffer' : List UInt8)
    (run : List KcpCall) :
    let inPlace := KcpEnd.calls (byteSink checkSum) ⟨kcp, buffer, []⟩ run
    let copied := KcpEnd.calls (copySink checkSum) ⟨kcp, buffer', []⟩ run
    (inPlace.sent = copied.sent ∧ inPlace.kcp = copied.kcp) ∧
    inPlace.sent = (freshDatagrams kcp run).map (fun segs => frame checkSum (payload segs)) ∧
    ∀ segs ∈ freshDatagrams kcp run,
      receivePath checkSum (frame checkSum (payload segs)) = some (payload segs) ∧
      ∃ before current after, run = before ++ KcpCall.update current :: after ∧
        ∀ w ∈ segs, ∃ seg ∈ updateFlushed (before.foldl kcpAfter kcp) current,
          w = ikcpEncodeSeg seg := by
  have hcopy : ∀ buf, (referenceCallback checkSum buf).2 = frame checkSum buf := fun _ => rfl
  have hplace : ∀ buf, (outputCallback checkSum buf).2 = frame checkSum buf := fun _ => rfl
  obtain ⟨hkcp, hsent⟩ := calls_scratchSink hplace ⟨kcp, buffer, []⟩ run
  obtain ⟨hkcp', hsent'⟩ := calls_scratchSink hcopy ⟨kcp, buffer', []⟩ run
  refine ⟨⟨hsent.trans hsent'.symm, hkcp.trans hkcp'.symm⟩, hsent, fun segs hmem => ?_⟩
  obtain ⟨before, current, after, rfl, hpackets⟩ := mem_freshDatagrams hmem
  constructor
  · have hne : payload segs ≠ [] := by
      intro hnil
      have hpos := wireSize_pos (ne_nil_of_mem_packets hpackets)
      rw [← length_payload, hnil] at hpos
      exact absurd hpos (Nat.lt_irrefl 0)
    exact receivePath_frame checkSum hne
  · refine ⟨before, current, after, rfl, fun w hw => ?_⟩
    have hflat := List.mem_flatten.mpr ⟨segs, hpackets, hw⟩
    rw [flatten_packets] at hflat
    obtain ⟨seg, hseg, rfl⟩ := List.mem_map.mp hflat
    exact ⟨seg, hseg, rfl⟩

end FlexProxy
