import FlexProxy.KcpWire
import FlexProxy.Transport

/-! # Datagrams

What the two forwarders put between a flush and the socket.  Their output
callbacks encrypt the scratch buffer in place (`MiscUtils::Encrypt`) and, if the
program is built with `ENABLE_CHECK_SUM`, send a byte of exclusive or before it
(`MiscUtils::XorCheck`).  The receive paths check the sum, decrypt, and pass the
rest to `ikcp_input`.

The scratch buffer (`Scratch`) is memory that outlives the flush: an output
leaves the encrypted bytes in it.  The transport of the program, `udp`, is shown
to be lawful (`lawful_udp`).
-/
namespace FlexProxy

/-! ## Encryption and checksum -/

/-- `MiscUtils::Encrypt` -/
def encrypt (buf : List UInt8) : List UInt8 := buf.map (· ^^^ 0xA5)

/-- `MiscUtils::XorCheck` -/
def xorCheck (buf : List UInt8) : UInt8 := buf.foldl (· ^^^ ·) 0

@[simp] theorem encrypt_encrypt (buf : List UInt8) : encrypt (encrypt buf) = buf := by
  rw [encrypt, encrypt, List.map_map]
  refine (List.map_congr_left ?_).trans (List.map_id buf)
  intro b _
  show b ^^^ 0xA5 ^^^ 0xA5 = b
  rw [UInt8.xor_assoc, UInt8.xor_self, UInt8.xor_zero]

@[simp] theorem length_encrypt (buf : List UInt8) : (encrypt buf).length = buf.length :=
  List.length_map _

/-- The output callback of a forwarder: what it leaves in the buffer, and the
datagram it sends. -/
def outputCallback (checkSum : Bool) (buf : List UInt8) : List UInt8 × List UInt8 :=
  let buf := encrypt buf
  (buf, if checkSum then xorCheck buf :: buf else buf)

/-- The receive path of a forwarder: what of a datagram it passes to `ikcp_input`,
if anything. -/
def receivePath (checkSum : Bool) (data : List UInt8) : Option (List UInt8) :=
  if checkSum then
    if data.length > 1 then
      if xorCheck (data.drop 1) = data.getD 0 0 then some (encrypt (data.drop 1)) else none
    else none
  else some (encrypt data)

/-- The datagram that carries the payload `p`. -/
def frame (checkSum : Bool) (p : List UInt8) : List UInt8 := (outputCallback checkSum p).2

theorem length_frame_le (checkSum : Bool) (p : List UInt8) :
    (frame checkSum p).length ≤ p.length + 1 := by
  unfold frame outputCallback
  dsimp only
  split
  · rw [List.length_cons, length_encrypt]
  · rw [length_encrypt]
    omega

/-- A payload that was framed is received, unless it is empty. -/
theorem receivePath_frame (checkSum : Bool) {p : List UInt8} (hp : p ≠ []) :
    receivePath checkSum (frame checkSum p) = some p := by
  have hlen : 0 < p.length := List.length_pos_iff.mpr hp
  cases checkSum with
  | false =>
    show some (encrypt (encrypt p)) = some p
    rw [encrypt_encrypt]
  | true =>
    have hmore : (xorCheck (encrypt p) :: encrypt p).length > 1 := by
      rw [List.length_cons, length_encrypt]
      omega
    show (if (xorCheck (encrypt p) :: encrypt p).length > 1 then _ else _) = _
    rw [if_pos hmore]
    show (if xorCheck (encrypt p) = xorCheck (encrypt p) then some (encrypt (encrypt p)) else _) = _
    rw [if_pos rfl, encrypt_encrypt]

/-- What a receive path does with the control block. -/
def feedPayload (checkSum : Bool) (kcp : Ikcpcb UInt8) (data : List UInt8) : Ikcpcb UInt8 :=
  match receivePath checkSum data with
  | some payload => (ikcpInput kcp payload).1
  | none => kcp

/-- The size of the receive buffers: a longer datagram is cut. -/
def receiveBufferSize : Nat := 4096

/-- "kcp feed coroutine" of `ClientSideForwarder`: one datagram. -/
def clientFeed (checkSum : Bool) (kcp : Ikcpcb UInt8) (d : List UInt8) : Ikcpcb UInt8 :=
  feedPayload checkSum kcp (d.take receiveBufferSize)

/-- "kcp feed coroutine" of `Forwarder`: one datagram. -/
def serverFeed (checkSum : Bool) (kcp : Ikcpcb UInt8) (d : List UInt8) : Ikcpcb UInt8 :=
  feedPayload checkSum kcp (d.take receiveBufferSize)

/-- `Forwarder::OnUdpData` on a datagram received by `UdpAcceptCoroutine`. -/
def onUdpData (checkSum : Bool) (kcp : Ikcpcb UInt8) (d : List UInt8) : Ikcpcb UInt8 :=
  feedPayload checkSum kcp (d.take receiveBufferSize)

/-! ## The scratch buffer -/

/-- `kcp->buffer`, the position `ptr` in it during a flush, and the datagrams sent. -/
structure Scratch where
  buffer : List UInt8
  ptr : Nat := 0
  sent : List (List UInt8) := []

/-- The scratch buffer with an output callback, which says what it leaves of what it is
given, and what it sends. -/
def scratchSink (callback : List UInt8 → List UInt8 × List UInt8) : Sink UInt8 Scratch where
  size b := b.ptr
  put b seg :=
    let bytes := (ikcpEncodeSeg seg).bytes
    { b with
      buffer := b.buffer.take b.ptr ++ bytes ++ b.buffer.drop (b.ptr + bytes.length)
      ptr := b.ptr + bytes.length }
  output b :=
    let r := callback (b.buffer.take b.ptr)
    { buffer := r.1 ++ b.buffer.drop b.ptr, ptr := 0, sent := b.sent ++ [r.2] }
  size_output _ := rfl

/-- The scratch buffer as the forwarders use it. -/
def byteSink (checkSum : Bool) : Sink UInt8 Scratch := scratchSink (outputCallback checkSum)

/-- The transport of the program; the scratch buffer keeps its contents from one
update to the next. -/
def udp (checkSum : Bool) : Transport UInt8 (List UInt8) (List UInt8) where
  update kcp buffer current :=
    let r := ikcpUpdate (byteSink checkSum) kcp { buffer := buffer } current
    ((r.1, r.2.buffer), r.2.sent)
  feed := clientFeed checkSum

/-- The transport feeds a control block as the three receive paths do. -/
theorem feed_udp (checkSum : Bool) :
    (udp checkSum).feed = clientFeed checkSum ∧ (udp checkSum).feed = serverFeed checkSum ∧
      (udp checkSum).feed = onUdpData checkSum :=
  ⟨rfl, rfl, rfl⟩

/-- The bytes of a datagram's segments. -/
def payload (segs : List (WireSeg UInt8)) : List UInt8 := segs.flatMap WireSeg.bytes

@[simp] theorem length_payload (segs : List (WireSeg UInt8)) :
    (payload segs).length = wireSize segs := by
  induction segs with
  | nil => rfl
  | cons w rest ih =>
    have hrest : (rest.flatMap WireSeg.bytes).length = wireSize rest := ih
    rw [payload, List.flatMap_cons, List.length_append, WireSeg.length_bytes, hrest]
    rfl

/-- The scratch buffer `b` holds the segments `p.current`, and the datagrams sent
are those of `p`. -/
structure Holds (checkSum : Bool) (b : Scratch) (p : Packets UInt8) : Prop where
  ptr : b.ptr = wireSize p.current
  buffer : b.buffer.take b.ptr = payload p.current
  sent : b.sent = p.sent.map (fun segs => frame checkSum (payload segs))

theorem holds_put {checkSum : Bool} {b : Scratch} {p : Packets UInt8}
    {callback : List UInt8 → List UInt8 × List UInt8} (seg : IkcpSeg UInt8)
    (h : Holds checkSum b p) :
    Holds checkSum ((scratchSink callback).put b seg) (segSink.put p seg) := by
  have hlen : (b.buffer.take b.ptr).length = b.ptr := by
    rw [h.buffer, length_payload, h.ptr]
  refine ⟨?_, ?_, h.sent⟩
  · show b.ptr + _ = wireSize (_ ++ [_])
    rw [wireSize_snoc, h.ptr, WireSeg.length_bytes]
  · show (b.buffer.take b.ptr ++ _ ++ _).take (b.ptr + _) = payload (_ ++ [_])
    rw [List.take_left' (by rw [List.length_append, hlen]), h.buffer, payload, payload,
      List.flatMap_append, List.flatMap_singleton]

/-- It does not matter what the callback leaves in the buffer. -/
theorem holds_output {checkSum : Bool} {b : Scratch} {p : Packets UInt8}
    {callback : List UInt8 → List UInt8 × List UInt8}
    (hsend : ∀ buf, (callback buf).2 = frame checkSum buf) (h : Holds checkSum b p) :
    Holds checkSum ((scratchSink callback).output b) (segSink.output p) := by
  refine ⟨rfl, List.take_zero, ?_⟩
  show b.sent ++ [(callback (b.buffer.take b.ptr)).2] = (p.sent ++ [p.current]).map _
  rw [hsend, h.buffer, h.sent, List.map_append]
  rfl

/-- **The datagrams sent by an update** are the frames of what the flush packs, if the
callback sends the frame of what it is given. -/
theorem sent_scratchSink {checkSum : Bool} {callback : List UInt8 → List UInt8 × List UInt8}
    (hsend : ∀ buf, (callback buf).2 = frame checkSum buf) (kcp : Ikcpcb UInt8)
    (buffer : List UInt8) (current : UInt32) :
    (ikcpUpdate (scratchSink callback) kcp { buffer := buffer } current).2.sent =
      (packets kcp current).map (fun segs => frame checkSum (payload segs)) := by
  have hsize : ∀ b p, Holds checkSum b p → (scratchSink callback).size b = segSink.size p :=
    fun _ _ h => h.ptr
  have hout : ∀ b p, Holds checkSum b p →
      Holds checkSum ((scratchSink callback).output b) (segSink.output p) :=
    fun _ _ h => holds_output hsend h
  have hput : ∀ b p seg, Holds checkSum b p →
      Holds checkSum ((scratchSink callback).put b seg) (segSink.put p seg) :=
    fun _ _ seg h => holds_put seg h
  have hempty : Holds checkSum { buffer := buffer } {} := ⟨rfl, List.take_zero, rfl⟩
  have h := ikcpOutput_rel hsize hout
    (pack_rel hsize hout hput kcp.mtu (updateFlushed kcp current) hempty)
  rw [packets_eq, ← h.sent]
  exact congrArg Scratch.sent
    (ikcpUpdate_snd (scratchSink callback) kcp { buffer := buffer } current rfl)

/-- The datagrams sent by an update of the program. -/
theorem sent_udp (checkSum : Bool) (kcp : Ikcpcb UInt8) (buffer : List UInt8) (current : UInt32) :
    ((udp checkSum).update kcp buffer current).2 =
      (packets kcp current).map (fun segs => frame checkSum (payload segs)) := by
  have hsend : ∀ buf, (outputCallback checkSum buf).2 = frame checkSum buf := fun _ => rfl
  exact sent_scratchSink hsend kcp buffer current

/-- The datagram `d` is the frame of whole segments, and fits a receive buffer. -/
structure Framed (checkSum : Bool) (d : List UInt8) (segs : List (WireSeg UInt8)) : Prop where
  frame : d = frame checkSum (payload segs)
  size : wireSize segs < receiveBufferSize

theorem length_le_wireSize {segs : List (WireSeg UInt8)} {w : WireSeg UInt8} (h : w ∈ segs) :
    w.data.length ≤ wireSize segs := by
  induction segs with
  | nil => cases h
  | cons v rest ih =>
    rw [wireSize, List.map_cons, List.sum_cons]
    rcases List.mem_cons.mp h with rfl | h
    · omega
    · exact Nat.le_trans (ih h) (Nat.le_add_left _ _)

theorem feedPayload_framed {checkSum : Bool} {d : List UInt8} {segs : List (WireSeg UInt8)}
    (h : Framed checkSum d segs) (kcp : Ikcpcb UInt8) :
    feedPayload checkSum kcp (d.take receiveBufferSize) = (inputSegs kcp segs).1 := by
  have hlen : d.length ≤ receiveBufferSize := by
    rw [h.frame]
    refine Nat.le_trans (length_frame_le _ _) ?_
    rw [length_payload]
    exact h.size
  have hdata : ∀ w ∈ segs, w.data.length < 2 ^ 31 := by
    intro w hw
    refine Nat.lt_of_le_of_lt (length_le_wireSize hw) (Nat.lt_trans h.size ?_)
    decide
  rw [List.take_of_length_le hlen, h.frame]
  by_cases hs : segs = []
  · subst hs
    cases checkSum <;> rfl
  · have hne : payload segs ≠ [] := by
      intro he
      have := wireSize_pos hs
      rw [← length_payload, he] at this
      exact absurd this (Nat.lt_irrefl 0)
    rw [feedPayload, receivePath_frame checkSum hne]
    exact congrArg Prod.fst (ikcpInput_bytes kcp segs hdata)

/-- **The transport of the program is lawful.** -/
theorem lawful_udp (checkSum : Bool) : Lawful (udp checkSum) (Framed checkSum) where
  update kcp buffer current :=
    ikcpUpdate_fst (byteSink checkSum) kcp { buffer := buffer } current listSink []
  sends kcp buffer current hc hf := by
    rw [sent_udp, List.forall₂_map_left_iff]
    refine List.forall₂_same.mpr (fun segs hs => ⟨rfl, ?_⟩)
    exact Nat.lt_of_le_of_lt (wireSize_packets hc hf hs) (by decide)
  feed kcp d segs h := feedPayload_framed h kcp
  feeds kcp d := by
    show ∃ segs, feedPayload checkSum kcp (d.take receiveBufferSize) = _
    unfold feedPayload
    split
    · exact ikcpInput_exists kcp _
    · exact ⟨[], rfl⟩

/-! ## Datagrams of the program -/

/-- A segment on its way, as the forwarders send it. -/
def segmentOf (cmd : UInt8) (wnd : UInt16) (ts sn una : UInt32) (data : List UInt8) :
    WireSeg UInt8 :=
  ⟨forwarderConv, cmd, 0, wnd, ts, sn, una, data⟩

/-- The datagram with these segments, with its checksum. -/
def datagramOf (segs : List (WireSeg UInt8)) : List UInt8 := frame true (payload segs)

end FlexProxy
