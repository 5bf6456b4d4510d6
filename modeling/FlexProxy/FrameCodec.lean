import FlexProxy.Datagram

/-! # The frame codec

Both programs have their own copy of the output callback, and three receive paths
undo it: the two kcp feed coroutines and `OnUdpData`.  Each of them sees no more of a
datagram than the `receiveBufferSize` bytes its receive buffer holds.

With `ENABLE_CHECK_SUM` every callback and every receive path are a `FrameCodec`:
what is accepted is, up to the size of the buffer, what is framed, and a changed byte is
noticed.  What is longer is cut, not rejected (`receive_paths_cut`).
-/
namespace FlexProxy

/-! ## The copies -/

/-- The output callback of `ClientSideForwarder`: the datagram sent. -/
def clientOutput (checkSum : Bool) (buf : List UInt8) : List UInt8 :=
  (outputCallback checkSum buf).2

/-- The output callback of `Forwarder`: the datagram sent. -/
def serverOutput (checkSum : Bool) (buf : List UInt8) : List UInt8 :=
  (outputCallback checkSum buf).2

/-- "kcp feed coroutine" of `ClientSideForwarder`: what of a datagram it passes to
`ikcp_input`. -/
def clientReceived (checkSum : Bool) (d : List UInt8) : Option (List UInt8) :=
  receivePath checkSum (d.take receiveBufferSize)

/-- "kcp feed coroutine" of `Forwarder`: what of a datagram it passes to `ikcp_input`. -/
def serverReceived (checkSum : Bool) (d : List UInt8) : Option (List UInt8) :=
  receivePath checkSum (d.take receiveBufferSize)

/-- `Forwarder::OnUdpData`: what it passes to `ikcp_input` of a datagram that
`UdpAcceptCoroutine` has received. -/
def onUdpDataReceived (checkSum : Bool) (d : List UInt8) : Option (List UInt8) :=
  receivePath checkSum (d.take receiveBufferSize)

/-- A receive path passes on what it receives, and does nothing else with the control
block. -/
theorem feed_received (checkSum : Bool) (kcp : Ikcpcb UInt8) (d : List UInt8) :
    clientFeed checkSum kcp d =
        ((clientReceived checkSum d).map fun p => (ikcpInput kcp p).1).getD kcp ∧
      serverFeed checkSum kcp d =
        ((serverReceived checkSum d).map fun p => (ikcpInput kcp p).1).getD kcp ∧
      onUdpData checkSum kcp d =
        ((onUdpDataReceived checkSum d).map fun p => (ikcpInput kcp p).1).getD kcp := by
  have hfeed : ∀ data, feedPayload checkSum kcp data =
      ((receivePath checkSum data).map fun p => (ikcpInput kcp p).1).getD kcp := by
    intro data
    unfold feedPayload
    cases receivePath checkSum data <;> rfl
  exact ⟨hfeed _, hfeed _, hfeed _⟩

/-! ## Exclusive or -/

theorem foldl_xor (l : List UInt8) (x : UInt8) : l.foldl (· ^^^ ·) x = x ^^^ xorCheck l := by
  induction l generalizing x with
  | nil => exact (UInt8.xor_zero).symm
  | cons a rest ih =>
    rw [xorCheck, List.foldl_cons, List.foldl_cons, ih, ih (0 ^^^ a), UInt8.zero_xor,
      UInt8.xor_assoc]

theorem xorCheck_cons (a : UInt8) (l : List UInt8) : xorCheck (a :: l) = a ^^^ xorCheck l := by
  rw [xorCheck, List.foldl_cons, foldl_xor, UInt8.zero_xor]

theorem xorCheck_append (s t : List UInt8) : xorCheck (s ++ t) = xorCheck s ^^^ xorCheck t := by
  rw [xorCheck, List.foldl_append, foldl_xor]
  rfl

/-- `d` differs from `l` in exactly one byte. -/
def OneByteChanged (l d : List UInt8) : Prop :=
  ∃ s a b t, l = s ++ a :: t ∧ d = s ++ b :: t ∧ a ≠ b

/-- A changed byte changes the exclusive or. -/
theorem xorCheck_ne_of_changed {l d : List UInt8} (h : OneByteChanged l d) :
    xorCheck d ≠ xorCheck l := by
  obtain ⟨s, a, b, t, rfl, rfl, hab⟩ := h
  rw [xorCheck_append, xorCheck_append, xorCheck_cons, xorCheck_cons]
  intro heq
  have htail := (UInt8.xor_right_inj (xorCheck s)).mp heq
  exact hab ((UInt8.xor_left_inj (xorCheck t)).mp htail).symm

/-! ## What a receive path accepts -/

theorem xorCheck_frame (p : List UInt8) : xorCheck (frame true p) = 0 := by
  show xorCheck (xorCheck (encrypt p) :: encrypt p) = 0
  rw [xorCheck_cons, UInt8.xor_self]

/-- With the checksum, a datagram is accepted if it is more than the checksum and its
bytes cancel out; the payload is what it frames. -/
theorem receivePath_cons (c : UInt8) (d : List UInt8) :
    receivePath true (c :: d) =
      if 2 ≤ (c :: d).length ∧ xorCheck (c :: d) = 0 then some (encrypt d) else none := by
  show (if 2 ≤ (c :: d).length then if xorCheck d = c then some (encrypt d) else none else none) = _
  have hsum : xorCheck (c :: d) = 0 ↔ xorCheck d = c := by
    rw [xorCheck_cons, UInt8.xor_eq_zero_iff]
    exact eq_comm
  by_cases hlen : 2 ≤ (c :: d).length
  · rw [if_pos hlen]
    by_cases hc : xorCheck d = c
    · rw [if_pos hc, if_pos ⟨hlen, hsum.mpr hc⟩]
    · rw [if_neg hc, if_neg (fun h => hc (hsum.mp h.2))]
  · rw [if_neg hlen, if_neg (fun h => hlen h.1)]

theorem receivePath_isSome_iff (d : List UInt8) :
    (receivePath true d).isSome ↔ 2 ≤ d.length ∧ xorCheck d = 0 := by
  cases d with
  | nil => exact ⟨fun h => Bool.noConfusion h, fun h => absurd h.1 (by decide)⟩
  | cons c d =>
    rw [receivePath_cons]
    split
    · rename_i h
      exact ⟨fun _ => h, fun _ => rfl⟩
    · rename_i h
      exact ⟨fun h' => Bool.noConfusion h', fun h' => absurd h' h⟩

theorem eq_frame_of_receivePath {d p : List UInt8} (h : receivePath true d = some p) :
    d = frame true p ∧ p ≠ [] := by
  cases d with
  | nil => cases h
  | cons c d =>
    rw [receivePath_cons] at h
    obtain ⟨⟨hlen, hxor⟩, h⟩ := Option.ite_none_right_eq_some.mp h
    cases h
    rw [xorCheck_cons, UInt8.xor_eq_zero_iff] at hxor
    constructor
    · show c :: d = xorCheck (encrypt (encrypt d)) :: encrypt (encrypt d)
      rw [encrypt_encrypt, hxor]
    · intro hnil
      have hzero := congrArg List.length hnil
      rw [length_encrypt, List.length_nil] at hzero
      rw [List.length_cons, hzero] at hlen
      omega

/-! ## The codec -/

/-- A payload that fits the receive buffer with its checksum is not cut. -/
theorem take_frame {checkSum : Bool} {p : List UInt8} {size : Nat} (hp : p.length < size) :
    (frame checkSum p).take size = frame checkSum p :=
  List.take_of_length_le (Nat.le_trans (length_frame_le checkSum p) hp)

theorem length_lt_of_receivePath {d p : List UInt8} (h : receivePath true d = some p) :
    p.length < d.length := by
  rw [(eq_frame_of_receivePath h).1]
  show p.length < (xorCheck (encrypt p) :: encrypt p).length
  rw [List.length_cons, length_encrypt]
  exact Nat.lt_succ_self _

theorem length_of_changed {l d : List UInt8} (h : OneByteChanged l d) : d.length = l.length := by
  obtain ⟨s, a, b, t, rfl, rfl, -⟩ := h
  simp

/-- With a buffer of `size` bytes `receive` undoes `send`, accepts nothing but what `send`
gives, and notices every changed byte. -/
structure FrameCodec (size : Nat) (send : List UInt8 → List UInt8)
    (receive : List UInt8 → Option (List UInt8)) : Prop where
  round_trip : ∀ p, p ≠ [] → p.length < size → receive (send p) = some p
  accepts : ∀ d, (receive d).isSome ↔ 2 ≤ (d.take size).length ∧ xorCheck (d.take size) = 0
  canonical : ∀ d p, receive d = some p → d.take size = send p ∧ p ≠ [] ∧ p.length < size
  detects : ∀ p d, p.length < size → OneByteChanged (send p) d → receive d = none

theorem frameCodec (size : Nat) :
    FrameCodec size (frame true) (fun d => receivePath true (d.take size)) where
  round_trip p hne hlen := by
    show receivePath true ((frame true p).take size) = some p
    rw [take_frame hlen]
    exact receivePath_frame true hne
  accepts d := receivePath_isSome_iff (d.take size)
  canonical d p h := by
    obtain ⟨hframe, hne⟩ := eq_frame_of_receivePath h
    refine ⟨hframe, hne, Nat.lt_of_lt_of_le (length_lt_of_receivePath h) ?_⟩
    exact List.length_take_le ..
  detects p d hlen h := by
    have hwhole : d.take size = d := by
      refine List.take_of_length_le ?_
      rw [length_of_changed h]
      exact Nat.le_trans (length_frame_le true p) hlen
    by_contra hsome
    have haccepted :=
      (receivePath_isSome_iff (d.take size)).mp (Option.isSome_iff_ne_none.mpr hsome)
    rw [hwhole] at haccepted
    exact xorCheck_ne_of_changed h (haccepted.2.trans (xorCheck_frame p).symm)

/-- **The copies agree**: either output callback with any of the three receive paths is
a codec; without `ENABLE_CHECK_SUM` every payload that fits the buffer comes through. -/
theorem receive_paths_decode :
    (∀ send ∈ [clientOutput true, serverOutput true],
      ∀ receive ∈ [clientReceived true, serverReceived true, onUdpDataReceived true],
        FrameCodec receiveBufferSize send receive) ∧
    (∀ send ∈ [clientOutput false, serverOutput false],
      ∀ receive ∈ [clientReceived false, serverReceived false, onUdpDataReceived false],
        ∀ p, p.length ≤ receiveBufferSize → receive (send p) = some p) := by
  constructor
  · intro send hsend receive hreceive
    have hs : send = frame true := by
      simp only [List.mem_cons, List.not_mem_nil, or_false] at hsend
      rcases hsend with rfl | rfl <;> rfl
    have hr : receive = fun d => receivePath true (d.take receiveBufferSize) := by
      simp only [List.mem_cons, List.not_mem_nil, or_false] at hreceive
      rcases hreceive with rfl | rfl | rfl <;> rfl
    rw [hs, hr]
    exact frameCodec receiveBufferSize
  · intro send hsend receive hreceive p hlen
    have hs : send = frame false := by
      simp only [List.mem_cons, List.not_mem_nil, or_false] at hsend
      rcases hsend with rfl | rfl <;> rfl
    have hr : receive = fun d => receivePath false (d.take receiveBufferSize) := by
      simp only [List.mem_cons, List.not_mem_nil, or_false] at hreceive
      rcases hreceive with rfl | rfl | rfl <;> rfl
    rw [hs, hr]
    show some (encrypt ((encrypt p).take receiveBufferSize)) = some p
    rw [List.take_of_length_le (by rwa [length_encrypt]), encrypt_encrypt]

/-- Equal bytes cancel out in pairs. -/
theorem xorCheck_replicate (k : Nat) (b : UInt8) : xorCheck (List.replicate (2 * k) b) = 0 := by
  induction k with
  | zero => rfl
  | succ k ih =>
    rw [Nat.mul_succ, List.replicate_succ, List.replicate_succ, xorCheck_cons, xorCheck_cons, ih,
      UInt8.xor_zero, UInt8.xor_self]

/-- Of 4097 zeros the first 4095 are passed on, also if the last byte of their datagram is
changed. -/
theorem receive_paths_cut :
    ∃ p d : List UInt8, OneByteChanged (clientOutput true p) d ∧ p.take 4095 ≠ p ∧
      ∀ receive ∈ [clientReceived true, serverReceived true, onUdpDataReceived true],
        receive (clientOutput true p) = some (p.take 4095) ∧ receive d = some (p.take 4095) := by
  have hpairs : xorCheck (List.replicate 4096 0xA5) = 0 := xorCheck_replicate 2048 0xA5
  have hsent : clientOutput true (List.replicate 4097 0) =
      List.replicate 4097 0xA5 ++ 0xA5 :: [] := by
    have henc : encrypt (List.replicate 4097 0) = List.replicate 4097 0xA5 := List.map_replicate
    have hsum : xorCheck (List.replicate 4097 0xA5) = 0xA5 := by
      rw [List.replicate_succ, xorCheck_cons, hpairs, UInt8.xor_zero]
    show xorCheck (encrypt (List.replicate 4097 0)) :: encrypt (List.replicate 4097 0) = _
    rw [henc, hsum, ← List.replicate_succ, List.replicate_succ']
  have hcut : ∀ last : UInt8,
      receivePath true ((List.replicate 4097 0xA5 ++ [last]).take receiveBufferSize) =
        some ((List.replicate 4097 0).take 4095) := by
    intro last
    have htake : (List.replicate 4097 (0xA5 : UInt8) ++ [last]).take receiveBufferSize =
        0xA5 :: List.replicate 4095 0xA5 := by
      rw [List.take_append_of_le_length (by rw [List.length_replicate]; decide),
        List.take_replicate, ← List.replicate_succ]
      rfl
    have hsum : xorCheck (0xA5 :: List.replicate 4095 0xA5) = 0 := by
      rw [← List.replicate_succ]
      exact hpairs
    have hlen : 2 ≤ ((0xA5 : UInt8) :: List.replicate 4095 0xA5).length := by
      rw [List.length_cons, List.length_replicate]
      decide
    rw [htake, receivePath_cons, if_pos ⟨hlen, hsum⟩, encrypt, List.map_replicate,
      List.take_replicate]
    rfl
  have hshort : (List.replicate 4097 (0 : UInt8)).take 4095 ≠ List.replicate 4097 0 := by
    intro h
    have hlength := congrArg List.length h
    rw [List.length_take, List.length_replicate] at hlength
    exact absurd hlength (by decide)
  refine ⟨List.replicate 4097 0, List.replicate 4097 0xA5 ++ 0 :: [],
    ⟨_, 0xA5, 0, [], hsent, rfl, by decide⟩, hshort, ?_⟩
  rw [hsent]
  intro receive hreceive
  simp only [List.mem_cons, List.not_mem_nil, or_false] at hreceive
  rcases hreceive with rfl | rfl | rfl <;> exact ⟨hcut _, hcut _⟩

end FlexProxy
