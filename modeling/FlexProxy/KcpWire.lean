import FlexProxy.KcpFlush

/-! # Segments as bytes

`ikcp_encode_seg` writes a header of 24 bytes, little-endian, and the data follows
it; `ikcp_input` reads headers and data back until fewer than 24 bytes are left.
This module has both over lists of bytes and connects them:

* `decodeSeg_bytes`: the header that is read is the header that was written;
* `ikcpInput_bytes`: on the bytes of whole segments, the loop over bytes is the
  loop over segments (`inputSegs`);
* `ikcpInput_exists`: on any bytes, it is the loop over some segments.
-/
namespace FlexProxy

/-! ## Encoding -/

/-- `ikcp_encode8u` -/
def ikcpEncode8u (c : UInt8) : List UInt8 := [c]

/-- `ikcp_encode16u` -/
def ikcpEncode16u (w : UInt16) : List UInt8 := [w.toUInt8, (w >>> 8).toUInt8]

/-- `ikcp_encode32u` -/
def ikcpEncode32u (l : UInt32) : List UInt8 :=
  [l.toUInt8, (l >>> 8).toUInt8, (l >>> 16).toUInt8, (l >>> 24).toUInt8]

/-- The bytes of a segment: what `ikcp_encode_seg` writes, and the data. -/
def WireSeg.bytes (w : WireSeg UInt8) : List UInt8 :=
  ikcpEncode32u w.conv ++ (ikcpEncode8u w.cmd ++ (ikcpEncode8u w.frg ++ (ikcpEncode16u w.wnd ++
    (ikcpEncode32u w.ts ++ (ikcpEncode32u w.sn ++ (ikcpEncode32u w.una ++
      (ikcpEncode32u (UInt32.ofNat w.data.length) ++ w.data)))))))

@[simp] theorem WireSeg.length_bytes (w : WireSeg UInt8) :
    w.bytes.length = IKCP_OVERHEAD.toNat + w.data.length := by
  simp only [WireSeg.bytes, ikcpEncode32u, ikcpEncode16u, ikcpEncode8u, List.length_append,
    List.length_cons, List.length_nil, IKCP_OVERHEAD, UInt32.reduceToNat]
  omega

/-! ## Decoding -/

/-- `ikcp_decode8u`: the byte at `p`, and `p` moved on. -/
def ikcpDecode8u (p : List UInt8) : UInt8 × List UInt8 := (p.getD 0 0, p.drop 1)

/-- `ikcp_decode16u` -/
def ikcpDecode16u (p : List UInt8) : UInt16 × List UInt8 :=
  ((p.getD 0 0).toUInt16 + ((p.getD 1 0).toUInt16 <<< 8), p.drop 2)

/-- `ikcp_decode32u` -/
def ikcpDecode32u (p : List UInt8) : UInt32 × List UInt8 :=
  let l := (p.getD 3 0).toUInt32
  let l := (p.getD 2 0).toUInt32 + (l <<< 8)
  let l := (p.getD 1 0).toUInt32 + (l <<< 8)
  ((p.getD 0 0).toUInt32 + (l <<< 8), p.drop 4)

theorem recombine16 (w : UInt16) : w.toUInt8.toUInt16 + ((w >>> 8).toUInt8.toUInt16 <<< 8) = w := by
  apply UInt16.toNat_inj.mp
  have hw := w.toNat_lt
  simp only [UInt16.toNat_add, UInt8.toNat_toUInt16, UInt16.toNat_toUInt8, UInt16.toNat_shiftRight,
    UInt16.toNat_shiftLeft, UInt16.reduceToNat, Nat.shiftRight_eq_div_pow, Nat.shiftLeft_eq]
  simp only [Nat.reduceMod, Nat.reducePow] at *
  omega

/-- A word is its lowest byte and the rest. -/
theorem low_add_rest (l : UInt32) : l.toUInt8.toUInt32 + ((l >>> 8) <<< 8) = l := by
  apply UInt32.toNat_inj.mp
  have hl := l.toNat_lt
  simp only [UInt32.toNat_add, UInt8.toNat_toUInt32, UInt32.toNat_toUInt8, UInt32.toNat_shiftRight,
    UInt32.toNat_shiftLeft, UInt32.reduceToNat, Nat.shiftRight_eq_div_pow, Nat.shiftLeft_eq]
  simp only [Nat.reduceMod, Nat.reducePow] at *
  omega

theorem shiftRight_byte (l : UInt32) :
    l >>> 16 = (l >>> 8) >>> 8 ∧ l >>> 24 = (l >>> 16) >>> 8 ∧
      (l >>> 24).toUInt8.toUInt32 = l >>> 24 := by
  have hl := l.toNat_lt
  refine ⟨?_, ?_, ?_⟩ <;> apply UInt32.toNat_inj.mp
  · simp only [UInt32.toNat_shiftRight, UInt32.reduceToNat, Nat.shiftRight_eq_div_pow]
    simp only [Nat.reduceMod, Nat.reducePow]
    omega
  · simp only [UInt32.toNat_shiftRight, UInt32.reduceToNat, Nat.shiftRight_eq_div_pow]
    simp only [Nat.reduceMod, Nat.reducePow]
    omega
  · simp only [UInt8.toNat_toUInt32, UInt32.toNat_toUInt8, UInt32.toNat_shiftRight,
      UInt32.reduceToNat, Nat.shiftRight_eq_div_pow]
    simp only [Nat.reduceMod, Nat.reducePow] at *
    omega

theorem recombine32 (l : UInt32) :
    l.toUInt8.toUInt32 + (((l >>> 8).toUInt8.toUInt32 + (((l >>> 16).toUInt8.toUInt32 +
      ((l >>> 24).toUInt8.toUInt32 <<< 8)) <<< 8)) <<< 8) = l := by
  obtain ⟨h16, h24, htop⟩ := shiftRight_byte l
  rw [htop, h24, low_add_rest (l >>> 16), h16, low_add_rest (l >>> 8), low_add_rest l]

@[simp] theorem ikcpDecode8u_encode (c : UInt8) (p : List UInt8) :
    ikcpDecode8u (ikcpEncode8u c ++ p) = (c, p) := rfl

@[simp] theorem ikcpDecode16u_encode (w : UInt16) (p : List UInt8) :
    ikcpDecode16u (ikcpEncode16u w ++ p) = (w, p) := by
  show (w.toUInt8.toUInt16 + ((w >>> 8).toUInt8.toUInt16 <<< 8), p) = (w, p)
  rw [recombine16]

@[simp] theorem ikcpDecode32u_encode (l : UInt32) (p : List UInt8) :
    ikcpDecode32u (ikcpEncode32u l ++ p) = (l, p) := by
  simp only [ikcpDecode32u, ikcpEncode32u, List.cons_append, List.nil_append, List.getD_cons_zero,
    List.getD_cons_succ, List.drop_succ_cons, List.drop_zero, recombine32]

/-- The locals `ikcp_input` decodes from a header, and where the data starts. -/
structure Header where
  conv : UInt32
  cmd : UInt8
  frg : UInt8
  wnd : UInt16
  ts : UInt32
  sn : UInt32
  una : UInt32
  len : UInt32
  data : List UInt8

/-- The decoding part of the loop of `ikcp_input`. -/
def decodeHeader (data : List UInt8) : Header :=
  let conv := ikcpDecode32u data
  let cmd := ikcpDecode8u conv.2
  let frg := ikcpDecode8u cmd.2
  let wnd := ikcpDecode16u frg.2
  let ts := ikcpDecode32u wnd.2
  let sn := ikcpDecode32u ts.2
  let una := ikcpDecode32u sn.2
  let len := ikcpDecode32u una.2
  ⟨conv.1, cmd.1, frg.1, wnd.1, ts.1, sn.1, una.1, len.1, len.2⟩

/-- The segment a header announces: its first `len` bytes of data. -/
def Header.seg (h : Header) : WireSeg UInt8 :=
  ⟨h.conv, h.cmd, h.frg, h.wnd, h.ts, h.sn, h.una, h.data.take h.len.toNat⟩

theorem decodeHeader_bytes (w : WireSeg UInt8) (p : List UInt8) :
    decodeHeader (w.bytes ++ p) =
      ⟨w.conv, w.cmd, w.frg, w.wnd, w.ts, w.sn, w.una, UInt32.ofNat w.data.length, w.data ++ p⟩ := by
  simp only [decodeHeader, WireSeg.bytes, List.append_assoc, ikcpDecode32u_encode,
    ikcpDecode8u_encode, ikcpDecode16u_encode]

theorem length_decodeHeader (data : List UInt8) :
    (decodeHeader data).data.length = data.length - IKCP_OVERHEAD.toNat := by
  simp only [decodeHeader, ikcpDecode32u, ikcpDecode16u, ikcpDecode8u, List.length_drop,
    IKCP_OVERHEAD, UInt32.reduceToNat]
  omega

variable {kcp : Ikcpcb UInt8} {data : List UInt8} {w : WireSeg UInt8}

/-- The loop of `ikcp_input`, with the return value. -/
def inputBytes (prevUna : UInt32) (data : List UInt8) (kcp : Ikcpcb UInt8) (acc : InputAcc) :
    Ikcpcb UInt8 × Int :=
  if data.length < IKCP_OVERHEAD.toNat then (inputEnd prevUna kcp acc, 0)
  else
    let h := decodeHeader data
    if h.conv ≠ kcp.conv then (kcp, -1)
    else if h.data.length < h.len.toNat ∨ h.len.toInt32 < 0 then (kcp, -2)
    else if !knownCmd h.cmd then (kcp, -3)
    else
      let r := inputSeg kcp acc h.seg
      inputBytes prevUna (h.data.drop h.len.toNat) r.1 r.2
termination_by data.length
decreasing_by
  rename_i hlen _ _ _
  rw [List.length_drop, length_decodeHeader]
  simp only [IKCP_OVERHEAD, UInt32.reduceToNat] at hlen ⊢
  omega

/-- `ikcp_input` -/
def ikcpInput (kcp : Ikcpcb UInt8) (data : List UInt8) : Ikcpcb UInt8 × Int :=
  if data.length < IKCP_OVERHEAD.toNat then (kcp, -1)
  else inputBytes kcp.sndUna data kcp ⟨false, 0, 0⟩

/-! ## Bytes of whole segments -/

/-- The header of a segment of fewer than `2^31` bytes announces that segment. -/
theorem decodeSeg_bytes (hw : w.data.length < 2 ^ 31) (p : List UInt8) :
    (decodeHeader (w.bytes ++ p)).seg = w ∧
    (decodeHeader (w.bytes ++ p)).len.toNat = w.data.length ∧
    ¬ (decodeHeader (w.bytes ++ p)).len.toInt32 < 0 := by
  rw [decodeHeader_bytes]
  have hlen : (UInt32.ofNat w.data.length).toNat = w.data.length :=
    UInt32.toNat_ofNat_of_lt' (by simp only [UInt32.size]; omega)
  refine ⟨?_, hlen, ?_⟩
  · simp only [Header.seg, hlen, List.take_left]
  · rw [Int32.lt_iff_toInt_lt]
    have h0 : (UInt32.ofNat w.data.length).toInt32.toInt = (w.data.length : Int).bmod (2 ^ 32) := by
      show (BitVec.ofNat 32 w.data.length).toInt = _
      exact BitVec.toInt_ofNat' ..
    rw [h0, Int.bmod_eq_of_le (by omega) (by omega)]
    show ¬ (w.data.length : Int) < 0
    omega

theorem inputBytes_short (prevUna : UInt32) (acc : InputAcc)
    (h : data.length < IKCP_OVERHEAD.toNat) :
    inputBytes prevUna data kcp acc = (inputEnd prevUna kcp acc, 0) := by
  rw [inputBytes, if_pos h]

/-- One turn of the loop over bytes, in terms of the header at its head. -/
theorem inputBytes_turn (prevUna : UInt32) (acc : InputAcc) {h : Header}
    (hsize : ¬ data.length < IKCP_OVERHEAD.toNat) (hh : decodeHeader data = h) :
    inputBytes prevUna data kcp acc =
      if h.conv ≠ kcp.conv then (kcp, -1)
      else if h.data.length < h.len.toNat ∨ h.len.toInt32 < 0 then (kcp, -2)
      else if !knownCmd h.cmd then (kcp, -3)
      else inputBytes prevUna (h.data.drop h.len.toNat) (inputSeg kcp acc h.seg).1
        (inputSeg kcp acc h.seg).2 := by
  subst hh
  rw [inputBytes, if_neg hsize]

/-- One turn of the loop over bytes, when a whole segment comes first. -/
theorem inputBytes_bytes (prevUna : UInt32) (acc : InputAcc) (hw : w.data.length < 2 ^ 31)
    (p : List UInt8) :
    inputBytes prevUna (w.bytes ++ p) kcp acc =
      if w.conv ≠ kcp.conv then (kcp, -1)
      else if !knownCmd w.cmd then (kcp, -3)
      else inputBytes prevUna p (inputSeg kcp acc w).1 (inputSeg kcp acc w).2 := by
  obtain ⟨hseg, hlen, hneg⟩ := decodeSeg_bytes hw p
  rw [decodeHeader_bytes] at hseg hlen hneg
  have hsize : ¬ (w.bytes ++ p).length < IKCP_OVERHEAD.toNat := by
    rw [List.length_append, WireSeg.length_bytes]
    omega
  have hroom : ¬ ((w.data ++ p).length < w.data.length ∨
      (UInt32.ofNat w.data.length).toInt32 < 0) := by
    rintro (h | h)
    · rw [List.length_append] at h
      omega
    · exact hneg h
  rw [inputBytes_turn prevUna acc hsize (decodeHeader_bytes w p), hseg]
  dsimp only at hlen ⊢
  rw [hlen, if_neg hroom, List.drop_left]

theorem inputBytes_flatMap (prevUna : UInt32) (segs : List (WireSeg UInt8))
    (hs : ∀ w ∈ segs, w.data.length < 2 ^ 31) (kcp : Ikcpcb UInt8) (acc : InputAcc) :
    inputBytes prevUna (segs.flatMap WireSeg.bytes) kcp acc = inputLoop prevUna segs kcp acc := by
  induction segs generalizing kcp acc with
  | nil => exact inputBytes_short prevUna acc (by decide)
  | cons w rest ih =>
    rw [List.flatMap_cons, inputBytes_bytes prevUna acc (hs w (List.mem_cons_self ..))]
    rw [ih (fun v hv => hs v (List.mem_cons_of_mem _ hv))]
    rfl

/-- **On the bytes of whole segments `ikcp_input` does what it does on the
segments.** -/
theorem ikcpInput_bytes (kcp : Ikcpcb UInt8) (segs : List (WireSeg UInt8))
    (hs : ∀ w ∈ segs, w.data.length < 2 ^ 31) :
    ikcpInput kcp (segs.flatMap WireSeg.bytes) = inputSegs kcp segs := by
  cases segs with
  | nil => rfl
  | cons w rest =>
    have hsize : ¬ ((w :: rest).flatMap WireSeg.bytes).length < IKCP_OVERHEAD.toNat := by
      rw [List.flatMap_cons, List.length_append, WireSeg.length_bytes]
      omega
    rw [ikcpInput, if_neg hsize]
    exact inputBytes_flatMap kcp.sndUna (w :: rest) hs kcp _

/-! ## Arbitrary bytes -/

/-- A segment of another conversation ends the loop. -/
def alien (conv : UInt32) : WireSeg UInt8 := ⟨conv + 1, 0, 0, 0, 0, 0, 0, []⟩

theorem inputLoop_alien (prevUna : UInt32) (kcp : Ikcpcb UInt8) (acc : InputAcc) :
    (inputLoop prevUna [alien kcp.conv] kcp acc).1 = kcp := by
  have hne : kcp.conv + 1 ≠ kcp.conv := by
    intro h
    have h1 : (1 : UInt32) = 0 := by grind
    exact absurd h1 (by decide)
  show (if kcp.conv + 1 ≠ kcp.conv then (kcp, -1) else _).1 = kcp
  rw [if_pos hne]

theorem inputBytes_exists (prevUna : UInt32) (data : List UInt8) (kcp : Ikcpcb UInt8)
    (acc : InputAcc) :
    ∃ segs, (inputBytes prevUna data kcp acc).1 = (inputLoop prevUna segs kcp acc).1 := by
  induction data, kcp, acc using inputBytes.induct with
  | case1 data kcp acc hlen =>
    refine ⟨[], ?_⟩
    rw [inputBytes_short prevUna acc hlen]
    rfl
  | case2 data kcp acc hlen h hconv =>
    refine ⟨[alien kcp.conv], ?_⟩
    rw [inputLoop_alien, inputBytes_turn prevUna acc hlen rfl, if_pos hconv]
  | case3 data kcp acc hlen h hconv hroom =>
    refine ⟨[alien kcp.conv], ?_⟩
    rw [inputLoop_alien, inputBytes_turn prevUna acc hlen rfl, if_neg hconv, if_pos hroom]
  | case4 data kcp acc hlen h hconv hroom hcmd =>
    refine ⟨[alien kcp.conv], ?_⟩
    rw [inputLoop_alien, inputBytes_turn prevUna acc hlen rfl, if_neg hconv, if_neg hroom,
      if_pos hcmd]
  | case5 data kcp acc hlen h hconv hroom hcmd r ih =>
    obtain ⟨segs, hsegs⟩ := ih
    refine ⟨h.seg :: segs, ?_⟩
    have hturn : inputLoop prevUna (h.seg :: segs) kcp acc = inputLoop prevUna segs r.1 r.2 := by
      show (if h.conv ≠ kcp.conv then _ else if !knownCmd h.cmd then _ else _) = _
      rw [if_neg hconv, if_neg hcmd]
    rw [hturn, ← hsegs, inputBytes_turn prevUna acc hlen rfl, if_neg hconv, if_neg hroom,
      if_neg hcmd]

/-- **Whatever the bytes, `ikcp_input` does to the control block what it does on some
list of segments.** -/
theorem ikcpInput_exists (kcp : Ikcpcb UInt8) (data : List UInt8) :
    ∃ segs, (ikcpInput kcp data).1 = (inputSegs kcp segs).1 := by
  by_cases hlen : data.length < IKCP_OVERHEAD.toNat
  · refine ⟨[], ?_⟩
    rw [ikcpInput, if_pos hlen]
    rfl
  · obtain ⟨segs, hsegs⟩ := inputBytes_exists kcp.sndUna data kcp ⟨false, 0, 0⟩
    rw [ikcpInput, if_neg hlen, hsegs]
    by_cases he : segs = []
    · subst he
      refine ⟨[], ?_⟩
      show (if itimediff kcp.sndUna kcp.sndUna > 0 then growCwnd kcp else kcp) = kcp
      rw [itimediff, SerialNumber.diff_self, if_neg (by decide)]
    · refine ⟨segs, ?_⟩
      rw [inputSegs, if_neg (by simp [he])]

end FlexProxy
