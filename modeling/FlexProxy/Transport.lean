import Mathlib.Data.List.Forall2
import FlexProxy.KcpFlush

/-! # Transports

What a forwarder does with its control block, besides queueing and reading, is to
call `ikcp_update`, which hands datagrams to the output callback, and to feed
datagrams received to `ikcp_input`.  A `Transport` is these two operations over
some type `D` of datagrams.  There are two:

* `plain`, where a datagram is the list of its segments, for data of any type;
* `udp` (`Datagram`), the bytes the program sends.

The forwarders are modelled over any transport.  What they need to know of it is
that its datagrams carry what a flush packs and that feeding one feeds the
segments it carries (`Lawful`).
-/
namespace FlexProxy
variable {α : Type}

/-- `ikcp_update` and the receive path, over datagrams of type `D` and a scratch
buffer of type `B`. -/
structure Transport (α D B : Type) where
  /-- `ikcp_update`, with the scratch buffer and the datagrams sent. -/
  update : Ikcpcb α → B → UInt32 → (Ikcpcb α × B) × List D
  /-- What is done with a datagram received. -/
  feed : Ikcpcb α → D → Ikcpcb α

/-! ## Packing -/

section Pack
variable {B C : Type} {sink : Sink α B} {sink' : Sink α C} {R : B → C → Prop}

theorem ikcpOutput_rel (hsize : ∀ b c, R b c → sink.size b = sink'.size c)
    (hout : ∀ b c, R b c → R (sink.output b) (sink'.output c)) {b : B} {c : C} (h : R b c) :
    R (ikcpOutput sink b) (ikcpOutput sink' c) := by
  unfold ikcpOutput
  rw [hsize b c h]
  split
  · exact h
  · exact hout b c h

theorem makeRoom_rel (hsize : ∀ b c, R b c → sink.size b = sink'.size c)
    (hout : ∀ b c, R b c → R (sink.output b) (sink'.output c)) (mtu : UInt32) (need : Nat)
    {b : B} {c : C} (h : R b c) : R (makeRoom sink mtu need b) (makeRoom sink' mtu need c) := by
  unfold makeRoom
  rw [hsize b c h]
  split
  · exact ikcpOutput_rel hsize hout h
  · exact h

/-- Packing the same segments into two buffers keeps them related. -/
theorem pack_rel (hsize : ∀ b c, R b c → sink.size b = sink'.size c)
    (hout : ∀ b c, R b c → R (sink.output b) (sink'.output c))
    (hput : ∀ b c seg, R b c → R (sink.put b seg) (sink'.put c seg)) (mtu : UInt32)
    (segs : List (IkcpSeg α)) {b : B} {c : C} (h : R b c) :
    R (pack sink mtu segs b) (pack sink' mtu segs c) := by
  induction segs generalizing b c with
  | nil => exact h
  | cons seg rest ih =>
    rw [pack_cons, pack_cons]
    exact ih (hput _ _ seg (makeRoom_rel hsize hout mtu _ h))

end Pack

/-- A buffer of segments: those written, and the datagrams handed out. -/
structure Packets (α : Type) where
  current : List (WireSeg α) := []
  sent : List (List (WireSeg α)) := []

/-- The size of a datagram of these segments. -/
def wireSize (segs : List (WireSeg α)) : Nat :=
  (segs.map (fun w => IKCP_OVERHEAD.toNat + w.data.length)).sum

@[simp] theorem wireSize_nil : wireSize ([] : List (WireSeg α)) = 0 := rfl

theorem wireSize_snoc (segs : List (WireSeg α)) (w : WireSeg α) :
    wireSize (segs ++ [w]) = wireSize segs + (IKCP_OVERHEAD.toNat + w.data.length) := by
  rw [wireSize, List.map_append, List.sum_append]
  rfl

def segSink : Sink α (Packets α) where
  size p := wireSize p.current
  put p seg := { p with current := p.current ++ [ikcpEncodeSeg seg] }
  output p := { current := [], sent := p.sent ++ [p.current] }
  size_output _ := rfl

/-- The datagrams one update hands out, as lists of segments. -/
def packets (kcp : Ikcpcb α) (current : UInt32) : List (List (WireSeg α)) :=
  (ikcpUpdate segSink kcp {} current).2.sent

/-- The transport whose datagrams are lists of segments. -/
def plain : Transport α (List (WireSeg α)) Unit where
  update kcp _ current := (((ikcpUpdate segSink kcp {} current).1, ()), packets kcp current)
  feed kcp segs := (inputSegs kcp segs).1

theorem packets_eq (kcp : Ikcpcb α) (current : UInt32) :
    packets kcp current =
      (ikcpOutput segSink (pack segSink kcp.mtu (updateFlushed kcp current) {})).sent :=
  congrArg Packets.sent (ikcpUpdate_snd segSink kcp {} current rfl)

/-- All segments written so far. -/
def Packets.all (p : Packets α) : List (WireSeg α) := p.sent.flatten ++ p.current

theorem all_ikcpOutput (p : Packets α) : (ikcpOutput segSink p).all = p.all := by
  unfold ikcpOutput
  split
  · rfl
  · show (p.sent ++ [p.current]).flatten ++ [] = _
    rw [List.flatten_concat, List.append_nil]
    rfl

theorem all_makeRoom (mtu : UInt32) (need : Nat) (p : Packets α) :
    (makeRoom segSink mtu need p).all = p.all := by
  unfold makeRoom
  split
  · exact all_ikcpOutput p
  · rfl

theorem all_pack (mtu : UInt32) (segs : List (IkcpSeg α)) (p : Packets α) :
    (pack segSink mtu segs p).all = p.all ++ segs.map ikcpEncodeSeg := by
  induction segs generalizing p with
  | nil => exact (List.append_nil _).symm
  | cons seg rest ih =>
    rw [pack_cons, ih, List.map_cons, List.append_cons]
    congr 1
    rw [← all_makeRoom mtu (IKCP_OVERHEAD.toNat + seg.len) p]
    exact (List.append_assoc _ _ _).symm

theorem wireSize_pos {segs : List (WireSeg α)} (h : segs ≠ []) : 0 < wireSize segs := by
  cases segs with
  | nil => exact absurd rfl h
  | cons w rest =>
    rw [wireSize, List.map_cons, List.sum_cons]
    exact Nat.lt_of_lt_of_le (Nat.lt_add_right _ (by decide)) (Nat.le_add_right _ _)

theorem current_ikcpOutput (p : Packets α) : (ikcpOutput segSink p).current = [] := by
  unfold ikcpOutput
  split
  · rename_i h
    by_contra hne
    exact absurd h (Nat.pos_iff_ne_zero.mp (wireSize_pos hne))
  · rfl

/-- The datagrams of an update are, one after the other, what the flush packs. -/
theorem flatten_packets (kcp : Ikcpcb α) (current : UInt32) :
    (packets kcp current).flatten = (updateFlushed kcp current).map ikcpEncodeSeg := by
  have h := all_ikcpOutput (pack segSink kcp.mtu (updateFlushed kcp current) {})
  rw [all_pack, Packets.all, current_ikcpOutput, List.append_nil] at h
  rw [packets_eq, h]
  rfl

/-! ## Sizes -/

/-- A segment of at most `mss` bytes, whose fragment number fits its byte. -/
def SegFits (frg : UInt32) (data : List α) : Prop := data.length ≤ 1376 ∧ frg.toNat < 128

/-- Every segment the sending side holds fits. -/
structure Outgoing.Fits (o : Outgoing α) : Prop where
  queued : ∀ seg ∈ o.sndQueue, SegFits seg.frg seg.data
  numbered : ∀ x ∈ o.sndBuf, SegFits x.frg x.data

theorem of_mem_numbered {conv sn : UInt32} {segs : List (IkcpSeg α)} {x : SegKey α}
    (h : x ∈ numbered conv sn segs) : ∃ seg ∈ segs, x.frg = seg.frg ∧ x.data = seg.data := by
  induction segs generalizing sn with
  | nil => cases h
  | cons seg rest ih =>
    rcases List.mem_cons.mp h with rfl | h
    · exact ⟨seg, List.mem_cons_self .., rfl, rfl⟩
    · obtain ⟨s, hs, hx⟩ := ih h
      exact ⟨s, List.mem_cons_of_mem _ hs, hx⟩

theorem Numbers.fits {conv : UInt32} {moved : List (IkcpSeg α)} {o o' : Outgoing α}
    (h : Numbers conv moved o o') (ho : o.Fits) : o'.Fits where
  queued := by
    intro seg hs
    apply ho.queued
    rw [h.sndQueue]
    exact List.mem_append_right _ hs
  numbered := by
    intro x hx
    rw [h.sndBuf] at hx
    rcases List.mem_append.mp hx with hx | hx
    · exact ho.numbered x hx
    · obtain ⟨seg, hs, hf, hd⟩ := of_mem_numbered hx
      rw [hf, hd]
      apply ho.queued
      rw [h.sndQueue]
      exact List.mem_append_left _ hs

theorem Releases.fits {P : UInt32 → Prop} {o o' : Outgoing α} (h : Releases P o o') (ho : o.Fits) :
    o'.Fits where
  queued := by
    rw [h.sndQueue]
    exact ho.queued
  numbered := fun x hx => ho.numbered x (h.sub.subset hx)

/-- What an update sends fits. -/
theorem len_le_of_mem_updateFlushed {kcp : Ikcpcb α} (hf : kcp.outgoing.Fits) {current : UInt32}
    {seg : IkcpSeg α} (h : seg ∈ updateFlushed kcp current) : seg.len ≤ 1376 := by
  obtain ⟨hctl | hkey, -⟩ := mem_updateFlushed h
  · rw [IkcpSeg.len, hctl.data]
    exact Nat.zero_le _
  · obtain ⟨moved, hn⟩ := numbers_ikcpUpdate listSink kcp [] current
    exact ((hn.fits hf).numbered _ hkey).1

/-- Neither the segments written nor any datagram handed out exceed `mtu`. -/
def Packets.Small (p : Packets α) : Prop :=
  wireSize p.current ≤ 1400 ∧ ∀ segs ∈ p.sent, wireSize segs ≤ 1400

theorem small_ikcpOutput {p : Packets α} (hp : p.Small) : (ikcpOutput segSink p).Small := by
  unfold ikcpOutput
  split
  · exact hp
  · refine ⟨Nat.zero_le _, fun segs hs => ?_⟩
    rcases List.mem_append.mp hs with hs | hs
    · exact hp.2 segs hs
    · rw [List.mem_singleton.mp hs]
      exact hp.1

/-- Either the next segment fits behind what is written, or it comes first. -/
theorem small_put {p : Packets α} (hp : p.Small) {seg : IkcpSeg α} (hlen : seg.len ≤ 1376) :
    (segSink.put (makeRoom segSink 1400 (IKCP_OVERHEAD.toNat + seg.len) p) seg).Small := by
  have hover : IKCP_OVERHEAD.toNat = 24 := rfl
  have hsize : ∀ q : Packets α, q.Small → wireSize q.current + (IKCP_OVERHEAD.toNat + seg.len) ≤ 1400 →
      (segSink.put q seg).Small := by
    intro q hq hroom
    refine ⟨?_, hq.2⟩
    show wireSize (_ ++ [ikcpEncodeSeg seg]) ≤ 1400
    rw [wireSize_snoc]
    exact hroom
  unfold makeRoom
  split
  · apply hsize _ (small_ikcpOutput hp)
    rw [current_ikcpOutput, wireSize_nil]
    omega
  · rename_i hroom
    exact hsize p hp (Nat.not_lt.mp hroom)

theorem small_pack (l : List (IkcpSeg α)) (hl : ∀ seg ∈ l, seg.len ≤ 1376) {p : Packets α}
    (hp : p.Small) : (pack segSink 1400 l p).Small := by
  induction l generalizing p with
  | nil => exact hp
  | cons seg rest ih =>
    rw [pack_cons]
    exact ih (fun s hs => hl s (List.mem_cons_of_mem _ hs))
      (small_put hp (hl seg (List.mem_cons_self ..)))

/-- No datagram is larger than `mtu`. -/
theorem wireSize_packets {kcp : Ikcpcb α} (hc : kcp.config = forwarderConfig)
    (hf : kcp.outgoing.Fits) {current : UInt32} {segs : List (WireSeg α)}
    (h : segs ∈ packets kcp current) : wireSize segs ≤ 1400 := by
  have hmtu : kcp.mtu = 1400 := congrArg Config.mtu hc
  have hempty : ({} : Packets α).Small := ⟨Nat.zero_le _, fun _ hs => nomatch hs⟩
  have hsmall := small_ikcpOutput
    (small_pack (updateFlushed kcp current) (fun seg hs => len_le_of_mem_updateFlushed hf hs) hempty)
  rw [packets_eq, hmtu] at h
  exact hsmall.2 segs h

/-- A datagram that is handed out is not empty. -/
theorem ne_nil_of_mem_packets {kcp : Ikcpcb α} {current : UInt32} {segs : List (WireSeg α)}
    (h : segs ∈ packets kcp current) : segs ≠ [] := by
  have hout : ∀ p : Packets α, (∀ s ∈ p.sent, s ≠ []) →
      ∀ s ∈ (ikcpOutput segSink p).sent, s ≠ [] := by
    intro p hp s hs
    unfold ikcpOutput at hs
    split at hs
    · exact hp s hs
    · rename_i hsize
      rcases List.mem_append.mp hs with hs | hs
      · exact hp s hs
      · rw [List.mem_singleton.mp hs]
        rintro hnil
        exact hsize (congrArg wireSize hnil)
  have hpack : ∀ (l : List (IkcpSeg α)) (p : Packets α), (∀ s ∈ p.sent, s ≠ []) →
      ∀ s ∈ (pack segSink kcp.mtu l p).sent, s ≠ [] := by
    intro l
    induction l with
    | nil => exact fun _ hp => hp
    | cons seg rest ih =>
      intro p hp
      rw [pack_cons]
      apply ih
      show ∀ s ∈ (makeRoom segSink kcp.mtu _ p).sent, s ≠ []
      unfold makeRoom
      split
      · exact hout p hp
      · exact hp
  rw [packets_eq] at h
  exact hout _ (hpack _ {} (fun _ hs => nomatch hs)) segs h

/-! ## Lawful transports -/

/-- The transport does with datagrams what the control block does with the segments
they carry. -/
structure Lawful {D B : Type} (T : Transport α D B) (Carries : D → List (WireSeg α) → Prop) :
    Prop where
  update : ∀ kcp b current,
    (T.update kcp b current).1.1 = (ikcpUpdate listSink kcp [] current).1
  sends : ∀ kcp b current, kcp.config = forwarderConfig → kcp.outgoing.Fits →
    List.Forall₂ Carries (T.update kcp b current).2 (packets kcp current)
  feed : ∀ kcp d segs, Carries d segs → T.feed kcp d = (inputSegs kcp segs).1
  /-- A datagram that carries nothing is some list of segments too, or ignored. -/
  feeds : ∀ kcp d, ∃ segs, T.feed kcp d = (inputSegs kcp segs).1

theorem lawful_plain : Lawful (plain (α := α)) Eq where
  update kcp _ current := ikcpUpdate_fst segSink kcp {} current listSink []
  sends kcp _ current _ _ := List.forall₂_same (l := packets kcp current).mpr (fun _ _ => rfl)
  feed := by
    rintro kcp d segs rfl
    rfl
  feeds _ d := ⟨d, rfl⟩

end FlexProxy
