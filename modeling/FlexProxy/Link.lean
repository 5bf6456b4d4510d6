import FlexProxy.Forwarder

/-! # One direction of the tunnel

Two data paths are linked when one receives what the other sends: the datagrams
that reach either of them are datagrams the other has sent, any of them, in any
order and any number of times.  The direction from `p` to `q` keeps two
invariants.

* `Link`: the bytes handed to the TCP socket of `q` and those in its `rcv_queue` are
  what `p` has sent up to some number `r`, each once and in order.
* `Secured`: `p` holds every segment it has numbered until `q` has it.

Each is preserved by every step of `p` (`link_sender`, `secured_sender`) and of
`q` (`link_receiver`).  Two data paths that receive what the other sends are
`Joined`, and stay so whichever of them takes a step (`joined_steps`).  The order
takes fewer than `2^32` segments, the acknowledgements fewer than `2^31`.
-/
namespace FlexProxy
variable {α D B : Type}

/-! ## What an update sends -/

theorem mem_of_forall₂ {X Y : Type} {R : X → Y → Prop} {l : List X} {l' : List Y}
    (h : List.Forall₂ R l l') {x : X} (hx : x ∈ l) : ∃ y ∈ l', R x y := by
  induction h with
  | nil => cases hx
  | @cons x' y' _ _ hxy _ ih =>
    rcases List.mem_cons.mp hx with rfl | hx
    · exact ⟨y', List.mem_cons_self .., hxy⟩
    · obtain ⟨y, hy, hr⟩ := ih hx
      exact ⟨y, List.mem_cons_of_mem _ hy, hr⟩

/-- A datagram of an update carries segments that the flush packs. -/
theorem carries_of_mem_update {T : Transport α D B} {Carries : D → List (WireSeg α) → Prop}
    (hT : Lawful T Carries) {kcp : Ikcpcb α} (hc : kcp.config = forwarderConfig)
    (hf : kcp.outgoing.Fits) {b : B} {current : UInt32} {d : D}
    (h : d ∈ (T.update kcp b current).2) :
    ∃ segs, Carries d segs ∧ ∀ w ∈ segs, ∃ seg ∈ updateFlushed kcp current, w = ikcpEncodeSeg seg := by
  obtain ⟨segs, hmem, hd⟩ := mem_of_forall₂ (hT.sends kcp b current hc hf) h
  refine ⟨segs, hd, fun w hw => ?_⟩
  have hflat : w ∈ (packets kcp current).flatten := List.mem_flatten.mpr ⟨segs, hmem, hw⟩
  rw [flatten_packets] at hflat
  obtain ⟨seg, hseg, he⟩ := List.mem_map.mp hflat
  exact ⟨seg, hseg, he.symm⟩

theorem toUInt8_toUInt32 {x : UInt32} (h : x.toNat < 256) : x.toUInt8.toUInt32 = x := by
  apply UInt32.toNat_inj.mp
  rw [UInt8.toNat_toUInt32, UInt32.toNat_toUInt8]
  exact Nat.mod_eq_of_lt h

/-- An encoded control segment is no push, and an acknowledgement only if it is one. -/
theorem IsControl.wire {kcp : Ikcpcb α} {seg : IkcpSeg α} (h : IsControl kcp seg) :
    (ikcpEncodeSeg seg).cmd.toUInt32 ≠ IKCP_CMD_PUSH ∧
    ((ikcpEncodeSeg seg).cmd.toUInt32 = IKCP_CMD_ACK → (seg.sn, seg.ts) ∈ kcp.acklist) := by
  show seg.cmd.toUInt8.toUInt32 ≠ _ ∧ (seg.cmd.toUInt8.toUInt32 = _ → _)
  rcases h.cmd with ⟨hc, hmem⟩ | hc | hc
  · rw [hc]
    exact ⟨by decide, fun _ => hmem⟩
  · rw [hc]
    exact ⟨by decide, fun h => absurd h (by decide)⟩
  · rw [hc]
    exact ⟨by decide, fun h => absurd h (by decide)⟩

/-! ## Invariants -/

/-- The bytes `bytes` have been handed to the kcp to tcp coroutine of `q`.  Those of
earlier messages have been written, and so has what is no longer pending of the
current one; without retries nothing has been written twice. -/
def Handed (retries : Prop) (bytes : List α) (q : DataPath α D B) : Prop :=
  ∃ before done, bytes = before ++ q.message ∧ q.message = done ++ q.pending ∧
    (before ++ done).Sublist q.written ∧ (¬ retries → q.written = before ++ done)

/-- A data path that is configured, and sends what it reads. -/
structure Sender (p : DataPath α D B) : Prop where
  config : p.kcp.config = forwarderConfig
  sends : Sends p.read.flatten p.sent p.kcp.outgoing

/-- The pushes it has sent are copies of the segments it has numbered. -/
structure Speaker (Carries : D → List (WireSeg α) → Prop) (p : DataPath α D B) : Prop
    extends Sender p where
  net : ∀ d ∈ p.emitted, ∃ segs, Carries d segs ∧
    ∀ w ∈ segs, w.cmd.toUInt32 = IKCP_CMD_PUSH → Copy p.sent w.sn (w.frg.toUInt32, w.data)

/-- What `p` sends arrives at `q` in order.  `taken` are the segments that have left
`rcv_queue` of `q`. -/
structure Link (retries : Prop) (Carries : D → List (WireSeg α) → Prop) (p q : DataPath α D B)
    (taken : List (UInt32 × List α)) (r : Nat) : Prop extends Speaker Carries p where
  receives : Receives p.sent taken r q.kcp.incoming
  handed : Handed retries (bodyData taken) q

/-- `p` holds every segment it has numbered until `q` has it. -/
structure Secured (Carries : D → List (WireSeg α) → Prop) (p q : DataPath α D B) (r : Nat) :
    Prop where
  acked : Acked p.sent r q.kcp.incoming
  net : ∀ d ∈ q.emitted, ∃ segs, Carries d segs ∧
    ∀ w ∈ segs, (∃ r₀ ≤ r, w.una = UInt32.ofNat r₀) ∧
      (w.cmd.toUInt32 = IKCP_CMD_ACK →
        ∃ k < p.sent.length, w.sn = UInt32.ofNat k ∧ Got r q.kcp.incoming k)
  held : ∀ k < p.sent.length, Got r q.kcp.incoming k ∨
    ∃ x ∈ p.kcp.outgoing.sndBuf, x.sn = UInt32.ofNat k

/-- The bytes that have been read, where they are: handed to the kcp to tcp
coroutine, in `rcv_queue`, numbered but not moved there yet, or not numbered. -/
theorem Link.read_eq {retries : Prop} {Carries : D → List (WireSeg α) → Prop}
    {p q : DataPath α D B} {taken : List (UInt32 × List α)} {r : Nat}
    (h : Link retries Carries p q taken r) :
    p.read.flatten = bodyData taken ++ (segData q.kcp.rcvQueue ++
      (segData (p.sent.drop r) ++ segData p.kcp.sndQueue)) := by
  have hq := congrArg bodyData h.receives.queue
  rw [bodyData_append, bodyData_map_body, bodyData_map_body] at hq
  have hsplit : segData p.sent = segData (p.sent.take r) ++ segData (p.sent.drop r) := by
    rw [← segData_append, List.take_append_drop]
  rw [h.sends.read, hsplit, hq, List.append_assoc, List.append_assoc]
  rfl

/-- What was written is what was read, as far as it goes, if no write was retried. -/
theorem Link.in_order {Carries : D → List (WireSeg α) → Prop} {p q : DataPath α D B}
    {taken : List (UInt32 × List α)} {r : Nat} (h : Link False Carries p q taken r) :
    q.written <+: p.read.flatten := by
  obtain ⟨before, done, hbytes, hmessage, -, hwritten⟩ := h.handed
  rw [h.read_eq, hbytes, hmessage, hwritten not_false, List.append_assoc, List.append_assoc,
    ← List.append_assoc before]
  exact List.prefix_append _ _

/-! ## Steps of the data path -/

section Effects
variable {T : Transport α D B} {Carries : D → List (WireSeg α) → Prop} {p : DataPath α D B}

theorem tcpToKcp_kcp (hc : p.kcp.config = forwarderConfig) {chunk : List α}
    (hl : chunk.length ≤ 8192) :
    (p.tcpToKcp chunk).kcp.config = p.kcp.config ∧
    (p.tcpToKcp chunk).kcp.incoming = p.kcp.incoming ∧
    (p.tcpToKcp chunk).kcp.outgoing =
      { p.kcp.outgoing with
        sndQueue := p.kcp.sndQueue ++ fragment 1376 0 (fragmentCount 1376 chunk.length) chunk
        nsndQue := p.kcp.nsndQue + UInt32.ofNat (fragmentCount 1376 chunk.length) } := by
  have h : (p.tcpToKcp chunk).kcp = _ := congrArg Prod.fst (ikcpSend_eq hc (by omega))
  rw [h]
  exact ⟨rfl, rfl, rfl⟩

/-- A chunk is queued whole, behind what was read before. -/
theorem sends_tcpToKcp (hc : p.kcp.config = forwarderConfig) {chunk : List α}
    (hl : chunk.length ≤ 8192) (h : Sends p.read.flatten p.sent p.kcp.outgoing) :
    Sends (p.tcpToKcp chunk).read.flatten p.sent (p.tcpToKcp chunk).kcp.outgoing := by
  rw [(tcpToKcp_kcp hc hl).2.2]
  have hcount : fragmentCount 1376 chunk.length ≤ 127 :=
    fragmentCount_le 1376 (by omega) (by omega) (by omega)
  refine ⟨h.sndNxt, ?_, h.sndBuf, ⟨?_, h.fits.numbered⟩, ?_, h.nsndBuf⟩
  · show (p.read ++ [chunk]).flatten = segData p.sent ++ segData (p.kcp.sndQueue ++ _)
    rw [List.flatten_concat, h.read, segData_append, segData_fragments, List.append_assoc]
    rfl
  · intro seg hs
    rcases List.mem_append.mp hs with hs | hs
    · exact h.fits.queued seg hs
    · exact ⟨len_le_of_mem_fragment hs, frg_lt_of_mem_fragment hcount hs⟩
  · show p.kcp.nsndQue + _ = UInt32.ofNat (p.kcp.sndQueue ++ _).length
    rw [List.length_append, length_fragment, UInt32.ofNat_add]
    exact congrArg (· + _) h.nsndQue

/-- A datagram releases only what it acknowledges. -/
theorem feed_kcp (hT : Lawful T Carries) {d : D} {segs : List (WireSeg α)} (hd : Carries d segs) :
    (p.feed T d).kcp = (inputSegs p.kcp segs).1 := hT.feed p.kcp d segs hd

/-- An update numbers what it takes from `snd_queue`. -/
theorem sends_update (hT : Lawful T Carries) (hc : p.kcp.config = forwarderConfig)
    (current : UInt32) (isOpen : Bool) (h : Sends p.read.flatten p.sent p.kcp.outgoing) :
    (p.update T current isOpen).kcp = (ikcpUpdate listSink p.kcp [] current).1 ∧
    Sends p.read.flatten (p.update T current isOpen).sent (p.update T current isOpen).kcp.outgoing ∧
    ∃ moved, (p.update T current isOpen).sent = p.sent ++ moved ∧
      Numbers forwarderConv moved p.kcp.outgoing (p.update T current isOpen).kcp.outgoing := by
  have hk : (p.update T current isOpen).kcp = (ikcpUpdate listSink p.kcp [] current).1 :=
    hT.update p.kcp p.buffer current
  have hconv : p.kcp.conv = forwarderConv := congrArg Config.conv hc
  obtain ⟨moved, hn⟩ := numbers_ikcpUpdate listSink p.kcp [] current
  rw [← hk, hconv] at hn
  have hq : p.kcp.sndQueue = moved ++ (p.update T current isOpen).kcp.sndQueue := hn.sndQueue
  have hsent : (p.update T current isOpen).sent = p.sent ++ moved := by
    show p.sent ++ p.kcp.sndQueue.take (p.kcp.sndQueue.length -
      (p.update T current isOpen).kcp.sndQueue.length) = _
    rw [hq, List.length_append, Nat.add_sub_cancel, List.take_left]
  refine ⟨hk, ?_, moved, hsent, hn⟩
  rw [hsent]
  exact h.numbers hn

/-- The datagrams there are after an update. -/
theorem mem_emitted_update {current : UInt32} {isOpen : Bool} {d : D}
    (h : d ∈ (p.update T current isOpen).emitted) :
    d ∈ p.emitted ∨ d ∈ (T.update p.kcp p.buffer current).2 := by
  have he : (p.update T current isOpen).emitted =
      if isOpen then p.emitted ++ (T.update p.kcp p.buffer current).2 else p.emitted := rfl
  rw [he] at h
  split at h
  · exact List.mem_append.mp h
  · exact Or.inl h

theorem sender_step {retries : Prop} {arrives : D → Prop} {p' : DataPath α D B}
    (hT : Lawful T Carries) (h : Sender p) (hs : DataPath.Step T retries arrives p p') :
    Sender p' := by
  cases hs with
  | tcpToKcp chunk hl =>
    exact ⟨(tcpToKcp_kcp h.config hl).1.trans h.config, sends_tcpToKcp h.config hl h.sends⟩
  | feed d hd =>
    obtain ⟨segs, hk⟩ := hT.feeds p.kcp d
    have hk' : (p.feed T d).kcp = (inputSegs p.kcp segs).1 := hk
    refine ⟨?_, ?_⟩ <;> rw [hk']
    · rw [config_inputSegs]
      exact h.config
    · exact h.sends.releases (releases_inputSegs p.kcp segs)
  | update current isOpen =>
    obtain ⟨hk, hsends, -⟩ := sends_update hT h.config current isOpen h.sends
    refine ⟨?_, hsends⟩
    rw [hk, config_ikcpUpdate]
    exact h.config
  | recv hp =>
    refine ⟨(config_ikcpRecv p.kcp DataPath.recvBufferSize_nonneg).trans h.config, ?_⟩
    show Sends _ _ (ikcpRecv p.kcp DataPath.recvBufferSize).1.outgoing
    rw [outgoing_ikcpRecv p.kcp DataPath.recvBufferSize_nonneg]
    exact h.sends
  | transfer n => exact ⟨h.config, h.sends⟩
  | rewrite hr => exact ⟨h.config, h.sends⟩

theorem sender_steps {retries : Prop} {arrives : D → Prop} {p' : DataPath α D B}
    (hT : Lawful T Carries) (h : Sender p) (hs : DataPath.Steps T retries arrives p p') :
    Sender p' := by
  induction hs with
  | refl => exact h
  | tail _ hs ih => exact sender_step hT ih hs

end Effects

section Link
variable {retries : Prop} {T : Transport α D B} {Carries : D → List (WireSeg α) → Prop}
  {p p' q q' : DataPath α D B}
  {taken : List (UInt32 × List α)} {r : Nat}

/-- Every push a control block sends is a copy of a segment it has numbered. -/
theorem push_copy {kcp : Ikcpcb α} {sent : List (IkcpSeg α)} {read : List α} {current : UInt32}
    (h : Sends read sent (ikcpUpdate listSink kcp [] current).1.outgoing) {seg : IkcpSeg α}
    (hseg : seg ∈ updateFlushed kcp current)
    (hpush : (ikcpEncodeSeg seg).cmd.toUInt32 = IKCP_CMD_PUSH) :
    Copy sent (ikcpEncodeSeg seg).sn ((ikcpEncodeSeg seg).frg.toUInt32, (ikcpEncodeSeg seg).data) := by
  rcases (mem_updateFlushed hseg).1 with hctl | hkey
  · exact absurd hpush hctl.wire.1
  · have hfrg : seg.frg.toNat < 128 := (h.fits.numbered _ hkey).2
    show Copy sent seg.sn (seg.frg.toUInt8.toUInt32, seg.data)
    rw [toUInt8_toUInt32 (by omega)]
    exact (h.copy hkey).1

/-- **The sender takes a step**, whatever reaches it. -/
theorem speaker_step (hT : Lawful T Carries) (h : Speaker Carries p) {arrives : D → Prop}
    (hs : DataPath.Step T retries arrives p p') : Speaker Carries p' := by
  refine ⟨sender_step hT h.toSender hs, ?_⟩
  have hsends' := (sender_step hT h.toSender hs).sends
  cases hs with
  | update current isOpen =>
    obtain ⟨hk, -, moved, hsent, -⟩ := sends_update hT h.config current isOpen h.sends
    intro d hd
    rcases mem_emitted_update hd with hd | hd
    · obtain ⟨segs, hcar, hcopy⟩ := h.net d hd
      refine ⟨segs, hcar, fun w hw hpush => ?_⟩
      rw [hsent]
      exact (hcopy w hw hpush).append moved
    · obtain ⟨segs, hcar, hseg⟩ := carries_of_mem_update hT h.config h.sends.fits hd
      refine ⟨segs, hcar, fun w hw hpush => ?_⟩
      obtain ⟨seg, hmem, rfl⟩ := hseg w hw
      rw [hk] at hsends'
      exact push_copy hsends' hmem hpush
  | _ => exact h.net

theorem speaker_steps (hT : Lawful T Carries) (h : Speaker Carries p) {arrives : D → Prop}
    (hs : DataPath.Steps T retries arrives p p') : Speaker Carries p' := by
  induction hs with
  | refl => exact h
  | tail _ hs ih => exact speaker_step hT ih hs

/-- The segments numbered are not taken back, nor changed. -/
theorem sent_append {arrives : D → Prop} (hT : Lawful T Carries) (h : Sender p)
    (hs : DataPath.Step T retries arrives p p') : ∃ more, p'.sent = p.sent ++ more := by
  cases hs with
  | update current isOpen =>
    obtain ⟨-, -, moved, hsent, -⟩ := sends_update hT h.config current isOpen h.sends
    exact ⟨moved, hsent⟩
  | _ => exact ⟨[], (List.append_nil _).symm⟩

theorem link_sender {again : Prop} (hT : Lawful T Carries) (h : Link retries Carries p q taken r)
    {arrives : D → Prop} (hs : DataPath.Step T again arrives p p') :
    Link retries Carries p' q taken r := by
  refine ⟨speaker_step hT h.toSpeaker hs, ?_, h.handed⟩
  obtain ⟨more, hsent⟩ := sent_append hT h.toSender hs
  rw [hsent]
  exact h.receives.append more

/-- What a datagram of the receiver acknowledges has arrived there. -/
theorem got_of_acknowledges (hb : p.sent.length < 2 ^ 31) (h : Link retries Carries p q taken r)
    {w : WireSeg α} (huna : ∃ r₀ ≤ r, w.una = UInt32.ofNat r₀)
    (hack : w.cmd.toUInt32 = IKCP_CMD_ACK →
      ∃ k < p.sent.length, w.sn = UInt32.ofNat k ∧ Got r q.kcp.incoming k)
    {k : Nat} (hk : k < p.sent.length) (hw : Acknowledges w (UInt32.ofNat k)) :
    Got r q.kcp.incoming k := by
  have hle := h.receives.le
  rcases hw with hbehind | ⟨hcmd, hsn⟩
  · obtain ⟨r₀, hr₀, hword⟩ := huna
    rw [hword, itimediff, SerialNumber.diff_ofNat (by omega) (by omega)] at hbehind
    exact Or.inl (by omega)
  · obtain ⟨j, hj, hword, hgot⟩ := hack hcmd
    have hjk : j = k := by
      apply (SerialNumber.ofNat_inj (by omega) (by omega)).mp
      rw [← hword, hsn]
    exact hjk ▸ hgot

/-- The sender still holds what has not arrived, if its held segments are kept. -/
theorem Secured.mono_sender (h : Secured Carries p q r) {more : List (IkcpSeg α)}
    (hsent : p'.sent = p.sent ++ more)
    (hheld : ∀ k < p'.sent.length, Got r q.kcp.incoming k ∨
      ∃ x ∈ p'.kcp.outgoing.sndBuf, x.sn = UInt32.ofNat k) : Secured Carries p' q r where
  acked := by
    intro a ha
    obtain ⟨k, hk, hword, hgot⟩ := h.acked a ha
    refine ⟨k, ?_, hword, hgot⟩
    rw [hsent, List.length_append]
    omega
  net := by
    intro d hd
    obtain ⟨segs, hcar, hsegs⟩ := h.net d hd
    refine ⟨segs, hcar, fun w hw => ⟨(hsegs w hw).1, fun hcmd => ?_⟩⟩
    obtain ⟨k, hk, hword, hgot⟩ := (hsegs w hw).2 hcmd
    refine ⟨k, ?_, hword, hgot⟩
    rw [hsent, List.length_append]
    omega
  held := hheld

/-- **The sender takes a step and holds what it has to.** -/
theorem secured_sender (hT : Lawful T Carries) (hb : p.sent.length < 2 ^ 31)
    (h : Link retries Carries p q taken r) (hsec : Secured Carries p q r)
    (hs : DataPath.Step T retries (· ∈ q.emitted) p p') : Secured Carries p' q r := by
  cases hs with
  | tcpToKcp chunk hl =>
    refine hsec.mono_sender (List.append_nil _).symm ?_
    rw [(tcpToKcp_kcp h.config hl).2.2]
    exact hsec.held
  | feed d hd =>
    obtain ⟨segs, hcar, hsegs⟩ := hsec.net d hd
    have hk : (p.feed T d).kcp = _ := feed_kcp hT hcar
    have hrel := releases_inputSegs p.kcp segs
    rw [← hk] at hrel
    refine hsec.mono_sender (List.append_nil _).symm ?_
    intro k hlt
    -- it was held in `snd_buf`: it still is, or what released it acknowledges it
    rcases hsec.held k hlt with hgot | ⟨x, hx, hsn⟩
    · exact Or.inl hgot
    · rcases hrel.kept x hx with hx' | ⟨w, hw, hacks⟩
      · exact Or.inr ⟨x, hx', hsn⟩
      · rw [hsn] at hacks
        exact Or.inl (got_of_acknowledges hb h (hsegs w hw).1 (hsegs w hw).2 hlt hacks)
  | update current isOpen =>
    obtain ⟨-, -, moved, hsent, hn⟩ := sends_update hT h.config current isOpen h.sends
    refine hsec.mono_sender hsent ?_
    intro k hlt
    rw [hn.sndBuf]
    by_cases hk : k < p.sent.length
    · exact (hsec.held k hk).imp_right
        (fun ⟨x, hx, hsn⟩ => ⟨x, List.mem_append_left _ hx, hsn⟩)
    · -- it has just been numbered
      have hidx : k - p.sent.length < moved.length := by
        rw [hsent, List.length_append] at hlt
        omega
      refine Or.inr ⟨_, List.mem_append_right _
        (mem_numbered.mpr ⟨k - p.sent.length, _, List.getElem?_eq_getElem hidx, rfl⟩), ?_⟩
      show p.kcp.sndNxt + UInt32.ofNat (k - p.sent.length) = UInt32.ofNat k
      have hnxt : p.kcp.sndNxt = UInt32.ofNat p.sent.length := h.sends.sndNxt
      rw [hnxt, ← UInt32.ofNat_add]
      congr 1
      omega
  | recv hp =>
    refine hsec.mono_sender (List.append_nil _).symm ?_
    have hout := outgoing_ikcpRecv p.kcp DataPath.recvBufferSize_nonneg
    show ∀ k < p.sent.length, _ ∨
      ∃ x ∈ (ikcpRecv p.kcp DataPath.recvBufferSize).1.outgoing.sndBuf, _
    rw [hout]
    exact hsec.held
  | transfer n => exact hsec.mono_sender (List.append_nil _).symm hsec.held
  | rewrite hr => exact hsec.mono_sender (List.append_nil _).symm hsec.held

/-! ## Steps of the receiver -/

/-- The next message is handed over when nothing is pending. -/
theorem Handed.recv {bytes : List α} (h : Handed retries bytes q) (hp : q.pending = []) :
    Handed retries (bytes ++ (ikcpRecv q.kcp DataPath.recvBufferSize).2.2) q.recv.1 := by
  obtain ⟨before, done, hbytes, hmessage, hsub, hwritten⟩ := h
  rw [hp, List.append_nil] at hmessage
  refine ⟨before ++ done, [], ?_, rfl, ?_, fun hr => ?_⟩
  · rw [hbytes, hmessage]
    rfl
  · rw [List.append_nil]
    exact hsub
  · rw [List.append_nil]
    exact hwritten hr

theorem Handed.transfer {bytes : List α} (h : Handed retries bytes q) (n : Nat) :
    Handed retries bytes (q.transfer n) := by
  obtain ⟨before, done, hbytes, hmessage, hsub, hwritten⟩ := h
  refine ⟨before, done ++ q.pending.take n, hbytes, ?_, ?_, fun hr => ?_⟩
  · show q.message = done ++ q.pending.take n ++ q.pending.drop n
    rw [List.append_assoc, List.take_append_drop]
    exact hmessage
  · rw [← List.append_assoc]
    exact hsub.append (List.Sublist.refl _)
  · show q.written ++ q.pending.take n = _
    rw [hwritten hr, List.append_assoc]

/-- A message that is written again: what had been written of it may be written
twice. -/
theorem Handed.rewrite {bytes : List α} (h : Handed retries bytes q) (hr : retries) :
    Handed retries bytes q.rewrite := by
  obtain ⟨before, done, hbytes, -, hsub, -⟩ := h
  refine ⟨before, [], hbytes, rfl, ?_, fun hnr => absurd hr hnr⟩
  rw [List.append_nil]
  exact (List.sublist_append_left before done).trans hsub

/-- The receiver goes on from `r` to `r'` and sends what is in its acknowledgements. -/
theorem Secured.mono_receiver (h : Secured Carries p q r) {r' : Nat} (hr : r ≤ r')
    (hgot : ∀ k < p.sent.length, Got r q.kcp.incoming k → Got r' q'.kcp.incoming k)
    (hacked : Acked p.sent r' q'.kcp.incoming) (hemit : q'.emitted = q.emitted) :
    Secured Carries p q' r' where
  acked := hacked
  net := by
    rw [hemit]
    intro d hd
    obtain ⟨segs, hcar, hsegs⟩ := h.net d hd
    refine ⟨segs, hcar, fun w hw => ⟨?_, fun hcmd => ?_⟩⟩
    · obtain ⟨r₀, hr₀, hword⟩ := (hsegs w hw).1
      exact ⟨r₀, Nat.le_trans hr₀ hr, hword⟩
    · obtain ⟨k, hk, hword, hg⟩ := (hsegs w hw).2 hcmd
      exact ⟨k, hk, hword, hgot k hk hg⟩
  held := fun k hk => (h.held k hk).imp_left (hgot k hk)

/-- An update of the receiver sends its acknowledgements and reports `r`. -/
theorem secured_update (hT : Lawful T Carries) (h : Link retries Carries p q taken r)
    (hrev : Sender q)
    (hsec : Secured Carries p q r) (current : UInt32) (isOpen : Bool)
    (hin : (q.update T current isOpen).kcp.incoming = q.kcp.incoming ∨
      (q.update T current isOpen).kcp.incoming = { q.kcp.incoming with acklist := [] }) :
    Secured Carries p (q.update T current isOpen) r := by
  obtain ⟨hk, hsends, -⟩ := sends_update hT hrev.config current isOpen hrev.sends
  have hgot : ∀ k, Got r q.kcp.incoming k → Got r (q.update T current isOpen).kcp.incoming k := by
    intro k hg
    rcases hin with he | he
    · rw [he]
      exact hg
    · rw [he]
      exact hg
  refine ⟨?_, ?_, fun k hk' => (hsec.held k hk').imp_left (hgot k)⟩
  · rcases hin with he | he
    · rw [he]
      exact hsec.acked
    · rw [he]
      exact fun _ ha => nomatch ha
  · intro d hd
    rcases mem_emitted_update hd with hd | hd
    · obtain ⟨segs, hcar, hsegs⟩ := hsec.net d hd
      refine ⟨segs, hcar, fun w hw => ⟨(hsegs w hw).1, fun hcmd => ?_⟩⟩
      obtain ⟨k, hlt, hword, hg⟩ := (hsegs w hw).2 hcmd
      exact ⟨k, hlt, hword, hgot k hg⟩
    · -- a datagram of this flush: its acknowledgements are those of `acklist`
      obtain ⟨segs, hcar, hseg⟩ := carries_of_mem_update hT hrev.config hrev.sends.fits hd
      refine ⟨segs, hcar, fun w hw => ?_⟩
      obtain ⟨seg, hmem, rfl⟩ := hseg w hw
      obtain ⟨hwhat, huna⟩ := mem_updateFlushed hmem
      refine ⟨⟨r, Nat.le_refl r, huna.trans h.receives.rcvNxt⟩, fun hcmd => ?_⟩
      rcases hwhat with hctl | hkey
      · obtain ⟨k, hlt, hword, hg⟩ := hsec.acked _ (hctl.wire.2 hcmd)
        exact ⟨k, hlt, hword, hgot k hg⟩
      · -- a data segment is no acknowledgement
        rw [← hk] at hkey
        have hpush : seg.cmd = IKCP_CMD_PUSH := (hsends.copy hkey).2.2
        have hcmd' : seg.cmd.toUInt8.toUInt32 = IKCP_CMD_ACK := hcmd
        rw [hpush] at hcmd'
        exact absurd hcmd' (by decide)

/-- **The receiver takes a step.** -/
theorem link_receiver (hT : Lawful T Carries) (hb : p.sent.length < 2 ^ 32)
    (h : Link retries Carries p q taken r)
    (hrev : Sender q)
    (hs : DataPath.Step T retries (· ∈ p.emitted) q q') :
    ∃ taken' r', Link retries Carries p q' taken' r' ∧
      (p.sent.length < 2 ^ 31 → Secured Carries p q r → Secured Carries p q' r') := by
  cases hs with
  | tcpToKcp chunk hl =>
    have hin := (tcpToKcp_kcp hrev.config hl).2.1
    refine ⟨taken, r, ⟨h.toSpeaker, ?_, h.handed⟩, fun _ hsec => ?_⟩
    · rw [hin]
      exact h.receives
    · refine hsec.mono_receiver (Nat.le_refl r) ?_ ?_ rfl <;> rw [hin]
      · exact fun _ _ hg => hg
      · exact hsec.acked
  | feed d hd =>
    obtain ⟨segs, hcar, hcopy⟩ := h.net d hd
    have hk : (q.feed T d).kcp = _ := feed_kcp hT hcar
    obtain ⟨r', hr'⟩ := progress_inputSegs hb q.kcp segs h.receives hcopy
    rw [← hk] at hr'
    exact ⟨taken, r', ⟨h.toSpeaker, hr'.receives, h.handed⟩, fun hb31 hsec =>
      hsec.mono_receiver hr'.le hr'.got (hr'.acked hb31 hsec.acked) rfl⟩
  | update current isOpen =>
    have hin := incoming_ikcpUpdate listSink q.kcp [] current
    rw [← (sends_update hT hrev.config current isOpen hrev.sends).1] at hin
    refine ⟨taken, r, ⟨h.toSpeaker, ?_, h.handed⟩, fun _ hsec =>
      secured_update hT h hrev hsec current isOpen hin⟩
    have hrec := h.receives
    rcases hin with he | he
    · rw [he]
      exact hrec
    · rw [he]
      exact ⟨hrec.le, hrec.rcvNxt, hrec.queue, hrec.rcvBuf⟩
  | recv hp =>
    obtain ⟨message, r', hle, hdata, hrec, hgot, hacked⟩ :=
      receives_ikcpRecv hb h.receives DataPath.recvBufferSize_nonneg
    refine ⟨taken ++ message, r', ⟨h.toSpeaker, hrec, ?_⟩, fun hb31 hsec =>
      hsec.mono_receiver hle hgot (hacked hb31 hsec.acked) rfl⟩
    rw [bodyData_append, ← hdata]
    exact h.handed.recv hp
  | transfer n =>
    exact ⟨taken, r, ⟨h.toSpeaker, h.receives, h.handed.transfer n⟩, fun _ hsec =>
      hsec.mono_receiver (Nat.le_refl r) (fun _ _ hg => hg) hsec.acked rfl⟩
  | rewrite hr =>
    exact ⟨taken, r, ⟨h.toSpeaker, h.receives, h.handed.rewrite hr⟩, fun _ hsec =>
      hsec.mono_receiver (Nat.le_refl r) (fun _ _ hg => hg) hsec.acked rfl⟩

/-! ## Both directions -/

/-- Two data paths each of which receives what the other sends. -/
structure Joined (retries : Prop) (Carries : D → List (WireSeg α) → Prop) (p q : DataPath α D B) :
    Prop where
  up : ∃ taken r, Link retries Carries p q taken r ∧ (p.sent.length < 2 ^ 31 → Secured Carries p q r)
  down : ∃ taken r, Link retries Carries q p taken r ∧ (q.sent.length < 2 ^ 31 → Secured Carries q p r)

theorem Joined.symm (h : Joined retries Carries p q) : Joined retries Carries q p := ⟨h.down, h.up⟩

/-- No step takes back a segment. -/
theorem sent_length_le {arrives : D → Prop} (hs : DataPath.Step T retries arrives p p') :
    p.sent.length ≤ p'.sent.length := by
  cases hs with
  | update current isOpen =>
    show _ ≤ (p.sent ++ _).length
    rw [List.length_append]
    exact Nat.le_add_right _ _
  | _ => exact Nat.le_refl _

theorem sent_length_le_steps {arrives : D → Prop} (hs : DataPath.Steps T retries arrives p p') :
    p.sent.length ≤ p'.sent.length := by
  induction hs with
  | refl => exact Nat.le_refl _
  | tail _ h ih => exact Nat.le_trans ih (sent_length_le h)

/-- **One of the two takes a step**, receiving what the other has sent. -/
theorem joined_step (hT : Lawful T Carries) (hb : q.sent.length < 2 ^ 32) (h : Joined retries Carries p q)
    (hs : DataPath.Step T retries (· ∈ q.emitted) p p') : Joined retries Carries p' q := by
  obtain ⟨taken, r, hup, hsec⟩ := h.up
  obtain ⟨taken', r', hdown, hsec'⟩ := h.down
  refine ⟨⟨taken, r, ?_, fun hb31 => ?_⟩, ?_⟩
  · exact link_sender hT hup hs
  · have hlt : p.sent.length < 2 ^ 31 := Nat.lt_of_le_of_lt (sent_length_le hs) hb31
    exact secured_sender hT hlt hup (hsec hlt) hs
  · obtain ⟨taken'', r'', hlink, hkeep⟩ := link_receiver hT hb hdown hup.toSender hs
    exact ⟨taken'', r'', hlink, fun hb31 => hkeep hb31 (hsec' hb31)⟩

theorem joined_steps (hT : Lawful T Carries) (hb : q.sent.length < 2 ^ 32) (h : Joined retries Carries p q)
    (hs : DataPath.Steps T retries (· ∈ q.emitted) p p') : Joined retries Carries p' q := by
  induction hs with
  | refl => exact h
  | tail _ hs ih => exact joined_step hT hb ih hs

/-! ## Fresh data paths -/

/-- A data path that has done nothing yet. -/
structure Fresh (p : DataPath α D B) : Prop where
  kcp : p.kcp = forwarderKcp
  message : p.message = []
  pending : p.pending = []
  read : p.read = []
  written : p.written = []
  sent : p.sent = []
  emitted : p.emitted = []

theorem Fresh.sender (hp : Fresh p) : Sender p where
  config := by
    rw [hp.kcp]
    exact config_forwarderKcp
  sends := by
    rw [hp.kcp, hp.read, hp.sent, outgoing_forwarderKcp]
    exact sends_fresh

theorem Fresh.speaker (hp : Fresh p) : Speaker Carries p where
  toSender := hp.sender
  net := by
    rw [hp.emitted]
    exact fun _ h => nomatch h

/-- A fresh data path may join one that has been sending. -/
theorem Fresh.link (hq : Fresh q) (hp : Speaker Carries p) : Link retries Carries p q [] 0 where
  toSpeaker := hp
  receives := by
    rw [hq.kcp, incoming_forwarderKcp]
    exact ⟨Nat.zero_le _, rfl, rfl, fun _ h => nomatch h⟩
  handed := by
    refine ⟨[], [], ?_, ?_, List.nil_sublist _, fun _ => hq.written⟩
    · rw [hq.message]
      rfl
    · rw [hq.message, hq.pending]
      rfl

theorem Fresh.secured (hp : Fresh p) (hq : Fresh q) : Secured Carries p q 0 where
  acked := by
    rw [hq.kcp, incoming_forwarderKcp]
    exact fun _ h => nomatch h
  net := by
    rw [hq.emitted]
    exact fun _ h => nomatch h
  held := by
    rw [hp.sent]
    exact fun _ h => absurd h (Nat.not_lt_zero _)

theorem Fresh.joined (hp : Fresh p) (hq : Fresh q) : Joined retries Carries p q where
  up := ⟨[], 0, hq.link hp.speaker, fun _ => hp.secured hq⟩
  down := ⟨[], 0, hp.link hq.speaker, fun _ => hq.secured hp⟩

theorem fresh_started (role : Role) (buffer : B) (alive : Bool) :
    Fresh (Forwarder.started (α := α) (D := D) role buffer alive).toDataPath :=
  ⟨rfl, rfl, rfl, rfl, rfl, rfl, rfl⟩

end Link

end FlexProxy
