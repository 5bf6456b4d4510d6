import FlexProxy.Link

/-! # Where bytes come from

A control block makes no bytes.  Whatever property `P` the data of the pushes fed
to it has, the bytes it holds for the TCP socket have it too, and so have those
written (`drawnFrom_step`).  No bound on the number of segments is needed: this does
not say in which order the bytes come.

The pushes a data path has sent carry bytes it has read (`Speaker.mem_read`).
-/
namespace FlexProxy
variable {α D B : Type} {P : α → Prop}

/-! ## The control block -/

/-- Every byte in `rcv_queue` and `rcv_buf` satisfies `P`. -/
def Drawn (P : α → Prop) (i : Incoming α) : Prop :=
  ∀ seg, seg ∈ i.rcvQueue ∨ seg ∈ i.rcvBuf → ∀ b ∈ seg.data, P b

/-- The data of a push satisfies `P`. -/
def PushDrawn (P : α → Prop) (w : WireSeg α) : Prop :=
  w.cmd.toUInt32 = IKCP_CMD_PUSH → ∀ b ∈ w.data, P b

theorem drawn_moveAvailable (l : List (IkcpSeg α)) (kcp : Ikcpcb α) (hl : kcp.rcvBuf = l)
    (h : Drawn P kcp.incoming) : Drawn P (moveAvailable l kcp).incoming := by
  induction l generalizing kcp with
  | nil => exact h
  | cons seg rest ih =>
    unfold moveAvailable
    split
    · refine ih _ rfl ?_
      intro x hx
      apply h
      show x ∈ kcp.rcvQueue ∨ x ∈ kcp.rcvBuf
      rw [hl]
      rcases hx with hx | hx
      · rcases List.mem_append.mp hx with hx | hx
        · exact Or.inl hx
        · exact Or.inr (List.mem_cons.mpr (Or.inl (List.mem_singleton.mp hx)))
      · exact Or.inr (List.mem_cons_of_mem _ hx)
    · exact h

theorem drawn_ikcpParseData (kcp : Ikcpcb α) (h : Drawn P kcp.incoming) {newseg : IkcpSeg α}
    (hnew : ∀ b ∈ newseg.data, P b) : Drawn P (ikcpParseData kcp newseg).incoming := by
  unfold ikcpParseData
  split
  · exact h
  · refine drawn_moveAvailable _ _ rfl ?_
    obtain ⟨buf, hbuf, hold, -⟩ := storeSeg_spec kcp newseg
    rw [hbuf]
    intro x hx
    rcases hx with hx | hx
    · exact h x (Or.inl hx)
    · rcases hold x hx with rfl | hx
      · exact hnew
      · exact h x (Or.inr hx)

theorem drawn_inputPush (kcp : Ikcpcb α) (h : Drawn P kcp.incoming) {w : WireSeg α}
    (hw : ∀ b ∈ w.data, P b) : Drawn P (inputPush kcp w).incoming := by
  unfold inputPush
  split
  · dsimp only
    split
    · have hpush : ∀ b ∈ (pushSeg w).data, P b := hw
      refine drawn_ikcpParseData _ ?_ hpush
      exact h
    · exact h
  · exact h

theorem drawn_inputSeg (kcp : Ikcpcb α) (acc : InputAcc) (h : Drawn P kcp.incoming) {w : WireSeg α}
    (hw : PushDrawn P w) : Drawn P (inputSeg kcp acc w).1.incoming := by
  have huna : Drawn P (inputUna kcp w).incoming := by
    rw [incoming_inputUna]
    exact h
  unfold inputSeg
  dsimp only
  split_ifs with hack hpush hask
  · rw [incoming_inputAck]
    exact huna
  · exact drawn_inputPush _ huna (hw hpush)
  · exact huna
  · exact huna

theorem drawn_inputLoop (prevUna : UInt32) (segs : List (WireSeg α)) (kcp : Ikcpcb α)
    (acc : InputAcc) (h : Drawn P kcp.incoming) (hw : ∀ w ∈ segs, PushDrawn P w) :
    Drawn P (inputLoop prevUna segs kcp acc).1.incoming := by
  induction segs generalizing kcp acc with
  | nil =>
    unfold inputLoop
    rw [(frame_inputEnd prevUna kcp acc).2.2]
    exact h
  | cons w rest ih =>
    unfold inputLoop
    split_ifs
    · exact h
    · exact h
    · exact ih _ _ (drawn_inputSeg kcp acc h (hw w (List.mem_cons_self ..)))
        (fun v hv => hw v (List.mem_cons_of_mem _ hv))

theorem drawn_inputSegs (kcp : Ikcpcb α) (segs : List (WireSeg α)) (h : Drawn P kcp.incoming)
    (hw : ∀ w ∈ segs, PushDrawn P w) : Drawn P (inputSegs kcp segs).1.incoming := by
  unfold inputSegs
  split
  · exact h
  · exact drawn_inputLoop _ segs kcp _ h hw

/-- What `ikcp_recv` hands out was in `rcv_queue`. -/
theorem drawn_ikcpRecv (kcp : Ikcpcb α) (h : Drawn P kcp.incoming) {len : Int} (hl : 0 ≤ len) :
    Drawn P (ikcpRecv kcp len).1.incoming ∧ ∀ b ∈ (ikcpRecv kcp len).2.2, P b := by
  have hqueue : ∀ x, x ∈ kcp.rcvQueue ↔
      x ∈ (takeMessage kcp.rcvQueue).1 ∨ x ∈ (takeMessage kcp.rcvQueue).2 := by
    intro x
    rw [← List.mem_append, takeMessage_append]
  rcases ikcpRecv_cases kcp hl with ⟨n, -, hr⟩ | hr
  · rw [hr]
    exact ⟨h, fun _ hb => nomatch hb⟩
  · rw [hr]
    constructor
    · rw [incoming_fastRecover]
      refine drawn_moveAvailable _ _ rfl ?_
      intro x hx
      rcases hx with hx | hx
      · exact h x (Or.inl ((hqueue x).mpr (Or.inr hx)))
      · exact h x (Or.inr hx)
    · intro b hb
      obtain ⟨x, hx, hbx⟩ := List.mem_flatMap.mp hb
      exact h x (Or.inl ((hqueue x).mpr (Or.inl hx))) b hbx

/-! ## The data path -/

/-- Every byte on its way to the TCP socket, or written to it, satisfies `P`. -/
structure DrawnFrom (P : α → Prop) (q : DataPath α D B) : Prop where
  incoming : Drawn P q.kcp.incoming
  message : ∀ b ∈ q.message, P b
  pending : ∀ b ∈ q.pending, P b
  written : ∀ b ∈ q.written, P b

theorem DrawnFrom.mono {Q : α → Prop} {q : DataPath α D B} (hPQ : ∀ b, P b → Q b)
    (h : DrawnFrom P q) : DrawnFrom Q q where
  incoming := fun seg hseg b hb => hPQ b (h.incoming seg hseg b hb)
  message := fun b hb => hPQ b (h.message b hb)
  pending := fun b hb => hPQ b (h.pending b hb)
  written := fun b hb => hPQ b (h.written b hb)

theorem Fresh.drawnFrom {q : DataPath α D B} (hq : Fresh q) : DrawnFrom P q where
  incoming := by
    rw [hq.kcp, incoming_forwarderKcp]
    rintro seg (hseg | hseg) <;> cases hseg
  message := by
    rw [hq.message]
    exact fun _ hb => nomatch hb
  pending := by
    rw [hq.pending]
    exact fun _ hb => nomatch hb
  written := by
    rw [hq.written]
    exact fun _ hb => nomatch hb

section Steps
variable {retries : Prop} {T : Transport α D B} {Carries : D → List (WireSeg α) → Prop}
  {p q q' : DataPath α D B} {arrives : D → Prop}

/-- The pushes in the datagram `d` carry bytes that satisfy `P`. -/
def CarriesDrawn (Carries : D → List (WireSeg α) → Prop) (P : α → Prop) (d : D) : Prop :=
  ∃ segs, Carries d segs ∧ ∀ w ∈ segs, PushDrawn P w

/-- **A step makes no bytes.** -/
theorem drawnFrom_step (hT : Lawful T Carries) (hq : Sender q) (h : DrawnFrom P q)
    (harr : ∀ d, arrives d → CarriesDrawn Carries P d)
    (hs : DataPath.Step T retries arrives q q') : DrawnFrom P q' := by
  cases hs with
  | tcpToKcp chunk hl =>
    refine ⟨?_, h.message, h.pending, h.written⟩
    rw [(tcpToKcp_kcp hq.config hl).2.1]
    exact h.incoming
  | feed d hd =>
    obtain ⟨segs, hcar, hw⟩ := harr d hd
    refine ⟨?_, h.message, h.pending, h.written⟩
    rw [feed_kcp hT hcar]
    exact drawn_inputSegs q.kcp segs h.incoming hw
  | update current isOpen =>
    -- a flush sends the acknowledgements off, and reads the rest
    refine ⟨?_, h.message, h.pending, h.written⟩
    have hin := incoming_ikcpUpdate listSink q.kcp [] current
    rw [← (sends_update hT hq.config current isOpen hq.sends).1] at hin
    rcases hin with he | he <;> rw [he]
    · exact h.incoming
    · exact h.incoming
  | recv hp =>
    obtain ⟨hin, hmessage⟩ := drawn_ikcpRecv q.kcp h.incoming DataPath.recvBufferSize_nonneg
    exact ⟨hin, hmessage, hmessage, h.written⟩
  | transfer n =>
    refine ⟨h.incoming, h.message, fun b hb => h.pending b (List.mem_of_mem_drop hb), fun b hb => ?_⟩
    rcases List.mem_append.mp hb with hb | hb
    · exact h.written b hb
    · exact h.pending b (List.mem_of_mem_take hb)
  | rewrite hr => exact ⟨h.incoming, h.message, h.message, h.written⟩

theorem drawnFrom_steps (hT : Lawful T Carries) (hq : Sender q) (h : DrawnFrom P q)
    (harr : ∀ d, arrives d → CarriesDrawn Carries P d)
    (hs : DataPath.Steps T retries arrives q q') : DrawnFrom P q' := by
  induction hs with
  | refl => exact h
  | tail hsteps hs ih => exact drawnFrom_step hT (sender_steps hT hq hsteps) ih harr hs

/-- The pushes a data path has sent carry bytes it has read. -/
theorem Speaker.mem_read (hp : Speaker Carries p) {d : D} (hd : d ∈ p.emitted) :
    CarriesDrawn Carries (· ∈ p.read.flatten) d := by
  obtain ⟨segs, hcar, hcopy⟩ := hp.net d hd
  refine ⟨segs, hcar, fun w hw hpush b hb => ?_⟩
  obtain ⟨k, seg, hk, -, hbody⟩ := hcopy w hw hpush
  have hdata : w.data = seg.data := congrArg Prod.snd hbody
  rw [hp.sends.read]
  refine List.mem_append_left _ (List.mem_flatMap.mpr ⟨seg, List.mem_of_getElem? hk, ?_⟩)
  rw [← hdata]
  exact hb

/-- What has been read is not forgotten. -/
theorem read_append (hs : DataPath.Step T retries arrives p q) : ∃ more, q.read = p.read ++ more := by
  cases hs with
  | tcpToKcp chunk hl => exact ⟨[chunk], rfl⟩
  | _ => exact ⟨[], (List.append_nil _).symm⟩

theorem read_append_steps (hs : DataPath.Steps T retries arrives p q) :
    ∃ more, q.read = p.read ++ more := by
  induction hs with
  | refl => exact ⟨[], (List.append_nil _).symm⟩
  | tail _ hs ih =>
    obtain ⟨more, hmore⟩ := ih
    obtain ⟨more', hmore'⟩ := read_append hs
    exact ⟨more ++ more', by rw [hmore', hmore, List.append_assoc]⟩

end Steps

end FlexProxy
