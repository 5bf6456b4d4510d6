import FlexProxy.Transport

/-! # What a control block receives of what another one sent

Let `sent` be the segments one control block has numbered so far, in order, so
that the segment numbered `k` is `sent[k]`.  The numbers are 32-bit words, and a
segment met again, in a datagram or in `rcv_buf`, is a **copy** (`Copy`): it has
the word of some `k < sent.length` and the body of `sent[k]`.

A control block **receives** `sent` up to `r` (`Receives`): `rcv_nxt` is the word
of `r`, and what was taken from `rcv_queue`, followed by what is in it, is the
first `r` segments, each once and in order.  Reading and feeding copies keep that
up (`receives_ikcpRecv`, `progress_inputSegs`).  All it takes is that two words
below `2^32` are equal only if the numbers are: a segment is moved to `rcv_queue`
when its word *equals* `rcv_nxt`, never because it compares as smaller.

Acknowledgements do depend on comparison.  With fewer than `2^31` segments,
whatever is acknowledged was received (`Acked`).
-/
namespace FlexProxy
variable {α : Type}

/-- What a segment means to its receiver. -/
def IkcpSeg.body (seg : IkcpSeg α) : UInt32 × List α := (seg.frg, seg.data)

/-- The word `sn` and the body `b` are those of the `k`-th segment sent, for some
`k`. -/
def Copy (sent : List (IkcpSeg α)) (sn : UInt32) (b : UInt32 × List α) : Prop :=
  ∃ k seg, sent[k]? = some seg ∧ sn = UInt32.ofNat k ∧ b = seg.body

theorem Copy.append {sent : List (IkcpSeg α)} {sn : UInt32} {b : UInt32 × List α}
    (h : Copy sent sn b) (more : List (IkcpSeg α)) : Copy (sent ++ more) sn b := by
  obtain ⟨k, seg, hk, hsn, hb⟩ := h
  refine ⟨k, seg, ?_, hsn, hb⟩
  rw [List.getElem?_append_left (List.getElem?_eq_some_iff.mp hk).1, hk]

/-- The control block has received `sent` up to `r`, and `taken` of it has left
`rcv_queue`. -/
structure Receives (sent : List (IkcpSeg α)) (taken : List (UInt32 × List α)) (r : Nat)
    (i : Incoming α) : Prop where
  le : r ≤ sent.length
  rcvNxt : i.rcvNxt = UInt32.ofNat r
  queue : (sent.take r).map IkcpSeg.body = taken ++ i.rcvQueue.map IkcpSeg.body
  rcvBuf : ∀ seg ∈ i.rcvBuf, Copy sent seg.sn seg.body

/-- Segment number `k` has arrived. -/
def Got (r : Nat) (i : Incoming α) (k : Nat) : Prop :=
  k < r ∨ ∃ seg ∈ i.rcvBuf, seg.sn = UInt32.ofNat k

/-- Every acknowledgement waiting to be sent is for a segment that has arrived. -/
def Acked (sent : List (IkcpSeg α)) (r : Nat) (i : Incoming α) : Prop :=
  ∀ a ∈ i.acklist, ∃ k < sent.length, a.1 = UInt32.ofNat k ∧ Got r i k

/-- From `r`, `i` to `r'`, `i'` nothing that had arrived is lost, and every
acknowledgement is covered. -/
structure Progress (sent : List (IkcpSeg α)) (taken : List (UInt32 × List α)) (r : Nat)
    (i : Incoming α) (r' : Nat) (i' : Incoming α) : Prop where
  receives : Receives sent taken r' i'
  le : r ≤ r'
  got : ∀ k < sent.length, Got r i k → Got r' i' k
  acked : sent.length < 2 ^ 31 → Acked sent r i → Acked sent r' i'

section Receives
variable {sent : List (IkcpSeg α)} {taken : List (UInt32 × List α)} {r r' r'' : Nat}
  {i i' i'' : Incoming α} {kcp : Ikcpcb α}

theorem Progress.refl (h : Receives sent taken r i) : Progress sent taken r i r i where
  receives := h
  le := Nat.le_refl r
  got _ _ hg := hg
  acked _ ha := ha

theorem Progress.trans (h : Progress sent taken r i r' i') (h' : Progress sent taken r' i' r'' i'') :
    Progress sent taken r i r'' i'' where
  receives := h'.receives
  le := Nat.le_trans h.le h'.le
  got k hk hg := h'.got k hk (h.got k hk hg)
  acked hb ha := h'.acked hb (h.acked hb ha)

/-- More segments are numbered: what was received stays received. -/
theorem Receives.append (h : Receives sent taken r i) (more : List (IkcpSeg α)) :
    Receives (sent ++ more) taken r i where
  le := Nat.le_trans h.le (by rw [List.length_append]; exact Nat.le_add_right _ _)
  rcvNxt := h.rcvNxt
  queue := by rw [List.take_append_of_le_length h.le, h.queue]
  rcvBuf seg hs := (h.rcvBuf seg hs).append more

/-! ## Moving what is contiguous -/

/-- The segment whose word is `rcv_nxt` is the next one sent. -/
theorem Receives.next (h : Receives sent taken r i) (hb : sent.length < 2 ^ 32) {sn : UInt32}
    {b : UInt32 × List α} (hc : Copy sent sn b) (hsn : sn = i.rcvNxt) :
    ∃ seg, sent[r]? = some seg ∧ b = seg.body := by
  obtain ⟨k, seg, hk, hword, hbody⟩ := hc
  have hlt : k < sent.length := (List.getElem?_eq_some_iff.mp hk).1
  have hle := h.le
  have hkr : k = r := by
    apply (SerialNumber.ofNat_inj (by omega) (by omega)).mp
    rw [← hword, hsn, h.rcvNxt]
  subst hkr
  exact ⟨seg, hk, hbody⟩

theorem progress_moveAvailable (hb : sent.length < 2 ^ 32) (l : List (IkcpSeg α)) (kcp : Ikcpcb α)
    (hl : kcp.rcvBuf = l) (h : Receives sent taken r kcp.incoming) :
    ∃ r', Progress sent taken r kcp.incoming r' (moveAvailable l kcp).incoming := by
  induction l generalizing kcp r with
  | nil => exact ⟨r, Progress.refl h⟩
  | cons seg rest ih =>
    unfold moveAvailable
    split
    · rename_i hmove
      have hmem : seg ∈ kcp.incoming.rcvBuf := by
        show seg ∈ kcp.rcvBuf
        rw [hl]
        exact List.mem_cons_self ..
      obtain ⟨s, hs, hbody⟩ := h.next hb (h.rcvBuf seg hmem) hmove.1
      have hlt : r < sent.length := (List.getElem?_eq_some_iff.mp hs).1
      let moved : Ikcpcb α :=
        { kcp with
          rcvBuf := rest, nrcvBuf := kcp.nrcvBuf - 1, rcvQueue := kcp.rcvQueue ++ [seg]
          nrcvQue := kcp.nrcvQue + 1, rcvNxt := kcp.rcvNxt + 1 }
      have hmoved : Receives sent taken (r + 1) moved.incoming := by
        refine ⟨hlt, ?_, ?_, ?_⟩
        · show kcp.rcvNxt + 1 = _
          rw [SerialNumber.ofNat_succ]
          exact congrArg (· + 1) h.rcvNxt
        · show _ = taken ++ (kcp.rcvQueue ++ [seg]).map IkcpSeg.body
          rw [List.take_add_one, hs, List.map_append, h.queue, List.map_append, List.append_assoc]
          exact congrArg (fun b => taken ++ (kcp.rcvQueue.map IkcpSeg.body ++ [b])) hbody.symm
        · intro x hx
          apply h.rcvBuf
          show x ∈ kcp.rcvBuf
          rw [hl]
          exact List.mem_cons_of_mem _ hx
      -- what was in `rcv_buf` stays there, except `seg`, which is number `r`
      have hgot : ∀ k < sent.length, Got r kcp.incoming k → Got (r + 1) moved.incoming k := by
        rintro k hk (hlow | ⟨x, hx, hsn⟩)
        · exact Or.inl (by omega)
        · have hx' : x ∈ seg :: rest := hl ▸ hx
          rcases List.mem_cons.mp hx' with rfl | hx'
          · have hkr : k = r := by
              apply (SerialNumber.ofNat_inj (by omega) (by omega)).mp
              rw [← hsn, hmove.1]
              exact h.rcvNxt
            exact Or.inl (by omega)
          · exact Or.inr ⟨x, hx', hsn⟩
      obtain ⟨r', hr'⟩ := ih moved rfl hmoved
      refine ⟨r', Progress.trans ⟨hmoved, Nat.le_succ r, hgot, ?_⟩ hr'⟩
      intro _ ha a hmem
      obtain ⟨k, hk, hsn, hg⟩ := ha a hmem
      exact ⟨k, hk, hsn, hgot k hk hg⟩
    · exact ⟨r, Progress.refl h⟩

/-! ## Reading -/

/-- Taking a message off `rcv_queue`. -/
theorem receives_dropMessage (h : Receives sent taken r kcp.incoming) :
    Receives sent (taken ++ (takeMessage kcp.rcvQueue).1.map IkcpSeg.body) r
      (dropMessage kcp).incoming where
  le := h.le
  rcvNxt := h.rcvNxt
  queue := by
    show _ = taken ++ _ ++ (takeMessage kcp.rcvQueue).2.map IkcpSeg.body
    rw [h.queue, List.append_assoc, ← List.map_append, takeMessage_append]
    rfl
  rcvBuf := h.rcvBuf

/-- The data of segments taken. -/
def bodyData (bodies : List (UInt32 × List α)) : List α := bodies.flatMap Prod.snd

@[simp] theorem bodyData_append (b b' : List (UInt32 × List α)) :
    bodyData (b ++ b') = bodyData b ++ bodyData b' := List.flatMap_append

@[simp] theorem bodyData_map_body (segs : List (IkcpSeg α)) :
    bodyData (segs.map IkcpSeg.body) = segData segs := by
  rw [bodyData, segData, List.flatMap_map]
  rfl

/-- **What `ikcp_recv` hands out is the next of what was sent.** -/
theorem receives_ikcpRecv (hb : sent.length < 2 ^ 32) (h : Receives sent taken r kcp.incoming)
    {len : Int} (hl : 0 ≤ len) :
    ∃ message r', r ≤ r' ∧ (ikcpRecv kcp len).2.2 = bodyData message ∧
      Receives sent (taken ++ message) r' (ikcpRecv kcp len).1.incoming ∧
      (∀ k < sent.length, Got r kcp.incoming k → Got r' (ikcpRecv kcp len).1.incoming k) ∧
      (sent.length < 2 ^ 31 → Acked sent r kcp.incoming →
        Acked sent r' (ikcpRecv kcp len).1.incoming) := by
  rcases ikcpRecv_cases kcp hl with ⟨n, -, he⟩ | he
  · refine ⟨[], r, Nat.le_refl r, ?_, ?_, ?_, ?_⟩
    · rw [he]
      rfl
    · rw [he, List.append_nil]
      exact h
    · rw [he]
      exact fun _ _ hg => hg
    · rw [he]
      exact fun _ ha => ha
  · have hdrop := receives_dropMessage h
    obtain ⟨r', hr'⟩ := progress_moveAvailable hb _ _ rfl hdrop
    refine ⟨(takeMessage kcp.rcvQueue).1.map IkcpSeg.body, r', hr'.le, ?_, ?_, ?_, ?_⟩
    · rw [he, bodyData_map_body]
    · rw [he, incoming_fastRecover]
      exact hr'.receives
    · rw [he, incoming_fastRecover]
      exact hr'.got
    · rw [he, incoming_fastRecover]
      exact hr'.acked

/-! ## Feeding -/

theorem mem_insertSeg {newseg : IkcpSeg α} {l l' : List (IkcpSeg α)}
    (h : insertSeg newseg l = some l') (x : IkcpSeg α) : x ∈ l' ↔ x = newseg ∨ x ∈ l := by
  induction l generalizing l' with
  | nil =>
    cases h
    simp
  | cons seg prev ih =>
    unfold insertSeg at h
    split_ifs at h
    · cases h
      simp
    · obtain ⟨m, hm, rfl⟩ := Option.map_eq_some_iff.mp h
      simp only [List.mem_cons, ih hm]
      exact or_left_comm

theorem insertSeg_eq_none {newseg : IkcpSeg α} {l : List (IkcpSeg α)}
    (h : insertSeg newseg l = none) : ∃ seg ∈ l, seg.sn = newseg.sn := by
  induction l with
  | nil => cases h
  | cons seg prev ih =>
    unfold insertSeg at h
    split_ifs at h with h1 h2
    · exact ⟨seg, List.mem_cons_self .., h1⟩
    · obtain ⟨x, hx, hsn⟩ := ih (Option.map_eq_none_iff.mp h)
      exact ⟨x, List.mem_cons_of_mem _ hx, hsn⟩

/-- Storing a segment: it, or an earlier one of its number, is in `rcv_buf`, and
nothing else has changed. -/
theorem storeSeg_spec (kcp : Ikcpcb α) (newseg : IkcpSeg α) :
    ∃ buf, (storeSeg kcp newseg).incoming = { kcp.incoming with rcvBuf := buf } ∧
      (∀ x ∈ buf, x = newseg ∨ x ∈ kcp.rcvBuf) ∧ (∀ x ∈ kcp.rcvBuf, x ∈ buf) ∧
      ∃ x ∈ buf, x.sn = newseg.sn := by
  unfold storeSeg
  split
  · rename_i rev h
    have hmem : ∀ x, x ∈ rev.reverse ↔ x = newseg ∨ x ∈ kcp.rcvBuf := by
      intro x
      rw [List.mem_reverse, mem_insertSeg h, List.mem_reverse]
    refine ⟨rev.reverse, rfl, fun x hx => (hmem x).mp hx, fun x hx => (hmem x).mpr (Or.inr hx), ?_⟩
    exact ⟨newseg, (hmem newseg).mpr (Or.inl rfl), rfl⟩
  · rename_i h
    obtain ⟨x, hx, hsn⟩ := insertSeg_eq_none h
    exact ⟨kcp.rcvBuf, rfl, fun x hx => Or.inr hx, fun x hx => hx, x, List.mem_reverse.mp hx, hsn⟩

theorem progress_ikcpParseData (hb : sent.length < 2 ^ 32) (kcp : Ikcpcb α)
    (h : Receives sent taken r kcp.incoming) {newseg : IkcpSeg α}
    (hc : Copy sent newseg.sn newseg.body) :
    ∃ r', Progress sent taken r kcp.incoming r' (ikcpParseData kcp newseg).incoming ∧
      (itimediff newseg.sn (kcp.rcvNxt + kcp.rcvWnd) < 0 → itimediff newseg.sn kcp.rcvNxt ≥ 0 →
        ∀ k < sent.length, newseg.sn = UInt32.ofNat k →
          Got r' (ikcpParseData kcp newseg).incoming k) := by
  unfold ikcpParseData
  split
  · -- outside the window: dropped, and nothing is promised about it
    rename_i hout
    refine ⟨r, Progress.refl h, ?_⟩
    intro h1 h2
    omega
  · obtain ⟨buf, hbuf, hold, hnew, x, hx, hsn⟩ := storeSeg_spec kcp newseg
    have hstored : Receives sent taken r (storeSeg kcp newseg).incoming := by
      rw [hbuf]
      refine ⟨h.le, h.rcvNxt, h.queue, ?_⟩
      intro y hy
      rcases hold y hy with rfl | hy
      · exact hc
      · exact h.rcvBuf y hy
    have hgot : ∀ k < sent.length, Got r kcp.incoming k → Got r (storeSeg kcp newseg).incoming k := by
      rintro k - (hk | ⟨y, hy, hyk⟩)
      · exact Or.inl hk
      · rw [hbuf]
        exact Or.inr ⟨y, hnew y hy, hyk⟩
    have hstore : Progress sent taken r kcp.incoming r (storeSeg kcp newseg).incoming := by
      refine ⟨hstored, Nat.le_refl r, hgot, ?_⟩
      intro _ ha a hmem
      rw [hbuf] at hmem
      obtain ⟨k, hk, hak, hg⟩ := ha a hmem
      exact ⟨k, hk, hak, hgot k hk hg⟩
    obtain ⟨r', hr'⟩ := progress_moveAvailable hb _ _ rfl hstored
    refine ⟨r', hstore.trans hr', ?_⟩
    intro _ _ k hk hword
    apply hr'.got k hk
    rw [hbuf]
    exact Or.inr ⟨x, hx, hsn.trans hword⟩

theorem acklist_ikcpParseData (kcp : Ikcpcb α) (newseg : IkcpSeg α) :
    (ikcpParseData kcp newseg).acklist = kcp.acklist := by
  obtain ⟨buf, nbuf, queue, nque, nxt, h⟩ := ikcpParseData_writes kcp newseg
  rw [h]

/-- A push of a copy is acknowledged only if the copy has arrived. -/
theorem progress_inputPush (hb : sent.length < 2 ^ 32) (kcp : Ikcpcb α)
    (h : Receives sent taken r kcp.incoming) {w : WireSeg α}
    (hc : Copy sent w.sn (w.frg.toUInt32, w.data)) :
    ∃ r', Progress sent taken r kcp.incoming r' (inputPush kcp w).incoming := by
  unfold inputPush
  split
  · rename_i hwin
    dsimp only
    have hcopy : Copy sent (pushSeg w).sn (pushSeg w).body := hc
    obtain ⟨k, seg, hk, hword, -⟩ := hc
    have hlt : k < sent.length := (List.getElem?_eq_some_iff.mp hk).1
    have hpushed : Receives sent taken r (ikcpAckPush kcp w.sn w.ts).incoming :=
      ⟨h.le, h.rcvNxt, h.queue, h.rcvBuf⟩
    -- the new acknowledgement is covered as soon as number `k` is
    have hcover : ∀ r' (i' : Incoming α), Got r' i' k →
        (∀ j < sent.length, Got r kcp.incoming j → Got r' i' j) →
        i'.acklist = kcp.acklist ++ [(w.sn, w.ts)] →
        Acked sent r kcp.incoming → Acked sent r' i' := by
      intro r' i' hgk hmono hlist ha a hmem
      rw [hlist] at hmem
      rcases List.mem_append.mp hmem with hold | hnew
      · obtain ⟨j, hj, haj, hg⟩ := ha a hold
        exact ⟨j, hj, haj, hmono j hj hg⟩
      · rw [List.mem_singleton.mp hnew]
        exact ⟨k, hlt, hword, hgk⟩
    split
    · rename_i hge
      obtain ⟨r', hr', hstored⟩ := progress_ikcpParseData hb _ hpushed hcopy
      refine ⟨r', hr'.receives, hr'.le, hr'.got, fun _ => ?_⟩
      exact hcover r' _ (hstored hwin hge k hlt hword) hr'.got (acklist_ikcpParseData _ _)
    · rename_i hold
      refine ⟨r, hpushed, Nat.le_refl r, fun _ _ hg => hg, fun hb31 => ?_⟩
      -- the word is behind `rcv_nxt`, and so is the number
      have hkr : k < r := by
        have hle := h.le
        have hneg : itimediff (UInt32.ofNat k) (UInt32.ofNat r) < 0 := by
          rw [← hword, ← h.rcvNxt]
          exact Int.not_le.mp hold
        rw [itimediff, SerialNumber.diff_ofNat (by omega) (by omega)] at hneg
        omega
      exact hcover r _ (Or.inl hkr) (fun _ _ hg => hg) rfl
  · exact ⟨r, Progress.refl h⟩

theorem progress_inputSeg (hb : sent.length < 2 ^ 32) (kcp : Ikcpcb α) (acc : InputAcc)
    (h : Receives sent taken r kcp.incoming) {w : WireSeg α}
    (hc : w.cmd.toUInt32 = IKCP_CMD_PUSH → Copy sent w.sn (w.frg.toUInt32, w.data)) :
    ∃ r', Progress sent taken r kcp.incoming r' (inputSeg kcp acc w).1.incoming := by
  have huna : (inputUna kcp w).incoming = kcp.incoming := incoming_inputUna kcp w
  have hkeep : ∃ r', Progress sent taken r kcp.incoming r' (inputUna kcp w).incoming := by
    rw [huna]
    exact ⟨r, Progress.refl h⟩
  unfold inputSeg
  dsimp only
  split_ifs with hack hpush hask
  · rw [incoming_inputAck]
    exact hkeep
  · rw [← huna] at h ⊢
    exact progress_inputPush hb _ h (hc hpush)
  · exact hkeep
  · exact hkeep

theorem progress_inputLoop (hb : sent.length < 2 ^ 32) (prevUna : UInt32) (segs : List (WireSeg α))
    (kcp : Ikcpcb α) (acc : InputAcc) (h : Receives sent taken r kcp.incoming)
    (hc : ∀ w ∈ segs, w.cmd.toUInt32 = IKCP_CMD_PUSH → Copy sent w.sn (w.frg.toUInt32, w.data)) :
    ∃ r', Progress sent taken r kcp.incoming r' (inputLoop prevUna segs kcp acc).1.incoming := by
  induction segs generalizing kcp acc r with
  | nil =>
    unfold inputLoop
    rw [(frame_inputEnd prevUna kcp acc).2.2]
    exact ⟨r, Progress.refl h⟩
  | cons w rest ih =>
    unfold inputLoop
    split_ifs
    · exact ⟨r, Progress.refl h⟩
    · exact ⟨r, Progress.refl h⟩
    · obtain ⟨r', hr'⟩ := progress_inputSeg hb kcp acc h (hc w (List.mem_cons_self ..))
      obtain ⟨r'', hr''⟩ := ih _ _ hr'.receives (fun v hv => hc v (List.mem_cons_of_mem _ hv))
      exact ⟨r'', hr'.trans hr''⟩

/-- **Feeding copies keeps the stream in order**, whatever else the datagrams
contain and however often and late they come. -/
theorem progress_inputSegs (hb : sent.length < 2 ^ 32) (kcp : Ikcpcb α) (segs : List (WireSeg α))
    (h : Receives sent taken r kcp.incoming)
    (hc : ∀ w ∈ segs, w.cmd.toUInt32 = IKCP_CMD_PUSH → Copy sent w.sn (w.frg.toUInt32, w.data)) :
    ∃ r', Progress sent taken r kcp.incoming r' (inputSegs kcp segs).1.incoming := by
  unfold inputSegs
  split
  · exact ⟨r, Progress.refl h⟩
  · exact progress_inputLoop hb _ segs kcp _ h hc

end Receives

/-! ## The sending side -/

/-- The control block has numbered `sent` of the bytes `read`, and what it holds of
`sent` for retransmission are segments of it, in order. -/
structure Sends (read : List α) (sent : List (IkcpSeg α)) (o : Outgoing α) : Prop where
  sndNxt : o.sndNxt = UInt32.ofNat sent.length
  read : read = segData sent ++ segData o.sndQueue
  sndBuf : o.sndBuf.Sublist (numbered forwarderConv 0 sent)
  fits : o.Fits
  nsndQue : o.nsndQue = UInt32.ofNat o.sndQueue.length
  nsndBuf : o.nsndBuf = UInt32.ofNat o.sndBuf.length

section Sends
variable {read : List α} {sent : List (IkcpSeg α)} {o o' : Outgoing α}

theorem numbered_append (conv sn : UInt32) (s t : List (IkcpSeg α)) :
    numbered conv sn (s ++ t) =
      numbered conv sn s ++ numbered conv (sn + UInt32.ofNat s.length) t := by
  induction s generalizing sn with
  | nil =>
    show numbered conv sn t = numbered conv (sn + 0) t
    rw [UInt32.add_zero]
  | cons seg rest ih =>
    rw [List.cons_append, numbered, ih, numbered, List.cons_append, List.length_cons,
      SerialNumber.ofNat_succ]
    congr 3
    grind

/-- The numbered segments, one by one. -/
theorem mem_numbered {conv sn : UInt32} {segs : List (IkcpSeg α)} {x : SegKey α} :
    x ∈ numbered conv sn segs ↔ ∃ k seg, segs[k]? = some seg ∧
      x = ⟨conv, IKCP_CMD_PUSH, seg.frg, sn + UInt32.ofNat k, seg.data⟩ := by
  induction segs generalizing sn with
  | nil => simp [numbered]
  | cons seg rest ih =>
    rw [numbered, List.mem_cons, ih]
    constructor
    · rintro (rfl | ⟨k, s, hk, rfl⟩)
      · exact ⟨0, seg, rfl, by rw [show UInt32.ofNat 0 = 0 from rfl, UInt32.add_zero]⟩
      · refine ⟨k + 1, s, hk, ?_⟩
        rw [SerialNumber.ofNat_succ]
        congr 1
        grind
    · rintro ⟨k, s, hk, rfl⟩
      cases k with
      | zero =>
        cases hk
        exact Or.inl (by rw [show UInt32.ofNat 0 = 0 from rfl, UInt32.add_zero])
      | succ k =>
        refine Or.inr ⟨k, s, hk, ?_⟩
        rw [SerialNumber.ofNat_succ]
        congr 1
        grind

theorem sends_fresh : Sends ([] : List α) [] ⟨0, [], [], 0, 0⟩ where
  sndNxt := rfl
  read := rfl
  sndBuf := List.Sublist.refl _
  fits := ⟨(fun _ h => nomatch h), (fun _ h => nomatch h)⟩
  nsndQue := rfl
  nsndBuf := rfl

/-- Acknowledgements release segments, nothing else. -/
theorem Sends.releases {P : UInt32 → Prop} (h : Sends read sent o) (hr : Releases P o o') :
    Sends read sent o' where
  sndNxt := hr.sndNxt.trans h.sndNxt
  read := by rw [hr.sndQueue, ← h.read]
  sndBuf := hr.sub.trans h.sndBuf
  fits := hr.fits h.fits
  nsndQue := by rw [hr.nsndQue, hr.sndQueue, h.nsndQue]
  nsndBuf := by
    have hc := hr.count
    rw [h.nsndBuf] at hc
    grind

/-- A flush numbers what it takes from `snd_queue`. -/
theorem Sends.numbers {moved : List (IkcpSeg α)} (h : Sends read sent o)
    (hn : Numbers forwarderConv moved o o') : Sends read (sent ++ moved) o' where
  sndNxt := by rw [hn.sndNxt, h.sndNxt, List.length_append, UInt32.ofNat_add]
  read := by rw [h.read, hn.sndQueue, segData_append, segData_append, List.append_assoc]
  sndBuf := by
    rw [hn.sndBuf, numbered_append, h.sndNxt, UInt32.zero_add]
    exact h.sndBuf.append (List.Sublist.refl _)
  fits := hn.fits h.fits
  nsndQue := by
    have hq := hn.nsndQue
    rw [h.nsndQue, hn.sndQueue, List.length_append, UInt32.ofNat_add] at hq
    grind
  nsndBuf := by
    rw [hn.nsndBuf, h.nsndBuf, hn.sndBuf, List.length_append, length_numbered, UInt32.ofNat_add]

/-- A numbered segment that is held is a copy. -/
theorem Sends.copy (h : Sends read sent o) {x : SegKey α} (hx : x ∈ o.sndBuf) :
    Copy sent x.sn (x.frg, x.data) ∧ x.conv = forwarderConv ∧ x.cmd = IKCP_CMD_PUSH := by
  obtain ⟨k, seg, hk, rfl⟩ := mem_numbered.mp (h.sndBuf.subset hx)
  exact ⟨⟨k, seg, hk, UInt32.zero_add _, rfl⟩, rfl, rfl⟩

end Sends

end FlexProxy
