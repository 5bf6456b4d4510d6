import FlexProxy.KcpWindow
import FlexProxy.RoundTrip

/-! # The kcp to tcp pump

The segments a data path numbers are the fragments of the chunks it has read, one chunk
after the other (`fragments`).  What its peer takes from `rcv_queue` is therefore whole
chunks, and `rcv_queue` goes on with the next one (`Pumps`).  It starts either with all
fragments of that chunk, and `ikcp_recv` returns the chunk (`recv_message`), or with some of
them only, and `ikcp_recv` finds nothing to return (`recv_strictPart`).

* `pump_never_stalls`: what is complete is returned, and when the drain loop leaves, all of
  it has been handed to the TCP socket.
-/
namespace FlexProxy
open TransitionSystem
variable {α D B : Type}

/-! ## Chunks and their fragments -/

/-- The segments that `ikcp_send` queues for a chunk. -/
def chunkSegs (chunk : List α) : List (IkcpSeg α) :=
  fragment 1376 0 (fragmentCount 1376 chunk.length) chunk

/-- The segments of chunks, one chunk after the other. -/
def fragments (chunks : List (List α)) : List (IkcpSeg α) := chunks.flatMap chunkSegs

theorem fragments_append (chunks more : List (List α)) :
    fragments (chunks ++ more) = fragments chunks ++ fragments more := List.flatMap_append

theorem fragments_cons (chunk : List α) (more : List (List α)) :
    fragments (chunk :: more) = chunkSegs chunk ++ fragments more := rfl

theorem length_chunkSegs (chunk : List α) :
    (chunkSegs chunk).length = fragmentCount 1376 chunk.length := length_fragment ..

theorem length_chunkSegs_pos (chunk : List α) : 0 < (chunkSegs chunk).length := by
  rw [length_chunkSegs]
  exact fragmentCount_pos 1376 (by decide) _

/-- A chunk is cut into at most six segments. -/
theorem length_chunkSegs_le {chunk : List α} (h : chunk.length ≤ 8192) :
    (chunkSegs chunk).length ≤ 6 := by
  rw [length_chunkSegs]
  exact fragmentCount_le 1376 (by decide) (by decide) (by omega)

theorem segData_chunkSegs (chunk : List α) : segData (chunkSegs chunk) = chunk :=
  segData_fragments chunk

theorem segData_fragments_flatten (chunks : List (List α)) :
    segData (fragments chunks) = chunks.flatten := by
  induction chunks with
  | nil => rfl
  | cons chunk more ih => rw [fragments_cons, segData_append, segData_chunkSegs, ih, List.flatten_cons]

/-- What a segment means to its receiver, for a list of them. -/
abbrev bodies (segs : List (IkcpSeg α)) : List (UInt32 × List α) := segs.map IkcpSeg.body

theorem segData_congr {segs segs' : List (IkcpSeg α)} (h : bodies segs = bodies segs') :
    segData segs = segData segs' := by
  rw [← bodyData_map_body, ← bodyData_map_body]
  exact congrArg bodyData h

/-- `frg` is zero in the last fragment only. -/
theorem frg_fragment {count : Nat} (hc : count < 2 ^ 32) (buffer : List α) {k : Nat}
    {seg : IkcpSeg α} (h : (fragment 1376 0 count buffer)[k]? = some seg) :
    seg.frg = UInt32.ofNat (count - 1 - k) := by
  induction count generalizing buffer k with
  | zero => cases h
  | succ count ih =>
    cases k with
    | zero =>
      cases h
      rfl
    | succ k =>
      rw [ih (by omega) (buffer.drop 1376) h]
      congr 1
      omega

/-- The loop of `ikcp_recv` stops at the last fragment of the first chunk. -/
theorem takeMessage_fragment {count : Nat} (hpos : 0 < count) (hc : count < 2 ^ 32)
    (buffer : List α) {queue : List (IkcpSeg α)} {tail : List (UInt32 × List α)}
    (h : bodies queue = bodies (fragment 1376 0 count buffer) ++ tail) :
    bodies (takeMessage queue).1 = bodies (fragment 1376 0 count buffer) ∧
      bodies (takeMessage queue).2 = tail := by
  induction count generalizing buffer queue with
  | zero => omega
  | succ count ih =>
    cases queue with
    | nil => cases h
    | cons seg rest =>
      obtain ⟨hseg, hrest⟩ := List.cons.inj h
      have hfrg : seg.frg = UInt32.ofNat count := congrArg Prod.fst hseg
      by_cases hlast : count = 0
      · subst hlast
        have hzero : seg.frg = 0 := hfrg
        unfold takeMessage
        rw [if_pos hzero]
        exact ⟨congrArg (fun b => [b]) hseg, hrest⟩
      · have hne : seg.frg ≠ 0 := by
          intro hzero
          rw [hfrg] at hzero
          exact hlast ((SerialNumber.ofNat_inj (by omega) (by omega)).mp hzero)
        unfold takeMessage
        rw [if_neg hne]
        obtain ⟨hfirst, hsecond⟩ := ih (by omega) (by omega) (buffer.drop 1376) hrest
        refine ⟨?_, hsecond⟩
        show seg.body :: bodies (takeMessage rest).1 = _
        rw [hseg, hfirst]
        rfl

/-! ## What `ikcp_recv` finds -/

/-- `queue` is a strict initial part of the segments of the first of the chunks `rest`. -/
def StrictPart (rest : List (List α)) (queue : List (IkcpSeg α)) : Prop :=
  queue = [] ∨ ∃ chunk more, rest = chunk :: more ∧ queue.length < (chunkSegs chunk).length ∧
    bodies queue <+: bodies (chunkSegs chunk)

/-- `queue` starts with all segments of the first of the chunks `rest`. -/
def StartsWhole (rest : List (List α)) (queue : List (IkcpSeg α)) : Prop :=
  ∃ chunk more tail, rest = chunk :: more ∧ bodies queue = bodies (chunkSegs chunk) ++ tail

/-- A queue that goes on with the chunks `rest` starts with all segments of the first one, or
with some of them. -/
theorem startsWhole_or_strictPart {rest : List (List α)} {queue : List (IkcpSeg α)}
    (h : bodies queue <+: bodies (fragments rest)) :
    StartsWhole rest queue ∨ StrictPart rest queue := by
  cases rest with
  | nil =>
    have hnil : bodies queue = [] := List.prefix_nil.mp h
    exact Or.inr (Or.inl (List.map_eq_nil_iff.mp hnil))
  | cons chunk more =>
    have happ : bodies (fragments (chunk :: more)) =
        bodies (chunkSegs chunk) ++ bodies (fragments more) := List.map_append
    rw [happ] at h
    by_cases hlen : queue.length < (chunkSegs chunk).length
    · refine Or.inr (Or.inr ⟨chunk, more, rfl, hlen, ?_⟩)
      refine List.prefix_of_prefix_length_le h (List.prefix_append _ _) ?_
      rw [List.length_map, List.length_map]
      omega
    · have hpre : bodies (chunkSegs chunk) <+: bodies queue := by
        refine List.prefix_of_prefix_length_le (List.prefix_append _ _) h ?_
        rw [List.length_map, List.length_map]
        omega
      obtain ⟨tail, htail⟩ := hpre
      exact Or.inl ⟨chunk, more, tail, rfl, htail.symm⟩

section Recv
variable {kcp : Ikcpcb α}

/-- The first segment of a chunk tells how many there are. -/
theorem frg_head {chunk : List α} (hlen : chunk.length ≤ 8192) {seg : IkcpSeg α}
    (h : (bodies (chunkSegs chunk))[0]? = some seg.body) :
    seg.frg.toNat + 1 = (chunkSegs chunk).length := by
  have hpos := length_chunkSegs_pos chunk
  have hle := length_chunkSegs_le hlen
  have hcount := length_chunkSegs chunk
  rw [List.getElem?_map] at h
  obtain ⟨first, hfirst, hbody⟩ := Option.map_eq_some_iff.mp h
  have hfrg := frg_fragment (by omega) chunk hfirst
  have hseg : first.frg = seg.frg := congrArg Prod.fst hbody
  rw [← hseg, hfrg, UInt32.toNat_ofNat_of_lt' (by simp only [UInt32.size]; omega)]
  omega

/-- Counting the segments of `rcv_queue` against the number in `frg` does not overflow. -/
theorem nrcvQue_lt_iff_frg (ht : Tidy kcp) {frg : UInt32} (hfrg : frg.toNat < 128) :
    kcp.nrcvQue < frg + 1 ↔ kcp.rcvQueue.length < frg.toNat + 1 := by
  have hroom := ht.room
  have hcount : kcp.nrcvQue.toNat = kcp.rcvQueue.length := by
    rw [ht.count, UInt32.toNat_ofNat_of_lt' (by simp only [UInt32.size]; omega)]
  have hsucc : (frg + 1).toNat = frg.toNat + 1 := by
    rw [UInt32.toNat_add]
    show (frg.toNat + 1) % 2 ^ 32 = _
    omega
  rw [UInt32.lt_iff_toNat_lt, hcount, hsucc]

/-- `ikcp_peeksize` sees that segments are missing. -/
theorem peeksize_part (ht : Tidy kcp) {chunk : List α} (hlen : chunk.length ≤ 8192)
    {seg : IkcpSeg α} {queue : List (IkcpSeg α)} (hqueue : kcp.rcvQueue = seg :: queue)
    (hlt : (seg :: queue).length < (chunkSegs chunk).length)
    (hpart : bodies (seg :: queue) <+: bodies (chunkSegs chunk)) : ikcpPeeksize kcp = -1 := by
  have hle := length_chunkSegs_le hlen
  have hfrg : seg.frg.toNat + 1 = (chunkSegs chunk).length := by
    obtain ⟨tail, htail⟩ := hpart
    apply frg_head hlen
    rw [← htail]
    rfl
  have hne : seg.frg ≠ 0 := by
    intro hzero
    rw [hzero] at hfrg
    simp only [List.length_cons] at hlt
    have : (0 : UInt32).toNat = 0 := rfl
    omega
  have hfew : kcp.nrcvQue < seg.frg + 1 := by
    rw [nrcvQue_lt_iff_frg ht (by omega), hqueue]
    omega
  unfold ikcpPeeksize
  rw [hqueue]
  show (if seg.frg = 0 then _ else _) = _
  rw [if_neg hne, if_pos hfew]

/-- **Part of a message is left where it is.** -/
theorem recv_strictPart (len : Int) (ht : Tidy kcp) {rest : List (List α)}
    (hsmall : ∀ chunk ∈ rest, chunk.length ≤ 8192) (h : StrictPart rest kcp.rcvQueue) :
    ∃ n, (n = -1 ∨ n = -2) ∧ ikcpRecv kcp len = (kcp, n, []) := by
  have hempty : kcp.rcvQueue = [] → ikcpRecv kcp len = (kcp, -1, []) := by
    intro hnil
    unfold ikcpRecv
    rw [hnil]
    rfl
  rcases h with hnil | ⟨chunk, more, hrest, hlt, hpart⟩
  · exact ⟨-1, Or.inl rfl, hempty hnil⟩
  · have hlen : chunk.length ≤ 8192 := hsmall chunk (by rw [hrest]; exact List.mem_cons_self ..)
    cases hqueue : kcp.rcvQueue with
    | nil => exact ⟨-1, Or.inl rfl, hempty hqueue⟩
    | cons seg queue =>
      rw [hqueue] at hlt hpart
      refine ⟨-2, Or.inr rfl, ?_⟩
      unfold ikcpRecv
      rw [hqueue, peeksize_part ht hlen hqueue hlt hpart]
      rfl

/-- `ikcp_peeksize` tells the size of a whole message. -/
theorem peeksize_message (ht : Tidy kcp) {chunk : List α} (hlen : chunk.length ≤ 8192)
    {tail : List (UInt32 × List α)} (h : bodies kcp.rcvQueue = bodies (chunkSegs chunk) ++ tail)
    (hdata : segData (takeMessage kcp.rcvQueue).1 = chunk) :
    ikcpPeeksize kcp = (chunk.length : Int) := by
  have hpos := length_chunkSegs_pos chunk
  have hle := length_chunkSegs_le hlen
  have hlong := congrArg List.length h
  simp only [List.length_append, List.length_map] at hlong
  unfold ikcpPeeksize
  cases hqueue : kcp.rcvQueue with
  | nil =>
    rw [hqueue, List.length_nil] at hlong
    omega
  | cons seg queue =>
    show (if seg.frg = 0 then _ else _) = _
    by_cases hzero : seg.frg = 0
    · -- the message is this one segment
      rw [hqueue, takeMessage, if_pos hzero, segData_cons, segData_nil, List.append_nil] at hdata
      rw [if_pos hzero, ← hdata]
      rfl
    · have hfrg : seg.frg.toNat + 1 = (chunkSegs chunk).length := by
        apply frg_head hlen
        have hfirst := congrArg (fun l => l[0]?) h
        rw [hqueue, List.getElem?_append_left (by rw [List.length_map]; exact hpos)] at hfirst
        exact hfirst.symm
      have henough : ¬ kcp.nrcvQue < seg.frg + 1 := by
        rw [nrcvQue_lt_iff_frg ht (by omega)]
        omega
      rw [hqueue] at hdata
      rw [if_neg hzero, if_neg henough, ← congrArg List.length hdata, segData,
        List.length_flatMap]
      rfl

/-- **A whole message is returned**, and fits into the buffer. -/
theorem recv_message (ht : Tidy kcp) {chunk : List α} (hlen : chunk.length ≤ 8192)
    {tail : List (UInt32 × List α)} (h : bodies kcp.rcvQueue = bodies (chunkSegs chunk) ++ tail) :
    bodies (takeMessage kcp.rcvQueue).1 = bodies (chunkSegs chunk) ∧
    ikcpRecv kcp DataPath.recvBufferSize =
      (fastRecover (decide (kcp.nrcvQue ≥ kcp.rcvWnd))
        (moveAvailable (dropMessage kcp).rcvBuf (dropMessage kcp)),
        (chunk.length : Int), chunk) := by
  have hpos := length_chunkSegs_pos chunk
  have hle := length_chunkSegs_le hlen
  have hcount := length_chunkSegs chunk
  have htaken := (takeMessage_fragment (by omega) (by omega) chunk h).1
  have hdata : segData (takeMessage kcp.rcvQueue).1 = chunk :=
    (segData_congr htaken).trans (segData_chunkSegs chunk)
  have hpeek := peeksize_message ht hlen h hdata
  refine ⟨htaken, ?_⟩
  have hne : kcp.rcvQueue.isEmpty = false := by
    rw [List.isEmpty_eq_false_iff]
    intro hnil
    have hlong := congrArg List.length h
    simp only [hnil, List.length_append, List.length_map, List.length_nil] at hlong
    omega
  have hfits : ¬ ikcpPeeksize kcp > (if DataPath.recvBufferSize < 0 then
      -DataPath.recvBufferSize else DataPath.recvBufferSize) := by
    have hsize : DataPath.recvBufferSize = 16384 := rfl
    rw [hpeek, hsize]
    omega
  unfold ikcpRecv
  rw [hne, if_neg Bool.false_ne_true, if_neg (by omega), if_neg hfits, hdata]
  rfl

end Recv

/-! ## The invariant -/

/-- The segments `p` numbers are those of the chunks it has read, and what has been taken
from `rcv_queue` of `q` are the segments of the first `j` of them. -/
structure Pumps (p q : DataPath α D B) : Prop where
  small : ∀ chunk ∈ p.read, chunk.length ≤ 8192
  cuts : p.sent ++ p.kcp.sndQueue = fragments p.read
  tidy : Tidy q.kcp
  aligned : ∃ j ≤ p.read.length,
    q.kcp.rcvNxt.toNat = (fragments (p.read.take j)).length + q.kcp.rcvQueue.length

section Pumps
variable {T : Transport α D B} {Carries : D → List (WireSeg α) → Prop} {retries : Prop}
  {p p' q q' : DataPath α D B} {taken : List (UInt32 × List α)} {r : Nat}

theorem Fresh.pumps (hp : Fresh p) (hq : Fresh q) : Pumps p q where
  small := by
    rw [hp.read]
    exact fun _ h => absurd h List.not_mem_nil
  cuts := by
    rw [hp.sent, hp.kcp, hp.read]
    rfl
  tidy := by
    rw [hq.kcp]
    exact tidy_forwarderKcp
  aligned := by
    refine ⟨0, Nat.zero_le _, ?_⟩
    rw [hq.kcp]
    rfl

/-- Below `2^32` the word `rcv_nxt` counts what has been taken and what is queued. -/
theorem toNat_rcvNxt {sent : List (IkcpSeg α)} {i : Incoming α} (hb : sent.length < 2 ^ 32)
    (h : Receives sent taken r i) : i.rcvNxt.toNat = taken.length + i.rcvQueue.length := by
  have hle := h.le
  have hcount := congrArg List.length h.queue
  rw [List.length_append, List.length_map, List.length_map, List.length_take] at hcount
  rw [h.rcvNxt, UInt32.toNat_ofNat_of_lt' (by simp only [UInt32.size]; omega)]
  omega

/-- **What has been taken are whole chunks, and `rcv_queue` goes on with the next one.** -/
theorem Pumps.chunks (hb : p.sent.length < 2 ^ 32) (h : Pumps p q)
    (hr : Receives p.sent taken r q.kcp.incoming) :
    ∃ j ≤ p.read.length, taken = bodies (fragments (p.read.take j)) ∧
      bodies q.kcp.rcvQueue <+: bodies (fragments (p.read.drop j)) := by
  obtain ⟨j, hj, hcount⟩ := h.aligned
  have hnxt : q.kcp.rcvNxt.toNat = taken.length + q.kcp.rcvQueue.length := toNat_rcvNxt hb hr
  have hsplit : fragments p.read = fragments (p.read.take j) ++ fragments (p.read.drop j) := by
    rw [← fragments_append, List.take_append_drop]
  have hall : taken ++ (bodies q.kcp.rcvQueue ++ bodies (p.sent.drop r ++ p.kcp.sndQueue)) =
      bodies (fragments (p.read.take j)) ++ bodies (fragments (p.read.drop j)) := by
    have hqueue : bodies (p.sent.take r) = taken ++ bodies q.kcp.rcvQueue := hr.queue
    calc taken ++ (bodies q.kcp.rcvQueue ++ bodies (p.sent.drop r ++ p.kcp.sndQueue))
        = bodies (p.sent.take r) ++ bodies (p.sent.drop r ++ p.kcp.sndQueue) := by
          rw [hqueue, List.append_assoc]
      _ = bodies (p.sent ++ p.kcp.sndQueue) := by
          rw [bodies, bodies, bodies, ← List.map_append, ← List.append_assoc, List.take_append_drop]
      _ = _ := by rw [h.cuts, hsplit, bodies, List.map_append]
  -- `aligned` says that both lists are cut at the same place
  have hlen : taken.length = (bodies (fragments (p.read.take j))).length := by
    rw [List.length_map]
    omega
  obtain ⟨htaken, hrest⟩ := List.append_inj hall hlen
  exact ⟨j, hj, htaken, _, hrest⟩

/-- **The sender takes a step.** -/
theorem pumps_sender {arrives : D → Prop} (hT : Lawful T Carries) (hp : Sender p) (h : Pumps p q)
    (hs : DataPath.Step T retries arrives p p') : Pumps p' q := by
  have hsame : p'.read = p.read → p'.sent ++ p'.kcp.sndQueue = p.sent ++ p.kcp.sndQueue →
      Pumps p' q := by
    intro hread hcuts
    refine ⟨?_, ?_, h.tidy, ?_⟩
    · rw [hread]
      exact h.small
    · rw [hread, hcuts]
      exact h.cuts
    · rw [hread]
      exact h.aligned
  cases hs with
  | tcpToKcp chunk hl =>
    have hqueue : (p.tcpToKcp chunk).kcp.sndQueue = p.kcp.sndQueue ++ chunkSegs chunk :=
      congrArg Outgoing.sndQueue (tcpToKcp_kcp hp.config hl).2.2
    obtain ⟨j, hj, hcount⟩ := h.aligned
    refine ⟨?_, ?_, h.tidy, j, ?_, ?_⟩
    · intro c hc
      rcases List.mem_append.mp hc with hold | hnew
      · exact h.small c hold
      · rw [List.mem_singleton.mp hnew]
        exact hl
    · show p.sent ++ (p.tcpToKcp chunk).kcp.sndQueue = fragments (p.read ++ [chunk])
      rw [hqueue, ← List.append_assoc, h.cuts, fragments_append, fragments_cons]
      exact congrArg (_ ++ ·) (List.append_nil _).symm
    · show j ≤ (p.read ++ [chunk]).length
      rw [List.length_append]
      omega
    · show _ = (fragments ((p.read ++ [chunk]).take j)).length + _
      rw [List.take_append_of_le_length hj]
      exact hcount
  | feed d hd =>
    obtain ⟨segs, hk⟩ := hT.feeds p.kcp d
    have hk' : (p.feed T d).kcp = (inputSegs p.kcp segs).1 := hk
    have hqueue : (p.feed T d).kcp.sndQueue = p.kcp.sndQueue := by
      rw [hk']
      exact (releases_inputSegs p.kcp segs).sndQueue
    exact hsame rfl (congrArg (p.sent ++ ·) hqueue)
  | update current isOpen =>
    obtain ⟨-, -, moved, hsent, hn⟩ := sends_update hT hp.config current isOpen hp.sends
    have hqueue : p.kcp.sndQueue = moved ++ (p.update T current isOpen).kcp.sndQueue := hn.sndQueue
    refine hsame rfl ?_
    rw [hsent, hqueue, List.append_assoc]
  | recv hpend =>
    have hout := outgoing_ikcpRecv p.kcp DataPath.recvBufferSize_nonneg
    exact hsame rfl (congrArg (p.sent ++ ·) (congrArg Outgoing.sndQueue hout))
  | transfer n => exact hsame rfl rfl
  | rewrite hr => exact hsame rfl rfl

/-- What `ikcp_recv` does to a queue of chunks: it takes the segments of the first one, or
nothing. -/
theorem Pumps.recv (hb : p.sent.length < 2 ^ 32) (h : Pumps p q)
    (hr : Receives p.sent taken r q.kcp.incoming) :
    (∃ n, (n = -1 ∨ n = -2) ∧ ikcpRecv q.kcp DataPath.recvBufferSize = (q.kcp, n, []) ∧
      ∃ j ≤ p.read.length, taken = bodies (fragments (p.read.take j)) ∧
        StrictPart (p.read.drop j) q.kcp.rcvQueue) ∨
    ∃ j chunk, p.read[j]? = some chunk ∧ taken = bodies (fragments (p.read.take j)) ∧
      bodies (takeMessage q.kcp.rcvQueue).1 = bodies (chunkSegs chunk) ∧
      ikcpRecv q.kcp DataPath.recvBufferSize =
        (fastRecover (decide (q.kcp.nrcvQue ≥ q.kcp.rcvWnd))
          (moveAvailable (dropMessage q.kcp).rcvBuf (dropMessage q.kcp)),
          (chunk.length : Int), chunk) := by
  obtain ⟨j, hj, htaken, hprefix⟩ := h.chunks hb hr
  rcases startsWhole_or_strictPart hprefix with ⟨chunk, more, tail, hrest, hqueue⟩ | hpart
  · have hat : p.read[j]? = some chunk := by
      rw [← List.head?_drop, hrest]
      rfl
    have hmem : chunk ∈ p.read := List.mem_of_getElem? hat
    obtain ⟨hmessage, he⟩ := recv_message h.tidy (h.small chunk hmem) hqueue
    exact Or.inr ⟨j, chunk, hat, htaken, hmessage, he⟩
  · have hsmall : ∀ chunk ∈ p.read.drop j, chunk.length ≤ 8192 :=
      fun chunk hc => h.small chunk (List.mem_of_mem_drop hc)
    obtain ⟨n, hn, he⟩ := recv_strictPart DataPath.recvBufferSize h.tidy hsmall hpart
    exact Or.inl ⟨n, hn, he, j, hj, htaken, hpart⟩

/-- The sending part and the clock of `q` do not matter. -/
theorem Pumps.of_window (h : Pumps p q) (hw : q'.kcp.window = q.kcp.window) : Pumps p q' where
  small := h.small
  cuts := h.cuts
  tidy := Tidy.of_window hw h.tidy
  aligned := by
    have hnxt : q'.kcp.rcvNxt = q.kcp.rcvNxt := congrArg Window.rcvNxt hw
    have hqueue : q'.kcp.rcvQueue = q.kcp.rcvQueue := congrArg Window.rcvQueue hw
    rw [hnxt, hqueue]
    exact h.aligned

/-- **The receiver takes a step.** -/
theorem pumps_receiver (hT : Lawful T Carries) (hb : p.sent.length < 2 ^ 32)
    (hl : Link retries Carries p q taken r) (hq : Sender q) (h : Pumps p q)
    (hs : DataPath.Step T retries (· ∈ p.emitted) q q') : Pumps p q' := by
  cases hs with
  | tcpToKcp chunk hlen =>
    have hk : (q.tcpToKcp chunk).kcp = _ := congrArg Prod.fst (ikcpSend_eq hq.config (by omega))
    refine h.of_window ?_
    rw [hk]
    rfl
  | feed d hd =>
    obtain ⟨segs, hcar, hcopy⟩ := hl.net d hd
    have hk : (q.feed T d).kcp = (inputSegs q.kcp segs).1 := feed_kcp hT hcar
    -- segments move to `rcv_queue` and none is taken, so `j` stays
    obtain ⟨r', hr'⟩ := progress_inputSegs hb q.kcp segs hl.receives hcopy
    rw [← hk] at hr'
    have hbefore : q.kcp.rcvNxt.toNat = taken.length + q.kcp.rcvQueue.length :=
      toNat_rcvNxt hb hl.receives
    have hafter : (q.feed T d).kcp.rcvNxt.toNat = taken.length + (q.feed T d).kcp.rcvQueue.length :=
      toNat_rcvNxt hb hr'.receives
    obtain ⟨j, hj, hcount⟩ := h.aligned
    refine ⟨h.small, h.cuts, ?_, j, hj, ?_⟩
    · rw [hk]
      exact h.tidy.inputSegs segs
    · omega
  | update current isOpen =>
    refine h.of_window ?_
    rw [(sends_update hT hq.config current isOpen hq.sends).1]
    exact window_ikcpUpdate q.kcp current
  | recv hpend =>
    have htidy : Tidy q.recv.1.kcp := h.tidy.recv DataPath.recvBufferSize_nonneg
    have hk : q.recv.1.kcp = (ikcpRecv q.kcp DataPath.recvBufferSize).1 := rfl
    rcases h.recv hb hl.receives with ⟨n, -, he, -⟩ | ⟨j, chunk, hat, htaken, hmessage, he⟩
    · rw [he] at hk
      refine ⟨h.small, h.cuts, htidy, ?_⟩
      rw [hk]
      exact h.aligned
    · -- the segments of the chunk at `j` have been taken
      obtain ⟨r', hr'⟩ := progress_moveAvailable hb _ _ rfl (receives_dropMessage hl.receives)
      have hin : q.recv.1.kcp.incoming =
          (moveAvailable (dropMessage q.kcp).rcvBuf (dropMessage q.kcp)).incoming := by
        rw [hk, he, incoming_fastRecover]
      rw [← hin] at hr'
      have hnxt : q.recv.1.kcp.rcvNxt.toNat = _ + q.recv.1.kcp.rcvQueue.length :=
        toNat_rcvNxt hb hr'.receives
      have hlt : j < p.read.length := (List.getElem?_eq_some_iff.mp hat).1
      refine ⟨h.small, h.cuts, htidy, j + 1, hlt, ?_⟩
      have hnext : fragments (p.read.take (j + 1)) = fragments (p.read.take j) ++ chunkSegs chunk := by
        rw [List.take_add_one, hat, fragments_append]
        exact congrArg (_ ++ ·) (List.append_nil _)
      have hcount : (taken ++ bodies (takeMessage q.kcp.rcvQueue).1).length =
          (fragments (p.read.take (j + 1))).length := by
        rw [hmessage, htaken, hnext, List.length_append, List.length_append, List.length_map,
          List.length_map]
      rw [hnxt, hcount]
  | transfer n => exact h.of_window rfl
  | rewrite hr => exact h.of_window rfl

/-- Two data paths each of which reads what the other sends, chunk by chunk. -/
structure Pumped (retries : Prop) (Carries : D → List (WireSeg α) → Prop) (p q : DataPath α D B) :
    Prop extends Joined retries Carries p q where
  pumpsUp : Pumps p q
  pumpsDown : Pumps q p

theorem Pumped.symm (h : Pumped retries Carries p q) : Pumped retries Carries q p :=
  ⟨h.toJoined.symm, h.pumpsDown, h.pumpsUp⟩

theorem Fresh.pumped (hp : Fresh p) (hq : Fresh q) : Pumped retries Carries p q :=
  ⟨hp.joined hq, hp.pumps hq, hq.pumps hp⟩

/-- **One of the two takes a step**, receiving what the other has sent. -/
theorem pumped_step (hT : Lawful T Carries) (hb : q.sent.length < 2 ^ 32)
    (h : Pumped retries Carries p q) (hs : DataPath.Step T retries (· ∈ q.emitted) p p') :
    Pumped retries Carries p' q := by
  obtain ⟨_, _, hup, -⟩ := h.up
  obtain ⟨_, _, hdown, -⟩ := h.down
  exact ⟨joined_step hT hb h.toJoined hs, pumps_sender hT hup.toSender h.pumpsUp hs,
    pumps_receiver hT hb hdown hup.toSender h.pumpsDown hs⟩

theorem pumped_steps (hT : Lawful T Carries) (hb : q.sent.length < 2 ^ 32)
    (h : Pumped retries Carries p q) (hs : DataPath.Steps T retries (· ∈ q.emitted) p p') :
    Pumped retries Carries p' q := by
  induction hs with
  | refl => exact h
  | tail _ hs ih => exact pumped_step hT hb ih hs

/-! ## What a pumped data path returns -/

/-- What `ikcp_recv` returns: the message at the head of `rcv_queue` if that is complete. -/
structure Returns (read : List (List α)) (kcp : Ikcpcb α) : Prop where
  complete : (∃ seg ∈ kcp.rcvQueue, seg.frg = 0) →
    segData (takeMessage kcp.rcvQueue).1 ∈ read ∧
    (ikcpRecv kcp DataPath.recvBufferSize).2 =
      (((segData (takeMessage kcp.rcvQueue).1).length : Int), segData (takeMessage kcp.rcvQueue).1)
  fits : (ikcpRecv kcp DataPath.recvBufferSize).2.1 ≠ -3
  nonempty : (ikcpRecv kcp DataPath.recvBufferSize).2.1 ≠ 0

/-- There is nothing left to hand to the TCP socket: the first `j` chunks have been handed
to it, `rcv_queue` holds part of the next one, and the segment after that is missing. -/
def Drained (p q : DataPath α D B) : Prop :=
  ∃ j ≤ p.read.length, Handed True (p.read.take j).flatten q ∧ q.pending = [] ∧
    StrictPart (p.read.drop j) q.kcp.rcvQueue ∧ q.kcp.rcvQueue.length < 6 ∧
    ∀ seg ∈ q.kcp.rcvBuf, seg.sn ≠ q.kcp.rcvNxt

/-- In a strict part no fragment is the last one. -/
theorem frg_ne_of_strictPart {rest : List (List α)} (hsmall : ∀ chunk ∈ rest, chunk.length ≤ 8192)
    {queue : List (IkcpSeg α)} (h : StrictPart rest queue) : ∀ seg ∈ queue, seg.frg ≠ 0 := by
  intro seg hseg
  rcases h with hnil | ⟨chunk, more, hrest, hlt, tail, htail⟩
  · rw [hnil] at hseg
    cases hseg
  · have hlen : chunk.length ≤ 8192 := hsmall chunk (by rw [hrest]; exact List.mem_cons_self ..)
    have hle := length_chunkSegs_le hlen
    have hcount := length_chunkSegs chunk
    obtain ⟨k, hk⟩ := List.getElem?_of_mem hseg
    have hkl : k < queue.length := (List.getElem?_eq_some_iff.mp hk).1
    have hat : (bodies (chunkSegs chunk))[k]? = some seg.body := by
      rw [← htail, List.getElem?_append_left (by rw [List.length_map]; exact hkl),
        List.getElem?_map, hk]
      rfl
    rw [List.getElem?_map] at hat
    obtain ⟨seg', hseg', hbody⟩ := Option.map_eq_some_iff.mp hat
    have hfrg := frg_fragment (by omega) chunk hseg'
    have hsame : seg'.frg = seg.frg := congrArg Prod.fst hbody
    intro hzero
    rw [← hsame, hfrg] at hzero
    have h0 := (SerialNumber.ofNat_inj (by omega) (by omega : 0 < 2 ^ 32)).mp hzero
    omega

theorem Pumps.returns (hb : p.sent.length < 2 ^ 32) (h : Pumps p q)
    (hr : Receives p.sent taken r q.kcp.incoming) (hne : ∀ chunk ∈ p.read, 0 < chunk.length) :
    Returns p.read q.kcp := by
  rcases h.recv hb hr with ⟨n, hn, he, j, -, -, hpart⟩ | ⟨j, chunk, hat, -, hmessage, he⟩
  · have hfrg := frg_ne_of_strictPart (fun c hc => h.small c (List.mem_of_mem_drop hc)) hpart
    refine ⟨?_, ?_, ?_⟩
    · rintro ⟨seg, hseg, hzero⟩
      exact absurd hzero (hfrg seg hseg)
    · rw [he]
      show n ≠ -3
      omega
    · rw [he]
      show n ≠ 0
      omega
  · have hdata : segData (takeMessage q.kcp.rcvQueue).1 = chunk :=
      (segData_congr hmessage).trans (segData_chunkSegs chunk)
    have hmem : chunk ∈ p.read := List.mem_of_getElem? hat
    have hpos := hne chunk hmem
    refine ⟨?_, ?_, ?_⟩
    · intro _
      rw [he, hdata]
      exact ⟨hmem, rfl⟩
    · rw [he]
      show (chunk.length : Int) ≠ -3
      omega
    · rw [he]
      show (chunk.length : Int) ≠ 0
      omega

/-- **A drain loop that leaves has handed over everything complete.** -/
theorem drained_recv (hb : p.sent.length < 2 ^ 32) (hl : Link True Carries p q taken r)
    (h : Pumps p q) (hne : ∀ chunk ∈ p.read, 0 < chunk.length) (hpend : q.pending = [])
    (hleave : q.recv.2 ≤ 0) : Drained p q.recv.1 := by
  have hk : q.recv.1.kcp = (ikcpRecv q.kcp DataPath.recvBufferSize).1 := rfl
  have hvalue : q.recv.2 = (ikcpRecv q.kcp DataPath.recvBufferSize).2.1 := rfl
  rcases h.recv hb hl.receives with ⟨n, -, he, j, hj, htaken, hpart⟩ | ⟨j, chunk, hat, -, -, he⟩
  · have hhanded := hl.handed.recv hpend
    rw [he, List.append_nil, htaken, bodyData_map_body, segData_fragments_flatten] at hhanded
    rw [he] at hk
    have hshort : q.kcp.rcvQueue.length < 6 := by
      rcases hpart with hnil | ⟨chunk, more, hrest, hlt, -⟩
      · rw [hnil]
        exact Nat.zero_lt_succ _
      · have hmem : chunk ∈ p.read.drop j := by
          rw [hrest]
          exact List.mem_cons_self ..
        have hle := length_chunkSegs_le (h.small chunk (List.mem_of_mem_drop hmem))
        omega
    refine ⟨j, hj, hhanded, Forwarder.pending_recv_of_nonpos q hleave, ?_⟩
    rw [hk]
    refine ⟨hpart, hshort, ?_⟩
    intro seg hseg hsn
    have hfull := h.tidy.next seg hseg hsn
    omega
  · -- a chunk is not empty, so the loop goes on
    have hpos := hne chunk (List.mem_of_getElem? hat)
    rw [hvalue, he] at hleave
    have hle : (chunk.length : Int) ≤ 0 := hleave
    omega

end Pumps

/-! ## The coroutines -/

/-- The events that resume the kcp to tcp coroutine before its drain loop. -/
def Event.Drains : Event α D → Prop
  | .writerRun _ => True
  | .tick _ => True
  | .writeOk => True
  | _ => False

namespace Forwarder
variable {T : Transport α D B} {role : Role} {f f' : Forwarder α D B} {retries : Prop}

/-- Only the tcp to kcp coroutine reads, and what it reads is not empty. -/
theorem read_step {e : Event α D} (h : step T role f e = some f') :
    f'.read = f.read ∨ ∃ chunk, 0 < chunk.length ∧ f'.read = f.read ++ [chunk] := by
  have hdrain : ∀ g : Forwarder α D B, g.drain.read = g.read :=
    fun g => by rw [toDataPath_drain]; rfl
  cases hwork : e.work T f.toDataPath with
  | some p =>
    have hread := congrArg DataPath.read (sameWork_step T hwork h).dataPath
    rcases work_cases T hwork h with rfl | ⟨chunk, hpos, -, rfl⟩ | ⟨d, -, rfl⟩
    · exact Or.inl hread
    · exact Or.inr ⟨chunk, hpos, hread⟩
    · exact Or.inl hread
  | none =>
    cases e with
    | writerRun now | tick now =>
      obtain ⟨-, h⟩ := Option.ite_none_right_eq_some.mp h
      cases h
      left
      unfold writerLoop
      split
      · exact hdrain _
      · rfl
    | writeOk =>
      obtain ⟨-, h⟩ := Option.ite_none_right_eq_some.mp h
      cases h
      exact Or.inl (hdrain f)
    | connected | connectFailed | transfer n | writeAgain | writeError | retry =>
      obtain ⟨-, h⟩ := Option.ite_none_right_eq_some.mp h
      cases h
      exact Or.inl rfl
    | _ => cases hwork

/-- No chunk that has been read is empty. -/
def ReadsBytes (f : Forwarder α D B) : Prop := ∀ chunk ∈ f.read, 0 < chunk.length

theorem readsBytes_step {e : Event α D} (hf : f.ReadsBytes) (h : step T role f e = some f') :
    f'.ReadsBytes := by
  rcases read_step h with hread | ⟨chunk, hpos, hread⟩
  · rw [ReadsBytes, hread]
    exact hf
  · rw [ReadsBytes, hread]
    intro c hc
    rcases List.mem_append.mp hc with hold | hnew
    · exact hf c hold
    · rw [List.mem_singleton.mp hnew]
      exact hpos

/-- **The drain loop leaves** because `ikcp_recv` has returned nothing. -/
theorem leaves_of_drain (h : f.drain.writer = .sleeping) : f.toDataPath.recv.2 ≤ 0 := by
  unfold drain at h
  dsimp only at h
  split at h
  · rename_i hle
    exact hle
  · cases h

/-- A kcp to tcp coroutine that sleeps when it has been resumed: its drain loop has left,
after an update or after the end of a write. -/
theorem drains_cases (hf : Calm retries f) {e : Event α D} (he : e.Drains)
    (h : step T role f e = some f') (hsleep : f'.writer = .sleeping) :
    ∃ p : DataPath α D B, (p = f.toDataPath ∨ ∃ now, p = f.toDataPath.update T now f.isOpen) ∧
      p.pending = [] ∧ p.recv.2 ≤ 0 ∧ f'.toDataPath = p.recv.1 := by
  have hloop : ∀ now, f.pending = [] → ({ f with now := now }.writerLoop T).writer = .sleeping →
      ∃ p : DataPath α D B, (p = f.toDataPath ∨ ∃ now, p = f.toDataPath.update T now f.isOpen) ∧
        p.pending = [] ∧ p.recv.2 ≤ 0 ∧
        ({ f with now := now }.writerLoop T).toDataPath = p.recv.1 := by
    intro now hpend hs
    unfold writerLoop at hs ⊢
    by_cases hrun : f.isRunning = some true
    · rw [if_pos hrun] at hs ⊢
      exact ⟨_, Or.inr ⟨_, rfl⟩, hpend, leaves_of_drain hs, toDataPath_drain _⟩
    · rw [if_neg hrun] at hs
      cases hs
  -- in each of the three cases the write before, if there was one, is done
  have hcalm := hf.writer
  cases e with
  | writerRun now =>
    obtain ⟨hw, h⟩ := Option.ite_none_right_eq_some.mp h
    cases h
    rw [hw] at hcalm
    exact hloop now hcalm hsleep
  | tick now =>
    obtain ⟨⟨hw, -⟩, h⟩ := Option.ite_none_right_eq_some.mp h
    cases h
    rw [hw] at hcalm
    exact hloop now hcalm hsleep
  | writeOk =>
    obtain ⟨⟨-, hp⟩, h⟩ := Option.ite_none_right_eq_some.mp h
    cases h
    exact ⟨f.toDataPath, Or.inl rfl, List.length_eq_zero_iff.mp hp, leaves_of_drain hsleep,
      toDataPath_drain f⟩
  | _ => cases he

/-- Whenever `ikcp_recv` is called at `f`, it returns what is complete: at once after a write,
or after an update. -/
def PumpReturns (T : Transport α D B) (read : List (List α)) (f : Forwarder α D B) : Prop :=
  Returns read f.kcp ∧ ∀ now isOpen, Returns read (f.toDataPath.update T now isOpen).kcp

theorem pumpReturns_of_pumped {Carries : D → List (WireSeg α) → Prop} (hT : Lawful T Carries)
    {p : DataPath α D B} (hb : p.sent.length < 2 ^ 32)
    (hp : Pumped retries Carries f.toDataPath p) (hread : ∀ chunk ∈ p.read, 0 < chunk.length) :
    f.PumpReturns T p.read := by
  have hreturns : ∀ q : DataPath α D B, Pumped retries Carries q p → Returns p.read q.kcp := by
    intro q hq
    obtain ⟨_, _, hlink, -⟩ := hq.down
    exact hq.pumpsDown.returns hb hlink.receives hread
  exact ⟨hreturns _ hp, fun now isOpen =>
    hreturns _ (pumped_step hT hb hp (DataPath.Step.update _ now isOpen))⟩

/-- **When the drain loop has left, nothing complete is left.** -/
theorem drained_of_drains {Carries : D → List (WireSeg α) → Prop} (hT : Lawful T Carries)
    {p : DataPath α D B} (hb : p.sent.length < 2 ^ 32) (hcalm : Calm True f)
    (hp : Pumped True Carries f.toDataPath p) (hread : ∀ chunk ∈ p.read, 0 < chunk.length)
    {e : Event α D} (he : e.Drains) (h : step T role f e = some f')
    (hsleep : f'.writer = .sleeping) : Drained p f'.toDataPath := by
  obtain ⟨q, hq, hpend, hleave, heq⟩ := drains_cases hcalm he h hsleep
  have hpq : Pumped True Carries q p := by
    rcases hq with rfl | ⟨now, rfl⟩
    · exact hp
    · exact pumped_step hT hb hp (DataPath.Step.update _ now _)
  obtain ⟨_, _, hlink, -⟩ := hpq.down
  rw [heq]
  exact drained_recv hb hlink hpq.pumpsDown hread hpend hleave

end Forwarder

/-! ## The tunnel -/

namespace Tunnel
variable [DecidableEq D] {T : Transport α D B} {Carries : D → List (WireSeg α) → Prop}
  {t t' : Tunnel α D B}

/-- Both directions are pumped, and nothing empty has been read. -/
structure IsPumped (Carries : D → List (WireSeg α) → Prop) (t : Tunnel α D B) : Prop where
  pumped : Pumped True Carries t.client.toDataPath t.server.toDataPath
  client : t.client.ReadsBytes
  server : t.server.ReadsBytes

theorem isPumped_step (hT : Lawful T Carries) (hs : t.Sound True) (hp : t.IsPumped Carries)
    {e : TunnelEvent α D} (hb : t'.SentBelow (2 ^ 32)) (h : step T t e = some t') :
    t'.IsPumped Carries := by
  have hcases := (step_cases hs (fun hn => absurd trivial hn) h).2
  have hpumped : Pumped True Carries t'.client.toDataPath t'.server.toDataPath := by
    rcases hcases with ⟨hsame, hsteps⟩ | ⟨hsame, hsteps⟩
    · rw [hsame]
      exact pumped_steps hT (hsame ▸ hb.2) hp.pumped hsteps
    · rw [hsame]
      exact (pumped_steps hT (hsame ▸ hb.1) hp.pumped.symm hsteps).symm
  cases e with
  | client e =>
    obtain ⟨-, h⟩ := Option.ite_none_right_eq_some.mp h
    obtain ⟨f, hf, rfl⟩ := Option.map_eq_some_iff.mp h
    exact ⟨hpumped, Forwarder.readsBytes_step hp.client hf, hp.server⟩
  | server e =>
    obtain ⟨-, h⟩ := Option.ite_none_right_eq_some.mp h
    obtain ⟨f, hf, rfl⟩ := Option.map_eq_some_iff.mp h
    exact ⟨hpumped, hp.client, Forwarder.readsBytes_step hp.server hf⟩

theorem sound_exec {client server : B × Bool} {run : List (TunnelEvent α D)}
    (hrun : exec (step T) (started client server) run = some t) : t.Sound True :=
  exec_invariant (fun _ _ _ hs h => (step_cases hs (fun hn => absurd trivial hn) h).1)
    (sound_started client server) hrun

/-- **Every run is pumped** in which fewer than `2^32` segments are sent. -/
theorem isPumped_exec (hT : Lawful T Carries) {client server : B × Bool}
    {run : List (TunnelEvent α D)} (hrun : exec (step T) (started client server) run = some t)
    (hb : t.SentBelow (2 ^ 32)) : t.IsPumped Carries := by
  have hagain : ∀ e : TunnelEvent α D, ¬ True → NoTryAgain e := fun _ hn => absurd trivial hn
  have hbase : ∀ (s : Tunnel α D B) e s', s.Sound True → True → step T s e = some s' →
      s'.Sound True := fun _ e _ hs _ h => (step_cases hs (hagain e) h).1
  have hbelow : ∀ (s : Tunnel α D B) e s', s.Sound True → True → step T s e = some s' →
      s'.SentBelow (2 ^ 32) → s.SentBelow (2 ^ 32) :=
    fun _ e _ hs _ h hb => sentBelow_of_step hs (hagain e) h hb
  have hstep : ∀ (s : Tunnel α D B) e s', s.Sound True → s.IsPumped Carries → True →
      s'.SentBelow (2 ^ 32) → step T s e = some s' → s'.IsPumped Carries :=
    fun _ _ _ hs hp _ hb h => isPumped_step hT hs hp hb h
  have halong : Along (step T) (fun _ _ => True) (started client server) run :=
    along_of_forall (P := fun _ => True) (started client server) (fun _ _ => trivial)
  have hstart : (started client server : Tunnel α D B).IsPumped Carries :=
    ⟨(fresh_started .client client.1 client.2).pumped (fresh_started .server server.1 server.2),
      fun _ h => absurd h List.not_mem_nil, fun _ h => absurd h List.not_mem_nil⟩
  exact exec_invariant_below hbase hbelow hstep (sound_started client server) hstart halong hrun hb

/-- The last event of a run, and the state before it. -/
theorem before_last (hT : Lawful T Carries) {client server : B × Bool}
    {run : List (TunnelEvent α D)} (hrun : exec (step T) (started client server) run = some t)
    (hb : t.SentBelow (2 ^ 32)) {e : TunnelEvent α D} (hlast : run.getLast? = some e) :
    ∃ s, s.Sound True ∧ s.IsPumped Carries ∧ s.SentBelow (2 ^ 32) ∧ step T s e = some t := by
  obtain ⟨front, rfl⟩ := List.getLast?_eq_some_iff.mp hlast
  obtain ⟨s, hs, he⟩ := exec_append_eq_some.mp hrun
  rw [exec_singleton] at he
  have hsound := sound_exec hs
  have hbs := sentBelow_of_step hsound (fun hn => absurd trivial hn) he hb
  exact ⟨s, hsound, isPumped_exec hT hs hbs, hbs, he⟩

/-- **The kcp to tcp pump never stalls on what is complete**, at either end, in every run
in which fewer than `2^32` segments are numbered.  Whenever `ikcp_recv` is called it returns
the message at the head of `rcv_queue` if that is complete, never `-3` and never `0`; and when
the drain loop has left, all that is complete and contiguous has been handed to the TCP
socket. -/
theorem pump_never_stalls (checkSum : Bool) (client server : List UInt8 × Bool)
    (run : List (TunnelEvent UInt8 (List UInt8))) (t : Tunnel UInt8 (List UInt8) (List UInt8))
    (hrun : exec (step (udp checkSum)) (started client server) run = some t)
    (hsent : t.SentBelow (2 ^ 32)) :
    (t.server.PumpReturns (udp checkSum) t.client.read ∧
      t.client.PumpReturns (udp checkSum) t.server.read) ∧
    (∀ e, run.getLast? = some (.server e) → e.Drains → t.server.writer = .sleeping →
      Drained t.client.toDataPath t.server.toDataPath) ∧
    (∀ e, run.getLast? = some (.client e) → e.Drains → t.client.writer = .sleeping →
      Drained t.server.toDataPath t.client.toDataPath) := by
  have hT := lawful_udp checkSum
  have hp := isPumped_exec hT hrun hsent
  refine ⟨⟨?_, ?_⟩, ?_, ?_⟩
  · exact Forwarder.pumpReturns_of_pumped hT hsent.1 hp.pumped.symm hp.client
  · exact Forwarder.pumpReturns_of_pumped hT hsent.2 hp.pumped hp.server
  · intro e hlast he hsleep
    obtain ⟨s, hs, hps, hb, h⟩ := before_last hT hrun hsent hlast
    obtain ⟨-, h⟩ := Option.ite_none_right_eq_some.mp h
    obtain ⟨f, hf, rfl⟩ := Option.map_eq_some_iff.mp h
    exact Forwarder.drained_of_drains hT hb.1 hs.server hps.pumped.symm hps.client he hf hsleep
  · intro e hlast he hsleep
    obtain ⟨s, hs, hps, hb, h⟩ := before_last hT hrun hsent hlast
    obtain ⟨-, h⟩ := Option.ite_none_right_eq_some.mp h
    obtain ⟨f, hf, rfl⟩ := Option.map_eq_some_iff.mp h
    exact Forwarder.drained_of_drains hT hb.2 hs.client hps.pumped hps.server he hf hsleep

/-- The server has written the three bytes it received, and its drain loop has left. -/
theorem pump_never_stalls_shortRun :
    ∃ t : Tunnel UInt8 (List UInt8) (List UInt8),
      exec (step (udp true)) (started ([], false) ([], true))
        (shortRun ++ [.server (.transfer 1), .server .writeOk]) = some t ∧
      t.server.written = [1, 2, 3] ∧ t.server.PumpReturns (udp true) t.client.read ∧
      Drained t.client.toDataPath t.server.toDataPath := by
  have hobs : (exec (step (udp true)) (started ([], false) ([], true))
      (shortRun ++ [.server (.transfer 1), .server .writeOk])).map
        (fun t => (t.server.written, t.client.sent.length, t.server.sent.length, t.server.writer)) =
          some ([1, 2, 3], 1, 0, .sleeping) := by
    decide +kernel
  obtain ⟨t, hrun, hobs⟩ := Option.map_eq_some_iff.mp hobs
  simp only [Prod.mk.injEq] at hobs
  obtain ⟨hwritten, hclient, hserver, hsleep⟩ := hobs
  have hall := pump_never_stalls true ([], false) ([], true) _ t hrun
    ⟨by rw [hclient]; decide, by rw [hserver]; decide⟩
  exact ⟨t, hrun, hwritten, hall.1.1, hall.2.1 .writeOk rfl trivial hsleep⟩

/-- A segment of a message sent at the start. -/
def fragmentOf (frg : UInt8) (sn : UInt32) (data : List UInt8) : WireSeg UInt8 :=
  ⟨forwarderConv, 81, frg, 1024, 7, sn, 0, data⟩

/-- A message of three segments is read by the client and written by the server. -/
def threeSegments : List (TunnelEvent UInt8 (List UInt8)) :=
  [.client .readerRun, .client .feederRun, .client (.tcpData (List.replicate 2753 7)),
    .client (.writerRun 7), .server .connected, .server .readerRun, .server .feederRun,
    .server (.writerRun 9), .server (.udpData (datagramOf [fragmentOf 2 0 (List.replicate 1376 7)])),
    .server (.udpData (datagramOf [fragmentOf 1 1 (List.replicate 1376 7)])),
    .server (.udpData (datagramOf [fragmentOf 0 2 [7]])), .server (.tick 19),
    .server (.transfer 2753), .server .writeOk,
    .client (.udpData (datagramOf [segmentOf 82 1021 7 0 3 [], segmentOf 82 1021 7 1 3 [],
      segmentOf 82 1021 7 2 3 []]))]

theorem threeSegments_atRest :
    ∃ t ∈ exec (step (udp true)) (started ([], false) ([], true)) threeSegments,
      t.AtRest 0 3 ∧ datagramOf [fragmentOf 1 1 (List.replicate 1376 7)] ∈ t.client.emitted ∧
      t.client.read = [List.replicate 2753 7] := by
  decide +kernel

/-- **When the numbers come round the pump stalls.**  After `2^32 + 1` segments the datagram
with segment 1, sent long ago, is accepted as the next one, and what is then at the head of
`rcv_queue` is not part of any message. -/
theorem pump_stalls_when_numbers_come_round :
    ∃ run e, ∃ t : Tunnel UInt8 (List UInt8) (List UInt8),
      exec (step (udp true)) (started ([], false) ([], true)) run = some t ∧
      run.getLast? = some (.server e) ∧ e.Drains ∧ t.server.writer = .sleeping ∧
      t.server.kcp.rcvQueue ≠ [] ∧
      ∀ chunk ∈ t.client.read, ¬ bodies t.server.kcp.rcvQueue <+: bodies (chunkSegs chunk) := by
  have hT := lawful_udp true
  obtain ⟨t₀, hrun₀, hrest₀, hmem₀, hread₀⟩ := threeSegments_atRest
  obtain ⟨run₁, t₁, hrun₁, -, hrest₁, hpassed⟩ :=
    rounds hT hrest₀ [7] (by decide) (by decide) (2 ^ 32 - 2)
  have hone : (3 : UInt32) + UInt32.ofNat (2 ^ 32 - 2) = 1 := by decide +kernel
  rw [hone] at hrest₁
  have hmem := hpassed.emitted.subset hmem₀
  have hframed : Framed true (datagramOf [fragmentOf 1 1 (List.replicate 1376 7)])
      [fragmentOf 1 1 (List.replicate 1376 7)] := ⟨rfl, by decide +kernel⟩
  obtain ⟨now, g, hrun₂, hready, hqueue⟩ := late_part hT hrest₁
    ⟨rfl, rfl, show (1024 : UInt16) ≠ 0 by decide, rfl⟩ (show (1 : UInt8) ≠ 0 by decide)
    (show (1 : UInt8).toNat < 128 by decide) hmem hframed
  refine ⟨_, .tick now, _, exec_append_eq_some.mpr ⟨t₀, hrun₀, exec_append_eq_some.mpr
    ⟨t₁, hrun₁, hrun₂⟩⟩, ?_, trivial, hready.writer, ?_, ?_⟩
  · rw [List.getLast?_append, List.getLast?_append]
    rfl
  · show g.kcp.rcvQueue ≠ []
    rw [hqueue]
    exact List.cons_ne_nil _ _
  · -- a message of one segment or of three starts with `frg` 0 or 2
    intro chunk hchunk
    have hcases : chunk = List.replicate 2753 7 ∨ chunk = [7] := by
      have hin : chunk ∈ t₁.client.read := hchunk
      rw [hpassed.read, hread₀] at hin
      rcases List.mem_append.mp hin with hold | hnew
      · exact Or.inl (List.mem_singleton.mp hold)
      · exact Or.inr (List.eq_of_mem_replicate hnew)
    show ¬ bodies g.kcp.rcvQueue <+: _
    rw [hqueue]
    rintro ⟨tail, htail⟩
    have hlen : chunk.length ≤ 8192 := by
      rcases hcases with rfl | rfl
      · rw [List.length_replicate]
        decide
      · decide
    have hfirst : (bodies (chunkSegs chunk))[0]? =
        some (pushSeg (fragmentOf 1 1 (List.replicate 1376 7))).body := by
      rw [← htail]
      rfl
    have hcount := frg_head hlen hfirst
    rw [length_chunkSegs] at hcount
    rcases hcases with rfl | rfl
    · rw [List.length_replicate] at hcount
      exact absurd hcount (by decide)
    · exact absurd hcount (by decide)

end Tunnel
end FlexProxy
