import FlexProxy.KcpWindow

/-! # The send window

Segments that have been numbered wait in `snd_buf`, in the order of their numbers, until
they are acknowledged.  `snd_una` is the number of the first of them, and `snd_nxt` is at
most a window ahead of it (`SendWindow`).

No datagram can break that, whatever its bytes are: an acknowledgement only takes
segments out of `snd_buf`, and `ikcp_shrink_buf` reads `snd_una` off what is left
(`SendWindow.inputSegs`).
-/
namespace FlexProxy
variable {α : Type}

/-! ## Distances -/

/-- The distance from a word on the way. -/
theorem ahead_sub {a b c : UInt32} (h : ahead a b ≤ ahead a c) :
    ahead b c = ahead a c - ahead a b := by
  have hsub : c - b = (c - a) - (b - a) := by grind
  have hle : b - a ≤ c - a := UInt32.le_iff_toNat_le.mpr h
  rw [ahead, ahead, ahead, hsub, UInt32.toNat_sub_of_le _ _ hle]

theorem ahead_add_one {a b : UInt32} (h : ahead a b < 2 ^ 32 - 1) :
    ahead a (b + 1) = ahead a b + 1 := by
  have hadd : b + 1 - a = (b - a) + 1 := by grind
  have hlt : (b - a).toNat < 2 ^ 32 - 1 := h
  rw [ahead, ahead, hadd, UInt32.toNat_add]
  show ((b - a).toNat + 1) % 2 ^ 32 = _
  omega

theorem ahead_add {a : UInt32} (n : UInt32) : ahead a (a + n) = n.toNat := by
  rw [ahead, show a + n - a = n by grind]

/-! ## The invariant -/

/-- The number of the first segment held, `nxt` if none is. -/
def firstHeld (nxt : UInt32) : List (SegKey α) → UInt32
  | [] => nxt
  | x :: _ => x.sn

/-- `snd_buf` holds segments numbered from `una` on, in order, and at most a window of them
has been numbered since. -/
structure SendWindow (una : UInt32) (o : Outgoing α) : Prop where
  first : una = firstHeld o.sndNxt o.sndBuf
  span : ahead una o.sndNxt ≤ 1024
  inside : ∀ x ∈ o.sndBuf, ahead una x.sn < ahead una o.sndNxt
  sorted : o.sndBuf.Pairwise (fun a b => ahead una a.sn < ahead una b.sn)

section
variable {una : UInt32} {o o' : Outgoing α}

theorem sendWindow_forwarderKcp :
    SendWindow (forwarderKcp (α := α)).sndUna (forwarderKcp (α := α)).outgoing where
  first := rfl
  span := by
    show ahead 0 0 ≤ 1024
    decide
  inside := fun _ h => nomatch h
  sorted := List.Pairwise.nil

/-- At most a window of segments is held. -/
theorem SendWindow.length_le (h : SendWindow una o) : o.sndBuf.length ≤ 1024 := by
  have hnodup : (o.sndBuf.map (fun x => ahead una x.sn)).Nodup :=
    List.pairwise_map.mpr (h.sorted.imp (fun hlt => Nat.ne_of_lt hlt))
  have hsub : o.sndBuf.map (fun x => ahead una x.sn) ⊆ List.range (ahead una o.sndNxt) := by
    intro n hn
    obtain ⟨x, hx, rfl⟩ := List.mem_map.mp hn
    exact List.mem_range.mpr (h.inside x hx)
  have hlen := (hnodup.subperm hsub).length_le
  rw [List.length_map, List.length_range] at hlen
  exact Nat.le_trans hlen h.span

/-- What is held starts at `una` or behind it, and ends before `snd_nxt`. -/
theorem SendWindow.firstHeld_le (h : SendWindow una o) (hsub : o'.sndBuf.Sublist o.sndBuf)
    (hnxt : o'.sndNxt = o.sndNxt) :
    ahead una (firstHeld o'.sndNxt o'.sndBuf) ≤ ahead una o.sndNxt ∧
      ∀ x ∈ o'.sndBuf, ahead una (firstHeld o'.sndNxt o'.sndBuf) ≤ ahead una x.sn := by
  cases hbuf : o'.sndBuf with
  | nil =>
    refine ⟨?_, fun _ hx => nomatch hx⟩
    show ahead una o'.sndNxt ≤ _
    rw [hnxt]
  | cons x rest =>
    rw [hbuf] at hsub
    have hsorted := h.sorted.sublist hsub
    refine ⟨Nat.le_of_lt (h.inside x (hsub.subset (List.mem_cons_self ..))), ?_⟩
    intro y hy
    rcases List.mem_cons.mp hy with rfl | hy
    · exact Nat.le_refl _
    · exact Nat.le_of_lt ((List.pairwise_cons.mp hsorted).1 y hy)

/-- **Taking segments out of `snd_buf` and reading `snd_una` off what is left keeps the
window.** -/
theorem SendWindow.release (h : SendWindow una o) (hsub : o'.sndBuf.Sublist o.sndBuf)
    (hnxt : o'.sndNxt = o.sndNxt) : SendWindow (firstHeld o'.sndNxt o'.sndBuf) o' := by
  obtain ⟨hle, hfirst⟩ := h.firstHeld_le hsub hnxt
  generalize hnew : firstHeld o'.sndNxt o'.sndBuf = new at hle hfirst
  have hto : ∀ x ∈ o'.sndBuf, ahead new x.sn = ahead una x.sn - ahead una new :=
    fun x hx => ahead_sub (hfirst x hx)
  have hend : ahead new o'.sndNxt = ahead una o.sndNxt - ahead una new := by
    rw [hnxt]
    exact ahead_sub hle
  have hspan := h.span
  refine ⟨hnew.symm, ?_, ?_, ?_⟩
  · rw [hend]
    omega
  · intro x hx
    have hin := h.inside x (hsub.subset hx)
    have hge := hfirst x hx
    rw [hto x hx, hend]
    omega
  · refine (h.sorted.sublist hsub).imp_of_mem (fun {a b} ha hb hab => ?_)
    have hge := hfirst a ha
    rw [hto a ha, hto b hb]
    omega

/-- A segment is numbered while less than a window has been. -/
theorem SendWindow.number (h : SendWindow una o) (hroom : ahead una o.sndNxt < 1024)
    {x : SegKey α} (hx : x.sn = o.sndNxt) (hbuf : o'.sndBuf = o.sndBuf ++ [x])
    (hnxt : o'.sndNxt = o.sndNxt + 1) : SendWindow una o' := by
  have hsucc : ahead una o'.sndNxt = ahead una o.sndNxt + 1 := by
    rw [hnxt]
    exact ahead_add_one (by omega)
  refine ⟨?_, ?_, ?_, ?_⟩
  · rw [hbuf]
    cases hold : o.sndBuf with
    | nil =>
      have hfirst := h.first
      rw [hold] at hfirst
      exact hfirst.trans hx.symm
    | cons y rest =>
      have hfirst := h.first
      rw [hold] at hfirst
      exact hfirst
  · rw [hsucc]
    omega
  · intro y hy
    rw [hsucc]
    rw [hbuf] at hy
    rcases List.mem_append.mp hy with hy | hy
    · have hin := h.inside y hy
      omega
    · rw [List.mem_singleton.mp hy, hx]
      exact Nat.lt_succ_self _
  · rw [hbuf]
    refine List.pairwise_append.mpr ⟨h.sorted, List.pairwise_singleton _ _, ?_⟩
    intro y hy z hz
    rw [List.mem_singleton.mp hz, hx]
    exact h.inside y hy

end

/-! ## What arrives -/

/-- `ikcp_shrink_buf` reads `snd_una` off `snd_buf`. -/
theorem sndUna_ikcpShrinkBuf (kcp : Ikcpcb α) :
    (ikcpShrinkBuf kcp).sndUna = firstHeld kcp.outgoing.sndNxt kcp.outgoing.sndBuf := by
  unfold ikcpShrinkBuf
  cases h : kcp.sndBuf with
  | nil =>
    have hbuf : kcp.outgoing.sndBuf = [] := congrArg (List.map IkcpSeg.key) h
    rw [hbuf]
    rfl
  | cons seg rest =>
    have hbuf : kcp.outgoing.sndBuf = seg.key :: rest.map IkcpSeg.key :=
      congrArg (List.map IkcpSeg.key) h
    rw [hbuf]
    rfl

section
variable {kcp : Ikcpcb α}

theorem SendWindow.inputUna (h : SendWindow kcp.sndUna kcp.outgoing) (w : WireSeg α) :
    SendWindow (inputUna kcp w).sndUna (inputUna kcp w).outgoing := by
  have hr := releases_inputUna kcp w
  have huna : (FlexProxy.inputUna kcp w).sndUna = _ :=
    sndUna_ikcpShrinkBuf (ikcpParseUna { kcp with rmtWnd := w.wnd.toUInt32 } w.una)
  rw [← outgoing_ikcpShrinkBuf] at huna
  rw [huna]
  exact h.release hr.sub hr.sndNxt

theorem SendWindow.inputAck (h : SendWindow kcp.sndUna kcp.outgoing) {w : WireSeg α}
    (hw : w.cmd.toUInt32 = IKCP_CMD_ACK) :
    SendWindow (inputAck kcp w).sndUna (inputAck kcp w).outgoing := by
  have hr := releases_inputAck kcp w hw
  have huna : (FlexProxy.inputAck kcp w).sndUna = _ := sndUna_ikcpShrinkBuf _
  rw [← outgoing_ikcpShrinkBuf] at huna
  rw [huna]
  exact h.release hr.sub hr.sndNxt

theorem SendWindow.inputSeg (h : SendWindow kcp.sndUna kcp.outgoing) (acc : InputAcc)
    (w : WireSeg α) :
    SendWindow (inputSeg kcp acc w).1.sndUna (inputSeg kcp acc w).1.outgoing := by
  have huna := h.inputUna w
  unfold FlexProxy.inputSeg
  dsimp only
  split_ifs with hack
  · exact huna.inputAck hack
  · obtain ⟨acks, buf, nbuf, queue, nque, nxt, hpush⟩ := inputPush_writes (FlexProxy.inputUna kcp w) w
    rw [hpush]
    exact huna
  · exact huna
  · exact huna

theorem SendWindow.inputLoop (h : SendWindow kcp.sndUna kcp.outgoing) (prevUna : UInt32)
    (segs : List (WireSeg α)) (acc : InputAcc) :
    SendWindow (inputLoop prevUna segs kcp acc).1.sndUna
      (inputLoop prevUna segs kcp acc).1.outgoing := by
  induction segs generalizing kcp acc with
  | nil =>
    obtain ⟨buf, cwnd, incr, hkey, hend⟩ := inputEnd_writes kcp prevUna acc
    have hout := (frame_inputEnd prevUna kcp acc).2.1
    unfold FlexProxy.inputLoop
    rw [hout, hend]
    exact h
  | cons w rest ih =>
    unfold FlexProxy.inputLoop
    split_ifs
    · exact h
    · exact h
    · exact ih (h.inputSeg acc w) _

/-- **Whatever arrives, the send window is kept.** -/
theorem SendWindow.inputSegs (h : SendWindow kcp.sndUna kcp.outgoing) (segs : List (WireSeg α)) :
    SendWindow (inputSegs kcp segs).1.sndUna (inputSegs kcp segs).1.outgoing := by
  unfold FlexProxy.inputSegs
  split
  · exact h
  · exact h.inputLoop _ _ _

/-! ## What is sent -/

/-- What the loop of a flush tests: less than the window has been numbered. -/
theorem ahead_lt_of_admits {una nxt cwnd : UInt32} (hspan : ahead una nxt ≤ 1024)
    (hcwnd : cwnd ≤ 1024) (h : itimediff nxt (una + cwnd) < 0) : ahead una nxt < 1024 := by
  have hc : cwnd.toNat ≤ 1024 := UInt32.le_iff_toNat_le.mp hcwnd
  have hdiff : itimediff nxt (una + cwnd) = (ahead una nxt : Int) - ahead una (una + cwnd) :=
    itimediff_ahead (by omega) (by rw [ahead_add]; omega)
  rw [ahead_add] at hdiff
  omega

theorem SendWindow.moveQueue {cwnd : UInt32} (hcwnd : cwnd ≤ 1024) (wnd current : UInt32)
    (l : List (IkcpSeg α)) (h : SendWindow kcp.sndUna kcp.outgoing) :
    SendWindow (moveQueue cwnd wnd current l kcp).sndUna
      (moveQueue cwnd wnd current l kcp).outgoing := by
  induction l generalizing kcp with
  | nil => exact h
  | cons newseg rest ih =>
    unfold FlexProxy.moveQueue
    split
    · rename_i hadmits
      refine ih (h.number (ahead_lt_of_admits h.span hcwnd hadmits)
        (x := ⟨kcp.conv, IKCP_CMD_PUSH, newseg.frg, kcp.sndNxt, newseg.data⟩) rfl ?_ rfl)
      simp only [Ikcpcb.outgoing, List.map_append]
      rfl
    · exact h

theorem flushCwnd_le (hwnd : kcp.sndWnd = 1024) : flushCwnd kcp ≤ 1024 := by
  have hmin : ∀ a b : UInt32, imin a b ≤ a ∧ imin a b ≤ b := by
    intro a b
    unfold imin
    split
    · rename_i hle
      exact ⟨UInt32.le_refl _, hle⟩
    · rename_i hgt
      exact ⟨UInt32.le_of_lt (UInt32.not_le.mp hgt), UInt32.le_refl _⟩
  unfold flushCwnd
  rw [hwnd]
  dsimp only
  split
  · exact UInt32.le_trans (hmin _ _).2 (hmin _ _).1
  · exact (hmin _ _).1

theorem SendWindow.flush {B : Type} (sink : Sink α B) (b : B) (hwnd : kcp.sndWnd = 1024)
    (h : SendWindow kcp.sndUna kcp.outgoing) :
    SendWindow (ikcpFlush sink kcp b).1.sndUna (ikcpFlush sink kcp b).1.outgoing := by
  by_cases hu : kcp.updated = 0
  · have hf : ikcpFlush sink kcp b = (kcp, b) := if_pos hu
    rw [hf]
    exact h
  · obtain ⟨wait, ts, probe, hprobe⟩ := probeWindow_writes { kcp with acklist := [] }
    obtain ⟨_, _, _, _, _, _, _, _, _, _, _, hflush⟩ := ikcpFlush_writes sink kcp b hu
    have huna : (ikcpFlush sink kcp b).1.sndUna = (flushMoved kcp).sndUna := by
      obtain ⟨_, _, _, _, _, _, hmoved⟩ := flushMoved_writes kcp
      rw [hflush, hmoved]
    rw [huna, outgoing_ikcpFlush sink kcp b hu]
    unfold flushMoved
    dsimp only
    rw [hprobe]
    exact SendWindow.moveQueue (flushCwnd_le hwnd) _ _ _ h

/-- **An update keeps the send window.** -/
theorem SendWindow.update (hwnd : kcp.sndWnd = 1024) (h : SendWindow kcp.sndUna kcp.outgoing)
    (current : UInt32) :
    SendWindow (ikcpUpdate listSink kcp [] current).1.sndUna
      (ikcpUpdate listSink kcp [] current).1.outgoing := by
  obtain ⟨updated, tsFlush, -, hclock⟩ := updateClock_writes kcp current
  have hkept : SendWindow (updateClock kcp current).1.sndUna (updateClock kcp current).1.outgoing := by
    rw [hclock]
    exact h
  unfold ikcpUpdate
  dsimp only
  split
  · refine hkept.flush listSink [] ?_
    rw [hclock]
    exact hwnd
  · exact hkept

end

end FlexProxy
