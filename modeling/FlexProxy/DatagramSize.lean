import FlexProxy.Datagram
import FlexProxy.Link
import FlexProxy.TransitionSystem

/-! # The datagrams a forwarder sends

Whatever a forwarder reads and receives, each datagram it sends is the frame of whole
segments (`Deliverable`): at least one, at most 1400 bytes of them, all of its
conversation and with commands that `ikcp_input` knows.  So a datagram is neither
cut nor refused on its way into a control block, and `ikcp_input` consumes every
segment of it (`ikcpInput_payload`).
-/
namespace FlexProxy

/-! ## Reading whole segments -/

section Consume
variable {α : Type}

/-- `ikcp_input` when it consumes every segment. -/
def consume (kcp : Ikcpcb α) (segs : List (WireSeg α)) : Ikcpcb α :=
  let r := segs.foldl (fun r w => inputSeg r.1 r.2 w) (kcp, (⟨false, 0, 0⟩ : InputAcc))
  inputEnd kcp.sndUna r.1 r.2

/-- A segment that `ikcp_input` of a control block of conversation `conv` does not
stop at. -/
def Admissible (conv : UInt32) (w : WireSeg α) : Prop := w.conv = conv ∧ knownCmd w.cmd = true

theorem inputLoop_admissible (prevUna : UInt32) (segs : List (WireSeg α)) (kcp : Ikcpcb α)
    (acc : InputAcc) (h : ∀ w ∈ segs, Admissible kcp.conv w) :
    inputLoop prevUna segs kcp acc =
      (inputEnd prevUna (segs.foldl (fun r w => inputSeg r.1 r.2 w) (kcp, acc)).1
        (segs.foldl (fun r w => inputSeg r.1 r.2 w) (kcp, acc)).2, 0) := by
  induction segs generalizing kcp acc with
  | nil => rfl
  | cons w rest ih =>
    obtain ⟨hconv, hcmd⟩ := h w (List.mem_cons_self ..)
    have hsame : (inputSeg kcp acc w).1.conv = kcp.conv :=
      congrArg Config.conv (config_inputSeg kcp acc w)
    unfold inputLoop
    rw [if_neg (not_not.mpr hconv), hcmd, Bool.not_true, if_neg Bool.false_ne_true, ih]
    · rfl
    · rw [hsame]
      exact fun v hv => h v (List.mem_cons_of_mem _ hv)

theorem inputSegs_admissible {kcp : Ikcpcb α} {segs : List (WireSeg α)} (hne : segs ≠ [])
    (h : ∀ w ∈ segs, Admissible kcp.conv w) : inputSegs kcp segs = (consume kcp segs, 0) := by
  rw [inputSegs, if_neg (by simp [hne])]
  exact inputLoop_admissible kcp.sndUna segs kcp _ h

end Consume

/-- **On the bytes of admissible segments `ikcp_input` returns 0, and has consumed
them all.** -/
theorem ikcpInput_payload {kcp : Ikcpcb UInt8} {segs : List (WireSeg UInt8)} (hne : segs ≠ [])
    (hsize : wireSize segs < 2 ^ 31) (h : ∀ w ∈ segs, Admissible kcp.conv w) :
    ikcpInput kcp (payload segs) = (consume kcp segs, 0) := by
  rw [payload, ikcpInput_bytes kcp segs]
  · exact inputSegs_admissible hne h
  · exact fun w hw => Nat.lt_of_le_of_lt (length_le_wireSize hw) hsize

/-! ## What is handed out -/

section Packets
variable {α : Type}

/-- What a flush sends is of the control block's conversation, with a command it
knows. -/
theorem admissible_of_mem_updateFlushed {kcp : Ikcpcb α} (hc : kcp.config = forwarderConfig)
    {read : List α} {sent : List (IkcpSeg α)} (hs : Sends read sent kcp.outgoing)
    {current : UInt32} {seg : IkcpSeg α} (h : seg ∈ updateFlushed kcp current) :
    Admissible forwarderConv (ikcpEncodeSeg seg) := by
  have hconv : kcp.conv = forwarderConv := congrArg Config.conv hc
  rcases (mem_updateFlushed h).1 with hctl | hkey
  · refine ⟨hctl.conv.trans hconv, ?_⟩
    show knownCmd seg.cmd.toUInt8 = true
    rcases hctl.cmd with ⟨hcmd, -⟩ | hcmd | hcmd
    · rw [hcmd]
      decide
    · rw [hcmd]
      decide
    · rw [hcmd]
      decide
  · obtain ⟨moved, hn⟩ := numbers_ikcpUpdate listSink kcp [] current
    rw [hconv] at hn
    obtain ⟨-, hseg, hcmd⟩ := (hs.numbers hn).copy hkey
    refine ⟨hseg, ?_⟩
    show knownCmd seg.cmd.toUInt8 = true
    rw [show seg.cmd = IKCP_CMD_PUSH from hcmd]
    decide

end Packets

/-! ## Every run -/

/-- What the two ends agree on about a datagram `d`: it is the frame of a payload of 24
to 1400 bytes, whole segments; no receive buffer cuts it; no receive path refuses it;
and `ikcp_input` consumes all its segments. -/
def Deliverable (checkSum : Bool) (d : List UInt8) : Prop :=
  ∃ segs : List (WireSeg UInt8), d = frame checkSum (payload segs) ∧
    (24 ≤ (payload segs).length ∧ (payload segs).length ≤ 1400) ∧
    d.length = (payload segs).length + (if checkSum then 1 else 0) ∧
    d.take receiveBufferSize = d ∧ receivePath checkSum d = some (payload segs) ∧
    ∀ kcp : Ikcpcb UInt8, kcp.conv = forwarderConv →
      ikcpInput kcp (payload segs) = (consume kcp segs, 0)

theorem wireSize_ge {α : Type} {segs : List (WireSeg α)} (h : segs ≠ []) : 24 ≤ wireSize segs := by
  obtain ⟨w, rest, rfl⟩ := List.exists_cons_of_ne_nil h
  have hover : IKCP_OVERHEAD.toNat = 24 := rfl
  rw [wireSize, List.map_cons, List.sum_cons, hover]
  omega

theorem length_frame (checkSum : Bool) (p : List UInt8) :
    (frame checkSum p).length = p.length + (if checkSum then 1 else 0) := by
  cases checkSum with
  | false => exact length_encrypt p
  | true => exact congrArg (· + 1) (length_encrypt p)

theorem deliverable_of_segs {checkSum : Bool} {segs : List (WireSeg UInt8)} (hne : segs ≠ [])
    (hsize : wireSize segs ≤ 1400) (h : ∀ w ∈ segs, Admissible forwarderConv w) :
    Deliverable checkSum (frame checkSum (payload segs)) := by
  have hlow := wireSize_ge hne
  have hpayload : payload segs ≠ [] := by
    intro hnil
    have hzero := congrArg List.length hnil
    rw [length_payload, List.length_nil] at hzero
    omega
  refine ⟨segs, rfl, ?_, length_frame checkSum _, ?_, receivePath_frame checkSum hpayload, ?_⟩
  · rw [length_payload]
    exact ⟨hlow, hsize⟩
  · apply List.take_of_length_le
    refine Nat.le_trans (length_frame_le checkSum _) ?_
    rw [length_payload, receiveBufferSize]
    omega
  · intro kcp hconv
    refine ikcpInput_payload hne (by omega) ?_
    rw [hconv]
    exact h

/-- The datagrams of one update. -/
theorem deliverable_update (checkSum : Bool) {kcp : Ikcpcb UInt8}
    (hc : kcp.config = forwarderConfig) {read : List UInt8} {sent : List (IkcpSeg UInt8)}
    (hs : Sends read sent kcp.outgoing) {buffer : List UInt8} {current : UInt32} {d : List UInt8}
    (h : d ∈ ((udp checkSum).update kcp buffer current).2) : Deliverable checkSum d := by
  rw [sent_udp] at h
  obtain ⟨segs, hmem, rfl⟩ := List.mem_map.mp h
  refine deliverable_of_segs (ne_nil_of_mem_packets hmem) (wireSize_packets hc hs.fits hmem) ?_
  intro w hw
  have hflat : w ∈ (packets kcp current).flatten := List.mem_flatten.mpr ⟨segs, hmem, hw⟩
  rw [flatten_packets] at hflat
  obtain ⟨seg, hseg, rfl⟩ := List.mem_map.mp hflat
  exact admissible_of_mem_updateFlushed hc hs hseg

/-- All datagrams sent so far can be delivered. -/
structure SendsDeliverable (checkSum : Bool) (p : DataPath UInt8 (List UInt8) (List UInt8)) : Prop
    extends Sender p where
  net : ∀ d ∈ p.emitted, Deliverable checkSum d

theorem sendsDeliverable_steps {checkSum : Bool} {retries : Prop} {arrives : List UInt8 → Prop}
    {p p' : DataPath UInt8 (List UInt8) (List UInt8)} (h : SendsDeliverable checkSum p)
    (hs : DataPath.Steps (udp checkSum) retries arrives p p') : SendsDeliverable checkSum p' := by
  induction hs with
  | refl => exact h
  | tail _ hs ih =>
    refine ⟨sender_step (lawful_udp checkSum) ih.toSender hs, ?_⟩
    cases hs with
    | update current isOpen =>
      intro d hd
      rcases mem_emitted_update hd with hd | hd
      · exact ih.net d hd
      · exact deliverable_update checkSum ih.config ih.sends hd
    | _ => exact ih.net

namespace Forwarder
open TransitionSystem

/-- **Every datagram a forwarder of either role sends can be delivered**, whatever it
has read from its TCP socket and received from anywhere, at whatever times. -/
theorem emitted_deliverable (checkSum : Bool) (role : Role) (buffer : List UInt8) (alive : Bool)
    (run : List (Event UInt8 (List UInt8))) (f : Forwarder UInt8 (List UInt8) (List UInt8))
    (hrun : exec (step (udp checkSum) role) (started role buffer alive) run = some f)
    (d : List UInt8) (hd : d ∈ f.emitted) : Deliverable checkSum d := by
  have hstep : ∀ (g : Forwarder UInt8 (List UInt8) (List UInt8)) e g',
      Calm True g ∧ SendsDeliverable checkSum g.toDataPath → step (udp checkSum) role g e = some g' →
      Calm True g' ∧ SendsDeliverable checkSum g'.toDataPath := by
    rintro g e g' ⟨hcalm, hsends⟩ he
    have hretries : e = .writeAgain → True := fun _ => trivial
    have harrives : ∀ d, e.datagram = some d → (fun _ => True) d := fun _ _ => trivial
    obtain ⟨hcalm', hsteps⟩ := step_dataPath (udp checkSum) hcalm hretries harrives he
    exact ⟨hcalm', sendsDeliverable_steps hsends hsteps⟩
  have hfresh : SendsDeliverable checkSum
      (started (α := UInt8) (D := List UInt8) role buffer alive).toDataPath :=
    ⟨(fresh_started role buffer alive).sender, fun _ h => nomatch h⟩
  exact (exec_invariant hstep ⟨calm_started role True buffer alive, hfresh⟩ hrun).2.net d hd

/-- A client reads a byte, and sends it at its first tick. -/
theorem emitted_deliverable_oneByte :
    ∃ f : Forwarder UInt8 (List UInt8) (List UInt8),
      exec (step (udp true) .client) (started .client [] true)
        [.readerRun, .tcpData [7], .writerRun 5] = some f ∧
      f.emitted.map List.length = [26] ∧ ∀ d ∈ f.emitted, Deliverable true d := by
  have hobs : (exec (step (udp true) .client) (started .client [] true)
      [.readerRun, .tcpData [7], .writerRun 5]).map
        (fun f : Forwarder UInt8 (List UInt8) (List UInt8) => f.emitted.map List.length) =
          some [26] := by
    decide +kernel
  obtain ⟨f, hrun, hlength⟩ := Option.map_eq_some_iff.mp hobs
  exact ⟨f, hrun, hlength, fun d hd => emitted_deliverable true .client [] true _ f hrun d hd⟩

end Forwarder
end FlexProxy
