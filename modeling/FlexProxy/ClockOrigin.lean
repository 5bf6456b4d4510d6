import FlexProxy.KcpClock
import FlexProxy.Tunnel

/-! # The origins of the clocks

Two runs of the tunnel with the same schedule, the clock of the client moved by one
constant in the second run and that of the server by another.  A schedule names a
datagram by its position among those the other end has sent (`Tunnel.play`), so it can
be followed in both runs.

Step by step the two runs stay **coupled**: the control blocks of the second run are the
shifted ones of the first (`KcpClock`), and all else is the same but for the times in
the datagrams (`Forwarder.Coupled`).  What has to be known about the first run is small:
an end that has been acknowledged has sent something, so its clock has been started.

* `clock_origins_free`: the second run goes through the same states, with the same TCP
  writes and the same datagrams.
-/
namespace FlexProxy
open TransitionSystem
variable {α D B : Type}

/-! ## Schedules -/

/-- The event, with its datagram looked up. -/
def Event.resolve (find : Nat → Option D) : Event α Nat → Option (Event α D)
  | .connected => some .connected
  | .connectFailed => some .connectFailed
  | .onUdpData k => (find k).map .onUdpData
  | .readerRun => some .readerRun
  | .tcpData chunk => some (.tcpData chunk)
  | .tcpAgain => some .tcpAgain
  | .tcpEof => some .tcpEof
  | .tcpReadError => some .tcpReadError
  | .writerRun now => some (.writerRun now)
  | .tick now => some (.tick now)
  | .transfer n => some (.transfer n)
  | .writeOk => some .writeOk
  | .writeAgain => some .writeAgain
  | .writeError => some .writeError
  | .retry => some .retry
  | .feederRun => some .feederRun
  | .udpData k => (find k).map .udpData
  | .udpAgain => some .udpAgain
  | .udpError => some .udpError
  | .timerRun => some .timerRun
  | .expire => some .expire

/-- The event with the clock moved by `c`. -/
def Event.shiftNow (c : Nat) : Event α D → Event α D
  | .writerRun now => .writerRun (now + c)
  | .tick now => .tick (now + c)
  | e => e

/-- Both clocks moved. -/
def TunnelEvent.shiftNow (c₁ c₂ : Nat) : TunnelEvent α D → TunnelEvent α D
  | .client e => .client (e.shiftNow c₁)
  | .server e => .server (e.shiftNow c₂)

/-- One event of a schedule.  What an end receives is named by its position among the
datagrams the other end has sent. -/
def Tunnel.play (T : Transport α D B) (t : Tunnel α D B) :
    TunnelEvent α Nat → Option (Tunnel α D B)
  | .client e =>
    (e.resolve (fun k => t.server.emitted[k]?)).bind (fun e =>
      (t.client.step T .client e).map (fun f => { t with client := f }))
  | .server e =>
    (e.resolve (fun k => t.client.emitted[k]?)).bind (fun e =>
      (t.server.step T .server e).map (fun f => { t with server := f }))

/-! ## Coupled data paths -/

/-- The datagram `d'` says what `d` says, from a machine whose clock is moved by `own`
to one whose clock is moved by `peer`. -/
def SameDatagram (Carries : D → List (WireSeg α) → Prop) (own peer : UInt32) (d d' : D) : Prop :=
  ∃ segs segs', Carries d segs ∧ Carries d' segs' ∧
    List.Forall₂ (WireSeg.Shifted own peer) segs segs'

/-- The same, for a datagram that acknowledges something only if `heard`. -/
def Alike (Carries : D → List (WireSeg α) → Prop) (own peer : UInt32) (heard : Prop) (d d' : D) :
    Prop :=
  ∃ segs segs', Carries d segs ∧ Carries d' segs' ∧
    List.Forall₂ (WireSeg.Shifted own peer) segs segs' ∧
    ∀ w ∈ segs, w.cmd.toUInt32 = IKCP_CMD_ACK → heard

theorem Alike.same {Carries : D → List (WireSeg α) → Prop} {own peer : UInt32} {heard : Prop}
    {d d' : D} (h : Alike Carries own peer heard d d') : SameDatagram Carries own peer d d' := by
  obtain ⟨segs, segs', hc, hc', hs, -⟩ := h
  exact ⟨segs, segs', hc, hc', hs⟩

/-- `p'` is `p` with its own clock and that of its peer moved.  It acknowledges something
only if the peer has been `heard`, and has sent something only if its clock is started. -/
structure DataPath.Coupled (Carries : D → List (WireSeg α) → Prop) (own peer : UInt32)
    (heard : Prop) (p p' : DataPath α D B) : Prop where
  same : p' = { p with kcp := p.kcp.shift own peer, buffer := p'.buffer, emitted := p'.emitted }
  emitted : List.Forall₂ (Alike Carries own peer heard) p.emitted p'.emitted
  acks : p.kcp.acklist ≠ [] → heard
  started : p.emitted ≠ [] → p.kcp.updated ≠ 0
  wait : p.kcp.probeWait ≤ IKCP_PROBE_LIMIT

namespace DataPath.Coupled
variable {T : Transport α D B} {Carries : D → List (WireSeg α) → Prop} {own peer : UInt32}
  {heard heard' : Prop} {p p' : DataPath α D B}

theorem mono (hh : heard → heard') (h : Coupled Carries own peer heard p p') :
    Coupled Carries own peer heard' p p' where
  same := h.same
  emitted := by
    refine h.emitted.imp (fun d d' hd => ?_)
    obtain ⟨segs, segs', hc, hc', hs, hack⟩ := hd
    exact ⟨segs, segs', hc, hc', hs, fun w hw hcmd => hh (hack w hw hcmd)⟩
  acks := fun ha => hh (h.acks ha)
  started := h.started
  wait := h.wait

theorem kcp (h : Coupled Carries own peer heard p p') : p'.kcp = p.kcp.shift own peer := by
  rw [h.same]

theorem tcpToKcp (h : Coupled Carries own peer heard p p') (hs : Sender p) {chunk : List α}
    (hl : chunk.length ≤ 8192) :
    Coupled Carries own peer heard (p.tcpToKcp chunk) (p'.tcpToKcp chunk) := by
  have hsend := shift_ikcpSend own peer hs.config (show chunk.length ≤ 127 * 1376 by omega)
  have hk : (ikcpSend p.kcp chunk).1 = _ :=
    congrArg Prod.fst (ikcpSend_eq hs.config (show chunk.length ≤ 127 * 1376 by omega))
  refine ⟨?_, h.emitted, ?_, ?_, ?_⟩
  · rw [h.same]
    simp only [DataPath.tcpToKcp, hsend]
  · show (ikcpSend p.kcp chunk).1.acklist ≠ [] → _
    rw [hk]
    exact h.acks
  · show p.emitted ≠ [] → (ikcpSend p.kcp chunk).1.updated ≠ 0
    rw [hk]
    exact h.started
  · show (ikcpSend p.kcp chunk).1.probeWait ≤ _
    rw [hk]
    exact h.wait

/-- A datagram and its counterpart are fed. -/
theorem feed (hT : Lawful T Carries) (h : Coupled Carries own peer heard p p') {d d' : D}
    (hd : Alike Carries peer own (p.kcp.updated ≠ 0) d d') (hheard : heard) :
    Coupled Carries own peer heard (p.feed T d) (p'.feed T d') := by
  obtain ⟨segs, segs', hc, hc', hs, hack⟩ := hd
  have htimes := timesSet_inputSegs p.kcp segs
  have hfeed : (p.feed T d).kcp = (inputSegs p.kcp segs).1 := hT.feed p.kcp d segs hc
  refine ⟨?_, h.emitted, fun _ => hheard, ?_, ?_⟩
  · have hk : T.feed p'.kcp d' = (T.feed p.kcp d).shift own peer := by
      rw [hT.feed _ _ _ hc, hT.feed _ _ _ hc', h.kcp]
      exact shift_inputSegs own peer hs p.kcp hack
    rw [h.same] at hk ⊢
    simp only [DataPath.feed, hk]
  · rw [hfeed]
    show p.emitted ≠ [] → (inputSegs p.kcp segs).1.timesSet.1 ≠ 0
    rw [htimes]
    exact h.started
  · rw [hfeed]
    show (inputSegs p.kcp segs).1.timesSet.2 ≤ _
    rw [htimes]
    exact h.wait

/-- Two lists of datagrams that carry related lists of segments. -/
theorem forall₂_alike {ds ds' : List D} {ps ps' : List (List (WireSeg α))}
    (h : List.Forall₂ Carries ds ps) (h' : List.Forall₂ Carries ds' ps')
    (hs : List.Forall₂ (List.Forall₂ (WireSeg.Shifted own peer)) ps ps')
    (hack : ∀ segs ∈ ps, ∀ w ∈ segs, w.cmd.toUInt32 = IKCP_CMD_ACK → heard) :
    List.Forall₂ (Alike Carries own peer heard) ds ds' := by
  induction hs generalizing ds ds' with
  | nil =>
    cases h
    cases h'
    exact .nil
  | cons hseg _ ih =>
    cases h with
    | cons hd hrest =>
      cases h' with
      | cons hd' hrest' =>
        refine .cons ⟨_, _, hd, hd', hseg, hack _ (List.mem_cons_self ..)⟩ ?_
        exact ih hrest hrest' (fun segs hm => hack segs (List.mem_cons_of_mem _ hm))

/-- A datagram of an update acknowledges something only if `acklist` is not empty. -/
theorem acklist_of_ack {kcp : Ikcpcb α} {current : UInt32}
    (hcmd : ∀ x ∈ (ikcpUpdate listSink kcp [] current).1.outgoing.sndBuf, x.cmd = IKCP_CMD_PUSH)
    {segs : List (WireSeg α)} (hmem : segs ∈ packets kcp current) {w : WireSeg α} (hw : w ∈ segs)
    (hack : w.cmd.toUInt32 = IKCP_CMD_ACK) : kcp.acklist ≠ [] := by
  have hflat : w ∈ (packets kcp current).flatten := List.mem_flatten.mpr ⟨segs, hmem, hw⟩
  rw [flatten_packets] at hflat
  obtain ⟨seg, hseg, rfl⟩ := List.mem_map.mp hflat
  rcases (mem_updateFlushed hseg).1 with hctl | hkey
  · exact List.ne_nil_of_mem (hctl.wire.2 hack)
  · have hpush : seg.cmd = IKCP_CMD_PUSH := hcmd _ hkey
    have hack' : seg.cmd.toUInt8.toUInt32 = IKCP_CMD_ACK := hack
    rw [hpush] at hack'
    exact absurd hack' (by decide)

theorem update (hT : Lawful T Carries) (h : Coupled Carries own peer heard p p') (hs : Sender p)
    (current : UInt32) (isOpen : Bool) :
    Coupled Carries own peer heard (p.update T current isOpen)
        (p'.update T (current + own) isOpen) ∧
      (p.update T current isOpen).kcp.updated ≠ 0 := by
  obtain ⟨hk, hsends, -⟩ := sends_update hT hs.config current isOpen hs.sends
  have hcmd : ∀ x ∈ (ikcpUpdate listSink p.kcp [] current).1.outgoing.sndBuf,
      x.cmd = IKCP_CMD_PUSH := by
    intro x hx
    rw [← hk] at hx
    exact (hsends.copy hx).2.2
  obtain ⟨hu, hw⟩ := timesSet_ikcpUpdate p.kcp current h.wait
  have hkcp : (p'.update T (current + own) isOpen).kcp =
      (p.update T current isOpen).kcp.shift own peer := by
    rw [hk]
    show (T.update p'.kcp p'.buffer (current + own)).1.1 = _
    rw [hT.update, h.kcp]
    exact (shift_ikcpUpdate own peer current h.wait hcmd).1
  have hsent : (p'.update T (current + own) isOpen).sent = (p.update T current isOpen).sent := by
    show p'.sent ++ p'.kcp.sndQueue.take (p'.kcp.sndQueue.length -
      (p'.update T (current + own) isOpen).kcp.sndQueue.length) = _
    rw [hkcp, h.same]
    rfl
  have hnew : List.Forall₂ (Alike Carries own peer heard) (T.update p.kcp p.buffer current).2
      (T.update p'.kcp p'.buffer (current + own)).2 := by
    have hc' : p'.kcp.config = forwarderConfig := by
      rw [h.kcp]
      exact hs.config
    have hf' : p'.kcp.outgoing.Fits := by
      rw [h.kcp, outgoing_shift]
      exact hs.sends.fits
    refine forall₂_alike (hT.sends p.kcp p.buffer current hs.config hs.sends.fits)
      (hT.sends p'.kcp p'.buffer (current + own) hc' hf') ?_
      (fun segs hm w hw hack => h.acks (acklist_of_ack hcmd hm hw hack))
    rw [h.kcp]
    exact shift_packets own peer current h.wait hcmd
  refine ⟨⟨?_, ?_, ?_, fun _ => ?_, ?_⟩, ?_⟩
  · rw [← hkcp, ← hsent]
    rw [h.same]
    rfl
  · show List.Forall₂ _ (if isOpen then _ else _) (if isOpen then _ else _)
    split
    · exact List.rel_append h.emitted hnew
    · exact h.emitted
  · intro ha
    apply h.acks
    rcases incoming_ikcpUpdate listSink p.kcp [] current with he | he
    · rw [hk] at ha
      rwa [show p.kcp.acklist = _ from (congrArg Incoming.acklist he).symm]
    · rw [hk] at ha
      exact absurd (congrArg Incoming.acklist he) ha
  · rw [hk]
    exact hu
  · rw [hk]
    exact hw
  · rw [hk]
    exact hu

/-- The same message is handed over. -/
theorem recv (h : Coupled Carries own peer heard p p') :
    Coupled Carries own peer heard p.recv.1 p'.recv.1 ∧ p'.recv.2 = p.recv.2 := by
  have hrecv := shift_ikcpRecv own peer p.kcp DataPath.recvBufferSize
  have htimes := timesSet_ikcpRecv p.kcp DataPath.recvBufferSize_nonneg
  refine ⟨⟨?_, h.emitted, ?_, ?_, ?_⟩, ?_⟩
  · rw [h.same]
    simp only [DataPath.recv, hrecv]
  · intro ha
    apply h.acks
    obtain ⟨buf, nbuf, queue, nque, nxt, probe, hk⟩ :=
      ikcpRecv_writes p.kcp DataPath.recvBufferSize_nonneg
    have ha' : (ikcpRecv p.kcp DataPath.recvBufferSize).1.acklist ≠ [] := ha
    rwa [hk] at ha'
  · show p.emitted ≠ [] → (ikcpRecv p.kcp DataPath.recvBufferSize).1.timesSet.1 ≠ 0
    rw [htimes]
    exact h.started
  · show (ikcpRecv p.kcp DataPath.recvBufferSize).1.timesSet.2 ≤ _
    rw [htimes]
    exact h.wait
  · show (ikcpRecv p'.kcp DataPath.recvBufferSize).2.1 = _
    rw [h.kcp, hrecv]
    rfl

theorem transfer (h : Coupled Carries own peer heard p p') (n : Nat) :
    Coupled Carries own peer heard (p.transfer n) (p'.transfer n) := by
  refine ⟨?_, h.emitted, h.acks, h.started, h.wait⟩
  rw [h.same]
  rfl

theorem rewrite (h : Coupled Carries own peer heard p p') :
    Coupled Carries own peer heard p.rewrite p'.rewrite := by
  refine ⟨?_, h.emitted, h.acks, h.started, h.wait⟩
  rw [h.same]
  rfl

theorem updated_recv (p : DataPath α D B) : p.recv.1.kcp.updated = p.kcp.updated :=
  congrArg Prod.fst (timesSet_ikcpRecv p.kcp DataPath.recvBufferSize_nonneg)

theorem updated_feed (hT : Lawful T Carries) (p : DataPath α D B) (d : D) :
    (p.feed T d).kcp.updated = p.kcp.updated := by
  obtain ⟨segs, hk⟩ := hT.feeds p.kcp d
  have hkcp : (p.feed T d).kcp = (inputSegs p.kcp segs).1 := hk
  rw [hkcp]
  exact congrArg Prod.fst (timesSet_inputSegs p.kcp segs)

theorem updated_tcpToKcp (hc : p.kcp.config = forwarderConfig) {chunk : List α}
    (hl : chunk.length ≤ 8192) : (p.tcpToKcp chunk).kcp.updated = p.kcp.updated := by
  have hk : (p.tcpToKcp chunk).kcp = _ :=
    congrArg Prod.fst (ikcpSend_eq hc (show chunk.length ≤ 127 * 1376 by omega))
  rw [hk]

end DataPath.Coupled

/-! ## Coupled forwarders -/

namespace Forwarder
variable {T : Transport α D B} {Carries : D → List (WireSeg α) → Prop} {own peer : Nat}
  {heard : Prop} {role : Role} {f g f' : Forwarder α D B}

/-- `f'` is `f` with its own clock and that of its peer moved: the coroutines stand at the
same places. -/
structure Coupled (Carries : D → List (WireSeg α) → Prop) (own peer : Nat) (heard : Prop)
    (f f' : Forwarder α D B) : Prop where
  path : f.toDataPath.Coupled Carries (UInt32.ofNat own) (UInt32.ofNat peer) heard f'.toDataPath
  control : f' = { f with toDataPath := f'.toDataPath, now := f'.now }
  /-- The clock has been read when the kcp to tcp coroutine has run. -/
  now : f.writer = .unborn ∨ f.writer = .spawned ∨ f'.now = f.now + own

theorem Coupled.exists_eq (h : f.Coupled Carries own peer heard f') :
    ∃ (p' : DataPath α D B) (n' : Nat), f' = { f with toDataPath := p', now := n' } ∧
      f.toDataPath.Coupled Carries (UInt32.ofNat own) (UInt32.ofNat peer) heard p' ∧
      (f.writer = .unborn ∨ f.writer = .spawned ∨ n' = f.now + own) :=
  ⟨f'.toDataPath, f'.now, h.control, h.path, h.now⟩

/-- What one event makes of two coupled forwarders. -/
def StaysCoupled (Carries : D → List (WireSeg α) → Prop) (own peer : Nat) (heard : Prop)
    (f : Forwarder α D B) (g g' : Forwarder α D B) : Prop :=
  g.Coupled Carries own peer heard g' ∧ (f.kcp.updated ≠ 0 → g.kcp.updated ≠ 0)

theorem Coupled.workerLoop {put put' : Worker → Forwarder α D B}
    (h : ∀ w, (put w).Coupled Carries own peer heard (put' w)) (live : Bool)
    (hrun : f'.isRunning = f.isRunning) :
    (f.workerLoop put live).Coupled Carries own peer heard (f'.workerLoop put' live) := by
  unfold Forwarder.workerLoop
  rw [hrun]
  split
  · exact h _
  · have hr := h .returned
    refine ⟨hr.path, ?_, hr.now⟩
    rw [hr.control]
    rfl

theorem Coupled.readerLoop (h : f.Coupled Carries own peer heard f') :
    f.readerLoop.Coupled Carries own peer heard f'.readerLoop := by
  obtain ⟨p', n', hf, hpath, hnow⟩ := h.exists_eq
  subst hf
  exact Coupled.workerLoop (fun _ => ⟨hpath, rfl, hnow⟩) _ rfl

theorem Coupled.feederLoop (h : f.Coupled Carries own peer heard f') :
    f.feederLoop.Coupled Carries own peer heard f'.feederLoop := by
  obtain ⟨p', n', hf, hpath, hnow⟩ := h.exists_eq
  subst hf
  exact Coupled.workerLoop (fun _ => ⟨hpath, rfl, hnow⟩) _ rfl

theorem Coupled.timerLoop (h : f.Coupled Carries own peer heard f') :
    f.timerLoop.Coupled Carries own peer heard f'.timerLoop := by
  obtain ⟨p', n', hf, hpath, hnow⟩ := h.exists_eq
  subst hf
  exact Coupled.workerLoop (fun _ => ⟨hpath, rfl, hnow⟩) _ rfl

/-- `Stop` notes what was left to send, which no clock enters. -/
theorem Coupled.stop (h : f.Coupled Carries own peer heard f') (cause : StopCause) :
    (f.stop cause).Coupled Carries own peer heard (f'.stop cause) := by
  obtain ⟨hpath, hcontrol, hnow⟩ := h
  refine ⟨hpath, ?_, hnow⟩
  have hout : f'.kcp.outgoing = f.kcp.outgoing := by
    rw [hpath.kcp, outgoing_shift]
  show { f' with isRunning := some false, stopped := f'.stopped.or (some (cause, f'.kcp.outgoing)) } = _
  rw [hout, hcontrol]
  rfl

theorem Coupled.drain (h : f.Coupled Carries own peer heard f') (hnow : f'.now = f.now + own) :
    StaysCoupled Carries own peer heard f f.drain f'.drain := by
  obtain ⟨hpath, hcontrol, -⟩ := h
  obtain ⟨hrecv, hret⟩ := hpath.recv
  refine ⟨?_, ?_⟩
  · unfold Forwarder.drain
    dsimp only
    rw [hret]
    split
    · refine ⟨hrecv, ?_, Or.inr (Or.inr hnow)⟩
      rw [hcontrol]
    · refine ⟨hrecv, ?_, Or.inr (Or.inr hnow)⟩
      rw [hcontrol]
      rfl
  · rw [toDataPath_drain, DataPath.Coupled.updated_recv]
    exact id

/-- The clocks are read: the times differ by the constant, and so the updates go
together. -/
theorem Coupled.writerLoop (hT : Lawful T Carries) (hs : Sender f.toDataPath)
    (h : f.Coupled Carries own peer heard f') (hnow : f'.now = f.now + own) :
    StaysCoupled Carries own peer heard f (f.writerLoop T) (f'.writerLoop T) := by
  obtain ⟨p', n', hf, hpath, -⟩ := h.exists_eq
  subst hf
  have hword : UInt32.ofNat n' = UInt32.ofNat f.now + UInt32.ofNat own := by
    rw [← UInt32.ofNat_add]
    exact congrArg UInt32.ofNat hnow
  by_cases hrun : f.isRunning = some true
  · obtain ⟨hup, hu⟩ := hpath.update hT hs (UInt32.ofNat f.now) f.isOpen
    rw [← hword] at hup
    have hcoupled : ({ f with toDataPath := f.toDataPath.update T (UInt32.ofNat f.now) f.isOpen } :
        Forwarder α D B).Coupled Carries own peer heard
        { f with toDataPath := p'.update T (UInt32.ofNat n') f.isOpen, now := n' } :=
      ⟨hup, rfl, Or.inr (Or.inr hnow)⟩
    obtain ⟨hdrain, hstarted⟩ := hcoupled.drain hnow
    rw [StaysCoupled, Forwarder.writerLoop, Forwarder.writerLoop, if_pos hrun, if_pos hrun]
    exact ⟨hdrain, fun _ => hstarted hu⟩
  · rw [StaysCoupled, Forwarder.writerLoop, Forwarder.writerLoop, if_neg hrun, if_neg hrun]
    exact ⟨⟨hpath, rfl, Or.inr (Or.inr hnow)⟩, id⟩

section Guard
variable {X Y : Type} {R : X → Y → Prop} {c c' : Prop} [Decidable c] [Decidable c']

/-- Both or neither. -/
theorem rel_guard {x : Option X} {y : Option Y} (hc : c' ↔ c) (h : c → Option.Rel R x y) :
    Option.Rel R (if c then x else none) (if c' then y else none) := by
  by_cases hx : c
  · rw [if_pos hx, if_pos (hc.mpr hx)]
    exact h hx
  · rw [if_neg hx, if_neg (fun hy => hx (hc.mp hy))]
    exact .none

theorem rel_ite {x : X} {y : Y} (hc : c' ↔ c) (h : c → R x y) :
    Option.Rel R (if c then some x else none) (if c' then some y else none) :=
  rel_guard hc (fun hx => .some (h hx))

end Guard

/-- A datagram and its counterpart, both there or neither. -/
def Found (Carries : D → List (WireSeg α) → Prop) (own peer : Nat) (heard : Prop)
    (f : Forwarder α D B) (find find' : Nat → Option D) : Prop :=
  ∀ k, Option.Rel (fun d d' =>
    Alike Carries (UInt32.ofNat peer) (UInt32.ofNat own) (f.kcp.updated ≠ 0) d d' ∧ heard)
    (find k) (find' k)

/-- **One event, with the clock as it is and moved.** -/
theorem coupled_step (hT : Lawful T Carries) (hs : Sender f.toDataPath)
    (h : f.Coupled Carries own peer heard f') {find find' : Nat → Option D}
    (hfind : Found Carries own peer heard f find find') (e : Event α Nat) :
    Option.Rel (StaysCoupled Carries own peer heard f)
      ((e.resolve find).bind (f.step T role))
      (((e.shiftNow own).resolve find').bind (f'.step T role)) := by
  obtain ⟨p', n', hf, hpath, hnow⟩ := h.exists_eq
  subst hf
  have hpending : p'.pending = f.pending := by rw [hpath.same]
  have hkeep : ∀ {g g' : Forwarder α D B}, g.kcp.updated = f.kcp.updated →
      g.Coupled Carries own peer heard g' → StaysCoupled Carries own peer heard f g g' :=
    fun hu hg => ⟨hg, hu ▸ id⟩
  -- once the kcp to tcp coroutine has run, the other clock is `own` ahead
  have hread : f.writer ≠ .unborn → f.writer ≠ .spawned → n' = f.now + own :=
    fun h1 h2 => (hnow.resolve_left h1).resolve_left h2
  -- what `Stop` finds waiting does not depend on the clocks
  have hstop : ∀ cause, ({ f with toDataPath := p', now := n' } : Forwarder α D B).stop cause =
      { f.stop cause with toDataPath := p', now := n' } := by
    intro cause
    have hout : p'.kcp.outgoing = f.kcp.outgoing := by
      rw [hpath.kcp, outgoing_shift]
    simp only [Forwarder.stop, hout]
  have hfed : ∀ {d d'},
      Alike Carries (UInt32.ofNat peer) (UInt32.ofNat own) (f.kcp.updated ≠ 0) d d' ∧ heard → ({ f with toDataPath := f.toDataPath.feed T d, isKcpAlive := true } :
        Forwarder α D B).Coupled Carries own peer heard
        { f with toDataPath := p'.feed T d', now := n', isKcpAlive := true } :=
    fun hd => ⟨hpath.feed hT hd.1 hd.2, rfl, hnow⟩
  cases e with
  | connected =>
    exact rel_ite Iff.rfl (fun _ => hkeep rfl ⟨hpath, rfl, Or.inr (Or.inl rfl)⟩)
  | connectFailed => exact rel_ite Iff.rfl (fun _ => hkeep rfl ⟨hpath, rfl, hnow⟩)
  | onUdpData k =>
    have hk := hfind k
    simp only [Event.resolve, Event.shiftNow]
    generalize find k = a at hk ⊢
    generalize find' k = b at hk ⊢
    cases hk with
    | none => exact .none
    | some hd =>
      exact rel_ite Iff.rfl (fun _ => hkeep (DataPath.Coupled.updated_feed hT _ _) (hfed hd))
  | readerRun | tcpAgain =>
    refine rel_ite Iff.rfl (fun _ => hkeep ?_ (Coupled.readerLoop ⟨hpath, rfl, hnow⟩))
    rw [(sameWork_readerLoop f).dataPath]
  | tcpData chunk =>
    refine rel_ite Iff.rfl (fun hg => ?_)
    have hmax : chunk.length ≤ 8192 := by
      refine Nat.le_trans hg.2.2 ?_
      cases role <;> decide
    refine hkeep ?_ (Coupled.readerLoop ⟨hpath.tcpToKcp hs hmax, rfl, hnow⟩)
    rw [(sameWork_readerLoop _).dataPath]
    exact DataPath.Coupled.updated_tcpToKcp hs.config hmax
  | tcpEof | tcpReadError | udpError =>
    refine rel_ite Iff.rfl (fun _ => hkeep rfl ⟨hpath, ?_, hnow⟩)
    rw [hstop]
    rfl
  | writerRun now =>
    refine rel_ite Iff.rfl (fun _ => ?_)
    have hrun : ({ f with now := now } : Forwarder α D B).Coupled Carries own peer heard
        { f with toDataPath := p', now := now + own } := ⟨hpath, rfl, Or.inr (Or.inr rfl)⟩
    obtain ⟨hloop, hstarted⟩ := Coupled.writerLoop (f := { f with now := now }) hT hs hrun rfl
    exact ⟨hloop, hstarted⟩
  | tick now =>
    -- both times move, so the guard `f.now ≤ now` does not
    refine rel_ite (and_congr_right fun hw => ?_) (fun _ => ?_)
    · have hw' : f.writer = .sleeping := hw
      have hn : n' = f.now + own :=
        hread (by rw [hw']; exact Writer.noConfusion) (by rw [hw']; exact Writer.noConfusion)
      show n' ≤ now + own ↔ f.now ≤ now
      omega
    · have hrun : ({ f with now := now } : Forwarder α D B).Coupled Carries own peer heard
          { f with toDataPath := p', now := now + own } := ⟨hpath, rfl, Or.inr (Or.inr rfl)⟩
      obtain ⟨hloop, hstarted⟩ := Coupled.writerLoop (f := { f with now := now }) hT hs hrun rfl
      exact ⟨hloop, hstarted⟩
  | transfer n =>
    refine rel_ite ?_ (fun _ => hkeep rfl ⟨hpath.transfer n, rfl, hnow⟩)
    show f.writer = .writing true ∧ f.isOpen ∧ n ≤ p'.pending.length ↔ _
    rw [hpending]
  | writeOk =>
    refine rel_ite ?_ (fun hg => ?_)
    · show f.writer = .writing true ∧ p'.pending.length = 0 ↔ _
      rw [hpending]
    · have hn : n' = f.now + own :=
        hread (by rw [hg.1]; exact Writer.noConfusion) (by rw [hg.1]; exact Writer.noConfusion)
      exact Coupled.drain ⟨hpath, rfl, hnow⟩ hn
  | writeAgain =>
    refine rel_ite Iff.rfl (fun hg => hkeep rfl ⟨hpath, rfl, Or.inr (Or.inr ?_)⟩)
    exact hread (by rw [hg]; exact Writer.noConfusion) (by rw [hg]; exact Writer.noConfusion)
  | writeError =>
    refine rel_ite Iff.rfl (fun hg => hkeep rfl ⟨hpath, ?_, Or.inr (Or.inr ?_)⟩)
    · rw [hstop]
      rfl
    · obtain ⟨live, hw⟩ := hg
      exact hread (by rw [hw]; exact Writer.noConfusion) (by rw [hw]; exact Writer.noConfusion)
  | retry =>
    refine rel_ite Iff.rfl (fun hg => hkeep rfl ⟨hpath.rewrite, rfl, Or.inr (Or.inr ?_)⟩)
    exact hread (by rw [hg]; exact Writer.noConfusion) (by rw [hg]; exact Writer.noConfusion)
  | feederRun | udpAgain =>
    refine rel_ite Iff.rfl (fun _ => hkeep ?_ (Coupled.feederLoop ⟨hpath, rfl, hnow⟩))
    rw [(sameWork_feederLoop f).dataPath]
  | udpData k =>
    have hk := hfind k
    simp only [Event.resolve, Event.shiftNow]
    generalize find k = a at hk ⊢
    generalize find' k = b at hk ⊢
    cases hk with
    | none => exact .none
    | some hd =>
      refine rel_ite Iff.rfl (fun _ => hkeep ?_ (hfed hd).feederLoop)
      rw [(sameWork_feederLoop _).dataPath]
      exact DataPath.Coupled.updated_feed hT _ _
  | timerRun =>
    refine rel_ite Iff.rfl (fun _ => hkeep ?_ (Coupled.timerLoop ⟨hpath, rfl, hnow⟩))
    rw [(sameWork_timerLoop f).dataPath]
  | expire =>
    refine rel_guard Iff.rfl (fun _ => ?_)
    show Option.Rel _ (if f.isKcpAlive then _ else _) (if f.isKcpAlive then _ else _)
    by_cases halive : f.isKcpAlive
    · rw [if_pos halive, if_pos halive]
      refine .some (hkeep ?_ (Coupled.timerLoop ⟨hpath, rfl, hnow⟩))
      rw [(sameWork_timerLoop _).dataPath]
    · rw [if_neg halive, if_neg halive]
      refine .some (hkeep rfl ⟨hpath, ?_, hnow⟩)
      rw [hstop]
      rfl

end Forwarder

/-! ## The tunnel -/

namespace Tunnel
variable [DecidableEq D] {T : Transport α D B} {Carries : D → List (WireSeg α) → Prop}
  {c₁ c₂ : Nat} {t t' : Tunnel α D B}

/-- Both ends are sound and coupled, in a run in which the clock of the client is moved by
`c₁` and that of the server by `c₂`. -/
structure Coupled (Carries : D → List (WireSeg α) → Prop) (c₁ c₂ : Nat) (t t' : Tunnel α D B) :
    Prop where
  sound : t.Sound True
  clientSends : Sender t.client.toDataPath
  serverSends : Sender t.server.toDataPath
  client : t.client.Coupled Carries c₁ c₂ (t.server.kcp.updated ≠ 0) t'.client
  server : t.server.Coupled Carries c₂ c₁ (t.client.kcp.updated ≠ 0) t'.server

omit [DecidableEq D] in
theorem coupled_started (client server : B × Bool) :
    (started (α := α) (D := D) client server).Coupled Carries c₁ c₂ (started client server) := by
  have hpath : ∀ (role : Role) (buffer : B) (alive : Bool) (own peer : UInt32) (heard : Prop),
      (Forwarder.started (α := α) (D := D) role buffer alive).toDataPath.Coupled Carries own peer
        heard (Forwarder.started role buffer alive).toDataPath := by
    intro role buffer alive own peer heard
    refine ⟨?_, .nil, fun h => absurd rfl h, fun h => absurd rfl h, ?_⟩
    · rw [show (Forwarder.started (α := α) (D := D) role buffer alive).kcp = forwarderKcp from rfl,
        shift_forwarderKcp]
      rfl
    · exact UInt32.zero_le
  refine ⟨sound_started client server, (fresh_started _ _ _).sender, (fresh_started _ _ _).sender,
    ⟨hpath _ _ _ _ _ _, rfl, Or.inr (Or.inl rfl)⟩, ⟨hpath _ _ _ _ _ _, rfl, Or.inl rfl⟩⟩

omit [DecidableEq D] in
theorem datagram_resolve {find : Nat → Option D} {e : Event α Nat} {e' : Event α D}
    (h : e.resolve find = some e') : ∀ d ∈ e'.datagram, ∃ k, find k = some d := by
  intro d hd
  cases e with
  | onUdpData k =>
    obtain ⟨x, hx, rfl⟩ := Option.map_eq_some_iff.mp h
    cases hd
    exact ⟨k, hx⟩
  | udpData k =>
    obtain ⟨x, hx, rfl⟩ := Option.map_eq_some_iff.mp h
    cases hd
    exact ⟨k, hx⟩
  | _ =>
    cases h
    cases hd

/-- **An event of a schedule is an event of a run.** -/
theorem step_of_play {m : TunnelEvent α Nat} (h : play T t m = some t') :
    ∃ e, step T t e = some t' := by
  cases m with
  | client e =>
    obtain ⟨e', hres, h⟩ := Option.bind_eq_some_iff.mp h
    refine ⟨.client e', (if_pos (fun d hd => ?_)).trans h⟩
    obtain ⟨k, hk⟩ := datagram_resolve hres d hd
    exact List.mem_of_getElem? hk
  | server e =>
    obtain ⟨e', hres, h⟩ := Option.bind_eq_some_iff.mp h
    refine ⟨.server e', (if_pos (fun d hd => ?_)).trans h⟩
    obtain ⟨k, hk⟩ := datagram_resolve hres d hd
    exact List.mem_of_getElem? hk

omit [DecidableEq D] in
/-- What one end finds the other finds, and then the sender's clock has been started. -/
theorem found_emitted {own peer : Nat} {f g g' : Forwarder α D B}
    (hg : g.Coupled Carries peer own (f.kcp.updated ≠ 0) g') :
    f.Found Carries own peer (g.kcp.updated ≠ 0) (fun k => g.emitted[k]?)
      (fun k => g'.emitted[k]?) := by
  have hstarted : g.emitted ≠ [] → g.kcp.updated ≠ 0 := hg.path.started
  have hat : ∀ {l l' : List D} (k : Nat), (l ≠ [] → g.kcp.updated ≠ 0) →
      List.Forall₂ (Alike Carries (UInt32.ofNat peer) (UInt32.ofNat own) (f.kcp.updated ≠ 0)) l l' →
      Option.Rel (fun d d' => Alike Carries (UInt32.ofNat peer) (UInt32.ofNat own)
        (f.kcp.updated ≠ 0) d d' ∧ g.kcp.updated ≠ 0) l[k]? l'[k]? := by
    intro l l' k hl h
    induction h generalizing k with
    | nil => exact .none
    | cons hd hrest ih =>
      have hu := hl (List.cons_ne_nil _ _)
      cases k with
      | zero => exact .some ⟨hd, hu⟩
      | succ k => exact ih k (fun _ => hu)
  exact fun k => hat k hstarted hg.path.emitted

/-- **One event of the schedule**, with the clocks as they are and moved. -/
theorem coupled_play (hT : Lawful T Carries) (h : t.Coupled Carries c₁ c₂ t')
    (m : TunnelEvent α Nat) :
    Option.Rel (Coupled Carries c₁ c₂) (play T t m) (play T t' (m.shiftNow c₁ c₂)) := by
  have hsound : ∀ {u}, play T t m = some u →
      u.Sound True ∧ Sender u.client.toDataPath ∧ Sender u.server.toDataPath := by
    intro u hu
    obtain ⟨e, he⟩ := step_of_play hu
    obtain ⟨hs, hpaths⟩ := step_cases h.sound (fun hn => absurd trivial hn) he
    rcases hpaths with ⟨hsame, hsteps⟩ | ⟨hsame, hsteps⟩
    · exact ⟨hs, sender_steps hT h.clientSends hsteps, hsame ▸ h.serverSends⟩
    · exact ⟨hs, hsame ▸ h.clientSends, sender_steps hT h.serverSends hsteps⟩
  -- the end that acts is coupled by `coupled_step`; the other one only has to know that a
  -- clock once started stays so
  cases m with
  | client e =>
    have hrel : Option.Rel _
        ((e.resolve (fun k => t.server.emitted[k]?)).bind (t.client.step T .client))
        (((e.shiftNow c₁).resolve (fun k => t'.server.emitted[k]?)).bind (t'.client.step T .client)) :=
      Forwarder.coupled_step hT h.clientSends h.client (found_emitted h.server) e
    have hplay : ∀ (u : Tunnel α D B) e, play T u (.client e) =
        ((e.resolve (fun k => u.server.emitted[k]?)).bind (u.client.step T .client)).map
          (fun f => { u with client := f }) := fun _ _ => Option.map_bind.symm
    simp only [TunnelEvent.shiftNow, hplay] at hsound ⊢
    generalize (e.resolve _).bind _ = x at hrel hsound ⊢
    generalize ((e.shiftNow c₁).resolve _).bind _ = y at hrel ⊢
    cases hrel with
    | none => exact .none
    | @some g g' hg =>
      obtain ⟨hs, hc, hv⟩ := hsound rfl
      exact .some ⟨hs, hc, hv, hg.1, ⟨h.server.path.mono hg.2, h.server.control, h.server.now⟩⟩
  | server e =>
    have hrel : Option.Rel _
        ((e.resolve (fun k => t.client.emitted[k]?)).bind (t.server.step T .server))
        (((e.shiftNow c₂).resolve (fun k => t'.client.emitted[k]?)).bind (t'.server.step T .server)) :=
      Forwarder.coupled_step hT h.serverSends h.server (found_emitted h.client) e
    have hplay : ∀ (u : Tunnel α D B) e, play T u (.server e) =
        ((e.resolve (fun k => u.client.emitted[k]?)).bind (u.server.step T .server)).map
          (fun f => { u with server := f }) := fun _ _ => Option.map_bind.symm
    simp only [TunnelEvent.shiftNow, hplay] at hsound ⊢
    generalize (e.resolve _).bind _ = x at hrel hsound ⊢
    generalize ((e.shiftNow c₂).resolve _).bind _ = y at hrel ⊢
    cases hrel with
    | none => exact .none
    | @some g g' hg =>
      obtain ⟨hs, hc, hv⟩ := hsound rfl
      exact .some ⟨hs, hc, hv, ⟨h.client.path.mono hg.2, h.client.control, h.client.now⟩, hg.1⟩

/-- Every event of a run is an event of a schedule. -/
theorem play_of_step {e : TunnelEvent α D} (h : step T t e = some t') :
    ∃ m, play T t m = some t' := by
  have hresolve : ∀ (find : Nat → Option D) (e : Event α D),
      (∀ d ∈ e.datagram, ∃ k, find k = some d) → ∃ m : Event α Nat, m.resolve find = some e := by
    intro find e he
    cases e with
    | onUdpData d =>
      obtain ⟨k, hk⟩ := he d rfl
      exact ⟨.onUdpData k, congrArg (Option.map Event.onUdpData) hk⟩
    | udpData d =>
      obtain ⟨k, hk⟩ := he d rfl
      exact ⟨.udpData k, congrArg (Option.map Event.udpData) hk⟩
    | connected => exact ⟨.connected, rfl⟩
    | connectFailed => exact ⟨.connectFailed, rfl⟩
    | readerRun => exact ⟨.readerRun, rfl⟩
    | tcpData chunk => exact ⟨.tcpData chunk, rfl⟩
    | tcpAgain => exact ⟨.tcpAgain, rfl⟩
    | tcpEof => exact ⟨.tcpEof, rfl⟩
    | tcpReadError => exact ⟨.tcpReadError, rfl⟩
    | writerRun now => exact ⟨.writerRun now, rfl⟩
    | tick now => exact ⟨.tick now, rfl⟩
    | transfer n => exact ⟨.transfer n, rfl⟩
    | writeOk => exact ⟨.writeOk, rfl⟩
    | writeAgain => exact ⟨.writeAgain, rfl⟩
    | writeError => exact ⟨.writeError, rfl⟩
    | retry => exact ⟨.retry, rfl⟩
    | feederRun => exact ⟨.feederRun, rfl⟩
    | udpAgain => exact ⟨.udpAgain, rfl⟩
    | udpError => exact ⟨.udpError, rfl⟩
    | timerRun => exact ⟨.timerRun, rfl⟩
    | expire => exact ⟨.expire, rfl⟩
  cases e with
  | client e =>
    obtain ⟨hnet, h⟩ := Option.ite_none_right_eq_some.mp h
    obtain ⟨m, hm⟩ := hresolve (fun k => t.server.emitted[k]?) e
      (fun d hd => List.mem_iff_getElem?.mp (hnet d hd))
    exact ⟨.client m, Option.bind_eq_some_iff.mpr ⟨e, hm, h⟩⟩
  | server e =>
    obtain ⟨hnet, h⟩ := Option.ite_none_right_eq_some.mp h
    obtain ⟨m, hm⟩ := hresolve (fun k => t.client.emitted[k]?) e
      (fun d hd => List.mem_iff_getElem?.mp (hnet d hd))
    exact ⟨.server m, Option.bind_eq_some_iff.mpr ⟨e, hm, h⟩⟩

/-- **Every run follows a schedule.** -/
theorem exists_schedule {run : List (TunnelEvent α D)} (h : exec (step T) t run = some t') :
    ∃ schedule, exec (play T) t schedule = some t' := by
  induction run generalizing t with
  | nil => exact ⟨[], h⟩
  | cons e rest ih =>
    obtain ⟨u, hu, h⟩ := exec_cons_eq_some.mp h
    obtain ⟨m, hm⟩ := play_of_step hu
    obtain ⟨schedule, hs⟩ := ih h
    exact ⟨m :: schedule, exec_cons_eq_some.mpr ⟨u, hm, hs⟩⟩

/-- What the two runs of one end have in common: its TCP writes, the one in progress
included, and its datagrams, but for the times in their segments. -/
structure SameWrites (Carries : D → List (WireSeg α) → Prop) (own peer : UInt32)
    (f f' : Forwarder α D B) : Prop where
  read : f'.read = f.read
  written : f'.written = f.written
  writer : f'.writer = f.writer
  message : f'.message = f.message
  pending : f'.pending = f.pending
  emitted : List.Forall₂ (SameDatagram Carries own peer) f.emitted f'.emitted

omit [DecidableEq D] in
theorem sameWrites_of_coupled {own peer : Nat} {heard : Prop} {f f' : Forwarder α D B}
    (h : f.Coupled Carries own peer heard f') :
    SameWrites Carries (UInt32.ofNat own) (UInt32.ofNat peer) f f' where
  read := (congrArg DataPath.read h.path.same).trans rfl
  written := (congrArg DataPath.written h.path.same).trans rfl
  writer := (congrArg Forwarder.writer h.control).trans rfl
  message := (congrArg DataPath.message h.path.same).trans rfl
  pending := (congrArg DataPath.pending h.path.same).trans rfl
  emitted := h.path.emitted.imp (fun _ _ hd => hd.same)

end Tunnel

/-- **The tunnel does not depend on the origins of the clocks.**  A schedule is possible
with the clock of the client moved by `c₁` and that of the server by `c₂` exactly when it
is possible with the clocks as they are; and then both runs have the same TCP writes at
either end, and send the same datagrams, whose segments differ in their times only
(`WireSeg.Shifted`).  This holds of every schedule, so also of each of its initial parts. -/
theorem Tunnel.clock_origins_free (checkSum : Bool) (c₁ c₂ : Nat)
    (client server : List UInt8 × Bool) (schedule : List (TunnelEvent UInt8 Nat)) :
    Option.Rel
      (fun t t' : Tunnel UInt8 (List UInt8) (List UInt8) =>
        SameWrites (Framed checkSum) (UInt32.ofNat c₁) (UInt32.ofNat c₂) t.client t'.client ∧
        SameWrites (Framed checkSum) (UInt32.ofNat c₂) (UInt32.ofNat c₁) t.server t'.server)
      (exec (play (udp checkSum)) (started client server) schedule)
      (exec (play (udp checkSum)) (started client server)
        (schedule.map (TunnelEvent.shiftNow c₁ c₂))) := by
  have hstep : ∀ (t t' : Tunnel UInt8 (List UInt8) (List UInt8)) m,
      t.Coupled (Framed checkSum) c₁ c₂ t' → Option.Rel (Coupled (Framed checkSum) c₁ c₂)
        (play (udp checkSum) t m) (play (udp checkSum) t' (m.shiftNow c₁ c₂)) :=
    fun t t' m h => coupled_play (lawful_udp checkSum) h m
  have hrel := exec_rel hstep (coupled_started client server) schedule
  generalize exec (play (udp checkSum)) (started client server) schedule = x at hrel ⊢
  generalize exec (play (udp checkSum)) (started client server) (schedule.map _) = y at hrel ⊢
  cases hrel with
  | none => exact .none
  | some h => exact .some ⟨sameWrites_of_coupled h.client, sameWrites_of_coupled h.server⟩

end FlexProxy
