import FlexProxy.EndOfFile
import FlexProxy.QuietRun

/-! # The tunnel recovers

A datagram may be lost, a window may be closed when the report that opens it is lost, a
write may be half done.  From every state of a run in which both ends are still there the
tunnel can go on: without another byte being read, and with nothing but coroutines being
resumed and datagrams being delivered, everything read at either end gets written at the
other (`tunnel_recovers`).

The measure is what the two ends have queued or hold (`backlog`).  No quiet event raises it,
and one round lowers it (`Rest.round`): the first segment held is sent again when its timer
has run out, the other end acknowledges it, and the acknowledgement releases it.  If
nothing is held something is numbered, if need be after a probe of the window
(`Rest.hold`).
-/
namespace FlexProxy
open TransitionSystem
variable {α D B : Type} {T : Transport α D B} {Carries : D → List (WireSeg α) → Prop}
  {ρ σ : Role} {f f' g g' : Forwarder α D B}

/-! ## Two ends -/

/-- One quiet event of one of two forwarders, each of which receives what the other has
sent. -/
inductive Turn (T : Transport α D B) (ρ σ : Role) :
    Forwarder α D B × Forwarder α D B → Forwarder α D B × Forwarder α D B → Prop
  | left {f f' g : Forwarder α D B} (e : Event α D) (quiet : e.Quiet)
      (net : ∀ d ∈ e.datagram, d ∈ g.emitted) (h : Forwarder.step T ρ f e = some f') :
      Turn T ρ σ (f, g) (f', g)
  | right {f g g' : Forwarder α D B} (e : Event α D) (quiet : e.Quiet)
      (net : ∀ d ∈ e.datagram, d ∈ f.emitted) (h : Forwarder.step T σ g e = some g') :
      Turn T ρ σ (f, g) (f, g')

/-- Any number of them. -/
def Goes (T : Transport α D B) (ρ σ : Role) :
    Forwarder α D B × Forwarder α D B → Forwarder α D B × Forwarder α D B → Prop :=
  Relation.ReflTransGen (Turn T ρ σ)

theorem Goes.symm (h : Goes T ρ σ (f, g) (f', g')) : Goes T σ ρ (g, f) (g', f') := by
  have hswap : ∀ a b, Goes T ρ σ a b → Goes T σ ρ a.swap b.swap := by
    intro a b hab
    induction hab with
    | refl => exact Relation.ReflTransGen.refl
    | tail _ ht ih =>
      refine ih.tail ?_
      cases ht with
      | left e quiet net h => exact Turn.right e quiet net h
      | right e quiet net h => exact Turn.left e quiet net h
  exact hswap _ _ h

theorem goes_silent {es : List (Event α D)} (hs : Forwarder.Silent es)
    (h : exec (Forwarder.step T ρ) f es = some f') : Goes T ρ σ (f, g) (f', g) := by
  induction es generalizing f with
  | nil =>
    cases h
    exact Relation.ReflTransGen.refl
  | cons e es ih =>
    obtain ⟨u, hu, hrest⟩ := exec_cons_eq_some.mp h
    obtain ⟨hquiet, hnone⟩ := hs e (List.mem_cons_self ..)
    have hnet : ∀ d ∈ e.datagram, d ∈ g.emitted := by
      rw [hnone]
      exact fun _ h => nomatch h
    exact (Relation.ReflTransGen.single (Turn.left e hquiet hnet hu)).trans
      (ih (fun x hx => hs x (List.mem_cons_of_mem _ hx)) hrest)

/-- What holds of two ends between two events. -/
structure Ends (Carries : D → List (WireSeg α) → Prop) (f g : Forwarder α D B) : Prop where
  calm : f.Calm True
  calm' : g.Calm True
  pumped : Pumped True Carries f.toDataPath g.toDataPath
  reads : f.ReadsBytes
  reads' : g.ReadsBytes
  intact : Intact f.kcp
  intact' : Intact g.kcp
  few : (fragments f.read).length < 2 ^ 31
  few' : (fragments g.read).length < 2 ^ 31

theorem Ends.symm (h : Ends Carries f g) : Ends Carries g f :=
  ⟨h.calm', h.calm, h.pumped.symm, h.reads', h.reads, h.intact', h.intact, h.few', h.few⟩

/-- Fewer than `2^31` segments are numbered, since no more bytes are read. -/
theorem Ends.sent_lt (h : Ends Carries f g) : f.sent.length < 2 ^ 31 := by
  have hcuts := congrArg List.length h.pumped.pumpsUp.cuts
  have hfew := h.few
  rw [List.length_append] at hcuts
  omega

theorem Ends.sender (h : Ends Carries f g) : Sender f.toDataPath := by
  obtain ⟨_, _, hlink, -⟩ := h.pumped.up
  exact hlink.toSender

/-- Quiet events do not read from the TCP socket. -/
theorem read_quiet {e : Event α D} (hq : e.Quiet) (h : Forwarder.step T ρ f e = some f') :
    f'.read = f.read := by
  have hdrain : ∀ k : Forwarder α D B, k.drain.read = k.read :=
    fun k => by rw [Forwarder.toDataPath_drain]; rfl
  cases hwork : e.work T f.toDataPath with
  | some p =>
    have hread := congrArg DataPath.read (Forwarder.sameWork_step T hwork h).dataPath
    refine hread.trans ?_
    cases e with
    | udpData d | readerRun | feederRun =>
      cases hwork
      rfl
    | connected | writerRun now | tick now | transfer n | writeOk | retry => cases hwork
    | _ => exact hq.elim
  | none =>
    cases e with
    | writerRun now | tick now =>
      obtain ⟨-, h⟩ := Option.ite_none_right_eq_some.mp h
      cases h
      unfold Forwarder.writerLoop
      split
      · exact hdrain _
      · rfl
    | writeOk =>
      obtain ⟨-, h⟩ := Option.ite_none_right_eq_some.mp h
      cases h
      exact hdrain f
    | connected | transfer n | retry =>
      obtain ⟨-, h⟩ := Option.ite_none_right_eq_some.mp h
      cases h
      rfl
    | udpData d | readerRun | feederRun => cases hwork
    | _ => exact hq.elim

theorem Ends.left (hT : Lawful T Carries) (h : Ends Carries f g) {e : Event α D} (hq : e.Quiet)
    (hnet : ∀ d ∈ e.datagram, d ∈ g.emitted) (hs : Forwarder.step T ρ f e = some f') :
    Ends Carries f' g ∧ f'.read = f.read := by
  have hread := read_quiet hq hs
  have hagain : e = .writeAgain → True := fun _ => trivial
  obtain ⟨hcalm, hsteps⟩ := Forwarder.step_dataPath T h.calm hagain hnet hs
  have hbound := h.symm.sent_lt
  refine ⟨⟨hcalm, h.calm', pumped_steps hT (by omega) h.pumped hsteps,
    Forwarder.readsBytes_step h.reads hs, h.reads', (intact_steps hT h.sender h.intact hsteps).2,
    h.intact', ?_, h.few'⟩, hread⟩
  rw [hread]
  exact h.few

/-- **Quiet events keep the two ends together.** -/
theorem Ends.goes (hT : Lawful T Carries) (h : Ends Carries f g) (hg : Goes T ρ σ (f, g) (f', g')) :
    Ends Carries f' g' ∧ f'.read = f.read ∧ g'.read = g.read := by
  have hall : ∀ b, Goes T ρ σ (f, g) b →
      Ends Carries b.1 b.2 ∧ b.1.read = f.read ∧ b.2.read = g.read := by
    intro b hb
    induction hb with
    | refl => exact ⟨h, rfl, rfl⟩
    | tail _ ht ih =>
      obtain ⟨hends, hread, hread'⟩ := ih
      cases ht with
      | left e quiet net hs =>
        obtain ⟨hends', hsame⟩ := hends.left hT quiet net hs
        exact ⟨hends', hsame.trans hread, hread'⟩
      | right e quiet net hs =>
        obtain ⟨hends', hsame⟩ := hends.symm.left hT quiet net hs
        exact ⟨hends'.symm, hread, hsame.trans hread'⟩
  exact hall _ hg

/-! ## Two ends at rest -/

/-- Two ends all of whose coroutines wait. -/
structure Rest (Carries : D → List (WireSeg α) → Prop) (f g : Forwarder α D B) : Prop
    extends Ends Carries f g where
  ready : f.Ready
  ready' : g.Ready

theorem Rest.symm (h : Rest Carries f g) : Rest Carries g f := ⟨h.toEnds.symm, h.ready', h.ready⟩

theorem DataPath.Steps.mono {retries : Prop} {arrives arrives' : D → Prop} {p q : DataPath α D B}
    (hle : ∀ d, arrives d → arrives' d) (h : DataPath.Steps T retries arrives p q) :
    DataPath.Steps T retries arrives' p q := by
  induction h with
  | refl => exact Relation.ReflTransGen.refl
  | tail _ hs ih =>
    refine ih.tail ?_
    cases hs with
    | tcpToKcp chunk hl => exact .tcpToKcp _ chunk hl
    | feed d hd => exact .feed _ d (hle d hd)
    | update current isOpen => exact .update _ current isOpen
    | recv hp => exact .recv _ hp
    | transfer n => exact .transfer _ n
    | rewrite hr => exact .rewrite _ hr

theorem backlog_recvOnly {kcp kcp' : Ikcpcb α} (h : Forwarder.RecvOnly kcp kcp') :
    backlog kcp' = backlog kcp := by
  obtain ⟨_, _, _, _, _, _, rfl⟩ := h
  rfl

/-- From `f` to `f'` an end has made one update at the word `current`, and then handed over
everything complete. -/
structure Ticked (T : Transport α D B) (current : UInt32) (f g f' : Forwarder α D B) : Prop where
  emitted : f'.emitted = f.emitted ++ (T.update f.kcp f.buffer current).2
  kcp : Forwarder.RecvOnly (ikcpUpdate listSink f.kcp [] current).1 f'.kcp
  drained : Drained g.toDataPath f'.toDataPath
  backlog : backlog f'.kcp = backlog f.kcp

/-- **One end ticks** at a time with the given word. -/
theorem Rest.tick (hT : Lawful T Carries) (h : Rest Carries f g) (current : UInt32) :
    ∃ f', Goes T ρ σ (f, g) (f', g) ∧ Rest Carries f' g ∧ Ticked T current f g f' := by
  have hpend : f.pending = [] := by
    have hw := h.calm.writer
    rw [h.ready.writer] at hw
    exact hw
  obtain ⟨es, f', hes, hsilent, -, hdone⟩ := h.ready.tick T ρ hpend current
  have hgoes : Goes T ρ σ (f, g) (f', g) := goes_silent hsilent hes
  have hupdate : (f.toDataPath.update T current true).kcp = (ikcpUpdate listSink f.kcp [] current).1 :=
    hT.update f.kcp f.buffer current
  have hkcp := hdone.kcp
  rw [hupdate] at hkcp
  obtain ⟨q, hsteps, hqpend, hleave, heq⟩ := hdone.last
  have hbound := h.symm.sent_lt
  have hpumped : Pumped True Carries q g.toDataPath :=
    pumped_steps hT (by omega)
      (pumped_step hT (by omega) h.pumped (DataPath.Step.update _ current true))
      (hsteps.mono (fun _ hfalse => hfalse.elim))
  obtain ⟨_, _, hlink, -⟩ := hpumped.down
  refine ⟨f', hgoes, ⟨(h.toEnds.goes hT hgoes).1, hdone.ready, h.ready'⟩, hdone.emitted, hkcp, ?_, ?_⟩
  · rw [heq]
    exact drained_recv (by omega) hlink hpumped.pumpsDown h.reads' hqpend hleave
  · rw [backlog_recvOnly hkcp, backlog_ikcpUpdate]

/-- **A datagram arrives.** -/
theorem Rest.feed (hT : Lawful T Carries) (h : Rest Carries f g) {d : D} (hd : d ∈ g.emitted)
    {segs : List (WireSeg α)} (hcar : Carries d segs) :
    ∃ f', Goes T ρ σ (f, g) (f', g) ∧ Rest Carries f' g ∧ f'.kcp = (inputSegs f.kcp segs).1 ∧
      f'.emitted = f.emitted := by
  obtain ⟨f', hstep, hready, hpath⟩ := h.ready.udpData T ρ d
  have hnet : ∀ d' ∈ (Event.udpData d : Event α D).datagram, d' ∈ g.emitted := by
    intro d' hd'
    cases hd'
    exact hd
  have hturn : Turn T ρ σ (f, g) (f', g) := Turn.left (.udpData d) trivial hnet hstep
  have hgoes : Goes T ρ σ (f, g) (f', g) := Relation.ReflTransGen.single hturn
  refine ⟨f', hgoes, ⟨(h.toEnds.goes hT hgoes).1, hready, h.ready'⟩, ?_, ?_⟩
  · rw [hpath]
    exact feed_kcp hT hcar
  · rw [hpath]
    rfl

theorem Rest.config (h : Rest Carries f g) : f.kcp.config = forwarderConfig := h.sender.config

/-! ## One round -/

/-- **The first segment held is sent again.** -/
theorem Rest.resend (hT : Lawful T Carries) (h : Rest Carries f g) {x : IkcpSeg α}
    {rest : List (IkcpSeg α)} (hbuf : f.kcp.sndBuf = x :: rest) :
    ∃ f', Goes T ρ σ (f, g) (f', g) ∧ Rest Carries f' g ∧ backlog f'.kcp = backlog f.kcp ∧
      (∃ x' rest', f'.kcp.sndBuf = x' :: rest' ∧ x'.key = x.key) ∧
      ∃ d ∈ f'.emitted, ∃ segs, Carries d segs ∧
        (∀ v ∈ segs, Admissible forwarderConv v ∧
          (v.cmd.toUInt32 = IKCP_CMD_PUSH → Copy f'.sent v.sn (v.frg.toUInt32, v.data))) ∧
        ∃ w ∈ segs, w.cmd.toUInt32 = IKCP_CMD_PUSH ∧ w.sn = x.sn := by
  obtain ⟨current, hdue, hts⟩ := exists_due f.kcp x.resendts
  obtain ⟨f', hgoes, hrest, hticked⟩ := h.tick (ρ := ρ) (σ := σ) hT current
  have hu := updated_updateClock f.kcp current
  obtain ⟨updated, tsFlush, -, hclock⟩ := updateClock_writes f.kcp current
  obtain ⟨more, hmore⟩ := sndBuf_flushMoved (updateClock f.kcp current).1
  have hmoved : (flushMoved (updateClock f.kcp current).1).sndBuf = x :: (rest ++ more) := by
    rw [hmore, hclock]
    show f.kcp.sndBuf ++ more = _
    rw [hbuf]
    rfl
  have hcurrent : (updateClock f.kcp current).1.current = current := by rw [hclock]
  obtain ⟨seg, hseg, hkey⟩ := head_flushed hu hmoved (Or.inr (by rw [hcurrent]; exact hts))
  rw [← updateFlushed_due hdue] at hseg
  obtain ⟨d, hd, segs, hcar, hmem, hadm⟩ :=
    emits_updateFlushed (b := f.buffer) hT h.config h.sender.sends hseg
  have hupdated : f'.kcp.outgoing = (ikcpUpdate listSink f.kcp [] current).1.outgoing := by
    obtain ⟨_, _, _, _, _, _, hkcp⟩ := hticked.kcp
    rw [hkcp]
    rfl
  refine ⟨f', hgoes, hrest, hticked.backlog, ?_, d, ?_, segs, hcar, fun v hv => ?_,
    ikcpEncodeSeg seg, hmem, ?_, congrArg SegKey.sn hkey⟩
  · have hkeys : f'.kcp.sndBuf.map IkcpSeg.key = (x :: (rest ++ more)).map IkcpSeg.key := by
      rw [ikcpUpdate_due hdue, outgoing_ikcpFlush listSink _ [] hu] at hupdated
      rw [← hmoved]
      exact congrArg Outgoing.sndBuf hupdated
    obtain ⟨x', rest', hcons, hx', -⟩ := List.map_eq_cons_iff.mp hkeys
    exact ⟨x', rest', hcons, hx'⟩
  · rw [hticked.emitted]
    exact List.mem_append_right _ hd
  · obtain ⟨hadmissible, s, hs, rfl⟩ := hadm v hv
    have hsends := hrest.sender.sends
    rw [hupdated] at hsends
    exact ⟨hadmissible, push_copy hsends hs⟩
  · have hheld : x.key ∈ f.kcp.outgoing.sndBuf := by
      show x.key ∈ f.kcp.sndBuf.map IkcpSeg.key
      rw [hbuf]
      exact List.mem_cons_self ..
    have hpush : x.cmd = IKCP_CMD_PUSH := (h.sender.sends.copy hheld).2.2
    have hcmd : seg.cmd = IKCP_CMD_PUSH := (congrArg SegKey.cmd hkey).trans hpush
    show seg.cmd.toUInt8.toUInt32 = _
    rw [hcmd]
    decide

/-- **What is asked for is answered.** -/
theorem Rest.answer (hT : Lawful T Carries) (h : Rest Carries f g)
    (hask : f.kcp.acklist ≠ [] ∨ f.kcp.probe = IKCP_ASK_TELL) :
    ∃ f', Goes T ρ σ (f, g) (f', g) ∧ Rest Carries f' g ∧ backlog f'.kcp = backlog f.kcp ∧
      ∃ d ∈ f'.emitted, ∃ w rest, Carries d (w :: rest) ∧ ∀ v ∈ w :: rest,
        Admissible forwarderConv v ∧ v.una = f.kcp.rcvNxt ∧ v.wnd = (ikcpWndUnused f.kcp).toUInt16 := by
  have hdue := due_tsFlush f.kcp
  obtain ⟨f', hgoes, hrest, hticked⟩ := h.tick (ρ := ρ) (σ := σ) hT f.kcp.tsFlush
  have hu := updated_updateClock f.kcp f.kcp.tsFlush
  obtain ⟨updated, tsFlush, -, hclock⟩ := updateClock_writes f.kcp f.kcp.tsFlush
  have hne : updateFlushed f.kcp f.kcp.tsFlush ≠ [] := by
    rw [updateFlushed_due hdue]
    refine flushed_ne_nil hu ?_
    rw [hclock]
    exact hask
  obtain ⟨seg, hseg⟩ := List.exists_mem_of_ne_nil _ hne
  obtain ⟨d, hd, segs, hcar, hmem, hadm⟩ :=
    emits_updateFlushed (b := f.buffer) hT h.config h.sender.sends hseg
  obtain ⟨w, rest, rfl⟩ := List.exists_cons_of_ne_nil (List.ne_nil_of_mem hmem)
  refine ⟨f', hgoes, hrest, hticked.backlog, d, ?_, w, rest, hcar, fun v hv => ?_⟩
  · rw [hticked.emitted]
    exact List.mem_append_right _ hd
  · obtain ⟨hadmissible, s, hs, rfl⟩ := hadm v hv
    have huna := (mem_updateFlushed hs).2
    rw [updateFlushed_due hdue] at hs
    have hwnd := wnd_of_mem_flushed hu hs
    rw [hclock] at hwnd
    exact ⟨hadmissible, huna, congrArg UInt32.toUInt16 hwnd⟩

/-- Nothing is held that is ahead of what a drained end has received. -/
theorem Rest.le_received (h : Rest Carries f g) {taken : List (UInt32 × List α)} {r : Nat}
    (hlink : Link True Carries f.toDataPath g.toDataPath taken r)
    (hsec : Secured Carries f.toDataPath g.toDataPath r)
    (hdrained : Drained f.toDataPath g.toDataPath) {x : IkcpSeg α} {rest : List (IkcpSeg α)}
    (hbuf : f.kcp.sndBuf = x :: rest) {k : Nat} (hk : k < f.sent.length)
    (hx : x.sn = UInt32.ofNat k) : k ≤ r := by
  by_contra hahead
  have hbound := h.sent_lt
  obtain ⟨_, -, -, -, -, -, hmissing⟩ := hdrained
  rcases hsec.held r (by omega) with (hlt | ⟨seg, hseg, hsn⟩) | ⟨y, hy, hysn⟩
  · omega
  · have hnxt : g.kcp.rcvNxt = UInt32.ofNat r := hlink.receives.rcvNxt
    exact hmissing seg hseg (hsn.trans hnxt.symm)
  · have hkeys : f.kcp.outgoing.sndBuf = x.key :: rest.map IkcpSeg.key := by
      show f.kcp.sndBuf.map IkcpSeg.key = _
      rw [hbuf]
      rfl
    have hle := h.sender.sends.head_le hbound hkeys hy (j := r) (k := k) (by omega) (by omega) hx hysn
    omega

theorem drained_of_read {p p' q : DataPath α D B} (h : Drained p q) (hread : p'.read = p.read) :
    Drained p' q := by
  unfold Drained at h ⊢
  rw [hread]
  exact h

/-- **One round**: the other end is drained, the first segment held is sent again, arrives,
and is acknowledged. -/
theorem Rest.round (hT : Lawful T Carries) (h : Rest Carries f g) (hbuf : f.kcp.sndBuf ≠ []) :
    ∃ f' g', Goes T ρ σ (f, g) (f', g') ∧ Rest Carries f' g' ∧ backlog f'.kcp < backlog f.kcp ∧
      backlog g'.kcp ≤ backlog g.kcp := by
  obtain ⟨x, rest, hcons⟩ := List.exists_cons_of_ne_nil hbuf
  -- the other end makes room
  obtain ⟨g₁, hgoes₁, hrest₁, hticked₁⟩ := h.symm.tick (ρ := σ) (σ := ρ) hT g.kcp.tsFlush
  -- the segment is sent
  obtain ⟨f₁, hgoes₂, hrest₂, hback₂, ⟨x', rest', hcons', hkey⟩, d, hd, segs, hcar, hadm, w, hw,
    hpush, hsn⟩ := hrest₁.symm.resend (ρ := ρ) (σ := σ) hT hcons
  have hsnx : w.sn = x'.sn := hsn.trans (congrArg SegKey.sn hkey).symm
  have hdrained : Drained f₁.toDataPath g₁.toDataPath := by
    obtain ⟨-, hread, -⟩ := hrest₁.symm.toEnds.goes hT hgoes₂
    exact drained_of_read hticked₁.drained hread
  have hbound := hrest₂.sent_lt
  obtain ⟨taken, r, hlink, hsec⟩ := hrest₂.pumped.up
  have hheld : x'.key ∈ f₁.kcp.outgoing.sndBuf := by
    show x'.key ∈ f₁.kcp.sndBuf.map IkcpSeg.key
    rw [hcons']
    exact List.mem_cons_self ..
  obtain ⟨k, seg, hat, hxk, -⟩ := (hrest₂.sender.sends.copy hheld).1
  have hk : k < f₁.sent.length := (List.getElem?_eq_some_iff.mp hat).1
  have hle := hrest₂.le_received hlink (hsec hbound) hdrained hcons' hk hxk
  have hkeys : f₁.kcp.outgoing.sndBuf = x'.key :: rest'.map IkcpSeg.key := by
    show f₁.kcp.sndBuf.map IkcpSeg.key = _
    rw [hcons']
    rfl
  have hnear := hrest₂.intact.sendWindow.near hbound hrest₂.sender.sends hkeys hk hxk
  -- it arrives
  obtain ⟨g₂, hgoes₃, hrest₃, hfed₃, -⟩ := hrest₂.symm.feed (ρ := σ) (σ := ρ) hT hd hcar
  have hconfig := hrest₂.symm.config
  have hconv : g₁.kcp.conv = forwarderConv := congrArg Config.conv hconfig
  obtain ⟨-, -, -, -, -, hroom, -⟩ := hdrained
  obtain ⟨r', hreceives, hpast, hacks⟩ := arrives_inputSegs hbound (congrArg Config.rcvWnd hconfig)
    hrest₂.intact'.tidy (by omega) hlink.receives (hsec hbound).acked
    (by rw [hconv]; exact fun v hv => (hadm v hv).1) (fun v hv => (hadm v hv).2) hw hpush hk
    (hsnx.trans hxk) hle hnear
  rw [← hfed₃] at hreceives hacks
  have hback₃ : backlog g₂.kcp ≤ backlog g₁.kcp := by
    rw [hfed₃]
    exact backlog_inputSegs _ _
  -- it is acknowledged, and the acknowledgement arrives
  obtain ⟨g₃, hgoes₄, hrest₄, hback₄, d', hd', w', rest'', hcar', hall⟩ :=
    hrest₃.answer (ρ := σ) (σ := ρ) hT (Or.inl hacks)
  obtain ⟨f₂, hgoes₅, hrest₅, hfed₅, -⟩ := hrest₄.symm.feed (ρ := ρ) (σ := σ) hT hd' hcar'
  have hadm' : Admissible f₁.kcp.conv w' := by
    have hconv' : f₁.kcp.conv = forwarderConv := congrArg Config.conv hrest₂.config
    rw [hconv']
    exact (hall w' (List.mem_cons_self ..)).1
  have huna : itimediff w'.una x'.sn > 0 := by
    have hnxt : g₂.kcp.rcvNxt = UInt32.ofNat r' := hreceives.rcvNxt
    have hr' := hreceives.le
    have hword : x'.sn = UInt32.ofNat k := hxk
    rw [(hall w' (List.mem_cons_self ..)).2.1, hnxt, hword, itimediff,
      SerialNumber.diff_ofNat (by omega) (by omega)]
    omega
  have hless := backlog_inputSegs_lt rest'' hadm' hcons' huna
  rw [← hfed₅, hback₂] at hless
  refine ⟨f₂, g₃, ?_, hrest₅, hless, ?_⟩
  · exact (((hgoes₁.symm.trans hgoes₂).trans hgoes₃.symm).trans hgoes₄.symm).trans hgoes₅
  · have hback₁ := hticked₁.backlog
    omega

/-! ## An empty `snd_buf` -/

/-- What a tick that flushes leaves of the sending side. -/
theorem Ticked.outgoing {current : UInt32} (hdue : Due f.kcp current) (h : Ticked T current f g f') :
    f'.kcp.outgoing = (flushMoved (updateClock f.kcp current).1).outgoing := by
  obtain ⟨_, _, _, _, _, _, hkcp⟩ := h.kcp
  have hu := updated_updateClock f.kcp current
  rw [hkcp, ← outgoing_ikcpFlush listSink _ [] hu, ← ikcpUpdate_due hdue]
  rfl

theorem sndBuf_eq_nil_iff {kcp kcp' : Ikcpcb α} (h : kcp'.outgoing = kcp.outgoing) :
    kcp'.sndBuf = [] ↔ kcp.sndBuf = [] := by
  have hkeys : kcp'.sndBuf.map IkcpSeg.key = kcp.sndBuf.map IkcpSeg.key := congrArg Outgoing.sndBuf h
  rw [← List.map_eq_nil_iff (f := IkcpSeg.key), hkeys, List.map_eq_nil_iff]

/-- If the window is open, a tick numbers something. -/
theorem Rest.number (hT : Lawful T Carries) (h : Rest Carries f g) (hbuf : f.kcp.sndBuf = [])
    (hqueue : f.kcp.sndQueue ≠ []) (hwnd : f.kcp.rmtWnd ≠ 0) :
    ∃ f', Goes T ρ σ (f, g) (f', g) ∧ Rest Carries f' g ∧ f'.kcp.sndBuf ≠ [] ∧
      backlog f'.kcp = backlog f.kcp := by
  have hdue := due_tsFlush f.kcp
  obtain ⟨f', hgoes, hrest, hticked⟩ := h.tick (ρ := ρ) (σ := σ) hT f.kcp.tsFlush
  refine ⟨f', hgoes, hrest, ?_, hticked.backlog⟩
  obtain ⟨updated, tsFlush, -, hclock⟩ := updateClock_writes f.kcp f.kcp.tsFlush
  have hmoved : (flushMoved (updateClock f.kcp f.kcp.tsFlush).1).sndBuf ≠ [] := by
    let clocked : Ikcpcb α :=
      { f.kcp with current := f.kcp.tsFlush, updated := updated, tsFlush := tsFlush }
    have hconfig : clocked.config = forwarderConfig := h.config
    rw [hclock]
    exact sndBuf_flushed hconfig h.intact.sendWindow hbuf hqueue hwnd
  exact fun hnil => hmoved ((sndBuf_eq_nil_iff (hticked.outgoing hdue)).mp hnil)

/-- While the window is closed, a tick sends no data; it sets the wait for a probe. -/
theorem Rest.tick_closed (hT : Lawful T Carries) (h : Rest Carries f g) (hbuf : f.kcp.sndBuf = [])
    (hwnd : f.kcp.rmtWnd = 0) {current : UInt32} (hdue : Due f.kcp current) :
    ∃ f', Goes T ρ σ (f, g) (f', g) ∧ Rest Carries f' g ∧ Ticked T current f g f' ∧
      f'.kcp.sndBuf = [] ∧ f'.kcp.rmtWnd = 0 ∧ f'.kcp.probeWait ≠ 0 := by
  obtain ⟨f', hgoes, hrest, hticked⟩ := h.tick (ρ := ρ) (σ := σ) hT current
  have hu := updated_updateClock f.kcp current
  obtain ⟨updated, tsFlush, -, hclock⟩ := updateClock_writes f.kcp current
  let clocked : Ikcpcb α :=
    { f.kcp with current := current, updated := updated, tsFlush := tsFlush }
  have htimers : Timers clocked :=
    ⟨h.intact.timers.minrto, h.intact.timers.rto, h.intact.timers.srtt, h.intact.timers.wait,
      h.intact.timers.probe⟩
  have hconfig : clocked.config = forwarderConfig := h.config
  have hset : clocked.updated ≠ 0 := by
    rw [hclock] at hu
    exact hu
  obtain ⟨hwait, hclosed⟩ := probeWait_flushed hset htimers hwnd
  have hmoved : (flushMoved clocked).sndBuf = [] :=
    sndBuf_closed hconfig h.intact.sendWindow hbuf hwnd
  have hout := hticked.outgoing hdue
  rw [hclock] at hout
  obtain ⟨_, _, _, _, _, _, hkcp⟩ := hticked.kcp
  refine ⟨f', hgoes, hrest, hticked, (sndBuf_eq_nil_iff hout).mpr hmoved, ?_, ?_⟩
  · rw [hkcp, ikcpUpdate_due hdue, hclock]
    exact hclosed
  · rw [hkcp, ikcpUpdate_due hdue, hclock]
    exact hwait

/-- **A closed window is probed.** -/
theorem Rest.probe (hT : Lawful T Carries) (h : Rest Carries f g) (hbuf : f.kcp.sndBuf = [])
    (hwnd : f.kcp.rmtWnd = 0) (hwait : f.kcp.probeWait ≠ 0) :
    ∃ f', Goes T ρ σ (f, g) (f', g) ∧ Rest Carries f' g ∧ backlog f'.kcp = backlog f.kcp ∧
      f'.kcp.sndBuf = [] ∧ ∃ d ∈ f'.emitted, ∃ segs, Carries d segs ∧
        (∀ v ∈ segs, Admissible forwarderConv v ∧ v.cmd.toUInt32 ≠ IKCP_CMD_PUSH) ∧
        ∃ w ∈ segs, w.cmd.toUInt32 = IKCP_CMD_WASK := by
  obtain ⟨current, hdue, hts⟩ := exists_due f.kcp f.kcp.tsProbe
  obtain ⟨f', hgoes, hrest, hticked, hbuf', -, -⟩ :=
    h.tick_closed (ρ := ρ) (σ := σ) hT hbuf hwnd hdue
  have hu := updated_updateClock f.kcp current
  obtain ⟨updated, tsFlush, -, hclock⟩ := updateClock_writes f.kcp current
  let clocked : Ikcpcb α :=
    { f.kcp with current := current, updated := updated, tsFlush := tsFlush }
  have htimers : Timers clocked :=
    ⟨h.intact.timers.minrto, h.intact.timers.rto, h.intact.timers.srtt, h.intact.timers.wait,
      h.intact.timers.probe⟩
  have hprobes : ∃ seg ∈ flushed clocked, seg.cmd = IKCP_CMD_WASK := by
    rw [hclock] at hu
    exact probe_flushed hu htimers hwnd hwait hts
  obtain ⟨seg, hseg, hcmd⟩ := hprobes
  have hflushed : updateFlushed f.kcp current = flushed clocked := by
    rw [updateFlushed_due hdue, hclock]
  rw [← hflushed] at hseg
  obtain ⟨d, hd, segs, hcar, hmem, hadm⟩ :=
    emits_updateFlushed (b := f.buffer) hT h.config h.sender.sends hseg
  refine ⟨f', hgoes, hrest, hticked.backlog, hbuf', d, ?_, segs, hcar, fun v hv => ?_,
    ikcpEncodeSeg seg, hmem, ?_⟩
  · rw [hticked.emitted]
    exact List.mem_append_right _ hd
  · obtain ⟨hadmissible, s, hs, rfl⟩ := hadm v hv
    refine ⟨hadmissible, ?_⟩
    rcases (mem_updateFlushed hs).1 with hctl | hkey
    · exact hctl.wire.1
    · -- nothing is held that could be sent
      have hconfig : clocked.config = forwarderConfig := h.config
      have hnone : (flushMoved clocked).sndBuf = [] :=
        sndBuf_closed hconfig h.intact.sendWindow hbuf hwnd
      have hout := outgoing_ikcpFlush listSink (updateClock f.kcp current).1 [] hu
      rw [ikcpUpdate_due hdue, hout, hclock] at hkey
      have hempty : (flushMoved clocked).outgoing.sndBuf = [] :=
        congrArg (List.map IkcpSeg.key) hnone
      rw [hempty] at hkey
      cases hkey
  · show seg.cmd.toUInt8.toUInt32 = _
    rw [hcmd]
    decide

/-- `rcv_queue` is shorter than the window, and this is what is reported. -/
theorem wndUnused_ne_zero {kcp : Ikcpcb α} (ht : Tidy kcp) (hroom : kcp.rcvQueue.length < 1024) :
    (ikcpWndUnused kcp).toUInt16.toUInt32 ≠ 0 := by
  have hlt := (nrcvQue_lt_iff ht.toOrdered).mpr hroom
  have hcount : kcp.nrcvQue.toNat = kcp.rcvQueue.length := by
    rw [ht.count, UInt32.toNat_ofNat_of_lt' (by simp only [UInt32.size]; omega)]
  have hwnd : kcp.rcvWnd.toNat = 1024 := by
    rw [ht.rcvWnd]
    rfl
  intro hzero
  have hnat := congrArg UInt32.toNat hzero
  rw [ikcpWndUnused, if_pos hlt, UInt16.toNat_toUInt32, UInt32.toNat_toUInt16,
    UInt32.toNat_sub_of_le _ _ (UInt32.le_of_lt hlt), hcount, hwnd] at hnat
  have hz : (0 : UInt32).toNat = 0 := rfl
  omega

/-- **A closed window opens**: it is probed, and the answer reports the room there is. -/
theorem Rest.opens (hT : Lawful T Carries) (h : Rest Carries f g) (hbuf : f.kcp.sndBuf = [])
    (hwnd : f.kcp.rmtWnd = 0) :
    ∃ f' g', Goes T ρ σ (f, g) (f', g') ∧ Rest Carries f' g' ∧ f'.kcp.sndBuf = [] ∧
      f'.kcp.rmtWnd ≠ 0 ∧ backlog f'.kcp = backlog f.kcp ∧ backlog g'.kcp ≤ backlog g.kcp := by
  -- the other end makes room
  obtain ⟨g₁, hgoes₁, hrest₁, hticked₁⟩ := h.symm.tick (ρ := σ) (σ := ρ) hT g.kcp.tsFlush
  -- the window is probed
  obtain ⟨f₁, hgoes₂, hrest₂, hticked₂, hbuf₁, hwnd₁, hwait₁⟩ :=
    hrest₁.symm.tick_closed (ρ := ρ) (σ := σ) hT hbuf hwnd (due_tsFlush f.kcp)
  obtain ⟨f₂, hgoes₃, hrest₃, hback₃, hbuf₂, d, hd, segs, hcar, hadm, hask⟩ :=
    hrest₂.probe (ρ := ρ) (σ := σ) hT hbuf₁ hwnd₁ hwait₁
  -- the probe arrives
  obtain ⟨g₂, hgoes₄, hrest₄, hfed₄, -⟩ := hrest₃.symm.feed (ρ := σ) (σ := ρ) hT hd hcar
  have hconv : g₁.kcp.conv = forwarderConv := congrArg Config.conv hrest₃.symm.config
  have htell : g₂.kcp.probe = IKCP_ASK_TELL := by
    rw [hfed₄]
    refine probe_inputSegs hrest₃.intact'.timers ?_ hask
    rw [hconv]
    exact fun v hv => (hadm v hv).1
  have hroom : g₂.kcp.rcvQueue.length < 1024 := by
    obtain ⟨-, -, -, -, -, hshort, -⟩ := hticked₁.drained
    have hwindow : g₂.kcp.window = g₁.kcp.window := by
      rw [hfed₄]
      exact window_inputSegs (fun v hv => (hadm v hv).2)
    have hqueue : g₂.kcp.rcvQueue = g₁.kcp.rcvQueue := congrArg Window.rcvQueue hwindow
    rw [hqueue]
    omega
  have hunused := wndUnused_ne_zero hrest₄.intact.tidy hroom
  -- and is answered
  obtain ⟨g₃, hgoes₅, hrest₅, hback₅, d', hd', w, rest, hcar', hall⟩ :=
    hrest₄.answer (ρ := σ) (σ := ρ) hT (Or.inr htell)
  obtain ⟨f₃, hgoes₆, hrest₆, hfed₆, -⟩ := hrest₅.symm.feed (ρ := ρ) (σ := σ) hT hd' hcar'
  have hreleases := releases_inputSegs f₂.kcp (w :: rest)
  have hnone : f₃.kcp.sndBuf = [] := by
    have hsub : (f₃.kcp.sndBuf.map IkcpSeg.key).Sublist (f₂.kcp.sndBuf.map IkcpSeg.key) := by
      rw [hfed₆]
      exact hreleases.sub
    rw [hbuf₂] at hsub
    exact List.map_eq_nil_iff.mp (List.sublist_nil.mp hsub)
  have hqueue : f₃.kcp.sndQueue = f₂.kcp.sndQueue := by
    rw [hfed₆]
    exact hreleases.sndQueue
  have hconv' : f₂.kcp.conv = forwarderConv := congrArg Config.conv hrest₄.symm.config
  refine ⟨f₃, g₃, ?_, hrest₆, hnone, ?_, ?_, ?_⟩
  · exact ((((hgoes₁.symm.trans hgoes₂).trans hgoes₃).trans hgoes₄.symm).trans hgoes₅.symm).trans
      hgoes₆
  · rw [hfed₆]
    refine rmtWnd_inputSegs (List.cons_ne_nil _ _) ?_ ?_
    · rw [hconv']
      exact fun v hv => (hall v hv).1
    · intro v hv
      rw [(hall v hv).2.2]
      exact hunused
  · have hsame : backlog f₃.kcp = backlog f₂.kcp := by
      rw [backlog, backlog, hnone, hqueue, hbuf₂]
    have hback₂ := hticked₂.backlog
    omega
  · have hback₁ := hticked₁.backlog
    have hback₄ : backlog g₂.kcp ≤ backlog g₁.kcp := by
      rw [hfed₄]
      exact backlog_inputSegs _ _
    omega

/-- **Something is numbered** when nothing is held and something is queued. -/
theorem Rest.hold (hT : Lawful T Carries) (h : Rest Carries f g) (hbuf : f.kcp.sndBuf = [])
    (hpos : 0 < backlog f.kcp) :
    ∃ f' g', Goes T ρ σ (f, g) (f', g') ∧ Rest Carries f' g' ∧ f'.kcp.sndBuf ≠ [] ∧
      backlog f'.kcp = backlog f.kcp ∧ backlog g'.kcp ≤ backlog g.kcp := by
  have hqueued : ∀ k : Ikcpcb α, k.sndBuf = [] → backlog k = backlog f.kcp → k.sndQueue ≠ [] := by
    intro k hk hback hnil
    rw [backlog, hk, hnil] at hback
    have hzero : 0 = backlog f.kcp := hback
    omega
  by_cases hwnd : f.kcp.rmtWnd = 0
  · obtain ⟨f₁, g₁, hgoes₁, hrest₁, hbuf₁, hwnd₁, hback₁, hback₁'⟩ :=
      h.opens (ρ := ρ) (σ := σ) hT hbuf hwnd
    obtain ⟨f₂, hgoes₂, hrest₂, hbuf₂, hback₂⟩ :=
      hrest₁.number (ρ := ρ) (σ := σ) hT hbuf₁ (hqueued _ hbuf₁ hback₁) hwnd₁
    exact ⟨f₂, g₁, hgoes₁.trans hgoes₂, hrest₂, hbuf₂, hback₂.trans hback₁, hback₁'⟩
  · obtain ⟨f₁, hgoes₁, hrest₁, hbuf₁, hback₁⟩ :=
      h.number (ρ := ρ) (σ := σ) hT hbuf (hqueued _ hbuf rfl) hwnd
    exact ⟨f₁, g, hgoes₁, hrest₁, hbuf₁, hback₁, Nat.le_refl _⟩

/-! ## All rounds -/

/-- **The backlog goes down** as long as there is one. -/
theorem Rest.progress (hT : Lawful T Carries) (h : Rest Carries f g) (hpos : 0 < backlog f.kcp) :
    ∃ f' g', Goes T ρ σ (f, g) (f', g') ∧ Rest Carries f' g' ∧ backlog f'.kcp < backlog f.kcp ∧
      backlog g'.kcp ≤ backlog g.kcp := by
  by_cases hbuf : f.kcp.sndBuf = []
  · obtain ⟨f₁, g₁, hgoes₁, hrest₁, hbuf₁, hback₁, hback₁'⟩ :=
      h.hold (ρ := ρ) (σ := σ) hT hbuf hpos
    obtain ⟨f₂, g₂, hgoes₂, hrest₂, hlt, hle⟩ := hrest₁.round (ρ := ρ) (σ := σ) hT hbuf₁
    exact ⟨f₂, g₂, hgoes₁.trans hgoes₂, hrest₂, by omega, by omega⟩
  · exact h.round hT hbuf

/-- **Both backlogs come to nothing.** -/
theorem Rest.empties (hT : Lawful T Carries) (n : Nat) (h : Rest Carries f g)
    (hn : backlog f.kcp + backlog g.kcp < n) :
    ∃ f' g', Goes T ρ σ (f, g) (f', g') ∧ Rest Carries f' g' ∧ backlog f'.kcp = 0 ∧
      backlog g'.kcp = 0 := by
  induction n generalizing f g with
  | zero => exact absurd hn (Nat.not_lt_zero _)
  | succ n ih =>
    by_cases hf : 0 < backlog f.kcp
    · obtain ⟨f₁, g₁, hgoes₁, hrest₁, hlt, hle⟩ := h.progress (ρ := ρ) (σ := σ) hT hf
      obtain ⟨f₂, g₂, hgoes₂, hdone⟩ := ih hrest₁ (by omega)
      exact ⟨f₂, g₂, hgoes₁.trans hgoes₂, hdone⟩
    · by_cases hg : 0 < backlog g.kcp
      · obtain ⟨g₁, f₁, hgoes₁, hrest₁, hlt, hle⟩ := h.symm.progress (ρ := σ) (σ := ρ) hT hg
        obtain ⟨f₂, g₂, hgoes₂, hdone⟩ := ih hrest₁.symm (by omega)
        exact ⟨f₂, g₂, hgoes₁.symm.trans hgoes₂, hdone⟩
      · exact ⟨f, g, Relation.ReflTransGen.refl, h, by omega, by omega⟩

/-! ## Everything is written -/

/-- The last fragment of a chunk is among its segments. -/
theorem exists_last_fragment {chunk : List α} (hlen : chunk.length ≤ 8192) :
    ∃ seg ∈ chunkSegs chunk, seg.frg = 0 := by
  have hpos := length_chunkSegs_pos chunk
  have hle := length_chunkSegs_le hlen
  have hcount := length_chunkSegs chunk
  have hlast : (chunkSegs chunk).length - 1 < (chunkSegs chunk).length := by omega
  have hat := List.getElem?_eq_getElem hlast
  refine ⟨_, List.getElem_mem hlast, ?_⟩
  rw [frg_fragment (by omega) chunk hat]
  have hzero : fragmentCount 1376 chunk.length - 1 - ((chunkSegs chunk).length - 1) = 0 := by omega
  rw [hzero]
  rfl

/-- **With nothing queued or held at `p`, a drained `q` has been handed everything.** -/
theorem delivered {retries : Prop} {p q : DataPath α D B} {taken : List (UInt32 × List α)} {r : Nat}
    (hb : p.sent.length < 2 ^ 31) (hlink : Link retries Carries p q taken r)
    (hsec : Secured Carries p q r) (hpumps : Pumps p q) (hdrained : Drained p q)
    (hempty : backlog p.kcp = 0) :
    p.read.flatten.Sublist q.written ∧ (¬ retries → q.written = p.read.flatten) := by
  obtain ⟨hbuf, hqueue⟩ := Nat.add_eq_zero_iff.mp hempty
  have hbuf := List.length_eq_zero_iff.mp hbuf
  have hqueue := List.length_eq_zero_iff.mp hqueue
  obtain ⟨j, -, -, hpend, hpart, -, hmissing⟩ := hdrained
  -- all that is numbered has been moved to `rcv_queue`
  have hr : p.sent.drop r = [] := by
    refine List.drop_eq_nil_of_le ?_
    by_contra hlt
    rcases hsec.held r (by omega) with (hself | ⟨seg, hseg, hsn⟩) | ⟨y, hy, -⟩
    · omega
    · have hnxt : q.kcp.rcvNxt = UInt32.ofNat r := hlink.receives.rcvNxt
      exact hmissing seg hseg (hsn.trans hnxt.symm)
    · obtain ⟨x, hx, -⟩ := List.mem_map.mp hy
      rw [hbuf] at hx
      cases hx
  -- and taken from there, since a part of a message lacks its last segment
  have hnone : q.kcp.rcvQueue = [] := by
    obtain ⟨i, -, htaken, -⟩ := hpumps.chunks (by omega) hlink.receives
    have hfrg := frg_ne_of_strictPart
      (fun c hc => hpumps.small c (List.mem_of_mem_drop hc)) hpart
    have hcuts := hpumps.cuts
    rw [hqueue, List.append_nil] at hcuts
    have hall : bodies (p.sent.take r) = taken ++ bodies q.kcp.rcvQueue := hlink.receives.queue
    have htake : p.sent.take r = p.sent := by
      have hsplit := List.take_append_drop r p.sent
      rwa [hr, List.append_nil] at hsplit
    rw [htake, hcuts, htaken, ← List.take_append_drop i p.read, fragments_append, bodies,
      List.map_append, List.take_append_drop] at hall
    have hrest := List.append_cancel_left hall
    cases hdrop : p.read.drop i with
    | nil =>
      rw [hdrop] at hrest
      exact List.map_eq_nil_iff.mp hrest.symm
    | cons chunk more =>
      exfalso
      have hmem : chunk ∈ p.read := List.mem_of_mem_drop (by rw [hdrop]; exact List.mem_cons_self ..)
      obtain ⟨seg, hseg, hzero⟩ := exists_last_fragment (hpumps.small chunk hmem)
      have hbody : seg.body ∈ bodies q.kcp.rcvQueue := by
        rw [← hrest, hdrop, fragments_cons]
        exact List.mem_map_of_mem (List.mem_append_left _ hseg)
      obtain ⟨seg', hseg', hsame⟩ := List.mem_map.mp hbody
      exact hfrg seg' hseg' ((congrArg Prod.fst hsame).trans hzero)
  have hread := hlink.read_eq
  rw [hr, hqueue, hnone] at hread
  obtain ⟨before, done, hbytes, hmessage, hsub, hwritten⟩ := hlink.handed
  rw [hpend, List.append_nil] at hmessage
  have hfinal : p.read.flatten = before ++ done := by
    rw [hread, hbytes, hmessage]
    exact List.append_nil _
  rw [hfinal]
  exact ⟨hsub, hwritten⟩

/-- What two ends have reached when nothing is left to do. -/
structure Settled (Carries : D → List (WireSeg α) → Prop) (f g : Forwarder α D B) : Prop
    extends Rest Carries f g where
  empty : backlog f.kcp = 0
  empty' : backlog g.kcp = 0
  drained : Drained f.toDataPath g.toDataPath
  drained' : Drained g.toDataPath f.toDataPath

/-- **Two ends at rest get everything written.** -/
theorem Rest.settled (hT : Lawful T Carries) (h : Rest Carries f g) :
    ∃ f' g', Goes T ρ σ (f, g) (f', g') ∧ Settled Carries f' g' := by
  obtain ⟨f₁, g₁, hgoes₁, hrest₁, hf, hg⟩ :=
    h.empties (ρ := ρ) (σ := σ) hT _ (Nat.lt_succ_self _)
  obtain ⟨f₂, hgoes₂, hrest₂, hticked₂⟩ := hrest₁.tick (ρ := ρ) (σ := σ) hT f₁.kcp.tsFlush
  obtain ⟨g₂, hgoes₃, hrest₃, hticked₃⟩ := hrest₂.symm.tick (ρ := σ) (σ := ρ) hT g₁.kcp.tsFlush
  obtain ⟨-, hread, -⟩ := hrest₂.symm.toEnds.goes hT hgoes₃
  exact ⟨f₂, g₂, (hgoes₁.trans hgoes₂).trans hgoes₃.symm, hrest₃.symm, hticked₂.backlog.trans hf,
    hticked₃.backlog.trans hg, hticked₃.drained, drained_of_read hticked₂.drained hread⟩

theorem Settled.written (h : Settled Carries f g) : f.read.flatten.Sublist g.written := by
  obtain ⟨_, _, hlink, hsec⟩ := h.pumped.up
  exact (delivered h.sent_lt hlink (hsec h.sent_lt) h.pumped.pumpsUp h.drained h.empty).1

/-- Without retries nothing is written twice. -/
theorem Settled.written_eq (h : Settled Carries f g)
    (hjoined : Joined False Carries f.toDataPath g.toDataPath) : g.written = f.read.flatten := by
  obtain ⟨_, _, hlink, hsec⟩ := hjoined.up
  exact (delivered h.sent_lt hlink (hsec h.sent_lt) h.pumped.pumpsUp h.drained h.empty).2 not_false

theorem Settled.waitsnd (h : Settled Carries f g) : ikcpWaitsnd f.kcp = 0 := by
  obtain ⟨hbuf, hqueue⟩ := Nat.add_eq_zero_iff.mp h.empty
  exact ((Forwarder.waitsnd_eq_zero_iff h.sender).mpr
    ⟨List.length_eq_zero_iff.mp hqueue, List.length_eq_zero_iff.mp hbuf⟩).1

theorem Settled.symm (h : Settled Carries f g) : Settled Carries g f :=
  ⟨h.toRest.symm, h.empty', h.empty, h.drained', h.drained⟩

/-! ## The tunnel -/

/-- The quiet events of either end. -/
def TunnelEvent.Quiet : TunnelEvent α D → Prop
  | .client e => e.Quiet
  | .server e => e.Quiet

namespace Tunnel
variable [DecidableEq D] {t t' : Tunnel α D B}

/-- The ends of a tunnel go on together. -/
theorem exec_of_goes (h : Goes T .client .server (t.client, t.server) (f, g)) :
    ∃ more, exec (step T) t more = some ⟨f, g⟩ ∧ ∀ e ∈ more, e.Quiet := by
  have hall : ∀ b, Goes T .client .server (t.client, t.server) b →
      ∃ more, exec (step T) t more = some ⟨b.1, b.2⟩ ∧ ∀ e ∈ more, e.Quiet := by
    intro b hb
    have hsnoc : ∀ {more : List (TunnelEvent α D)} {u v : Tunnel α D B} {e : TunnelEvent α D},
        exec (step T) t more = some u → (∀ e ∈ more, e.Quiet) → step T u e = some v → e.Quiet →
        ∃ more, exec (step T) t more = some v ∧ ∀ e ∈ more, e.Quiet := by
      intro more u v e hrun hquiet hstep he
      refine ⟨more ++ [e], exec_append_eq_some.mpr ⟨u, hrun, ?_⟩, ?_⟩
      · rw [exec_singleton]
        exact hstep
      · intro x hx
        rcases List.mem_append.mp hx with hx | hx
        · exact hquiet x hx
        · rw [List.mem_singleton.mp hx]
          exact he
    induction hb with
    | refl => exact ⟨[], rfl, fun _ he => absurd he List.not_mem_nil⟩
    | tail _ ht ih =>
      obtain ⟨more, hrun, hquiet⟩ := ih
      cases ht with
      | @left f f' g e quiet net h =>
        have hstep : step T (⟨f, g⟩ : Tunnel α D B) (.client e) = some ⟨f', g⟩ := by
          have hnext : step T (⟨f, g⟩ : Tunnel α D B) (.client e) =
              (f.step T .client e).map (fun f' => ⟨f', g⟩) := if_pos net
          rw [hnext, h]
          rfl
        exact hsnoc hrun hquiet hstep quiet
      | @right f g g' e quiet net h =>
        have hstep : step T (⟨f, g⟩ : Tunnel α D B) (.server e) = some ⟨f, g'⟩ := by
          have hnext : step T (⟨f, g⟩ : Tunnel α D B) (.server e) =
              (g.step T .server e).map (fun g' => ⟨f, g'⟩) := if_pos net
          rw [hnext, h]
          rfl
        exact hsnoc hrun hquiet hstep quiet
  exact hall _ h

/-- What holds of either end of a tunnel by itself. -/
structure Kept (role : Role) (f : Forwarder α D B) : Prop extends f.Alone where
  attentive : f.Attentive
  intact : Intact f.kcp
  spawned : role = .client → f.Spawned

omit [DecidableEq D] in
theorem kept_started (role : Role) (buffer : B) (alive : Bool) :
    Kept role (Forwarder.started (α := α) (D := D) role buffer alive) where
  toAlone := Forwarder.alone_started buffer alive
  attentive := Forwarder.attentive_started buffer alive
  intact := intact_forwarderKcp
  spawned := by
    rintro rfl
    exact fun h => nomatch h

omit [DecidableEq D] in
theorem kept_step (hT : Lawful T Carries) (hf : Kept ρ f) {e : Event α D}
    (h : Forwarder.step T ρ f e = some f') : Kept ρ f' := by
  have hretries : e = .writeAgain → True := fun _ => trivial
  have harrives : ∀ d, e.datagram = some d → (fun _ => True) d := fun _ _ => trivial
  obtain ⟨-, hsteps⟩ := Forwarder.step_dataPath T hf.calm hretries harrives h
  exact ⟨Forwarder.alone_step hT hf.toAlone h, Forwarder.attentive_step hf.attentive h,
    (intact_steps hT hf.sender hf.intact hsteps).2,
    fun hclient => Forwarder.spawned_step (hf.spawned hclient) h⟩

theorem kept_exec (hT : Lawful T Carries) {client server : B × Bool}
    {run : List (TunnelEvent α D)} (hrun : exec (step T) (started client server) run = some t) :
    Kept .client t.client ∧ Kept .server t.server := by
  have hstep : ∀ (s : Tunnel α D B) e s', Kept .client s.client ∧ Kept .server s.server →
      step T s e = some s' → Kept .client s'.client ∧ Kept .server s'.server := by
    rintro s e s' ⟨hc, hs⟩ h
    cases e with
    | client e =>
      obtain ⟨-, h⟩ := Option.ite_none_right_eq_some.mp h
      obtain ⟨f, hf, rfl⟩ := Option.map_eq_some_iff.mp h
      exact ⟨kept_step hT hc hf, hs⟩
    | server e =>
      obtain ⟨-, h⟩ := Option.ite_none_right_eq_some.mp h
      obtain ⟨f, hf, rfl⟩ := Option.map_eq_some_iff.mp h
      exact ⟨hc, kept_step hT hs hf⟩
  exact exec_invariant hstep ⟨kept_started .client client.1 client.2,
    kept_started .server server.1 server.2⟩ hrun

/-- **The two ends of a run get everything written**, if both are still there. -/
theorem settled_exec (hT : Lawful T Carries) {client server : B × Bool}
    {run : List (TunnelEvent α D)} (hrun : exec (step T) (started client server) run = some t)
    (hclient : t.client.stopped = none) (hserver : t.server.stopped = none)
    (hrefs : 0 < t.server.refs)
    (hup : t.client.sent.length + t.client.kcp.sndQueue.length < 2 ^ 31)
    (hdown : t.server.sent.length + t.server.kcp.sndQueue.length < 2 ^ 31) :
    ∃ more t', exec (step T) t more = some t' ∧ (∀ e ∈ more, e.Quiet) ∧
      Settled Carries t'.client t'.server ∧ t'.client.read = t.client.read ∧
      t'.server.read = t.server.read := by
  have hb : t.SentBelow (2 ^ 32) := ⟨by omega, by omega⟩
  have hpumped := isPumped_exec hT hrun hb
  have hsound := sound_exec hrun
  obtain ⟨hkc, hks⟩ := kept_exec hT hrun
  have hfew : ∀ {p q : DataPath α D B}, Pumps p q → p.sent.length + p.kcp.sndQueue.length < 2 ^ 31 →
      (fragments p.read).length < 2 ^ 31 := by
    intro p q hp hlt
    rw [← hp.cuts, List.length_append]
    exact hlt
  have hends : Ends Carries t.client t.server :=
    ⟨hsound.client, hsound.server, hpumped.pumped, hpumped.client, hpumped.server, hkc.intact,
      hks.intact, hfew hpumped.pumped.pumpsUp hup, hfew hpumped.pumped.pumpsDown hdown⟩
  have hcrefs : 0 < t.client.refs := Nat.pos_of_ne_zero fun hzero =>
    hsound.clientLife.stopped_of_refs (hkc.spawned rfl) hzero hclient
  -- both ends come to rest
  obtain ⟨es₁, f, hes₁, hsilent₁, -, hready₁⟩ :=
    Forwarder.settle T .client hsound.clientLife hkc.attentive hkc.calm hclient hcrefs
  obtain ⟨es₂, g, hes₂, hsilent₂, -, hready₂⟩ :=
    Forwarder.settle T .server hsound.serverLife hks.attentive hks.calm hserver hrefs
  have hgoes₁ : Goes T .client .server (t.client, t.server) (f, t.server) := goes_silent hsilent₁ hes₁
  have hgoes₂ : Goes T .server .client (t.server, f) (g, f) := goes_silent hsilent₂ hes₂
  have hgoes := hgoes₁.trans hgoes₂.symm
  have hrest : Rest Carries f g := ⟨(hends.goes hT hgoes).1, hready₁, hready₂⟩
  -- and then to an end
  obtain ⟨f', g', hgoes', hsettled⟩ := hrest.settled (ρ := .client) (σ := .server) hT
  have hall := hgoes.trans hgoes'
  obtain ⟨-, hread, hread'⟩ := hends.goes hT hall
  obtain ⟨more, hmore, hquiet⟩ := exec_of_goes hall
  exact ⟨more, ⟨f', g'⟩, hmore, hquiet, hsettled, hread, hread'⟩

omit [DecidableEq D] in
theorem noTryAgain_of_quiet {e : TunnelEvent α D} (h : e.Quiet) : NoTryAgain e := by
  cases e with
  | client e =>
    rintro rfl
    exact h
  | server e =>
    rintro rfl
    exact h

/-- **The tunnel recovers.**  Whatever datagrams have been lost, and however the run has been
interleaved: while both ends are still there it can go on, without another byte being read and
without an error, to a state in which everything read at either end has been written at the
other, in order and once if no write had to be retried, and nothing is queued or held.  The
clocks of the continuation are free: a tick may jump to where a timer has run out.  The
server's active timer coroutine, which looks every 5 s, is not resumed in it, so nothing is
said of a session that expires before it has recovered. -/
theorem tunnel_recovers (checkSum : Bool) (client server : List UInt8 × Bool)
    (run : List (TunnelEvent UInt8 (List UInt8))) (t : Tunnel UInt8 (List UInt8) (List UInt8))
    (hrun : exec (step (udp checkSum)) (started client server) run = some t)
    (hclient : t.client.stopped = none) (hserver : t.server.stopped = none)
    (hrefs : 0 < t.server.refs)
    (hup : t.client.sent.length + t.client.kcp.sndQueue.length < 2 ^ 31)
    (hdown : t.server.sent.length + t.server.kcp.sndQueue.length < 2 ^ 31) :
    ∃ more t', exec (step (udp checkSum)) t more = some t' ∧ (∀ e ∈ more, e.Quiet) ∧
      (t'.client.read = t.client.read ∧ t'.server.read = t.server.read) ∧
      (t.client.read.flatten.Sublist t'.server.written ∧
        t.server.read.flatten.Sublist t'.client.written) ∧
      ((∀ e ∈ run, NoTryAgain e) → t'.server.written = t.client.read.flatten ∧
        t'.client.written = t.server.read.flatten) ∧
      (ikcpWaitsnd t'.client.kcp = 0 ∧ ikcpWaitsnd t'.server.kcp = 0) := by
  have hT := lawful_udp checkSum
  obtain ⟨more, t', hmore, hquiet, hsettled, hread, hread'⟩ :=
    settled_exec hT hrun hclient hserver hrefs hup hdown
  refine ⟨more, t', hmore, hquiet, ⟨hread, hread'⟩, ⟨?_, ?_⟩, fun hagain => ?_, ?_, ?_⟩
  · rw [← hread]
    exact hsettled.written
  · rw [← hread']
    exact hsettled.symm.written
  · have hall : ∀ e ∈ run ++ more, ¬ False → NoTryAgain e := by
      intro e he _
      rcases List.mem_append.mp he with he | he
      · exact hagain e he
      · exact noTryAgain_of_quiet (hquiet e he)
    have hb := hsettled.sent_lt
    have hb' := hsettled.symm.sent_lt
    obtain ⟨-, hjoined⟩ := isJoined_exec hT (exec_append_eq_some.mpr ⟨t, hrun, hmore⟩) hall
      ⟨by omega, by omega⟩
    rw [← hread, ← hread']
    exact ⟨hsettled.written_eq hjoined, hsettled.symm.written_eq hjoined.symm⟩
  · exact hsettled.waitsnd
  · exact hsettled.symm.waitsnd

/-- The server has written two of three bytes when the run stops, and goes on. -/
theorem tunnel_recovers_shortRun :
    ∃ t : Tunnel UInt8 (List UInt8) (List UInt8),
      exec (step (udp true)) (started ([], false) ([], true)) shortRun = some t ∧
      t.server.written = [1, 2] ∧
      ∃ more t', exec (step (udp true)) t more = some t' ∧ (∀ e ∈ more, e.Quiet) ∧
        [1, 2, 3].Sublist t'.server.written ∧ ikcpWaitsnd t'.client.kcp = 0 := by
  have hobs : (exec (step (udp true)) (started ([], false) ([], true)) shortRun).map
      (fun t => ((t.client.read.flatten, t.server.written),
        (t.client.stopped.isNone, t.server.stopped.isNone, t.server.refs),
        t.client.sent.length + t.client.kcp.sndQueue.length,
        t.server.sent.length + t.server.kcp.sndQueue.length)) =
          some (([1, 2, 3], [1, 2]), (true, true, 4), 1, 0) := by
    decide +kernel
  obtain ⟨t, hrun, hobs⟩ := Option.map_eq_some_iff.mp hobs
  simp only [Prod.mk.injEq, Option.isNone_iff_eq_none] at hobs
  obtain ⟨⟨hread, hwritten⟩, ⟨hclient, hserver, hrefs⟩, hup, hdown⟩ := hobs
  obtain ⟨more, t', hmore, hquiet, -, ⟨hsub, -⟩, -, hwaits, -⟩ :=
    tunnel_recovers true ([], false) ([], true) shortRun t hrun hclient hserver
      (by rw [hrefs]; decide) (by rw [hup]; decide) (by rw [hdown]; decide)
  rw [hread] at hsub
  exact ⟨t, hrun, hwritten, more, t', hmore, hquiet, hsub, hwaits⟩

end Tunnel
end FlexProxy
