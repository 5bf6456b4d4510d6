import FlexProxy.FlushPace
import FlexProxy.Tunnel

/-! # What an acknowledgement says

An acknowledgement brings back the number and the time of a push.  What a run of the tunnel has
sent is recorded with what the sender's clock showed then (`sendings`).  Every acknowledgement is
for a push of that record, and the time it brings back is the one recorded (`acks_echo`): no
loss, repetition or reordering of datagrams makes one up.  So the round trip that `ikcp_input`
measures is the age of a transmission of the segment it names, and never negative.

* `Stamped`: the pushes an end has sent bear the times at which it sent them.
* `Echoes`: what one end acknowledges, or is about to, the other has sent.
-/
namespace FlexProxy
open TransitionSystem
variable {α : Type}

/-! ## The control block -/

/-- What is acknowledged when a segment has been consumed. -/
theorem acks_inputSeg {kcp : Ikcpcb α} {acc : InputAcc} {w : WireSeg α}
    {a : UInt32 × UInt32} (h : a ∈ (inputSeg kcp acc w).1.acklist) :
    a ∈ kcp.acklist ∨ w.cmd.toUInt32 = IKCP_CMD_PUSH ∧ a = (w.sn, w.ts) := by
  obtain ⟨buf, nbuf, una, huna⟩ := inputUna_writes kcp w
  have hlist : (inputUna kcp w).acklist = kcp.acklist := by rw [huna]
  unfold inputSeg at h
  dsimp only at h
  split_ifs at h with hack hpush
  · obtain ⟨rttval, srtt, rto, buf, nbuf, una, hw⟩ := inputAck_writes (inputUna kcp w) w
    rw [hw] at h
    exact Or.inl (hlist ▸ h)
  · have hmem : a ∈ (inputUna kcp w).acklist ++ [(w.sn, w.ts)] := by
      unfold inputPush at h
      dsimp only at h
      split_ifs at h
      · rwa [acklist_ikcpParseData] at h
      · exact h
      · exact List.mem_append_left _ h
    rcases List.mem_append.mp hmem with hmem | hmem
    · exact Or.inl (hlist ▸ hmem)
    · exact Or.inr ⟨hpush, List.mem_singleton.mp hmem⟩
  · exact Or.inl (hlist ▸ h)
  · exact Or.inl (hlist ▸ h)

theorem acks_inputLoop {prevUna : UInt32} {segs : List (WireSeg α)} {kcp : Ikcpcb α}
    {acc : InputAcc} {a : UInt32 × UInt32}
    (h : a ∈ (inputLoop prevUna segs kcp acc).1.acklist) :
    a ∈ kcp.acklist ∨ ∃ w ∈ segs, w.cmd.toUInt32 = IKCP_CMD_PUSH ∧ a = (w.sn, w.ts) := by
  induction segs generalizing kcp acc with
  | nil =>
    obtain ⟨buf, cwnd, incr, -, hend⟩ := inputEnd_writes kcp prevUna acc
    have hlist : (inputEnd prevUna kcp acc).acklist = kcp.acklist := by rw [hend]
    exact Or.inl (hlist ▸ h)
  | cons w rest ih =>
    unfold inputLoop at h
    split_ifs at h
    · exact Or.inl h
    · exact Or.inl h
    · rcases ih h with h | ⟨v, hv, hpush⟩
      · rcases acks_inputSeg h with h | hpush
        · exact Or.inl h
        · exact Or.inr ⟨w, List.mem_cons_self .., hpush⟩
      · exact Or.inr ⟨v, List.mem_cons_of_mem _ hv, hpush⟩

/-- **What a datagram has acknowledged**: its pushes. -/
theorem acks_inputSegs {kcp : Ikcpcb α} {segs : List (WireSeg α)} {a : UInt32 × UInt32}
    (h : a ∈ (inputSegs kcp segs).1.acklist) :
    a ∈ kcp.acklist ∨ ∃ w ∈ segs, w.cmd.toUInt32 = IKCP_CMD_PUSH ∧ a = (w.sn, w.ts) := by
  unfold inputSegs at h
  split_ifs at h
  · exact Or.inl h
  · exact acks_inputLoop h

theorem ts_of_mem_flushData {kcp : Ikcpcb α} {wnd current resent rtomin : UInt32}
    {l : List (IkcpSeg α)} {acc : FlushAcc} {seg : IkcpSeg α}
    (h : seg ∈ (flushData listSink kcp wnd current resent rtomin l acc []).2) :
    seg.ts = current := by
  induction l generalizing acc with
  | nil => cases h
  | cons segment rest ih =>
    unfold flushData at h
    split at h
    · exact ih h
    · simp only [makeRoom_listSink] at h
      rw [flushData_listSink] at h
      rcases List.mem_append.mp h with h | h
      · rw [List.mem_singleton.mp h]
      · exact ih h

/-- **The time a push bears** is that of the update that sends it. -/
theorem ts_of_mem_updateFlushed {kcp : Ikcpcb α} {current : UInt32} {seg : IkcpSeg α}
    (h : seg ∈ updateFlushed kcp current)
    (hpush : (ikcpEncodeSeg seg).cmd.toUInt32 = IKCP_CMD_PUSH) : seg.ts = current := by
  have hclock : (updateClock kcp current).1.current = current := by
    obtain ⟨updated, tsFlush, -, hw⟩ := updateClock_writes kcp current
    rw [hw]
  unfold updateFlushed ikcpUpdate at h
  dsimp only at h
  split_ifs at h
  · have hmem : seg ∈ flushed (updateClock kcp current).1 := h
    rw [flushed_eq _ (updated_updateClock kcp current)] at hmem
    rcases List.mem_append.mp hmem with hmem | hmem
    · exact absurd hpush (mem_ctlSegs hmem).1.wire.1
    · exact (ts_of_mem_flushData hmem).trans hclock
  · cases h

/-! ## The record -/

/-- A datagram that an end has sent, and what its clock showed then. -/
structure Sending (D : Type) where
  sender : Role
  time : Nat
  datagram : D
  deriving DecidableEq

section Record
variable {D : Type}

/-- What has been sent last, after `before`, at the time `time`. -/
def newly (sender : Role) (time : Nat) (before after : List D) : List (Sending D) :=
  (after.drop before.length).map (fun d => ⟨sender, time, d⟩)

/-- The datagrams of `role` in a record. -/
def sentBy (role : Role) (h : List (Sending D)) : List D :=
  (h.filter (fun x => x.sender = role)).map Sending.datagram

theorem mem_newly {sender : Role} {time : Nat} {before after : List D} {x : Sending D}
    (h : x ∈ newly sender time before after) : x.sender = sender ∧ x.time = time := by
  obtain ⟨d, -, rfl⟩ := List.mem_map.mp h
  exact ⟨rfl, rfl⟩

@[simp] theorem newly_self (sender : Role) (time : Nat) (sent : List D) :
    newly sender time sent sent = [] := by
  rw [newly, List.drop_length]
  rfl

theorem sentBy_append (role : Role) (h h' : List (Sending D)) :
    sentBy role (h ++ h') = sentBy role h ++ sentBy role h' := by
  rw [sentBy, List.filter_append, List.map_append]
  rfl

theorem sentBy_newly (role : Role) (time : Nat) (before more : List D) :
    sentBy role (newly role time before (before ++ more)) = more := by
  rw [newly, List.drop_left, sentBy, List.filter_eq_self.mpr, List.map_map]
  · exact List.map_id more
  · intro x hx
    obtain ⟨d, -, rfl⟩ := List.mem_map.mp hx
    exact decide_eq_true rfl

theorem sentBy_newly_of_ne {role sender : Role} (hne : sender ≠ role) (time : Nat)
    (before after : List D) : sentBy role (newly sender time before after) = [] := by
  rw [sentBy, List.filter_eq_nil_iff.mpr, List.map_nil]
  intro x hx
  rw [(mem_newly hx).1]
  exact fun h => hne (of_decide_eq_true h)

theorem mem_sentBy {role : Role} {h : List (Sending D)} {d : D} (hd : d ∈ sentBy role h) :
    ∃ x ∈ h, x.sender = role ∧ x.datagram = d := by
  obtain ⟨x, hx, rfl⟩ := List.mem_map.mp hd
  obtain ⟨hx, hrole⟩ := List.mem_filter.mp hx
  exact ⟨x, hx, of_decide_eq_true hrole, rfl⟩

end Record

/-! ## The two ends -/

section Ends
variable {D B : Type} {T : Transport α D B} {Carries : D → List (WireSeg α) → Prop}
  {role : Role} {h h' : List (Sending D)} {p p' q q' : DataPath α D B} {c c' : Nat}

/-- The last update of `p` was at `c` on its clock.  What it has sent is in the record `h`, and
every push in it bears the time at which it was sent. -/
structure Stamped (Carries : D → List (WireSeg α) → Prop) (role : Role) (h : List (Sending D))
    (p : DataPath α D B) (c : Nat) : Prop where
  current : p.kcp.current = UInt32.ofNat c
  sent : sentBy role h = p.emitted
  stamps : ∀ x ∈ h, x.sender = role → x.time ≤ c ∧ ∃ segs, Carries x.datagram segs ∧
    ∀ w ∈ segs, w.cmd.toUInt32 = IKCP_CMD_PUSH → w.ts = UInt32.ofNat x.time

/-- `p` leaves its clock and what it has sent alone. -/
theorem Stamped.congr (hp : Stamped Carries role h p c)
    (hcurrent : p'.kcp.current = p.kcp.current) (hsent : p'.emitted = p.emitted) :
    Stamped Carries role h p' c where
  current := hcurrent.trans hp.current
  sent := hp.sent.trans hsent.symm
  stamps := hp.stamps

/-- The other end sends. -/
theorem Stamped.other {sender : Role} (hp : Stamped Carries role h p c) (hne : sender ≠ role)
    (time : Nat) (before after : List D) :
    Stamped Carries role (h ++ newly sender time before after) p c where
  current := hp.current
  sent := by
    rw [sentBy_append, sentBy_newly_of_ne hne, List.append_nil]
    exact hp.sent
  stamps := by
    intro x hx hrole
    rcases List.mem_append.mp hx with hx | hx
    · exact hp.stamps x hx hrole
    · exact absurd ((mem_newly hx).1.symm.trans hrole) hne

/-- What an update adds to what has been sent. -/
theorem emitted_update (p : DataPath α D B) (current : UInt32) (isOpen : Bool) :
    ∃ more, (p.update T current isOpen).emitted = p.emitted ++ more := by
  show ∃ more, (if isOpen then p.emitted ++ (T.update p.kcp p.buffer current).2 else p.emitted) =
    p.emitted ++ more
  split_ifs
  · exact ⟨_, rfl⟩
  · exact ⟨[], (List.append_nil _).symm⟩

/-- A datagram recorded as sent by an update is one that the update has packed. -/
theorem mem_newly_update {current : UInt32} {isOpen : Bool} {x : Sending D}
    (hx : x ∈ newly role c p.emitted (p.update T current isOpen).emitted) :
    x.datagram ∈ (T.update p.kcp p.buffer current).2 := by
  obtain ⟨d, hd, rfl⟩ := List.mem_map.mp hx
  have hemitted : (p.update T current isOpen).emitted =
      if isOpen then p.emitted ++ (T.update p.kcp p.buffer current).2 else p.emitted := rfl
  rw [hemitted] at hd
  split_ifs at hd
  · rwa [List.drop_left] at hd
  · rw [List.drop_length] at hd
    cases hd

/-- `p` reads the clock and sends. -/
theorem Stamped.update (hT : Lawful T Carries) (hsender : Sender p)
    (hp : Stamped Carries role h p c) (hle : c ≤ c') (isOpen : Bool) :
    Stamped Carries role
      (h ++ newly role c' p.emitted (p.update T (UInt32.ofNat c') isOpen).emitted)
      (p.update T (UInt32.ofNat c') isOpen) c' where
  current := by
    have hclock : (p.update T (UInt32.ofNat c') isOpen).kcp.clock =
        (updateClock p.kcp (UInt32.ofNat c')).1.clock := by
      rw [(sends_update hT hsender.config (UInt32.ofNat c') isOpen hsender.sends).1,
        clock_ikcpUpdate]
    obtain ⟨updated, tsFlush, -, hw⟩ := updateClock_writes p.kcp (UInt32.ofNat c')
    rw [hw] at hclock
    exact congrArg Prod.fst hclock
  sent := by
    obtain ⟨more, hmore⟩ := emitted_update (T := T) p (UInt32.ofNat c') isOpen
    rw [sentBy_append, hp.sent, hmore, sentBy_newly]
  stamps := by
    intro x hx hrole
    rcases List.mem_append.mp hx with hx | hx
    · obtain ⟨ht, hsegs⟩ := hp.stamps x hx hrole
      exact ⟨Nat.le_trans ht hle, hsegs⟩
    · have htime := (mem_newly hx).2
      obtain ⟨segs, hcar, hseg⟩ :=
        carries_of_mem_update hT hsender.config hsender.sends.fits (mem_newly_update hx)
      refine ⟨Nat.le_of_eq htime, segs, hcar, ?_⟩
      intro w hw hpush
      obtain ⟨seg, hmem, rfl⟩ := hseg w hw
      rw [htime]
      exact ts_of_mem_updateFlushed hmem hpush

/-- By the time `c`, a push numbered `sn` has been sent by `role`, at the time `ts` on its
clock. -/
def PushedAt (Carries : D → List (WireSeg α) → Prop) (role : Role) (h : List (Sending D)) (c : Nat)
    (sn ts : UInt32) : Prop :=
  ∃ x ∈ h, x.sender = role ∧ x.time ≤ c ∧ ts = UInt32.ofNat x.time ∧
    ∃ segs, Carries x.datagram segs ∧
      ∃ w ∈ segs, w.cmd.toUInt32 = IKCP_CMD_PUSH ∧ w.sn = sn ∧ w.ts = ts

/-- What `q` has acknowledged, or will, are pushes of `role`. -/
structure Echoes (Carries : D → List (WireSeg α) → Prop) (role : Role) (h : List (Sending D))
    (c : Nat) (q : DataPath α D B) : Prop where
  acks : ∀ a ∈ q.kcp.acklist, PushedAt Carries role h c a.1 a.2
  net : ∀ d ∈ q.emitted, ∃ segs, Carries d segs ∧
    ∀ w ∈ segs, w.cmd.toUInt32 = IKCP_CMD_ACK → PushedAt Carries role h c w.sn w.ts

theorem PushedAt.mono {sn ts : UInt32} (hp : PushedAt Carries role h c sn ts) (hsub : h ⊆ h')
    (hle : c ≤ c') : PushedAt Carries role h' c' sn ts := by
  obtain ⟨x, hx, hrole, ht, hsegs⟩ := hp
  exact ⟨x, hsub hx, hrole, Nat.le_trans ht hle, hsegs⟩

/-- The run goes on. -/
theorem Echoes.mono (hq : Echoes Carries role h c q) (hsub : h ⊆ h') (hle : c ≤ c') :
    Echoes Carries role h' c' q where
  acks := fun a ha => (hq.acks a ha).mono hsub hle
  net := by
    intro d hd
    obtain ⟨segs, hcar, hseg⟩ := hq.net d hd
    exact ⟨segs, hcar, fun w hw hack => (hseg w hw hack).mono hsub hle⟩

/-- `q` leaves its acknowledgements and what it has sent alone. -/
theorem Echoes.congr (hq : Echoes Carries role h c q) (hacks : q'.kcp.acklist = q.kcp.acklist)
    (hsent : q'.emitted = q.emitted) : Echoes Carries role h c q' where
  acks := by
    rw [hacks]
    exact hq.acks
  net := by
    rw [hsent]
    exact hq.net

/-- `q` receives what `p` has sent. -/
theorem Echoes.feed (hT : Lawful T Carries) (hp : Stamped Carries role h p c)
    (hq : Echoes Carries role h c q) {d : D} (hd : d ∈ p.emitted) :
    Echoes Carries role h c (q.feed T d) := by
  rw [← hp.sent] at hd
  obtain ⟨x, hx, hrole, rfl⟩ := mem_sentBy hd
  obtain ⟨ht, segs, hcar, hseg⟩ := hp.stamps x hx hrole
  have hkcp : (q.feed T x.datagram).kcp = (inputSegs q.kcp segs).1 :=
    hT.feed q.kcp x.datagram segs hcar
  refine ⟨?_, hq.net⟩
  intro a ha
  rw [hkcp] at ha
  rcases acks_inputSegs ha with ha | ⟨w, hw, hpush, rfl⟩
  · exact hq.acks a ha
  · exact ⟨x, hx, hrole, ht, hseg w hw hpush, segs, hcar, w, hw, hpush, rfl, rfl⟩

/-- `q` sends its acknowledgements off. -/
theorem Echoes.update (hT : Lawful T Carries) (hsender : Sender q)
    (hq : Echoes Carries role h c q) (current : UInt32) (isOpen : Bool) :
    Echoes Carries role h c (q.update T current isOpen) := by
  obtain ⟨hk, hsends, -⟩ := sends_update hT hsender.config current isOpen hsender.sends
  refine ⟨?_, ?_⟩
  · intro a ha
    rw [hk] at ha
    have hsub : a ∈ q.kcp.acklist := by
      rcases incoming_ikcpUpdate listSink q.kcp [] current with hin | hin
      · rwa [show (ikcpUpdate listSink q.kcp [] current).1.acklist = q.kcp.acklist from
          congrArg Incoming.acklist hin] at ha
      · rw [show (ikcpUpdate listSink q.kcp [] current).1.acklist = [] from
          congrArg Incoming.acklist hin] at ha
        cases ha
    exact hq.acks a hsub
  · intro d hd
    rcases mem_emitted_update hd with hd | hd
    · exact hq.net d hd
    · obtain ⟨segs, hcar, hseg⟩ :=
        carries_of_mem_update hT hsender.config hsender.sends.fits hd
      refine ⟨segs, hcar, ?_⟩
      intro w hw hack
      obtain ⟨seg, hmem, rfl⟩ := hseg w hw
      rcases (mem_updateFlushed hmem).1 with hctl | hkey
      · exact hq.acks _ (hctl.wire.2 hack)
      · -- a data segment is no acknowledgement
        rw [← hk] at hkey
        have hpush : seg.cmd = IKCP_CMD_PUSH := (hsends.copy hkey).2.2
        have hcmd : seg.cmd.toUInt8.toUInt32 = IKCP_CMD_ACK := hack
        rw [hpush] at hcmd
        exact absurd hcmd (by decide)

/-- **One step of the receiving end.** -/
theorem Echoes.step {retries : Prop} (hT : Lawful T Carries) (hp : Stamped Carries role h p c)
    (hsender : Sender q) (hq : Echoes Carries role h c q)
    (hs : DataPath.Step T retries (· ∈ p.emitted) q q') : Echoes Carries role h c q' := by
  cases hs with
  | tcpToKcp chunk hl =>
    have hin := (tcpToKcp_kcp hsender.config hl).2.1
    exact hq.congr (congrArg Incoming.acklist hin) rfl
  | feed d hd => exact hq.feed hT hp hd
  | update current isOpen => exact hq.update hT hsender current isOpen
  | recv hpend =>
    refine hq.congr ?_ rfl
    obtain ⟨buf, nbuf, queue, nque, nxt, probe, hw⟩ :=
      ikcpRecv_writes q.kcp DataPath.recvBufferSize_nonneg
    show (ikcpRecv q.kcp DataPath.recvBufferSize).1.acklist = _
    rw [hw]
  | transfer n => exact hq.congr rfl rfl
  | rewrite hr => exact hq.congr rfl rfl

theorem Echoes.steps {retries : Prop} (hT : Lawful T Carries) (hp : Stamped Carries role h p c)
    (hsender : Sender q) (hq : Echoes Carries role h c q)
    (hs : DataPath.Steps T retries (· ∈ p.emitted) q q') : Echoes Carries role h c q' := by
  have hboth : Sender q' ∧ Echoes Carries role h c q' := by
    induction hs with
    | refl => exact ⟨hsender, hq⟩
    | tail _ hs ih => exact ⟨sender_step hT ih.1 hs, ih.2.step hT hp ih.1 hs⟩
  exact hboth.2

end Ends

/-! ## Runs -/

namespace Forwarder
variable {D B : Type} {T : Transport α D B} {Carries : D → List (WireSeg α) → Prop} {role : Role}
  {h : List (Sending D)} {f f' : Forwarder α D B} {c : Nat}

/-- A forwarder between two events; `c` is when it has last called `ikcp_update`. -/
structure Clocked (Carries : D → List (WireSeg α) → Prop) (role : Role) (h : List (Sending D))
    (f : Forwarder α D B) (c : Nat) : Prop where
  calm : f.Calm True
  sender : Sender f.toDataPath
  unread : f.Unread
  stamped : Stamped Carries role h f.toDataPath c
  le : c ≤ f.now
  running : f.isRunning = some true → c = f.now

theorem clocked_started (role : Role) (buffer : B) (alive : Bool) :
    (started (α := α) (D := D) role buffer alive).Clocked Carries role [] 0 where
  calm := calm_started role True buffer alive
  sender := (fresh_started role buffer alive).sender
  unread := fun _ => rfl
  stamped := ⟨rfl, rfl, fun _ hx => nomatch hx⟩
  le := Nat.le_refl _
  running := fun _ => rfl

/-- A forwarder that runs has run before, or has just connected. -/
theorem running_of_step {e : Event α D} (hs : step T role f e = some f')
    (hrun : f'.isRunning = some true) : f.isRunning = some true ∨ f.starting = true := by
  cases moves_of_step hs with
  | stays status running starting refs stopped => exact Or.inl (running.symm.trans hrun)
  | ends c alive loop status running starting refs stopped =>
    exact Or.inl (running.symm.trans hrun)
  | stops c cause alive eof status running starting refs stopped =>
    rw [running] at hrun
    cases hrun
  | connects before status running starting refs stopped => exact Or.inr before
  | fails event before status running starting refs stopped =>
    exact Or.inl (running.symm.trans hrun)

/-- What needs no clock. -/
theorem Clocked.keeps (hT : Lawful T Carries) (hf : f.Clocked Carries role h c) {e : Event α D}
    (hs : step T role f e = some f') : f'.Calm True ∧ Sender f'.toDataPath ∧ f'.Unread := by
  have hretries : e = .writeAgain → True := fun _ => trivial
  have harrives : ∀ d, e.datagram = some d → (fun _ => True) d := fun _ _ => trivial
  obtain ⟨hcalm, hsteps⟩ := step_dataPath T hf.calm hretries harrives hs
  exact ⟨hcalm, sender_steps hT hf.sender hsteps, unread_step hT hf.calm hf.unread hs⟩

/-- An event at which nothing is sent. -/
theorem Clocked.quiet (hT : Lawful T Carries) (hf : f.Clocked Carries role h c) {e : Event α D}
    (hs : step T role f e = some f') (hcurrent : f'.kcp.current = f.kcp.current)
    (hsent : f'.emitted = f.emitted) (hle : c ≤ f'.now)
    (hrunning : f'.isRunning = some true → c = f'.now) :
    f'.Clocked Carries role (h ++ newly role f'.now f.emitted f'.emitted) c := by
  obtain ⟨hcalm, hsender, hunread⟩ := hf.keeps hT hs
  rw [hsent, newly_self, List.append_nil]
  exact ⟨hcalm, hsender, hunread, hf.stamped.congr hcurrent hsent, hle, hrunning⟩

/-- **One event of the sending end.** -/
theorem clocked_step (hT : Lawful T Carries) (hf : f.Clocked Carries role h c) {e : Event α D}
    (hs : step T role f e = some f') :
    ∃ c', f'.Clocked Carries role (h ++ newly role f'.now f.emitted f'.emitted) c' ∧ c ≤ c' := by
  -- nothing has been read off the clock before the connect
  have hstarting : f.starting = true → f.now = 0 :=
    fun hstart => hf.unread (Or.inl (hf.calm.starting hstart).2)
  rcases pace_step hT hs with ⟨now, hevent, hpace⟩ | ⟨-, hpace⟩
  · have hnow : f'.now = now := congrArg Prod.fst hpace
    have hcurrent : f'.kcp.current = (f.turned T now).kcp.current :=
      congrArg (fun x => x.2.1.1) hpace
    have hsent : f'.emitted = (f.turned T now).emitted := congrArg (fun x => x.2.2) hpace
    have hle : f.now ≤ now := by
      rcases hevent with ⟨-, hw⟩ | ⟨-, hle⟩
      · rw [hf.unread (Or.inr hw)]
        exact Nat.zero_le _
      · exact hle
    have hc : c ≤ now := Nat.le_trans hf.le hle
    by_cases hrun : f.isRunning = some true
    · have hturned : f.turned T now = f.toDataPath.update T (UInt32.ofNat now) f.isOpen :=
        if_pos hrun
      rw [hturned] at hcurrent hsent
      obtain ⟨hcalm, hsender, hunread⟩ := hf.keeps hT hs
      have hstamped := (hf.stamped.update hT hf.sender hc f.isOpen).congr hcurrent hsent
      rw [← hsent] at hstamped
      rw [hnow]
      exact ⟨now, ⟨hcalm, hsender, hunread, hstamped, Nat.le_of_eq hnow.symm, fun _ => hnow.symm⟩,
        hc⟩
    · have hturned : f.turned T now = f.toDataPath := if_neg hrun
      rw [hturned] at hcurrent hsent
      refine ⟨c, hf.quiet hT hs hcurrent hsent (hnow ▸ hc) (fun hrun' => ?_), Nat.le_refl _⟩
      rcases running_of_step hs hrun' with hrun' | hstart
      · exact absurd hrun' hrun
      · -- the kcp to tcp coroutine has not been spawned yet
        have hunborn := (hf.calm.starting hstart).2
        rcases hevent with ⟨-, hw⟩ | ⟨rfl, -⟩
        · cases hunborn.symm.trans hw
        · cases hunborn.symm.trans (Option.ite_none_right_eq_some.mp hs).1.1
  · have hnow : f'.now = f.now := congrArg Prod.fst hpace
    have hcurrent : f'.kcp.current = f.kcp.current := congrArg (fun x => x.2.1.1) hpace
    have hsent : f'.emitted = f.emitted := congrArg (fun x => x.2.2) hpace
    refine ⟨c, hf.quiet hT hs hcurrent hsent (hnow ▸ hf.le) (fun hrun' => ?_), Nat.le_refl _⟩
    rw [hnow]
    rcases running_of_step hs hrun' with hrun | hstart
    · exact hf.running hrun
    · have hle := hf.le
      rw [hstarting hstart] at hle ⊢
      exact Nat.le_zero.mp hle

end Forwarder

/-- Whatever `q` has acknowledged is a push of `p`, the end `role`, and the time that an
acknowledgement brings back is what the clock of `p` showed when it sent that push.  What `p`
measures on its arrival is the time from then to its last update; while it runs, that is its last
reading of the clock. -/
def Forwarder.Echo {D B : Type} (Carries : D → List (WireSeg α) → Prop) (role : Role)
    (h : List (Sending D)) (p q : Forwarder α D B) : Prop :=
  sentBy role h = p.emitted ∧
  ∃ c ≤ p.now, p.kcp.current = UInt32.ofNat c ∧ (p.isRunning = some true → c = p.now) ∧
    ∀ d ∈ q.emitted, ∃ segs, Carries d segs ∧
      ∀ w ∈ segs, w.cmd.toUInt32 = IKCP_CMD_ACK →
        ∃ x ∈ h, x.sender = role ∧ w.ts = UInt32.ofNat x.time ∧
          (∃ segs', Carries x.datagram segs' ∧
            ∃ v ∈ segs', v.cmd.toUInt32 = IKCP_CMD_PUSH ∧ v.sn = w.sn ∧ v.ts = w.ts) ∧
          x.time ≤ c ∧ (c < x.time + 2 ^ 31 → itimediff p.kcp.current w.ts = (c : Int) - x.time)

namespace Tunnel
variable {D B : Type} [DecidableEq D] {T : Transport α D B}
  {Carries : D → List (WireSeg α) → Prop} {t t' : Tunnel α D B}

/-- What an event makes an end send. -/
def sends (T : Transport α D B) (t : Tunnel α D B) : TunnelEvent α D → List (Sending D)
  | .client e => ((t.client.step T .client e).map
      fun f => newly .client f.now t.client.emitted f.emitted).getD []
  | .server e => ((t.server.step T .server e).map
      fun f => newly .server f.now t.server.emitted f.emitted).getD []

/-- **The record of a run**: what has been sent, by whom and when. -/
def sendings (T : Transport α D B) (t : Tunnel α D B) (run : List (TunnelEvent α D)) :
    List (Sending D) :=
  translate (step T) (sends T) t run

/-- Both ends, between two events. -/
structure Echoing (Carries : D → List (WireSeg α) → Prop) (h : List (Sending D))
    (t : Tunnel α D B) (c s : Nat) : Prop where
  client : t.client.Clocked Carries .client h c
  server : t.server.Clocked Carries .server h s
  up : Echoes Carries .client h c t.server.toDataPath
  down : Echoes Carries .server h s t.client.toDataPath

omit [DecidableEq D] in
theorem echoing_started (client server : B × Bool) :
    (started (α := α) (D := D) client server).Echoing Carries [] 0 0 where
  client := Forwarder.clocked_started .client client.1 client.2
  server := Forwarder.clocked_started .server server.1 server.2
  up := ⟨(fun _ ha => nomatch ha), fun _ hd => nomatch hd⟩
  down := ⟨(fun _ ha => nomatch ha), fun _ hd => nomatch hd⟩

omit [DecidableEq D] in
/-- The end `role` stands still while the other sends. -/
theorem clocked_other {role sender : Role} {h : List (Sending D)} {f : Forwarder α D B} {c : Nat}
    (hf : f.Clocked Carries role h c) (hne : sender ≠ role) (time : Nat) (before after : List D) :
    f.Clocked Carries role (h ++ newly sender time before after) c :=
  ⟨hf.calm, hf.sender, hf.unread, hf.stamped.other hne time before after, hf.le, hf.running⟩

/-- **One event.** -/
theorem echoing_step (hT : Lawful T Carries) {h : List (Sending D)} {c s : Nat}
    (ht : t.Echoing Carries h c s) {e : TunnelEvent α D} (hs : step T t e = some t') :
    ∃ c' s', t'.Echoing Carries (h ++ sends T t e) c' s' := by
  cases e with
  | client e =>
    obtain ⟨hnet, hs⟩ := Option.ite_none_right_eq_some.mp hs
    obtain ⟨f, hf, rfl⟩ := Option.map_eq_some_iff.mp hs
    have hretries : e = .writeAgain → True := fun _ => trivial
    obtain ⟨-, hsteps⟩ := Forwarder.step_dataPath T ht.client.calm hretries hnet hf
    obtain ⟨c', hclient, hle⟩ := Forwarder.clocked_step hT ht.client hf
    have hsends : sends T t (.client e) = newly .client f.now t.client.emitted f.emitted := by
      rw [sends, hf]
      rfl
    have hsub : h ⊆ h ++ newly .client f.now t.client.emitted f.emitted :=
      List.subset_append_left _ _
    rw [hsends]
    exact ⟨c', s, hclient, clocked_other ht.server (by decide) _ _ _, ht.up.mono hsub hle,
      (ht.down.steps hT ht.server.stamped ht.client.sender hsteps).mono hsub (Nat.le_refl _)⟩
  | server e =>
    obtain ⟨hnet, hs⟩ := Option.ite_none_right_eq_some.mp hs
    obtain ⟨f, hf, rfl⟩ := Option.map_eq_some_iff.mp hs
    have hretries : e = .writeAgain → True := fun _ => trivial
    obtain ⟨-, hsteps⟩ := Forwarder.step_dataPath T ht.server.calm hretries hnet hf
    obtain ⟨s', hserver, hle⟩ := Forwarder.clocked_step hT ht.server hf
    have hsends : sends T t (.server e) = newly .server f.now t.server.emitted f.emitted := by
      rw [sends, hf]
      rfl
    have hsub : h ⊆ h ++ newly .server f.now t.server.emitted f.emitted :=
      List.subset_append_left _ _
    rw [hsends]
    exact ⟨c, s', clocked_other ht.client (by decide) _ _ _, hserver,
      (ht.up.steps hT ht.client.stamped ht.server.sender hsteps).mono hsub (Nat.le_refl _),
      ht.down.mono hsub hle⟩

omit [DecidableEq D] in
theorem echo_of_echoes {role : Role} {h : List (Sending D)} {p q : Forwarder α D B} {c : Nat}
    (hp : p.Clocked Carries role h c) (hq : Echoes Carries role h c q.toDataPath) :
    p.Echo Carries role h q := by
  refine ⟨hp.stamped.sent, c, hp.le, hp.stamped.current, hp.running, ?_⟩
  intro d hd
  obtain ⟨segs, hcar, hseg⟩ := hq.net d hd
  refine ⟨segs, hcar, ?_⟩
  intro w hw hack
  obtain ⟨x, hx, hrole, ht, hts, hpush⟩ := hseg w hw hack
  refine ⟨x, hx, hrole, hts, hpush, ht, ?_⟩
  intro hnear
  rw [hp.stamped.current, hts]
  exact SerialNumber.diff_ofNat (by omega) (by omega)

/-- **Acknowledgements are not made up.**  In every run of the tunnel, whatever is lost,
repeated, reordered or delayed: every acknowledgement either end has sent, and so every one the
other can receive, is for a push of the other and brings back the time at which it was sent. -/
theorem acks_echo (hT : Lawful T Carries) {client server : B × Bool}
    {run : List (TunnelEvent α D)} (hrun : exec (step T) (started client server) run = some t) :
    t.client.Echo Carries .client (sendings T (started client server) run) t.server ∧
      t.server.Echo Carries .server (sendings T (started client server) run) t.client := by
  have hstep : ∀ h (u : Tunnel α D B) e u', (∃ c s, u.Echoing Carries h c s) →
      step T u e = some u' → ∃ c s, u'.Echoing Carries (h ++ sends T u e) c s := by
    rintro h u e u' ⟨c, s, hu⟩ he
    exact echoing_step hT hu he
  obtain ⟨c, s, h⟩ := exec_history hstep ⟨0, 0, echoing_started client server⟩ hrun
  exact ⟨echo_of_echoes h.client h.up, echo_of_echoes h.server h.down⟩

/-- A byte goes up at 5 ms on the client's clock, and is acknowledged. -/
def oneByte : List (TunnelEvent UInt8 (List (WireSeg UInt8))) :=
  [.client .readerRun, .client (.tcpData [7]), .client (.writerRun 5),
    .server (.onUdpData [⟨forwarderConv, 81, 0, 1024, 5, 0, 0, [7]⟩]), .server .connected,
    .server (.writerRun 90)]

theorem acks_echo_oneByte :
    ∃ t : Tunnel UInt8 (List (WireSeg UInt8)) Unit,
      exec (step plain) (started ((), true) ((), true)) oneByte = some t ∧
      t.client.Echo Eq .client
        [⟨.client, 5, [⟨forwarderConv, 81, 0, 1024, 5, 0, 0, [7]⟩]⟩,
          ⟨.server, 90, [⟨forwarderConv, 82, 0, 1023, 5, 0, 1, []⟩]⟩] t.server := by
  have hrecord : sendings plain (started ((), true) ((), true)) oneByte =
      [⟨.client, 5, [⟨forwarderConv, 81, 0, 1024, 5, 0, 0, [7]⟩]⟩,
        ⟨.server, 90, [⟨forwarderConv, 82, 0, 1023, 5, 0, 1, []⟩]⟩] := by
    decide +kernel
  have hruns : (exec (step plain) (started ((), true) ((), true)) oneByte).isSome = true := by
    decide +kernel
  obtain ⟨t, hrun⟩ := Option.isSome_iff_exists.mp hruns
  exact ⟨t, hrun, hrecord ▸ (acks_echo lawful_plain hrun).1⟩

end Tunnel

end FlexProxy
