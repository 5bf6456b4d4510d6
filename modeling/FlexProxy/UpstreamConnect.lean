import FlexProxy.Proxy
import FlexProxy.RoundTrip

/-! # Upstream connects that fail

The server hands datagrams to the control block of a new forwarder before its TCP
connection exists, and drops all of it if the connect fails.  Nothing is lost by that,
since a forwarder that is not connected sends nothing, hence acknowledges nothing:

* a forwarder that is not connected has sent nothing, and until one is, the client
  holds every segment it has numbered (`before_exec`);
* the first to connect, and any later one, writes what the client has read, from its
  first byte (`allLinked_exec`).

The second needs that the client's endpoint is used by no other client, that no write
upstream is retried, and that the numbers of the segments have not come round.
-/
namespace FlexProxy
open TransitionSystem

/-! ## What the client holds -/

namespace DataPath
variable {α D B : Type} {T : Transport α D B} {Carries : D → List (WireSeg α) → Prop}
  {retries : Prop} {p q : DataPath α D B}

/-- Every segment numbered is still held, from number 0 on. -/
def HoldsAll (p : DataPath α D B) : Prop :=
  p.kcp.outgoing.sndBuf = numbered forwarderConv 0 p.sent

theorem holdsAll_of_fresh (hp : Fresh p) : p.HoldsAll := by
  rw [HoldsAll, hp.kcp, outgoing_forwarderKcp, hp.sent]
  rfl

/-- Without a datagram nothing is released. -/
theorem holdsAll_step (hT : Lawful T Carries) (hp : Sender p) (h : p.HoldsAll)
    (hs : Step T retries (fun _ => False) p q) : q.HoldsAll := by
  cases hs with
  | tcpToKcp chunk hl =>
    rw [HoldsAll, (tcpToKcp_kcp hp.config hl).2.2]
    exact h
  | feed d hd => exact hd.elim
  | update current isOpen =>
    obtain ⟨-, -, moved, hsent, hn⟩ := sends_update hT hp.config current isOpen hp.sends
    have hnxt : p.kcp.outgoing.sndNxt = 0 + UInt32.ofNat p.sent.length :=
      hp.sends.sndNxt.trans (UInt32.zero_add _).symm
    rw [HoldsAll, hn.sndBuf, hsent, numbered_append, hnxt]
    exact congrArg (· ++ _) h
  | recv hr =>
    show (ikcpRecv p.kcp recvBufferSize).1.outgoing.sndBuf = _
    rw [outgoing_ikcpRecv p.kcp recvBufferSize_nonneg]
    exact h
  | transfer n => exact h
  | rewrite hr => exact h

theorem holdsAll_steps (hT : Lawful T Carries) (hp : Sender p) (h : p.HoldsAll)
    (hs : Steps T retries (fun _ => False) p q) : q.HoldsAll := by
  have hall : Sender q ∧ q.HoldsAll := by
    induction hs with
    | refl => exact ⟨hp, h⟩
    | tail _ hs ih => exact ⟨sender_step hT ih.1 hs, holdsAll_step hT ih.1 ih.2 hs⟩
  exact hall.2

end DataPath

/-! ## Many steps of a link -/

section Link
variable {α D B : Type} {T : Transport α D B} {Carries : D → List (WireSeg α) → Prop}
  {retries : Prop} {p p' q q' : DataPath α D B}

/-- What `p` sends arrives at `q` in order. -/
def Linked (retries : Prop) (Carries : D → List (WireSeg α) → Prop) (p q : DataPath α D B) : Prop :=
  ∃ taken r, Link retries Carries p q taken r

theorem linked_sender {again : Prop} (hT : Lawful T Carries) (h : Linked retries Carries p q)
    {arrives : D → Prop} (hs : DataPath.Steps T again arrives p p') :
    Linked retries Carries p' q := by
  induction hs with
  | refl => exact h
  | tail _ hs ih =>
    obtain ⟨taken, r, hlink⟩ := ih
    exact ⟨taken, r, link_sender hT hlink hs⟩

theorem linked_receiver (hT : Lawful T Carries) (hb : p.sent.length < 2 ^ 32)
    (h : Linked retries Carries p q) (hq : Sender q)
    (hs : DataPath.Steps T retries (· ∈ p.emitted) q q') : Linked retries Carries p q' := by
  have hall : Sender q' ∧ Linked retries Carries p q' := by
    induction hs with
    | refl => exact ⟨hq, h⟩
    | tail _ hs ih =>
      obtain ⟨hsender, taken, r, hlink⟩ := ih
      obtain ⟨taken', r', hlink', -⟩ := link_receiver hT hb hlink hsender hs
      exact ⟨sender_step hT hsender hs, taken', r', hlink'⟩
  exact hall.2

end Link

namespace Proxy
variable {E α D B : Type} [DecidableEq E] [DecidableEq D] {T : Transport α D B}
  {Carries : D → List (WireSeg α) → Prop} {retries : E → Prop} {w w' : Proxy E α D B}
  {a : ProxyEvent E α D B}

/-! ## The property -/

/-- A forwarder for the endpoint `e` has connected its TCP socket. -/
def HasConnected (w : Proxy E α D B) (e : E) : Prop :=
  ∃ (i : Nat) (y : Session E α D B),
    w.server.sessions[i]? = some y ∧ y.endpoint = e ∧ y.forwarder.Connected

/-- No forwarder for the endpoint `e` has sent a datagram before its connect. -/
def SilentBefore (w : Proxy E α D B) (e : E) : Prop :=
  ∀ (i : Nat) (y : Session E α D B), w.server.sessions[i]? = some y → y.endpoint = e →
    ¬ y.forwarder.Connected → y.forwarder.emitted = []

/-- Until a forwarder for its endpoint has connected, the client holds every segment it
has numbered. -/
def HeldBefore (w : Proxy E α D B) (x : Session E α D B) : Prop :=
  ¬ w.HasConnected x.endpoint → x.forwarder.HoldsAll

/-- What any forwarder for the client's endpoint has written to its upstream connection
is what the client has read, from its first byte on. -/
def UpstreamInOrder (w : Proxy E α D B) (x : Session E α D B) : Prop :=
  ∀ (i : Nat) (y : Session E α D B), w.server.sessions[i]? = some y → y.endpoint = x.endpoint →
    y.forwarder.written <+: x.forwarder.read.flatten

/-! ## Silence -/

/-- The server has sent nothing before its connects. -/
def Silent (l : List (Session E α D B)) : Prop :=
  ∀ (i : Nat) (y : Session E α D B), l[i]? = some y → ¬ y.forwarder.Connected →
    y.forwarder.emitted = []

omit [DecidableEq E] [DecidableEq D] in
theorem Grows.silent {unasked : Prop} {sentTo : Nat → E → D → Prop} {l l' : List (Session E α D B)}
    {feeds feeds' : List (Nat × Nat)} (h : Grows T retries unasked sentTo l feeds l' feeds')
    (hl : Silent l) : Silent l' := by
  intro i y hy hnot
  rcases h.at_place hy with ⟨hy', -⟩ | ⟨f₀, fed, -, hf, -, hbefore⟩
  · exact hl i y hy' hnot
  · rw [hf.mute.silent hnot]
    rcases hbefore with hy' | ⟨-, hfresh, -⟩
    · exact hl i _ hy' (fun hc => hnot (hf.mute.connected hc))
    · exact hfresh.emitted

/-- A forwarder that has connected stays so. -/
theorem hasConnected_step (hw : w.Sound retries) (hagain : w.RetriesAt retries a)
    (h : step T w a = some w') {e : E} (hc : w.HasConnected e) : w'.HasConnected e := by
  obtain ⟨i, y, hy, hye, hconn⟩ := hc
  obtain ⟨y', hy', hye', -, hconn'⟩ := (grows_sessions hw.server hw.sessions hagain h).stays_at hy
  exact ⟨i, y', hy', hye'.trans hye, hconn' hconn⟩

/-! ## What is held -/

/-- Every client holds what it has numbered, unless a forwarder for its endpoint has
connected. -/
def Held (w : Proxy E α D B) : Prop :=
  ∀ (c : Nat) (x : Session E α D B), w.clients[c]? = some x → w.HeldBefore x

theorem held_step (hT : Lawful T Carries) (hw : w.Steady retries Carries)
    (hsilent : Silent w.server.sessions) (hheld : w.Held) (hagain : w.RetriesAt retries a)
    (h : step T w a = some w') : w'.Held := by
  intro c x hx hnot
  have hnot' : ¬ w.HasConnected x.endpoint :=
    fun hc => hnot (hasConnected_step hw.toSound hagain h hc)
  rcases (grows_clients hw.clients h).at_place hx with ⟨hx', -⟩ | ⟨f₀, fed, hsent, hf, -, hbefore⟩
  · exact hheld c x hx' hnot'
  · have hnone : ∀ d, ¬ ∃ p ∈ fed, p.2 = d := by
      rintro _ ⟨p, hp, rfl⟩
      -- who sends to this client has connected
      obtain ⟨y, hy, hye, hd⟩ := hsent p hp
      by_cases hconn : y.forwarder.Connected
      · exact hnot' ⟨p.1, y, hy, hye, hconn⟩
      · rw [hsilent p.1 y hy hconn] at hd
        cases hd
    obtain ⟨hsender, hall⟩ : Sender f₀.toDataPath ∧ f₀.HoldsAll := by
      rcases hbefore with hx' | ⟨-, hfresh, -⟩
      · exact ⟨(hw.clientsSpeak c _ hx').toSender, hheld c _ hx' hnot'⟩
      · exact ⟨hfresh.sender, DataPath.holdsAll_of_fresh hfresh⟩
    exact DataPath.holdsAll_steps hT hsender hall (steps_mono id hnone hf.steps)

/-- **Before the connect**, in every run. -/
theorem before_exec (hT : Lawful T Carries) {memory : Nat → Bool × Nat}
    {run : List (ProxyEvent E α D B)} (hrun : exec (step T) (started memory) run = some w) :
    Silent w.server.sessions ∧ w.Held := by
  have hstep : ∀ (v : Proxy E α D B) b v',
      (v.Steady (fun _ => True) Carries ∧ Silent v.server.sessions ∧ v.Held) → step T v b = some v' →
      v'.Steady (fun _ => True) Carries ∧ Silent v'.server.sessions ∧ v'.Held := by
    rintro v b v' ⟨hv, hsilent, hheld⟩ h
    have hagain : v.RetriesAt (fun _ => True) b := retriesAt_of_forall (fun _ => trivial) v b
    exact ⟨steady_step hT hv hagain h, (grows_sessions hv.server hv.sessions hagain h).silent hsilent,
      held_step hT hv hsilent hheld hagain h⟩
  have hstart : (started memory : Proxy E α D B).Steady (fun _ => True) Carries ∧
      Silent (started memory : Proxy E α D B).server.sessions ∧
      (started memory : Proxy E α D B).Held :=
    ⟨steady_started memory, (fun _ _ hy => nomatch hy), fun _ _ hx => nomatch hx⟩
  exact (exec_invariant hstep hstart hrun).2

/-! ## In order -/

/-- Client `c` is the only one at the endpoint `e`, and has numbered fewer than `2^32`
segments. -/
structure Alone (c : Nat) (e : E) (w : Proxy E α D B) : Prop where
  only : ∀ (j : Nat) (x : Session E α D B), w.clients[j]? = some x → x.endpoint = e → j = c
  sent : ∀ x : Session E α D B, w.clients[c]? = some x → x.forwarder.sent.length < 2 ^ 32

/-- What client `c` sends arrives in order at every forwarder for the endpoint `e`. -/
def AllLinked (Carries : D → List (WireSeg α) → Prop) (c : Nat) (e : E) (w : Proxy E α D B) : Prop :=
  ∀ (i : Nat) (y : Session E α D B), w.server.sessions[i]? = some y → y.endpoint = e →
    ∃ x, w.clients[c]? = some x ∧ x.endpoint = e ∧
      Linked False Carries x.forwarder.toDataPath y.forwarder.toDataPath

/-- A client is not left alone by a step. -/
theorem alone_of_step (hw : w.Sound retries) (h : step T w a = some w') {c : Nat} {e : E}
    (halone : w'.Alone c e) : w.Alone c e := by
  have hg := grows_clients hw.clients h
  constructor
  · intro j x hx hxe
    obtain ⟨x', hx', hxe', -⟩ := hg.stays_at hx
    exact halone.only j x' hx' (hxe'.trans hxe)
  · intro x hx
    obtain ⟨x', hx', -, hsteps, -⟩ := hg.stays_at hx
    exact Nat.lt_of_le_of_lt (sent_length_le_steps hsteps) (halone.sent x' hx')

theorem allLinked_step (hT : Lawful T Carries) {c : Nat} {e : E}
    (hw : w.Steady (· ≠ e) Carries) (hlinked : w.AllLinked Carries c e)
    (hagain : w.RetriesAt (· ≠ e) a) (halone : w'.Alone c e) (h : step T w a = some w') :
    w'.AllLinked Carries c e := by
  have hbefore := alone_of_step hw.toSound h halone
  have hgc := grows_clients hw.clients h
  have hgs := grows_sessions hw.server hw.sessions hagain h
  intro i y hy hye
  -- it is linked to what the client was before the step
  obtain ⟨x, hx, hxe, hxy⟩ : ∃ x, w.clients[c]? = some x ∧ x.endpoint = e ∧
      Linked False Carries x.forwarder.toDataPath y.forwarder.toDataPath := by
    rcases hgs.at_place hy with ⟨hy', -⟩ | ⟨f₀, fed, hsent, hf, -, hpre⟩
    · exact hlinked i y hy' hye
    · have hfrom : ∀ p ∈ fed, ∃ x, w.clients[c]? = some x ∧ x.endpoint = e ∧
          p.2 ∈ x.forwarder.emitted := by
        intro p hp
        obtain ⟨x, hx, hxe, hd⟩ := hsent p hp
        have hc : p.1 = c := hbefore.only p.1 x hx (hxe.trans hye)
        exact ⟨x, hc ▸ hx, hxe.trans hye, hd⟩
      obtain ⟨x, hx, hxe, hlink, hsender⟩ : ∃ x, w.clients[c]? = some x ∧ x.endpoint = e ∧
          Linked False Carries x.forwarder.toDataPath f₀.toDataPath ∧ Sender f₀.toDataPath := by
        rcases hpre with hy' | ⟨-, hfresh, hfed⟩
        · obtain ⟨x, hx, hxe, hlink⟩ := hlinked i _ hy' hye
          exact ⟨x, hx, hxe, hlink, (hw.sessionsSpeak i _ hy').toSender⟩
        · obtain ⟨p, hp⟩ := Option.ne_none_iff_exists'.mp hfed
          obtain ⟨x, hx, hxe, -⟩ := hfrom p hp
          exact ⟨x, hx, hxe, ⟨[], 0, hfresh.link (hw.clientsSpeak c x hx)⟩, hfresh.sender⟩
      refine ⟨x, hx, hxe, linked_receiver hT (hbefore.sent x hx) hlink hsender ?_⟩
      refine steps_mono (fun hne => hne hye) ?_ hf.steps
      rintro _ ⟨p, hp, rfl⟩
      obtain ⟨x', hx', -, hd⟩ := hfrom p hp
      cases hx.symm.trans hx'
      exact hd
  obtain ⟨x', hx', hxe', hsteps, -⟩ := hgc.stays_at hx
  exact ⟨x', hx', hxe'.trans hxe, linked_sender hT hxy hsteps⟩

theorem allLinked_exec (hT : Lawful T Carries) {c : Nat} {e : E} {memory : Nat → Bool × Nat}
    {run : List (ProxyEvent E α D B)} (hrun : exec (step T) (started memory) run = some w)
    (hagain : Along (step T) (RetriesAt (· ≠ e)) (started memory) run) (halone : w.Alone c e) :
    w.AllLinked Carries c e := by
  have hbase : ∀ (v : Proxy E α D B) b v', v.Steady (· ≠ e) Carries → v.RetriesAt (· ≠ e) b →
      step T v b = some v' → v'.Steady (· ≠ e) Carries :=
    fun _ _ _ hv hb h => steady_step hT hv hb h
  have hback : ∀ (v : Proxy E α D B) b v', v.Steady (· ≠ e) Carries → v.RetriesAt (· ≠ e) b →
      step T v b = some v' → v'.Alone c e → v.Alone c e :=
    fun _ _ _ hv _ h => alone_of_step hv.toSound h
  have hstep : ∀ (v : Proxy E α D B) b v', v.Steady (· ≠ e) Carries → v.AllLinked Carries c e →
      v.RetriesAt (· ≠ e) b → v'.Alone c e → step T v b = some v' → v'.AllLinked Carries c e :=
    fun _ _ _ hv hlinked hb halone h => allLinked_step hT hv hlinked hb halone h
  exact exec_invariant_below hbase hback hstep (steady_started memory) (fun _ _ hy => nomatch hy)
    hagain hrun halone

/-- **Upstream connects that fail lose nothing**, for a client at an endpoint that no
other client uses.  No forwarder for it sends a datagram before its connect, until then
the client holds every segment, and what is then written upstream is what the client
has read. -/
theorem failed_connects_lose_nothing (checkSum : Bool) (memory : Nat → Bool × Nat)
    (run : List (ProxyEvent E UInt8 (List UInt8) (List UInt8)))
    (w : Proxy E UInt8 (List UInt8) (List UInt8))
    (hrun : exec (step (udp checkSum)) (started memory) run = some w) (c : Nat)
    (x : Session E UInt8 (List UInt8) (List UInt8)) (hx : w.clients[c]? = some x)
    (honly : ∀ (j : Nat) (y : Session E UInt8 (List UInt8) (List UInt8)),
      w.clients[j]? = some y → y.endpoint = x.endpoint → j = c) :
    w.SilentBefore x.endpoint ∧ w.HeldBefore x ∧
      (Along (step (udp checkSum)) (RetriesAt (· ≠ x.endpoint)) (started memory) run →
        x.forwarder.sent.length < 2 ^ 32 → w.UpstreamInOrder x) := by
  obtain ⟨hsilent, hheld⟩ := before_exec (lawful_udp checkSum) hrun
  refine ⟨fun i y hy _ => hsilent i y hy, hheld c x hx, fun hagain hsent i y hy hye => ?_⟩
  have halone : w.Alone c x.endpoint := by
    refine ⟨honly, fun x' hx' => ?_⟩
    cases hx.symm.trans hx'
    exact hsent
  obtain ⟨x', hx', -, taken, r, hlink⟩ :=
    allLinked_exec (lawful_udp checkSum) hrun hagain halone i y hy hye
  cases hx.symm.trans hx'
  exact hlink.in_order

/-- No TCP write upstream fails with try-again. -/
def NoTryAgain : ProxyEvent E α D B → Prop
  | .server (.forwarder _ e) => e ≠ .writeAgain
  | _ => True

omit [DecidableEq E] [DecidableEq D] in
theorem retriesAt_of_noTryAgain (retries : E → Prop) (w : Proxy E α D B) (ha : NoTryAgain a) :
    w.RetriesAt retries a := by
  unfold RetriesAt
  split
  · exact absurd rfl ha
  · trivial

/-- The first forwarder for the client's endpoint cannot connect, and takes the byte it was
handed with it.  The second connects, is sent the byte again, and writes it. -/
def secondConnects : List (ProxyEvent Nat UInt8 (List UInt8) (List UInt8)) :=
  [.connect 5 (.completed true [] false), .client 0 .readerRun, .client 0 (.tcpData [1]),
    .client 0 (.writerRun 0),
    .toServer 0 (datagramOf [segmentOf 81 1024 0 0 0 [1]]) (.completed true [] true),
    .server (.forwarder 0 .connectFailed), .client 0 (.tick 100),
    .toServer 0 (datagramOf [segmentOf 81 1024 0 0 0 [1]]) (.completed true [] true),
    .server (.forwarder 1 .connected), .server (.forwarder 1 (.writerRun 0)),
    .server (.forwarder 1 (.transfer 1))]

theorem failed_connects_lose_nothing_secondConnects :
    ∃ w : Proxy Nat UInt8 (List UInt8) (List UInt8),
      exec (step (udp true)) (started FlexServer.zeroed) secondConnects = some w ∧
      w.server.sessions.map (fun y => y.forwarder.written) = [[], [1]] ∧
      ∃ x, w.clients = [x] ∧ w.SilentBefore x.endpoint ∧ w.HeldBefore x ∧ w.UpstreamInOrder x := by
  have hobs : (exec (step (udp true)) (started FlexServer.zeroed) secondConnects).map
      (fun w => (w.server.sessions.map (fun y => y.forwarder.written),
        w.clients.map (fun x => x.forwarder.sent.length))) = some ([[], [1]], [1]) := by
    decide +kernel
  obtain ⟨w, hrun, hobs⟩ := Option.map_eq_some_iff.mp hobs
  obtain ⟨hwritten, hclients⟩ := Prod.mk.inj hobs
  obtain ⟨x, hx, hlen⟩ := List.map_eq_singleton_iff.mp hclients
  have honly : ∀ (j : Nat) (y : Session Nat UInt8 (List UInt8) (List UInt8)),
      w.clients[j]? = some y → y.endpoint = x.endpoint → j = 0 := by
    intro j y hy _
    rw [hx] at hy
    have hlt := (List.getElem?_eq_some_iff.mp hy).1
    simp only [List.length_singleton] at hlt
    omega
  have hall := failed_connects_lose_nothing true FlexServer.zeroed secondConnects w hrun 0 x
    (by rw [hx]; rfl) honly
  have hagain : ∀ a ∈ secondConnects, NoTryAgain a := by simp [secondConnects, NoTryAgain]
  have halong : Along (step (udp true)) (RetriesAt (· ≠ x.endpoint))
      (started FlexServer.zeroed) secondConnects :=
    (along_of_forall (started FlexServer.zeroed) hagain).imp
      (fun v _ ha => retriesAt_of_noTryAgain _ v ha)
  exact ⟨w, hrun, hwritten, x, hx, hall.1, hall.2.1,
    hall.2.2 halong (by rw [hlen]; decide)⟩

/-! ## Where the bound is -/

/-- The proxy has one client and one session, and they are the two ends of `t`. -/
structure Shows (e : E) (t : Tunnel α D B) (w : Proxy E α D B) : Prop where
  runs : w.server.Runs
  ok : w.server.Ok
  memory : (w.server.memory 0).1 = false
  clients : w.clients = [⟨e, t.client⟩]
  sessions : w.server.sessions = [⟨e, t.server⟩]

omit [DecidableEq E] [DecidableEq D] in
theorem Shows.client {e : E} {t : Tunnel α D B} {v : Proxy E α D B} (h : Shows e t w)
    {f : Forwarder α D B} (hserver : v.server = w.server)
    (hclients : v.clients = w.clients.modify 0 (fun x => { x with forwarder := f })) :
    Shows e { t with client := f } v where
  runs := hserver ▸ h.runs
  ok := hserver ▸ h.ok
  memory := hserver ▸ h.memory
  clients := by
    rw [hclients, h.clients]
    rfl
  sessions := by
    rw [hserver]
    exact h.sessions

omit [DecidableEq D] in
theorem Shows.server {e : E} {t : Tunnel α D B} {v : Proxy E α D B} (h : Shows e t w)
    {ev : Event α D} {f : Forwarder α D B} (hf : t.server.step T .server ev = some f)
    (hserver : v.server = (w.server.put 0 f).collect 0) (hclients : v.clients = w.clients) :
    Shows e { t with server := f } v := by
  have hsession : w.server.sessions[0]? = some ⟨e, t.server⟩ := by rw [h.sessions]; rfl
  have hput : (w.server.put 0 f).sessions = [⟨e, f⟩] := by
    show w.server.sessions.modify 0 _ = _
    rw [h.sessions]
    rfl
  have haccepting : ((w.server.put 0 f).collect 0).accepting = w.server.accepting := by
    refine (FlexServer.accepting_resume h.ok hsession hf).2 ?_
    rintro ⟨-, hmemory⟩
    rw [h.memory] at hmemory
    cases hmemory
  refine ⟨?_, ?_, ?_, ?_, ?_⟩
  · rw [hserver, FlexServer.Runs, haccepting]
    exact h.runs
  · rw [hserver]
    exact FlexServer.ok_resume h.ok hsession hf
  · rw [hserver, FlexServer.memory_collect]
    exact h.memory
  · rw [hclients, h.clients]
  · rw [hserver, FlexServer.sessions_collect, hput]

/-- **A step of one of the ends is a step of the proxy.** -/
theorem shows_step {e : E} {t t' : Tunnel α D B} (h : Shows e t w) {a : TunnelEvent α D}
    (ha : Tunnel.Plain a) (hs : Tunnel.step T t a = some t') :
    ∃ b w', step T w b = some w' ∧ NoTryAgain b ∧ Shows e t' w' := by
  have hclient : w.clients[0]? = some ⟨e, t.client⟩ := by rw [h.clients]; rfl
  have hsession : w.server.sessions[0]? = some ⟨e, t.server⟩ := by rw [h.sessions]; rfl
  cases a with
  | client ev =>
    obtain ⟨hnet, hs⟩ := Option.ite_none_right_eq_some.mp hs
    obtain ⟨f, hf, rfl⟩ := Option.map_eq_some_iff.mp hs
    have hstep : ∀ ev', t.client.step T .client ev' = some f → w.stepClient T 0 ev' =
        some { w with clients := w.clients.modify 0 (fun x => { x with forwarder := f }) } := by
      intro ev' hev
      rw [stepClient, hclient]
      show (t.client.step T .client ev').map _ = _
      rw [hev]
      rfl
    have hshown : ∀ feeds, Shows e { t with client := f }
        { w with
          clients := w.clients.modify 0 (fun x => { x with forwarder := f }), down := feeds } :=
      fun _ => h.client rfl rfl
    by_cases hquiet : ev.datagram = none
    · refine ⟨.client 0 ev, _, ?_, trivial, hshown w.down⟩
      show (if ev.datagram.isNone then w.stepClient T 0 ev else none) = _
      rw [if_pos (Option.isNone_iff_eq_none.mpr hquiet), hstep ev hf]
    · cases ev with
      | udpData d =>
        have hsent : SentTo w.server.sessions 0 e d := ⟨_, hsession, rfl, hnet d rfl⟩
        refine ⟨.toClient 0 0 d, _, ?_, trivial, hshown (w.down ++ [(0, 0)])⟩
        rw [step, hclient]
        show (if SentTo w.server.sessions 0 e d then _ else none) = _
        rw [if_pos hsent, hstep _ hf]
        rfl
      | onUdpData d =>
        -- only the server has an accept coroutine
        have hnone : t.client.step T .client (.onUdpData d) = none := rfl
        rw [hnone] at hf
        cases hf
      | _ => exact absurd rfl hquiet
  | server ev =>
    obtain ⟨hnet, hs⟩ := Option.ite_none_right_eq_some.mp hs
    obtain ⟨f, hf, rfl⟩ := Option.map_eq_some_iff.mp hs
    have hstep : (∀ d, ev ≠ .onUdpData d) →
        w.server.step T (.forwarder 0 ev) = some ((w.server.put 0 f).collect 0) := by
      intro hev
      cases ev with
      | onUdpData d => exact absurd rfl (hev d)
      | _ => simp only [FlexServer.step, if_pos h.runs, hsession, hf, Option.map_some]
    have hshown : ∀ feeds, Shows e { t with server := f }
        { w with server := (w.server.put 0 f).collect 0, up := feeds } := fun _ => h.server hf rfl rfl
    by_cases hquiet : ev.datagram = none
    · refine ⟨.server (.forwarder 0 ev), _, ?_, ha.1, hshown w.up⟩
      show (if ev.datagram.isNone then (w.server.step T (.forwarder 0 ev)).map _ else none) = _
      rw [if_pos (Option.isNone_iff_eq_none.mpr hquiet), hstep ha.2]
      rfl
    · cases ev with
      | udpData d =>
        have hsent : SentTo w.clients 0 e d := ⟨_, hclient, rfl, hnet d rfl⟩
        refine ⟨.toSession 0 0 d, _, ?_, trivial, hshown (w.up ++ [(0, 0)])⟩
        rw [step, hsession]
        show (if SentTo w.clients 0 e d then _ else none) = _
        rw [if_pos hsent, hstep ha.2]
        rfl
      | onUdpData d => exact absurd rfl (ha.2 d)
      | _ => exact absurd rfl hquiet

theorem shows_exec (retries : E → Prop) {e : E} {t t' : Tunnel α D B} (h : Shows e t w)
    {run : List (TunnelEvent α D)} (hplain : ∀ a ∈ run, Tunnel.Plain a)
    (hrun : exec (Tunnel.step T) t run = some t') :
    ∃ run' w', exec (step T) w run' = some w' ∧ Along (step T) (RetriesAt retries) w run' ∧
      Shows e t' w' := by
  have hstep : ∀ (s : Tunnel α D B) (v : Proxy E α D B) a s', Shows e s v → Tunnel.Plain a →
      Tunnel.step T s a = some s' →
      ∃ b v', step T v b = some v' ∧ NoTryAgain b ∧ Shows e s' v' :=
    fun s v a s' hv ha hs => shows_step hv ha hs
  obtain ⟨run', w', hrun', halong, hshows⟩ :=
    exec_simulates (P := fun _ b => NoTryAgain b) hstep h hplain hrun
  exact ⟨run', w', hrun', halong.imp (fun v _ ha => retriesAt_of_noTryAgain retries v ha), hshows⟩

/-- The client's first byte is read, sent and written. -/
def firstByte : List (ProxyEvent Nat UInt8 (List UInt8) (List UInt8)) :=
  [.connect 5 (.completed true [] false), .client 0 .readerRun, .client 0 .feederRun,
    .client 0 (.tcpData [7]), .client 0 (.writerRun 7),
    .toServer 0 (datagramOf [segmentOf 81 1024 7 0 0 [7]]) (.completed true [] true),
    .server (.forwarder 0 .connected), .server (.forwarder 0 .readerRun),
    .server (.forwarder 0 .feederRun), .server (.forwarder 0 (.writerRun 9)),
    .server (.forwarder 0 (.transfer 1)), .server (.forwarder 0 .writeOk),
    .toClient 0 0 (datagramOf [segmentOf 82 1023 7 0 1 []])]

theorem firstByte_atRest :
    ∃ w ∈ exec (step (udp true)) (started FlexServer.zeroed) firstByte, w.server.Runs ∧
      (w.server.memory 0).1 = false ∧
      w.clients.map Session.endpoint = [5] ∧ w.server.sessions.map Session.endpoint = [5] ∧
      ∃ x ∈ w.clients[0]?, ∃ y ∈ w.server.sessions[0]?,
        Tunnel.AtRest 0 1 ⟨x.forwarder, y.forwarder⟩ ∧ x.forwarder.read = [[7]] ∧
        y.forwarder.written = [7] ∧
        datagramOf [segmentOf 81 1024 7 0 0 [7]] ∈ x.forwarder.emitted := by
  decide +kernel

/-- Two bytes are read and sent.  One is written, the write fails with try-again, and both are
written. -/
def secondWrite : List (ProxyEvent Nat UInt8 (List UInt8) (List UInt8)) :=
  [.connect 5 (.completed true [] false), .client 0 .readerRun, .client 0 (.tcpData [1, 2]),
    .client 0 (.writerRun 7),
    .toServer 0 (datagramOf [segmentOf 81 1024 7 0 0 [1, 2]]) (.completed true [] true),
    .server (.forwarder 0 .connected), .server (.forwarder 0 (.writerRun 9)),
    .server (.forwarder 0 (.transfer 1)), .server (.forwarder 0 .writeAgain),
    .server (.forwarder 0 .retry), .server (.forwarder 0 (.transfer 2))]

/-- There is one client and one session, which is open, and what the session has written is
not what the client has read. -/
def OutOfOrder (w : Proxy E α D B) (x y : Session E α D B) : Prop :=
  w.clients = [x] ∧ w.server.sessions = [y] ∧ y.endpoint = x.endpoint ∧
    y.forwarder.isOpen = true ∧ ¬ y.forwarder.written <+: x.forwarder.read.flatten

/-- **Both conditions are needed.**  When the numbers come round, the first datagram of the
client is accepted a second time; and a write that is retried writes bytes twice. -/
theorem failed_connects_out_of_order :
    (∃ run, ∃ (w : Proxy Nat UInt8 (List UInt8) (List UInt8)) (x y : _),
      exec (step (udp true)) (started FlexServer.zeroed) run = some w ∧
      Along (step (udp true)) (RetriesAt (· ≠ x.endpoint)) (started FlexServer.zeroed) run ∧
      w.OutOfOrder x y) ∧
    ∃ run, ∃ (w : Proxy Nat UInt8 (List UInt8) (List UInt8)) (x y : _),
      exec (step (udp true)) (started FlexServer.zeroed) run = some w ∧
      x.forwarder.sent.length < 2 ^ 32 ∧ w.OutOfOrder x y := by
  have hT := lawful_udp true
  constructor
  · obtain ⟨w₀, hrun₀, hruns, hmemory, hends, hends', x₀, hx₀, y₀, hy₀, hrest₀, hread₀, hwritten₀,
      hmem₀⟩ := firstByte_atRest
    have hok : w₀.server.Ok := (sound_exec hrun₀).server
    have hshows : Shows 5 ⟨x₀.forwarder, y₀.forwarder⟩ w₀ := by
      obtain ⟨x, hx, hxe⟩ := List.map_eq_singleton_iff.mp hends
      obtain ⟨y, hy, hye⟩ := List.map_eq_singleton_iff.mp hends'
      rw [hx] at hx₀
      rw [hy] at hy₀
      cases hx₀
      cases hy₀
      exact ⟨hruns, hok, hmemory, by rw [hx, ← hxe], by rw [hy, ← hye]⟩
    obtain ⟨run₁, t₁, hrun₁, hplain₁, hrest₁, hpassed⟩ :=
      Tunnel.rounds hT hrest₀ [7] (by decide) (by decide) (2 ^ 32 - 1)
    have hzero : (1 : UInt32) + UInt32.ofNat (2 ^ 32 - 1) = 0 := by decide +kernel
    rw [hzero] at hrest₁
    have hframed : Framed true (datagramOf [segmentOf 81 1024 7 0 0 [7]])
        [segmentOf 81 1024 7 0 0 [7]] := ⟨rfl, by decide +kernel⟩
    obtain ⟨run₂, g, hrun₂, hplain₂, hready, hwritten⟩ :=
      Tunnel.late_message (w := segmentOf 81 1024 7 0 0 [7]) hT hrest₁
        ⟨rfl, rfl, by decide, rfl⟩ rfl (by decide) (by decide) (hpassed.emitted.subset hmem₀) hframed
    have hplain : ∀ a ∈ run₁ ++ run₂, Tunnel.Plain a :=
      fun a ha => (List.mem_append.mp ha).elim (hplain₁ a) (hplain₂ a)
    obtain ⟨run, w, hrun, halong, hshows'⟩ := shows_exec (· ≠ 5) hshows hplain
      (exec_append_eq_some.mpr ⟨t₁, hrun₁, hrun₂⟩)
    have hquiet : ∀ a ∈ firstByte, NoTryAgain a := by simp [firstByte, NoTryAgain]
    have hbefore : Along (step (udp true)) (RetriesAt (· ≠ 5)) (started FlexServer.zeroed)
        firstByte :=
      (along_of_forall (started FlexServer.zeroed) hquiet).imp
        (fun v _ ha => retriesAt_of_noTryAgain _ v ha)
    refine ⟨firstByte ++ run, w, _, _, exec_append_eq_some.mpr ⟨w₀, hrun₀, hrun⟩,
      along_append hbefore ?_, hshows'.clients, hshows'.sessions, rfl, ?_, ?_⟩
    · intro v hv
      cases hrun₀.symm.trans hv
      exact halong
    · show g.stopped.isNone = true
      rw [hready.stopped]
      rfl
    · -- one byte more has been written than read
      have hall : g.written = t₁.client.read.flatten ++ [7] := by
        rw [hwritten, hpassed.written, hpassed.read, hread₀, hwritten₀, List.flatten_append]
        rfl
      intro hprefix
      have hlen := hprefix.length_le
      have hlonger := congrArg List.length hall
      rw [List.length_append, List.length_singleton] at hlonger
      have hle : g.written.length ≤ t₁.client.read.flatten.length := hlen
      omega
  · obtain ⟨w, hrun, hclients, hsessions⟩ :
        ∃ w ∈ exec (step (udp true)) (started FlexServer.zeroed) secondWrite,
        w.clients.map (fun x => (x.endpoint, x.forwarder.read, x.forwarder.sent.length)) =
          [(5, [[1, 2]], 1)] ∧
        w.server.sessions.map (fun y => (y.endpoint, y.forwarder.isOpen, y.forwarder.written)) =
          [(5, true, [1, 1, 2])] := by
      decide +kernel
    obtain ⟨x, hx, hxobs⟩ := List.map_eq_singleton_iff.mp hclients
    obtain ⟨y, hy, hyobs⟩ := List.map_eq_singleton_iff.mp hsessions
    simp only [Prod.mk.injEq] at hxobs hyobs
    obtain ⟨hxe, hread, hsent⟩ := hxobs
    obtain ⟨hye, hopen, hwritten⟩ := hyobs
    refine ⟨secondWrite, w, x, y, hrun, by rw [hsent]; decide, hx, hy, hye.trans hxe.symm, hopen, ?_⟩
    rw [hwritten, hread]
    decide

end Proxy
end FlexProxy
