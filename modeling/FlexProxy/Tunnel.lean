import FlexProxy.Datagram
import FlexProxy.Lifecycle
import FlexProxy.Link

/-! # The tunnel

A client side forwarder and a server side forwarder, paired for the whole run.
The network loses, repeats, reorders and delays datagrams but does not alter
them: a datagram that reaches one end is any datagram the other end has sent so
far.

* `tunnel_in_order`: what is written at one end is what was read at the other,
  as far as it goes.
* `tunnel_keeps_bytes`: no byte is lost inside while both ends run.
-/
namespace FlexProxy
open TransitionSystem

/-- The two forwarders. -/
structure Tunnel (α D B : Type) where
  client : Forwarder α D B
  server : Forwarder α D B

/-- An event of one of the ends. -/
inductive TunnelEvent (α D : Type) where
  | client (e : Event α D)
  | server (e : Event α D)

namespace Tunnel
variable {α D B : Type} [DecidableEq D] (T : Transport α D B)

/-- One event.  What an end receives is among what the other has sent. -/
def step (t : Tunnel α D B) : TunnelEvent α D → Option (Tunnel α D B)
  | .client e =>
    if ∀ d ∈ e.datagram, d ∈ t.server.emitted then
      (t.client.step T .client e).map (fun f => { t with client := f })
    else none
  | .server e =>
    if ∀ d ∈ e.datagram, d ∈ t.client.emitted then
      (t.server.step T .server e).map (fun f => { t with server := f })
    else none

/-- Both ends when their `Start` has returned, with fresh control blocks. -/
def started (client server : B × Bool) : Tunnel α D B where
  client := Forwarder.started .client client.1 client.2
  server := Forwarder.started .server server.1 server.2

/-- No write fails with try-again at either end. -/
def NoTryAgain : TunnelEvent α D → Prop
  | .client e => e ≠ .writeAgain
  | .server e => e ≠ .writeAgain

/-- Fewer than `n` segments have been numbered in either direction. -/
def SentBelow (n : Nat) (t : Tunnel α D B) : Prop :=
  t.client.sent.length < n ∧ t.server.sent.length < n

/-! ## The invariant -/

variable {T} {retries : Prop} {Carries : D → List (WireSeg α) → Prop} {t t' : Tunnel α D B}

/-- What holds at both ends in every run: they are calm, and their coroutines live
as they should. -/
structure Sound (retries : Prop) (t : Tunnel α D B) : Prop where
  client : t.client.Calm retries
  server : t.server.Calm retries
  clientLife : t.client.Life .client
  serverLife : t.server.Life .server

/-- Each end receives what the other sends. -/
def IsJoined (retries : Prop) (Carries : D → List (WireSeg α) → Prop) (t : Tunnel α D B) : Prop :=
  Joined retries Carries t.client.toDataPath t.server.toDataPath

/-- One event is a few steps of one of the two data paths. -/
theorem step_cases (hs : t.Sound retries) {e : TunnelEvent α D} (he : ¬ retries → NoTryAgain e)
    (h : step T t e = some t') :
    t'.Sound retries ∧
    ((t'.server = t.server ∧
        DataPath.Steps T retries (· ∈ t.server.emitted) t.client.toDataPath t'.client.toDataPath) ∨
      (t'.client = t.client ∧
        DataPath.Steps T retries (· ∈ t.client.emitted) t.server.toDataPath
          t'.server.toDataPath)) := by
  cases e with
  | client e =>
    obtain ⟨hnet, h⟩ := Option.ite_none_right_eq_some.mp h
    obtain ⟨f, hf, rfl⟩ := Option.map_eq_some_iff.mp h
    have hagain : e = .writeAgain → retries := fun ha => by_contra fun hr => he hr ha
    obtain ⟨hc, hsteps⟩ := Forwarder.step_dataPath T hs.client hagain hnet hf
    exact ⟨⟨hc, hs.server, Forwarder.life_step hs.clientLife hf, hs.serverLife⟩,
      Or.inl ⟨rfl, hsteps⟩⟩
  | server e =>
    obtain ⟨hnet, h⟩ := Option.ite_none_right_eq_some.mp h
    obtain ⟨f, hf, rfl⟩ := Option.map_eq_some_iff.mp h
    have hagain : e = .writeAgain → retries := fun ha => by_contra fun hr => he hr ha
    obtain ⟨hc, hsteps⟩ := Forwarder.step_dataPath T hs.server hagain hnet hf
    exact ⟨⟨hs.client, hc, hs.clientLife, Forwarder.life_step hs.serverLife hf⟩,
      Or.inr ⟨rfl, hsteps⟩⟩

omit [DecidableEq D] in
theorem sound_started (client server : B × Bool) :
    (started (α := α) (D := D) client server).Sound retries where
  client := Forwarder.calm_started _ _ _ _
  server := Forwarder.calm_started _ _ _ _
  clientLife := Forwarder.life_started _ _
  serverLife := Forwarder.life_started _ _

omit [DecidableEq D] in
theorem isJoined_started (client server : B × Bool) :
    (started (α := α) (D := D) client server).IsJoined retries Carries :=
  (fresh_started .client client.1 client.2).joined (fresh_started .server server.1 server.2)

/-- Segments are not taken back. -/
theorem sentBelow_of_step {n : Nat} (hs : t.Sound retries) {e : TunnelEvent α D}
    (he : ¬ retries → NoTryAgain e) (h : step T t e = some t') (hb : t'.SentBelow n) :
    t.SentBelow n := by
  rcases (step_cases hs he h).2 with ⟨hsame, hsteps⟩ | ⟨hsame, hsteps⟩
  · exact ⟨Nat.lt_of_le_of_lt (sent_length_le_steps hsteps) hb.1, hsame ▸ hb.2⟩
  · exact ⟨hsame ▸ hb.1, Nat.lt_of_le_of_lt (sent_length_le_steps hsteps) hb.2⟩

theorem isJoined_step (hT : Lawful T Carries) (hs : t.Sound retries)
    (hj : t.IsJoined retries Carries) {e : TunnelEvent α D} (he : ¬ retries → NoTryAgain e)
    (hb : t'.SentBelow (2 ^ 32)) (h : step T t e = some t') : t'.IsJoined retries Carries := by
  rcases (step_cases hs he h).2 with ⟨hsame, hsteps⟩ | ⟨hsame, hsteps⟩
  · rw [IsJoined, hsame]
    exact joined_steps hT (hsame ▸ hb.2) hj hsteps
  · rw [IsJoined, hsame]
    exact (joined_steps hT (hsame ▸ hb.1) hj.symm hsteps).symm

/-- **The ends are joined after every run** in which fewer than `2^32` segments are
sent. -/
theorem isJoined_exec (hT : Lawful T Carries) {client server : B × Bool}
    {run : List (TunnelEvent α D)} (hrun : exec (step T) (started client server) run = some t)
    (hagain : ∀ e ∈ run, ¬ retries → NoTryAgain e) (hb : t.SentBelow (2 ^ 32)) :
    t.Sound retries ∧ t.IsJoined retries Carries := by
  have hbase : ∀ (s : Tunnel α D B) e s', s.Sound retries → (¬ retries → NoTryAgain e) →
      step T s e = some s' → s'.Sound retries :=
    fun _ _ _ hs he h => (step_cases hs he h).1
  have hbelow : ∀ (s : Tunnel α D B) e s', s.Sound retries → (¬ retries → NoTryAgain e) →
      step T s e = some s' → s'.SentBelow (2 ^ 32) → s.SentBelow (2 ^ 32) :=
    fun _ _ _ hs he h hb => sentBelow_of_step hs he h hb
  have hstep : ∀ (s : Tunnel α D B) e s', s.Sound retries → s.IsJoined retries Carries →
      (¬ retries → NoTryAgain e) → s'.SentBelow (2 ^ 32) → step T s e = some s' →
      s'.IsJoined retries Carries :=
    fun _ _ _ hs hj he hb h => isJoined_step hT hs hj he hb h
  have halong : Along (step T) (fun _ e => ¬ retries → NoTryAgain e) (started client server) run :=
    along_of_forall (started client server) hagain
  exact ⟨exec_invariant_of hbase (sound_started client server) halong hrun,
    exec_invariant_below hbase hbelow hstep (sound_started client server)
      (isJoined_started client server) halong hrun hb⟩

/-! ## In order -/

/-- **What is written at one end is a prefix of what was read at the other**, in
every run of the program over a network that loses, repeats, reorders and delays
datagrams.  `client` and `server` are what memory holds before it is assigned: the
scratch buffer and `isKcpAlive_` of either end. -/
theorem tunnel_in_order (checkSum : Bool) (client server : List UInt8 × Bool)
    (run : List (TunnelEvent UInt8 (List UInt8))) (t : Tunnel UInt8 (List UInt8) (List UInt8))
    (hrun : exec (step (udp checkSum)) (started client server) run = some t)
    (hwrite : ∀ e ∈ run, NoTryAgain e) (hsent : t.SentBelow (2 ^ 31)) :
    t.server.written <+: t.client.read.flatten ∧ t.client.written <+: t.server.read.flatten := by
  have hb : t.SentBelow (2 ^ 32) :=
    ⟨Nat.lt_trans hsent.1 (by decide), Nat.lt_trans hsent.2 (by decide)⟩
  have hagain : ∀ e ∈ run, ¬ False → NoTryAgain e := fun e he _ => hwrite e he
  obtain ⟨-, hj⟩ := isJoined_exec (lawful_udp checkSum) hrun hagain hb
  obtain ⟨⟨_, _, hup, -⟩, ⟨_, _, hdown, -⟩⟩ := hj
  exact ⟨hup.in_order, hdown.in_order⟩

/-- Three bytes are read by the client, sent, and two of them written by the server. -/
def shortRun : List (TunnelEvent UInt8 (List UInt8)) :=
  [.client .readerRun, .client (.tcpData [1, 2, 3]), .client (.writerRun 7),
    .server (.onUdpData [81, 88, 148, 150, 255, 244, 165, 165, 161, 162, 165, 165, 165, 165, 165,
      165, 165, 165, 165, 165, 165, 166, 165, 165, 165, 164, 167, 166]),
    .server .connected, .server (.writerRun 9), .server (.transfer 2)]

theorem tunnel_in_order_shortRun :
    ∃ t : Tunnel UInt8 (List UInt8) (List UInt8),
      exec (step (udp true)) (started ([], false) ([], true)) shortRun = some t ∧
      t.server.written = [1, 2] ∧
      t.server.written <+: t.client.read.flatten ∧ t.client.written <+: t.server.read.flatten := by
  have hobs : (exec (step (udp true)) (started ([], false) ([], true)) shortRun).map
      (fun t => (t.server.written, t.client.sent.length, t.server.sent.length)) =
        some ([1, 2], 1, 0) := by
    decide +kernel
  obtain ⟨t, hrun, hobs⟩ := Option.map_eq_some_iff.mp hobs
  simp only [Prod.mk.injEq] at hobs
  obtain ⟨hwritten, hclient, hserver⟩ := hobs
  refine ⟨t, hrun, hwritten, tunnel_in_order true ([], false) ([], true) shortRun t hrun ?_ ?_⟩
  · intro e he
    simp only [shortRun, List.mem_cons, List.not_mem_nil, or_false] at he
    rcases he with rfl | rfl | rfl | rfl | rfl | rfl | rfl <;> exact fun h => nomatch h
  · exact ⟨by rw [hclient]; decide, by rw [hserver]; decide⟩

/-! ## Nothing lost -/

section Keeps
variable {p q : Forwarder α D B}

/-- The segment numbered `sn` is under way from `p` to `q`: held in `snd_buf` of `p`,
or stored in `rcv_buf` of `q`. -/
def UnderWay (p q : Forwarder α D B) (sn : UInt32) (data : List α) : Prop :=
  (∃ x ∈ p.kcp.sndBuf, x.sn = sn ∧ x.data = data) ∨ (∃ x ∈ q.kcp.rcvBuf, x.sn = sn ∧ x.data = data)

/-- Where the bytes are that `p` has read from its TCP socket, in order: written by
`q`, in its current TCP write, in its `rcv_queue`, in segments under way, and in
`snd_queue` of `p`. -/
def KeepsBytes (p q : Forwarder α D B) : Prop :=
  ∃ (delivered : List α) (flight : List (IkcpSeg α)), delivered.Sublist q.written ∧
    p.read.flatten = delivered ++ (q.current ++ (segData q.kcp.rcvQueue ++
      (segData flight ++ segData p.kcp.sndQueue))) ∧
    ∀ k seg, flight[k]? = some seg → UnderWay p q (q.kcp.rcvNxt + UInt32.ofNat k) seg.data

/-- `ikcp_send` accepts every chunk that `p` can read: it returns no error, and the
whole chunk is queued. -/
def AcceptsChunks (p : Forwarder α D B) : Prop :=
  ∀ chunk : List α, chunk.length ≤ 8192 → (ikcpSend p.kcp chunk).2 = 0 ∧
    segData (ikcpSend p.kcp chunk).1.sndQueue = segData p.kcp.sndQueue ++ chunk

/-- What `p` has numbered and no longer holds, `q` has accepted: it has been moved
to `rcv_queue`, or is stored in `rcv_buf`. -/
def ReleasesAccepted (p q : Forwarder α D B) : Prop :=
  ∀ k < p.sent.length, (∃ x ∈ p.kcp.sndBuf, x.sn = UInt32.ofNat k) ∨
    k < q.kcp.rcvNxt.toNat ∨ ∃ x ∈ q.kcp.rcvBuf, x.sn = UInt32.ofNat k

omit [DecidableEq D] in
/-- While `Stop` has not been called, what is pending is the current write. -/
theorem current_eq_pending {role : Role} (hq : q.Calm retries) (hlife : q.Life role)
    (hstop : q.stopped = none) : q.current = q.pending := by
  have hcalm := hq.writer
  have hret := hlife.running hstop .writer
  unfold Forwarder.current
  unfold Forwarder.WriterCalm at hcalm
  cases hw : q.writer with
  | writing live => rfl
  | retrying => rfl
  | returned => exact absurd (congrArg Writer.status hw) hret
  | _ =>
    rw [hw] at hcalm
    exact hcalm.symm

omit [DecidableEq D] in
/-- Of two copies with one word the data is the same. -/
theorem data_of_copy {sent : List (IkcpSeg α)} (hb : sent.length < 2 ^ 32) {k : Nat}
    {seg : IkcpSeg α} (hk : sent[k]? = some seg) {sn : UInt32} {b : UInt32 × List α}
    (hc : Copy sent sn b) (hsn : sn = UInt32.ofNat k) : b.2 = seg.data := by
  obtain ⟨j, s, hj, hword, rfl⟩ := hc
  have hlt : k < sent.length := (List.getElem?_eq_some_iff.mp hk).1
  have hltj : j < sent.length := (List.getElem?_eq_some_iff.mp hj).1
  have hjk : j = k := (SerialNumber.ofNat_inj (by omega) (by omega)).mp (hword.symm.trans hsn)
  subst hjk
  rw [hk] at hj
  cases hj
  rfl

omit [DecidableEq D] in
theorem keepsBytes_of_link {taken : List (UInt32 × List α)} {r : Nat}
    (hb : p.sent.length < 2 ^ 31) (h : Link retries Carries p.toDataPath q.toDataPath taken r)
    (hsec : Secured Carries p.toDataPath q.toDataPath r) (hcur : q.current = q.pending) :
    KeepsBytes p q := by
  obtain ⟨before, done, hbytes, hmessage, hsub, -⟩ := h.handed
  have hrnxt : q.kcp.rcvNxt = UInt32.ofNat r := h.receives.rcvNxt
  refine ⟨before ++ done, p.sent.drop r, hsub, ?_, ?_⟩
  · rw [h.read_eq, hbytes, hmessage, hcur]
    simp only [List.append_assoc]
  · intro k seg hk
    rw [List.getElem?_drop] at hk
    have hlt : r + k < p.sent.length := (List.getElem?_eq_some_iff.mp hk).1
    rw [hrnxt, ← UInt32.ofNat_add]
    rcases hsec.held (r + k) hlt with (hlow | ⟨x, hx, hsn⟩) | ⟨x, hx, hsn⟩
    · omega
    · exact Or.inr ⟨x, hx, hsn,
        data_of_copy (by omega) hk (h.receives.rcvBuf x hx) hsn⟩
    · obtain ⟨y, hy, rfl⟩ := List.mem_map.mp hx
      exact Or.inl ⟨y, hy, hsn, data_of_copy (by omega) hk (h.sends.copy hx).1 hsn⟩

omit [DecidableEq D] in
theorem acceptsChunks_of_config (hc : p.kcp.config = forwarderConfig) : AcceptsChunks p := by
  intro chunk hlen
  rw [ikcpSend_eq hc (by omega)]
  refine ⟨rfl, ?_⟩
  rw [segData_append, segData_fragments]

omit [DecidableEq D] in
theorem releasesAccepted_of_link {taken : List (UInt32 × List α)} {r : Nat}
    (hb : p.sent.length < 2 ^ 31) (h : Link retries Carries p.toDataPath q.toDataPath taken r)
    (hsec : Secured Carries p.toDataPath q.toDataPath r) : ReleasesAccepted p q := by
  have hrnxt : q.kcp.rcvNxt = UInt32.ofNat r := h.receives.rcvNxt
  have hle := h.receives.le
  intro k hk
  rw [hrnxt, UInt32.toNat_ofNat_of_lt' (by simp only [UInt32.size]; omega)]
  rcases hsec.held k hk with (hlow | hbuf) | ⟨x, hx, hsn⟩
  · exact Or.inr (Or.inl hlow)
  · exact Or.inr (Or.inr hbuf)
  · obtain ⟨y, hy, rfl⟩ := List.mem_map.mp hx
    exact Or.inl ⟨y, hy, hsn⟩

end Keeps

/-- **No byte is lost inside the tunnel while both ends run**, whatever the TCP
writes do: every byte read is written, about to be written, queued or held; every
chunk read is accepted; and nothing is released that the other end has not
accepted. -/
theorem tunnel_keeps_bytes (checkSum : Bool) (client server : List UInt8 × Bool)
    (run : List (TunnelEvent UInt8 (List UInt8))) (t : Tunnel UInt8 (List UInt8) (List UInt8))
    (hrun : exec (step (udp checkSum)) (started client server) run = some t)
    (hsent : t.SentBelow (2 ^ 31)) (hclient : t.client.stopped = none)
    (hserver : t.server.stopped = none) :
    (KeepsBytes t.client t.server ∧ KeepsBytes t.server t.client) ∧
    (AcceptsChunks t.client ∧ AcceptsChunks t.server) ∧
    (ReleasesAccepted t.client t.server ∧ ReleasesAccepted t.server t.client) := by
  have hb : t.SentBelow (2 ^ 32) :=
    ⟨Nat.lt_trans hsent.1 (by decide), Nat.lt_trans hsent.2 (by decide)⟩
  have hagain : ∀ e ∈ run, ¬ True → NoTryAgain e := fun _ _ h => absurd trivial h
  obtain ⟨hs, hj⟩ := isJoined_exec (lawful_udp checkSum) hrun hagain hb
  obtain ⟨⟨_, _, hup, hupSec⟩, ⟨_, _, hdown, hdownSec⟩⟩ := hj
  have hcurS := current_eq_pending hs.server hs.serverLife hserver
  have hcurC := current_eq_pending hs.client hs.clientLife hclient
  refine ⟨⟨?_, ?_⟩, ⟨?_, ?_⟩, ⟨?_, ?_⟩⟩
  · exact keepsBytes_of_link hsent.1 hup (hupSec hsent.1) hcurS
  · exact keepsBytes_of_link hsent.2 hdown (hdownSec hsent.2) hcurC
  · exact acceptsChunks_of_config hup.config
  · exact acceptsChunks_of_config hdown.config
  · exact releasesAccepted_of_link hsent.1 hup (hupSec hsent.1)
  · exact releasesAccepted_of_link hsent.2 hdown (hdownSec hsent.2)

theorem tunnel_keeps_bytes_shortRun :
    ∃ t : Tunnel UInt8 (List UInt8) (List UInt8),
      exec (step (udp true)) (started ([], false) ([], true)) shortRun = some t ∧
      t.server.current = [3] ∧ KeepsBytes t.client t.server ∧ ReleasesAccepted t.client t.server := by
  have hobs : (exec (step (udp true)) (started ([], false) ([], true)) shortRun).map
      (fun t => (t.server.current, t.client.sent.length, t.server.sent.length,
        t.client.stopped.isNone, t.server.stopped.isNone)) = some ([3], 1, 0, true, true) := by
    decide +kernel
  obtain ⟨t, hrun, hobs⟩ := Option.map_eq_some_iff.mp hobs
  simp only [Prod.mk.injEq, Option.isNone_iff_eq_none] at hobs
  obtain ⟨hcur, hclient, hserver, hc, hs⟩ := hobs
  have hall := tunnel_keeps_bytes true ([], false) ([], true) shortRun t hrun
    ⟨by rw [hclient]; decide, by rw [hserver]; decide⟩ hc hs
  exact ⟨t, hrun, hcur, hall.1.1, hall.2.2.1⟩

end Tunnel
end FlexProxy
