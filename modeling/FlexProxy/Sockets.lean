import FlexProxy.FlexServer

/-! # Whose datagrams a forwarder is fed

The accept socket and the UDP sockets of all forwarders are bound to one local
address.  A datagram that arrives is queued on one of them that is at that moment not
connected, or connected to the sender, and stays there when the socket is connected
later.  A receive returns what is queued, whoever sent it.

`Start` binds the socket of a new forwarder before it connects it.  A datagram of
another endpoint that is queued on it in between is fed to the control block by the
kcp feed coroutine, which does not see the sender (`fed_by_stranger`).  If there is
none, every forwarder is fed what its own endpoint has sent (`fed_by_own`).
-/
namespace FlexProxy
open TransitionSystem

/-- The call on the UDP socket of a new forwarder that `Start` is in. -/
inductive UdpCall where
  | opening
  | binding
  | connecting
  deriving DecidableEq

/-- How `Start` ends if the call fails. -/
def UdpCall.failure {B : Type} : UdpCall → StartOutcome B
  | .opening => .udpOpenFailed
  | .binding => .udpBindFailed
  | .connecting => .udpConnectFailed

/-- A `Start` that `UdpAcceptCoroutine` is in. -/
structure Starting (E : Type) where
  endpoint : E
  /-- The datagram that the new forwarder is for. -/
  datagram : List UInt8
  call : UdpCall
  /-- What is queued on its UDP socket, with the senders. -/
  queue : List (E × List UInt8)

/-- The server with its UDP sockets. -/
structure Sockets (E : Type) where
  server : FlexServer E UInt8 (List UInt8) (List UInt8)
  /-- What is queued on the accept socket, with the senders. -/
  acceptQueue : List (E × List UInt8)
  starting : Option (Starting E)
  /-- What is queued on the socket of each session. -/
  queues : List (List (E × List UInt8))
  /-- What has been passed to `ikcp_input`: in which session, who sent it, and the bytes. -/
  inputs : List (Nat × E × List UInt8)

/-- A socket bound to the local address. -/
inductive Socket where
  | accept
  /-- The one of the forwarder whose `Start` is going on. -/
  | starting
  | session (i : Nat)

/-- What happens at the sockets. -/
inductive SocketEvent (E : Type) where
  /-- A datagram arrives and is queued. -/
  | arrives (socket : Socket) (sender : E) (d : List UInt8)
  /-- `UdpAcceptCoroutine` receives a datagram. -/
  | receive
  /-- The open or the bind in `Start` succeeds. -/
  | callSucceeds
  /-- The call in `Start` fails. -/
  | callFails
  /-- The connect in `Start` succeeds; the rest is as in `StartOutcome.completed`. -/
  | connects (tcpOpen : Bool) (buffer : List UInt8) (isKcpAlive : Bool)
  /-- The kcp feed coroutine of session `i` receives a datagram. -/
  | feed (i : Nat)
  /-- Anything else that happens at the server. -/
  | server (a : ServerEvent E UInt8 (List UInt8) (List UInt8))

namespace FlexServer
variable {E α D B : Type} [DecidableEq E] {T : Transport α D B} {s s' : FlexServer E α D B}

/-- What is not a datagram at the accept socket leaves the sessions' endpoints alone. -/
theorem endpoints_step {a : ServerEvent E α D B} (ha : ∀ e d outcome, a ≠ .datagram e d outcome)
    (h : step T s a = some s') : s'.endpoints = s.endpoints := by
  cases a with
  | datagram e d outcome => exact absurd rfl (ha e d outcome)
  | forwarder i e =>
    obtain ⟨-, x, f, -, -, -, rfl⟩ := step_forwarder h
    rw [endpoints, sessions_collect]
    exact endpoints_put s i f
  | _ =>
    obtain ⟨-, h⟩ := Option.ite_none_right_eq_some.mp h
    cases h
    rfl

/-- A datagram of an endpoint that has an entry goes to the forwarder of that endpoint. -/
theorem endpoints_known (hs : s.Ok) {e : E} {i : Nat} (he : s.forwarderMap e = some i) {d : D}
    {outcome : StartOutcome B} (h : step T s (.datagram e d outcome) = some s') :
    s'.endpoints = s.endpoints ∧ s.endpoints[i]? = some e := by
  obtain ⟨-, h⟩ := Option.ite_none_right_eq_some.mp h
  cases h
  obtain ⟨x, hx, hxe, -, haccept⟩ := accept_known (T := T) hs.table he d outcome
  rw [haccept, endpoints_put, endpoints, List.getElem?_map, hx, Option.map_some, hxe]
  exact ⟨rfl, rfl⟩

/-- A `Start` that has succeeded adds its endpoint. -/
theorem endpoints_new {e : E} (he : s.forwarderMap e = none) {d : D} {outcome : StartOutcome B}
    {f : Forwarder α D B} (hf : Forwarder.start .server outcome = some f)
    (h : step T s (.datagram e d outcome) = some s') : s'.endpoints = s.endpoints ++ [e] := by
  obtain ⟨-, h⟩ := Option.ite_none_right_eq_some.mp h
  cases h
  rw [accept_new he d hf, endpoints, sessions_enrol he, List.map_append]
  rfl

theorem endpoints_failed {e : E} (he : s.forwarderMap e = none) {d : D} {outcome : StartOutcome B}
    (hf : Forwarder.start (α := α) (D := D) .server outcome = none)
    (h : step T s (.datagram e d outcome) = some s') : s'.endpoints = s.endpoints := by
  obtain ⟨-, h⟩ := Option.ite_none_right_eq_some.mp h
  cases h
  rw [accept_failed he d hf, endpoints, sessions_destruct]
  rfl

end FlexServer

namespace Sockets
variable {E : Type} [DecidableEq E] (checkSum : Bool)

def started (memory : Nat → Bool × Nat) : Sockets E where
  server := .started memory
  acceptQueue := []
  starting := none
  queues := []
  inputs := []

/-- What of a datagram is passed to `ikcp_input`, if anything. -/
def passed (d : List UInt8) : Option (List UInt8) := receivePath checkSum (d.take receiveBufferSize)

/-- The forwarder of session `i` is fed the datagram `d` of `sender`. -/
def record (s : Sockets E) (i : Nat) (sender : E) (d : List UInt8) : Sockets E :=
  { s with inputs := s.inputs ++ (passed checkSum d).toList.map (fun bytes => (i, sender, bytes)) }

/-- `UdpAcceptCoroutine` receives the datagram `d` of `sender`. -/
def accept (s : Sockets E) (sender : E) (d : List UInt8) : Option (Sockets E) :=
  match s.server.forwarderMap sender with
  | some i =>
    -- `Start` is not called, so its outcome does not matter
    (s.server.step (udp checkSum) (.datagram sender d .udpOpenFailed)).map (fun server =>
      { s with server := server }.record checkSum i sender d)
  | none => some { s with starting := some ⟨sender, d, .opening, []⟩ }

/-- One event; `none` if it cannot happen.  While `Start` runs no coroutine does. -/
def step (s : Sockets E) : SocketEvent E → Option (Sockets E)
  | .arrives .accept sender d => some { s with acceptQueue := s.acceptQueue ++ [(sender, d)] }
  | .arrives .starting sender d =>
    match s.starting with
    | some x =>
      -- bound, and not connected yet
      if x.call = .connecting then
        some { s with starting := some { x with queue := x.queue ++ [(sender, d)] } }
      else none
    | none => none
  | .arrives (.session i) sender d =>
    match s.server.sessions[i]? with
    | some x =>
      if x.endpoint = sender ∧ x.forwarder.isOpen ∧ 0 < x.forwarder.refs then
        some { s with queues := s.queues.modify i (· ++ [(sender, d)]) }
      else none
    | none => none
  | .receive =>
    match s.acceptQueue with
    | (sender, d) :: rest =>
      if s.starting.isNone ∧ s.server.accepting = .waiting then
        { s with acceptQueue := rest }.accept checkSum sender d
      else none
    | [] => none
  | .callSucceeds =>
    match s.starting with
    | some x =>
      match x.call with
      | .opening => some { s with starting := some { x with call := .binding } }
      | .binding => some { s with starting := some { x with call := .connecting } }
      | .connecting => none
    | none => none
  | .callFails =>
    match s.starting with
    | some x =>
      (s.server.step (udp checkSum) (.datagram x.endpoint x.datagram x.call.failure)).map
        (fun server => { s with server := server, starting := none })
    | none => none
  | .connects tcpOpen buffer isKcpAlive =>
    match s.starting with
    | some x =>
      if x.call = .connecting then
        (s.server.step (udp checkSum)
          (.datagram x.endpoint x.datagram (.completed tcpOpen buffer isKcpAlive))).map
          (fun server =>
            { s with server := server, starting := none, queues := s.queues ++ [x.queue] }.record
              checkSum s.server.sessions.length x.endpoint x.datagram)
      else none
    | none => none
  | .feed i =>
    match s.queues[i]? with
    | some ((sender, d) :: rest) =>
      if s.starting.isNone then
        (s.server.step (udp checkSum) (.forwarder i (.udpData d))).map (fun server =>
          { s with server := server, queues := s.queues.set i rest }.record checkSum i sender d)
      else none
    | _ => none
  | .server a =>
    if s.starting.isNone ∧ a.datagram?.isNone then
      (s.server.step (udp checkSum) a).map (fun server => { s with server := server })
    else none

/-- What is recorded is what the control block gets. -/
theorem onUdpData_kcp (f : Forwarder UInt8 (List UInt8) (List UInt8)) (d : List UInt8) :
    (f.onUdpData (udp checkSum) d).kcp =
      (passed checkSum d).toList.foldl (fun kcp bytes => (ikcpInput kcp bytes).1) f.kcp := by
  show feedPayload checkSum f.kcp (d.take receiveBufferSize) = _
  rw [feedPayload, passed]
  cases receivePath checkSum (d.take receiveBufferSize) <;> rfl

/-! ## The property -/

/-- What has been passed to `ikcp_input` of a forwarder was sent from the endpoint that
the forwarder was created for. -/
def FedByOwn (s : Sockets E) : Prop :=
  ∀ p ∈ s.inputs, s.server.endpoints[p.1]? = some p.2.1

/-- No datagram of another endpoint is queued on the socket of a new forwarder before
it is connected. -/
def NoStranger (s : Sockets E) : SocketEvent E → Prop
  | .arrives .starting sender _ => ∀ x ∈ s.starting, sender = x.endpoint
  | _ => True

instance (s : Sockets E) : DecidablePred s.NoStranger
  | .arrives .starting sender _ =>
    inferInstanceAs (Decidable (∀ x ∈ s.starting, sender = x.endpoint))
  | .arrives .accept _ _ => isTrue trivial
  | .arrives (.session _) _ _ => isTrue trivial
  | .receive => isTrue trivial
  | .callSucceeds => isTrue trivial
  | .callFails => isTrue trivial
  | .connects _ _ _ => isTrue trivial
  | .feed _ => isTrue trivial
  | .server _ => isTrue trivial

/-! ## What the events do -/

section Events
variable {checkSum} {s s' : Sockets E} {i : Nat} {sender : E} {d : List UInt8}

theorem step_arrivesStarting (h : step checkSum s (.arrives .starting sender d) = some s') :
    ∃ x, s.starting = some x ∧
      s' = { s with starting := some { x with queue := x.queue ++ [(sender, d)] } } := by
  cases hx : s.starting with
  | none =>
    rw [step, hx] at h
    cases h
  | some x =>
    rw [step, hx] at h
    obtain ⟨-, h⟩ := Option.ite_none_right_eq_some.mp h
    cases h
    exact ⟨x, rfl, rfl⟩

theorem step_arrivesSession (h : step checkSum s (.arrives (.session i) sender d) = some s') :
    s.server.endpoints[i]? = some sender ∧
      s' = { s with queues := s.queues.modify i (· ++ [(sender, d)]) } := by
  cases hx : s.server.sessions[i]? with
  | none =>
    rw [step, hx] at h
    cases h
  | some x =>
    rw [step, hx] at h
    obtain ⟨⟨rfl, -⟩, h⟩ := Option.ite_none_right_eq_some.mp h
    cases h
    exact ⟨by rw [FlexServer.endpoints, List.getElem?_map, hx]; rfl, rfl⟩

theorem step_receive (h : step checkSum s .receive = some s') :
    ∃ sender d rest, s.starting = none ∧
      { s with acceptQueue := rest }.accept checkSum sender d = some s' := by
  cases hq : s.acceptQueue with
  | nil =>
    rw [step, hq] at h
    cases h
  | cons p rest =>
    rw [step, hq] at h
    obtain ⟨⟨hnone, -⟩, h⟩ := Option.ite_none_right_eq_some.mp h
    exact ⟨p.1, p.2, rest, Option.isNone_iff_eq_none.mp hnone, h⟩

theorem accept_eq (h : s.accept checkSum sender d = some s') :
    (∃ i server, s.server.forwarderMap sender = some i ∧
      s.server.step (udp checkSum) (.datagram sender d .udpOpenFailed) = some server ∧
      s' = { s with server := server }.record checkSum i sender d) ∨
    (s.server.forwarderMap sender = none ∧
      s' = { s with starting := some ⟨sender, d, .opening, []⟩ }) := by
  cases he : s.server.forwarderMap sender with
  | none =>
    rw [accept, he] at h
    cases h
    exact Or.inr ⟨rfl, rfl⟩
  | some i =>
    rw [accept, he] at h
    obtain ⟨server, hserver, rfl⟩ := Option.map_eq_some_iff.mp h
    exact Or.inl ⟨i, server, rfl, hserver, rfl⟩

theorem step_callSucceeds (h : step checkSum s .callSucceeds = some s') :
    ∃ x call, s.starting = some x ∧ s' = { s with starting := some { x with call := call } } := by
  cases hx : s.starting with
  | none =>
    rw [step, hx] at h
    cases h
  | some x =>
    rw [step, hx] at h
    dsimp only at h
    split at h <;> cases h <;> exact ⟨x, _, rfl, rfl⟩

theorem step_callFails (h : step checkSum s .callFails = some s') :
    ∃ x server, s.starting = some x ∧
      s.server.step (udp checkSum) (.datagram x.endpoint x.datagram x.call.failure) = some server ∧
      s' = { s with server := server, starting := none } := by
  cases hx : s.starting with
  | none =>
    rw [step, hx] at h
    cases h
  | some x =>
    rw [step, hx] at h
    obtain ⟨server, hserver, rfl⟩ := Option.map_eq_some_iff.mp h
    exact ⟨x, server, rfl, hserver, rfl⟩

theorem step_connects {tcpOpen isKcpAlive : Bool} {buffer : List UInt8}
    (h : step checkSum s (.connects tcpOpen buffer isKcpAlive) = some s') :
    ∃ x server, s.starting = some x ∧
      s.server.step (udp checkSum)
        (.datagram x.endpoint x.datagram (.completed tcpOpen buffer isKcpAlive)) = some server ∧
      s' = { s with server := server, starting := none, queues := s.queues ++ [x.queue] }.record
        checkSum s.server.sessions.length x.endpoint x.datagram := by
  cases hx : s.starting with
  | none =>
    rw [step, hx] at h
    cases h
  | some x =>
    rw [step, hx] at h
    obtain ⟨-, h⟩ := Option.ite_none_right_eq_some.mp h
    obtain ⟨server, hserver, rfl⟩ := Option.map_eq_some_iff.mp h
    exact ⟨x, server, rfl, hserver, rfl⟩

theorem step_feed (h : step checkSum s (.feed i) = some s') :
    ∃ sender d rest server, s.queues[i]? = some ((sender, d) :: rest) ∧ s.starting = none ∧
      s.server.step (udp checkSum) (.forwarder i (.udpData d)) = some server ∧
      s' = { s with server := server, queues := s.queues.set i rest }.record
        checkSum i sender d := by
  rw [step] at h
  split at h
  · rename_i sender d rest hq
    obtain ⟨hnone, h⟩ := Option.ite_none_right_eq_some.mp h
    obtain ⟨server, hserver, rfl⟩ := Option.map_eq_some_iff.mp h
    exact ⟨sender, d, rest, server, hq, Option.isNone_iff_eq_none.mp hnone, hserver, rfl⟩
  · cases h

theorem step_server {a : ServerEvent E UInt8 (List UInt8) (List UInt8)}
    (h : step checkSum s (.server a) = some s') :
    ∃ server, s.starting = none ∧ a.datagram? = none ∧
      s.server.step (udp checkSum) a = some server ∧ s' = { s with server := server } := by
  obtain ⟨⟨hnone, ha⟩, h⟩ := Option.ite_none_right_eq_some.mp h
  obtain ⟨server, hserver, rfl⟩ := Option.map_eq_some_iff.mp h
  exact ⟨server, Option.isNone_iff_eq_none.mp hnone, Option.isNone_iff_eq_none.mp ha, hserver, rfl⟩

/-- **The sockets drive the server.**  Every event is one of the server, or leaves it
alone. -/
theorem server_step {a : SocketEvent E} (h : step checkSum s a = some s') :
    s'.server = s.server ∨ ∃ b, s.server.step (udp checkSum) b = some s'.server := by
  cases a with
  | arrives socket sender d =>
    cases socket with
    | accept =>
      cases h
      exact Or.inl rfl
    | starting =>
      obtain ⟨x, -, rfl⟩ := step_arrivesStarting h
      exact Or.inl rfl
    | session i =>
      obtain ⟨-, rfl⟩ := step_arrivesSession h
      exact Or.inl rfl
  | receive =>
    obtain ⟨sender, d, rest, -, h⟩ := step_receive h
    rcases accept_eq h with ⟨i, server, -, hserver, rfl⟩ | ⟨-, rfl⟩
    · exact Or.inr ⟨_, hserver⟩
    · exact Or.inl rfl
  | callSucceeds =>
    obtain ⟨x, call, -, rfl⟩ := step_callSucceeds h
    exact Or.inl rfl
  | callFails =>
    obtain ⟨x, server, -, hserver, rfl⟩ := step_callFails h
    exact Or.inr ⟨_, hserver⟩
  | connects tcpOpen buffer isKcpAlive =>
    obtain ⟨x, server, -, hserver, rfl⟩ := step_connects h
    exact Or.inr ⟨_, hserver⟩
  | feed i =>
    obtain ⟨sender, d, rest, server, -, -, hserver, rfl⟩ := step_feed h
    exact Or.inr ⟨_, hserver⟩
  | server a =>
    obtain ⟨server, -, -, hserver, rfl⟩ := step_server h
    exact Or.inr ⟨_, hserver⟩

end Events

/-! ## The invariant -/

/-- Everything queued on a forwarder's socket, or fed to it, is from its endpoint. -/
structure Own (s : Sockets E) : Prop where
  server : s.server.Ok
  /-- `Start` runs for an endpoint that has no entry. -/
  fresh : ∀ x ∈ s.starting, s.server.forwarderMap x.endpoint = none
  waits : ∀ x ∈ s.starting, ∀ p ∈ x.queue, p.1 = x.endpoint
  aligned : s.queues.length = s.server.endpoints.length
  queued : ∀ (i : Nat) (q : List (E × List UInt8)), s.queues[i]? = some q →
    ∀ p ∈ q, s.server.endpoints[i]? = some p.1
  inputs : s.FedByOwn

omit [DecidableEq E] in
theorem own_started (memory : Nat → Bool × Nat) : (started memory : Sockets E).Own where
  server := FlexServer.ok_started memory
  fresh _ hx := nomatch hx
  waits _ hx := nomatch hx
  aligned := rfl
  queued _ _ hq := nomatch hq
  inputs _ hp := nomatch hp

variable {checkSum} {s s' : Sockets E}

omit [DecidableEq E] in
theorem fedByOwn_record (h : s.FedByOwn) {i : Nat} {sender : E}
    (hi : s.server.endpoints[i]? = some sender) (d : List UInt8) :
    (s.record checkSum i sender d).FedByOwn := by
  intro p hp
  rcases List.mem_append.mp hp with hp | hp
  · exact h p hp
  · obtain ⟨bytes, -, rfl⟩ := List.mem_map.mp hp
    exact hi

omit [DecidableEq E] in
/-- The server goes on with the same sessions, and no `Start` runs. -/
theorem own_of_endpoints (hs : s.Own) (hok : s'.server.Ok) (hnone : s'.starting = none)
    (hend : s'.server.endpoints = s.server.endpoints) (hqueues : s'.queues = s.queues)
    (hinputs : s'.inputs = s.inputs) : s'.Own where
  server := hok
  fresh x hx := by
    rw [hnone] at hx
    cases hx
  waits x hx := by
    rw [hnone] at hx
    cases hx
  aligned := by
    rw [hqueues, hend]
    exact hs.aligned
  queued := by
    rw [hqueues, hend]
    exact hs.queued
  inputs := by
    rw [FedByOwn, hinputs, hend]
    exact hs.inputs

omit [DecidableEq E] in
theorem own_record (hs : s.Own) {i : Nat} {sender : E}
    (hi : s.server.endpoints[i]? = some sender) (d : List UInt8) :
    (s.record checkSum i sender d).Own where
  server := hs.server
  fresh := hs.fresh
  waits := hs.waits
  aligned := hs.aligned
  queued := hs.queued
  inputs := fedByOwn_record hs.inputs hi d

/-- `UdpAcceptCoroutine` receives a datagram. -/
theorem own_accept (hs : s.Own) (hnone : s.starting = none) {sender : E} {d : List UInt8}
    (h : s.accept checkSum sender d = some s') : s'.Own := by
  rcases accept_eq h with ⟨i, server, hi, hserver, rfl⟩ | ⟨hfree, rfl⟩
  · obtain ⟨hend, hsender⟩ := FlexServer.endpoints_known hs.server hi hserver
    have hok := FlexServer.ok_step hs.server hserver
    have hown : Own { s with server := server } := own_of_endpoints hs hok hnone hend rfl rfl
    refine own_record hown ?_ d
    show server.endpoints[i]? = some sender
    rw [hend]
    exact hsender
  · refine ⟨hs.server, ?_, ?_, hs.aligned, hs.queued, hs.inputs⟩
    · rintro x hx
      cases hx
      exact hfree
    · rintro x hx
      cases hx
      exact fun p hp => nomatch hp

/-- The new forwarder's socket is connected, and the forwarder is a session. -/
theorem own_connects (hs : s.Own) {tcpOpen isKcpAlive : Bool} {buffer : List UInt8}
    (h : step checkSum s (.connects tcpOpen buffer isKcpAlive) = some s') : s'.Own := by
  obtain ⟨x, server, hx, hserver, rfl⟩ := step_connects h
  have hend : server.endpoints = s.server.endpoints ++ [x.endpoint] :=
    FlexServer.endpoints_new (hs.fresh x hx) rfl hserver
  have hlen : s.server.endpoints.length = s.server.sessions.length := List.length_map _
  have hown : Own { s with server := server, starting := none, queues := s.queues ++ [x.queue] } := by
    refine ⟨FlexServer.ok_step hs.server hserver, (fun _ hx => nomatch hx),
      (fun _ hx => nomatch hx), ?_, ?_, ?_⟩
    · show (s.queues ++ [x.queue]).length = server.endpoints.length
      rw [hend, List.length_append, List.length_append, hs.aligned]
      rfl
    · show ∀ (i : Nat) q, (s.queues ++ [x.queue])[i]? = some q →
        ∀ p ∈ q, server.endpoints[i]? = some p.1
      intro i q hq p hp
      rw [hend]
      by_cases hi : i < s.queues.length
      · rw [List.getElem?_append_left hi] at hq
        rw [List.getElem?_append_left (hs.aligned ▸ hi)]
        exact hs.queued i q hq p hp
      · -- the queue of the new forwarder
        have hlast : i = s.queues.length := by
          have hlt := (List.getElem?_eq_some_iff.mp hq).1
          rw [List.length_append, List.length_singleton] at hlt
          omega
        subst hlast
        rw [List.getElem?_concat_length] at hq
        cases hq
        rw [hs.aligned, List.getElem?_concat_length, hs.waits x hx p hp]
    · show ∀ p ∈ s.inputs, server.endpoints[p.1]? = some p.2.1
      intro p hp
      rw [hend]
      exact List.getElem?_append_left (List.getElem?_eq_some_iff.mp (hs.inputs p hp)).1 ▸ hs.inputs p hp
  refine own_record hown ?_ x.datagram
  show server.endpoints[s.server.sessions.length]? = some x.endpoint
  rw [hend, ← hlen, List.getElem?_concat_length]

/-- The kcp feed coroutine of a session receives what is queued. -/
theorem own_feed (hs : s.Own) {i : Nat} (h : step checkSum s (.feed i) = some s') : s'.Own := by
  obtain ⟨sender, d, rest, server, hq, hnone, hserver, rfl⟩ := step_feed h
  have hend : server.endpoints = s.server.endpoints :=
    FlexServer.endpoints_step (a := .forwarder i (.udpData d)) (fun _ _ _ h => nomatch h) hserver
  have hok := FlexServer.ok_step hs.server hserver
  have hold : Own { s with server := server } := own_of_endpoints hs hok hnone hend rfl rfl
  have hown : Own { s with server := server, queues := s.queues.set i rest } := by
    refine ⟨hok, hold.fresh, hold.waits, ?_, ?_, hold.inputs⟩
    · show (s.queues.set i rest).length = server.endpoints.length
      rw [List.length_set]
      exact hold.aligned
    · show ∀ (j : Nat) q, (s.queues.set i rest)[j]? = some q → ∀ p ∈ q, server.endpoints[j]? = some p.1
      intro j q hj p hp
      by_cases hij : i = j
      · subst hij
        have hlt := (List.getElem?_eq_some_iff.mp hq).1
        rw [List.getElem?_set_self hlt] at hj
        cases hj
        exact hold.queued i _ hq p (List.mem_cons_of_mem _ hp)
      · rw [List.getElem?_set_ne hij] at hj
        exact hold.queued j q hj p hp
  refine own_record hown ?_ d
  show server.endpoints[i]? = some sender
  rw [hend]
  exact hs.queued i _ hq (sender, d) (List.mem_cons_self ..)

/-- The kernel queues a datagram. -/
theorem own_arrives (hs : s.Own) {socket : Socket} {sender : E} {d : List UInt8}
    (ha : s.NoStranger (.arrives socket sender d))
    (h : step checkSum s (.arrives socket sender d) = some s') : s'.Own := by
  cases socket with
  | accept =>
    cases h
    exact ⟨hs.server, hs.fresh, hs.waits, hs.aligned, hs.queued, hs.inputs⟩
  | starting =>
    -- the socket is bound and not connected: only `NoStranger` keeps others out
    obtain ⟨x, hx, rfl⟩ := step_arrivesStarting h
    refine ⟨hs.server, ?_, ?_, hs.aligned, hs.queued, hs.inputs⟩
    · rintro y hy
      cases hy
      exact hs.fresh x hx
    · rintro y hy p hp
      cases hy
      rcases List.mem_append.mp hp with hp | hp
      · exact hs.waits x hx p hp
      · rw [List.mem_singleton.mp hp]
        exact ha x hx
  | session i =>
    obtain ⟨hsender, rfl⟩ := step_arrivesSession h
    refine ⟨hs.server, hs.fresh, hs.waits, ?_, ?_, hs.inputs⟩
    · show (s.queues.modify i _).length = _
      rw [List.length_modify]
      exact hs.aligned
    · intro j q hq p hp
      change (s.queues.modify i (· ++ [(sender, d)]))[j]? = some q at hq
      show s.server.endpoints[j]? = some p.1
      by_cases hij : i = j
      · subst hij
        rw [List.getElem?_modify_eq] at hq
        obtain ⟨q', hq', rfl⟩ := Option.map_eq_some_iff.mp hq
        rcases List.mem_append.mp hp with hp | hp
        · exact hs.queued i q' hq' p hp
        · rw [List.mem_singleton.mp hp]
          exact hsender
      · rw [List.getElem?_modify_ne _ _ hij] at hq
        exact hs.queued j q hq p hp

theorem own_step (hs : s.Own) {a : SocketEvent E} (ha : s.NoStranger a)
    (h : step checkSum s a = some s') : s'.Own := by
  cases a with
  | arrives socket sender d => exact own_arrives hs ha h
  | receive =>
    obtain ⟨sender, d, rest, hnone, h⟩ := step_receive h
    have hrest : Own { s with acceptQueue := rest } :=
      ⟨hs.server, hs.fresh, hs.waits, hs.aligned, hs.queued, hs.inputs⟩
    exact own_accept hrest hnone h
  | callSucceeds =>
    obtain ⟨x, call, hx, rfl⟩ := step_callSucceeds h
    refine ⟨hs.server, ?_, ?_, hs.aligned, hs.queued, hs.inputs⟩
    · rintro y hy
      cases hy
      exact hs.fresh x hx
    · rintro y hy
      cases hy
      exact hs.waits x hx
  | callFails =>
    obtain ⟨x, server, hx, hserver, rfl⟩ := step_callFails h
    have hfails : Forwarder.start (α := UInt8) (D := List UInt8) .server
        (x.call.failure : StartOutcome (List UInt8)) = none := by
      cases x.call <;> rfl
    have hend := FlexServer.endpoints_failed (hs.fresh x hx) hfails hserver
    exact own_of_endpoints hs (FlexServer.ok_step hs.server hserver) rfl hend rfl rfl
  | connects tcpOpen buffer isKcpAlive => exact own_connects hs h
  | feed i => exact own_feed hs h
  | server a =>
    obtain ⟨server, hnone, ha, hserver, rfl⟩ := step_server h
    have hnot : ∀ e d outcome, a ≠ .datagram e d outcome := by
      rintro e d outcome rfl
      cases ha
    have hend := FlexServer.endpoints_step hnot hserver
    exact own_of_endpoints hs (FlexServer.ok_step hs.server hserver) hnone hend rfl rfl

/-- **Every forwarder is fed what its own endpoint has sent**, in every run in which no
datagram of another endpoint is queued on a forwarder's socket before it is connected. -/
theorem fed_by_own (checkSum : Bool) (memory : Nat → Bool × Nat) (run : List (SocketEvent E))
    (s : Sockets E) (hrun : exec (step checkSum) (started memory) run = some s)
    (hstranger : Along (step checkSum) NoStranger (started memory) run) : s.FedByOwn := by
  have hown : s.Own :=
    exec_invariant_of (fun _ _ _ hs ha h => own_step hs ha h) (own_started memory) hstranger hrun
  exact hown.inputs

/-! ## A stranger -/

/-- The first datagram of a client whose first byte is `b`. -/
def firstDatagram (b : UInt8) : List UInt8 := datagramOf [segmentOf 81 1024 0 0 0 [b]]

/-- The first datagram of endpoint 1 makes the server start a forwarder.  One of
`sender` arrives while `Start` connects its socket. -/
def startFor (sender : Nat) : List (SocketEvent Nat) :=
  [.arrives .accept 1 (firstDatagram 1), .receive, .callSucceeds, .callSucceeds,
    .arrives .starting sender (firstDatagram 2), .connects true [] true,
    .server (.forwarder 0 .connected), .server (.forwarder 0 .feederRun), .feed 0]

theorem fed_by_own_startFor :
    ∃ s : Sockets Nat, exec (step true) (started FlexServer.zeroed) (startFor 1) = some s ∧
      s.inputs.map (fun p => (p.1, p.2.1)) = [(0, 1), (0, 1)] ∧ s.FedByOwn := by
  have hobs : (exec (step true) (started FlexServer.zeroed) (startFor 1)).map
      (fun s => s.inputs.map (fun p => (p.1, p.2.1))) = some [(0, 1), (0, 1)] := by
    decide +kernel
  have hstranger : Along (step true) NoStranger (started FlexServer.zeroed) (startFor 1) := by
    decide +kernel
  obtain ⟨s, hrun, hinputs⟩ := Option.map_eq_some_iff.mp hobs
  exact ⟨s, hrun, hinputs, fed_by_own true FlexServer.zeroed (startFor 1) s hrun hstranger⟩

/-- The forwarder of endpoint 1 is fed a datagram of endpoint 2. -/
theorem fed_by_stranger :
    ∃ s : Sockets Nat, exec (step true) (started FlexServer.zeroed) (startFor 2) = some s ∧
      s.inputs.map (fun p => (p.1, p.2.1)) = [(0, 1), (0, 2)] ∧ s.server.endpoints = [1] ∧
      ¬ s.FedByOwn := by
  have hobs : (exec (step true) (started FlexServer.zeroed) (startFor 2)).map
      (fun s => (s.inputs.map (fun p => (p.1, p.2.1)), s.server.endpoints)) =
        some ([(0, 1), (0, 2)], [1]) := by
    decide +kernel
  obtain ⟨s, hrun, hobs⟩ := Option.map_eq_some_iff.mp hobs
  obtain ⟨hinputs, hend⟩ := Prod.mk.inj hobs
  refine ⟨s, hrun, hinputs, hend, fun hown => ?_⟩
  have hmem : (0, 2) ∈ s.inputs.map (fun p => (p.1, p.2.1)) := by
    rw [hinputs]
    decide
  obtain ⟨p, hp, hpair⟩ := List.mem_map.mp hmem
  obtain ⟨hi, hsender⟩ := Prod.mk.inj hpair
  have hendpoint := hown p hp
  rw [hi, hsender, hend] at hendpoint
  exact absurd hendpoint (by decide)

end Sockets
end FlexProxy
