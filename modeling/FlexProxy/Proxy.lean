import FlexProxy.FlexServer
import FlexProxy.Provenance

/-! # The whole proxy

One `FlexServer` and any number of `ClientSideForwarder`s over time, each at a UDP
endpoint of its own while its socket is open.  An endpoint may be used again once
its socket is closed.  The network delivers to a forwarder any datagram that some
forwarder at the other end of its endpoint has sent, at any time and any number of
times.

What an event does to the forwarders of either side is one of a few things
(`Grows`, `grows_clients`, `grows_sessions`), so what holds of all of them is shown by
looking at one.
-/
namespace FlexProxy
open TransitionSystem

/-- The proxy, with the forwarders of both sides, the destroyed ones included. -/
structure Proxy (E α D B : Type) where
  server : FlexServer E α D B
  clients : List (Session E α D B)
  /-- Which session has been fed a datagram of which client. -/
  up : List (Nat × Nat)
  /-- Which client has been fed a datagram of which session. -/
  down : List (Nat × Nat)

/-- What happens in the proxy. -/
inductive ProxyEvent (E α D B : Type) where
  /-- A TCP client connects, and a `ClientSideForwarder` is started at a UDP endpoint. -/
  | connect (endpoint : E) (outcome : StartOutcome B)
  /-- A coroutine of client `c` is resumed, not by a datagram. -/
  | client (c : Nat) (e : Event α D)
  /-- Client `c` receives a datagram of session `i`. -/
  | toClient (i c : Nat) (d : D)
  /-- Something happens at the server, not by a datagram. -/
  | server (a : ServerEvent E α D B)
  /-- `UdpAcceptCoroutine` receives a datagram of client `c`. -/
  | toServer (c : Nat) (d : D) (outcome : StartOutcome B)
  /-- Session `i` receives a datagram of client `c` on its own socket. -/
  | toSession (c i : Nat) (d : D)

namespace Proxy
variable {E α D B : Type} [DecidableEq E] [DecidableEq D] (T : Transport α D B)

def started (memory : Nat → Bool × Nat) : Proxy E α D B where
  server := .started memory
  clients := []
  up := []
  down := []

/-- Forwarder `j` of one side has sent the datagram `d` to the endpoint `e`. -/
def SentTo (senders : List (Session E α D B)) (j : Nat) (e : E) (d : D) : Prop :=
  ∃ y ∈ senders[j]?, y.endpoint = e ∧ d ∈ y.forwarder.emitted

instance (senders : List (Session E α D B)) (j : Nat) (e : E) (d : D) :
    Decidable (SentTo senders j e d) :=
  inferInstanceAs (Decidable (∃ y ∈ senders[j]?, _))

/-- An event of client `c`. -/
def stepClient (w : Proxy E α D B) (c : Nat) (e : Event α D) : Option (Proxy E α D B) :=
  match w.clients[c]? with
  | some x =>
    (x.forwarder.step T .client e).map (fun f =>
      { w with clients := w.clients.modify c (fun x => { x with forwarder := f }) })
  | none => none

/-- One event; `none` if it cannot happen. -/
def step (w : Proxy E α D B) : ProxyEvent E α D B → Option (Proxy E α D B)
  | .connect e outcome =>
    if outcome.Possible .client ∧ ∀ x ∈ w.clients, x.endpoint = e → x.forwarder.isOpen = false then
      match Forwarder.start .client outcome with
      | some f => some { w with clients := w.clients ++ [⟨e, f⟩] }
      | none => some w
    else none
  | .client c e => if e.datagram.isNone then w.stepClient T c e else none
  | .toClient i c d =>
    match w.clients[c]? with
    | some x =>
      if SentTo w.server.sessions i x.endpoint d then
        (w.stepClient T c (.udpData d)).map (fun w' => { w' with down := w'.down ++ [(c, i)] })
      else none
    | none => none
  | .server a =>
    if a.datagram?.isNone then (w.server.step T a).map (fun s => { w with server := s }) else none
  | .toServer c d outcome =>
    match w.clients[c]? with
    | some x =>
      if d ∈ x.forwarder.emitted then
        (w.server.step T (.datagram x.endpoint d outcome)).map (fun s =>
          let i := w.server.receiver x.endpoint
          { w with server := s, up := if i < s.sessions.length then w.up ++ [(i, c)] else w.up })
      else none
    | none => none
  | .toSession c i d =>
    match w.server.sessions[i]? with
    | some y =>
      if SentTo w.clients c y.endpoint d then
        (w.server.step T (.forwarder i (.udpData d))).map (fun s =>
          { w with server := s, up := w.up ++ [(i, c)] })
      else none
    | none => none

/-- If the event is that a TCP write of a session fails with try-again, the session's
endpoint is one that `retries` allows. -/
def RetriesAt (retries : E → Prop) (w : Proxy E α D B) : ProxyEvent E α D B → Prop
  | .server (.forwarder i .writeAgain) => ∀ x ∈ w.server.sessions[i]?, retries x.endpoint
  | _ => True

omit [DecidableEq E] [DecidableEq D] in
theorem retriesAt_of_forall {retries : E → Prop} (h : ∀ e, retries e) (w : Proxy E α D B)
    (a : ProxyEvent E α D B) : w.RetriesAt retries a := by
  unfold RetriesAt
  split
  · exact fun x _ => h x.endpoint
  · trivial

/-! ## What an event does to the forwarders of a side -/

variable {T} {w w' : Proxy E α D B}

/-- From `f` to `f'` the data path takes some steps, and sends nothing before the
connect. -/
structure Evolves (T : Transport α D B) (retries : Prop) (arrives : D → Prop)
    (f f' : Forwarder α D B) : Prop where
  calm : f'.Calm retries
  steps : DataPath.Steps T retries arrives f.toDataPath f'.toDataPath
  mute : Forwarder.Mute f f'

/-- The forwarders of one side, and which of the other side's they have been fed by,
before and after an event: nothing changes, one forwarder evolves, or one is created.
That forwarder may be fed a datagram, by the forwarder `p.1` of the other side; a new
one is, unless forwarders are created `unasked`. -/
inductive Grows (T : Transport α D B) (retries : E → Prop) (unasked : Prop)
    (sentTo : Nat → E → D → Prop) (l : List (Session E α D B)) (feeds : List (Nat × Nat)) :
    List (Session E α D B) → List (Nat × Nat) → Prop
  | stays : Grows T retries unasked sentTo l feeds l feeds
  | evolves {i : Nat} {x : Session E α D B} {f : Forwarder α D B} (fed : Option (Nat × D))
      (hx : l[i]? = some x) (hsent : ∀ p ∈ fed, sentTo p.1 x.endpoint p.2)
      (hf : Evolves T (retries x.endpoint) (fun d => ∃ p ∈ fed, p.2 = d) x.forwarder f) :
      Grows T retries unasked sentTo l feeds (l.modify i (fun x => { x with forwarder := f }))
        (feeds ++ (fed.map (fun p => (i, p.1))).toList)
  | born {e : E} {f₀ f : Forwarder α D B} (fed : Option (Nat × D)) (hfed : fed = none → unasked)
      (fresh : Fresh f₀.toDataPath) (hsent : ∀ p ∈ fed, sentTo p.1 e p.2)
      (hf : Evolves T (retries e) (fun d => ∃ p ∈ fed, p.2 = d) f₀ f) :
      Grows T retries unasked sentTo l feeds (l ++ [⟨e, f⟩])
        (feeds ++ (fed.map (fun p => (l.length, p.1))).toList)

/-- Every forwarder is calm. -/
def Calms (retries : E → Prop) (l : List (Session E α D B)) : Prop :=
  ∀ (i : Nat) (x : Session E α D B), l[i]? = some x → x.forwarder.Calm (retries x.endpoint)

section Evolves
variable {retries : Prop} {role : Role} {f f' : Forwarder α D B} {arrives : D → Prop}

omit [DecidableEq D] in
theorem evolves_step (hf : f.Calm retries) {e : Event α D} (hagain : e = .writeAgain → retries)
    (harr : ∀ d, e.datagram = some d → arrives d) (h : f.step T role e = some f') :
    Evolves T retries arrives f f' := by
  obtain ⟨hcalm, hsteps⟩ := Forwarder.step_dataPath T hf hagain harr h
  exact ⟨hcalm, hsteps, Forwarder.mute_step h⟩

omit [DecidableEq D] in
theorem evolves_onUdpData (hf : f.Calm retries) {d : D} (hd : arrives d) :
    Evolves T retries arrives f (f.onUdpData T d) where
  calm := ⟨hf.writer, hf.starting⟩
  steps := Relation.ReflTransGen.single (DataPath.Step.feed _ d hd)
  mute := Forwarder.mute_onUdpData f d

omit [DecidableEq D] in
theorem fresh_start {outcome : StartOutcome B} (h : Forwarder.start role outcome = some f) :
    Fresh f.toDataPath ∧ f.Calm retries := by
  cases outcome with
  | completed tcpOpen buffer alive =>
    cases h
    cases tcpOpen with
    | true => exact ⟨fresh_started role buffer alive, Forwarder.calm_started role retries buffer alive⟩
    | false =>
      have hcalm := Forwarder.calm_started (α := α) (D := D) role retries buffer alive
      exact ⟨fresh_started role buffer alive, Forwarder.Calm.of_writer rfl hcalm.writer⟩
  | _ => cases h

end Evolves

omit [DecidableEq D] in
theorem steps_mono {again again' : Prop} {X Y : D → Prop} (hagain : again → again')
    (hXY : ∀ d, X d → Y d) {p q : DataPath α D B} (h : DataPath.Steps T again X p q) :
    DataPath.Steps T again' Y p q := by
  refine Relation.ReflTransGen.mono ?_ _ _ h
  intro p q hs
  cases hs with
  | tcpToKcp chunk hl => exact .tcpToKcp _ chunk hl
  | feed d hd => exact .feed _ d (hXY d hd)
  | update current isOpen => exact .update _ current isOpen
  | recv hp => exact .recv _ hp
  | transfer n => exact .transfer _ n
  | rewrite hr => exact .rewrite _ (hagain hr)

variable {retries : E → Prop}

section Grows
variable {unasked : Prop} {sentTo : Nat → E → D → Prop} {l : List (Session E α D B)}
  {feeds : List (Nat × Nat)} {role : Role} {f : Forwarder α D B}

omit [DecidableEq E] [DecidableEq D] in
/-- A coroutine is resumed, not by a datagram. -/
theorem grows_quiet (hc : Calms retries l) {i : Nat} {x : Session E α D B} (hx : l[i]? = some x)
    {e : Event α D} (hagain : e = .writeAgain → retries x.endpoint) (hnone : e.datagram = none)
    (h : x.forwarder.step T role e = some f) :
    Grows T retries unasked sentTo l feeds (l.modify i (fun x => { x with forwarder := f })) feeds := by
  have harr : ∀ d, e.datagram = some d → ∃ p ∈ (none : Option (Nat × D)), p.2 = d := by
    intro d hd
    rw [hnone] at hd
    cases hd
  have hgrows : Grows T retries unasked sentTo l feeds _ _ :=
    .evolves none hx (fun _ h => nomatch h) (evolves_step (hc i x hx) hagain harr h)
  rwa [Option.map_none, Option.toList_none, List.append_nil] at hgrows

omit [DecidableEq E] [DecidableEq D] in
/-- A forwarder is fed a datagram and goes on to `f`. -/
theorem grows_fed {i j : Nat} {x : Session E α D B} (hx : l[i]? = some x) {d : D}
    (hsent : sentTo j x.endpoint d)
    (hf : Evolves T (retries x.endpoint) (· = d) x.forwarder f) :
    Grows T retries unasked sentTo l feeds (l.modify i (fun x => { x with forwarder := f }))
      (feeds ++ [(i, j)]) := by
  refine Grows.evolves (some (j, d)) hx ?_ ⟨hf.calm, steps_mono id ?_ hf.steps, hf.mute⟩
  · rintro p hp
    cases hp
    exact hsent
  · rintro d' rfl
    exact ⟨_, rfl, rfl⟩

end Grows

omit [DecidableEq E] [DecidableEq D] in
theorem stepClient_eq {c : Nat} {e : Event α D} (h : w.stepClient T c e = some w') :
    ∃ x f, w.clients[c]? = some x ∧ x.forwarder.step T .client e = some f ∧
      w' = { w with clients := w.clients.modify c (fun x => { x with forwarder := f }) } := by
  unfold stepClient at h
  cases hx : w.clients[c]? with
  | none =>
    rw [hx] at h
    cases h
  | some x =>
    rw [hx] at h
    obtain ⟨f, hf, rfl⟩ := Option.map_eq_some_iff.mp h
    exact ⟨x, f, rfl, hf, rfl⟩

/-- A client receives a datagram. -/
theorem step_toClient {i c : Nat} {d : D} (h : step T w (.toClient i c d) = some w') :
    ∃ x f, w.clients[c]? = some x ∧ SentTo w.server.sessions i x.endpoint d ∧
      x.forwarder.step T .client (.udpData d) = some f ∧
      w' = { w with
        clients := w.clients.modify c (fun x => { x with forwarder := f })
        down := w.down ++ [(c, i)] } := by
  cases hx : w.clients[c]? with
  | none =>
    rw [step, hx] at h
    cases h
  | some x =>
    rw [step, hx] at h
    obtain ⟨hsent, h⟩ := Option.ite_none_right_eq_some.mp h
    obtain ⟨w₁, h₁, rfl⟩ := Option.map_eq_some_iff.mp h
    obtain ⟨y, f, hy, hf, rfl⟩ := stepClient_eq h₁
    cases hx.symm.trans hy
    exact ⟨x, f, rfl, hsent, hf, rfl⟩

/-- The accept coroutine receives a datagram. -/
theorem step_toServer {c : Nat} {d : D} {outcome : StartOutcome B}
    (h : step T w (.toServer c d outcome) = some w') :
    ∃ x, w.clients[c]? = some x ∧ SentTo w.clients c x.endpoint d ∧
      w.server.step T (.datagram x.endpoint d outcome) = some w'.server ∧
      w'.clients = w.clients ∧ w'.down = w.down ∧
      w'.up = if w.server.receiver x.endpoint < w'.server.sessions.length then
        w.up ++ [(w.server.receiver x.endpoint, c)] else w.up := by
  cases hx : w.clients[c]? with
  | none =>
    rw [step, hx] at h
    cases h
  | some x =>
    rw [step, hx] at h
    obtain ⟨hd, h⟩ := Option.ite_none_right_eq_some.mp h
    obtain ⟨s, hs, rfl⟩ := Option.map_eq_some_iff.mp h
    exact ⟨x, rfl, ⟨x, hx, rfl, hd⟩, hs, rfl, rfl, rfl⟩

/-- A session receives a datagram. -/
theorem step_toSession {c i : Nat} {d : D} (h : step T w (.toSession c i d) = some w') :
    ∃ x, w.server.sessions[i]? = some x ∧ SentTo w.clients c x.endpoint d ∧
      w.server.step T (.forwarder i (.udpData d)) = some w'.server ∧
      w' = { w with server := w'.server, up := w.up ++ [(i, c)] } := by
  cases hx : w.server.sessions[i]? with
  | none =>
    rw [step, hx] at h
    cases h
  | some x =>
    rw [step, hx] at h
    obtain ⟨hsent, h⟩ := Option.ite_none_right_eq_some.mp h
    obtain ⟨s, hs, rfl⟩ := Option.map_eq_some_iff.mp h
    exact ⟨x, rfl, hsent, hs, rfl⟩

/-- The server takes a step of its own, or none. -/
theorem server_step {a : ProxyEvent E α D B} (h : step T w a = some w') :
    w'.server = w.server ∨ ∃ b, w.server.step T b = some w'.server := by
  cases a with
  | connect e outcome =>
    obtain ⟨-, h⟩ := Option.ite_none_right_eq_some.mp h
    split at h <;> cases h <;> exact Or.inl rfl
  | client c e =>
    obtain ⟨-, h⟩ := Option.ite_none_right_eq_some.mp h
    obtain ⟨x, f, -, -, rfl⟩ := stepClient_eq h
    exact Or.inl rfl
  | toClient i c d =>
    obtain ⟨x, f, -, -, -, rfl⟩ := step_toClient h
    exact Or.inl rfl
  | server b =>
    obtain ⟨-, h⟩ := Option.ite_none_right_eq_some.mp h
    obtain ⟨s, hs, rfl⟩ := Option.map_eq_some_iff.mp h
    exact Or.inr ⟨b, hs⟩
  | toServer c d outcome =>
    obtain ⟨x, -, -, hs, -⟩ := step_toServer h
    exact Or.inr ⟨_, hs⟩
  | toSession c i d =>
    obtain ⟨x, -, -, hs, -⟩ := step_toSession h
    exact Or.inr ⟨_, hs⟩

/-- **What an event does to the clients.** -/
theorem grows_clients (hc : Calms (fun _ => True) w.clients) {a : ProxyEvent E α D B}
    (h : step T w a = some w') :
    Grows T (fun _ => True) True (SentTo w.server.sessions) w.clients w.down w'.clients w'.down := by
  cases a with
  | connect e outcome =>
    obtain ⟨-, h⟩ := Option.ite_none_right_eq_some.mp h
    cases hf : Forwarder.start (α := α) (D := D) .client outcome with
    | none =>
      rw [hf] at h
      cases h
      exact .stays
    | some f =>
      rw [hf] at h
      cases h
      obtain ⟨hfresh, hcalm⟩ : Fresh f.toDataPath ∧ f.Calm True := fresh_start hf
      have hborn : Grows T (fun _ => True) True (SentTo w.server.sessions) w.clients w.down
          (w.clients ++ [⟨e, f⟩]) _ :=
        .born none (fun _ => trivial) hfresh (fun _ h => nomatch h)
          ⟨hcalm, Relation.ReflTransGen.refl, ⟨id, fun _ => rfl⟩⟩
      rwa [Option.map_none, Option.toList_none, List.append_nil] at hborn
  | client c e =>
    obtain ⟨hnone, h⟩ := Option.ite_none_right_eq_some.mp h
    obtain ⟨x, f, hx, hf, rfl⟩ := stepClient_eq h
    exact grows_quiet hc hx (fun _ => trivial) (Option.isNone_iff_eq_none.mp hnone) hf
  | toClient i c d =>
    obtain ⟨x, f, hx, hsent, hf, rfl⟩ := step_toClient h
    refine grows_fed hx hsent (evolves_step (e := .udpData d) (hc c x hx) (fun h => nomatch h) ?_ hf)
    exact fun d' hd => (Option.some.inj hd).symm
  | server a =>
    obtain ⟨-, h⟩ := Option.ite_none_right_eq_some.mp h
    obtain ⟨s, -, rfl⟩ := Option.map_eq_some_iff.mp h
    exact .stays
  | toServer c d outcome =>
    obtain ⟨x, -, -, -, hclients, hdown, -⟩ := step_toServer h
    rw [hclients, hdown]
    exact .stays
  | toSession c i d =>
    obtain ⟨x, -, -, -, hw⟩ := step_toSession h
    rw [hw]
    exact .stays

/-- A datagram that `UdpAcceptCoroutine` receives feeds the session of its sender, or starts
one. -/
theorem grows_toServer (hs : w.server.Ok) (hc : Calms retries w.server.sessions) {c : Nat} {d : D}
    {outcome : StartOutcome B} (h : step T w (.toServer c d outcome) = some w') :
    Grows T retries False (SentTo w.clients) w.server.sessions w.up w'.server.sessions w'.up := by
  obtain ⟨x, hx, hsent, hstep, -, -, hup⟩ := step_toServer h
  obtain ⟨-, haccept⟩ := Option.ite_none_right_eq_some.mp hstep
  have hserver : w'.server = w.server.accept T x.endpoint d outcome :=
    (Option.some.inj haccept).symm
  rw [hup, hserver]
  cases he : w.server.forwarderMap x.endpoint with
  | none =>
    cases hf : Forwarder.start (α := α) (D := D) .server outcome with
    | none =>
      -- `Start` has failed, and nobody is fed
      rw [FlexServer.accept_failed he d hf, FlexServer.sessions_destruct, if_neg]
      · exact .stays
      · rw [FlexServer.receiver, he]
        exact Nat.lt_irrefl _
    | some f =>
      obtain ⟨hfresh, hcalm⟩ : Fresh f.toDataPath ∧ f.Calm (retries x.endpoint) := fresh_start hf
      rw [FlexServer.accept_new he d hf, FlexServer.sessions_enrol he,
        FlexServer.receiver, he, Option.getD_none, List.length_append, List.length_singleton,
        if_pos (Nat.lt_succ_self _)]
      refine Grows.born (some (c, d)) (Option.some_ne_none _) hfresh ?_
        (evolves_onUdpData hcalm ⟨_, rfl, rfl⟩)
      rintro p hp
      cases hp
      exact hsent
  | some i =>
    obtain ⟨y, hy, hye, -, haccept⟩ := FlexServer.accept_known (T := T) hs.table he d outcome
    have hlt : i < (w.server.put i (y.forwarder.onUdpData T d)).sessions.length := by
      rw [FlexServer.put, List.length_modify]
      exact (List.getElem?_eq_some_iff.mp hy).1
    rw [haccept, FlexServer.receiver, he, Option.getD_some, if_pos hlt]
    exact grows_fed hy (hye ▸ hsent) (evolves_onUdpData (hc i y hy) rfl)

/-- **What an event does to the sessions.** -/
theorem grows_sessions (hs : w.server.Ok) (hc : Calms retries w.server.sessions)
    {a : ProxyEvent E α D B} (hagain : w.RetriesAt retries a) (h : step T w a = some w') :
    Grows T retries False (SentTo w.clients) w.server.sessions w.up w'.server.sessions w'.up := by
  cases a with
  | connect e outcome =>
    obtain ⟨-, h⟩ := Option.ite_none_right_eq_some.mp h
    split at h <;> cases h <;> exact .stays
  | client c e =>
    obtain ⟨-, h⟩ := Option.ite_none_right_eq_some.mp h
    obtain ⟨x, f, -, -, rfl⟩ := stepClient_eq h
    exact .stays
  | toClient i c d =>
    obtain ⟨x, f, -, -, -, rfl⟩ := step_toClient h
    exact .stays
  | server a =>
    obtain ⟨hnone, h⟩ := Option.ite_none_right_eq_some.mp h
    obtain ⟨s, hstep, rfl⟩ := Option.map_eq_some_iff.mp h
    cases a with
    | forwarder i e =>
      obtain ⟨-, x, f, hx, -, hf, rfl⟩ := FlexServer.step_forwarder hstep
      rw [FlexServer.sessions_collect]
      have hretries : e = .writeAgain → retries x.endpoint := by
        rintro rfl
        exact hagain x hx
      exact grows_quiet hc hx hretries (Option.isNone_iff_eq_none.mp hnone) hf
    | datagram e d outcome => cases hnone
    | _ =>
      obtain ⟨-, hstep⟩ := Option.ite_none_right_eq_some.mp hstep
      cases hstep
      exact .stays
  | toServer c d outcome => exact grows_toServer hs hc h
  | toSession c i d =>
    obtain ⟨x, hx, hsent, hstep, hw⟩ := step_toSession h
    obtain ⟨-, y, f, hy, -, hf, hserver⟩ := FlexServer.step_forwarder hstep
    cases hx.symm.trans hy
    rw [hw, hserver, FlexServer.sessions_collect]
    have hretries : (.udpData d : Event α D) = .writeAgain → retries x.endpoint := by
      intro h
      cases h
    exact grows_fed hx hsent
      (evolves_step (hc i x hx) hretries (fun d' hd => (Option.some.inj hd).symm) hf)

/-! ## One forwarder at a time -/

section Member
variable {unasked : Prop} {sentTo : Nat → E → D → Prop} {l l' : List (Session E α D B)}
  {feeds feeds' : List (Nat × Nat)}

omit [DecidableEq E] [DecidableEq D] in
/-- The forwarder in place `i` is as it was; or it has evolved from what it was, or from
a fresh one, and may have been fed. -/
theorem Grows.at_place (h : Grows T retries unasked sentTo l feeds l' feeds') {i : Nat}
    {x : Session E α D B} (hx : l'[i]? = some x) :
    (l[i]? = some x ∧ ∀ j, (i, j) ∈ feeds' ↔ (i, j) ∈ feeds) ∨
    ∃ (f₀ : Forwarder α D B) (fed : Option (Nat × D)), (∀ p ∈ fed, sentTo p.1 x.endpoint p.2) ∧
      Evolves T (retries x.endpoint) (fun d => ∃ p ∈ fed, p.2 = d) f₀ x.forwarder ∧
      (∀ j, (i, j) ∈ feeds' ↔ (i, j) ∈ feeds ∨ ∃ p ∈ fed, p.1 = j) ∧
      (l[i]? = some ⟨x.endpoint, f₀⟩ ∨
        i = l.length ∧ Fresh f₀.toDataPath ∧ (fed = none → unasked)) := by
  have hfeeds : ∀ (fed : Option (Nat × D)) (k j : Nat),
      (i, j) ∈ feeds ++ (fed.map (fun p => (k, p.1))).toList ↔
        (i, j) ∈ feeds ∨ (i = k ∧ ∃ p ∈ fed, p.1 = j) := by
    intro fed k j
    rw [List.mem_append]
    cases fed with
    | none => simp
    | some p => simp [Prod.ext_iff, eq_comm]
  cases h with
  | stays => exact Or.inl ⟨hx, fun _ => Iff.rfl⟩
  | @evolves k y f fed hy hsent hf =>
    by_cases hk : i = k
    · subst hk
      rw [List.getElem?_modify_eq, hy] at hx
      cases hx
      refine Or.inr ⟨y.forwarder, fed, hsent, hf, fun j => ?_, Or.inl hy⟩
      rw [hfeeds, and_iff_right rfl]
    · rw [List.getElem?_modify_ne _ _ (Ne.symm hk)] at hx
      refine Or.inl ⟨hx, fun j => ?_⟩
      rw [hfeeds]
      exact or_iff_left (fun h => hk h.1)
  | @born e f₀ f fed hfed fresh hsent hf =>
    by_cases hk : i < l.length
    · rw [List.getElem?_append_left hk] at hx
      refine Or.inl ⟨hx, fun j => ?_⟩
      rw [hfeeds]
      exact or_iff_left (fun h => absurd h.1 (Nat.ne_of_lt hk))
    · have hlen := (List.getElem?_eq_some_iff.mp hx).1
      rw [List.length_append, List.length_singleton] at hlen
      have hi : i = l.length := by omega
      subst hi
      rw [List.getElem?_concat_length] at hx
      cases hx
      refine Or.inr ⟨f₀, fed, hsent, hf, fun j => ?_, Or.inr ⟨rfl, fresh, hfed⟩⟩
      rw [hfeeds, and_iff_right rfl]

omit [DecidableEq E] [DecidableEq D] in
theorem Grows.calms (h : Grows T retries unasked sentTo l feeds l' feeds') (hc : Calms retries l) :
    Calms retries l' := by
  intro i x hx
  rcases h.at_place hx with ⟨hx', -⟩ | ⟨f₀, fed, -, hf, -⟩
  · exact hc i x hx'
  · exact hf.calm

/-- What every forwarder sends are copies of what it has numbered. -/
def Speakers (Carries : D → List (WireSeg α) → Prop) (l : List (Session E α D B)) : Prop :=
  ∀ (i : Nat) (x : Session E α D B), l[i]? = some x → Speaker Carries x.forwarder.toDataPath

omit [DecidableEq E] [DecidableEq D] in
theorem Grows.speakers {Carries : D → List (WireSeg α) → Prop} (hT : Lawful T Carries)
    (h : Grows T retries unasked sentTo l feeds l' feeds') (hl : Speakers Carries l) :
    Speakers Carries l' := by
  intro i x hx
  rcases h.at_place hx with ⟨hx', -⟩ | ⟨f₀, fed, -, hf, -, hbefore⟩
  · exact hl i x hx'
  · refine speaker_steps hT ?_ hf.steps
    rcases hbefore with hx' | ⟨-, hfresh, -⟩
    · exact hl i _ hx'
    · exact hfresh.speaker

omit [DecidableEq E] [DecidableEq D] in
/-- A forwarder stays where it is, and goes on from what it was. -/
theorem Grows.stays_at (h : Grows T retries unasked sentTo l feeds l' feeds') {i : Nat}
    {x : Session E α D B} (hx : l[i]? = some x) :
    ∃ x', l'[i]? = some x' ∧ x'.endpoint = x.endpoint ∧
      DataPath.Steps T (retries x.endpoint) (fun _ => True) x.forwarder.toDataPath
        x'.forwarder.toDataPath ∧
      (x.forwarder.Connected → x'.forwarder.Connected) := by
  have hlt : i < l.length := (List.getElem?_eq_some_iff.mp hx).1
  cases h with
  | stays => exact ⟨x, hx, rfl, Relation.ReflTransGen.refl, id⟩
  | @evolves k y f fed hy hsent hf =>
    by_cases hk : i = k
    · subst hk
      cases hx.symm.trans hy
      refine ⟨{ x with forwarder := f }, ?_, rfl, steps_mono id (fun _ _ => trivial) hf.steps,
        hf.mute.connected⟩
      rw [List.getElem?_modify_eq, hx]
      rfl
    · refine ⟨x, ?_, rfl, Relation.ReflTransGen.refl, id⟩
      rw [List.getElem?_modify_ne _ _ (Ne.symm hk)]
      exact hx
  | born fed hfed fresh hsent hf =>
    refine ⟨x, ?_, rfl, Relation.ReflTransGen.refl, id⟩
    rw [List.getElem?_append_left hlt]
    exact hx

end Member

/-! ## Runs -/

/-- What holds in every run in which sessions retry their writes at the endpoints that
`retries` allows only. -/
structure Sound (retries : E → Prop) (w : Proxy E α D B) : Prop where
  server : w.server.Ok
  clients : Calms (fun _ => True) w.clients
  sessions : Calms retries w.server.sessions

omit [DecidableEq E] [DecidableEq D] in
theorem sound_started (memory : Nat → Bool × Nat) :
    (started memory : Proxy E α D B).Sound retries where
  server := FlexServer.ok_started memory
  clients _ _ hx := nomatch hx
  sessions _ _ hx := nomatch hx

theorem sound_step (hw : w.Sound retries) {a : ProxyEvent E α D B}
    (hagain : w.RetriesAt retries a) (h : step T w a = some w') : w'.Sound retries where
  server := by
    rcases server_step h with hsame | ⟨b, hb⟩
    · rw [hsame]
      exact hw.server
    · exact FlexServer.ok_step hw.server hb
  clients := (grows_clients hw.clients h).calms hw.clients
  sessions := (grows_sessions hw.server hw.sessions hagain h).calms hw.sessions

theorem sound_exec {memory : Nat → Bool × Nat} {run : List (ProxyEvent E α D B)}
    (h : exec (step T) (started memory) run = some w) : w.Sound (fun _ => True) :=
  exec_invariant (fun v a _ hv hstep => sound_step hv (retriesAt_of_forall (fun _ => trivial) v a) hstep)
    (sound_started memory) h

/-- The same over a lawful transport. -/
structure Steady (retries : E → Prop) (Carries : D → List (WireSeg α) → Prop) (w : Proxy E α D B) :
    Prop extends Sound retries w where
  clientsSpeak : Speakers Carries w.clients
  sessionsSpeak : Speakers Carries w.server.sessions

omit [DecidableEq E] [DecidableEq D] in
theorem steady_started {Carries : D → List (WireSeg α) → Prop} (memory : Nat → Bool × Nat) :
    (started memory : Proxy E α D B).Steady retries Carries where
  toSound := sound_started memory
  clientsSpeak _ _ hx := nomatch hx
  sessionsSpeak _ _ hx := nomatch hx

theorem steady_step {Carries : D → List (WireSeg α) → Prop} (hT : Lawful T Carries)
    (hw : w.Steady retries Carries) {a : ProxyEvent E α D B} (hagain : w.RetriesAt retries a)
    (h : step T w a = some w') : w'.Steady retries Carries where
  toSound := sound_step hw.toSound hagain h
  clientsSpeak := (grows_clients hw.clients h).speakers hT hw.clientsSpeak
  sessionsSpeak := (grows_sessions hw.server hw.sessions hagain h).speakers hT hw.sessionsSpeak

end Proxy
end FlexProxy
