import FlexProxy.Datagram
import FlexProxy.Proxy

/-! # Which TCP connections are joined

A session is known by the UDP endpoint of its client only.  The two ends are torn
down without telling each other, and every control block has the same `conv`, so a
new control block on one end may meet an old one on the other: the bytes of two TCP
connections then end up in one (`paired_fails`).

As long as that does not happen, that is, as long as each forwarder is fed by one
forwarder of the other side only (`OnePeer`), the connections are paired
(`paired_of_onePeer`).
-/
namespace FlexProxy
open TransitionSystem

namespace Proxy
variable {E α D B : Type} [DecidableEq E] [DecidableEq D] {T : Transport α D B}
  {Carries : D → List (WireSeg α) → Prop} {unasked : Prop}

/-! ## The property -/

/-- The bytes that forwarder `i` of a side has read from its TCP connection. -/
def readOf (l : List (Session E α D B)) (i : Nat) : List α :=
  match l[i]? with
  | some x => x.forwarder.read.flatten
  | none => []

omit [DecidableEq E] [DecidableEq D] in
theorem readOf_eq {l : List (Session E α D B)} {i : Nat} {x : Session E α D B} (h : l[i]? = some x) :
    readOf l i = x.forwarder.read.flatten := by
  rw [readOf, h]

omit [DecidableEq E] [DecidableEq D] in
theorem readOf_eq_getD (l : List (Session E α D B)) (i : Nat) :
    readOf l i = ((l.map (fun x => x.forwarder.read))[i]?.getD []).flatten := by
  rw [readOf, List.getElem?_map]
  cases l[i]? <;> rfl

/-- All bytes that a forwarder of one side has written to its TCP connection were read
from one single TCP connection of the other side. -/
def OneSource (writers readers : List (Session E α D B)) : Prop :=
  ∀ (c : Nat) (x : Session E α D B), writers[c]? = some x →
    ∃ i, ∀ b ∈ x.forwarder.written, b ∈ readOf readers i

/-- The TCP connections are paired. -/
def Paired (w : Proxy E α D B) : Prop :=
  OneSource w.clients w.server.sessions ∧ OneSource w.server.sessions w.clients

/-- So far forwarder `c` of a side has been fed by no other than `i`. -/
def FedOnlyBy (feeds : List (Nat × Nat)) (c i : Nat) : Prop := ∀ p ∈ feeds, p.1 = c → p.2 = i

instance (feeds : List (Nat × Nat)) (c i : Nat) : Decidable (FedOnlyBy feeds c i) :=
  inferInstanceAs (Decidable (∀ p ∈ feeds, p.1 = c → p.2 = i))

/-- The forwarder that receives a datagram has been fed by no other than its sender. -/
def OnePeer (w : Proxy E α D B) : ProxyEvent E α D B → Prop
  | .toClient i c _ => FedOnlyBy w.down c i
  | .toServer c _ _ => ∀ x ∈ w.clients[c]?, FedOnlyBy w.up (w.server.receiver x.endpoint) c
  | .toSession c i _ => FedOnlyBy w.up i c
  | _ => True

instance (w : Proxy E α D B) : DecidablePred (OnePeer w)
  | .toClient i c _ => inferInstanceAs (Decidable (FedOnlyBy w.down c i))
  | .toServer c _ _ =>
    inferInstanceAs (Decidable (∀ x ∈ w.clients[c]?, FedOnlyBy w.up (w.server.receiver x.endpoint) c))
  | .toSession c i _ => inferInstanceAs (Decidable (FedOnlyBy w.up i c))
  | .connect _ _ => isTrue trivial
  | .client _ _ => isTrue trivial
  | .server _ => isTrue trivial

/-! ## Where the bytes of a side come from -/

/-- The forwarders `writers` hold and have written only bytes of the forwarders that have
fed them. -/
def Ingests (readers writers : List (Session E α D B)) (feeds : List (Nat × Nat)) : Prop :=
  ∀ (c : Nat) (x : Session E α D B), writers[c]? = some x → ∀ i, FedOnlyBy feeds c i →
    DrawnFrom (· ∈ readOf readers i) x.forwarder.toDataPath

variable {readers readers' writers writers' : List (Session E α D B)} {feeds feeds' : List (Nat × Nat)}

omit [DecidableEq E] [DecidableEq D] in
/-- **One event on the writers' side.** -/
theorem ingests_grows (hT : Lawful T Carries) (hr : Speakers Carries readers)
    (hspeak : Speakers Carries writers) (h : Ingests readers writers feeds)
    (hg : Grows T (fun _ => True) unasked (SentTo readers) writers feeds writers' feeds') :
    Ingests readers writers' feeds' := by
  intro c x hx i hi
  rcases hg.at_place hx with ⟨hx', hfeeds⟩ | ⟨f₀, fed, hsent, hf, hfeeds, hbefore⟩
  · refine h c x hx' i ?_
    rintro ⟨c', j⟩ hj rfl
    exact hi _ ((hfeeds j).mpr hj) rfl
  · have honly : FedOnlyBy feeds c i := by
      rintro ⟨c', j⟩ hj rfl
      exact hi _ ((hfeeds j).mpr (Or.inl hj)) rfl
    obtain ⟨hsender, hdrawn⟩ :
        Sender f₀.toDataPath ∧ DrawnFrom (· ∈ readOf readers i) f₀.toDataPath := by
      rcases hbefore with hx' | ⟨-, hfresh, -⟩
      · exact ⟨(hspeak c _ hx').toSender, h c _ hx' i honly⟩
      · exact ⟨hfresh.sender, hfresh.drawnFrom⟩
    refine drawnFrom_steps hT hsender hdrawn ?_ hf.steps
    -- the datagram it is fed was sent by forwarder `i`
    rintro d ⟨p, hp, rfl⟩
    obtain ⟨y, hy, -, hd⟩ := hsent p hp
    have hpi : p.1 = i := hi (c, p.1) ((hfeeds p.1).mpr (Or.inr ⟨p, hp, rfl⟩)) rfl
    have hread := (hr p.1 y hy).mem_read hd
    rw [← hpi]
    rwa [← readOf_eq hy] at hread

omit [DecidableEq E] [DecidableEq D] in
/-- **One event on the readers' side.** -/
theorem ingests_mono {retries : E → Prop} {sentTo : Nat → E → D → Prop} {fs fs' : List (Nat × Nat)}
    (h : Ingests readers writers feeds)
    (hg : Grows T retries unasked sentTo readers fs readers' fs') :
    Ingests readers' writers feeds := by
  intro c x hx i hi
  refine (h c x hx i hi).mono (fun b hb => ?_)
  cases hy : readers[i]? with
  | none =>
    rw [readOf, hy] at hb
    cases hb
  | some y =>
    rw [readOf_eq hy] at hb
    obtain ⟨y', hy', -, hsteps, -⟩ := hg.stays_at hy
    obtain ⟨more, hmore⟩ := read_append_steps hsteps
    rw [readOf_eq hy', hmore, List.flatten_append]
    exact List.mem_append_left _ hb

/-! ## Who is fed by whom -/

/-- Nobody has been fed by two forwarders. -/
def FedByOne (feeds : List (Nat × Nat)) : Prop :=
  ∀ c i j, (c, i) ∈ feeds → (c, j) ∈ feeds → i = j

theorem fedByOne_append (h : FedByOne feeds) {c i : Nat} (hi : FedOnlyBy feeds c i) :
    FedByOne (feeds ++ [(c, i)]) := by
  intro c' j k hj hk
  rw [List.mem_append, List.mem_singleton] at hj hk
  rcases hj with hj | hj <;> rcases hk with hk | hk
  · exact h c' j k hj hk
  · cases hk
    exact hi _ hj rfl
  · cases hj
    exact (hi _ hk rfl).symm
  · cases hj
    cases hk
    rfl

theorem fedByOne_step {w w' : Proxy E α D B} (hdown : FedByOne w.down) (hup : FedByOne w.up)
    {a : ProxyEvent E α D B} (ha : OnePeer w a) (h : step T w a = some w') :
    FedByOne w'.down ∧ FedByOne w'.up := by
  cases a with
  | connect e outcome =>
    obtain ⟨-, h⟩ := Option.ite_none_right_eq_some.mp h
    split at h <;> cases h <;> exact ⟨hdown, hup⟩
  | client c e =>
    obtain ⟨-, h⟩ := Option.ite_none_right_eq_some.mp h
    obtain ⟨x, f, -, -, rfl⟩ := stepClient_eq h
    exact ⟨hdown, hup⟩
  | toClient i c d =>
    obtain ⟨x, f, -, -, -, rfl⟩ := step_toClient h
    exact ⟨fedByOne_append hdown ha, hup⟩
  | server a =>
    obtain ⟨-, h⟩ := Option.ite_none_right_eq_some.mp h
    obtain ⟨s, -, rfl⟩ := Option.map_eq_some_iff.mp h
    exact ⟨hdown, hup⟩
  | toServer c d outcome =>
    obtain ⟨x, hx, -, -, -, hdown', hup'⟩ := step_toServer h
    rw [hdown', hup']
    refine ⟨hdown, ?_⟩
    split
    · exact fedByOne_append hup (ha x hx)
    · exact hup
  | toSession c i d =>
    obtain ⟨x, -, -, -, hw⟩ := step_toSession h
    rw [hw]
    exact ⟨hdown, fedByOne_append hup ha⟩

/-! ## Every run -/

/-- What holds in runs in which each forwarder is fed by one only. -/
structure Separate (Carries : D → List (WireSeg α) → Prop) (w : Proxy E α D B) : Prop where
  steady : w.Steady (fun _ => True) Carries
  clients : Ingests w.server.sessions w.clients w.down
  sessions : Ingests w.clients w.server.sessions w.up
  down : FedByOne w.down
  up : FedByOne w.up

omit [DecidableEq E] [DecidableEq D] in
theorem separate_started (memory : Nat → Bool × Nat) :
    Separate Carries (started memory : Proxy E α D B) where
  steady := steady_started memory
  clients _ _ hx := nomatch hx
  sessions _ _ hx := nomatch hx
  down _ _ _ h := nomatch h
  up _ _ _ h := nomatch h

theorem separate_step (hT : Lawful T Carries) {w w' : Proxy E α D B} (hw : Separate Carries w)
    {a : ProxyEvent E α D B} (ha : OnePeer w a) (h : step T w a = some w') :
    Separate Carries w' := by
  obtain ⟨hs, hclients, hsessions, hdown, hup⟩ := hw
  have hagain : w.RetriesAt (fun _ => True) a := retriesAt_of_forall (fun _ => trivial) w a
  have hgc := grows_clients hs.clients h
  have hgs := grows_sessions hs.server hs.sessions hagain h
  obtain ⟨hdown', hup'⟩ := fedByOne_step hdown hup ha h
  refine ⟨steady_step hT hs hagain h, ?_, ?_, hdown', hup'⟩
  · exact ingests_mono (ingests_grows hT hs.sessionsSpeak hs.clientsSpeak hclients hgc) hgs
  · exact ingests_mono (ingests_grows hT hs.clientsSpeak hs.sessionsSpeak hsessions hgs) hgc

omit [DecidableEq E] [DecidableEq D] in
theorem oneSource_of_ingests (h : Ingests readers writers feeds) (hone : FedByOne feeds) :
    OneSource writers readers := by
  intro c x hx
  by_cases hfed : ∃ i, (c, i) ∈ feeds
  · obtain ⟨i, hi⟩ := hfed
    refine ⟨i, (h c x hx i ?_).written⟩
    rintro ⟨c', j⟩ hj rfl
    exact hone c' j i hj hi
  · refine ⟨0, (h c x hx 0 ?_).written⟩
    rintro ⟨c', j⟩ hj rfl
    exact absurd ⟨j, hj⟩ hfed

/-- **The TCP connections are paired in every run in which each forwarder is fed by one
forwarder of the other side only.**  The bytes are of any type, so they may carry the
connection they were read from. -/
theorem paired_of_onePeer (hT : Lawful T Carries) (memory : Nat → Bool × Nat)
    (run : List (ProxyEvent E α D B)) (w : Proxy E α D B)
    (hrun : exec (step T) (started memory) run = some w)
    (hone : Along (step T) OnePeer (started memory) run) : w.Paired := by
  have hw : Separate Carries w := exec_invariant_of
    (fun _ _ _ hs hp h => separate_step hT hs hp h) (separate_started memory) hone hrun
  exact ⟨oneSource_of_ingests hw.clients hw.down, oneSource_of_ingests hw.sessions hw.up⟩

/-! ## A session that expires -/

/-- Client 0 and session 0 exchange a byte. -/
def firstSession : List (ProxyEvent Nat UInt8 (List UInt8) (List UInt8)) :=
  [.connect 0 (.completed true [] true), .client 0 .readerRun, .client 0 (.tcpData [1]),
    .client 0 .feederRun, .client 0 (.writerRun 0),
    .toServer 0 (datagramOf [segmentOf 81 1024 0 0 0 [1]]) (.completed true [] true),
    .server (.forwarder 0 .connected), .server (.forwarder 0 .readerRun),
    .server (.forwarder 0 (.tcpData [10])), .server (.forwarder 0 (.writerRun 0)),
    .toClient 0 0 (datagramOf [segmentOf 82 1023 0 0 1 [], segmentOf 81 1023 0 0 1 [10]]),
    .client 0 (.tick 10), .client 0 (.transfer 1), .client 0 .writeOk]

/-- Session 0 is idle for two periods of its timer, stops, and is destroyed. -/
def firstExpires : List (ProxyEvent Nat UInt8 (List UInt8) (List UInt8)) :=
  [.server (.forwarder 0 .timerRun), .server (.forwarder 0 .expire), .server (.forwarder 0 .expire),
    .server (.forwarder 0 .tcpReadError), .server (.forwarder 0 .feederRun),
    .server (.forwarder 0 .writeError)]

/-- The client goes on, and gets session 1.  It has received number 0 already, so it
takes number 1 of the new session for what comes next. -/
def secondSession : List (ProxyEvent Nat UInt8 (List UInt8) (List UInt8)) :=
  [.client 0 (.tcpData [2]), .client 0 (.tick 20),
    .toServer 0 (datagramOf [segmentOf 81 1024 20 1 1 [2]]) (.completed true [] true),
    .server (.forwarder 1 .connected), .server (.forwarder 1 .readerRun),
    .server (.forwarder 1 (.tcpData [20])), .server (.forwarder 1 (.tcpData [21])),
    .server (.forwarder 1 (.writerRun 0)),
    .toClient 1 0 (datagramOf [segmentOf 82 1024 20 1 0 [], segmentOf 81 1024 0 0 0 [20],
      segmentOf 81 1024 0 1 0 [21]]),
    .client 0 (.tick 30), .client 0 (.transfer 1)]

theorem paired_of_onePeer_firstSession :
    ∃ w : Proxy Nat UInt8 (List UInt8) (List UInt8),
      exec (step (udp true)) (started FlexServer.zeroed) firstSession = some w ∧
      w.clients.map (fun x => x.forwarder.written) = [[10]] ∧ w.Paired := by
  have hobs : (exec (step (udp true)) (started FlexServer.zeroed) firstSession).map
      (fun w => w.clients.map (fun x => x.forwarder.written)) = some [[10]] := by
    decide +kernel
  have hone : Along (step (udp true)) OnePeer (started FlexServer.zeroed) firstSession := by
    decide +kernel
  obtain ⟨w, hrun, hwritten⟩ := Option.map_eq_some_iff.mp hobs
  exact ⟨w, hrun, hwritten,
    paired_of_onePeer (lawful_udp true) FlexServer.zeroed firstSession w hrun hone⟩

/-- One client, two sessions one after the other, and the client's TCP connection gets a
byte of each. -/
theorem paired_fails :
    ∃ w : Proxy Nat UInt8 (List UInt8) (List UInt8),
      exec (step (udp true)) (started FlexServer.zeroed)
        (firstSession ++ firstExpires ++ secondSession) = some w ∧
      w.clients.map (fun x => x.forwarder.written) = [[10, 21]] ∧
      w.server.sessions.map (fun x => x.forwarder.read) = [[[10]], [[20], [21]]] ∧ ¬ w.Paired := by
  have hobs : (exec (step (udp true)) (started FlexServer.zeroed)
      (firstSession ++ firstExpires ++ secondSession)).map
      (fun w => (w.clients.map (fun x => x.forwarder.written),
        w.server.sessions.map (fun x => x.forwarder.read))) =
        some ([[10, 21]], [[[10]], [[20], [21]]]) := by
    decide +kernel
  obtain ⟨w, hrun, hobs⟩ := Option.map_eq_some_iff.mp hobs
  obtain ⟨hwritten, hread⟩ := Prod.mk.inj hobs
  refine ⟨w, hrun, hwritten, hread, fun hpaired => ?_⟩
  obtain ⟨x, hx, hxw⟩ : ∃ x, w.clients[0]? = some x ∧ x.forwarder.written = [10, 21] := by
    have hzero := congrArg (·[0]?) hwritten
    simpa using hzero
  -- no single session has read both bytes
  obtain ⟨i, hi⟩ := hpaired.1 0 x hx
  rw [hxw] at hi
  have h10 := hi 10 (by decide)
  have h21 := hi 21 (by decide)
  rw [readOf_eq_getD, hread] at h10 h21
  rcases i with _ | _ | i
  · exact absurd h21 (by decide)
  · exact absurd h10 (by decide)
  · cases h10

end Proxy
end FlexProxy
