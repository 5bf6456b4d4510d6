import FlexProxy.Datagram
import FlexProxy.Lifecycle

/-! # Construction and destruction

A forwarder object is created by an accept coroutine, which holds the first
reference, calls `Start`, and lets its reference go.  The destructor asserts
`!isRunning_` and releases `kcpCb_`; it runs when the last reference goes, however
far `Start` got.

Neither member has an initialiser.  `isRunning_` is assigned by `Start` on the
client, but by the start coroutine, after the TCP connect, on the server;
`kcpCb_` is assigned at the end of what can fail in `Start`.  So a forwarder is
destroyed safely exactly if nothing failed before (`destroyed_safely_iff`).
-/
namespace FlexProxy
open TransitionSystem

/-- How the calls in `Start` end. -/
inductive StartOutcome (B : Type) where
  | udpOpenFailed
  | udpBindFailed
  | udpConnectFailed
  /-- `Start` returns true.  The server's start coroutine runs inside `Start` up to
  its first suspension: `tcpOpen` says whether it could open its TCP socket.  The
  others are what memory holds: the scratch buffer and `isKcpAlive_`. -/
  | completed (tcpOpen : Bool) (buffer : B) (isKcpAlive : Bool)

namespace StartOutcome
variable {B : Type}

/-- The client does not bind, and is handed its TCP socket. -/
def Possible (role : Role) : StartOutcome B → Prop
  | .udpBindFailed => role = .server
  | .completed tcpOpen _ _ => role = .server ∨ tcpOpen = true
  | _ => True

instance (role : Role) (outcome : StartOutcome B) : Decidable (outcome.Possible role) := by
  cases outcome <;> unfold Possible <;> infer_instance

/-- None of the calls fails. -/
def Succeeds : StartOutcome B → Prop
  | .completed tcpOpen _ _ => tcpOpen = true
  | _ => False

end StartOutcome

/-- `Start`: the forwarder it leaves, or `none` if it returns false. -/
def Forwarder.start {α D B : Type} (role : Role) : StartOutcome B → Option (Forwarder α D B)
  | .completed tcpOpen buffer isKcpAlive =>
    let f := Forwarder.started role buffer isKcpAlive
    some (if tcpOpen then f else f.abandon)
  | _ => none

/-- How far an object has got. -/
inductive Stage (α D B : Type) where
  | constructed
  /-- `Start` has returned false. -/
  | failed
  /-- `Start` has returned true. -/
  | started (f : Forwarder α D B)
  /-- The destructor has run; `passed` says whether its assertion held.  If it did not,
  the program was aborted there. -/
  | destroyed (passed : Bool)

/-- A forwarder object. -/
structure Object (α D B : Type) where
  stage : Stage α D B
  /-- `isRunning_` when the destructor ran, `none` if it had not been assigned -/
  wasRunning : Option Bool
  /-- `kcpCb_`, a block of memory; `none` until it is assigned -/
  kcpCb : Option Nat
  /-- The accept coroutine holds its reference. -/
  owned : Bool
  /-- The blocks `ikcp_create` has returned to this object. -/
  created : List Nat
  /-- The blocks it has passed to `ikcp_release`. -/
  released : List Nat

/-- What happens to an object. -/
inductive ObjectEvent (α D B : Type) where
  /-- `Start` is called; `block` is what `ikcp_create` returns. -/
  | start (outcome : StartOutcome B) (block : Nat)
  /-- `OnUdpData`, called by the accept coroutine that created it. -/
  | onUdpData (d : D)
  /-- The accept coroutine lets its reference go. -/
  | disown
  /-- A coroutine of the forwarder is resumed. -/
  | event (e : Event α D)

namespace Object
variable {α D B : Type} (T : Transport α D B) (role : Role) (garbage : Bool × Nat)

def constructed : Object α D B where
  stage := .constructed
  wasRunning := none
  kcpCb := none
  owned := true
  created := []
  released := []

/-- `isRunning_`, `none` if it has not been assigned -/
def isRunning (o : Object α D B) : Option Bool :=
  match o.stage with
  | .started f => f.isRunning
  | .destroyed _ => o.wasRunning
  | _ => none

/-- The destructor.  A member that has not been assigned holds `garbage`. -/
def destruct (o : Object α D B) : Object α D B :=
  let running := o.isRunning.getD garbage.1
  { o with
    stage := .destroyed (!running)
    wasRunning := o.isRunning
    released := if running then o.released else o.released ++ [o.kcpCb.getD garbage.2] }

/-- How many coroutines hold a reference. -/
def refs (o : Object α D B) : Nat :=
  match o.stage with
  | .started f => f.refs
  | _ => 0

/-- The destructor runs when the last reference is gone. -/
def collect (o : Object α D B) : Object α D B :=
  if o.owned = false ∧ o.refs = 0 then o.destruct garbage else o

/-- One event; `none` if it cannot happen. -/
def step (o : Object α D B) : ObjectEvent α D B → Option (Object α D B)
  | .start outcome block =>
    match o.stage with
    | .constructed =>
      if outcome.Possible role then
        some (match Forwarder.start role outcome with
          | some f => { o with stage := .started f, kcpCb := some block, created := o.created ++ [block] }
          | none => { o with stage := .failed })
      else none
    | _ => none
  | .onUdpData d =>
    match o.stage with
    | .started f =>
      if o.owned then
        some { o with stage := .started (f.onUdpData T d) }
      else none
    | _ => none
  | .disown =>
    match o.stage with
    | .constructed => none
    | .destroyed _ => none
    | _ => if o.owned then some ({ o with owned := false }.collect garbage) else none
  | .event e =>
    match o.stage with
    | .started f => (f.step T role e).map (fun f' => { o with stage := .started f' }.collect garbage)
    | _ => none

/-- The destructor has run. -/
def Destroyed (o : Object α D B) : Prop := ∃ passed, o.stage = .destroyed passed

/-- When the destructor ran both members had been assigned, `isRunning_` was false, and
the block that was created was released, once. -/
def DestroyedSafely (o : Object α D B) : Prop :=
  o.stage = .destroyed true ∧ o.wasRunning = some false ∧
    ∃ block, o.kcpCb = some block ∧ o.created = [block] ∧ o.released = [block]

/-- No call fails in `Start` or in the start coroutine. -/
def NothingFails : ObjectEvent α D B → Prop
  | .start outcome _ => outcome.Succeeds
  | .event e => e ≠ .connectFailed
  | _ => True

/-! ## The invariant -/

variable {T role garbage} {o o' : Object α D B} {f : Forwarder α D B}

/-- The start coroutine connects or has spawned the others. -/
def OnTheWay (f : Forwarder α D B) : Prop := f.starting = true ∨ f.Spawned

theorem life_start {outcome : StartOutcome B} (hp : outcome.Possible role)
    (h : Forwarder.start role outcome = some f) : f.Life role := by
  cases outcome with
  | completed tcpOpen buffer alive =>
    cases h
    cases tcpOpen with
    | true => exact Forwarder.life_started buffer alive
    | false =>
      -- only the server's start coroutine opens a socket
      rcases hp with rfl | hp
      · exact (Forwarder.life_started buffer alive).fails rfl rfl rfl rfl rfl rfl
      · cases hp
  | _ => cases h

theorem not_succeeds_of_start {outcome : StartOutcome B}
    (h : Forwarder.start (α := α) (D := D) role outcome = none) : ¬ outcome.Succeeds := by
  cases outcome with
  | completed tcpOpen buffer alive => cases h
  | _ => exact not_false

theorem onTheWay_start {outcome : StartOutcome B} (hp : outcome.Possible role)
    (h : Forwarder.start role outcome = some f) : OnTheWay f ↔ outcome.Succeeds := by
  cases outcome with
  | completed tcpOpen buffer alive =>
    cases h
    cases tcpOpen with
    | true =>
      refine iff_of_true ?_ rfl
      cases role with
      | client => exact Or.inr (fun h => nomatch h)
      | server => exact Or.inl rfl
    | false =>
      rcases hp with rfl | hp
      · refine iff_of_false ?_ (fun h => nomatch h)
        rintro (h | h)
        · cases h
        · exact h rfl
      · cases hp
  | _ => cases h

theorem onTheWay_step {e : Event α D} {f' : Forwarder α D B} (hf : f.Life role)
    (h : f.step T role e = some f') : OnTheWay f' ↔ OnTheWay f ∧ e ≠ .connectFailed := by
  -- a coroutine that ends had been spawned, and so had the others
  have hreturned : ∀ c, f.status c = .alive →
      f'.status = Function.update f.status c .returned → (OnTheWay f' ↔ OnTheWay f) := by
    intro c halive hstatus
    have hsp := hf.spawned_of_alive halive
    exact iff_of_true (Or.inr (fun h => hsp (Forwarder.unborn_of_returned hstatus h))) (Or.inr hsp)
  by_cases he : e = .connectFailed
  · subst he
    obtain ⟨hs, h⟩ := Option.ite_none_right_eq_some.mp h
    cases h
    refine ⟨fun h => ?_, fun h => absurd rfl h.2⟩
    rcases h with h | h
    · cases h
    · exact absurd h (hf.starting hs).2
  · refine Iff.trans ?_ (and_iff_left he).symm
    cases Forwarder.moves_of_step h with
    | stays status running starting refs stopped =>
      rw [OnTheWay, OnTheWay, Forwarder.Spawned, Forwarder.Spawned, starting, status]
    | ends c alive loop status running starting refs stopped => exact hreturned c alive status
    | stops c cause alive eof status running starting refs stopped => exact hreturned c alive status
    | connects before status running starting refs stopped =>
      refine iff_of_true (Or.inr ?_) (Or.inl before)
      rw [Forwarder.Spawned, status]
      intro h
      cases h
    | fails event before status running starting refs stopped => exact absurd event he

/-- What holds of an object of which nothing has failed, if `clean`, or something has,
if not. -/
def Sane (role : Role) (clean : Prop) (o : Object α D B) : Prop :=
  match o.stage with
  | .constructed => clean ∧ o.kcpCb = none ∧ o.created = [] ∧ o.released = []
  | .failed => ¬ clean ∧ o.kcpCb = none
  | .started f => f.Life role ∧ (OnTheWay f ↔ clean) ∧
    ∃ block, o.kcpCb = some block ∧ o.created = [block] ∧ o.released = []
  | .destroyed _ => o.DestroyedSafely ↔ clean

/-- The destructor of an object whose `Start` has returned false. -/
theorem sane_collect_failed {clean : Prop} (hs : o.stage = .failed) (hclean : ¬ clean)
    (hkcp : o.kcpCb = none) : Sane role clean (o.collect garbage) := by
  unfold collect
  split
  · refine iff_of_false ?_ hclean
    rintro ⟨-, -, block, hblock, -⟩
    cases hkcp.symm.trans hblock
  · rw [Sane, hs]
    exact ⟨hclean, hkcp⟩

/-- The destructor of a forwarder: if it is on its way when no coroutine holds a
reference, its coroutines have ended, and `isRunning_` is false. -/
theorem sane_collect_started {clean : Prop} (hs : o.stage = .started f) (hlife : f.Life role)
    (hclean : OnTheWay f ↔ clean)
    (hblock : ∃ block, o.kcpCb = some block ∧ o.created = [block] ∧ o.released = []) :
    Sane role clean (o.collect garbage) := by
  unfold collect
  split
  · rename_i hgone
    have hrunning : o.isRunning = f.isRunning := by rw [isRunning, hs]
    have hrefs : f.refs = 0 := by
      have h := hgone.2
      rwa [refs, hs] at h
    obtain ⟨block, hkcp, hcreated, hreleased⟩ := hblock
    show DestroyedSafely _ ↔ clean
    rw [← hclean]
    by_cases hsp : f.Spawned
    · -- all coroutines have ended, and the first of them called `Stop`
      have hfalse : o.isRunning = some false := by
        rw [hrunning]
        exact hlife.isRunning_of_refs hsp hrefs
      refine iff_of_true ⟨?_, hfalse, block, hkcp, hcreated, ?_⟩ (Or.inr hsp)
      · show Stage.destroyed (!o.isRunning.getD garbage.1) = _
        rw [hfalse]
        rfl
      · show (if o.isRunning.getD garbage.1 then _ else o.released ++ [o.kcpCb.getD garbage.2]) = _
        rw [hfalse, hkcp, hreleased]
        rfl
    · -- the connect has failed, and `isRunning_` was never assigned
      have hnone : f.isRunning = none := (hlife.unspawned hsp).2.1
      refine iff_of_false ?_ ?_
      · rintro ⟨-, hwas, -⟩
        have hwas : o.isRunning = some false := hwas
        rw [hrunning, hnone] at hwas
        cases hwas
      · rintro (h | h)
        · have hholds := hlife.refs
          rw [hrefs, h, if_pos rfl] at hholds
          omega
        · exact hsp h
  · rw [Sane, hs]
    exact ⟨hlife, hclean, hblock⟩

/-- **One event keeps an object sane.** -/
theorem sane_step {clean : Prop} (ho : Sane role clean o) {a : ObjectEvent α D B}
    (h : step T role garbage o a = some o') : Sane role (clean ∧ NothingFails a) o' := by
  cases a with
  | start outcome block =>
    cases hs : o.stage with
    | constructed =>
      rw [Sane, hs] at ho
      obtain ⟨hclean, hkcp, hcreated, hreleased⟩ := ho
      rw [step, hs] at h
      obtain ⟨hp, h⟩ := Option.ite_none_right_eq_some.mp h
      cases hf : Forwarder.start (α := α) (D := D) role outcome with
      | none =>
        rw [hf] at h
        cases h
        exact ⟨fun hc => not_succeeds_of_start hf hc.2, hkcp⟩
      | some f =>
        rw [hf] at h
        cases h
        refine ⟨life_start hp hf, ?_, block, rfl, ?_, hreleased⟩
        · rw [onTheWay_start hp hf]
          exact (and_iff_right hclean).symm
        · show o.created ++ [block] = _
          rw [hcreated]
          rfl
    | _ => rw [step, hs] at h; cases h
  | onUdpData d =>
    cases hs : o.stage with
    | started f =>
      rw [Sane, hs] at ho
      obtain ⟨hlife, hclean, hblock⟩ := ho
      rw [step, hs] at h
      obtain ⟨-, h⟩ := Option.ite_none_right_eq_some.mp h
      cases h
      exact ⟨hlife.onUdpData d, hclean.trans (and_iff_left trivial).symm, hblock⟩
    | _ => rw [step, hs] at h; cases h
  | disown =>
    cases hs : o.stage with
    | failed =>
      rw [Sane, hs] at ho
      rw [step, hs] at h
      obtain ⟨-, h⟩ := Option.ite_none_right_eq_some.mp h
      cases h
      exact sane_collect_failed rfl (fun hc => ho.1 hc.1) ho.2
    | started f =>
      rw [Sane, hs] at ho
      obtain ⟨hlife, hclean, hblock⟩ := ho
      rw [step, hs] at h
      obtain ⟨-, h⟩ := Option.ite_none_right_eq_some.mp h
      cases h
      exact sane_collect_started rfl hlife (hclean.trans (and_iff_left trivial).symm) hblock
    | _ => rw [step, hs] at h; cases h
  | event e =>
    cases hs : o.stage with
    | started f =>
      rw [Sane, hs] at ho
      obtain ⟨hlife, hclean, hblock⟩ := ho
      rw [step, hs] at h
      obtain ⟨f', hf, h⟩ := Option.map_eq_some_iff.mp h
      subst h
      refine sane_collect_started rfl (Forwarder.life_step hlife hf) ?_ hblock
      rw [onTheWay_step hlife hf, hclean]
      rfl
    | _ => rw [step, hs] at h; cases h

theorem sane_exec {run : List (ObjectEvent α D B)} {clean : Prop} (ho : Sane role clean o)
    (h : exec (step T role garbage) o run = some o') :
    Sane role (clean ∧ ∀ a ∈ run, NothingFails a) o' := by
  induction run generalizing o clean with
  | nil =>
    cases h
    rwa [and_iff_left (fun a ha => nomatch ha)]
  | cons a run ih =>
    obtain ⟨s, hs, hrest⟩ := exec_cons_eq_some.mp h
    have hsane := ih (sane_step ho hs) hrest
    rwa [and_assoc, ← List.forall_mem_cons] at hsane

/-- **A forwarder is destroyed safely exactly if nothing failed before.**  For either
class and every way from the constructor to the destructor: when the destructor has
run, both members had been assigned, `isRunning_` was false, and the block that was
created was released once, if and only if every call in `Start` succeeded and, on the
server, so did the open and the connect of the TCP socket. -/
theorem destroyed_safely_iff (checkSum : Bool) (role : Role) (garbage : Bool × Nat)
    (run : List (ObjectEvent UInt8 (List UInt8) (List UInt8)))
    (o : Object UInt8 (List UInt8) (List UInt8))
    (hrun : exec (step (udp checkSum) role garbage) constructed run = some o) (hd : o.Destroyed) :
    o.DestroyedSafely ↔ ∀ a ∈ run, NothingFails a := by
  have hsane : Sane role True (constructed : Object UInt8 (List UInt8) (List UInt8)) :=
    ⟨trivial, rfl, rfl, rfl⟩
  have h := sane_exec hsane hrun
  obtain ⟨passed, hs⟩ := hd
  rw [Sane, hs] at h
  exact h.trans (and_iff_right trivial)

/-- A client side forwarder is started, and its TCP peer closes the connection. -/
def quietLife : List (ObjectEvent UInt8 (List UInt8) (List UInt8)) :=
  [.start (.completed true [] true) 42, .disown, .event .readerRun, .event .tcpEof,
    .event .feederRun, .event (.writerRun 5)]

theorem destroyed_safely_quietLife :
    ∃ o : Object UInt8 (List UInt8) (List UInt8),
      exec (step (udp true) .client (true, 7)) constructed quietLife = some o ∧
      o.released = [42] ∧ o.DestroyedSafely := by
  refine ⟨_, rfl, rfl, ?_⟩
  refine (destroyed_safely_iff true .client (true, 7) quietLife _ rfl ⟨true, rfl⟩).mpr ?_
  intro a ha
  simp only [quietLife, List.mem_cons, List.not_mem_nil, or_false] at ha
  rcases ha with rfl | rfl | rfl | rfl | rfl | rfl
  · rfl
  · trivial
  all_goals exact fun h => nomatch h

/-- Either class destroyed after an early return: a block is released that was never
created, or the program is aborted, as memory happens to be.  A server's forwarder
whose TCP connect fails, or whose TCP socket cannot be opened, is aborted or not in
the same way. -/
theorem destroyed_unsafely :
    (∃ o : Object UInt8 (List UInt8) (List UInt8),
      exec (step (udp true) .client (false, 7)) constructed [.start .udpOpenFailed 42, .disown] =
        some o ∧ o.created = [] ∧ o.released = [7] ∧ ¬ o.DestroyedSafely) ∧
    (∃ o : Object UInt8 (List UInt8) (List UInt8),
      exec (step (udp true) .server (true, 7)) constructed [.start .udpBindFailed 42, .disown] =
        some o ∧ o.stage = .destroyed false ∧ ¬ o.DestroyedSafely) ∧
    (∃ o : Object UInt8 (List UInt8) (List UInt8),
      exec (step (udp true) .server (true, 7)) constructed
        [.start (.completed true [] true) 42, .disown, .event .connectFailed] = some o ∧
      o.stage = .destroyed false ∧ ¬ o.DestroyedSafely) ∧
    (∃ o : Object UInt8 (List UInt8) (List UInt8),
      exec (step (udp true) .server (true, 7)) constructed
        [.start (.completed false [] true) 42, .disown] = some o ∧
      o.stage = .destroyed false ∧ ¬ o.DestroyedSafely) := by
  refine ⟨⟨_, rfl, rfl, rfl, ?_⟩, ⟨_, rfl, rfl, ?_⟩, ⟨_, rfl, rfl, ?_⟩, ⟨_, rfl, rfl, ?_⟩⟩
  · exact fun h => nomatch h.2.1
  · exact fun h => nomatch h.1
  · exact fun h => nomatch h.1
  · exact fun h => nomatch h.1

end Object
end FlexProxy
