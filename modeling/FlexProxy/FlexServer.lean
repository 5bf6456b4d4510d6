import FlexProxy.Construction

/-! # The server's session table

`UdpAcceptCoroutine` receives the datagrams of new endpoints, creates a forwarder
for each and keeps it, as a weak pointer, in `forwarderMap_` under the endpoint.
The forwarder's deleter, which runs when the last of its coroutines has ended,
erases the entry and calls the destructor.  That asserts `!isRunning_`, whether or not
the member has been assigned, so it may abort the server.

Between any two events the table has an entry for an endpoint exactly if a
forwarder for it is alive, and the entry refers to that forwarder
(`session_table`).  The coroutine waits for datagrams as long as no `Start` has failed
and no destructor has aborted the server (`service_up_iff`).
-/
namespace FlexProxy
open TransitionSystem

/-- What makes the server abort. -/
inductive Abort where
  /-- an error of `async_receive_from` that is not handled -/
  | receiveError
  /-- "Failed to insert into forwarder map" -/
  | insertFailed
  /-- `lock` of a weak pointer in the map returns null -/
  | nullForwarder
  /-- "Bug!": `isRunning_` in the destructor of a forwarder -/
  | destructor
  deriving DecidableEq

/-- Where `UdpAcceptCoroutine` is. -/
inductive Accepting where
  /-- suspended in `async_receive_from` -/
  | waiting
  | returned
  | aborted (why : Abort)
  deriving DecidableEq

/-- A forwarder with the UDP endpoint of the client side: the one it was created for. -/
structure Session (E α D B : Type) where
  endpoint : E
  forwarder : Forwarder α D B

/-- `FlexServer`. -/
structure FlexServer (E α D B : Type) where
  accepting : Accepting
  /-- `forwarderMap_`.  A weak pointer is the position of the forwarder in `sessions`. -/
  forwarderMap : E → Option Nat
  /-- All forwarders whose `Start` has returned true, in the order of their creation.
  One to which nothing refers has been destroyed. -/
  sessions : List (Session E α D B)
  /-- What memory happens to hold in `isRunning_` and in `kcpCb_` of the forwarder created
  as number `i`. -/
  memory : Nat → Bool × Nat
  /-- The control blocks passed to `ikcp_release`.  Block `i` is that of session `i`. -/
  released : List Nat

/-- What happens to the server. -/
inductive ServerEvent (E α D B : Type) where
  /-- `async_receive_from` returns a datagram; `outcome` is that of `Start`, if it is
  called. -/
  | datagram (endpoint : E) (d : D) (outcome : StartOutcome B)
  /-- `async_receive_from` fails with try-again. -/
  | tryAgain
  /-- It fails with an error that compares equal to `operation_canceled`, as that of a closed
  socket should.  Where the categories of asio do not map it, as in the copy here, it is a
  `receiveError`. -/
  | cancelled
  | receiveError
  /-- A coroutine of a forwarder is resumed. -/
  | forwarder (i : Nat) (e : Event α D)

/-- The datagram an event brings to the server. -/
def ServerEvent.datagram? {E α D B : Type} : ServerEvent E α D B → Option D
  | .datagram _ d _ => some d
  | .forwarder _ e => e.datagram
  | _ => none

namespace FlexServer
variable {E α D B : Type} [DecidableEq E] (T : Transport α D B)

def started (memory : Nat → Bool × Nat) : FlexServer E α D B where
  accepting := .waiting
  forwarderMap _ := none
  sessions := []
  memory := memory
  released := []

/-- `lock` of a weak pointer: the session, if anything refers to its forwarder. -/
def lock (s : FlexServer E α D B) (i : Nat) : Option (Session E α D B) :=
  (s.sessions[i]?).filter (fun x => 0 < x.forwarder.refs)

/-- The forwarder of session `i` becomes `f`. -/
def put (s : FlexServer E α D B) (i : Nat) (f : Forwarder α D B) : FlexServer E α D B :=
  { s with sessions := s.sessions.modify i (fun x => { x with forwarder := f }) }

/-- `~Forwarder` of forwarder `i`.  A member that has not been assigned is what `memory` holds. -/
def destruct (s : FlexServer E α D B) (i : Nat) (isRunning : Option Bool) (kcpCb : Option Nat) :
    FlexServer E α D B :=
  if isRunning.getD (s.memory i).1 then { s with accepting := .aborted .destructor }
  else { s with released := s.released ++ [kcpCb.getD (s.memory i).2] }

/-- The deleter of forwarder `i`, which was created for the endpoint `e`. -/
def delete (s : FlexServer E α D B) (e : E) (i : Nat) (isRunning : Option Bool)
    (kcpCb : Option Nat) : FlexServer E α D B :=
  { s with forwarderMap := Function.update s.forwarderMap e none }.destruct i isRunning kcpCb

/-- The deleter of session `i`, if the last reference to its forwarder has gone. -/
def collect (s : FlexServer E α D B) (i : Nat) : FlexServer E α D B :=
  match s.sessions[i]? with
  | some x =>
    if x.forwarder.refs = 0 then s.delete x.endpoint i x.forwarder.isRunning (some i) else s
  | none => s

/-- `UdpAcceptCoroutine` after a successful `Start`: it inserts the forwarder, hands it
the datagram and lets its own reference go. -/
def enrol (s : FlexServer E α D B) (e : E) (d : D) (f : Forwarder α D B) : FlexServer E α D B :=
  if (s.forwarderMap e).isNone then
    let s' : FlexServer E α D B :=
      { s with
        forwarderMap := Function.update s.forwarderMap e (some s.sessions.length)
        sessions := s.sessions ++ [⟨e, f.onUdpData T d⟩] }
    s'.collect s.sessions.length
  else { s with accepting := .aborted .insertFailed }

/-- `UdpAcceptCoroutine` after a datagram. -/
def accept (s : FlexServer E α D B) (e : E) (d : D) (outcome : StartOutcome B) :
    FlexServer E α D B :=
  match s.forwarderMap e with
  | none =>
    match Forwarder.start .server outcome with
    | some f => s.enrol T e d f
    -- `co_return`; the new forwarder goes, and neither of its members has been assigned
    | none => { s with accepting := .returned }.delete e s.sessions.length none none
  | some i =>
    match s.lock i with
    | some x => s.put i (x.forwarder.onUdpData T d)
    | none => { s with accepting := .aborted .nullForwarder }

/-- The session that a datagram from the endpoint `e` is handed to: the one in the
table, or a new one. -/
def receiver (s : FlexServer E α D B) (e : E) : Nat := (s.forwarderMap e).getD s.sessions.length

/-- The server has not been aborted. -/
def Runs (s : FlexServer E α D B) : Prop := s.accepting = .waiting ∨ s.accepting = .returned

instance (s : FlexServer E α D B) : Decidable s.Runs :=
  inferInstanceAs (Decidable (s.accepting = .waiting ∨ s.accepting = .returned))

/-- One event; `none` if it cannot happen.  `OnUdpData` is called by
`UdpAcceptCoroutine` only. -/
def step (s : FlexServer E α D B) : ServerEvent E α D B → Option (FlexServer E α D B)
  | .datagram e d outcome => if s.accepting = .waiting then some (s.accept T e d outcome) else none
  | .tryAgain => if s.accepting = .waiting then some s else none
  | .cancelled => if s.accepting = .waiting then some { s with accepting := .returned } else none
  | .receiveError =>
    if s.accepting = .waiting then some { s with accepting := .aborted .receiveError } else none
  | .forwarder _ (.onUdpData _) => none
  | .forwarder i e =>
    if s.Runs then
      match s.sessions[i]? with
      | some x => (x.forwarder.step T .server e).map (fun f => (s.put i f).collect i)
      | none => none
    else none

/-! ## The deleter -/

variable {T} {s s' : FlexServer E α D B}

section Destruct
variable (s : FlexServer E α D B) (i : Nat) (isRunning : Option Bool) (kcpCb : Option Nat)

omit [DecidableEq E] in
@[simp] theorem sessions_destruct : (s.destruct i isRunning kcpCb).sessions = s.sessions := by
  unfold destruct
  split <;> rfl

omit [DecidableEq E] in
@[simp] theorem forwarderMap_destruct :
    (s.destruct i isRunning kcpCb).forwarderMap = s.forwarderMap := by
  unfold destruct
  split <;> rfl

omit [DecidableEq E] in
@[simp] theorem memory_destruct : (s.destruct i isRunning kcpCb).memory = s.memory := by
  unfold destruct
  split <;> rfl

omit [DecidableEq E] in
/-- The destructor aborts the server exactly if `isRunning_` reads true. -/
theorem accepting_destruct :
    (s.destruct i isRunning kcpCb).accepting =
      if isRunning.getD (s.memory i).1 then .aborted .destructor else s.accepting := by
  unfold destruct
  split <;> rfl

@[simp] theorem sessions_delete (e : E) :
    (s.delete e i isRunning kcpCb).sessions = s.sessions :=
  sessions_destruct ..

@[simp] theorem forwarderMap_delete (e : E) :
    (s.delete e i isRunning kcpCb).forwarderMap = Function.update s.forwarderMap e none :=
  forwarderMap_destruct ..

@[simp] theorem memory_delete (e : E) : (s.delete e i isRunning kcpCb).memory = s.memory :=
  memory_destruct ..

theorem accepting_delete (e : E) :
    (s.delete e i isRunning kcpCb).accepting =
      if isRunning.getD (s.memory i).1 then .aborted .destructor else s.accepting :=
  accepting_destruct ..

end Destruct

omit [DecidableEq E] in
/-- It is the destructor of the object: the assertion, and what is released. -/
theorem destruct_object (s : FlexServer E α D B) (i : Nat) (o : Object α D B) :
    ((o.destruct (s.memory i)).stage = .destroyed true ∧
        (s.destruct i o.isRunning o.kcpCb).accepting = s.accepting ∨
      (o.destruct (s.memory i)).stage = .destroyed false ∧
        (s.destruct i o.isRunning o.kcpCb).accepting = .aborted .destructor) ∧
    (o.released = s.released →
      (o.destruct (s.memory i)).released = (s.destruct i o.isRunning o.kcpCb).released) := by
  unfold Object.destruct destruct
  cases o.isRunning.getD (s.memory i).1 with
  | true => exact ⟨Or.inr ⟨rfl, rfl⟩, fun hsame => hsame⟩
  | false => exact ⟨Or.inl ⟨rfl, rfl⟩, fun hsame => congrArg (· ++ _) hsame⟩

theorem collect_eq {i : Nat} {x : Session E α D B} (hx : s.sessions[i]? = some x) :
    s.collect i =
      if x.forwarder.refs = 0 then s.delete x.endpoint i x.forwarder.isRunning (some i) else s := by
  rw [collect, hx]

@[simp] theorem sessions_collect (s : FlexServer E α D B) (i : Nat) :
    (s.collect i).sessions = s.sessions := by
  unfold collect
  split
  · split
    · exact sessions_delete ..
    · rfl
  · rfl

@[simp] theorem memory_collect (s : FlexServer E α D B) (i : Nat) :
    (s.collect i).memory = s.memory := by
  unfold collect
  split
  · split
    · exact memory_delete ..
    · rfl
  · rfl

/-- The deleter of a session aborts the server, or leaves `UdpAcceptCoroutine` where it is. -/
theorem accepting_collect {i : Nat} {x : Session E α D B} (hx : s.sessions[i]? = some x) :
    (s.collect i).accepting =
      if x.forwarder.refs = 0 ∧ x.forwarder.isRunning.getD (s.memory i).1 = true then
        .aborted .destructor
      else s.accepting := by
  rw [collect_eq hx]
  by_cases hrefs : x.forwarder.refs = 0
  · rw [if_pos hrefs, accepting_delete]
    exact if_congr (and_iff_right hrefs).symm rfl rfl
  · rw [if_neg hrefs, if_neg (fun h => hrefs h.1)]

theorem accepting_collect_or (s : FlexServer E α D B) (i : Nat) :
    (s.collect i).accepting = s.accepting ∨ (s.collect i).accepting = .aborted .destructor := by
  cases hx : s.sessions[i]? with
  | none =>
    rw [collect, hx]
    exact Or.inl rfl
  | some x =>
    rw [accepting_collect hx]
    split
    · exact Or.inr rfl
    · exact Or.inl rfl

/-! ## The table -/

/-- A forwarder for the endpoint `e` is alive in session `i`. -/
def IsLive (s : FlexServer E α D B) (e : E) (i : Nat) : Prop :=
  ∃ x, s.sessions[i]? = some x ∧ x.endpoint = e ∧ 0 < x.forwarder.refs

/-- The table has an entry for an endpoint exactly if a forwarder for it is alive, and
the entry refers to that forwarder. -/
def TableOk (s : FlexServer E α D B) : Prop :=
  ∀ e i, s.forwarderMap e = some i ↔ s.IsLive e i

/-- The table while an event of session `i` is handled: the session has its entry,
whether or not something still refers to its forwarder. -/
structure TableBut (s : FlexServer E α D B) (i : Nat) (x : Session E α D B) : Prop where
  session : s.sessions[i]? = some x
  own : ∀ e, s.forwarderMap e = some i ↔ x.endpoint = e
  other : ∀ e j, j ≠ i → (s.forwarderMap e = some j ↔ s.IsLive e j)

/-- The deleter makes the table right again. -/
theorem tableOk_collect {i : Nat} {x : Session E α D B} (h : s.TableBut i x) :
    (s.collect i).TableOk := by
  rw [collect_eq h.session]
  intro e j
  by_cases hrefs : x.forwarder.refs = 0
  · rw [if_pos hrefs, forwarderMap_delete, IsLive, sessions_delete]
    show Function.update s.forwarderMap x.endpoint none e = some j ↔ s.IsLive e j
    by_cases hj : j = i
    · -- the session's own entry is erased, and its forwarder is not alive
      subst hj
      refine iff_of_false (fun hmap => ?_) ?_
      · by_cases he : e = x.endpoint
        · rw [he, Function.update_self] at hmap
          cases hmap
        · rw [Function.update_of_ne he] at hmap
          exact he ((h.own e).mp hmap).symm
      · rintro ⟨y, hy, -, hpos⟩
        cases h.session.symm.trans hy
        omega
    · -- the erased entry is not that of another session
      rw [← h.other e j hj]
      by_cases he : e = x.endpoint
      · subst he
        have hmap := (h.own _).mpr rfl
        rw [Function.update_self, hmap]
        exact iff_of_false (fun h => nomatch h) (fun h => hj (Option.some.inj h).symm)
      · rw [Function.update_of_ne he]
  · rw [if_neg hrefs]
    by_cases hj : j = i
    · subst hj
      rw [h.own e]
      constructor
      · exact fun he => ⟨x, h.session, he, Nat.pos_of_ne_zero hrefs⟩
      · rintro ⟨y, hy, he, -⟩
        cases h.session.symm.trans hy
        exact he
    · exact h.other e j hj

omit [DecidableEq E] in
theorem sessions_put_self {i : Nat} {x : Session E α D B} (hx : s.sessions[i]? = some x)
    (f : Forwarder α D B) : (s.put i f).sessions[i]? = some { x with forwarder := f } := by
  rw [put, List.getElem?_modify_eq, hx]
  rfl

omit [DecidableEq E] in
theorem sessions_put_ne {i j : Nat} (f : Forwarder α D B) (hj : j ≠ i) :
    (s.put i f).sessions[j]? = s.sessions[j]? := by
  rw [put, List.getElem?_modify_ne _ _ (Ne.symm hj)]

/-- The endpoint that each forwarder was created for. -/
def endpoints (s : FlexServer E α D B) : List E := s.sessions.map (fun x => x.endpoint)

omit [DecidableEq E] in
theorem endpoints_put (s : FlexServer E α D B) (i : Nat) (f : Forwarder α D B) :
    (s.put i f).endpoints = s.endpoints := by
  refine List.ext_getElem? (fun j => ?_)
  rw [endpoints, endpoints, List.getElem?_map, List.getElem?_map]
  by_cases hj : j = i
  · subst hj
    rw [put, List.getElem?_modify_eq]
    cases s.sessions[j]? <;> rfl
  · rw [sessions_put_ne f hj]

omit [DecidableEq E] in
/-- The forwarder of a live session becomes `f`. -/
theorem tableBut_put (hs : s.TableOk) {i : Nat} {x : Session E α D B}
    (hx : s.sessions[i]? = some x) (hpos : 0 < x.forwarder.refs) (f : Forwarder α D B) :
    (s.put i f).TableBut i { x with forwarder := f } := by
  refine ⟨sessions_put_self hx f, fun e => ?_, fun e j hj => ?_⟩
  · show s.forwarderMap e = some i ↔ _
    rw [hs e i]
    constructor
    · rintro ⟨y, hy, he, -⟩
      cases hx.symm.trans hy
      exact he
    · exact fun he => ⟨x, hx, he, hpos⟩
  · rw [IsLive, sessions_put_ne f hj]
    exact hs e j

/-- A new session is entered under an endpoint that has no entry. -/
theorem tableBut_new (hs : s.TableOk) {e : E} (he : s.forwarderMap e = none)
    (f : Forwarder α D B) :
    TableBut
      { s with
        forwarderMap := Function.update s.forwarderMap e (some s.sessions.length)
        sessions := s.sessions ++ [⟨e, f⟩] } s.sessions.length ⟨e, f⟩ := by
  have hlt : ∀ {e' j}, s.forwarderMap e' = some j → j < s.sessions.length := by
    intro e' j hj
    obtain ⟨x, hx, -⟩ := (hs e' j).mp hj
    exact (List.getElem?_eq_some_iff.mp hx).1
  refine ⟨List.getElem?_concat_length, fun e' => ?_, fun e' j hj => ?_⟩
  · show Function.update s.forwarderMap e (some s.sessions.length) e' = _ ↔ e = e'
    by_cases h : e' = e
    · rw [h, Function.update_self]
      exact iff_of_true rfl rfl
    · rw [Function.update_of_ne h]
      refine iff_of_false (fun hmap => ?_) (fun h' => h h'.symm)
      exact absurd (hlt hmap) (Nat.lt_irrefl _)
  · show Function.update s.forwarderMap e (some s.sessions.length) e' = _ ↔ _
    have hlive : IsLive { s with
        forwarderMap := Function.update s.forwarderMap e (some s.sessions.length)
        sessions := s.sessions ++ [⟨e, f⟩] } e' j ↔ s.IsLive e' j := by
      show (∃ x, (s.sessions ++ [⟨e, f⟩])[j]? = some x ∧ _) ↔ ∃ x, s.sessions[j]? = some x ∧ _
      by_cases hj' : j < s.sessions.length
      · rw [List.getElem?_append_left hj']
      · have hnone : (s.sessions ++ [⟨e, f⟩])[j]? = none := by
          rw [List.getElem?_eq_none_iff, List.length_append, List.length_singleton]
          omega
        rw [hnone, List.getElem?_eq_none_iff.mpr (Nat.not_lt.mp hj')]
    rw [hlive, ← hs e' j]
    by_cases h : e' = e
    · rw [h, Function.update_self, he]
      exact iff_of_false (fun h => hj (Option.some.inj h).symm) (fun h => nomatch h)
    · rw [Function.update_of_ne h]

/-! ## Every event -/

/-- What holds between any two events. -/
structure Ok (s : FlexServer E α D B) : Prop where
  table : s.TableOk
  life : ∀ (i : Nat) (x : Session E α D B), s.sessions[i]? = some x → x.forwarder.Life .server
  accepting : s.accepting ≠ .aborted .insertFailed ∧ s.accepting ≠ .aborted .nullForwarder

omit [DecidableEq E] in
theorem ok_started (memory : Nat → Bool × Nat) : (started memory : FlexServer E α D B).Ok where
  table e i := by
    refine iff_of_false (fun h => nomatch h) ?_
    rintro ⟨x, hx, -⟩
    cases hx
  life i x hx := nomatch hx
  accepting := ⟨(fun h => nomatch h), fun h => nomatch h⟩

/-- An abort in the destructor is none that the table is there to prevent. -/
theorem accepting_collect_ok {i : Nat}
    (h : s.accepting ≠ .aborted .insertFailed ∧ s.accepting ≠ .aborted .nullForwarder) :
    (s.collect i).accepting ≠ .aborted .insertFailed ∧
      (s.collect i).accepting ≠ .aborted .nullForwarder := by
  rcases accepting_collect_or s i with hsame | habort
  · rw [hsame]
    exact h
  · rw [habort]
    exact ⟨(fun h => nomatch h), fun h => nomatch h⟩

omit [DecidableEq E] in
/-- `lock` of an entry is never null. -/
theorem lock_of_entry (hs : s.TableOk) {e : E} {i : Nat} (he : s.forwarderMap e = some i) :
    ∃ x, s.sessions[i]? = some x ∧ x.endpoint = e ∧ 0 < x.forwarder.refs ∧
      s.lock i = some x := by
  obtain ⟨x, hx, hxe, hpos⟩ := (hs e i).mp he
  refine ⟨x, hx, hxe, hpos, ?_⟩
  rw [lock, hx, Option.filter_some, if_pos (decide_eq_true hpos)]

/-- The forwarder of a live session is resumed, or handed a datagram. -/
theorem ok_put (hs : s.Ok) {i : Nat} {x : Session E α D B} (hx : s.sessions[i]? = some x)
    (hpos : 0 < x.forwarder.refs) {f : Forwarder α D B} (hf : f.Life .server) :
    ((s.put i f).collect i).Ok := by
  refine ⟨tableOk_collect (tableBut_put hs.table hx hpos f), fun j y hy => ?_, ?_⟩
  · rw [sessions_collect] at hy
    by_cases hj : j = i
    · subst hj
      cases (sessions_put_self hx f).symm.trans hy
      exact hf
    · rw [sessions_put_ne f hj] at hy
      exact hs.life j y hy
  · exact accepting_collect_ok hs.accepting

/-- The insert under an endpoint that has no entry succeeds. -/
theorem enrol_eq {e : E} (he : s.forwarderMap e = none) (d : D) (f : Forwarder α D B) :
    s.enrol T e d f = FlexServer.collect
      { s with
        forwarderMap := Function.update s.forwarderMap e (some s.sessions.length)
        sessions := s.sessions ++ [⟨e, f.onUdpData T d⟩] } s.sessions.length := by
  have hnone : (s.forwarderMap e).isNone = true := by rw [he]; rfl
  rw [enrol, if_pos hnone]

theorem sessions_enrol {e : E} (he : s.forwarderMap e = none) (d : D) (f : Forwarder α D B) :
    (s.enrol T e d f).sessions = s.sessions ++ [⟨e, f.onUdpData T d⟩] := by
  rw [enrol_eq he]
  exact sessions_collect ..

theorem memory_enrol {e : E} (he : s.forwarderMap e = none) (d : D) (f : Forwarder α D B) :
    (s.enrol T e d f).memory = s.memory := by
  rw [enrol_eq he]
  exact memory_collect ..

theorem ok_enrol (hs : s.Ok) {e : E} (he : s.forwarderMap e = none) (d : D)
    {f : Forwarder α D B} (hf : f.Life .server) : (s.enrol T e d f).Ok := by
  rw [enrol_eq he]
  refine ⟨tableOk_collect (tableBut_new hs.table he _), fun j y hy => ?_, ?_⟩
  · rw [sessions_collect] at hy
    by_cases hj : j < s.sessions.length
    · rw [List.getElem?_append_left hj] at hy
      exact hs.life j y hy
    · have hmem := List.mem_of_getElem? (List.getElem?_append_right (Nat.not_lt.mp hj) ▸ hy)
      cases List.mem_singleton.mp hmem
      exact hf.onUdpData d
  · exact accepting_collect_ok hs.accepting

omit [DecidableEq E] in
theorem Ok.destruct (hs : s.Ok) (i : Nat) (isRunning : Option Bool) (kcpCb : Option Nat) :
    (s.destruct i isRunning kcpCb).Ok := by
  unfold FlexServer.destruct
  split
  · exact ⟨hs.table, hs.life, (fun h => nomatch h), fun h => nomatch h⟩
  · exact ⟨hs.table, hs.life, hs.accepting⟩

/-- Nothing is erased where nothing is entered. -/
theorem update_none {e : E} (he : s.forwarderMap e = none) :
    Function.update s.forwarderMap e none = s.forwarderMap := by
  rw [← he, Function.update_eq_self]

/-- A datagram of a new endpoint, for which `Start` returns true. -/
theorem accept_new {e : E} (he : s.forwarderMap e = none) (d : D) {outcome : StartOutcome B}
    {f : Forwarder α D B} (hf : Forwarder.start .server outcome = some f) :
    s.accept T e d outcome = s.enrol T e d f := by
  rw [accept, he]
  dsimp only
  rw [hf]

/-- A datagram of a new endpoint, for which `Start` returns false. -/
theorem accept_failed {e : E} (he : s.forwarderMap e = none) (d : D) {outcome : StartOutcome B}
    (hf : Forwarder.start (α := α) (D := D) .server outcome = none) :
    s.accept T e d outcome =
      { s with accepting := .returned }.destruct s.sessions.length none none := by
  rw [accept, he]
  dsimp only
  rw [hf]
  dsimp only
  rw [delete, update_none he]

/-- A datagram of an endpoint that has an entry. -/
theorem accept_known (hs : s.TableOk) {e : E} {i : Nat} (he : s.forwarderMap e = some i) (d : D)
    (outcome : StartOutcome B) : ∃ x, s.sessions[i]? = some x ∧ x.endpoint = e ∧
      0 < x.forwarder.refs ∧ s.accept T e d outcome = s.put i (x.forwarder.onUdpData T d) := by
  obtain ⟨x, hx, hxe, hpos, hlock⟩ := lock_of_entry hs he
  refine ⟨x, hx, hxe, hpos, ?_⟩
  rw [accept, he]
  dsimp only
  rw [hlock]

/-- The server's `Start` may end in any way. -/
theorem possible_server (outcome : StartOutcome B) : outcome.Possible .server := by
  cases outcome with
  | udpBindFailed => rfl
  | completed tcpOpen buffer isKcpAlive => exact Or.inl rfl
  | _ => trivial

theorem ok_accept (hs : s.Ok) (e : E) (d : D) (outcome : StartOutcome B) :
    (s.accept T e d outcome).Ok := by
  cases he : s.forwarderMap e with
  | none =>
    cases hf : Forwarder.start (α := α) (D := D) .server outcome with
    | none =>
      have hreturned : Ok { s with accepting := .returned } :=
        ⟨hs.table, hs.life, (fun h => nomatch h), fun h => nomatch h⟩
      rw [accept_failed he d hf]
      exact hreturned.destruct ..
    | some f =>
      rw [accept_new he d hf]
      exact ok_enrol hs he d (Object.life_start (possible_server outcome) hf)
  | some i =>
    obtain ⟨x, hx, -, hpos, haccept⟩ := accept_known (T := T) hs.table he d outcome
    rw [haccept]
    have h := ok_put hs hx hpos ((hs.life i x hx).onUdpData (T := T) d)
    -- the forwarder is still alive, so there is nothing to collect
    rwa [collect_eq (sessions_put_self hx _), if_neg (by exact Nat.ne_of_gt hpos)] at h

/-- What the resumption of a coroutine does to the server. -/
theorem step_forwarder {i : Nat} {e : Event α D} (h : step T s (.forwarder i e) = some s') :
    s.Runs ∧ ∃ x f, s.sessions[i]? = some x ∧ (∀ d, e ≠ .onUdpData d) ∧
      x.forwarder.step T .server e = some f ∧ s' = (s.put i f).collect i := by
  have hudp : ∀ d, e ≠ .onUdpData d := by
    rintro d rfl
    cases h
  have hstep : step T s (.forwarder i e) =
      if s.Runs then
        match s.sessions[i]? with
        | some x => (x.forwarder.step T .server e).map (fun f => (s.put i f).collect i)
        | none => none
      else none := by
    cases e <;> first | rfl | exact absurd rfl (hudp _)
  rw [hstep] at h
  obtain ⟨hruns, h⟩ := Option.ite_none_right_eq_some.mp h
  refine ⟨hruns, ?_⟩
  cases hx : s.sessions[i]? with
  | none =>
    rw [hx] at h
    cases h
  | some x =>
    rw [hx] at h
    obtain ⟨f, hf, rfl⟩ := Option.map_eq_some_iff.mp h
    exact ⟨x, f, rfl, hudp, hf, rfl⟩

omit [DecidableEq E] in
/-- A coroutine of session `i` is resumed, so its forwarder is alive. -/
theorem refs_pos_of_step (hs : s.Ok) {i : Nat} {x : Session E α D B}
    (hx : s.sessions[i]? = some x) {e : Event α D} {f : Forwarder α D B}
    (hf : x.forwarder.step T .server e = some f) : 0 < x.forwarder.refs := by
  by_contra hzero
  rw [(hs.life i x hx).step_eq_none (Nat.eq_zero_of_not_pos hzero) e] at hf
  cases hf

theorem ok_resume (hs : s.Ok) {i : Nat} {x : Session E α D B} (hx : s.sessions[i]? = some x)
    {e : Event α D} {f : Forwarder α D B} (hf : x.forwarder.step T .server e = some f) :
    ((s.put i f).collect i).Ok :=
  ok_put hs hx (refs_pos_of_step hs hx hf) (Forwarder.life_step (hs.life i x hx) hf)

/-- **Every event keeps the table right.** -/
theorem ok_step (hs : s.Ok) {a : ServerEvent E α D B} (h : step T s a = some s') : s'.Ok := by
  cases a with
  | datagram e d outcome =>
    obtain ⟨-, h⟩ := Option.ite_none_right_eq_some.mp h
    cases h
    exact ok_accept hs e d outcome
  | tryAgain =>
    obtain ⟨-, h⟩ := Option.ite_none_right_eq_some.mp h
    cases h
    exact hs
  | cancelled =>
    obtain ⟨-, h⟩ := Option.ite_none_right_eq_some.mp h
    cases h
    exact ⟨hs.table, hs.life, (fun h => nomatch h), fun h => nomatch h⟩
  | receiveError =>
    obtain ⟨-, h⟩ := Option.ite_none_right_eq_some.mp h
    cases h
    exact ⟨hs.table, hs.life, (fun h => nomatch h), fun h => nomatch h⟩
  | forwarder i e =>
    obtain ⟨-, x, f, hx, -, hf, rfl⟩ := step_forwarder h
    exact ok_resume hs hx hf

/-- What memory holds is there from the start. -/
theorem memory_step (hs : s.Ok) {a : ServerEvent E α D B} (h : step T s a = some s') :
    s'.memory = s.memory := by
  cases a with
  | datagram e d outcome =>
    obtain ⟨-, h⟩ := Option.ite_none_right_eq_some.mp h
    cases h
    cases he : s.forwarderMap e with
    | none =>
      cases hf : Forwarder.start (α := α) (D := D) .server outcome with
      | none =>
        rw [accept_failed he d hf]
        exact memory_destruct ..
      | some f =>
        rw [accept_new he d hf]
        exact memory_enrol he d f
    | some i =>
      obtain ⟨x, -, -, -, haccept⟩ := accept_known (T := T) hs.table he d outcome
      rw [haccept]
      rfl
  | forwarder i e =>
    obtain ⟨-, x, f, -, -, -, rfl⟩ := step_forwarder h
    exact memory_collect ..
  | _ =>
    obtain ⟨-, h⟩ := Option.ite_none_right_eq_some.mp h
    cases h
    rfl

theorem ok_exec {memory : Nat → Bool × Nat} {run : List (ServerEvent E α D B)}
    (h : exec (step T) (started memory) run = some s) : s.Ok :=
  exec_invariant (fun _ _ _ hs h => ok_step hs h) (ok_started memory) h

/-! ## The table in every run -/

/-- A forwarder dies only by an event of its own. -/
theorem isLive_of_step (hs : s.Ok) {a : ServerEvent E α D B} (h : step T s a = some s') {e : E}
    {j : Nat} (hlive : s.IsLive e j) (hown : ∀ ev, a ≠ .forwarder j ev) : s'.IsLive e j := by
  obtain ⟨x, hx, hxe, hpos⟩ := hlive
  cases a with
  | datagram e' d outcome =>
    obtain ⟨-, h⟩ := Option.ite_none_right_eq_some.mp h
    cases h
    cases he : s.forwarderMap e' with
    | none =>
      cases hf : Forwarder.start (α := α) (D := D) .server outcome with
      | none =>
        rw [accept_failed he d hf, IsLive, sessions_destruct]
        exact ⟨x, hx, hxe, hpos⟩
      | some f =>
        rw [accept_new he d hf, IsLive, sessions_enrol he]
        refine ⟨x, ?_, hxe, hpos⟩
        rw [List.getElem?_append_left (List.getElem?_eq_some_iff.mp hx).1]
        exact hx
    | some i =>
      obtain ⟨y, hy, -, -, haccept⟩ := accept_known (T := T) hs.table he d outcome
      rw [haccept, IsLive]
      by_cases hj : j = i
      · subst hj
        cases hx.symm.trans hy
        exact ⟨_, sessions_put_self hx _, hxe, hpos⟩
      · exact ⟨x, (sessions_put_ne _ hj).trans hx, hxe, hpos⟩
  | tryAgain | cancelled | receiveError =>
    obtain ⟨-, h⟩ := Option.ite_none_right_eq_some.mp h
    cases h
    exact ⟨x, hx, hxe, hpos⟩
  | forwarder i ev =>
    obtain ⟨-, y, f, hy, -, hf, rfl⟩ := step_forwarder h
    have hj : j ≠ i := fun hj => hown ev (by rw [hj])
    rw [IsLive, sessions_collect]
    exact ⟨x, (sessions_put_ne f hj).trans hx, hxe, hpos⟩

/-- **The session table.**  Between any two events of any run: the table has an entry
for an endpoint exactly if a forwarder for it whose `Start` returned true is alive;
there is at most one; the entry refers to it; so `lock` is never null, the insert
always inserts, and an entry goes only when its own forwarder is destroyed. -/
theorem session_table (T : Transport α D B) (memory : Nat → Bool × Nat)
    (run : List (ServerEvent E α D B)) (s : FlexServer E α D B)
    (hrun : exec (step T) (started memory) run = some s) :
    (∀ e i, s.forwarderMap e = some i ↔ s.IsLive e i) ∧
    (∀ e i j, s.IsLive e i → s.IsLive e j → i = j) ∧
    (∀ e i, s.forwarderMap e = some i → (s.lock i).isSome) ∧
    (s.accepting ≠ .aborted .nullForwarder ∧ s.accepting ≠ .aborted .insertFailed) ∧
    (∀ a s', step T s a = some s' → ∀ e i, s.forwarderMap e = some i → s'.forwarderMap e ≠ some i →
      (∃ ev, a = .forwarder i ev) ∧ ¬ s'.IsLive e i) := by
  have hs := ok_exec hrun
  refine ⟨hs.table, ?_, ?_, ⟨hs.accepting.2, hs.accepting.1⟩, ?_⟩
  · intro e i j hi hj
    have hmap := ((hs.table e i).mpr hi).symm.trans ((hs.table e j).mpr hj)
    exact Option.some.inj hmap
  · intro e i he
    obtain ⟨x, -, -, -, hlock⟩ := lock_of_entry hs.table he
    rw [hlock]
    rfl
  · intro a s' h e i he hgone
    have hdead : ¬ s'.IsLive e i := fun hlive => hgone (((ok_step hs h).table e i).mpr hlive)
    refine ⟨?_, hdead⟩
    by_contra hown
    exact hdead (isLive_of_step hs h ((hs.table e i).mp he) (fun ev ha => hown ⟨ev, ha⟩))

/-- Memory that holds zeros. -/
def zeroed (_ : Nat) : Bool × Nat := (false, 0)

/-- Two endpoints send datagrams.  The TCP socket for the second cannot be opened, so
its forwarder is destroyed at once. -/
def twoEndpoints : List (ServerEvent Nat UInt8 (List UInt8) (List UInt8)) :=
  [.datagram 1 [] (.completed true [] true), .datagram 2 [] (.completed false [] true)]

theorem session_table_twoEndpoints :
    ∃ s : FlexServer Nat UInt8 (List UInt8) (List UInt8),
      exec (step (udp true)) (started zeroed) twoEndpoints = some s ∧
      s.forwarderMap 1 = some 0 ∧ s.IsLive 1 0 ∧ ¬ s.IsLive 2 1 := by
  refine ⟨_, rfl, rfl, ?_⟩
  obtain ⟨htable, -⟩ := session_table (udp true) zeroed twoEndpoints _ rfl
  exact ⟨(htable 1 0).mp rfl, fun h => nomatch (htable 2 1).mpr h⟩

/-! ## The accept coroutine -/

/-- `Start` returns true. -/
def ReturnsTrue : StartOutcome B → Prop
  | .completed _ _ _ => True
  | _ => False

/-- If the event makes the server call `Start`, it returns true; and a forwarder whose TCP
socket cannot be opened or connected finds `isRunning_` false in memory. -/
def Harmless (s : FlexServer E α D B) : ServerEvent E α D B → Prop
  | .datagram e _ outcome => s.forwarderMap e = none →
    ReturnsTrue outcome ∧ (outcome.Succeeds ∨ (s.memory s.sessions.length).1 = false)
  | .forwarder i .connectFailed => (s.memory i).1 = false
  | _ => True

/-- The accept socket is not closed, and its receive reports no fatal error. -/
def SocketFine : ServerEvent E α D B → Prop
  | .cancelled => False
  | .receiveError => False
  | _ => True

/-- The service is up: the next datagram is waited for; one from an endpoint without a live
forwarder makes the server start one; and a `Start` that returns false changes neither the table
nor a forwarder, whatever becomes of the server. -/
structure ServiceUp (T : Transport α D B) (s : FlexServer E α D B) : Prop where
  waiting : s.accepting = .waiting
  serves : ∀ e d outcome, (∀ i, ¬ s.IsLive e i) → ReturnsTrue outcome →
    ∃ s', step T s (.datagram e d outcome) = some s' ∧
      s'.sessions.length = s.sessions.length + 1
  keeps : ∀ e d outcome s', ¬ ReturnsTrue outcome → s.forwarderMap e = none →
    step T s (.datagram e d outcome) = some s' →
    s'.forwarderMap = s.forwarderMap ∧ s'.sessions = s.sessions

/-- If the event makes the server call `Start` and it returns false, the server goes on, with
the table and the forwarders as they were and the control block of none released. -/
def Unharmed (T : Transport α D B) (s : FlexServer E α D B) : ServerEvent E α D B → Prop
  | .datagram e d outcome => s.forwarderMap e = none → ¬ ReturnsTrue outcome →
    ∀ s', step T s (.datagram e d outcome) = some s' →
      s'.Runs ∧ s'.forwarderMap = s.forwarderMap ∧ s'.sessions = s.sessions ∧
        ∀ i, (s.lock i).isSome → i ∈ s'.released → i ∈ s.released
  | _ => True

theorem start_of_returnsTrue {outcome : StartOutcome B} (h : ReturnsTrue outcome) :
    ∃ f, Forwarder.start (α := α) (D := D) .server outcome = some f := by
  cases outcome with
  | completed tcpOpen buffer isKcpAlive => exact ⟨_, rfl⟩
  | _ => exact absurd h not_false

theorem start_of_not_returnsTrue {outcome : StartOutcome B} (h : ¬ ReturnsTrue outcome) :
    Forwarder.start (α := α) (D := D) .server outcome = none := by
  cases outcome with
  | completed tcpOpen buffer isKcpAlive => exact absurd trivial h
  | _ => rfl

/-- When `Start` returns, `isRunning_` has not been assigned, and nothing refers to the
forwarder any more exactly if its TCP socket could not be opened. -/
theorem start_reads {outcome : StartOutcome B} {f : Forwarder α D B}
    (h : Forwarder.start .server outcome = some f) :
    f.isRunning = none ∧ (f.refs = 0 ↔ ¬ outcome.Succeeds) := by
  cases outcome with
  | completed tcpOpen buffer isKcpAlive =>
    cases h
    cases tcpOpen with
    | true => exact ⟨rfl, iff_of_false (fun h => nomatch h) (fun h => h rfl)⟩
    | false => exact ⟨rfl, iff_of_true rfl (fun h => nomatch h)⟩
  | _ => cases h

/-- A new session whose TCP socket could not be opened may abort the server. -/
theorem accepting_enrol {e : E} (he : s.forwarderMap e = none) (d : D) {outcome : StartOutcome B}
    {f : Forwarder α D B} (hf : Forwarder.start .server outcome = some f) :
    (¬ outcome.Succeeds ∧ (s.memory s.sessions.length).1 = true →
        (s.enrol T e d f).accepting = .aborted .destructor) ∧
      (¬ (¬ outcome.Succeeds ∧ (s.memory s.sessions.length).1 = true) →
        (s.enrol T e d f).accepting = s.accepting) := by
  have hnew : (s.sessions ++ [⟨e, f.onUdpData T d⟩])[s.sessions.length]? =
      some ⟨e, f.onUdpData T d⟩ := List.getElem?_concat_length
  have hread : (f.onUdpData T d).isRunning = none := (start_reads hf).1
  have hgone : (f.onUdpData T d).refs = 0 ↔ ¬ outcome.Succeeds := (start_reads hf).2
  rw [enrol_eq he, accepting_collect hnew, hread]
  exact ⟨fun h => if_pos ⟨hgone.mpr h.1, h.2⟩, fun h => if_neg (fun hd => h ⟨hgone.mp hd.1, hd.2⟩)⟩

/-- A session whose TCP socket could not be connected may abort the server. -/
theorem accepting_resume (hs : s.Ok) {i : Nat} {x : Session E α D B}
    (hx : s.sessions[i]? = some x) {ev : Event α D} {f : Forwarder α D B}
    (hf : x.forwarder.step T .server ev = some f) :
    (ev = .connectFailed ∧ (s.memory i).1 = true →
        ((s.put i f).collect i).accepting = .aborted .destructor) ∧
      (¬ (ev = .connectFailed ∧ (s.memory i).1 = true) →
        ((s.put i f).collect i).accepting = s.accepting) := by
  have hlife := hs.life i x hx
  rw [accepting_collect (sessions_put_self hx f)]
  constructor
  · rintro ⟨rfl, hmemory⟩
    have hrefs := hlife.refs_of_connectFailed hf
    refine if_pos ⟨hrefs, ?_⟩
    rcases hlife.isRunning_of_dead hf hrefs with ⟨-, hrunning⟩ | ⟨hne, -⟩
    · show f.isRunning.getD (s.memory i).1 = true
      rw [hrunning]
      exact hmemory
    · exact absurd rfl hne
  · intro hnot
    refine if_neg ?_
    rintro ⟨hrefs, hread⟩
    rcases hlife.isRunning_of_dead hf hrefs with ⟨hev, hrunning⟩ | ⟨-, hrunning⟩
    · have hread : f.isRunning.getD (s.memory i).1 = true := hread
      rw [hrunning] at hread
      exact hnot ⟨hev, hread⟩
    · have hread : f.isRunning.getD (s.memory i).1 = true := hread
      rw [hrunning] at hread
      cases hread

theorem serviceUp_of_waiting (hs : s.Ok) (hwait : s.accepting = .waiting) : s.ServiceUp T where
  waiting := hwait
  serves := by
    intro e d outcome hnone hreturns
    have he : s.forwarderMap e = none := by
      cases he : s.forwarderMap e with
      | none => rfl
      | some i => exact absurd ((hs.table e i).mp he) (hnone i)
    obtain ⟨f, hf⟩ := start_of_returnsTrue (α := α) (D := D) hreturns
    refine ⟨s.enrol T e d f, ?_, ?_⟩
    · rw [step, if_pos hwait, accept_new he d hf]
    · rw [sessions_enrol he, List.length_append]
      rfl
  keeps := by
    intro e d outcome s' hreturns he h
    rw [step, if_pos hwait, accept_failed he d (start_of_not_returnsTrue hreturns)] at h
    cases h
    exact ⟨forwarderMap_destruct .., sessions_destruct ..⟩

/-- **The coroutine goes on waiting exactly if the event is harmless.** -/
theorem waiting_step_iff (hs : s.Ok) (hwait : s.accepting = .waiting) {a : ServerEvent E α D B}
    (hfine : SocketFine a) (h : step T s a = some s') :
    s'.accepting = .waiting ↔ s.Harmless a := by
  cases a with
  | datagram e d outcome =>
    obtain ⟨-, h⟩ := Option.ite_none_right_eq_some.mp h
    cases h
    cases he : s.forwarderMap e with
    | none =>
      rw [Harmless, he, imp_iff_right rfl]
      by_cases hreturns : ReturnsTrue outcome
      · obtain ⟨f, hf⟩ := start_of_returnsTrue (α := α) (D := D) hreturns
        obtain ⟨hdies, hlives⟩ := accepting_enrol (T := T) he d hf
        rw [accept_new he d hf, and_iff_right hreturns]
        by_cases hdead : ¬ outcome.Succeeds ∧ (s.memory s.sessions.length).1 = true
        · rw [hdies hdead]
          refine iff_of_false (fun h => nomatch h) (fun h => ?_)
          rw [or_iff_right hdead.1, hdead.2] at h
          cases h
        · rw [hlives hdead]
          refine iff_of_true hwait ?_
          by_cases hopen : outcome.Succeeds
          · exact Or.inl hopen
          · exact Or.inr (Bool.eq_false_iff.mpr (fun h => hdead ⟨hopen, h⟩))
      · -- `Start` returns false, and the coroutine returns, if it gets so far
        rw [accept_failed he d (start_of_not_returnsTrue hreturns), accepting_destruct]
        refine iff_of_false ?_ (fun h => hreturns h.1)
        split <;> exact fun h => nomatch h
    | some i =>
      obtain ⟨x, -, -, -, haccept⟩ := accept_known (T := T) hs.table he d outcome
      rw [haccept, Harmless, he]
      exact iff_of_true hwait (fun h => nomatch h)
  | tryAgain =>
    obtain ⟨-, h⟩ := Option.ite_none_right_eq_some.mp h
    cases h
    exact iff_of_true hwait trivial
  | cancelled => exact absurd hfine not_false
  | receiveError => exact absurd hfine not_false
  | forwarder i ev =>
    obtain ⟨-, x, f, hx, -, hf, rfl⟩ := step_forwarder h
    obtain ⟨hdies, hlives⟩ := accepting_resume hs hx hf
    by_cases hdead : ev = .connectFailed ∧ (s.memory i).1 = true
    · rw [hdies hdead]
      obtain ⟨rfl, hmemory⟩ := hdead
      refine iff_of_false (fun h => nomatch h) (fun h => ?_)
      cases hmemory.symm.trans h
    · rw [hlives hdead]
      refine iff_of_true hwait ?_
      unfold Harmless
      split
      · rename_i hevent
        cases hevent
      · rename_i hevent
        cases hevent
        exact Bool.eq_false_iff.mpr (fun h => hdead ⟨rfl, h⟩)
      · trivial

/-- The coroutine does not come back. -/
theorem down_step (hdown : s.accepting ≠ .waiting) {a : ServerEvent E α D B}
    (h : step T s a = some s') : s'.accepting ≠ .waiting := by
  cases a with
  | forwarder i ev =>
    obtain ⟨-, x, f, -, -, -, rfl⟩ := step_forwarder h
    rcases accepting_collect_or (s.put i f) i with hsame | habort
    · rw [hsame]
      exact hdown
    · rw [habort]
      exact fun h => nomatch h
  | _ => exact absurd (Option.ite_none_right_eq_some.mp h).1 hdown

theorem waiting_iff_along {run : List (ServerEvent E α D B)} {t : FlexServer E α D B} (hs : s.Ok)
    (hwait : s.accepting = .waiting) (hfine : ∀ a ∈ run, SocketFine a)
    (hrun : exec (step T) s run = some t) :
    t.accepting = .waiting ↔ Along (step T) Harmless s run := by
  induction run generalizing s with
  | nil =>
    cases hrun
    exact iff_of_true hwait trivial
  | cons a run ih =>
    obtain ⟨s', hs', hrest⟩ := exec_cons_eq_some.mp hrun
    have hok := ok_step hs hs'
    have hstep := waiting_step_iff hs hwait (hfine a (List.mem_cons_self ..)) hs'
    by_cases ha : s.Harmless a
    · rw [ih hok (hstep.mpr ha) (fun b hb => hfine b (List.mem_cons_of_mem _ hb)) hrest]
      constructor
      · refine fun h => ⟨ha, fun u hu => ?_⟩
        cases hs'.symm.trans hu
        exact h
      · exact fun h => h.2 s' hs'
    · -- the coroutine has ended here, or the server has
      have hdown : s'.accepting ≠ .waiting := fun h => ha (hstep.mp h)
      have hdown' : t.accepting ≠ .waiting :=
        exec_invariant (fun _ _ _ h hstep => down_step h hstep) hdown hrest
      exact iff_of_false hdown' (fun h => ha h.1)

/-- A `Start` that returns false is not harmless. -/
theorem unharmed_of_harmless {a : ServerEvent E α D B} (ha : s.Harmless a) : s.Unharmed T a := by
  cases a with
  | datagram e d outcome => exact fun he hreturns => absurd (ha he).1 hreturns
  | _ => trivial

/-- **The service stays up exactly as long as no `Start` returns false and no destructor aborts
the server.**  In every run in which the accept socket is neither closed nor reports a fatal
error. -/
theorem service_up_iff (T : Transport α D B) (memory : Nat → Bool × Nat)
    (run : List (ServerEvent E α D B)) (s : FlexServer E α D B)
    (hrun : exec (step T) (started memory) run = some s) (hfine : ∀ a ∈ run, SocketFine a) :
    s.ServiceUp T ∧ Along (step T) (Unharmed T) (started memory) run ↔
      Along (step T) Harmless (started memory) run := by
  have hwaiting := waiting_iff_along (ok_started memory) rfl hfine hrun
  constructor
  · exact fun h => hwaiting.mp h.1.waiting
  · intro h
    exact ⟨serviceUp_of_waiting (ok_exec hrun) (hwaiting.mpr h),
      h.imp (fun _ _ ha => unharmed_of_harmless ha)⟩

theorem service_up_twoEndpoints :
    ∃ s : FlexServer Nat UInt8 (List UInt8) (List UInt8),
      exec (step (udp true)) (started zeroed) twoEndpoints = some s ∧ s.released = [1] ∧
      s.ServiceUp (udp true) := by
  refine ⟨_, rfl, rfl, ((service_up_iff (udp true) zeroed twoEndpoints _ rfl ?_).mpr ?_).1⟩
  · intro a ha
    simp only [twoEndpoints, List.mem_cons, List.not_mem_nil, or_false] at ha
    rcases ha with rfl | rfl <;> trivial
  · refine ⟨fun _ => ⟨trivial, Or.inl rfl⟩, fun s hs => ⟨fun _ => ⟨trivial, Or.inr ?_⟩, ?_⟩⟩
    · cases hs
      rfl
    · exact fun _ _ => trivial

/-- The UDP socket for the first endpoint cannot be bound, and whatever memory holds, no datagram
is accepted any more.  The TCP connect for the second endpoint fails, memory holds true in
`isRunning_`, and that is the end of the session of the first. -/
theorem service_down :
    (∀ memory, ∃ s : FlexServer Nat UInt8 (List UInt8) (List UInt8),
      exec (step (udp true)) (started memory) [.datagram 1 [] .udpBindFailed] = some s ∧
      ¬ s.ServiceUp (udp true) ∧ ∀ e d outcome, step (udp true) s (.datagram e d outcome) = none) ∧
    ∃ s : FlexServer Nat UInt8 (List UInt8) (List UInt8),
      exec (step (udp true)) (started (fun _ => (true, 0)))
        [.datagram 1 [] (.completed true [] true), .datagram 2 [] (.completed true [] true),
          .forwarder 1 .connectFailed] = some s ∧
      s.accepting = .aborted .destructor ∧ s.IsLive 1 0 ∧ ¬ s.ServiceUp (udp true) ∧
      ∀ e, step (udp true) s (.forwarder 0 e) = none := by
  constructor
  · intro memory
    have hdown : ((started memory : FlexServer Nat UInt8 (List UInt8) (List UInt8)).accept
        (udp true) 1 [] .udpBindFailed).accepting ≠ .waiting := by
      rw [accept_failed rfl [] rfl, accepting_destruct]
      split <;> exact fun h => nomatch h
    exact ⟨_, rfl, fun h => hdown h.waiting, fun _ _ _ => if_neg hdown⟩
  · refine ⟨_, rfl, rfl, ⟨_, rfl, rfl, by decide⟩, (fun h => nomatch h.waiting), fun e => ?_⟩
    cases e <;> rfl

end FlexServer
end FlexProxy
