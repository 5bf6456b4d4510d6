import FlexProxy.FlexServer

/-! # Sessions do not see each other

Delete from a run of the server everything that is not about one endpoint: the datagrams the
others make `UdpAcceptCoroutine` receive, their forwarders' events, and what happens to the accept
socket.  What is left is a run of the server, and in it the sessions of that endpoint come to
exactly the same states (`isolation`).

The datagrams that the endpoint's own forwarders receive are kept, whoever sent them.  And a
session can end the process, for all of them: a run goes on only up to the abort in a destructor,
and what the destructors of the endpoint's forwarders find in memory is kept too (`FindsSame`).
Nor is anything said of what comes after the release of a pointer that has not been assigned,
which is how a `Start` that returns false ends (`ReleasesAssigned`).
-/
namespace FlexProxy
open TransitionSystem

/-! ## Lists -/

section Lists
variable {β : Type} {p : β → Bool} {f : β → β}

/-- Where an element of a list stands among those that meet `p`. -/
theorem getElem?_filter_countP_take {l : List β} {i : Nat} {x : β} (hx : l[i]? = some x)
    (hp : p x = true) : (l.filter p)[(l.take i).countP p]? = some x := by
  induction l generalizing i with
  | nil => cases hx
  | cons y l ih =>
    cases i with
    | zero =>
      cases hx
      simp [hp]
    | succ i =>
      have hrest := ih (i := i) (by simpa using hx)
      by_cases hy : p y = true
      · simpa [hy] using hrest
      · simpa [hy] using hrest

/-- A change to an element that meets `p` before and after. -/
theorem filter_modify_of_pos (hf : ∀ y, p (f y) = p y) {l : List β} {i : Nat} {x : β}
    (hx : l[i]? = some x) (hp : p x = true) :
    (l.modify i f).filter p = (l.filter p).modify ((l.take i).countP p) f := by
  induction l generalizing i with
  | nil => cases hx
  | cons y l ih =>
    cases i with
    | zero =>
      cases hx
      simp [hp, hf]
    | succ i =>
      have hrest := ih (i := i) (by simpa using hx)
      by_cases hy : p y = true
      · simp [hy, hrest]
      · simp [hy, hrest]

/-- A change to an element that meets `p` neither before nor after. -/
theorem filter_modify_of_neg (hf : ∀ y, p (f y) = p y) {l : List β} {i : Nat} {x : β}
    (hx : l[i]? = some x) (hp : p x = false) : (l.modify i f).filter p = l.filter p := by
  induction l generalizing i with
  | nil => cases hx
  | cons y l ih =>
    cases i with
    | zero =>
      cases hx
      simp [hp, hf]
    | succ i =>
      have hrest := ih (i := i) (by simpa using hx)
      by_cases hy : p y = true
      · simp [hy, hrest]
      · simp [hy, hrest]

end Lists

/-! ## What is about one endpoint -/

namespace FlexServer
variable {E α D B : Type} [DecidableEq E] {T : Transport α D B} {e : E}
  {s s' t t' : FlexServer E α D B}

/-- The session is one of the endpoint `e`. -/
def isFor (e : E) (x : Session E α D B) : Bool := decide (x.endpoint = e)

/-- The sessions of the endpoint `e`. -/
def sessionsOf (s : FlexServer E α D B) (e : E) : List (Session E α D B) :=
  s.sessions.filter (isFor e)

/-- The number of session `i` among those of the endpoint `e`. -/
def rank (s : FlexServer E α D B) (e : E) (i : Nat) : Nat := (s.sessions.take i).countP (isFor e)

/-- What an event is to the endpoint `e`.  Its sessions are numbered on their own. -/
def about (e : E) (s : FlexServer E α D B) : ServerEvent E α D B → List (ServerEvent E α D B)
  | .datagram e' d outcome => if e' = e then [.datagram e' d outcome] else []
  | .forwarder i ev => if (s.sessions[i]?).any (isFor e) then [.forwarder (s.rank e i) ev] else []
  | .tryAgain | .cancelled | .receiveError => []

/-- If the event makes the server create a forwarder for the endpoint `e`, that forwarder finds
the same in `memory` as here. -/
def FindsSame (e : E) (memory : Nat → Bool × Nat) (s : FlexServer E α D B) :
    ServerEvent E α D B → Prop
  | .datagram e' _ _ => e' = e → s.forwarderMap e = none →
    memory (s.rank e s.sessions.length) = s.memory s.sessions.length
  | _ => True

/-- `t` is what the endpoint `e` sees of the server `s`. -/
structure Seen (e : E) (s t : FlexServer E α D B) : Prop where
  sessions : t.sessions = s.sessionsOf e
  memory : ∀ (i : Nat) (x : Session E α D B), s.sessions[i]? = some x → x.endpoint = e →
    t.memory (s.rank e i) = s.memory i
  waiting : s.accepting = .waiting → t.accepting = .waiting
  runs : s.Runs → t.Runs

/-- A coroutine of a session can be resumed. -/
theorem step_resume {i : Nat} {x : Session E α D B} {ev : Event α D}
    {f : Forwarder α D B} (hruns : s.Runs) (hx : s.sessions[i]? = some x)
    (hev : ∀ d, ev ≠ .onUdpData d) (hf : x.forwarder.step T .server ev = some f) :
    step T s (.forwarder i ev) = some ((s.put i f).collect i) := by
  cases ev with
  | onUdpData d => exact absurd rfl (hev d)
  | _ => simp only [step, if_pos hruns, hx, hf, Option.map_some]

/-! ## Numbers -/

theorem rank_length (s : FlexServer E α D B) (e : E) :
    s.rank e s.sessions.length = (s.sessionsOf e).length := by
  rw [rank, List.take_length, List.countP_eq_length_filter, sessionsOf]

theorem rank_eq (s : FlexServer E α D B) (e : E) (i : Nat) :
    s.rank e i = (s.endpoints.take i).countP (fun e' => decide (e' = e)) := by
  rw [rank, endpoints, ← List.map_take, List.countP_map]
  rfl

omit [DecidableEq E] in
theorem endpoints_destruct (s : FlexServer E α D B) (i : Nat) (isRunning : Option Bool)
    (kcpCb : Option Nat) : (s.destruct i isRunning kcpCb).endpoints = s.endpoints := by
  rw [endpoints, sessions_destruct, endpoints]

theorem endpoints_resume (s : FlexServer E α D B) (i : Nat) (f : Forwarder α D B) :
    ((s.put i f).collect i).endpoints = s.endpoints := by
  rw [endpoints, sessions_collect]
  exact endpoints_put s i f

/-- A session keeps its number when another is created. -/
theorem rank_of_sessions_append {l : List (Session E α D B)} {i : Nat}
    (h : s'.sessions = s.sessions ++ l) (hi : i ≤ s.sessions.length) :
    s'.rank e i = s.rank e i := by
  rw [rank, h, List.take_append_of_le_length hi, rank]

/-! ## What is seen -/

/-- Where an endpoint's session stands in what it sees. -/
theorem Seen.session (h : Seen e s t) {i : Nat} {x : Session E α D B}
    (hx : s.sessions[i]? = some x) (hfor : x.endpoint = e) : t.sessions[s.rank e i]? = some x := by
  rw [h.sessions]
  exact getElem?_filter_countP_take hx (decide_eq_true hfor)

theorem Seen.length (h : Seen e s t) : t.sessions.length = s.rank e s.sessions.length := by
  rw [h.sessions, rank_length]

/-- It sees no live session if there is none. -/
theorem Seen.forwarderMap_eq_none (hs : s.Ok) (ht : t.Ok) (h : Seen e s t)
    (he : s.forwarderMap e = none) : t.forwarderMap e = none := by
  cases hmap : t.forwarderMap e with
  | none => rfl
  | some k =>
    obtain ⟨x, hx, hxe, hpos⟩ := (ht.table e k).mp hmap
    have hmem : x ∈ s.sessionsOf e := h.sessions ▸ List.mem_of_getElem? hx
    obtain ⟨i, hi⟩ := List.mem_iff_getElem?.mp (List.mem_filter.mp hmem).1
    have hlive := (hs.table e i).mpr ⟨x, hi, hxe, hpos⟩
    rw [he] at hlive
    cases hlive

/-- A session of another endpoint changes. -/
theorem sessionsOf_put_of_ne {i : Nat} {x : Session E α D B}
    (hx : s.sessions[i]? = some x) (hne : x.endpoint ≠ e) (f : Forwarder α D B) :
    (s.put i f).sessionsOf e = s.sessionsOf e :=
  filter_modify_of_neg (p := isFor e) (f := fun x => { x with forwarder := f }) (fun _ => rfl) hx
    (decide_eq_false hne)

/-- A session of the endpoint changes. -/
theorem sessionsOf_put_of_eq {i : Nat} {x : Session E α D B}
    (hx : s.sessions[i]? = some x) (hfor : x.endpoint = e) (f : Forwarder α D B) :
    (s.put i f).sessionsOf e = (s.sessionsOf e).modify (s.rank e i)
      (fun x => { x with forwarder := f }) :=
  filter_modify_of_pos (p := isFor e) (f := fun x => { x with forwarder := f }) (fun _ => rfl) hx
    (decide_eq_true hfor)

/-- Both go on in the same way, unless the server is aborted. -/
theorem Seen.follow (h : Seen e s t)
    (hacc : s'.accepting = .aborted .destructor ∨
      s'.accepting = s.accepting ∧ t'.accepting = t.accepting ∨
      s'.accepting = .returned ∧ t'.accepting = .returned) :
    (s'.accepting = .waiting → t'.accepting = .waiting) ∧ (s'.Runs → t'.Runs) := by
  unfold Runs
  rcases hacc with hs' | ⟨hs', ht'⟩ | ⟨hs', ht'⟩
  · rw [hs']
    refine ⟨(fun hw => nomatch hw), ?_⟩
    rintro (hw | hr)
    · cases hw
    · cases hr
  · rw [hs', ht']
    exact ⟨h.waiting, h.runs⟩
  · rw [hs', ht']
    exact ⟨id, fun _ => Or.inr rfl⟩

/-- What memory holds for the sessions, whatever happens to them. -/
theorem Seen.memory_congr (h : Seen e s t) (hends : s'.endpoints = s.endpoints)
    (hmemory : s'.memory = s.memory) (hmemory' : t'.memory = t.memory) (i : Nat)
    (x : Session E α D B) (hx : s'.sessions[i]? = some x) (hfor : x.endpoint = e) :
    t'.memory (s'.rank e i) = s'.memory i := by
  have hend : s.endpoints[i]? = some x.endpoint := by
    rw [← hends, endpoints, List.getElem?_map, hx]
    rfl
  rw [endpoints, List.getElem?_map] at hend
  obtain ⟨y, hy, hye⟩ := Option.map_eq_some_iff.mp hend
  rw [rank_eq, hends, ← rank_eq, hmemory, hmemory']
  exact h.memory i y hy (hye.trans hfor)

/-- What memory holds for the sessions when one has been created. -/
theorem Seen.memory_new (h : Seen e s t) {y : Session E α D B}
    (hs' : s'.sessions = s.sessions ++ [y]) (hmemory : s'.memory = s.memory)
    (hmemory' : t'.memory = t.memory)
    (hnew : y.endpoint = e → t.memory (s.rank e s.sessions.length) = s.memory s.sessions.length)
    (j : Nat) (x : Session E α D B) (hx : s'.sessions[j]? = some x) (hfor : x.endpoint = e) :
    t'.memory (s'.rank e j) = s'.memory j := by
  rw [hmemory, hmemory']
  rw [hs'] at hx
  by_cases hj : j < s.sessions.length
  · rw [rank_of_sessions_append hs' (Nat.le_of_lt hj)]
    rw [List.getElem?_append_left hj] at hx
    exact h.memory j x hx hfor
  · have hlt := (List.getElem?_eq_some_iff.mp hx).1
    rw [List.length_append, List.length_singleton] at hlt
    have hlast : j = s.sessions.length := by omega
    subst hlast
    rw [List.getElem?_concat_length] at hx
    cases hx
    rw [rank_of_sessions_append hs' (Nat.le_refl _)]
    exact hnew hfor

/-! ## Control blocks -/

/-- The destructors that the event runs pass to `ikcp_release` what has been assigned: `Start`
does not return false, or the new forwarder's destructor aborts the server before. -/
def ReleasesAssigned (s : FlexServer E α D B) : ServerEvent E α D B → Prop
  | .datagram e _ outcome => s.forwarderMap e = none →
    ReturnsTrue outcome ∨ (s.memory s.sessions.length).1 = true
  | _ => True

/-- The control blocks that have been released are those of forwarders that have been destroyed. -/
def ReleasesOwn (s : FlexServer E α D B) : Prop :=
  ∀ i ∈ s.released, ∃ x, s.sessions[i]? = some x ∧ x.forwarder.refs = 0

theorem ReleasesOwn.collect (h : s.ReleasesOwn) (i : Nat) : (s.collect i).ReleasesOwn := by
  unfold FlexServer.collect
  split
  · rename_i x hx
    split_ifs with hrefs
    · unfold delete destruct
      split_ifs
      · exact h
      · intro k hk
        rcases List.mem_append.mp hk with hk | hk
        · exact h k hk
        · cases List.mem_singleton.mp hk
          exact ⟨x, hx, hrefs⟩
    · exact h
  · exact h

omit [DecidableEq E] in
/-- A live session changes. -/
theorem ReleasesOwn.put (h : s.ReleasesOwn) {i : Nat} {x : Session E α D B}
    (hx : s.sessions[i]? = some x) (hpos : 0 < x.forwarder.refs) (f : Forwarder α D B) :
    (s.put i f).ReleasesOwn := by
  intro k hk
  obtain ⟨y, hy, hrefs⟩ := h k hk
  have hne : k ≠ i := by
    rintro rfl
    cases hx.symm.trans hy
    omega
  exact ⟨y, (sessions_put_ne f hne).trans hy, hrefs⟩

/-- A session is created. -/
theorem ReleasesOwn.enrol (h : s.ReleasesOwn) {e : E} (he : s.forwarderMap e = none) (d : D)
    (f : Forwarder α D B) : (s.enrol T e d f).ReleasesOwn := by
  rw [enrol_eq he]
  refine ReleasesOwn.collect (fun k hk => ?_) _
  obtain ⟨y, hy, hrefs⟩ := h k hk
  exact ⟨y, (List.getElem?_append_left (List.getElem?_eq_some_iff.mp hy).1).trans hy, hrefs⟩

/-- **No control block of a live forwarder is released.** -/
theorem releasesOwn_step (hs : s.Ok) (h : s.ReleasesOwn) {a : ServerEvent E α D B}
    (ha : s.ReleasesAssigned a) (hstep : step T s a = some s') : s'.ReleasesOwn := by
  cases a with
  | datagram e d outcome =>
    obtain ⟨-, hstep⟩ := Option.ite_none_right_eq_some.mp hstep
    cases hstep
    cases he : s.forwarderMap e with
    | none =>
      cases hf : Forwarder.start (α := α) (D := D) .server outcome with
      | none =>
        rw [accept_failed he d hf, destruct]
        rcases ha he with hreturns | hmemory
        · obtain ⟨f, hf'⟩ := start_of_returnsTrue (α := α) (D := D) hreturns
          cases hf.symm.trans hf'
        · rw [if_pos (by exact hmemory)]
          exact h
      | some f =>
        rw [accept_new he d hf]
        exact h.enrol he d f
    | some i =>
      obtain ⟨x, hx, -, hpos, haccept⟩ := accept_known (T := T) hs.table he d outcome
      rw [haccept]
      exact h.put hx hpos _
  | forwarder i ev =>
    obtain ⟨-, x, f, hx, -, hf, rfl⟩ := step_forwarder hstep
    exact (h.put hx (refs_pos_of_step hs hx hf) f).collect i
  | _ =>
    obtain ⟨-, hstep⟩ := Option.ite_none_right_eq_some.mp hstep
    cases hstep
    exact h

theorem releasesOwn_exec {memory : Nat → Bool × Nat} {run : List (ServerEvent E α D B)}
    (hassigned : Along (step T) ReleasesAssigned (started memory) run)
    (h : exec (step T) (started memory) run = some s) : s.ReleasesOwn := by
  have hstep : ∀ (s : FlexServer E α D B) a s', s.Ok ∧ s.ReleasesOwn → s.ReleasesAssigned a →
      step T s a = some s' → s'.Ok ∧ s'.ReleasesOwn :=
    fun _ _ _ hs ha h => ⟨ok_step hs.1 h, releasesOwn_step hs.1 hs.2 ha h⟩
  have hstart : (started memory : FlexServer E α D B).ReleasesOwn := fun _ hi => nomatch hi
  exact (exec_invariant_of hstep ⟨ok_started memory, hstart⟩ hassigned h).2

/-! ## One event -/

/-- `Start` returns true for a new forwarder of the endpoint. -/
theorem Seen.enrol (h : Seen e s t) (he : s.forwarderMap e = none) (he' : t.forwarderMap e = none)
    (hfinds : t.memory (s.rank e s.sessions.length) = s.memory s.sessions.length) (d : D)
    {outcome : StartOutcome B} {f : Forwarder α D B}
    (hf : Forwarder.start .server outcome = some f) :
    Seen e (s.enrol T e d f) (t.enrol T e d f) := by
  have hsessions := sessions_enrol (T := T) he d f
  have hacc : (s.enrol T e d f).accepting = .aborted .destructor ∨
      (s.enrol T e d f).accepting = s.accepting ∧ (t.enrol T e d f).accepting = t.accepting ∨
      (s.enrol T e d f).accepting = .returned ∧ (t.enrol T e d f).accepting = .returned := by
    obtain ⟨hdies, hlives⟩ := accepting_enrol (T := T) he d hf
    obtain ⟨-, hlives'⟩ := accepting_enrol (T := T) he' d hf
    rw [h.length, hfinds] at hlives'
    by_cases hdead : ¬ outcome.Succeeds ∧ (s.memory s.sessions.length).1 = true
    · exact Or.inl (hdies hdead)
    · exact Or.inr (Or.inl ⟨hlives hdead, hlives' hdead⟩)
  obtain ⟨hwaiting, hruns⟩ := h.follow hacc
  refine ⟨?_, ?_, hwaiting, hruns⟩
  · rw [sessions_enrol he', sessionsOf, hsessions, List.filter_append, h.sessions]
    simp [sessionsOf, isFor]
  · exact h.memory_new hsessions (memory_enrol he d f) (memory_enrol he' d f) (fun _ => hfinds)

/-- `Start` returns false for it. -/
theorem Seen.failed (h : Seen e s t) (he : s.forwarderMap e = none) (he' : t.forwarderMap e = none)
    (hfinds : t.memory (s.rank e s.sessions.length) = s.memory s.sessions.length) (d : D)
    {outcome : StartOutcome B}
    (hf : Forwarder.start (α := α) (D := D) .server outcome = none) :
    Seen e (s.accept T e d outcome) (t.accept T e d outcome) := by
  have hacc : (s.accept T e d outcome).accepting = .aborted .destructor ∨
      (s.accept T e d outcome).accepting = s.accepting ∧
        (t.accept T e d outcome).accepting = t.accepting ∨
      (s.accept T e d outcome).accepting = .returned ∧
        (t.accept T e d outcome).accepting = .returned := by
    rw [accept_failed he d hf, accept_failed he' d hf, accepting_destruct, accepting_destruct,
      h.length]
    dsimp only [Option.getD_none]
    rw [hfinds]
    by_cases hdead : (s.memory s.sessions.length).1 = true
    · exact Or.inl (if_pos hdead)
    · exact Or.inr (Or.inr ⟨if_neg hdead, if_neg hdead⟩)
  obtain ⟨hwaiting, hruns⟩ := h.follow hacc
  refine ⟨?_, ?_, hwaiting, hruns⟩
  · rw [accept_failed he' d hf, sessionsOf, accept_failed he d hf, sessions_destruct,
      sessions_destruct]
    exact h.sessions
  · rw [accept_failed he' d hf, accept_failed he d hf]
    exact h.memory_congr (endpoints_destruct ..) (memory_destruct ..) (memory_destruct ..)

/-- A datagram of the endpoint. -/
theorem Seen.accept (hs : s.Ok) (ht : t.Ok) (h : Seen e s t) (d : D) (outcome : StartOutcome B)
    (hfinds : s.forwarderMap e = none →
      t.memory (s.rank e s.sessions.length) = s.memory s.sessions.length) :
    Seen e (s.accept T e d outcome) (t.accept T e d outcome) := by
  cases he : s.forwarderMap e with
  | none =>
    have he' := h.forwarderMap_eq_none hs ht he
    cases hf : Forwarder.start (α := α) (D := D) .server outcome with
    | none => exact h.failed he he' (hfinds he) d hf
    | some f =>
      rw [accept_new he d hf, accept_new he' d hf]
      exact h.enrol he he' (hfinds he) d hf
  | some i =>
    obtain ⟨x, hx, hxe, hpos, haccept⟩ := accept_known (T := T) hs.table he d outcome
    have hx' := h.session hx hxe
    have hlive : t.IsLive e (s.rank e i) := ⟨x, hx', hxe, hpos⟩
    obtain ⟨y, hy, -, -, haccept'⟩ :=
      accept_known (T := T) ht.table ((ht.table e _).mpr hlive) d outcome
    cases hx'.symm.trans hy
    rw [haccept, haccept']
    refine ⟨?_, h.memory_congr (endpoints_put ..) rfl rfl, h.waiting, h.runs⟩
    rw [sessionsOf_put_of_eq hx hxe, ← h.sessions]
    rfl

/-- What happens to the other endpoints leaves alone what is seen, and may abort the server. -/
theorem Seen.of_ne (h : Seen e s t) (hsessions : s'.sessionsOf e = s.sessionsOf e)
    (hmemory : ∀ (i : Nat) (x : Session E α D B), s'.sessions[i]? = some x → x.endpoint = e →
      t.memory (s'.rank e i) = s'.memory i)
    (hwaiting : s'.accepting = .waiting → s.accepting = .waiting) (hruns : s.Runs) :
    Seen e s' t where
  sessions := h.sessions.trans hsessions.symm
  memory := hmemory
  waiting := fun hw => h.waiting (hwaiting hw)
  runs := fun _ => h.runs hruns

/-- A datagram of another endpoint. -/
theorem Seen.accept_of_ne (hs : s.Ok) (h : Seen e s t) (hwait : s.accepting = .waiting) {e' : E}
    (hne : e' ≠ e) (d : D) (outcome : StartOutcome B) : Seen e (s.accept T e' d outcome) t := by
  cases he : s.forwarderMap e' with
  | none =>
    cases hf : Forwarder.start (α := α) (D := D) .server outcome with
    | none =>
      rw [accept_failed he d hf]
      refine h.of_ne ?_ ?_ (fun _ => hwait) (Or.inl hwait)
      · rw [sessionsOf, sessions_destruct]
        rfl
      · exact h.memory_congr (endpoints_destruct ..) (memory_destruct ..) rfl
    | some f =>
      have hsessions := sessions_enrol (T := T) he d f
      rw [accept_new he d hf]
      refine h.of_ne ?_ ?_ (fun _ => hwait) (Or.inl hwait)
      · rw [sessionsOf, sessionsOf, hsessions, List.filter_append]
        simp [isFor, hne]
      · exact h.memory_new hsessions (memory_enrol he d f) rfl (fun heq => absurd heq hne)
  | some i =>
    obtain ⟨x, hx, hxe, -, haccept⟩ := accept_known (T := T) hs.table he d outcome
    rw [haccept]
    exact h.of_ne (sessionsOf_put_of_ne hx (hxe ▸ hne) _)
      (h.memory_congr (endpoints_put ..) rfl rfl) (fun _ => hwait) (Or.inl hwait)

/-- A coroutine of one of the endpoint's sessions is resumed. -/
theorem Seen.resume (hs : s.Ok) (ht : t.Ok) (h : Seen e s t) {i : Nat} {x : Session E α D B}
    (hx : s.sessions[i]? = some x) (hfor : x.endpoint = e) {ev : Event α D}
    {f : Forwarder α D B} (hf : x.forwarder.step T .server ev = some f) :
    Seen e ((s.put i f).collect i) ((t.put (s.rank e i) f).collect (s.rank e i)) := by
  have hx' := h.session hx hfor
  have hacc : ((s.put i f).collect i).accepting = .aborted .destructor ∨
      ((s.put i f).collect i).accepting = s.accepting ∧
        ((t.put (s.rank e i) f).collect (s.rank e i)).accepting = t.accepting ∨
      ((s.put i f).collect i).accepting = .returned ∧
        ((t.put (s.rank e i) f).collect (s.rank e i)).accepting = .returned := by
    obtain ⟨hdies, hlives⟩ := accepting_resume hs hx hf
    obtain ⟨-, hlives'⟩ := accepting_resume ht hx' hf
    rw [h.memory i x hx hfor] at hlives'
    by_cases hdead : ev = .connectFailed ∧ (s.memory i).1 = true
    · exact Or.inl (hdies hdead)
    · exact Or.inr (Or.inl ⟨hlives hdead, hlives' hdead⟩)
  obtain ⟨hwaiting, hruns⟩ := h.follow hacc
  refine ⟨?_, ?_, hwaiting, hruns⟩
  · rw [sessions_collect, sessionsOf, sessions_collect]
    show (t.put (s.rank e i) f).sessions = (s.put i f).sessionsOf e
    rw [sessionsOf_put_of_eq hx hfor, ← h.sessions]
    rfl
  · exact h.memory_congr (endpoints_resume ..) (memory_collect ..) (memory_collect ..)

/-- **One event, seen by an endpoint.** -/
theorem seen_step (hs : s.Ok) (ht : t.Ok) (h : Seen e s t) {a : ServerEvent E α D B}
    (hfinds : s.FindsSame e t.memory a) (hstep : step T s a = some s') :
    ∃ t', exec (step T) t (s.about e a) = some t' ∧ Seen e s' t' := by
  cases a with
  | datagram e' d outcome =>
    obtain ⟨hwait, hstep⟩ := Option.ite_none_right_eq_some.mp hstep
    cases hstep
    by_cases he : e' = e
    · subst he
      refine ⟨t.accept T e' d outcome, ?_, h.accept hs ht d outcome (hfinds rfl)⟩
      rw [about, if_pos rfl, exec_singleton]
      exact if_pos (h.waiting hwait)
    · rw [about, if_neg he]
      exact ⟨t, rfl, h.accept_of_ne hs hwait he d outcome⟩
  | tryAgain =>
    obtain ⟨-, hstep⟩ := Option.ite_none_right_eq_some.mp hstep
    cases hstep
    exact ⟨t, rfl, h⟩
  | cancelled | receiveError =>
    obtain ⟨hwait, hstep⟩ := Option.ite_none_right_eq_some.mp hstep
    cases hstep
    exact ⟨t, rfl, h.of_ne rfl h.memory (fun _ => hwait) (Or.inl hwait)⟩
  | forwarder i ev =>
    obtain ⟨hruns, x, f, hx, hev, hf, rfl⟩ := step_forwarder hstep
    have hfor : (s.sessions[i]?).any (isFor e) = decide (x.endpoint = e) := by
      rw [hx]
      rfl
    by_cases he : x.endpoint = e
    · rw [decide_eq_true he] at hfor
      rw [about, hfor, if_pos rfl, exec_singleton]
      exact ⟨_, step_resume (h.runs hruns) (h.session hx he) hev hf, h.resume hs ht hx he hf⟩
    · rw [decide_eq_false he] at hfor
      rw [about, hfor, if_neg Bool.false_ne_true]
      refine ⟨t, rfl, h.of_ne ?_ ?_ ?_ hruns⟩
      · rw [sessionsOf, sessions_collect]
        exact sessionsOf_put_of_ne hx he f
      · exact h.memory_congr (endpoints_resume ..) (memory_collect ..) rfl
      · intro hwait
        rcases accepting_collect_or (s.put i f) i with hsame | habort
        · exact hsame.symm.trans hwait
        · rw [habort] at hwait
          cases hwait

/-- **Sessions do not see each other.**  What is about one endpoint in a run of the server is a
run of the server, after which its sessions are what they are after the whole run, none of whose
events has released the control block of one that is alive; and it does not end in an abort unless
the whole run does. -/
theorem isolation (T : Transport α D B) (e : E) (memory memory' : Nat → Bool × Nat)
    (run : List (ServerEvent E α D B)) (s : FlexServer E α D B)
    (hrun : exec (step T) (started memory) run = some s)
    (hassigned : Along (step T) ReleasesAssigned (started memory) run)
    (hfinds : Along (step T) (FindsSame e memory') (started memory) run) :
    (∀ i, s.IsLive e i → i ∉ s.released) ∧
    ∃ t, exec (step T) (started memory')
        (translate (step T) (about e) (started memory) run) = some t ∧
      t.sessions = s.sessions.filter (isFor e) ∧ (s.Runs → t.Runs) := by
  have hstep : ∀ (s t : FlexServer E α D B) a s',
      (s.Ok ∧ (t.Ok ∧ t.memory = memory') ∧ Seen e s t) → s.FindsSame e memory' a →
      step T s a = some s' →
      ∃ t', exec (step T) t (s.about e a) = some t' ∧
        s'.Ok ∧ (t'.Ok ∧ t'.memory = memory') ∧ Seen e s' t' := by
    rintro s t a s' ⟨hs, ht, h⟩ ha hstep
    obtain ⟨t', ht', h'⟩ := seen_step hs ht.1 h (ht.2.symm ▸ ha) hstep
    have hkeeps : ∀ (u : FlexServer E α D B) b v, (u.Ok ∧ u.memory = memory') →
        step T u b = some v → v.Ok ∧ v.memory = memory' :=
      fun _ _ _ hu hv => ⟨ok_step hu.1 hv, (memory_step hu.1 hv).trans hu.2⟩
    exact ⟨t', ht', ok_step hs hstep, exec_invariant hkeeps ht ht', h'⟩
  have hstart : Seen e (started memory) (started memory' : FlexServer E α D B) :=
    ⟨rfl, (fun _ _ hx => nomatch hx), id, id⟩
  obtain ⟨t, ht, -, -, h⟩ := exec_translate hstep
    ⟨ok_started memory, ⟨ok_started memory', rfl⟩, hstart⟩ hfinds hrun
  refine ⟨?_, t, ht, h.sessions, h.runs⟩
  rintro i ⟨x, hx, -, hpos⟩ hi
  obtain ⟨y, hy, hrefs⟩ := releasesOwn_exec hassigned hrun i hi
  cases hx.symm.trans hy
  omega

/-- Two clients, the first of which cannot be connected. -/
def secondConnected : List (ServerEvent Nat UInt8 (List UInt8) (List UInt8)) :=
  [.datagram 1 [] (.completed true [] true), .datagram 2 [] (.completed true [] true),
    .forwarder 1 .connected, .forwarder 0 .connectFailed]

/-- What is left of it for the second. -/
theorem isolation_second :
    ∃ s t : FlexServer Nat UInt8 (List UInt8) (List UInt8),
      exec (step (udp true)) (started (fun i => (false, i))) secondConnected = some s ∧
      exec (step (udp true)) (started (fun _ => (false, 1)))
        [.datagram 2 [] (.completed true [] true), .forwarder 0 .connected] = some t ∧
      s.sessions.length = 2 ∧ t.sessions = s.sessions.filter (isFor 2) ∧ t.Runs := by
  have hfinds : Along (step (udp true)) (FindsSame 2 (fun _ => (false, 1)))
      (started (fun i => (false, i))) secondConnected := by
    refine ⟨fun h => absurd h (by decide), ?_⟩
    rintro s hs
    cases hs
    exact ⟨fun _ _ => rfl, fun _ _ => ⟨trivial, fun _ _ => ⟨trivial, fun _ _ => trivial⟩⟩⟩
  have hassigned : Along (step (udp true)) ReleasesAssigned (started (fun i => (false, i)))
      secondConnected := by
    refine ⟨fun _ => Or.inl trivial, fun _ _ => ⟨fun _ => Or.inl trivial, fun _ _ => ⟨trivial, ?_⟩⟩⟩
    exact fun _ _ => ⟨trivial, fun _ _ => trivial⟩
  obtain ⟨-, t, ht, hsessions, hruns⟩ := isolation (udp true) 2 (fun i => (false, i))
    (fun _ => (false, 1)) secondConnected _ rfl hassigned hfinds
  exact ⟨_, t, rfl, ht, rfl, hsessions, hruns (Or.inl rfl)⟩

end FlexServer

end FlexProxy
