import FlexProxy.Datagram
import FlexProxy.Lifecycle

/-! # Retried writes

The kcp to tcp coroutine writes each message that `ikcp_recv` returns with
`AsyncWrite`, and writes the whole message again when that fails with try-again;
`AsyncWrite` does not say how much it had transferred.  `forward` is the coroutine as
a function of the messages and of the outcomes of the attempts; a forwarder writes
just that in every run (`written_eq_forward`).

The bytes written are a prefix of the messages, whatever the messages contain, if and
only if no attempt transfers anything after one that failed with try-again and had
transferred a byte (`forward_prefix_iff`).
-/
namespace FlexProxy

/-- How an attempt to write a message ends. -/
inductive WriteOutcome where
  | success
  /-- Try-again, after `n` bytes. -/
  | tryAgain (n : Nat)
  /-- Any other error, after `n` bytes. -/
  | failure (n : Nat)
  deriving DecidableEq

section Forward
variable {α : Type}

/-- The loops of the kcp to tcp coroutine over the messages `ikcp_recv` returns: the
bytes that reach the TCP socket.  When the messages or the outcomes are used up it
is suspended. -/
def forward : List (List α) → List WriteOutcome → List α
  | [], _ => []
  | _ :: _, [] => []
  | message :: messages, .success :: outcomes => message ++ forward messages outcomes
  | message :: messages, .tryAgain n :: outcomes =>
    message.take n ++ forward (message :: messages) outcomes
  | message :: _, .failure n :: _ => message.take n

/-- No attempt on messages of these lengths transfers a byte. -/
def NothingMore : List Nat → List WriteOutcome → Prop
  | [], _ => True
  | _ :: _, [] => True
  | len :: lengths, .success :: outcomes => len = 0 ∧ NothingMore lengths outcomes
  | len :: lengths, .tryAgain n :: outcomes => min n len = 0 ∧ NothingMore (len :: lengths) outcomes
  | len :: _, .failure n :: _ => min n len = 0

/-- When an attempt fails with try-again and has transferred a byte, nothing more is
transferred. -/
def RetriesClean : List Nat → List WriteOutcome → Prop
  | [], _ => True
  | _ :: _, [] => True
  | _ :: lengths, .success :: outcomes => RetriesClean lengths outcomes
  | len :: lengths, .tryAgain n :: outcomes =>
    if min n len = 0 then RetriesClean (len :: lengths) outcomes
    else NothingMore (len :: lengths) outcomes
  | _ :: _, .failure _ :: _ => True

theorem take_eq_nil {message : List α} {n : Nat} (h : min n message.length = 0) :
    message.take n = [] := by
  rw [← List.length_eq_zero_iff, List.length_take, h]

theorem forward_eq_nil {messages : List (List α)} {outcomes : List WriteOutcome}
    (h : NothingMore (messages.map List.length) outcomes) : forward messages outcomes = [] := by
  induction outcomes generalizing messages with
  | nil => cases messages <;> rfl
  | cons outcome outcomes ih =>
    cases messages with
    | nil => rfl
    | cons message messages =>
      cases outcome with
      | success =>
        show message ++ forward messages outcomes = []
        rw [List.length_eq_zero_iff.mp h.1, ih h.2, List.append_nil]
      | tryAgain n =>
        show message.take n ++ forward (message :: messages) outcomes = []
        have hmore : forward (message :: messages) outcomes = [] := ih h.2
        rw [take_eq_nil h.1, hmore, List.append_nil]
      | failure n => exact take_eq_nil h

/-- **Clean retries keep the order**, whatever the messages contain. -/
theorem forward_prefix {messages : List (List α)} {outcomes : List WriteOutcome}
    (h : RetriesClean (messages.map List.length) outcomes) :
    forward messages outcomes <+: messages.flatten := by
  induction outcomes generalizing messages with
  | nil => cases messages <;> exact List.nil_prefix
  | cons outcome outcomes ih =>
    cases messages with
    | nil => exact List.nil_prefix
    | cons message messages =>
      have hstart : ∀ n, message.take n <+: (message :: messages).flatten := fun n =>
        (List.take_prefix n message).trans (List.prefix_append _ _)
      cases outcome with
      | success =>
        show message ++ forward messages outcomes <+: message ++ messages.flatten
        exact (List.prefix_append_right_inj message).mpr (ih h)
      | tryAgain n =>
        show message.take n ++ forward (message :: messages) outcomes <+: _
        have h' : if min n message.length = 0 then RetriesClean _ outcomes
          else NothingMore ((message :: messages).map List.length) outcomes := h
        by_cases hn : min n message.length = 0
        · rw [if_pos hn] at h'
          rw [take_eq_nil hn]
          have hmore : forward (message :: messages) outcomes <+: (message :: messages).flatten :=
            ih h'
          exact hmore
        · -- part of the message has been written, and nothing more is
          rw [if_neg hn] at h'
          rw [forward_eq_nil h', List.append_nil]
          exact hstart n
      | failure n => exact hstart n

/-! ## When a retry shows

Let one byte of a message be told apart from all others: its first one. -/

/-- A message of `len` bytes that starts with `b` and goes on with `a`. -/
def marked (a b : α) (len : Nat) : List α := (b :: List.replicate (len - 1) a).take len

theorem length_marked (a b : α) (len : Nat) : (marked a b len).length = len := by
  rw [marked, List.length_take, List.length_cons, List.length_replicate]
  omega

/-- Messages of the bytes `a`. -/
def blank (a : α) (lengths : List Nat) : List (List α) := lengths.map (fun n => List.replicate n a)

theorem map_length_blank (a : α) (lengths : List Nat) :
    (blank a lengths).map List.length = lengths := by
  rw [blank, List.map_map]
  exact (List.map_congr_left (fun n _ => List.length_replicate)).trans (List.map_id lengths)

theorem mem_flatten_blank {a x : α} {lengths : List Nat} (h : x ∈ (blank a lengths).flatten) :
    x = a := by
  obtain ⟨message, hmessage, hx⟩ := List.mem_flatten.mp h
  obtain ⟨n, -, rfl⟩ := List.mem_map.mp hmessage
  exact List.eq_of_mem_replicate hx

/-- If anything is transferred, the first byte of the message is the first. -/
theorem forward_eq_cons {b : α} {rest : List α} {messages : List (List α)}
    {outcomes : List WriteOutcome}
    (h : ¬ NothingMore (((b :: rest) :: messages).map List.length) outcomes) :
    ∃ l, forward ((b :: rest) :: messages) outcomes = b :: l := by
  induction outcomes with
  | nil => exact absurd trivial h
  | cons outcome outcomes ih =>
    have htake : ∀ n, ¬ min n (b :: rest).length = 0 → ∃ l, (b :: rest).take n = b :: l := by
      intro n hn
      obtain ⟨k, rfl⟩ := Nat.exists_eq_succ_of_ne_zero (n := n) (by rintro rfl; simp at hn)
      exact ⟨rest.take k, rfl⟩
    cases outcome with
    | success => exact ⟨rest ++ forward messages outcomes, rfl⟩
    | tryAgain n =>
      by_cases hn : min n (b :: rest).length = 0
      · obtain ⟨l, hl⟩ := ih (fun h' => h ⟨hn, h'⟩)
        refine ⟨l, ?_⟩
        show (b :: rest).take n ++ _ = _
        rw [take_eq_nil hn, hl]
        rfl
      · obtain ⟨l, hl⟩ := htake n hn
        refine ⟨l ++ forward ((b :: rest) :: messages) outcomes, ?_⟩
        show (b :: rest).take n ++ _ = _
        rw [hl]
        rfl
    | failure n => exact htake n h

/-- A byte written again after `n > 0` bytes of its message shows in blank
messages. -/
theorem not_prefix_of_again {a b : α} (hab : a ≠ b) {len n : Nat} (hn : min n len ≠ 0)
    {lengths : List Nat} {l : List α} :
    ¬ (marked a b len).take n ++ b :: l <+: (marked a b len :: blank a lengths).flatten := by
  rintro ⟨t, ht⟩
  obtain ⟨len, rfl⟩ := Nat.exists_eq_succ_of_ne_zero (n := len) (by omega)
  have hmarked : marked a b (len + 1) = b :: List.replicate len a := by
    rw [marked, Nat.add_sub_cancel]
    exact List.take_of_length_le (by rw [List.length_cons, List.length_replicate])
  obtain ⟨n, rfl⟩ := Nat.exists_eq_succ_of_ne_zero (n := n) (by omega)
  rw [List.flatten_cons, hmarked, List.take_succ_cons] at ht
  have htail : (List.replicate len a).take n ++ b :: l ++ t =
      List.replicate len a ++ (blank a lengths).flatten := (List.cons.inj ht).2
  have hmem : b ∈ List.replicate len a ++ (blank a lengths).flatten := by
    rw [← htail]
    simp
  rcases List.mem_append.mp hmem with hmem | hmem
  · exact hab (List.eq_of_mem_replicate hmem).symm
  · exact hab (mem_flatten_blank hmem).symm

/-- Retries that are not clean show, if there are two bytes to tell apart. -/
theorem retriesClean_of_forall {a b : α} (hab : a ≠ b) {lengths : List Nat}
    {outcomes : List WriteOutcome}
    (h : ∀ messages : List (List α), messages.map List.length = lengths →
      forward messages outcomes <+: messages.flatten) : RetriesClean lengths outcomes := by
  induction outcomes generalizing lengths with
  | nil => cases lengths <;> trivial
  | cons outcome outcomes ih =>
    cases lengths with
    | nil => trivial
    | cons len lengths =>
      cases outcome with
      | success =>
        refine ih (fun messages hlen => ?_)
        have hfirst := h (marked a b len :: messages) (by rw [List.map_cons, length_marked, hlen])
        exact (List.prefix_append_right_inj _).mp hfirst
      | tryAgain n =>
        show if min n len = 0 then RetriesClean (len :: lengths) outcomes else _
        by_cases hn : min n len = 0
        · rw [if_pos hn]
          refine ih (fun messages hlen => ?_)
          have hfirst := h messages hlen
          cases messages with
          | nil => cases hlen
          | cons message messages =>
            have hmessage : message.length = len := (List.cons.inj hlen).1
            have hnil : message.take n = [] := take_eq_nil (hmessage ▸ hn)
            have hforward : forward (message :: messages) (.tryAgain n :: outcomes) =
                message.take n ++ forward (message :: messages) outcomes := rfl
            rwa [hforward, hnil] at hfirst
        · -- the first byte has been written; if more is, it is that byte again
          rw [if_neg hn]
          by_contra hmore
          obtain ⟨k, rfl⟩ := Nat.exists_eq_succ_of_ne_zero (n := len) (by omega)
          have hlen : (marked a b (k + 1) :: blank a lengths).map List.length =
              (k + 1) :: lengths := by
            rw [List.map_cons, length_marked, map_length_blank]
          have hfirst := h _ hlen
          rw [← hlen] at hmore
          obtain ⟨l, hl⟩ : ∃ l, forward (marked a b (k + 1) :: blank a lengths) outcomes = b :: l :=
            forward_eq_cons hmore
          have hforward : forward (marked a b (k + 1) :: blank a lengths) (.tryAgain n :: outcomes) =
              (marked a b (k + 1)).take n ++ b :: l := congrArg (_ ++ ·) hl
          rw [hforward] at hfirst
          exact not_prefix_of_again hab hn hfirst
      | failure n => trivial

end Forward

/-! ## The coroutine in a forwarder -/

namespace Forwarder
open TransitionSystem
variable {α D B : Type} {T : Transport α D B} {role : Role} {f g : Forwarder α D B}

/-- What the write in progress has transferred. -/
def transferred (f : Forwarder α D B) : Nat := f.message.length - f.pending.length

/-- The message that `ikcp_recv` returned when `e` led to `f`, if it returned one. -/
def returned (f : Forwarder α D B) (e : Event α D) : List (List α) :=
  match e, f.writer with
  | .writerRun _, .writing _ => [f.message]
  | .tick _, .writing _ => [f.message]
  | .writeOk, .writing _ => [f.message]
  | _, _ => []

/-- How the write in progress ends with `e`, if it does. -/
def outcome (f : Forwarder α D B) : Event α D → List WriteOutcome
  | .writeOk => [.success]
  | .writeAgain => [.tryAgain f.transferred]
  | .writeError => [.failure f.transferred]
  | _ => []

/-- A write in progress at the end of a run counts as one that goes no further. -/
def unfinished (f : Forwarder α D B) : List WriteOutcome :=
  match f.writer with
  | .writing _ => [.failure f.transferred]
  | _ => []

variable (T role) in
/-- The messages that `ikcp_recv` returns in a run. -/
def messages : Forwarder α D B → List (Event α D) → List (List α)
  | _, [] => []
  | f, e :: run =>
    match step T role f e with
    | none => []
    | some g => g.returned e ++ messages g run

variable (T role) in
/-- The outcomes of the writes of a run. -/
def outcomes : Forwarder α D B → List (Event α D) → List WriteOutcome
  | f, [] => f.unfinished
  | f, e :: run =>
    match step T role f e with
    | none => []
    | some g => f.outcome e ++ outcomes g run

/-- The messages `current` are being written, `before` has been written of those
before them. -/
def AtWrite (f : Forwarder α D B) (before : List α) (current : List (List α)) : Prop :=
  match f.writer with
  | .writing _ => current = [f.message] ∧ f.pending = f.message.drop f.transferred ∧
      f.written = before ++ f.message.take f.transferred
  | .retrying => current = [f.message] ∧ f.written = before
  | _ => current = [] ∧ f.written = before

theorem AtWrite.writing {before : List α} {current : List (List α)} (h : AtWrite f before current)
    {live : Bool} (hw : f.writer = .writing live) :
    current = [f.message] ∧ f.pending = f.message.drop f.transferred ∧
      f.written = before ++ f.message.take f.transferred := by
  rw [AtWrite, hw] at h
  exact h

theorem AtWrite.of_writing {live : Bool} (hw : f.writer = .writing live) {before : List α}
    (hp : f.pending = f.message.drop f.transferred)
    (hwritten : f.written = before ++ f.message.take f.transferred) :
    AtWrite f before [f.message] := by
  rw [AtWrite, hw]
  exact ⟨rfl, hp, hwritten⟩

/-- An attempt that has transferred nothing yet. -/
theorem atWrite_start {live : Bool} (hw : f.writer = .writing live) (hp : f.pending = f.message) :
    AtWrite f f.written [f.message] := by
  have hzero : f.transferred = 0 := by
    rw [transferred, hp, Nat.sub_self]
  apply AtWrite.of_writing hw
  · rw [hzero, hp, List.drop_zero]
  · rw [hzero, List.take_zero, List.append_nil]

theorem AtWrite.congr {before : List α} {current : List (List α)} (h : AtWrite f before current)
    (hw : g.writer = f.writer) (hm : g.message = f.message) (hp : g.pending = f.pending)
    (hwritten : g.written = f.written) : AtWrite g before current := by
  rw [AtWrite, transferred, hw, hm, hp, hwritten]
  exact h

theorem AtWrite.sameWork {before : List α} {current : List (List α)} (h : AtWrite f before current)
    (hsame : SameWork f g) : AtWrite g before current :=
  h.congr hsame.writer (congrArg DataPath.message hsame.dataPath)
    (congrArg DataPath.pending hsame.dataPath) (congrArg DataPath.written hsame.dataPath)

/-- A message was returned if and only if one is being written now. -/
theorem atWrite_drain {e : Event α D} (he : (∃ now, e = .writerRun now) ∨ (∃ now, e = .tick now) ∨
      e = .writeOk) : AtWrite f.drain f.written (f.drain.returned e) := by
  unfold drain
  dsimp only
  split
  · rcases he with ⟨now, rfl⟩ | ⟨now, rfl⟩ | rfl <;> exact ⟨rfl, rfl⟩
  · have hwriting : AtWrite { f with toDataPath := f.toDataPath.recv.1, writer := .writing f.isOpen }
        f.written [f.toDataPath.recv.1.message] := atWrite_start rfl rfl
    rcases he with ⟨now, rfl⟩ | ⟨now, rfl⟩ | rfl <;> exact hwriting

theorem atWrite_writerLoop {e : Event α D} (he : (∃ now, e = .writerRun now) ∨ (∃ now, e = .tick now)) :
    AtWrite (f.writerLoop T) f.written ((f.writerLoop T).returned e) := by
  unfold writerLoop
  split
  · exact atWrite_drain (he.imp_right Or.inl)
  · rcases he with ⟨now, rfl⟩ | ⟨now, rfl⟩ <;> exact ⟨rfl, rfl⟩

/-- Bytes move from what is pending to what is written. -/
theorem atWrite_transfer {before : List α} {current : List (List α)} (h : AtWrite f before current)
    {live : Bool} (hw : f.writer = .writing live) {n : Nat} (hn : n ≤ f.pending.length) :
    AtWrite { f with toDataPath := f.toDataPath.transfer n } before current := by
  obtain ⟨rfl, hp, hwritten⟩ := h.writing hw
  have hlen := congrArg List.length hp
  rw [List.length_drop] at hlen
  have hsum : f.message.length - (f.pending.drop n).length = f.transferred + n := by
    rw [List.length_drop, transferred]
    rw [transferred] at hlen
    omega
  have hmore : AtWrite { f with toDataPath := f.toDataPath.transfer n } before [f.message] := by
    refine AtWrite.of_writing (f := { f with toDataPath := f.toDataPath.transfer n }) hw ?_ ?_
    · show f.pending.drop n = f.message.drop (f.message.length - (f.pending.drop n).length)
      rw [hsum, hp, List.drop_drop]
    · show f.written ++ f.pending.take n =
        before ++ f.message.take (f.message.length - (f.pending.drop n).length)
      rw [hsum, hwritten, hp, List.take_add, List.append_assoc]
  exact hmore

/-- **One event of the coroutine is one turn of its loops.** -/
theorem atWrite_step (hf : Calm True f) {before : List α} {current : List (List α)}
    (h : AtWrite f before current) {e : Event α D} (he : e ≠ .writeError)
    (hstep : step T role f e = some g) :
    ∃ before' current', AtWrite g before' current' ∧ ∀ messages outcomes,
      before ++ forward (current ++ (g.returned e ++ messages)) (f.outcome e ++ outcomes) =
        before' ++ forward (current' ++ messages) outcomes := by
  -- an event that leaves the coroutine alone
  have hsame : ∀ g : Forwarder α D B, AtWrite g before current → g.returned e = [] → f.outcome e = [] →
      ∃ before' current', AtWrite g before' current' ∧ ∀ messages outcomes,
        before ++ forward (current ++ (g.returned e ++ messages)) (f.outcome e ++ outcomes) =
          before' ++ forward (current' ++ messages) outcomes := by
    intro g hg hr ho
    refine ⟨before, current, hg, fun messages outcomes => ?_⟩
    rw [hr, ho]
    rfl
  cases hwork : e.work T f.toDataPath with
  | some p =>
    obtain ⟨hm, hp, hwritten, -⟩ := work_frame T hwork hstep
    have hat : AtWrite { f with toDataPath := p } before current := h.congr rfl hm hp hwritten
    have hquiet : g.returned e = [] ∧ f.outcome e = [] := by
      cases e with
      | writerRun now | tick now | writeOk | writeAgain | writeError => cases hwork
      | _ => exact ⟨rfl, rfl⟩
    exact hsame _ (hat.sameWork (sameWork_step T hwork hstep)) hquiet.1 hquiet.2
  | none =>
    cases e with
    | connected =>
      obtain ⟨hs, hstep⟩ := Option.ite_none_right_eq_some.mp hstep
      cases hstep
      have hw := (hf.starting hs).2
      rw [AtWrite, hw] at h
      exact hsame _ h rfl rfl
    | connectFailed =>
      obtain ⟨-, hstep⟩ := Option.ite_none_right_eq_some.mp hstep
      cases hstep
      exact hsame _ (h.congr rfl rfl rfl rfl) rfl rfl
    | writerRun now =>
      obtain ⟨hw, hstep⟩ := Option.ite_none_right_eq_some.mp hstep
      cases hstep
      rw [AtWrite, hw] at h
      obtain ⟨rfl, rfl⟩ := h
      exact ⟨_, _, atWrite_writerLoop (Or.inl ⟨now, rfl⟩), fun _ _ => rfl⟩
    | tick now =>
      obtain ⟨⟨hw, -⟩, hstep⟩ := Option.ite_none_right_eq_some.mp hstep
      cases hstep
      rw [AtWrite, hw] at h
      obtain ⟨rfl, rfl⟩ := h
      exact ⟨_, _, atWrite_writerLoop (Or.inr ⟨now, rfl⟩), fun _ _ => rfl⟩
    | transfer n =>
      obtain ⟨⟨hw, -, hn⟩, hstep⟩ := Option.ite_none_right_eq_some.mp hstep
      cases hstep
      exact hsame _ (atWrite_transfer h hw hn) rfl rfl
    | writeOk =>
      -- all of the message is written, and the inner loop goes on
      obtain ⟨⟨hw, hp⟩, hstep⟩ := Option.ite_none_right_eq_some.mp hstep
      cases hstep
      obtain ⟨rfl, -, hwritten⟩ := h.writing hw
      refine ⟨_, _, atWrite_drain (Or.inr (Or.inr rfl)), fun messages outcomes => ?_⟩
      have hall : f.message.take f.transferred = f.message := by
        rw [transferred, hp, Nat.sub_zero, List.take_length]
      rw [hwritten, hall, List.append_assoc]
      rfl
    | writeAgain =>
      -- what this attempt has transferred stays written, and the next one starts over
      obtain ⟨hw, hstep⟩ := Option.ite_none_right_eq_some.mp hstep
      cases hstep
      obtain ⟨rfl, -, hwritten⟩ := h.writing hw
      refine ⟨f.written, [f.message], ⟨rfl, rfl⟩, fun messages outcomes => ?_⟩
      rw [hwritten, List.append_assoc]
      rfl
    | writeError => exact absurd rfl he
    | retry =>
      obtain ⟨hw, hstep⟩ := Option.ite_none_right_eq_some.mp hstep
      cases hstep
      rw [AtWrite, hw] at h
      obtain ⟨rfl, rfl⟩ := h
      exact hsame _ (atWrite_start rfl rfl) rfl rfl
    | _ => cases hwork

/-- A coroutine that has returned writes no more. -/
theorem returned_stays (hf : Calm True f) (hw : f.writer = .returned) {e : Event α D}
    (hstep : step T role f e = some g) :
    g.writer = .returned ∧ g.written = f.written ∧ g.returned e = [] := by
  have hstatus : f.status .writer = .returned := congrArg Writer.status hw
  have hne : ∀ c, f.status c = .alive → Coroutine.writer ≠ c := by
    rintro c halive rfl
    rw [hstatus] at halive
    cases halive
  have hg : g.writer = .returned := by
    have hreturned : ∀ w : Writer, w.status = .returned → w = .returned := by
      rintro (_ | _ | _ | _ | _ | _) h
      · cases h
      · cases h
      · cases h
      · cases h
      · cases h
      · rfl
    apply hreturned
    show g.status .writer = .returned
    cases moves_of_step hstep with
    | stays status => rw [status, hstatus]
    | ends c alive loop status => rw [status, Function.update_of_ne (hne c alive), hstatus]
    | stops c cause alive eof status => rw [status, Function.update_of_ne (hne c alive), hstatus]
    | connects before status =>
      have hunborn := (hf.starting before).2
      rw [hw] at hunborn
      cases hunborn
    | fails event before status => rw [status, hstatus]
  have hnone : g.returned e = [] := by
    unfold returned
    rw [hg]
    cases e <;> rfl
  have he : e ≠ .writeError := by
    rintro rfl
    have halive := alive_of_resumes (c := .writer) rfl hstep
    rw [hstatus] at halive
    cases halive
  have hat : AtWrite f f.written [] := by
    rw [AtWrite, hw]
    exact ⟨rfl, rfl⟩
  obtain ⟨before, current, hafter, hsame⟩ := atWrite_step hf hat he hstep
  rw [AtWrite, hg] at hafter
  obtain ⟨rfl, hwritten⟩ := hafter
  have hempty := hsame [] []
  rw [hnone] at hempty
  have hbefore : f.written = before := by simpa [forward] using hempty
  exact ⟨hg, hwritten.trans hbefore.symm, hnone⟩

theorem calm_step (hf : Calm True f) {e : Event α D} (hstep : step T role f e = some g) :
    Calm True g := by
  have harrives : ∀ d, e.datagram = some d → (fun _ => True) d := fun _ _ => trivial
  exact (step_dataPath T hf (fun _ => trivial) harrives hstep).1

theorem returned_exec {run : List (Event α D)} (hf : Calm True f) (hw : f.writer = .returned)
    (hrun : exec (step T role) f run = some g) : g.written = f.written := by
  induction run generalizing f with
  | nil =>
    cases hrun
    rfl
  | cons e run ih =>
    obtain ⟨f', hstep, hrun⟩ := exec_cons_eq_some.mp hrun
    obtain ⟨hw', hwritten, -⟩ := returned_stays hf hw hstep
    exact (ih (calm_step hf hstep) hw' hrun).trans hwritten

theorem messages_cons {e : Event α D} {run : List (Event α D)} (hstep : step T role f e = some g) :
    messages T role f (e :: run) = g.returned e ++ messages T role g run := by
  rw [messages, hstep]

theorem outcomes_cons {e : Event α D} {run : List (Event α D)} (hstep : step T role f e = some g) :
    outcomes T role f (e :: run) = f.outcome e ++ outcomes T role g run := by
  rw [outcomes, hstep]

theorem forward_unfinished {before : List α} {current : List (List α)} (h : AtWrite f before current) :
    f.written = before ++ forward current f.unfinished := by
  unfold AtWrite at h
  unfold unfinished
  cases hw : f.writer with
  | writing live =>
    rw [hw] at h
    obtain ⟨rfl, -, hwritten⟩ := h
    exact hwritten
  | retrying =>
    rw [hw] at h
    obtain ⟨rfl, hwritten⟩ := h
    exact hwritten.trans (List.append_nil _).symm
  | _ =>
    rw [hw] at h
    obtain ⟨rfl, hwritten⟩ := h
    exact hwritten.trans (List.append_nil _).symm

/-- What the coroutine writes from any state on: the rest of the messages it is at,
and those returned later. -/
theorem written_exec {run : List (Event α D)} (hf : Calm True f) {before : List α}
    {current : List (List α)} (h : AtWrite f before current)
    (hrun : exec (step T role) f run = some g) :
    g.written = before ++ forward (current ++ messages T role f run) (outcomes T role f run) := by
  induction run generalizing f before current with
  | nil =>
    cases hrun
    rw [messages, outcomes, List.append_nil]
    exact forward_unfinished h
  | cons e run ih =>
    obtain ⟨f', hstep, hrest⟩ := exec_cons_eq_some.mp hrun
    rw [messages_cons hstep, outcomes_cons hstep]
    by_cases he : e = .writeError
    · -- the coroutine returns: what was transferred before stays
      subst he
      obtain ⟨⟨live, hw⟩, heq⟩ := Option.ite_none_right_eq_some.mp hstep
      obtain ⟨rfl, -, hwritten⟩ := h.writing hw
      have hreturned : f'.writer = .returned := by
        cases heq
        rfl
      have hsame : f'.written = f.written := by
        cases heq
        rfl
      rw [returned_exec (calm_step hf hstep) hreturned hrest, hsame, hwritten]
      rfl
    · obtain ⟨before', current', hat, hturn⟩ := atWrite_step hf h he hstep
      rw [hturn]
      exact ih (calm_step hf hstep) hat hrest

/-- **What a forwarder writes in a run** is what its kcp to tcp coroutine makes of the
messages `ikcp_recv` returns and of the outcomes of its writes. -/
theorem written_eq_forward {buffer : B} {alive : Bool} {run : List (Event α D)}
    (hrun : exec (step T role) (started role buffer alive) run = some f) :
    f.written = forward (messages T role (started role buffer alive) run)
      (outcomes T role (started role buffer alive) run) := by
  have hat : AtWrite (started (α := α) (D := D) role buffer alive) [] [] := by
    cases role with
    | client => exact ⟨rfl, rfl⟩
    | server => exact ⟨rfl, rfl⟩
  exact written_exec (calm_started role True buffer alive) hat hrun

end Forwarder

/-- **When a retried write duplicates nothing**: the bytes that reach the TCP socket are
a prefix of the messages, whatever these contain, if and only if the retries are
clean. -/
theorem forward_prefix_iff (lengths : List Nat) (outcomes : List WriteOutcome) :
    (∀ messages : List (List UInt8), messages.map List.length = lengths →
      forward messages outcomes <+: messages.flatten) ↔ RetriesClean lengths outcomes :=
  ⟨retriesClean_of_forall (by decide : (0 : UInt8) ≠ 1),
    fun h messages hlen => forward_prefix (hlen ▸ h)⟩

/-- The server's forwarder gets the message `[1, 2]`, writes its first byte, has to try
again, and writes it all. -/
def partialWrite : List (Event UInt8 (List UInt8)) :=
  [.onUdpData (datagramOf [segmentOf 81 1024 7 0 0 [1, 2]]), .connected, .writerRun 9, .transfer 1,
    .writeAgain, .retry, .transfer 2, .writeOk]

theorem forward_not_prefix :
    (∃ f : Forwarder UInt8 (List UInt8) (List UInt8),
      TransitionSystem.exec (Forwarder.step (udp true) .server) (Forwarder.started .server [] true)
        partialWrite = some f ∧ f.written = [1, 1, 2]) ∧
    Forwarder.messages (udp true) .server (Forwarder.started .server [] true) partialWrite =
      [[1, 2]] ∧
    Forwarder.outcomes (udp true) .server (Forwarder.started .server [] true) partialWrite =
      [.tryAgain 1, .success] ∧
    ¬ forward [[1, 2]] [.tryAgain 1, .success] <+: ([[1, 2]] : List (List UInt8)).flatten := by
  have hobs : (TransitionSystem.exec (Forwarder.step (udp true) .server)
      (Forwarder.started .server [] true) partialWrite).map
        (fun f : Forwarder UInt8 (List UInt8) (List UInt8) => f.written) = some [1, 1, 2] := by
    decide +kernel
  obtain ⟨f, hrun, hwritten⟩ := Option.map_eq_some_iff.mp hobs
  exact ⟨⟨f, hrun, hwritten⟩, by decide +kernel, by decide +kernel, by decide⟩

end FlexProxy
