import Mathlib.Data.List.Basic

/-! # Runs of a partial step function

A system is given by a **partial step function** `step : S → A → Option S`:
`step s a = none` when action `a` is not possible in state `s`.  A run is a
list of actions, executed from left to right (`exec`).  This module says once
how a fact about one step becomes a fact about every run:

* `exec_invariant`: what every step preserves holds after every run;
* `exec_invariant_of`: the same for runs whose actions all meet a condition on
  the state they are taken in (`Along`);
* `exec_invariant_below`: the same for runs that end below a bound which can
  only be lost, never regained;
* `exec_measure`: a quantity that some actions use up bounds their number;
* `exec_count`: what holds along with the number of steps of a kind (`countAlong`);
* `exec_history`: what holds along with a history of the run (`translate`);
* `exec_rel`: two systems that go on side by side, one step at a time;
* `exec_simulates`: a system that answers every step of another one;
* `exec_translate`: a system that takes some steps, or none, for every step of another one.
-/
namespace TransitionSystem
variable {S A : Type}

/-- The state after a run, `none` if some action of it was not possible. -/
def exec (step : S → A → Option S) : S → List A → Option S
  | s, [] => some s
  | s, a :: as => (step s a).bind (fun s' => exec step s' as)

variable {step : S → A → Option S}

@[simp] theorem exec_nil (s : S) : exec step s [] = some s := rfl

theorem exec_cons (s : S) (a : A) (as : List A) :
    exec step s (a :: as) = (step s a).bind (fun s' => exec step s' as) := rfl

theorem exec_cons_eq_some {s t : S} {a : A} {as : List A} :
    exec step s (a :: as) = some t ↔ ∃ s', step s a = some s' ∧ exec step s' as = some t := by
  rw [exec_cons, Option.bind_eq_some_iff]

theorem exec_append (s : S) (as bs : List A) :
    exec step s (as ++ bs) = (exec step s as).bind (fun s' => exec step s' bs) := by
  induction as generalizing s with
  | nil => rfl
  | cons a as ih =>
    rw [List.cons_append, exec_cons, exec_cons, Option.bind_assoc]
    exact congrArg _ (funext fun s' => ih s')

theorem exec_append_eq_some {s t : S} {as bs : List A} :
    exec step s (as ++ bs) = some t ↔
      ∃ s', exec step s as = some s' ∧ exec step s' bs = some t := by
  rw [exec_append, Option.bind_eq_some_iff]

theorem exec_singleton (s : S) (a : A) : exec step s [a] = step s a := by
  rw [exec_cons]
  cases step s a <;> rfl

/-! ## Invariants -/

/-- **What every step preserves holds after every run.** -/
theorem exec_invariant {Inv : S → Prop}
    (hstep : ∀ s a s', Inv s → step s a = some s' → Inv s')
    {s t : S} {as : List A} (hs : Inv s) (h : exec step s as = some t) : Inv t := by
  induction as generalizing s with
  | nil =>
    cases h
    exact hs
  | cons a as ih =>
    obtain ⟨s', hs', ht⟩ := exec_cons_eq_some.mp h
    exact ih (hstep s a s' hs hs') ht

/-- Every action of the run meets `P` in the state it is taken in. -/
def Along (step : S → A → Option S) (P : S → A → Prop) : S → List A → Prop
  | _, [] => True
  | s, a :: as => P s a ∧ ∀ s', step s a = some s' → Along step P s' as

instance decidableAlong {P : S → A → Prop} [∀ s a, Decidable (P s a)] (s : S) (as : List A) :
    Decidable (Along step P s as) :=
  match as with
  | [] => isTrue trivial
  | a :: as =>
    match hs : step s a with
    | none => decidable_of_iff (P s a) (by simp [Along, hs])
    | some s' =>
      have := decidableAlong (P := P) s' as
      decidable_of_iff (P s a ∧ Along step P s' as) (by simp [Along, hs])

/-- A condition on actions alone holds along every run made of such actions. -/
theorem along_of_forall {P : A → Prop} (s : S) {as : List A} (h : ∀ a ∈ as, P a) :
    Along step (fun _ a => P a) s as := by
  induction as generalizing s with
  | nil => trivial
  | cons a as ih =>
    exact ⟨h a (List.mem_cons_self ..),
      fun s' _ => ih s' (fun b hb => h b (List.mem_cons_of_mem _ hb))⟩

theorem Along.imp {P Q : S → A → Prop} (hPQ : ∀ s a, P s a → Q s a) {s : S} {as : List A}
    (h : Along step P s as) : Along step Q s as := by
  induction as generalizing s with
  | nil => trivial
  | cons a as ih => exact ⟨hPQ s a h.1, fun s' hs' => ih (h.2 s' hs')⟩

theorem along_append {P : S → A → Prop} {s : S} {as bs : List A} (h : Along step P s as)
    (h' : ∀ t, exec step s as = some t → Along step P t bs) : Along step P s (as ++ bs) := by
  induction as generalizing s with
  | nil => exact h' s rfl
  | cons a as ih =>
    refine ⟨h.1, fun s' hs' => ih (h.2 s' hs') (fun t ht => h' t ?_)⟩
    exact exec_cons_eq_some.mpr ⟨s', hs', ht⟩

/-- What every step that meets `P` preserves holds after every run whose steps
all meet `P`. -/
theorem exec_invariant_of {Inv : S → Prop} {P : S → A → Prop}
    (hstep : ∀ s a s', Inv s → P s a → step s a = some s' → Inv s')
    {s t : S} {as : List A} (hs : Inv s) (hP : Along step P s as)
    (h : exec step s as = some t) : Inv t := by
  induction as generalizing s with
  | nil =>
    cases h
    exact hs
  | cons a as ih =>
    obtain ⟨s', hs', ht⟩ := exec_cons_eq_some.mp h
    exact ih (hstep s a s' hs hP.1 hs') (hP.2 s' hs') ht

/-- **Invariants of bounded runs.**  `Below` can only be lost along a run, so if
it holds at the end it held all along, and each step may use it.  That it can only
be lost may rest on an invariant `Base` that needs no bound. -/
theorem exec_invariant_below {Base Inv Below : S → Prop} {P : S → A → Prop}
    (hbase : ∀ s a s', Base s → P s a → step s a = some s' → Base s')
    (hbelow : ∀ s a s', Base s → P s a → step s a = some s' → Below s' → Below s)
    (hstep : ∀ s a s', Base s → Inv s → P s a → Below s' → step s a = some s' → Inv s')
    {s t : S} {as : List A} (hb : Base s) (hs : Inv s) (hP : Along step P s as)
    (h : exec step s as = some t) (ht : Below t) : Inv t := by
  have hback : ∀ {as : List A} {s : S}, Base s → Along step P s as → exec step s as = some t →
      Below s := by
    intro as
    induction as with
    | nil =>
      intro s _ _ h
      cases h
      exact ht
    | cons a as ih =>
      intro s hb hP h
      obtain ⟨s', hs', h'⟩ := exec_cons_eq_some.mp h
      exact hbelow s a s' hb hP.1 hs' (ih (hbase s a s' hb hP.1 hs') (hP.2 s' hs') h')
  induction as generalizing s with
  | nil =>
    cases h
    exact hs
  | cons a as ih =>
    obtain ⟨s', hs', h'⟩ := exec_cons_eq_some.mp h
    have hb' := hbase s a s' hb hP.1 hs'
    exact ih hb' (hstep s a s' hb hs hP.1 (hback hb' (hP.2 s' hs') h') hs') (hP.2 s' hs') h'

/-- **A measure that actions use up.**  If no action raises `μ` and the actions
that satisfy `p` lower it, a run contains at most as many of them as `μ` has
dropped by. -/
theorem exec_measure {Inv : S → Prop} (μ : S → Nat) (p : A → Bool)
    (hinv : ∀ s a s', Inv s → step s a = some s' → Inv s')
    (hμ : ∀ s a s', Inv s → step s a = some s' → μ s' + (if p a then 1 else 0) ≤ μ s)
    {s t : S} {as : List A} (hs : Inv s) (h : exec step s as = some t) :
    μ t + as.countP p ≤ μ s := by
  induction as generalizing s with
  | nil =>
    cases h
    exact Nat.le_refl _
  | cons a as ih =>
    obtain ⟨s', hs', ht⟩ := exec_cons_eq_some.mp h
    have h1 := hμ s a s' hs hs'
    have h2 := ih (hinv s a s' hs hs') ht
    rw [List.countP_cons]
    omega

/-! ## Counting -/

/-- How many steps of a run meet `p` in the state they are taken in. -/
def countAlong (step : S → A → Option S) (p : S → A → Bool) : S → List A → Nat
  | _, [] => 0
  | s, a :: as =>
    (if p s a then 1 else 0) + ((step s a).map fun s' => countAlong step p s' as).getD 0

theorem countAlong_cons {p : S → A → Bool} {s s' : S} {a : A} (h : step s a = some s')
    (as : List A) :
    countAlong step p s (a :: as) = (if p s a then 1 else 0) + countAlong step p s' as := by
  rw [countAlong, h]
  rfl

/-- **An invariant that counts.**  What every step preserves, when the number goes up with the
steps that meet `p`, holds after a run with the number of those. -/
theorem exec_count {p : S → A → Bool} {Inv : Nat → S → Prop}
    (hstep : ∀ n s a s', Inv n s → step s a = some s' → Inv (n + if p s a then 1 else 0) s')
    {n : Nat} {s t : S} {as : List A} (hs : Inv n s) (h : exec step s as = some t) :
    Inv (n + countAlong step p s as) t := by
  induction as generalizing n s with
  | nil =>
    cases h
    exact hs
  | cons a as ih =>
    obtain ⟨s', hs', ht⟩ := exec_cons_eq_some.mp h
    have hrest := ih (hstep n s a s' hs hs') ht
    rwa [countAlong_cons hs', ← Nat.add_assoc]

/-! ## What a run leaves behind -/

section Translate
variable {O : Type}

/-- What a run leaves behind, or what another system sees of it: the list of what `g` makes of
every action in the state it is taken in. -/
def translate (step : S → A → Option S) (g : S → A → List O) : S → List A → List O
  | _, [] => []
  | s, a :: as => g s a ++ ((step s a).map fun s' => translate step g s' as).getD []

theorem translate_cons {g : S → A → List O} {s s' : S} {a : A} (h : step s a = some s')
    (as : List A) : translate step g s (a :: as) = g s a ++ translate step g s' as := by
  rw [translate, h]
  rfl

/-- **An invariant with a history.**  What every step preserves, when the history goes on with
what the step leaves behind, holds after a run with all of it. -/
theorem exec_history {g : S → A → List O} {Inv : List O → S → Prop}
    (hstep : ∀ h s a s', Inv h s → step s a = some s' → Inv (h ++ g s a) s')
    {h : List O} {s t : S} {as : List A} (hs : Inv h s) (hrun : exec step s as = some t) :
    Inv (h ++ translate step g s as) t := by
  induction as generalizing h s with
  | nil =>
    cases hrun
    rw [translate, List.append_nil]
    exact hs
  | cons a as ih =>
    obtain ⟨s', hs', ht⟩ := exec_cons_eq_some.mp hrun
    rw [translate_cons hs', ← List.append_assoc]
    exact ih (hstep h s a s' hs hs') ht

end Translate

/-! ## Two runs side by side -/

section Rel
variable {S' A' : Type} {step' : S' → A' → Option S'} {R : S → S' → Prop} {f : A → A'}

/-- **Two runs side by side.**  If one step of the one is possible exactly when the step
that goes with it is possible for the other, and then leads to related states, the same
holds of whole runs. -/
theorem exec_rel (hstep : ∀ s s' a, R s s' → Option.Rel R (step s a) (step' s' (f a)))
    {s : S} {s' : S'} (hs : R s s') (as : List A) :
    Option.Rel R (exec step s as) (exec step' s' (as.map f)) := by
  induction as generalizing s s' with
  | nil => exact .some hs
  | cons a as ih =>
    have h := hstep s s' a hs
    rw [List.map_cons, exec_cons, exec_cons]
    cases hx : step s a with
    | none =>
      rw [hx] at h
      cases hy : step' s' (f a) with
      | none => exact .none
      | some y =>
        rw [hy] at h
        cases h
    | some x =>
      rw [hx] at h
      cases hy : step' s' (f a) with
      | none =>
        rw [hy] at h
        cases h
      | some y =>
        rw [hy] at h
        cases h with
        | some hxy => exact ih hxy

/-- **One run answers another.**  If every step of the one system whose action meets `Q` is
answered by a step of the other that meets `P`, so is every run of such actions. -/
theorem exec_simulates {Q : A → Prop} {P : S' → A' → Prop}
    (hstep : ∀ s s' a t, R s s' → Q a → step s a = some t →
      ∃ b t', step' s' b = some t' ∧ P s' b ∧ R t t')
    {s t : S} {s' : S'} {as : List A} (hs : R s s') (hQ : ∀ a ∈ as, Q a)
    (h : exec step s as = some t) :
    ∃ bs t', exec step' s' bs = some t' ∧ Along step' P s' bs ∧ R t t' := by
  induction as generalizing s s' with
  | nil =>
    cases h
    exact ⟨[], s', rfl, trivial, hs⟩
  | cons a as ih =>
    obtain ⟨u, hu, hrest⟩ := exec_cons_eq_some.mp h
    obtain ⟨b, u', hb, hp, hR⟩ := hstep s s' a u hs (hQ a (List.mem_cons_self ..)) hu
    obtain ⟨bs, t', hbs, halong, hR'⟩ := ih hR (fun x hx => hQ x (List.mem_cons_of_mem _ hx)) hrest
    refine ⟨b :: bs, t', exec_cons_eq_some.mpr ⟨u', hb, hbs⟩, ⟨hp, fun v hv => ?_⟩, hR'⟩
    cases hb.symm.trans hv
    exact halong

/-- **A run that another system sees**, if its steps all meet `P`. -/
theorem exec_translate {g : S → A → List A'} {P : S → A → Prop}
    (hstep : ∀ s s' a t, R s s' → P s a → step s a = some t →
      ∃ t', exec step' s' (g s a) = some t' ∧ R t t')
    {s t : S} {s' : S'} {as : List A} (hs : R s s') (hP : Along step P s as)
    (h : exec step s as = some t) :
    ∃ t', exec step' s' (translate step g s as) = some t' ∧ R t t' := by
  induction as generalizing s s' with
  | nil =>
    cases h
    exact ⟨s', rfl, hs⟩
  | cons a as ih =>
    obtain ⟨u, hu, hrest⟩ := exec_cons_eq_some.mp h
    obtain ⟨u', hu', hR⟩ := hstep s s' a u hs hP.1 hu
    obtain ⟨t', ht', hR'⟩ := ih hR (hP.2 u hu) hrest
    refine ⟨t', ?_, hR'⟩
    rw [translate_cons hu]
    exact exec_append_eq_some.mpr ⟨u', hu', ht'⟩

end Rel

end TransitionSystem
