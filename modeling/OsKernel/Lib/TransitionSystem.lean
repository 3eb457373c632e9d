import Mathlib

/-!
# Transition systems that may stop with a fault

General machinery for systems whose next state is a function of an event: an event may be
impossible in a state, may lead to a next state, or may stop the system with a fault. A guard
says which events a run is allowed to take, so one system can be studied under several
disciplines of its environment.

- `System.Reach` is reachability under a guard, `System.run` executes a list of events.
- `System.Reach.invariant` is the induction rule for invariants.
- `Simulation` relates a concrete system to an abstract one step by step, faults included;
  `Simulation.reach` lifts it to runs.
-/

namespace OsKernel.Lib

universe u v w

/-- A system: its initial states and what an event does in a state. `none` says that the event
cannot happen there, `some (.error f)` that it stops the system with fault `f`. -/
structure System (State : Type u) (Event : Type v) (Fault : Type w) where
  init : State → Prop
  step : Event → State → Option (Except Fault State)

namespace System

variable {State : Type u} {Event : Type v} {Fault : Type w}
variable (S : System State Event Fault)

/-- States reached from an initial state by events the guard allows. -/
inductive Reach (guard : State → Event → Prop) : State → Prop where
  | init {s : State} (h : S.init s) : Reach guard s
  | step {s s' : State} {e : Event} (hs : Reach guard s) (hg : guard s e)
      (h : S.step e s = some (.ok s')) : Reach guard s'

variable {S} {guard : State → Event → Prop}

/-- **Invariant rule**: what holds initially and is kept by every allowed step from a reachable
state holds in every reachable state. -/
theorem Reach.invariant {Inv : State → Prop} (hinit : ∀ s, S.init s → Inv s)
    (hstep : ∀ s e s', S.Reach guard s → Inv s → guard s e →
      S.step e s = some (.ok s') → Inv s') :
    ∀ s, S.Reach guard s → Inv s := by
  intro s hs
  induction hs with
  | init h => exact hinit _ h
  | step hs hg h ih => exact hstep _ _ _ hs ih hg h

/-- A weaker guard reaches at least as much. -/
theorem Reach.mono {guard' : State → Event → Prop} (hle : ∀ s e, guard s e → guard' s e)
    {s : State} (hs : S.Reach guard s) : S.Reach guard' s := by
  induction hs with
  | init h => exact .init h
  | step _ hg h ih => exact .step ih (hle _ _ hg) h

variable (S)

/-- Execute a list of events, each of which has to pass a check. The result is `none` when one of
them does not pass or cannot happen. -/
def run (check : State → Event → Bool) : List Event → State → Option (Except Fault State)
  | [], s => some (.ok s)
  | e :: es, s =>
    if check s e then
      match S.step e s with
      | some (.ok s') => run check es s'
      | r => r
    else none

/-- The same system, started in the state `s`. -/
def startAt (s : State) : System State Event Fault := { S with init := (· = s) }

variable {S}

/-- A run all of whose events the guard allows stays within the reachable states. -/
theorem Reach.run {check : State → Event → Bool} (hcheck : ∀ s e, check s e = true → guard s e)
    {s : State} (hs : S.Reach guard s) {es : List Event} {s' : State}
    (h : S.run check es s = some (.ok s')) : S.Reach guard s' := by
  induction es generalizing s with
  | nil =>
    simp only [System.run, Option.some.injEq, Except.ok.injEq] at h
    exact h ▸ hs
  | cons e es ih =>
    simp only [System.run] at h
    split at h
    · next hok =>
      split at h
      · next s₁ h₁ => exact ih (.step hs (hcheck s e hok) h₁) h
      · next hne => exact absurd h (hne s')
    · cases h

end System

/-! ## Simulation -/

section Simulation

variable {StateC StateA : Type u} {Event : Type v} {Fault : Type w}

/-- Two computations agree: the same fault, or related results. -/
inductive Agree {α β ε : Type*} (R : α → β → Prop) : Except ε α → Except ε β → Prop where
  | error (e : ε) : Agree R (.error e) (.error e)
  | ok {a : α} {b : β} (h : R a b) : Agree R (.ok a) (.ok b)

/-- Agreement goes through sequencing; the second halves may use that the first ones returned. -/
theorem Agree.bind {ε : Type*} {α β γ δ : Type u} {R : α → β → Prop} {S : γ → δ → Prop}
    {x : Except ε α}
    {y : Except ε β} {f : α → Except ε γ} {g : β → Except ε δ} (h : Agree R x y)
    (hfg : ∀ a b, y = .ok b → R a b → Agree S (f a) (g b)) :
    Agree S (x >>= f) (y >>= g) := by
  cases h with
  | error e => exact .error e
  | ok h => exact hfg _ _ rfl h

theorem Agree.of_eq {α ε : Type*} {x y : Except ε α} (h : x = y) : Agree Eq x y := by
  cases h
  cases x with
  | error e => exact .error e
  | ok a => exact .ok rfl

theorem Agree.mono {α β ε : Type*} {R S : α → β → Prop} {x : Except ε α} {y : Except ε β}
    (h : Agree R x y) (hle : ∀ a b, R a b → S a b) : Agree S x y := by
  cases h with
  | error e => exact .error e
  | ok h => exact .ok (hle _ _ h)

/-- Outcomes of one event in two systems agree: both impossible, or both a computation. -/
inductive Matches (R : StateC → StateA → Prop) :
    Option (Except Fault StateC) → Option (Except Fault StateA) → Prop where
  | none : Matches R none none
  | some {x : Except Fault StateC} {y : Except Fault StateA} (h : Agree R x y) :
    Matches R (some x) (some y)

/-- A step-by-step simulation of `C` by `A` along `R`, for abstract states that satisfy the
invariant `Inv` of the abstract system. -/
structure Simulation (C : System StateC Event Fault) (A : System StateA Event Fault)
    (R : StateC → StateA → Prop) (Inv : StateA → Prop) (guardA : StateA → Event → Prop) :
    Prop where
  init : ∀ c, C.init c → ∃ a, A.init a ∧ R c a
  step : ∀ c a e, R c a → Inv a → guardA a e → Matches R (C.step e c) (A.step e a)

variable {C : System StateC Event Fault} {A : System StateA Event Fault}
variable {R : StateC → StateA → Prop} {Inv : StateA → Prop}
variable {guardC : StateC → Event → Prop} {guardA : StateA → Event → Prop}

/-- **Lifting**: a reachable concrete state is related to a reachable abstract state. -/
theorem Simulation.reach (sim : Simulation C A R Inv guardA)
    (hguard : ∀ c a e, R c a → guardC c e → guardA a e)
    (hinv : ∀ a, A.Reach guardA a → Inv a)
    {c : StateC} (hc : C.Reach guardC c) : ∃ a, A.Reach guardA a ∧ R c a := by
  induction hc with
  | init h =>
    obtain ⟨a, ha, hr⟩ := sim.init _ h
    exact ⟨a, .init ha, hr⟩
  | @step c c' e _ hg h ih =>
    obtain ⟨a, ha, hr⟩ := ih
    have hga := hguard c a e hr hg
    have hm := sim.step c a e hr (hinv a ha) hga
    rw [h] at hm
    cases hstep : A.step e a with
    | none => rw [hstep] at hm; cases hm
    | some out =>
      rw [hstep] at hm
      cases hm with
      | some hag =>
        cases hag with
        | ok hr' => exact ⟨_, .step ha hga hstep, hr'⟩

end Simulation

end OsKernel.Lib
