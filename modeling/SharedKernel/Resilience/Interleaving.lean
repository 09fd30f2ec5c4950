import SharedKernel.Foundation.Transition
import SharedKernel.Resilience.CircuitBreaker

/-! Calls of one breaker that overlap: any number of functions are under way, and they settle
in any order, after any delay.
-/

namespace SharedKernel.Resilience

open Foundation Js

/-- One call of `execute`: it was refused, or its function was called and has settled or not.
A probe is a call that moved the breaker from open to half-open.
-/
inductive Call (α : Type) where
  | refused (err : Thrown)
  | pending (probe : Bool) (startedAt : Int)
  | settled (probe : Bool) (outcome result : Except Thrown α)

/-- The breaker's fields, its calls so far, and of these, in order, the ones whose function
was called; `prober` is the last call that moved the breaker from open to half-open.
-/
structure BreakerSystem (α : Type) where
  fields : BreakerFields
  calls : List (Call α)
  invoked : List Nat
  prober : Option Nat

/-- A breaker without calls. -/
def BreakerSystem.start (α : Type) : BreakerSystem α where
  fields := .start
  calls := []
  invoked := []
  prober := none

/-- A call of `execute` is made, or the function of an earlier one settles. -/
inductive BreakerLabel (α : Type) where
  | execute (now : Int) (observers : Observers)
  | settle (index : Nat) (outcome : Except Thrown α) (now : Int) (observers : Observers)

namespace BreakerLabel

variable {α : Type}

/-- The time of a step. -/
def now : BreakerLabel α → Int
  | execute now _ | settle _ _ now _ => now

/-- The observers of a step. -/
def observers : BreakerLabel α → Observers
  | execute _ observers | settle _ _ _ observers => observers

end BreakerLabel

/-- The clock does not go back. -/
def NonDecreasing {α : Type} (labels : List (BreakerLabel α)) : Prop :=
  (labels.map BreakerLabel.now).Pairwise (· ≤ ·)

instance {α : Type} (labels : List (BreakerLabel α)) : Decidable (NonDecreasing labels) :=
  inferInstanceAs (Decidable (List.Pairwise _ _))

/-- The breaker moves from open to half-open. -/
def Claims (fields next : BreakerFields) : Prop :=
  fields.state = .opened ∧ next.state = .halfOpen

instance (fields next : BreakerFields) : Decidable (Claims fields next) :=
  inferInstanceAs (Decidable (_ ∧ _))

@[simp] theorem not_claims_self (fields : BreakerFields) : ¬ Claims fields fields := by
  intro claims
  obtain ⟨opened, halfOpen⟩ := claims
  exact absurd (opened.symm.trans halfOpen) (by decide)

variable {α : Type} {self : CircuitBreaker}

/-- A call is added; it is the prober if it moves the breaker from open to half-open. -/
def BreakerSystem.add (system : BreakerSystem α) (fields : BreakerFields) (call : Call α)
    (invoked : List Nat)
    : BreakerSystem α where
  fields
  calls := system.calls ++ [call]
  invoked
  prober := if Claims system.fields fields then some system.calls.length else system.prober

/-- The steps of a breaker and its calls. -/
inductive BreakerStep (self : CircuitBreaker)
    : BreakerSystem α → BreakerLabel α → BreakerSystem α → Prop
  | refused {system err fields} (now : Int) (observers : Observers)
    (refuses
      : Atomic.on system.fields (self.letThrough observers now) = (.error err, fields))
    : BreakerStep self system (.execute now observers)
        (system.add fields (.refused err) system.invoked)
  | started {system fields} (now : Int) (observers : Observers)
    (admits : Atomic.on system.fields (self.letThrough observers now) = (.ok (), fields))
    : BreakerStep self system (.execute now observers)
        (system.add fields (.pending (Claims system.fields fields) now)
          (system.invoked ++ [system.calls.length]))
  | settled {system index probe startedAt result fields} (outcome : Except Thrown α)
    (now : Int) (observers : Observers)
    (waiting : system.calls[index]? = some (.pending probe startedAt))
    (settles
      : Atomic.on system.fields (self.settle observers now outcome) = (result, fields))
    : BreakerStep self system (.settle index outcome now observers)
        {
          system with
          fields
          calls := system.calls.set index (.settled probe outcome result)
        }

/-- Carry out a step; none where no function of the call is under way. -/
def BreakerSystem.perform (self : CircuitBreaker) (system : BreakerSystem α)
    : BreakerLabel α → Option (BreakerSystem α)
  | .execute now observers =>
      match Atomic.on system.fields (self.letThrough observers now) with
      | (.error err, fields) => some (system.add fields (.refused err) system.invoked)
      | (.ok (), fields) =>
          some (system.add fields (.pending (Claims system.fields fields) now)
            (system.invoked ++ [system.calls.length]))
  | .settle index outcome now observers =>
      match system.calls[index]? with
      | some (.pending probe _) =>
          match Atomic.on system.fields (self.settle observers now outcome) with
          | (result, fields) =>
              some
                {
                  system with
                  fields
                  calls := system.calls.set index (.settled probe outcome result)
                }
      | _ => none

/-- What is carried out is a step. -/
theorem BreakerSystem.perform_step {system next : BreakerSystem α} {label : BreakerLabel α}
    (performed : system.perform self label = some next)
    : BreakerStep self system label next := by
  cases label with
  | execute now observers =>
      simp only [perform] at performed
      split at performed
      · rename_i refuses
        cases performed
        exact .refused now observers refuses
      · rename_i admits
        cases performed
        exact .started now observers admits
  | settle index outcome now observers =>
      simp only [perform] at performed
      split at performed
      · rename_i waiting
        cases performed
        exact .settled outcome now observers waiting rfl
      · cases performed

/-- Carry out steps in order. -/
def BreakerSystem.performAll (self : CircuitBreaker) (system : BreakerSystem α)
    : List (BreakerLabel α) → Option (BreakerSystem α)
  | [] => some system
  | label :: rest => (system.perform self label).bind (fun next => next.performAll self rest)

/-- What is carried out is an execution, by induction on the steps. -/
theorem BreakerSystem.performAll_execution {system last : BreakerSystem α}
    {labels : List (BreakerLabel α)} (performed : system.performAll self labels = some last)
    : Execution (BreakerStep self) system labels last := by
  induction labels generalizing system with
  | nil =>
      cases performed
      exact .start
  | cons label rest ih =>
      obtain ⟨next, first, later⟩ := Option.bind_eq_some_iff.mp performed
      exact .cons (perform_step first) (ih later)

/-- What making a call can do: the call passes a closed breaker, or is refused by a
half-open one and within the timeout of an open one, or it claims the probe, where only a
throw of the metrics can still stop it.
-/
inductive Executed (self : CircuitBreaker) (now : Int) (observers : Observers)
    (system : BreakerSystem α)
    : BreakerSystem α → Prop
  | passed (closed : system.fields.state = .closed)
    : Executed self now observers system
        {
          system with
          calls := system.calls ++ [.pending false now]
          invoked := system.invoked ++ [system.calls.length]
        }
  | refused
    (unavailable
      : system.fields.state = .halfOpen
        ∨ system.fields.state = .opened ∧ self.Within system.fields.lastFailureTime now)
    : Executed self now observers system
        { system with calls := system.calls ++ [.refused circuitOpen] }
  | claimed {call invoked} (opened : system.fields.state = .opened)
    (expired : ¬ self.Within system.fields.lastFailureTime now)
    (added
      : call = .pending true now ∧ invoked = system.invoked ++ [system.calls.length]
        ∨ (∃ err, call = .refused err) ∧ invoked = system.invoked ∧ ¬ observers.Quiet)
    : Executed self now observers system
        {
          fields := { system.fields with state := .halfOpen }
          calls := system.calls ++ [call]
          invoked
          prober := some system.calls.length
        }

/-- Every step that makes a call is of one of the three kinds; witness: the cases of
`letThrough`.
-/
theorem BreakerStep.executed {system next : BreakerSystem α} {now : Int}
    {observers : Observers} (taken : BreakerStep self system (.execute now observers) next)
    : Executed self now observers system next := by
  cases taken with
  | @refused err fields _ _ refuses =>
      rcases CircuitBreaker.letThrough_cases refuses with
        ⟨_, absurd, _⟩ | ⟨same, rfl, unavailable⟩ | ⟨opened, expired, rfl, quiet⟩
      · cases absurd
      · cases same
        simpa [BreakerSystem.add] using Executed.refused unavailable
      · have claims : Claims system.fields { system.fields with state := .halfOpen } :=
          ⟨opened, rfl⟩
        simpa [BreakerSystem.add, claims]
          using Executed.claimed opened expired
            (Or.inr ⟨⟨err, rfl⟩, rfl, fun silent => by cases quiet silent⟩)
  | @started fields _ _ admits =>
      rcases CircuitBreaker.letThrough_cases admits with
        ⟨closed, _, rfl⟩ | ⟨absurd, _⟩ | ⟨opened, expired, rfl, _⟩
      · simpa [BreakerSystem.add] using Executed.passed closed
      · cases absurd
      · have claims : Claims system.fields { system.fields with state := .halfOpen } :=
          ⟨opened, rfl⟩
        simpa [BreakerSystem.add, claims]
          using Executed.claimed opened expired (Or.inl ⟨rfl, rfl⟩)

-----------------------------------------------------------------------------------------
-- A sample breaker
-----------------------------------------------------------------------------------------

/-- Observers none of whose calls throws. -/
def Observers.silent : Observers where
  log _ _ _ := .ok ()
  stateGauge _ _ := .ok ()
  transitionsCounter _ _ := .ok ()

theorem Observers.silent_quiet : Observers.silent.Quiet :=
  ⟨fun _ _ _ => rfl, fun _ _ => rfl, fun _ _ => rfl⟩

/-- A breaker that opens at the first failure, for 50 milliseconds. -/
def sampleBreaker : CircuitBreaker :=
  .create "dependency" (some (.ofNat 1)) (some (.ofNat 50))

def boom : Thrown := .error .error "boom"

end SharedKernel.Resilience
