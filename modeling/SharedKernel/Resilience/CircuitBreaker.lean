import SharedKernel.Foundation.Atomic
import SharedKernel.Js.Number
import SharedKernel.Js.Thrown

/-! The circuit breaker around an unreliable call: it counts failures, trips open, and after a
timeout lets one call probe. Between two awaits its code runs as one step.
-/

namespace SharedKernel.Resilience

open Foundation Js

inductive BreakerState where
  | closed
  | opened
  | halfOpen
deriving DecidableEq

/-- The text of a state. -/
def BreakerState.text : BreakerState → String
  | closed => "closed"
  | opened => "open"
  | halfOpen => "half-open"

def STATE_VALUE : BreakerState → Nat
  | .closed => 0
  | .halfOpen => 1
  | .opened => 2

/-- What the breaker logs beside the message. -/
structure BreakerLog where
  context : String
  name : String
  state : Option String
  err : Option Thrown
  failureCount : Option Nat

inductive LogLevel where
  | info
  | warn
  | error

/-- The logger and the two metrics during one step; each of their calls may throw. -/
structure Observers where
  log (level : LogLevel) (fields : BreakerLog) (message : String) : Except Thrown Unit
  stateGauge (name : String) (value : Nat) : Except Thrown Unit
  transitionsCounter (name state : String) : Except Thrown Unit

/-- No call throws. -/
structure Observers.Quiet (observers : Observers) : Prop where
  log : ∀ level fields message, observers.log level fields message = .ok ()
  stateGauge : ∀ name value, observers.stateGauge name value = .ok ()
  transitionsCounter : ∀ name state, observers.transitionsCounter name state = .ok ()

/-- The parameters of a breaker. -/
structure CircuitBreaker where
  name : String
  threshold : Number
  timeoutMs : Number

/-- The constructor, with its defaults. -/
def CircuitBreaker.create (name : String) (threshold timeoutMs : Option Number)
    : CircuitBreaker where
  name
  threshold := threshold.getD (.ofNat 5)
  timeoutMs := timeoutMs.getD (.ofNat 60000)

/-- The fields that a breaker changes; times are those of `Date.now()`. -/
structure BreakerFields where
  state : BreakerState
  failureCount : Nat
  lastFailureTime : Int
deriving DecidableEq

/-- The fields of a new breaker. -/
def BreakerFields.start : BreakerFields :=
  { state := .closed, failureCount := 0, lastFailureTime := 0 }

/-- Code of the breaker between two awaits. -/
abbrev Breaking := Atomic BreakerFields Thrown

def circuitOpen : Thrown := .error .error "Circuit open"

def logContext : String := "CircuitBreaker"

namespace CircuitBreaker

variable (self : CircuitBreaker) (observers : Observers)

/-- The structured part of a log entry. -/
def entry (state : Option String) (err : Option Thrown) (failureCount : Option Nat)
    : BreakerLog :=
  { context := logContext, name := self.name, state, err, failureCount }

def setState (next : BreakerState) : Breaking Unit := do
  modify (fun fields => { fields with state := next })
  MonadExcept.ofExcept (observers.stateGauge self.name (STATE_VALUE next))
  MonadExcept.ofExcept (observers.transitionsCounter self.name next.text)

def onSuccess : Breaking Unit := do
  if (← get).state ≠ .closed then
    MonadExcept.ofExcept
      (observers.log .info (self.entry (some "closed") none none) "Circuit recovered — closing")
  modify (fun fields => { fields with failureCount := 0 })
  self.setState observers .closed

def onFailure (now : Int) (err : Thrown) : Breaking Unit := do
  modify (fun fields => { fields with failureCount := fields.failureCount + 1 })
  modify (fun fields => { fields with lastFailureTime := now })
  MonadExcept.ofExcept
    (observers.log .warn (self.entry none (some err) (some (← get).failureCount)) "Call failed")
  if (Number.ofNat (← get).failureCount).ge self.threshold ∧ (← get).state ≠ .opened then
    self.setState observers .opened
    MonadExcept.ofExcept
      (observers.log .error (self.entry (some "open") none none) "Circuit breaker OPEN")

/-- `execute` up to the call of its function. -/
def letThrough (now : Int) : Breaking Unit := do
  if (← get).state = .halfOpen then throw circuitOpen
  if (← get).state = .opened then
    if self.timeoutMs.ge (.finite (now - (← get).lastFailureTime : Int)) then throw circuitOpen
    self.setState observers .halfOpen

/-- `execute` once its function has settled. -/
def settle {α : Type} (now : Int) (outcome : Except Thrown α) : Breaking α :=
  tryCatch
    (do
      let result ← MonadExcept.ofExcept outcome
      self.onSuccess observers
      return result)
    (fun err => do
      self.onFailure observers now err
      throw err)

-----------------------------------------------------------------------------------------
-- What one step does
-----------------------------------------------------------------------------------------

variable {self observers}

/-- Setting the state always sets it, even where a metric throws. -/
theorem setState_changes (next : BreakerState) (fields : BreakerFields)
    : (Atomic.on fields (self.setState observers next)).2 = { fields with state := next } := by
  unfold setState
  simp only [Atomic.on_bind, Atomic.on_modify, Atomic.on_ofExcept]
  cases observers.stateGauge self.name (STATE_VALUE next) <;> rfl

theorem setState_quiet (quiet : observers.Quiet) (next : BreakerState) (fields : BreakerFields)
    : Atomic.on fields (self.setState observers next)
      = (.ok (), { fields with state := next }) := by
  simp [setState, quiet.stateGauge, quiet.transitionsCounter]

/-- The time lies within the timeout after the last failure. -/
def Within (self : CircuitBreaker) (failure now : Int) : Prop :=
  self.timeoutMs.ge (.finite (now - failure : Int)) = true

instance (failure now : Int) : Decidable (self.Within failure now) :=
  inferInstanceAs (Decidable (_ = true))

/-- A call is admitted while the breaker is closed, and as the probe once the timeout after
the last failure is over; every other call is refused with no change.
-/
theorem letThrough_cases {now : Int} {fields next : BreakerFields} {outcome : Except Thrown Unit}
    (taken : Atomic.on fields (self.letThrough observers now) = (outcome, next))
    : (fields.state = .closed ∧ outcome = .ok () ∧ next = fields)
      ∨ (outcome = .error circuitOpen ∧ next = fields
          ∧ (fields.state = .halfOpen
              ∨ fields.state = .opened ∧ self.Within fields.lastFailureTime now))
      ∨ (fields.state = .opened
          ∧ ¬ self.Within fields.lastFailureTime now
          ∧ next = { fields with state := .halfOpen }
          ∧ (observers.Quiet → outcome = .ok ())) := by
  have changes := @setState_changes self observers .halfOpen fields
  have quiets := fun quiet => @setState_quiet self observers quiet .halfOpen fields
  unfold letThrough at taken
  simp only [Atomic.on_bind, Atomic.on_get, Atomic.on_ite, Atomic.on_throw, Atomic.on_pure]
    at taken
  cases state : fields.state with
  | closed => simp_all
  | halfOpen => simp_all
  | opened =>
      by_cases within : self.Within fields.lastFailureTime now
      · simp_all [Within]
      · simp_all [Within]

/-- A failure is counted and dated, and leaves the state as it was or opens the breaker. -/
structure Failed (now : Int) (fields next : BreakerFields) : Prop where
  counted : next.failureCount = fields.failureCount + 1
  dated : next.lastFailureTime = now
  state : next.state = fields.state ∨ next.state = .opened

/-- The fields after a failure that does not open the breaker. -/
def failed (now : Int) (fields : BreakerFields) : BreakerFields :=
  { fields with failureCount := fields.failureCount + 1, lastFailureTime := now }

/-- The fields after a recovery. -/
def recovered (fields : BreakerFields) : BreakerFields :=
  { fields with state := .closed, failureCount := 0 }

/-- Recording a failure counts and dates it, whatever the observers do. -/
theorem onFailure_fails (now : Int) (err : Thrown) (fields : BreakerFields)
    : Failed now fields (Atomic.on fields (self.onFailure observers now err)).2 := by
  have still : Failed now fields (failed now fields) := ⟨rfl, rfl, Or.inl rfl⟩
  have opens : Failed now fields { failed now fields with state := .opened } :=
    ⟨rfl, rfl, Or.inr rfl⟩
  have sets := @setState_changes self observers .opened (failed now fields)
  unfold onFailure
  simp only [Atomic.on_bind, Atomic.on_modify, Atomic.on_get, Atomic.on_ofExcept, Atomic.on_ite,
    Atomic.on_pure]
  cases observers.log .warn (self.entry none (some err) (some (fields.failureCount + 1)))
      "Call failed" with
  | error _ => exact still
  | ok _ =>
      simp only [failed] at sets still opens
      dsimp only
      split
      · generalize Atomic.on _ (self.setState observers .opened) = ended at sets ⊢
        obtain ⟨outcome, changed⟩ := ended
        subst sets
        cases outcome <;> exact opens
      · exact still

/-- The settlement of a failed function records one failure. -/
theorem settle_error {α : Type} (now : Int) (err : Thrown) (fields : BreakerFields)
    : Failed now fields
        (Atomic.on fields (self.settle (α := α) observers now (.error err))).2 := by
  have fails := @onFailure_fails self observers now err fields
  simp only [settle, Atomic.on_tryCatch, Atomic.on_bind, Atomic.on_ofExcept, Atomic.on_throw]
  split <;> simpa [*] using fails

/-- A success closes the breaker; only the logger can stop that, by throwing first. -/
theorem onSuccess_cases {fields next : BreakerFields} {outcome : Except Thrown Unit}
    (taken : Atomic.on fields (self.onSuccess observers) = (outcome, next))
    : next = recovered fields
      ∨ next = fields ∧ fields.state ≠ .closed ∧ ∃ err, outcome = .error err := by
  have restores := @setState_changes self observers .closed { fields with failureCount := 0 }
  have closes : (Atomic.on { fields with failureCount := 0 }
      (self.setState observers .closed)) = (outcome, next) → next = recovered fields := by
    intro same
    rw [same] at restores
    exact restores
  unfold onSuccess at taken
  simp only [Atomic.on_bind, Atomic.on_get, Atomic.on_ite, Atomic.on_ofExcept, Atomic.on_modify]
    at taken
  by_cases state : fields.state = .closed
  · simp only [state, ne_eq, not_true_eq_false, if_false] at taken
    exact Or.inl (closes taken)
  · simp only [state, ne_eq, not_false_eq_true, if_true] at taken
    cases logged : observers.log .info (self.entry (some "closed") none none)
        "Circuit recovered — closing" with
    | ok _ =>
        simp only [logged] at taken
        exact Or.inl (closes taken)
    | error err =>
        simp only [logged, Prod.mk.injEq] at taken
        exact Or.inr ⟨taken.2.symm, state, err, taken.1.symm⟩

/-- The settlement of a successful function closes the breaker, unless an observer throws:
that is recorded as a failure, before the recovery or after it.
-/
theorem settle_ok {α : Type} (now : Int) (value : α) (fields : BreakerFields)
    : (Atomic.on fields (self.settle observers now (.ok value))).2 = recovered fields
      ∨ Failed now fields (Atomic.on fields (self.settle observers now (.ok value))).2
          ∧ fields.state ≠ .closed
      ∨ Failed now (recovered fields)
          (Atomic.on fields (self.settle observers now (.ok value))).2 := by
  obtain ⟨outcome, next, ran⟩
      : ∃ outcome next, Atomic.on fields (self.onSuccess observers) = (outcome, next) :=
    ⟨_, _, rfl⟩
  have fails := fun err => @onFailure_fails self observers now err next
  simp only [settle, Atomic.on_tryCatch, Atomic.on_bind, Atomic.on_ofExcept, Atomic.on_throw,
    Atomic.on_pure, ran]
  cases outcome with
  | ok _ =>
      rcases onSuccess_cases ran with closed | ⟨_, _, _, absurd⟩
      · exact Or.inl closed
      · cases absurd
  | error err =>
      dsimp only
      have failure := fails err
      generalize Atomic.on next (self.onFailure observers now err) = ended at failure ⊢
      obtain ⟨outcome, changed⟩ := ended
      rcases onSuccess_cases ran with rfl | ⟨rfl, state, _⟩
      · cases outcome <;> exact Or.inr (Or.inr failure)
      · cases outcome <;> exact Or.inr (Or.inl ⟨failure, state⟩)

/-- A settlement either recovers the breaker, after a success, or records a failure: of the
function, or of an observer before the recovery or after it.
-/
theorem settle_cases {α : Type} {now : Int} {outcome result : Except Thrown α}
    {fields next : BreakerFields}
    (taken : Atomic.on fields (self.settle observers now outcome) = (result, next))
    : (∃ value, outcome = .ok value)
        ∧ (next = recovered fields ∨ Failed now (recovered fields) next)
      ∨ Failed now fields next ∧ ((∃ err, outcome = .error err) ∨ fields.state ≠ .closed) := by
  have same : (Atomic.on fields (self.settle observers now outcome)).2 = next :=
    congrArg Prod.snd taken
  cases outcome with
  | error err =>
      have fails := @settle_error self observers α now err fields
      rw [same] at fails
      exact Or.inr ⟨fails, Or.inl ⟨err, rfl⟩⟩
  | ok value =>
      have ends := @settle_ok self observers α now value fields
      rw [same] at ends
      rcases ends with closes | ⟨fails, state⟩ | fails
      · exact Or.inl ⟨⟨value, rfl⟩, Or.inl closes⟩
      · exact Or.inr ⟨fails, Or.inr state⟩
      · exact Or.inl ⟨⟨value, rfl⟩, Or.inr fails⟩

-----------------------------------------------------------------------------------------
-- Steps whose observers do not throw
-----------------------------------------------------------------------------------------

/-- A failure is counted and dated, and the threshold decides about the state. -/
theorem onFailure_quiet (quiet : observers.Quiet) (now : Int) (err : Thrown)
    (fields : BreakerFields)
    : Atomic.on fields (self.onFailure observers now err)
      = (.ok (),
          {
            failed now fields with
            state :=
              if (Number.ofNat (fields.failureCount + 1)).ge self.threshold then .opened
              else fields.state
          }) := by
  cases reached : (Number.ofNat (fields.failureCount + 1)).ge self.threshold with
  | false => simp [onFailure, quiet.log, reached, failed]
  | true =>
      by_cases state : fields.state = .opened <;>
        simp [onFailure, quiet.log, setState_quiet quiet, reached, state, failed]

/-- A settlement passes its outcome on, and recovers or records a failure. -/
theorem settle_quiet {α : Type} (quiet : observers.Quiet) (now : Int)
    (outcome : Except Thrown α) (fields : BreakerFields)
    : Atomic.on fields (self.settle observers now outcome)
      = (outcome,
          match outcome with
          | .ok _ => recovered fields
          | .error _ =>
              {
                failed now fields with
                state :=
                  if (Number.ofNat (fields.failureCount + 1)).ge self.threshold then .opened
                  else fields.state
              }) := by
  cases outcome with
  | ok value =>
      by_cases state : fields.state = .closed <;>
        simp [settle, onSuccess, quiet.log, setState_quiet quiet, state, recovered]
  | error err => simp [settle, onFailure_quiet quiet]

end CircuitBreaker
end SharedKernel.Resilience
