import SharedKernel.Resilience.Probes

/-! The invariant of a breaker's state: what the failure count counts, how it decides about
the state, and what becomes of every call.
-/

namespace SharedKernel.Resilience

open Foundation Js

variable {α : Type} {self : CircuitBreaker} {threshold : Nat}

/-- The failed settlements since the last successful one, given those before the steps. -/
def failuresSinceSuccess (before : Nat) : List (BreakerLabel α) → Nat
  | [] => before
  | .execute _ _ :: rest => failuresSinceSuccess before rest
  | .settle _ (.ok _) _ _ :: rest => failuresSinceSuccess 0 rest
  | .settle _ (.error _) _ _ :: rest => failuresSinceSuccess (before + 1) rest

/-- One more step counts on from the steps before, by induction on these. -/
theorem failuresSinceSuccess_snoc (before : Nat) (labels : List (BreakerLabel α))
    (label : BreakerLabel α)
    : failuresSinceSuccess before (labels ++ [label])
      = failuresSinceSuccess (failuresSinceSuccess before labels) [label] := by
  induction labels generalizing before with
  | nil => rfl
  | cons first rest ih =>
      cases first with
      | execute now observers => exact ih before
      | settle index outcome now observers =>
          cases outcome with
          | ok value => exact ih 0
          | error err => exact ih (before + 1)

/-- The state that fits a failure count. -/
structure Consistent (threshold : Nat) (fields : BreakerFields) : Prop where
  below : fields.state = .closed → fields.failureCount < threshold
  reached
    : fields.state = .opened ∨ fields.state = .halfOpen → threshold ≤ fields.failureCount

/-- What has become of a call: it was refused with 'Circuit open' and its function not called,
or its function was called once, and the call ends with the outcome of that.
-/
inductive Call.Faithful (invocations : Nat) : Call α → Prop
  | refused (never : invocations = 0) : Faithful invocations (.refused circuitOpen)
  | pending (once : invocations = 1) (probe : Bool) (startedAt : Int)
    : Faithful invocations (.pending probe startedAt)
  | settled (once : invocations = 1) (probe : Bool) (outcome : Except Thrown α)
    : Faithful invocations (.settled probe outcome outcome)

/-- Every call is refused, under way, or ended with the outcome of its function, and nothing
else was invoked.
-/
structure Answered (system : BreakerSystem α) : Prop where
  bounded : ∀ index ∈ system.invoked, index < system.calls.length
  faithful
    : ∀ (index : Nat) (call : Call α),
        system.calls[index]? = some call → call.Faithful (system.invoked.count index)

/-- The last step, if it was a settlement, has left the half-open state, and a success has
closed the breaker.
-/
def LeftHalfOpen (labels : List (BreakerLabel α)) (system : BreakerSystem α) : Prop :=
  ∀ earlier index outcome now observers,
    labels = earlier ++ [.settle index outcome now observers]
    → system.fields.state ≠ .halfOpen
      ∧ ((∃ value, outcome = .ok value) → system.fields.state = .closed)

/-- The last step, if a probe failed in it, has opened the breaker. -/
def Reopened (labels : List (BreakerLabel α)) (system : BreakerSystem α) : Prop :=
  ∀ earlier index err now observers result,
    labels = earlier ++ [.settle index (.error err) now observers]
    → system.calls[index]? = some (.settled true (.error err) result)
    → system.fields.state = .opened

/-- The state of a breaker and of its calls after some steps. -/
structure Regulated (threshold : Nat) (labels : List (BreakerLabel α)) (system : BreakerSystem α)
    : Prop where
  counted : system.fields.failureCount = failuresSinceSuccess 0 labels
  consistent : Consistent threshold system.fields
  leftHalfOpen : LeftHalfOpen labels system
  answered : Answered system

@[simp] theorem ofNat_ge (count threshold : Nat)
    : (Number.ofNat count).ge (.ofNat threshold) = decide (threshold ≤ count) := by
  simp [Number.ge, Number.ofNat]

/-- A failure keeps the state consistent, and opens a breaker that is not closed; witness: the
count of such a breaker has reached the threshold already.
-/
theorem Consistent.failed {fields next : BreakerFields} {now : Int}
    (consistent : Consistent threshold fields) (same : self.threshold = .ofNat threshold)
    (failed
      : {
            CircuitBreaker.failed now fields with
            state :=
              if (Number.ofNat (fields.failureCount + 1)).ge self.threshold then .opened
              else fields.state
          }
        = next)
    : Consistent threshold next
      ∧ next.state ≠ .halfOpen
      ∧ (fields.state ≠ .closed → next.state = .opened) := by
  subst failed
  simp only [same, ofNat_ge, decide_eq_true_eq]
  by_cases reached : threshold ≤ fields.failureCount + 1
  · simp only [reached, if_true]
    exact ⟨⟨fun closed => (by cases closed), fun _ => reached⟩, by simp, fun _ => trivial⟩
  · have closed : fields.state = .closed := by
      by_contra open'
      have before := consistent.reached (by cases state : fields.state <;> simp_all)
      omega
    simp only [reached, if_false, closed]
    refine ⟨⟨fun _ => ?_, fun open' => ?_⟩, by simp, fun absurd => (absurd rfl).elim⟩
    · simpa [CircuitBreaker.failed] using reached
    · rcases open' with absurd | absurd <;> cases absurd

/-- A call that never reaches a function leaves the others as they were. -/
theorem Answered.refused {system : BreakerSystem α} (answered : Answered system)
    : Answered { system with calls := system.calls ++ [.refused circuitOpen] } := by
  obtain ⟨bounded, faithful⟩ := answered
  constructor
  · intro index member
    have before := bounded index member
    simp only [List.length_append, List.length_singleton]
    omega
  · intro index call found
    rw [List.getElem?_append] at found
    split at found
    · exact faithful index call found
    · rename_i late
      obtain rfl : .refused circuitOpen = call :=
        (List.mem_singleton.mp (List.mem_of_getElem? found)).symm
      refine .refused (List.count_eq_zero.mpr fun member => ?_)
      exact late (bounded index member)

/-- A call that reaches its function does so once. -/
theorem Answered.invoked {system : BreakerSystem α} (answered : Answered system)
    (fields : BreakerFields) (probe : Bool) (now : Int) (prober : Option Nat)
    : Answered
        {
          fields
          calls := system.calls ++ [.pending probe now]
          invoked := system.invoked ++ [system.calls.length]
          prober
        } := by
  obtain ⟨bounded, faithful⟩ := answered
  constructor
  · intro index member
    simp only [List.length_append, List.length_singleton]
    rcases List.mem_append.mp member with earlier | last
    · have before := bounded index earlier
      omega
    · rw [List.mem_singleton.mp last]
      omega
  · intro index call found
    rw [List.getElem?_append] at found
    simp only [List.count_append, List.count_singleton]
    split at found
    · rename_i early
      have other : system.calls.length ≠ index := by omega
      simpa [other] using faithful index call found
    · rename_i late
      obtain rfl : .pending probe now = call :=
        (List.mem_singleton.mp (List.mem_of_getElem? found)).symm
      obtain ⟨bound, _⟩ := List.getElem?_eq_some_iff.mp found
      have here : system.calls.length = index := by
        simp only [List.length_singleton] at bound
        omega
      have never : system.invoked.count index = 0 :=
        List.count_eq_zero.mpr (fun member => late (bounded index member))
      exact .pending (by simp [never, here]) probe now

/-- A call ends with the outcome of its function. -/
theorem Answered.settled {system : BreakerSystem α} (answered : Answered system)
    {index : Nat} {probe : Bool} {startedAt : Int}
    (waiting : system.calls[index]? = some (.pending probe startedAt))
    (fields : BreakerFields) (outcome : Except Thrown α)
    : Answered
        {
          system with
          fields
          calls := system.calls.set index (.settled probe outcome outcome)
        } := by
  obtain ⟨bounded, faithful⟩ := answered
  constructor
  · simpa using bounded
  · intro other call found
    simp only [List.getElem?_set] at found
    split at found
    · rename_i same
      subst same
      split at found
      · obtain rfl := Option.some.inj found
        cases faithful index _ waiting with
        | pending once => exact .settled once probe outcome
      · cases found
    · exact faithful other call found

/-- Every step whose observers do not throw keeps the invariant, by the kind of step. -/
theorem Regulated.step {labels : List (BreakerLabel α)} {system next : BreakerSystem α}
    {label : BreakerLabel α} (regulated : Regulated threshold labels system)
    (positive : 1 ≤ threshold) (same : self.threshold = .ofNat threshold)
    (quiet : label.observers.Quiet) (taken : BreakerStep self system label next)
    : Regulated threshold (labels ++ [label]) next := by
  obtain ⟨counted, consistent, -, answered⟩ := regulated
  cases label with
  | execute now observers =>
      have nothing : LeftHalfOpen (labels ++ [.execute now observers]) next := by
        intro earlier index outcome now' observers' split
        have last := (List.append_inj' split rfl).2
        cases last
      have total : failuresSinceSuccess 0 (labels ++ [.execute now observers])
          = failuresSinceSuccess 0 labels :=
        failuresSinceSuccess_snoc 0 labels _
      cases taken.executed with
      | passed closed =>
          exact ⟨counted.trans total.symm, consistent, nothing, answered.invoked _ false now _⟩
      | refused unavailable =>
          exact ⟨counted.trans total.symm, consistent, nothing, answered.refused⟩
      | claimed opened expired added =>
          have reached := consistent.reached (Or.inl opened)
          rcases added with ⟨rfl, rfl⟩ | ⟨_, _, loud⟩
          · refine ⟨counted.trans total.symm, ⟨fun closed => ?_, fun _ => reached⟩, nothing,
              answered.invoked _ true now _⟩
            cases closed
          · exact absurd quiet loud
  | settle index outcome now observers =>
      cases taken with
      | @settled _ probe startedAt result fields _ _ _ waiting settles =>
          have silent : observers.Quiet := quiet
          rw [CircuitBreaker.settle_quiet silent, Prod.mk.injEq] at settles
          obtain ⟨rfl, settled⟩ := settles
          cases outcome with
          | ok value =>
              obtain rfl : CircuitBreaker.recovered system.fields = fields := settled
              refine ⟨?_, ⟨fun _ => positive, fun open' => ?_⟩, ?_,
                answered.settled waiting _ _⟩
              · rw [failuresSinceSuccess_snoc]
                rfl
              · rcases open' with absurd | absurd <;> cases absurd
              · intro _ _ _ _ _ _
                exact ⟨by simp [CircuitBreaker.recovered], fun _ => rfl⟩
          | error err =>
              obtain ⟨fits, left, _⟩ := consistent.failed same settled
              refine ⟨?_, fits, fun _ _ _ _ _ split => ⟨left, fun success => ?_⟩,
                answered.settled waiting _ _⟩
              · rw [failuresSinceSuccess_snoc, ← counted]
                exact congrArg BreakerFields.failureCount settled.symm
              · obtain ⟨value, succeeded⟩ := success
                have last := (List.append_inj' split rfl).2
                simp [succeeded] at last

/-- A failure in a half-open breaker opens it again. -/
theorem Consistent.reopens {system next : BreakerSystem α} {index : Nat} {err : Thrown}
    {now : Int} {observers : Observers} (consistent : Consistent threshold system.fields)
    (same : self.threshold = .ofNat threshold) (quiet : observers.Quiet)
    (taken : BreakerStep self system (.settle index (.error err) now observers) next)
    (halfOpen : system.fields.state = .halfOpen)
    : next.fields.state = .opened := by
  cases taken with
  | settled _ _ _ waiting settles =>
      rw [CircuitBreaker.settle_quiet quiet, Prod.mk.injEq] at settles
      exact (consistent.failed same settles.2).2.2 (by simp [halfOpen])

/-- In every run whose observers do not throw, by induction on the run. -/
theorem regulated {labels : List (BreakerLabel α)} {system : BreakerSystem α}
    (positive : 1 ≤ threshold) (same : self.threshold = .ofNat threshold)
    (run : Execution (BreakerStep self) (.start α) labels system)
    : (∀ label ∈ labels, label.observers.Quiet) → Regulated threshold labels system := by
  refine @Execution.invariant _ _ _ _ _ _
    (fun labels system =>
      (∀ label ∈ labels, label.observers.Quiet) → Regulated threshold labels system) ?_ ?_ run
  · intro _
    refine ⟨rfl, ⟨fun _ => positive, fun open' => ?_⟩, ?_, ⟨?_, ?_⟩⟩
    · rcases open' with absurd | absurd <;> cases absurd
    · intro earlier _ _ _ _ split
      simp at split
    · simp [BreakerSystem.start]
    · simp [BreakerSystem.start]
  · intro labels state label next before taken quiet
    have earlier := before (fun other member => quiet other (List.mem_append_left _ member))
    exact earlier.step positive same (quiet label (by simp)) taken

/-- A probe that fails in an undisturbed run opens the breaker; witness: it holds the
half-open state.
-/
theorem reopened {labels : List (BreakerLabel α)} {system : BreakerSystem α}
    (positive : 1 ≤ threshold) (same : self.threshold = .ofNat threshold)
    (run : Execution (UndisturbedStep self) (.start α) labels system)
    (quiet : ∀ label ∈ labels, label.observers.Quiet)
    : Reopened labels system := by
  intro earlier index err now observers result split failed
  cases run with
  | start => simp at split
  | @snoc before state label _ undisturbed taken =>
      obtain ⟨rfl, last⟩ := List.append_inj' split rfl
      obtain rfl : label = .settle index (.error err) now observers := by simpa using last
      have halfOpen : state.fields.state = .halfOpen := by
        apply (probeHolds undisturbed).holds
        cases taken.1 with
        | @settled _ probe startedAt _ _ _ _ _ waiting _ =>
            obtain ⟨bound, _⟩ := List.getElem?_eq_some_iff.mp waiting
            obtain ⟨rfl, _⟩ : probe = true ∧ _ := by simpa [bound] using failed
            exact List.countP_pos_iff.mpr ⟨_, List.mem_of_getElem? waiting, rfl⟩
      have regulated := regulated positive same
        (undisturbed.mono (fun _ _ _ taken => taken.1))
        (fun other member => quiet other (List.mem_append_left _ member))
      have silent := quiet (.settle index (.error err) now observers) (by simp)
      exact regulated.consistent.reopens same silent taken.1 halfOpen

/-- In every run whose observers do not throw the breaker is regulated, and a failure in a
half-open breaker opens it again; where moreover nothing else settles while a probe is
under way, a failed probe always does.
-/
theorem breaker_regulated {labels : List (BreakerLabel α)} {system : BreakerSystem α}
    (positive : 1 ≤ threshold) (same : self.threshold = .ofNat threshold)
    (run : Execution (BreakerStep self) (.start α) labels system)
    (quiet : ∀ label ∈ labels, label.observers.Quiet)
    : Regulated threshold labels system
      ∧ (∀ index err now observers next,
          observers.Quiet
          → BreakerStep self system (.settle index (.error err) now observers) next
          → system.fields.state = .halfOpen
          → next.fields.state = .opened)
      ∧ (Execution (UndisturbedStep self) (.start α) labels system → Reopened labels system) := by
  have holds := regulated positive same run quiet
  refine ⟨holds, ?_, fun undisturbed => reopened positive same undisturbed quiet⟩
  intro index err now observers next silent taken halfOpen
  exact holds.consistent.reopens same silent taken halfOpen

/-- A breaker that opens at the second failure, for 50 milliseconds. -/
def patientBreaker : CircuitBreaker :=
  .create "dependency" (some (.ofNat 2)) (some (.ofNat 50))

/-- Three calls start and two fail, which opens the breaker; after the window a probe starts,
then the third call succeeds, and then the probe fails.
-/
def overtakenProbe : List (BreakerLabel Unit) :=
  [
    .execute 0 .silent,
    .execute 0 .silent,
    .execute 0 .silent,
    .settle 0 (.error boom) 0 .silent,
    .settle 1 (.error boom) 0 .silent,
    .execute 100 .silent,
    .settle 2 (.ok ()) 110 .silent,
    .settle 3 (.error boom) 120 .silent
  ]

/-- The breaker is closed, although its probe has failed. -/
def overtakenSystem : BreakerSystem Unit where
  fields := { state := .closed, failureCount := 1, lastFailureTime := 120 }
  calls :=
    [
      .settled false (.error boom) (.error boom),
      .settled false (.error boom) (.error boom),
      .settled false (.ok ()) (.ok ()),
      .settled true (.error boom) (.error boom)
    ]
  invoked := [0, 1, 2, 3]
  prober := some 3

theorem overtakenProbe_execution
    : Execution (BreakerStep patientBreaker) (.start Unit) overtakenProbe overtakenSystem :=
  BreakerSystem.performAll_execution rfl

theorem overtakenProbe_quiet : ∀ label ∈ overtakenProbe, label.observers.Quiet := by
  intro label member
  simp only [overtakenProbe, List.mem_cons, List.not_mem_nil, or_false] at member
  rcases member with rfl | rfl | rfl | rfl | rfl | rfl | rfl | rfl <;> exact Observers.silent_quiet

/-- The run in which a late success overtakes the probe is regulated. -/
theorem breaker_regulated_overtaken : Regulated 2 overtakenProbe overtakenSystem :=
  (breaker_regulated (by decide) rfl overtakenProbe_execution overtakenProbe_quiet).1

/-- A late success closes a half-open breaker under its probe, so that the failed probe is the
first failure of a closed breaker and does not open it.
-/
theorem breaker_not_reopened
    : ¬ ∀ (self : CircuitBreaker) (threshold : Nat) (labels : List (BreakerLabel Unit))
          (system : BreakerSystem Unit),
          1 ≤ threshold
          → self.threshold = .ofNat threshold
          → Execution (BreakerStep self) (.start Unit) labels system
          → (∀ label ∈ labels, label.observers.Quiet)
          → Regulated threshold labels system ∧ Reopened labels system := by
  intro claimed
  have reopened := (claimed patientBreaker 2 _ _ (by decide) rfl overtakenProbe_execution
    overtakenProbe_quiet).2
  have opened := reopened overtakenProbe.dropLast 3 boom 120 .silent (.error boom) rfl rfl
  cases opened

end SharedKernel.Resilience
