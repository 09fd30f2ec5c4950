import SharedKernel.Resilience.Interleaving

/-! The window in which an open breaker fails fast, and how it closes again: as long as no call
succeeds in a breaker that is not closed, except the probe that holds the half-open state.
-/

namespace SharedKernel.Resilience

open Foundation Js

variable {α : Type} {self : CircuitBreaker}

/-- The window as an inequality of times, where the timeout is finite. -/
theorem within_finite {timeoutMs : ℚ} (finite : self.timeoutMs = .finite timeoutMs)
    (failure now : Int)
    : self.Within failure now ↔ (now : ℚ) ≤ failure + timeoutMs := by
  simp only [CircuitBreaker.Within, finite, Number.ge, decide_eq_true_eq]
  push_cast
  exact sub_le_iff_le_add'

/-- A time between a failure and a time of its window is in the window; the window of a later
failure does not end earlier.
-/
theorem Within.mono {failure failure' now now' : Int} (within : self.Within failure now)
    (later : failure ≤ failure') (earlier : now' ≤ now)
    : self.Within failure' now' := by
  cases timeout : self.timeoutMs with
  | nan => simp [CircuitBreaker.Within, timeout, Number.ge] at within
  | infinity negative => simpa [CircuitBreaker.Within, timeout, Number.ge] using within
  | finite timeoutMs =>
      rw [within_finite timeout] at within ⊢
      have start : (failure : ℚ) ≤ failure' := by exact_mod_cast later
      have stop : (now' : ℚ) ≤ now := by exact_mod_cast earlier
      linarith

/-- A function succeeds in a breaker that is not closed only if it is the probe that holds the
half-open state.
-/
def SuccessFromProber (system : BreakerSystem α) (label : BreakerLabel α) : Prop :=
  ∀ index value now observers,
    label = .settle index (.ok value) now observers
    → system.fields.state ≠ .closed
    → system.fields.state = .halfOpen ∧ system.prober = some index

/-- The steps before which no other function succeeds. -/
def PromptStep (self : CircuitBreaker) (system : BreakerSystem α) (label : BreakerLabel α)
    (next : BreakerSystem α)
    : Prop :=
  BreakerStep self system label next ∧ SuccessFromProber system label

/-- A breaker that was open, with its last failure at some time, refuses every call within
the window of that failure; and where the steps from there first close it, a probe succeeds
that was started after the window.
-/
structure FailsFast (breaker : CircuitBreaker)
    (step : BreakerSystem α → BreakerLabel α → BreakerSystem α → Prop)
    (tripped : BreakerSystem α) (more : List (BreakerLabel α)) (system : BreakerSystem α)
    (label : BreakerLabel α) (next : BreakerSystem α)
    : Prop where
  refuses
    : ∀ now observers,
        label = .execute now observers
        → breaker.Within tripped.fields.lastFailureTime now
        → next.calls = system.calls ++ [.refused circuitOpen] ∧ next.invoked = system.invoked
  recovers
    : Execution
        (fun before label after => step before label after ∧ after.fields.state ≠ .closed)
        tripped more system
      → next.fields.state = .closed
      → ∃ index value now observers startedAt,
          label = .settle index (.ok value) now observers
          ∧ system.calls[index]? = some (.pending true startedAt)
          ∧ ¬ breaker.Within tripped.fields.lastFailureTime startedAt

/-- The last failure of a breaker that is not closed is dated by one of the steps. -/
def Dated (labels : List (BreakerLabel α)) (system : BreakerSystem α) : Prop :=
  system.fields.state = .closed
  ∨ system.fields.lastFailureTime ∈ labels.map BreakerLabel.now

/-- Every step keeps the last failure dated, by the kind of step. -/
theorem Dated.step {labels : List (BreakerLabel α)} {system next : BreakerSystem α}
    {label : BreakerLabel α} (dated : Dated labels system)
    (taken : BreakerStep self system label next)
    : Dated (labels ++ [label]) next := by
  have still : system.fields.state ≠ .closed
      → system.fields.lastFailureTime ∈ (labels ++ [label]).map BreakerLabel.now := by
    intro state
    rw [List.map_append]
    exact List.mem_append_left _ (dated.resolve_left state)
  cases label with
  | execute now observers =>
      cases taken.executed with
      | passed closed => exact Or.inl closed
      | refused unavailable =>
          refine Or.inr (still ?_)
          rcases unavailable with state | ⟨state, _⟩ <;> simp [state]
      | claimed opened expired added => exact Or.inr (still (by simp [opened]))
  | settle index outcome now observers =>
      cases taken with
      | settled _ _ _ waiting settles =>
          rcases CircuitBreaker.settle_cases settles with
            ⟨_, rfl | fails⟩ | ⟨fails, _⟩
          · exact Or.inl rfl
          · exact Or.inr (by simp [fails.dated, BreakerLabel.now])
          · exact Or.inr (by simp [fails.dated, BreakerLabel.now])

/-- Since the breaker was open with its last failure at a time, it is open with a failure no
older than that, or the window of that failure is over.
-/
def StillOpen (self : CircuitBreaker) (failure : Int) (more : List (BreakerLabel α))
    (system : BreakerSystem α)
    : Prop :=
  system.fields.state = .opened ∧ failure ≤ system.fields.lastFailureTime
  ∨ ∃ time ∈ more.map BreakerLabel.now, ¬ self.Within failure time

/-- A step no earlier than the failure keeps that, by the kind of step. -/
theorem StillOpen.step {failure : Int} {more : List (BreakerLabel α)}
    {system next : BreakerSystem α} {label : BreakerLabel α}
    (still : StillOpen self failure more system) (taken : PromptStep self system label next)
    (since : failure ≤ label.now)
    : StillOpen self failure (more ++ [label]) next := by
  rcases still with ⟨opened, dated⟩ | ⟨time, member, expired⟩
  · obtain ⟨step, prompt⟩ := taken
    cases label with
    | execute now observers =>
        cases step.executed with
        | passed closed => exact absurd (closed.symm.trans opened) (by decide)
        | refused unavailable => exact Or.inl ⟨opened, dated⟩
        | claimed _ expired added =>
            refine Or.inr ⟨now, by simp [BreakerLabel.now], fun within => expired ?_⟩
            exact Within.mono within dated (Int.le_refl _)
    | settle index outcome now observers =>
        cases step with
        | settled _ _ _ waiting settles =>
            rcases CircuitBreaker.settle_cases settles with ⟨⟨value, rfl⟩, _⟩ | ⟨fails, _⟩
            · have halfOpen := (prompt _ _ _ _ rfl (by simp [opened])).1
              exact absurd (opened.symm.trans halfOpen) (by decide)
            · refine Or.inl ⟨?_, fails.dated ▸ since⟩
              rcases fails.state with same | opens
              · exact same.trans opened
              · exact opens
  · refine Or.inr ⟨time, ?_, expired⟩
    rw [List.map_append]
    exact List.mem_append_left _ member

/-- Since the breaker was open, it is open with a failure no older than that, or half-open
with a probe that was started after the window.
-/
def NotRecovered (self : CircuitBreaker) (failure : Int) (system : BreakerSystem α) : Prop :=
  system.fields.state = .opened ∧ failure ≤ system.fields.lastFailureTime
  ∨ system.fields.state = .halfOpen
    ∧ ∀ index probe startedAt,
        system.prober = some index
        → system.calls[index]? = some (.pending probe startedAt)
        → probe = true ∧ ¬ self.Within failure startedAt

/-- A function that is under way after a call was refused was so before. -/
theorem pending_of_refused {calls : List (Call α)} {err : Thrown} {index : Nat} {probe : Bool}
    {startedAt : Int}
    (waiting : (calls ++ [.refused err])[index]? = some (.pending probe startedAt))
    : calls[index]? = some (.pending probe startedAt) := by
  rw [List.getElem?_append] at waiting
  split at waiting
  · exact waiting
  · have member := List.mem_of_getElem? waiting
    simp at member

/-- A function that is under way after another settled was so before. -/
theorem pending_of_settled {calls : List (Call α)} {index other : Nat} {probe probe' : Bool}
    {outcome result : Except Thrown α} {startedAt : Int}
    (waiting
      : (calls.set other (.settled probe' outcome result))[index]?
        = some (.pending probe startedAt))
    : calls[index]? = some (.pending probe startedAt) := by
  rw [List.getElem?_set] at waiting
  split at waiting
  · split at waiting <;> cases waiting
  · exact waiting

/-- A step that does not close the breaker keeps that, by the kind of step. -/
theorem NotRecovered.step {failure : Int} {system next : BreakerSystem α}
    {label : BreakerLabel α} (open' : NotRecovered self failure system)
    (taken : BreakerStep self system label next) (since : failure ≤ label.now)
    (unclosed : next.fields.state ≠ .closed)
    : NotRecovered self failure next := by
  cases label with
  | execute now observers =>
      cases taken.executed with
      | passed closed => exact absurd closed unclosed
      | refused unavailable =>
          rcases open' with opened | ⟨halfOpen, probing⟩
          · exact Or.inl opened
          · refine Or.inr ⟨halfOpen, fun index probe startedAt holds waiting => ?_⟩
            exact probing index probe startedAt holds (pending_of_refused waiting)
      | claimed opened expired added =>
          have dated : failure ≤ system.fields.lastFailureTime := by
            rcases open' with ⟨_, dated⟩ | ⟨halfOpen, _⟩
            · exact dated
            · exact absurd (opened.symm.trans halfOpen) (by decide)
          refine Or.inr ⟨rfl, fun index probe startedAt holds waiting => ?_⟩
          obtain rfl : system.calls.length = index := Option.some.inj holds
          rcases added with ⟨rfl, _⟩ | ⟨⟨err, rfl⟩, _⟩
          · obtain ⟨rfl, rfl⟩ : true = probe ∧ now = startedAt := by simpa using waiting
            exact ⟨rfl, fun within => expired (Within.mono within dated (Int.le_refl _))⟩
          · simp at waiting
  | settle index outcome now observers =>
      cases taken with
      | @settled _ _ _ _ fields _ _ _ waiting settles =>
          have reopened {before : BreakerFields} (fails : CircuitBreaker.Failed now before fields)
              (opened : fields.state = .opened)
              : fields.state = .opened ∧ failure ≤ fields.lastFailureTime :=
            ⟨opened, fails.dated ▸ since⟩
          rcases CircuitBreaker.settle_cases settles with ⟨_, rfl | fails⟩ | ⟨fails, _⟩
          · exact absurd rfl unclosed
          · rcases fails.state with closed | opened
            · exact absurd closed unclosed
            · exact Or.inl (reopened fails opened)
          · rcases fails.state with same | opened
            · rcases open' with ⟨opened, _⟩ | ⟨halfOpen, probing⟩
              · exact Or.inl (reopened fails (same.trans opened))
              · refine Or.inr ⟨same.trans halfOpen, fun other probe startedAt holds still => ?_⟩
                exact probing other probe startedAt holds (pending_of_settled still)
            · exact Or.inl (reopened fails opened)

/-- A step that closes the breaker from there is the success of that probe. -/
theorem NotRecovered.recovers {failure : Int} {system next : BreakerSystem α}
    {label : BreakerLabel α} (open' : NotRecovered self failure system)
    (taken : PromptStep self system label next) (closed : next.fields.state = .closed)
    : ∃ index value now observers startedAt,
        label = .settle index (.ok value) now observers
        ∧ system.calls[index]? = some (.pending true startedAt)
        ∧ ¬ self.Within failure startedAt := by
  obtain ⟨step, prompt⟩ := taken
  have unclosed : system.fields.state ≠ .closed := by
    rcases open' with ⟨opened, _⟩ | ⟨halfOpen, _⟩
    · simp [opened]
    · simp [halfOpen]
  cases label with
  | execute now observers =>
      cases step.executed with
      | passed before => exact absurd before unclosed
      | refused unavailable => exact absurd closed unclosed
      | claimed opened expired added => cases closed
  | settle index outcome now observers =>
      cases step with
      | @settled _ probe startedAt _ fields _ _ _ waiting settles =>
          rcases CircuitBreaker.settle_cases settles with ⟨⟨value, rfl⟩, _⟩ | ⟨fails, _⟩
          · obtain ⟨halfOpen, holds⟩ := prompt _ _ _ _ rfl unclosed
            rcases open' with ⟨opened, _⟩ | ⟨_, probing⟩
            · exact absurd (opened.symm.trans halfOpen) (by decide)
            · obtain ⟨rfl, expired⟩ := probing index probe startedAt holds waiting
              exact ⟨index, value, now, observers, startedAt, rfl, waiting, expired⟩
          · rcases fails.state with same | opened
            · exact absurd (same.symm.trans closed) unclosed
            · exact absurd (opened.symm.trans closed) (by decide)

/-- Since the breaker was open, every later step comes no earlier than its last failure;
witness: the failure is dated by one of the steps before.
-/
theorem lastFailureTime_le {labels more : List (BreakerLabel α)} {tripped : BreakerSystem α}
    (dated : Dated labels tripped) (opened : tripped.fields.state = .opened)
    (clock : NonDecreasing (labels ++ more))
    : ∀ label ∈ more, tripped.fields.lastFailureTime ≤ label.now := by
  have member := dated.resolve_left (by simp [opened])
  unfold NonDecreasing at clock
  rw [List.map_append, List.pairwise_append] at clock
  exact fun label later => clock.2.2 _ member _ (List.mem_map_of_mem later)

/-- Steps that come no earlier than the last failure keep the breaker open until the window is
over, by induction on the run.
-/
theorem stillOpen {more : List (BreakerLabel α)} {tripped system : BreakerSystem α}
    (opened : tripped.fields.state = .opened)
    (later : Execution (PromptStep self) tripped more system)
    : (∀ label ∈ more, tripped.fields.lastFailureTime ≤ label.now)
      → StillOpen self tripped.fields.lastFailureTime more system := by
  refine @Execution.invariant _ _ _ _ _ _
    (fun more system =>
      (∀ label ∈ more, tripped.fields.lastFailureTime ≤ label.now)
      → StillOpen self tripped.fields.lastFailureTime more system)
    (fun _ => Or.inl ⟨opened, Int.le_refl _⟩) ?_ later
  intro labels state label next still taken since
  have before := still (fun earlier member => since earlier (List.mem_append_left _ member))
  exact before.step taken (since label (by simp))

/-- Steps that come no earlier than the last failure, and do not close the breaker, keep it
open or half-open with its probe, by induction on the run.
-/
theorem notRecovered {more : List (BreakerLabel α)} {tripped system : BreakerSystem α}
    (opened : tripped.fields.state = .opened)
    (later
      : Execution
          (fun before label after =>
            PromptStep self before label after ∧ after.fields.state ≠ .closed)
          tripped more system)
    : (∀ label ∈ more, tripped.fields.lastFailureTime ≤ label.now)
      → NotRecovered self tripped.fields.lastFailureTime system := by
  refine @Execution.invariant _ _ _ _ _ _
    (fun more system =>
      (∀ label ∈ more, tripped.fields.lastFailureTime ≤ label.now)
      → NotRecovered self tripped.fields.lastFailureTime system)
    (fun _ => Or.inl ⟨opened, Int.le_refl _⟩) ?_ later
  intro labels state label next open' taken since
  have before := open' (fun earlier member => since earlier (List.mem_append_left _ member))
  exact before.step taken.1.1 (since label (by simp)) taken.2

/-- While the breaker is still open, a call within the window is refused; witness: a window
that is over stays over, as the clock does not go back.
-/
theorem StillOpen.refuses {failure now : Int} {more : List (BreakerLabel α)}
    {system next : BreakerSystem α} {observers : Observers}
    (still : StillOpen self failure more system)
    (taken : BreakerStep self system (.execute now observers) next)
    (latest : ∀ time ∈ more.map BreakerLabel.now, time ≤ now)
    (within : self.Within failure now)
    : next.calls = system.calls ++ [.refused circuitOpen] ∧ next.invoked = system.invoked := by
  rcases still with ⟨opened, dated⟩ | ⟨time, member, expired⟩
  · cases taken.executed with
    | passed closed => exact absurd (closed.symm.trans opened) (by decide)
    | refused unavailable => exact ⟨rfl, rfl⟩
    | claimed _ expired added => exact absurd (Within.mono within dated (Int.le_refl _)) expired
  · exact absurd (Within.mono within (Int.le_refl _) (latest time member)) expired

/-- In every run in which no function succeeds in a breaker that is not closed, except the
probe that holds the half-open state, an open breaker fails fast and is closed by a probe
only; witness: the invariants of a single step.
-/
theorem fails_fast {labels more : List (BreakerLabel α)}
    {tripped system next : BreakerSystem α} {label : BreakerLabel α}
    (run : Execution (PromptStep self) (.start α) labels tripped)
    (opened : tripped.fields.state = .opened)
    (later : Execution (PromptStep self) tripped more system)
    (taken : PromptStep self system label next)
    (clock : NonDecreasing (labels ++ (more ++ [label])))
    : FailsFast self (PromptStep self) tripped more system label next := by
  have dated : Dated labels tripped :=
    run.invariant (Or.inl rfl) (fun _ _ _ _ dated taken => dated.step taken.1)
  have since := lastFailureTime_le dated opened clock
  have sinceMore : ∀ earlier ∈ more, tripped.fields.lastFailureTime ≤ earlier.now :=
    fun earlier member => since earlier (List.mem_append_left _ member)
  constructor
  · intro now observers same within
    subst same
    have latest : ∀ time ∈ more.map BreakerLabel.now, time ≤ now := by
      unfold NonDecreasing at clock
      simp only [List.map_append, List.pairwise_append] at clock
      exact fun time member => clock.2.1.2.2 time member now (by simp [BreakerLabel.now])
    exact (stillOpen opened later sinceMore).refuses taken.1 latest within
  · intro unclosed closed
    exact (notRecovered opened unclosed sinceMore).recovers taken closed

/-- After the first failure the breaker is open; after the window a probe starts. -/
def probingSystem : BreakerSystem Unit where
  fields := { state := .halfOpen, failureCount := 1, lastFailureTime := 0 }
  calls := [.settled false (.error boom) (.error boom), .pending true 100]
  invoked := [0, 1]
  prober := some 1

/-- A breaker opens and is closed again by its probe. -/
theorem fails_fast_probe
    : ∃ tripped next,
        next.fields.state = .closed
        ∧ FailsFast sampleBreaker (PromptStep sampleBreaker) tripped [.execute 100 .silent]
            probingSystem (.settle 1 (.ok ()) 110 .silent) next := by
  have trips : ∃ tripped, tripped.fields.state = .opened
      ∧ Execution (PromptStep sampleBreaker) (.start Unit)
          [.execute 0 .silent, .settle 0 (.error boom) 0 .silent] tripped
      ∧ PromptStep sampleBreaker tripped (.execute 100 .silent) probingSystem := by
    refine ⟨_, ?_, .cons ⟨BreakerSystem.perform_step rfl, ?_⟩
      (.cons ⟨BreakerSystem.perform_step rfl, ?_⟩ .start),
      ⟨BreakerSystem.perform_step rfl, ?_⟩⟩
    · rfl
    all_goals
      intro index value now observers same
      cases same
  obtain ⟨tripped, opened, run, claims⟩ := trips
  have recovers : PromptStep sampleBreaker probingSystem (.settle 1 (.ok ()) 110 .silent)
      {
        fields := .start
        calls := [.settled false (.error boom) (.error boom), .settled true (.ok ()) (.ok ())]
        invoked := [0, 1]
        prober := some 1
      } := by
    refine ⟨BreakerSystem.perform_step rfl, ?_⟩
    intro index value now observers same _
    cases same
    exact ⟨rfl, rfl⟩
  have fast := fails_fast run opened (.cons claims .start) recovers (by decide +kernel)
  exact ⟨tripped, _, rfl, fast⟩

/-- Two calls start and the first fails, which opens the breaker. -/
def trippedLabels : List (BreakerLabel Unit) :=
  [.execute 0 .silent, .execute 0 .silent, .settle 0 (.error boom) 0 .silent]

/-- The breaker is open and the second call is under way. -/
def trippedSystem : BreakerSystem Unit where
  fields := { state := .opened, failureCount := 1, lastFailureTime := 0 }
  calls := [.settled false (.error boom) (.error boom), .pending false 0]
  invoked := [0, 1]
  prober := none

/-- The second call has succeeded. -/
def closedSystem : BreakerSystem Unit where
  fields := { state := .closed, failureCount := 0, lastFailureTime := 0 }
  calls := [.settled false (.error boom) (.error boom), .settled false (.ok ()) (.ok ())]
  invoked := [0, 1]
  prober := none

/-- A late success closes an open breaker within its window, so that the next call within the
window reaches its function.
-/
theorem fails_fast_lateSuccess
    : ¬ ∀ (self : CircuitBreaker) (labels more : List (BreakerLabel Unit))
          (tripped system next : BreakerSystem Unit) (label : BreakerLabel Unit),
          Execution (BreakerStep self) (.start Unit) labels tripped
          → tripped.fields.state = .opened
          → Execution (BreakerStep self) tripped more system
          → BreakerStep self system label next
          → NonDecreasing (labels ++ (more ++ [label]))
          → FailsFast self (BreakerStep self) tripped more system label next := by
  intro claimed
  have trips : Execution (BreakerStep sampleBreaker) (.start Unit) trippedLabels trippedSystem :=
    BreakerSystem.performAll_execution rfl
  have closes : Execution (BreakerStep sampleBreaker) trippedSystem
      [.settle 1 (.ok ()) 1 .silent] closedSystem :=
    BreakerSystem.performAll_execution rfl
  have calls : BreakerStep sampleBreaker closedSystem (.execute 10 .silent)
      {
        closedSystem with
        calls := closedSystem.calls ++ [.pending false 10]
        invoked := closedSystem.invoked ++ [2]
      } :=
    BreakerSystem.perform_step rfl
  have fast := claimed _ _ _ _ _ _ _ trips rfl closes calls (by decide +kernel)
  have refused := (fast.refuses 10 .silent rfl (by decide +kernel)).2
  revert refused
  decide

end SharedKernel.Resilience
