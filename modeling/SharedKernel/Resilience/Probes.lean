import SharedKernel.Resilience.Interleaving

/-! How many probes of a breaker are under way: one at most, as long as only the probe itself
settles while the breaker is half-open.
-/

namespace SharedKernel.Resilience

open Foundation Js

variable {α : Type} {self : CircuitBreaker}

/-- The function of the call is a probe that has not settled. -/
def Call.probing : Call α → Bool
  | pending probe _ => probe
  | _ => false

/-- The probes under way. -/
def BreakerSystem.probes (system : BreakerSystem α) : Nat :=
  system.calls.countP Call.probing

/-- While the breaker is half-open, no function settles but a probe. -/
def OnlyProbesSettle (system : BreakerSystem α) (label : BreakerLabel α) : Prop :=
  ∀ index outcome now observers,
    label = .settle index outcome now observers
    → system.fields.state = .halfOpen
    → ∃ startedAt, system.calls[index]? = some (.pending true startedAt)

/-- The steps before which no other function settles than the probe of a half-open breaker. -/
def UndisturbedStep (self : CircuitBreaker) (system : BreakerSystem α) (label : BreakerLabel α)
    (next : BreakerSystem α)
    : Prop :=
  BreakerStep self system label next ∧ OnlyProbesSettle system label

/-- A probe that is under way holds the half-open state, and there is one at most. -/
structure ProbeHolds (system : BreakerSystem α) : Prop where
  single : system.probes ≤ 1
  holds : 0 < system.probes → system.fields.state = .halfOpen

/-- Settling a call takes it out of the count. -/
theorem countP_settle {calls : List (Call α)} {index : Nat} {probe : Bool} {startedAt : Int}
    (waiting : calls[index]? = some (.pending probe startedAt))
    (outcome result : Except Thrown α)
    : (calls.set index (.settled probe outcome result)).countP Call.probing
        + (if probe then 1 else 0)
      = calls.countP Call.probing := by
  obtain ⟨bound, here⟩ := List.getElem?_eq_some_iff.mp waiting
  rw [List.countP_set bound, here]
  have counted : probe = true → 0 < calls.countP Call.probing := by
    intro probes
    refine List.countP_pos_iff.mpr ⟨_, List.mem_of_getElem? waiting, ?_⟩
    simpa [Call.probing] using probes
  cases probe with
  | false => simp [Call.probing]
  | true =>
      have positive := counted rfl
      simp only [Call.probing, if_true, Bool.false_eq_true, if_false]
      omega

/-- Every undisturbed step keeps the half-open state with its probe, by the kind of step. -/
theorem ProbeHolds.step {system next : BreakerSystem α} {label : BreakerLabel α}
    (invariant : ProbeHolds system) (taken : UndisturbedStep self system label next)
    : ProbeHolds next := by
  obtain ⟨single, holds⟩ := invariant
  obtain ⟨step, undisturbed⟩ := taken
  cases label with
  | execute now observers =>
      unfold BreakerSystem.probes at single holds
      cases step.executed with
      | passed closed =>
          have none : system.calls.countP Call.probing = 0 := by
            by_contra some
            have halfOpen := holds (Nat.pos_of_ne_zero some)
            exact absurd (closed.symm.trans halfOpen) (by decide)
          constructor <;> simp [BreakerSystem.probes, none, Call.probing]
      | refused unavailable =>
          constructor
          · simpa [BreakerSystem.probes, Call.probing] using single
          · simpa [BreakerSystem.probes, Call.probing] using holds
      | claimed opened expired added =>
          have none : system.calls.countP Call.probing = 0 := by
            by_contra some
            have halfOpen := holds (Nat.pos_of_ne_zero some)
            exact absurd (opened.symm.trans halfOpen) (by decide)
          refine ⟨?_, fun _ => rfl⟩
          simp only [BreakerSystem.probes, List.countP_append, none, Nat.zero_add]
          exact List.countP_le_length
  | settle index outcome now observers =>
      cases step with
      | @settled _ probe startedAt result fields _ _ _ waiting settles =>
          have counted := countP_settle waiting outcome result
          by_cases state : system.fields.state = .halfOpen
          · obtain ⟨since, same⟩ := undisturbed _ _ _ _ rfl state
            obtain ⟨rfl, rfl⟩ : probe = true ∧ startedAt = since := by
              simpa [waiting] using same
            unfold BreakerSystem.probes at single
            simp only [if_true] at counted
            constructor
            · simp only [BreakerSystem.probes]
              omega
            · intro some
              simp only [BreakerSystem.probes] at some
              omega
          · have none : system.calls.countP Call.probing = 0 := by
              by_contra some
              exact state (holds (Nat.pos_of_ne_zero some))
            constructor
            · simp only [BreakerSystem.probes]
              omega
            · intro some
              simp only [BreakerSystem.probes] at some
              omega

/-- Every state of an undisturbed run holds the half-open state with its probe. -/
theorem probeHolds {labels : List (BreakerLabel α)} {system : BreakerSystem α}
    (run : Execution (UndisturbedStep self) (.start α) labels system)
    : ProbeHolds system := by
  have initially : ProbeHolds (BreakerSystem.start α) :=
    ⟨by simp [BreakerSystem.probes, BreakerSystem.start],
      by simp [BreakerSystem.probes, BreakerSystem.start]⟩
  exact @Execution.invariant _ _ _ _ _ _ (fun _ => ProbeHolds) initially
    (fun _ _ _ _ held taken => held.step taken) run

/-- In every undisturbed run at most one probe is under way, whatever the clock and the
observers do; witness: the invariant of a single step.
-/
theorem probes_le_one {labels : List (BreakerLabel α)} {system : BreakerSystem α}
    (run : Execution (UndisturbedStep self) (.start α) labels system)
    : system.probes ≤ 1 :=
  (probeHolds run).single

/-- A call fails and opens the breaker; after the timeout a probe starts. -/
def probeLabels : List (BreakerLabel Unit) :=
  [
    .execute 0 .silent,
    .settle 0 (.error boom) 0 .silent,
    .execute 100 .silent
  ]

/-- A probe under way, in a run that nothing disturbs. -/
theorem probes_le_one_probe
    : ∃ system,
        Execution (UndisturbedStep sampleBreaker) (.start Unit) probeLabels system
        ∧ 0 < system.probes
        ∧ system.probes ≤ 1 := by
  have run : ∃ system, Execution (UndisturbedStep sampleBreaker) (.start Unit) probeLabels system
      ∧ 0 < system.probes := by
    refine ⟨_, .cons ⟨BreakerSystem.perform_step rfl, ?_⟩
      (.cons ⟨BreakerSystem.perform_step rfl, ?_⟩
        (.cons ⟨BreakerSystem.perform_step rfl, ?_⟩ .start)), by decide⟩
    · intro index outcome now observers same
      cases same
    · intro index outcome now observers _ halfOpen
      cases halfOpen
    · intro index outcome now observers same
      cases same
  obtain ⟨system, run, probing⟩ := run
  exact ⟨system, run, probing, probes_le_one run⟩

/-- Two calls start, the first fails and opens the breaker; after the timeout a probe starts,
then the second call fails, and after another timeout there is another probe.
-/
def stalePair : List (BreakerLabel Unit) :=
  [
    .execute 0 .silent,
    .execute 0 .silent,
    .settle 0 (.error boom) 0 .silent,
    .execute 100 .silent,
    .settle 1 (.error boom) 100 .silent,
    .execute 200 .silent
  ]

/-- A stale failure opens a half-open breaker while its probe is under way, so that a second
probe joins the first.
-/
theorem probes_le_one_stale
    : ¬ ∀ (self : CircuitBreaker) (labels : List (BreakerLabel Unit))
          (system : BreakerSystem Unit),
          Execution (BreakerStep self) (.start Unit) labels system
          → NonDecreasing labels
          → system.probes ≤ 1 := by
  intro claimed
  have two : ((BreakerSystem.start Unit).performAll sampleBreaker stalePair).map
      BreakerSystem.probes = some 2 := by
    decide +kernel
  obtain ⟨system, performed, same⟩ := Option.map_eq_some_iff.mp two
  have single := claimed sampleBreaker stalePair system
    (BreakerSystem.performAll_execution performed) (by decide +kernel)
  omega

end SharedKernel.Resilience
