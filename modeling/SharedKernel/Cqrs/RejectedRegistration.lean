import SharedKernel.Cqrs.Registration
import SharedKernel.Foundation.Run

/-! What a rejected registration leaves behind: nothing, unless it is rejected for a nested saga,
whose handler stays in the map and fails every call after it.
-/

namespace SharedKernel.Cqrs

open Foundation Js

variable {bus : CommandBus}

/-- The bus after consecutive calls of `register`. -/
def CommandBus.after (bus : CommandBus) (calls : List (String × AnyHandler)) : CommandBus :=
  (bus.registerAll calls).2

/-- The result of one call. -/
def CommandBus.result (bus : CommandBus) (call : String × AnyHandler) : Except Thrown PUnit :=
  (Atomic.on bus (CommandBus.register call.1 call.2)).1

/-- The call brings no nested saga: its name is taken, or its handler has neither kind, or no
saga declares a saga once the handler is in the map.
-/
def BringsNoNesting (bus : CommandBus) (call : String × AnyHandler) : Prop :=
  ∀ handler,
    call.2 = .known handler
    → (bus.handlers.lookup call.1).isSome = false
    → ¬ Nests (bus.handlers ++ [(call.1, handler)])

/-- Rejected calls leave the bus as it was: the calls of a run that throw change nothing, no
saga declares a saga in any state of the run, and the calls after one that throws end as they
would without it.
-/
structure RejectionsHarmless (bus : CommandBus) (calls : List (String × AnyHandler)) : Prop where
  unchanged
    : ∀ before call later error,
        calls = before ++ call :: later
        → (bus.after before).result call = .error error
        → (bus.after (before ++ [call])).handlers = (bus.after before).handlers
  sound : ∀ before later, calls = before ++ later → ¬ Nests (bus.after before).handlers
  forgotten
    : ∀ before call later error,
        calls = before ++ call :: later
        → (bus.after before).result call = .error error
        → (bus.after (before ++ [call])).registerAll later = (bus.after before).registerAll later

/-- The calls of a run are made one after the other, by induction on the first of them. -/
theorem CommandBus.after_append (bus : CommandBus) (before later : List (String × AnyHandler))
    : bus.after (before ++ later) = (bus.after before).after later := by
  induction before generalizing bus with
  | nil => rfl
  | cons call rest ih =>
      obtain ⟨name, handler⟩ := call
      exact ih (Atomic.on bus (register name handler)).2

@[simp] theorem CommandBus.after_nil (bus : CommandBus) : bus.after [] = bus := rfl

@[simp] theorem CommandBus.after_singleton (bus : CommandBus) (call : String × AnyHandler)
    : bus.after [call] = (Atomic.on bus (register call.1 call.2)).2 :=
  rfl

/-- The ways one call can end: the name is taken, the kind is unknown, or the handler is in the
map when the sagas are checked.
-/
theorem CommandBus.register_cases (bus : CommandBus) (call : String × AnyHandler)
    : (∃ error, Atomic.on bus (register call.1 call.2) = (.error error, bus))
        ∧ BringsNoNesting bus call
      ∨ ∃ handler,
          call.2 = .known handler
          ∧ (bus.handlers.lookup call.1).isSome = false
          ∧ Atomic.on bus (register call.1 call.2)
            = ((bus.set call.1 handler).validateSagaDispatches, bus.set call.1 handler) := by
  obtain ⟨name, given⟩ := call
  cases taken : (bus.handlers.lookup name).isSome with
  | true =>
      refine Or.inl ⟨⟨_, register_duplicate given taken⟩, ?_⟩
      intro handler _ free
      simp [taken] at free
  | false =>
      cases given with
      | unknown kind =>
          refine Or.inl ⟨⟨_, register_unknown kind taken⟩, ?_⟩
          intro handler known
          cases known
      | known handler => exact Or.inr ⟨handler, rfl, rfl, register_known handler taken⟩

/-- One call keeps the names distinct. -/
theorem CommandBus.distinct_register (distinct : Distinct bus.handlers)
    (call : String × AnyHandler)
    : Distinct (Atomic.on bus (register call.1 call.2)).2.handlers := by
  rcases bus.register_cases call with ⟨⟨_, ended⟩, _⟩ | ⟨handler, _, free, ended⟩
  · rw [ended]
    exact distinct
  · rw [ended]
    exact distinct_set distinct free

/-- All calls keep the names distinct, by induction on them. -/
theorem CommandBus.distinct_after (distinct : Distinct bus.handlers)
    (calls : List (String × AnyHandler))
    : Distinct (bus.after calls).handlers := by
  induction calls generalizing bus with
  | nil => exact distinct
  | cons call rest ih => exact ih (distinct_register distinct call)

/-- A call that brings no nested saga and throws changes nothing. -/
theorem CommandBus.unchanged_of_throw (distinct : Distinct bus.handlers)
    {call : String × AnyHandler} (brings : BringsNoNesting bus call) {error : Thrown}
    (thrown : bus.result call = .error error)
    : (Atomic.on bus (register call.1 call.2)).2 = bus := by
  rcases bus.register_cases call with ⟨⟨_, ended⟩, _⟩ | ⟨handler, known, free, ended⟩
  · rw [ended]
  · rw [result, ended] at thrown
    rcases validateSagaDispatches_ends (distinct_set distinct free) with
      ⟨accepted, _⟩ | ⟨_, nests⟩
    · rw [accepted] at thrown
      cases thrown
    · exact (brings handler known free nests).elim

/-- A call that brings a nested saga throws, and its handler is there. -/
theorem CommandBus.changed_of_nesting (distinct : Distinct bus.handlers)
    {call : String × AnyHandler} (brings : ¬ BringsNoNesting bus call)
    : ∃ error,
        bus.result call = .error error
        ∧ (Atomic.on bus (register call.1 call.2)).2.handlers ≠ bus.handlers := by
  rcases bus.register_cases call with ⟨_, sound⟩ | ⟨handler, known, free, ended⟩
  · exact (brings sound).elim
  · obtain ⟨error, thrown⟩ : ∃ error, bus.result call = .error error := by
      rw [result, ended]
      rcases validateSagaDispatches_ends (distinct_set distinct free) with
        ⟨_, sound⟩ | ⟨⟨outerName, innerName, thrown⟩, _⟩
      · refine (brings ?_).elim
        intro other known' _
        obtain rfl : handler = other := AnyHandler.known.inj (known.symm.trans known')
        exact sound
      · exact ⟨_, thrown⟩
    refine ⟨error, thrown, fun same => ?_⟩
    rw [ended] at same
    have longer := congrArg List.length same
    simp [set] at longer

/-- Calls that bring no nested saga leave a map without one, by induction from their end. -/
theorem CommandBus.sound_after (sound : ¬ Nests bus.handlers)
    {calls : List (String × AnyHandler)}
    (brings : Throughout (fun before call => BringsNoNesting (bus.after before) call) calls)
    : ¬ Nests (bus.after calls).handlers := by
  induction calls using List.reverseRecOn with
  | nil => exact sound
  | append_singleton init last ih =>
      obtain ⟨earlier, final⟩ := (throughout_snoc ..).mp brings
      rw [after_append, after_singleton]
      rcases (bus.after init).register_cases last with
        ⟨⟨_, ended⟩, _⟩ | ⟨handler, known, free, ended⟩
      · rw [ended]
        exact ih earlier
      · rw [ended]
        exact final handler known free

/-- Rejected calls leave the bus as it was exactly where no call brings a nested saga; witness:
the other rejections come before the map is written, that one after.
-/
theorem register_rejectionsHarmless_iff {isTransient : Thrown → Bool}
    {retryPolicy : RetryPolicy} {compensationStore : Bool}
    (created : CommandBus.create isTransient retryPolicy compensationStore = .ok bus)
    (calls : List (String × AnyHandler))
    : RejectionsHarmless bus calls
      ↔ Throughout (fun before call => BringsNoNesting (bus.after before) call) calls := by
  have empty := CommandBus.create_handlers created
  have sound : ¬ Nests bus.handlers := by simp [empty]
  have distinct : Distinct bus.handlers := by simp [Distinct, empty]
  constructor
  · intro harmless before call later split
    by_contra brings
    obtain ⟨error, thrown, changed⟩ :=
      CommandBus.changed_of_nesting (CommandBus.distinct_after distinct before) brings
    apply changed
    have same := harmless.unchanged before call later error split thrown
    rwa [CommandBus.after_append] at same
  · intro brings
    have kept (before call later error) (split : calls = before ++ call :: later)
        (thrown : (bus.after before).result call = .error error)
        : bus.after (before ++ [call]) = bus.after before := by
      rw [CommandBus.after_append]
      exact CommandBus.unchanged_of_throw (CommandBus.distinct_after distinct before)
        (brings split) thrown
    constructor
    · intro before call later error split thrown
      rw [kept before call later error split thrown]
    · intro before later split
      subst split
      exact CommandBus.sound_after sound ((throughout_append ..).mp brings).1
    · intro before call later error split thrown
      rw [kept before call later error split thrown]

/-- Two calls for the same name, and one for a handler without a kind: both rejections are
harmless.
-/
theorem register_rejectionsHarmless_iff_sample
    : RejectionsHarmless emptyBus
        [("A", .known (idleSaga [])), ("A", .known (idleSaga [])),
          ("B", .unknown (.ok "undefined"))] := by
  apply (register_rejectionsHarmless_iff emptyBus_created _).mpr
  simp only [throughout_cons, throughout_nil, and_true]
  refine ⟨?_, ?_, ?_⟩
  · intro handler known _
    cases known
    simp [Nests, emptyBus, idleSaga]
  · intro handler _ free
    cases free
  · intro handler known
    cases known

/-- The inner saga of a pair is rejected and stays: the transactional handler that is registered
next is rejected as well, with the error of the pair.
-/
theorem register_keepsRejected
    : ¬ ∀ (bus : CommandBus) (isTransient : Thrown → Bool) (retryPolicy : RetryPolicy)
          (compensationStore : Bool) (calls : List (String × AnyHandler)),
          CommandBus.create isTransient retryPolicy compensationStore = .ok bus
          → RejectionsHarmless bus calls := by
  intro claimed
  have harmless := claimed emptyBus _ _ _
    [("Outer", .known (idleSaga ["Inner"])), ("Inner", .known (idleSaga []))] emptyBus_created
  have same := harmless.unchanged [("Outer", .known (idleSaga ["Inner"]))] _ [] _ rfl rfl
  exact absurd (congrArg List.length same) (by decide)

end SharedKernel.Cqrs
