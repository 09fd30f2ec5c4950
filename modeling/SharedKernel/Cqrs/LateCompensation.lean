import SharedKernel.Cqrs.Saga
import SharedKernel.Foundation.Transition

/-! Sagas whose handler runs branches concurrently: a branch may register its undo after the
handler has rejected, and even after the bus has taken its snapshot of the stack.
-/

namespace SharedKernel.Cqrs

open Foundation Js

variable {bus : CommandBus} {command : Command}

-----------------------------------------------------------------------------------------
-- The saga as a transition system
-----------------------------------------------------------------------------------------

/-- How far the bus has got with a saga; `rejecting` lasts from the handler's rejection to
the snapshot of the stack, `compensating` holds the rest of the compensation loop.
-/
inductive SagaPhase where
  | running
  | rejecting (error : Thrown)
  | compensating (error : Thrown) (rest : BusProgram Unit)
  | settled (outcome : Except Thrown Value)

/-- A saga under way: the dispatches in flight, the array of compensations, the phase. -/
structure SagaState where
  inFlight : List (BusProgram Value)
  compensations : List CommandBus.Compensation
  phase : SagaPhase

/-- A saga whose handler has just been called. -/
def SagaState.start : SagaState :=
  { inFlight := [], compensations := [], phase := .running }

/-- What happens next in a saga: its branches dispatch, get replies and register undos; its
handler settles; the bus takes the snapshot, calls undos and settles the dispatch.
-/
inductive SagaLabel where
  | dispatch (inner : Command)
  | progress (branch : Nat) (event : BusEvent)
  | register (compensation : CommandBus.Compensation)
  | resolve (result : Value)
  | reject (error : Thrown)
  | snapshot
  | call (event : BusEvent)
  | settle

/-- The steps of a saga. Its branches take theirs in any phase, in any order: the handler is
ordinary code that the bus cannot see into.
-/
inductive SagaStep (bus : CommandBus) (command : Command)
    : SagaState → SagaLabel → SagaState → Prop
  | dispatch {state} (inner : Command)
    : SagaStep bus command state (.dispatch inner)
        { state with inFlight := state.inFlight ++ [bus.dispatch command inner] }
  | progress {state branch op resume} (reply : BusOp.Reply op)
    (waiting : state.inFlight[branch]? = some (.await op resume))
    : SagaStep bus command state (.progress branch ⟨op, reply⟩)
        { state with inFlight := state.inFlight.set branch (resume reply) }
  | register {state} (compensation : CommandBus.Compensation)
    : SagaStep bus command state (.register compensation)
        { state with compensations := state.compensations ++ [compensation] }
  | resolve {state} (result : Value) (running : state.phase = .running)
    : SagaStep bus command state (.resolve result)
        { state with phase := .settled (.ok result) }
  | reject {state} (error : Thrown) (running : state.phase = .running)
    : SagaStep bus command state (.reject error) { state with phase := .rejecting error }
  | snapshot {state error} (rejecting : state.phase = .rejecting error)
    : SagaStep bus command state .snapshot
        {
          state with
          phase := .compensating error (bus.compensate command state.compensations.reverse)
        }
  | call {state error op resume} (reply : BusOp.Reply op)
    (waiting : state.phase = .compensating error (.await op resume))
    : SagaStep bus command state (.call ⟨op, reply⟩)
        { state with phase := .compensating error (resume reply) }
  | finish {state error} (done : state.phase = .compensating error (.done ()))
    : SagaStep bus command state .settle { state with phase := .settled (.error error) }
  | escape {state error thrown} (failed : state.phase = .compensating error (.fail thrown))
    : SagaStep bus command state .settle { state with phase := .settled (.error thrown) }

-----------------------------------------------------------------------------------------
-- What a saga owes its steps
-----------------------------------------------------------------------------------------

/-- Every compensation registered so far. -/
def registered (labels : List SagaLabel) : List CommandBus.Compensation :=
  labels.filterMap fun
    | .register compensation => some compensation
    | _ => none

/-- The calls the compensation loop has made so far. -/
def loopCalls (labels : List SagaLabel) : List BusEvent :=
  labels.filterMap fun
    | .call event => some event
    | _ => none

/-- The undo closures that were called, in order. -/
def undoneClosures (events : List BusEvent) : List Nat :=
  events.filterMap fun
    | ⟨.undo closure, _⟩ => some closure
    | _ => none

/-- Every undo that threw was then durably recorded as a registered step with its error. -/
def FailuresRecorded (command : Command) (steps : List CommandBus.Compensation)
    : List BusEvent → Prop
  | [] => True
  | ⟨.undo closure, .error err⟩ :: later =>
      (∃ action,
        { action, undo := closure } ∈ steps
        ∧ ⟨.recordFailed command.name action err, .ok ()⟩ ∈ later)
      ∧ FailuresRecorded command steps later
  | _ :: later => FailuresRecorded command steps later

/-- Every registered undo was executed exactly once, and recorded if it threw. -/
structure AllCompensated (command : Command) (labels : List SagaLabel) : Prop where
  executed
    : (undoneClosures (loopCalls labels)).Perm
        ((registered labels).map CommandBus.Compensation.undo)
  recorded : FailuresRecorded command (registered labels) (loopCalls labels)

/-- A registration comes before the snapshot. -/
def OnTime (before : List SagaLabel) (label : SagaLabel) : Prop :=
  (∃ compensation, label = .register compensation) → .snapshot ∉ before

/-- An undo threw and nothing durable can remember it: no store is wired, or the store
rejected.
-/
def unstored (bus : CommandBus) : BusEvent → Bool
  | ⟨.undo _, .error _⟩ => !bus.compensationStore
  | ⟨.recordFailed _ _ _, .error _⟩ => true
  | _ => false

/-- Nothing is registered after the snapshot, and every undo that throws finds a store that
records it.
-/
structure Orderly (bus : CommandBus) (labels : List SagaLabel) : Prop where
  onTime : Throughout OnTime labels
  stored : ∀ event ∈ loopCalls labels, unstored bus event = false

-----------------------------------------------------------------------------------------
-- What the compensation loop does with its stack
-----------------------------------------------------------------------------------------

variable {stack steps : List CommandBus.Compensation} {events : List BusEvent}
  {outcome : Except Thrown Unit}

/-- The loop never calls more closures than its stack holds. -/
theorem Undoing.length_le (undoing : Undoing bus command stack events outcome)
    : (undoneClosures events).length ≤ stack.length := by
  induction undoing with
  | nil => simp [undoneClosures]
  | undone later ih | dropped _ later ih | recorded _ later ih => simpa [undoneClosures] using ih
  | unrecorded _ => simp [undoneClosures]

/-- Where every failure can be stored, the loop calls the whole stack in its order and
records every failure.
-/
theorem Undoing.executed (undoing : Undoing bus command stack events outcome)
    (within : ∀ step ∈ stack, step ∈ steps)
    (stored : ∀ event ∈ events, unstored bus event = false)
    : undoneClosures events = stack.map CommandBus.Compensation.undo
      ∧ FailuresRecorded command steps events := by
  induction undoing with
  | nil => exact ⟨rfl, trivial⟩
  | @undone step rest events outcome later ih =>
      obtain ⟨executed, recorded⟩ :=
        ih (fun step member => within step (by simp [member]))
          (fun event member => stored event (by simp [member]))
      exact ⟨by simpa [undoneClosures] using executed, recorded⟩
  | dropped unwired later ih => simp [unstored, unwired] at stored
  | @recorded step rest err message events outcome wired later ih =>
      obtain ⟨executed, recorded⟩ :=
        ih (fun step member => within step (by simp [member]))
          (fun event member => stored event (by simp [member]))
      refine ⟨by simpa [undoneClosures] using executed, ?_, recorded⟩
      exact ⟨step.action, within step (by simp), by simp⟩
  | unrecorded wired => simp [unstored] at stored

/-- Without a store nothing is recorded. -/
theorem Undoing.unwired (undoing : Undoing bus command stack events outcome)
    (unwired : bus.compensationStore = false) {name : String} {action : CompensationAction}
    {err : Thrown} {reply : Except Thrown Unit}
    : ⟨.recordFailed name action err, reply⟩ ∉ events := by
  induction undoing with
  | nil => simp
  | undone later ih => simpa using ih
  | dropped _ later ih => simpa using ih
  | recorded wired _ _ | unrecorded wired => simp [unwired] at wired

/-- Where every failure was recorded, every failure could be stored. -/
theorem Undoing.stored (undoing : Undoing bus command stack events outcome)
    (recorded : FailuresRecorded command steps events)
    : ∀ event ∈ events, unstored bus event = false := by
  induction undoing with
  | nil => simp
  | undone later ih => simpa [unstored] using ih recorded
  | dropped unwired later ih =>
      obtain ⟨⟨action, _, stored⟩, _⟩ := recorded
      simp only [List.mem_cons, Event.mk.injEq, reduceCtorEq, false_and, false_or] at stored
      exact absurd stored (later.unwired unwired)
  | recorded wired later ih => simpa [unstored, wired] using ih recorded.2
  | unrecorded wired =>
      obtain ⟨⟨action, _, stored⟩, _⟩ := recorded
      simp at stored

-----------------------------------------------------------------------------------------
-- Runs of a saga
-----------------------------------------------------------------------------------------

/-- The snapshot has been taken, and the loop over it has come to `rest`; the registrations
that are not in the snapshot are the late ones.
-/
def Snapshotted (bus : CommandBus) (command : Command) (labels : List SagaLabel)
    (rest : BusProgram Unit)
    : Prop :=
  .snapshot ∈ labels
  ∧ ∃ taken late,
      registered labels = taken ++ late
      ∧ (late = [] ↔ Throughout OnTime labels)
      ∧ Run (bus.compensate command taken.reverse) (loopCalls labels) rest

/-- What the phase of a saga says about the labels so far. -/
def PhaseInv (bus : CommandBus) (command : Command) (labels : List SagaLabel)
    : SagaPhase → Prop
  | .running | .rejecting _ => .snapshot ∉ labels ∧ loopCalls labels = []
  | .compensating _ rest => Snapshotted bus command labels rest
  | .settled (.ok _) => True
  | .settled (.error _) =>
      ∃ ended : Except Thrown Unit, Snapshotted bus command labels (.settle ended)

/-- The array holds every registration, and the phase fits the labels. -/
structure SagaInv (bus : CommandBus) (command : Command) (labels : List SagaLabel)
    (state : SagaState)
    : Prop where
  array : state.compensations = registered labels
  phase : PhaseInv bus command labels state.phase

/-- A label that registers, snapshots and calls nothing. -/
def SagaLabel.silent : SagaLabel → Bool
  | .register _ | .snapshot | .call _ => false
  | _ => true

/-- A silent label changes none of the readings of a run. -/
theorem silent_readings (labels : List SagaLabel) {label : SagaLabel}
    (silent : label.silent = true)
    : registered (labels ++ [label]) = registered labels
      ∧ loopCalls (labels ++ [label]) = loopCalls labels
      ∧ (Throughout OnTime (labels ++ [label]) ↔ Throughout OnTime labels)
      ∧ (.snapshot ∈ labels ++ [label] ↔ .snapshot ∈ labels) := by
  rw [throughout_snoc]
  cases label <;> simp_all [SagaLabel.silent, registered, loopCalls, OnTime]

/-- Silent labels keep the snapshot. -/
theorem Snapshotted.silent {labels : List SagaLabel} {label : SagaLabel}
    {rest : BusProgram Unit} (snapshotted : Snapshotted bus command labels rest)
    (silent : label.silent = true)
    : Snapshotted bus command (labels ++ [label]) rest := by
  obtain ⟨sameArray, sameCalls, sameTime, sameSnapshot⟩ := silent_readings labels silent
  obtain ⟨member, taken, late, split, onTime, run⟩ := snapshotted
  exact ⟨sameSnapshot.mpr member, taken, late, by rw [sameArray, split],
    by rw [sameTime, onTime], by rw [sameCalls]; exact run⟩

/-- Silent labels keep what a phase says. -/
theorem PhaseInv.silent {labels : List SagaLabel} {label : SagaLabel} {phase : SagaPhase}
    (inv : PhaseInv bus command labels phase) (silent : label.silent = true)
    : PhaseInv bus command (labels ++ [label]) phase := by
  obtain ⟨_, sameCalls, _, sameSnapshot⟩ := silent_readings labels silent
  cases phase with
  | running | rejecting error =>
      exact ⟨by rw [sameSnapshot]; exact inv.1, by rw [sameCalls]; exact inv.2⟩
  | compensating error rest => exact Snapshotted.silent inv silent
  | settled outcome =>
      cases outcome with
      | ok result => trivial
      | error error =>
          obtain ⟨ended, snapshotted⟩ := inv
          exact ⟨ended, snapshotted.silent silent⟩

/-- A registration after the snapshot is late. -/
theorem Snapshotted.register {labels : List SagaLabel} {rest : BusProgram Unit}
    (snapshotted : Snapshotted bus command labels rest)
    (compensation : CommandBus.Compensation)
    : Snapshotted bus command (labels ++ [.register compensation]) rest := by
  obtain ⟨member, taken, late, split, _, run⟩ := snapshotted
  refine ⟨List.mem_append_left _ member, taken, late ++ [compensation], ?_, ?_, ?_⟩
  · rw [← List.append_assoc, ← split]
    simp [registered]
  · have tooLate : ¬ OnTime labels (.register compensation) := fun onTime =>
      onTime ⟨compensation, rfl⟩ member
    simp [throughout_snoc, tooLate]
  · simpa [loopCalls] using run

/-- A registration keeps what a phase says. -/
theorem PhaseInv.register {labels : List SagaLabel} {phase : SagaPhase}
    (inv : PhaseInv bus command labels phase) (compensation : CommandBus.Compensation)
    : PhaseInv bus command (labels ++ [.register compensation]) phase := by
  cases phase with
  | running | rejecting error =>
      obtain ⟨absent, uncalled⟩ := inv
      exact ⟨by simpa using absent, by simpa [loopCalls] using uncalled⟩
  | compensating error rest => exact Snapshotted.register inv compensation
  | settled outcome =>
      cases outcome with
      | ok result => trivial
      | error error =>
          obtain ⟨ended, snapshotted⟩ := inv
          exact ⟨ended, snapshotted.register compensation⟩

/-- Before the snapshot every registration is on time. -/
theorem throughout_onTime {labels : List SagaLabel} (absent : .snapshot ∉ labels)
    : Throughout OnTime labels := by
  intro before label after split _ member
  exact absent (by rw [split]; exact List.mem_append_left _ member)

/-- Every step of a saga keeps the invariant, by the label of the step. -/
theorem SagaInv.step {labels : List SagaLabel} {state next : SagaState} {label : SagaLabel}
    (inv : SagaInv bus command labels state)
    (taken : SagaStep bus command state label next)
    : SagaInv bus command (labels ++ [label]) next := by
  obtain ⟨array, phase⟩ := inv
  cases taken with
  | dispatch inner =>
      exact ⟨by rw [(silent_readings _ rfl).1]; exact array, phase.silent rfl⟩
  | progress reply waiting =>
      exact ⟨by rw [(silent_readings _ rfl).1]; exact array, phase.silent rfl⟩
  | register compensation =>
      exact ⟨by simp [registered, array], phase.register compensation⟩
  | resolve result running =>
      exact ⟨by rw [(silent_readings _ rfl).1]; exact array, trivial⟩
  | reject error running =>
      rw [running] at phase
      refine ⟨by rw [(silent_readings _ rfl).1]; exact array, ?_⟩
      exact PhaseInv.silent phase rfl
  | snapshot rejecting =>
      rw [rejecting] at phase
      obtain ⟨absent, uncalled⟩ := phase
      have onTime : Throughout OnTime (labels ++ [.snapshot]) :=
        (throughout_snoc ..).mpr ⟨throughout_onTime absent, by simp [OnTime]⟩
      refine ⟨by simp [registered, array], by simp, registered labels, [], ?_, ?_, ?_⟩
      · simp [registered]
      · simpa using onTime
      · have same : loopCalls (labels ++ [.snapshot]) = [] := by
          simpa [loopCalls] using uncalled
        rw [same, array]
        exact .refl _
  | call reply waiting =>
      rw [waiting] at phase
      obtain ⟨member, taken, late, split, onTime, run⟩ := phase
      refine ⟨by simp [registered, array], List.mem_append_left _ member, taken, late,
        by simpa [registered] using split, ?_, by simpa [loopCalls] using run.snoc reply⟩
      rw [onTime, throughout_snoc]
      simp [OnTime]
  | finish done =>
      rw [done] at phase
      exact ⟨by rw [(silent_readings _ rfl).1]; exact array, .ok (), Snapshotted.silent phase rfl⟩
  | @escape _ thrown failed =>
      rw [failed] at phase
      exact ⟨by rw [(silent_readings _ rfl).1]; exact array, .error thrown,
        Snapshotted.silent phase rfl⟩

/-- In every run of a saga whose dispatch has rejected, every registered undo was executed
exactly once and recorded if it threw, exactly when nothing was registered after the
snapshot and every failure could be stored; witness: the invariant, and then the ways the
snapshot is undone.
-/
theorem saga_allCompensated_iff {labels : List SagaLabel} {state : SagaState}
    {error : Thrown}
    (run : Execution (SagaStep bus command) .start labels state)
    (rejected : state.phase = .settled (.error error))
    : AllCompensated command labels ↔ Orderly bus labels := by
  have initially : SagaInv bus command [] .start := ⟨rfl, by simp, rfl⟩
  have inv := run.invariant initially (fun _ _ _ _ inv taken => inv.step taken)
  have phase := inv.phase
  rw [rejected] at phase
  obtain ⟨ended, _, taken, late, split, onTime, ran⟩ := phase
  have undoing := compensate_runs ran
  constructor
  · intro compensated
    have counted := compensated.executed.length_eq
    have bounded := undoing.length_le
    simp only [split, List.length_map, List.length_append, List.length_reverse]
      at counted bounded
    have none : late = [] := List.length_eq_zero_iff.mp (by omega)
    exact ⟨onTime.mp none, undoing.stored compensated.recorded⟩
  · intro orderly
    obtain rfl : late = [] := onTime.mpr orderly.onTime
    rw [List.append_nil] at split
    obtain ⟨executed, recorded⟩ :=
      undoing.executed (fun step member => by simpa [split] using member) orderly.stored
    refine ⟨?_, by rw [split]; exact recorded⟩
    rw [executed, split]
    exact (List.reverse_perm taken).map _

/-- A bus whose one command registers a user. -/
def branchBus : CommandBus :=
  {
    handlers :=
      [("RegisterUser",
        .transactional { execute := fun _ => .done none, afterCommit := false })]
    isTransient := fun _ => false
    maxRetries := 3
    baseDelayMs := .ofNat 100
    maxDelayMs := .ofNat 2000
    compensationStore := true
  }

/-- A saga dispatches two commands at once and rejects when the second has no handler; the
first commits afterwards and registers its undo, which is never executed.
-/
theorem saga_not_allCompensated
    : let outer : Command := ⟨"ProvisionOrg", .null⟩
      let user : Command := ⟨"RegisterUser", .null⟩
      let org : Command := ⟨"CreateOrg", .null⟩
      let labels : List SagaLabel :=
        [.dispatch user, .dispatch org, .reject (CommandBus.notFound org), .snapshot, .settle,
          .progress 0 ⟨.log .info "Executing RegisterUser..." none, ()⟩,
          .progress 0 ⟨.log .debug "Input for RegisterUser" none, ()⟩,
          .progress 0 ⟨.begin, .ok ()⟩, .progress 0 ⟨.commit none, .ok ()⟩,
          .progress 0 ⟨.log .info "Successfully executed RegisterUser" none, ()⟩,
          .register { action := sampleAction "remove-user", undo := 1 }]
      ∃ state,
        Execution (SagaStep branchBus outer) .start labels state
        ∧ state.phase = .settled (.error (CommandBus.notFound org))
        ∧ ¬ AllCompensated outer labels := by
  refine ⟨_, .cons (.dispatch _) (.cons (.dispatch _) (.cons (.reject _ rfl)
    (.cons (.snapshot rfl) (.cons (.finish rfl) (.cons (.progress _ rfl)
    (.cons (.progress _ rfl) (.cons (.progress _ rfl) (.cons (.progress _ rfl)
    (.cons (.progress _ rfl) (.cons (.register _) .start)))))))))), rfl, ?_⟩
  intro compensated
  have counted := compensated.executed.length_eq
  simp [loopCalls, undoneClosures, registered] at counted

/-- A saga dispatches two commands at once and rejects when the second has no handler; the
first has committed by then and registers its undo before the snapshot. The undo throws, and
that is recorded.
-/
theorem saga_allCompensated_iff_inTime
    : let outer : Command := ⟨"ProvisionOrg", .null⟩
      let user : Command := ⟨"RegisterUser", .null⟩
      let org : Command := ⟨"CreateOrg", .null⟩
      let unreachable : Thrown := .error .error "auth-service unreachable"
      AllCompensated outer
        [.dispatch user, .dispatch org,
          .progress 0 ⟨.log .info "Executing RegisterUser..." none, ()⟩,
          .progress 0 ⟨.log .debug "Input for RegisterUser" none, ()⟩,
          .progress 0 ⟨.begin, .ok ()⟩, .progress 0 ⟨.commit none, .ok ()⟩,
          .progress 0 ⟨.log .info "Successfully executed RegisterUser" none, ()⟩,
          .reject (CommandBus.notFound org),
          .register { action := sampleAction "remove-user", undo := 1 }, .snapshot,
          .call ⟨.undo 1, .error unreachable⟩,
          .call
            ⟨.log .error
              "Compensation step failed for ProvisionOrg — manual cleanup may be needed"
              (some unreachable), ()⟩,
          .call ⟨.recordFailed "ProvisionOrg" (sampleAction "remove-user") unreachable, .ok ()⟩,
          .settle] := by
  intro outer user org unreachable
  refine
    (@saga_allCompensated_iff branchBus outer _ _ _
      (.cons (.dispatch _) (.cons (.dispatch _) (.cons (.progress _ rfl)
        (.cons (.progress _ rfl) (.cons (.progress _ rfl) (.cons (.progress _ rfl)
        (.cons (.progress _ rfl) (.cons (.reject _ rfl) (.cons (.register _)
        (.cons (.snapshot rfl) (.cons (.call _ rfl) (.cons (.call _ rfl) (.cons (.call _ rfl)
        (.cons (.finish rfl) .start)))))))))))))) rfl).mpr ⟨?_, ?_⟩
  · simp [OnTime]
  · simp [loopCalls, unstored, branchBus]

end SharedKernel.Cqrs
