import SharedKernel.Cqrs.ExactlyOnce
import SharedKernel.Foundation.Pool
import SharedKernel.Resilience.PrismaTransientError

/-! The counter of transient errors of a service: it shows every retry of every command, of
sagas too, and by code every error that a command gave up on.
-/

namespace SharedKernel.Cqrs

open Foundation Js Resilience

variable {bus : CommandBus} {command : Command} {events : List BusEvent}
  {outcome : Except Thrown Value}

-----------------------------------------------------------------------------------------
-- The executions of a history
-----------------------------------------------------------------------------------------

/-- A command logs its input, before it makes its first attempt. -/
def logsInput : BusOp → Bool
  | .log .debug _ _ => true
  | _ => false

/-- The attempts that a history shows, those of each command apart: what ends between the input
of one command and that of the next. A saga makes none of its own.
-/
def executionsOf (events : List BusEvent) : List (List Attempt) :=
  ((events.splitOnP (fun event => logsInput event.op)).map (fun part =>
    (Ledger.of part).ended)).filter (fun attempts => !attempts.isEmpty)

/-- An operation that opens and ends no transaction, and observes no error. -/
def Unmetered : BusOp → Prop
  | .begin | .commit _ | .rollback _ | .recordObservation _ _ => False
  | _ => True

/-- The executions that a history is made of. -/
inductive Makes (bus : CommandBus) : List (List Attempt) → List BusEvent → Prop
  | nil : Makes bus [] []
  | aside {executions event rest} (aside : Unmetered event.op)
    (later : Makes bus executions rest)
    : Makes bus executions (event :: rest)
  | command {attempts executions input body rest outcome milestones}
    (logged : logsInput input.op = true) (quiet : ∀ event ∈ body, logsInput event.op = false)
    (retries : Retries bus bus.maxRetries attempts outcome)
    (counted : ∀ ledger : Ledger, ledger.after body = ledger.settled attempts milestones)
    (later : Makes bus executions rest)
    : Makes bus (attempts :: executions) (input :: (body ++ rest))

/-- By induction on the first history. -/
theorem Makes.append {first second : List (List Attempt)} {head tail : List BusEvent}
    (makes : Makes bus first head) (more : Makes bus second tail)
    : Makes bus (first ++ second) (head ++ tail) := by
  induction makes with
  | nil => exact more
  | aside aside later ih => exact .aside aside ih
  | command logged quiet retries counted later ih =>
      rw [List.cons_append, List.cons_append, List.append_assoc]
      exact .command logged quiet retries counted ih

/-- Each execution follows the retry law. -/
theorem Makes.lawful {executions : List (List Attempt)} (makes : Makes bus executions events)
    : ∀ attempts ∈ executions, ∃ outcome, Retries bus bus.maxRetries attempts outcome := by
  induction makes with
  | nil => simp
  | aside aside later ih => exact ih
  | command logged quiet retries counted later ih =>
      intro attempts member
      rcases List.mem_cons.mp member with rfl | old
      · exact ⟨_, retries⟩
      · exact ih attempts old

/-- What is done aside ends no attempt, by induction on it. -/
theorem Ledger.ended_aside (aside : ∀ event ∈ events, Unmetered event.op) (ledger : Ledger)
    : (ledger.after events).ended = ledger.ended := by
  induction events generalizing ledger with
  | nil => rfl
  | cons event rest ih =>
      have later := ih (fun event member => aside event (List.mem_cons_of_mem _ member))
        (ledger.step event)
      have here := aside event (List.mem_cons_self ..)
      obtain ⟨op, reply⟩ := event
      cases op with
      | begin | commit | rollback | recordObservation => exact here.elim
      | statement | afterCommit | random | sleep | undo | recordFailed | log => exact later

/-- Split at its inputs, a history shows its executions: what stands before the first input is
done aside.
-/
theorem Makes.split {executions : List (List Attempt)} (makes : Makes bus executions events)
    : ∃ first parts,
        events.splitOnP (fun event => logsInput event.op) = first :: parts
        ∧ (∀ event ∈ first, Unmetered event.op)
        ∧ (parts.map (fun part => (Ledger.of part).ended)).filter
              (fun attempts => !attempts.isEmpty)
            = executions := by
  induction makes with
  | nil => exact ⟨[], [], rfl, by simp, rfl⟩
  | @aside executions event rest aside later ih =>
      obtain ⟨first, parts, cut, quiet, shown⟩ := ih
      rw [List.splitOnP_cons_eq_if_modifyHead, cut]
      cases input : logsInput event.op with
      | true =>
          refine ⟨[], first :: parts, by simp, by simp, ?_⟩
          have none : (Ledger.of first).ended = [] := Ledger.ended_aside quiet _
          simpa [none] using shown
      | false =>
          exact ⟨event :: first, parts, by simp, List.forall_mem_cons.mpr ⟨aside, quiet⟩, shown⟩
  | @command attempts executions input body rest outcome milestones logged quiet retries counted
      later ih =>
      obtain ⟨first, parts, cut, between, shown⟩ := ih
      refine ⟨[], (body ++ first) :: parts, ?_, by simp, ?_⟩
      · have joined : (body ++ rest).splitOnP (fun event => logsInput event.op)
            = (body ++ first) :: parts := by
          clear counted
          induction body with
          | nil => exact cut
          | cons event body ih =>
              rw [List.cons_append, List.splitOnP_cons_eq_if_modifyHead,
                ih (fun later member => quiet later (List.mem_cons_of_mem _ member)),
                quiet event (List.mem_cons_self ..)]
              rfl
        rw [List.splitOnP_cons_eq_if_modifyHead, logged, joined]
        rfl
      · have ended : (Ledger.of (body ++ first)).ended = attempts := by
          rw [Ledger.of, Ledger.after_append, Ledger.ended_aside between, counted]
          rfl
        have some : attempts.isEmpty = false := by simpa using retries.ne_nil
        simp [ended, some, shown]

/-- So the executions of a history are those that it is made of. -/
theorem Makes.executions {executions : List (List Attempt)} (makes : Makes bus executions events)
    : executionsOf events = executions := by
  obtain ⟨first, parts, cut, quiet, shown⟩ := makes.split
  have none : (Ledger.of first).ended = [] := Ledger.ended_aside quiet _
  rw [executionsOf, cut, List.map_cons, none]
  exact shown

-----------------------------------------------------------------------------------------
-- What commands and sagas make
-----------------------------------------------------------------------------------------

variable {helpers : PrismaTransientErrorHelpers}

/-- The observation is counted under the labels. -/
def countedAs (helpers : PrismaTransientErrorHelpers) (code : String) (retried : Bool)
    (observation : Thrown × Bool)
    : Bool :=
  helpers.label? observation.1 = some code && observation.2 = retried

/-- Whether a call opens a transaction. -/
def opens (event : BusEvent) : Nat :=
  match event.op with
  | .begin => 1
  | _ => 0

/-- Whether a call is an observation that is counted under the labels. -/
def observes (helpers : PrismaTransientErrorHelpers) (code : String) (retried : Bool)
    (event : BusEvent)
    : Nat :=
  match event.op with
  | .recordObservation error again =>
      if countedAs helpers code retried (error, again) then 1 else 0
  | _ => 0

/-- An observation is counted; the other calls of a bus are answered in any way. -/
def Counts (helpers : PrismaTransientErrorHelpers) (counter : DbTransientErrorCounter)
    (event : BusEvent) (later : DbTransientErrorCounter)
    : Prop :=
  later
  = match event.op with
    | .recordObservation error retried => helpers.recordObservation counter error retried
    | _ => counter

variable {labels : List (PoolLabel BusEffects Command)}
  {pool : Pool BusEffects Thrown Value Command DbTransientErrorCounter}

/-- An answered call changes a count as it is observed. -/
theorem Counts.counted {counter later : DbTransientErrorCounter} {event : BusEvent}
    (counts : Counts helpers counter event later) (code : String) (retried : Bool)
    : later code (boolText retried)
      = counter code (boolText retried) + observes helpers code retried event := by
  obtain ⟨op, reply⟩ := event
  rw [counts]
  cases op with
  | recordObservation error again =>
      simp [helpers.recordObservation_apply, observes, countedAs]
  | begin | statement | commit | rollback | afterCommit | random | sleep | undo | recordFailed
    | log => rfl

end SharedKernel.Cqrs
