import SharedKernel.Foundation.Forest
import SharedKernel.Foundation.Program
import SharedKernel.Foundation.Transition
import SharedKernel.Js.Thrown

/-! The transaction runner, and the asynchronous work that calls it. The guard against nesting
asks for the value that AsyncLocalStorage carries in the calling context; everything that is
started in a context inherits it.
-/

namespace SharedKernel.Database

open Foundation Js

/-- What a runner calls: the ambient transaction, the logger, and the transaction itself. -/
inductive RunnerOp where
  | getTx
  | debug (message : String)
  | beginTransaction

/-- A client, nothing, or how the promise of the transaction has settled. -/
abbrev RunnerOp.Reply (DB R : Type) : RunnerOp → Type
  | .getTx => Option DB
  | .debug _ => Unit
  | .beginTransaction => Except Thrown R

/-- The effects of a runner whose clients are `DB` and whose work returns `R`. -/
abbrev RunnerEffects (DB R : Type) : Signature where
  Op := RunnerOp
  Reply := RunnerOp.Reply DB R

abbrev RunnerProgram (DB R α : Type) := Program (RunnerEffects DB R) Thrown α
abbrev RunnerEvent (DB R : Type) := Event (RunnerEffects DB R)

variable {DB R : Type}

/-- Make one call. -/
def call (op : RunnerOp) : RunnerProgram DB R (op.Reply DB R) :=
  Program.perform (F := RunnerEffects DB R) op

def NestedTransactionError : Thrown :=
  .error .nestedTransaction
    ("Cannot open a new transaction: one is already active on this async context. "
      ++ "Compose inside a transaction with plain functions taking the repos, or move the "
      ++ "orchestration to a saga handler (which dispatches without holding a transaction).")

/-- Open a transaction around the work, unless one is ambient. -/
def AbstractTxRunner.run : RunnerProgram DB R R := do
  let tx ← call .getTx
  if tx.isSome then throw NestedTransactionError
  else
    let _ ← call (.debug "Starting transaction")
    tryCatch
      (do
        let result ← Program.settle (← call .beginTransaction)
        let _ ← call (.debug "Transaction committed")
        return result)
      (fun error => do
        let _ ← call (.debug "Transaction rolled back")
        throw error)

/-- Run on synchronously, in a context that carries `store`, to the next promise. -/
def turn (store : Option DB)
    : RunnerProgram DB R R → List (RunnerEvent DB R) × RunnerProgram DB R R
  | .await .getTx resume =>
      let (events, rest) := turn store (resume store)
      (⟨.getTx, store⟩ :: events, rest)
  | .await (.debug message) resume =>
      let (events, rest) := turn store (resume ())
      (⟨.debug message, ()⟩ :: events, rest)
  | program => ([], program)

/-- What `run` does once the promise of the transaction has settled. -/
def conclude (outcome : Except Thrown R) : RunnerProgram DB R R :=
  tryCatch
    (do
      let result ← Program.settle outcome
      let _ ← call (.debug "Transaction committed")
      return result)
    (fun error => do
      let _ ← call (.debug "Transaction rolled back")
      throw error)

/-- A call of `run` throws in its first turn where a transaction is ambient, and otherwise
begins one.
-/
theorem turn_run (store : Option DB)
    : turn store (AbstractTxRunner.run (R := R))
      = if store.isSome then ([⟨.getTx, store⟩], .fail NestedTransactionError)
        else
          ([⟨.getTx, none⟩, ⟨.debug "Starting transaction", ()⟩],
            .await .beginTransaction conclude) := by
  cases store with
  | none => rfl
  | some client => rfl

/-- Its last turn logs, and settles as the transaction has. -/
theorem turn_conclude (store : Option DB) (outcome : Except Thrown R)
    : (turn store (conclude outcome)).2 = .settle outcome := by
  cases outcome with
  | ok result => rfl
  | error error => rfl

-----------------------------------------------------------------------------------------
-- Asynchronous contexts and the runs made in them
-----------------------------------------------------------------------------------------

inductive TxStatus where
  | active
  | committed
  | rolledBack
deriving DecidableEq

/-- A transaction that `beginTransaction` has opened: the client it hands over, the context
in which the client is used, and whether it is still open.
-/
structure Transaction (DB : Type) where
  client : DB
  callback : Nat
  status : TxStatus

/-- A call of `run`: the context it was made in, its calls so far, and its transaction. -/
structure TxRun (DB R : Type) where
  context : Nat
  history : List (RunnerEvent DB R)
  rest : RunnerProgram DB R R
  transaction : Option (Transaction DB)

/-- The asynchronous contexts, each with its ambient transaction, and the calls of `run`. -/
structure TxSystem (DB R : Type) where
  contexts : Forest (Option DB)
  runs : List (TxRun DB R)

/-- Before the first request. -/
def TxSystem.start : TxSystem DB R :=
  { contexts := [], runs := [] }

/-- A call of `run`, after its first turn. -/
def TxRun.start (context : Nat) (store : Option DB) : TxRun DB R where
  context
  history := (turn store AbstractTxRunner.run).1
  rest := (turn store AbstractTxRunner.run).2
  transaction := none

/-- The context in which the work of a run is called: it carries the client, and so does
everything that is started there.
-/
def runInsideTransaction (context : Nat) (client : DB) : Node (Option DB) where
  parent := some context
  value := some client

/-- A request comes in, a context starts another, a context calls `run`, a transaction is
opened and its client handed over, it is committed or rolled back, and its promise settles.
-/
inductive TxLabel (DB R : Type) where
  | request
  | spawn (context : Nat)
  | run (context : Nat)
  | handOver (index : Nat) (client : DB)
  | finish (index : Nat) (status : TxStatus)
  | settle (index : Nat) (outcome : Except Thrown R)

/-- The steps of the asynchronous work, in any order. What `beginTransaction` is relied on is
that it hands over a client, once, and settles after the transaction has ended.
-/
inductive TxStep : TxSystem DB R → TxLabel DB R → TxSystem DB R → Prop
  | request {system}
    : TxStep system .request
        { system with contexts := system.contexts ++ [{ parent := none, value := none }] }
  | spawn {system context node} (found : system.contexts[context]? = some node)
    : TxStep system (.spawn context)
        {
          system with
          contexts := system.contexts ++ [{ parent := some context, value := node.value }]
        }
  | run {system context node} (found : system.contexts[context]? = some node)
    : TxStep system (.run context)
        { system with runs := system.runs ++ [.start context node.value] }
  | handOver {system index run resume} (client : DB)
    (found : system.runs[index]? = some run)
    (waiting : run.rest = .await .beginTransaction resume) (unopened : run.transaction = none)
    : TxStep system (.handOver index client)
        {
          contexts := system.contexts ++ [runInsideTransaction run.context client]
          runs :=
            system.runs.set index
              {
                run with
                transaction :=
                  some { client, callback := system.contexts.length, status := .active }
              }
        }
  | finish {system index run tx} (status : TxStatus)
    (found : system.runs[index]? = some run) (opened : run.transaction = some tx)
    (active : tx.status = .active) (ended : status ≠ .active)
    : TxStep system (.finish index status)
        {
          system with
          runs := system.runs.set index { run with transaction := some { tx with status } }
        }
  | settle {system index run node resume tx} (outcome : Except Thrown R)
    (found : system.runs[index]? = some run)
    (inContext : system.contexts[run.context]? = some node)
    (waiting : run.rest = .await .beginTransaction resume)
    (opened : run.transaction = some tx) (ended : tx.status ≠ .active)
    : TxStep system (.settle index outcome)
        {
          system with
          runs :=
            system.runs.set index
              {
                run with
                history :=
                  run.history
                    ++ ⟨.beginTransaction, outcome⟩ :: (turn node.value (resume outcome)).1
                rest := (turn node.value (resume outcome)).2
              }
        }

/-- The context lies in the asynchronous extent of a run whose transaction has such a status.
-/
def TxSystem.Enclosed (system : TxSystem DB R) (which : TxStatus → Prop) (context : Nat)
    : Prop :=
  ∃ (index : Nat) (run : TxRun DB R) (tx : Transaction DB),
    system.runs[index]? = some run
    ∧ run.transaction = some tx
    ∧ which tx.status
    ∧ system.contexts.Below tx.callback context

/-- What lies in an extent still does where less is asked of the status. -/
theorem TxSystem.Enclosed.mono {system : TxSystem DB R} {which other : TxStatus → Prop}
    {context : Nat} (enclosed : system.Enclosed which context)
    (weaker : ∀ status, which status → other status)
    : system.Enclosed other context := by
  obtain ⟨index, run, tx, found, opened, is, below⟩ := enclosed
  exact ⟨index, run, tx, found, opened, weaker _ is, below⟩

/-- How often a run has called `beginTransaction`. -/
def TxRun.begun (run : TxRun DB R) : Nat :=
  run.history.countP (fun event => event.op matches .beginTransaction)
    + match run.rest with
      | .await .beginTransaction _ => 1
      | _ => 0

/-- The run was refused, without calling `beginTransaction`. -/
def TxRun.Refused (run : TxRun DB R) : Prop :=
  run.rest = .fail NestedTransactionError ∧ run.begun = 0

end SharedKernel.Database
