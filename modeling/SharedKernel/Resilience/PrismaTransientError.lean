import SharedKernel.Js.Thrown

/-! Which errors are transient, and which are counted. -/

namespace SharedKernel.Resilience

open Js

/-- A property of a thrown object, as far as it is told apart: a string, `true`, or any other
value.
-/
inductive PropertyValue where
  | text (value : String)
  | yes
  | other
deriving DecidableEq

/-- The properties that are read of a thrown object. -/
structure ErrorObject where
  code : PropertyValue
  clientVersion : PropertyValue
  transient : PropertyValue
deriving DecidableEq

/-- The `code` of the error classes of this code; those of the runtime have none. -/
def errorCode : ErrorClass → PropertyValue
  | .error | .typeError | .rangeError | .syntaxError => .other
  | .commandHandlerNotFound => .text "COMMAND_HANDLER_NOT_FOUND"
  | .duplicateCommandHandler => .text "DUPLICATE_COMMAND_HANDLER"
  | .unknownHandlerKind => .text "UNKNOWN_HANDLER_KIND"
  | .nestedSagaDispatch => .text "NESTED_SAGA_DISPATCH"
  | .unreachable => .text "UNREACHABLE"
  | .nestedTransaction => .text "NESTED_TRANSACTION"

/-- A `PrismaClientKnownRequestError` by its shape, with its code. -/
def isPrismaKnownRequestError : Option ErrorObject → Option String
  | some ⟨.text code, .text _, _⟩ => some code
  | _ => none

/-- An error that is marked as safe to retry. -/
def isMarkedTransient : Option ErrorObject → Bool
  | some ⟨_, _, .yes⟩ => true
  | _ => false

/-- The codes worth tracking. -/
def OBSERVED_CODES : List String := ["P2034", "P2028"]

/-- The label of errors that are marked rather than Prisma's. -/
def APP_TRANSIENT_LABEL : String := "A2001"

/-- The counter, by the values of its labels `code` and `retried`. -/
abbrev DbTransientErrorCounter := String → String → Nat

/-- One more with these labels. -/
def DbTransientErrorCounter.inc (counter : DbTransientErrorCounter) (code retried : String)
    : DbTransientErrorCounter :=
  fun otherCode otherRetried =>
    counter otherCode otherRetried + if otherCode = code ∧ otherRetried = retried then 1 else 0

/-- `String(retried)`. -/
def boolText (value : Bool) : String :=
  if value then "true" else "false"

/-- The helpers; `thrown` gives the object behind a value that a callee threw, if it is one. -/
structure PrismaTransientErrorHelpers where
  thrown : Nat → Option ErrorObject

namespace PrismaTransientErrorHelpers

variable (self : PrismaTransientErrorHelpers)

/-- The thrown object, unless the value is none. -/
def object? : Thrown → Option ErrorObject
  | .undefined => none
  | .error kind _ => some ⟨errorCode kind, .other, .other⟩
  | .value identity _ => self.thrown identity

/-- The error is worth a retry. -/
def isTransient (error : Thrown) : Bool :=
  isPrismaKnownRequestError (self.object? error) = some "P2034"
  || isMarkedTransient (self.object? error)

/-- Count an observed error. -/
def recordObservation (counter : DbTransientErrorCounter) (error : Thrown) (retried : Bool)
    : DbTransientErrorCounter :=
  match (isPrismaKnownRequestError (self.object? error)).filter (· ∈ OBSERVED_CODES) with
  | some code => counter.inc code (boolText retried)
  | none =>
      if isMarkedTransient (self.object? error) then
        counter.inc APP_TRANSIENT_LABEL (boolText retried)
      else counter

-----------------------------------------------------------------------------------------
-- What is counted
-----------------------------------------------------------------------------------------

/-- The label under which an error is counted. -/
def label? (error : Thrown) : Option String :=
  match (isPrismaKnownRequestError (self.object? error)).filter (· ∈ OBSERVED_CODES) with
  | some code => some code
  | none => if isMarkedTransient (self.object? error) then some APP_TRANSIENT_LABEL else none

/-- Every label of the counter. -/
def codes : List String :=
  OBSERVED_CODES ++ [APP_TRANSIENT_LABEL]

theorem recordObservation_eq (counter : DbTransientErrorCounter) (error : Thrown) (retried : Bool)
    : self.recordObservation counter error retried
      = match self.label? error with
        | some code => counter.inc code (boolText retried)
        | none => counter := by
  simp only [recordObservation, label?]
  cases (isPrismaKnownRequestError (self.object? error)).filter (· ∈ OBSERVED_CODES) with
  | some code => rfl
  | none => cases isMarkedTransient (self.object? error) <;> rfl

theorem boolText_inj {first second : Bool} : boolText first = boolText second ↔ first = second := by
  cases first <;> cases second <;> decide

/-- What an observation adds under each label. -/
theorem recordObservation_apply (counter : DbTransientErrorCounter) (error : Thrown)
    (again retried : Bool) (code : String)
    : self.recordObservation counter error again code (boolText retried)
      = counter code (boolText retried)
        + if self.label? error = some code ∧ again = retried then 1 else 0 := by
  rw [recordObservation_eq]
  split
  · rename_i other labelled
    simp only [DbTransientErrorCounter.inc, labelled, Option.some.injEq, boolText_inj,
      @eq_comm _ code, @eq_comm _ retried]
  · rename_i unlabelled
    simp [unlabelled]

end PrismaTransientErrorHelpers
end SharedKernel.Resilience
