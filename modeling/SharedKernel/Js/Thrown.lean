import Mathlib.Tactic.Common

/-! Values that JavaScript code throws, as far as the code observes them: their identity,
and what `String(error)` makes of them.
-/

namespace Js

/-- The error classes raised by the modelled code and the runtime beneath it. -/
inductive ErrorClass where
  | error
  | typeError
  | rangeError
  | syntaxError
  | commandHandlerNotFound
  | duplicateCommandHandler
  | unknownHandlerKind
  | nestedSagaDispatch
  | unreachable
  | nestedTransaction
deriving DecidableEq

/-- The `name` property of an error; of the classes of the code only the CQRS errors set it. -/
def ErrorClass.name : ErrorClass → String
  | .error => "Error"
  | .typeError => "TypeError"
  | .rangeError => "RangeError"
  | .syntaxError => "SyntaxError"
  | .commandHandlerNotFound => "CommandHandlerNotFoundError"
  | .duplicateCommandHandler => "DuplicateCommandHandlerError"
  | .unknownHandlerKind => "UnknownHandlerKindError"
  | .nestedSagaDispatch => "NestedSagaDispatchError"
  | .unreachable | .nestedTransaction => "Error"

/-- A thrown value: `undefined`, an error this code raises, or any value of a callee, known
by its identity and its string conversion (`none` where `String(value)` itself throws).
-/
inductive Thrown where
  | undefined
  | error (kind : ErrorClass) (message : String)
  | value (identity : Nat) (text : Option String)
deriving DecidableEq

/-- `String(error)`, which may throw in turn. -/
def Thrown.toText : Thrown → Except Thrown String
  | undefined => .ok "undefined"
  | error kind message => .ok (if message = "" then kind.name else kind.name ++ ": " ++ message)
  | value _ (some text) => .ok text
  | value _ none => .error (.error .typeError "Cannot convert object to primitive value")

/-- The string conversion of the value succeeds. -/
def Thrown.printable (err : Thrown) : Bool := err.toText.isOk

/-- A printable value has a text. -/
theorem Thrown.printable_iff (err : Thrown)
    : err.printable = true ↔ ∃ text, err.toText = .ok text := by
  cases text : err.toText <;> simp [printable, text, Except.isOk, Except.toBool]

end Js
