import SharedKernel.Js.Date
import SharedKernel.Js.Json
import SharedKernel.Logger.Redact

/-! Log arguments as trees of objects, with errors and dates among them: what the redaction
makes of them, and what is relied on of the library that writes the records.
-/

namespace SharedKernel.Logger

open Js

/-- What an error has besides its enumerable properties: the name of its class, its message
and its stack.
-/
structure ErrorData where
  type : String
  message : String
  stack : String

/-- A value that is passed to the logger; every object has its identity and its own enumerable
properties.
-/
inductive LogValue where
  | primitive (value : Primitive)
  | array (identity : Nat) (items : List LogValue)
  | object (identity : Nat) (properties : List (String × LogValue))
  | error (identity : Nat) (own : ErrorData) (properties : List (String × LogValue))
  | date (identity : Nat) (time : Date)

namespace LogValue

/-- A string. -/
def text (value : String) : LogValue :=
  primitive (.text value)

section Induction

variable {motive : LogValue → Prop} (onPrimitive : ∀ value, motive (primitive value))
  (onArray : ∀ identity items, (∀ item ∈ items, motive item) → motive (array identity items))
  (onObject
    : ∀ identity properties,
        (∀ entry ∈ properties, motive entry.2) → motive (object identity properties))
  (onError
    : ∀ identity own properties,
        (∀ entry ∈ properties, motive entry.2) → motive (error identity own properties))
  (onDate : ∀ identity time, motive (date identity time))

include onPrimitive onArray onObject onError onDate

-- the mutual theorems use the variables through each other
set_option linter.unusedSectionVars false in
mutual

/-- What holds of a value wherever it holds of its parts, holds of all values. -/
theorem induct : ∀ value, motive value
  | primitive value => onPrimitive value
  | array identity items => onArray identity items (inductItems items)
  | object identity properties => onObject identity properties (inductProperties properties)
  | error identity own properties => onError identity own properties (inductProperties properties)
  | date identity time => onDate identity time

/-- It holds of all items. -/
theorem inductItems : ∀ items : List LogValue, ∀ item ∈ items, motive item
  | [], _, absurd => (List.not_mem_nil absurd).elim
  | item :: rest, _, member =>
      match List.mem_cons.mp member with
      | .inl same => same ▸ induct item
      | .inr later => inductItems rest _ later

/-- It holds of the values of all properties. -/
theorem inductProperties
    : ∀ properties : List (String × LogValue), ∀ entry ∈ properties, motive entry.2
  | [], _, absurd => (List.not_mem_nil absurd).elim
  | (_, value) :: rest, _, member =>
      match List.mem_cons.mp member with
      | .inl same => same ▸ induct value
      | .inr later => inductProperties rest _ later

end

end Induction

-----------------------------------------------------------------------------------------
-- The redaction
-----------------------------------------------------------------------------------------

mutual

/-- The identities of the objects in the value. -/
def identities : LogValue → List Nat
  | primitive _ => []
  | array identity items => identity :: itemIdentities items
  | object identity properties | error identity _ properties =>
      identity :: propertyIdentities properties
  | date identity _ => [identity]

def itemIdentities : List LogValue → List Nat
  | [] => []
  | item :: rest => identities item ++ itemIdentities rest

def propertyIdentities : List (String × LogValue) → List Nat
  | [] => []
  | (_, value) :: rest => identities value ++ propertyIdentities rest

end

/-- The properties of a new object that these are assigned to: `__proto__` is not one of them.
-/
def assigned (properties : List (String × LogValue)) : List (String × LogValue) :=
  properties.filter (fun entry => entry.1 ≠ "__proto__")

mutual

/-- Rebuild a value with the values under sensitive keys blanked; `seen` are the objects that
have been entered. A new object is labelled with the identity of the one it is made for.
-/
def deepRedact : LogValue → List Nat → LogValue × List Nat
  | primitive value, seen => (primitive value, seen)
  | array identity items, seen =>
      if identity ∈ seen then (array identity items, seen)
      else
        let (items, seen) := redactItems items (identity :: seen)
        (array identity items, seen)
  | object identity properties, seen =>
      if identity ∈ seen then (object identity properties, seen)
      else
        let (properties, seen) := redactProperties properties (identity :: seen)
        (object identity (assigned properties), seen)
  | error identity own properties, seen =>
      if identity ∈ seen then (error identity own properties, seen)
      else
        -- `Object.entries` does not list what is not enumerable
        let (properties, seen) := redactProperties properties (identity :: seen)
        (object identity (assigned properties), seen)
  | date identity time, seen =>
      if identity ∈ seen then (date identity time, seen)
      else (object identity [], identity :: seen)

def redactItems : List LogValue → List Nat → List LogValue × List Nat
  | [], seen => ([], seen)
  | item :: rest, seen =>
      let (shown, seen) := deepRedact item seen
      let (others, seen) := redactItems rest seen
      (shown :: others, seen)

def redactProperties
    : List (String × LogValue) → List Nat → List (String × LogValue) × List Nat
  | [], seen => ([], seen)
  | (key, value) :: rest, seen =>
      if key ∈ sensitiveLogKeys then
        let (others, seen) := redactProperties rest seen
        ((key, text logRedactCensor) :: others, seen)
      else
        let (shown, seen) := deepRedact value seen
        let (others, seen) := redactProperties rest seen
        ((key, shown) :: others, seen)

end

mutual

/-- The value with every value under a sensitive key replaced, and nothing else changed. -/
def masked : LogValue → LogValue
  | primitive value => primitive value
  | array identity items => array identity (maskedItems items)
  | object identity properties => object identity (maskedProperties properties)
  | error identity own properties => error identity own (maskedProperties properties)
  | date identity time => date identity time

def maskedItems : List LogValue → List LogValue
  | [] => []
  | item :: rest => masked item :: maskedItems rest

def maskedProperties : List (String × LogValue) → List (String × LogValue)
  | [] => []
  | (key, value) :: rest =>
      (if key ∈ sensitiveLogKeys then (key, text logRedactCensor) else (key, masked value))
        :: maskedProperties rest

end

-----------------------------------------------------------------------------------------
-- The serialization
-----------------------------------------------------------------------------------------

/-- `date.toJSON()`. -/
def dateToJson (time : Date) : Json :=
  match time.toISOString with
  | .ok text => .str text
  | .error _ => .null

/-- What is written of a primitive value, if anything. -/
def primitiveToJson : Primitive → Option Json
  | .undefined | .other _ => none
  | .null => some .null
  | .boolean value => some (.bool value)
  | .number value => some (.num value)
  | .text value => some (.str value)

mutual

/-- What `JSON.stringify` writes of a value, if anything: the enumerable properties of an
object, an error included, and of a date its `toJSON`.
-/
def toJson : LogValue → Option Json
  | primitive value => primitiveToJson value
  | array _ items => some (.arr (itemsToJson items))
  | object _ properties | error _ _ properties => some (.obj (propertiesToJson properties))
  | date _ time => some (dateToJson time)

def itemsToJson : List LogValue → List Json
  | [] => []
  | item :: rest => (toJson item).getD .null :: itemsToJson rest

def propertiesToJson : List (String × LogValue) → List (String × Json)
  | [] => []
  | (key, value) :: rest =>
      match toJson value with
      | none => propertiesToJson rest
      | some json => (key, json) :: propertiesToJson rest

end

mutual

/-- Outside values under sensitive keys there is no big integer, which cannot be written as
JSON, no function or symbol, and no `__proto__` property, which is lost where objects are copied.
-/
def plain : LogValue → Bool
  | primitive (.other _) => false
  | primitive _ | date _ _ => true
  | array _ items => plainItems items
  | object _ properties | error _ _ properties => plainProperties properties

def plainItems : List LogValue → Bool
  | [] => true
  | item :: rest => plain item && plainItems rest

def plainProperties : List (String × LogValue) → Bool
  | [] => true
  | (key, value) :: rest =>
      (key ∈ sensitiveLogKeys || key ≠ "__proto__" && plain value) && plainProperties rest

end

/-- The value looks like an error: it is one, or it is an object with a text for a message. -/
def ErrorLike : LogValue → Prop
  | error _ _ _ => True
  | object _ properties => ∃ message, ("message", .text message) ∈ properties
  | primitive _ | array _ _ | date _ _ => False

/-- The properties of a request or a response of a server, which is logged in a way of its own.
-/
def HttpLike (properties : List (String × LogValue)) : Prop :=
  (∀ key ∈ ["method", "headers", "socket"], ∃ value, (key, value) ∈ properties)
  ∨ ∃ value, ("setHeader", value) ∈ properties

/-- The properties that are written, each as `write` has it. -/
def written (write : String → LogValue → Option Json) (properties : List (String × LogValue))
    : List (String × Json) :=
  properties.filterMap (fun entry => (write entry.1 entry.2).map (fun json => (entry.1, json)))

/-- The items of an array under their indices. -/
def indexed (items : List LogValue) : List (String × LogValue) :=
  items.zipIdx.map (fun entry => (toString entry.2, entry.1))

/-- The properties of an error that pino reads. -/
def errorKeys : List String :=
  ["type", "message", "stack", "name", "constructor", "cause"]

/-- The properties that every object inherits. -/
def inheritedKeys : List String :=
  [
    "constructor",
    "__defineGetter__",
    "__defineSetter__",
    "hasOwnProperty",
    "__lookupGetter__",
    "__lookupSetter__",
    "isPrototypeOf",
    "propertyIsEnumerable",
    "toString",
    "valueOf",
    "__proto__",
    "toLocaleString"
  ]

end LogValue

/-- What pino does with the first argument of a log call: the members that its record has for
the argument, and what it writes of a value under a top-level key.
-/
structure Pino where
  record : LogValue → List (String × Json)
  write : String → LogValue → Option Json

open LogValue in
/-- What is relied on of pino. An object is written by its own properties, an array by its
items, and an error as if it had been logged under `err`. Values in which the secrets have been
replaced are written as JSON, except that an error under `err` is shown with its type, its
message and its stack, which are not enumerable. Nothing is relied on under a sensitive key,
which the `redact` option covers too, and under a key that every object inherits, for which pino
finds a serializer of its own.
-/
structure Pino.Documented (pino : Pino) : Prop where
  object
    : ∀ identity properties,
        ¬ HttpLike properties
        → pino.record (.object identity properties) = written pino.write properties
  array
    : ∀ identity items,
        pino.record (.array identity items) = written pino.write (indexed items)
  error
    : ∀ identity own properties,
        ¬ HttpLike properties
        → pino.record (.error identity own properties)
          = written pino.write [("err", .error identity own properties)]
  date : ∀ identity time, pino.record (.date identity time) = []
  json
    : ∀ key value,
        key ∉ sensitiveLogKeys
        → key ∉ inheritedKeys
        → value.plain = true
        → value.masked = value
        → (key = "err" → ¬ value.ErrorLike)
        → pino.write key value = value.toJson
  undefined : ∀ key, pino.write key (.primitive .undefined) = none
  err
    : ∀ identity own properties,
        plainProperties properties = true
        → (∀ key ∈ errorKeys, ∀ value, (key, value) ∉ properties)
        → ∃ members,
            pino.write "err" (.error identity own properties) = some (.obj members)
            ∧ ("type", .str own.type) ∈ members
            ∧ ("message", .str own.message) ∈ members
            ∧ ("stack", .str own.stack) ∈ members

end SharedKernel.Logger
