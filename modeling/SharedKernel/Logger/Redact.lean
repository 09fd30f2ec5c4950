import Mathlib.Data.Finset.Basic
import Mathlib.Data.Fintype.Card
import SharedKernel.Foundation.Atomic
import SharedKernel.Logger.CallerObjects

/-! The logger's masking of secrets: the object graph of a log argument is rebuilt with the
values under sensitive keys blanked.
-/

namespace SharedKernel.Logger

open Foundation Js

def sensitiveLogKeys : List String :=
  [
    "password",
    "newPassword",
    "currentPassword",
    "token",
    "accessToken",
    "refreshToken",
    "secret",
    "authorization",
    "cookie",
    "email",
    "username"
  ]

def logRedactCensor : String := "[REDACTED]"

/-- An object of the caller, or the one that is made for it. -/
inductive Address (α : Type) where
  | caller (address : α)
  | copy (address : α)
deriving DecidableEq

/-- The set `seen`, the objects made so far, each with the object it is made for, and the keys
that cannot be assigned to an object that inherits from one of them.
-/
structure Redaction (α : Type) where
  seen : Finset α
  created : List (α × HeapNode (Address α))
  locks : α → String → Bool

/-- No object has been seen. -/
def noRedaction {α : Type} : Redaction α :=
  { seen := ∅, created := [], locks := fun _ _ => false }

abbrev RedactCode (α β : Type) := Atomic (Redaction α) Thrown β

/-- The object with these properties, whose keys are distinct. The one under `__proto__` has
become its prototype if it is an object, and nothing otherwise.
-/
def assign {β : Type} (properties : List (String × HeapValue β)) : HeapNode β :=
  .object (properties.filter (fun entry => entry.1 ≠ "__proto__"))
    ((properties.find? (fun entry => entry.1 = "__proto__")).bind (fun entry => entry.2.ref?))

section Assignment

variable {α : Type} [Fintype α] (objects : CallerObjects α)

/-- The key is read-only in an object that inherits from the value. -/
def readOnlyIn (locks : α → String → Bool) (key : String) : HeapValue (Address α) → Bool
  | .primitive (.other identity) => objects.refuses identity key
  | .primitive _ => false
  | .ref (.caller address) => objects.readOnlyFrom key (Fintype.card α) address
  | .ref (.copy address) => locks address key

/-- The key is read-only in the object with these properties, the one under `__proto__` being its
prototype.
-/
def inheritedReadOnly (locks : α → String → Bool) (out : List (String × HeapValue (Address α)))
    (key : String)
    : Bool :=
  (out.find? (fun entry => entry.1 = "__proto__")).any
    (fun entry => readOnlyIn objects locks key entry.2)

/-- `out[key] = value`, for a key that `out` does not have. -/
def assignProperty (out : List (String × HeapValue (Address α))) (key : String)
    (value : HeapValue (Address α))
    : RedactCode α (List (String × HeapValue (Address α))) := do
  let state ← get
  if inheritedReadOnly objects state.locks out key then throw (readOnlyError "#<Object>" key)
  else return out ++ [(key, value)]

/-- The keys that cannot be assigned to an object that inherits from `out`. -/
def lockedKeys (locks : α → String → Bool) (out : List (String × HeapValue (Address α)))
    (key : String)
    : Bool :=
  key ∉ out.map Prod.fst && inheritedReadOnly objects locks out key

/-- The loop over the entries; the value under a sensitive key is not looked at. -/
def redactProperties (redact : HeapValue α → RedactCode α (HeapValue (Address α)))
    : List (String × HeapValue α)
      → List (String × HeapValue (Address α))
      → RedactCode α (List (String × HeapValue (Address α)))
  | [], out => return out
  | (key, val) :: rest, out => do
      let shown ←
        (if key ∈ sensitiveLogKeys then pure (.primitive (.text logRedactCensor)) else redact val)
      let out ← assignProperty objects out key shown
      redactProperties redact rest out

variable [DecidableEq α]

/-- A redaction that has made an object. -/
def Redaction.create (state : Redaction α) (address : α) (node : HeapNode (Address α))
    (locked : String → Bool)
    : Redaction α :=
  {
    state with
    created := state.created ++ [(address, node)]
    locks := Function.update state.locks address locked
  }

/-- Redact a value, in a recursion of bounded depth. -/
def deepRedactWithin : Nat → HeapValue α → RedactCode α (HeapValue (Address α))
  | _, .primitive value => return .primitive value
  | depth, .ref address => do
      let state ← get
      if address ∈ state.seen then return .ref (.caller address)
      else
        match depth with
        | 0 => throw (.error .rangeError "Maximum call stack size exceeded")
        | depth + 1 => do
            modify (fun state => { state with seen := insert address state.seen })
            match objects.heap.node address with
            | .array items => do
                let items ← items.mapM (deepRedactWithin depth)
                modify (fun state => state.create address (.array items) (fun _ => false))
                return .ref (.copy address)
            | .object properties _ => do
                let out ← redactProperties objects (deepRedactWithin depth) properties []
                modify (fun state =>
                  state.create address (assign out) (lockedKeys objects state.locks out))
                return .ref (.copy address)

section Steps

variable {objects} {state : Redaction α} {depth : Nat} {address : α}

/-- An object that has been seen is left alone. -/
theorem on_deepRedactWithin_seen (seen : address ∈ state.seen)
    : Atomic.on state (deepRedactWithin objects depth (.ref address))
      = (.ok (.ref (.caller address)), state) := by
  rw [deepRedactWithin.eq_def]
  simp [seen]

/-- An array that has not been seen is redacted item by item. -/
theorem on_deepRedactWithin_array (fresh : address ∉ state.seen) {items : List (HeapValue α)}
    (node : objects.heap.node address = .array items)
    : Atomic.on state (deepRedactWithin objects (depth + 1) (.ref address))
      = Atomic.on { state with seen := insert address state.seen } (do
          let items ← items.mapM (deepRedactWithin objects depth)
          modify (fun state => state.create address (.array items) (fun _ => false))
          return HeapValue.ref (Address.copy address)) := by
  simp [deepRedactWithin, fresh, node]

/-- An object that has not been seen is redacted property by property. -/
theorem on_deepRedactWithin_object (fresh : address ∉ state.seen)
    {properties : List (String × HeapValue α)} {prototype : Option α}
    (node : objects.heap.node address = .object properties prototype)
    : Atomic.on state (deepRedactWithin objects (depth + 1) (.ref address))
      = Atomic.on { state with seen := insert address state.seen } (do
          let out ← redactProperties objects (deepRedactWithin objects depth) properties []
          modify (fun state =>
            state.create address (assign out) (lockedKeys objects state.locks out))
          return HeapValue.ref (Address.copy address)) := by
  simp [deepRedactWithin, fresh, node]

end Steps

/-- Redact a value; each level of the recursion sees one more of the finitely many objects. -/
def deepRedact (value : HeapValue α)
    : Except Thrown (HeapValue (Address α)) × Redaction α :=
  Atomic.on noRedaction (deepRedactWithin objects (Fintype.card α) value)

end Assignment
end SharedKernel.Logger
