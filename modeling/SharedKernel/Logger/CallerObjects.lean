import Mathlib.Data.Fintype.Card
import SharedKernel.Js.Heap
import SharedKernel.Js.Thrown

/-! The objects that a caller of the logger has, some of them frozen: their own properties, what
their prototypes make read-only, and the setting of a property.
-/

namespace SharedKernel.Logger

open Js

/-- The object graph of the caller, what the arrays in it have besides their items, which objects
are frozen, and the keys that cannot be assigned to an object that inherits from a function.
-/
structure CallerObjects (α : Type) where
  heap : Heap α
  named : α → List (String × HeapValue α)
  frozen : α → Bool
  refuses : Nat → String → Bool

/-- Set the entry of a key, in its place or at the end. -/
def setEntry {β : Type} (key : String) (value : β) : List (String × β) → List (String × β)
  | [] => [(key, value)]
  | entry :: rest =>
      if entry.1 = key then (key, value) :: rest else entry :: setEntry key value rest

/-- The keys stay, and the one that is set is among them; by induction on the entries. -/
theorem mem_keys_setEntry {β : Type} {key other : String} {value : β}
    {entries : List (String × β)}
    : other ∈ (setEntry key value entries).map Prod.fst
      ↔ other = key ∨ other ∈ entries.map Prod.fst := by
  induction entries with
  | nil => simp [setEntry]
  | cons entry rest ih =>
      unfold setEntry
      split
      · rename_i same
        simp [same]
      · rw [List.map_cons, List.mem_cons, ih, List.map_cons, List.mem_cons]
        tauto

/-- Distinct keys stay distinct, by induction on the entries. -/
theorem nodup_setEntry {β : Type} {key : String} {value : β} {entries : List (String × β)}
    (distinct : (entries.map Prod.fst).Nodup)
    : ((setEntry key value entries).map Prod.fst).Nodup := by
  induction entries with
  | nil => simp [setEntry]
  | cons entry rest ih =>
      rw [List.map_cons, List.nodup_cons] at distinct
      unfold setEntry
      split
      · rename_i same
        rw [List.map_cons, List.nodup_cons, ← same]
        exact distinct
      · rename_i other
        rw [List.map_cons, List.nodup_cons, mem_keys_setEntry, not_or]
        exact ⟨⟨other, distinct.1⟩, ih distinct.2⟩

/-- Where keys are distinct, the entry of a key is found, by induction on the entries. -/
theorem find?_key {κ β : Type} [DecidableEq κ] {entries : List (κ × β)}
    (distinct : (entries.map Prod.fst).Nodup) {key : κ} {value : β}
    : entries.find? (fun entry => entry.1 = key) = some (key, value) ↔ (key, value) ∈ entries := by
  constructor
  · exact List.mem_of_find?_eq_some
  · intro member
    induction entries with
    | nil => cases member
    | cons entry rest ih =>
        rw [List.map_cons, List.nodup_cons] at distinct
        rcases List.mem_cons.mp member with rfl | later
        · simp
        · have other : entry.1 ≠ key := by
            intro same
            subst same
            exact distinct.1 (List.mem_map.mpr ⟨_, later, rfl⟩)
          rw [List.find?_cons_of_neg (by simpa using other)]
          exact ih distinct.2 later

variable {α : Type}

/-- The graph with a property of an object set. -/
def setProperty [DecidableEq α] (heap : Heap α) (address : α) (key : String)
    (value : HeapValue α)
    : Heap α where
  node other :=
    if other = address then
      match heap.node address with
      | .object properties prototype => .object (setEntry key value properties) prototype
      | .array items => .array items
    else heap.node other
  distinct := by
    intro other properties prototype same
    split at same
    · cases node : heap.node address with
      | array items =>
          rw [node] at same
          cases same
      | object before _ =>
          rw [node] at same
          cases same
          exact nodup_setEntry (heap.distinct _ _ _ node)
    · exact heap.distinct _ _ _ same

namespace CallerObjects

/-- A graph in which nothing is frozen, arrays have nothing but their items, and functions refuse
no key.
-/
def plain (heap : Heap α) : CallerObjects α where
  heap
  named := fun _ => []
  frozen := fun _ => false
  refuses := fun _ _ => false

/-- Nothing is frozen, and functions refuse no key. -/
structure Yielding (objects : CallerObjects α) : Prop where
  thawed : ∀ address, objects.frozen address = false
  granted : ∀ identity key, objects.refuses identity key = false

/-- The own properties of an object by name; of an array, those besides its items. -/
def properties (objects : CallerObjects α) (address : α) : List (String × HeapValue α) :=
  match objects.heap.node address with
  | .object properties _ => properties
  | .array _ => objects.named address

/-- An own property. -/
def own? (objects : CallerObjects α) (address : α) (key : String) : Option (HeapValue α) :=
  ((objects.properties address).find? (fun entry => entry.1 = key)).map Prod.snd

/-- The keys of an object; an array has those of its items and of its length as well. -/
def ownKeys (objects : CallerObjects α) (address : α) : List String :=
  match objects.heap.node address with
  | .object properties _ => properties.map Prod.fst
  | .array items =>
      "length" :: (List.range items.length).map toString
        ++ (objects.named address).map Prod.fst

/-- The key is read-only in the first object that has it, of one and its prototypes; a chain of
prototypes has no cycle.
-/
def readOnlyFrom (objects : CallerObjects α) (key : String) : Nat → α → Bool
  | 0, _ => false
  | depth + 1, address =>
      if key ∈ objects.ownKeys address then objects.frozen address
      else (objects.heap.node address).prototype?.any (objects.readOnlyFrom key depth)

/-- Where nothing is frozen no key is read-only, by induction on the bound on the chain of
prototypes.
-/
theorem readOnlyFrom_thawed {objects : CallerObjects α}
    (thawed : ∀ address, objects.frozen address = false) (key : String) (depth : Nat) (address : α)
    : objects.readOnlyFrom key depth address = false := by
  induction depth generalizing address with
  | zero => rfl
  | succ depth ih =>
      unfold readOnlyFrom
      split
      · exact thawed address
      · cases (objects.heap.node address).prototype? with
        | none => rfl
        | some prototype => exact ih prototype

/-- A prototype of the object makes the key read-only. -/
def readOnlyAbove [Fintype α] (objects : CallerObjects α) (address : α) (key : String) : Bool :=
  (objects.heap.node address).prototype?.any (objects.readOnlyFrom key (Fintype.card α))

/-- The objects with an own property of one set. -/
def write [DecidableEq α] (objects : CallerObjects α) (address : α) (key : String)
    (value : HeapValue α)
    : CallerObjects α where
  heap := setProperty objects.heap address key value
  named other :=
    match objects.heap.node other with
    | .object _ _ => objects.named other
    | .array _ =>
        if other = address then setEntry key value (objects.named address)
        else objects.named other
  frozen := objects.frozen
  refuses := objects.refuses

end CallerObjects

/-- How the engine names an object in its messages. -/
def describe : HeapNode α → String
  | .object _ _ => "#<Object>"
  | .array _ => "[object Array]"

def readOnlyError (object key : String) : Thrown :=
  .error .typeError
    ("Cannot assign to read only property '" ++ key ++ "' of object '" ++ object ++ "'")

def notExtensibleError (key : String) : Thrown :=
  .error .typeError ("Cannot add property " ++ key ++ ", object is not extensible")

end SharedKernel.Logger
