import Mathlib.Data.Set.Basic
import Mathlib.Logic.Relation
import SharedKernel.Js.Number

/-! Object graphs: plain objects and arrays that refer to each other, with any sharing and any
cycles.
-/

namespace Js

/-- A value that is no object; functions, symbols and big integers are known by identity. -/
inductive Primitive where
  | undefined
  | null
  | boolean (value : Bool)
  | number (value : Number)
  | text (value : String)
  | other (identity : Nat)

inductive HeapValue (α : Type) where
  | primitive (value : Primitive)
  | ref (address : α)

/-- An object is its own enumerable properties, in order, and its prototype where that is
another object of the graph; an array is its items.
-/
inductive HeapNode (α : Type) where
  | object (properties : List (String × HeapValue α)) (prototype : Option α)
  | array (items : List (HeapValue α))

namespace HeapValue

variable {α β : Type}

def ref? : HeapValue α → Option α
  | primitive _ => none
  | ref address => some address

/-- Rename the addresses. -/
def map (f : α → β) : HeapValue α → HeapValue β
  | primitive value => primitive value
  | ref address => ref (f address)

@[simp] theorem ref?_eq_some {value : HeapValue α} {address : α}
    : value.ref? = some address ↔ value = .ref address := by
  cases value <;> simp [ref?]

theorem ref?_map (f : α → β) (value : HeapValue α) : (value.map f).ref? = value.ref?.map f := by
  cases value <;> rfl

end HeapValue

/-- The objects that a list of values refers to. -/
def refs {α : Type} (values : List (HeapValue α)) : List α :=
  values.filterMap HeapValue.ref?

@[simp] theorem mem_refs {α : Type} {values : List (HeapValue α)} {address : α}
    : address ∈ refs values ↔ .ref address ∈ values := by
  simp [refs]

section Refs

variable {α : Type}

@[simp] theorem refs_nil : refs ([] : List (HeapValue α)) = [] := rfl

@[simp] theorem refs_primitive (value : Primitive) (rest : List (HeapValue α))
    : refs (.primitive value :: rest) = refs rest :=
  rfl

@[simp] theorem refs_ref (address : α) (rest : List (HeapValue α))
    : refs (.ref address :: rest) = address :: refs rest :=
  rfl

@[simp] theorem refs_append (values more : List (HeapValue α))
    : refs (values ++ more) = refs values ++ refs more :=
  List.filterMap_append

end Refs

namespace HeapNode

variable {α β : Type}

/-- The objects that a node refers to. -/
def targets : HeapNode α → List α
  | object properties prototype => refs (properties.map Prod.snd) ++ prototype.toList
  | array items => refs items

/-- What the object inherits from, where that is another object of the graph. -/
def prototype? : HeapNode α → Option α
  | object _ prototype => prototype
  | array _ => none

/-- Rename the addresses. -/
def map (f : α → β) : HeapNode α → HeapNode β
  | object properties prototype =>
      object (properties.map (fun entry => (entry.1, entry.2.map f))) (prototype.map f)
  | array items => array (items.map (HeapValue.map f))

theorem refs_map (f : α → β) (values : List (HeapValue α))
    : refs (values.map (HeapValue.map f)) = (refs values).map f := by
  simp only [refs, List.filterMap_map, List.map_filterMap]
  congr 1
  funext value
  exact HeapValue.ref?_map f value

theorem targets_map (f : α → β) (node : HeapNode α)
    : (node.map f).targets = node.targets.map f := by
  cases node with
  | array items => exact refs_map f items
  | object properties prototype =>
      have values := refs_map f (properties.map Prod.snd)
      simp only [List.map_map] at values
      simp only [map, targets, List.map_append, List.map_map, ← values]
      cases prototype <;> rfl

end HeapNode

/-- An object graph over a type of addresses; the keys of an object are distinct. -/
structure Heap (α : Type) where
  node : α → HeapNode α
  distinct
    : ∀ address properties prototype,
        node address = .object properties prototype → (properties.map Prod.fst).Nodup

section Reaches

variable {α : Type}

/-- The first object refers to the second. -/
def Leads (node? : α → Option (HeapNode α)) (source target : α) : Prop :=
  ∃ node, node? source = some node ∧ target ∈ node.targets

/-- The object is in the graph reachable from the value. -/
def Reaches (node? : α → Option (HeapNode α)) (value : HeapValue α) (address : α) : Prop :=
  ∃ start, value = .ref start ∧ Relation.ReflTransGen (Leads node?) start address

end Reaches

/-- All objects of a heap. -/
def Heap.node? {α : Type} (heap : Heap α) (address : α) : Option (HeapNode α) :=
  some (heap.node address)

end Js
