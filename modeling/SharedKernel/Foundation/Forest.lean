import Mathlib.Tactic.Common

/-! Forests that only grow: every node carries a value and may name an earlier node as its
parent. A node never moves, so what lies below what is settled when the node is added.
-/

namespace Foundation

/-- A node: its parent, if it has one, and its value. -/
structure Node (α : Type) where
  parent : Option Nat
  value : α

/-- The nodes in the order they were added; a node is known by its position. -/
abbrev Forest (α : Type) := List (Node α)

namespace Forest

variable {α : Type} {forest : Forest α} {node : Node α} {top index : Nat}

/-- The node lies below `top`: it is `top`, or its parent lies below `top`. -/
inductive Below (forest : Forest α) (top : Nat) : Nat → Prop
  | self : Below forest top top
  | child {index : Nat} {node : Node α} {parent : Nat} (found : forest[index]? = some node)
    (child : node.parent = some parent) (below : Below forest top parent)
    : Below forest top index

/-- Every parent was there before its child. -/
def Ordered (forest : Forest α) : Prop :=
  ∀ (index : Nat) (node : Node α) (parent : Nat),
    forest[index]? = some node → node.parent = some parent → parent < index

/-- What was added last is found at the end, and nothing else is new. -/
theorem getElem?_snoc {found : Node α}
    : (forest ++ [node])[index]? = some found
      ↔ forest[index]? = some found ∨ index = forest.length ∧ node = found := by
  rw [List.getElem?_append]
  split
  · rename_i bound
    constructor
    · exact Or.inl
    · intro either
      rcases either with old | ⟨rfl, _⟩
      · exact old
      · exact absurd bound (Nat.lt_irrefl _)
  · rename_i late
    have past : forest[index]? = none := List.getElem?_eq_none (Nat.le_of_not_lt late)
    rw [past, List.getElem?_singleton]
    constructor
    · intro last
      split at last
      · rename_i zero
        exact Or.inr ⟨by omega, Option.some.inj last⟩
      · cases last
    · intro either
      rcases either with absurd | ⟨rfl, rfl⟩
      · cases absurd
      · simp

/-- A node whose parent is there can be added. -/
theorem Ordered.snoc (ordered : Ordered forest)
    (present : ∀ parent, node.parent = some parent → parent < forest.length)
    : Ordered (forest ++ [node]) := by
  intro index other parent found child
  rcases getElem?_snoc.mp found with old | ⟨rfl, rfl⟩
  · exact ordered index other parent old child
  · exact present parent child

/-- What lies below a node still does when the forest grows. -/
theorem Below.snoc (below : Below forest top index) : Below (forest ++ [node]) top index := by
  induction below with
  | self => exact .self
  | child found child _ ih => exact .child (getElem?_snoc.mpr (Or.inl found)) child ih

/-- A new node changes nothing about the nodes that are there; witness: their parents are
there too, by induction on the way up.
-/
theorem below_snoc_old (ordered : Ordered forest) (present : index < forest.length)
    : Below (forest ++ [node]) top index ↔ Below forest top index := by
  constructor
  · intro below
    induction below with
    | self => exact .self
    | @child index other parent found child _ ih =>
        rcases getElem?_snoc.mp found with old | ⟨rfl, _⟩
        · have earlier := ordered index other parent old child
          exact .child old child (ih (Nat.lt_trans earlier present))
        · exact absurd present (Nat.lt_irrefl _)
  · exact Below.snoc

/-- What a new node lies below: itself, and what its parent lies below. -/
theorem below_snoc_new (ordered : Ordered forest)
    (present : ∀ parent, node.parent = some parent → parent < forest.length)
    : Below (forest ++ [node]) top forest.length
      ↔ top = forest.length ∨ ∃ parent, node.parent = some parent ∧ Below forest top parent := by
  constructor
  · intro below
    cases below with
    | self => exact Or.inl rfl
    | @child _ other parent found child below =>
        rcases getElem?_snoc.mp found with old | ⟨_, rfl⟩
        · obtain ⟨bound, _⟩ := List.getElem?_eq_some_iff.mp old
          exact absurd bound (Nat.lt_irrefl _)
        · exact Or.inr ⟨parent, child, (below_snoc_old ordered (present parent child)).mp below⟩
  · intro either
    rcases either with rfl | ⟨parent, child, below⟩
    · exact .self
    · exact .child (getElem?_snoc.mpr (Or.inr ⟨rfl, rfl⟩)) child below.snoc

/-- Nothing lies below a node that is not there yet. -/
theorem Below.present (ordered : Ordered forest) (below : Below forest top index)
    (present : index < forest.length)
    : top < forest.length := by
  induction below with
  | self => exact present
  | @child index other parent found child _ ih =>
      exact ih (Nat.lt_trans (ordered index other parent found child) present)

end Forest
end Foundation
