import Mathlib.Tactic.Common

/-! Code that runs between two awaits: one step on a state, which may throw and then keeps
what it had changed.
-/

namespace Foundation

/-- Code that runs in one step on a state of type `σ` and may throw an `ε`. -/
abbrev Atomic (σ ε : Type) := ExceptT ε (StateM σ)

namespace Atomic

variable {σ ε α β : Type} (state : σ)

/-- Run code on a state. -/
def on (code : Atomic σ ε α) : Except ε α × σ :=
  (code.run.run state).run

@[simp] theorem on_pure (value : α)
    : on state (pure value : Atomic σ ε α) = (.ok value, state) :=
  rfl

@[simp] theorem on_throw (err : ε)
    : on state (throw err : Atomic σ ε α) = (.error err, state) :=
  rfl

@[simp] theorem on_get : on state (get : Atomic σ ε σ) = (.ok state, state) := rfl

@[simp] theorem on_modify (f : σ → σ)
    : on state (modify f : Atomic σ ε PUnit) = (.ok ⟨⟩, f state) :=
  rfl

@[simp] theorem on_ofExcept (outcome : Except ε α)
    : on state (MonadExcept.ofExcept outcome) = (outcome, state) := by
  cases outcome <;> rfl

/-- Sequenced code stops at the first throw. -/
@[simp] theorem on_bind (code : Atomic σ ε α) (next : α → Atomic σ ε β)
    : on state (code >>= next)
      = match on state code with
        | (.ok value, changed) => on changed (next value)
        | (.error err, changed) => (.error err, changed) := by
  simp only [on, ExceptT.run_bind, StateT.run_bind, Id.run_bind]
  generalize (code.run.run state).run = ended
  obtain ⟨outcome, changed⟩ := ended
  cases outcome <;> rfl

@[simp] theorem on_map (f : α → β) (code : Atomic σ ε α)
    : on state (f <$> code)
      = match on state code with
        | (.ok value, changed) => (.ok (f value), changed)
        | (.error err, changed) => (.error err, changed) := by
  rw [← bind_pure_comp, on_bind]
  rfl

/-- Recovery starts from the state that the throw left. -/
@[simp] theorem on_tryCatch (code : Atomic σ ε α) (recover : ε → Atomic σ ε α)
    : on state (tryCatch code recover)
      = match on state code with
        | (.ok value, changed) => (.ok value, changed)
        | (.error err, changed) => on changed (recover err) := by
  simp only [on]
  change (StateT.run (ExceptT.tryCatch code recover) state).run = _
  simp only [ExceptT.tryCatch, ExceptT.mk, StateT.run_bind, Id.run_bind, ExceptT.run]
  generalize (StateT.run code state).run = ended
  obtain ⟨outcome, changed⟩ := ended
  cases outcome <;> rfl

@[simp] theorem on_ite {condition : Prop} [Decidable condition] (yes no : Atomic σ ε α)
    : on state (if condition then yes else no)
      = if condition then on state yes else on state no :=
  apply_ite ..

end Atomic
end Foundation
