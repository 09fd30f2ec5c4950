import Mathlib.Tactic.Common

/-! Executions of labelled transition systems, and the rule that an invariant of every step
holds in every state reached.
-/

namespace Foundation

variable {σ ι : Type} {step : σ → ι → σ → Prop} {start state : σ} {labels : List ι}

/-- Steps taken one after another from a start state, with their labels in order. -/
inductive Execution (step : σ → ι → σ → Prop) (start : σ) : List ι → σ → Prop
  | start : Execution step start [] start
  | snoc {labels state label next} (earlier : Execution step start labels state)
    (taken : step state label next)
    : Execution step start (labels ++ [label]) next

/-- What holds at the start and is preserved by every step of an execution holds in every
state reached, together with the labels until then; witness: induction on the execution.
-/
theorem Execution.invariant {inv : List ι → σ → Prop}
    (initially : inv [] start)
    (preserved
      : ∀ labels state label next,
          inv labels state → step state label next → inv (labels ++ [label]) next)
    (run : Execution step start labels state)
    : inv labels state := by
  induction run with
  | start => exact initially
  | snoc earlier taken ih => exact preserved _ _ _ _ ih taken

/-- An execution extends by executions from the state it reached. -/
theorem Execution.trans {middle : σ} {later : List ι}
    (first : Execution step start labels middle) (second : Execution step middle later state)
    : Execution step start (labels ++ later) state := by
  induction second with
  | start => simpa using first
  | snoc earlier taken ih =>
      rw [← List.append_assoc]
      exact .snoc ih taken

/-- An execution from its first step. -/
theorem Execution.cons {label : ι} {middle : σ} (taken : step start label middle)
    (later : Execution step middle labels state)
    : Execution step start (label :: labels) state :=
  (Execution.snoc .start taken).trans later

/-- An execution of steps that the second system can take too is one of the second system. -/
theorem Execution.mono {step' : σ → ι → σ → Prop}
    (weaker : ∀ state label next, step state label next → step' state label next)
    (run : Execution step start labels state)
    : Execution step' start labels state := by
  induction run with
  | start => exact .start
  | snoc earlier taken ih => exact .snoc ih (weaker _ _ _ taken)

/-- An execution whose labels are all allowed is one of the allowed steps. -/
theorem Execution.restrict {allowed : ι → Prop} (run : Execution step start labels state)
    (all : ∀ label ∈ labels, allowed label)
    : Execution (fun state label next => step state label next ∧ allowed label) start labels
        state := by
  induction run with
  | start => exact .start
  | snoc earlier taken ih =>
      have before := ih (fun label member => all label (List.mem_append_left _ member))
      exact before.snoc ⟨taken, all _ (List.mem_append_right _ (List.mem_singleton_self _))⟩

/-- Without a step nothing is reached but the start. -/
theorem Execution.of_nil (run : Execution step start [] state) : state = start := by
  generalize same : ([] : List ι) = labels at run
  cases run with
  | start => rfl
  | snoc earlier taken => simp at same

/-- An execution splits where its labels do, by induction on it. -/
theorem Execution.split {later : List ι} (run : Execution step start (labels ++ later) state)
    : ∃ middle, Execution step start labels middle ∧ Execution step middle later state := by
  generalize same : labels ++ later = whole at run
  induction run generalizing later with
  | start =>
      obtain ⟨rfl, rfl⟩ := List.append_eq_nil_iff.mp same
      exact ⟨start, .start, .start⟩
  | @snoc before middle label next earlier taken ih =>
      rcases List.eq_nil_or_concat later with rfl | ⟨front, last, rfl⟩
      · rw [List.append_nil] at same
        subst same
        exact ⟨next, earlier.snoc taken, .start⟩
      · rw [List.concat_eq_append, ← List.append_assoc] at same
        obtain ⟨rfl, rfl⟩ := List.append_singleton_inj.mp same
        obtain ⟨between, first, second⟩ := ih rfl
        rw [List.concat_eq_append]
        exact ⟨between, first, second.snoc taken⟩

/-- An execution after its first step. -/
theorem Execution.uncons {label : ι} {later : List ι}
    (run : Execution step start (label :: later) state)
    : ∃ middle, step start label middle ∧ Execution step middle later state := by
  have parts : Execution step start ([label] ++ later) state := run
  obtain ⟨middle, first, second⟩ := parts.split
  generalize same : [label] = labels at first
  cases first with
  | start => simp at same
  | @snoc labels _ _ _ earlier taken =>
      have alone : [] ++ [label] = labels ++ [_] := same
      obtain ⟨rfl, rfl⟩ := List.append_singleton_inj.mp alone
      obtain rfl := earlier.of_nil
      exact ⟨middle, taken, second⟩

/-- What one part of a system sees of an execution is an execution of that part, where each
step shows it a step of its own or changes nothing of it; witness: induction on the execution.
-/
theorem Execution.project {σ' ι' : Type} {step' : σ' → ι' → σ' → Prop} (view : σ → σ')
    (shown : ι → Option ι')
    (part
      : ∀ state label next,
          step state label next
          → (∃ label', shown label = some label' ∧ step' (view state) label' (view next))
            ∨ shown label = none ∧ view next = view state)
    (run : Execution step start labels state)
    : Execution step' (view start) (labels.filterMap shown) (view state) := by
  induction run with
  | start => exact .start
  | @snoc labels before label after earlier taken ih =>
      rw [List.filterMap_append]
      rcases part _ _ _ taken with ⟨label', shows, taken'⟩ | ⟨hides, same⟩
      · simpa [List.filterMap_cons, shows] using ih.snoc taken'
      · simpa [List.filterMap_cons, hides, same] using ih

/-- One part of a system runs where each step of the system is some steps of that part; witness:
induction on the execution.
-/
theorem Execution.unroll {σ' ι' : Type} {step' : σ' → ι' → σ' → Prop} (view : σ → σ')
    (shown : ι → List ι')
    (part
      : ∀ state label next,
          step state label next → Execution step' (view state) (shown label) (view next))
    (run : Execution step start labels state)
    : Execution step' (view start) (labels.flatMap shown) (view state) := by
  induction run with
  | start => exact .start
  | snoc earlier taken ih =>
      rw [List.flatMap_append, List.flatMap_singleton]
      exact ih.trans (part _ _ _ taken)

/-- Steps whose labels carry what is observed of the state before them. -/
def Stamped {τ : Type} (stamp : σ → τ) (step : σ → ι → σ → Prop) (state : σ) (label : τ × ι)
    (next : σ)
    : Prop :=
  label.1 = stamp state ∧ step state label.2 next

/-- A stamped execution is an execution, by induction on it. -/
theorem Execution.unstamped {τ : Type} {stamp : σ → τ} {labels : List (τ × ι)}
    (run : Execution (Stamped stamp step) start labels state)
    : Execution step start (labels.map Prod.snd) state := by
  induction run with
  | start => exact .start
  | snoc earlier taken ih =>
      rw [List.map_append]
      exact ih.snoc taken.2

/-- Every execution can be stamped, by induction on it. -/
theorem Execution.stamped {τ : Type} (stamp : σ → τ) (run : Execution step start labels state)
    : ∃ stamped : List (τ × ι),
        stamped.map Prod.snd = labels ∧ Execution (Stamped stamp step) start stamped state := by
  induction run with
  | start => exact ⟨[], rfl, .start⟩
  | @snoc labels before label after earlier taken ih =>
      obtain ⟨stamped, rfl, run⟩ := ih
      exact ⟨stamped ++ [(stamp before, label)], by simp, run.snoc ⟨rfl, taken⟩⟩

end Foundation
