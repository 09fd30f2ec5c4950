import SharedKernel.Foundation.Run

/-! How many operations of a kind a program performs at most, however they are answered. -/

namespace Foundation

variable {F : Signature} {ε α β : Type} {counted : F.Op → Bool}

/-- Every run of the program performs at most `budget` counted operations. -/
def AtMost (counted : F.Op → Bool) : Nat → Program F ε α → Prop
  | _, .done _ | _, .fail _ => True
  | budget, .await op resume =>
      if counted op then
        ∃ left, budget = left + 1 ∧ ∀ reply, AtMost counted left (resume reply)
      else ∀ reply, AtMost counted budget (resume reply)

/-- A larger budget is enough too, by induction on the program. -/
theorem AtMost.mono {program : Program F ε α} {budget more : Nat}
    (within : AtMost counted budget program) (enough : budget ≤ more)
    : AtMost counted more program := by
  induction program generalizing budget more with
  | done value => trivial
  | fail error => trivial
  | await op resume ih =>
      rw [AtMost] at within ⊢
      split
      · rename_i counts
        rw [if_pos counts] at within
        obtain ⟨left, rfl, later⟩ := within
        exact ⟨more - 1, by omega, fun reply => ih reply (later reply) (by omega)⟩
      · rename_i skips
        rw [if_neg skips] at within
        exact fun reply => ih reply (within reply) enough

/-- The budgets of composed programs add up, by induction on the first. -/
theorem AtMost.bind {first : Program F ε α} {next : α → Program F ε β} {budget later : Nat}
    (within : AtMost counted budget first) (continues : ∀ value, AtMost counted later (next value))
    : AtMost counted (budget + later) (first.bind next) := by
  induction first generalizing budget with
  | done value => exact (continues value).mono (Nat.le_add_left ..)
  | fail error => trivial
  | await op resume ih =>
      rw [Program.await_bind]
      rw [AtMost] at within ⊢
      split
      · rename_i counts
        rw [if_pos counts] at within
        obtain ⟨left, rfl, rest⟩ := within
        exact ⟨left + later, by omega, fun reply => ih reply (rest reply)⟩
      · rename_i skips
        rw [if_neg skips] at within
        exact fun reply => ih reply (within reply)

/-- So do those of a program and its recovery. -/
theorem AtMost.handle {body : Program F ε α} {recover : ε → Program F ε α} {budget later : Nat}
    (within : AtMost counted budget body)
    (recovers : ∀ error, AtMost counted later (recover error))
    : AtMost counted (budget + later) (body.handle recover) := by
  induction body generalizing budget with
  | done value => trivial
  | fail error => exact (recovers error).mono (Nat.le_add_left ..)
  | await op resume ih =>
      rw [Program.await_handle]
      rw [AtMost] at within ⊢
      split
      · rename_i counts
        rw [if_pos counts] at within
        obtain ⟨left, rfl, rest⟩ := within
        exact ⟨left + later, by omega, fun reply => ih reply (rest reply)⟩
      · rename_i skips
        rw [if_neg skips] at within
        exact fun reply => ih reply (within reply)

/-- A program that performs no counted operation needs no budget, by induction on it. -/
theorem Uses.atMost {program : Program F ε α}
    (uses : Uses (fun op => counted op = false) program)
    : AtMost counted 0 program := by
  induction program with
  | done value => trivial
  | fail error => trivial
  | await op resume ih =>
      rw [AtMost, if_neg (by simp [uses.1])]
      exact fun reply => ih reply (uses.2 reply)

/-- A run performs no more counted operations than its program's budget, by induction on it. -/
theorem AtMost.of_run {program rest : Program F ε α} {events : List (Event F)} {budget : Nat}
    (within : AtMost counted budget program) (run : Run program events rest)
    : events.countP (fun event => counted event.op) ≤ budget := by
  induction run generalizing budget with
  | refl _ => exact Nat.zero_le _
  | step reply _ ih =>
      rw [AtMost] at within
      split at within
      · rename_i counts
        obtain ⟨left, rfl, later⟩ := within
        simpa [List.countP_cons, counts] using ih (later reply)
      · rename_i skips
        simpa [List.countP_cons, skips] using ih (within reply)

end Foundation
