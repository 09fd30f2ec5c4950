import SharedKernel.Foundation.Run

/-! Programs that go on in the same way after replies of one kind: a run of such a program
stays a run when these replies are exchanged.
-/

namespace Foundation

variable {F : Signature} {ε α β : Type}

/-- After two replies that are `alike` the program is the same, wherever it awaits them. -/
def Indifferent (alike : (op : F.Op) → F.Reply op → F.Reply op → Prop) : Program F ε α → Prop
  | .done _ | .fail _ => True
  | .await op resume =>
      (∀ reply other, alike op reply other → resume reply = resume other)
      ∧ ∀ reply, Indifferent alike (resume reply)

/-- One event with its reply exchanged for one that is alike. -/
inductive Exchanged (alike : (op : F.Op) → F.Reply op → F.Reply op → Prop)
    : Event F → Event F → Prop
  | intro (op : F.Op) {reply other : F.Reply op} (same : alike op reply other)
    : Exchanged alike ⟨op, reply⟩ ⟨op, other⟩

section Indifferent

variable {alike : (op : F.Op) → F.Reply op → F.Reply op → Prop}

theorem Indifferent.bind {first : Program F ε α} {next : α → Program F ε β}
    (indifferent : Indifferent alike first) (later : ∀ value, Indifferent alike (next value))
    : Indifferent alike (first.bind next) := by
  induction first with
  | done value => exact later value
  | fail error => trivial
  | await op resume ih =>
      refine ⟨fun reply other same => ?_, fun reply => ih reply (indifferent.2 reply)⟩
      exact congrArg (·.bind next) (indifferent.1 reply other same)

theorem Indifferent.handle {body : Program F ε α} {recover : ε → Program F ε α}
    (indifferent : Indifferent alike body) (later : ∀ error, Indifferent alike (recover error))
    : Indifferent alike (body.handle recover) := by
  induction body with
  | done value => trivial
  | fail error => exact later error
  | await op resume ih =>
      refine ⟨fun reply other same => ?_, fun reply => ih reply (indifferent.2 reply)⟩
      exact congrArg (·.handle recover) (indifferent.1 reply other same)

theorem Indifferent.settle (settled : Except ε α)
    : Indifferent alike (.settle settled : Program F ε α) := by
  cases settled <;> trivial

/-- An indifferent program ends in the same way when replies are exchanged for replies that
are alike; witness: induction on the program.
-/
theorem Indifferent.finishes {program : Program F ε α} {events others : List (Event F)}
    {outcome : Except ε α} (indifferent : Indifferent alike program)
    (exchanged : List.Forall₂ (Exchanged alike) events others)
    (run : Finishes program events outcome)
    : Finishes program others outcome := by
  induction program generalizing events others with
  | done value =>
      obtain ⟨rfl, rfl⟩ := (finishes_done ..).mp run
      cases exchanged
      exact run
  | fail error =>
      obtain ⟨rfl, rfl⟩ := (finishes_fail ..).mp run
      cases exchanged
      exact run
  | await op resume ih =>
      obtain ⟨reply, rest, rfl, later⟩ := (finishes_await ..).mp run
      cases exchanged with
      | cons head tail =>
          cases head with
          | intro _ same =>
              rename_i other
              rw [indifferent.1 reply other same] at later
              exact (finishes_await ..).mpr
                ⟨other, _, rfl, ih other (indifferent.2 other) tail later⟩

end Indifferent
end Foundation
