import Mathlib.Data.List.Induction
import SharedKernel.Foundation.Program

/-! Runs of effectful programs and a logic of histories for them. A run records every
operation with its reply, so a crash is simply a run that stops early.
-/

namespace Foundation

variable {F : Signature} {ε α β : Type}

-----------------------------------------------------------------------------------------
-- Runs
-----------------------------------------------------------------------------------------

/-- Replying with `events` in order takes the first program to the second. -/
inductive Run : Program F ε α → List (Event F) → Program F ε α → Prop
  | refl (program : Program F ε α) : Run program [] program
  | step {op resume events rest} (reply : F.Reply op)
    (later : Run (resume reply) events rest)
    : Run (.await op resume) (⟨op, reply⟩ :: events) rest

/-- The program runs to its end, leaving exactly `outcome`. -/
def Finishes (program : Program F ε α) (events : List (Event F)) (outcome : Except ε α)
    : Prop :=
  Run program events (.settle outcome)

/-- Consecutive runs compose, by induction on the first. -/
theorem Run.trans {first middle last : Program F ε α} {head tail : List (Event F)}
    (hl : Run first head middle) (hr : Run middle tail last)
    : Run first (head ++ tail) last := by
  induction hl with
  | refl _ => exact hr
  | step reply _ ih => exact .step reply (ih hr)

/-- A run extends by the reply to the operation it stopped at. -/
theorem Run.snoc {first : Program F ε α} {events : List (Event F)} {op resume}
    (run : Run first events (.await op resume)) (reply : F.Reply op)
    : Run first (events ++ [⟨op, reply⟩]) (resume reply) :=
  run.trans (.step reply (.refl _))

/-- A run of a longer history passes through the program left after any prefix of it;
witness: induction on the prefix, inverting the run at each event.
-/
theorem Run.split {first last : Program F ε α} {head tail : List (Event F)}
    (run : Run first (head ++ tail) last)
    : ∃ middle, Run first head middle ∧ Run middle tail last := by
  induction head generalizing first with
  | nil => exact ⟨first, .refl _, run⟩
  | cons event rest ih =>
      cases run with
      | step reply later =>
          obtain ⟨middle, before, after⟩ := ih later
          exact ⟨middle, .step reply before, after⟩

/-- At each event of a run the program was awaiting exactly that operation. -/
theorem Run.awaiting {first last : Program F ε α} {head tail : List (Event F)}
    {event : Event F} (run : Run first (head ++ event :: tail) last)
    : ∃ resume,
        Run first head (.await event.op resume)
        ∧ Run (resume event.reply) tail last := by
  obtain ⟨middle, before, after⟩ := run.split
  cases after with
  | step reply later => exact ⟨_, before, later⟩

/-- Where every operation can be answered, every program has a complete run, by induction on
the program.
-/
theorem exists_finishes (answer : ∀ op, F.Reply op) (program : Program F ε α)
    : ∃ events outcome, Finishes program events outcome := by
  induction program with
  | done value => exact ⟨[], .ok value, .refl _⟩
  | fail error => exact ⟨[], .error error, .refl _⟩
  | await op resume ih =>
      obtain ⟨events, outcome, run⟩ := ih (answer op)
      exact ⟨⟨op, answer op⟩ :: events, outcome, .step (answer op) run⟩

/-- A run that has got somewhere can be completed. -/
theorem Run.completes {program rest : Program F ε α} {events : List (Event F)}
    (run : Run program events rest) (answer : ∀ op, F.Reply op)
    : ∃ more outcome, Finishes program (events ++ more) outcome := by
  obtain ⟨more, outcome, later⟩ := exists_finishes answer rest
  exact ⟨more, outcome, run.trans later⟩

-----------------------------------------------------------------------------------------
-- Complete runs of composed programs
-----------------------------------------------------------------------------------------

@[simp] theorem finishes_done (value : α) (events : List (Event F)) (outcome : Except ε α)
    : Finishes (.done value) events outcome ↔ events = [] ∧ outcome = .ok value := by
  constructor
  · intro run
    cases outcome <;> cases run
    exact ⟨rfl, rfl⟩
  · intro same
    obtain ⟨rfl, rfl⟩ := same
    exact .refl _

@[simp] theorem finishes_fail (error : ε) (events : List (Event F))
    (outcome : Except ε α)
    : Finishes (.fail error) events outcome ↔ events = [] ∧ outcome = .error error := by
  constructor
  · intro run
    cases outcome <;> cases run
    exact ⟨rfl, rfl⟩
  · intro same
    obtain ⟨rfl, rfl⟩ := same
    exact .refl _

@[simp] theorem finishes_await (op : F.Op) (resume : F.Reply op → Program F ε α)
    (events : List (Event F)) (outcome : Except ε α)
    : Finishes (.await op resume) events outcome
      ↔ ∃ reply rest,
          events = ⟨op, reply⟩ :: rest ∧ Finishes (resume reply) rest outcome := by
  constructor
  · intro run
    cases outcome <;>
      · cases run with
        | step reply later => exact ⟨reply, _, rfl, later⟩
  · intro stepped
    obtain ⟨reply, rest, rfl, later⟩ := stepped
    exact .step reply later

@[simp] theorem finishes_settle (settled outcome : Except ε α) (events : List (Event F))
    : Finishes (.settle settled) events outcome ↔ events = [] ∧ outcome = settled := by
  cases settled <;> simp [Program.settle]

/-- A program ends at one point of a history only, and in one way; witness: induction on the
program.
-/
theorem Finishes.cancel {program : Program F ε α} {head head' tail tail' : List (Event F)}
    {outcome outcome' : Except ε α} (run : Finishes program head outcome)
    (run' : Finishes program head' outcome') (same : head ++ tail = head' ++ tail')
    : head = head' ∧ outcome = outcome' ∧ tail = tail' := by
  induction program generalizing head head' with
  | done value =>
      obtain ⟨rfl, rfl⟩ := (finishes_done ..).mp run
      obtain ⟨rfl, rfl⟩ := (finishes_done ..).mp run'
      exact ⟨rfl, rfl, same⟩
  | fail error =>
      obtain ⟨rfl, rfl⟩ := (finishes_fail ..).mp run
      obtain ⟨rfl, rfl⟩ := (finishes_fail ..).mp run'
      exact ⟨rfl, rfl, same⟩
  | await op resume ih =>
      obtain ⟨reply, rest, rfl, later⟩ := (finishes_await ..).mp run
      obtain ⟨reply', rest', rfl, later'⟩ := (finishes_await ..).mp run'
      obtain ⟨first, others⟩ := List.cons.inj same
      cases first
      obtain ⟨rfl, rfl, rfl⟩ := ih reply later later' others
      exact ⟨rfl, rfl, rfl⟩

/-- A sequence fails in its first part, or finishes it and runs on from its value; witness:
induction on the first program.
-/
theorem finishes_bind (first : Program F ε α) (next : α → Program F ε β)
    (events : List (Event F)) (outcome : Except ε β)
    : Finishes (first.bind next) events outcome
      ↔ (∃ error, outcome = .error error ∧ Finishes first events (.error error))
        ∨ ∃ value head tail,
            events = head ++ tail
            ∧ Finishes first head (.ok value)
            ∧ Finishes (next value) tail outcome := by
  induction first generalizing events with
  | done value => simp
  | fail error => simp [and_comm]
  | await op resume ih =>
      simp only [Program.await_bind, finishes_await, ih]
      constructor
      · intro stepped
        rcases stepped with
          ⟨reply, rest, rfl, ⟨error, rfl, failed⟩ | ⟨value, head, tail, rfl, run, later⟩⟩
        · exact Or.inl ⟨error, rfl, reply, rest, rfl, failed⟩
        · exact Or.inr ⟨value, ⟨op, reply⟩ :: head, tail, rfl, ⟨reply, head, rfl, run⟩, later⟩
      · rintro (⟨error, rfl, reply, rest, rfl, failed⟩ |
          ⟨value, _, tail, rfl, ⟨reply, head, rfl, run⟩, later⟩)
        · exact ⟨reply, rest, rfl, Or.inl ⟨error, rfl, failed⟩⟩
        · exact ⟨reply, head ++ tail, rfl, Or.inr ⟨value, head, tail, rfl, run, later⟩⟩

/-- A guarded program finishes in its body, or fails there and runs the recovery on from
the error; witness: induction on the body.
-/
theorem finishes_handle (body : Program F ε α) (recover : ε → Program F ε α)
    (events : List (Event F)) (outcome : Except ε α)
    : Finishes (body.handle recover) events outcome
      ↔ (∃ value, outcome = .ok value ∧ Finishes body events (.ok value))
        ∨ ∃ error head tail,
            events = head ++ tail
            ∧ Finishes body head (.error error)
            ∧ Finishes (recover error) tail outcome := by
  induction body generalizing events with
  | done value => simp [and_comm]
  | fail error => simp
  | await op resume ih =>
      simp only [Program.await_handle, finishes_await, ih]
      constructor
      · intro stepped
        rcases stepped with
          ⟨reply, rest, rfl, ⟨value, rfl, run⟩ | ⟨error, head, tail, rfl, failed, later⟩⟩
        · exact Or.inl ⟨value, rfl, reply, rest, rfl, run⟩
        · exact Or.inr ⟨error, ⟨op, reply⟩ :: head, tail, rfl, ⟨reply, head, rfl, failed⟩, later⟩
      · rintro (⟨value, rfl, reply, rest, rfl, run⟩ |
          ⟨error, _, tail, rfl, ⟨reply, head, rfl, failed⟩, later⟩)
        · exact ⟨reply, rest, rfl, Or.inl ⟨value, rfl, run⟩⟩
        · exact ⟨reply, head ++ tail, rfl, Or.inr ⟨error, head, tail, rfl, failed, later⟩⟩

/-- A complete run of a sequence begins with a complete run of its first part. -/
theorem Finishes.bind_first {first : Program F ε α} {next : α → Program F ε β}
    {events : List (Event F)} {outcome : Except ε β}
    (run : Finishes (first.bind next) events outcome)
    : ∃ head tail ended, events = head ++ tail ∧ Finishes first head ended := by
  rcases (finishes_bind ..).mp run with ⟨_, _, failed⟩ | ⟨_, head, tail, rfl, first, _⟩
  · exact ⟨events, [], _, (List.append_nil _).symm, failed⟩
  · exact ⟨head, tail, _, rfl, first⟩

/-- A complete run of a guarded program begins with a complete run of its body. -/
theorem Finishes.handle_first {body : Program F ε α} {recover : ε → Program F ε α}
    {events : List (Event F)} {outcome : Except ε α}
    (run : Finishes (body.handle recover) events outcome)
    : ∃ head tail ended, events = head ++ tail ∧ Finishes body head ended := by
  rcases (finishes_handle ..).mp run with ⟨_, _, ended⟩ | ⟨_, head, tail, rfl, failed, _⟩
  · exact ⟨events, [], _, (List.append_nil _).symm, ended⟩
  · exact ⟨head, tail, _, rfl, failed⟩

/-- An attempt never fails; it returns how the program ended, by induction on the program. -/
theorem finishes_attempt (program : Program F ε α) (events : List (Event F))
    (outcome : Except ε (Except ε α))
    : Finishes program.attempt events outcome
      ↔ ∃ ended, outcome = .ok ended ∧ Finishes program events ended := by
  induction program generalizing events with
  | done value => simp [Program.attempt, and_comm]
  | fail error => simp [Program.attempt, and_comm]
  | await op resume ih =>
      simp only [Program.attempt, finishes_await, ih]
      constructor
      · intro stepped
        obtain ⟨reply, rest, rfl, ended, rfl, run⟩ := stepped
        exact ⟨ended, rfl, reply, rest, rfl, run⟩
      · intro stepped
        obtain ⟨ended, rfl, reply, rest, rfl, run⟩ := stepped
        exact ⟨reply, rest, rfl, ended, rfl, run⟩

-----------------------------------------------------------------------------------------
-- The operations a program can await
-----------------------------------------------------------------------------------------

/-- Every operation the program can ever await is `allowed`. -/
def Uses (allowed : F.Op → Prop) : Program F ε α → Prop
  | .done _ | .fail _ => True
  | .await op resume => allowed op ∧ ∀ reply, Uses allowed (resume reply)

section Uses

variable {allowed : F.Op → Prop}

theorem Uses.bind {first : Program F ε α} {next : α → Program F ε β}
    (uses : Uses allowed first) (later : ∀ value, Uses allowed (next value))
    : Uses allowed (first.bind next) := by
  induction first with
  | done value => exact later value
  | fail error => trivial
  | await op resume ih => exact ⟨uses.1, fun reply => ih reply (uses.2 reply)⟩

theorem Uses.handle {body : Program F ε α} {recover : ε → Program F ε α}
    (uses : Uses allowed body) (later : ∀ error, Uses allowed (recover error))
    : Uses allowed (body.handle recover) := by
  induction body with
  | done value => trivial
  | fail error => exact later error
  | await op resume ih => exact ⟨uses.1, fun reply => ih reply (uses.2 reply)⟩

theorem Uses.settle (settled : Except ε α) : Uses allowed (.settle settled) := by
  cases settled <;> trivial

theorem Uses.translate {G : Signature} {permitted : G.Op → Prop}
    {via : (op : F.Op) → Program G ε (F.Reply op)}
    (uses : ∀ op, Uses permitted (via op)) (program : Program F ε α)
    : Uses permitted (program.translate via) := by
  induction program with
  | done value => trivial
  | fail error => trivial
  | await op resume ih => exact (uses op).bind (fun reply => ih reply)

/-- Every event of a run is of an allowed operation, by induction on the run. -/
theorem Uses.of_run {program rest : Program F ε α} {events : List (Event F)}
    (uses : Uses allowed program) (run : Run program events rest)
    : ∀ event ∈ events, allowed event.op := by
  induction run with
  | refl _ => simp
  | step reply _ ih =>
      intro event member
      rcases List.mem_cons.mp member with rfl | later
      · exact uses.1
      · exact ih (uses.2 _) event later

/-- What is left after a run awaits allowed operations only, by induction on the run. -/
theorem Uses.rest {program rest : Program F ε α} {events : List (Event F)}
    (uses : Uses allowed program) (run : Run program events rest)
    : Uses allowed rest := by
  induction run with
  | refl _ => exact uses
  | step reply _ ih => exact ih (uses.2 reply)

end Uses

-----------------------------------------------------------------------------------------
-- A logic of histories
-----------------------------------------------------------------------------------------

/-- Starting from `history`, every operation the program ever awaits meets `guard` at the
history before it, and every outcome meets `post` at the whole history.
-/
def Safe (guard : List (Event F) → F.Op → Prop)
    (post : List (Event F) → Except ε α → Prop)
    : List (Event F) → Program F ε α → Prop
  | history, .done value => post history (.ok value)
  | history, .fail error => post history (.error error)
  | history, .await op resume =>
      guard history op
      ∧ ∀ reply, Safe guard post (history ++ [⟨op, reply⟩]) (resume reply)

variable {guard : List (Event F) → F.Op → Prop}
  {post : List (Event F) → Except ε α → Prop} {history : List (Event F)}

@[simp] theorem safe_done (value : α)
    : Safe guard post history (.done value) ↔ post history (.ok value) :=
  Iff.rfl

@[simp] theorem safe_fail (error : ε)
    : Safe guard post history (.fail error) ↔ post history (.error error) :=
  Iff.rfl

@[simp] theorem safe_await (op : F.Op) (resume : F.Reply op → Program F ε α)
    : Safe guard post history (.await op resume)
      ↔ guard history op
        ∧ ∀ reply, Safe guard post (history ++ [⟨op, reply⟩]) (resume reply) :=
  Iff.rfl

/-- Sequencing verifies the continuation where the first program finishes, by induction
on the first program.
-/
theorem safe_bind {post : List (Event F) → Except ε β → Prop}
    (first : Program F ε α) (next : α → Program F ε β)
    : Safe guard post history (first.bind next)
      ↔ Safe guard
          (fun later outcome =>
            match outcome with
            | .ok value => Safe guard post later (next value)
            | .error error => post later (.error error))
          history first := by
  induction first generalizing history with
  | done value => rfl
  | fail error => rfl
  | await op resume ih => simp only [Program.await_bind, safe_await, ih]

/-- Recovery verifies the handler where the body fails, by induction on the body. -/
theorem safe_handle (body : Program F ε α) (recover : ε → Program F ε α)
    : Safe guard post history (body.handle recover)
      ↔ Safe guard
          (fun later outcome =>
            match outcome with
            | .ok value => post later (.ok value)
            | .error error => Safe guard post later (recover error))
          history body := by
  induction body generalizing history with
  | done value => rfl
  | fail error => rfl
  | await op resume ih => simp only [Program.await_handle, safe_await, ih]

/-- Verification is monotone in the guard and the postcondition, which are only needed at
extensions of the starting history.
-/
theorem Safe.mono {guard' : List (Event F) → F.Op → Prop}
    {post' : List (Event F) → Except ε α → Prop} {program : Program F ε α}
    (safe : Safe guard post history program)
    (weaker : ∀ later op, guard (history ++ later) op → guard' (history ++ later) op)
    (entails
      : ∀ later outcome, post (history ++ later) outcome → post' (history ++ later) outcome)
    : Safe guard' post' history program := by
  induction program generalizing history with
  | done value => simpa using entails [] (.ok value) (by simpa using safe)
  | fail error => simpa using entails [] (.error error) (by simpa using safe)
  | await op resume ih =>
      refine ⟨by simpa using weaker [] op (by simpa using safe.1), fun reply => ?_⟩
      refine ih reply (safe.2 reply) (fun later => ?_) (fun later => ?_)
      · simpa only [List.append_assoc] using weaker ([⟨op, reply⟩] ++ later)
      · simpa only [List.append_assoc] using entails ([⟨op, reply⟩] ++ later)

/-- A first program that finishes only where `reached` holds is followed by one that is
verified from there.
-/
theorem Safe.seq {reached : List (Event F) → Prop} {post : List (Event F) → Except ε β → Prop}
    {first : Program F ε Unit} {next : Unit → Program F ε β}
    (safe : Safe guard (fun later outcome => outcome = .ok () → reached later) history first)
    (continues : ∀ later, reached later → Safe guard post later (next ()))
    (failed : ∀ later error, post later (.error error))
    : Safe guard post history (first.bind next) := by
  rw [safe_bind]
  apply safe.mono (fun _ _ met => met)
  intro later outcome finished
  cases outcome with
  | error error => exact failed _ error
  | ok _ => exact continues _ (finished rfl)

/-- A first program that never fails is followed by one that is verified where it finishes. -/
theorem Safe.andThen {reached : List (Event F) → Prop}
    {post : List (Event F) → Except ε β → Prop} {first : Program F ε Unit}
    {next : Unit → Program F ε β}
    (safe : Safe guard (fun later outcome => outcome = .ok () ∧ reached later) history first)
    (continues : ∀ later, reached later → Safe guard post later (next ()))
    : Safe guard post history (first.bind next) := by
  rw [safe_bind]
  apply safe.mono (fun _ _ met => met)
  rintro later outcome ⟨rfl, met⟩
  exact continues _ met

/-- Verification carries along a run, by induction on the run. -/
theorem Safe.run {program rest : Program F ε α} {events : List (Event F)}
    (safe : Safe guard post history program) (run : Run program events rest)
    : Safe guard post (history ++ events) rest := by
  induction run generalizing history with
  | refl _ => simpa using safe
  | step reply _ ih =>
      simpa only [List.append_assoc, List.singleton_append] using ih (safe.2 reply)

/-- An operation awaited during a verified run meets the guard at the history before it. -/
theorem Safe.guarded {program : Program F ε α} {events : List (Event F)} {op resume}
    (safe : Safe guard post history program)
    (run : Run program events (.await op resume))
    : guard (history ++ events) op :=
  (safe.run run).1

/-- The outcome of a verified program meets the postcondition at its whole history. -/
theorem Safe.outcome {program : Program F ε α} {events : List (Event F)}
    {outcome : Except ε α}
    (safe : Safe guard post history program) (run : Finishes program events outcome)
    : post (history ++ events) outcome := by
  have settled := safe.run run
  cases outcome with
  | ok value => exact settled
  | error error => exact settled

/-- A postcondition of every complete run joins a verified guard, by induction on the
program.
-/
theorem Safe.and_finishes {program : Program F ε α}
    (safe : Safe guard (fun _ _ => True) history program)
    (ends : ∀ events outcome, Finishes program events outcome → post (history ++ events) outcome)
    : Safe guard post history program := by
  induction program generalizing history with
  | done value => simpa using ends [] (.ok value) (.refl _)
  | fail error => simpa using ends [] (.error error) (.refl _)
  | await op resume ih =>
      refine ⟨safe.1, fun reply => ih reply (safe.2 reply) (fun events outcome run => ?_)⟩
      simpa using ends (⟨op, reply⟩ :: events) outcome (.step reply run)

/-- A program whose operations are always guarded is verified, and its outcome comes with the
complete run that led to it; witness: induction on the program.
-/
theorem Uses.safe {allowed : F.Op → Prop} {program : Program F ε α}
    (uses : Uses allowed program)
    (guarded : ∀ later op, allowed op → guard (history ++ later) op)
    : Safe guard
        (fun later outcome =>
          ∃ events, later = history ++ events ∧ Finishes program events outcome)
        history program := by
  apply Safe.and_finishes
  · induction program generalizing history with
    | done value => trivial
    | fail error => trivial
    | await op resume ih =>
        refine ⟨by simpa using guarded [] op uses.1, fun reply => ih reply (uses.2 reply) ?_⟩
        intro later other allows
        simpa using guarded (⟨op, reply⟩ :: later) other allows
  · intro events outcome run
    exact ⟨events, rfl, run⟩

-----------------------------------------------------------------------------------------
-- Laws of histories
-----------------------------------------------------------------------------------------

/-- Every event of a history meets `law` at the events before it. -/
def Throughout {δ : Type} (law : List δ → δ → Prop) (events : List δ) : Prop :=
  ∀ ⦃before event after⦄, events = before ++ event :: after → law before event

@[simp] theorem throughout_nil {δ : Type} (law : List δ → δ → Prop) : Throughout law [] := by
  intro before event after absurd
  simp at absurd

/-- A law holds of an extended history where it holds of the history and of its last event;
witness: the event asked about lies in the history or is the last one.
-/
theorem throughout_snoc {δ : Type} (law : List δ → δ → Prop) (events : List δ) (last : δ)
    : Throughout law (events ++ [last]) ↔ Throughout law events ∧ law events last := by
  constructor
  · intro holds
    refine ⟨?_, @holds events last [] rfl⟩
    intro before event after split
    subst split
    exact @holds before event (after ++ [last]) (by simp)
  · rintro ⟨holds, met⟩ before event after split
    rcases List.eq_nil_or_concat after with rfl | ⟨init, final, rfl⟩
    · obtain ⟨rfl, same⟩ := List.append_inj' split rfl
      obtain rfl : last = event := by simpa using same
      exact met
    · rw [List.concat_eq_append, ← List.cons_append, ← List.append_assoc] at split
      obtain ⟨rfl, -⟩ := List.append_inj' split rfl
      exact holds rfl

/-- A law holds of joined histories where it holds of the first, and of the second after
the first; witness: induction on the second history from its end.
-/
theorem throughout_append {δ : Type} (law : List δ → δ → Prop) (head tail : List δ)
    : Throughout law (head ++ tail)
      ↔ Throughout law head
        ∧ Throughout (fun before => law (head ++ before)) tail := by
  induction tail using List.reverseRecOn with
  | nil => simp
  | append_singleton init last ih =>
      rw [← List.append_assoc, throughout_snoc, throughout_snoc, ih, and_assoc]

@[simp] theorem throughout_cons {δ : Type} (law : List δ → δ → Prop) (first : δ)
    (rest : List δ)
    : Throughout law (first :: rest)
      ↔ law [] first ∧ Throughout (fun before => law (first :: before)) rest := by
  have joined := throughout_append law [first] rest
  have single := throughout_snoc law [] first
  simp only [List.singleton_append, List.nil_append, throughout_nil, true_and] at joined single
  rw [joined, single]

theorem Throughout.mono {δ : Type} {law law' : List δ → δ → Prop} {events : List δ}
    (holds : Throughout law events) (weaker : ∀ before event, law before event → law' before event)
    : Throughout law' events :=
  fun _ _ _ split => weaker _ _ (holds split)

/-- The guard of a verified program is a law of each of its runs. -/
theorem Safe.throughout {program rest : Program F ε α} {events : List (Event F)}
    (safe : Safe guard post history program) (run : Run program events rest)
    : Throughout (fun before event => guard (history ++ before) event.op) events := by
  intro before event after split
  subst split
  obtain ⟨resume, reached, _⟩ := run.awaiting
  exact safe.guarded reached

-----------------------------------------------------------------------------------------
-- Running against an answering environment
-----------------------------------------------------------------------------------------

/-- Run a program to its end against an environment with state `σ` answering each
operation; the events are those of the run, in order.
-/
def execute {σ : Type} (answer : σ → (op : F.Op) → F.Reply op × σ)
    : σ → Program F ε α → List (Event F) × Except ε α × σ
  | state, .done value => ([], .ok value, state)
  | state, .fail error => ([], .error error, state)
  | state, .await op resume =>
      let (reply, next) := answer state op
      let (events, outcome, final) := execute answer next (resume reply)
      (⟨op, reply⟩ :: events, outcome, final)

/-- An execution is a complete run, by induction on the program. -/
theorem execute_finishes {σ : Type} (answer : σ → (op : F.Op) → F.Reply op × σ)
    (state : σ) (program : Program F ε α)
    : Finishes program (execute answer state program).1
        (execute answer state program).2.1 := by
  induction program generalizing state with
  | done value => exact .refl _
  | fail error => exact .refl _
  | await op resume ih => exact .step _ (ih _ _)

/-- Every reply in an execution is one of the environment, by induction on the program. -/
theorem execute_answers {σ : Type} (answer : σ → (op : F.Op) → F.Reply op × σ)
    (state : σ) (program : Program F ε α)
    : ∀ event ∈ (execute answer state program).1,
        ∃ earlier, event.reply = (answer earlier event.op).1 := by
  induction program generalizing state with
  | done value => simp [execute]
  | fail error => simp [execute]
  | await op resume ih =>
      intro event member
      rcases List.mem_cons.mp member with rfl | later
      · exact ⟨state, rfl⟩
      · exact ih _ _ event later

/-- An environment that gives the replies of a complete run, in a state that does not change,
executes that run; witness: induction on the program.
-/
theorem execute_of_finishes {σ : Type} {answer : σ → (op : F.Op) → F.Reply op × σ}
    {state : σ} {program : Program F ε α} {events : List (Event F)} {outcome : Except ε α}
    (run : Finishes program events outcome)
    (answers : ∀ event ∈ events, answer state event.op = (event.reply, state))
    : execute answer state program = (events, outcome, state) := by
  induction program generalizing events with
  | done value =>
      obtain ⟨rfl, rfl⟩ := (finishes_done ..).mp run
      rfl
  | fail error =>
      obtain ⟨rfl, rfl⟩ := (finishes_fail ..).mp run
      rfl
  | await op resume ih =>
      obtain ⟨reply, rest, rfl, later⟩ := (finishes_await ..).mp run
      have first := answers ⟨op, reply⟩ (List.mem_cons_self ..)
      have others := ih reply later
        (fun event member => answers event (List.mem_cons_of_mem _ member))
      simp only [execute, first, others]

end Foundation
