import SharedKernel.Js.JsonRoundTrip
import SharedKernel.Messaging.PoisonPill

/-! No bad message stalls a partition: which messages, and which behaviours of a handler, are
followed by the commit of the message's offset.
-/

namespace SharedKernel.Messaging

open Foundation Js Tracing

/-- The operation commits an offset. -/
def ConsumerOp.isCommit : ConsumerOp → Bool
  | .commitOffsets _ _ _ => true
  | _ => false

/-- The offsets committed in a history, in order. -/
def commits (history : List ConsumerEvent) : List ConsumerOp :=
  (history.map (·.op)).filter ConsumerOp.isCommit

@[simp] theorem commits_append (head tail : List ConsumerEvent)
    : commits (head ++ tail) = commits head ++ commits tail := by
  simp [commits]

/-- Quiet operations commit nothing. -/
theorem commits_quiet {history : List ConsumerEvent}
    (quiet : ∀ event ∈ history, ResilientEventConsumer.Quiet event.op)
    : commits history = [] := by
  simp only [commits, List.filter_eq_nil_iff, List.mem_map]
  intro op asked
  obtain ⟨event, member, rfl⟩ := asked
  have silent := quiet event member
  cases op : event.op <;> simp_all [ConsumerOp.isCommit, ResilientEventConsumer.Quiet]

/-- The rejection that an event leaves behind: the one of a handler, a retry hook or a
backoff, and none once a handler resolves.
-/
def rejection (before : Option Thrown) : ConsumerEvent → Option Thrown
  | ⟨.handle _ _ _, .ok _⟩ => none
  | ⟨.handle _ _ _, .error err⟩ | ⟨.onRetry _, .error err⟩ | ⟨.sleep _, .error err⟩ => some err
  | _ => before

/-- The last rejection of a history that no later success of a handler has made good. -/
def unrecovered (before : Option Thrown) (history : List ConsumerEvent) : Option Thrown :=
  history.foldl rejection before

@[simp] theorem unrecovered_nil (before : Option Thrown) : unrecovered before [] = before := rfl

@[simp] theorem unrecovered_cons (before : Option Thrown) (event : ConsumerEvent)
    (rest : List ConsumerEvent)
    : unrecovered before (event :: rest) = unrecovered (rejection before event) rest :=
  rfl

@[simp] theorem unrecovered_append (before : Option Thrown) (head tail : List ConsumerEvent)
    : unrecovered before (head ++ tail) = unrecovered (unrecovered before head) tail :=
  List.foldl_append

namespace ResilientEventConsumer

variable {self : ResilientEventConsumer}

/-- An event without a handler is skipped, and one with a handler comes to what its handler
comes to.
-/
theorem finishes_route {router : EventRouter} {context : TraceContext} {event : Json}
    {events : List ConsumerEvent} {outcome : Except Thrown Unit} (before : Option Thrown)
    (run : Finishes (router.route context event) events outcome)
    : router.get? (event.field? "type") = none
        ∧ outcome = .ok ()
        ∧ unrecovered before events = before
      ∨ router.get? (event.field? "type") ≠ none
        ∧ (outcome = .ok () ∧ unrecovered before events = none
          ∨ ∃ err, outcome = .error err ∧ unrecovered before events = some err) := by
  unfold EventRouter.route at run
  cases handler : router.get? (event.field? "type") with
  | none =>
      simp only [handler, callConsumer, Program.perform_eq, finishes_await, finishes_done] at run
      obtain ⟨_, _, rfl, rfl, rfl⟩ := run
      exact Or.inl ⟨rfl, rfl, rfl⟩
  | some eventType =>
      simp only [handler, callConsumer, Program.perform_eq, Program.bind_eq, Program.await_bind,
        Program.done_bind, finishes_await] at run
      obtain ⟨_, _, rfl, handled, _, rfl, run⟩ := run
      refine Or.inr ⟨by simp, ?_⟩
      cases handled with
      | error err =>
          simp only [Program.settle_error, Program.fail_bind, finishes_fail] at run
          obtain ⟨rfl, rfl⟩ := run
          exact Or.inr ⟨err, rfl, rfl⟩
      | ok _ =>
          simp only [Program.settle_ok, Program.done_bind, finishes_await, finishes_done] at run
          obtain ⟨_, _, rfl, rfl, rfl⟩ := run
          exact Or.inl ⟨rfl, rfl⟩

/-- A pause leaves its own rejection behind, or what was there before. -/
theorem finishes_pause {event : Json} {attempt : Nat} {events : List ConsumerEvent}
    {outcome : Except Thrown Unit} (before : Option Thrown)
    (run : Finishes (self.pause event attempt) events outcome)
    : outcome = .ok () ∧ unrecovered before events = before
      ∨ ∃ err, outcome = .error err ∧ unrecovered before events = some err := by
  have rest {events : List ConsumerEvent}
      (run
        : Finishes
            (do
              let _ ← callConsumer (.log .warn "Handler error — retrying")
              Program.settle
                (← callConsumer (.sleep (self.retryBackoffMs.mul (.ofNat (attempt + 1))))))
            events outcome)
      : outcome = .ok () ∧ unrecovered before events = before
        ∨ ∃ err, outcome = .error err ∧ unrecovered before events = some err := by
    simp only [callConsumer, Program.perform_eq, Program.bind_eq, Program.await_bind,
      Program.done_bind, finishes_await, finishes_settle] at run
    obtain ⟨_, _, rfl, slept, _, rfl, rfl, rfl⟩ := run
    cases outcome with
    | ok _ => exact Or.inl ⟨rfl, rfl⟩
    | error err => exact Or.inr ⟨err, rfl, rfl⟩
  unfold pause at run
  split at run
  · simp only [callConsumer, Program.perform_eq, Program.bind_eq, Program.await_bind,
      Program.done_bind, finishes_await] at run
    obtain ⟨hooked, _, rfl, run⟩ := run
    cases hooked with
    | error err =>
        simp only [Program.settle_error, Program.fail_bind, finishes_fail] at run
        obtain ⟨rfl, rfl⟩ := run
        exact Or.inr ⟨err, rfl, rfl⟩
    | ok _ =>
        simp only [Program.settle_ok, Program.done_bind] at run
        have ended := rest run
        exact ended
  · exact rest run

/-- Retrying resolves with no rejection left behind, and fails with the one left behind, or
with undefined where there was no attempt; witness: induction on the attempts left.
-/
theorem finishes_retryFrom_rejection {context : TraceContext} {event : Json}
    {left attempt : Nat} {lastErr : Thrown} {before : Option Thrown}
    {events : List ConsumerEvent} {outcome : Except Thrown Unit}
    (last
      : before = none ∧ lastErr = .undefined
        ∨ before = some lastErr ∧ self.opts.router.get? (event.field? "type") ≠ none)
    (run : Finishes (self.retryFrom context event left attempt lastErr) events outcome)
    : outcome = .ok () ∧ unrecovered before events = none
      ∨ ∃ err,
          outcome = .error err
          ∧ (unrecovered before events = some err
            ∨ unrecovered before events = none ∧ err = .undefined) := by
  induction left generalizing attempt lastErr before events with
  | zero =>
      simp only [retryFrom, Program.throw_eq, finishes_fail] at run
      obtain ⟨rfl, rfl⟩ := run
      rcases last with ⟨rfl, rfl⟩ | ⟨rfl, _⟩
      · exact Or.inr ⟨_, rfl, Or.inr ⟨rfl, rfl⟩⟩
      · exact Or.inr ⟨_, rfl, Or.inl rfl⟩
  | succ left ih =>
      rw [retryFrom, Program.tryCatch_eq, finishes_handle] at run
      rcases run with ⟨_, rfl, routed⟩ | ⟨err, head, tail, rfl, failed, retried⟩
      · rcases finishes_route before routed with
          ⟨unhandled, _, same⟩ | ⟨_, ⟨_, none⟩ | ⟨err, absurd, _⟩⟩
        · rcases last with ⟨rfl, _⟩ | ⟨_, handled⟩
          · exact Or.inl ⟨rfl, same⟩
          · exact (handled unhandled).elim
        · exact Or.inl ⟨rfl, none⟩
        · cases absurd
      · obtain ⟨handled, left_⟩ : self.opts.router.get? (event.field? "type") ≠ none
            ∧ unrecovered before head = some err := by
          rcases finishes_route before failed with
            ⟨_, absurd, _⟩ | ⟨handled, ⟨absurd, _⟩ | ⟨err', same, left⟩⟩
          · cases absurd
          · cases absurd
          · cases same
            exact ⟨handled, left⟩
        rw [unrecovered_append, left_]
        have again : some err = none ∧ err = .undefined
            ∨ some err = some err ∧ self.opts.router.get? (event.field? "type") ≠ none :=
          Or.inr ⟨rfl, handled⟩
        split at retried
        · rw [Program.bind_eq, finishes_bind] at retried
          rcases retried with ⟨failure, rfl, paused⟩ | ⟨_, skipped, rest, rfl, paused, later⟩
          · rcases finishes_pause (some err) paused with ⟨absurd, _⟩ | ⟨err', same, left⟩
            · cases absurd
            · cases same
              exact Or.inr ⟨failure, rfl, Or.inl left⟩
          · rcases finishes_pause (some err) paused with ⟨_, same⟩ | ⟨err', absurd, _⟩
            · rw [unrecovered_append, same]
              exact ih again later
            · cases absurd
        · exact ih again retried

/-- The trace header of the message, where it has an envelope, can be matched as text. -/
def TraceReadable (self : ResilientEventConsumer) (payload : EachMessagePayload) : Prop :=
  ∀ event,
    self.readEnvelope (rawText payload) = .ok event
    → ∃ inbound, parseInboundTraceparent (event.field? "traceparent") = .ok inbound

/-- The rejection that a history leaves behind, if any, can be printed. -/
def RejectionPrintable (history : List ConsumerEvent) : Prop :=
  ∀ err, unrecovered none history = some err → err.printable = true

/-- The message's offset is committed, once, and nothing else is. -/
def CommittedOnce (payload : EachMessagePayload) (history : List ConsumerEvent) : Prop :=
  commits history
    = [.commitOffsets payload.topic payload.partition (nextOffset payload.message.offset)]

/-- The dead-letter producer and the broker resolve. -/
def Resolving (event : ConsumerEvent) : Prop :=
  match event with
  | ⟨.commitOffsets _ _ _, outcome⟩ | ⟨.deadLetter _, outcome⟩ => outcome = .ok ()
  | _ => True

/-- A commit that resolves is the one event of its program. -/
theorem finishes_commit {payload : EachMessagePayload} {events : List ConsumerEvent}
    {outcome : Except Thrown Unit} (resolving : ∀ event ∈ events, Resolving event)
    (run : Finishes (commit payload) events outcome)
    : outcome = .ok ()
      ∧ events
        = [⟨.commitOffsets payload.topic payload.partition (nextOffset payload.message.offset),
            .ok ()⟩] := by
  simp only [commit, callConsumer, Program.perform_eq, Program.bind_eq, Program.await_bind,
    Program.done_bind, finishes_await, finishes_settle] at run
  obtain ⟨reply, _, rfl, rfl, rfl⟩ := run
  have resolves := resolving _ (List.mem_singleton_self _)
  obtain rfl : outcome = .ok () := resolves
  exact ⟨rfl, rfl⟩

/-- Dead-lettering resolves exactly where the error can be printed, if the producer does. -/
theorem finishes_deadLetter {payload : EachMessagePayload} {reason : DeadLetterReason}
    {notice : String} {err : Thrown} {events : List ConsumerEvent}
    {outcome : Except Thrown Unit} (resolving : ∀ event ∈ events, Resolving event)
    (run : Finishes (deadLetter payload reason notice err) events outcome)
    : (outcome = .ok () ↔ err.printable = true)
      ∧ commits events = []
      ∧ ∀ before, unrecovered before events = before := by
  simp only [deadLetter, callConsumer, Program.perform_eq, Program.bind_eq, Program.await_bind,
    Program.done_bind, finishes_await] at run
  obtain ⟨_, _, rfl, run⟩ := run
  unfold Thrown.printable
  cases printed : err.toText with
  | error failure =>
      simp only [printed, Program.settle_error, Program.fail_bind, finishes_fail] at run
      obtain ⟨rfl, rfl⟩ := run
      exact ⟨by simp [Except.isOk, Except.toBool], rfl, fun _ => rfl⟩
  | ok text =>
      simp only [printed, Program.settle_ok, Program.done_bind, finishes_await,
        finishes_settle] at run
      obtain ⟨reply, _, rfl, rfl, rfl⟩ := run
      have resolves := resolving _ (List.mem_cons_of_mem _ (List.mem_singleton_self _))
      obtain rfl : outcome = .ok () := resolves
      exact ⟨by simp [Except.isOk, Except.toBool], rfl, fun _ => rfl⟩

/-- Whatever comes before the commit leaves no commit behind: then the message is committed
once if it resolves, and not at all otherwise.
-/
theorem finishes_then_commit {payload : EachMessagePayload} {program : ConsumerProgram Unit}
    {events : List ConsumerEvent} {outcome : Except Thrown Unit}
    (resolving : ∀ event ∈ events, Resolving event)
    (run : Finishes (program.bind (fun _ => commit payload)) events outcome)
    : ∃ head ended,
        Finishes program head ended
        ∧ (∀ event ∈ head, event ∈ events)
        ∧ unrecovered none events = unrecovered none head
        ∧ (commits head = []
          → (outcome = .ok () ∧ CommittedOnce payload events ↔ ended = .ok ())) := by
  rw [finishes_bind] at run
  rcases run with ⟨err, rfl, failed⟩ | ⟨value, head, tail, rfl, ended, committed⟩
  · exact ⟨events, .error err, failed, fun _ member => member, rfl, fun _ => by simp⟩
  · obtain ⟨rfl, rfl⟩ :=
      finishes_commit (fun event member => resolving event (List.mem_append_right _ member))
        committed
    refine ⟨head, .ok value, ended, fun _ member => List.mem_append_left _ member, ?_, ?_⟩
    · rw [unrecovered_append]
      rfl
    · intro quiet
      refine iff_of_true ⟨rfl, ?_⟩ rfl
      rw [CommittedOnce, commits_append, quiet]
      rfl

/-- Establishing the trace context leaves no rejection and no commit behind, and fails exactly
where the header cannot be matched as text.
-/
theorem finishes_startTraceContext {traceparent : Value} {events : List ConsumerEvent}
    {outcome : Except Thrown TraceContext}
    (run
      : Finishes (startTraceContext (fun bytes => callConsumer (.randomHex bytes)) traceparent)
          events outcome)
    : ((∃ inbound, parseInboundTraceparent traceparent = .ok inbound)
          ↔ ∃ context, outcome = .ok context)
      ∧ commits events = []
      ∧ ∀ before, unrecovered before events = before := by
  unfold startTraceContext at run
  cases parsed : parseInboundTraceparent traceparent with
  | error err =>
      simp only [parsed, Program.settle_error, Program.bind_eq, Program.fail_bind,
        finishes_fail] at run
      obtain ⟨rfl, rfl⟩ := run
      exact ⟨by simp, rfl, fun _ => rfl⟩
  | ok inbound =>
      cases inbound with
      | none =>
          simp only [parsed, callConsumer, Program.settle_ok, Program.bind_eq,
            Program.perform_eq, Program.done_bind, Program.await_bind, Program.pure_eq,
            finishes_await, finishes_done] at run
          obtain ⟨_, _, rfl, _, _, rfl, rfl, rfl⟩ := run
          exact ⟨by simp, rfl, fun _ => rfl⟩
      | some inbound =>
          simp only [parsed, callConsumer, Program.settle_ok, Program.bind_eq,
            Program.perform_eq, Program.done_bind, Program.await_bind, Program.pure_eq,
            finishes_await, finishes_done] at run
          obtain ⟨_, _, rfl, rfl, rfl⟩ := run
          exact ⟨by simp, rfl, fun _ => rfl⟩

/-- Routing that is dead-lettered where it fails ends well exactly where the rejection left
behind can be printed.
-/
theorem finishes_guardedRouting {payload : EachMessagePayload} {context : TraceContext}
    {event : Json} {events : List ConsumerEvent} {outcome : Except Thrown Unit}
    (resolving : ∀ event ∈ events, Resolving event)
    (run
      : Finishes
          ((self.routeWithRetry context event).handle
            (deadLetter payload .handlerError
              "Handler failed after retries — dead-lettering message"))
          events outcome)
    : (outcome = .ok () ↔ RejectionPrintable events) ∧ commits events = [] := by
  have uses := self.uses_retryFrom context event (iterations self.maxRetries) 0 .undefined
  have first : (none : Option Thrown) = none ∧ Thrown.undefined = .undefined
      ∨ none = some Thrown.undefined ∧ self.opts.router.get? (event.field? "type") ≠ none :=
    Or.inl ⟨rfl, rfl⟩
  rw [finishes_handle] at run
  rcases run with ⟨_, rfl, routed⟩ | ⟨err, head, tail, rfl, failed, deadLettered⟩
  · refine ⟨?_, commits_quiet (uses.of_run routed)⟩
    rcases finishes_retryFrom_rejection first routed with ⟨_, none⟩ | ⟨err, absurd, _⟩
    · simp [RejectionPrintable, none]
    · cases absurd
  · obtain ⟨resolved, quiet, kept⟩ :=
      finishes_deadLetter (fun event member => resolving event (List.mem_append_right _ member))
        deadLettered
    refine ⟨?_, by rw [commits_append, quiet, commits_quiet (uses.of_run failed)]; rfl⟩
    rw [resolved, RejectionPrintable, unrecovered_append, kept]
    rcases finishes_retryFrom_rejection first failed with
      ⟨absurd, _⟩ | ⟨err', same, left | ⟨none, rfl⟩⟩
    · cases absurd
    · cases same
      simp [left]
    · cases same
      simp [none, Thrown.printable, Thrown.toText, Except.isOk, Except.toBool]

/-- A message of any value, under any behaviour of its handler, is followed by exactly one
commit of its offset where its trace header can be matched as text and the rejection left
behind can be printed, and only there; witness: one case for each branch.
-/
theorem finishes_eachMessage_iff {payload : EachMessagePayload} {events : List ConsumerEvent}
    {outcome : Except Thrown Unit} (resolving : ∀ event ∈ events, Resolving event)
    (run : Finishes (self.eachMessage payload) events outcome)
    : outcome = .ok () ∧ CommittedOnce payload events
      ↔ self.TraceReadable payload ∧ RejectionPrintable events := by
  have raw : (payload.message.value.map Buffer.toText).getD "" = rawText payload := rfl
  unfold eachMessage at run
  simp only [raw] at run
  split at run
  · rename_i empty
    obtain ⟨rfl, rfl⟩ := finishes_commit resolving run
    have unreadable : Json.parse "" = none := by decide +kernel
    simp [CommittedOnce, commits, ConsumerOp.isCommit, TraceReadable, empty, readEnvelope,
      unreadable, RejectionPrintable, rejection]
  · cases read : self.readEnvelope (rawText payload) with
    | error err =>
        simp only [read] at run
        obtain ⟨head, ended, deadLettered, among, same, committed⟩ :=
          finishes_then_commit resolving run
        obtain ⟨resolved, quiet, kept⟩ :=
          finishes_deadLetter (fun event member => resolving event (among event member))
            deadLettered
        obtain ⟨text, printed⟩ := printable_readEnvelope read
        rw [committed quiet, resolved]
        simp [TraceReadable, read, RejectionPrintable, same, kept, Thrown.printable, printed,
          Except.isOk, Except.toBool]
    | ok event =>
        have readable : self.TraceReadable payload
            ↔ ∃ inbound, parseInboundTraceparent (event.field? "traceparent") = .ok inbound := by
          simp [TraceReadable, read]
        simp only [read, Program.bind_eq, Program.tryCatch_eq] at run
        rw [finishes_bind] at run
        rcases run with ⟨err, rfl, failed⟩ | ⟨context, head, tail, rfl, established, routed⟩
        · obtain ⟨established, _⟩ := finishes_startTraceContext failed
          simp [readable, established]
        · obtain ⟨established, quiet, kept⟩ := finishes_startTraceContext established
          obtain ⟨events, ended, guarded, among, same, committed⟩ :=
            finishes_then_commit
              (fun event member => resolving event (List.mem_append_right _ member)) routed
          obtain ⟨resolved, silent⟩ :=
            finishes_guardedRouting
              (fun event member =>
                resolving event (List.mem_append_right _ (among event member)))
              guarded
          have once : CommittedOnce payload (head ++ tail) ↔ CommittedOnce payload tail := by
            simp [CommittedOnce, quiet]
          have printable : RejectionPrintable (head ++ tail) ↔ RejectionPrintable events := by
            simp [RejectionPrintable, kept, same]
          rw [once, committed silent, resolved, printable, readable, established]
          simp

/-- Against any environment whose dead-letter producer and broker resolve, a message of any
value is followed by exactly one commit of its offset, and `eachMessage` resolves, where its
trace header can be matched as text and the rejection left behind can be printed, and only
there.
-/
theorem eachMessage_commits_iff (self : ResilientEventConsumer) (payload : EachMessagePayload)
    {σ : Type} (answer : σ → (op : ConsumerOp) → op.Reply × σ) (state : σ)
    (deadLetters : ∀ state input, (answer state (.deadLetter input)).1 = .ok ())
    (broker
      : ∀ state topic partition offset,
          (answer state (.commitOffsets topic partition offset)).1 = .ok ())
    {events : List ConsumerEvent} {outcome : Except Thrown Unit} {last : σ}
    (ran
      : execute (F := ConsumerEffects) answer state (self.eachMessage payload)
        = (events, outcome, last))
    : outcome = .ok () ∧ CommittedOnce payload events
      ↔ self.TraceReadable payload ∧ RejectionPrintable events := by
  have run := execute_finishes (F := ConsumerEffects) answer state (self.eachMessage payload)
  have answers := execute_answers (F := ConsumerEffects) answer state (self.eachMessage payload)
  rw [ran] at run answers
  refine finishes_eachMessage_iff (fun event member => ?_) run
  obtain ⟨earlier, same⟩ := answers event member
  obtain ⟨op, reply⟩ := event
  cases op with
  | commitOffsets topic partition offset => exact same.trans (broker earlier topic partition offset)
  | deadLetter input => exact same.trans (deadLetters earlier input)
  | handle | onRetry | sleep | randomHex | log => trivial

end ResilientEventConsumer

/-- An environment in which every call resolves. -/
def resolveAll (_ : Unit) : (op : ConsumerOp) → op.Reply × Unit
  | .commitOffsets _ _ _ | .deadLetter _ | .handle _ _ _ | .onRetry _ | .sleep _ => (.ok (), ())
  | .randomHex _ => ("0", ())
  | .log _ _ => ((), ())

/-- Where every call resolves, no rejection is left behind, by induction on the events. -/
theorem unrecovered_resolveAll {events : List ConsumerEvent}
    (answers : ∀ event ∈ events, ∃ earlier, event.reply = (resolveAll earlier event.op).1)
    : unrecovered none events = none := by
  induction events with
  | nil => rfl
  | cons event rest ih =>
      have later := ih (fun other member => answers other (List.mem_cons_of_mem _ member))
      obtain ⟨_, same⟩ := answers event (List.mem_cons_self ..)
      obtain ⟨op, reply⟩ := event
      dsimp only at same
      subst same
      cases op <;> exact later

/-- A message of a topic, with a text as its value. -/
def textMessage (text : String) : EachMessagePayload where
  topic := "knowledge-events"
  partition := 0
  message := { key := none, value := some (Buffer.ofText text), offset := "0", headers := [] }

/-- An event whose trace header is an object with a property named toString. -/
def opaqueTrace : EachMessagePayload :=
  textMessage
    "\x7b\"id\":\"1\",\"type\":\"note\",\"traceparent\":\x7b\"toString\":1\x7d\x7d"

/-- A consumer of notes with the given retry bound. -/
def noteConsumer (maxRetries : Number) (bounded : maxRetries ≠ .infinity false)
    : ResilientEventConsumer where
  opts :=
    {
      topics := ["knowledge-events"]
      router := { handlers := ["note"], distinct := by simp }
      maxRetries := some maxRetries
      retryBackoffMs := none
      onRetry := true
    }
  syntaxMessage raw := "Unexpected token in JSON: " ++ raw
  bounded := fun same => bounded (Option.some.inj same)

/-- A note without a trace header. -/
def noteEvent : Json :=
  .obj [("id", .str "1"), ("type", .str "note")]

/-- A consumer that retries a note once. -/
def noteReader : ResilientEventConsumer :=
  noteConsumer (.ofNat 1) nofun

/-- The note is a well-formed event with a handler. -/
theorem ResilientEventConsumer.readEnvelope_noteEvent (maxRetries : Number)
    (bounded : maxRetries ≠ .infinity false)
    : (noteConsumer maxRetries bounded).readEnvelope
          (rawText (textMessage noteEvent.stringify))
        = .ok noteEvent
      ∧ (noteConsumer maxRetries bounded).TraceReadable (textMessage noteEvent.stringify) := by
  have raw : rawText (textMessage noteEvent.stringify) = noteEvent.stringify :=
    Buffer.toText_ofText _
  have read : (noteConsumer maxRetries bounded).readEnvelope noteEvent.stringify
      = .ok noteEvent := by
    rw [readEnvelope, Json.parse_stringify rfl]
    rfl
  refine ⟨by rw [raw, read], ?_⟩
  intro event read'
  rw [raw, read] at read'
  cases read'
  exact ⟨none, rfl⟩

/-- An environment in which the first call of the handler rejects and every other call
resolves; it counts the calls of the handler.
-/
def rejectFirst (calls : Nat) : (op : ConsumerOp) → op.Reply × Nat
  | .handle _ _ _ =>
      (if calls = 0 then .error (.error .error "note store is down") else .ok (), calls + 1)
  | .commitOffsets _ _ _ | .deadLetter _ | .onRetry _ | .sleep _ => (.ok (), calls)
  | .randomHex _ => ("0", calls)
  | .log _ _ => ((), calls)

/-- A note that is rejected once and then handled is committed. -/
theorem eachMessage_commits_iff_retried
    : (execute (F := ConsumerEffects) rejectFirst 0
          (noteReader.eachMessage (textMessage noteEvent.stringify))).2
        = (.ok (), 2)
      ∧ ResilientEventConsumer.CommittedOnce (textMessage noteEvent.stringify)
          (execute (F := ConsumerEffects) rejectFirst 0
            (noteReader.eachMessage (textMessage noteEvent.stringify))).1 := by
  have handled
      : (execute (F := ConsumerEffects) rejectFirst 0
          (noteReader.eachMessage (textMessage noteEvent.stringify))).2.2 = 2 := by
    decide +kernel
  have recovered
      : unrecovered none
          (execute (F := ConsumerEffects) rejectFirst 0
            (noteReader.eachMessage (textMessage noteEvent.stringify))).1
        = none := by
    decide +kernel
  obtain ⟨read, readable⟩ :=
    ResilientEventConsumer.readEnvelope_noteEvent (.ofNat 1) (by simp [Number.ofNat])
  cases ran : execute (F := ConsumerEffects) rejectFirst 0
      (noteReader.eachMessage (textMessage noteEvent.stringify)) with
  | mk events ended =>
      rw [ran] at handled recovered
      have settled :=
        (noteReader.eachMessage_commits_iff (textMessage noteEvent.stringify) rejectFirst 0
          (fun _ _ => rfl) (fun _ _ _ _ => rfl) ran).mpr
          ⟨readable, fun err left => by cases recovered.symm.trans left⟩
      exact ⟨Prod.ext settled.1 handled, settled.2⟩

/-- The trace header is matched outside any `try`: one that has no string conversion rejects,
and the offset is not committed.
-/
theorem eachMessage_stalls
    : ¬ ∀ (self : ResilientEventConsumer) (payload : EachMessagePayload) (σ : Type)
          (answer : σ → (op : ConsumerOp) → op.Reply × σ) (state : σ)
          (events : List ConsumerEvent) (outcome : Except Thrown Unit) (last : σ),
          (∀ state input, (answer state (.deadLetter input)).1 = .ok ())
          → (∀ state topic partition offset,
              (answer state (.commitOffsets topic partition offset)).1 = .ok ())
          → execute (F := ConsumerEffects) answer state (self.eachMessage payload)
              = (events, outcome, last)
          → outcome = .ok () ∧ ResilientEventConsumer.CommittedOnce payload events := by
  intro claimed
  have stuck
      : ((knowledgeLoop.consumer.readEnvelope
          (ResilientEventConsumer.rawText opaqueTrace)).toOption.map
            (fun event => (parseInboundTraceparent (event.field? "traceparent")).isOk))
        = some false := by
    decide +kernel
  obtain ⟨event, read, unmatched⟩ := Option.map_eq_some_iff.mp stuck
  cases ran : execute (F := ConsumerEffects) resolveAll ()
      (knowledgeLoop.consumer.eachMessage opaqueTrace) with
  | mk events ended =>
      have settled := claimed knowledgeLoop.consumer opaqueTrace Unit resolveAll () _ _ _
        (fun _ _ => rfl) (fun _ _ _ _ => rfl) ran
      have commits_iff := knowledgeLoop.consumer.eachMessage_commits_iff opaqueTrace resolveAll ()
        (fun _ _ => rfl) (fun _ _ _ _ => rfl) ran
      have readable := (commits_iff.mp settled).1
      cases outcome : knowledgeLoop.consumer.readEnvelope
          (ResilientEventConsumer.rawText opaqueTrace) with
      | error err => simp [outcome, Except.toOption] at read
      | ok parsed =>
          obtain rfl : parsed = event := by simpa [outcome, Except.toOption] using read
          obtain ⟨inbound, matched⟩ := readable parsed outcome
          simp [matched, Except.isOk, Except.toBool] at unmatched

end SharedKernel.Messaging
