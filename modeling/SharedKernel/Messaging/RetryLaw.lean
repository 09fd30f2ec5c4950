import SharedKernel.Messaging.Progress

/-! The retry law of the consumption loop: how often the handler of a well-formed event is
called, what comes between two attempts, and when the event is dead-lettered.
-/

namespace SharedKernel.Messaging

open Foundation Js Tracing

/-- A call of the retry loop: an attempt and what it came to, the metrics hook, or the wait. -/
inductive RetryCall where
  | attempt (reply : Except Thrown Unit)
  | onRetry (eventType : Value)
  | sleep (ms : Number)

def RetryCall.reply? : RetryCall → Option (Except Thrown Unit)
  | .attempt reply => some reply
  | .onRetry _ | .sleep _ => none

/-- The calls of the retry loop in a history, in order. -/
def retryCalls (history : List ConsumerEvent) : List RetryCall :=
  history.filterMap (fun event =>
    match event with
    | ⟨.handle _ _ _, reply⟩ => some (.attempt reply)
    | ⟨.onRetry eventType, _⟩ => some (.onRetry eventType)
    | ⟨.sleep ms, _⟩ => some (.sleep ms)
    | _ => none)

/-- What the calls of the handler came to, in order. -/
def attempts (history : List ConsumerEvent) : List (Except Thrown Unit) :=
  (retryCalls history).filterMap RetryCall.reply?

/-- What the dead-letter producer was given, in order. -/
def deadLetters (history : List ConsumerEvent) : List DeadLetterInput :=
  history.filterMap (fun event =>
    match event.op with
    | .deadLetter input => some input
    | _ => none)

@[simp] theorem retryCalls_append (head tail : List ConsumerEvent)
    : retryCalls (head ++ tail) = retryCalls head ++ retryCalls tail :=
  List.filterMap_append

@[simp] theorem deadLetters_append (head tail : List ConsumerEvent)
    : deadLetters (head ++ tail) = deadLetters head ++ deadLetters tail :=
  List.filterMap_append

/-- An attempt is a call of some handler in the history. -/
theorem mem_attempts {history : List ConsumerEvent} {reply : Except Thrown Unit}
    (member : reply ∈ attempts history)
    : ∃ eventType event context, ⟨.handle eventType event context, reply⟩ ∈ history := by
  obtain ⟨call, called, same⟩ := List.mem_filterMap.mp member
  obtain ⟨⟨op, given⟩, happened, seen⟩ := List.mem_filterMap.mp called
  cases op with
  | handle eventType event context =>
      cases seen
      cases same
      exact ⟨eventType, event, context, happened⟩
  | onRetry | sleep =>
      cases seen
      cases same
  | commitOffsets | deadLetter | randomHex | log => cases seen

/-- Quiet operations dead-letter nothing. -/
theorem deadLetters_quiet {history : List ConsumerEvent}
    (quiet : ∀ event ∈ history, ResilientEventConsumer.Quiet event.op)
    : deadLetters history = [] := by
  rw [deadLetters, List.filterMap_eq_nil_iff]
  intro event member
  have silent := quiet event member
  cases op : event.op with
  | deadLetter => exact absurd silent (by simp [op, ResilientEventConsumer.Quiet])
  | commitOffsets | handle | onRetry | sleep | randomHex | log => rfl

/-- The metrics hook, the wait, the dead-letter producer and the broker resolve. -/
def Reliable (event : ConsumerEvent) : Prop :=
  match event with
  | ⟨.commitOffsets _ _ _, outcome⟩ | ⟨.deadLetter _, outcome⟩ | ⟨.onRetry _, outcome⟩
  | ⟨.sleep _, outcome⟩ => outcome = .ok ()
  | _ => True

namespace ResilientEventConsumer

/-- Between an attempt and the next: the hook once, if it is wired, and the linear backoff. -/
def between (self : ResilientEventConsumer) (event : Json) (number : Nat) : List RetryCall :=
  (if self.opts.onRetry then [.onRetry (event.field? "type")] else [])
    ++ [.sleep (self.retryBackoffMs.mul (.ofNat number))]

/-- The calls of attempts with these replies, the first with the given number. -/
def schedule (self : ResilientEventConsumer) (event : Json)
    : Nat → List (Except Thrown Unit) → List RetryCall
  | _, [] => []
  | _, [last] => [.attempt last]
  | number, reply :: rest =>
      .attempt reply :: (self.between event number ++ schedule self event (number + 1) rest)

/-- The retry law for one delivery of an event. -/
structure RetryLaw (consumer : ResilientEventConsumer) (payload : EachMessagePayload)
    (event : Json) (history : List ConsumerEvent) (outcome : Except Thrown Unit)
    : Prop where
  called : attempts history ≠ []
  stops : ∀ reply ∈ (attempts history).dropLast, reply ≠ .ok ()
  recovered : (attempts history).getLast? = some (.ok ()) → deadLetters history = []
  deadLettered
    : ∀ err,
        (attempts history).getLast? = some (.error err)
        → ∃ text,
            err.toText = .ok text
            ∧ deadLetters history = [deadLetterInput payload .handlerError text]
  exhausted
    : deadLetters history ≠ []
      → ∀ retries : Nat,
          consumer.maxRetries = .ofNat retries → (attempts history).length = retries + 1
  spaced : retryCalls history = consumer.schedule event 1 (attempts history)
  committed : outcome = .ok () ∧ CommittedOnce payload history

variable {self : ResilientEventConsumer} {event : Json}

theorem schedule_cons (number : Nat) (reply : Except Thrown Unit)
    {rest : List (Except Thrown Unit)} (more : rest ≠ [])
    : self.schedule event number (reply :: rest)
      = .attempt reply :: (self.between event number ++ self.schedule event (number + 1) rest) := by
  cases rest with
  | nil => exact absurd rfl more
  | cons next others => rfl

/-- The schedule has the given attempts, by induction on them. -/
theorem replies_schedule (number : Nat) (replies : List (Except Thrown Unit))
    : (self.schedule event number replies).filterMap RetryCall.reply? = replies := by
  induction replies generalizing number with
  | nil => rfl
  | cons reply rest ih =>
      cases rest with
      | nil => rfl
      | cons next others =>
          have silent : (self.between event number).filterMap RetryCall.reply? = [] := by
            unfold between
            split <;> rfl
          have first : RetryCall.reply? (.attempt reply) = some reply := rfl
          rw [schedule_cons _ _ (List.cons_ne_nil _ _), List.filterMap_cons_some first,
            List.filterMap_append, silent, ih, List.nil_append]

/-- Routing an event that has a handler is one attempt. -/
theorem retryCalls_route {context : TraceContext} {eventType : String}
    {events : List ConsumerEvent} {outcome : Except Thrown Unit}
    (handler : self.opts.router.get? (event.field? "type") = some eventType)
    (run : Finishes (self.opts.router.route context event) events outcome)
    : retryCalls events = [.attempt outcome] := by
  simp only [EventRouter.route, handler, callConsumer, Program.perform_eq, Program.bind_eq,
    Program.await_bind, Program.done_bind, finishes_await] at run
  obtain ⟨_, _, rfl, handled, _, rfl, run⟩ := run
  cases handled with
  | error err =>
      simp only [Program.settle_error, Program.fail_bind, finishes_fail] at run
      obtain ⟨rfl, rfl⟩ := run
      rfl
  | ok _ =>
      simp only [Program.settle_ok, Program.done_bind, finishes_await, finishes_done] at run
      obtain ⟨_, _, rfl, rfl, rfl⟩ := run
      rfl

/-- A reliable pause is what lies between two attempts. -/
theorem retryCalls_pause {attempt : Nat} {events : List ConsumerEvent}
    {outcome : Except Thrown Unit} (reliable : ∀ event ∈ events, Reliable event)
    (run : Finishes (self.pause event attempt) events outcome)
    : outcome = .ok () ∧ retryCalls events = self.between event (attempt + 1) := by
  have rest {events : List ConsumerEvent} (reliable : ∀ event ∈ events, Reliable event)
      (run
        : Finishes
            (do
              let _ ← callConsumer (.log .warn "Handler error — retrying")
              Program.settle
                (← callConsumer (.sleep (self.retryBackoffMs.mul (.ofNat (attempt + 1))))))
            events outcome)
      : outcome = .ok ()
        ∧ retryCalls events = [.sleep (self.retryBackoffMs.mul (.ofNat (attempt + 1)))] := by
    simp only [callConsumer, Program.perform_eq, Program.bind_eq, Program.await_bind,
      Program.done_bind, finishes_await, finishes_settle] at run
    obtain ⟨_, _, rfl, slept, _, rfl, rfl, rfl⟩ := run
    have resolved := reliable _ (List.mem_cons_of_mem _ (List.mem_singleton_self _))
    exact ⟨resolved, rfl⟩
  unfold pause at run
  unfold between
  split at run
  · rename_i wired
    simp only [callConsumer, Program.perform_eq, Program.bind_eq, Program.await_bind,
      Program.done_bind, finishes_await] at run
    obtain ⟨hooked, _, rfl, run⟩ := run
    obtain rfl : hooked = .ok () := reliable _ (List.mem_cons_self ..)
    simp only [Program.settle_ok, Program.done_bind] at run
    obtain ⟨resolved, calls⟩ :=
      rest (fun event member => reliable event (List.mem_cons_of_mem _ member)) run
    refine ⟨resolved, ?_⟩
    rw [if_pos wired, ← calls]
    rfl
  · rename_i unwired
    obtain ⟨resolved, calls⟩ := rest reliable run
    rw [if_neg unwired]
    exact ⟨resolved, calls⟩

/-- The loop pauses after each attempt but the last. -/
theorem gt_maxRetries_iff {retries attempt : Nat} (bound : self.maxRetries = .ofNat retries)
    : self.maxRetries.gt (.ofNat attempt) = true ↔ attempt < retries := by
  rw [bound]
  simp [Number.gt, Number.ofNat]

/-- With attempts left, retrying keeps to the schedule: failures up to the first success or
to the end of the budget; by induction on the attempts left.
-/
theorem finishes_retryFrom_schedule {context : TraceContext} {eventType : String}
    {retries left attempt : Nat} {lastErr : Thrown} {events : List ConsumerEvent}
    {outcome : Except Thrown Unit} (bound : self.maxRetries = .ofNat retries)
    (budget : attempt + left = retries)
    (handler : self.opts.router.get? (event.field? "type") = some eventType)
    (reliable : ∀ event ∈ events, Reliable event)
    (run
      : Finishes (self.retryFrom context event (left + 1) attempt lastErr) events outcome)
    : ∃ failures : List Thrown,
        retryCalls events
          = self.schedule event (attempt + 1) (failures.map .error ++ [outcome])
        ∧ ∀ err, outcome = .error err → failures.length = left := by
  induction left generalizing attempt lastErr events with
  | zero =>
      rw [retryFrom, Program.tryCatch_eq, finishes_handle] at run
      rcases run with ⟨_, rfl, routed⟩ | ⟨err, head, tail, rfl, failed, retried⟩
      · exact ⟨[], retryCalls_route handler routed, fun _ absurd => by cases absurd⟩
      · have last : ¬ self.maxRetries.gt (.ofNat attempt) = true := by
          rw [gt_maxRetries_iff bound]
          omega
        simp only [if_neg last, retryFrom, Program.throw_eq, finishes_fail] at retried
        obtain ⟨rfl, rfl⟩ := retried
        rw [List.append_nil]
        exact ⟨[], retryCalls_route handler failed, fun _ _ => rfl⟩
  | succ left ih =>
      rw [retryFrom, Program.tryCatch_eq, finishes_handle] at run
      rcases run with ⟨_, rfl, routed⟩ | ⟨err, head, tail, rfl, failed, retried⟩
      · exact ⟨[], retryCalls_route handler routed, fun _ absurd => by cases absurd⟩
      · have more : self.maxRetries.gt (.ofNat attempt) = true := by
          rw [gt_maxRetries_iff bound]
          omega
        simp only [if_pos more, Program.bind_eq] at retried
        rw [finishes_bind] at retried
        rcases retried with ⟨failure, rfl, paused⟩ | ⟨_, pausing, rest, rfl, paused, later⟩
        · obtain ⟨absurd, _⟩ :=
            retryCalls_pause
              (fun event member => reliable event (List.mem_append_right _ member)) paused
          cases absurd
        · obtain ⟨_, between⟩ :=
            retryCalls_pause
              (fun event member =>
                reliable event (List.mem_append_right _ (List.mem_append_left _ member)))
              paused
          obtain ⟨failures, calls, spent⟩ :=
            ih (by omega)
              (fun event member =>
                reliable event (List.mem_append_right _ (List.mem_append_right _ member)))
              later
          refine ⟨err :: failures, ?_, fun err same => by simp [spent err same]⟩
          rw [retryCalls_append, retryCalls_append, retryCalls_route handler failed, between,
            calls]
          exact (schedule_cons (attempt + 1) (.error err) (by simp)).symm

theorem Reliable.resolving {event : ConsumerEvent} (reliable : Reliable event)
    : Resolving event := by
  obtain ⟨op, reply⟩ := event
  cases op with
  | commitOffsets | deadLetter => exact reliable
  | handle | onRetry | sleep | randomHex | log => trivial

/-- Dead-lettering sends the message once, with the text of the error, where it has one. -/
theorem deadLetters_deadLetter {payload : EachMessagePayload} {reason : DeadLetterReason}
    {notice : String} {err : Thrown} {events : List ConsumerEvent}
    {outcome : Except Thrown Unit}
    (run : Finishes (deadLetter payload reason notice err) events outcome)
    : retryCalls events = []
      ∧ ∀ text,
          err.toText = .ok text → deadLetters events = [deadLetterInput payload reason text] := by
  simp only [deadLetter, callConsumer, Program.perform_eq, Program.bind_eq, Program.await_bind,
    Program.done_bind, finishes_await] at run
  obtain ⟨_, _, rfl, run⟩ := run
  cases printed : err.toText with
  | error failure =>
      simp only [printed, Program.settle_error, Program.fail_bind, finishes_fail] at run
      obtain ⟨rfl, rfl⟩ := run
      exact ⟨rfl, fun _ absurd => by cases absurd⟩
  | ok text =>
      simp only [printed, Program.settle_ok, Program.done_bind, finishes_await,
        finishes_settle] at run
      obtain ⟨_, _, rfl, rfl, rfl⟩ := run
      exact ⟨rfl, fun _ same => by cases same; rfl⟩

/-- Routing that is dead-lettered where it fails: the run of the routing, then that of the
dead letter.
-/
theorem finishes_deadLettered {payload : EachMessagePayload} {context : TraceContext}
    {events : List ConsumerEvent} {outcome : Except Thrown Unit}
    (resolving : ∀ event ∈ events, Resolving event)
    (run
      : Finishes
          ((self.routeWithRetry context event).handle
            (deadLetter payload .handlerError
              "Handler failed after retries — dead-lettering message"))
          events outcome)
    : ∃ routing routed rest,
        events = routing ++ rest
        ∧ Finishes (self.routeWithRetry context event) routing routed
        ∧ retryCalls rest = []
        ∧ commits rest = []
        ∧ (routed = .ok () → deadLetters rest = [] ∧ outcome = .ok ())
        ∧ ∀ err,
            routed = .error err
            → (∀ text,
                  err.toText = .ok text
                  → deadLetters rest = [deadLetterInput payload .handlerError text])
              ∧ (outcome = .ok () ↔ err.printable = true) := by
  rw [finishes_handle] at run
  rcases run with ⟨_, rfl, routed⟩ | ⟨err, routing, rest, rfl, routed, deadLettered⟩
  · refine ⟨events, .ok (), [], (List.append_nil _).symm, routed, rfl, rfl,
      fun _ => ⟨rfl, rfl⟩, ?_⟩
    intro err absurd
    cases absurd
  · obtain ⟨resolved, quiet, _⟩ :=
      finishes_deadLetter (fun event member => resolving event (List.mem_append_right _ member))
        deadLettered
    obtain ⟨silent, sent⟩ := deadLetters_deadLetter deadLettered
    refine ⟨routing, .error err, rest, rfl, routed, silent, quiet,
      (fun absurd => by cases absurd), ?_⟩
    rintro err' same
    cases same
    exact ⟨sent, resolved⟩

/-- What follows the trace context: the routing, the dead letter of a failed one, and the
commit.
-/
def dispatch (self : ResilientEventConsumer) (payload : EachMessagePayload)
    (context : TraceContext) (event : Json)
    : ConsumerProgram Unit := do
  tryCatch (self.routeWithRetry context event)
    (deadLetter payload .handlerError
      "Handler failed after retries — dead-lettering message")
  commit payload

/-- A delivery of an event whose trace header is readable establishes the trace context and
dispatches under it.
-/
theorem finishes_eachMessage_dispatch {payload : EachMessagePayload}
    {history : List ConsumerEvent} {outcome : Except Thrown Unit}
    (read : self.readEnvelope (rawText payload) = .ok event) {inbound : Option InboundTrace}
    (parsed : parseInboundTraceparent (event.field? "traceparent") = .ok inbound)
    (run : Finishes (self.eachMessage payload) history outcome)
    : ∃ head context tail,
        history = head ++ tail
        ∧ Finishes
            (startTraceContext (fun bytes => callConsumer (.randomHex bytes))
              (event.field? "traceparent"))
            head (.ok context)
        ∧ Finishes (self.dispatch payload context event) tail outcome := by
  have raw : (payload.message.value.map Buffer.toText).getD "" = rawText payload := rfl
  have nonempty : rawText payload ≠ "" := by
    intro empty
    have unreadable : Json.parse "" = none := by decide +kernel
    simp [empty, readEnvelope, unreadable] at read
  unfold eachMessage at run
  simp only [raw, if_neg nonempty, read] at run
  rw [Program.bind_eq, finishes_bind] at run
  rcases run with ⟨err, _, failed⟩ | ⟨context, head, tail, rfl, established, dispatched⟩
  · obtain ⟨succeeds, _⟩ := finishes_startTraceContext failed
    obtain ⟨_, absurd⟩ := succeeds.mp ⟨inbound, parsed⟩
    cases absurd
  · exact ⟨head, context, tail, rfl, established, dispatched⟩

/-- What a delivery of a well-formed event is made of: the trace context, the routing, the
dead letter of a failed routing, and the commit.
-/
theorem finishes_eachMessage_event {payload : EachMessagePayload}
    {history : List ConsumerEvent} {outcome : Except Thrown Unit}
    (read : self.readEnvelope (rawText payload) = .ok event)
    (readable : self.TraceReadable payload)
    (reliable : ∀ event ∈ history, Reliable event)
    (run : Finishes (self.eachMessage payload) history outcome)
    : ∃ head context routing routed rest,
        history = head ++ (routing ++ rest)
        ∧ Finishes
            (startTraceContext (fun bytes => callConsumer (.randomHex bytes))
              (event.field? "traceparent"))
            head (.ok context)
        ∧ Finishes (self.routeWithRetry context event) routing routed
        ∧ retryCalls rest = []
        ∧ (routed = .ok ()
            → deadLetters rest = [] ∧ outcome = .ok () ∧ CommittedOnce payload rest)
        ∧ ∀ err,
            routed = .error err
            → (∀ text,
                  err.toText = .ok text
                  → deadLetters rest = [deadLetterInput payload .handlerError text])
              ∧ (err.printable = true → CommittedOnce payload rest)
              ∧ (outcome = .ok () ↔ err.printable = true) := by
  obtain ⟨inbound, parsed⟩ := readable event read
  obtain ⟨head, context, tail, rfl, established, later⟩ :=
    finishes_eachMessage_dispatch read parsed run
  have resolving : ∀ event ∈ tail, Resolving event :=
    fun event member => Reliable.resolving (reliable event (List.mem_append_right _ member))
  rw [dispatch, Program.bind_eq, Program.tryCatch_eq, finishes_bind] at later
  rcases later with ⟨failure, rfl, ended⟩ | ⟨_, handled, committing, rfl, ended, committed⟩
  · obtain ⟨routing, routed, rest, rfl, loop, silent, _, success, failed⟩ :=
      finishes_deadLettered resolving ended
    refine ⟨head, context, routing, routed, rest, rfl, established, loop, silent, ?_, ?_⟩
    · intro succeeded
      obtain ⟨_, absurd⟩ := success succeeded
      cases absurd
    · intro err same
      obtain ⟨sent, resolved⟩ := failed err same
      refine ⟨sent, fun printable => ?_, resolved⟩
      have absurd := resolved.mpr printable
      cases absurd
  · obtain ⟨rfl, sole⟩ :=
      finishes_commit (fun event member => resolving event (List.mem_append_right _ member))
        committed
    obtain ⟨routing, routed, rest, rfl, loop, silent, quiet, success, failed⟩ :=
      finishes_deadLettered
        (fun event member => resolving event (List.mem_append_left _ member)) ended
    have once : CommittedOnce payload (rest ++ committing) := by
      rw [CommittedOnce, commits_append, quiet, sole]
      rfl
    refine
      ⟨head, context, routing, routed, rest ++ committing, by rw [List.append_assoc],
        established, loop, by rw [retryCalls_append, silent, sole]; rfl, ?_, ?_⟩
    · intro succeeded
      refine ⟨?_, rfl, once⟩
      rw [deadLetters_append, (success succeeded).1, sole]
      rfl
    · intro err same
      obtain ⟨sent, resolved⟩ := failed err same
      refine ⟨fun text shown => ?_, fun _ => once, iff_of_true rfl (resolved.mp rfl)⟩
      rw [deadLetters_append, sent text shown, sole]
      rfl

/-- Establishing the trace context calls nothing of the retry loop. -/
theorem retryCalls_startTraceContext {traceparent : Value} {events : List ConsumerEvent}
    {outcome : Except Thrown TraceContext}
    (run
      : Finishes (startTraceContext (fun bytes => callConsumer (.randomHex bytes)) traceparent)
          events outcome)
    : retryCalls events = [] ∧ ∀ event ∈ events, Quiet event.op := by
  have draws : ∀ event ∈ events, ∃ bytes, event.op = .randomHex bytes :=
    (@uses_startTraceContext (fun op => ∃ bytes, op = .randomHex bytes)
      (fun bytes => ⟨bytes, rfl⟩) traceparent).of_run run
  constructor
  · rw [retryCalls, List.filterMap_eq_nil_iff]
    rintro ⟨op, reply⟩ member
    obtain ⟨bytes, rfl⟩ := draws _ member
    rfl
  · exact (uses_startTraceContext (fun _ => trivial) traceparent).of_run run

/-- The loop runs its body at least once exactly for the natural numbers among the integers
and NaN.
-/
theorem iterations_of_integral
    (integral : self.maxRetries = .nan ∨ ∃ bound : ℤ, self.maxRetries = .finite bound)
    : (∃ retries : Nat,
          self.maxRetries = .ofNat retries ∧ iterations self.maxRetries = retries + 1)
      ∨ (∀ retries : Nat, self.maxRetries ≠ .ofNat retries)
        ∧ iterations self.maxRetries = 0 := by
  rcases integral with nan | ⟨bound, finite⟩
  · rw [nan]
    exact Or.inr ⟨nofun, rfl⟩
  · rw [finite]
    rcases lt_or_ge bound 0 with negative | natural
    · refine Or.inr ⟨fun retries same => ?_, ?_⟩
      · have equal : bound = retries := by exact_mod_cast Number.finite.inj same
        omega
      · simp [iterations, negative]
    · obtain ⟨retries, rfl⟩ := Int.eq_ofNat_of_zero_le natural
      exact Or.inl ⟨retries, by simp [Number.ofNat], by simp [iterations]⟩

/-- A delivery of a well-formed event calls, sends and commits what its parts do. -/
theorem finishes_eachMessage_parts {context : TraceContext}
    {head routing rest : List ConsumerEvent} {routed : Except Thrown Unit}
    (established
      : Finishes
          (startTraceContext (fun bytes => callConsumer (.randomHex bytes))
            (event.field? "traceparent"))
          head (.ok context))
    (loop : Finishes (self.routeWithRetry context event) routing routed)
    (silent : retryCalls rest = [])
    : retryCalls (head ++ (routing ++ rest)) = retryCalls routing
      ∧ deadLetters (head ++ (routing ++ rest)) = deadLetters rest
      ∧ commits (head ++ (routing ++ rest)) = commits rest := by
  obtain ⟨quietCalls, quietHead⟩ := retryCalls_startTraceContext established
  have uses := self.uses_retryFrom context event (iterations self.maxRetries) 0 .undefined
  have quietRouting := uses.of_run loop
  refine ⟨?_, ?_, ?_⟩
  · rw [retryCalls_append, retryCalls_append, quietCalls, silent, List.nil_append,
      List.append_nil]
  · rw [deadLetters_append, deadLetters_append, deadLetters_quiet quietHead,
      deadLetters_quiet quietRouting, List.nil_append, List.nil_append]
  · rw [commits_append, commits_append, commits_quiet quietHead, commits_quiet quietRouting,
      List.nil_append, List.nil_append]

/-- A loop that never runs its body dead-letters the event without an attempt. -/
theorem finishes_eachMessage_unattempted {payload : EachMessagePayload}
    {history : List ConsumerEvent} {outcome : Except Thrown Unit}
    (none : iterations self.maxRetries = 0)
    (read : self.readEnvelope (rawText payload) = .ok event)
    (readable : self.TraceReadable payload)
    (reliable : ∀ event ∈ history, Reliable event)
    (run : Finishes (self.eachMessage payload) history outcome)
    : attempts history = []
      ∧ deadLetters history = [deadLetterInput payload .handlerError "undefined"] := by
  obtain ⟨head, context, routing, routed, rest, rfl, established, loop, silent, _, failure⟩ :=
    finishes_eachMessage_event read readable reliable run
  obtain ⟨calls, sent, _⟩ := finishes_eachMessage_parts established loop silent
  rw [routeWithRetry, none] at loop
  simp only [retryFrom, Program.throw_eq, finishes_fail] at loop
  obtain ⟨rfl, rfl⟩ := loop
  constructor
  · rw [attempts, calls]
    rfl
  · rw [sent]
    exact (failure .undefined rfl).1 _ rfl

/-- A delivery that keeps to the schedule, dead-letters a failed last attempt with its text and
commits the message once meets the retry law.
-/
theorem RetryLaw.of_schedule {payload : EachMessagePayload} {history : List ConsumerEvent}
    {outcome routed : Except Thrown Unit} {retries : Nat} {failures : List Thrown}
    (bound : self.maxRetries = .ofNat retries)
    (replies : attempts history = failures.map .error ++ [routed])
    (spaced : retryCalls history = self.schedule event 1 (failures.map .error ++ [routed]))
    (spent : ∀ err, routed = .error err → failures.length = retries)
    (success : routed = .ok () → deadLetters history = [])
    (failure
      : ∀ err,
          routed = .error err
          → ∃ text,
              err.toText = .ok text
              ∧ deadLetters history = [deadLetterInput payload .handlerError text])
    (committed : outcome = .ok () ∧ CommittedOnce payload history)
    : self.RetryLaw payload event history outcome := by
  have last : (attempts history).getLast? = some routed := by
    rw [replies, List.getLast?_concat]
  exact
    {
      called := by simp [replies]
      stops := by
        rw [replies, List.dropLast_concat]
        rintro reply member rfl
        obtain ⟨_, _, absurd⟩ := List.mem_map.mp member
        cases absurd
      recovered := by
        intro succeeded
        rw [last, Option.some.injEq] at succeeded
        exact success succeeded
      deadLettered := by
        intro err failed
        rw [last, Option.some.injEq] at failed
        exact failure err failed
      exhausted := by
        intro some_sent retries' bound'
        have same : retries = retries' := by
          rw [bound, Number.ofNat, Number.ofNat, Number.finite.injEq] at bound'
          exact_mod_cast bound'
        subst same
        cases routed with
        | ok _ => exact absurd (success rfl) some_sent
        | error err => simp [replies, spent err rfl]
      spaced := by rw [spaced, replies]
      committed
    }

/-- A well-formed event with a handler, delivered while the calls around the handler resolve,
meets the retry law exactly when the bound is a natural number and the error that the last
attempt throws, if it fails, can be printed.
-/
theorem retryLaw_iff {payload : EachMessagePayload} {history : List ConsumerEvent}
    {outcome : Except Thrown Unit} {eventType : String}
    (integral : self.maxRetries = .nan ∨ ∃ bound : ℤ, self.maxRetries = .finite bound)
    (read : self.readEnvelope (rawText payload) = .ok event)
    (handler : self.opts.router.get? (event.field? "type") = some eventType)
    (readable : self.TraceReadable payload)
    (reliable : ∀ event ∈ history, Reliable event)
    (run : Finishes (self.eachMessage payload) history outcome)
    : self.RetryLaw payload event history outcome
      ↔ (∃ retries : Nat, self.maxRetries = .ofNat retries)
        ∧ ∀ err, (attempts history).getLast? = some (.error err) → err.printable = true := by
  rcases iterations_of_integral integral with ⟨retries, bound, count⟩ | ⟨unbounded, none⟩
  · obtain ⟨head, context, routing, routed, rest, rfl, established, loop, silent, success,
        failure⟩ :=
      finishes_eachMessage_event read readable reliable run
    obtain ⟨calls, sent, committed⟩ := finishes_eachMessage_parts established loop silent
    rw [routeWithRetry, count] at loop
    obtain ⟨failures, schedule, spent⟩ :=
      finishes_retryFrom_schedule bound (Nat.zero_add retries) handler
        (fun event member =>
          reliable event (List.mem_append_right _ (List.mem_append_left _ member)))
        loop
    have replies : attempts (head ++ (routing ++ rest)) = failures.map .error ++ [routed] := by
      rw [attempts, calls, schedule, replies_schedule]
    have last : (attempts (head ++ (routing ++ rest))).getLast? = some routed := by
      rw [replies, List.getLast?_concat]
    constructor
    · intro law
      refine ⟨⟨retries, bound⟩, fun err ended => ?_⟩
      rw [last, Option.some.injEq] at ended
      exact (failure err ended).2.2.mp law.committed.1
    · rintro ⟨_, printable⟩
      have ended : outcome = .ok () ∧ CommittedOnce payload rest := by
        cases routed with
        | ok _ => exact (success rfl).2
        | error err =>
            obtain ⟨_, committed, resolved⟩ := failure err rfl
            exact ⟨resolved.mpr (printable err last), committed (printable err last)⟩
      refine
        RetryLaw.of_schedule bound replies (by rw [calls, schedule]) spent ?_ ?_
          ⟨ended.1, by rw [CommittedOnce, committed]; exact ended.2⟩
      · intro succeeded
        rw [sent]
        exact (success succeeded).1
      · rintro err rfl
        obtain ⟨text, printed⟩ := err.printable_iff.mp (printable err last)
        rw [sent]
        exact ⟨text, printed, (failure err rfl).1 text printed⟩
  · obtain ⟨uncalled, _⟩ := finishes_eachMessage_unattempted none read readable reliable run
    constructor
    · intro law
      exact absurd uncalled law.called
    · rintro ⟨⟨retries, bound⟩, _⟩
      exact absurd bound (unbounded retries)

end ResilientEventConsumer

/-- An environment in which the handler always rejects and every other call resolves. -/
def rejectNotes (_ : Unit) : (op : ConsumerOp) → op.Reply × Unit
  | .handle _ _ _ => (.error (.error .error "note store is down"), ())
  | .commitOffsets _ _ _ | .deadLetter _ | .onRetry _ | .sleep _ => (.ok (), ())
  | .randomHex _ => ("0", ())
  | .log _ _ => ((), ())

namespace ResilientEventConsumer

/-- Every call but the handler's resolves, and the handler rejects with an error. -/
theorem reliable_rejectNotes {self : ResilientEventConsumer} {payload : EachMessagePayload}
    : (∀ event ∈ (execute (F := ConsumerEffects) rejectNotes () (self.eachMessage payload)).1,
          Reliable event)
      ∧ ∀ reply
          ∈ attempts (execute (F := ConsumerEffects) rejectNotes () (self.eachMessage payload)).1,
          reply = .error (.error .error "note store is down") := by
  have answers :=
    execute_answers (F := ConsumerEffects) rejectNotes () (self.eachMessage payload)
  constructor
  · rintro ⟨op, reply⟩ member
    obtain ⟨_, same⟩ := answers _ member
    dsimp only at same
    subst same
    cases op with
    | commitOffsets | deadLetter | onRetry | sleep => rfl
    | handle | randomHex | log => trivial
  · intro reply member
    obtain ⟨_, _, _, called⟩ := mem_attempts member
    obtain ⟨_, same⟩ := answers _ called
    exact same

/-- A note that is rejected twice, where one retry is allowed. -/
theorem retryLaw_rejectedTwice
    : (noteConsumer (.ofNat 1) nofun).RetryLaw (textMessage noteEvent.stringify) noteEvent
        (execute (F := ConsumerEffects) rejectNotes ()
          ((noteConsumer (.ofNat 1) nofun).eachMessage (textMessage noteEvent.stringify))).1
        (execute (F := ConsumerEffects) rejectNotes ()
          ((noteConsumer (.ofNat 1) nofun).eachMessage
            (textMessage noteEvent.stringify))).2.1 := by
  obtain ⟨read, readable⟩ := readEnvelope_noteEvent (.ofNat 1) nofun
  obtain ⟨reliable, rejected⟩ :=
    @reliable_rejectNotes (noteConsumer (.ofNat 1) nofun) (textMessage noteEvent.stringify)
  have run :=
    execute_finishes (F := ConsumerEffects) rejectNotes ()
      ((noteConsumer (.ofNat 1) nofun).eachMessage (textMessage noteEvent.stringify))
  refine (retryLaw_iff (Or.inr ⟨1, by simp [maxRetries, noteConsumer, Number.ofNat]⟩) read rfl
    readable reliable run).mpr ⟨⟨1, rfl⟩, fun err failed => ?_⟩
  have same := rejected _ (List.mem_of_getLast? failed)
  cases same
  rfl

/-- Where the retry bound is not a number, the loop never runs its body: the note is
dead-lettered with the error undefined, and its handler is never called.
-/
theorem eachMessage_skipsHandler
    : ∃ history outcome,
        Finishes
          ((noteConsumer .nan nofun).eachMessage (textMessage noteEvent.stringify))
          history outcome
        ∧ (∀ event ∈ history, Reliable event)
        ∧ attempts history = []
        ∧ deadLetters history
          = [deadLetterInput (textMessage noteEvent.stringify) .handlerError "undefined"]
        ∧ ¬ (noteConsumer .nan nofun).RetryLaw (textMessage noteEvent.stringify) noteEvent
              history outcome := by
  obtain ⟨read, readable⟩ := readEnvelope_noteEvent .nan nofun
  obtain ⟨reliable, _⟩ :=
    @reliable_rejectNotes (noteConsumer .nan nofun) (textMessage noteEvent.stringify)
  have run :=
    execute_finishes (F := ConsumerEffects) rejectNotes ()
      ((noteConsumer .nan nofun).eachMessage (textMessage noteEvent.stringify))
  obtain ⟨uncalled, sent⟩ := finishes_eachMessage_unattempted rfl read readable reliable run
  exact ⟨_, _, run, reliable, uncalled, sent, fun law => law.called uncalled⟩

end ResilientEventConsumer
end SharedKernel.Messaging
