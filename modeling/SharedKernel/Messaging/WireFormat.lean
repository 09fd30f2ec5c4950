import SharedKernel.Messaging.RetryLaw
import SharedKernel.Outbox.Accounting
import SharedKernel.Tracing.TraceContinuity

/-! The wire format: what the outbox publisher writes for a row is what the consumption loop
reads, and the handler of the row's event type is given the row's own data.
-/

namespace SharedKernel.Messaging

open Foundation Js Tracing

-----------------------------------------------------------------------------------------
-- The envelope on the wire
-----------------------------------------------------------------------------------------

/-- A property that is left out where its value is undefined. -/
def property (name : String) (value : Option String) : List (String × Json) :=
  (value.map (fun text => (name, Json.str text))).toList

/-- The envelope as `JSON.stringify` sees it. -/
def CloudEvent.toJson (envelope : CloudEvent) : Json :=
  .obj
    ([("specversion", .str envelope.specversion), ("id", .str envelope.id),
        ("source", .str envelope.source), ("type", .str envelope.type),
        ("time", .str envelope.time)]
      ++ property "subject" envelope.subject
      ++ property "datacontenttype" envelope.datacontenttype
      ++ [("data", envelope.data), ("orgid", .str envelope.orgid),
        ("partitionkey", .str envelope.partitionkey)]
      ++ property "traceparent" envelope.traceparent)

/-- The value that the transport adapter writes for an envelope. -/
def CloudEvent.wireValue (envelope : CloudEvent) : Buffer :=
  Buffer.ofText envelope.toJson.stringify

/-- The event has the data of the row, under the names of the envelope. -/
structure Delivers (row : Outbox.ClaimedOutboxEvent) (event : Json) : Prop where
  id : event.field? "id" = some (.str row.id)
  type : event.field? "type" = some (.str row.eventType)
  time
    : ∃ text, row.createdAt.toISOString = .ok text ∧ event.field? "time" = some (.str text)
  subject : event.field? "subject" = some (.str row.aggregateId)
  orgid : event.field? "orgid" = some (.str row.orgId)
  partitionkey : event.field? "partitionkey" = some (.str row.aggregateId)
  data : event.field? "data" = some row.payload

/-- The context goes on with the trace of the row's header where the grammar accepts it, and
is the root of a new trace otherwise.
-/
structure Traces (row : Outbox.ClaimedOutboxEvent) (history : List ConsumerEvent)
    (context : TraceContext)
    : Prop where
  kept
    : ∀ traceId parentSpanId,
        AcceptedHeader (row.traceparent.map .str) traceId parentSpanId
        ↔ context.traceId = traceId ∧ context.parentSpanId = some parentSpanId
  fresh
    : (∀ traceId parentSpanId,
          ¬ AcceptedHeader (row.traceparent.map .str) traceId parentSpanId)
      → context.parentSpanId = none ∧ ⟨.randomHex 16, context.traceId⟩ ∈ history

variable {opts : Outbox.OutboxPublisherOptions} {row : Outbox.ClaimedOutboxEvent}
  {envelope : CloudEvent}

/-- A longer history shows the same trace context. -/
theorem Traces.append {head : List ConsumerEvent} {context : TraceContext}
    (traces : Traces row head context) (tail : List ConsumerEvent)
    : Traces row (head ++ tail) context :=
  ⟨traces.kept, fun none =>
    ⟨(traces.fresh none).1, List.mem_append_left _ (traces.fresh none).2⟩⟩

/-- The header of a row is absent or a string. -/
theorem isHeader_traceparent (row : Outbox.ClaimedOutboxEvent)
    : IsHeader (row.traceparent.map .str) := by
  cases row.traceparent with
  | none => exact Or.inl rfl
  | some text => exact Or.inr (Or.inr ⟨text, rfl⟩)

/-- The properties of the envelope of a row, as the other side looks them up. -/
theorem delivers_toJson (mapped : Outbox.toCloudEvent opts row = .ok envelope)
    : Delivers row envelope.toJson
      ∧ envelope.toJson.field? "traceparent" = row.traceparent.map .str := by
  obtain ⟨time, printed, rfl⟩ := Outbox.toCloudEvent_ok mapped
  cases row.traceparent with
  | none =>
      refine ⟨⟨?_, ?_, ⟨time, printed, ?_⟩, ?_, ?_, ?_, ?_⟩, ?_⟩ <;>
        simp [CloudEvent.toJson, property, Json.field?]
  | some header =>
      refine ⟨⟨?_, ?_, ⟨time, printed, ?_⟩, ?_, ?_, ?_, ?_⟩, ?_⟩ <;>
        simp [CloudEvent.toJson, property, Json.field?]

/-- The properties of an envelope other than its data hold no number. -/
theorem doubles_toJson (doubles : envelope.data.Doubles) : envelope.toJson.Doubles := by
  have optional : ∀ name value rest,
      Json.DoublesMembers rest → Json.DoublesMembers (property name value ++ rest) := by
    intro name value rest later
    cases value with
    | none => exact later
    | some text => exact ⟨trivial, later⟩
  simp only [CloudEvent.toJson, List.append_assoc, List.cons_append, List.nil_append]
  refine ⟨trivial, trivial, trivial, trivial, trivial, optional _ _ _ (optional _ _ _ ?_)⟩
  have last := optional "traceparent" envelope.traceparent [] trivial
  rw [List.append_nil] at last
  exact ⟨doubles, trivial, trivial, last⟩

namespace ResilientEventConsumer

variable {self : ResilientEventConsumer} {payload : EachMessagePayload} {event : Json}
  {context : TraceContext} {history : List ConsumerEvent} {outcome : Except Thrown Unit}

/-- What is written for a row is checked for its id and its type. -/
theorem readEnvelope_checked (mapped : Outbox.toCloudEvent opts row = .ok envelope)
    (doubles : row.payload.Doubles) (written : payload.message.value = some envelope.wireValue)
    : self.readEnvelope (rawText payload)
      = if row.id = "" ∨ row.eventType = "" then
          .error (.error .error "missing id or type")
        else .ok envelope.toJson := by
  have raw : rawText payload = envelope.toJson.stringify := by
    rw [rawText, written, Option.map_some, CloudEvent.wireValue, Buffer.toText_ofText]
    rfl
  have data : envelope.data.Doubles := by
    obtain ⟨_, _, rfl⟩ := Outbox.toCloudEvent_ok mapped
    exact doubles
  have parsed := Json.parse_stringify_of_doubles (doubles_toJson data)
  obtain ⟨delivers, _⟩ := delivers_toJson mapped
  have checked
      : ((!Json.truthy (envelope.toJson.field? "id")
          || !Json.truthy (envelope.toJson.field? "type")) = true)
        = (row.id = "" ∨ row.eventType = "") := by
    simp [delivers.id, delivers.type, Json.truthy]
  rw [readEnvelope, raw, parsed]
  change (if (!Json.truthy (envelope.toJson.field? "id")
          || !Json.truthy (envelope.toJson.field? "type")) = true then _ else _) = _
  simp only [checked]

/-- What is written for an identified, typed row is read as its envelope: it is no poison pill.
-/
theorem readEnvelope_wireValue (mapped : Outbox.toCloudEvent opts row = .ok envelope)
    (identified : row.id ≠ "") (typed : row.eventType ≠ "") (doubles : row.payload.Doubles)
    (written : payload.message.value = some envelope.wireValue)
    : self.readEnvelope (rawText payload) = .ok envelope.toJson := by
  simp [readEnvelope_checked mapped doubles written, identified, typed]

-----------------------------------------------------------------------------------------
-- What follows the trace context
-----------------------------------------------------------------------------------------

/-- The trace context of a row's envelope. -/
theorem traces_startTraceContext {head : List ConsumerEvent}
    (header : event.field? "traceparent" = row.traceparent.map .str)
    (established
      : Finishes
          (startTraceContext (fun bytes => callConsumer (.randomHex bytes))
            (event.field? "traceparent"))
          head (.ok context))
    : Traces row head context := by
  obtain ⟨inbound, parsed, accepted⟩ :=
    parseInboundTraceparent_header (isHeader_traceparent row)
  rw [header] at established
  cases inbound with
  | none =>
      simp only [startTraceContext_fresh _ parsed, callConsumer, Program.perform_eq,
        Program.done_bind, Program.await_bind, finishes_await, finishes_done] at established
      obtain ⟨traceId, _, rfl, spanId, _, rfl, rfl, same⟩ := established
      cases same
      refine ⟨fun trace parent => ?_, fun _ => ⟨rfl, List.mem_cons_self ..⟩⟩
      rw [← accepted]
      constructor
      · intro absurd
        cases absurd
      · rintro ⟨_, absurd⟩
        cases absurd
  | some inbound =>
      simp only [startTraceContext_joined _ parsed, callConsumer, Program.perform_eq,
        Program.done_bind, Program.await_bind, finishes_await, finishes_done] at established
      obtain ⟨spanId, _, rfl, rfl, same⟩ := established
      cases same
      refine ⟨fun trace parent => ?_, fun none => ?_⟩
      · rw [← accepted, Option.some.injEq, Option.some.injEq]
        constructor
        · rintro rfl
          exact ⟨rfl, rfl⟩
        · rintro ⟨rfl, rfl⟩
          rfl
      · exact (none _ _ ((accepted _ _).mp rfl)).elim

/-- Dispatching routes, logs, dead-letters a failed routing and commits. -/
theorem uses_dispatch {allowed : ConsumerOp → Prop}
    (routing : Uses allowed (self.routeWithRetry context event))
    (notice : ∀ level message, allowed (.log level message))
    (dead : ∀ error, allowed (.deadLetter (deadLetterInput payload .handlerError error)))
    (committed : ∀ topic partition offset, allowed (.commitOffsets topic partition offset))
    : Uses allowed (self.dispatch payload context event) := by
  refine Uses.bind (routing.handle (fun err => ⟨notice _ _, fun _ => ?_⟩)) (fun _ => ?_)
  · exact (Uses.settle _).bind (fun error => ⟨dead error, fun reply => Uses.settle reply⟩)
  · exact ⟨committed _ _ _, fun reply => Uses.settle reply⟩

/-- Only the handler of this type is called, with this event under this context, and nothing
is dead-lettered as a poison pill.
-/
def Dispatches (eventType : String) (event : Json) (context : TraceContext) : ConsumerOp → Prop
  | .handle type given active => type = eventType ∧ given = event ∧ active = context
  | .deadLetter input => input.reason = .handlerError
  | _ => True

/-- The operation calls no handler. -/
def Unhandled : ConsumerOp → Prop
  | .handle _ _ _ => False
  | _ => True

/-- The router calls the handler of the event's type only. -/
theorem uses_route_dispatches {router : EventRouter} {eventType : String}
    (typed : event.field? "type" = some (.str eventType)) (context : TraceContext)
    : Uses (Dispatches eventType event context) (router.route context event) := by
  unfold EventRouter.route
  split
  · exact ⟨trivial, fun _ => trivial⟩
  · rename_i registered found
    have same : registered = eventType := by
      simp only [typed, EventRouter.get?, Option.ite_none_right_eq_some,
        Option.some.injEq] at found
      exact found.2.symm
    refine ⟨trivial, fun _ => ⟨⟨same, rfl, rfl⟩, fun reply => ?_⟩⟩
    exact (Uses.settle reply).bind (fun _ => ⟨trivial, fun _ => trivial⟩)

/-- Dispatching an event of a type calls the handler of that type only. -/
theorem uses_dispatch_dispatches {eventType : String}
    (typed : event.field? "type" = some (.str eventType))
    : Uses (Dispatches eventType event context) (self.dispatch payload context event) :=
  uses_dispatch
    (self.uses_retryFrom_of (uses_route_dispatches typed context)
      (self.uses_pause (fun _ => trivial) (fun _ _ => trivial) (fun _ => trivial) event) _ _ _)
    (fun _ _ => trivial) (fun _ => rfl) (fun _ _ _ => trivial)

/-- An event without a handler, or without an attempt, is given to no handler. -/
theorem uses_dispatch_unhandled
    (none : self.opts.router.get? (event.field? "type") = none ∨ iterations self.maxRetries = 0)
    : Uses Unhandled (self.dispatch payload context event) := by
  refine uses_dispatch ?_ (fun _ _ => trivial) (fun _ => trivial) (fun _ _ _ => trivial)
  rcases none with unregistered | unattempted
  · refine self.uses_retryFrom_of ?_
      (self.uses_pause (fun _ => trivial) (fun _ _ => trivial) (fun _ => trivial) event) _ _ _
    simp only [EventRouter.route, unregistered]
    exact ⟨trivial, fun _ => trivial⟩
  · rw [routeWithRetry, unattempted]
    trivial

/-- What holds of drawing an id and of every call of a dispatch holds of every call of the
delivery.
-/
theorem throughout_of_dispatch {allowed : ConsumerOp → Prop} {traceparent : Value}
    {head tail : List ConsumerEvent} (random : ∀ bytes, allowed (.randomHex bytes))
    (established
      : Finishes (startTraceContext (fun bytes => callConsumer (.randomHex bytes)) traceparent)
          head (.ok context))
    (later : ∀ event ∈ tail, allowed event.op)
    : ∀ event ∈ head ++ tail, allowed event.op := by
  intro event member
  rcases List.mem_append.mp member with early | late
  · exact (uses_startTraceContext random traceparent).of_run established event early
  · exact later event late

/-- Routing an event that has a handler calls it. -/
theorem handled_route {eventType : String} {events : List ConsumerEvent}
    (handler : self.opts.router.get? (event.field? "type") = some eventType)
    (run : Finishes (self.opts.router.route context event) events outcome)
    : ∃ reply, ⟨.handle eventType event context, reply⟩ ∈ events := by
  simp only [EventRouter.route, handler, callConsumer, Program.perform_eq, Program.bind_eq,
    Program.await_bind, Program.done_bind, finishes_await] at run
  obtain ⟨_, _, rfl, reply, _, rfl, _⟩ := run
  exact ⟨reply, List.mem_cons_of_mem _ (List.mem_cons_self ..)⟩

/-- Dispatching an event that has a handler, with an attempt to make, calls the handler. -/
theorem handled_dispatch {eventType : String} {events : List ConsumerEvent}
    (handler : self.opts.router.get? (event.field? "type") = some eventType)
    (attempted : iterations self.maxRetries ≠ 0)
    (run : Finishes (self.dispatch payload context event) events outcome)
    : ∃ reply, ⟨.handle eventType event context, reply⟩ ∈ events := by
  obtain ⟨left, more⟩ := Nat.exists_eq_succ_of_ne_zero attempted
  -- a complete dispatch begins with complete runs of its parts, down to the router
  obtain ⟨guarded, later, _, rfl, guardedRun⟩ := run.bind_first
  obtain ⟨retrying, dead, _, rfl, retryRun⟩ := guardedRun.handle_first
  rw [routeWithRetry, more, retryFrom] at retryRun
  obtain ⟨routing, retried, _, rfl, routeRun⟩ := retryRun.handle_first
  obtain ⟨reply, member⟩ := handled_route handler routeRun
  exact
    ⟨reply,
      List.mem_append_left _ (List.mem_append_left _ (List.mem_append_left _ member))⟩

-----------------------------------------------------------------------------------------
-- Agreement
-----------------------------------------------------------------------------------------

/-- The consumer agrees with the publisher on a delivery of the row's message: it accepts the
message, and gives it to the handler of the row's event type alone, with the data and under
the trace context of the row.
-/
structure WireAgreement (consumer : ResilientEventConsumer) (payload : EachMessagePayload)
    (row : Outbox.ClaimedOutboxEvent) (history : List ConsumerEvent)
    : Prop where
  accepted
    : (consumer.readEnvelope (rawText payload)).isOk = true
      ∧ ∀ input ∈ deadLetters history, input.reason ≠ .poisonPill
  handled
    : ∀ eventType event context reply,
        ⟨.handle eventType event context, reply⟩ ∈ history
        → eventType = row.eventType ∧ Delivers row event ∧ Traces row history context
  called
    : (∃ eventType event context reply,
          ⟨.handle eventType event context, reply⟩ ∈ history)
      ↔ row.eventType ∈ consumer.opts.router.handlers

/-- What is dead-lettered was given to the dead-letter producer. -/
theorem mem_deadLetters {input : DeadLetterInput} (member : input ∈ deadLetters history)
    : ∃ event ∈ history, event.op = .deadLetter input := by
  obtain ⟨event, happened, same⟩ := List.mem_filterMap.mp member
  refine ⟨event, happened, ?_⟩
  cases op : event.op with
  | deadLetter given =>
      simp only [op, Option.some.injEq] at same
      rw [same]
  | commitOffsets | handle | onRetry | sleep | randomHex | log => simp [op] at same

/-- The message of a row is given to its handler exactly where there is one and the retry
bound allows an attempt; all the rest of the agreement holds anyway.
-/
theorem wireAgreement_written (mapped : Outbox.toCloudEvent opts row = .ok envelope)
    (identified : row.id ≠ "") (typed : row.eventType ≠ "") (doubles : row.payload.Doubles)
    (written : payload.message.value = some envelope.wireValue)
    (run : Finishes (self.eachMessage payload) history outcome)
    : self.WireAgreement payload row history
      ↔ row.eventType ∉ self.opts.router.handlers ∨ iterations self.maxRetries ≠ 0 := by
  have read : self.readEnvelope (rawText payload) = .ok envelope.toJson :=
    readEnvelope_wireValue mapped identified typed doubles written
  obtain ⟨delivers, header⟩ := delivers_toJson mapped
  obtain ⟨inbound, parsed, _⟩ := parseInboundTraceparent_header (isHeader_traceparent row)
  rw [← header] at parsed
  obtain ⟨head, context, tail, rfl, established, dispatched⟩ :=
    finishes_eachMessage_dispatch read parsed run
  have dispatches :=
    throughout_of_dispatch (fun _ => trivial) established
      ((uses_dispatch_dispatches delivers.type).of_run dispatched)
  have unhandled
      (none
        : self.opts.router.get? (envelope.toJson.field? "type") = none
          ∨ iterations self.maxRetries = 0)
      : ∀ event ∈ head ++ tail, Unhandled event.op :=
    throughout_of_dispatch (fun _ => trivial) established
      ((uses_dispatch_unhandled none).of_run dispatched)
  have registered : self.opts.router.get? (envelope.toJson.field? "type")
      = if row.eventType ∈ self.opts.router.handlers then some row.eventType else none := by
    rw [delivers.type]
    rfl
  constructor
  · intro agreement
    by_cases handler : row.eventType ∈ self.opts.router.handlers
    · refine Or.inr (fun none => ?_)
      obtain ⟨eventType, event, active, reply, member⟩ := agreement.called.mpr handler
      exact unhandled (Or.inr none) _ member
    · exact Or.inl handler
  · intro attempted
    refine ⟨⟨by rw [read]; rfl, fun input sent => ?_⟩,
      fun eventType event active reply member => ?_, ?_⟩
    · obtain ⟨event, member, same⟩ := mem_deadLetters sent
      have reason := dispatches event member
      rw [same] at reason
      rw [show input.reason = .handlerError from reason]
      nofun
    · obtain ⟨same, rfl, rfl⟩ := dispatches _ member
      exact ⟨same, delivers, (traces_startTraceContext header established).append tail⟩
    · constructor
      · rintro ⟨eventType, event, active, reply, member⟩
        by_contra unregistered
        rw [if_neg unregistered] at registered
        exact unhandled (Or.inl registered) _ member
      · intro handler
        rw [if_pos handler] at registered
        obtain ⟨reply, member⟩ :=
          handled_dispatch registered (attempted.resolve_left (not_not.mpr handler)) dispatched
        exact ⟨_, _, _, reply, List.mem_append_right _ member⟩

/-- The retry bound is not infinite, whether it is given or the default. -/
theorem maxRetries_bounded (self : ResilientEventConsumer)
    : self.maxRetries ≠ .infinity false := by
  have given := self.bounded
  unfold maxRetries
  cases option : self.opts.maxRetries with
  | none => nofun
  | some bound =>
      rintro rfl
      exact given option

end ResilientEventConsumer

/-- For every row with an id, an event type, a valid date and any JSON payload there is an
envelope, and in every delivery of the message written for it the consumer agrees with the
publisher, exactly where the event type has no handler or the retry bound is at least zero.
-/
theorem wireAgreement_iff (opts : Outbox.OutboxPublisherOptions)
    (row : Outbox.ClaimedOutboxEvent) (identified : row.id ≠ "") (typed : row.eventType ≠ "")
    (dated : row.createdAt ≠ .invalid) (doubles : row.payload.Doubles)
    : ∃ envelope,
        Outbox.toCloudEvent opts row = .ok envelope
        ∧ ∀ (consumer : ResilientEventConsumer) payload history outcome,
            payload.message.value = some envelope.wireValue
            → Finishes (consumer.eachMessage payload) history outcome
            → (consumer.WireAgreement payload row history
                ↔ row.eventType ∉ consumer.opts.router.handlers
                  ∨ consumer.maxRetries.ge (.ofNat 0) = true) := by
  obtain ⟨envelope, mapped⟩ := Outbox.toCloudEvent_dated opts dated
  refine ⟨envelope, mapped, fun consumer payload history outcome written run => ?_⟩
  rw [ResilientEventConsumer.wireAgreement_written mapped identified typed doubles written run,
    ← lt_iterations_iff consumer.maxRetries_bounded 0, Nat.pos_iff_ne_zero]

/-- A row of a note, with a number in its payload and the header of a trace. -/
def noteRow : Outbox.ClaimedOutboxEvent where
  id := "1"
  aggregateType := "Note"
  aggregateId := "note-1"
  eventType := "note"
  orgId := "org-1"
  payload := .obj [("version", .num (.finite 3))]
  attempts := 0
  createdAt := .valid 0
  traceparent := some "00-0af7651916cd43dd8448eb211c80319c-b7ad6b7169203331-01"

/-- The envelope of the note. -/
def noteEnvelope : CloudEvent where
  specversion := "1.0"
  id := "1"
  source := "/cortex/core-api/Note"
  type := "note"
  time := "1970-01-01T00:00:00.000Z"
  subject := some "note-1"
  datacontenttype := some "application/json"
  data := .obj [("version", .num (.finite 3))]
  orgid := "org-1"
  partitionkey := "note-1"
  traceparent := some "00-0af7651916cd43dd8448eb211c80319c-b7ad6b7169203331-01"

theorem toCloudEvent_noteRow
    : Outbox.toCloudEvent Outbox.sampleOptions noteRow = .ok noteEnvelope :=
  rfl

/-- The number three is a double. -/
theorem doubles_noteRow : noteRow.payload.Doubles := by
  have three : Number.ofRat ((3 : Nat) : ℚ) = .finite ((3 : Nat) : ℚ) :=
    Number.ofRat_natCast (by norm_num)
  exact ⟨by exact_mod_cast three, trivial⟩

/-- A note that its handler rejects is still given to it as the row has it. -/
theorem wireAgreement_iff_noteRow
    : (noteConsumer (.ofNat 1) nofun).WireAgreement
        (textMessage noteEnvelope.toJson.stringify) noteRow
        (execute (F := ConsumerEffects) rejectNotes ()
          ((noteConsumer (.ofNat 1) nofun).eachMessage
            (textMessage noteEnvelope.toJson.stringify))).1 := by
  obtain ⟨envelope, mapped, agreement⟩ :=
    wireAgreement_iff Outbox.sampleOptions noteRow (by decide) (by decide) nofun doubles_noteRow
  obtain rfl := Except.ok.inj (toCloudEvent_noteRow.symm.trans mapped)
  exact
    (agreement _ _ _ _ rfl (execute_finishes (F := ConsumerEffects) rejectNotes () _)).mpr
      (Or.inr rfl)

/-- Where the retry bound is not a number, the note is given to no handler although there is
one.
-/
theorem wireAgreement_skipsHandler
    : ∃ history outcome,
        Finishes
          ((noteConsumer .nan nofun).eachMessage (textMessage noteEnvelope.toJson.stringify))
          history outcome
        ∧ ¬ (noteConsumer .nan nofun).WireAgreement
              (textMessage noteEnvelope.toJson.stringify) noteRow history := by
  have run :=
    execute_finishes (F := ConsumerEffects) rejectNotes ()
      ((noteConsumer .nan nofun).eachMessage (textMessage noteEnvelope.toJson.stringify))
  refine ⟨_, _, run, fun agreement => ?_⟩
  have absurd :=
    (ResilientEventConsumer.wireAgreement_written toCloudEvent_noteRow (by decide) (by decide)
      doubles_noteRow rfl run).mp agreement
  rcases absurd with unregistered | attempted
  · exact unregistered (List.mem_singleton_self _)
  · exact attempted rfl

end SharedKernel.Messaging
