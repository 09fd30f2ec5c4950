import SharedKernel.Messaging.EventRouter

/-! The at-least-once consumption loop: a message is routed with bounded retry, or
dead-lettered, and its offset is committed after that.
-/

namespace SharedKernel.Messaging

open Foundation Js Tracing

/-- The consumer's options; `onRetry` tells whether the metrics hook is wired. -/
structure ResilientConsumerOptions where
  topics : List String
  router : EventRouter
  maxRetries : Option Number
  retryBackoffMs : Option Number
  onRetry : Bool

/-- A consumer: its options, and the text of the SyntaxError that the runtime's JSON parser
throws. An infinite retry bound is left out: its loop has no end.
-/
structure ResilientEventConsumer where
  opts : ResilientConsumerOptions
  syntaxMessage : String → String
  bounded : opts.maxRetries ≠ some (.infinity false)

/-- The number of naturals that are at most a number, which is how often the loop
`for (let attempt = 0; attempt <= bound; attempt++)` runs; an infinite bound counts as none.
-/
def iterations : Number → Nat
  | .finite bound => if bound < 0 then 0 else ⌊bound⌋.toNat + 1
  | .nan | .infinity _ => 0

/-- The loop runs for exactly the attempts that meet its condition. -/
theorem lt_iterations_iff {bound : Number} (bounded : bound ≠ .infinity false) (attempt : Nat)
    : attempt < iterations bound ↔ bound.ge (.ofNat attempt) = true := by
  cases bound with
  | nan => simp [iterations, Number.ge]
  | infinity negative =>
      cases negative with
      | true => simp [iterations, Number.ge, Number.ofNat]
      | false => exact absurd rfl bounded
  | finite bound =>
      simp only [iterations, Number.ge, Number.ofNat, decide_eq_true_eq]
      have floor : (attempt : ℚ) ≤ bound ↔ (attempt : ℤ) ≤ ⌊bound⌋ := by
        rw [Int.le_floor]
        norm_cast
      rw [floor]
      split
      · rename_i negative
        have below : ⌊bound⌋ < 0 := Int.floor_lt.mpr (by exact_mod_cast negative)
        omega
      · rename_i natural
        have above : 0 ≤ ⌊bound⌋ := Int.floor_nonneg.mpr (not_lt.mp natural)
        omega

namespace ResilientEventConsumer

variable (self : ResilientEventConsumer)

def maxRetries : Number :=
  self.opts.maxRetries.getD (.ofNat 3)

def retryBackoffMs : Number :=
  self.opts.retryBackoffMs.getD (.ofNat 500)

/-- The body of the first `try`: parse the envelope and check its two required fields. -/
def readEnvelope (raw : String) : Except Thrown Json :=
  match Json.parse raw with
  | none => .error (.error .syntaxError (self.syntaxMessage raw))
  | some .null => .error (.error .typeError "Cannot read properties of null (reading 'id')")
  | some event =>
      if !Json.truthy (event.field? "id") || !Json.truthy (event.field? "type") then
        .error (.error .error "missing id or type")
      else .ok event

/-- What happens between two attempts. -/
def pause (event : Json) (attempt : Nat) : ConsumerProgram Unit := do
  if self.opts.onRetry then
    Program.settle (← callConsumer (.onRetry (event.field? "type")))
  let _ ← callConsumer (.log .warn "Handler error — retrying")
  Program.settle
    (← callConsumer (.sleep (self.retryBackoffMs.mul (.ofNat (attempt + 1)))))

/-- The attempts that are left, from one on; when none is left the last error is thrown. -/
def retryFrom (context : TraceContext) (event : Json)
    : Nat → Nat → Thrown → ConsumerProgram Unit
  | 0, _, lastErr => throw lastErr
  | left + 1, attempt, _ =>
      tryCatch (self.opts.router.route context event) (fun err => do
        if self.maxRetries.gt (.ofNat attempt) then
          self.pause event attempt
        retryFrom context event left (attempt + 1) err)

/-- Route an event, retrying within the budget. -/
def routeWithRetry (context : TraceContext) (event : Json) : ConsumerProgram Unit :=
  self.retryFrom context event (iterations self.maxRetries) 0 .undefined

/-- Commit the offset after the message. -/
def commit (payload : EachMessagePayload) : ConsumerProgram Unit := do
  Program.settle
    (← callConsumer
      (.commitOffsets payload.topic payload.partition (nextOffset payload.message.offset)))

/-- What the dead-letter producer is given about a message. -/
def deadLetterInput (payload : EachMessagePayload) (reason : DeadLetterReason) (error : String)
    : DeadLetterInput where
  topic := payload.topic
  key := payload.message.key
  value := payload.message.value
  reason
  error
  partition := payload.partition
  offset := payload.message.offset

/-- Log an error and send the message to the dead-letter producer. -/
def deadLetter (payload : EachMessagePayload) (reason : DeadLetterReason) (notice : String)
    (err : Thrown)
    : ConsumerProgram Unit := do
  let _ ← callConsumer (.log .error notice)
  let error ← Program.settle err.toText
  Program.settle (← callConsumer (.deadLetter (deadLetterInput payload reason error)))

/-- One message of a subscribed topic. -/
def eachMessage (payload : EachMessagePayload) : ConsumerProgram Unit := do
  let raw := (payload.message.value.map Buffer.toText).getD ""
  if raw = "" then commit payload
  else
    match self.readEnvelope raw with
    | .error err => do
        deadLetter payload .poisonPill "Poison pill — dead-lettering message" err
        commit payload
    | .ok event => do
        let context ←
          startTraceContext (fun bytes => callConsumer (.randomHex bytes))
            (event.field? "traceparent")
        tryCatch (self.routeWithRetry context event)
          (deadLetter payload .handlerError
            "Handler failed after retries — dead-lettering message")
        commit payload

-----------------------------------------------------------------------------------------
-- What one message comes to
-----------------------------------------------------------------------------------------

/-- The text of a message, empty for a tombstone. -/
def rawText (payload : EachMessagePayload) : String :=
  (payload.message.value.map Buffer.toText).getD ""

/-- Only a missing or an empty value has no text. -/
theorem rawText_eq_empty (payload : EachMessagePayload)
    : rawText payload = "" ↔ payload.message.value.getD [] = [] := by
  unfold rawText
  cases payload.message.value with
  | none => simp
  | some bytes => simpa using Buffer.toText_eq_empty bytes

/-- The history holds a complete run of the router on the message's event. -/
def Routed (payload : EachMessagePayload) (history : List ConsumerEvent) : Prop :=
  ∃ event context before events after,
    self.readEnvelope (rawText payload) = .ok event
    ∧ history = before ++ events ++ after
    ∧ Finishes (self.opts.router.route context event) events (.ok ())

/-- The dead-letter producer has accepted the message. -/
def DeadLettered (payload : EachMessagePayload) (history : List ConsumerEvent) : Prop :=
  ∃ input,
    ⟨.deadLetter input, .ok ()⟩ ∈ history
    ∧ input.topic = payload.topic
    ∧ input.key = payload.message.key
    ∧ input.value = payload.message.value

/-- The message needs no further delivery: it is empty, routed or dead-lettered. -/
def Settled (payload : EachMessagePayload) (history : List ConsumerEvent) : Prop :=
  payload.message.value.getD [] = []
  ∨ self.Routed payload history
  ∨ DeadLettered payload history

/-- A settled message stays settled. -/
theorem Settled.append {self : ResilientEventConsumer} {payload : EachMessagePayload}
    {history : List ConsumerEvent} (settled : self.Settled payload history)
    (more : List ConsumerEvent)
    : self.Settled payload (history ++ more) := by
  rcases settled with empty | ⟨event, context, before, events, after, read, rfl, run⟩ |
    ⟨input, sent, same⟩
  · exact Or.inl empty
  · refine Or.inr (Or.inl ⟨event, context, before, events, after ++ more, read, ?_, run⟩)
    rw [List.append_assoc]
  · exact Or.inr (Or.inr ⟨input, List.mem_append_left more sent, same⟩)

/-- An operation that neither commits nor dead-letters. -/
def Quiet : ConsumerOp → Prop
  | .commitOffsets _ _ _ | .deadLetter _ => False
  | _ => True

/-- The commit names the successor of the message's offset and comes once the message is
settled; the message is dead-lettered at most once, with its own key and value.
-/
def Guard (payload : EachMessagePayload) (history : List ConsumerEvent) : ConsumerOp → Prop
  | .commitOffsets topic partition offset =>
      topic = payload.topic
      ∧ partition = payload.partition
      ∧ offset = nextOffset payload.message.offset
      ∧ self.Settled payload history
  | .deadLetter input =>
      input.topic = payload.topic
      ∧ input.key = payload.message.key
      ∧ input.value = payload.message.value
      ∧ ∀ event ∈ history, Quiet event.op
  | _ => True

theorem guard_of_quiet {payload : EachMessagePayload} {history : List ConsumerEvent}
    {op : ConsumerOp} (quiet : Quiet op)
    : self.Guard payload history op := by
  cases op with
  | commitOffsets | deadLetter => exact quiet.elim
  | handle | onRetry | sleep | randomHex | log => trivial

theorem uses_route (router : EventRouter) (context : TraceContext) (event : Json)
    : Uses Quiet (router.route context event) := by
  unfold EventRouter.route
  split
  · exact ⟨trivial, fun _ => trivial⟩
  · refine ⟨trivial, fun _ => ⟨trivial, fun reply => ?_⟩⟩
    cases reply with
    | error error => trivial
    | ok _ => exact ⟨trivial, fun _ => trivial⟩

/-- A pause calls the metrics hook, the logger and the clock. -/
theorem uses_pause {allowed : ConsumerOp → Prop} (hook : ∀ type, allowed (.onRetry type))
    (notice : ∀ level message, allowed (.log level message)) (wait : ∀ ms, allowed (.sleep ms))
    (event : Json) (attempt : Nat)
    : Uses allowed (self.pause event attempt) := by
  have rest : Uses allowed
      (do
        let _ ← callConsumer (.log .warn "Handler error — retrying")
        Program.settle
          (← callConsumer (.sleep (self.retryBackoffMs.mul (.ofNat (attempt + 1)))))) :=
    ⟨notice _ _, fun _ => ⟨wait _, fun reply => Uses.settle reply⟩⟩
  unfold pause
  split
  · refine ⟨hook _, fun reply => ?_⟩
    exact (Uses.settle reply).bind (fun _ => rest)
  · exact rest

/-- Retrying only routes and pauses, by induction on the attempts left. -/
theorem uses_retryFrom_of {allowed : ConsumerOp → Prop} {context : TraceContext} {event : Json}
    (routing : Uses allowed (self.opts.router.route context event))
    (pausing : ∀ attempt, Uses allowed (self.pause event attempt)) (left attempt : Nat)
    (lastErr : Thrown)
    : Uses allowed (self.retryFrom context event left attempt lastErr) := by
  induction left generalizing attempt lastErr with
  | zero => trivial
  | succ left ih =>
      apply routing.handle
      intro err
      split
      · exact (pausing attempt).bind (fun _ => ih _ _)
      · exact ih _ _

/-- Retrying neither commits nor dead-letters. -/
theorem uses_retryFrom (context : TraceContext) (event : Json) (left attempt : Nat)
    (lastErr : Thrown)
    : Uses Quiet (self.retryFrom context event left attempt lastErr) :=
  self.uses_retryFrom_of (uses_route self.opts.router context event)
    (self.uses_pause (fun _ => trivial) (fun _ _ => trivial) (fun _ => trivial) event) left
    attempt lastErr

/-- Establishing the trace context only draws random identifiers. -/
theorem uses_startTraceContext {allowed : ConsumerOp → Prop}
    (random : ∀ bytes, allowed (.randomHex bytes)) (traceparent : Value)
    : Uses allowed
        (startTraceContext (fun bytes => callConsumer (.randomHex bytes)) traceparent) := by
  unfold startTraceContext
  apply (Uses.settle _).bind
  intro inbound
  cases inbound with
  | none => exact ⟨random 16, fun _ => ⟨random 8, fun _ => trivial⟩⟩
  | some inbound => exact ⟨random 8, fun _ => trivial⟩

/-- Retrying resolves at the end of a complete run of the router, by induction on the
attempts left.
-/
theorem finishes_retryFrom {context : TraceContext} {event : Json} {left attempt : Nat}
    {lastErr : Thrown} {events : List ConsumerEvent}
    (run : Finishes (self.retryFrom context event left attempt lastErr) events (.ok ()))
    : ∃ before last,
        events = before ++ last
        ∧ Finishes (self.opts.router.route context event) last (.ok ()) := by
  induction left generalizing attempt lastErr events with
  | zero => simp [retryFrom] at run
  | succ left ih =>
      rw [retryFrom, Program.tryCatch_eq, finishes_handle] at run
      rcases run with ⟨_, _, routed⟩ | ⟨err, head, tail, rfl, _, retried⟩
      · exact ⟨[], events, rfl, routed⟩
      · have last : ∃ skipped rest lastErr',
            tail = skipped ++ rest
            ∧ Finishes (self.retryFrom context event left (attempt + 1) lastErr') rest
                (.ok ()) := by
          split at retried
          · rw [Program.bind_eq, finishes_bind] at retried
            rcases retried with ⟨_, absurd, _⟩ | ⟨_, skipped, rest, rfl, _, later⟩
            · cases absurd
            · exact ⟨skipped, rest, err, rfl, later⟩
          · exact ⟨[], tail, err, rfl, retried⟩
        obtain ⟨skipped, rest, lastErr', rfl, later⟩ := last
        obtain ⟨before, final, rfl, routed⟩ := ih later
        exact ⟨head ++ skipped ++ before, final, by simp, routed⟩

/-- Committing is guarded once the message is settled. -/
theorem safe_commit {payload : EachMessagePayload} {history : List ConsumerEvent}
    (settled : self.Settled payload history)
    : Safe (self.Guard payload)
        (fun later outcome => outcome = .ok () → self.Settled payload later)
        history (commit payload) := by
  refine ⟨⟨rfl, rfl, rfl, settled⟩, fun reply => ?_⟩
  have still := settled.append [⟨_, reply⟩]
  cases reply with
  | error error => exact fun _ => still
  | ok _ => exact fun _ => still

/-- A message is dead-lettered after quiet operations only, and is settled by it. -/
theorem safe_deadLetter {payload : EachMessagePayload} {history : List ConsumerEvent}
    (quiet : ∀ event ∈ history, Quiet event.op) (reason : DeadLetterReason) (notice : String)
    (err : Thrown)
    : Safe (self.Guard payload)
        (fun later outcome => outcome = .ok () → self.Settled payload later)
        history (deadLetter payload reason notice err) := by
  refine ⟨trivial, fun reply => ?_⟩
  have stillQuiet : ∀ event ∈ history ++ [⟨.log .error notice, reply⟩], Quiet event.op := by
    intro event member
    rcases List.mem_append.mp member with before | now
    · exact quiet event before
    · obtain rfl := List.mem_singleton.mp now
      trivial
  cases err.toText with
  | error error => exact fun absurd => by cases absurd
  | ok text =>
      refine ⟨⟨rfl, rfl, rfl, stillQuiet⟩, fun sent => ?_⟩
      cases sent with
      | error error => exact fun absurd => by cases absurd
      | ok _ =>
          intro _
          have sent : ⟨.deadLetter (deadLetterInput payload reason text), .ok ()⟩
              ∈ history ++ [⟨.log .error notice, reply⟩]
                ++ [⟨.deadLetter (deadLetterInput payload reason text), .ok ()⟩] := by
            simp
          exact Or.inr (Or.inr ⟨_, sent, rfl, rfl, rfl⟩)

/-- Routing with retry is quiet, and a message is settled where it resolves. -/
theorem safe_routeWithRetry {payload : EachMessagePayload} {history : List ConsumerEvent}
    {event : Json} (context : TraceContext)
    (read : self.readEnvelope (rawText payload) = .ok event)
    (quiet : ∀ earlier ∈ history, Quiet earlier.op)
    : Safe (self.Guard payload)
        (fun later outcome =>
          (∀ earlier ∈ later, Quiet earlier.op)
          ∧ (outcome = .ok () → self.Settled payload later))
        history (self.routeWithRetry context event) := by
  have uses := self.uses_retryFrom context event (iterations self.maxRetries) 0 .undefined
  apply (uses.safe (fun _ _ => self.guard_of_quiet)).mono (fun _ _ met => met)
  intro _ outcome ran
  obtain ⟨events, same, run⟩ := ran
  obtain rfl := List.append_cancel_left same
  constructor
  · intro earlier member
    rcases List.mem_append.mp member with before | now
    · exact quiet earlier before
    · exact uses.of_run run earlier now
  · intro settled
    subst settled
    obtain ⟨before, last, rfl, routed⟩ := self.finishes_retryFrom run
    refine Or.inr (Or.inl ⟨event, context, history ++ before, last, [], read, ?_, routed⟩)
    simp

/-- One message is committed, with the successor of its offset, only once it is settled, and
it is dead-lettered at most once; witness: each branch settles it before the commit.
-/
theorem safe_eachMessage (payload : EachMessagePayload)
    : Safe (self.Guard payload)
        (fun history outcome => outcome = .ok () → self.Settled payload history)
        [] (self.eachMessage payload) := by
  have raw : (payload.message.value.map Buffer.toText).getD "" = rawText payload := rfl
  have then_commit : ∀ {history : List ConsumerEvent} {program : ConsumerProgram Unit},
      Safe (self.Guard payload)
        (fun later outcome => outcome = .ok () → self.Settled payload later) history program
      → Safe (self.Guard payload)
          (fun later outcome => outcome = .ok () → self.Settled payload later)
          history (program.bind (fun _ => commit payload)) :=
    fun safe => safe.seq (fun _ settled => self.safe_commit settled) (by simp)
  unfold eachMessage
  simp only [raw]
  split
  · rename_i empty
    exact self.safe_commit (Or.inl ((rawText_eq_empty payload).mp empty))
  · cases read : self.readEnvelope (rawText payload) with
    | error err =>
        exact then_commit (self.safe_deadLetter (by simp) _ _ err)
    | ok event =>
        have tracing : Uses Quiet _ :=
          uses_startTraceContext (fun _ => trivial) (event.field? "traceparent")
        simp only [Program.bind_eq, Program.tryCatch_eq]
        rw [safe_bind]
        apply (tracing.safe (fun _ _ => self.guard_of_quiet)).mono (fun _ _ met => met)
        intro _ outcome ran
        obtain ⟨events, rfl, run⟩ := ran
        cases outcome with
        | error error => exact fun absurd => by cases absurd
        | ok context =>
            have quiet := tracing.of_run run
            apply then_commit
            rw [safe_handle]
            apply (self.safe_routeWithRetry context read quiet).mono (fun _ _ met => met)
            intro later outcome ended
            obtain ⟨stillQuiet, settled⟩ := ended
            cases outcome with
            | ok _ => exact settled
            | error err => exact self.safe_deadLetter stillQuiet _ _ err

end ResilientEventConsumer
end SharedKernel.Messaging
