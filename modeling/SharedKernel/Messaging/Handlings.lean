import SharedKernel.Foundation.Budget
import SharedKernel.Messaging.RetryLaw

/-! What one delivery does with its handler: how often it calls it, and that it neither calls
it again nor dead-letters the message once the handler has resolved.
-/

namespace SharedKernel.Messaging

open Foundation Js Tracing

/-- The operation calls a handler. -/
def ConsumerOp.isHandle : ConsumerOp → Bool
  | .handle _ _ _ => true
  | _ => false

/-- How often a handler was called in a history. -/
def handlings (history : List ConsumerEvent) : Nat :=
  history.countP (fun event => event.op.isHandle)

/-- A handler has resolved. -/
def succeeded : ConsumerEvent → Bool
  | ⟨.handle _ _ _, .ok _⟩ => true
  | _ => false

/-- How often a handler has resolved in a history. -/
def successes (history : List ConsumerEvent) : Nat :=
  history.countP succeeded

/-- The event is no success of a handler and no dead letter. -/
def Unresolved (event : ConsumerEvent) : Prop :=
  succeeded event = false ∧ ∀ input, event.op ≠ .deadLetter input

namespace ResilientEventConsumer

variable {self : ResilientEventConsumer} {payload : EachMessagePayload} {event : Json}
  {context : TraceContext} {history : List ConsumerEvent} {rest : ConsumerProgram Unit}

-----------------------------------------------------------------------------------------
-- How often a handler is called
-----------------------------------------------------------------------------------------

/-- The operation calls no handler. -/
abbrev NoHandle (op : ConsumerOp) : Prop :=
  op.isHandle = false

theorem atMost_route (router : EventRouter)
    : AtMost ConsumerOp.isHandle 1 (router.route context event) := by
  unfold EventRouter.route
  split
  · exact fun _ => trivial
  · intro _
    refine ⟨0, rfl, fun reply => ?_⟩
    cases reply with
    | error err => trivial
    | ok _ => exact fun _ => trivial

/-- Retrying calls a handler once for each attempt left, by induction on these. -/
theorem atMost_retryFrom (left attempt : Nat) (lastErr : Thrown)
    : AtMost ConsumerOp.isHandle left (self.retryFrom context event left attempt lastErr) := by
  induction left generalizing attempt lastErr with
  | zero => trivial
  | succ left ih =>
      rw [retryFrom, Program.tryCatch_eq]
      refine (AtMost.handle (atMost_route self.opts.router) (fun err => ?_)).mono
        (Nat.add_comm 1 left).le
      split
      · have pausing : Uses NoHandle (self.pause event attempt) :=
          self.uses_pause (fun _ => rfl) (fun _ _ => rfl) (fun _ => rfl) event attempt
        have onward := pausing.atMost.bind (fun _ => ih (attempt + 1) err)
        rwa [Nat.zero_add] at onward
      · exact ih (attempt + 1) err

theorem uses_deadLetter_noHandle (reason : DeadLetterReason) (notice : String) (err : Thrown)
    : Uses NoHandle (deadLetter payload reason notice err) :=
  ⟨rfl, fun _ => (Uses.settle _).bind (fun _ => ⟨rfl, fun reply => Uses.settle reply⟩)⟩

theorem uses_commit_noHandle : Uses NoHandle (commit payload) :=
  ⟨rfl, fun reply => Uses.settle reply⟩

/-- One delivery calls a handler at most as often as the retry loop runs. -/
theorem atMost_eachMessage
    : AtMost ConsumerOp.isHandle (iterations self.maxRetries) (self.eachMessage payload) := by
  have none_needed : ∀ {program : ConsumerProgram Unit},
      Uses NoHandle program
      → AtMost ConsumerOp.isHandle (iterations self.maxRetries) program :=
    fun uses => uses.atMost.mono (Nat.zero_le _)
  unfold eachMessage
  simp only []
  split
  · exact none_needed uses_commit_noHandle
  · split
    · exact none_needed
        ((uses_deadLetter_noHandle _ _ _).bind (fun _ => uses_commit_noHandle))
    · rename_i event _
      have tracing : Uses NoHandle _ :=
        uses_startTraceContext (fun _ => rfl) (event.field? "traceparent")
      have dispatched := tracing.atMost.bind (fun context =>
        (AtMost.handle
            (@atMost_retryFrom self event context (iterations self.maxRetries) 0 .undefined)
            (fun err =>
              (@uses_deadLetter_noHandle payload .handlerError
                "Handler failed after retries — dead-lettering message" err).atMost)).bind
          (fun _ => (@uses_commit_noHandle payload).atMost))
      rwa [Nat.zero_add] at dispatched

/-- A delivery, complete or not, calls a handler at most as often as the retry loop runs. -/
theorem handlings_le (run : Run (self.eachMessage payload) history rest)
    : handlings history ≤ iterations self.maxRetries :=
  atMost_eachMessage.of_run run

-----------------------------------------------------------------------------------------
-- What follows a success
-----------------------------------------------------------------------------------------

/-- Handlers are called, and the message is dead-lettered, only while nothing is resolved. -/
def WhileUnresolved (history : List ConsumerEvent) : ConsumerOp → Prop
  | .handle _ _ _ | .deadLetter _ => ∀ event ∈ history, Unresolved event
  | _ => True

/-- The operation neither calls a handler nor dead-letters. -/
def Aside : ConsumerOp → Prop
  | .handle _ _ _ | .deadLetter _ => False
  | _ => True

theorem unresolved_append {more : List ConsumerEvent}
    (before : ∀ event ∈ history, Unresolved event) (after : ∀ event ∈ more, Unresolved event)
    : ∀ event ∈ history ++ more, Unresolved event := by
  intro event member
  rcases List.mem_append.mp member with early | late
  · exact before event early
  · exact after event late

theorem unresolved_of_aside {event : ConsumerEvent} (aside : Aside event.op)
    : Unresolved event := by
  obtain ⟨op, reply⟩ := event
  cases op with
  | handle | deadLetter => exact aside.elim
  | commitOffsets | onRetry | sleep | randomHex | log => exact ⟨rfl, nofun⟩

theorem unresolved_logged {level : LogLevel} {message : String} {reply : Unit}
    (before : ∀ event ∈ history, Unresolved event)
    : ∀ event ∈ history ++ [⟨.log level message, reply⟩], Unresolved event := by
  apply unresolved_append before
  intro event member
  rw [List.mem_singleton.mp member]
  exact unresolved_of_aside trivial

/-- What is done aside leaves everything unresolved. -/
theorem safe_aside {α : Type} {program : ConsumerProgram α} (uses : Uses Aside program)
    (before : ∀ event ∈ history, Unresolved event)
    : Safe WhileUnresolved (fun later _ => ∀ event ∈ later, Unresolved event) history program := by
  refine (uses.safe (fun later op aside => ?_)).mono (fun _ _ met => met) ?_
  · cases op with
    | handle | deadLetter => exact aside.elim
    | commitOffsets | onRetry | sleep | randomHex | log => trivial
  · rintro later outcome ⟨events, same, run⟩
    rw [same]
    exact unresolved_append before
      (fun event member => unresolved_of_aside (uses.of_run run event member))

/-- The router leaves everything unresolved where it fails. -/
theorem safe_route_unresolved (router : EventRouter)
    (before : ∀ event ∈ history, Unresolved event)
    : Safe WhileUnresolved
        (fun later outcome => outcome ≠ .ok () → ∀ event ∈ later, Unresolved event)
        history (router.route context event) := by
  unfold EventRouter.route
  split
  · exact ⟨trivial, fun _ resolved => absurd rfl resolved⟩
  · refine ⟨trivial, fun _ => ?_⟩
    refine ⟨unresolved_logged before, fun reply => ?_⟩
    cases reply with
    | error err =>
        intro _
        refine unresolved_append (unresolved_logged before) (fun event member => ?_)
        rw [List.mem_singleton.mp member]
        exact ⟨rfl, nofun⟩
    | ok _ => exact ⟨trivial, fun _ resolved => absurd rfl resolved⟩

/-- So does retrying, by induction on the attempts left. -/
theorem safe_retryFrom_unresolved (left attempt : Nat) (lastErr : Thrown)
    (before : ∀ event ∈ history, Unresolved event)
    : Safe WhileUnresolved
        (fun later outcome => outcome ≠ .ok () → ∀ event ∈ later, Unresolved event)
        history (self.retryFrom context event left attempt lastErr) := by
  induction left generalizing history attempt lastErr with
  | zero => exact fun _ => before
  | succ left ih =>
      rw [retryFrom, Program.tryCatch_eq, safe_handle]
      refine (safe_route_unresolved self.opts.router before).mono (fun _ _ met => met) ?_
      intro later outcome failed
      cases outcome with
      | ok _ => exact fun resolved => absurd rfl resolved
      | error err =>
          have unresolved := failed (by simp)
          change Safe _ _ _ (if _ then _ else _)
          split
          · rw [Program.bind_eq, safe_bind]
            have pausing : Uses Aside (self.pause event attempt) :=
              self.uses_pause (fun _ => trivial) (fun _ _ => trivial) (fun _ => trivial) event
                attempt
            refine (safe_aside pausing unresolved).mono (fun _ _ met => met) ?_
            intro paused outcome still
            cases outcome with
            | ok _ => exact ih _ _ still
            | error _ => exact fun _ => still
          · exact ih _ _ unresolved

/-- A dead letter of an unresolved message is in place. -/
theorem safe_deadLetter_unresolved (reason : DeadLetterReason) (notice : String) (err : Thrown)
    (before : ∀ event ∈ history, Unresolved event)
    : Safe WhileUnresolved (fun _ _ => True) history
        (deadLetter payload reason notice err) := by
  unfold deadLetter
  refine ⟨trivial, fun _ => ?_⟩
  cases text : err.toText with
  | error failure => simp [safe_fail]
  | ok error =>
      simp only [Program.bind_eq, Program.done_bind, Program.settle_ok]
      refine ⟨unresolved_logged before, fun reply => ?_⟩
      cases reply <;> trivial

theorem safe_commit_any
    : Safe WhileUnresolved (fun _ _ => True) history (commit payload) := by
  refine ⟨trivial, fun reply => ?_⟩
  cases reply <;> trivial

/-- One delivery calls no handler, and dead-letters nothing, once a handler has resolved or a
dead letter was sent.
-/
theorem safe_eachMessage_unresolved
    : Safe WhileUnresolved (fun _ _ => True) [] (self.eachMessage payload) := by
  have nothing : ∀ event ∈ ([] : List ConsumerEvent), Unresolved event := by simp
  have then_commit : ∀ {history : List ConsumerEvent} {program : ConsumerProgram Unit},
      Safe WhileUnresolved (fun _ _ => True) history program
      → Safe WhileUnresolved (fun _ _ => True) history
          (program.bind (fun _ => commit payload)) := by
    intro history program safe
    rw [safe_bind]
    refine safe.mono (fun _ _ met => met) (fun later outcome _ => ?_)
    cases outcome with
    | ok _ => exact safe_commit_any
    | error _ => trivial
  unfold eachMessage
  simp only []
  split
  · exact safe_commit_any
  · split
    · exact then_commit (safe_deadLetter_unresolved _ _ _ nothing)
    · rename_i event _
      have tracing : Uses Aside _ :=
        uses_startTraceContext (fun _ => trivial) (event.field? "traceparent")
      simp only [Program.bind_eq, Program.tryCatch_eq]
      rw [safe_bind]
      refine (safe_aside tracing nothing).mono (fun _ _ met => met) ?_
      intro traced outcome unresolved
      cases outcome with
      | error _ => trivial
      | ok context =>
          apply then_commit
          rw [safe_handle]
          refine (safe_retryFrom_unresolved _ _ _ unresolved).mono (fun _ _ met => met) ?_
          intro later outcome failed
          cases outcome with
          | ok _ => trivial
          | error err => exact safe_deadLetter_unresolved _ _ _ (failed (by simp))

/-- A delivery, complete or not, in which a handler has resolved, has resolved one handler and
dead-lettered nothing.
-/
theorem successes_of_run (run : Run (self.eachMessage payload) history rest)
    : successes history ≤ 1
      ∧ (0 < successes history → ∀ event ∈ history, ∀ input, event.op ≠ .deadLetter input) := by
  have guarded := safe_eachMessage_unresolved.throughout run
  simp only [List.nil_append] at guarded
  rcases Nat.eq_zero_or_pos (successes history) with none | some
  · exact ⟨by omega, by omega⟩
  · obtain ⟨event, member, success⟩ := List.countP_pos_iff.mp some
    obtain ⟨before, after, split⟩ := List.append_of_mem member
    have early : ∀ other ∈ before, Unresolved other := by
      have here := guarded split
      obtain ⟨op, reply⟩ := event
      cases op with
      | handle => exact here
      | commitOffsets | deadLetter | onRetry | sleep | randomHex | log => cases success
    have late : ∀ other ∈ after, succeeded other = false
        ∧ ∀ input, other.op ≠ .deadLetter input := by
      intro other among
      obtain ⟨between, last, split'⟩ := List.append_of_mem among
      have apart : history = (before ++ event :: between) ++ other :: last := by
        rw [split, split']
        simp
      have there := guarded apart
      have resolved : ¬ Unresolved event := fun unresolved => by simp [unresolved.1] at success
      obtain ⟨op, reply⟩ := other
      cases op with
      | handle | deadLetter => exact (resolved (there event (by simp))).elim
      | commitOffsets | onRetry | sleep | randomHex | log => exact ⟨rfl, nofun⟩
    constructor
    · have first : before.countP succeeded = 0 :=
        List.countP_eq_zero.mpr (fun other among => by simp [(early other among).1])
      have last : after.countP succeeded = 0 :=
        List.countP_eq_zero.mpr (fun other among => by simp [(late other among).1])
      rw [successes, split, List.countP_append, List.countP_cons, first, last, success]
      simp
    · intro _ other among input
      rw [split] at among
      rcases List.mem_append.mp among with first | rest
      · exact (early other first).2 input
      · rcases List.mem_cons.mp rest with rfl | last
        · obtain ⟨op, reply⟩ := other
          cases op with
          | handle => nofun
          | commitOffsets | deadLetter | onRetry | sleep | randomHex | log => cases success
        · exact (late other last).2 input

end ResilientEventConsumer
end SharedKernel.Messaging
