import SharedKernel.Foundation.Run
import SharedKernel.Messaging.Kafka

/-! The replay consumer of the dead-letter topics: a message goes back to its original topic
with a replay count in its headers, until the count has used up the budget.
-/

namespace SharedKernel.Messaging

open Foundation Js

/-- The calls of the replay loop. -/
inductive ReplayOp where
  | commitOffsets (topic : String) (partition : Nat) (offset : String)
  | send (topic : String) (key value : Option Buffer) (headers : List (String × String))
  | onGiveUp (originalTopic : String)
  | onReplay (originalTopic : String) (replayCount : Number)
  | sleep (ms : Number)
  | random
  | log (level : LogLevel) (message : String)

/-- Every call may reject, the logger's and the random source's excepted. -/
abbrev ReplayOp.Reply : ReplayOp → Type
  | .commitOffsets _ _ _ | .send _ _ _ _ | .onGiveUp _ | .onReplay _ _ | .sleep _ =>
      Except Thrown Unit
  | .random => Number
  | .log _ _ => Unit

/-- The effects of the replay loop. -/
abbrev ReplayEffects : Signature where
  Op := ReplayOp
  Reply := ReplayOp.Reply

abbrev ReplayProgram (α : Type) := Program ReplayEffects Thrown α
abbrev ReplayEvent := Event ReplayEffects

/-- Await one call; a rejection throws. -/
def callReplay (op : ReplayOp) : ReplayProgram op.Reply :=
  Program.perform (F := ReplayEffects) op

/-- The consumer's options; the two hooks tell whether they are wired. -/
structure DlqReplayOptions where
  dlqTopics : List String
  maxReplays : Option Number
  baseReplayDelayMs : Option Number
  maxReplayDelayMs : Option Number
  onGiveUp : Bool
  onReplay : Bool

/-- A replay consumer; `exp2` is `2 ** x`, which the language leaves to the runtime for an
exponent that is not an integer.
-/
structure DlqReplayConsumer where
  opts : DlqReplayOptions
  exp2 : Number → Number

/-- Assign a header; assigning a string to the prototype changes nothing. -/
def setHeader (headers : List (String × String)) (name value : String)
    : List (String × String) :=
  if name = "__proto__" then headers
  else if headers.any (fun entry => entry.1 = name) then
    headers.map (fun entry => if entry.1 = name then (name, value) else entry)
  else headers ++ [(name, value)]

/-- The headers of a republished message: those it had, as strings, with the new count. -/
def stringHeaders (headers : Headers) (replayCount : Number) : List (String × String) :=
  let copied :=
    headers.foldl
      (fun copied entry =>
        match headerToString entry.2 with
        | some value => setHeader copied entry.1 value
        | none => copied)
      []
  setHeader copied "x-dlq-replay-count" (replayCount.add (.ofNat 1)).toText

/-- The topic that a dead-letter record says it came from. -/
def originalTopic (headers : Headers) : Option String :=
  headers.text? "x-original-topic"

/-- The replay count that a dead-letter record carries, zero where it has none. -/
def replayCount (headers : Headers) : Number :=
  .ofText ((headers.text? "x-dlq-replay-count").getD "0")

namespace DlqReplayConsumer

variable (self : DlqReplayConsumer)

def maxReplays : Number :=
  self.opts.maxReplays.getD (.ofNat 3)

def baseReplayDelayMs : Number :=
  self.opts.baseReplayDelayMs.getD (.ofNat 60000)

def maxReplayDelayMs : Number :=
  self.opts.maxReplayDelayMs.getD (.ofNat 300000)

/-- Full-jitter exponential backoff, for a draw from the unit interval. -/
def computeDelayMs (replayCount random : Number) : Number :=
  let exponential := self.baseReplayDelayMs.mul (self.exp2 replayCount)
  let capped := exponential.min self.maxReplayDelayMs
  (random.mul capped).floor

/-- Commit the offset after the message. -/
def commit (payload : EachMessagePayload) : ReplayProgram Unit := do
  Program.settle
    (← callReplay
      (.commitOffsets payload.topic payload.partition (nextOffset payload.message.offset)))

/-- Leave a message whose budget is used up. -/
def giveUp (originalTopic : String) : ReplayProgram Unit := do
  let _ ← callReplay
    (.log .warn
      "Giving up on DLQ message after exhausting replay budget — needs manual triage")
  if self.opts.onGiveUp then
    Program.settle (← callReplay (.onGiveUp originalTopic))

/-- Wait, then send a message back to its original topic. -/
def republish (payload : EachMessagePayload) (originalTopic : String) (replayCount : Number)
    : ReplayProgram Unit := do
  let random ← callReplay .random
  Program.settle (← callReplay (.sleep (self.computeDelayMs replayCount random)))
  Program.settle
    (← callReplay
      (.send originalTopic payload.message.key payload.message.value
        (stringHeaders payload.message.headers replayCount)))
  let _ ← callReplay (.log .info "Replayed DLQ message back to its original topic")
  if self.opts.onReplay then
    Program.settle (← callReplay (.onReplay originalTopic (replayCount.add (.ofNat 1))))

/-- One message of a dead-letter topic. -/
def eachMessage (payload : EachMessagePayload) : ReplayProgram Unit := do
  let replayCount := replayCount payload.message.headers
  let originalTopic := (originalTopic payload.message.headers).getD ""
  if originalTopic = "" then
    let _ ← callReplay
      (.log .error
        "DLQ message missing x-original-topic header — cannot replay, skipping")
    commit payload
  else if replayCount.ge self.maxReplays then
    self.giveUp originalTopic
    commit payload
  else
    self.republish payload originalTopic replayCount
    commit payload

-----------------------------------------------------------------------------------------
-- What one message comes to
-----------------------------------------------------------------------------------------

/-- The record cannot be replayed: it does not say where it came from, or it has used up the
budget.
-/
def Exhausted (headers : Headers) : Prop :=
  (originalTopic headers).getD "" = "" ∨ (replayCount headers).ge self.maxReplays = true

/-- The producer has accepted the message for its original topic. -/
def Republished (payload : EachMessagePayload) (history : List ReplayEvent) : Prop :=
  ∃ topic headers,
    originalTopic payload.message.headers = some topic
    ∧ ⟨.send topic payload.message.key payload.message.value headers, .ok ()⟩ ∈ history

/-- The message needs no further delivery. -/
def Settled (payload : EachMessagePayload) (history : List ReplayEvent) : Prop :=
  self.Exhausted payload.message.headers ∨ Republished payload history

/-- A settled message stays settled. -/
theorem Settled.append {self : DlqReplayConsumer} {payload : EachMessagePayload}
    {history : List ReplayEvent} (settled : self.Settled payload history)
    (more : List ReplayEvent)
    : self.Settled payload (history ++ more) := by
  rcases settled with exhausted | ⟨topic, headers, origin, sent⟩
  · exact Or.inl exhausted
  · exact Or.inr ⟨topic, headers, origin, List.mem_append_left more sent⟩

/-- An operation that neither commits nor sends. -/
def Quiet : ReplayOp → Prop
  | .commitOffsets _ _ _ | .send _ _ _ _ => False
  | _ => True

/-- The commit names the successor of the message's offset and comes once the message is
settled; the message is sent at most once, where it can be replayed, to its original topic
with its own key and value.
-/
def Guard (payload : EachMessagePayload) (history : List ReplayEvent) : ReplayOp → Prop
  | .commitOffsets topic partition offset =>
      topic = payload.topic
      ∧ partition = payload.partition
      ∧ offset = nextOffset payload.message.offset
      ∧ self.Settled payload history
  | .send topic key value headers =>
      originalTopic payload.message.headers = some topic
      ∧ ¬ self.Exhausted payload.message.headers
      ∧ key = payload.message.key
      ∧ value = payload.message.value
      ∧ headers = stringHeaders payload.message.headers (replayCount payload.message.headers)
      ∧ ∀ event ∈ history, Quiet event.op
  | _ => True

/-- Committing is guarded once the message is settled. -/
theorem safe_commit {payload : EachMessagePayload} {history : List ReplayEvent}
    (settled : self.Settled payload history)
    : Safe (self.Guard payload)
        (fun later outcome => outcome = .ok () → self.Settled payload later)
        history (commit payload) := by
  refine ⟨⟨rfl, rfl, rfl, settled⟩, fun reply => ?_⟩
  have still := settled.append [⟨_, reply⟩]
  cases reply with
  | error error => exact fun _ => still
  | ok _ => exact fun _ => still

theorem guard_of_quiet {payload : EachMessagePayload} {history : List ReplayEvent}
    {op : ReplayOp} (quiet : Quiet op)
    : self.Guard payload history op := by
  cases op with
  | commitOffsets | send => exact quiet.elim
  | onGiveUp | onReplay | sleep | random | log => trivial

theorem uses_giveUp (topic : String) : Uses Quiet (self.giveUp topic) := by
  refine ⟨trivial, fun _ => ?_⟩
  by_cases wired : self.opts.onGiveUp
  · simp only [wired, if_true, Program.done_bind]
    exact ⟨trivial, fun reply => Uses.settle reply⟩
  · simp only [wired, Program.done_bind]
    trivial

/-- What follows an accepted message is quiet, and the message stays settled. -/
theorem safe_quiet {payload : EachMessagePayload} {history : List ReplayEvent}
    {program : ReplayProgram Unit} (settled : self.Settled payload history)
    (uses : Uses Quiet program)
    : Safe (self.Guard payload)
        (fun later outcome => outcome = .ok () → self.Settled payload later)
        history program := by
  apply (uses.safe (fun _ _ => self.guard_of_quiet)).mono (fun _ _ met => met)
  rintro later outcome ⟨events, same, _⟩ _
  rw [same]
  exact settled.append events

/-- A message that can be replayed is sent after quiet operations only, and is settled by it.
-/
theorem safe_republish {payload : EachMessagePayload} {topic : String}
    (origin : originalTopic payload.message.headers = some topic)
    (replayable : ¬ self.Exhausted payload.message.headers)
    : Safe (self.Guard payload)
        (fun later outcome => outcome = .ok () → self.Settled payload later)
        [] (self.republish payload topic (replayCount payload.message.headers)) := by
  refine ⟨trivial, fun random => ⟨trivial, fun slept => ?_⟩⟩
  cases slept with
  | error error => exact fun absurd => by cases absurd
  | ok _ =>
      refine ⟨⟨origin, replayable, rfl, rfl, rfl, ?_⟩, fun sent => ?_⟩
      · intro event member
        simp only [List.nil_append, List.cons_append, List.mem_cons, List.not_mem_nil,
          or_false] at member
        rcases member with rfl | rfl <;> trivial
      · cases sent with
        | error error => exact fun absurd => by cases absurd
        | ok _ =>
            apply self.safe_quiet
            · refine Or.inr
                ⟨topic, stringHeaders payload.message.headers
                  (replayCount payload.message.headers), origin, ?_⟩
              exact List.mem_append_right _ (List.mem_singleton_self _)
            · refine ⟨trivial, fun _ => ?_⟩
              by_cases wired : self.opts.onReplay
              · simp only [wired, if_true, Program.done_bind]
                exact ⟨trivial, fun reply => Uses.settle reply⟩
              · simp only [wired, Program.done_bind]
                trivial

/-- One message is committed, with the successor of its offset, only once it is settled, and
it is sent at most once; witness: each branch settles it before the commit.
-/
theorem safe_eachMessage (payload : EachMessagePayload)
    : Safe (self.Guard payload)
        (fun history outcome => outcome = .ok () → self.Settled payload history)
        [] (self.eachMessage payload) := by
  have then_commit : ∀ {program : ReplayProgram Unit},
      Safe (self.Guard payload)
        (fun later outcome => outcome = .ok () → self.Settled payload later) [] program
      → Safe (self.Guard payload)
          (fun later outcome => outcome = .ok () → self.Settled payload later)
          [] (program.bind (fun _ => commit payload)) :=
    fun safe => safe.seq (fun _ settled => self.safe_commit settled) (by simp)
  unfold eachMessage
  simp only []
  split
  · rename_i missing
    exact ⟨trivial, fun _ => self.safe_commit (Or.inl (Or.inl missing))⟩
  · rename_i named
    split
    · rename_i spent
      exact then_commit (self.safe_quiet (Or.inl (Or.inr spent)) (self.uses_giveUp _))
    · rename_i unspent
      have replayable : ¬ self.Exhausted payload.message.headers := by
        intro either
        rcases either with missing | spent
        · exact named missing
        · exact unspent spent
      cases origin : originalTopic payload.message.headers with
      | none => exact absurd (by simp [origin]) named
      | some topic => exact then_commit (self.safe_republish origin replayable)

end DlqReplayConsumer
end SharedKernel.Messaging
