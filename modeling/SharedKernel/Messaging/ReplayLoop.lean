import SharedKernel.Messaging.Cluster

/-! The composed loop of one topic. A message goes round between its topic and the dead-letter
topic, and the count that bounds its replays has to survive the dead-letter producer, which is
given no headers.
-/

namespace SharedKernel.Messaging

open Foundation Js

/-- A dead-letter producer that writes one record as a function of its input. -/
structure DeadLetterAdapter where
  write : DeadLetterInput → KafkaRecord
  sameKey : ∀ input, (write input).key = input.key
  sameValue : ∀ input, (write input).value = input.value
  origin : ∀ input, originalTopic (write input).headers = some input.topic

/-- The producer of an adapter. -/
def DeadLetterAdapter.producer (adapter : DeadLetterAdapter) : DeadLetterProducer where
  writes input record := record = adapter.write input
  sameKey := by
    intro input _ same
    subst same
    exact adapter.sameKey input
  sameValue := by
    intro input _ same
    subst same
    exact adapter.sameValue input
  origin := by
    intro input _ same
    subst same
    exact adapter.origin input

/-- The composed system of one topic. -/
structure ReplayLoop where
  topic : String
  consumer : ResilientEventConsumer
  adapter : DeadLetterAdapter
  replayer : DlqReplayConsumer
  maxReplays : Nat
  subscribes : consumer.opts.topics = [topic]
  replays : replayer.opts.dlqTopics = [deadLetterTopic topic]
  budget : replayer.opts.maxReplays = some (.ofNat maxReplays)

namespace ReplayLoop

/-- The steps of the loop. -/
abbrev Step (loop : ReplayLoop) : Cluster → ClusterLabel → Cluster → Prop :=
  ClusterStep loop.consumer loop.adapter.producer loop.replayer

/-- No consumer restarts, so that nothing is delivered again, and only the adapter writes dead
letters.
-/
def Undisturbed (loop : ReplayLoop) : ClusterLabel → Prop
  | .consumer label => label.Steady
  | .replayer label => label.Steady
  | .produced partition _ => partition.topic ≠ deadLetterTopic loop.topic

/-- The place holds a record that was republished from the message. -/
def Republication (loop : ReplayLoop) (cluster : Cluster) (message : Nat)
    (place : TopicPartition × Nat)
    : Prop :=
  place.1.topic = loop.topic
  ∧ ∃ entry,
      (cluster.logs place.1)[place.2]? = some entry
      ∧ entry.message = message
      ∧ 0 < entry.copies

/-- Every message has been republished to the topic at most as often as the budget allows. -/
def WithinBudget (loop : ReplayLoop) (cluster : Cluster) : Prop :=
  ∀ message (places : List (TopicPartition × Nat)),
    places.Nodup
    → (∀ place ∈ places, loop.Republication cluster message place)
    → places.length ≤ loop.maxReplays

/-- The replay consumer sends nothing for a dead-letter record of a message whose budget is
used up.
-/
def GivenUp (loop : ReplayLoop) (cluster : Cluster) : Prop :=
  ∀ delivery,
    cluster.replayer.Delivered delivery
    → loop.maxReplays ≤ delivery.record.copies
    → ∀ topic key value headers reply,
        ⟨.send topic key value headers, reply⟩ ∉ delivery.history

/-- Every dead-letter record of a message whose budget was used up when it was written says so in
its replay count.
-/
def CountKept (loop : ReplayLoop) (cluster : Cluster) : Prop :=
  ∀ partition entry,
    partition.topic = deadLetterTopic loop.topic
    → entry ∈ cluster.logs partition
    → loop.maxReplays ≤ entry.copies
    → (replayCount entry.record.headers).ge (.ofNat loop.maxReplays) = true

/-- The two topics of a loop differ: one name is longer. -/
theorem topic_ne_deadLetterTopic (topic : String) : topic ≠ deadLetterTopic topic := by
  intro same
  have lengths := congrArg String.length same
  simp [deadLetterTopic] at lengths

/-- The undisturbed steps of the loop. -/
def CleanStep (loop : ReplayLoop) (cluster : Cluster) (label : ClusterLabel) (next : Cluster)
    : Prop :=
  loop.Step cluster label next ∧ loop.Undisturbed label

/-- The undisturbed steps from states in which the replay count is kept. -/
def KeptStep (loop : ReplayLoop) (cluster : Cluster) (label : ClusterLabel) (next : Cluster)
    : Prop :=
  loop.CleanStep cluster label next ∧ loop.CountKept cluster

end ReplayLoop

/-- A dead-letter producer that writes the original topic and no other header. -/
def plainAdapter : DeadLetterAdapter where
  write input :=
    {
      key := input.key
      value := input.value
      headers := [("x-original-topic", .one (.text input.topic))]
    }
  sameKey _ := rfl
  sameValue _ := rfl
  origin _ := rfl

/-- A loop with the plain producer and one replay for each message. -/
def knowledgeLoop : ReplayLoop where
  topic := "knowledge-events"
  consumer :=
    {
      opts :=
        {
          topics := ["knowledge-events"]
          router := { handlers := [], distinct := List.nodup_nil }
          maxRetries := none
          retryBackoffMs := none
          onRetry := false
        }
      syntaxMessage raw := "Unexpected token in JSON: " ++ raw
      bounded := by simp
    }
  adapter := plainAdapter
  replayer :=
    {
      opts :=
        {
          dlqTopics := ["knowledge-events.DLQ"]
          maxReplays := some (.ofNat 1)
          baseReplayDelayMs := none
          maxReplayDelayMs := none
          onGiveUp := false
          onReplay := false
        }
      exp2 exponent :=
        match exponent with
        | .finite exponent => .finite (2 ^ ⌊exponent⌋)
        | .infinity true => .ofNat 0
        | other => other
    }
  maxReplays := 1
  subscribes := rfl
  replays := rfl
  budget := rfl

end SharedKernel.Messaging
