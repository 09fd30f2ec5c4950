import SharedKernel.Foundation.Delivery
import SharedKernel.Foundation.Transition
import SharedKernel.Js.SafeInteger
import SharedKernel.Messaging.DlqReplay
import SharedKernel.Messaging.ResilientConsumer

/-! The composed system: topics as logs, the group of the resilient consumer, the group of
the replay consumer, the dead-letter producer between them, and producers outside.
-/

namespace SharedKernel.Messaging

open Foundation Js

structure TopicPartition where
  topic : String
  partition : Nat
deriving DecidableEq

/-- A record in a log, with the message it stems from and how often that message had been
republished by then.
-/
structure LogEntry where
  record : KafkaRecord
  message : Nat
  copies : Nat

abbrev KafkaLogs := Logs TopicPartition LogEntry

/-- Append an entry to a partition. -/
def append (logs : KafkaLogs) (partition : TopicPartition) (entry : LogEntry) : KafkaLogs :=
  Function.update logs partition (logs partition ++ [entry])

@[simp] theorem append_self (logs : KafkaLogs) (partition : TopicPartition) (entry : LogEntry)
    : append logs partition entry partition = logs partition ++ [entry] :=
  Function.update_self ..

theorem append_of_ne (logs : KafkaLogs) {partition other : TopicPartition} (entry : LogEntry)
    (elsewhere : other ≠ partition)
    : append logs partition entry other = logs other :=
  Function.update_of_ne elsewhere ..

theorem grow_append (logs : KafkaLogs) (partition : TopicPartition) (entry : LogEntry)
    : Logs.Grow logs (append logs partition entry) := by
  intro other
  by_cases same : other = partition
  · subst same
    simp [append]
  · simp [append, Function.update_of_ne same]

theorem mem_append_self (logs : KafkaLogs) (partition : TopicPartition) (entry : LogEntry)
    : entry ∈ append logs partition entry partition := by
  simp

theorem length_append_le (logs : KafkaLogs) (partition : TopicPartition) (entry : LogEntry)
    (other : TopicPartition)
    : (append logs partition entry other).length ≤ (logs other).length + 1 := by
  by_cases same : other = partition
  · subst same
    simp
  · simp [append_of_ne logs entry same]

/-- An entry of a partition after an append was there before, or is the new last one. -/
theorem getElem?_append {logs : KafkaLogs} {target partition : TopicPartition}
    {new entry : LogEntry} {offset : Nat}
    (found : (append logs target new partition)[offset]? = some entry)
    : (logs partition)[offset]? = some entry
      ∨ (partition = target ∧ offset = (logs target).length ∧ entry = new) := by
  by_cases same : partition = target
  · subst same
    rw [append_self] at found
    obtain ⟨bound, rfl⟩ := List.getElem?_eq_some_iff.mp found
    rcases Nat.lt_or_ge offset (logs partition).length with before | after
    · rw [List.getElem?_append_left before] at found
      exact Or.inl found
    · have last : offset = (logs partition).length := by
        simp only [List.length_append, List.length_singleton] at bound
        omega
      subst last
      exact Or.inr ⟨rfl, rfl, by simp⟩
  · rw [append_of_ne _ _ same] at found
    exact Or.inl found

/-- What a consumer is given of an entry. -/
def LogEntry.payload (entry : LogEntry) (partition : TopicPartition) (offset : Nat)
    : EachMessagePayload where
  topic := partition.topic
  partition := partition.partition
  message := entry.record.message offset

/-- The natural number of which a text is the decimal. -/
def offset? (text : String) : Option Nat :=
  let offset := Nat.ofDigitChars 10 text.toList 0
  if offset.repr = text then some offset else none

theorem offset?_repr (offset : Nat) : offset? offset.repr = some offset := by
  simp [offset?]

/-- A dead-letter producer: the record that it may write for an input keeps key and value and
names the original topic.
-/
structure DeadLetterProducer where
  writes : DeadLetterInput → KafkaRecord → Prop
  sameKey : ∀ input record, writes input record → record.key = input.key
  sameValue : ∀ input record, writes input record → record.value = input.value
  origin
    : ∀ input record, writes input record → originalTopic record.headers = some input.topic

/-- What an event of the consumer does to the logs; a rejected send may have been made. -/
inductive ConsumerAppends (producer : DeadLetterProducer)
    (delivery : Delivery ConsumerEffects Thrown TopicPartition LogEntry)
    : ConsumerEvent → KafkaLogs → KafkaLogs → Prop
  | sent {input record} (index : Nat) (reply : Except Thrown Unit) (logs : KafkaLogs)
    (written : producer.writes input record)
    : ConsumerAppends producer delivery ⟨.deadLetter input, reply⟩ logs
        (append logs ⟨deadLetterTopic input.topic, index⟩
          {
            record
            message := delivery.record.message
            copies := delivery.record.copies
          })
  | none {event} (logs : KafkaLogs) (quiet : ∀ input, event ≠ ⟨.deadLetter input, .ok ()⟩)
    : ConsumerAppends producer delivery event logs logs

/-- The group of a resilient consumer. -/
def consumerSpec (self : ResilientEventConsumer) (producer : DeadLetterProducer)
    : GroupSpec ConsumerEffects Thrown TopicPartition LogEntry where
  subscribed partition := partition.topic ∈ self.opts.topics
  program partition offset entry := self.eachMessage (entry.payload partition offset)
  commits op :=
    match op with
    | .commitOffsets topic partition text =>
        (offset? text).map (fun offset => (⟨topic, partition⟩, offset))
    | _ => none
  confirmed event := ∃ topic partition offset,
    event = ⟨.commitOffsets topic partition offset, .ok ()⟩
  appends := ConsumerAppends producer

/-- The record that a send writes; its headers arrive as buffers. -/
def sentRecord (key value : Option Buffer) (headers : List (String × String))
    : KafkaRecord where
  key
  value
  headers := headers.map (fun entry => (entry.1, .one (.buffer (Buffer.ofText entry.2))))

/-- What an event of the replay consumer does to the logs; a rejected send may have been
made.
-/
inductive ReplayAppends (delivery : Delivery ReplayEffects Thrown TopicPartition LogEntry)
    : ReplayEvent → KafkaLogs → KafkaLogs → Prop
  | sent {topic key value headers} (index : Nat) (reply : Except Thrown Unit)
    (logs : KafkaLogs)
    : ReplayAppends delivery ⟨.send topic key value headers, reply⟩ logs
        (append logs ⟨topic, index⟩
          {
            record := sentRecord key value headers
            message := delivery.record.message
            copies := delivery.record.copies + 1
          })
  | none {event} (logs : KafkaLogs)
    (quiet : ∀ topic key value headers, event ≠ ⟨.send topic key value headers, .ok ()⟩)
    : ReplayAppends delivery event logs logs

/-- The group of a replay consumer. -/
def replaySpec (self : DlqReplayConsumer)
    : GroupSpec ReplayEffects Thrown TopicPartition LogEntry where
  subscribed partition := partition.topic ∈ self.opts.dlqTopics
  program partition offset entry := self.eachMessage (entry.payload partition offset)
  commits op :=
    match op with
    | .commitOffsets topic partition text =>
        (offset? text).map (fun offset => (⟨topic, partition⟩, offset))
    | _ => none
  confirmed event := ∃ topic partition offset,
    event = ⟨.commitOffsets topic partition offset, .ok ()⟩
  appends := ReplayAppends

/-- The logs and the two groups that read them. -/
structure Cluster where
  logs : KafkaLogs
  consumer : Group ConsumerEffects Thrown TopicPartition LogEntry
  replayer : Group ReplayEffects Thrown TopicPartition LogEntry

/-- A cluster whose groups have read nothing yet. -/
def Cluster.start (logs : KafkaLogs) : Cluster where
  logs
  consumer := .start
  replayer := .start

/-- A step of one of the groups, or of a producer outside. -/
inductive ClusterLabel where
  | consumer (label : GroupLabel ConsumerEffects TopicPartition)
  | replayer (label : GroupLabel ReplayEffects TopicPartition)
  | produced (partition : TopicPartition) (record : KafkaRecord)

/-- The steps of the composed system; what is produced outside is a new message. -/
inductive ClusterStep (consumer : ResilientEventConsumer) (producer : DeadLetterProducer)
    (replayer : DlqReplayConsumer) (cluster : Cluster)
    : ClusterLabel → Cluster → Prop
  | consumer {label logs group}
    (taken
      : GroupStep (consumerSpec consumer producer) cluster.logs cluster.consumer label logs
          group)
    : ClusterStep consumer producer replayer cluster (.consumer label)
        { cluster with logs, consumer := group }
  | replayer {label logs group}
    (taken : GroupStep (replaySpec replayer) cluster.logs cluster.replayer label logs group)
    : ClusterStep consumer producer replayer cluster (.replayer label)
        { cluster with logs, replayer := group }
  | produced (partition : TopicPartition) (record : KafkaRecord) {message : Nat}
    (fresh : ∀ other, ∀ entry ∈ cluster.logs other, entry.message ≠ message)
    : ClusterStep consumer producer replayer cluster (.produced partition record)
        { cluster with logs := append cluster.logs partition { record, message, copies := 0 } }

-----------------------------------------------------------------------------------------
-- Both groups are lawful
-----------------------------------------------------------------------------------------

/-- The commit after a message moves to the successor of its offset, for offsets below 2^53.
-/
theorem offset?_nextOffset {offset : Nat} (safe : offset < 2 ^ 53)
    : offset? (nextOffset offset.repr) = some (offset + 1) := by
  rw [nextOffset, Number.successor_repr safe, offset?_repr]

theorem consumerSpec_growing (self : ResilientEventConsumer) (producer : DeadLetterProducer)
    : (consumerSpec self producer).Growing := by
  intro delivery event logs later appended
  cases appended with
  | sent index reply _ written => exact grow_append _ _ _
  | none _ quiet => exact .refl _

theorem replaySpec_growing (self : DlqReplayConsumer) : (replaySpec self).Growing := by
  intro delivery event logs later appended
  cases appended with
  | sent index reply _ => exact grow_append _ _ _
  | none _ quiet => exact .refl _

/-- No step of the cluster loses a record. -/
theorem ClusterStep.grows {consumer : ResilientEventConsumer} {producer : DeadLetterProducer}
    {replayer : DlqReplayConsumer} {cluster next : Cluster} {label : ClusterLabel}
    (taken : ClusterStep consumer producer replayer cluster label next)
    : Logs.Grow cluster.logs next.logs := by
  cases taken with
  | consumer taken => exact taken.grows (consumerSpec_growing consumer producer)
  | replayer taken => exact taken.grows (replaySpec_growing replayer)
  | produced partition record fresh => exact grow_append _ _ _

/-- The resilient consumer commits a record once it is settled. -/
theorem consumerSpec_lawful (self : ResilientEventConsumer) (producer : DeadLetterProducer)
    : (consumerSpec self producer).Lawful
        (fun partition offset entry history =>
          self.Settled (entry.payload partition offset) history)
        (2 ^ 53) := by
  refine ⟨consumerSpec_growing self producer, fun _ _ _ _ more settled => settled.append more, ?_⟩
  intro partition offset entry safe
  refine (self.safe_eachMessage (entry.payload partition offset)).mono ?_ (fun _ _ met => met)
  intro history op guarded target next asked
  cases op with
  | commitOffsets topic index text =>
      obtain ⟨sameTopic, samePartition, sameText, settled⟩ := guarded
      have committed : offset? text = some (offset + 1) := by
        rw [sameText]
        exact offset?_nextOffset safe
      simp only [consumerSpec, committed, Option.map_some, Option.some.injEq,
        Prod.mk.injEq] at asked
      obtain ⟨rfl, rfl⟩ := asked
      exact ⟨by rw [sameTopic, samePartition]; rfl, rfl, settled⟩
  | deadLetter | handle | onRetry | sleep | randomHex | log => cases asked

/-- The replay consumer commits a record once it is settled. -/
theorem replaySpec_lawful (self : DlqReplayConsumer)
    : (replaySpec self).Lawful
        (fun partition offset entry history =>
          self.Settled (entry.payload partition offset) history)
        (2 ^ 53) := by
  refine ⟨replaySpec_growing self, fun _ _ _ _ more settled => settled.append more, ?_⟩
  intro partition offset entry safe
  refine (self.safe_eachMessage (entry.payload partition offset)).mono ?_ (fun _ _ met => met)
  intro history op guarded target next asked
  cases op with
  | commitOffsets topic index text =>
      obtain ⟨sameTopic, samePartition, sameText, settled⟩ := guarded
      have committed : offset? text = some (offset + 1) := by
        rw [sameText]
        exact offset?_nextOffset safe
      simp only [replaySpec, committed, Option.map_some, Option.some.injEq,
        Prod.mk.injEq] at asked
      obtain ⟨rfl, rfl⟩ := asked
      exact ⟨by rw [sameTopic, samePartition]; rfl, rfl, settled⟩
  | send | onGiveUp | onReplay | sleep | random | log => cases asked

end SharedKernel.Messaging
