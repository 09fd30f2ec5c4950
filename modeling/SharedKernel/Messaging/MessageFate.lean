import SharedKernel.Messaging.NoEventLost

/-! The whole way of a message: through its topic, the dead-letter topic and back, copy after
copy, until it is routed or its replays are used up.
-/

namespace SharedKernel.Messaging

open Foundation Js

variable {consumer : ResilientEventConsumer} {producer : DeadLetterProducer}
  {replayer : DlqReplayConsumer} {cluster next : Cluster} {label : ClusterLabel}

-----------------------------------------------------------------------------------------
-- Where the entries of the logs come from
-----------------------------------------------------------------------------------------

/-- The other entry belongs to the same message, with the same key and value. -/
structure SameMessage (entry other : LogEntry) : Prop where
  message : other.message = entry.message
  key : other.record.key = entry.record.key
  value : other.record.value = entry.record.value

theorem SameMessage.refl (entry : LogEntry) : SameMessage entry entry :=
  ⟨rfl, rfl, rfl⟩

theorem SameMessage.trans {first middle last : LogEntry} (hl : SameMessage first middle)
    (hr : SameMessage middle last)
    : SameMessage first last :=
  ⟨hr.message.trans hl.message, hr.key.trans hl.key, hr.value.trans hl.value⟩

/-- Whatever the groups are working on are runs on records of the logs. -/
structure Cluster.Busy (consumer : ResilientEventConsumer) (producer : DeadLetterProducer)
    (replayer : DlqReplayConsumer) (cluster : Cluster)
    : Prop where
  consumer : cluster.consumer.Busy (consumerSpec consumer producer) cluster.logs
  replayer : cluster.replayer.Busy (replaySpec replayer) cluster.logs

theorem Cluster.busy_start (logs : KafkaLogs)
    : (Cluster.start logs).Busy consumer producer replayer :=
  ⟨Group.busy_start _ _, Group.busy_start _ _⟩

/-- Every step keeps the groups at work on records of the logs, by the kind of step. -/
theorem Cluster.Busy.step (busy : cluster.Busy consumer producer replayer)
    (taken : ClusterStep consumer producer replayer cluster label next)
    : next.Busy consumer producer replayer := by
  have grow := taken.grows
  cases taken with
  | consumer taken =>
      exact ⟨busy.consumer.step (consumerSpec_growing consumer producer) taken,
        busy.replayer.grow grow⟩
  | replayer taken =>
      exact ⟨busy.consumer.grow grow, busy.replayer.step (replaySpec_growing replayer) taken⟩
  | produced partition record fresh => exact ⟨busy.consumer.grow grow, busy.replayer.grow grow⟩

/-- The entry is a copy of an entry before it: the same message, republished at most once
more.
-/
def CopyOf (logs : KafkaLogs) (entry : LogEntry) : Prop :=
  ∃ source,
    ∃ before ∈ logs source, SameMessage before entry ∧ entry.copies ≤ before.copies + 1

/-- What the consumer appends are dead letters of the record it works on. -/
theorem copyOf_consumer (busy : cluster.Busy consumer producer replayer) {logs : KafkaLogs}
    {group : Group ConsumerEffects Thrown TopicPartition LogEntry}
    {label : GroupLabel ConsumerEffects TopicPartition}
    (taken
      : GroupStep (consumerSpec consumer producer) cluster.logs cluster.consumer label logs
          group)
    {partition : TopicPartition} {entry : LogEntry} (member : entry ∈ logs partition)
    : entry ∈ cluster.logs partition ∨ CopyOf cluster.logs entry := by
  rcases taken.effect with rfl | ⟨source, current, op, reply, resume, running, awaits, appended,
    _⟩
  · exact Or.inl member
  · have working := busy.consumer source current running
    have run := working.run
    rw [awaits] at run
    have guarded := (consumer.safe_eachMessage _).guarded run
    cases appended with
    | none _ _ => exact Or.inl member
    | @sent input record index answer _ written =>
        obtain ⟨_, sameKey, sameValue, _⟩ := guarded
        obtain ⟨offset, found⟩ := List.getElem?_of_mem member
        rcases getElem?_append found with old | ⟨_, _, rfl⟩
        · exact Or.inl (List.mem_of_getElem? old)
        · refine Or.inr ⟨source, current.record, List.mem_of_getElem? working.found,
            ⟨rfl, ?_, ?_⟩, Nat.le_succ _⟩
          · exact (producer.sameKey _ _ written).trans sameKey
          · exact (producer.sameValue _ _ written).trans sameValue

/-- What the replay consumer appends are republications of the record it works on. -/
theorem copyOf_replayer (busy : cluster.Busy consumer producer replayer) {logs : KafkaLogs}
    {group : Group ReplayEffects Thrown TopicPartition LogEntry}
    {label : GroupLabel ReplayEffects TopicPartition}
    (taken : GroupStep (replaySpec replayer) cluster.logs cluster.replayer label logs group)
    {partition : TopicPartition} {entry : LogEntry} (member : entry ∈ logs partition)
    : entry ∈ cluster.logs partition ∨ CopyOf cluster.logs entry := by
  rcases taken.effect with rfl | ⟨source, current, op, reply, resume, running, awaits, appended,
    _⟩
  · exact Or.inl member
  · have working := busy.replayer source current running
    have run := working.run
    rw [awaits] at run
    have guarded := (replayer.safe_eachMessage _).guarded run
    cases appended with
    | none _ _ => exact Or.inl member
    | @sent topic key value headers index answer _ =>
        obtain ⟨_, _, sameKey, sameValue, _⟩ := guarded
        obtain ⟨offset, found⟩ := List.getElem?_of_mem member
        rcases getElem?_append found with old | ⟨_, _, rfl⟩
        · exact Or.inl (List.mem_of_getElem? old)
        · exact Or.inr ⟨source, current.record, List.mem_of_getElem? working.found,
            ⟨rfl, sameKey, sameValue⟩, Nat.le_refl _⟩

/-- An entry of the logs after a step was there before, is a copy of one that was, or has just
been produced outside.
-/
theorem ClusterStep.origin (busy : cluster.Busy consumer producer replayer)
    (taken : ClusterStep consumer producer replayer cluster label next)
    {partition : TopicPartition} {entry : LogEntry} (member : entry ∈ next.logs partition)
    : entry ∈ cluster.logs partition
      ∨ CopyOf cluster.logs entry
      ∨ label = .produced partition entry.record ∧ entry.copies = 0 := by
  cases taken with
  | consumer taken => exact (copyOf_consumer busy taken member).imp_right Or.inl
  | replayer taken => exact (copyOf_replayer busy taken member).imp_right Or.inl
  | produced target record fresh =>
      obtain ⟨offset, found⟩ := List.getElem?_of_mem member
      rcases getElem?_append found with old | ⟨rfl, _, rfl⟩
      · exact Or.inl (List.mem_of_getElem? old)
      · exact Or.inr (Or.inr ⟨rfl, rfl⟩)

/-- After so many steps no message has been republished more often. -/
theorem copies_le {labels : List ClusterLabel}
    (run
      : Execution (ClusterStep consumer producer replayer) (.start (fun _ => [])) labels cluster)
    : cluster.Busy consumer producer replayer
      ∧ ∀ partition, ∀ entry ∈ cluster.logs partition, entry.copies ≤ labels.length := by
  induction run with
  | start =>
      refine ⟨Cluster.busy_start _, ?_⟩
      intro partition entry member
      cases member
  | @snoc labels cluster label next earlier taken ih =>
      obtain ⟨busy, bounded⟩ := ih
      refine ⟨busy.step taken, ?_⟩
      intro partition entry member
      rw [List.length_append, List.length_singleton]
      rcases taken.origin busy member with old | ⟨source, before, among, _, count⟩ | ⟨_, count⟩
      · exact (bounded partition entry old).trans (Nat.le_succ _)
      · exact count.trans (Nat.succ_le_succ (bounded source before among))
      · rw [count]
        exact Nat.zero_le _

/-- The deliveries of the consumer are runs on records of the logs, by induction on the run. -/
theorem consumer_genuine {labels : List ClusterLabel} {cluster : Cluster}
    (run
      : Execution (ClusterStep consumer producer replayer) (.start (fun _ => [])) labels cluster)
    : cluster.consumer.Genuine (consumerSpec consumer producer) cluster.logs := by
  induction run with
  | start => exact Group.genuine_start _ _
  | snoc earlier taken ih =>
      have busy := (copies_le earlier).1
      have grow := taken.grows
      cases taken with
      | consumer taken => exact ih.step (consumerSpec_growing consumer producer) busy.consumer taken
      | replayer taken => exact ih.grow grow
      | produced partition record fresh => exact ih.grow grow

-----------------------------------------------------------------------------------------
-- What becomes of a message
-----------------------------------------------------------------------------------------

/-- The place holds a copy of the entry's message. -/
structure Holds (logs : KafkaLogs) (topic : String) (index offset : Nat)
    (entry copy : LogEntry)
    : Prop where
  found : (logs ⟨topic, index⟩)[offset]? = some copy
  same : SameMessage entry copy

/-- What has become of a message of a topic: a copy of it is still to be consumed or has been
routed, or a dead letter of it is still to be replayed or has been replayed as often as it may
be.
-/
inductive Fate (consumer : ResilientEventConsumer) (replayer : DlqReplayConsumer)
    (cluster : Cluster) (topic : String) (entry : LogEntry)
    : Prop
  | waiting {index offset : Nat} {copy : LogEntry}
    (held : Holds cluster.logs topic index offset entry copy)
    (ahead : cluster.consumer.committed ⟨topic, index⟩ ≤ offset)
  | routed {index offset : Nat} {copy : LogEntry}
    (held : Holds cluster.logs topic index offset entry copy)
    (resolved : RouteResolved consumer cluster ⟨topic, index⟩ offset copy)
  | deadLettered {index offset : Nat} {dead : LogEntry}
    (held : Holds cluster.logs (deadLetterTopic topic) index offset entry dead)
    (ahead : cluster.replayer.committed ⟨deadLetterTopic topic, index⟩ ≤ offset)
  | givenUp {index offset : Nat} {dead : LogEntry}
    (held : Holds cluster.logs (deadLetterTopic topic) index offset entry dead)
    (spent : (replayCount dead.record.headers).ge replayer.maxReplays = true)

theorem Holds.of_same {logs : KafkaLogs} {topic : String} {index offset : Nat}
    {entry other copy : LogEntry} (held : Holds logs topic index offset other copy)
    (same : SameMessage entry other)
    : Holds logs topic index offset entry copy :=
  ⟨held.found, same.trans held.same⟩

/-- What becomes of a copy becomes of the message. -/
theorem Fate.of_same {topic : String} {entry other : LogEntry}
    (fate : Fate consumer replayer cluster topic other) (same : SameMessage entry other)
    : Fate consumer replayer cluster topic entry := by
  cases fate with
  | waiting held ahead => exact .waiting (held.of_same same) ahead
  | routed held resolved => exact .routed (held.of_same same) resolved
  | deadLettered held ahead => exact .deadLettered (held.of_same same) ahead
  | givenUp held spent => exact .givenUp (held.of_same same) spent

/-- A record that the consumer has passed is routed or dead-lettered, unless it is empty. -/
theorem Cluster.Sound.consumed (sound : cluster.Sound consumer producer replayer)
    {partition : TopicPartition} {offset : Nat} {entry : LogEntry}
    (found : (cluster.logs partition)[offset]? = some entry)
    (passed
      : offset < cluster.consumer.position partition
        ∨ offset < cluster.consumer.committed partition)
    (nonempty : entry.record.value.getD [] ≠ [])
    : RouteResolved consumer cluster partition offset entry
      ∨ InDeadLetters cluster.logs partition.topic entry := by
  obtain ⟨record, found', delivery, delivered, rfl, rfl, same, settled⟩ :=
    sound.consumer.handled partition offset passed
  obtain rfl : record = entry := Option.some.inj (found'.symm.trans found)
  rcases settled with empty | routed | ⟨input, sent, topic, key, value⟩
  · exact absurd empty nonempty
  · exact Or.inl ⟨delivery, delivered, rfl, rfl, same, routed⟩
  · have kept := sound.deadLetters delivery delivered _ sent
    rw [same] at kept
    have inDeadLetters := kept input rfl key value
    rw [topic] at inDeadLetters
    exact Or.inr inDeadLetters

/-- A dead letter of a topic below the committed offset of the replay consumer is republished
there, unless its replays are used up.
-/
theorem Cluster.Sound.replayed (sound : cluster.Sound consumer producer replayer)
    {partition : TopicPartition} {offset : Nat} {dead : LogEntry} {topic : String}
    (found : (cluster.logs partition)[offset]? = some dead)
    (below : offset < cluster.replayer.committed partition)
    (origin : originalTopic dead.record.headers = some topic) (named : topic ≠ "")
    : (replayCount dead.record.headers).ge replayer.maxReplays = true
      ∨ RepublishedTo cluster.logs topic dead := by
  obtain ⟨record, found', delivery, delivered, rfl, rfl, same, settled⟩ :=
    sound.replayer.handled partition offset (Or.inr below)
  obtain rfl : record = dead := Option.some.inj (found'.symm.trans found)
  rcases settled with (missing | spent) | ⟨target, headers, target_eq, sent⟩
  · have origin' : originalTopic (record.payload delivery.partition delivery.offset).message.headers
        = some topic :=
      origin
    simp [origin', named] at missing
  · exact Or.inl spent
  · obtain rfl : topic = target := Option.some.inj (origin.symm.trans target_eq)
    have kept := sound.replays delivery delivered _ sent
    rw [same] at kept
    exact Or.inr (kept topic headers rfl)

/-- Every message with a value has such a fate, whichever of its copies is looked at;
witness: each round through the dead letters leads to a copy that has been republished once
more, and no copy has been republished more often than `bound`, by induction on the rounds
left.
-/
theorem Cluster.Sound.fate (sound : cluster.Sound consumer producer replayer) {bound : Nat}
    (bounded : ∀ partition, ∀ entry ∈ cluster.logs partition, entry.copies ≤ bound)
    {topic : String} (named : topic ≠ "") {entry : LogEntry}
    (nonempty : entry.record.value.getD [] ≠ []) {index : Nat}
    (member : entry ∈ cluster.logs ⟨topic, index⟩)
    : Fate consumer replayer cluster topic entry := by
  obtain ⟨left, enough⟩ : ∃ left, bound < entry.copies + left :=
    ⟨bound + 1, by omega⟩
  induction left generalizing entry index with
  | zero =>
      have atMost := bounded _ entry member
      omega
  | succ left ih =>
      obtain ⟨offset, found⟩ := List.getElem?_of_mem member
      rcases Nat.lt_or_ge offset (cluster.consumer.committed ⟨topic, index⟩) with below | ahead
      · rcases sound.consumed found (Or.inr below) nonempty with
          resolved | ⟨place, dead, among, message, copies, key, value, origin⟩
        · exact .routed ⟨found, .refl entry⟩ resolved
        · have same : SameMessage entry dead := ⟨message, key, value⟩
          obtain ⟨position, found'⟩ := List.getElem?_of_mem among
          rcases Nat.lt_or_ge position
            (cluster.replayer.committed ⟨deadLetterTopic topic, place⟩) with below' | ahead'
          · rcases sound.replayed found' below' origin named with
              spent | ⟨again, copy, copied, message', copies', key', value'⟩
            · exact .givenUp ⟨found', same⟩ spent
            · have same' : SameMessage entry copy := same.trans ⟨message', key', value'⟩
              have nonempty' : copy.record.value.getD [] ≠ [] := by
                rw [same'.value]
                exact nonempty
              exact (ih nonempty' copied (by omega)).of_same same'
          · exact .deadLettered ⟨found', same⟩ ahead'
      · exact .waiting ⟨found, .refl entry⟩ ahead

/-- In every reachable state every message with a value has such a fate. -/
theorem fate_of_run {labels : List ClusterLabel}
    (run
      : Execution (ClusterStep consumer producer replayer) (.start (fun _ => [])) labels cluster)
    (safe : cluster.SafeOffsets) {topic : String} (named : topic ≠ "") {entry : LogEntry}
    (nonempty : entry.record.value.getD [] ≠ []) {index : Nat}
    (member : entry ∈ cluster.logs ⟨topic, index⟩)
    : Fate consumer replayer cluster topic entry :=
  (Cluster.sound run safe).fate (copies_le run).2 named nonempty member

end SharedKernel.Messaging
