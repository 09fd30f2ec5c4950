import Mathlib.Data.List.Perm.Subperm
import SharedKernel.Messaging.EndlessReplay

/-! The replay budget of the composed loop: no message is republished beyond it where the
dead letters keep the replay count.
-/

namespace SharedKernel.Messaging

open Foundation Js

-----------------------------------------------------------------------------------------
-- Records of a topic, and what they stem from
-----------------------------------------------------------------------------------------

/-- No two records of the topic are the same copy of one message. -/
def Distinct (logs : KafkaLogs) (topic : String) : Prop :=
  ∀ (first second : TopicPartition) (i j : Nat) (one other : LogEntry),
    first.topic = topic
    → second.topic = topic
    → (logs first)[i]? = some one
    → (logs second)[j]? = some other
    → one.message = other.message
    → one.copies = other.copies
    → first = second ∧ i = j

/-- Every record of the target topic that is at least the given copy stems from a record of
the source topic, as many copies before, whose delivery has done its work.
-/
def StemsFrom (logs : KafkaLogs) (past : TopicPartition → Nat → Prop)
    (source target : String) (copies : Nat)
    : Prop :=
  ∀ partition entry,
    partition.topic = target
    → entry ∈ logs partition
    → copies ≤ entry.copies
    → ∃ origin offset before,
        origin.topic = source
        ∧ (logs origin)[offset]? = some before
        ∧ before.message = entry.message
        ∧ before.copies + copies = entry.copies
        ∧ past origin offset

/-- A new record that is no copy the topic already has keeps the topic's records distinct. -/
theorem Distinct.append {logs : KafkaLogs} {topic : String} (distinct : Distinct logs topic)
    {target : TopicPartition} {new : LogEntry}
    (fresh
      : target.topic = topic
        → ∀ partition entry,
            partition.topic = topic
            → entry ∈ logs partition
            → entry.message = new.message
            → entry.copies ≠ new.copies)
    : Distinct (append logs target new) topic := by
  intro first second i j one other own own' found found' message copies
  rcases getElem?_append found with before | ⟨rfl, rfl, rfl⟩
  · rcases getElem?_append found' with before' | ⟨rfl, rfl, rfl⟩
    · exact distinct first second i j one other own own' before before' message copies
    · exact absurd copies (fresh own' first one own (List.mem_of_getElem? before) message)
  · rcases getElem?_append found' with before' | ⟨rfl, rfl, rfl⟩
    · exact absurd copies.symm
        (fresh own second other own' (List.mem_of_getElem? before') message.symm)
    · exact ⟨rfl, rfl⟩

/-- Origins stay origins while deliveries go on. -/
theorem StemsFrom.follow {logs : KafkaLogs} {past past' : TopicPartition → Nat → Prop}
    {source target : String} {copies : Nat}
    (stems : StemsFrom logs past source target copies)
    (still : ∀ partition offset, past partition offset → past' partition offset)
    : StemsFrom logs past' source target copies := by
  intro partition entry own member atLeast
  obtain ⟨origin, offset, before, ownSource, found, message, count, done⟩ :=
    stems partition entry own member atLeast
  exact ⟨origin, offset, before, ownSource, found, message, count, still _ _ done⟩

/-- Origins stay origins when a record is appended that has one too, if it needs one. -/
theorem StemsFrom.append {logs : KafkaLogs} {past : TopicPartition → Nat → Prop}
    {source target : String} {copies : Nat}
    (stems : StemsFrom logs past source target copies) {partition : TopicPartition}
    {new : LogEntry}
    (derived
      : partition.topic = target
        → copies ≤ new.copies
        → ∃ origin offset before,
            origin.topic = source
            ∧ (logs origin)[offset]? = some before
            ∧ before.message = new.message
            ∧ before.copies + copies = new.copies
            ∧ past origin offset)
    : StemsFrom (append logs partition new) past source target copies := by
  have kept := grow_append logs partition new
  intro other entry own member atLeast
  obtain ⟨place, found⟩ := List.getElem?_of_mem member
  rcases getElem?_append found with before | ⟨rfl, _, rfl⟩
  · obtain ⟨origin, offset, earlier, ownSource, found', rest⟩ :=
      stems other entry own (List.mem_of_getElem? before) atLeast
    exact ⟨origin, offset, earlier, ownSource, kept.getElem? found', rest⟩
  · obtain ⟨origin, offset, earlier, ownSource, found', rest⟩ := derived own atLeast
    exact ⟨origin, offset, earlier, ownSource, kept.getElem? found', rest⟩

/-- What a delivery of a source record appends is no copy that the target already has, where
that delivery has not yet done its work; witness: the copy would stem from the same record.
-/
theorem StemsFrom.fresh {logs : KafkaLogs} {past : TopicPartition → Nat → Prop}
    {source target : String} {copies : Nat}
    (stems : StemsFrom logs past source target copies) (distinct : Distinct logs source)
    {origin : TopicPartition} {offset : Nat} {before new : LogEntry}
    (own : origin.topic = source) (found : (logs origin)[offset]? = some before)
    (pending : ¬ past origin offset) (message : new.message = before.message)
    (count : new.copies = before.copies + copies)
    : ∀ partition entry,
        partition.topic = target
        → entry ∈ logs partition
        → entry.message = new.message
        → entry.copies ≠ new.copies := by
  intro partition entry ownTarget member sameMessage sameCopies
  obtain ⟨origin', offset', before', ownSource, found', message', count', done⟩ :=
    stems partition entry ownTarget member (by omega)
  obtain ⟨rfl, rfl⟩ :=
    distinct origin' origin offset' offset before' before ownSource own found' found
      (by rw [message', sameMessage, message]) (by omega)
  exact pending done

-----------------------------------------------------------------------------------------
-- Runs of the loop
-----------------------------------------------------------------------------------------

namespace ReplayLoop

variable {loop : ReplayLoop} {cluster next : Cluster} {label : ClusterLabel}

/-- Each copy of a message in one of the two topics stems from the copy before it in the
other, whose delivery is done; no copy is beyond the budget.
-/
structure Journey (loop : ReplayLoop) (cluster : Cluster) : Prop where
  consumer : cluster.consumer.Busy (consumerSpec loop.consumer loop.adapter.producer) cluster.logs
  replayer : cluster.replayer.Busy (replaySpec loop.replayer) cluster.logs
  consumedOnce : cluster.consumer.Once
  replayedOnce : cluster.replayer.Once
  copies : Distinct cluster.logs loop.topic
  deadLetters : Distinct cluster.logs (deadLetterTopic loop.topic)
  deadLettered
    : StemsFrom cluster.logs (cluster.consumer.Past ResilientEventConsumer.Quiet) loop.topic
        (deadLetterTopic loop.topic) 0
  republished
    : StemsFrom cluster.logs (cluster.replayer.Past DlqReplayConsumer.Quiet)
        (deadLetterTopic loop.topic) loop.topic 1
  origin
    : ∀ partition entry,
        partition.topic = deadLetterTopic loop.topic
        → entry ∈ cluster.logs partition
        → originalTopic entry.record.headers = some loop.topic
  bounded
    : ∀ partition entry,
        partition.topic = loop.topic
        → entry ∈ cluster.logs partition
        → entry.copies ≤ loop.maxReplays
  givenUp : loop.GivenUp cluster

theorem journey_start (loop : ReplayLoop) : loop.Journey (.start (fun _ => [])) where
  consumer := Group.busy_start _ _
  replayer := Group.busy_start _ _
  consumedOnce := by
    intro delivery ended
    cases ended
  replayedOnce := by
    intro delivery ended
    cases ended
  copies := by
    intro first second i j one other _ _ found
    simp [Cluster.start] at found
  deadLetters := by
    intro first second i j one other _ _ found
    simp [Cluster.start] at found
  deadLettered := by
    intro partition entry _ member
    cases member
  republished := by
    intro partition entry _ member
    cases member
  origin := by
    intro partition entry _ member
    cases member
  bounded := by
    intro partition entry _ member
    cases member
  givenUp := by
    intro delivery delivered
    rcases delivered with ended | running
    · cases ended
    · cases running

/-- A message from outside is the first copy of itself. -/
theorem Journey.produced (journey : loop.Journey cluster) {partition : TopicPartition}
    (elsewhere : partition.topic ≠ deadLetterTopic loop.topic) (record : KafkaRecord)
    {message : Nat}
    (fresh : ∀ other, ∀ entry ∈ cluster.logs other, entry.message ≠ message)
    : loop.Journey
        {
          cluster with
          logs := append cluster.logs partition { record, message, copies := 0 }
        } := by
  have grow := grow_append cluster.logs partition { record, message, copies := 0 }
  exact
    {
      consumer := journey.consumer.grow grow
      replayer := journey.replayer.grow grow
      consumedOnce := journey.consumedOnce
      replayedOnce := journey.replayedOnce
      copies :=
        journey.copies.append (fun _ other entry _ member same =>
          absurd same (fresh other entry member))
      deadLetters :=
        journey.deadLetters.append (fun own => absurd own elsewhere)
      deadLettered := journey.deadLettered.append (fun own => absurd own elsewhere)
      republished := journey.republished.append (fun _ none => absurd none (by simp))
      origin := by
        intro other entry own member
        obtain ⟨place, found⟩ := List.getElem?_of_mem member
        rcases getElem?_append found with before | ⟨rfl, _, _⟩
        · exact journey.origin other entry own (List.mem_of_getElem? before)
        · exact absurd own elsewhere
      bounded := by
        intro other entry own member
        obtain ⟨place, found⟩ := List.getElem?_of_mem member
        rcases getElem?_append found with before | ⟨rfl, _, rfl⟩
        · exact journey.bounded other entry own (List.mem_of_getElem? before)
        · exact Nat.zero_le _
      givenUp := journey.givenUp
    }

/-- A step of the consumer dead-letters the copy it works on, at most once; witness: the
guard of the running delivery, which is the only one of its record.
-/
theorem Journey.consumer_step (journey : loop.Journey cluster) {logs : KafkaLogs}
    {group : Group ConsumerEffects Thrown TopicPartition LogEntry}
    {label : GroupLabel ConsumerEffects TopicPartition} (steady : label.Steady)
    (taken
      : GroupStep (consumerSpec loop.consumer loop.adapter.producer) cluster.logs
          cluster.consumer label logs group)
    : loop.Journey { cluster with logs, consumer := group } := by
  have growing := consumerSpec_growing loop.consumer loop.adapter.producer
  have grow := taken.grows growing
  have consumer := journey.consumer.step growing taken
  have replayer := journey.replayer.grow grow
  have follows := taken.follows journey.consumer
  have deadLettered := journey.deadLettered.follow (fun _ _ past => past.follow follows)
  have consumedOnce := journey.consumedOnce.step journey.consumer steady taken
  rcases taken.effect with rfl | ⟨partition, current, op, reply, resume, running, awaits,
    appended, running'⟩
  · exact { journey with consumer, consumedOnce, deadLettered }
  · have working := journey.consumer partition current running
    have run := working.run
    rw [awaits] at run
    have guarded := (loop.consumer.safe_eachMessage _).guarded run
    cases appended with
    | none _ _ => exact { journey with consumer, consumedOnce, deadLettered }
    | @sent input _ index answer _ written =>
        obtain rfl := written
        obtain ⟨sameTopic, _, _, silent⟩ := guarded
        have own : partition.topic = loop.topic := by
          have subscribed : partition.topic ∈ loop.consumer.opts.topics := working.subscribed
          rw [loop.subscribes] at subscribed
          exact List.mem_singleton.mp subscribed
        have inputTopic : input.topic = loop.topic := sameTopic.trans own
        have pending := journey.consumedOnce.pending journey.consumer running silent
        have done : group.Past ResilientEventConsumer.Quiet partition current.offset :=
          @Group.past_of_running _ _ _ _ ResilientEventConsumer.Quiet group partition _ running'
            working.own _ (List.mem_append_right current.history (List.mem_singleton_self _)) id
        have elsewhere : deadLetterTopic input.topic ≠ loop.topic := by
          rw [inputTopic]
          exact (topic_ne_deadLetterTopic loop.topic).symm
        exact
          {
            consumer
            replayer
            consumedOnce
            replayedOnce := journey.replayedOnce
            copies := journey.copies.append (fun other => absurd other elsewhere)
            deadLetters :=
              journey.deadLetters.append (fun _ =>
                journey.deadLettered.fresh journey.copies own working.found pending rfl rfl)
            deadLettered :=
              deadLettered.append (fun _ _ =>
                ⟨partition, current.offset, current.record, own, working.found, rfl, rfl, done⟩)
            republished := journey.republished.append (fun other => absurd other elsewhere)
            origin := by
              intro other entry ownTopic member
              obtain ⟨place, found⟩ := List.getElem?_of_mem member
              rcases getElem?_append found with before | ⟨_, _, rfl⟩
              · exact journey.origin other entry ownTopic (List.mem_of_getElem? before)
              · rw [← inputTopic]
                exact loop.adapter.origin input
            bounded := by
              intro other entry ownTopic member
              obtain ⟨place, found⟩ := List.getElem?_of_mem member
              rcases getElem?_append found with before | ⟨rfl, _, _⟩
              · exact journey.bounded other entry ownTopic (List.mem_of_getElem? before)
              · exact absurd ownTopic elsewhere
            givenUp := journey.givenUp
          }

/-- The replay consumer reads dead letters of the topic only. -/
theorem Journey.replays_deadLetters (journey : loop.Journey cluster) {partition : TopicPartition}
    {current : Delivery ReplayEffects Thrown TopicPartition LogEntry}
    (running : cluster.replayer.running partition = some current)
    : partition.topic = deadLetterTopic loop.topic
      ∧ current.record ∈ cluster.logs partition := by
  have working := journey.replayer partition current running
  have subscribed : partition.topic ∈ loop.replayer.opts.dlqTopics := working.subscribed
  rw [loop.replays] at subscribed
  exact ⟨List.mem_singleton.mp subscribed, List.mem_of_getElem? working.found⟩

/-- The replay consumer sends only copies within the budget, where the replay count is kept;
witness: the guard of its program.
-/
theorem Journey.send_within (journey : loop.Journey cluster) (kept : loop.CountKept cluster)
    {partition : TopicPartition}
    {current : Delivery ReplayEffects Thrown TopicPartition LogEntry} {topic : String}
    {key value : Option Buffer} {headers : List (String × String)} {resume}
    (running : cluster.replayer.running partition = some current)
    (awaits : current.rest = .await (.send topic key value headers) resume)
    : current.record.copies < loop.maxReplays := by
  have run := (journey.replayer partition current running).run
  rw [awaits] at run
  obtain ⟨_, replayable, _⟩ := (loop.replayer.safe_eachMessage _).guarded run
  by_contra spent
  obtain ⟨own, member⟩ := journey.replays_deadLetters running
  apply replayable
  apply Or.inr
  rw [DlqReplayConsumer.maxReplays, loop.budget]
  exact kept partition current.record own member (by omega)

/-- A step of the replay consumer keeps giving up, where the replay count is kept. -/
theorem Journey.givenUp_step (journey : loop.Journey cluster) (kept : loop.CountKept cluster)
    {logs : KafkaLogs} {group : Group ReplayEffects Thrown TopicPartition LogEntry}
    {label : GroupLabel ReplayEffects TopicPartition}
    (taken : GroupStep (replaySpec loop.replayer) cluster.logs cluster.replayer label logs group)
    : loop.GivenUp { cluster with logs, replayer := group } := by
  intro delivery delivered spent topic key value headers reply member
  rcases taken.delivered journey.replayer delivered with before | fresh | answered
  · exact journey.givenUp delivery before spent topic key value headers reply member
  · simp [fresh] at member
  · obtain ⟨partition, current, event, resume, running, awaits, _, sameRecord, longer, _⟩ :=
      answered
    rw [sameRecord] at spent
    rw [longer] at member
    rcases List.mem_append.mp member with earlier | now
    · have before : cluster.replayer.Delivered current :=
        Or.inr (by rw [(journey.replayer partition current running).own, running])
      exact journey.givenUp current before spent topic key value headers reply earlier
    · obtain rfl := List.mem_singleton.mp now
      have within := journey.send_within kept running awaits
      omega

/-- A step of the replay consumer republishes the copy it works on, at most once and within
the budget, where the replay count is kept.
-/
theorem Journey.replayer_step (journey : loop.Journey cluster) (kept : loop.CountKept cluster)
    {logs : KafkaLogs} {group : Group ReplayEffects Thrown TopicPartition LogEntry}
    {label : GroupLabel ReplayEffects TopicPartition} (steady : label.Steady)
    (taken : GroupStep (replaySpec loop.replayer) cluster.logs cluster.replayer label logs group)
    : loop.Journey { cluster with logs, replayer := group } := by
  have growing := replaySpec_growing loop.replayer
  have grow := taken.grows growing
  have consumer := journey.consumer.grow grow
  have replayer := journey.replayer.step growing taken
  have follows := taken.follows journey.replayer
  have republished := journey.republished.follow (fun _ _ past => past.follow follows)
  have replayedOnce := journey.replayedOnce.step journey.replayer steady taken
  have givenUp := journey.givenUp_step kept taken
  rcases taken.effect with rfl | ⟨partition, current, op, reply, resume, running, awaits,
    appended, running'⟩
  · exact { journey with replayer, replayedOnce, republished, givenUp }
  · have working := journey.replayer partition current running
    have run := working.run
    rw [awaits] at run
    have guarded := (loop.replayer.safe_eachMessage _).guarded run
    cases appended with
    | none _ _ => exact { journey with replayer, replayedOnce, republished, givenUp }
    | @sent topic key value headers index answer _ =>
        obtain ⟨origin, _, _, _, _, silent⟩ := guarded
        obtain ⟨own, member⟩ := journey.replays_deadLetters running
        have sameTopic : topic = loop.topic := by
          have named := journey.origin partition current.record own member
          exact Option.some.inj (origin.symm.trans named)
        have within := journey.send_within kept running awaits
        have pending := journey.replayedOnce.pending journey.replayer running silent
        have done : group.Past DlqReplayConsumer.Quiet partition current.offset :=
          @Group.past_of_running _ _ _ _ DlqReplayConsumer.Quiet group partition _ running'
            working.own _ (List.mem_append_right current.history (List.mem_singleton_self _)) id
        have elsewhere : topic ≠ deadLetterTopic loop.topic := by
          rw [sameTopic]
          exact topic_ne_deadLetterTopic loop.topic
        exact
          {
            consumer
            replayer
            consumedOnce := journey.consumedOnce
            replayedOnce
            copies :=
              journey.copies.append (fun _ =>
                journey.republished.fresh journey.deadLetters own working.found pending rfl rfl)
            deadLetters := journey.deadLetters.append (fun other => absurd other elsewhere)
            deadLettered := journey.deadLettered.append (fun other => absurd other elsewhere)
            republished :=
              republished.append (fun _ _ =>
                ⟨partition, current.offset, current.record, own, working.found, rfl, rfl, done⟩)
            origin := by
              intro other entry ownTopic member'
              obtain ⟨place, found⟩ := List.getElem?_of_mem member'
              rcases getElem?_append found with before | ⟨rfl, _, _⟩
              · exact journey.origin other entry ownTopic (List.mem_of_getElem? before)
              · exact absurd ownTopic elsewhere
            bounded := by
              intro other entry ownTopic member'
              obtain ⟨place, found⟩ := List.getElem?_of_mem member'
              rcases getElem?_append found with before | ⟨_, _, rfl⟩
              · exact journey.bounded other entry ownTopic (List.mem_of_getElem? before)
              · exact within
            givenUp
          }

/-- Every undisturbed step from a state in which the count is kept preserves the journey. -/
theorem Journey.step (journey : loop.Journey cluster)
    (taken : loop.KeptStep cluster label next)
    : loop.Journey next := by
  obtain ⟨⟨step, undisturbed⟩, kept⟩ := taken
  cases step with
  | consumer taken => exact journey.consumer_step undisturbed taken
  | replayer taken => exact journey.replayer_step kept undisturbed taken
  | produced partition record fresh => exact journey.produced undisturbed record fresh

/-- Which copy of its message the record at a place is. -/
def copiesAt (cluster : Cluster) (place : TopicPartition × Nat) : Nat :=
  ((cluster.logs place.1)[place.2]?).elim 0 LogEntry.copies

/-- On a journey no message is republished beyond the budget; witness: its republications are
different copies between one and the budget.
-/
theorem Journey.withinBudget (journey : loop.Journey cluster) : loop.WithinBudget cluster := by
  intro message places nodup republications
  have copyOf : ∀ place ∈ places, ∃ entry,
      (cluster.logs place.1)[place.2]? = some entry
      ∧ entry.message = message
      ∧ copiesAt cluster place = entry.copies
      ∧ 0 < entry.copies
      ∧ entry.copies ≤ loop.maxReplays := by
    intro place member
    obtain ⟨own, entry, found, same, positive⟩ := republications place member
    refine ⟨entry, found, same, by simp [copiesAt, found], positive, ?_⟩
    exact journey.bounded place.1 entry own (List.mem_of_getElem? found)
  have distinct : (places.map (copiesAt cluster)).Nodup := by
    apply List.Nodup.map_on _ nodup
    intro place member place' member' same
    obtain ⟨entry, found, message', copies, _, _⟩ := copyOf place member
    obtain ⟨entry', found', message'', copies', _, _⟩ := copyOf place' member'
    obtain ⟨samePartition, sameOffset⟩ :=
      journey.copies place.1 place'.1 place.2 place'.2 entry entry'
        (republications place member).1 (republications place' member').1 found found'
        (message'.trans message''.symm) (by omega)
    exact Prod.ext samePartition sameOffset
  have within : places.map (copiesAt cluster) ⊆ List.range' 1 loop.maxReplays := by
    intro count member
    obtain ⟨place, place_mem, rfl⟩ := List.mem_map.mp member
    obtain ⟨entry, _, _, copies, positive, bounded⟩ := copyOf place place_mem
    rw [List.mem_range'_1]
    omega
  have short := (List.subperm_of_subset distinct within).length_le
  simpa using short

end ReplayLoop

/-- In every run of the loop without a restart, from an empty cluster, in which each dead-letter
record of a message whose budget was used up by then carries a replay count that says so, no
message is republished to its topic more often than the budget allows, and it is given up after
that.
-/
theorem replay_budget {loop : ReplayLoop} {labels : List ClusterLabel} {cluster : Cluster}
    (run : Execution loop.KeptStep (.start (fun _ => [])) labels cluster)
    : loop.WithinBudget cluster ∧ loop.GivenUp cluster := by
  have journey : loop.Journey cluster :=
    @Execution.invariant _ _ _ _ _ _ (fun _ => loop.Journey) (ReplayLoop.journey_start loop)
      (fun _ _ _ _ journey taken => journey.step taken) run
  exact ⟨journey.withinBudget, journey.givenUp⟩

/-- The one replay that a poison pill is allowed. -/
theorem replay_budget_one
    : ∃ labels cluster,
        Execution knowledgeLoop.KeptStep (.start (fun _ => [])) labels cluster
        ∧ knowledgeLoop.Republication cluster 0 (⟨"knowledge-events", 0⟩, 1)
        ∧ knowledgeLoop.WithinBudget cluster
        ∧ knowledgeLoop.GivenUp cluster := by
  obtain ⟨labels, cluster, run, round⟩ :=
    ReplayLoop.exists_round forgetful_knowledgeLoop (by decide) Nat.one_pos
      poisonPill_knowledgeLoop 1
  have kept := ReplayLoop.kept_of_last run (round.countKept (Nat.le_refl 1))
  exact ⟨labels, cluster, kept, round.republication Nat.one_pos (Nat.le_refl 1),
    replay_budget kept⟩

/-- The second replay of a poison pill, which no dead letter counts. -/
theorem replay_budget_exceeded
    : ∃ labels cluster,
        Execution knowledgeLoop.CleanStep (.start (fun _ => [])) labels cluster
        ∧ ¬ knowledgeLoop.WithinBudget cluster := by
  obtain ⟨labels, cluster, run, round⟩ :=
    ReplayLoop.exists_round forgetful_knowledgeLoop (by decide) Nat.one_pos
      poisonPill_knowledgeLoop 2
  exact ⟨labels, cluster, run, round.exceeds (Nat.lt_succ_self 1)⟩

end SharedKernel.Messaging
