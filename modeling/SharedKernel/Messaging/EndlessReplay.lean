import Mathlib.Data.List.Nodup
import SharedKernel.Messaging.PoisonPill

/-! A loop whose dead letters carry no replay count replays a poison pill without end: each
round takes the message through both consumers and back to its topic.
-/

namespace SharedKernel.Messaging

open Foundation Js

/-- One delivery of a dead letter that can be replayed: among operations that leave the logs
alone it is sent back.
-/
theorem finishes_replay (replayer : DlqReplayConsumer) (payload : EachMessagePayload)
    {topic : String} (origin : originalTopic payload.message.headers = some topic)
    (replayable : ¬ replayer.Exhausted payload.message.headers)
    : ∃ before after headers,
        Finishes (replayer.eachMessage payload)
          (before
            ++ ([⟨.send topic payload.message.key payload.message.value headers, .ok ()⟩]
              ++ after))
          (.ok ())
        ∧ ∀ event ∈ before ++ after,
            ∀ topic key value headers, event ≠ ⟨.send topic key value headers, .ok ()⟩ := by
  have named : topic ≠ "" := by
    intro missing
    exact replayable (Or.inl (by simp [origin, missing]))
  have unspent
      : ¬ (replayCount payload.message.headers).ge replayer.maxReplays = true :=
    fun spent => replayable (Or.inr spent)
  refine
    ⟨[
        ⟨.random, .ofNat 0⟩,
        ⟨.sleep (replayer.computeDelayMs (replayCount payload.message.headers) (.ofNat 0)),
          .ok ()⟩
      ],
      ⟨.log .info "Replayed DLQ message back to its original topic", ()⟩
        :: ((if replayer.opts.onReplay then
              [⟨.onReplay topic ((replayCount payload.message.headers).add (.ofNat 1)),
                .ok ()⟩]
            else [])
          ++ [⟨.commitOffsets payload.topic payload.partition
                (nextOffset payload.message.offset),
              .ok ()⟩]),
      stringHeaders payload.message.headers (replayCount payload.message.headers), ?_, ?_⟩
  · unfold DlqReplayConsumer.eachMessage
    simp only [origin, Option.getD_some, if_neg named, if_neg unspent]
    by_cases wired : replayer.opts.onReplay
    · simp only [DlqReplayConsumer.republish, wired, if_true]
      exact .step _ (.step _ (.step _ (.step _ (.step _ (.step _ (.refl _))))))
    · simp only [DlqReplayConsumer.republish, wired]
      exact .step _ (.step _ (.step _ (.step _ (.step _ (.refl _)))))
  · intro event member topic key value headers
    by_cases wired : replayer.opts.onReplay
    · simp only [wired, if_true, List.cons_append, List.nil_append, List.mem_cons,
        List.not_mem_nil, or_false] at member
      rcases member with rfl | rfl | rfl | rfl | rfl <;> simp
    · simp only [wired, Bool.false_eq_true, if_false, List.cons_append, List.nil_append,
        List.mem_cons, List.not_mem_nil, or_false] at member
      rcases member with rfl | rfl | rfl | rfl <;> simp

/-- One send among operations that are none appends one copy. -/
theorem served_send (replayer : DlqReplayConsumer) (partition : TopicPartition) (offset : Nat)
    (entry : LogEntry) (logs : KafkaLogs) {topic : String} {key value : Option Buffer}
    {headers : List (String × String)} {before after : List ReplayEvent}
    (quiet
      : ∀ event ∈ before ++ after,
          ∀ topic key value headers, event ≠ ⟨.send topic key value headers, .ok ()⟩)
    : Served (replaySpec replayer) partition offset entry logs
        (before ++ ([⟨.send topic key value headers, .ok ()⟩] ++ after))
        (append logs ⟨topic, 0⟩
          {
            record := sentRecord key value headers
            message := entry.message
            copies := entry.copies + 1
          }) := by
  have start := @Served.unchanged _ _ _ _ (replaySpec replayer) partition offset entry
    before logs (fun event member _ => .none _ (quiet event (List.mem_append_left _ member)))
  have finish := @Served.unchanged _ _ _ _ (replaySpec replayer) partition offset entry
    after
    (append logs ⟨topic, 0⟩
      {
        record := sentRecord key value headers
        message := entry.message
        copies := entry.copies + 1
      })
    (fun event member _ => .none _ (quiet event (List.mem_append_right _ member)))
  refine start.trans (.cons ?_ finish)
  intro history rest
  exact ReplayAppends.sent 0 (.ok ()) logs

namespace ReplayLoop

variable {loop : ReplayLoop} {cluster : Cluster}

/-- The loop lets its replay consumer run. -/
theorem replayer_cleanStep (loop : ReplayLoop) (cluster : Cluster)
    (logs : KafkaLogs) (group : Group ReplayEffects Thrown TopicPartition LogEntry)
    (label : GroupLabel ReplayEffects TopicPartition) (later : KafkaLogs)
    (next : Group ReplayEffects Thrown TopicPartition LogEntry) (steady : label.Steady)
    (taken : GroupStep (replaySpec loop.replayer) logs group label later next)
    : loop.CleanStep { cluster with logs, replayer := group } (.replayer label)
        { cluster with logs := later, replayer := next } :=
  ⟨.replayer taken, steady⟩

/-- The next record of an idle replay consumer goes back to the topic, if its replay count
is below the budget.
-/
theorem republishes {partition : Nat} {entry : LogEntry}
    (idle : cluster.replayer.running ⟨deadLetterTopic loop.topic, partition⟩ = none)
    (next
      : (cluster.logs ⟨deadLetterTopic loop.topic, partition⟩)[
            cluster.replayer.position ⟨deadLetterTopic loop.topic, partition⟩]?
        = some entry)
    (origin : originalTopic entry.record.headers = some loop.topic)
    (replayable : ¬ loop.replayer.Exhausted entry.record.headers)
    : ∃ record labels group,
        record.value = entry.record.value
        ∧ Execution loop.CleanStep cluster labels
            {
              cluster with
              logs :=
                append cluster.logs ⟨loop.topic, 0⟩
                  { record, message := entry.message, copies := entry.copies + 1 }
              replayer := group
            }
        ∧ group.running = cluster.replayer.running
        ∧ group.position
          = Function.update cluster.replayer.position ⟨deadLetterTopic loop.topic, partition⟩
              (cluster.replayer.position ⟨deadLetterTopic loop.topic, partition⟩ + 1) := by
  obtain ⟨before, after, headers, run, quiet⟩ :=
    finishes_replay loop.replayer
      (entry.payload ⟨deadLetterTopic loop.topic, partition⟩
        (cluster.replayer.position ⟨deadLetterTopic loop.topic, partition⟩))
      origin replayable
  have served :=
    @served_send loop.replayer ⟨deadLetterTopic loop.topic, partition⟩
      (cluster.replayer.position ⟨deadLetterTopic loop.topic, partition⟩) entry cluster.logs
      loop.topic entry.record.key entry.record.value headers before after quiet
  obtain ⟨labels, group, reached, running, position, _⟩ :=
    served.delivery (loop.replayer_cleanStep cluster) (by simp [replaySpec, loop.replays])
      idle next run
  exact
    ⟨sentRecord entry.record.key entry.record.value headers, labels, group, rfl, reached,
      running, position⟩

/-- The adapter's dead letters carry no replay count. -/
def Forgetful (loop : ReplayLoop) : Prop :=
  ∀ input, replayCount (loop.adapter.write input).headers = .ofNat 0

/-- After the given number of rounds of a poison pill: the newest copy is next to be
consumed, and every dead letter has been replayed.
-/
structure Round (loop : ReplayLoop) (value : Option Buffer) (rounds : Nat) (cluster : Cluster)
    : Prop where
  consumerIdle : cluster.consumer.running ⟨loop.topic, 0⟩ = none
  consumerAt : cluster.consumer.position ⟨loop.topic, 0⟩ = rounds
  replayerIdle : cluster.replayer.running ⟨deadLetterTopic loop.topic, 0⟩ = none
  replayerAt : cluster.replayer.position ⟨deadLetterTopic loop.topic, 0⟩ = rounds
  length : (cluster.logs ⟨loop.topic, 0⟩).length = rounds + 1
  copy
    : ∀ copies,
        copies ≤ rounds
        → ∃ entry,
            (cluster.logs ⟨loop.topic, 0⟩)[copies]? = some entry
            ∧ entry.message = 0
            ∧ entry.copies = copies
            ∧ entry.record.value = value
  replayed : (cluster.logs ⟨deadLetterTopic loop.topic, 0⟩).length = rounds
  behind
    : ∀ partition entry,
        partition.topic = deadLetterTopic loop.topic
        → entry ∈ cluster.logs partition
        → entry.copies < rounds

/-- The topic and its dead-letter topic have different partitions. -/
theorem partition_ne (loop : ReplayLoop) (index other : Nat)
    : (⟨loop.topic, index⟩ : TopicPartition) ≠ ⟨deadLetterTopic loop.topic, other⟩ := by
  intro same
  exact topic_ne_deadLetterTopic loop.topic (congrArg TopicPartition.topic same)

/-- A dead letter of a forgetful adapter can always be replayed, where any replay is allowed. -/
theorem Forgetful.replayable (forgetful : loop.Forgetful) (named : loop.topic ≠ "")
    (some_budget : 0 < loop.maxReplays) {input : DeadLetterInput}
    (sameTopic : input.topic = loop.topic)
    : ¬ loop.replayer.Exhausted (loop.adapter.write input).headers := by
  intro either
  rcases either with missing | spent
  · rw [loop.adapter.origin, sameTopic] at missing
    exact named missing
  · rw [forgetful, DlqReplayConsumer.maxReplays, loop.budget] at spent
    simp [Number.ge, Number.ofNat] at spent
    omega

/-- One more round of a poison pill: the consumer dead-letters the newest copy, and the replay
consumer sends it back as the next one.
-/
theorem Round.next {value : Option Buffer} {rounds : Nat} (round : loop.Round value rounds cluster)
    (forgetful : loop.Forgetful) (named : loop.topic ≠ "") (some_budget : 0 < loop.maxReplays)
    (poison : PoisonPill loop.consumer value)
    : ∃ labels next,
        Execution loop.CleanStep cluster labels next ∧ loop.Round value (rounds + 1) next := by
  obtain ⟨newest, found, message, copies, sameValue⟩ := round.copy rounds (Nat.le_refl _)
  have next : (cluster.logs ⟨loop.topic, 0⟩)[
      cluster.consumer.position ⟨loop.topic, 0⟩]? = some newest := by
    rw [round.consumerAt]
    exact found
  obtain ⟨input, labels, group, inputTopic, _, inputValue, consumed, consuming, consumedTo, _⟩ :=
    dead_letters round.consumerIdle next (by rw [sameValue]; exact poison)
  have origin := loop.adapter.origin input
  rw [inputTopic] at origin
  have last
      : (append cluster.logs ⟨deadLetterTopic loop.topic, 0⟩ (loop.deadLetter input newest)
            ⟨deadLetterTopic loop.topic, 0⟩)[
          cluster.replayer.position ⟨deadLetterTopic loop.topic, 0⟩]?
        = some (loop.deadLetter input newest) := by
    rw [append_self, round.replayerAt, ← round.replayed]
    exact List.getElem?_concat_length
  obtain ⟨record, labels', group', recordValue, replayed, replaying, replayedTo⟩ :=
    @republishes loop
      {
        cluster with
        logs :=
          append cluster.logs ⟨deadLetterTopic loop.topic, 0⟩ (loop.deadLetter input newest)
        consumer := group
      }
      0 _ round.replayerIdle last origin (forgetful.replayable named some_budget inputTopic)
  refine ⟨labels ++ labels', _, consumed.trans replayed, ?_⟩
  exact
    {
      consumerIdle := by
        rw [consuming]
        exact round.consumerIdle
      consumerAt := by
        rw [consumedTo, Function.update_self, round.consumerAt]
      replayerIdle := by
        rw [replaying]
        exact round.replayerIdle
      replayerAt := by
        rw [replayedTo, Function.update_self, round.replayerAt]
      length := by
        simp only [append_self, append_of_ne _ _ (loop.partition_ne 0 0), List.length_append,
          round.length, List.length_singleton]
      copy := by
        intro count within
        simp only [append_self, append_of_ne _ _ (loop.partition_ne 0 0)]
        rcases Nat.lt_or_eq_of_le within with earlier | rfl
        · obtain ⟨entry, held, facts⟩ := round.copy count (Nat.le_of_lt_succ earlier)
          obtain ⟨bound, _⟩ := List.getElem?_eq_some_iff.mp held
          exact ⟨entry, by rw [List.getElem?_append_left bound, held], facts⟩
        · refine
            ⟨{ record, message := newest.message, copies := newest.copies + 1 }, ?_, message,
              by rw [copies], ?_⟩
          · rw [← round.length]
            exact List.getElem?_concat_length
          · rw [recordValue, deadLetter, loop.adapter.sameValue, inputValue, sameValue]
      replayed := by
        simp only [append_of_ne _ _ (loop.partition_ne 0 0).symm, append_self,
          List.length_append, round.replayed, List.length_singleton]
      behind := by
        intro partition entry own member
        have elsewhere : partition ≠ ⟨loop.topic, 0⟩ := by
          intro same
          exact topic_ne_deadLetterTopic loop.topic (by rw [← own, same])
        simp only [append_of_ne _ _ elsewhere] at member
        obtain ⟨place, held⟩ := List.getElem?_of_mem member
        rcases getElem?_append held with before | ⟨_, _, rfl⟩
        · exact Nat.lt_succ_of_lt
            (round.behind partition entry own (List.mem_of_getElem? before))
        · exact Nat.lt_succ_of_le (Nat.le_of_eq copies)
    }

/-- A poison pill arrives in an empty cluster. -/
theorem round_start (loop : ReplayLoop) (value : Option Buffer)
    : ∃ labels cluster,
        Execution loop.CleanStep (.start (fun _ => [])) labels cluster
        ∧ loop.Round value 0 cluster := by
  have taken
      : loop.CleanStep (.start (fun _ => []))
          (.produced ⟨loop.topic, 0⟩ { key := none, value, headers := [] }) _ :=
    ⟨@ClusterStep.produced _ _ _ _ ⟨loop.topic, 0⟩ _ 0 (by simp [Cluster.start]),
      topic_ne_deadLetterTopic loop.topic⟩
  refine ⟨_, _, .cons taken .start, ?_⟩
  have elsewhere := (loop.partition_ne 0 0).symm
  exact
    {
      consumerIdle := rfl
      consumerAt := rfl
      replayerIdle := rfl
      replayerAt := rfl
      length := by simp [Cluster.start]
      copy := by
        intro copies within
        obtain rfl := Nat.le_zero.mp within
        exact ⟨_, by simp [Cluster.start]; rfl, rfl, rfl, rfl⟩
      replayed := by simp [Cluster.start, append_of_ne _ _ elsewhere]
      behind := by
        intro partition entry own member
        have other : partition ≠ ⟨loop.topic, 0⟩ := by
          intro same
          exact topic_ne_deadLetterTopic loop.topic (by rw [← own, same])
        simp [Cluster.start, append_of_ne _ _ other] at member
    }

/-- A poison pill goes round as often as one likes, by induction on the rounds. -/
theorem exists_round {value : Option Buffer} (forgetful : loop.Forgetful)
    (named : loop.topic ≠ "") (some_budget : 0 < loop.maxReplays)
    (poison : PoisonPill loop.consumer value) (rounds : Nat)
    : ∃ labels cluster,
        Execution loop.CleanStep (.start (fun _ => [])) labels cluster
        ∧ loop.Round value rounds cluster := by
  induction rounds with
  | zero => exact loop.round_start value
  | succ rounds ih =>
      obtain ⟨labels, cluster, earlier, round⟩ := ih
      obtain ⟨labels', next, later, round'⟩ := round.next forgetful named some_budget poison
      exact ⟨labels ++ labels', next, earlier.trans later, round'⟩

/-- Each round but the first copy is a republication. -/
theorem Round.republication {value : Option Buffer} {rounds copies : Nat}
    (round : loop.Round value rounds cluster) (positive : 0 < copies) (within : copies ≤ rounds)
    : loop.Republication cluster 0 (⟨loop.topic, 0⟩, copies) := by
  obtain ⟨entry, found, message, count, _⟩ := round.copy copies within
  exact ⟨rfl, entry, found, message, by rw [count]; exact positive⟩

/-- More rounds than the budget exceed it; witness: the places of the copies. -/
theorem Round.exceeds {value : Option Buffer} {rounds : Nat}
    (round : loop.Round value rounds cluster) (beyond : loop.maxReplays < rounds)
    : ¬ loop.WithinBudget cluster := by
  intro within
  have distinct : ((List.range' 1 rounds).map (Prod.mk (⟨loop.topic, 0⟩ : TopicPartition))).Nodup :=
    List.Nodup.map (Prod.mk_right_injective _) (List.nodup_range' 1)
  have places := within 0 _ distinct (by
    intro place member
    obtain ⟨copies, inRange, rfl⟩ := List.mem_map.mp member
    obtain ⟨positive, bounded⟩ := List.mem_range'_1.mp inRange
    exact round.republication positive (by omega))
  simp only [List.length_map, List.length_range'] at places
  omega

/-- Within the budget no dead letter needs a replay count. -/
theorem Round.countKept {value : Option Buffer} {rounds : Nat}
    (round : loop.Round value rounds cluster) (within : rounds ≤ loop.maxReplays)
    : loop.CountKept cluster := by
  intro partition entry own member spent
  have below := round.behind partition entry own member
  omega

/-- A run keeps the replay count throughout if it keeps it at its end, since no dead letter
goes away; by induction on the run.
-/
theorem kept_of_last {labels : List ClusterLabel} {start : Cluster}
    (run : Execution loop.CleanStep start labels cluster) (kept : loop.CountKept cluster)
    : Execution loop.KeptStep start labels cluster := by
  induction run with
  | start => exact .start
  | @snoc labels state label next earlier taken ih =>
      have before : loop.CountKept state := by
        intro partition entry own member spent
        exact kept partition entry own ((taken.1.grows partition).subset member) spent
      exact .snoc (ih before) ⟨taken, before⟩

end ReplayLoop

theorem forgetful_knowledgeLoop : knowledgeLoop.Forgetful := by
  intro input
  have none_means_zero : Number.ofText "0" = .ofNat 0 := by decide +kernel
  exact none_means_zero

end SharedKernel.Messaging
