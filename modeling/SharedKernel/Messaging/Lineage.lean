import Mathlib.Algebra.Order.BigOperators.Group.List
import SharedKernel.Messaging.Handlings
import SharedKernel.Messaging.MessageFate
import SharedKernel.Messaging.ReplayBudget
import SharedKernel.Messaging.WireFormat

/-! All deliveries of one message, over all its copies: without a restart a handler resolves for
it at most once, and is called no more often than the retries of each allowed copy permit.
-/

namespace SharedKernel.Messaging

open Foundation Js

/-- The deliveries of the message that have ended or are under way in the given partitions. -/
def Cluster.deliveriesOf (cluster : Cluster) (partitions : List TopicPartition) (message : Nat)
    : List (Delivery ConsumerEffects Thrown TopicPartition LogEntry) :=
  (cluster.consumer.deliveries partitions).filter
    (fun delivery => delivery.record.message = message)

/-- Any operation but a dead letter. -/
def Undead : ConsumerOp → Prop
  | .deadLetter _ => False
  | _ => True

/-- Any operation but a republication. -/
def Unsent : ReplayOp → Prop
  | .send _ _ _ _ => False
  | _ => True

theorem undead_of_quiet {op : ConsumerOp} (quiet : ResilientEventConsumer.Quiet op)
    : Undead op := by
  cases op with
  | commitOffsets | deadLetter => exact quiet.elim
  | handle | onRetry | sleep | randomHex | log => trivial

theorem unsent_of_quiet {op : ReplayOp} (quiet : DlqReplayConsumer.Quiet op) : Unsent op := by
  cases op with
  | commitOffsets | send => exact quiet.elim
  | onGiveUp | onReplay | sleep | random | log => trivial

/-- Counts of which at most one is not zero, and that one at most one, by induction on them. -/
theorem sum_le_one {α : Type} {count : α → Nat} {items : List α}
    (exclusive : items.Pairwise (fun first second => count first = 0 ∨ count second = 0))
    (single : ∀ item ∈ items, count item ≤ 1)
    : (items.map count).sum ≤ 1 := by
  induction items with
  | nil => exact Nat.zero_le 1
  | cons item items ih =>
      obtain ⟨alone, exclusive⟩ := List.pairwise_cons.mp exclusive
      have later := ih exclusive (fun other member => single other (List.mem_cons_of_mem _ member))
      rw [List.map_cons, List.sum_cons]
      rcases Nat.eq_zero_or_pos (count item) with none | some
      · rw [none, Nat.zero_add]
        exact later
      · have others : (items.map count).sum = 0 := by
          apply List.sum_eq_zero
          intro value member
          obtain ⟨other, among, rfl⟩ := List.mem_map.mp member
          exact (alone other among).resolve_left some.ne'
        rw [others]
        exact single item (List.mem_cons_self ..)

/-- Where the items with one key count at most one, all items count at most as many as there
are keys, by induction on the keys.
-/
theorem sum_le_length {α : Type} {count key : α → Nat} {keys : List Nat} {items : List α}
    (covered : ∀ item ∈ items, count item ≠ 0 → key item ∈ keys)
    (each : ∀ name, ((items.filter (fun item => key item = name)).map count).sum ≤ 1)
    : (items.map count).sum ≤ keys.length := by
  induction keys generalizing items with
  | nil =>
      apply le_of_eq
      apply List.sum_eq_zero
      intro value member
      obtain ⟨item, among, rfl⟩ := List.mem_map.mp member
      by_contra counts
      cases covered item among counts
  | cons name keys ih =>
      have parts := ((List.filter_append_perm (fun item => decide (key item = name)) items).map
        count).sum_eq
      rw [List.map_append, List.sum_append] at parts
      have others := @ih (items.filter (fun item => !decide (key item = name))) ?_ ?_
      · rw [← parts, List.length_cons, Nat.add_comm]
        exact Nat.add_le_add others (each name)
      · intro item member counts
        obtain ⟨among, differs⟩ := List.mem_filter.mp member
        refine (List.mem_cons.mp (covered item among counts)).resolve_left ?_
        simpa using differs
      · intro other
        rw [List.filter_filter]
        refine le_trans ?_ (each other)
        apply List.Sublist.sum_le_sum _ (fun _ _ => Nat.zero_le _)
        apply List.Sublist.map
        apply List.monotone_filter_right
        intro item both
        simp only [Bool.and_eq_true] at both
        exact both.1

namespace ReplayLoop

variable {loop : ReplayLoop} {cluster next : Cluster} {label : ClusterLabel}

-----------------------------------------------------------------------------------------
-- Where each copy comes from
-----------------------------------------------------------------------------------------

/-- Nothing is delivered twice; each dead letter stems from a copy whose delivery has sent it,
and each republication from a dead letter whose delivery has sent it.
-/
structure Lineage (loop : ReplayLoop) (cluster : Cluster) : Prop where
  consumer : cluster.consumer.Busy (consumerSpec loop.consumer loop.adapter.producer) cluster.logs
  replayer : cluster.replayer.Busy (replaySpec loop.replayer) cluster.logs
  consumed : cluster.consumer.InOrder
  replayed : cluster.replayer.InOrder
  copies : Distinct cluster.logs loop.topic
  deadLetters : Distinct cluster.logs (deadLetterTopic loop.topic)
  deadLettered
    : StemsFrom cluster.logs (cluster.consumer.Past Undead) loop.topic
        (deadLetterTopic loop.topic) 0
  republished
    : StemsFrom cluster.logs (cluster.replayer.Past Unsent) (deadLetterTopic loop.topic)
        loop.topic 1
  origin
    : ∀ partition entry,
        partition.topic = deadLetterTopic loop.topic
        → entry ∈ cluster.logs partition
        → originalTopic entry.record.headers = some loop.topic

theorem lineage_start (loop : ReplayLoop) : loop.Lineage (.start (fun _ => [])) where
  consumer := Group.busy_start _ _
  replayer := Group.busy_start _ _
  consumed := Group.inOrder_start
  replayed := Group.inOrder_start
  copies := by
    intro first second i j one other _ _ found
    simp [Cluster.start] at found
  deadLetters := by
    intro first second i j one other _ _ found
    simp [Cluster.start] at found
  deadLettered := by
    intro partition entry _ member
    cases member
  republished := by
    intro partition entry _ member
    cases member
  origin := by
    intro partition entry _ member
    cases member

/-- The consumer of the loop reads its topic only. -/
theorem topic_of_subscribed (loop : ReplayLoop) {partition : TopicPartition}
    (subscribed : partition.topic ∈ loop.consumer.opts.topics)
    : partition.topic = loop.topic := by
  rw [loop.subscribes] at subscribed
  exact List.mem_singleton.mp subscribed

/-- The replay consumer of the loop reads its dead letters only. -/
theorem deadLetterTopic_of_subscribed (loop : ReplayLoop) {partition : TopicPartition}
    (subscribed : partition.topic ∈ loop.replayer.opts.dlqTopics)
    : partition.topic = deadLetterTopic loop.topic := by
  rw [loop.replays] at subscribed
  exact List.mem_singleton.mp subscribed

/-- An appended record keeps the origin of the dead letters, where it has it too. -/
theorem origin_append {logs : KafkaLogs} {topic : String}
    (origin
      : ∀ partition entry,
          partition.topic = deadLetterTopic topic
          → entry ∈ logs partition
          → originalTopic entry.record.headers = some topic)
    {target : TopicPartition} {new : LogEntry}
    (named
      : target.topic = deadLetterTopic topic → originalTopic new.record.headers = some topic)
    : ∀ partition entry,
        partition.topic = deadLetterTopic topic
        → entry ∈ append logs target new partition
        → originalTopic entry.record.headers = some topic := by
  intro partition entry own member
  obtain ⟨offset, found⟩ := List.getElem?_of_mem member
  rcases getElem?_append found with before | ⟨rfl, _, rfl⟩
  · exact origin partition entry own (List.mem_of_getElem? before)
  · exact named own

/-- A message from outside stems from nothing. -/
theorem Lineage.produced (lineage : loop.Lineage cluster) {partition : TopicPartition}
    (elsewhere : partition.topic ≠ deadLetterTopic loop.topic) (record : KafkaRecord)
    {message : Nat}
    (fresh : ∀ other, ∀ entry ∈ cluster.logs other, entry.message ≠ message)
    : loop.Lineage
        {
          cluster with
          logs := append cluster.logs partition { record, message, copies := 0 }
        } := by
  have grow := grow_append cluster.logs partition { record, message, copies := 0 }
  exact
    {
      consumer := lineage.consumer.grow grow
      replayer := lineage.replayer.grow grow
      consumed := lineage.consumed
      replayed := lineage.replayed
      copies :=
        lineage.copies.append (fun _ other entry _ member same =>
          absurd same (fresh other entry member))
      deadLetters := lineage.deadLetters.append (fun own => absurd own elsewhere)
      deadLettered := lineage.deadLettered.append (fun own => absurd own elsewhere)
      republished := lineage.republished.append (fun _ none => absurd none (by simp))
      origin := origin_append lineage.origin (fun own => absurd own elsewhere)
    }

/-- The dead letter that the consumer sends stems from the copy it works on, which has had
none; witness: the guard of the running delivery, which is the only one of its record.
-/
theorem Lineage.consumer_step (lineage : loop.Lineage cluster) {logs : KafkaLogs}
    {group : Group ConsumerEffects Thrown TopicPartition LogEntry}
    {label : GroupLabel ConsumerEffects TopicPartition} (steady : label.Steady)
    (taken
      : GroupStep (consumerSpec loop.consumer loop.adapter.producer) cluster.logs
          cluster.consumer label logs group)
    : loop.Lineage { cluster with logs, consumer := group } := by
  have growing := consumerSpec_growing loop.consumer loop.adapter.producer
  have consumer := lineage.consumer.step growing taken
  have replayer := lineage.replayer.grow (taken.grows growing)
  have consumed := lineage.consumed.step lineage.consumer steady taken
  have deadLettered :=
    lineage.deadLettered.follow (fun _ _ past => past.follow (taken.follows lineage.consumer))
  rcases taken.effect with rfl | ⟨partition, current, op, reply, resume, running, awaits,
    appended, running'⟩
  · exact { lineage with consumer, consumed, deadLettered }
  · have working := lineage.consumer partition current running
    have run := working.run
    rw [awaits] at run
    have guarded := (loop.consumer.safe_eachMessage _).guarded run
    cases appended with
    | none _ _ => exact { lineage with consumer, consumed, deadLettered }
    | @sent input _ index answer _ written =>
        obtain rfl := written
        obtain ⟨sameTopic, _, _, silent⟩ := guarded
        have own := loop.topic_of_subscribed working.subscribed
        have inputTopic : input.topic = loop.topic := sameTopic.trans own
        have pending : ¬ cluster.consumer.Past Undead partition current.offset :=
          lineage.consumed.once.pending lineage.consumer running
            (fun event member => undead_of_quiet (silent event member))
        have done : group.Past Undead partition current.offset :=
          @Group.past_of_running _ _ _ _ Undead group partition _ running' working.own _
            (List.mem_append_right current.history (List.mem_singleton_self _)) id
        have elsewhere : deadLetterTopic input.topic ≠ loop.topic := by
          rw [inputTopic]
          exact (topic_ne_deadLetterTopic loop.topic).symm
        exact
          {
            consumer
            replayer
            consumed
            replayed := lineage.replayed
            copies := lineage.copies.append (fun other => absurd other elsewhere)
            deadLetters :=
              lineage.deadLetters.append (fun _ =>
                lineage.deadLettered.fresh lineage.copies own working.found pending rfl rfl)
            deadLettered :=
              deadLettered.append (fun _ _ =>
                ⟨partition, current.offset, current.record, own, working.found, rfl, rfl, done⟩)
            republished := lineage.republished.append (fun other => absurd other elsewhere)
            origin :=
              origin_append lineage.origin (fun _ => inputTopic ▸ loop.adapter.origin input)
          }

/-- The copy that the replay consumer sends stems from the dead letter it works on, which has
been replayed no more than once.
-/
theorem Lineage.replayer_step (lineage : loop.Lineage cluster) {logs : KafkaLogs}
    {group : Group ReplayEffects Thrown TopicPartition LogEntry}
    {label : GroupLabel ReplayEffects TopicPartition} (steady : label.Steady)
    (taken : GroupStep (replaySpec loop.replayer) cluster.logs cluster.replayer label logs group)
    : loop.Lineage { cluster with logs, replayer := group } := by
  have growing := replaySpec_growing loop.replayer
  have consumer := lineage.consumer.grow (taken.grows growing)
  have replayer := lineage.replayer.step growing taken
  have replayed := lineage.replayed.step lineage.replayer steady taken
  have republished :=
    lineage.republished.follow (fun _ _ past => past.follow (taken.follows lineage.replayer))
  rcases taken.effect with rfl | ⟨partition, current, op, reply, resume, running, awaits,
    appended, running'⟩
  · exact { lineage with replayer, replayed, republished }
  · have working := lineage.replayer partition current running
    have run := working.run
    rw [awaits] at run
    have guarded := (loop.replayer.safe_eachMessage _).guarded run
    cases appended with
    | none _ _ => exact { lineage with replayer, replayed, republished }
    | @sent topic key value headers index answer _ =>
        obtain ⟨named, _, _, _, _, silent⟩ := guarded
        have own := loop.deadLetterTopic_of_subscribed working.subscribed
        have sameTopic : topic = loop.topic :=
          Option.some.inj (named.symm.trans
            (lineage.origin partition current.record own (List.mem_of_getElem? working.found)))
        have pending : ¬ cluster.replayer.Past Unsent partition current.offset :=
          lineage.replayed.once.pending lineage.replayer running
            (fun event member => unsent_of_quiet (silent event member))
        have done : group.Past Unsent partition current.offset :=
          @Group.past_of_running _ _ _ _ Unsent group partition _ running' working.own _
            (List.mem_append_right current.history (List.mem_singleton_self _)) id
        have elsewhere : topic ≠ deadLetterTopic loop.topic := by
          rw [sameTopic]
          exact topic_ne_deadLetterTopic loop.topic
        exact
          {
            consumer
            replayer
            consumed := lineage.consumed
            replayed
            copies :=
              lineage.copies.append (fun _ =>
                lineage.republished.fresh lineage.deadLetters own working.found pending rfl rfl)
            deadLetters := lineage.deadLetters.append (fun other => absurd other elsewhere)
            deadLettered := lineage.deadLettered.append (fun other => absurd other elsewhere)
            republished :=
              republished.append (fun _ _ =>
                ⟨partition, current.offset, current.record, own, working.found, rfl, rfl, done⟩)
            origin := origin_append lineage.origin (fun other => absurd other elsewhere)
          }

/-- Every undisturbed step preserves the lineage. -/
theorem Lineage.step (lineage : loop.Lineage cluster) (taken : loop.CleanStep cluster label next)
    : loop.Lineage next := by
  obtain ⟨step, undisturbed⟩ := taken
  cases step with
  | consumer taken => exact lineage.consumer_step undisturbed taken
  | replayer taken => exact lineage.replayer_step undisturbed taken
  | produced partition record fresh => exact lineage.produced undisturbed record fresh

/-- Every run without a restart preserves it. -/
theorem lineage_of_run {labels : List ClusterLabel}
    (run : Execution loop.CleanStep (.start (fun _ => [])) labels cluster)
    : loop.Lineage cluster :=
  @Execution.invariant _ _ _ _ _ _ (fun _ => loop.Lineage) (lineage_start loop)
    (fun _ _ _ _ lineage taken => lineage.step taken) run

/-- A copy that was republished stems from the copy before it, which was dead-lettered. -/
theorem Lineage.predecessor (lineage : loop.Lineage cluster) {partition : TopicPartition}
    {entry : LogEntry} (own : partition.topic = loop.topic)
    (member : entry ∈ cluster.logs partition) (republished : 0 < entry.copies)
    : ∃ place offset before,
        place.topic = loop.topic
        ∧ (cluster.logs place)[offset]? = some before
        ∧ before.message = entry.message
        ∧ before.copies + 1 = entry.copies
        ∧ cluster.consumer.Past Undead place offset := by
  obtain ⟨place, _, dead, ownDead, foundDead, sameDead, count, _⟩ :=
    lineage.republished partition entry own member republished
  obtain ⟨origin, offset, before, ownBefore, found, same, count', past⟩ :=
    lineage.deadLettered place dead ownDead (List.mem_of_getElem? foundDead) (Nat.zero_le _)
  exact ⟨origin, offset, before, ownBefore, found, same.trans sameDead, by omega, past⟩

/-- The later copies of a message stem from its earlier ones, all of which were dead-lettered,
by induction on the copies between the two.
-/
theorem Lineage.descends (lineage : loop.Lineage cluster) {first second : TopicPartition}
    {i : Nat} {one other : LogEntry} (own : first.topic = loop.topic)
    (own' : second.topic = loop.topic) (found : (cluster.logs first)[i]? = some one)
    (member : other ∈ cluster.logs second) (same : one.message = other.message)
    (earlier : one.copies < other.copies)
    : cluster.consumer.Past Undead first i := by
  obtain ⟨between, count⟩ := Nat.exists_eq_add_of_lt earlier
  induction between generalizing second other with
  | zero =>
      obtain ⟨place, offset, before, ownBefore, found', sameBefore, count', past⟩ :=
        lineage.predecessor own' member (by omega)
      obtain ⟨rfl, rfl⟩ :=
        lineage.copies place first offset i before one ownBefore own found' found
          (sameBefore.trans same.symm) (by omega)
      exact past
  | succ between ih =>
      obtain ⟨place, offset, before, ownBefore, found', sameBefore, count', _⟩ :=
        lineage.predecessor own' member (by omega)
      exact ih ownBefore (List.mem_of_getElem? found') (same.trans sameBefore.symm) (by omega)
        (by omega)

-----------------------------------------------------------------------------------------
-- What all deliveries of a message do
-----------------------------------------------------------------------------------------

/-- The deliveries of a message are deliveries of its copies in the topic. -/
theorem Lineage.delivery_of_mem (lineage : loop.Lineage cluster) {partitions : List TopicPartition}
    {message : Nat} {delivery : Delivery ConsumerEffects Thrown TopicPartition LogEntry}
    (genuine
      : cluster.consumer.Genuine (consumerSpec loop.consumer loop.adapter.producer) cluster.logs)
    (member : delivery ∈ cluster.deliveriesOf partitions message)
    : cluster.consumer.Delivered delivery
      ∧ delivery.record.message = message
      ∧ delivery.partition.topic = loop.topic
      ∧ (cluster.logs delivery.partition)[delivery.offset]? = some delivery.record
      ∧ Run
          (loop.consumer.eachMessage
            (delivery.record.payload delivery.partition delivery.offset))
          delivery.history delivery.rest := by
  obtain ⟨among, same⟩ := List.mem_filter.mp member
  have delivered := lineage.consumer.delivered among
  obtain ⟨subscribed, found, run⟩ := genuine delivery delivered
  exact ⟨delivered, of_decide_eq_true same, loop.topic_of_subscribed subscribed, found, run⟩

/-- The deliveries of a message are of different copies. -/
theorem Lineage.nodup_copies (lineage : loop.Lineage cluster) {partitions : List TopicPartition}
    (distinct : partitions.Nodup) (message : Nat)
    (genuine
      : cluster.consumer.Genuine (consumerSpec loop.consumer loop.adapter.producer) cluster.logs)
    : ((cluster.deliveriesOf partitions message).map
        (fun delivery => delivery.record.copies)).Nodup := by
  have places : ((cluster.deliveriesOf partitions message).map Delivery.place).Nodup :=
    (lineage.consumed.nodup lineage.consumer distinct).sublist (List.filter_sublist.map _)
  apply List.Nodup.map_on _ places.of_map
  intro first among second among' same
  obtain ⟨delivered, message, own, found, _⟩ := lineage.delivery_of_mem genuine among
  obtain ⟨delivered', message', own', found', _⟩ := lineage.delivery_of_mem genuine among'
  obtain ⟨samePartition, sameOffset⟩ :=
    lineage.copies _ _ _ _ _ _ own own' found found' (message.trans message'.symm) same
  exact lineage.consumed.unique lineage.consumer delivered delivered'
    (Prod.ext samePartition sameOffset)

/-- Where a copy of a message has been handled, there is no later one. -/
theorem Lineage.unsuccessful (lineage : loop.Lineage cluster) {partitions : List TopicPartition}
    {message : Nat} {first second : Delivery ConsumerEffects Thrown TopicPartition LogEntry}
    (genuine
      : cluster.consumer.Genuine (consumerSpec loop.consumer loop.adapter.producer) cluster.logs)
    (among : first ∈ cluster.deliveriesOf partitions message)
    (among' : second ∈ cluster.deliveriesOf partitions message)
    (earlier : first.record.copies < second.record.copies)
    : successes first.history = 0 := by
  obtain ⟨delivered, message, own, found, run⟩ := lineage.delivery_of_mem genuine among
  obtain ⟨_, message', own', found', _⟩ := lineage.delivery_of_mem genuine among'
  obtain ⟨other, delivered', samePartition, sameOffset, event, member, loud⟩ :=
    lineage.descends own own' found (List.mem_of_getElem? found') (message.trans message'.symm)
      earlier
  obtain rfl :=
    lineage.consumed.unique lineage.consumer delivered' delivered
      (Prod.ext samePartition sameOffset)
  by_contra some
  obtain ⟨op, reply⟩ := event
  cases op with
  | deadLetter input =>
      exact (ResilientEventConsumer.successes_of_run run).2 (Nat.pos_of_ne_zero some) _ member
        input rfl
  | commitOffsets | handle | onRetry | sleep | randomHex | log => exact loud trivial

/-- Over all deliveries of a message a handler resolves at most once: its copies are different,
and where one was handled there is no later one.
-/
theorem Lineage.successes_le_one (lineage : loop.Lineage cluster) {partitions : List TopicPartition}
    (distinct : partitions.Nodup) (message : Nat)
    (genuine
      : cluster.consumer.Genuine (consumerSpec loop.consumer loop.adapter.producer) cluster.logs)
    : ((cluster.deliveriesOf partitions message).map
        (fun delivery => successes delivery.history)).sum ≤ 1 := by
  have copies := lineage.nodup_copies distinct message genuine
  apply sum_le_one
  · apply List.Pairwise.imp_of_mem _ (List.pairwise_map.mp copies)
    intro first second among among' different
    rcases Nat.lt_or_gt_of_ne different with earlier | later
    · exact Or.inl (lineage.unsuccessful genuine among among' earlier)
    · exact Or.inr (lineage.unsuccessful genuine among' among later)
  · intro delivery member
    obtain ⟨_, _, _, _, run⟩ := lineage.delivery_of_mem genuine member
    exact (ResilientEventConsumer.successes_of_run run).1

end ReplayLoop

/-- In every run of the loop without a restart, over all deliveries of all copies of a message, a
handler resolves at most once.
-/
theorem handled_once {loop : ReplayLoop} {labels : List ClusterLabel} {cluster : Cluster}
    (run : Execution loop.CleanStep (.start (fun _ => [])) labels cluster)
    {partitions : List TopicPartition} (distinct : partitions.Nodup) (message : Nat)
    : ((cluster.deliveriesOf partitions message).map
        (fun delivery => successes delivery.history)).sum ≤ 1 := by
  have lineage := ReplayLoop.lineage_of_run run
  have genuine := consumer_genuine (run.mono (fun _ _ _ taken => taken.1))
  exact lineage.successes_le_one distinct message genuine

/-- In every run without a restart in which the dead letters keep the replay count, over all
deliveries of all copies of a message, handlers are called at most as often as the retries
allow for the message and for each of its replays.
-/
theorem handler_calls_bounded {loop : ReplayLoop} {labels : List ClusterLabel} {cluster : Cluster}
    (run : Execution loop.KeptStep (.start (fun _ => [])) labels cluster)
    {partitions : List TopicPartition} (distinct : partitions.Nodup) (message : Nat)
    : ((cluster.deliveriesOf partitions message).map
        (fun delivery => handlings delivery.history)).sum
      ≤ (loop.maxReplays + 1) * iterations loop.consumer.maxRetries := by
  have journey : loop.Journey cluster :=
    @Execution.invariant _ _ _ _ _ _ (fun _ => loop.Journey) (ReplayLoop.journey_start loop)
      (fun _ _ _ _ journey taken => journey.step taken) run
  have clean : Execution loop.CleanStep (.start (fun _ => [])) labels cluster :=
    run.mono (fun _ _ _ taken => taken.1)
  have lineage := ReplayLoop.lineage_of_run clean
  have genuine := consumer_genuine (clean.mono (fun _ _ _ taken => taken.1))
  have copies := lineage.nodup_copies distinct message genuine
  have allowed
      : (cluster.deliveriesOf partitions message).map (fun delivery => delivery.record.copies)
        ⊆ List.range (loop.maxReplays + 1) := by
    intro count member
    obtain ⟨delivery, among, rfl⟩ := List.mem_map.mp member
    obtain ⟨_, _, own, found, _⟩ := lineage.delivery_of_mem genuine among
    have within := journey.bounded delivery.partition _ own (List.mem_of_getElem? found)
    exact List.mem_range.mpr (Nat.lt_succ_of_le within)
  have few := (List.subperm_of_subset copies allowed).length_le
  rw [List.length_map, List.length_range] at few
  have each : ∀ calls ∈ (cluster.deliveriesOf partitions message).map
        (fun delivery => handlings delivery.history),
      calls ≤ iterations loop.consumer.maxRetries := by
    intro calls member
    obtain ⟨delivery, among, rfl⟩ := List.mem_map.mp member
    obtain ⟨_, _, _, _, run⟩ := lineage.delivery_of_mem genuine among
    exact ResilientEventConsumer.handlings_le run
  have total := List.sum_le_card_nsmul _ _ each
  rw [List.length_map] at total
  exact total.trans (Nat.mul_le_mul_right _ few)

-----------------------------------------------------------------------------------------
-- The delivery of a note
-----------------------------------------------------------------------------------------

/-- The note in its topic. -/
def noteEntry : LogEntry where
  record := { key := none, value := some noteEnvelope.wireValue, headers := [] }
  message := 0
  copies := 0

/-- What was written for a row of a note is given to its handler and settled, where every call
resolves.
-/
theorem handles_sent {row : Outbox.ClaimedOutboxEvent} {envelope : CloudEvent}
    {payload : EachMessagePayload}
    (mapped : Outbox.toCloudEvent Outbox.sampleOptions row = .ok envelope)
    (identified : row.id ≠ "") (typed : row.eventType = "note") (doubles : row.payload.Doubles)
    (written : payload.message.value = some envelope.wireValue)
    : ∃ history event context,
        Finishes (noteReader.eachMessage payload) history (.ok ())
        ∧ ⟨.handle "note" event context, .ok ()⟩ ∈ history
        ∧ Delivers row event
        ∧ ∀ event ∈ history, ∀ input, event.op ≠ .deadLetter input := by
  have run := execute_finishes (F := ConsumerEffects) resolveAll () (noteReader.eachMessage payload)
  have answers :=
    execute_answers (F := ConsumerEffects) resolveAll () (noteReader.eachMessage payload)
  generalize execute (F := ConsumerEffects) resolveAll () (noteReader.eachMessage payload)
    = executed at run answers
  have typed' : row.eventType ≠ "" := by
    rw [typed]
    decide
  have attempted : 0 < iterations noteReader.maxRetries :=
    (lt_iterations_iff noteReader.maxRetries_bounded 0).mpr rfl
  have agreement :=
    (ResilientEventConsumer.wireAgreement_written mapped identified typed' doubles written run).mpr
      (Or.inr attempted.ne')
  obtain ⟨eventType, event, context, reply, member⟩ :=
    agreement.called.mpr (typed ▸ List.mem_singleton_self _)
  obtain ⟨named, delivers, _⟩ := agreement.handled eventType event context reply member
  obtain ⟨_, accepted⟩ := answers _ member
  obtain rfl : reply = .ok () := accepted
  rw [named, typed] at member
  have resolving : ∀ event ∈ executed.1, ResilientEventConsumer.Resolving event := by
    rintro ⟨op, reply⟩ happened
    obtain ⟨_, same⟩ := answers _ happened
    dsimp only at same
    subst same
    cases op with
    | commitOffsets | deadLetter => rfl
    | handle | onRetry | sleep | randomHex | log => trivial
  have read
      : noteReader.readEnvelope (ResilientEventConsumer.rawText payload) = .ok envelope.toJson :=
    ResilientEventConsumer.readEnvelope_wireValue mapped identified typed' doubles written
  have readable : noteReader.TraceReadable payload := by
    intro other read'
    obtain rfl := Except.ok.inj (read.symm.trans read')
    obtain ⟨inbound, parsed, _⟩ :=
      Tracing.parseInboundTraceparent_header (isHeader_traceparent row)
    rw [← (delivers_toJson mapped).2] at parsed
    exact ⟨inbound, parsed⟩
  obtain ⟨resolved, _⟩ := (ResilientEventConsumer.finishes_eachMessage_iff resolving run).mpr
    ⟨readable, by simp [ResilientEventConsumer.RejectionPrintable, unrecovered_resolveAll answers]⟩
  rw [resolved] at run
  exact ⟨executed.1, event, context, run, member, delivers,
    (ResilientEventConsumer.successes_of_run run).2 (List.countP_pos_iff.mpr ⟨_, member, rfl⟩)⟩

/-- A system that lets a consumer of notes run gives the next message, which was written for a
row of a note, to its handler.
-/
theorem reads_sent {σ ι : Type} {step : σ → ι → σ → Prop}
    {embed : KafkaLogs → Group ConsumerEffects Thrown TopicPartition LogEntry → σ}
    {wrap : GroupLabel ConsumerEffects TopicPartition → ι}
    (lift
      : ∀ logs group label later next,
          label.Steady
          → GroupStep (consumerSpec noteReader plainAdapter.producer) logs group label later next
          → step (embed logs group) (wrap label) (embed later next))
    {row : Outbox.ClaimedOutboxEvent} {envelope : CloudEvent}
    (mapped : Outbox.toCloudEvent Outbox.sampleOptions row = .ok envelope)
    (identified : row.id ≠ "") (typed : row.eventType = "note") (doubles : row.payload.Doubles)
    {logs : KafkaLogs} {group : Group ConsumerEffects Thrown TopicPartition LogEntry}
    {index : Nat} (idle : group.running ⟨"knowledge-events", index⟩ = none) {entry : LogEntry}
    (found
      : (logs ⟨"knowledge-events", index⟩)[group.position ⟨"knowledge-events", index⟩]?
        = some entry)
    (written : entry.record.value = some envelope.wireValue)
    : ∃ (labels : List (GroupLabel ConsumerEffects TopicPartition)) (next : _) (delivery : _)
        (event : _) (context : _),
        Execution step (embed logs group) (labels.map wrap) (embed logs next)
        ∧ next.running ⟨"knowledge-events", index⟩ = some delivery
        ∧ delivery.partition = ⟨"knowledge-events", index⟩
        ∧ delivery.offset = group.position ⟨"knowledge-events", index⟩
        ∧ delivery.record = entry
        ∧ ⟨.handle "note" event context, .ok ()⟩ ∈ delivery.history
        ∧ Delivers row event := by
  generalize same : (⟨"knowledge-events", index⟩ : TopicPartition) = partition at idle found ⊢
  have subscribed : (consumerSpec noteReader plainAdapter.producer).subscribed partition :=
    same ▸ List.mem_singleton_self _
  obtain ⟨history, event, context, run, member, delivers, alive⟩ :=
    @handles_sent row envelope (entry.payload partition (group.position partition)) mapped
      identified typed doubles written
  have served
      : Served (consumerSpec noteReader plainAdapter.producer) partition
          (group.position partition) entry logs history logs :=
    Served.unchanged logs
      (fun event member _ => .none logs (fun input same => alive event member input (by rw [same])))
  have begun := lift _ _ (.deliver partition) _ _ trivial
    (GroupStep.deliver subscribed idle found)
  have going := Execution.cons begun
    (@Served.execution _ _ _ _ _ _ _ _ _ _ _ lift partition (group.position partition) entry []
      history _ _ logs logs _ served run (Function.update_self ..))
  have labelled
      : wrap (.deliver partition) :: history.map (fun event => wrap (.answer partition event))
        = ((.deliver partition :: history.map (.answer partition)).map wrap) := by
    simp
  rw [labelled] at going
  exact ⟨_, _, _, event, context, going, Function.update_self .., rfl, rfl, rfl,
    by simpa using member, delivers⟩

/-- A system that lets a consumer of notes run, and whose topic holds the note, gives it to
its handler.
-/
theorem reads_note {σ ι : Type} {step : σ → ι → σ → Prop}
    {embed : KafkaLogs → Group ConsumerEffects Thrown TopicPartition LogEntry → σ}
    {wrap : GroupLabel ConsumerEffects TopicPartition → ι}
    (lift
      : ∀ logs group label later next,
          label.Steady
          → GroupStep (consumerSpec noteReader plainAdapter.producer) logs group label later next
          → step (embed logs group) (wrap label) (embed later next))
    {logs : KafkaLogs} (sole : (logs ⟨"knowledge-events", 0⟩)[0]? = some noteEntry)
    : ∃ (labels : List (GroupLabel ConsumerEffects TopicPartition)) (group : _) (delivery : _)
        (event : _) (context : _),
        Execution step (embed logs .start) (labels.map wrap) (embed logs group)
        ∧ group.running ⟨"knowledge-events", 0⟩ = some delivery
        ∧ delivery.partition = ⟨"knowledge-events", 0⟩
        ∧ delivery.record = noteEntry
        ∧ ⟨.handle "note" event context, .ok ()⟩ ∈ delivery.history := by
  obtain ⟨labels, group, delivery, event, context, going, running, own, _, record, member, _⟩ :=
    @reads_sent _ _ _ _ _ lift _ _ toCloudEvent_noteRow (by decide) rfl doubles_noteRow logs .start
      0 rfl noteEntry sole rfl
  exact ⟨labels, group, delivery, event, context, going, running, own, record, member⟩

/-- A loop of notes, with one replay for each. -/
def noteLoop : ReplayLoop :=
  { knowledgeLoop with consumer := noteReader, subscribes := rfl }

/-- The note, produced from outside and handled without a restart. -/
theorem noteLoop_handles
    : ∃ labels cluster delivery,
        Execution noteLoop.CleanStep (.start (fun _ => [])) labels cluster
        ∧ (∀ partition, partition.topic = deadLetterTopic noteLoop.topic
            → cluster.logs partition = [])
        ∧ delivery ∈ cluster.deliveriesOf [⟨"knowledge-events", 0⟩] 0
        ∧ 0 < successes delivery.history := by
  have produced
      : noteLoop.CleanStep (.start (fun _ => []))
          (.produced ⟨"knowledge-events", 0⟩ noteEntry.record)
          (.start (append (fun _ => []) ⟨"knowledge-events", 0⟩ noteEntry)) :=
    ⟨@ClusterStep.produced _ _ _ _ ⟨"knowledge-events", 0⟩ _ 0 (by simp [Cluster.start]),
      ReplayLoop.topic_ne_deadLetterTopic _⟩
  have lift : ∀ logs group label later next,
      label.Steady
      → GroupStep (consumerSpec noteReader plainAdapter.producer) logs group label later next
      → noteLoop.CleanStep ⟨logs, group, .start⟩ (.consumer label) ⟨later, next, .start⟩ :=
    fun _ _ _ _ _ steady taken => ⟨.consumer taken, steady⟩
  obtain ⟨labels, group, delivery, event, context, going, running, own, record, member⟩ :=
    @reads_note _ _ _ _ _ lift (append (fun _ => []) ⟨"knowledge-events", 0⟩ noteEntry) (by simp)
  refine ⟨_, _, delivery, .cons produced going, ?_, ?_, ?_⟩
  · intro partition dead
    apply append_of_ne
    rintro rfl
    exact ReplayLoop.topic_ne_deadLetterTopic _ dead
  · simp [Cluster.deliveriesOf, Group.deliveries, running, record, noteEntry]
  · exact List.countP_pos_iff.mpr ⟨_, member, rfl⟩

/-- The note is handled once. -/
theorem handled_once_note
    : ∃ labels cluster,
        Execution noteLoop.CleanStep (.start (fun _ => [])) labels cluster
        ∧ (∃ delivery ∈ cluster.deliveriesOf [⟨"knowledge-events", 0⟩] 0,
            0 < successes delivery.history)
        ∧ ((cluster.deliveriesOf [⟨"knowledge-events", 0⟩] 0).map
            (fun delivery => successes delivery.history)).sum ≤ 1 := by
  obtain ⟨labels, cluster, delivery, run, _, member, handled⟩ := noteLoop_handles
  exact ⟨labels, cluster, run, ⟨delivery, member, handled⟩,
    handled_once run (List.nodup_singleton _) 0⟩

/-- And its handler is called within the bound, without any dead letter. -/
theorem handler_calls_bounded_note
    : ∃ labels cluster,
        Execution noteLoop.KeptStep (.start (fun _ => [])) labels cluster
        ∧ (∃ delivery ∈ cluster.deliveriesOf [⟨"knowledge-events", 0⟩] 0,
            0 < successes delivery.history)
        ∧ ((cluster.deliveriesOf [⟨"knowledge-events", 0⟩] 0).map
            (fun delivery => handlings delivery.history)).sum
          ≤ (noteLoop.maxReplays + 1) * iterations noteLoop.consumer.maxRetries := by
  obtain ⟨labels, cluster, delivery, run, empty, member, handled⟩ := noteLoop_handles
  have kept : noteLoop.CountKept cluster := by
    intro partition entry own among
    rw [empty partition own] at among
    cases among
  have whole := ReplayLoop.kept_of_last run kept
  exact ⟨labels, cluster, whole, ⟨delivery, member, handled⟩,
    handler_calls_bounded whole (List.nodup_singleton _) 0⟩

end SharedKernel.Messaging
