import SharedKernel.Outbox.Books
import SharedKernel.Outbox.PollMachine

/-! The balance of the outbox: the table, the calls answered and the polls under way agree,
and every answered call keeps it so.
-/

namespace SharedKernel.Outbox

open Foundation Js Messaging

-----------------------------------------------------------------------------------------
-- The reports of a poll
-----------------------------------------------------------------------------------------

/-- The reports of one poll to the metrics hook, each with the row marked failed last. -/
def reports : Option String → List OutboxEvent → List (Option String × String)
  | _, [] => []
  | _, ⟨.markFailed id _ _ _, _⟩ :: rest => reports (some id) rest
  | last, ⟨.onDeadLetter eventType, _⟩ :: rest => (last, eventType) :: reports last rest
  | last, _ :: rest => reports last rest

/-- A row as a report names it. -/
def ClaimedOutboxEvent.reportKey (row : ClaimedOutboxEvent) : Option String × String :=
  (some row.id, row.eventType)

variable {store later : OutboxStore} {row : ClaimedOutboxEvent}
  {rest batch : List ClaimedOutboxEvent} {maxAttempts : Int} {events : List OutboxEvent}

-----------------------------------------------------------------------------------------
-- The polls of a run
-----------------------------------------------------------------------------------------

/-- The row marked failed last. -/
def lastMarked : Option String → List OutboxEvent → Option String
  | last, [] => last
  | _, ⟨.markFailed id _ _ _, _⟩ :: rest => lastMarked (some id) rest
  | last, _ :: rest => lastMarked last rest

/-- One more call after a history is reported with the row marked last in it. -/
theorem reports_append (last : Option String) (head tail : List OutboxEvent)
    : reports last (head ++ tail) = reports last head ++ reports (lastMarked last head) tail := by
  induction head generalizing last with
  | nil => rfl
  | cons event rest ih =>
      obtain ⟨op, reply⟩ := event
      cases op <;> simp [reports, lastMarked, ih]

theorem lastMarked_append (last : Option String) (head tail : List OutboxEvent)
    : lastMarked last (head ++ tail) = lastMarked (lastMarked last head) tail := by
  induction head generalizing last with
  | nil => rfl
  | cons event rest ih =>
      obtain ⟨op, reply⟩ := event
      cases op <;> simp [lastMarked, ih]

abbrev OutboxThread := Thread OutboxEffects Thrown OutboxPollResult OutboxPublisherOptions

/-- The publishers share one retry budget, and report its exhaustion. -/
def Sharing (maxAttempts : Int) (opts : OutboxPublisherOptions) : Prop :=
  opts.maxAttempts = maxAttempts ∧ opts.onDeadLetter = true

/-- A thread is where its poll stands. -/
structure Tracked (maxAttempts : Int) (thread : OutboxThread) (poll : Poll) : Prop where
  sharing : Sharing maxAttempts thread.call
  rest : thread.rest = poll.program thread.call
  clear : poll.Clear
  marked : ∀ row, poll.reporting? = some row → lastMarked none thread.history = some row.id

/-- The reports of all polls. -/
def reported (threads : List OutboxThread) : List (Option String × String) :=
  threads.flatMap (fun thread => reports none thread.history)

/-- The store, the calls answered so far and the polls agree. -/
structure Balanced (maxAttempts : Int) (events : List OutboxEvent)
    (reported : List (Option String × String)) (store : OutboxStore) (polls : List Poll)
    : Prop where
  owned : Owned store (polls.flatMap Poll.held)
  books
    : Books maxAttempts events store (polls.filterMap Poll.failing?)
        (polls.filterMap Poll.marking?)
  reportsAgree
    : (reported ++ (polls.filterMap Poll.reporting?).map ClaimedOutboxEvent.reportKey).Perm
        ((store.withStatus .failedDlq).map ClaimedOutboxEvent.reportKey)
  deadLettered : (polls.map Poll.deadLettered).sum = (store.withStatus .failedDlq).length
  notAgain : Throughout NotAgain events

section Balanced

variable {opts : OutboxPublisherOptions} {poll next : Poll} {early late : List Poll}
  {event : OutboxEvent} {reported : List (Option String × String)} {last : Option String}

theorem filterMap_around {α β : Type} (pick : α → Option β) (early : List α) (one : α)
    (late : List α)
    : (early ++ one :: late).filterMap pick
      = early.filterMap pick ++ ((pick one).toList ++ late.filterMap pick) := by
  cases picked : pick one <;> simp [picked]

theorem flatMap_around {α β : Type} (pick : α → List β) (early : List α) (one : α)
    (late : List α)
    : (early ++ one :: late).flatMap pick
      = early.flatMap pick ++ (pick one ++ late.flatMap pick) := by
  simp

/-- A claim moves pending rows to the poll. -/
theorem Balanced.claimed
    (balanced : Balanced maxAttempts events reported store (early ++ .claiming :: late))
    {limit : Int} (pending : ∀ row ∈ batch, ⟨row, .pending⟩ ∈ store.rows)
    (distinct : (batch.map (·.id)).Nodup)
    : Balanced maxAttempts (events ++ [⟨.claimPendingBatch limit, .ok batch⟩]) reported
        (store.update (batch.map (·.id)) id .inflight)
        (early ++ Poll.next batch (.start batch.length) :: late) := by
  obtain ⟨owned, books, reports, deadLettered, notAgain⟩ := balanced
  have dead : (store.update (batch.map (·.id)) id .inflight).withStatus .failedDlq
      = store.withStatus .failedDlq := by
    refine OutboxStore.withStatus_update_of_ne (by simp) (fun stored member named => ?_)
    obtain ⟨row, claimed, same⟩ := List.mem_map.mp named
    obtain rfl := store.eq_of_id (pending row claimed) member same
    simp
  constructor
  · rw [flatMap_around] at owned ⊢
    rw [Poll.held_next]
    exact Owned.claim owned pending distinct
  · have silent :=
      (books.claim pending).silent ⟨.claimPendingBatch limit, .ok batch⟩ rfl rfl
    rw [filterMap_around, filterMap_around] at silent ⊢
    rw [Poll.failing?_next, Poll.marking?_next]
    exact silent
  · rw [dead, filterMap_around, Poll.reporting?_next]
    rw [filterMap_around] at reports
    exact reports
  · rw [dead, List.map_append, List.map_cons, Poll.deadLettered_next]
    rw [List.map_append, List.map_cons] at deadLettered
    exact deadLettered
  · exact (throughout_snoc ..).mpr ⟨notAgain, trivial⟩

/-- A step that changes neither the store nor what the poll holds or is about to do. -/
theorem Balanced.silent
    (balanced : Balanced maxAttempts events reported store (early ++ poll :: late))
    (unpublished : handovers [event] = [])
    (unfailed : SharedKernel.Outbox.exhausted [event] = [])
    (held : next.held = poll.held) (failing : next.failing? = poll.failing?)
    (marking : next.marking? = poll.marking?) (reporting : next.reporting? = poll.reporting?)
    (deadLettered : next.deadLettered = poll.deadLettered)
    : Balanced maxAttempts (events ++ [event]) reported store (early ++ next :: late) := by
  obtain ⟨owned, books, reports, dead, notAgain⟩ := balanced
  constructor
  · rw [flatMap_around] at owned ⊢
    rwa [held]
  · have silent := books.silent event unpublished unfailed
    rw [filterMap_around, filterMap_around] at silent ⊢
    rwa [failing, marking]
  · rw [filterMap_around] at reports ⊢
    rwa [reporting]
  · rw [List.map_append, List.map_cons] at dead ⊢
    rwa [deadLettered]
  · refine (throughout_snoc ..).mpr ⟨notAgain, ?_⟩
    obtain ⟨op, reply⟩ := event
    cases op with
    | publish => cases unpublished
    | _ => trivial

theorem held_of_marking? {id : String} (marking : poll.marking? = some id)
    : ∃ row ∈ poll.held, row.id = id := by
  cases poll with
  | working phase row rest result =>
      cases phase with
      | marking =>
          cases marking
          exact ⟨row, List.mem_cons_self .., rfl⟩
      | _ => cases marking
  | _ => cases marking

theorem held_of_failing? {id : String} (failing : poll.failing? = some id)
    : ∃ row ∈ poll.held, row.id = id := by
  cases poll with
  | working phase row rest result =>
      cases phase with
      | failing err =>
          cases failing
          exact ⟨row, List.mem_cons_self .., rfl⟩
      | _ => cases failing
  | _ => cases failing

/-- A poll publishes a row that has been neither delivered nor marked failed for good: it is
in flight, and no other poll holds it.
-/
theorem Balanced.fresh {result : OutboxPollResult}
    (balanced
      : Balanced maxAttempts events reported store
          (early ++ .working .publishing row rest result :: late))
    : row.id ∉ deliveries events ∧ row.id ∉ SharedKernel.Outbox.exhausted events := by
  obtain ⟨owned, books, _, _, _⟩ := balanced
  rw [flatMap_around] at owned
  have inflight := Owned.stored owned
  constructor
  · intro delivered
    rcases books.delivered row.id delivered with marking | ⟨stored, member, same, processed⟩
    · rw [filterMap_around, List.mem_append] at marking
      have distinct := owned.distinct
      rw [List.map_append, List.map_append, List.nodup_append, List.nodup_append] at distinct
      obtain ⟨_, ⟨_, _, apartLate⟩, apartEarly⟩ := distinct
      have held_of_mem : ∀ polls : List Poll, row.id ∈ polls.filterMap Poll.marking?
          → row.id ∈ (polls.flatMap Poll.held).map (·.id) := by
        intro polls member
        obtain ⟨other, among, marked⟩ := List.mem_filterMap.mp member
        obtain ⟨held, member, same⟩ := held_of_marking? marked
        exact List.mem_map.mpr ⟨held, List.mem_flatMap.mpr ⟨other, among, member⟩, same⟩
      have here : row.id ∈ (row :: rest).map (·.id) := List.mem_map_of_mem (List.mem_cons_self ..)
      rcases marking with before | after
      · exact apartEarly _ (held_of_mem early before) _ (List.mem_append_left _ here) rfl
      · exact apartLate _ here _ (held_of_mem late after) rfl
    · exact ne_of_inflight inflight member (by simp [processed]) same
  · intro dead
    obtain ⟨stored, member, same, failed⟩ := books.exhausted row.id dead
    exact ne_of_inflight inflight member (by simp [failed]) same

/-- A publish that the publisher answers, whatever it answers. -/
theorem Balanced.published {result : OutboxPollResult} {envelope : CloudEvent}
    (balanced
      : Balanced maxAttempts events reported store
          (early ++ .working .publishing row rest result :: late))
    (mapped : toCloudEvent opts row = .ok envelope)
    : Balanced maxAttempts (events ++ [⟨.publish envelope, .ok ()⟩]) reported store
          (early ++ .working .marking row rest result :: late)
      ∧ ∀ err,
          Balanced maxAttempts (events ++ [⟨.publish envelope, .error err⟩]) reported store
            (early ++ .working (.failing err) row rest result :: late) := by
  obtain ⟨same, -, -⟩ := toCloudEvent_fields mapped
  have fresh := balanced.fresh
  rw [← same] at fresh
  obtain ⟨owned, books, reports, dead, notAgain⟩ := balanced
  rw [flatMap_around] at owned
  rw [filterMap_around, filterMap_around] at books
  rw [filterMap_around] at reports
  rw [List.map_append, List.map_cons] at dead
  constructor
  · constructor
    · rw [flatMap_around]
      exact owned
    · rw [filterMap_around, filterMap_around]
      refine books.published (fun id => ?_)
      simp only [Poll.marking?, Option.toList_some, Option.toList_none, List.mem_append,
        List.mem_singleton, List.not_mem_nil, false_or, same]
      tauto
    · rw [filterMap_around]
      exact reports
    · rw [List.map_append, List.map_cons]
      exact dead
    · exact (throughout_snoc ..).mpr ⟨notAgain, fresh⟩
  · intro err
    constructor
    · rw [flatMap_around]
      exact owned
    · rw [filterMap_around, filterMap_around]
      have known : envelope.id ∈ store.rows.map (·.row.id) := by
        rw [same]
        exact List.mem_map_of_mem (Owned.stored owned)
      apply books.rejected known
      rw [same]
      exact List.perm_middle
    · rw [filterMap_around]
      exact reports
    · rw [List.map_append, List.map_cons]
      exact dead
    · exact (throughout_snoc ..).mpr ⟨notAgain, fresh⟩

/-- A row in flight is not failed for good, so marking it otherwise keeps those that are. -/
theorem withStatus_failedDlq_update (inflight : ⟨row, .inflight⟩ ∈ store.rows)
    {attempts : Int → Int} {status : RowStatus} (living : status ≠ .failedDlq)
    : (store.update [row.id] attempts status).withStatus .failedDlq
      = store.withStatus .failedDlq := by
  refine OutboxStore.withStatus_update_of_ne living (fun stored member named => ?_)
  obtain rfl := store.eq_of_id member inflight (List.mem_singleton.mp named)
  simp

/-- A delivered row is marked processed. -/
theorem Balanced.marked {result : OutboxPollResult}
    (balanced
      : Balanced maxAttempts events reported store
          (early ++ .working .marking row rest result :: late))
    : Balanced maxAttempts (events ++ [⟨.markProcessed row.id, .ok ()⟩]) reported
        (store.update [row.id] (fun attempts => attempts) .processed)
        (early ++ Poll.next rest result.withPublished :: late) := by
  obtain ⟨owned, books, reports, dead, notAgain⟩ := balanced
  rw [flatMap_around] at owned
  have inflight := Owned.stored owned
  have kept :=
    @withStatus_failedDlq_update store row inflight (fun attempts => attempts) .processed
      (by simp)
  rw [filterMap_around, filterMap_around] at books
  rw [filterMap_around] at reports
  rw [List.map_append, List.map_cons] at dead
  constructor
  · rw [flatMap_around, Poll.held_next]
    exact Owned.mark owned (by simp)
  · rw [filterMap_around, filterMap_around, Poll.failing?_next, Poll.marking?_next]
    refine books.marked inflight (fun id member => ?_)
    simp only [Poll.marking?, Option.toList_some, Option.toList_none, List.mem_append,
      List.mem_singleton, List.not_mem_nil, false_or] at member ⊢
    tauto
  · rw [kept, filterMap_around, Poll.reporting?_next]
    exact reports
  · rw [kept, List.map_append, List.map_cons, Poll.deadLettered_next]
    exact dead
  · exact (throughout_snoc ..).mpr ⟨notAgain, trivial⟩

/-- A rejected row is marked failed, and goes back to the pending rows while its budget
lasts.
-/
theorem Balanced.retried {result : OutboxPollResult} {err : Thrown} {error : String}
    (balanced
      : Balanced maxAttempts events reported store
          (early ++ .working (.failing err) row rest result :: late))
    (alive : row.attempts + 1 < maxAttempts)
    : Balanced maxAttempts
        (events ++ [⟨.markFailed row.id row.attempts error maxAttempts, .ok ()⟩]) reported
        (store.update [row.id] (fun _ => row.attempts + 1)
          (if maxAttempts ≤ row.attempts + 1 then .failedDlq else .pending))
        (early ++ .working (.logging err) row rest result.withFailure :: late) := by
  obtain ⟨owned, books, reports, dead, notAgain⟩ := balanced
  rw [flatMap_around] at owned
  have inflight := Owned.stored owned
  have pending
      : (if maxAttempts ≤ row.attempts + 1 then RowStatus.failedDlq else .pending) = .pending :=
    if_neg (by omega)
  have kept :=
    @withStatus_failedDlq_update store row inflight (fun _ => row.attempts + 1) .pending
      (by simp)
  rw [filterMap_around, filterMap_around] at books
  rw [filterMap_around] at reports
  rw [List.map_append, List.map_cons] at dead
  constructor
  · rw [flatMap_around, pending]
    exact Owned.mark owned (by simp)
  · rw [filterMap_around, filterMap_around]
    exact books.failed inflight List.perm_middle
  · rw [pending, kept, filterMap_around]
    exact reports
  · rw [pending, kept, List.map_append, List.map_cons]
    exact dead
  · exact (throughout_snoc ..).mpr ⟨notAgain, trivial⟩

/-- A rejected row whose budget is used up is marked failed for good, counted, and about to
be reported.
-/
theorem Balanced.died {result : OutboxPollResult} {err : Thrown} {error : String}
    (balanced
      : Balanced maxAttempts events reported store
          (early ++ .working (.failing err) row rest result :: late))
    (spent : maxAttempts ≤ row.attempts + 1)
    : Balanced maxAttempts
        (events ++ [⟨.markFailed row.id row.attempts error maxAttempts, .ok ()⟩]) reported
        (store.update [row.id] (fun _ => row.attempts + 1)
          (if maxAttempts ≤ row.attempts + 1 then .failedDlq else .pending))
        (early ++ .working (.reporting err) row rest result.withDeadLetter :: late) := by
  obtain ⟨owned, books, reports, dead, notAgain⟩ := balanced
  rw [flatMap_around] at owned
  have inflight := Owned.stored owned
  have joined :=
    @OutboxStore.withStatus_update_self store ⟨row, .inflight⟩ (fun _ => row.attempts + 1)
      .failedDlq inflight (by simp)
  rw [filterMap_around, filterMap_around] at books
  rw [filterMap_around] at reports
  rw [List.map_append, List.map_cons] at dead
  constructor
  · rw [flatMap_around, if_pos spent]
    exact Owned.mark owned (by simp)
  · rw [filterMap_around, filterMap_around]
    exact books.failed inflight List.perm_middle
  · rw [if_pos spent, filterMap_around]
    refine List.Perm.trans ?_ (joined.map ClaimedOutboxEvent.reportKey).symm
    have moved
        : (reported
            ++ ((early.filterMap Poll.reporting?)
              ++ (row :: late.filterMap Poll.reporting?)).map ClaimedOutboxEvent.reportKey).Perm
            (row.reportKey
              :: (reported
                ++ ((early.filterMap Poll.reporting?)
                  ++ late.filterMap Poll.reporting?).map ClaimedOutboxEvent.reportKey)) := by
      simp only [List.map_append, List.map_cons, ← List.append_assoc]
      exact List.perm_middle
    exact moved.trans (reports.cons row.reportKey)
  · rw [if_pos spent, joined.length_eq, List.length_cons, ← dead, List.map_append,
      List.map_cons, List.sum_append, List.sum_append, List.sum_cons, List.sum_cons]
    simp only [Poll.deadLettered, OutboxPollResult.withDeadLetter]
    omega
  · exact (throughout_snoc ..).mpr ⟨notAgain, trivial⟩

/-- A row marked failed for good is reported. -/
theorem Balanced.reportedOnce {result : OutboxPollResult} {err : Thrown}
    (balanced
      : Balanced maxAttempts events reported store
          (early ++ .working (.reporting err) row rest result :: late))
    : Balanced maxAttempts (events ++ [⟨.onDeadLetter row.eventType, .ok ()⟩])
        (reported ++ [row.reportKey]) store
        (early ++ .working (.logging err) row rest result :: late) := by
  obtain ⟨owned, books, reports, dead, notAgain⟩ := balanced
  rw [flatMap_around] at owned
  rw [filterMap_around] at reports
  rw [List.map_append, List.map_cons] at dead
  have silent := books.silent ⟨.onDeadLetter row.eventType, .ok ()⟩ rfl rfl
  rw [filterMap_around, filterMap_around] at silent
  constructor
  · rw [flatMap_around]
    exact owned
  · rw [filterMap_around, filterMap_around]
    exact silent
  · rw [filterMap_around]
    refine List.Perm.trans ?_ reports
    simp only [Poll.reporting?, Option.toList_some, Option.toList_none, List.map_append,
      List.map_cons, List.append_assoc, List.cons_append, List.nil_append]
    exact List.Perm.append_left reported List.perm_middle.symm
  · rw [List.map_append, List.map_cons]
    exact dead
  · exact (throughout_snoc ..).mpr ⟨notAgain, trivial⟩

/-- One answered call of one poll keeps the balance; witness: one case for each call that the
poll can await.
-/
theorem Balanced.answer
    (balanced : Balanced maxAttempts events reported store (early ++ poll :: late))
    (sharing : Sharing maxAttempts opts) (answer : Poll.Answer opts poll event next)
    (answers : store.Answers event later)
    (marked : ∀ row, poll.reporting? = some row → last = some row.id)
    : Balanced maxAttempts (events ++ [event]) (reported ++ reports last [event]) later
        (early ++ next :: late) := by
  obtain ⟨rfl, -⟩ := sharing
  cases answer with
  | claimed batch =>
      cases answers with
      | claimed pending distinct few =>
          simpa [reports] using balanced.claimed pending distinct
  | unclaimed err =>
      cases answers
      show Balanced opts.maxAttempts _ (reported ++ []) _ _
      rw [List.append_nil]
      exact balanced.silent rfl rfl rfl rfl rfl rfl rfl
  | published mapped =>
      cases answers
      simpa [reports] using (balanced.published mapped).1
  | rejected mapped err =>
      cases answers
      simpa [reports] using (balanced.published mapped).2 err
  | marked =>
      cases answers
      simpa [reports] using balanced.marked
  | @retried row rest err error result alive =>
      have lasts : row.attempts + 1 < opts.maxAttempts := by
        simpa [isNowDead] using alive
      cases answers
      simpa [reports] using @Balanced.retried _ _ _ _ _ _ _ _ _ _ error balanced lasts
  | @exhausted row rest err error result dead =>
      have spent : opts.maxAttempts ≤ row.attempts + 1 := by
        simpa [isNowDead] using dead
      cases answers
      simpa [reports] using @Balanced.died _ _ _ _ _ _ _ _ _ _ error balanced spent
  | @reported row rest err result =>
      cases answers
      obtain rfl := marked row rfl
      exact balanced.reportedOnce
  | logged =>
      cases answers
      show Balanced opts.maxAttempts _ (reported ++ []) _ _
      rw [List.append_nil]
      exact balanced.silent rfl rfl (Poll.held_next ..) (Poll.failing?_next ..)
        (Poll.marking?_next ..) (Poll.reporting?_next ..) (Poll.deadLettered_next ..)

/-- The order of the reports does not matter. -/
theorem Balanced.perm {polls : List Poll} {reported' : List (Option String × String)}
    (balanced : Balanced maxAttempts events reported store polls)
    (same : reported'.Perm reported)
    : Balanced maxAttempts events reported' store polls :=
  { balanced with reportsAgree := (same.append_right _).trans balanced.reportsAgree }

/-- A poll that has just started holds and reports nothing. -/
theorem Balanced.start {polls : List Poll}
    (balanced : Balanced maxAttempts events reported store polls)
    : Balanced maxAttempts events reported store (polls ++ [.claiming]) := by
  obtain ⟨owned, books, reports, dead, notAgain⟩ := balanced
  constructor
  · simpa [Poll.held] using owned
  · rw [List.filterMap_append, List.filterMap_append]
    simpa [show [Poll.claiming].filterMap Poll.failing? = [] from rfl,
      show [Poll.claiming].filterMap Poll.marking? = [] from rfl] using books
  · rw [List.filterMap_append]
    simpa [show [Poll.claiming].filterMap Poll.reporting? = [] from rfl] using reports
  · simpa [Poll.deadLettered] using dead
  · exact notAgain

/-- A new row changes nothing for the polls. -/
theorem Balanced.append {polls : List Poll}
    (balanced : Balanced maxAttempts events reported store polls) (positive : 0 < maxAttempts)
    (appends : store.Appends later)
    : Balanced maxAttempts events reported later polls := by
  obtain ⟨owned, books, reports, dead, notAgain⟩ := balanced
  have known : ∀ id ∈ polls.filterMap Poll.failing?, id ∈ store.rows.map (·.row.id) := by
    intro id member
    obtain ⟨poll, among, failing⟩ := List.mem_filterMap.mp member
    obtain ⟨row, held, rfl⟩ := held_of_failing? failing
    exact List.mem_map_of_mem ((owned.inflight row).mp (List.mem_flatMap.mpr ⟨poll, among, held⟩))
  have same : later.withStatus .failedDlq = store.withStatus .failedDlq := by
    obtain ⟨stored, ⟨pending, _⟩, rows⟩ := appends
    simp [OutboxStore.withStatus, rows, pending]
  exact
    {
      owned := owned.append appends
      books := books.append positive appends known
      reportsAgree := by rw [same]; exact reports
      deadLettered := by rw [same]; exact dead
      notAgain
    }

end Balanced

/-- A store of new rows is in balance before the first poll. -/
theorem balanced_new (positive : 0 < maxAttempts)
    (fresh : ∀ stored ∈ store.rows, OutboxStore.New stored)
    : Balanced maxAttempts [] [] store [] := by
  have undead : store.withStatus .failedDlq = [] := by
    simp only [OutboxStore.withStatus, List.map_eq_nil_iff, List.filter_eq_nil_iff,
      decide_eq_true_eq]
    intro stored member dead
    have pending := (fresh stored member).1
    rw [dead] at pending
    cases pending
  constructor
  · refine ⟨List.nodup_nil, fun row =>
      ⟨fun member => (List.not_mem_nil member).elim, fun inflight => ?_⟩⟩
    cases (fresh ⟨row, .inflight⟩ inflight).1
  · exact
      {
        charged := fun stored member => by
          rw [(fresh stored member).2]
          rfl
        alive := fun stored member _ => by
          rwa [(fresh stored member).2]
        dead := fun stored member dead => by
          have pending := (fresh stored member).1
          rw [dead] at pending
          cases pending
        known := fun id some_failed => (some_failed rfl).elim
        delivered := fun id member => by cases member
        exhausted := fun id member => by cases member
      }
  · rw [undead]
    exact List.Perm.nil
  · rw [undead]
    rfl
  · exact throughout_nil _

end SharedKernel.Outbox
