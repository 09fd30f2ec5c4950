import SharedKernel.Outbox.Order
import SharedKernel.Outbox.RetryBudget

/-! How often a row's event is accepted: once, and once more for each rejected mark of the row
and each time it is put back from outside. This holds for any publishers with any options,
whatever stops a poll on the way.
-/

namespace SharedKernel.Outbox

open Foundation Js Messaging

variable {opts : OutboxPublisherOptions} {row : ClaimedOutboxEvent} {history : List OutboxEvent}
  {id : String}

-----------------------------------------------------------------------------------------
-- What a poll has left to do
-----------------------------------------------------------------------------------------

/-- The ids left after one more event: an accepted row is off the list until its mark is
rejected.
-/
def leaveStep (left : List String) : OutboxEvent → List String
  | ⟨.claimPendingBatch _, .ok batch⟩ => left ++ batch.map (·.id)
  | ⟨.publish envelope, .ok _⟩ => left.erase envelope.id
  | ⟨.markProcessed id, .error _⟩ => left ++ [id]
  | ⟨.markFailed id _ _ _, .ok _⟩ => left.erase id
  | _ => left

/-- The ids that a poll has claimed and has neither had accepted nor given back. -/
def leftToDo (history : List OutboxEvent) : List String :=
  history.foldl leaveStep []

@[simp] theorem leftToDo_snoc (history : List OutboxEvent) (event : OutboxEvent)
    : leftToDo (history ++ [event]) = leaveStep (leftToDo history) event := by
  simp [leftToDo, List.foldl_append]

/-- A poll hands over and gives back only what it has left to do. -/
def OnList (history : List OutboxEvent) : OutboxOp → Prop
  | .publish envelope => envelope.id ∈ leftToDo history
  | .markFailed id _ _ _ => id ∈ leftToDo history
  | _ => True

/-- All that was left to do still is, but for the row once. -/
def Keeps (id : String) (history later : List OutboxEvent) : Prop :=
  ∀ other,
    (leftToDo history).count other
    ≤ (leftToDo later).count other + if other = id then 1 else 0

theorem Keeps.refl (id : String) (history : List OutboxEvent) : Keeps id history history :=
  fun _ => Nat.le_add_right _ _

/-- A call that leaves the list as it is. -/
theorem Keeps.snoc {later : List OutboxEvent} {event : OutboxEvent}
    (keeps : Keeps id history later) (same : leaveStep (leftToDo later) event = leftToDo later)
    : Keeps id history (later ++ [event]) := by
  intro other
  rw [leftToDo_snoc, same]
  exact keeps other

/-- A call that takes the row off the list. -/
theorem keeps_erased {event : OutboxEvent}
    (erased : leaveStep (leftToDo history) event = (leftToDo history).erase id)
    : Keeps id history (history ++ [event]) := by
  intro other
  rw [leftToDo_snoc, erased]
  split
  · rename_i same
    subst same
    rw [List.count_erase_self]
    omega
  · rename_i differs
    rw [List.count_erase_of_ne differs]
    exact Nat.le_add_right _ _

/-- Logging keeps the list. -/
theorem safe_warn_onList {start : List OutboxEvent} {message eventId : String} {attempts : Int}
    {err : Thrown} {result : OutboxPollResult} (keeps : Keeps id start history)
    : Safe OnList (fun later _ => Keeps id start later) history
        (do
          let _ ← call (.warn message eventId attempts err)
          return result) :=
  ⟨trivial, fun _ => keeps.snoc rfl⟩

/-- Recording a failure gives back the row. -/
theorem recordFailure_onList {start : List OutboxEvent} {result : OutboxPollResult} {err : Thrown}
    (left : row.id ∈ leftToDo history)
    (same : ∀ other, (leftToDo start).count other = (leftToDo history).count other)
    : Safe OnList (fun later _ => Keeps row.id start later) history
        (recordFailure opts row result err) := by
  have keeps : Keeps row.id start history := by
    intro other
    rw [same]
    exact Nat.le_add_right _ _
  cases text : err.toText with
  | error thrown =>
      simpa only [recordFailure, text, Program.bind_eq, Program.settle_error, Program.fail_bind,
        safe_fail] using keeps
  | ok error =>
      simp only [recordFailure, text, call, Program.bind_eq, Program.settle_ok,
        Program.done_bind, Program.perform_eq, Program.await_bind]
      refine ⟨left, fun marked => ?_⟩
      cases marked with
      | error thrown => exact keeps.snoc rfl
      | ok _ =>
          have given : Keeps row.id start
              (history
                ++ [⟨.markFailed row.id row.attempts error opts.maxAttempts, .ok ()⟩]) := by
            intro other
            rw [same]
            exact keeps_erased rfl other
          simp only [Program.settle_ok, Program.done_bind]
          split
          · split
            · refine ⟨trivial, fun reported => ?_⟩
              cases reported with
              | error thrown => exact given.snoc rfl
              | ok _ => exact safe_warn_onList (given.snoc rfl)
            · exact safe_warn_onList given
          · exact safe_warn_onList given

/-- A row on the list is handed over, and put back on it if its mark is rejected. -/
theorem publishRow_onList {result : OutboxPollResult} (left : row.id ∈ leftToDo history)
    : Safe OnList (fun later _ => Keeps row.id history later) history
        (publishRow opts row result) := by
  simp only [publishRow, Program.tryCatch_eq, safe_handle]
  cases mapped : toCloudEvent opts row with
  | error err =>
      simpa only [publishAndMark, mapped, Program.bind_eq, Program.settle_error,
        Program.fail_bind, safe_fail] using recordFailure_onList left (fun _ => rfl)
  | ok envelope =>
      have own : envelope.id = row.id := (toCloudEvent_fields mapped).1
      simp only [publishAndMark, mapped, call, Program.bind_eq, Program.settle_ok,
        Program.done_bind, Program.perform_eq, Program.await_bind, Program.pure_eq]
      have listed : OnList history (.publish envelope) := by
        change envelope.id ∈ leftToDo history
        rw [own]
        exact left
      refine ⟨listed, fun published => ?_⟩
      cases published with
      | error err =>
          have still : leftToDo (history ++ [⟨.publish envelope, .error err⟩])
              = leftToDo history := by
            rw [leftToDo_snoc]
            rfl
          exact recordFailure_onList (by rwa [still]) (fun _ => by rw [still])
      | ok _ =>
          have handed : Keeps row.id history (history ++ [⟨.publish envelope, .ok ()⟩]) := by
            apply keeps_erased
            rw [← own]
            rfl
          refine ⟨trivial, fun marked => ?_⟩
          cases marked with
          | ok _ => exact handed.snoc rfl
          | error err =>
              have again : leftToDo
                  (history ++ [⟨.publish envelope, .ok ()⟩]
                    ++ [⟨.markProcessed row.id, .error err⟩])
                  = (leftToDo history).erase row.id ++ [row.id] := by
                rw [leftToDo_snoc, leftToDo_snoc, ← own]
                rfl
              have perm : (leftToDo history).Perm ((leftToDo history).erase row.id ++ [row.id]) :=
                (List.perm_cons_erase left).trans (List.perm_append_singleton row.id _).symm
              rw [← again] at perm
              exact recordFailure_onList (perm.subset left) perm.count_eq

/-- So is every row of a claimed batch, by induction on the batch. -/
theorem publishRows_onList {result : OutboxPollResult} {batch : List ClaimedOutboxEvent}
    (left : ∀ id, (batch.map (·.id)).count id ≤ (leftToDo history).count id)
    : Safe OnList (fun _ _ => True) history (publishRows opts batch result) := by
  induction batch generalizing history result with
  | nil => trivial
  | cons row rest ih =>
      have listed : row.id ∈ leftToDo history := by
        rw [← List.count_pos_iff]
        exact Nat.lt_of_lt_of_le (by simp) (left row.id)
      simp only [publishRows, Program.bind_eq, safe_bind]
      refine (publishRow_onList listed).mono (fun _ _ holds => holds)
        (fun later outcome keeps => ?_)
      cases outcome with
      | error thrown => trivial
      | ok next =>
          apply ih
          intro id
          have before := left id
          have kept := keeps id
          rw [List.map_cons, List.count_cons] at before
          simp only [beq_iff_eq, @eq_comm _ row.id] at before
          omega

/-- A poll hands over and gives back only what it has left to do. -/
theorem pollOnce_onList : Safe OnList (fun _ _ => True) [] (pollOnce opts) := by
  simp only [pollOnce, call, Program.bind_eq, Program.perform_eq, Program.await_bind,
    Program.done_bind]
  refine ⟨trivial, fun claim => ?_⟩
  cases claim with
  | error err => trivial
  | ok batch =>
      simp only [Program.settle_ok, Program.done_bind]
      split
      · trivial
      · apply publishRows_onList
        intro id
        rw [leftToDo_snoc]
        exact Nat.le_refl _

-----------------------------------------------------------------------------------------
-- The table and what changes it
-----------------------------------------------------------------------------------------

/-- What the store and the other parties may answer if it may also reject a mark, which then
changes nothing.
-/
inductive OutboxStore.Replies (store : OutboxStore) : OutboxEvent → OutboxStore → Prop
  | answers {event later} (answers : store.Answers event later) : store.Replies event later
  | unprocessed {id : String} (err : Thrown) : store.Replies ⟨.markProcessed id, .error err⟩ store
  | unfailed {id error : String} {currentAttempts maxAttempts : Int} (err : Thrown)
    : store.Replies ⟨.markFailed id currentAttempts error maxAttempts, .error err⟩ store

variable {store later : OutboxStore} {event : OutboxEvent}

/-- The row is in the table with that status. -/
def OutboxStore.Has (store : OutboxStore) (id : String) (status : RowStatus) : Prop :=
  ∃ stored ∈ store.rows, stored.row.id = id ∧ stored.status = status

/-- A row has one status. -/
theorem OutboxStore.Has.unique {status other : RowStatus}
    (has : store.Has id status) (has' : store.Has id other)
    : status = other := by
  obtain ⟨stored, member, same, here⟩ := has
  obtain ⟨stored', member', same', there⟩ := has'
  obtain rfl := store.eq_of_id member member' (same.trans same'.symm)
  exact here.symm.trans there

/-- A row that an update does not name keeps its status. -/
theorem OutboxStore.Has.update {status : RowStatus}
    (has : store.Has id status) {ids : List String} {attempts : Int → Int} {next : RowStatus}
    (unnamed : id ∉ ids)
    : (store.update ids attempts next).Has id status := by
  obtain ⟨stored, member, same, here⟩ := has
  exact ⟨stored, OutboxStore.mem_update.mpr (Or.inr ⟨member, same ▸ unnamed⟩), same, here⟩

/-- A row that an update names takes on its status. -/
theorem OutboxStore.Has.updated {status : RowStatus}
    (has : store.Has id status) {ids : List String} {attempts : Int → Int} {next : RowStatus}
    (named : id ∈ ids)
    : (store.update ids attempts next).Has id next := by
  obtain ⟨stored, member, same, _⟩ := has
  exact ⟨stored.mark attempts next,
    OutboxStore.mem_update.mpr (Or.inl ⟨stored, member, same ▸ named, rfl⟩), same, rfl⟩

/-- A new row changes no other. -/
theorem OutboxStore.Has.append {status : RowStatus} (has : store.Has id status)
    (appends : store.Appends later)
    : later.Has id status := by
  obtain ⟨new, _, rows⟩ := appends
  obtain ⟨stored, member, facts⟩ := has
  exact ⟨stored, by rw [rows]; exact List.mem_append_left _ member, facts⟩

theorem has_pending {batch : List ClaimedOutboxEvent}
    (pending : ∀ row ∈ batch, ⟨row, .pending⟩ ∈ store.rows)
    : ∀ id ∈ batch.map (·.id), store.Has id .pending := by
  intro id listed
  obtain ⟨row, member, same⟩ := List.mem_map.mp listed
  exact ⟨_, pending row member, same, rfl⟩

/-- The row is out of reach of a claim, as processed or in flight. -/
def OutboxStore.Taken (store : OutboxStore) (id : String) : Prop :=
  store.Has id .inflight ∨ store.Has id .processed

theorem OutboxStore.Taken.update (taken : store.Taken id) {ids : List String}
    {attempts : Int → Int} {next : RowStatus} (unnamed : id ∉ ids)
    : (store.update ids attempts next).Taken id :=
  taken.imp (fun has => has.update unnamed) (fun has => has.update unnamed)

-----------------------------------------------------------------------------------------
-- How often a row is accepted
-----------------------------------------------------------------------------------------

/-- The rows whose processed mark was rejected. -/
def rejectedMarks (events : List OutboxEvent) : List String :=
  events.filterMap fun
    | ⟨.markProcessed id, .error _⟩ => some id
    | _ => none

@[simp] theorem rejectedMarks_append (head tail : List OutboxEvent)
    : rejectedMarks (head ++ tail) = rejectedMarks head ++ rejectedMarks tail :=
  List.filterMap_append

/-- With what is left to do, every row is accepted at most once more than its mark was rejected
or it was put back, and no more often than that unless it is taken.
-/
structure Bounded (events : List OutboxEvent) (returned : List String) (left : String → Nat)
    (store : OutboxStore)
    : Prop where
  within
    : ∀ id,
        (deliveries events).count id + left id
        ≤ (rejectedMarks events).count id + returned.count id + 1
  loose
    : ∀ id,
        ¬ store.Taken id
        → (deliveries events).count id + left id
          ≤ (rejectedMarks events).count id + returned.count id

variable {events : List OutboxEvent} {returned : List String} {left left' : String → Nat}

/-- What is left to do changes as the list of the poll does. -/
def Moved (left left' : String → Nat) (history : List OutboxEvent) (event : OutboxEvent) : Prop :=
  ∀ id,
    left' id + (leftToDo history).count id
    = left id + (leaveStep (leftToDo history) event).count id

theorem deliveries_snoc (events : List OutboxEvent) (event : OutboxEvent) (id : String)
    : (deliveries (events ++ [event])).count id
      = (deliveries events).count id + (deliveries [event]).count id := by
  rw [deliveries_append, List.count_append]

theorem rejectedMarks_snoc (events : List OutboxEvent) (event : OutboxEvent) (id : String)
    : (rejectedMarks (events ++ [event])).count id
      = (rejectedMarks events).count id + (rejectedMarks [event]).count id := by
  rw [rejectedMarks_append, List.count_append]

/-- A call that takes from the list what it hands over, puts on it what it fails to mark, and
lets go of no row.
-/
theorem Bounded.spent (bounded : Bounded events returned left store)
    (moved : Moved left left' history event)
    (balanced
      : ∀ id,
          (deliveries [event]).count id + (leaveStep (leftToDo history) event).count id
          ≤ (leftToDo history).count id + (rejectedMarks [event]).count id)
    (taken : ∀ id, store.Taken id → later.Taken id)
    : Bounded (events ++ [event]) returned left' later where
  within id := by
    have before := bounded.within id
    have change := moved id
    have balance := balanced id
    rw [deliveries_snoc, rejectedMarks_snoc]
    omega
  loose id untaken := by
    have before := bounded.loose id (fun was => untaken (taken id was))
    have change := moved id
    have balance := balanced id
    rw [deliveries_snoc, rejectedMarks_snoc]
    omega

/-- A claim puts on the list what was not taken, and takes it. -/
theorem Bounded.claimed (bounded : Bounded events returned left store) {limit : Int}
    {batch : List ClaimedOutboxEvent}
    (moved : Moved left left' history ⟨.claimPendingBatch limit, .ok batch⟩)
    (waits : ∀ id ∈ batch.map (·.id), store.Has id .pending) (distinct : (batch.map (·.id)).Nodup)
    : Bounded (events ++ [⟨.claimPendingBatch limit, .ok batch⟩]) returned left'
        (store.update (batch.map (·.id)) (fun attempts => attempts) .inflight) := by
  have listed : ∀ id, left' id = left id + (batch.map (·.id)).count id := by
    intro id
    have change := moved id
    simp only [leaveStep, List.count_append] at change
    omega
  have handed : deliveries (events ++ [⟨.claimPendingBatch limit, .ok batch⟩])
      = deliveries events := by
    rw [deliveries_append]
    exact List.append_nil _
  have rejected : rejectedMarks (events ++ [⟨.claimPendingBatch limit, .ok batch⟩])
      = rejectedMarks events := by
    rw [rejectedMarks_append]
    exact List.append_nil _
  have loose : ∀ id ∈ batch.map (·.id), ¬ store.Taken id := by
    rintro id named (inflight | processed)
    · cases (waits id named).unique inflight
    · cases (waits id named).unique processed
  constructor
  · intro id
    rw [handed, rejected, listed]
    by_cases named : id ∈ batch.map (·.id)
    · have before := bounded.loose id (loose id named)
      have once := List.nodup_iff_count_le_one.mp distinct id
      omega
    · have before := bounded.within id
      rw [List.count_eq_zero.mpr named]
      omega
  · intro id untaken
    have unnamed : id ∉ batch.map (·.id) := by
      intro named
      exact untaken (Or.inl ((waits id named).updated named))
    rw [handed, rejected, listed, List.count_eq_zero.mpr unnamed]
    exact bounded.loose id (fun taken => untaken (taken.update unnamed))

/-- A row that a poll gives back is off its list. -/
theorem Bounded.failed (bounded : Bounded events returned left store)
    {error : String} {currentAttempts maxAttempts : Int} {attempts : Int → Int}
    {status : RowStatus} (listed : id ∈ leftToDo history)
    (moved : Moved left left' history ⟨.markFailed id currentAttempts error maxAttempts, .ok ()⟩)
    : Bounded (events ++ [⟨.markFailed id currentAttempts error maxAttempts, .ok ()⟩]) returned
        left' (store.update [id] attempts status) := by
  have handed
      : deliveries (events ++ [⟨.markFailed id currentAttempts error maxAttempts, .ok ()⟩])
        = deliveries events := by
    rw [deliveries_append]
    exact List.append_nil _
  have rejected
      : rejectedMarks (events ++ [⟨.markFailed id currentAttempts error maxAttempts, .ok ()⟩])
        = rejectedMarks events := by
    rw [rejectedMarks_append]
    exact List.append_nil _
  have one : 0 < (leftToDo history).count id := List.count_pos_iff.mpr listed
  have fewer : ∀ other,
      ((leftToDo history).erase id).count other
      = (leftToDo history).count other - if other = id then 1 else 0 := by
    intro other
    split
    · rename_i same
      rw [same, List.count_erase_self]
    · rename_i differs
      rw [List.count_erase_of_ne differs, Nat.sub_zero]
  constructor
  · intro other
    have before := bounded.within other
    have change := moved other
    have less := fewer other
    rw [handed, rejected]
    simp only [leaveStep] at change
    omega
  · intro other untaken
    have change := moved other
    have less := fewer other
    simp only [leaveStep] at change
    rw [handed, rejected]
    by_cases same : other = id
    · subst same
      have before := bounded.within other
      rw [if_pos rfl] at less
      omega
    · have before := bounded.loose other
        (fun taken => untaken (taken.update (by simpa using same)))
      rw [if_neg same] at less
      omega

/-- Every answered call keeps the bounds, where the poll hands over and gives back only what it
has left to do; by the kind of answer.
-/
theorem Bounded.reply (bounded : Bounded events returned left store)
    (holds : OnList history event.op) (replies : store.Replies event later)
    (moved : Moved left left' history event)
    : Bounded (events ++ [event]) returned left' later := by
  cases replies with
  | unprocessed err =>
      refine bounded.spent moved (fun id => ?_) (fun _ taken => taken)
      simp [deliveries, handovers, rejectedMarks, leaveStep, List.count_append]
  | unfailed err =>
      refine bounded.spent moved (fun id => ?_) (fun _ taken => taken)
      simp [deliveries, handovers, rejectedMarks, leaveStep]
  | answers answers =>
      cases answers with
      | claimed pending distinct few => exact bounded.claimed moved (has_pending pending) distinct
      | unclaimed err | reported reply | logged =>
          refine bounded.spent moved (fun id => ?_) (fun _ taken => taken)
          simp [deliveries, handovers, rejectedMarks, leaveStep]
      | @published envelope reply =>
          refine bounded.spent moved (fun id => ?_) (fun _ taken => taken)
          cases reply with
          | error err => simp [deliveries, handovers, rejectedMarks, leaveStep]
          | ok _ =>
              have split := (List.perm_cons_erase holds).count_eq id
              rw [← List.singleton_append, List.count_append] at split
              simpa [deliveries, handovers, rejectedMarks, leaveStep] using split.ge
      | @processed marked =>
          refine bounded.spent moved (fun id => ?_) (fun id taken => ?_)
          · simp [deliveries, handovers, rejectedMarks, leaveStep]
          · by_cases same : id ∈ [marked]
            · rcases taken with inflight | processed
              · exact Or.inr (inflight.updated same)
              · exact Or.inr (processed.updated same)
            · exact taken.update same
      | failed => exact bounded.failed holds moved

/-- A new row changes no bound. -/
theorem Bounded.append (bounded : Bounded events returned left store)
    (appends : store.Appends later)
    : Bounded events returned left later where
  within := bounded.within
  loose id untaken :=
    bounded.loose id (fun taken =>
      untaken (taken.imp (fun has => has.append appends) (fun has => has.append appends)))

/-- Rows that are put back may be accepted once more. -/
theorem Bounded.requeued (bounded : Bounded events returned left store) (ids : List String)
    (attempts : Int → Int)
    : Bounded events (returned ++ ids) left (store.update ids attempts .pending) where
  within id := by
    have before := bounded.within id
    rw [List.count_append]
    omega
  loose id untaken := by
    rw [List.count_append]
    by_cases named : id ∈ ids
    · have before := bounded.within id
      have one : 0 < ids.count id := List.count_pos_iff.mpr named
      omega
    · have before := bounded.loose id (fun taken => untaken (taken.update named))
      omega

-----------------------------------------------------------------------------------------
-- Whole runs
-----------------------------------------------------------------------------------------

/-- A step of the polls, or rows are put back from outside. -/
inductive PublisherLabel where
  | poll (label : OutboxLabel)
  | requeued (ids : List String)

/-- The steps of any publishers, each with its own options, over one table that may reject a
mark; a job that recovers stale rows, or an operator, may put back any rows at any time.
-/
inductive PublisherStep : OutboxPool → PublisherLabel → OutboxPool → Prop
  | poll {pool label next}
    (taken
      : PoolStep pollOnce (fun _ => True) OutboxStore.Replies OutboxStore.Appends pool label next)
    : PublisherStep pool (.poll label) next
  | requeued {pool} (ids : List String) (attempts : Int → Int)
    : PublisherStep pool (.requeued ids)
        { pool with world := pool.world.update ids attempts .pending }

/-- What the polls see of a step. -/
def PublisherLabel.seen : PublisherLabel → OutboxLabel
  | .poll label => label
  | .requeued _ => .drift

/-- The calls of a run that were answered. -/
def callsOf (labels : List PublisherLabel) : List OutboxEvent :=
  answered (labels.map PublisherLabel.seen)

/-- The rows that were put back. -/
def putBack (labels : List PublisherLabel) : List String :=
  labels.flatMap fun
    | .requeued ids => ids
    | .poll _ => []

variable {labels : List PublisherLabel} {pool : OutboxPool}

/-- The publishers are a pool of polls over a table that others change too. -/
theorem PublisherStep.pool_run (run : Execution PublisherStep (.start store) labels pool)
    : Execution
        (PoolStep pollOnce (fun _ => True) OutboxStore.Replies
          (fun store later =>
            store.Appends later
            ∨ ∃ ids attempts, later = store.update ids attempts .pending))
        (.start store) (labels.map PublisherLabel.seen) pool := by
  rw [← List.filterMap_eq_map]
  refine run.project id (fun label => some label.seen) ?_
  intro pool label next taken
  refine Or.inl ⟨_, rfl, ?_⟩
  cases taken with
  | poll taken =>
      cases taken with
      | start call admits => exact .start call admits
      | answer reply waiting answered => exact .answer reply waiting answered
      | drift moved => exact .drift (Or.inl moved)
  | requeued ids attempts => exact .drift (Or.inr ⟨ids, attempts, rfl⟩)

/-- What all polls have left to do. -/
def leftOver (pool : OutboxPool) (id : String) : Nat :=
  (pool.threads.map (fun thread => (leftToDo thread.history).count id)).sum

/-- In every reachable state of the publishers the bounds hold, by induction on the run. -/
theorem bounded_of_run (run : Execution PublisherStep (.start store) labels pool)
    : Bounded (callsOf labels) (putBack labels) (leftOver pool) pool.world := by
  induction run with
  | start => exact ⟨fun _ => Nat.zero_le _, fun _ _ => Nat.le_refl 0⟩
  | @snoc labels pool label next earlier taken ih =>
      have told : callsOf (labels ++ [label]) = callsOf labels ++ callsOf [label] := by
        rw [callsOf, List.map_append]
        exact List.filterMap_append
      have back : putBack (labels ++ [label]) = putBack labels ++ putBack [label] :=
        List.flatMap_append
      rw [told, back]
      cases taken with
      | requeued ids attempts => 
          have unheard : callsOf labels ++ callsOf [.requeued ids] = callsOf labels :=
            List.append_nil _
          have these : putBack [.requeued ids] = ids := List.append_nil _
          rw [unheard, these]
          exact ih.requeued ids attempts
      | poll taken =>
          have kept : ∀ label, putBack labels ++ putBack [.poll label] = putBack labels :=
            fun _ => List.append_nil _
          rw [kept]
          cases taken with
          | start call admits =>
              have unheard : callsOf labels ++ callsOf [.poll (.start call)] = callsOf labels :=
                List.append_nil _
              have idle : leftOver
                  { pool with
                    threads :=
                      pool.threads ++ [{ call, history := [], rest := pollOnce call }] }
                  = leftOver pool := by
                funext id
                simp [leftOver, leftToDo]
              rw [unheard, idle]
              exact ih
          | drift moved =>
              have unheard : callsOf labels ++ callsOf [.poll .drift] = callsOf labels :=
                List.append_nil _
              rw [unheard]
              exact ih.append moved
          | @answer index call history op resume world reply waiting replies =>
              have own := (Pool.sound (PublisherStep.pool_run earlier)).threads index _ waiting
              have holds : OnList history op := by
                have guarded := pollOnce_onList.guarded own.run
                rwa [List.nil_append] at guarded
              refine ih.reply holds replies (fun id => ?_)
              have moved := @sum_set _ (fun thread => (leftToDo thread.history).count id) _ _ _
                { call, history := history ++ [⟨op, reply⟩], rest := resume reply } waiting
              simpa [leftOver] using moved

/-- In every run of any number of publishers, each with its own options, however many polls
stop on the way and whatever the store and the publisher reject, the event of a row is
accepted at most once more than the mark of the row was rejected and the row was put back;
where it was accepted more often than that, the row is in flight or processed.
-/
theorem accepted_once (run : Execution PublisherStep (.start store) labels pool) (id : String)
    : let accepted := (deliveries (callsOf labels)).count id
      let again := (rejectedMarks (callsOf labels)).count id + (putBack labels).count id
      accepted ≤ again + 1 ∧ (again < accepted → pool.world.Taken id) := by
  have bounded := bounded_of_run run
  refine ⟨(Nat.le_add_right _ _).trans (bounded.within id), fun more => ?_⟩
  by_contra untaken
  have loose := bounded.loose id untaken
  omega

/-- The row `a` after one recorded failure. -/
def failedRow : ClaimedOutboxEvent :=
  { sampleRow "a" with attempts := 1 }

/-- A poll whose mark of an accepted row is rejected. -/
def unmarkedPoll : List OutboxEvent :=
  [⟨.claimPendingBatch 100, .ok [sampleRow "a"]⟩,
    ⟨.publish (sampleEnvelope "a"), .ok ()⟩,
    ⟨.markProcessed "a", .error boom⟩,
    ⟨.markFailed "a" 0 "Error: boom" 3, .ok ()⟩]

/-- A poll that hands the row over again. -/
def againPoll : List OutboxEvent :=
  [⟨.claimPendingBatch 100, .ok [failedRow]⟩, ⟨.publish (sampleEnvelope "a"), .ok ()⟩]

/-- Both polls, one after the other. -/
def acceptedTwice : List PublisherLabel :=
  .poll (.start sampleOptions) :: unmarkedPoll.map (fun event => .poll (.answer 0 event))
  ++ .poll (.start sampleOptions) :: againPoll.map (fun event => .poll (.answer 1 event))

/-- The table after the first poll. -/
def retriedRow : OutboxStore :=
  (soleRow.update ["a"] (fun attempts => attempts) .inflight).update ["a"] (fun _ => 0 + 1) .pending

theorem unmarkedPoll_answered : Answered OutboxStore.Replies soleRow unmarkedPoll retriedRow := by
  refine .cons (.answers (.claimed ?_ ?_ ?_)) (.cons (.answers (.published _))
    (.cons (.unprocessed boom) (.cons (.answers .failed) (.nil _))))
  · simp [soleRow]
  · simp
  · simp

theorem againPoll_answered
    : Answered OutboxStore.Replies retriedRow againPoll
        (retriedRow.update ["a"] (fun attempts => attempts) .inflight) := by
  refine .cons (.answers (.claimed ?_ ?_ ?_)) (.cons (.answers (.published _)) (.nil _))
  · simp [retriedRow, soleRow, OutboxStore.update, StoredRow.mark, failedRow, sampleRow]
  · simp
  · simp

theorem acceptedTwice_run
    : ∃ pool, Execution PublisherStep (.start soleRow) acceptedTwice pool := by
  have first := @Pool.run_call _ _ _ _ _ pollOnce (fun _ => True) _ OutboxStore.Appends
    (.start soleRow) sampleOptions unmarkedPoll _ _ trivial
    (.step _ (.step _ (.step _ (.step _ (.refl _))))) unmarkedPoll_answered
  have second := fun thread =>
    @Pool.run_call _ _ _ _ _ pollOnce (fun _ => True) _ OutboxStore.Appends
      ⟨[thread], retriedRow⟩ sampleOptions againPoll _ _ trivial
      (.step _ (.step _ (.refl _))) againPoll_answered
  have both := (first.trans (second _)).project id (fun label => some (PublisherLabel.poll label))
    (fun _ _ _ taken => Or.inl ⟨_, rfl, PublisherStep.poll taken⟩)
  rw [List.filterMap_eq_map'] at both
  exact ⟨_, both⟩

/-- The bound is reached: the row is accepted twice, its mark rejected once. -/
theorem accepted_once_acceptedTwice
    : ∃ pool,
        Execution PublisherStep (.start soleRow) acceptedTwice pool
        ∧ (deliveries (callsOf acceptedTwice)).count "a" = 2
        ∧ (rejectedMarks (callsOf acceptedTwice)).count "a" = 1
        ∧ (deliveries (callsOf acceptedTwice)).count "a"
          ≤ (rejectedMarks (callsOf acceptedTwice)).count "a"
            + (putBack acceptedTwice).count "a" + 1
        ∧ pool.world.Taken "a" := by
  obtain ⟨pool, run⟩ := acceptedTwice_run
  have accepted : (deliveries (callsOf acceptedTwice)).count "a" = 2 := by
    simp [acceptedTwice, unmarkedPoll, againPoll, callsOf, answered, PublisherLabel.seen,
      deliveries, handovers, sampleEnvelope]
  have rejected : (rejectedMarks (callsOf acceptedTwice)).count "a" = 1 := by
    simp [acceptedTwice, unmarkedPoll, againPoll, callsOf, answered, PublisherLabel.seen,
      rejectedMarks]
  have untouched : (putBack acceptedTwice).count "a" = 0 := by
    simp [acceptedTwice, unmarkedPoll, againPoll, putBack]
  obtain ⟨within, taken⟩ := accepted_once run "a"
  exact ⟨pool, run, accepted, rejected, within, taken (by omega)⟩

end SharedKernel.Outbox
