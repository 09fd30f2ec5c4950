import Mathlib.Algebra.Order.BigOperators.Group.List
import SharedKernel.Outbox.Order
import SharedKernel.Outbox.RetryBudget

/-! A publisher that keeps ticking drains the outbox: each tick spends the retry budget of the
rows it claims, so that after finitely many ticks every row is published or given up.
-/

namespace SharedKernel.Outbox

open Foundation Js Messaging

variable {opts : OutboxPublisherOptions} {row : ClaimedOutboxEvent} {maxAttempts : Int}
  {events : List OutboxEvent} {store later : OutboxStore} {stored after : StoredRow}

-----------------------------------------------------------------------------------------
-- What a poll makes of a row
-----------------------------------------------------------------------------------------

/-- What becomes of a row that a poll has claimed: it is published, pending with one more
failure, or given up.
-/
inductive Treated (maxAttempts : Int) (row : ClaimedOutboxEvent) (events : List OutboxEvent)
    : StoredRow → Prop
  | processed (published : Published row.id events)
    : Treated maxAttempts row events ⟨row, .processed⟩
  | retried (alive : row.attempts + 1 < maxAttempts)
    : Treated maxAttempts row events ⟨{ row with attempts := row.attempts + 1 }, .pending⟩
  | exhausted (dead : maxAttempts ≤ row.attempts + 1)
    : Treated maxAttempts row events ⟨{ row with attempts := row.attempts + 1 }, .failedDlq⟩

theorem Published.append {id : String} {head : List OutboxEvent} (published : Published id head)
    (tail : List OutboxEvent)
    : Published id (head ++ tail) := by
  obtain ⟨envelope, same, member⟩ := published
  exact ⟨envelope, same, List.mem_append_left tail member⟩

theorem Published.prepend {id : String} {tail : List OutboxEvent} (published : Published id tail)
    (head : List OutboxEvent)
    : Published id (head ++ tail) := by
  obtain ⟨envelope, same, member⟩ := published
  exact ⟨envelope, same, List.mem_append_right head member⟩

theorem Treated.mono {events' : List OutboxEvent}
    (treated : Treated maxAttempts row events after)
    (more : Published row.id events → Published row.id events')
    : Treated maxAttempts row events' after := by
  cases treated with
  | processed published => exact .processed (more published)
  | retried alive => exact .retried alive
  | exhausted dead => exact .exhausted dead

/-- The answers to the `catch` of a row leave the row failed once more. -/
theorem Recorded.treats {count : OutboxPollResult → OutboxPollResult}
    (recorded : Recorded opts row events count)
    (answered : Execution OutboxStore.Answers store events later)
    : later
      = store.update [row.id] (fun _ => row.attempts + 1)
          (if opts.maxAttempts ≤ row.attempts + 1 then .failedDlq else .pending) := by
  cases recorded with
  | retried alive | dead dead =>
      obtain ⟨_, marked, rest⟩ := answered.uncons
      obtain ⟨_, logged, done⟩ := rest.uncons
      cases marked
      cases logged
      obtain rfl := done.of_nil
      rfl
  | reported dead =>
      obtain ⟨_, marked, rest⟩ := answered.uncons
      obtain ⟨_, reported, rest⟩ := rest.uncons
      obtain ⟨_, logged, done⟩ := rest.uncons
      cases marked
      cases reported
      cases logged
      obtain rfl := done.of_nil
      rfl

/-- The answers to the `try` of a row that fails leave the store as it is. -/
theorem TryFails.unchanged {err : Thrown} (fails : TryFails opts row events err)
    (answered : Execution OutboxStore.Answers store events later)
    : later = store := by
  cases fails with
  | unmapped invalid =>
      exact answered.of_nil
  | unpublished mapped =>
      obtain ⟨_, published, done⟩ := answered.uncons
      cases published
      obtain rfl := done.of_nil
      rfl
  | unmarked mapped =>
      obtain ⟨_, _, rest⟩ := answered.uncons
      obtain ⟨_, marked, _⟩ := rest.uncons
      cases marked

/-- The answers to a row that does not escape change that row only. -/
theorem RowRun.treats {result next : OutboxPollResult}
    (run : RowRun opts row result events (.ok next))
    (answered : Execution OutboxStore.Answers store events later)
    : ∃ attempts status,
        later = store.update [row.id] attempts status
        ∧ Treated opts.maxAttempts row events
            (StoredRow.mark ⟨row, .inflight⟩ attempts status) := by
  cases run with
  | @published envelope mapped =>
      obtain ⟨_, published, rest⟩ := answered.uncons
      obtain ⟨_, marked, done⟩ := rest.uncons
      cases published
      cases marked
      obtain rfl := done.of_nil
      exact ⟨_, _, rfl,
        .processed ⟨envelope, (toCloudEvent_fields mapped).1, List.mem_cons_self ..⟩⟩
  | failed cause printed recorded =>
      obtain ⟨middle, tried, caught⟩ := answered.split
      obtain rfl := cause.unchanged tried
      refine ⟨_, _, recorded.treats caught, ?_⟩
      split
      · rename_i dead
        exact .exhausted dead
      · rename_i alive
        exact .retried (Int.not_le.mp alive)

/-- The rows after an update, one by one. -/
theorem OutboxStore.rows_update (store : OutboxStore) (ids : List String) (attempts : Int → Int)
    (status : RowStatus)
    : (store.update ids attempts status).rows
      = store.rows.map
          (fun stored => if stored.row.id ∈ ids then stored.mark attempts status else stored) :=
  rfl

/-- The answers to the rows of a batch change those rows only, by induction on the batch. -/
theorem RowsRun.treats {batch : List ClaimedOutboxEvent} {result : OutboxPollResult}
    {outcome : Except Thrown OutboxPollResult} (run : RowsRun opts batch result events outcome)
    (contained : Contained events) (distinct : (batch.map (·.id)).Nodup)
    (answered : Execution OutboxStore.Answers store events later)
    : ∃ treat : StoredRow → StoredRow,
        later.rows = store.rows.map treat
        ∧ (∀ stored, stored.row.id ∉ batch.map (·.id) → treat stored = stored)
        ∧ ∀ row ∈ batch, Treated opts.maxAttempts row events (treat ⟨row, .inflight⟩) := by
  induction run generalizing store with
  | nil =>
      obtain rfl := answered.of_nil
      exact ⟨id, (List.map_id _).symm, fun _ _ => rfl, nofun⟩
  | escaped run =>
      obtain ⟨event, member, loud⟩ := run.escape
      exact absurd (contained event member) (by simp [loud])
  | @cons first rest start head next tail outcome run later ih =>
      obtain ⟨fresh, distinct⟩ := List.nodup_cons.mp distinct
      obtain ⟨middle, here, there⟩ := answered.split
      obtain ⟨attempts, status, rfl, treated⟩ := run.treats here
      obtain ⟨treat, same, others, those⟩ := ih contained.after distinct there
      refine
        ⟨fun stored => treat
            (if stored.row.id ∈ [first.id] then stored.mark attempts status else stored),
          ?_, ?_, ?_⟩
      · rw [same, OutboxStore.rows_update, List.map_map]
        rfl
      · intro stored elsewhere
        rw [List.map_cons, List.mem_cons, not_or] at elsewhere
        obtain ⟨other, unlisted⟩ := elsewhere
        dsimp only
        rw [if_neg (by simpa using other), others stored unlisted]
      · intro row member
        rcases List.mem_cons.mp member with rfl | among
        · dsimp only
          rw [if_pos (List.mem_singleton_self _), others _ fresh]
          exact treated.mono (fun published => published.append tail)
        · have other : row.id ≠ first.id := by
            intro same
            exact fresh (List.mem_map.mpr ⟨row, among, same⟩)
          dsimp only
          rw [if_neg (by simpa using other)]
          exact (those row among).mono (fun published => published.prepend head)

-----------------------------------------------------------------------------------------
-- What a tick spends
-----------------------------------------------------------------------------------------

/-- The store keeps to its contract, and a claim resolves, with some row while one is pending.
-/
def OutboxStore.Prompt (store : OutboxStore) (event : OutboxEvent) (later : OutboxStore) : Prop :=
  store.Answers event later
  ∧ ∀ limit reply,
      event = ⟨.claimPendingBatch limit, reply⟩
      → ∃ batch, reply = .ok batch ∧ (0 < limit → batch = [] → store.withStatus .pending = [])

end SharedKernel.Outbox
