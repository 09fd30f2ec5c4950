import Mathlib.Data.List.Nodup
import SharedKernel.Foundation.Pool
import SharedKernel.Outbox.Charges

/-! The outbox table as its port documents it: rows are claimed while they are pending, and
marked processed, pending again or failed for good.
-/

namespace SharedKernel.Outbox

open Foundation Js Messaging

inductive RowStatus where
  | pending
  | inflight
  | processed
  | failedDlq
deriving DecidableEq

/-- A row of the table, as a claim returns it, with its status. -/
structure StoredRow where
  row : ClaimedOutboxEvent
  status : RowStatus

/-- The table; the id is its primary key. -/
structure OutboxStore where
  rows : List StoredRow
  distinct : (rows.map (·.row.id)).Nodup

/-- A row with its attempts and its status changed. -/
def StoredRow.mark (stored : StoredRow) (attempts : Int → Int) (status : RowStatus)
    : StoredRow :=
  { row := { stored.row with attempts := attempts stored.row.attempts }, status }

@[simp] theorem StoredRow.mark_status (stored : StoredRow) (attempts : Int → Int)
    (status : RowStatus)
    : (stored.mark attempts status).status = status :=
  rfl

@[simp] theorem StoredRow.mark_id (stored : StoredRow) (attempts : Int → Int)
    (status : RowStatus)
    : (stored.mark attempts status).row.id = stored.row.id :=
  rfl

namespace OutboxStore

/-- Change attempts and status of the rows with the given ids. -/
def update (store : OutboxStore) (ids : List String) (attempts : Int → Int)
    (status : RowStatus)
    : OutboxStore where
  rows :=
    store.rows.map
      (fun stored => if stored.row.id ∈ ids then stored.mark attempts status else stored)
  distinct := by
    have same : (fun stored : StoredRow =>
        (if stored.row.id ∈ ids then stored.mark attempts status else stored).row.id)
        = (·.row.id) := by
      funext stored
      split <;> rfl
    rw [List.map_map, Function.comp_def, same]
    exact store.distinct

/-- The rows of a status. -/
def withStatus (store : OutboxStore) (status : RowStatus) : List ClaimedOutboxEvent :=
  (store.rows.filter (·.status = status)).map (·.row)

/-- What the store and the other parties may answer: a claim takes pending rows, each once, up
to its limit, or rejects; a mark succeeds; the publisher and the metrics hook answer anything.
-/
inductive Answers : OutboxStore → OutboxEvent → OutboxStore → Prop
  | claimed {store limit} {batch : List ClaimedOutboxEvent}
    (pending : ∀ row ∈ batch, ⟨row, .pending⟩ ∈ store.rows)
    (distinct : (batch.map (·.id)).Nodup) (few : batch.length ≤ limit.toNat)
    : Answers store ⟨.claimPendingBatch limit, .ok batch⟩
        (store.update (batch.map (·.id)) id .inflight)
  | unclaimed {store limit} (err : Thrown)
    : Answers store ⟨.claimPendingBatch limit, .error err⟩ store
  | published {store envelope} (reply : Except Thrown Unit)
    : Answers store ⟨.publish envelope, reply⟩ store
  | processed {store id}
    : Answers store ⟨.markProcessed id, .ok ()⟩
        (store.update [id] (fun attempts => attempts) .processed)
  | failed {store id currentAttempts error maxAttempts}
    : Answers store ⟨.markFailed id currentAttempts error maxAttempts, .ok ()⟩
        (store.update [id] (fun _ => currentAttempts + 1)
          (if maxAttempts ≤ currentAttempts + 1 then .failedDlq else .pending))
  | reported {store eventType} (reply : Except Thrown Unit)
    : Answers store ⟨.onDeadLetter eventType, reply⟩ store
  | logged {store message eventId attempts err}
    : Answers store ⟨.warn message eventId attempts err, ()⟩ store

/-- A row is pending and has not failed. -/
def New (stored : StoredRow) : Prop :=
  stored.status = .pending ∧ stored.row.attempts = 0

/-- The table grows by a new row. -/
def Appends (store later : OutboxStore) : Prop :=
  ∃ stored, New stored ∧ later.rows = store.rows ++ [stored]

variable {store : OutboxStore}

/-- One id, one row. -/
theorem eq_of_id {first second : StoredRow} (hl : first ∈ store.rows)
    (hr : second ∈ store.rows) (same : first.row.id = second.row.id)
    : first = second :=
  List.inj_on_of_nodup_map store.distinct hl hr same

/-- The rows after an update: those it names, changed, and the others. -/
theorem mem_update {ids : List String} {attempts : Int → Int} {status : RowStatus}
    {stored : StoredRow}
    : stored ∈ (store.update ids attempts status).rows
      ↔ (∃ before ∈ store.rows, before.row.id ∈ ids ∧ stored = before.mark attempts status)
        ∨ stored ∈ store.rows ∧ stored.row.id ∉ ids := by
  simp only [update, List.mem_map]
  constructor
  · rintro ⟨before, member, rfl⟩
    by_cases named : before.row.id ∈ ids
    · rw [if_pos named]
      exact Or.inl ⟨before, member, named, rfl⟩
    · rw [if_neg named]
      exact Or.inr ⟨member, named⟩
  · rintro (⟨before, member, named, rfl⟩ | ⟨member, other⟩)
    · exact ⟨before, member, if_pos named⟩
    · exact ⟨stored, member, if_neg other⟩

/-- A status that no changed row has before or after keeps its rows. -/
theorem withStatus_update_of_ne {ids : List String} {attempts : Int → Int}
    {status other : RowStatus} (after : status ≠ other)
    (before : ∀ stored ∈ store.rows, stored.row.id ∈ ids → stored.status ≠ other)
    : (store.update ids attempts status).withStatus other = store.withStatus other := by
  have kept : ∀ rows : List StoredRow,
      (∀ stored ∈ rows, stored.row.id ∈ ids → stored.status ≠ other)
      → (rows.map
            (fun stored =>
              if stored.row.id ∈ ids then stored.mark attempts status else stored)).filter
            (·.status = other)
        = rows.filter (·.status = other) := by
    intro rows
    induction rows with
    | nil => exact fun _ => rfl
    | cons stored rest ih =>
        intro unlike
        have later := ih (fun other member => unlike other (List.mem_cons_of_mem _ member))
        by_cases named : stored.row.id ∈ ids
        · have here := unlike stored (List.mem_cons_self ..) named
          simp [named, after, here, later]
        · simp [named, List.filter_cons, later]
  rw [withStatus, withStatus]
  exact congrArg (List.map _) (kept store.rows before)

/-- A row that takes on a status joins the rows of that status. -/
theorem withStatus_update_self {stored : StoredRow} {attempts : Int → Int}
    {status : RowStatus} (member : stored ∈ store.rows) (fresh : stored.status ≠ status)
    : ((store.update [stored.row.id] attempts status).withStatus status).Perm
        ((stored.mark attempts status).row :: store.withStatus status) := by
  obtain ⟨before, after, split⟩ := List.append_of_mem member
  have ids := store.distinct
  rw [split, List.map_append, List.map_cons] at ids
  have others : ∀ other ∈ before ++ after, other.row.id ∉ [stored.row.id] := by
    intro other among same
    rw [List.nodup_append, List.nodup_cons] at ids
    obtain ⟨_, ⟨fresh, _⟩, apart⟩ := ids
    rcases List.mem_append.mp among with early | late
    · exact apart _ (List.mem_map_of_mem early) _ (List.mem_cons_self ..)
        (List.mem_singleton.mp same)
    · exact fresh (List.mem_map.mpr ⟨other, late, List.mem_singleton.mp same⟩)
  have kept : ∀ rows : List StoredRow,
      (∀ other ∈ rows, other.row.id ∉ [stored.row.id])
      → rows.map
          (fun other =>
            if other.row.id ∈ [stored.row.id] then other.mark attempts status else other)
        = rows := by
    intro rows unnamed
    refine (List.map_congr_left fun other among => ?_).trans (List.map_id _)
    exact if_neg (unnamed other among)
  have early := kept before (fun other among => others other (List.mem_append_left _ among))
  have late := kept after (fun other among => others other (List.mem_append_right _ among))
  simp only [withStatus, update, split, List.map_append, List.map_cons, early, late,
    List.filter_append, List.filter_cons, fresh]
  simp

end OutboxStore
end SharedKernel.Outbox
