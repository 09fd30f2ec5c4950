import SharedKernel.Outbox.OutboxStore

/-! The books of the outbox: what the table says about each row, against the calls that have
been answered.
-/

namespace SharedKernel.Outbox

open Foundation Js Messaging

-----------------------------------------------------------------------------------------
-- What the answered calls say
-----------------------------------------------------------------------------------------

/-- How often the publisher rejected the event of a row. -/
def failedPublishes (events : List OutboxEvent) (id : String) : Nat :=
  ((rejections events).map (·.id)).count id

/-- The rows whose event the publisher accepted. -/
def deliveries (events : List OutboxEvent) : List String :=
  (handovers events).filterMap fun
    | (envelope, .ok _) => some envelope.id
    | (_, .error _) => none

/-- The rows marked failed for good. -/
def exhausted (events : List OutboxEvent) : List String :=
  events.filterMap fun
    | ⟨.markFailed id currentAttempts _ maxAttempts, .ok _⟩ =>
        if maxAttempts ≤ currentAttempts + 1 then some id else none
    | _ => none

/-- A row that has been delivered or marked failed for good is not published again. -/
def NotAgain (before : List OutboxEvent) (event : OutboxEvent) : Prop :=
  match event.op with
  | .publish envelope => envelope.id ∉ deliveries before ∧ envelope.id ∉ exhausted before
  | _ => True

@[simp] theorem deliveries_append (head tail : List OutboxEvent)
    : deliveries (head ++ tail) = deliveries head ++ deliveries tail := by
  simp [deliveries]

@[simp] theorem exhausted_append (head tail : List OutboxEvent)
    : exhausted (head ++ tail) = exhausted head ++ exhausted tail :=
  List.filterMap_append

theorem failedPublishes_append (head tail : List OutboxEvent) (id : String)
    : failedPublishes (head ++ tail) id = failedPublishes head id + failedPublishes tail id := by
  simp [failedPublishes, List.count_append]

/-- A call that hands nothing over has no rejection and no delivery. -/
theorem snoc_of_unpublished (events : List OutboxEvent) {event : OutboxEvent}
    (unpublished : handovers [event] = [])
    : (∀ id, failedPublishes (events ++ [event]) id = failedPublishes events id)
      ∧ deliveries (events ++ [event]) = deliveries events := by
  constructor
  · intro id
    have none : failedPublishes [event] id = 0 := by
      rw [failedPublishes, rejections, unpublished]
      rfl
    rw [failedPublishes_append, none, Nat.add_zero]
  · have none : deliveries [event] = [] := by
      rw [deliveries, unpublished]
      rfl
    rw [deliveries_append, none, List.append_nil]

theorem exhausted_snoc (events : List OutboxEvent) {event : OutboxEvent}
    (unfailed : exhausted [event] = [])
    : exhausted (events ++ [event]) = exhausted events := by
  rw [exhausted_append, unfailed, List.append_nil]

-----------------------------------------------------------------------------------------
-- The rows that polls hold
-----------------------------------------------------------------------------------------

/-- The polls hold the rows in flight, as they are stored, and no row twice. -/
structure Owned (store : OutboxStore) (held : List ClaimedOutboxEvent) : Prop where
  distinct : (held.map (·.id)).Nodup
  inflight : ∀ row, row ∈ held ↔ ⟨row, .inflight⟩ ∈ store.rows

variable {store later : OutboxStore} {before after held : List ClaimedOutboxEvent}
  {row : ClaimedOutboxEvent} {rest batch : List ClaimedOutboxEvent}

/-- A claim takes rows that no poll holds. -/
theorem Owned.claim (owned : Owned store (before ++ after))
    (pending : ∀ row ∈ batch, ⟨row, .pending⟩ ∈ store.rows)
    (distinct : (batch.map (·.id)).Nodup)
    : Owned (store.update (batch.map (·.id)) id .inflight) (before ++ (batch ++ after)) := by
  have apart : ∀ row ∈ before ++ after, row.id ∉ batch.map (·.id) := by
    intro row member named
    obtain ⟨other, claimed, same⟩ := List.mem_map.mp named
    have equal := store.eq_of_id (pending other claimed) ((owned.inflight row).mp member) same
    cases equal
  have moved : (before ++ (batch ++ after)).Perm (batch ++ (before ++ after)) :=
    List.perm_append_comm_assoc before batch after
  constructor
  · rw [(moved.map (·.id)).nodup_iff, List.map_append, List.nodup_append]
    refine ⟨distinct, owned.distinct, ?_⟩
    rintro named claimed _ member rfl
    obtain ⟨row, among, rfl⟩ := List.mem_map.mp member
    exact apart row among claimed
  · intro row
    rw [moved.mem_iff, List.mem_append, OutboxStore.mem_update, owned.inflight]
    constructor
    · rintro (claimed | inflight)
      · exact Or.inl
          ⟨⟨row, .pending⟩, pending row claimed, List.mem_map_of_mem claimed, rfl⟩
      · exact Or.inr ⟨inflight, apart row ((owned.inflight row).mpr inflight)⟩
    · rintro (⟨stored, member, named, same⟩ | ⟨inflight, _⟩)
      · obtain ⟨other, claimed, sameId⟩ := List.mem_map.mp named
        obtain rfl := store.eq_of_id (pending other claimed) member sameId
        cases same
        exact Or.inl claimed
      · exact Or.inr inflight

/-- A marked row is no longer held. -/
theorem Owned.mark (owned : Owned store (before ++ (row :: rest ++ after)))
    {attempts : Int → Int} {status : RowStatus} (other : status ≠ .inflight)
    : Owned (store.update [row.id] attempts status) (before ++ (rest ++ after)) := by
  have moved : (before ++ (row :: rest ++ after)).Perm (row :: (before ++ (rest ++ after))) :=
    List.perm_middle
  have distinct := owned.distinct
  rw [(moved.map (·.id)).nodup_iff, List.map_cons, List.nodup_cons] at distinct
  obtain ⟨fresh, distinct⟩ := distinct
  refine ⟨distinct, fun held => ?_⟩
  rw [OutboxStore.mem_update, ← owned.inflight, moved.mem_iff, List.mem_cons,
    List.mem_singleton]
  constructor
  · intro member
    refine Or.inr ⟨Or.inr member, fun same => fresh ?_⟩
    rw [← same]
    exact List.mem_map_of_mem member
  · rintro (⟨stored, _, _, absurd⟩ | ⟨rfl | member, differs⟩)
    · exact (other (congrArg StoredRow.status absurd).symm).elim
    · exact (differs rfl).elim
    · exact member

/-- A held row is stored, in flight. -/
theorem Owned.stored (owned : Owned store (before ++ (row :: rest ++ after)))
    : ⟨row, .inflight⟩ ∈ store.rows :=
  (owned.inflight row).mp (by simp)

/-- A new row is held by no poll. -/
theorem Owned.append (owned : Owned store held) (appends : store.Appends later)
    : Owned later held := by
  obtain ⟨stored, ⟨pending, _⟩, rows⟩ := appends
  refine ⟨owned.distinct, fun row => ?_⟩
  rw [owned.inflight, rows, List.mem_append, List.mem_singleton]
  constructor
  · exact Or.inl
  · rintro (member | rfl)
    · exact member
    · cases pending

-----------------------------------------------------------------------------------------
-- The books of the store
-----------------------------------------------------------------------------------------

/-- The books agree with the calls answered so far, up to the rows that a poll is about to
mark: those whose event was just rejected, and those whose event was just accepted.
-/
structure Books (maxAttempts : Int) (events : List OutboxEvent) (store : OutboxStore)
    (failing marking : List String)
    : Prop where
  charged
    : ∀ stored ∈ store.rows,
        stored.row.attempts + failing.count stored.row.id
        = failedPublishes events stored.row.id
  alive
    : ∀ stored ∈ store.rows,
        stored.status ≠ .failedDlq → stored.row.attempts < maxAttempts
  dead
    : ∀ stored ∈ store.rows,
        stored.status = .failedDlq → stored.row.attempts = maxAttempts
  known : ∀ id, failedPublishes events id ≠ 0 → id ∈ store.rows.map (·.row.id)
  delivered
    : ∀ id ∈ deliveries events,
        id ∈ marking ∨ ∃ stored ∈ store.rows, stored.row.id = id ∧ stored.status = .processed
  exhausted
    : ∀ id ∈ exhausted events,
        ∃ stored ∈ store.rows, stored.row.id = id ∧ stored.status = .failedDlq

variable {maxAttempts : Int} {events : List OutboxEvent} {failing marking : List String}

/-- A call that publishes nothing and marks nothing failed leaves the books as they are. -/
theorem Books.silent (books : Books maxAttempts events store failing marking)
    (event : OutboxEvent) (unpublished : handovers [event] = [])
    (unfailed : SharedKernel.Outbox.exhausted [event] = [])
    : Books maxAttempts (events ++ [event]) store failing marking := by
  obtain ⟨same, sent⟩ := snoc_of_unpublished events unpublished
  have failed := exhausted_snoc events unfailed
  exact
    {
      charged := fun stored member => by rw [same]; exact books.charged stored member
      alive := books.alive
      dead := books.dead
      known := fun id some_failed => books.known id (by rwa [same] at some_failed)
      delivered := fun id member => books.delivered id (by rwa [sent] at member)
      exhausted := fun id member => books.exhausted id (by rwa [failed] at member)
    }

/-- Claimed rows keep their books: they were pending, and their attempts are unchanged. -/
theorem Books.claim (books : Books maxAttempts events store failing marking)
    (pending : ∀ row ∈ batch, ⟨row, .pending⟩ ∈ store.rows)
    : Books maxAttempts events (store.update (batch.map (·.id)) id .inflight) failing
        marking := by
  have unclaimed : ∀ stored ∈ store.rows,
      stored.status ≠ .pending → stored.row.id ∉ batch.map (·.id) := by
    intro stored member other named
    obtain ⟨row, claimed, same⟩ := List.mem_map.mp named
    obtain rfl := store.eq_of_id (pending row claimed) member same
    exact other rfl
  have kept : ∀ stored ∈ store.rows, stored.status ≠ .pending
      → stored ∈ (store.update (batch.map (·.id)) id .inflight).rows :=
    fun stored member other =>
      OutboxStore.mem_update.mpr (Or.inr ⟨member, unclaimed stored member other⟩)
  constructor
  · intro stored member
    rcases OutboxStore.mem_update.mp member with ⟨before, among, _, rfl⟩ | ⟨among, _⟩
    · exact books.charged before among
    · exact books.charged stored among
  · intro stored member living
    rcases OutboxStore.mem_update.mp member with ⟨before, among, named, rfl⟩ | ⟨among, _⟩
    · refine books.alive before among (fun dead => ?_)
      exact unclaimed before among (by simp [dead]) named
    · exact books.alive stored among living
  · intro stored member dead
    rcases OutboxStore.mem_update.mp member with ⟨before, among, _, rfl⟩ | ⟨among, _⟩
    · cases dead
    · exact books.dead stored among dead
  · intro id some_failed
    obtain ⟨stored, among, rfl⟩ := List.mem_map.mp (books.known id some_failed)
    by_cases named : stored.row.id ∈ batch.map (·.id)
    · exact List.mem_map.mpr
        ⟨_, OutboxStore.mem_update.mpr (Or.inl ⟨stored, among, named, rfl⟩), rfl⟩
    · exact List.mem_map_of_mem (OutboxStore.mem_update.mpr (Or.inr ⟨among, named⟩))
  · intro id member
    rcases books.delivered id member with marked | ⟨stored, among, same, processed⟩
    · exact Or.inl marked
    · exact Or.inr ⟨stored, kept stored among (by simp [processed]), same, processed⟩
  · intro id member
    obtain ⟨stored, among, same, dead⟩ := books.exhausted id member
    exact ⟨stored, kept stored among (by simp [dead]), same, dead⟩

/-- An accepted event is about to be marked processed. -/
theorem Books.published (books : Books maxAttempts events store failing marking)
    {envelope : CloudEvent} {marking' : List String}
    (about : ∀ id, id ∈ marking' ↔ id = envelope.id ∨ id ∈ marking)
    : Books maxAttempts (events ++ [⟨.publish envelope, .ok ()⟩]) store failing marking' := by
  have same : ∀ id, failedPublishes (events ++ [⟨.publish envelope, .ok ()⟩]) id
      = failedPublishes events id := by
    intro id
    rw [failedPublishes_append]
    rfl
  have failed := @exhausted_snoc events ⟨.publish envelope, .ok ()⟩ rfl
  refine
    {
      charged := fun stored member => by rw [same]; exact books.charged stored member
      alive := books.alive
      dead := books.dead
      known := fun id some_failed => books.known id (by rwa [same] at some_failed)
      delivered := fun id member => ?_
      exhausted := fun id member => books.exhausted id (by rwa [failed] at member)
    }
  rw [deliveries_append, List.mem_append] at member
  rcases member with earlier | now
  · exact (books.delivered id earlier).imp_left (fun marked => (about id).mpr (Or.inr marked))
  · have here : id = envelope.id := by simpa [deliveries, handovers] using now
    exact Or.inl ((about id).mpr (Or.inl here))

/-- A rejected event charges its row, which is about to be marked failed. -/
theorem Books.rejected (books : Books maxAttempts events store failing marking)
    {envelope : CloudEvent} {err : Thrown} {failing' : List String}
    (known : envelope.id ∈ store.rows.map (·.row.id))
    (about : failing'.Perm (envelope.id :: failing))
    : Books maxAttempts (events ++ [⟨.publish envelope, .error err⟩]) store failing'
        marking := by
  have counted : ∀ id, failedPublishes (events ++ [⟨.publish envelope, .error err⟩]) id
      = failedPublishes events id + [envelope.id].count id := by
    intro id
    rw [failedPublishes_append]
    rfl
  have sent : deliveries (events ++ [⟨.publish envelope, .error err⟩]) = deliveries events := by
    rw [deliveries_append]
    exact List.append_nil _
  have failed := @exhausted_snoc events ⟨.publish envelope, .error err⟩ rfl
  refine
    {
      charged := fun stored member => ?_
      alive := books.alive
      dead := books.dead
      known := fun id some_failed => ?_
      delivered := fun id member => books.delivered id (by rwa [sent] at member)
      exhausted := fun id member => books.exhausted id (by rwa [failed] at member)
    }
  · have before := books.charged stored member
    rw [counted, about.count_eq, List.count_cons, List.count_singleton]
    push_cast
    omega
  · rw [counted] at some_failed
    by_cases same : id = envelope.id
    · rw [same]
      exact known
    · have other : [envelope.id].count id = 0 := by
        rw [List.count_eq_zero, List.mem_singleton]
        exact same
      exact books.known id (by omega)

/-- What an update of one row in flight leaves as it was. -/
theorem mem_update_single {row : ClaimedOutboxEvent} {attempts : Int → Int}
    {status : RowStatus} (inflight : ⟨row, .inflight⟩ ∈ store.rows) {stored : StoredRow}
    : stored ∈ (store.update [row.id] attempts status).rows
      ↔ stored = StoredRow.mark ⟨row, .inflight⟩ attempts status
        ∨ stored ∈ store.rows ∧ stored.row.id ≠ row.id := by
  rw [OutboxStore.mem_update]
  constructor
  · rintro (⟨before, among, named, rfl⟩ | ⟨among, other⟩)
    · obtain rfl := store.eq_of_id among inflight (List.mem_singleton.mp named)
      exact Or.inl rfl
    · exact Or.inr ⟨among, fun same => other (List.mem_singleton.mpr same)⟩
  · rintro (rfl | ⟨among, other⟩)
    · exact Or.inl ⟨_, inflight, List.mem_singleton_self _, rfl⟩
    · exact Or.inr ⟨among, fun named => other (List.mem_singleton.mp named)⟩

/-- A row in flight is neither processed nor failed for good. -/
theorem ne_of_inflight {row : ClaimedOutboxEvent} (inflight : ⟨row, .inflight⟩ ∈ store.rows)
    {stored : StoredRow} (member : stored ∈ store.rows) (other : stored.status ≠ .inflight)
    : stored.row.id ≠ row.id := by
  intro same
  obtain rfl := store.eq_of_id member inflight same
  exact other rfl

/-- A row that is not in flight survives the update of one that is. -/
theorem mem_update_of_settled {row : ClaimedOutboxEvent} {attempts : Int → Int}
    {status : RowStatus} (inflight : ⟨row, .inflight⟩ ∈ store.rows) {stored : StoredRow}
    (among : stored ∈ store.rows) (other : stored.status ≠ .inflight)
    : stored ∈ (store.update [row.id] attempts status).rows :=
  (mem_update_single inflight).mpr (Or.inr ⟨among, ne_of_inflight inflight among other⟩)

theorem mem_ids_update {row : ClaimedOutboxEvent} {attempts : Int → Int} {status : RowStatus}
    (inflight : ⟨row, .inflight⟩ ∈ store.rows) {id : String}
    (known : id ∈ store.rows.map (·.row.id))
    : id ∈ (store.update [row.id] attempts status).rows.map (·.row.id) := by
  obtain ⟨stored, among, rfl⟩ := List.mem_map.mp known
  by_cases same : stored.row.id = row.id
  · exact List.mem_map.mpr ⟨_, (mem_update_single inflight).mpr (Or.inl rfl), same.symm⟩
  · exact List.mem_map_of_mem ((mem_update_single inflight).mpr (Or.inr ⟨among, same⟩))

/-- A row marked processed is delivered for good. -/
theorem Books.marked (books : Books maxAttempts events store failing marking)
    (inflight : ⟨row, .inflight⟩ ∈ store.rows) {marking' : List String}
    (about : ∀ id ∈ marking, id = row.id ∨ id ∈ marking')
    : Books maxAttempts (events ++ [⟨.markProcessed row.id, .ok ()⟩])
        (store.update [row.id] (fun attempts => attempts) .processed) failing marking' := by
  have silent := books.silent ⟨.markProcessed row.id, .ok ()⟩ rfl rfl
  constructor
  · intro stored member
    rcases (mem_update_single inflight).mp member with rfl | ⟨among, _⟩
    · exact silent.charged ⟨row, .inflight⟩ inflight
    · exact silent.charged stored among
  · intro stored member living
    rcases (mem_update_single inflight).mp member with rfl | ⟨among, _⟩
    · exact silent.alive ⟨row, .inflight⟩ inflight (by simp)
    · exact silent.alive stored among living
  · intro stored member dead
    rcases (mem_update_single inflight).mp member with rfl | ⟨among, _⟩
    · cases dead
    · exact silent.dead stored among dead
  · exact fun id some_failed => mem_ids_update inflight (silent.known id some_failed)
  · intro id member
    have processed : id = row.id → ∃ stored
        ∈ (store.update [row.id] (fun attempts => attempts) .processed).rows,
        stored.row.id = id ∧ stored.status = .processed :=
      fun same => ⟨_, (mem_update_single inflight).mpr (Or.inl rfl), same.symm, rfl⟩
    rcases silent.delivered id member with marked | ⟨stored, among, same, processed'⟩
    · rcases about id marked with here | still
      · exact Or.inr (processed here)
      · exact Or.inl still
    · exact Or.inr
        ⟨stored, mem_update_of_settled inflight among (by simp [processed']), same, processed'⟩
  · intro id member
    obtain ⟨stored, among, same, dead⟩ := silent.exhausted id member
    exact ⟨stored, mem_update_of_settled inflight among (by simp [dead]), same, dead⟩

/-- A row marked failed is charged in the books, and dead exactly when its budget is used up.
-/
theorem Books.failed (books : Books maxAttempts events store failing marking)
    (inflight : ⟨row, .inflight⟩ ∈ store.rows) {error : String} {failing' : List String}
    (about : failing.Perm (row.id :: failing'))
    : Books maxAttempts
        (events ++ [⟨.markFailed row.id row.attempts error maxAttempts, .ok ()⟩])
        (store.update [row.id] (fun _ => row.attempts + 1)
          (if maxAttempts ≤ row.attempts + 1 then .failedDlq else .pending))
        failing' marking := by
  obtain ⟨same, sent⟩ :=
    @snoc_of_unpublished events ⟨.markFailed row.id row.attempts error maxAttempts, .ok ()⟩ rfl
  have below := books.alive ⟨row, .inflight⟩ inflight (by simp)
  simp only at below
  constructor
  · intro stored member
    rw [same]
    rcases (mem_update_single inflight).mp member with rfl | ⟨among, other⟩
    · have before := books.charged ⟨row, .inflight⟩ inflight
      rw [about.count_eq, List.count_cons_self] at before
      simp only [StoredRow.mark] at before ⊢
      push_cast at before
      omega
    · have before := books.charged stored among
      rwa [about.count_eq, List.count_cons_of_ne (Ne.symm other)] at before
  · intro stored member living
    rcases (mem_update_single inflight).mp member with rfl | ⟨among, _⟩
    · by_cases spent : maxAttempts ≤ row.attempts + 1
      · simp [spent] at living
      · simp only [StoredRow.mark]
        omega
    · exact books.alive stored among living
  · intro stored member dead
    rcases (mem_update_single inflight).mp member with rfl | ⟨among, _⟩
    · by_cases spent : maxAttempts ≤ row.attempts + 1
      · simp only [StoredRow.mark]
        omega
      · simp [spent] at dead
    · exact books.dead stored among dead
  · exact fun id some_failed =>
      mem_ids_update inflight (books.known id (by rwa [same] at some_failed))
  · intro id member
    rw [sent] at member
    apply (books.delivered id member).imp_right
    rintro ⟨stored, among, sameId, processed⟩
    exact
      ⟨stored, mem_update_of_settled inflight among (by simp [processed]), sameId, processed⟩
  · intro id member
    rw [exhausted_append, List.mem_append] at member
    rcases member with earlier | now
    · obtain ⟨stored, among, sameId, dead⟩ := books.exhausted id earlier
      exact ⟨stored, mem_update_of_settled inflight among (by simp [dead]), sameId, dead⟩
    · by_cases spent : maxAttempts ≤ row.attempts + 1
      · have here : id = row.id := by
          simpa [SharedKernel.Outbox.exhausted, spent] using now
        exact ⟨_, (mem_update_single inflight).mpr (Or.inl rfl), here.symm, by simp [spent]⟩
      · simp [SharedKernel.Outbox.exhausted, spent] at now

/-- A new row has empty books. -/
theorem Books.append (books : Books maxAttempts events store failing marking)
    (positive : 0 < maxAttempts) (appends : store.Appends later)
    (known : ∀ id ∈ failing, id ∈ store.rows.map (·.row.id))
    : Books maxAttempts events later failing marking := by
  obtain ⟨stored, ⟨pending, unattempted⟩, rows⟩ := appends
  have fresh : stored.row.id ∉ store.rows.map (·.row.id) := by
    have distinct := later.distinct
    rw [rows, List.map_append, List.nodup_append] at distinct
    intro known
    exact distinct.2.2 _ known _ (List.mem_singleton_self _) rfl
  have uncharged : failedPublishes events stored.row.id = 0 := by
    by_contra some_failed
    exact fresh (books.known _ some_failed)
  have unfailing : failing.count stored.row.id = 0 :=
    List.count_eq_zero.mpr (fun member => fresh (known _ member))
  constructor
  · intro other member
    rcases List.mem_append.mp (rows ▸ member) with among | new
    · exact books.charged other among
    · obtain rfl := List.mem_singleton.mp new
      rw [uncharged, unfailing, unattempted]
      rfl
  · intro other member living
    rcases List.mem_append.mp (rows ▸ member) with among | new
    · exact books.alive other among living
    · obtain rfl := List.mem_singleton.mp new
      rwa [unattempted]
  · intro other member dead
    rcases List.mem_append.mp (rows ▸ member) with among | new
    · exact books.dead other among dead
    · obtain rfl := List.mem_singleton.mp new
      rw [pending] at dead
      cases dead
  · intro id some_failed
    rw [rows, List.map_append, List.mem_append]
    exact Or.inl (books.known id some_failed)
  · intro id member
    apply (books.delivered id member).imp_right
    rintro ⟨other, among, same⟩
    exact ⟨other, by rw [rows]; exact List.mem_append_left _ among, same⟩
  · intro id member
    obtain ⟨other, among, same⟩ := books.exhausted id member
    exact ⟨other, by rw [rows]; exact List.mem_append_left _ among, same⟩

end SharedKernel.Outbox
