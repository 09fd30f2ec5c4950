import SharedKernel.Grpc.PermissionIntegrity

/-! How stale a cached membership can be: every positive answer goes back to a response of the
authority, of this very call or written to the store within the lifetime of the entry.
-/

namespace SharedKernel.Grpc

open Foundation Js Cache

/-- A step of the verifiers, the store and the authority, with the time it is taken at. -/
abbrev TimedLabel := Nat × PoolLabel MembershipEffects MembershipCall

/-- The pool of the verifiers' calls. -/
abbrev MembershipPool :=
  Pool MembershipEffects Thrown MembershipCheckResult MembershipCall MembershipWorld

/-- The steps of the verifiers, the store and the authority, with their times. -/
abbrev TimedStep : MembershipPool → TimedLabel → MembershipPool → Prop :=
  Stamped (fun pool => pool.world.clock) MembershipStep

/-- The calls started, in order. -/
def callsIn (labels : List TimedLabel) : List MembershipCall :=
  callsStarted (labels.map Prod.snd)

/-- Every entry of the store was set by a step before, at the time it carries. -/
structure StoreBacked (labels : List TimedLabel) (world : MembershipWorld) : Prop where
  written
    : ∀ key entry,
        world.entries key = some entry
        → ∃ writer reply,
            (entry.setAt, .answer writer ⟨.set key entry.value entry.ttlMs, reply⟩) ∈ labels
  past : ∀ key entry, world.entries key = some entry → entry.setAt ≤ world.clock

/-- Every value that is read was set by a step before, less than its lifetime ago. -/
def ReadFresh (before : List TimedLabel) (label : TimedLabel) : Prop :=
  ∀ reader key raw,
    label.2 = .answer reader ⟨.get key, .ok (some raw)⟩
    → ∃ writer writtenAt ttlMs reply,
        (writtenAt, .answer writer ⟨.set key raw ttlMs, reply⟩) ∈ before
        ∧ writtenAt ≤ label.1
        ∧ ttlMs.gt (.ofNat (label.1 - writtenAt)) = true

/-- A world with fewer entries, at the same time or later, is backed by the same steps and
more.
-/
theorem StoreBacked.mono {labels : List TimedLabel} {world next : MembershipWorld}
    (backed : StoreBacked labels world) (more : List TimedLabel)
    (fewer : ∀ key entry, next.entries key = some entry → world.entries key = some entry)
    (later : world.clock ≤ next.clock)
    : StoreBacked (labels ++ more) next := by
  constructor
  · intro key entry found
    obtain ⟨writer, reply, member⟩ := backed.written key entry (fewer key entry found)
    exact ⟨writer, reply, List.mem_append_left _ member⟩
  · intro key entry found
    exact (backed.past key entry (fewer key entry found)).trans later

/-- An answer keeps the store backed: an entry that it sets is set by its own step. -/
theorem StoreBacked.answered {labels : List TimedLabel} {world next : MembershipWorld}
    {event : MembershipEvent} (backed : StoreBacked labels world) (index : Nat)
    (answered : MembershipWorld.Answers world event next)
    : StoreBacked (labels ++ [(world.clock, .answer index event)]) next := by
  constructor
  · intro key entry found
    rcases answered.of_entry found with old | ⟨reply, rfl, setAt⟩
    · obtain ⟨writer, reply, member⟩ := backed.written key entry old
      exact ⟨writer, reply, List.mem_append_left _ member⟩
    · exact ⟨index, reply, by simp [setAt]⟩
  · intro key entry found
    rw [answered.clock]
    rcases answered.of_entry found with old | ⟨_, _, setAt⟩
    · exact backed.past key entry old
    · exact setAt.le

/-- What is read is an entry that has not expired. -/
theorem StoreBacked.readFresh {labels : List TimedLabel} {world next : MembershipWorld}
    {event : MembershipEvent} (backed : StoreBacked labels world) (index : Nat)
    (answered : MembershipWorld.Answers world event next)
    : ReadFresh labels (world.clock, .answer index event) := by
  intro reader key raw same
  cases same
  obtain ⟨entry, stored, rfl, fresh⟩ := answered.read
  obtain ⟨writer, reply, member⟩ := backed.written key entry stored
  exact ⟨writer, entry.setAt, entry.ttlMs, reply, member, backed.past key entry stored, fresh⟩

/-- In every run from an empty store, what is read was set less than its lifetime ago, by
induction on the run.
-/
theorem reads_fresh {world : MembershipWorld} {labels : List TimedLabel} {pool : MembershipPool}
    (empty : ∀ key, world.entries key = none)
    (run : Execution TimedStep (.start world) labels pool)
    : StoreBacked labels pool.world ∧ Throughout ReadFresh labels := by
  refine @Execution.invariant _ _ _ _ _ _
    (fun labels pool => StoreBacked labels pool.world ∧ Throughout ReadFresh labels) ?_ ?_ run
  · refine ⟨⟨fun key entry found => ?_, fun key entry found => ?_⟩, throughout_nil _⟩
    · cases (empty key).symm.trans found
    · cases (empty key).symm.trans found
  · intro labels pool label next held taken
    obtain ⟨backed, fresh⟩ := held
    obtain ⟨time, label⟩ := label
    obtain ⟨rfl, step⟩ := taken
    rw [throughout_snoc]
    cases step with
    | start call admits =>
        refine ⟨backed.mono _ (fun _ _ found => found) (Nat.le_refl _), fresh, ?_⟩
        intro reader key raw same
        cases same
    | answer reply waiting answered =>
        exact ⟨backed.answered _ answered, fresh, backed.readFresh _ answered⟩
    | drift moved =>
        refine ⟨backed.mono _ (fun _ _ found => moved.of_entry found) moved.clock_le, fresh, ?_⟩
        intro reader key raw same
        cases same

/-- What is written under the key of a user's membership is written by a check of that very
user, with its own lifetime, and repeats a response of the authority to that check.
-/
def EntryFromResponse (before : List TimedLabel) (label : TimedLabel) : Prop :=
  ∀ writer orgId userId raw ttlMs reply,
    label.2 = .answer writer ⟨.set (CacheKeys.membership orgId userId) raw ttlMs, reply⟩
    → NulFree orgId
    → ∃ check response askedAt,
        (callsIn before)[writer]? = some check
        ∧ check.orgId = orgId
        ∧ check.userId = userId
        ∧ ttlMs = check.verifier.cacheTtlMs
        ∧ (askedAt, .answer writer ⟨.checkMembership orgId userId, .ok response⟩) ∈ before
        ∧ raw = stringifyMembership { isMember := response.isMember, role := response.role }

/-- A stamped label stands where its label does. -/
theorem mem_of_mem_answersOf {labels : List TimedLabel} {index : Nat} {event : MembershipEvent}
    (member : event ∈ answersOf index (labels.map Prod.snd))
    : ∃ time, (time, .answer index event) ∈ labels := by
  obtain ⟨⟨time, label⟩, found, rfl⟩ := List.mem_map.mp (mem_answersOf.mp member)
  exact ⟨time, found⟩

/-- In every run, membership entries come from responses: none is renewed or copied from the
store; witness: every check writes its own responses only.
-/
theorem entries_from_responses {world : MembershipWorld} {labels : List TimedLabel}
    {pool : MembershipPool} (run : Execution TimedStep (.start world) labels pool)
    : Throughout EntryFromResponse labels := by
  intro before label after split writer orgId userId raw ttlMs reply same cleanOrg
  obtain ⟨time, label⟩ := label
  obtain rfl := same
  have split' := congrArg (List.map Prod.snd) split
  rw [List.map_append, List.map_cons] at split'
  obtain ⟨check, started, clean, ownTtl, response, responded, written⟩ :=
    writes_of_checks run.unstamped split' writer _ rfl
  obtain ⟨askedAt, asked⟩ := mem_of_mem_answersOf responded
  rcases written with ⟨key, value⟩ | ⟨role, key, _⟩
  · obtain ⟨rfl, rfl⟩ := (compositeKey_eq_iff cleanOrg clean.1).mp key
    exact ⟨check, response, askedAt, started, rfl, rfl, ownTtl, asked, value⟩
  · exact (CacheKeys.membership_ne_orgPermissions _ _ _ _ key).elim

/-- The membership that a check has read was confirmed by the authority to a check of the
same user, which wrote it to the store less than the lifetime of the entry before it is read.
-/
def BackedByWrite (labels : List TimedLabel) (index : Nat) (check : MembershipCall) : Prop :=
  ∃ first second third writer writtenAt readAt raw reply writing response askedAt,
    labels
      = first
        ++ (writtenAt,
            .answer writer
              ⟨.set (CacheKeys.membership check.orgId check.userId) raw
                  writing.verifier.cacheTtlMs,
                reply⟩)
          :: second
        ++ (readAt,
            .answer index
              ⟨.get (CacheKeys.membership check.orgId check.userId), .ok (some raw)⟩)
          :: third
    ∧ (callsIn first)[writer]? = some writing
    ∧ (askedAt, .answer writer ⟨.checkMembership check.orgId check.userId, .ok response⟩) ∈ first
    ∧ response.isMember = true
    ∧ writtenAt ≤ readAt
    ∧ writing.verifier.cacheTtlMs.gt (.ofNat (readAt - writtenAt)) = true

/-- A membership that is read from the store and says yes is backed by a write; witness: the
write that the store serves repeats a response.
-/
theorem cached_backed {world : MembershipWorld} {labels : List TimedLabel} {pool : MembershipPool}
    (empty : ∀ key, world.entries key = none)
    (run : Execution TimedStep (.start world) labels pool)
    {index : Nat} {check : MembershipCall} {history : List MembershipEvent}
    (clean : check.Clean) (answered : history = answersOf index (labels.map Prod.snd))
    {membership : CachedMembership} (cached : Cached check history membership)
    (member : membership.isMember = true)
    : BackedByWrite labels index check := by
  obtain ⟨raw, read, parsed⟩ := cached
  rw [answered] at read
  obtain ⟨readAt, found⟩ := mem_of_mem_answersOf read
  obtain ⟨before, third, split⟩ := List.append_of_mem found
  obtain ⟨writer, writtenAt, ttlMs, reply, wrote, past, alive⟩ :=
    (reads_fresh empty run).2 split index _ raw rfl
  obtain ⟨first, second, rfl⟩ := List.append_of_mem wrote
  have whole := split
  rw [List.append_assoc, List.cons_append] at whole
  obtain ⟨writing, response, askedAt, started, _, _, rfl, asked, rfl⟩ :=
    entries_from_responses run whole writer _ _ _ _ _ rfl clean.1
  obtain rfl := Option.some.inj ((parse_stringifyMembership _).symm.trans parsed)
  exact ⟨first, second, third, writer, writtenAt, readAt, _, reply, writing, response, askedAt,
    split, started, asked, member, past, alive⟩

/-- Membership is stale for one lifetime at most. In every run from an empty store, a check
that answers yes has a response of the authority that says so: one it was given itself, or
one that was written to the store less than the lifetime before the check read it. What is
written to the store always repeats a response to the call that writes it.
-/
theorem membership_backed {world : MembershipWorld} {labels : List TimedLabel}
    {pool : MembershipPool} (empty : ∀ key, world.entries key = none)
    (run : Execution TimedStep (.start world) labels pool)
    : Throughout EntryFromResponse labels
      ∧ ∀ index check history result,
          pool.threads[index]? = some { call := check, history, rest := .done result }
          → result.isMember = true
          → (∃ response, response.isMember = true ∧ Responded check history response)
            ∨ BackedByWrite labels index check := by
  refine ⟨entries_from_responses run, ?_⟩
  intro index check history result found member
  have own := (Pool.sound run.unstamped).threads index _ found
  have finished : Finishes check.program history (.ok result) := own.run
  cases finishes_checkMembership finished with
  | fetched response uncached responded =>
      exact Or.inl ⟨response, member, (responded response).mpr rfl⟩
  | denied membership cached stranger silent => cases member
  | served membership raw permissions cached confirmed read parsed silent =>
      exact Or.inr (cached_backed empty run own.admits own.answered cached confirmed)
  | refreshed membership response cached confirmed responded =>
      exact Or.inr (cached_backed empty run own.admits own.answered cached confirmed)

-- One user is checked twice, the second time on a warm store.

/-- The warm store at the last moment that its entries are served. -/
def agedStore : MembershipWorld :=
  { warmStore with clock := warmStore.clock + 29999 }

/-- The calls of a check that finds both entries. -/
def warmEvents : List MembershipEvent :=
  [
    ⟨.get (CacheKeys.membership "org-1" "user-1"), .ok (some (stringifyMembership adminEntry))⟩,
    ⟨.get (CacheKeys.orgPermissions "org-1" "ADMIN"),
      .ok (some (stringifyPermissions adminResponse.permissions))⟩
  ]

theorem warmEvents_run
    : Run sampleCheck.program warmEvents
        (.done { isMember := true, permissions := adminResponse.permissions }) := by
  refine .step _ ?_
  simp only [Program.settle, MembershipVerifier.membershipLookup, Program.done_bind,
    parse_adminEntry, Option.map]
  refine .step _ ?_
  simp only [MembershipVerifier.permissionsLookup, Program.settle, Program.done_bind,
    parse_stringifyPermissions]
  exact .refl _

theorem warmEvents_answered
    : Answered MembershipWorld.Answers agedStore warmEvents agedStore := by
  have different := CacheKeys.membership_ne_orgPermissions "org-1" "user-1" "org-1" "ADMIN"
  have alive : DEFAULT_CACHE_TTL_MS.gt (.ofNat (agedStore.clock - 0)) = true := by
    decide +kernel
  have same : agedStore.entries = warmStore.entries := rfl
  have membership : agedStore.entries (CacheKeys.membership "org-1" "user-1")
      = some { value := stringifyMembership adminEntry, setAt := 0, ttlMs := DEFAULT_CACHE_TTL_MS }
      := by
    rw [same]
    simp only [warmStore, MembershipWorld.put, emptyStore, if_true]
  have permissions : agedStore.entries (CacheKeys.orgPermissions "org-1" "ADMIN")
      = some
          {
            value := stringifyPermissions adminResponse.permissions
            setAt := 0
            ttlMs := DEFAULT_CACHE_TTL_MS
          } := by
    rw [same]
    simp only [warmStore, MembershipWorld.put, emptyStore, if_neg different.symm, if_true]
  refine .cons (.got _ ?_) (.cons (.got _ ?_) (.nil _))
  · rw [MembershipWorld.lookup, membership, Option.bind_some, if_pos alive]
  · rw [MembershipWorld.lookup, permissions, Option.bind_some, if_pos alive]

/-- The answer of the second check is backed by the write of the first. -/
theorem membership_backed_warm
    : ∃ labels,
        labels.map Prod.snd
          = coldLabels ++ [.drift] ++ .start sampleCheck :: warmEvents.map (.answer 1)
        ∧ BackedByWrite labels 1 sampleCheck := by
  have aged := coldLabels_execution.snoc (.drift (.passed _ 29999))
  have run := aged.trans (Pool.run_call sampleCheck_clean warmEvents_run warmEvents_answered)
  obtain ⟨labels, same, run⟩ := run.stamped (fun pool => pool.world.clock)
  refine ⟨labels, same, ?_⟩
  rcases (membership_backed (fun _ => rfl) run).2 1 sampleCheck warmEvents _ rfl rfl with
    ⟨response, _, responded⟩ | backed
  · simp [Responded, warmEvents] at responded
  · exact backed

end SharedKernel.Grpc
