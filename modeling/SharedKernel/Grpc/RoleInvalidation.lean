import SharedKernel.Grpc.MembershipStaleness

/-! What a deletion of a role's entry achieves after the permissions of the role have changed:
checks that start later answer the new permissions, unless a check that was under way writes
back what it was answered before the change.
-/

namespace SharedKernel.Grpc

open Foundation Js Cache

abbrev MembershipLabel := PoolLabel MembershipEffects MembershipCall

/-- Nothing rejects: neither the store nor the authority. -/
def Answering (labels : List MembershipLabel) : Prop :=
  ∀ index event,
    .answer index event ∈ labels
    → match event with
      | ⟨.get _, reply⟩ => ∃ entry, reply = .ok entry
      | ⟨.set _ _ _, reply⟩ => reply = .ok ()
      | ⟨.checkMembership _ _, reply⟩ => ∃ response, reply = .ok response

/-- A run in which the permissions of a role change after `before`, and the entry of the role
is deleted after `since`.
-/
structure Invalidated (orgId role : String) (permissions : List String)
    (world : MembershipWorld) (before since : List MembershipLabel)
    (pool
      : Pool MembershipEffects Thrown MembershipCheckResult MembershipCall MembershipWorld)
    (later : List MembershipLabel)
    (last
      : Pool MembershipEffects Thrown MembershipCheckResult MembershipCall MembershipWorld)
    : Prop where
  first : Execution MembershipStep (.start world) (before ++ since) pool
  second
    : Execution MembershipStep
        { pool with world := pool.world.del (CacheKeys.orgPermissions orgId role) } later last
  changed
    : ∀ asker userId response,
        .answer asker ⟨.checkMembership orgId userId, .ok response⟩ ∈ since ++ later
        → response.role = role
        → response.permissions = permissions
  answering : Answering (before ++ since ++ later)

/-- All that a check learns about its user is that the user is a member with this role. -/
structure HoldsRole (check : MembershipCall) (history : List MembershipEvent) (role : String)
    : Prop where
  cached
    : ∀ cached, Cached check history cached → cached.isMember = true ∧ cached.role = role
  responded
    : ∀ response,
        Responded check history response → response.isMember = true ∧ response.role = role

/-- Who writes under the key of the role has been given no response before the change, and
none with another role.
-/
def WritesChanged (orgId role : String) (before since earlier : List MembershipLabel)
    (label : MembershipLabel)
    : Prop :=
  ∀ writer raw ttlMs reply userId response,
    label = .answer writer ⟨.set (CacheKeys.orgPermissions orgId role) raw ttlMs, reply⟩
    → .answer writer ⟨.checkMembership orgId userId, .ok response⟩
        ∈ before ++ since ++ .drift :: earlier
    → .answer writer ⟨.checkMembership orgId userId, .ok response⟩ ∉ before
      ∧ response.role = role

section Invalidated

variable {orgId role : String} {permissions : List String} {world : MembershipWorld}
  {before since later : List MembershipLabel}
  {pool last
    : Pool MembershipEffects Thrown MembershipCheckResult MembershipCall MembershipWorld}

/-- The run as a whole. -/
theorem Invalidated.run
    (setting : Invalidated orgId role permissions world before since pool later last)
    : Execution MembershipStep (.start world) (before ++ since ++ .drift :: later) last :=
  setting.first.trans (.cons (.drift (.deleted _ _)) setting.second)

/-- In every run, what is written under the key of a role repeats a response to the writing
check.
-/
theorem writes_from_responses {labels : List MembershipLabel}
    (run : Execution MembershipStep (.start world) labels last)
    : Throughout
        (fun earlier label =>
          ∀ writer raw ttlMs reply,
            label = .answer writer ⟨.set (CacheKeys.orgPermissions orgId role) raw ttlMs, reply⟩
            → NulFree orgId
            → ∃ userId response,
                .answer writer ⟨.checkMembership orgId userId, .ok response⟩ ∈ earlier
                ∧ raw = stringifyPermissions response.permissions)
        labels := by
  intro earlier label rest split writer raw ttlMs reply same cleanOrg
  subst same
  obtain ⟨check, _, clean, _, response, responded, written⟩ :=
    writes_of_checks run split writer _ rfl
  rcases written with ⟨key, _⟩ | ⟨role', key, value⟩
  · exact (CacheKeys.membership_ne_orgPermissions _ _ _ _ key.symm).elim
  · obtain ⟨rfl, rfl⟩ := (compositeKey_eq_iff cleanOrg clean.1).mp key
    exact ⟨check.userId, response, mem_answersOf.mp responded, value⟩

/-- After the deletion every write under the key of the role writes the changed permissions.
-/
theorem Invalidated.writes
    (setting : Invalidated orgId role permissions world before since pool later last)
    (clean : NulFree orgId) (fresh : Throughout (WritesChanged orgId role before since) later)
    : ∀ writer raw ttlMs reply,
        .answer writer ⟨.set (CacheKeys.orgPermissions orgId role) raw ttlMs, reply⟩ ∈ later
        → raw = stringifyPermissions permissions := by
  intro writer raw ttlMs reply member
  obtain ⟨earlier, rest, split⟩ := List.append_of_mem member
  have whole
      : before ++ since ++ .drift :: later
        = (before ++ since ++ .drift :: earlier)
          ++ .answer writer ⟨.set (CacheKeys.orgPermissions orgId role) raw ttlMs, reply⟩
            :: rest := by
    rw [split]
    simp only [List.append_assoc, List.cons_append]
  obtain ⟨userId, response, asked, rfl⟩ :=
    writes_from_responses setting.run whole writer _ _ _ rfl clean
  obtain ⟨uninformed, sameRole⟩ := fresh split writer _ _ _ userId response rfl asked
  have recent
      : .answer writer ⟨.checkMembership orgId userId, .ok response⟩ ∈ since ++ later := by
    rw [split]
    simp only [List.mem_append, List.mem_cons, reduceCtorEq, false_or] at asked ⊢
    tauto
  rw [setting.changed writer userId response recent sameRole]

/-- Where all that is written under a key is one value, and nothing else was there, nothing
else is read; witness: the entry is absent or has that value, by induction on the run.
-/
theorem reads_written {key value : String}
    {start
      : Pool MembershipEffects Thrown MembershipCheckResult MembershipCall MembershipWorld}
    (run : Execution MembershipStep start later last)
    (absent : start.world.entries key = none)
    (writes
      : ∀ writer raw ttlMs reply,
          .answer writer ⟨.set key raw ttlMs, reply⟩ ∈ later → raw = value)
    : (∀ entry, last.world.entries key = some entry → entry.value = value)
      ∧ ∀ reader raw, .answer reader ⟨.get key, .ok (some raw)⟩ ∈ later → raw = value := by
  induction run with
  | start =>
      constructor
      · intro entry found
        cases absent.symm.trans found
      · intro reader raw absurd
        cases absurd
  | @snoc labels pool label next _ taken ih =>
      obtain ⟨stored, read⟩ := ih (fun writer raw ttlMs reply member =>
        writes writer raw ttlMs reply (List.mem_append_left _ member))
      cases taken with
      | start call admits =>
          refine ⟨stored, fun reader raw member => ?_⟩
          simp only [List.mem_append, List.mem_singleton, reduceCtorEq, or_false] at member
          exact read reader raw member
      | @answer index call history op resume world' reply waiting answered =>
          constructor
          · intro entry found
            rcases answered.of_entry found with old | ⟨reply, same, _⟩
            · exact stored entry old
            · rw [same] at writes
              exact writes index entry.value entry.ttlMs reply (by simp)
          · intro reader raw member
            rcases List.mem_append.mp member with earlier | last
            · exact read reader raw earlier
            · cases List.mem_singleton.mp last
              obtain ⟨entry, present, rfl, _⟩ := answered.read
              exact stored entry present
      | drift moved =>
          refine
            ⟨fun entry found => stored entry (moved.of_entry found), fun reader raw member => ?_⟩
          simp only [List.mem_append, List.mem_singleton, reduceCtorEq, or_false] at member
          exact read reader raw member

/-- Who starts after the deletion has all its calls answered after it. -/
theorem Invalidated.history
    (setting : Invalidated orgId role permissions world before since pool later last)
    {index : Nat} (late : pool.threads.length ≤ index)
    {thread : Thread MembershipEffects Thrown MembershipCheckResult MembershipCall}
    (found : last.threads[index]? = some thread)
    : thread.history = answersOf index later := by
  have silent : answersOf index (before ++ since) = [] :=
    (Pool.sound setting.first).silent index late
  have own := ((Pool.sound setting.run).threads index thread found).answered
  rw [answersOf_append, silent, List.nil_append] at own
  exact own

/-- An invalidation is not undone: where all that is written under the key of the role after
the deletion comes from responses given since the change, a check of a member with the role
that starts after the deletion answers the changed permissions; witness: the ways a check can
end, each of which draws on a response or on the entry of the role.
-/
theorem invalidation_not_undone
    (setting : Invalidated orgId role permissions world before since pool later last)
    (fresh : Throughout (WritesChanged orgId role before since) later)
    {index : Nat} (late : pool.threads.length ≤ index)
    {check : MembershipCall} {history : List MembershipEvent}
    {outcome : Except Thrown MembershipCheckResult}
    (found : last.threads[index]? = some { call := check, history, rest := .settle outcome })
    (sameOrg : check.orgId = orgId) (holds : HoldsRole check history role)
    : outcome = .ok { isMember := true, permissions } := by
  subst sameOrg
  have own := (Pool.sound setting.run).threads index _ found
  have seen : history = answersOf index later := setting.history late found
  have reads := (reads_written setting.second (by simp [MembershipWorld.del])
    (setting.writes own.admits.1 fresh)).2 index
  have given
      : ∀ response,
          Responded check history response → response.permissions = permissions := by
    intro response responded
    refine setting.changed index check.userId response ?_ (holds.responded response responded).2
    rw [Responded, seen] at responded
    exact List.mem_append_right _ (mem_answersOf.mp responded)
  have finished : Finishes check.program history outcome := own.run
  cases finishes_checkMembership finished with
  | fetched response uncached responded =>
      have told := (responded response).mpr rfl
      simp [answerOf, (holds.responded response told).1, given response told]
  | denied membership cached stranger silent =>
      cases stranger.symm.trans (holds.cached membership cached).1
  | served membership raw permissions' cached member read parsed silent =>
      rw [(holds.cached membership cached).2, seen] at read
      obtain rfl := reads raw (mem_answersOf.mp read)
      obtain rfl := Option.some.inj ((parse_stringifyPermissions _).symm.trans parsed)
      rfl
  | refreshed membership response cached member responded =>
      rw [given response ((responded response).mpr rfl)]
  | failed err asked silent =>
      rw [seen] at asked
      have answered := setting.answering index _
        (List.mem_append_right _ (mem_answersOf.mp asked))
      obtain ⟨response, absurd⟩ := answered
      cases absurd

end Invalidated

-- The permissions of ADMIN change while a first check is answered.

def changedResponse : MembershipRpcResult :=
  { isMember := true, permissions := ["billing:view"], role := "ADMIN" }

/-- The authority once the permissions have changed. -/
def MembershipWorld.changed (world : MembershipWorld) : MembershipWorld :=
  { world with authority := fun _ _ => changedResponse }

theorem default_ttl_positive : DEFAULT_CACHE_TTL_MS.gt (.ofNat 0) = true := by
  decide +kernel

/-- Who reads the ADMIN entry, and hears of the changed permissions at most, is an ADMIN. -/
theorem holdsRole_sample {history : List MembershipEvent}
    (reads
      : ∀ raw,
          ⟨.get (CacheKeys.membership sampleCheck.orgId sampleCheck.userId), .ok (some raw)⟩
            ∈ history
          → raw = stringifyMembership adminEntry)
    (responses : ∀ response, Responded sampleCheck history response → response = changedResponse)
    : HoldsRole sampleCheck history "ADMIN" := by
  constructor
  · intro cached found
    obtain ⟨raw, read, parsed⟩ := found
    obtain rfl := reads raw read
    cases parse_adminEntry.symm.trans parsed
    exact ⟨rfl, rfl⟩
  · intro response responded
    obtain rfl := responses response responded
    exact ⟨rfl, rfl⟩

/-- The labels of the check after the deletion. -/
def changedLabels : List MembershipLabel :=
  .start sampleCheck :: (refreshedEvents changedResponse).map (.answer 1)

/-- A check with nothing in flight at the deletion answers the changed permissions. -/
theorem invalidation_not_undone_quiet
    : ∃ pool last history outcome,
        Invalidated "org-1" "ADMIN" changedResponse.permissions (emptyStore adminResponse)
          coldLabels [.drift] pool changedLabels last
        ∧ last.threads[1]? = some { call := sampleCheck, history, rest := .settle outcome }
        ∧ outcome = .ok { isMember := true, permissions := changedResponse.permissions } := by
  obtain ⟨world, answered⟩ :=
    @refreshedEvents_answered
      (warmStore.changed.del (CacheKeys.orgPermissions "org-1" "ADMIN")) changedResponse rfl rfl
  have setting : Invalidated "org-1" "ADMIN" changedResponse.permissions
      (emptyStore adminResponse) coldLabels [.drift] _ changedLabels _ :=
    {
      first := coldLabels_execution.snoc (.drift (.decided _ _))
      second := Pool.run_call sampleCheck_clean (refreshedEvents_run changedResponse) answered
      changed := by
        intro asker userId response member _
        simp [changedLabels, refreshedEvents] at member
        rw [member.2.2]
      answering := by
        intro index event member
        simp [coldLabels, coldEvents, changedLabels, refreshedEvents] at member
        rcases member with ⟨_, rfl⟩ | ⟨_, rfl⟩ | ⟨_, rfl⟩ | ⟨_, rfl⟩ | ⟨_, rfl⟩ | ⟨_, rfl⟩
          | ⟨_, rfl⟩ | ⟨_, rfl⟩ <;> simp
    }
  have fresh : Throughout (WritesChanged "org-1" "ADMIN" coldLabels [.drift]) changedLabels := by
    intro earlier label rest split writer raw ttlMs reply userId response same asked
    have wrote : label ∈ changedLabels := by simp [split]
    have told : .answer writer ⟨.checkMembership "org-1" userId, .ok response⟩
        ∈ coldLabels ∨ .answer writer ⟨.checkMembership "org-1" userId, .ok response⟩
        ∈ changedLabels := by
      simp [split] at asked ⊢
      tauto
    subst same
    simp [changedLabels, refreshedEvents] at wrote
    obtain ⟨rfl, _⟩ := wrote
    simp [coldLabels, coldEvents, changedLabels, refreshedEvents] at told ⊢
    simp [told.2, changedResponse]
  have holds : HoldsRole sampleCheck (refreshedEvents changedResponse) "ADMIN" := by
    apply holdsRole_sample
    · intro raw read
      simpa [refreshedEvents, sampleCheck] using read
    · intro response responded
      simpa [Responded, refreshedEvents, sampleCheck] using responded
  exact ⟨_, _, refreshedEvents changedResponse,
    .ok { isMember := true, permissions := changedResponse.permissions }, setting, rfl,
    invalidation_not_undone setting fresh (Nat.le_refl 1) rfl rfl holds⟩

/-- The world after the change, the deletion, and the late writes of the first check. -/
def overwrittenStore : MembershipWorld :=
  (((emptyStore adminResponse).changed.del (CacheKeys.orgPermissions "org-1" "ADMIN")).put
      (CacheKeys.orgPermissions "org-1" "ADMIN")
      (stringifyPermissions adminResponse.permissions) DEFAULT_CACHE_TTL_MS).put
    (CacheKeys.membership "org-1" "user-1") (stringifyMembership adminEntry)
    DEFAULT_CACHE_TTL_MS

/-- A check finds there what the first one wrote. -/
theorem warmEvents_overwritten
    : Answered MembershipWorld.Answers overwrittenStore warmEvents overwrittenStore := by
  have different := CacheKeys.membership_ne_orgPermissions "org-1" "user-1" "org-1" "ADMIN"
  refine .cons (.got _ ?_) (.cons (.got _ ?_) (.nil _))
  · exact MembershipWorld.lookup_put _ _ _ default_ttl_positive
  · rw [overwrittenStore, MembershipWorld.lookup_put_other _ _ _ different.symm]
    exact MembershipWorld.lookup_put _ _ _ default_ttl_positive

/-- The first check, up to the response of the authority. -/
def askedLabels : List MembershipLabel :=
  .start sampleCheck :: (coldEvents.take 2).map (.answer 0)

/-- Its writes, and a second check after them. -/
def lateLabels : List MembershipLabel :=
  (coldEvents.drop 2).map (.answer 0) ++ .start sampleCheck :: warmEvents.map (.answer 1)

/-- A check that was answered before the change writes the old permissions back after the
deletion, and a check that starts later answers them.
-/
theorem invalidation_undone
    : ¬ ∀ (orgId role : String) (permissions : List String) (world : MembershipWorld)
          (before since : List MembershipLabel)
          (pool
            : Pool MembershipEffects Thrown MembershipCheckResult MembershipCall MembershipWorld)
          (later : List MembershipLabel)
          (last
            : Pool MembershipEffects Thrown MembershipCheckResult MembershipCall MembershipWorld)
          (index : Nat) (check : MembershipCall) (history : List MembershipEvent)
          (outcome : Except Thrown MembershipCheckResult),
          Invalidated orgId role permissions world before since pool later last
          → pool.threads.length ≤ index
          → last.threads[index]? = some { call := check, history, rest := .settle outcome }
          → check.orgId = orgId
          → HoldsRole check history role
          → outcome = .ok { isMember := true, permissions } := by
  intro claimed
  obtain ⟨middle, asked, wrote⟩ := @Run.split _ _ _ _ _ (coldEvents.take 2) _ coldEvents_run
  have first : Execution MembershipStep (.start (emptyStore adminResponse)) _ _ :=
    Pool.run_call sampleCheck_clean asked
      (.cons (.got _ rfl) (.cons (.responded _ rfl) (.nil _)))
  have setting : Invalidated "org-1" "ADMIN" changedResponse.permissions
      (emptyStore adminResponse) askedLabels [.drift] _ lateLabels _ :=
    {
      first := first.snoc (.drift (.decided _ _))
      second :=
        (Pool.run_thread rfl wrote (.cons (.written ..) (.cons (.written ..) (.nil _)))).trans
          (Pool.run_call sampleCheck_clean warmEvents_run warmEvents_overwritten)
      changed := by
        intro asker userId response member _
        simp [lateLabels, coldEvents, warmEvents] at member
      answering := by
        intro index event member
        simp [askedLabels, lateLabels, coldEvents, warmEvents] at member
        rcases member with ⟨_, rfl⟩ | ⟨_, rfl⟩ | ⟨_, rfl⟩ | ⟨_, rfl⟩ | ⟨_, rfl⟩ | ⟨_, rfl⟩
          <;> simp
    }
  have holds : HoldsRole sampleCheck warmEvents "ADMIN" := by
    apply holdsRole_sample
    · intro raw read
      have different := CacheKeys.membership_ne_orgPermissions "org-1" "user-1" "org-1" "ADMIN"
      simpa [warmEvents, sampleCheck, different] using read
    · intro response responded
      simp [Responded, warmEvents] at responded
  have stale := claimed _ _ _ _ _ _ _ _ _ 1 sampleCheck warmEvents
    (.ok { isMember := true, permissions := adminResponse.permissions }) setting (Nat.le_refl 1)
    rfl rfl holds
  simp [adminResponse, changedResponse] at stale

end SharedKernel.Grpc
