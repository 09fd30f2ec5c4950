import SharedKernel.Foundation.Pool
import SharedKernel.Grpc.CheckRuns

/-! Integrity of the permission cache over every interleaving of membership checks: what is
written under a role came from the authority with that role. It rests on a refetch not
naming another role than the cached membership it refines.
-/

namespace SharedKernel.Grpc

open Foundation Js Cache

/-- Every value written under a permission key is a permission list that the authority
returned, for that organisation, in a response with that role.
-/
def FromResponse (before : List (PoolLabel MembershipEffects MembershipCall))
    (label : PoolLabel MembershipEffects MembershipCall)
    : Prop :=
  ∀ index key value ttlMs reply orgId role,
    label = .answer index ⟨.set key value ttlMs, reply⟩
    → NulFree orgId
    → key = CacheKeys.orgPermissions orgId role
    → ∃ asker userId response,
        .answer asker ⟨.checkMembership orgId userId, .ok response⟩ ∈ before
        ∧ response.role = role
        ∧ value = stringifyPermissions response.permissions

/-- A call that holds a cached membership gets no response with another role. -/
def RoleKept (check : MembershipCall) (history : List MembershipEvent)
    (event : MembershipEvent)
    : Prop :=
  ∀ response cached,
    event = ⟨.checkMembership check.orgId check.userId, .ok response⟩
    → Cached check history cached
    → response.role = cached.role

/-- A write under a permission key repeats a response of the history with that role. -/
def PermissionsSound (history : List MembershipEvent) : MembershipOp → Prop
  | .set key value _ =>
      ∀ orgId role,
        NulFree orgId
        → key = CacheKeys.orgPermissions orgId role
        → ∃ userId response,
            ⟨.checkMembership orgId userId, .ok response⟩ ∈ history
            ∧ response.role = role
            ∧ value = stringifyPermissions response.permissions
  | _ => True

/-- The guard under which a call is verified. -/
abbrev Guarded (check : MembershipCall) (history : List MembershipEvent) (op : MembershipOp)
    : Prop :=
  Throughout (RoleKept check) history → PermissionsSound history op

/-- A write under a membership key is no write under a permission key. -/
theorem permissionsSound_membership (history : List MembershipEvent)
    (orgId userId value : String) (ttlMs : Number)
    : PermissionsSound history (.set (CacheKeys.membership orgId userId) value ttlMs) :=
  fun orgId' role _ same =>
    absurd same (CacheKeys.membership_ne_orgPermissions orgId userId orgId' role)

/-- A write under the key of a response's own role is sound; witness: the organisation and
the role are read back from the key.
-/
theorem permissionsSound_response {history : List MembershipEvent} {orgId userId : String}
    {response : MembershipRpcResult} (clean : NulFree orgId)
    (asked : ⟨.checkMembership orgId userId, .ok response⟩ ∈ history) (ttlMs : Number)
    : PermissionsSound history
        (.set (CacheKeys.orgPermissions orgId response.role)
          (stringifyPermissions response.permissions) ttlMs) := by
  intro orgId' role clean' same
  obtain ⟨rfl, rfl⟩ := (compositeKey_eq_iff clean clean').mp same
  exact ⟨userId, response, asked, rfl, rfl⟩

/-- Seeding writes a response under the response's own role. -/
theorem safe_seedPermissions {check : MembershipCall} {history : List MembershipEvent}
    {userId : String} {response : MembershipRpcResult} (self : MembershipVerifier)
    (clean : NulFree check.orgId)
    (asked : ⟨.checkMembership check.orgId userId, .ok response⟩ ∈ history)
    : Safe (Guarded check) (fun _ _ => True) history
        (self.seedPermissions check.orgId response.role response.permissions) := by
  unfold MembershipVerifier.seedPermissions
  split
  · trivial
  · rw [Program.tryCatch_eq, safe_handle]
    apply safe_set
    · intro _
      exact permissionsSound_response clean asked _
    · intro later outcome
      cases outcome <;> trivial

/-- A membership that came without a response of this call was read from the store. -/
def MembershipRead (check : MembershipCall) (history : List MembershipEvent)
    (outcome : Except Thrown (CachedMembership × Option MembershipRpcResult))
    : Prop :=
  ∀ membership, outcome = .ok (membership, none) → Cached check history membership

/-- Fetching a membership seeds the role's entry and returns with a response. -/
theorem safe_membershipFetch (check : MembershipCall) (clean : check.Clean)
    (history : List MembershipEvent)
    : Safe (Guarded check)
        (fun _ outcome => ∀ result, outcome = .ok result → result.2 ≠ none)
        history (check.verifier.membershipLookup check.orgId check.userId).fetch := by
  unfold MembershipVerifier.membershipLookup
  rw [Program.bind_eq, safe_bind]
  apply safe_fetchMembership (fun _ => trivial)
  intro reply
  cases reply with
  | error error => simp
  | ok response =>
      simp only [Program.bind_eq, safe_bind]
      have asked : ⟨.checkMembership check.orgId check.userId, .ok response⟩
          ∈ history ++ [⟨.checkMembership check.orgId check.userId, .ok response⟩] := by
        simp
      refine (safe_seedPermissions check.verifier clean.1 asked).mono
        (fun _ _ met => met) ?_
      intro later outcome _
      cases outcome <;> simp

/-- The first lookup keeps the guard, and a membership it returns without a response was read
from the store.
-/
theorem safe_membershipLookup (check : MembershipCall) (clean : check.Clean)
    : Safe (Guarded check) (MembershipRead check) []
        (cachedLookup (check.verifier.membershipLookup check.orgId check.userId)) := by
  have reads : ∀ store,
      (check.verifier.membershipLookup check.orgId check.userId).enabled? = some store
      → Safe (Guarded check) (EntryRead (CacheKeys.membership check.orgId check.userId)) []
          (store.get (CacheKeys.membership check.orgId check.userId)) := by
    intro store enabled
    obtain rfl := enabled_sharedStore rfl enabled
    exact safe_get (fun _ => trivial)
  refine safe_cachedLookup ?_ reads ?_ ?_
  · intro _
    apply (safe_membershipFetch check clean []).mono (fun _ _ met => met)
    intro later outcome fetched membership same
    exact absurd rfl (fetched _ same)
  · intro later raw cached read parsed membership same
    obtain rfl : cached = (membership, none) := Except.ok.inj same
    refine ⟨raw, read raw rfl, ?_⟩
    simpa [MembershipVerifier.membershipLookup] using parsed
  · intro store later outcome enabled _
    obtain rfl := enabled_sharedStore rfl enabled
    apply (safe_membershipFetch check clean later).mono (fun _ _ met => met)
    intro after outcome fetched
    cases outcome with
    | error error =>
        intro membership same
        cases same
    | ok result =>
        apply safe_set
        · intro _
          exact permissionsSound_membership _ check.orgId check.userId _ _
        · intro last written membership same
          exact absurd (congrArg Prod.snd (Except.ok.inj same)) (fetched result rfl)

/-- The permissions that a refetch returns are those of a response in the history, which has
the role of the cached membership where the role was kept.
-/
theorem safe_permissionsFetch {check : MembershipCall} {history : List MembershipEvent}
    {membership : CachedMembership} (cached : Cached check history membership)
    : Safe (Guarded check)
        (fun later outcome =>
          ∀ permissions,
            outcome = .ok permissions
            → ∃ response : MembershipRpcResult,
                response.permissions = permissions
                ∧ ⟨.checkMembership check.orgId check.userId, .ok response⟩ ∈ later
                ∧ (Throughout (RoleKept check) later → response.role = membership.role))
        history
        (check.verifier.permissionsLookup check.orgId check.userId membership.role).fetch := by
  unfold MembershipVerifier.permissionsLookup
  rw [Program.bind_eq, safe_bind]
  apply safe_fetchMembership (fun _ => trivial)
  intro reply
  cases reply with
  | error error => simp
  | ok response =>
      intro permissions same
      refine ⟨response, Except.ok.inj same, by simp, fun kept => ?_⟩
      exact ((throughout_snoc ..).mp kept).2 response membership rfl cached

/-- The second lookup keeps the guard: what it writes back is the response to its own fetch.
-/
theorem safe_permissionsLookup {check : MembershipCall} (clean : check.Clean)
    {history : List MembershipEvent} {membership : CachedMembership}
    (cached : Cached check history membership)
    : Safe (Guarded check) (fun _ _ => True) history
        (cachedLookup
          (check.verifier.permissionsLookup check.orgId check.userId membership.role)) := by
  have reads : ∀ store,
      (check.verifier.permissionsLookup check.orgId check.userId membership.role).enabled?
          = some store
      → Safe (Guarded check) (fun later _ => Cached check later membership) history
          (store.get (CacheKeys.orgPermissions check.orgId membership.role)) := by
    intro store enabled
    obtain rfl := enabled_sharedStore rfl enabled
    exact
      (safe_get (fun _ => trivial)).mono (fun _ _ met => met) (fun later _ _ => cached.mono later)
  refine safe_cachedLookup ?_ reads (fun _ _ _ _ _ => trivial) ?_
  · intro _
    exact (safe_permissionsFetch cached).mono (fun _ _ met => met) (fun _ _ _ => trivial)
  · intro store later outcome enabled stillCached
    obtain rfl := enabled_sharedStore rfl enabled
    apply (safe_permissionsFetch stillCached).mono (fun _ _ met => met)
    intro after outcome fetched
    cases outcome with
    | error error => trivial
    | ok permissions =>
        obtain ⟨response, rfl, asked, sameRole⟩ := fetched permissions rfl
        apply safe_set
        · intro kept
          have written := permissionsSound_response clean.1 asked check.verifier.cacheTtlMs
          rw [sameRole kept] at written
          exact written
        · intro _ _
          trivial

/-- A whole check keeps the guard. -/
theorem safe_checkMembership (check : MembershipCall) (clean : check.Clean)
    : Safe (Guarded check) (fun _ _ => True) [] check.program := by
  unfold MembershipCall.program MembershipVerifier.checkMembership
  rw [Program.bind_eq, safe_bind]
  apply (safe_membershipLookup check clean).mono (fun _ _ met => met)
  intro history outcome read
  cases outcome with
  | error error => trivial
  | ok result =>
      obtain ⟨membership, fetched⟩ := result
      cases member : membership.isMember with
      | false => simp [member]
      | true =>
          cases fetched with
          | some fetched => simp [member]
          | none =>
              simp only [member, Bool.not_true, Bool.false_eq_true, if_false, Program.bind_eq]
              rw [safe_bind]
              refine (safe_permissionsLookup clean (read membership rfl)).mono
                (fun _ _ met => met) ?_
              intro later outcome _
              cases outcome <;> trivial

/-- The steps of the verifiers, the store and the authority. -/
abbrev MembershipStep
    : Pool MembershipEffects Thrown MembershipCheckResult MembershipCall MembershipWorld
      → PoolLabel MembershipEffects MembershipCall
      → Pool MembershipEffects Thrown MembershipCheckResult MembershipCall MembershipWorld
      → Prop :=
  PoolStep MembershipCall.program MembershipCall.Clean MembershipWorld.Answers
    MembershipWorld.Drifts

/-- In every run, a check of a clean organization writes nothing but what a response to it said;
witness: each check does so by itself.
-/
theorem writes_of_checks {world : MembershipWorld}
    {labels : List (PoolLabel MembershipEffects MembershipCall)}
    {pool
      : Pool MembershipEffects Thrown MembershipCheckResult MembershipCall MembershipWorld}
    (run : Execution MembershipStep (.start world) labels pool)
    : Throughout
        (fun before label =>
          ∀ index event,
            label = .answer index event
            → ∃ check,
                (callsStarted before)[index]? = some check
                ∧ check.Clean
                ∧ WritesResponse check (answersOf index before) event.op)
        labels :=
  @Pool.throughout _ _ _ _ _ _ _ _ _ _ _ _ (fun _ _ _ => True)
    (fun check history op => check.Clean ∧ WritesResponse check history op)
    (fun check clean =>
      (writes_checkMembership check).mono (fun _ _ writes _ => ⟨clean, writes⟩)
        (fun _ _ _ => trivial))
    run (fun _ _ _ _ _ _ _ _ _ => trivial)

/-- In every run in which no call that holds a cached membership is answered with another
role, what is written under a role is a permission list the authority returned with that
role; witness: every call keeps the guard, and its history is among the labels of the run.
-/
theorem permissions_from_responses {world : MembershipWorld}
    {labels : List (PoolLabel MembershipEffects MembershipCall)}
    {pool
      : Pool MembershipEffects Thrown MembershipCheckResult MembershipCall MembershipWorld}
    (run : Execution MembershipStep (.start world) labels pool)
    (kept : Throughout (Threadwise RoleKept) labels)
    : Throughout FromResponse labels := by
  have guarded := Pool.throughout (fun check clean => safe_checkMembership check clean) run kept
  refine guarded.mono ?_
  intro before label answers index key value ttlMs reply orgId role same clean ownKey
  obtain ⟨check, _, sound⟩ := answers index _ same
  obtain ⟨userId, response, asked, rest⟩ := sound orgId role clean ownKey
  exact ⟨index, userId, response, mem_answersOf.mp asked, rest⟩

-- One user is demoted while the membership entry still says ADMIN.

def sampleCheck : MembershipCall where
  verifier := .create (some { ttlMs := none, store := true })
  orgId := "org-1"
  userId := "user-1"

def adminEntry : CachedMembership := { isMember := true, role := "ADMIN" }

def adminResponse : MembershipRpcResult :=
  { isMember := true, permissions := ["billing:manage"], role := "ADMIN" }

def memberResponse : MembershipRpcResult :=
  { isMember := true, permissions := ["knowledge:read"], role := "MEMBER" }

/-- An empty store, and an authority that gives everyone one response. -/
def emptyStore (response : MembershipRpcResult) : MembershipWorld where
  clock := 0
  entries := fun _ => none
  authority := fun _ _ => response

/-- The world after the first check: both entries are there. -/
def warmStore : MembershipWorld :=
  ((emptyStore adminResponse).put (CacheKeys.orgPermissions "org-1" "ADMIN")
      (stringifyPermissions adminResponse.permissions) DEFAULT_CACHE_TTL_MS).put
    (CacheKeys.membership "org-1" "user-1") (stringifyMembership adminEntry)
    DEFAULT_CACHE_TTL_MS

/-- The calls of a check that finds nothing in the store. -/
def coldEvents : List MembershipEvent :=
  [
    ⟨.get (CacheKeys.membership "org-1" "user-1"), .ok none⟩,
    ⟨.checkMembership "org-1" "user-1", .ok adminResponse⟩,
    ⟨.set (CacheKeys.orgPermissions "org-1" "ADMIN")
        (stringifyPermissions adminResponse.permissions) DEFAULT_CACHE_TTL_MS,
      .ok ()⟩,
    ⟨.set (CacheKeys.membership "org-1" "user-1") (stringifyMembership adminEntry)
        DEFAULT_CACHE_TTL_MS,
      .ok ()⟩
  ]

/-- The calls of a check that finds the membership only, and asks for the permissions. -/
def refreshedEvents (response : MembershipRpcResult) : List MembershipEvent :=
  [
    ⟨.get (CacheKeys.membership "org-1" "user-1"), .ok (some (stringifyMembership adminEntry))⟩,
    ⟨.get (CacheKeys.orgPermissions "org-1" "ADMIN"), .ok none⟩,
    ⟨.checkMembership "org-1" "user-1", .ok response⟩,
    ⟨.set (CacheKeys.orgPermissions "org-1" "ADMIN")
        (stringifyPermissions response.permissions) DEFAULT_CACHE_TTL_MS,
      .ok ()⟩
  ]

theorem parse_adminEntry
    : parseCachedMembership (stringifyMembership adminEntry) = some adminEntry := by
  decide +kernel

theorem coldEvents_run
    : Run sampleCheck.program coldEvents
        (.done { isMember := true, permissions := adminResponse.permissions }) :=
  .step _ (.step _ (.step _ (.step _ (.refl _))))

theorem refreshedEvents_run (response : MembershipRpcResult)
    : Run sampleCheck.program (refreshedEvents response)
        (.done { isMember := true, permissions := response.permissions }) := by
  refine .step _ ?_
  simp only [Program.settle, MembershipVerifier.membershipLookup, Program.done_bind,
    parse_adminEntry, Option.map]
  exact .step _ (.step _ (.step _ (.refl _)))

theorem coldEvents_answered
    : Answered MembershipWorld.Answers (emptyStore adminResponse) coldEvents warmStore :=
  .cons (.got _ rfl)
    (.cons (.responded _ rfl) (.cons (.written ..) (.cons (.written ..) (.nil _))))

/-- Such a check may take place where only the membership is left of the first one. -/
theorem refreshedEvents_answered {world : MembershipWorld} {response : MembershipRpcResult}
    (left : world.lookup = (warmStore.del (CacheKeys.orgPermissions "org-1" "ADMIN")).lookup)
    (decided : world.authority "org-1" "user-1" = response)
    : ∃ next, Answered MembershipWorld.Answers world (refreshedEvents response) next := by
  have different := CacheKeys.membership_ne_orgPermissions "org-1" "user-1" "org-1" "ADMIN"
  have membership : world.lookup (CacheKeys.membership "org-1" "user-1")
      = some (stringifyMembership adminEntry) := by
    rw [left, warmStore.lookup_del_other different]
    exact MembershipWorld.lookup_put _ _ _ (by decide +kernel)
  have permissions : world.lookup (CacheKeys.orgPermissions "org-1" "ADMIN") = none := by
    rw [left]
    exact warmStore.lookup_del _
  exact
    ⟨_, .cons (.got _ membership)
      (.cons (.got _ permissions) (.cons (.responded _ decided) (.cons (.written ..) (.nil _))))⟩

theorem sampleCheck_clean : sampleCheck.Clean :=
  ⟨by decide, by decide⟩

/-- The labels of the first check. -/
def coldLabels : List (PoolLabel MembershipEffects MembershipCall) :=
  .start sampleCheck :: coldEvents.map (.answer 0)

/-- The labels of two checks, with the deletion of the permissions between them. -/
def refreshedLabels : List (PoolLabel MembershipEffects MembershipCall) :=
  coldLabels ++ [.drift] ++ .start sampleCheck :: (refreshedEvents adminResponse).map (.answer 1)

/-- The labels of two checks, with a demotion and the deletion between them. -/
def staleLabels : List (PoolLabel MembershipEffects MembershipCall) :=
  coldLabels ++ [.drift, .drift]
    ++ .start sampleCheck :: (refreshedEvents memberResponse).map (.answer 1)

theorem coldLabels_execution
    : Execution MembershipStep (.start (emptyStore adminResponse)) coldLabels
        {
          threads :=
            [
              {
                call := sampleCheck
                history := coldEvents
                rest := .done { isMember := true, permissions := adminResponse.permissions }
              }
            ]
          world := warmStore
        } :=
  Pool.run_call sampleCheck_clean coldEvents_run coldEvents_answered

theorem refreshedLabels_execution
    : ∃ pool,
        Execution MembershipStep (.start (emptyStore adminResponse)) refreshedLabels pool := by
  obtain ⟨next, answered⟩ :=
    @refreshedEvents_answered (warmStore.del (CacheKeys.orgPermissions "org-1" "ADMIN"))
      adminResponse rfl rfl
  have moved := coldLabels_execution.snoc
    (.drift (.deleted _ (CacheKeys.orgPermissions "org-1" "ADMIN")))
  have second := refreshedEvents_run adminResponse
  exact ⟨_, moved.trans (Pool.run_call sampleCheck_clean second answered)⟩

theorem staleLabels_execution
    : ∃ pool, Execution MembershipStep (.start (emptyStore adminResponse)) staleLabels pool := by
  obtain ⟨next, answered⟩ :=
    @refreshedEvents_answered
      {
        warmStore.del (CacheKeys.orgPermissions "org-1" "ADMIN") with
        authority := fun _ _ => memberResponse
      }
      memberResponse rfl rfl
  have moved := (coldLabels_execution.snoc
    (.drift (.decided _ (fun _ _ => memberResponse)))).snoc
    (.drift (.deleted _ (CacheKeys.orgPermissions "org-1" "ADMIN")))
  rw [List.append_assoc] at moved
  have second := refreshedEvents_run memberResponse
  exact ⟨_, moved.trans (Pool.run_call sampleCheck_clean second answered)⟩

/-- A first check on an empty store, and a second one that holds the role it has read from
there and is answered with it.
-/
theorem permissions_from_responses_refreshed : Throughout FromResponse refreshedLabels := by
  obtain ⟨pool, run⟩ := refreshedLabels_execution
  apply permissions_from_responses run
  intro before label after split index event check same _ response cached asked held
  obtain ⟨raw, read, parsed⟩ := held
  have answer : label ∈ refreshedLabels := by simp [split]
  have got
      : .answer index
          ⟨.get (CacheKeys.membership check.orgId check.userId), .ok (some raw)⟩
        ∈ refreshedLabels := by
    rw [split]
    exact List.mem_append_left _ (mem_answersOf.mp read)
  obtain ⟨_, _, rfl⟩ : index = 1 ∧ _ ∧ raw = stringifyMembership adminEntry := by
    simpa [refreshedLabels, coldLabels, coldEvents, refreshedEvents] using got
  cases parse_adminEntry.symm.trans parsed
  subst same asked
  simp [refreshedLabels, coldLabels, coldEvents, refreshedEvents] at answer
  rcases answer with ⟨_, _, rfl⟩ | ⟨_, _, rfl⟩ <;> rfl

/-- The two responses in the run of the demotion. -/
theorem responses_staleLabels {asker : Nat} {orgId userId : String}
    {response : MembershipRpcResult}
    (asked : .answer asker ⟨.checkMembership orgId userId, .ok response⟩ ∈ staleLabels)
    : response = adminResponse ∨ response = memberResponse := by
  simp [staleLabels, coldLabels, coldEvents, refreshedEvents] at asked
  rcases asked with ⟨_, _, same⟩ | ⟨_, _, same⟩
  · exact Or.inl same
  · exact Or.inr same

/-- A demoted user's stale membership defines what an ADMIN may do: the second check writes
the MEMBER permissions under the ADMIN key.
-/
theorem permissions_from_responses_stale
    : ¬ ∀ world labels pool,
          Execution MembershipStep (.start world) labels pool → Throughout FromResponse labels := by
  intro claimed
  obtain ⟨pool, run⟩ := staleLabels_execution
  obtain ⟨asker, userId, response, asked, sameRole, written⟩ :=
    @claimed _ _ _ run (staleLabels.dropLast) _ [] rfl 1 _ _ _ _ "org-1" "ADMIN" rfl (by decide) rfl
  have among : .answer asker ⟨.checkMembership "org-1" userId, .ok response⟩ ∈ staleLabels :=
    List.dropLast_subset _ asked
  rcases responses_staleLabels among with rfl | rfl
  · have different
        : stringifyPermissions memberResponse.permissions
          ≠ stringifyPermissions adminResponse.permissions := by
      decide +kernel
    exact different written
  · exact absurd sameRole (by decide)

end SharedKernel.Grpc
