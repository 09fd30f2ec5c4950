import SharedKernel.Cache.KeyOwners
import SharedKernel.Grpc.PermissionIntegrity

/-! What a membership check reads from a store that others write to, for owners of their own:
nothing but the membership of its own user and the permissions of the role found there.
-/

namespace SharedKernel.Grpc

open Foundation Js Cache

-----------------------------------------------------------------------------------------
-- The keys a check reads
-----------------------------------------------------------------------------------------

/-- The owners that concern a check: its user in its organisation, and the role that it has
read for that user.
-/
def OwnEntry (check : MembershipCall) (history : List MembershipEvent) (owner : CacheOwner)
    : Prop :=
  owner = .membership check.orgId check.userId
  ∨ ∃ cached,
      Cached check history cached
      ∧ cached.isMember = true
      ∧ owner = .orgPermissions check.orgId cached.role

/-- A check reads under the keys of its own owners. -/
def ReadsOwn (check : MembershipCall) (history : List MembershipEvent) : MembershipOp → Prop
  | .get key => ∃ owner, OwnEntry check history owner ∧ key = owner.key
  | _ => True

/-- Asking the authority reads no key. -/
theorem readsOwn_fetchMembership {check : MembershipCall} {history : List MembershipEvent}
    {orgId userId : String}
    : Safe (ReadsOwn check) (fun _ _ => True) history
        (MembershipVerifier.fetchMembership orgId userId) :=
  safe_fetchMembership trivial (fun _ => trivial)

/-- The first lookup reads the membership of its user. -/
theorem readsOwn_membershipLookup (check : MembershipCall)
    : Safe (ReadsOwn check) (fun _ _ => True) []
        (cachedLookup (check.verifier.membershipLookup check.orgId check.userId)) := by
  have fetches (history : List MembershipEvent)
      : Safe (ReadsOwn check) (fun _ _ => True) history
          (check.verifier.membershipLookup check.orgId check.userId).fetch := by
    unfold MembershipVerifier.membershipLookup
    rw [Program.bind_eq, safe_bind]
    apply readsOwn_fetchMembership.mono (fun _ _ met => met)
    intro later outcome _
    cases outcome with
    | error error => trivial
    | ok response =>
        simp only [Program.bind_eq]
        rw [safe_bind]
        unfold MembershipVerifier.seedPermissions
        split
        · trivial
        · rw [Program.tryCatch_eq, safe_handle]
          apply safe_set trivial
          intro last written
          cases written <;> trivial
  refine @safe_cachedLookup _ _ _ _ (fun _ _ => True) _ _ (fun _ => fetches []) ?_
    (fun _ _ _ _ _ => trivial) ?_
  · intro store enabled
    obtain rfl := enabled_sharedStore rfl enabled
    exact (safe_get ⟨_, Or.inl rfl, rfl⟩).mono (fun _ _ met => met) (fun _ _ _ => trivial)
  · intro store later outcome enabled _
    obtain rfl := enabled_sharedStore rfl enabled
    apply (fetches later).mono (fun _ _ met => met)
    intro after outcome _
    cases outcome with
    | error error => trivial
    | ok result => exact safe_set trivial (fun _ _ => trivial)

/-- The second lookup reads the permissions of the role that was read. -/
theorem readsOwn_permissionsLookup {check : MembershipCall} {history : List MembershipEvent}
    {membership : CachedMembership} (cached : Cached check history membership)
    (member : membership.isMember = true)
    : Safe (ReadsOwn check) (fun _ _ => True) history
        (cachedLookup
          (check.verifier.permissionsLookup check.orgId check.userId membership.role)) := by
  have fetches (history : List MembershipEvent)
      : Safe (ReadsOwn check) (fun _ _ => True) history
          (check.verifier.permissionsLookup check.orgId check.userId membership.role).fetch := by
    unfold MembershipVerifier.permissionsLookup
    rw [Program.bind_eq, safe_bind]
    apply readsOwn_fetchMembership.mono (fun _ _ met => met)
    intro later outcome _
    cases outcome <;> trivial
  refine @safe_cachedLookup _ _ _ _ (fun _ _ => True) _ _ (fun _ => fetches history) ?_
    (fun _ _ _ _ _ => trivial) ?_
  · intro store enabled
    obtain rfl := enabled_sharedStore rfl enabled
    have own : OwnEntry check history (.orgPermissions check.orgId membership.role) :=
      Or.inr ⟨membership, cached, member, rfl⟩
    exact (safe_get ⟨_, own, rfl⟩).mono (fun _ _ met => met) (fun _ _ _ => trivial)
  · intro store later outcome enabled _
    obtain rfl := enabled_sharedStore rfl enabled
    apply (fetches later).mono (fun _ _ met => met)
    intro after outcome _
    cases outcome with
    | error error => trivial
    | ok permissions => exact safe_set trivial (fun _ _ => trivial)

/-- A whole check reads under the keys of its own owners; witness: the role of the second
lookup comes from the membership entry, unless the first lookup brought a response.
-/
theorem readsOwn_checkMembership (check : MembershipCall) (clean : check.Clean)
    : Safe (ReadsOwn check) (fun _ _ => True) [] check.program := by
  have looks
      : Safe (ReadsOwn check) (MembershipRead check) []
          (cachedLookup (check.verifier.membershipLookup check.orgId check.userId)) := by
    apply (readsOwn_membershipLookup check).and_finishes
    intro events outcome run
    exact (safe_membershipLookup check clean).outcome run
  unfold MembershipCall.program MembershipVerifier.checkMembership
  rw [Program.bind_eq, safe_bind]
  apply looks.mono (fun _ _ met => met)
  intro history outcome read
  cases outcome with
  | error error => trivial
  | ok result =>
      obtain ⟨membership, fetched⟩ := result
      cases member : membership.isMember with
      | false => simp [member]
      | true =>
          cases fetched with
          | some fetched => simp [member]
          | none =>
              simp only [member, Bool.not_true, Bool.false_eq_true, if_false, Program.bind_eq]
              rw [safe_bind]
              apply (readsOwn_permissionsLookup (read membership rfl) member).mono
                (fun _ _ met => met)
              intro later outcome _
              cases outcome <;> trivial

-----------------------------------------------------------------------------------------
-- A store that remembers whom an entry was written for
-----------------------------------------------------------------------------------------

structure OwnedEntry where
  owner : CacheOwner
  value : String

/-- Under each key, the entry last written there. -/
abbrev OwnedStore := String → Option OwnedEntry

/-- Write an entry for an owner, under the key of the owner. -/
def OwnedStore.put (store : OwnedStore) (owner : CacheOwner) (value : String) : OwnedStore :=
  fun other => if other = owner.key then some { owner, value } else store other

/-- Every entry was written for an owner with its key, whose organisation is clean. -/
def OwnedStore.Kept (store : OwnedStore) : Prop :=
  ∀ key entry, store key = some entry → entry.owner.Clean ∧ entry.owner.key = key

/-- How the store answers a check: any call may reject, an entry may have expired, and a write
is for an owner that has the key.
-/
inductive OwnedAnswers : OwnedStore → MembershipEvent → OwnedStore → Prop
  | got {store : OwnedStore} {key : String} {entry : OwnedEntry}
    (found : store key = some entry)
    : OwnedAnswers store ⟨.get key, .ok (some entry.value)⟩ store
  | missing (store) (key : String) : OwnedAnswers store ⟨.get key, .ok none⟩ store
  | getFailed (store) (key : String) (err : Thrown)
    : OwnedAnswers store ⟨.get key, .error err⟩ store
  | written (store : OwnedStore) (owner : CacheOwner) (clean : owner.Clean) (value : String)
    (ttlMs : Number) (reply : Except Thrown Unit)
    : OwnedAnswers store ⟨.set owner.key value ttlMs, reply⟩ (store.put owner value)
  | setFailed (store) (key value : String) (ttlMs : Number) (err : Thrown)
    : OwnedAnswers store ⟨.set key value ttlMs, .error err⟩ store
  | responded (store) (orgId userId : String) (reply : Except Thrown MembershipRpcResult)
    : OwnedAnswers store ⟨.checkMembership orgId userId, reply⟩ store

/-- What others do to the store: they write an entry for any owner, or delete one. -/
inductive OwnedDrifts : OwnedStore → OwnedStore → Prop
  | written (store : OwnedStore) (owner : CacheOwner) (clean : owner.Clean) (value : String)
    : OwnedDrifts store (store.put owner value)
  | deleted (store : OwnedStore) (key : String)
    : OwnedDrifts store (fun other => if other = key then none else store other)

/-- A write keeps the store. -/
theorem OwnedStore.Kept.put {store : OwnedStore} (kept : store.Kept) {owner : CacheOwner}
    (clean : owner.Clean) (value : String)
    : (store.put owner value).Kept := by
  intro key entry found
  simp only [OwnedStore.put] at found
  split at found
  · rename_i same
    cases found
    exact ⟨clean, same.symm⟩
  · exact kept key entry found

/-- The steps of checks against a store that others write to. -/
abbrev OwnedStep
    : Pool MembershipEffects Thrown MembershipCheckResult MembershipCall OwnedStore
      → PoolLabel MembershipEffects MembershipCall
      → Pool MembershipEffects Thrown MembershipCheckResult MembershipCall OwnedStore
      → Prop :=
  PoolStep MembershipCall.program MembershipCall.Clean OwnedAnswers OwnedDrifts

/-- Every step keeps the store. -/
theorem OwnedStep.kept
    {pool next : Pool MembershipEffects Thrown MembershipCheckResult MembershipCall OwnedStore}
    {label : PoolLabel MembershipEffects MembershipCall} (kept : pool.world.Kept)
    (taken : OwnedStep pool label next)
    : next.world.Kept := by
  cases taken with
  | start call admits => exact kept
  | answer reply waiting answered =>
      cases answered with
      | got | missing | getFailed | setFailed | responded => exact kept
      | written owner clean value ttlMs => exact kept.put clean value
  | drift moved =>
      cases moved with
      | written owner clean value => exact kept.put clean value
      | deleted deletedKey =>
          intro key entry found
          dsimp only at found
          split at found
          · cases found
          · exact kept key entry found

/-- The owners that concern a clean check are clean. -/
theorem OwnEntry.clean {check : MembershipCall} {history : List MembershipEvent}
    {owner : CacheOwner} (own : OwnEntry check history owner) (clean : check.Clean)
    : owner.Clean := by
  rcases own with rfl | ⟨cached, _, _, rfl⟩
  · exact clean.1
  · exact clean.1

/-- A clean check writes under the key of a clean owner, so that the store can record whom the
entry is for.
-/
theorem WritesResponse.owned {check : MembershipCall} (clean : check.Clean)
    {history : List MembershipEvent} {key value : String} {ttlMs : Number}
    (writes : WritesResponse check history (.set key value ttlMs))
    : ∃ owner : CacheOwner, owner.Clean ∧ key = owner.key := by
  obtain ⟨_, response, _, ⟨rfl, _⟩ | ⟨role, rfl, _⟩⟩ := writes
  · exact ⟨.membership check.orgId check.userId, clean.1, rfl⟩
  · exact ⟨.orgPermissions check.orgId role, clean.1, rfl⟩

/-- What a check finds in the store was written for one of its own owners. -/
def FoundOwn (labels : List (PoolLabel MembershipEffects MembershipCall)) (store : OwnedStore)
    (label : PoolLabel MembershipEffects MembershipCall)
    : Prop :=
  ∀ index key raw,
    label = .answer index ⟨.get key, .ok (some raw)⟩
    → ∃ check entry,
        (callsStarted labels)[index]? = some check
        ∧ store key = some entry
        ∧ entry.value = raw
        ∧ OwnEntry check (answersOf index labels) entry.owner

/-- The keys of the registry are unambiguous, and so in every run of checks against a store
that others write to, no check reads an entry that was written for somebody else; witness: each
check reads under the keys of its own owners, and a key tells whom its entry is for.
-/
theorem checks_find_own {store : OwnedStore} (initially : store.Kept)
    {labels : List (PoolLabel MembershipEffects MembershipCall)}
    {pool next : Pool MembershipEffects Thrown MembershipCheckResult MembershipCall OwnedStore}
    {label : PoolLabel MembershipEffects MembershipCall}
    (run : Execution OwnedStep (.start store) labels pool) (taken : OwnedStep pool label next)
    : KeysUnambiguous ∧ FoundOwn labels pool.world label := by
  refine ⟨keys_unambiguous, ?_⟩
  have kept : pool.world.Kept :=
    @Execution.invariant _ _ OwnedStep _ _ _ (fun _ pool => pool.world.Kept) initially
      (fun _ _ _ _ kept taken => OwnedStep.kept kept taken) run
  intro index key raw same
  subst same
  cases taken with
  | @answer _ call history op resume world reply waiting answered =>
      have sound := (Pool.sound run).threads index _ waiting
      have reads := (readsOwn_checkMembership call sound.admits).guarded sound.run
      obtain ⟨owner, own, rfl⟩ := reads
      cases answered with
      | @got _ entry found =>
          obtain ⟨clean, keyed⟩ := kept _ entry found
          have owners := CacheOwner.key_inj clean (own.clean sound.admits) keyed
          have answers : history = answersOf index labels := sound.answered
          rw [← answers]
          refine ⟨call, entry, sound.started, found, rfl, ?_⟩
          rw [owners]
          exact own

/-- A store in which others have left an entry for the same user: its system permissions. -/
def sharedEntries : OwnedStore :=
  OwnedStore.put (OwnedStore.put (fun _ => none) (.systemPermissions "user-1") "[]")
    (.membership "org-1" "user-1") (stringifyMembership adminEntry)

theorem sharedEntries_kept : sharedEntries.Kept := by
  have empty : OwnedStore.Kept (fun _ => none) := by
    intro key entry found
    cases found
  have clean : NulFree "org-1" := by decide
  have system : CacheOwner.Clean (.systemPermissions "user-1") := trivial
  have membership : CacheOwner.Clean (.membership "org-1" "user-1") := clean
  exact (empty.put system "[]").put membership _

/-- A check reads the membership of its user. -/
theorem checks_find_own_sample
    : KeysUnambiguous
      ∧ FoundOwn [.start sampleCheck] sharedEntries
          (.answer 0
            ⟨.get (CacheKeys.membership "org-1" "user-1"),
              .ok (some (stringifyMembership adminEntry))⟩) := by
  have started : Execution OwnedStep (.start sharedEntries) [.start sampleCheck] _ :=
    .cons (.start sampleCheck sampleCheck_clean) .start
  have found : sharedEntries (CacheOwner.key (.membership "org-1" "user-1"))
      = some ⟨.membership "org-1" "user-1", stringifyMembership adminEntry⟩ := by
    rw [sharedEntries, OwnedStore.put, if_pos rfl]
  exact checks_find_own sharedEntries_kept started (.answer _ rfl (.got found))

end SharedKernel.Grpc
