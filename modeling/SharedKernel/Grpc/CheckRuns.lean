import SharedKernel.Foundation.Run
import SharedKernel.Grpc.MembershipVerifier
import SharedKernel.Js.JsonRoundTrip

/-! One membership check: what it may write to the store, and where its answer comes from.
-/

namespace SharedKernel.Grpc

open Foundation Js Cache

-----------------------------------------------------------------------------------------
-- The three calls
-----------------------------------------------------------------------------------------

section Calls

variable {guard : List MembershipEvent → MembershipOp → Prop} {history : List MembershipEvent}

/-- An entry that was read is an event of the history. -/
def EntryRead (key : String) (history : List MembershipEvent)
    (outcome : Except Thrown (Option String))
    : Prop :=
  ∀ raw, outcome = .ok (some raw) → ⟨.get key, .ok (some raw)⟩ ∈ history

/-- Reading the store, where that is allowed. -/
theorem safe_get {key : String} (allowed : guard history (.get key))
    : Safe guard (EntryRead key) history (sharedStore.get key) := by
  refine ⟨allowed, fun reply => ?_⟩
  cases reply with
  | ok entry =>
      intro raw same
      obtain rfl : entry = some raw := Except.ok.inj same
      simp
  | error error =>
      intro raw same
      cases same

/-- Writing to the store, where that is allowed. -/
theorem safe_set {post : List MembershipEvent → Except Thrown Unit → Prop} {key value : String}
    {ttlMs : Number} (allowed : guard history (.set key value ttlMs))
    (replied : ∀ later outcome, post later outcome)
    : Safe guard post history (sharedStore.set key value ttlMs) := by
  refine ⟨allowed, fun reply => ?_⟩
  cases reply <;> exact replied _ _

/-- Asking the authority, where that is allowed; its reply is the last event of the history.
-/
theorem safe_fetchMembership
    {post : List MembershipEvent → Except Thrown MembershipRpcResult → Prop}
    {orgId userId : String} (allowed : guard history (.checkMembership orgId userId))
    (replied
      : ∀ reply, post (history ++ [⟨.checkMembership orgId userId, reply⟩]) reply)
    : Safe guard post history (MembershipVerifier.fetchMembership orgId userId) := by
  refine ⟨allowed, fun reply => ?_⟩
  cases reply with
  | ok response => exact replied (.ok response)
  | error error => exact replied (.error error)

/-- A lookup of a verifier that caches goes to the shared store. -/
theorem enabled_sharedStore {α : Type} {opts : CachedLookupOptions MembershipEffects α}
    {self : MembershipVerifier} {store : ICacheStore MembershipEffects}
    (given : opts.store = self.store?) (enabled : opts.enabled? = some store)
    : store = sharedStore := by
  rw [CachedLookupOptions.enabled?, given, MembershipVerifier.store?] at enabled
  split at enabled
  · split at enabled
    · exact (Option.some.inj enabled).symm
    · cases enabled
  · cases enabled

end Calls

/-- The history has read this membership entry of the call from the store. -/
def Cached (check : MembershipCall) (history : List MembershipEvent)
    (cached : CachedMembership)
    : Prop :=
  ∃ raw,
    ⟨.get (CacheKeys.membership check.orgId check.userId), .ok (some raw)⟩ ∈ history
    ∧ parseCachedMembership raw = some cached

/-- What was read stays read. -/
theorem Cached.mono {check : MembershipCall} {history : List MembershipEvent}
    {membership : CachedMembership} (cached : Cached check history membership)
    (later : List MembershipEvent)
    : Cached check (history ++ later) membership := by
  obtain ⟨raw, read, parsed⟩ := cached
  exact ⟨raw, List.mem_append_left later read, parsed⟩

/-- A membership entry is read as it was written. -/
theorem parse_stringifyMembership (membership : CachedMembership)
    : parseCachedMembership (stringifyMembership membership) = some membership := by
  rw [parseCachedMembership, stringifyMembership, Json.parse_stringify rfl]
  rfl

/-- A permission list is read as it was written, by induction on the list. -/
theorem parse_stringifyPermissions (permissions : List String)
    : parseCachedPermissions (stringifyPermissions permissions) = some permissions := by
  have free : (Json.arr (permissions.map .str)).numberFree = true := by
    simp only [Json.numberFree]
    induction permissions with
    | nil => rfl
    | cons permission rest ih => exact ih
  rw [parseCachedPermissions, stringifyPermissions, Json.parse_stringify free]
  simp only [Option.some.injEq]
  induction permissions with
  | nil => rfl
  | cons permission rest ih =>
      simp only [Json.numberFree, List.map_cons, Json.numberFreeItems, Bool.and_eq_true] at free ih
      rw [List.map_cons, List.filterMap_cons, ih free.2]

-----------------------------------------------------------------------------------------
-- What a check writes
-----------------------------------------------------------------------------------------

/-- The history holds this response of the authority to the call. -/
def Responded (check : MembershipCall) (history : List MembershipEvent)
    (response : MembershipRpcResult)
    : Prop :=
  ⟨.checkMembership check.orgId check.userId, .ok response⟩ ∈ history

/-- A check asks about its own user, and what it writes to the store, with its own lifetime,
is taken from a response to it: a membership entry, or a permission list under some role.
-/
def WritesResponse (check : MembershipCall) (history : List MembershipEvent)
    : MembershipOp → Prop
  | .get _ => True
  | .checkMembership orgId userId => orgId = check.orgId ∧ userId = check.userId
  | .set key value ttlMs =>
      ttlMs = check.verifier.cacheTtlMs
      ∧ ∃ response,
          Responded check history response
          ∧ (key = CacheKeys.membership check.orgId check.userId
              ∧ value
                = stringifyMembership { isMember := response.isMember, role := response.role }
            ∨ ∃ role,
                key = CacheKeys.orgPermissions check.orgId role
                ∧ value = stringifyPermissions response.permissions)

/-- A response that has come stays in the history. -/
theorem Responded.mono {check : MembershipCall} {history : List MembershipEvent}
    {response : MembershipRpcResult} (responded : Responded check history response)
    (later : List MembershipEvent)
    : Responded check (history ++ later) response :=
  List.mem_append_left later responded

/-- A response is the last event of the history when it comes. -/
theorem responded_last (check : MembershipCall) (history : List MembershipEvent)
    (response : MembershipRpcResult)
    : Responded check
        (history ++ [⟨.checkMembership check.orgId check.userId, .ok response⟩]) response := by
  simp [Responded]

/-- What the first lookup brings with a response is that response. -/
def FetchedFrom (check : MembershipCall) (history : List MembershipEvent)
    (outcome : Except Thrown (CachedMembership × Option MembershipRpcResult))
    : Prop :=
  ∀ membership fetched,
    outcome = .ok (membership, fetched)
    → ∃ response,
        fetched = some response
        ∧ membership = { isMember := response.isMember, role := response.role }
        ∧ Responded check history response

/-- Seeding writes a response under its own role. -/
theorem writes_seedPermissions {check : MembershipCall} {history : List MembershipEvent}
    {response : MembershipRpcResult} (responded : Responded check history response)
    : Safe (WritesResponse check) (fun _ _ => True) history
        (check.verifier.seedPermissions check.orgId response.role response.permissions) := by
  unfold MembershipVerifier.seedPermissions
  split
  · trivial
  · rw [Program.tryCatch_eq, safe_handle]
    refine safe_set ⟨rfl, response, responded, Or.inr ⟨_, rfl, rfl⟩⟩ ?_
    intro later outcome
    cases outcome <;> trivial

/-- The first fetch asks, seeds, and brings the response. -/
theorem writes_membershipFetch (check : MembershipCall) (history : List MembershipEvent)
    : Safe (WritesResponse check) (FetchedFrom check) history
        (check.verifier.membershipLookup check.orgId check.userId).fetch := by
  unfold MembershipVerifier.membershipLookup
  rw [Program.bind_eq, safe_bind]
  refine safe_fetchMembership ⟨rfl, rfl⟩ ?_
  intro reply
  cases reply with
  | error error => simp [FetchedFrom]
  | ok response =>
      have responded := responded_last check history response
      simp only [Program.bind_eq]
      rw [safe_bind]
      apply (writes_seedPermissions responded).mono (fun _ _ met => met)
      intro later outcome _
      cases outcome with
      | error error => simp [FetchedFrom]
      | ok _ =>
          intro membership fetched same
          cases same
          exact ⟨response, rfl, rfl, responded.mono later⟩

/-- The first lookup writes its own response only. -/
theorem writes_membershipLookup (check : MembershipCall) (history : List MembershipEvent)
    : Safe (WritesResponse check) (fun _ _ => True) history
        (cachedLookup (check.verifier.membershipLookup check.orgId check.userId)) := by
  refine @safe_cachedLookup _ _ _ _ (fun _ _ => True) _ _ (fun _ => ?_) (fun store enabled => ?_)
    (fun _ _ _ _ _ => trivial) (fun store later _ enabled _ => ?_)
  · exact (writes_membershipFetch check history).mono (fun _ _ met => met) (fun _ _ _ => trivial)
  · obtain rfl := enabled_sharedStore rfl enabled
    exact (safe_get trivial).mono (fun _ _ met => met) (fun _ _ _ => trivial)
  · obtain rfl := enabled_sharedStore rfl enabled
    apply (writes_membershipFetch check later).mono (fun _ _ met => met)
    intro after outcome fetched
    cases outcome with
    | error error => trivial
    | ok result =>
        obtain ⟨response, _, same, responded⟩ := fetched result.1 result.2 rfl
        refine safe_set ⟨rfl, response, responded, Or.inl ⟨rfl, ?_⟩⟩ (fun _ _ => trivial)
        rw [← same]

/-- The second lookup writes its own response only. -/
theorem writes_permissionsLookup (check : MembershipCall) (history : List MembershipEvent)
    (role : String)
    : Safe (WritesResponse check) (fun _ _ => True) history
        (cachedLookup (check.verifier.permissionsLookup check.orgId check.userId role)) := by
  have fetches (history : List MembershipEvent)
      : Safe (WritesResponse check)
          (fun later outcome =>
            ∀ permissions,
              outcome = .ok permissions
              → ∃ response, response.permissions = permissions ∧ Responded check later response)
          history (check.verifier.permissionsLookup check.orgId check.userId role).fetch := by
    unfold MembershipVerifier.permissionsLookup
    rw [Program.bind_eq, safe_bind]
    refine safe_fetchMembership ⟨rfl, rfl⟩ ?_
    intro reply
    cases reply with
    | error error => simp
    | ok response =>
        intro permissions same
        exact ⟨response, Except.ok.inj same, responded_last check history response⟩
  refine @safe_cachedLookup _ _ _ _ (fun _ _ => True) _ _ (fun _ => ?_) (fun store enabled => ?_)
    (fun _ _ _ _ _ => trivial) (fun store later _ enabled _ => ?_)
  · exact (fetches history).mono (fun _ _ met => met) (fun _ _ _ => trivial)
  · obtain rfl := enabled_sharedStore rfl enabled
    exact (safe_get trivial).mono (fun _ _ met => met) (fun _ _ _ => trivial)
  · obtain rfl := enabled_sharedStore rfl enabled
    apply (fetches later).mono (fun _ _ met => met)
    intro after outcome fetched
    cases outcome with
    | error error => trivial
    | ok permissions =>
        obtain ⟨response, rfl, responded⟩ := fetched permissions rfl
        exact safe_set ⟨rfl, response, responded, Or.inr ⟨role, rfl, rfl⟩⟩ (fun _ _ => trivial)

/-- A whole check writes its own responses only; witness: both lookups do. -/
theorem writes_checkMembership (check : MembershipCall)
    : Safe (WritesResponse check) (fun _ _ => True) [] check.program := by
  unfold MembershipCall.program MembershipVerifier.checkMembership
  rw [Program.bind_eq, safe_bind]
  apply (writes_membershipLookup check []).mono (fun _ _ met => met)
  intro history outcome _
  cases outcome with
  | error error => trivial
  | ok result =>
      obtain ⟨membership, fetched⟩ := result
      cases member : membership.isMember with
      | false => simp [member]
      | true =>
          cases fetched with
          | some fetched => simp [member]
          | none =>
              simp only [member, Bool.not_true, Bool.false_eq_true, if_false, Program.bind_eq]
              rw [safe_bind]
              refine (writes_permissionsLookup check _ membership.role).mono
                (fun _ _ met => met) ?_
              intro later outcome _
              cases outcome <;> trivial

-----------------------------------------------------------------------------------------
-- Where the answer comes from
-----------------------------------------------------------------------------------------

/-- What a caller is told where the authority gives a response. -/
def answerOf (response : MembershipRpcResult) : MembershipCheckResult where
  isMember := response.isMember
  permissions := if response.isMember then response.permissions else []

/-- How a complete check can end. Either it reads no membership entry and answers what the
authority responds; or it reads one, and answers that the user is no member, or the
permissions that are cached for the role, or those of a response; or it fails as its
question to the authority did, with no response.
-/
inductive Ended (check : MembershipCall) (events : List MembershipEvent)
    : Except Thrown MembershipCheckResult → Prop
  | fetched (response : MembershipRpcResult) (uncached : ∀ cached, ¬ Cached check events cached)
    (responded : ∀ other, Responded check events other ↔ other = response)
    : Ended check events (.ok (answerOf response))
  | denied (membership : CachedMembership) (cached : Cached check events membership)
    (stranger : membership.isMember = false)
    (silent : ∀ response, ¬ Responded check events response)
    : Ended check events (.ok { isMember := false, permissions := [] })
  | served (membership : CachedMembership) (raw : String) (permissions : List String)
    (cached : Cached check events membership) (member : membership.isMember = true)
    (read : ⟨.get (CacheKeys.orgPermissions check.orgId membership.role), .ok (some raw)⟩ ∈ events)
    (parsed : parseCachedPermissions raw = some permissions)
    (silent : ∀ response, ¬ Responded check events response)
    : Ended check events (.ok { isMember := true, permissions })
  | refreshed (membership : CachedMembership) (response : MembershipRpcResult)
    (cached : Cached check events membership) (member : membership.isMember = true)
    (responded : ∀ other, Responded check events other ↔ other = response)
    : Ended check events (.ok { isMember := true, permissions := response.permissions })
  | failed (err : Thrown)
    (asked : ⟨.checkMembership check.orgId check.userId, .error err⟩ ∈ events)
    (silent : ∀ response, ¬ Responded check events response)
    : Ended check events (.error err)

/-- The operation writes to the store. -/
def MembershipOp.Writes : MembershipOp → Prop
  | .set _ _ _ => True
  | _ => False

/-- A read of the shared store is one event, and the entry it finds is parsed. -/
theorem finishes_read {α : Type} {opts : CachedLookupOptions MembershipEffects α}
    {events : List MembershipEvent} {outcome : Except Thrown (Option α)}
    (run : Finishes (opts.read sharedStore) events outcome)
    : ∃ reply,
        events = [⟨.get opts.key, reply⟩]
        ∧ outcome
          = reply.bind (fun
            | none => .ok none
            | some raw => opts.parse raw) := by
  simp only [CachedLookupOptions.read, sharedStore, call, Program.perform_eq, Program.bind_eq,
    Program.await_bind, Program.done_bind, finishes_await] at run
  obtain ⟨reply, _, rfl, run⟩ := run
  refine ⟨reply, ?_⟩
  cases reply with
  | error err =>
      simp only [Program.settle_error, Program.fail_bind, finishes_fail] at run
      obtain ⟨rfl, rfl⟩ := run
      exact ⟨rfl, rfl⟩
  | ok entry =>
      cases entry with
      | none =>
          simp only [Program.settle_ok, Program.done_bind, Program.pure_eq, finishes_done] at run
          obtain ⟨rfl, rfl⟩ := run
          exact ⟨rfl, rfl⟩
      | some raw =>
          simp only [Program.settle_ok, Program.done_bind, finishes_settle] at run
          obtain ⟨rfl, rfl⟩ := run
          exact ⟨rfl, rfl⟩

/-- What is written back to the shared store is written. -/
theorem writes_written {α : Type} {opts : CachedLookupOptions MembershipEffects α}
    {events : List MembershipEvent} {outcome : Except Thrown α}
    (written : opts.Written sharedStore events outcome)
    : ∀ event ∈ events, event.op.Writes := by
  cases outcome with
  | error err =>
      obtain rfl : events = [] := written
      simp
  | ok result =>
      obtain ⟨ended, run⟩ := written
      refine @Uses.of_run _ _ _ MembershipOp.Writes _ _ _ ?_ run
      exact (Uses.settle _).bind (fun _ => ⟨trivial, fun reply => Uses.settle reply⟩)

/-- The first fetch is one question, followed by writes. -/
theorem finishes_membershipFetch {check : MembershipCall} {events : List MembershipEvent}
    {outcome : Except Thrown (CachedMembership × Option MembershipRpcResult)}
    (run
      : Finishes (check.verifier.membershipLookup check.orgId check.userId).fetch events outcome)
    : ∃ reply writes,
        events = ⟨.checkMembership check.orgId check.userId, reply⟩ :: writes
        ∧ (∀ event ∈ writes, event.op.Writes)
        ∧ outcome
          = reply.map (fun (response : MembershipRpcResult) =>
            ({ isMember := response.isMember, role := response.role }, some response)) := by
  simp only [MembershipVerifier.membershipLookup, MembershipVerifier.fetchMembership, call,
    Program.perform_eq, Program.bind_eq, Program.await_bind, Program.done_bind,
    finishes_await] at run
  obtain ⟨reply, writes, rfl, run⟩ := run
  refine ⟨reply, writes, rfl, ?_⟩
  cases reply with
  | error err =>
      simp only [Program.settle_error, Program.fail_bind, finishes_fail] at run
      obtain ⟨rfl, rfl⟩ := run
      exact ⟨by simp, rfl⟩
  | ok response =>
      simp only [Program.settle_ok, Program.done_bind] at run
      have uses : Uses MembershipOp.Writes
          (check.verifier.seedPermissions check.orgId response.role response.permissions) := by
        unfold MembershipVerifier.seedPermissions
        split
        · trivial
        · exact Uses.handle ⟨trivial, fun reply => Uses.settle reply⟩ (fun _ => trivial)
      have total : ∀ head err,
          ¬ Finishes
              (check.verifier.seedPermissions check.orgId response.role response.permissions)
              head (.error err) := by
        intro head err absurd
        unfold MembershipVerifier.seedPermissions at absurd
        split at absurd
        · simp at absurd
        · rw [Program.tryCatch_eq, finishes_handle] at absurd
          rcases absurd with ⟨_, same, _⟩ | ⟨_, _, _, _, _, recovered⟩
          · cases same
          · simp at recovered
      rw [finishes_bind] at run
      rcases run with ⟨err, _, absurd⟩ | ⟨_, head, tail, rfl, seeded, returned⟩
      · exact (total _ _ absurd).elim
      · obtain ⟨rfl, rfl⟩ := (finishes_done ..).mp returned
        rw [List.append_nil]
        exact ⟨uses.of_run seeded, rfl⟩

/-- The response of a question, in a history of that question between one read and writes. -/
theorem responded_of_question {check : MembershipCall} {read writes : List MembershipEvent}
    {reply : Except Thrown MembershipRpcResult}
    (reads : ∀ event ∈ read, ∃ key entry, event = ⟨.get key, entry⟩)
    (writing : ∀ event ∈ writes, event.op.Writes) (response : MembershipRpcResult)
    : Responded check
          (read ++ ⟨.checkMembership check.orgId check.userId, reply⟩ :: writes) response
        ↔ reply = .ok response := by
  constructor
  · intro member
    rcases List.mem_append.mp member with absurd | later
    · obtain ⟨key, entry, same⟩ := reads _ absurd
      cases same
    · rcases List.mem_cons.mp later with same | absurd
      · cases same
        rfl
      · exact (writing _ absurd).elim
  · intro same
    subst same
    simp [Responded]

/-- How the first lookup can end. -/
inductive LookedUp (check : MembershipCall) (events : List MembershipEvent)
    : Except Thrown (CachedMembership × Option MembershipRpcResult) → Prop
  | cached (membership : CachedMembership) (cached : Cached check events membership)
    (silent : ∀ response, ¬ Responded check events response)
    : LookedUp check events (.ok (membership, none))
  | fetched (response : MembershipRpcResult) (uncached : ∀ cached, ¬ Cached check events cached)
    (responded : ∀ other, Responded check events other ↔ other = response)
    : LookedUp check events
        (.ok ({ isMember := response.isMember, role := response.role }, some response))
  | failed (err : Thrown)
    (asked : ⟨.checkMembership check.orgId check.userId, .error err⟩ ∈ events)
    (silent : ∀ response, ¬ Responded check events response)
    : LookedUp check events (.error err)

/-- The end of a lookup that asked, after a read that found no entry. -/
theorem LookedUp.of_question {check : MembershipCall} {read writes : List MembershipEvent}
    {reply : Except Thrown MembershipRpcResult}
    (reads : ∀ event ∈ read, ∃ key entry, event = ⟨.get key, entry⟩)
    (missed : ∀ cached, ¬ Cached check read cached)
    (writing : ∀ event ∈ writes, event.op.Writes)
    : LookedUp check
        (read ++ ⟨.checkMembership check.orgId check.userId, reply⟩ :: writes)
        (reply.map (fun (response : MembershipRpcResult) =>
          ({ isMember := response.isMember, role := response.role }, some response))) := by
  have responded := @responded_of_question check read writes reply reads writing
  cases reply with
  | error err =>
      refine .failed err (by simp) (fun response absurd => ?_)
      cases (responded response).mp absurd
  | ok response =>
      refine .fetched response (fun cached found => ?_) (fun other => ?_)
      · obtain ⟨raw, member, parsed⟩ := found
        rcases List.mem_append.mp member with read | later
        · exact missed cached ⟨raw, read, parsed⟩
        · rcases List.mem_cons.mp later with same | absurd
          · cases same
          · exact (writing _ absurd).elim
      · rw [responded other]
        exact ⟨fun same => (Except.ok.inj same).symm, fun same => by rw [same]⟩

/-- What a lookup reads under a key before it asks: nothing, or no entry that parses. -/
def Missed {β : Type} (key : String) (parse : String → Option β) (read : List MembershipEvent)
    : Prop :=
  read = []
  ∨ ∃ entry,
      read = [⟨.get key, entry⟩] ∧ ∀ raw, entry = .ok (some raw) → parse raw = none

/-- A miss is made of reads. -/
theorem Missed.reads {β : Type} {key : String} {parse : String → Option β}
    {read : List MembershipEvent} (missed : Missed key parse read)
    : ∀ event ∈ read, ∃ key entry, event = ⟨.get key, entry⟩ := by
  rcases missed with rfl | ⟨entry, rfl, _⟩
  · simp
  · exact fun event member => ⟨_, _, List.mem_singleton.mp member⟩

/-- What is read by a lookup that misses does not parse. -/
theorem Missed.refused {β : Type} {key other raw : String} {parse : String → Option β}
    {read : List MembershipEvent} (missed : Missed key parse read)
    (member : ⟨.get other, .ok (some raw)⟩ ∈ read)
    : other = key ∧ parse raw = none := by
  rcases missed with rfl | ⟨entry, rfl, refused⟩
  · cases member
  · cases List.mem_singleton.mp member
    exact ⟨rfl, refused raw rfl⟩

/-- A lookup without a hit on the shared store misses. -/
theorem missed_of_read {α β : Type} {opts : CachedLookupOptions MembershipEffects α}
    {parse : String → Option β} {found : β → α} {read : List MembershipEvent}
    {missed : Except Thrown (Option α)}
    (parses : ∀ raw, opts.parse raw = .ok ((parse raw).map found))
    (miss : Finishes (opts.read sharedStore) read missed)
    (nothing : ∀ cached, missed ≠ .ok (some cached))
    : Missed opts.key parse read := by
  obtain ⟨reply, rfl, same⟩ := finishes_read miss
  refine Or.inr ⟨reply, rfl, fun raw held => ?_⟩
  subst held
  cases parsed : parse raw with
  | none => rfl
  | some value =>
      refine (nothing (found value) ?_).elim
      simp [same, Except.bind, parses, parsed]

/-- A lookup with a hit on the shared store has read an entry that parses. -/
theorem hit_of_read {α β : Type} {opts : CachedLookupOptions MembershipEffects α}
    {parse : String → Option β} {found : β → α} {read : List MembershipEvent} {cached : α}
    (parses : ∀ raw, opts.parse raw = .ok ((parse raw).map found))
    (hit : Finishes (opts.read sharedStore) read (.ok (some cached)))
    : ∃ raw value,
        read = [⟨.get opts.key, .ok (some raw)⟩]
        ∧ parse raw = some value
        ∧ cached = found value := by
  obtain ⟨reply, rfl, same⟩ := finishes_read hit
  cases reply with
  | error err => cases same
  | ok entry =>
      cases entry with
      | none => cases same
      | some raw =>
          have shown : (parse raw).map found = some cached := by
            simpa [Except.bind, parses] using same.symm
          obtain ⟨value, parsed, rfl⟩ := Option.map_eq_some_iff.mp shown
          exact ⟨raw, value, rfl, parsed, rfl⟩

/-- The calls of the first lookup: it is served by an entry, or asks. -/
theorem calls_membershipLookup {check : MembershipCall} {events : List MembershipEvent}
    {outcome : Except Thrown (CachedMembership × Option MembershipRpcResult)}
    (run
      : Finishes (cachedLookup (check.verifier.membershipLookup check.orgId check.userId)) events
          outcome)
    : (∃ raw membership,
          events = [⟨.get (CacheKeys.membership check.orgId check.userId), .ok (some raw)⟩]
          ∧ parseCachedMembership raw = some membership
          ∧ outcome = .ok (membership, none))
      ∨ ∃ read reply writes,
          events = read ++ ⟨.checkMembership check.orgId check.userId, reply⟩ :: writes
          ∧ Missed (CacheKeys.membership check.orgId check.userId) parseCachedMembership read
          ∧ (∀ event ∈ writes, event.op.Writes)
          ∧ outcome
            = reply.map (fun (response : MembershipRpcResult) =>
              ({ isMember := response.isMember, role := response.role }, some response)) := by
  rcases finishes_cachedLookup run with
    ⟨_, fetch⟩
    | ⟨store, enabled, ⟨cached, rfl, hit⟩
      | ⟨read, fetched, tail, missed, rfl, miss, nothing, fetch, written⟩⟩
  · obtain ⟨reply, writes, rfl, writing, rfl⟩ := finishes_membershipFetch fetch
    exact Or.inr ⟨[], reply, writes, rfl, Or.inl rfl, writing, rfl⟩
  · obtain rfl := enabled_sharedStore rfl enabled
    obtain ⟨raw, membership, rfl, parsed, rfl⟩ :=
      @hit_of_read _ _ _ parseCachedMembership _ _ _ (fun _ => rfl) hit
    exact Or.inl ⟨raw, membership, rfl, parsed, rfl⟩
  · obtain rfl := enabled_sharedStore rfl enabled
    have missed := @missed_of_read _ _ _ parseCachedMembership _ _ _ (fun _ => rfl) miss nothing
    obtain ⟨reply, writes, rfl, writing, rfl⟩ := finishes_membershipFetch fetch
    refine Or.inr ⟨read, reply, writes ++ tail, rfl, missed, fun event member => ?_, rfl⟩
    rcases List.mem_append.mp member with earlier | later
    · exact writing event earlier
    · exact writes_written written event later

/-- The first lookup reads, and asks where it finds no entry. -/
theorem finishes_membershipLookup {check : MembershipCall} {events : List MembershipEvent}
    {outcome : Except Thrown (CachedMembership × Option MembershipRpcResult)}
    (run
      : Finishes (cachedLookup (check.verifier.membershipLookup check.orgId check.userId)) events
          outcome)
    : LookedUp check events outcome := by
  rcases calls_membershipLookup run with
    ⟨raw, membership, rfl, parsed, rfl⟩ | ⟨read, reply, writes, rfl, missed, writing, rfl⟩
  · refine .cached membership ⟨raw, List.mem_singleton_self _, parsed⟩ ?_
    intro response absurd
    cases List.mem_singleton.mp absurd
  · refine LookedUp.of_question missed.reads ?_ writing
    intro cached found
    obtain ⟨raw, member, parsed⟩ := found
    rw [(missed.refused member).2] at parsed
    cases parsed

/-- The second fetch is one question. -/
theorem finishes_permissionsFetch {check : MembershipCall} {role : String}
    {events : List MembershipEvent} {outcome : Except Thrown (List String)}
    (run
      : Finishes (check.verifier.permissionsLookup check.orgId check.userId role).fetch events
          outcome)
    : ∃ reply,
        events = [⟨.checkMembership check.orgId check.userId, reply⟩]
        ∧ outcome = reply.map MembershipRpcResult.permissions := by
  simp only [MembershipVerifier.permissionsLookup, MembershipVerifier.fetchMembership, call,
    Program.perform_eq, Program.bind_eq, Program.await_bind, Program.done_bind, Program.pure_eq,
    finishes_await] at run
  obtain ⟨reply, _, rfl, run⟩ := run
  refine ⟨reply, ?_⟩
  cases reply with
  | error err =>
      simp only [Program.settle_error, Program.fail_bind, finishes_fail] at run
      obtain ⟨rfl, rfl⟩ := run
      exact ⟨rfl, rfl⟩
  | ok response =>
      simp only [Program.settle_ok, Program.done_bind, finishes_done] at run
      obtain ⟨rfl, rfl⟩ := run
      exact ⟨rfl, rfl⟩

/-- The calls of the second lookup: it is served by an entry, or asks. -/
theorem calls_permissionsLookup {check : MembershipCall} {role : String}
    {events : List MembershipEvent} {outcome : Except Thrown (List String)}
    (run
      : Finishes (cachedLookup (check.verifier.permissionsLookup check.orgId check.userId role))
          events outcome)
    : (∃ raw permissions,
          events = [⟨.get (CacheKeys.orgPermissions check.orgId role), .ok (some raw)⟩]
          ∧ parseCachedPermissions raw = some permissions
          ∧ outcome = .ok permissions)
      ∨ ∃ (read : List MembershipEvent) (reply : Except Thrown MembershipRpcResult)
          (writes : List MembershipEvent),
          events = read ++ ⟨.checkMembership check.orgId check.userId, reply⟩ :: writes
          ∧ Missed (CacheKeys.orgPermissions check.orgId role) parseCachedPermissions read
          ∧ (∀ event ∈ writes, event.op.Writes)
          ∧ outcome = reply.map MembershipRpcResult.permissions := by
  have parses (raw : String)
      : (check.verifier.permissionsLookup check.orgId check.userId role).parse raw
        = .ok ((parseCachedPermissions raw).map id) := by
    rw [Option.map_id]
    rfl
  rcases finishes_cachedLookup run with
    ⟨_, fetch⟩
    | ⟨store, enabled, ⟨cached, rfl, hit⟩
      | ⟨read, fetched, tail, missed, rfl, miss, nothing, fetch, written⟩⟩
  · obtain ⟨reply, rfl, rfl⟩ := finishes_permissionsFetch fetch
    exact Or.inr ⟨[], reply, [], rfl, Or.inl rfl, by simp, rfl⟩
  · obtain rfl := enabled_sharedStore rfl enabled
    obtain ⟨raw, permissions, rfl, parsed, same⟩ := hit_of_read parses hit
    exact Or.inl ⟨raw, permissions, rfl, parsed, congrArg Except.ok same⟩
  · obtain rfl := enabled_sharedStore rfl enabled
    have missed := missed_of_read parses miss nothing
    obtain ⟨reply, rfl, rfl⟩ := finishes_permissionsFetch fetch
    exact Or.inr ⟨read, reply, tail, rfl, missed, writes_written written, rfl⟩

/-- The second lookup serves the list that is cached for the role, or asks. -/
theorem finishes_permissionsLookup {check : MembershipCall} {role : String}
    {events : List MembershipEvent} {outcome : Except Thrown (List String)}
    (run
      : Finishes (cachedLookup (check.verifier.permissionsLookup check.orgId check.userId role))
          events outcome)
    : (∃ raw permissions,
          outcome = .ok permissions
          ∧ events = [⟨.get (CacheKeys.orgPermissions check.orgId role), .ok (some raw)⟩]
          ∧ parseCachedPermissions raw = some permissions)
      ∨ ∃ reply : Except Thrown MembershipRpcResult,
          outcome = reply.map MembershipRpcResult.permissions
          ∧ ⟨.checkMembership check.orgId check.userId, reply⟩ ∈ events
          ∧ ∀ response, Responded check events response ↔ reply = .ok response := by
  rcases calls_permissionsLookup run with
    ⟨raw, permissions, rfl, parsed, rfl⟩ | ⟨read, reply, writes, rfl, missed, writing, rfl⟩
  · exact Or.inl ⟨raw, permissions, rfl, rfl, parsed⟩
  · exact Or.inr ⟨reply, rfl, by simp, responded_of_question missed.reads writing⟩

/-- Every complete check ends in one of the ways; witness: the first lookup settles all but
the permissions of a cached member.
-/
theorem finishes_checkMembership {check : MembershipCall} {events : List MembershipEvent}
    {outcome : Except Thrown MembershipCheckResult}
    (run : Finishes check.program events outcome)
    : Ended check events outcome := by
  unfold MembershipCall.program MembershipVerifier.checkMembership at run
  rw [Program.bind_eq, finishes_bind] at run
  rcases run with ⟨err, rfl, failed⟩ | ⟨⟨membership, fetched⟩, head, tail, rfl, looked, run⟩
  · cases finishes_membershipLookup failed with
    | failed _ asked silent => exact .failed err asked silent
  · cases finishes_membershipLookup looked with
    | fetched response uncached responded =>
        cases member : response.isMember with
        | false =>
            simp only [member, Bool.not_false, if_true, Program.pure_eq, finishes_done] at run
            obtain ⟨rfl, rfl⟩ := run
            have same : answerOf response = { isMember := false, permissions := [] } := by
              simp [answerOf, member]
            rw [List.append_nil, ← same]
            exact .fetched response uncached responded
        | true =>
            simp only [member, Bool.not_true, Bool.false_eq_true, if_false, Program.pure_eq,
              finishes_done] at run
            obtain ⟨rfl, rfl⟩ := run
            have same : answerOf response
                = { isMember := true, permissions := response.permissions } := by
              simp [answerOf, member]
            rw [List.append_nil, ← same]
            exact .fetched response uncached responded
    | cached _ cached silent =>
        cases member : membership.isMember with
        | false =>
            simp only [member, Bool.not_false, if_true, Program.pure_eq, finishes_done] at run
            obtain ⟨rfl, rfl⟩ := run
            rw [List.append_nil]
            exact .denied membership cached member silent
        | true =>
            simp only [member, Bool.not_true, Bool.false_eq_true, if_false, Program.bind_eq,
              Program.pure_eq] at run
            have still : ∀ response,
                Responded check (head ++ tail) response ↔ Responded check tail response := by
              intro response
              rw [Responded, List.mem_append]
              exact or_iff_right (silent response)
            have kept := cached.mono tail
            rw [finishes_bind] at run
            rcases run with ⟨err, rfl, failed⟩ | ⟨permissions, looked, rest, rfl, served, run⟩
            · rcases finishes_permissionsLookup failed with
                ⟨_, _, absurd, _⟩ | ⟨reply, same, question, asked⟩
              · cases absurd
              · cases reply with
                | ok response => cases same
                | error err' =>
                    cases same
                    refine .failed err (List.mem_append_right _ question) ?_
                    intro response responded
                    cases (asked response).mp ((still response).mp responded)
            · obtain ⟨rfl, rfl⟩ := (finishes_done ..).mp run
              simp only [List.append_nil] at still kept ⊢
              rcases finishes_permissionsLookup served with
                ⟨raw, _, same, rfl, parsed⟩ | ⟨reply, same, _, asked⟩
              · cases same
                refine .served membership raw permissions kept member (by simp) parsed ?_
                intro response responded
                cases List.mem_singleton.mp ((still response).mp responded)
              · cases reply with
                | error err => cases same
                | ok response =>
                    cases same
                    refine .refreshed membership response kept member (fun other => ?_)
                    rw [still, asked]
                    exact ⟨fun same => (Except.ok.inj same).symm, fun same => by rw [same]⟩

end SharedKernel.Grpc
