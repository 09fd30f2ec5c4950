import SharedKernel.Cache.CacheKeys
import SharedKernel.Cache.CachedLookup
import SharedKernel.Js.Json

/-! The membership check of a service without a membership table: who belongs to an
organisation is cached by user, what a role may do by role, and one response of the
authority fills both entries.
-/

namespace SharedKernel.Grpc

open Foundation Js Cache

structure MembershipCheckResult where
  isMember : Bool
  permissions : List String
deriving DecidableEq

/-- What the authority answers. -/
structure MembershipRpcResult where
  isMember : Bool
  permissions : List String
  role : String
deriving DecidableEq

/-- The cached membership entry. -/
structure CachedMembership where
  isMember : Bool
  role : String
deriving DecidableEq

/-- The calls a check makes on the store and, through the breaker, on the authority. -/
inductive MembershipOp where
  | get (key : String)
  | set (key value : String) (ttlMs : Number)
  | checkMembership (orgId userId : String)

/-- Every call may reject. -/
abbrev MembershipOp.Reply : MembershipOp → Type
  | .get _ => Except Thrown (Option String)
  | .set _ _ _ => Except Thrown Unit
  | .checkMembership _ _ => Except Thrown MembershipRpcResult

/-- The effects of the membership verifier. -/
abbrev MembershipEffects : Signature where
  Op := MembershipOp
  Reply := MembershipOp.Reply

abbrev MembershipProgram (α : Type) := Program MembershipEffects Thrown α
abbrev MembershipEvent := Event MembershipEffects

/-- Await one call; a rejection throws. -/
def call (op : MembershipOp) : MembershipProgram op.Reply :=
  Program.perform (F := MembershipEffects) op

/-- The store that the verifiers share. -/
def sharedStore : ICacheStore MembershipEffects where
  get key := do Program.settle (← call (.get key))
  set key value ttlMs := do Program.settle (← call (.set key value ttlMs))

/-- A value that is not an object has neither property, so it is refused with the rest. -/
def parseCachedMembership (raw : String) : Option CachedMembership :=
  match Json.parse raw with
  | none => none
  | some parsed =>
      match parsed.field? "isMember", parsed.field? "role" with
      | some (.bool isMember), some (.str role) => some { isMember, role }
      | _, _ => none

/-- An array keeps its strings and loses the rest. -/
def parseCachedPermissions (raw : String) : Option (List String) :=
  match Json.parse raw with
  | some (.arr items) =>
      some (items.filterMap (fun | .str permission => some permission | _ => none))
  | _ => none

/-- `JSON.stringify` of a membership entry. -/
def stringifyMembership (membership : CachedMembership) : String :=
  Json.stringify
    (.obj [("isMember", .bool membership.isMember), ("role", .str membership.role)])

/-- `JSON.stringify` of a permission list. -/
def stringifyPermissions (permissions : List String) : String :=
  Json.stringify (.arr (permissions.map .str))

def DEFAULT_CACHE_TTL_MS : Number := .ofNat 30000

/-- The cache options; `store` tells whether one was given. -/
structure MembershipCacheOptions where
  ttlMs : Option Number
  store : Bool

/-- The fields of a verifier that a check reads; the breaker and the transport stand behind
the `checkMembership` operation.
-/
structure MembershipVerifier where
  cacheTtlMs : Number
  store : Bool

/-- The constructor, as far as it concerns the cache. -/
def MembershipVerifier.create (cache : Option MembershipCacheOptions) : MembershipVerifier where
  cacheTtlMs := (cache.bind (·.ttlMs)).getD DEFAULT_CACHE_TTL_MS
  store := (cache.map (·.store)).getD false

namespace MembershipVerifier

variable (self : MembershipVerifier)

/-- The store of a verifier, if it has one. -/
def store? : Option (ICacheStore MembershipEffects) :=
  if self.store then some sharedStore else none

/-- Ask the authority through the breaker. -/
def fetchMembership (orgId userId : String) : MembershipProgram MembershipRpcResult := do
  Program.settle (← call (.checkMembership orgId userId))

/-- Write the permission entry of a fetched role, unless there is no role. -/
def seedPermissions (orgId role : String) (permissions : List String)
    : MembershipProgram Unit :=
  if !self.store || (Number.ofNat 0).ge self.cacheTtlMs || role = "" then return ()
  else
    tryCatch
      (sharedStore.set (CacheKeys.orgPermissions orgId role) (stringifyPermissions permissions)
        self.cacheTtlMs)
      (fun _ => return ())

/-- The first lookup. Its result carries `fetched`, the response of this very call. -/
def membershipLookup (orgId userId : String)
    : CachedLookupOptions MembershipEffects (CachedMembership × Option MembershipRpcResult) where
  store := self.store?
  key := CacheKeys.membership orgId userId
  ttlMs := self.cacheTtlMs
  parse raw := .ok ((parseCachedMembership raw).map (fun membership => (membership, none)))
  stringify result := .ok (stringifyMembership result.1)
  fetch := do
    let fetched ← fetchMembership orgId userId
    let _ ← self.seedPermissions orgId fetched.role fetched.permissions
    return ({ isMember := fetched.isMember, role := fetched.role }, some fetched)

/-- The second lookup, under the role the first one gave. -/
def permissionsLookup (orgId userId role : String)
    : CachedLookupOptions MembershipEffects (List String) where
  store := self.store?
  key := CacheKeys.orgPermissions orgId role
  ttlMs := self.cacheTtlMs
  parse raw := .ok (parseCachedPermissions raw)
  stringify permissions := .ok (stringifyPermissions permissions)
  fetch := do
    let fetched ← fetchMembership orgId userId
    return fetched.permissions

/-- Whether a user belongs to an organisation, and what the user may do there. -/
def checkMembership (orgId userId : String) : MembershipProgram MembershipCheckResult := do
  let (membership, fetched) ← cachedLookup (self.membershipLookup orgId userId)
  if !membership.isMember then return { isMember := false, permissions := [] }
  else
    match fetched with
    | some fetched => return { isMember := true, permissions := fetched.permissions }
    | none =>
        let permissions ←
          cachedLookup (self.permissionsLookup orgId userId membership.role)
        return { isMember := true, permissions }

end MembershipVerifier

-----------------------------------------------------------------------------------------
-- The store and the authority
-----------------------------------------------------------------------------------------

/-- A value in the store, with the time and the lifetime it was set with. -/
structure CacheEntry where
  value : String
  setAt : Nat
  ttlMs : Number

/-- The shared store and the authority, at a time in milliseconds. -/
structure MembershipWorld where
  clock : Nat
  entries : String → Option CacheEntry
  authority : String → String → MembershipRpcResult

namespace MembershipWorld

/-- The last value set under a key, unless it was deleted or has expired. -/
def lookup (world : MembershipWorld) (key : String) : Option String :=
  (world.entries key).bind (fun entry =>
    if entry.ttlMs.gt (.ofNat (world.clock - entry.setAt)) then some entry.value else none)

/-- Set a value under a key. -/
def put (world : MembershipWorld) (key value : String) (ttlMs : Number) : MembershipWorld :=
  {
    world with
    entries :=
      fun other =>
        if other = key then some { value, setAt := world.clock, ttlMs } else world.entries other
  }

/-- The world once the entry under a key is deleted. -/
def del (world : MembershipWorld) (key : String) : MembershipWorld :=
  { world with entries := fun other => if other = key then none else world.entries other }

/-- What has just been set is served, where its lifetime is positive. -/
theorem lookup_put (world : MembershipWorld) (key value : String) {ttlMs : Number}
    (alive : ttlMs.gt (.ofNat 0) = true)
    : (world.put key value ttlMs).lookup key = some value := by
  simp [lookup, put, alive]

/-- Setting a value under one key keeps the others. -/
theorem lookup_put_other (world : MembershipWorld) {key other : String} (value : String)
    (ttlMs : Number) (different : other ≠ key)
    : (world.put key value ttlMs).lookup other = world.lookup other := by
  simp only [lookup, put, if_neg different]
  rfl

/-- What has been deleted is not served. -/
theorem lookup_del (world : MembershipWorld) (key : String)
    : (world.del key).lookup key = none := by
  simp [lookup, del]

/-- Deleting one key keeps the others. -/
theorem lookup_del_other (world : MembershipWorld) {key other : String}
    (different : other ≠ key)
    : (world.del key).lookup other = world.lookup other := by
  simp only [lookup, del, if_neg different]
  rfl

/-- How the world answers a call: any call may reject, and a write that rejects may still
have been made.
-/
inductive Answers : MembershipWorld → MembershipEvent → MembershipWorld → Prop
  | got (world) {key : String} {entry : Option String} (found : world.lookup key = entry)
    : Answers world ⟨.get key, .ok entry⟩ world
  | getFailed (world) (key : String) (err : Thrown)
    : Answers world ⟨.get key, .error err⟩ world
  | written (world) (key value : String) (ttlMs : Number) (reply : Except Thrown Unit)
    : Answers world ⟨.set key value ttlMs, reply⟩ (world.put key value ttlMs)
  | setFailed (world) (key value : String) (ttlMs : Number) (err : Thrown)
    : Answers world ⟨.set key value ttlMs, .error err⟩ world
  | responded (world) {orgId userId : String} {response : MembershipRpcResult}
    (decided : world.authority orgId userId = response)
    : Answers world ⟨.checkMembership orgId userId, .ok response⟩ world
  | rpcFailed (world) (orgId userId : String) (err : Thrown)
    : Answers world ⟨.checkMembership orgId userId, .error err⟩ world

/-- How the world moves between calls: time passes, an entry is deleted, the authority's data
changes.
-/
inductive Drifts : MembershipWorld → MembershipWorld → Prop
  | passed (world) (elapsed : Nat) : Drifts world { world with clock := world.clock + elapsed }
  | deleted (world) (key : String)
    : Drifts world
        { world with entries := fun other => if other = key then none else world.entries other }
  | decided (world) (authority : String → String → MembershipRpcResult)
    : Drifts world { world with authority }

section Entries

variable {world next : MembershipWorld} {event : MembershipEvent} {key : String}
  {entry : CacheEntry}

/-- An entry that is there after an answer was there before, or is set by the call. -/
theorem Answers.of_entry (answered : Answers world event next)
    (found : next.entries key = some entry)
    : world.entries key = some entry
      ∨ ∃ reply, event = ⟨.set key entry.value entry.ttlMs, reply⟩ ∧ entry.setAt = world.clock := by
  cases answered with
  | got | getFailed | setFailed | responded | rpcFailed => exact Or.inl found
  | written other value ttlMs reply =>
      simp only [put] at found
      split at found
      · rename_i same
        subst same
        cases found
        exact Or.inr ⟨reply, rfl, rfl⟩
      · exact Or.inl found

/-- An answer takes no time. -/
theorem Answers.clock (answered : Answers world event next) : next.clock = world.clock := by
  cases answered <;> rfl

/-- What is read is the value of an entry that has not expired. -/
theorem Answers.read {raw : String} (answered : Answers world ⟨.get key, .ok (some raw)⟩ next)
    : ∃ entry,
        world.entries key = some entry
        ∧ entry.value = raw
        ∧ entry.ttlMs.gt (.ofNat (world.clock - entry.setAt)) = true := by
  cases answered with
  | got found =>
      obtain ⟨entry, stored, alive⟩ := Option.bind_eq_some_iff.mp found
      split at alive
      · rename_i fresh
        exact ⟨entry, stored, Option.some.inj alive, fresh⟩
      · cases alive

/-- Between calls no entry is set. -/
theorem Drifts.of_entry (moved : Drifts world next) (found : next.entries key = some entry)
    : world.entries key = some entry := by
  cases moved with
  | passed | decided => exact found
  | deleted other =>
      dsimp only at found
      split at found
      · cases found
      · exact found

/-- Between calls the clock does not go back. -/
theorem Drifts.clock_le (moved : Drifts world next) : world.clock ≤ next.clock := by
  cases moved with
  | passed elapsed => exact Nat.le_add_right ..
  | deleted | decided => exact Nat.le_refl _

end Entries

end MembershipWorld

/-- One call of `checkMembership` on one of the verifiers. -/
structure MembershipCall where
  verifier : MembershipVerifier
  orgId : String
  userId : String

/-- The program of a call. -/
def MembershipCall.program (check : MembershipCall) : MembershipProgram MembershipCheckResult :=
  check.verifier.checkMembership check.orgId check.userId

/-- No id of the call contains the separator. -/
def MembershipCall.Clean (check : MembershipCall) : Prop :=
  NulFree check.orgId ∧ NulFree check.userId

end SharedKernel.Grpc
