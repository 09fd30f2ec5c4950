import SharedKernel.Foundation.Indifferent
import SharedKernel.Grpc.PermissionIntegrity

/-! Corrupt entries of the shared store: a check goes on as if they were absent, unless it reads
a permission list that holds something other than strings, which it trusts for the rest.
-/

namespace SharedKernel.Grpc

open Foundation Js Cache

/-- The entry is the JSON of an object with a boolean `isMember` and a string `role`. -/
def IsMembership (raw : String) : Prop :=
  ∃ members isMember role,
    Json.parse raw = some (.obj members)
    ∧ (Json.obj members).field? "isMember" = some (.bool isMember)
    ∧ (Json.obj members).field? "role" = some (.str role)

/-- The entry is the JSON of an array of strings. -/
def IsPermissions (raw : String) : Prop :=
  ∃ permissions : List String, Json.parse raw = some (.arr (permissions.map .str))

/-- The entry is the JSON of an array with an item that is not a string. -/
def HoldsNonString (raw : String) : Prop :=
  ∃ items, Json.parse raw = some (.arr items) ∧ ∃ item ∈ items, ∀ text, item ≠ .str text

/-- An entry of the wrong form for its key. -/
inductive Corrupt : String → String → Prop
  | membership (orgId userId : String) {raw : String} (ill : ¬ IsMembership raw)
    : Corrupt (CacheKeys.membership orgId userId) raw
  | permissions (orgId role : String) {raw : String} (ill : ¬ IsPermissions raw)
    : Corrupt (CacheKeys.orgPermissions orgId role) raw

/-- A corrupt membership entry is not one: no permission key is equal to its key. -/
theorem Corrupt.not_isMembership {orgId userId raw : String}
    (corrupt : Corrupt (CacheKeys.membership orgId userId) raw)
    : ¬ IsMembership raw := by
  generalize same : CacheKeys.membership orgId userId = key at corrupt
  cases corrupt with
  | membership _ _ ill => exact ill
  | permissions orgId' role _ =>
      exact (CacheKeys.membership_ne_orgPermissions _ _ _ _ same).elim

/-- An entry that the parser for its key refuses. -/
inductive Refused : String → String → Prop
  | membership (orgId userId : String) {raw : String} (none : parseCachedMembership raw = none)
    : Refused (CacheKeys.membership orgId userId) raw
  | permissions (orgId role : String) {raw : String} (none : parseCachedPermissions raw = none)
    : Refused (CacheKeys.orgPermissions orgId role) raw

/-- What is refused under a membership key does not parse: no other key is equal to it. -/
theorem Refused.no_membership {orgId userId raw : String}
    (refused : Refused (CacheKeys.membership orgId userId) raw)
    : parseCachedMembership raw = none := by
  generalize same : CacheKeys.membership orgId userId = key at refused
  cases refused with
  | membership _ _ none => exact none
  | permissions orgId' role _ =>
      exact (CacheKeys.membership_ne_orgPermissions _ _ _ _ same).elim

/-- What is refused under a permission key does not parse: no other key is equal to it. -/
theorem Refused.no_permissions {orgId role raw : String}
    (refused : Refused (CacheKeys.orgPermissions orgId role) raw)
    : parseCachedPermissions raw = none := by
  generalize same : CacheKeys.orgPermissions orgId role = key at refused
  cases refused with
  | membership orgId' userId _ =>
      exact (CacheKeys.membership_ne_orgPermissions _ _ _ _ same.symm).elim
  | permissions _ _ none => exact none

/-- A membership entry is refused exactly where it has the wrong form; witness: the two
fields are looked up in what was parsed.
-/
theorem parseCachedMembership_eq_none_iff (raw : String)
    : parseCachedMembership raw = none ↔ ¬ IsMembership raw := by
  constructor
  · intro refused form
    obtain ⟨members, isMember, role, parsed, member, named⟩ := form
    simp [parseCachedMembership, parsed, member, named] at refused
  · intro ill
    unfold parseCachedMembership
    cases parsed : Json.parse raw with
    | none => rfl
    | some value =>
        dsimp only
        split
        · rename_i isMember role member named
          cases value with
          | obj members => exact (ill ⟨members, isMember, role, parsed, member, named⟩).elim
          | null | bool | num | str | arr => cases member
        · rfl

/-- The items are strings, or one of them is not; by induction on the list. -/
theorem strings_or_other (items : List Json)
    : (∃ permissions : List String, items = permissions.map .str)
      ∨ ∃ item ∈ items, ∀ text, item ≠ .str text := by
  induction items with
  | nil => exact Or.inl ⟨[], rfl⟩
  | cons item rest ih =>
      rcases ih with ⟨permissions, rfl⟩ | ⟨other, member, different⟩
      · cases item with
        | str text => exact Or.inl ⟨text :: permissions, rfl⟩
        | null | bool | num | arr | obj => exact Or.inr ⟨_, List.mem_cons_self .., by simp⟩
      · exact Or.inr ⟨other, List.mem_cons_of_mem _ member, different⟩

/-- A permission entry of the wrong form is refused, unless it is an array. -/
theorem parseCachedPermissions_of_ill {raw : String} (ill : ¬ IsPermissions raw)
    : parseCachedPermissions raw = none ∨ HoldsNonString raw := by
  unfold parseCachedPermissions
  split
  · rename_i items parsed
    rcases strings_or_other items with ⟨permissions, rfl⟩ | mixed
    · exact (ill ⟨permissions, parsed⟩).elim
    · exact Or.inr ⟨items, parsed, mixed⟩
  · exact Or.inl rfl

/-- An array is accepted whatever its items are. -/
theorem HoldsNonString.accepted {raw : String} (mixed : HoldsNonString raw)
    : ∃ permissions, parseCachedPermissions raw = some permissions := by
  obtain ⟨items, parsed, _⟩ := mixed
  exact ⟨_, by rw [parseCachedPermissions, parsed]⟩

/-- An array of strings has no other item. -/
theorem HoldsNonString.ill {raw : String} (mixed : HoldsNonString raw) : ¬ IsPermissions raw := by
  intro form
  obtain ⟨items, parsed, item, member, different⟩ := mixed
  obtain ⟨permissions, parsed'⟩ := form
  rw [parsed] at parsed'
  obtain rfl : items = permissions.map .str := Json.arr.inj (Option.some.inj parsed')
  obtain ⟨text, _, rfl⟩ := List.mem_map.mp member
  exact different text rfl

-----------------------------------------------------------------------------------------
-- Refused entries make no difference
-----------------------------------------------------------------------------------------

/-- Replies that a check cannot tell apart: a refused entry, and none. -/
inductive Unnoticed : (op : MembershipOp) → op.Reply → op.Reply → Prop
  | same (op : MembershipOp) (reply : op.Reply) : Unnoticed op reply reply
  | refused {key raw : String} (refused : Refused key raw)
    : Unnoticed (.get key) (.ok (some raw)) (.ok none)

/-- What a write is replied is noticed in full. -/
theorem indifferent_set (key value : String) (ttlMs : Number)
    : Indifferent (F := MembershipEffects) Unnoticed (sharedStore.set key value ttlMs) := by
  refine ⟨fun reply other same => ?_, fun reply => .settle reply⟩
  cases same
  rfl

/-- What the authority replies is noticed in full. -/
theorem indifferent_fetchMembership (orgId userId : String)
    : Indifferent (F := MembershipEffects) Unnoticed
        (MembershipVerifier.fetchMembership orgId userId) := by
  refine ⟨fun reply other same => ?_, fun reply => .settle reply⟩
  cases same
  rfl

/-- A refused entry reads as none. -/
theorem indifferent_read {α : Type} {opts : CachedLookupOptions MembershipEffects α}
    (refuses : ∀ raw, Refused opts.key raw → opts.parse raw = .ok none)
    : Indifferent (F := MembershipEffects) Unnoticed (opts.read sharedStore) := by
  refine ⟨fun reply other same => ?_, fun reply => ?_⟩
  · cases same with
    | same => rfl
    | @refused _ raw refused =>
        change (Program.settle (opts.parse raw) : MembershipProgram (Option α)) = .done none
        rw [refuses raw refused]
        rfl
  · cases reply with
    | error err => trivial
    | ok entry =>
        cases entry with
        | none => trivial
        | some raw => exact Indifferent.settle (opts.parse raw)

/-- A lookup goes on after a refused entry as after none. -/
theorem indifferent_lookup {α : Type} {opts : CachedLookupOptions MembershipEffects α}
    {self : MembershipVerifier} (given : opts.store = self.store?)
    (refuses : ∀ raw, Refused opts.key raw → opts.parse raw = .ok none)
    (fetches : Indifferent (F := MembershipEffects) Unnoticed opts.fetch)
    : Indifferent (F := MembershipEffects) Unnoticed (cachedLookup opts) := by
  unfold cachedLookup
  cases enabled : opts.enabled? with
  | none => exact fetches
  | some store =>
      obtain rfl := enabled_sharedStore given enabled
      refine Indifferent.bind ((indifferent_read refuses).handle (fun _ => trivial)) ?_
      intro read
      cases read with
      | some cached => trivial
      | none =>
          refine Indifferent.bind fetches (fun result => ?_)
          refine Indifferent.bind (Indifferent.handle ?_ (fun _ => trivial)) (fun _ => trivial)
          exact (Indifferent.settle _).bind (fun value => indifferent_set ..)

/-- A whole check goes on after a refused entry as after none; witness: both lookups do. -/
theorem indifferent_checkMembership (check : MembershipCall)
    : Indifferent (F := MembershipEffects) Unnoticed check.program := by
  unfold MembershipCall.program MembershipVerifier.checkMembership
  refine Indifferent.bind (indifferent_lookup rfl ?_ ?_) ?_
  · intro raw refused
    exact congrArg (fun found => Except.ok (Option.map (fun held => (held, none)) found))
      refused.no_membership
  · refine (indifferent_fetchMembership ..).bind (fun response => ?_)
    refine Indifferent.bind ?_ (fun _ => trivial)
    unfold MembershipVerifier.seedPermissions
    split
    · trivial
    · exact (indifferent_set ..).handle (fun _ => trivial)
  · intro looked
    obtain ⟨membership, fetched⟩ := looked
    dsimp only
    split
    · trivial
    · cases fetched with
      | some response => trivial
      | none =>
          refine Indifferent.bind (indifferent_lookup rfl ?_ ?_) (fun _ => trivial)
          · intro raw refused
            exact congrArg Except.ok refused.no_permissions
          · exact (indifferent_fetchMembership ..).bind (fun _ => trivial)

-----------------------------------------------------------------------------------------
-- The calls of a check
-----------------------------------------------------------------------------------------

/-- The calls of a complete check, in order, and how it ends: it asks without a membership
entry, or it is served by one alone, or by one and a permission list, or by one and asks.
-/
inductive Checked (check : MembershipCall)
    : List MembershipEvent → Except Thrown MembershipCheckResult → Prop
  | asked {read writes : List MembershipEvent}
    (missed
      : Missed (CacheKeys.membership check.orgId check.userId) parseCachedMembership read)
    (reply : Except Thrown MembershipRpcResult) (writing : ∀ event ∈ writes, event.op.Writes)
    : Checked check (read ++ ⟨.checkMembership check.orgId check.userId, reply⟩ :: writes)
        (reply.map answerOf)
  | denied {raw : String} {membership : CachedMembership}
    (parsed : parseCachedMembership raw = some membership)
    (stranger : membership.isMember = false)
    : Checked check [⟨.get (CacheKeys.membership check.orgId check.userId), .ok (some raw)⟩]
        (.ok { isMember := false, permissions := [] })
  | served {raw listed : String} {membership : CachedMembership} {permissions : List String}
    (parsed : parseCachedMembership raw = some membership)
    (list : parseCachedPermissions listed = some permissions)
    : Checked check
        [
          ⟨.get (CacheKeys.membership check.orgId check.userId), .ok (some raw)⟩,
          ⟨.get (CacheKeys.orgPermissions check.orgId membership.role), .ok (some listed)⟩
        ]
        (.ok { isMember := true, permissions })
  | refreshed {raw : String} {membership : CachedMembership} {read writes : List MembershipEvent}
    (parsed : parseCachedMembership raw = some membership)
    (missed
      : Missed (CacheKeys.orgPermissions check.orgId membership.role) parseCachedPermissions read)
    (reply : Except Thrown MembershipRpcResult) (writing : ∀ event ∈ writes, event.op.Writes)
    : Checked check
        (⟨.get (CacheKeys.membership check.orgId check.userId), .ok (some raw)⟩
          :: (read ++ ⟨.checkMembership check.orgId check.userId, reply⟩ :: writes))
        (reply.map (fun response => { isMember := true, permissions := response.permissions }))

/-- Every complete check makes the calls of one of the ways; witness: those of its lookups. -/
theorem checked_of_finishes {check : MembershipCall} {events : List MembershipEvent}
    {outcome : Except Thrown MembershipCheckResult}
    (run : Finishes check.program events outcome)
    : Checked check events outcome := by
  unfold MembershipCall.program MembershipVerifier.checkMembership at run
  rw [Program.bind_eq, finishes_bind] at run
  rcases run with ⟨err, rfl, failed⟩ | ⟨⟨membership, fetched⟩, head, tail, rfl, looked, run⟩
  · rcases calls_membershipLookup failed with
      ⟨_, _, _, _, absurd⟩ | ⟨read, reply, writes, rfl, missed, writing, same⟩
    · cases absurd
    · cases reply with
      | ok response => cases same
      | error _ =>
          cases same
          exact .asked missed (.error err) writing
  · rcases calls_membershipLookup looked with
      ⟨raw, cached, rfl, parsed, same⟩ | ⟨read, reply, writes, rfl, missed, writing, same⟩
    · cases same
      cases member : membership.isMember with
      | false =>
          simp only [member, Bool.not_false, if_true, Program.pure_eq, finishes_done] at run
          obtain ⟨rfl, rfl⟩ := run
          exact .denied parsed member
      | true =>
          simp only [member, Bool.not_true, Bool.false_eq_true, if_false, Program.bind_eq,
            Program.pure_eq] at run
          rw [finishes_bind] at run
          rcases run with ⟨err, rfl, failed⟩ | ⟨permissions, calls, rest, rfl, served, run⟩
          · rcases calls_permissionsLookup failed with
              ⟨_, _, _, _, absurd⟩ | ⟨read, reply, writes, rfl, missed, writing, same⟩
            · cases absurd
            · cases reply with
              | ok response => cases same
              | error _ =>
                  cases same
                  exact .refreshed parsed missed (.error err) writing
          · obtain ⟨rfl, rfl⟩ := (finishes_done ..).mp run
            rw [List.append_nil]
            rcases calls_permissionsLookup served with
              ⟨listed, _, rfl, list, same⟩ | ⟨read, reply, writes, rfl, missed, writing, same⟩
            · cases same
              exact .served parsed list
            · cases reply with
              | error err => cases same
              | ok response =>
                  cases same
                  exact .refreshed parsed missed (.ok response) writing
    · cases reply with
      | error err => cases same
      | ok response =>
          cases same
          obtain ⟨rfl, answer⟩ : tail = [] ∧ outcome = .ok (answerOf response) := by
            cases member : response.isMember with
            | false => simpa [member, answerOf] using run
            | true => simpa [member, answerOf] using run
          rw [List.append_nil, answer]
          exact .asked missed (.ok response) writing

-----------------------------------------------------------------------------------------
-- Corrupt entries as absent ones
-----------------------------------------------------------------------------------------

/-- An event with a corrupt entry taken for none. -/
inductive Blanked : MembershipEvent → MembershipEvent → Prop
  | corrupt {key raw : String} (ill : Corrupt key raw)
    : Blanked ⟨.get key, .ok (some raw)⟩ ⟨.get key, .ok none⟩
  | kept {event : MembershipEvent}
    (sound : ∀ key raw, event = ⟨.get key, .ok (some raw)⟩ → ¬ Corrupt key raw)
    : Blanked event event

/-- The operation asks the authority. -/
def MembershipOp.isRpc : MembershipOp → Bool
  | .checkMembership _ _ => true
  | _ => false

@[simp] theorem MembershipOp.isRpc_get (key : String) : (MembershipOp.get key).isRpc = false :=
  rfl

@[simp] theorem MembershipOp.isRpc_checkMembership (orgId userId : String)
    : (MembershipOp.checkMembership orgId userId).isRpc = true :=
  rfl

/-- The call with a verifier that has no store. -/
def MembershipCall.uncached (check : MembershipCall) : MembershipCall :=
  { check with verifier := { check.verifier with store := false } }

/-- Corrupt entries only cost the check a round-trip. -/
structure CostsRoundTrip (check : MembershipCall) (events : List MembershipEvent)
    (outcome : Except Thrown MembershipCheckResult)
    : Prop where
  /-- The check goes on and ends as if the corrupt entries were absent. -/
  absent
    : ∀ blanked, List.Forall₂ Blanked events blanked → Finishes check.program blanked outcome
  /-- Where only corrupt entries are read, the check ends as one without a store. -/
  uncached
    : (∀ key raw, ⟨.get key, .ok (some raw)⟩ ∈ events → Corrupt key raw)
      → ∃ reply,
          ⟨.checkMembership check.orgId check.userId, reply⟩ ∈ events
          ∧ Finishes check.uncached.program
              [⟨.checkMembership check.orgId check.userId, reply⟩] outcome
          ∧ outcome = reply.map answerOf
  /-- The authority is asked at most once. -/
  askedOnce : events.countP (fun event => event.op.isRpc) ≤ 1
  /-- The check rejects only where its question does. -/
  rejected
    : ∀ err,
        outcome = .error err → ⟨.checkMembership check.orgId check.userId, .error err⟩ ∈ events

/-- The corrupt entries of a history can be blanked, all of them; by induction on it. -/
theorem exists_blanked (events : List MembershipEvent)
    : ∃ blanked,
        List.Forall₂ Blanked events blanked
        ∧ ∀ key raw,
            ⟨.get key, .ok (some raw)⟩ ∈ events
            → Corrupt key raw
            → (⟨.get key, .ok none⟩ : MembershipEvent) ∈ blanked := by
  induction events with
  | nil => exact ⟨[], .nil, by simp⟩
  | cons event rest ih =>
      obtain ⟨blanked, blanks, held⟩ := ih
      by_cases ill : ∃ key raw, event = ⟨.get key, .ok (some raw)⟩ ∧ Corrupt key raw
      · obtain ⟨key, raw, rfl, corrupt⟩ := ill
        refine ⟨_, .cons (.corrupt corrupt) blanks, fun other text member ill => ?_⟩
        rcases List.mem_cons.mp member with same | later
        · cases same
          exact .head _
        · exact .tail _ (held other text later ill)
      · refine ⟨_, .cons (.kept (fun key raw same corrupt => ill ⟨key, raw, same, corrupt⟩)) blanks,
          fun other text member ill' => ?_⟩
        rcases List.mem_cons.mp member with same | later
        · exact (ill ⟨other, text, same.symm, ill'⟩).elim
        · exact .tail _ (held other text later ill')

/-- A read that misses asks nothing. -/
theorem Missed.silent {β : Type} {key : String} {parse : String → Option β}
    {read : List MembershipEvent} (missed : Missed key parse read)
    : read.countP (fun event => event.op.isRpc) = 0 := by
  rcases missed with rfl | ⟨entry, rfl, _⟩ <;> rfl

/-- Writes ask nothing. -/
theorem silent_writes {writes : List MembershipEvent}
    (writing : ∀ event ∈ writes, event.op.Writes)
    : writes.countP (fun event => event.op.isRpc) = 0 := by
  rw [List.countP_eq_zero]
  intro event member asks
  have writes := writing event member
  obtain ⟨op, reply⟩ := event
  cases op with
  | get | set => cases asks
  | checkMembership => exact writes

/-- A verifier without a store asks once and passes the answer on. -/
theorem uncached_finishes (check : MembershipCall) (reply : Except Thrown MembershipRpcResult)
    : Finishes check.uncached.program [⟨.checkMembership check.orgId check.userId, reply⟩]
        (reply.map answerOf) := by
  have disabled
      : (check.uncached.verifier.membershipLookup check.orgId check.userId).enabled? = none := by
    simp [CachedLookupOptions.enabled?, MembershipVerifier.membershipLookup,
      MembershipVerifier.store?, MembershipCall.uncached]
  change Finishes (check.uncached.verifier.checkMembership check.orgId check.userId) _ _
  rw [MembershipVerifier.checkMembership, cachedLookup, disabled]
  cases reply with
  | error err => exact .step _ (.refl _)
  | ok response =>
      refine (finishes_await ..).mpr ⟨.ok response, [], rfl, ?_⟩
      have seeds : check.uncached.verifier.seedPermissions check.orgId response.role
          response.permissions = .done () := rfl
      cases member : response.isMember <;> simp [seeds, member, answerOf, Except.map]

/-- A check that is served by a permission list asks nothing. -/
theorem Checked.silent_of_listed {check : MembershipCall} {events : List MembershipEvent}
    {outcome : Except Thrown MembershipCheckResult} (checked : Checked check events outcome)
    {orgId role listed : String}
    (read : ⟨.get (CacheKeys.orgPermissions orgId role), .ok (some listed)⟩ ∈ events)
    {permissions : List String} (list : parseCachedPermissions listed = some permissions)
    : events.countP (fun event => event.op.isRpc) = 0 := by
  have writes_none : ∀ {writes : List MembershipEvent} {key : String} {reply},
      (∀ event ∈ writes, event.op.Writes) → (⟨.get key, reply⟩ : MembershipEvent) ∉ writes :=
    fun writing member => writing _ member
  cases checked with
  | denied parsed stranger => rfl
  | served parsed list' => rfl
  | asked missed reply writing =>
      exfalso
      rcases List.mem_append.mp read with earlier | later
      · exact CacheKeys.membership_ne_orgPermissions _ _ _ _ (missed.refused earlier).1.symm
      · rcases List.mem_cons.mp later with same | later
        · cases same
        · exact writes_none writing later
  | refreshed parsed missed reply writing =>
      exfalso
      rcases List.mem_cons.mp read with same | read
      · have keys := congrArg Event.op same
        exact CacheKeys.membership_ne_orgPermissions _ _ _ _ (MembershipOp.get.inj keys).symm
      · rcases List.mem_append.mp read with earlier | later
        · rw [(missed.refused earlier).2] at list
          cases list
        · rcases List.mem_cons.mp later with same | later
          · cases same
          · exact writes_none writing later

/-- A check that asks nothing has found every entry it has read. -/
theorem Checked.found_of_silent {check : MembershipCall} {events : List MembershipEvent}
    {outcome : Except Thrown MembershipCheckResult} (checked : Checked check events outcome)
    (silent : events.countP (fun event => event.op.isRpc) = 0) {key : String}
    : (⟨.get key, .ok none⟩ : MembershipEvent) ∉ events := by
  cases checked with
  | denied parsed stranger => simp
  | served parsed list => simp
  | asked missed reply writing => simp [List.countP_append] at silent
  | refreshed parsed missed reply writing =>
      simp [List.countP_append] at silent

/-- Blanking an entry keeps what is asked, by induction on the events. -/
theorem silent_of_blanked {events blanked : List MembershipEvent}
    (blanks : List.Forall₂ Blanked events blanked)
    : blanked.countP (fun event => event.op.isRpc)
      = events.countP (fun event => event.op.isRpc) := by
  induction blanks with
  | nil => rfl
  | cons head _ ih =>
      cases head with
      | corrupt => simpa using ih
      | kept => rw [List.countP_cons, List.countP_cons, ih]

/-- Blanking takes an entry that holds no list with other items for one that is refused. -/
theorem exchanged_of_blanked {events blanked : List MembershipEvent}
    (blanks : List.Forall₂ Blanked events blanked)
    (lists
      : ∀ orgId role raw,
          ⟨.get (CacheKeys.orgPermissions orgId role), .ok (some raw)⟩ ∈ events
          → ¬ HoldsNonString raw)
    : List.Forall₂ (Exchanged (F := MembershipEffects) Unnoticed) events blanked := by
  induction blanks with
  | nil => exact .nil
  | cons head _ ih =>
      refine .cons ?_ (ih (fun orgId role raw member => lists orgId role raw (.tail _ member)))
      cases head with
      | kept => exact .intro (F := MembershipEffects) _ (.same _ _)
      | corrupt ill =>
          refine .intro (F := MembershipEffects) _ (.refused ?_)
          cases ill with
          | membership _ _ ill =>
              exact .membership _ _ ((parseCachedMembership_eq_none_iff _).mpr ill)
          | permissions orgId role ill =>
              refine .permissions _ _ ?_
              rcases parseCachedPermissions_of_ill ill with refused | mixed
              · exact refused
              · exact (lists orgId role _ (.head _) mixed).elim

/-- The part of the law that holds of every check: one question at most, whose failure is the
only one, and no answer but the authority's where only corrupt entries are read.
-/
theorem Checked.costs {check : MembershipCall} {events : List MembershipEvent}
    {outcome : Except Thrown MembershipCheckResult} (checked : Checked check events outcome)
    (absent
      : ∀ blanked, List.Forall₂ Blanked events blanked → Finishes check.program blanked outcome)
    : CostsRoundTrip check events outcome where
  absent := absent
  uncached := by
    intro corrupt
    have reads_none {raw : String} {membership : CachedMembership} {rest : List MembershipEvent}
        (parsed : parseCachedMembership raw = some membership)
        (corrupt
          : ∀ key other,
              ⟨.get key, .ok (some other)⟩
                ∈ ⟨.get (CacheKeys.membership check.orgId check.userId), .ok (some raw)⟩ :: rest
              → Corrupt key other)
        : False := by
      have none :=
        (parseCachedMembership_eq_none_iff raw).mpr (corrupt _ raw (.head _)).not_isMembership
      rw [parsed] at none
      cases none
    cases checked with
    | asked missed reply writing =>
        exact ⟨reply, by simp, uncached_finishes check reply, rfl⟩
    | denied parsed stranger => exact (reads_none parsed corrupt).elim
    | served parsed list => exact (reads_none parsed corrupt).elim
    | refreshed parsed missed reply writing => exact (reads_none parsed corrupt).elim
  askedOnce := by
    cases checked with
    | asked missed reply writing =>
        rw [List.countP_append, List.countP_cons, missed.silent, silent_writes writing]
        simp
    | denied parsed stranger => simp
    | served parsed list => simp
    | refreshed parsed missed reply writing =>
        rw [List.countP_cons, List.countP_append, List.countP_cons, missed.silent,
          silent_writes writing]
        simp
  rejected := by
    intro err failed
    cases checked with
    | asked missed reply writing =>
        cases reply with
        | ok response => cases failed
        | error err' =>
            cases failed
            simp
    | denied parsed stranger => cases failed
    | served parsed list => cases failed
    | refreshed parsed missed reply writing =>
        cases reply with
        | ok response => cases failed
        | error err' =>
            cases failed
            simp

/-- A check that takes corrupt entries for absent ones reads no list with other items: such a
list is served with no question asked, and no check ends so without an entry.
-/
theorem CostsRoundTrip.no_mixed {check : MembershipCall} {events : List MembershipEvent}
    {outcome : Except Thrown MembershipCheckResult} (costs : CostsRoundTrip check events outcome)
    (run : Finishes check.program events outcome) {orgId role raw : String}
    (read : ⟨.get (CacheKeys.orgPermissions orgId role), .ok (some raw)⟩ ∈ events)
    : ¬ HoldsNonString raw := by
  intro mixed
  obtain ⟨permissions, list⟩ := mixed.accepted
  have silent := (checked_of_finishes run).silent_of_listed read list
  obtain ⟨blanked, blanks, held⟩ := exists_blanked events
  have still := checked_of_finishes (costs.absent blanked blanks)
  exact still.found_of_silent ((silent_of_blanked blanks).trans silent)
    (held _ _ read (.permissions orgId role mixed.ill))

/-- Corrupt entries only cost a round-trip exactly where no permission list with an item that is
not a string is read; witness: refused entries go unnoticed, while such a list is served.
-/
theorem checkMembership_costsRoundTrip_iff {check : MembershipCall}
    {events : List MembershipEvent} {outcome : Except Thrown MembershipCheckResult}
    (run : Finishes check.program events outcome)
    : CostsRoundTrip check events outcome
      ↔ ∀ orgId role raw,
          ⟨.get (CacheKeys.orgPermissions orgId role), .ok (some raw)⟩ ∈ events
          → ¬ HoldsNonString raw := by
  constructor
  · intro costs orgId role raw read
    exact costs.no_mixed run read
  · intro lists
    refine (checked_of_finishes run).costs (fun blanked blanks => ?_)
    exact (indifferent_checkMembership check).finishes (exchanged_of_blanked blanks lists) run

/-- A cached object in the place of a list. -/
def notList : String := Json.stringify (.obj [("read", .bool true)])

theorem parse_notList : Json.parse notList = some (.obj [("read", .bool true)]) :=
  Json.parse_stringify rfl

/-- What the sample check reads where the store holds the membership of an ADMIN and that
object: it asks, and writes the list over the object.
-/
def corruptEvents : List MembershipEvent :=
  [
    ⟨.get (CacheKeys.membership "org-1" "user-1"), .ok (some (stringifyMembership adminEntry))⟩,
    ⟨.get (CacheKeys.orgPermissions "org-1" "ADMIN"), .ok (some notList)⟩,
    ⟨.checkMembership "org-1" "user-1", .ok adminResponse⟩,
    ⟨.set (CacheKeys.orgPermissions "org-1" "ADMIN")
        (stringifyPermissions adminResponse.permissions) DEFAULT_CACHE_TTL_MS,
      .ok ()⟩
  ]

theorem corruptEvents_run
    : Finishes sampleCheck.program corruptEvents
        (.ok { isMember := true, permissions := adminResponse.permissions }) := by
  have refused : parseCachedPermissions notList = none := by
    rw [parseCachedPermissions, parse_notList]
  refine .step _ ?_
  simp only [Program.settle, MembershipVerifier.membershipLookup, Program.done_bind,
    parse_adminEntry, Option.map]
  refine .step _ ?_
  simp only [Program.settle, MembershipVerifier.permissionsLookup, Program.done_bind, refused]
  exact .step _ (.step _ (.refl _))

/-- A check that meets an object in the place of a list asks for the list. -/
theorem checkMembership_costsRoundTrip_iff_corrupt
    : Corrupt (CacheKeys.orgPermissions "org-1" "ADMIN") notList
      ∧ CostsRoundTrip sampleCheck corruptEvents
          (.ok { isMember := true, permissions := adminResponse.permissions }) := by
  constructor
  · refine .permissions _ _ fun form => ?_
    obtain ⟨permissions, parsed⟩ := form
    cases parse_notList.symm.trans parsed
  · refine (checkMembership_costsRoundTrip_iff corruptEvents_run).mpr ?_
    intro orgId role raw read mixed
    have different := CacheKeys.membership_ne_orgPermissions "org-1" "user-1" orgId role
    obtain ⟨_, rfl⟩ : _ ∧ raw = notList := by
      simpa [corruptEvents, different.symm] using read
    obtain ⟨items, parsed, _⟩ := mixed
    cases parse_notList.symm.trans parsed

/-- A cached list of a string and a boolean. -/
def mixedList : String := Json.stringify (.arr [.str "read", .bool true])

theorem parse_mixedList : Json.parse mixedList = some (.arr [.str "read", .bool true]) :=
  Json.parse_stringify rfl

theorem holdsNonString_mixedList : HoldsNonString mixedList :=
  ⟨_, parse_mixedList, .bool true, by simp, by simp⟩

/-- What the sample check reads where the store holds the membership of an ADMIN and that list:
the string is served, and the authority is not asked.
-/
def mixedEvents : List MembershipEvent :=
  [
    ⟨.get (CacheKeys.membership "org-1" "user-1"), .ok (some (stringifyMembership adminEntry))⟩,
    ⟨.get (CacheKeys.orgPermissions "org-1" "ADMIN"), .ok (some mixedList)⟩
  ]

theorem mixedEvents_run
    : Finishes sampleCheck.program mixedEvents
        (.ok { isMember := true, permissions := ["read"] }) := by
  have parsed : parseCachedPermissions mixedList = some ["read"] := by
    rw [parseCachedPermissions, parse_mixedList]
    rfl
  refine .step _ ?_
  simp only [Program.settle, MembershipVerifier.membershipLookup, Program.done_bind,
    parse_adminEntry, Option.map]
  refine .step _ ?_
  simp only [Program.settle, MembershipVerifier.permissionsLookup, Program.done_bind, parsed]
  exact .refl _

/-- A permission list with a boolean in it is served without it, where an absent list would be
fetched from the authority.
-/
theorem checkMembership_trustsMixedList
    : ¬ ∀ (check : MembershipCall) (events : List MembershipEvent)
          (outcome : Except Thrown MembershipCheckResult),
          Finishes check.program events outcome → CostsRoundTrip check events outcome := by
  intro claimed
  have costs := claimed sampleCheck mixedEvents _ mixedEvents_run
  exact costs.no_mixed mixedEvents_run (.tail _ (.head _)) holdsNonString_mixedList

end SharedKernel.Grpc
