import SharedKernel.Cache.CachedLookup

/-! Faults of a lookup's callbacks: neither the store nor the parser can turn an answer of the
authority into a rejection, and a rejection of the authority is never cached.
-/

namespace SharedKernel.Cache

open Foundation Js

/-- The asynchronous callbacks of a lookup. -/
inductive LookupOp where
  | get (key : String)
  | set (key value : String) (ttlMs : Number)
  | fetch
deriving DecidableEq

/-- Every callback may reject. -/
abbrev LookupOp.Reply (α : Type) : LookupOp → Type
  | .get _ => Except Thrown (Option String)
  | .set _ _ _ => Except Thrown Unit
  | .fetch => Except Thrown α

/-- The effects of a lookup with results of type `α`. -/
abbrev LookupEffects (α : Type) : Signature where
  Op := LookupOp
  Reply := LookupOp.Reply α

abbrev LookupEvent (α : Type) := Event (LookupEffects α)

variable {α : Type}

/-- Await one callback; a rejection throws. -/
def callback (op : LookupOp) : Program (LookupEffects α) Thrown (op.Reply α) :=
  Program.perform (F := LookupEffects α) op

/-- Any store: each call is answered by the environment. -/
def anyStore : ICacheStore (LookupEffects α) where
  get key := do Program.settle (← callback (.get key))
  set key value ttlMs := do Program.settle (← callback (.set key value ttlMs))

/-- The arguments of a lookup; `store` tells whether a store is given. -/
structure Lookup (α : Type) where
  store : Bool
  key : String
  ttlMs : Number
  parse (raw : String) : Except Thrown (Option α)
  stringify (result : α) : Except Thrown String

/-- The options of a lookup whose store and source are its environment. -/
def Lookup.options (self : Lookup α) : CachedLookupOptions (LookupEffects α) α where
  store := if self.store then some anyStore else none
  key := self.key
  ttlMs := self.ttlMs
  parse := self.parse
  stringify := self.stringify
  fetch := do Program.settle (← callback .fetch)

/-- Caching is enabled: there is a store, and `ttlMs` is greater than zero. -/
def Lookup.Enabled (self : Lookup α) : Prop :=
  self.store = true ∧ self.ttlMs.gt (.ofNat 0) = true

/-- The entry is one that `parse` accepts. -/
def Lookup.Accepts (self : Lookup α) (entry : Except Thrown (Option String)) (cached : α)
    : Prop :=
  ∃ raw, entry = .ok (some raw) ∧ self.parse raw = .ok (some cached)

/-- An enabled lookup uses the store it was given. -/
theorem Lookup.enabled_options {self : Lookup α} {store : ICacheStore (LookupEffects α)}
    (enabled : self.options.enabled? = some store)
    : self.Enabled ∧ store = anyStore := by
  simp only [CachedLookupOptions.enabled?, options] at enabled
  by_cases alive : self.ttlMs.gt (.ofNat 0) = true
  · by_cases given : self.store = true
    · simp only [alive, given, if_true, Option.some.injEq] at enabled
      exact ⟨⟨given, alive⟩, enabled.symm⟩
    · simp [given] at enabled
  · simp [alive] at enabled

/-- A lookup that is not enabled has no use for its store. -/
theorem Lookup.disabled_options {self : Lookup α} (disabled : self.options.enabled? = none)
    : ¬ self.Enabled := by
  intro enabled
  simp [CachedLookupOptions.enabled?, options, enabled.1, enabled.2] at disabled

-----------------------------------------------------------------------------------------
-- The callbacks of each part
-----------------------------------------------------------------------------------------

/-- The fetch is one call, and ends as that call does. -/
theorem Lookup.finishes_fetch {self : Lookup α} {events : List (LookupEvent α)}
    {outcome : Except Thrown α} (run : Finishes self.options.fetch events outcome)
    : events = [⟨.fetch, outcome⟩] := by
  simp only [options, callback, Program.perform_eq, Program.bind_eq, Program.await_bind,
    Program.done_bind, finishes_await] at run
  obtain ⟨reply, rest, rfl, run⟩ := run
  obtain ⟨rfl, rfl⟩ := (finishes_settle ..).mp run
  rfl

/-- The read is one call; it brings a value where the entry is accepted, and only there. -/
theorem Lookup.finishes_read {self : Lookup α} {events : List (LookupEvent α)}
    {outcome : Except Thrown (Option α)}
    (run : Finishes (self.options.read anyStore) events outcome)
    : ∃ entry,
        events = [⟨.get self.key, entry⟩]
        ∧ ∀ cached, outcome = .ok (some cached) ↔ self.Accepts entry cached := by
  simp only [CachedLookupOptions.read, anyStore, callback, Program.perform_eq, Program.bind_eq,
    Program.await_bind, Program.done_bind, finishes_await] at run
  obtain ⟨entry, rest, rfl, run⟩ := run
  cases entry with
  | error err =>
      obtain ⟨rfl, rfl⟩ := (finishes_fail ..).mp run
      exact ⟨_, rfl, by simp [Accepts]⟩
  | ok entry =>
      cases entry with
      | none =>
          obtain ⟨rfl, rfl⟩ := (finishes_done ..).mp run
          exact ⟨_, rfl, by simp [Accepts]⟩
      | some raw =>
          obtain ⟨rfl, rfl⟩ := (finishes_settle ..).mp run
          exact ⟨_, rfl, by simp [Accepts, options]⟩

/-- The write is one call with the JSON of the result, or none where there is no JSON. -/
theorem Lookup.finishes_write {self : Lookup α} {result : α} {events : List (LookupEvent α)}
    {outcome : Except Thrown Unit}
    (run : Finishes (self.options.write anyStore result) events outcome)
    : (events = [] ∧ ∀ value, self.stringify result ≠ .ok value)
      ∨ ∃ value reply,
          self.stringify result = .ok value
          ∧ events = [⟨.set self.key value self.ttlMs, reply⟩] := by
  rw [CachedLookupOptions.write, Program.bind_eq] at run
  change Finishes ((Program.settle (self.stringify result)).bind _) events outcome at run
  cases written : self.stringify result with
  | error err =>
      rw [written] at run
      obtain ⟨rfl, _⟩ := (finishes_fail ..).mp run
      exact Or.inl ⟨rfl, by simp⟩
  | ok value =>
      rw [written] at run
      simp only [anyStore, callback, Program.settle_ok, Program.perform_eq, Program.bind_eq,
        Program.await_bind, Program.done_bind, finishes_await] at run
      obtain ⟨reply, rest, rfl, run⟩ := run
      obtain ⟨rfl, _⟩ := (finishes_settle ..).mp run
      exact Or.inr ⟨value, reply, rfl, rfl⟩

-----------------------------------------------------------------------------------------
-- The whole lookup
-----------------------------------------------------------------------------------------

/-- How a complete lookup can go: the calls it makes, in order, and how it ends. -/
inductive Lookup.Goes (self : Lookup α) : List (LookupEvent α) → Except Thrown α → Prop
  | uncached (disabled : ¬ self.Enabled) (fetched : Except Thrown α)
    : Goes self [⟨.fetch, fetched⟩] fetched
  | hit (enabled : self.Enabled) {entry : Except Thrown (Option String)} {cached : α}
    (accepted : self.Accepts entry cached)
    : Goes self [⟨.get self.key, entry⟩] (.ok cached)
  | unwritten (enabled : self.Enabled) {entry : Except Thrown (Option String)}
    (missed : ∀ cached, ¬ self.Accepts entry cached) {fetched : Except Thrown α}
    (nothing : ∀ result value, fetched = .ok result → self.stringify result ≠ .ok value)
    : Goes self [⟨.get self.key, entry⟩, ⟨.fetch, fetched⟩] fetched
  | written (enabled : self.Enabled) {entry : Except Thrown (Option String)}
    (missed : ∀ cached, ¬ self.Accepts entry cached) {result : α} {value : String}
    (json : self.stringify result = .ok value) (reply : Except Thrown Unit)
    : Goes self
        [⟨.get self.key, entry⟩, ⟨.fetch, .ok result⟩, ⟨.set self.key value self.ttlMs, reply⟩]
        (.ok result)

/-- Every complete lookup goes in one of the ways; witness: the ways its three parts go. -/
theorem Lookup.goes {self : Lookup α} {events : List (LookupEvent α)}
    {outcome : Except Thrown α} (run : Finishes (cachedLookup self.options) events outcome)
    : self.Goes events outcome := by
  rcases finishes_cachedLookup run with
    ⟨disabled, fetch⟩
    | ⟨store, enabled, ⟨cached, rfl, hit⟩
      | ⟨read, fetched, tail, missed, rfl, miss, nothing, fetch, written⟩⟩
  · rw [finishes_fetch fetch]
    exact .uncached (disabled_options disabled) outcome
  · obtain ⟨able, rfl⟩ := enabled_options enabled
    obtain ⟨entry, rfl, accepted⟩ := finishes_read hit
    exact .hit able ((accepted cached).mp rfl)
  · obtain ⟨able, rfl⟩ := enabled_options enabled
    obtain ⟨entry, rfl, accepted⟩ := finishes_read miss
    have refused : ∀ cached, ¬ self.Accepts entry cached :=
      fun cached accept => nothing cached ((accepted cached).mpr accept)
    rw [finishes_fetch fetch]
    cases outcome with
    | error err =>
        obtain rfl : tail = [] := written
        exact .unwritten able refused (by simp)
    | ok result =>
        obtain ⟨ended, run⟩ := written
        rcases finishes_write run with ⟨rfl, textless⟩ | ⟨value, reply, json, rfl⟩
        · exact .unwritten able refused (by rintro _ value ⟨⟩; exact textless value)
        · exact .written able refused json reply

/-- The calls of one kind in a history. -/
def callsOf (kind : LookupOp → Bool) (events : List (LookupEvent α)) : Nat :=
  events.countP (fun event => kind event.op)

def LookupOp.isGet : LookupOp → Bool
  | .get _ => true
  | _ => false

def LookupOp.isSet : LookupOp → Bool
  | .set _ _ _ => true
  | _ => false

def LookupOp.isFetch : LookupOp → Bool
  | .fetch => true
  | _ => false

/-- The fault model of a lookup, of its calls and the way it ends. -/
structure Lookup.FaultModel (self : Lookup α) (events : List (LookupEvent α))
    (outcome : Except Thrown α)
    : Prop where
  /-- The source is asked at most once. -/
  fetchedOnce : callsOf LookupOp.isFetch events ≤ 1
  /-- Where caching is enabled the store is read first, and once: an entry that `parse` accepts
  is the answer, with no call after it, and any other entry costs one fetch.
  -/
  asked
    : self.Enabled
      → ∃ entry rest,
          events = ⟨.get self.key, entry⟩ :: rest
          ∧ callsOf LookupOp.isGet rest = 0
          ∧ (∀ cached, self.Accepts entry cached → rest = [] ∧ outcome = .ok cached)
          ∧ ((∀ cached, ¬ self.Accepts entry cached) → callsOf LookupOp.isFetch rest = 1)
  /-- A value comes without a fetch exactly where the store has served an entry that `parse`
  accepts, and it is the value of `parse`. -/
  served
    : ∀ cached,
        (callsOf LookupOp.isFetch events = 0 ∧ outcome = .ok cached)
        ↔ self.Enabled
          ∧ ∃ entry, ⟨.get self.key, entry⟩ ∈ events ∧ self.Accepts entry cached
  /-- Where the source is asked, its answer is the answer, be it a value or an error. -/
  fetched : ∀ reply, ⟨.fetch, reply⟩ ∈ events → outcome = reply
  /-- Only the source makes a lookup reject. -/
  rejected : ∀ err, outcome = .error err → ⟨.fetch, .error err⟩ ∈ events
  /-- A rejection is not cached. -/
  notCached : ∀ err, outcome = .error err → callsOf LookupOp.isSet events = 0
  /-- The store is written at most once. -/
  writtenOnce : callsOf LookupOp.isSet events ≤ 1
  /-- What is written is the JSON of the value that the source has returned before. -/
  written
    : Throughout
        (fun before event =>
          event.op.isSet = true
          → ∃ result value,
              ⟨.fetch, .ok result⟩ ∈ before
              ∧ outcome = .ok result
              ∧ self.stringify result = .ok value
              ∧ event.op = .set self.key value self.ttlMs)
        events
  /-- A value that the source returned and that has a JSON text is written, where caching is
  enabled.
  -/
  stored
    : self.Enabled
      → ∀ result value,
          ⟨.fetch, .ok result⟩ ∈ events
          → self.stringify result = .ok value
          → ∃ reply, ⟨.set self.key value self.ttlMs, reply⟩ ∈ events
  /-- Where caching is disabled the store is left alone. -/
  disabled
    : ¬ self.Enabled
      → callsOf LookupOp.isGet events = 0 ∧ callsOf LookupOp.isSet events = 0
  /-- And there the one call is that of the source. -/
  uncached : ¬ self.Enabled → events = [⟨.fetch, outcome⟩]

/-- Every complete lookup meets the fault model, whatever its callbacks reply; witness: each
of the ways it can go.
-/
theorem cachedLookup_faultModel {self : Lookup α} {events : List (LookupEvent α)}
    {outcome : Except Thrown α} (run : Finishes (cachedLookup self.options) events outcome)
    : self.FaultModel events outcome := by
  cases Lookup.goes run with
  | uncached disabled fetched =>
      constructor
      case rejected =>
        intro err same
        simp [same]
      all_goals simp [callsOf, LookupOp.isFetch, LookupOp.isGet, LookupOp.isSet, disabled]
  | hit enabled accepted =>
      obtain ⟨raw, rfl, parsed⟩ := accepted
      constructor
      case served =>
        simp [callsOf, LookupOp.isFetch, enabled, Lookup.Accepts, parsed]
      case asked =>
        intro _
        refine ⟨_, _, rfl, rfl, ?_, ?_⟩ <;> simp [Lookup.Accepts, parsed]
      all_goals simp [callsOf, LookupOp.isFetch, LookupOp.isGet, LookupOp.isSet, enabled]
  | unwritten enabled missed nothing =>
      constructor
      case stored =>
        intro _ result value fetched text
        have returned : outcome = .ok result := by simpa [eq_comm] using fetched
        exact absurd text (nothing result value returned)
      case rejected =>
        intro err same
        simp [same]
      all_goals simp [callsOf, LookupOp.isFetch, LookupOp.isGet, LookupOp.isSet, enabled, missed]
  | written enabled missed json reply =>
      constructor
      case stored =>
        intro _ result value fetched text
        obtain rfl : result = _ := by simpa using fetched
        obtain rfl : value = _ := by simpa [json] using text.symm
        exact ⟨reply, by simp⟩
      all_goals
        simp [callsOf, LookupOp.isFetch, LookupOp.isGet, LookupOp.isSet, enabled, missed, json]

/-- A lookup of a text, cached for a second. -/
def sampleLookup : Lookup String where
  store := true
  key := "k"
  ttlMs := .ofNat 1000
  parse raw := .ok (some raw)
  stringify result := .ok result

/-- A store that fails twice costs the sample a fetch and nothing else. -/
theorem cachedLookup_faultModel_sample
    : sampleLookup.FaultModel
        [⟨.get "k", .error .undefined⟩, ⟨.fetch, .ok "v"⟩,
          ⟨.set "k" "v" (.ofNat 1000), .error .undefined⟩]
        (.ok "v") := by
  apply cachedLookup_faultModel
  exact .step _ (.step _ (.step _ (.refl _)))

end SharedKernel.Cache
