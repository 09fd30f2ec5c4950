import SharedKernel.Foundation.Run
import SharedKernel.Js.Number
import SharedKernel.Js.Thrown

/-! The read-through cache around an authoritative lookup, over any program that can reach a
store: a store that fails, or an entry that does not parse, only costs the lookup.
-/

namespace SharedKernel.Cache

open Foundation Js

/-- The two calls a lookup makes on its store, either of which may reject. -/
structure ICacheStore (F : Signature) where
  get (key : String) : Program F Thrown (Option String)
  set (key value : String) (ttlMs : Number) : Program F Thrown Unit

/-- What a lookup is given; `stringify` is `JSON.stringify` at the type of its results. -/
structure CachedLookupOptions (F : Signature) (α : Type) where
  store : Option (ICacheStore F)
  key : String
  ttlMs : Number
  parse (raw : String) : Except Thrown (Option α)
  stringify (result : α) : Except Thrown String
  fetch : Program F Thrown α

variable {F : Signature} {α : Type}

/-- The store, where caching is enabled. -/
def CachedLookupOptions.enabled? (opts : CachedLookupOptions F α) : Option (ICacheStore F) :=
  if opts.ttlMs.gt (.ofNat 0) then opts.store else none

/-- The body of the first `try`: read the entry and parse it. -/
def CachedLookupOptions.read (opts : CachedLookupOptions F α) (store : ICacheStore F)
    : Program F Thrown (Option α) := do
  match ← store.get opts.key with
  | none => return none
  | some raw => Program.settle (opts.parse raw)

/-- The body of the second `try`: write the result under the key. -/
def CachedLookupOptions.write (opts : CachedLookupOptions F α) (store : ICacheStore F)
    (result : α)
    : Program F Thrown Unit := do
  let value ← Program.settle (opts.stringify result)
  store.set opts.key value opts.ttlMs

/-- Serve the cached entry where there is a good one, otherwise fetch and write it back. -/
def cachedLookup (opts : CachedLookupOptions F α) : Program F Thrown α :=
  match opts.enabled? with
  | none => opts.fetch
  | some store => do
      match ← tryCatch (opts.read store) (fun _ => return none) with
      | some cached => return cached
      | none =>
          let result ← opts.fetch
          let _ ← tryCatch (opts.write store result) (fun _ => return ())
          return result

/-- What a lookup has yet to do after its fetch: a result is written back and returned, an
error is passed on.
-/
def CachedLookupOptions.WritesBack (opts : CachedLookupOptions F α) (store : ICacheStore F)
    (guard : List (Event F) → F.Op → Prop)
    (post : List (Event F) → Except Thrown α → Prop) (history : List (Event F))
    : Except Thrown α → Prop
  | .ok result =>
      Safe guard (fun last _ => post last (.ok result)) history (opts.write store result)
  | .error error => post history (.error error)

section Safe

variable {guard : List (Event F) → F.Op → Prop}
  {post : List (Event F) → Except Thrown α → Prop}
  {seen : List (Event F) → Except Thrown (Option String) → Prop}
  {history : List (Event F)} {opts : CachedLookupOptions F α} {store : ICacheStore F}

/-- A miss fetches, writes back and returns, whatever becomes of the write. -/
theorem safe_miss
    (fetches : Safe guard (opts.WritesBack store guard post) history opts.fetch)
    : Safe guard post history
        (opts.fetch.bind (fun result =>
          ((opts.write store result).handle (fun _ => .done ())).bind
            (fun _ => .done result))) := by
  rw [safe_bind]
  apply fetches.mono (fun _ _ met => met)
  intro later outcome met
  cases outcome with
  | error error => exact met
  | ok result =>
      change Safe guard post (history ++ later)
        (((opts.write store result).handle (fun _ => .done ())).bind (fun _ => .done result))
      rw [safe_bind, safe_handle]
      apply Safe.mono met (fun _ _ met => met)
      intro last written returned
      cases written <;> exact returned

/-- A read either serves an entry that parses, or falls through to the lookup; witness: the
first `catch` absorbs every error before the lookup.
-/
theorem safe_cachedLookup
    (disabled : opts.enabled? = none → Safe guard post history opts.fetch)
    (reads
      : ∀ store, opts.enabled? = some store → Safe guard seen history (store.get opts.key))
    (hit
      : ∀ later raw cached,
          seen later (.ok (some raw))
          → opts.parse raw = .ok (some cached)
          → post later (.ok cached))
    (miss
      : ∀ store later outcome,
          opts.enabled? = some store
          → seen later outcome
          → Safe guard (opts.WritesBack store guard post) later opts.fetch)
    : Safe guard post history (cachedLookup opts) := by
  unfold cachedLookup
  cases enabled : opts.enabled? with
  | none => exact disabled enabled
  | some store =>
      have missed := fun later outcome read => safe_miss (miss store later outcome enabled read)
      simp only [Program.bind_eq, Program.pure_eq, Program.tryCatch_eq]
      rw [safe_bind, safe_handle, CachedLookupOptions.read, Program.bind_eq, safe_bind]
      apply (reads store enabled).mono (fun _ _ met => met)
      intro later outcome read
      cases outcome with
      | error error => exact missed _ _ read
      | ok entry =>
          cases entry with
          | none => exact missed _ _ read
          | some raw =>
              cases parsed : opts.parse raw with
              | error error => simpa [parsed] using missed _ _ read
              | ok value =>
                  cases value with
                  | none => simpa [parsed] using missed _ _ read
                  | some cached => simpa [parsed] using hit _ _ _ read parsed

end Safe

/-- What a lookup does after its fetch: it writes a result back, whatever comes of that. -/
def CachedLookupOptions.Written (opts : CachedLookupOptions F α) (store : ICacheStore F)
    (events : List (Event F))
    : Except Thrown α → Prop
  | .ok result => ∃ written, Finishes (opts.write store result) events written
  | .error _ => events = []

/-- A complete lookup fetches where caching is disabled; otherwise it reads the store, and
serves what it has read or fetches and writes back.
-/
theorem finishes_cachedLookup {opts : CachedLookupOptions F α} {events : List (Event F)}
    {outcome : Except Thrown α} (run : Finishes (cachedLookup opts) events outcome)
    : opts.enabled? = none ∧ Finishes opts.fetch events outcome
      ∨ ∃ store,
          opts.enabled? = some store
          ∧ ((∃ cached,
                outcome = .ok cached ∧ Finishes (opts.read store) events (.ok (some cached)))
            ∨ ∃ read fetched tail missed,
                events = read ++ (fetched ++ tail)
                ∧ Finishes (opts.read store) read missed
                ∧ (∀ cached, missed ≠ .ok (some cached))
                ∧ Finishes opts.fetch fetched outcome
                ∧ opts.Written store tail outcome) := by
  unfold cachedLookup at run
  cases enabled : opts.enabled? with
  | none =>
      simp only [enabled] at run
      exact Or.inl ⟨rfl, run⟩
  | some store =>
      simp only [enabled, Program.bind_eq, Program.pure_eq, Program.tryCatch_eq] at run
      refine Or.inr ⟨store, rfl, ?_⟩
      have fetches {rest : List (Event F)}
          (run
            : Finishes
                (opts.fetch.bind (fun result =>
                  ((opts.write store result).handle (fun _ => .done ())).bind
                    (fun _ => .done result)))
                rest outcome)
          : ∃ fetched tail,
              rest = fetched ++ tail
              ∧ Finishes opts.fetch fetched outcome
              ∧ opts.Written store tail outcome := by
        rw [finishes_bind] at run
        rcases run with ⟨err, rfl, failed⟩ | ⟨result, fetched, tail, rfl, fetch, written⟩
        · exact ⟨rest, [], by simp, failed, rfl⟩
        · rw [finishes_bind] at written
          rcases written with ⟨err, _, absurd⟩ | ⟨_, write, last, rfl, write', returned⟩
          · rw [finishes_handle] at absurd
            rcases absurd with ⟨_, absurd, _⟩ | ⟨_, _, _, _, _, absurd⟩
            · cases absurd
            · simp at absurd
          · obtain ⟨rfl, rfl⟩ := (finishes_done ..).mp returned
            rw [finishes_handle] at write'
            refine ⟨fetched, write ++ [], rfl, fetch, ?_⟩
            rcases write' with ⟨_, _, write'⟩ | ⟨err, head, tail, rfl, failed, recovered⟩
            · exact ⟨_, by simpa using write'⟩
            · obtain ⟨rfl, _⟩ := (finishes_done ..).mp recovered
              exact ⟨_, by simpa using failed⟩
      rw [finishes_bind] at run
      rcases run with ⟨err, _, absurd⟩ | ⟨entry, read, rest, rfl, reading, run⟩
      · rw [finishes_handle] at absurd
        rcases absurd with ⟨_, absurd, _⟩ | ⟨_, _, _, _, _, absurd⟩
        · cases absurd
        · simp at absurd
      · rw [finishes_handle] at reading
        cases entry with
        | some cached =>
            obtain ⟨rfl, rfl⟩ := (finishes_done ..).mp run
            rcases reading with ⟨_, same, reading⟩ | ⟨_, _, _, _, _, absurd⟩
            · cases same
              exact Or.inl ⟨cached, rfl, by simpa using reading⟩
            · simp at absurd
        | none =>
            obtain ⟨fetched, tail, rfl, fetch, written⟩ := fetches run
            rcases reading with ⟨_, same, reading⟩ | ⟨err, head, _, rfl, failed, recovered⟩
            · cases same
              exact Or.inr ⟨read, fetched, tail, _, rfl, reading, by simp, fetch, written⟩
            · obtain ⟨rfl, _⟩ := (finishes_done ..).mp recovered
              exact Or.inr ⟨head, fetched, tail, _, by simp, failed, by simp, fetch, written⟩

end SharedKernel.Cache
