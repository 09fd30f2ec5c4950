import SharedKernel.Messaging.EndlessReplay

/-! A dead letter followed through successive deliveries: which headers its republication
writes, and how often it is republished before it is given up.
-/

namespace SharedKernel.Messaging

open Foundation Js

-----------------------------------------------------------------------------------------
-- The headers of a republication
-----------------------------------------------------------------------------------------

/-- The names of a header map, each of which it has once. -/
def Headers.Distinct (headers : Headers) : Prop :=
  (headers.map Prod.fst).Nodup

/-- The headers arrive as they were written, whether as text or as buffers. -/
def Headers.Carry (headers : Headers) (written : List (String × String)) : Prop :=
  headers.map (fun entry => (entry.1, headerToString entry.2))
  = written.map (fun entry => (entry.1, some entry.2))

/-- A sent record carries the headers it was sent with. -/
theorem carry_sentRecord (key value : Option Buffer) (written : List (String × String))
    : (sentRecord key value written).headers.Carry written := by
  simp [Headers.Carry, sentRecord, headerToString, Buffer.toText_ofText]

/-- The texts that arrive are the texts that were written, by induction on the headers. -/
theorem Headers.Carry.text? {headers : Headers} {written : List (String × String)}
    (carries : headers.Carry written) (name : String)
    : headers.text? name = written.lookup name := by
  induction written generalizing headers with
  | nil =>
      obtain rfl := List.map_eq_nil_iff.mp carries
      rfl
  | cons entry rest ih =>
      obtain ⟨wanted, text⟩ := entry
      cases headers with
      | nil => simp [Headers.Carry] at carries
      | cons first others =>
          simp only [Headers.Carry, List.map_cons, List.cons.injEq, Prod.mk.injEq] at carries
          obtain ⟨⟨sameName, sameText⟩, later⟩ := carries
          by_cases same : first.1 = name
          · have other : (name == wanted) = true := by simp [← same, sameName]
            simp [Headers.text?, Headers.get?, List.lookup_cons, same, other, sameText]
          · have other : (name == wanted) = false := by
              simpa [← sameName] using fun equal : name = first.1 => same equal.symm
            have next := ih later
            simpa [Headers.text?, Headers.get?, List.lookup_cons, same, other] using next

/-- What was written under distinct names arrives under distinct names. -/
theorem Headers.Carry.distinct {headers : Headers} {written : List (String × String)}
    (carries : headers.Carry written) (distinct : (written.map Prod.fst).Nodup)
    : headers.Distinct := by
  have names := congrArg (List.map Prod.fst) carries
  simp only [List.map_map, Function.comp_def] at names
  rw [Headers.Distinct, names]
  exact distinct

/-- The assigned header is found, by induction on the headers before it. -/
theorem lookup_setHeader_self (headers : List (String × String)) {name : String}
    (value : String) (plain : name ≠ "__proto__")
    : (setHeader headers name value).lookup name = some value := by
  simp only [setHeader, if_neg plain]
  split
  · rename_i present
    induction headers with
    | nil => simp at present
    | cons entry rest ih =>
        obtain ⟨first, text⟩ := entry
        by_cases same : first = name
        · simp [same]
        · have other : (name == first) = false := by
            simpa using fun equal : name = first => same equal.symm
          simp only [List.any_cons, same, decide_false, Bool.false_or] at present
          simp only [List.map_cons, if_neg same, List.lookup_cons, other, ih present]
  · rename_i absent
    have none : headers.lookup name = Option.none := by
      rw [List.lookup_eq_none_iff]
      intro entry member
      simp only [List.any_eq_true, decide_eq_true_eq, not_exists, not_and] at absent
      simpa using fun equal : name = entry.1 => absent entry member equal.symm
    simp [List.lookup_append, none]

/-- Every other header is as it was, by induction on the headers. -/
theorem lookup_setHeader_of_ne (headers : List (String × String)) {name other : String}
    (value : String) (different : other ≠ name)
    : (setHeader headers name value).lookup other = headers.lookup other := by
  have differs : (other == name) = false := by simpa using different
  simp only [setHeader]
  split
  · rfl
  · split
    · clear * - differs
      induction headers with
      | nil => rfl
      | cons entry rest ih =>
          obtain ⟨first, text⟩ := entry
          by_cases same : first = name
          · simp only [List.map_cons, same, if_true, List.lookup_cons, differs, ih]
          · simp only [List.map_cons, if_neg same, List.lookup_cons, ih]
    · rw [List.lookup_append]
      simp [List.lookup_cons, differs]

/-- An assignment keeps the names distinct. -/
theorem nodup_setHeader {headers : List (String × String)} (name value : String)
    (distinct : (headers.map Prod.fst).Nodup)
    : ((setHeader headers name value).map Prod.fst).Nodup := by
  simp only [setHeader]
  split
  · exact distinct
  · split
    · have names : (headers.map (fun entry =>
            if entry.1 = name then (name, value) else entry)).map Prod.fst
          = headers.map Prod.fst := by
        rw [List.map_map]
        apply List.map_congr_left
        intro entry _
        by_cases same : entry.1 = name
        · simp [same]
        · simp [same]
      rw [names]
      exact distinct
    · rename_i absent
      simp only [List.any_eq_true, decide_eq_true_eq, not_exists, not_and] at absent
      rw [List.map_append, List.nodup_append]
      refine ⟨distinct, List.nodup_singleton _, ?_⟩
      rintro held member added last rfl
      obtain ⟨entry, present, rfl⟩ := List.mem_map.mp member
      simp only [List.map_cons, List.map_nil, List.mem_singleton] at last
      exact absent entry present last

/-- Copying the headers as strings keeps their texts; witness: induction on the headers, of
which only one has the name.
-/
theorem lookup_copied {headers : Headers} (copied : List (String × String)) {name : String}
    (distinct : headers.Distinct) (plain : name ≠ "__proto__")
    : (headers.foldl
        (fun copied entry =>
          match headerToString entry.2 with
          | some value => setHeader copied entry.1 value
          | none => copied)
        copied).lookup name
      = (headers.text? name).or (copied.lookup name) := by
  induction headers generalizing copied with
  | nil => rfl
  | cons entry rest ih =>
      obtain ⟨fresh, others⟩ := List.nodup_cons.mp distinct
      rw [List.foldl_cons, ih _ others]
      by_cases same : entry.1 = name
      · have absent : Headers.text? rest name = none := by
          have missing : rest.find? (fun entry => entry.1 = name) = none := by
            rw [List.find?_eq_none]
            intro other member
            simpa [same] using fun equal : other.1 = name =>
              fresh (List.mem_map.mpr ⟨other, member, by rw [equal, same]⟩)
          simp [Headers.text?, Headers.get?, missing]
        have found : Headers.text? (entry :: rest) name = headerToString entry.2 := by
          simp [Headers.text?, Headers.get?, same]
        rw [absent, found, Option.none_or]
        cases headerToString entry.2 with
        | none => rfl
        | some value =>
            simp only [same, Option.some_or]
            exact lookup_setHeader_self copied value plain
      · have found : Headers.text? (entry :: rest) name = Headers.text? rest name := by
          simp [Headers.text?, Headers.get?, same]
        rw [found]
        cases headerToString entry.2 with
        | none => rfl
        | some value =>
            simp only [lookup_setHeader_of_ne copied value (Ne.symm same)]

theorem nodup_copied (headers : Headers) {copied : List (String × String)}
    (distinct : (copied.map Prod.fst).Nodup)
    : ((headers.foldl
        (fun copied entry =>
          match headerToString entry.2 with
          | some value => setHeader copied entry.1 value
          | none => copied)
        copied).map Prod.fst).Nodup := by
  induction headers generalizing copied with
  | nil => exact distinct
  | cons entry rest ih =>
      rw [List.foldl_cons]
      apply ih
      cases headerToString entry.2 with
      | none => exact distinct
      | some value => exact nodup_setHeader entry.1 value distinct

/-- The written count is the successor of the given one. -/
theorem lookup_stringHeaders_count (headers : Headers) (count : Number)
    : (stringHeaders headers count).lookup "x-dlq-replay-count"
      = some (count.add (.ofNat 1)).toText :=
  lookup_setHeader_self _ _ (by decide)

/-- The original topic is written as it was read. -/
theorem lookup_stringHeaders_topic {headers : Headers} (count : Number)
    (distinct : headers.Distinct)
    : (stringHeaders headers count).lookup "x-original-topic" = originalTopic headers := by
  rw [stringHeaders, lookup_setHeader_of_ne _ _ (by decide)]
  exact (lookup_copied [] distinct (by decide)).trans (Option.or_none ..)

theorem nodup_stringHeaders (headers : Headers) (count : Number)
    : ((stringHeaders headers count).map Prod.fst).Nodup :=
  nodup_setHeader _ _ (nodup_copied headers List.nodup_nil)

namespace DlqReplayConsumer

-----------------------------------------------------------------------------------------
-- What one delivery republishes
-----------------------------------------------------------------------------------------

/-- The headers of the republications in a history. -/
def republications (history : List ReplayEvent) : List (List (String × String)) :=
  history.filterMap (fun event =>
    match event with
    | ⟨.send _ _ _ headers, .ok ()⟩ => some headers
    | _ => none)

/-- Quiet operations republish nothing. -/
theorem republications_of_quiet {history : List ReplayEvent}
    (quiet : ∀ event ∈ history, Quiet event.op)
    : republications history = [] := by
  rw [republications, List.filterMap_eq_nil_iff]
  rintro ⟨op, reply⟩ member
  have := quiet _ member
  cases op with
  | commitOffsets | send => exact this.elim
  | onGiveUp | onReplay | sleep | random | log => rfl

variable {self : DlqReplayConsumer}

/-- One delivery republishes at most once, and only what can be replayed; by induction on
its history from the end.
-/
theorem republications_of_guarded {payload : EachMessagePayload} {history : List ReplayEvent}
    (guarded : Throughout (fun before event => self.Guard payload before event.op) history)
    : republications history = []
      ∨ (¬ self.Exhausted payload.message.headers
        ∧ republications history
          = [stringHeaders payload.message.headers (replayCount payload.message.headers)]) := by
  induction history using List.reverseRecOn with
  | nil => exact Or.inl rfl
  | append_singleton init last ih =>
      rw [throughout_snoc] at guarded
      obtain ⟨earlier, guard⟩ := guarded
      obtain ⟨op, reply⟩ := last
      have split
          : republications (init ++ [⟨op, reply⟩])
            = republications init ++ republications [⟨op, reply⟩] :=
        List.filterMap_append
      rw [split]
      cases op with
      | send topic key value headers =>
          obtain ⟨_, replayable, _, _, written, quiet⟩ := guard
          rw [republications_of_quiet quiet, List.nil_append]
          cases reply with
          | error error => exact Or.inl rfl
          | ok _ => exact Or.inr ⟨replayable, by rw [← written]; rfl⟩
      | commitOffsets | onGiveUp | onReplay | sleep | random | log =>
          rw [show republications [_] = [] from rfl, List.append_nil]
          exact ih earlier

/-- A complete delivery republishes once what can be replayed, and nothing else. -/
theorem republications_of_finishes {payload : EachMessagePayload}
    {history : List ReplayEvent} {outcome : Except Thrown Unit}
    (run : Finishes (self.eachMessage payload) history outcome)
    : (self.Exhausted payload.message.headers → republications history = [])
      ∧ (republications history = []
        ∨ republications history
          = [stringHeaders payload.message.headers (replayCount payload.message.headers)])
      ∧ (outcome = .ok () → ¬ self.Exhausted payload.message.headers
        → republications history
          = [stringHeaders payload.message.headers (replayCount payload.message.headers)]) := by
  have guarded := (self.safe_eachMessage payload).throughout run
  have settled := (self.safe_eachMessage payload).outcome run
  simp only [List.nil_append] at guarded settled
  have either := republications_of_guarded guarded
  refine ⟨?_, either.imp_right And.right, ?_⟩
  · intro exhausted
    rcases either with none | ⟨replayable, _⟩
    · exact none
    · exact absurd exhausted replayable
  · intro completed replayable
    rcases either with none | ⟨_, once⟩
    · rcases settled completed with exhausted | ⟨topic, headers, _, sent⟩
      · exact absurd exhausted replayable
      · have member : headers ∈ republications history :=
          List.mem_filterMap.mpr ⟨_, sent, rfl⟩
        rw [none] at member
        exact absurd member List.not_mem_nil
    · exact once

/-- What can be replayed is republished by a delivery whose calls succeed, and can return
with the headers that were written.
-/
theorem exists_republication {headers : Headers} (replayable : ¬ self.Exhausted headers)
    : ∃ payload history, ∃ after : Headers,
        payload.message.headers = headers
        ∧ Finishes (self.eachMessage payload) history (.ok ())
        ∧ republications history = [stringHeaders headers (replayCount headers)]
        ∧ after.Carry (stringHeaders headers (replayCount headers)) := by
  cases origin : originalTopic headers with
  | none => exact absurd (Or.inl (by simp [origin])) replayable
  | some topic =>
      obtain ⟨before, after, _, run, _⟩ :=
        finishes_replay self ⟨"", 0, none, none, "0", headers⟩ origin replayable
      exact
        ⟨_, _, (sentRecord none none (stringHeaders headers (replayCount headers))).headers,
          rfl, run, (republications_of_finishes run).2.2 rfl replayable,
          carry_sentRecord none none _⟩

-----------------------------------------------------------------------------------------
-- Following a message
-----------------------------------------------------------------------------------------

/-- The headers a message comes back with: those of its last republication, or those it had. -/
def Returns (history : List ReplayEvent) (before after : Headers) : Prop :=
  match (republications history).getLast? with
  | some written => after.Carry written
  | none => after = before

/-- A message followed through successive deliveries, however each of them ends: how often it
has been republished, and the headers it has by then.
-/
inductive Followed (self : DlqReplayConsumer) (first : Headers) : Nat → Headers → Prop
  | start : Followed self first 0 first
  | delivered {republished payload history outcome after}
    (followed : Followed self first republished payload.message.headers)
    (run : Finishes (self.eachMessage payload) history outcome)
    (returns : Returns history payload.message.headers after)
    : Followed self first (republished + (republications history).length) after

/-- No delivery of a message with these headers republishes it. -/
def GivenUp (self : DlqReplayConsumer) (headers : Headers) : Prop :=
  ∀ payload history outcome,
    payload.message.headers = headers
    → Finishes (self.eachMessage payload) history outcome
    → republications history = []

/-- The count header is the decimal of a natural number, which reads as one more than the
count did before.
-/
def CountsUp (before after : Headers) : Prop :=
  ∃ count : Nat,
    after.text? "x-dlq-replay-count" = some count.repr
    ∧ replayCount after = .ofNat count
    ∧ replayCount before = .finite ((count : ℚ) - 1)

/-- Every delivery that completes republishes a message with these headers once, and every
republication counts up.
-/
def Counting (self : DlqReplayConsumer) (headers : Headers) : Prop :=
  ∀ payload history outcome,
    payload.message.headers = headers
    → Finishes (self.eachMessage payload) history outcome
    → (outcome = .ok () → (republications history).length = 1)
      ∧ ∀ written ∈ republications history, ∀ after : Headers,
          after.Carry written → CountsUp headers after

/-- A message is republished a number of times within the budget, counting up each time, and
then given up.
-/
def GivesUpWithin (self : DlqReplayConsumer) (budget : Nat) (headers : Headers) : Prop :=
  ∃ rounds ≤ budget,
    ∀ republished reached,
      self.Followed headers republished reached
      → republished ≤ rounds
        ∧ (republished < rounds → self.Counting reached)
        ∧ (republished = rounds → self.GivenUp reached)

variable {first headers after : Headers} {republished : Nat}

theorem givenUp_of_exhausted (exhausted : self.Exhausted headers) : self.GivenUp headers := by
  rintro payload history outcome rfl run
  exact (republications_of_finishes run).1 exhausted

/-- A message that is given up is never republished, by induction on its deliveries. -/
theorem Followed.of_givenUp {reached : Headers}
    (followed : self.Followed first republished reached) (givenUp : self.GivenUp first)
    : republished = 0 ∧ reached = first := by
  induction followed with
  | start => exact ⟨rfl, rfl⟩
  | delivered _ run returns ih =>
      obtain ⟨rfl, same⟩ := ih
      have none := givenUp _ _ _ same run
      simp only [Returns, none, List.getLast?_nil] at returns
      exact ⟨by rw [none]; rfl, returns.trans same⟩

/-- A republication follows a message that can be replayed. -/
theorem Followed.next (followed : self.Followed first republished headers)
    (replayable : ¬ self.Exhausted headers)
    : ∃ payload history, ∃ after : Headers,
        payload.message.headers = headers
        ∧ Finishes (self.eachMessage payload) history (.ok ())
        ∧ republications history = [stringHeaders headers (replayCount headers)]
        ∧ after.Carry (stringHeaders headers (replayCount headers))
        ∧ self.Followed first (republished + 1) after := by
  obtain ⟨payload, history, after, rfl, run, once, carries⟩ := exists_republication replayable
  have returns : Returns history payload.message.headers after := by
    simpa only [Returns, once, List.getLast?_singleton] using carries
  have followed' := followed.delivered run returns
  rw [once] at followed'
  exact ⟨payload, history, after, rfl, run, once, carries, followed'⟩

/-- The headers name an original topic and carry a natural count. -/
structure Counted (topic : String) (count : Nat) (headers : Headers) : Prop where
  named : topic ≠ ""
  distinct : headers.Distinct
  origin : originalTopic headers = some topic
  count : replayCount headers = .ofNat count

variable {topic : String} {count budget : Nat}

theorem Counted.exhausted_iff (counted : Counted topic count headers)
    (natural : self.maxReplays = .ofNat budget)
    : self.Exhausted headers ↔ budget ≤ count := by
  have origin : (originalTopic headers).getD "" ≠ "" := by
    rw [counted.origin]
    exact counted.named
  simp [Exhausted, origin, counted.count, natural, Number.ge, Number.ofNat]

/-- What the headers of a republication read as. -/
theorem replayCount_of_carry (carries : after.Carry (stringHeaders headers (replayCount headers)))
    : replayCount after = .ofText ((replayCount headers).add (.ofNat 1)).toText := by
  rw [replayCount, carries.text?, lookup_stringHeaders_count]
  rfl

/-- A count below 2^53 counts up. -/
theorem Counted.next (counted : Counted topic count headers) (safe : count < 2 ^ 53)
    (carries : after.Carry (stringHeaders headers (replayCount headers)))
    : Counted topic (count + 1) after ∧ CountsUp headers after := by
  have sum : (replayCount headers).add (.ofNat 1) = .ofNat (count + 1) := by
    rw [counted.count, Number.ofNat_add_one safe]
  have written : after.text? "x-dlq-replay-count" = some (count + 1).repr := by
    rw [carries.text?, lookup_stringHeaders_count, sum, Number.ofNat,
      Number.toText_natCast safe]
  have read : replayCount after = .ofNat (count + 1) := by
    rw [replayCount, written]
    exact Number.ofText_repr safe
  refine
    ⟨{
      named := counted.named
      distinct := carries.distinct (nodup_stringHeaders headers _)
      origin := by
        rw [originalTopic, carries.text?, lookup_stringHeaders_topic _ counted.distinct]
        exact counted.origin
      count := read
    }, count + 1, written, read, ?_⟩
  rw [counted.count, Number.ofNat]
  push_cast
  rw [add_sub_cancel_right]

/-- No count from 2^53 on counts up: the doubles there are even. -/
theorem not_countsUp_of_large (counted : replayCount headers = .ofNat count)
    (large : 2 ^ 53 ≤ count)
    : ¬ CountsUp headers after := by
  rintro ⟨next, _, read, before⟩
  have successor : next = count + 1 := by
    rw [counted, Number.ofNat, Number.finite.injEq] at before
    have : (next : ℚ) = count + 1 := by linarith
    exact_mod_cast this
  obtain ⟨_, even⟩ := Number.exists_ofRat_of_ofText counted
  obtain ⟨_, even'⟩ := Number.exists_ofRat_of_ofText read
  have first := Number.even_of_ofRat large even
  have second := Number.even_of_ofRat (by omega) even'
  rw [successor] at second
  exact (Nat.even_add_one.mp second) first

-----------------------------------------------------------------------------------------
-- Within the budget
-----------------------------------------------------------------------------------------

/-- Nothing is republished of a message that cannot be replayed. -/
theorem givesUpWithin_of_exhausted (budget : Nat) (exhausted : self.Exhausted headers)
    : self.GivesUpWithin budget headers := by
  have givenUp := givenUp_of_exhausted exhausted
  refine ⟨0, Nat.zero_le _, fun republished reached followed => ?_⟩
  obtain ⟨rfl, rfl⟩ := followed.of_givenUp givenUp
  exact ⟨Nat.le_refl 0, fun before => absurd before (Nat.lt_irrefl 0), fun _ => givenUp⟩

/-- A natural count grows with the republications, never beyond the budget; by induction on
the deliveries.
-/
theorem Counted.followed {reached : Headers} (counted : Counted topic count first)
    (natural : self.maxReplays = .ofNat budget) (safe : budget ≤ 2 ^ 53)
    (within : count ≤ budget) (followed : self.Followed first republished reached)
    : count + republished ≤ budget ∧ Counted topic (count + republished) reached := by
  induction followed with
  | start => exact ⟨within, counted⟩
  | @delivered republished payload history outcome after _ run returns ih =>
      obtain ⟨below, here⟩ := ih
      obtain ⟨none_of_exhausted, either, _⟩ := republications_of_finishes run
      rcases either with none | once
      · simp only [Returns, none, List.getLast?_nil] at returns
        rw [none, returns]
        exact ⟨below, here⟩
      · have strictly : count + republished < budget := by
          by_contra reached
          have exhausted := (here.exhausted_iff natural).mpr (Nat.not_lt.mp reached)
          rw [none_of_exhausted exhausted] at once
          cases once
        simp only [Returns, once, List.getLast?_singleton] at returns
        rw [once]
        exact ⟨strictly, (here.next (Nat.lt_of_lt_of_le strictly safe) returns).1⟩

/-- A message with a natural count below a safe budget uses up the rest of it. -/
theorem givesUpWithin_of_counted (counted : Counted topic count headers)
    (natural : self.maxReplays = .ofNat budget) (safe : budget ≤ 2 ^ 53)
    (within : count ≤ budget)
    : self.GivesUpWithin budget headers := by
  refine ⟨budget - count, Nat.sub_le _ _, fun republished reached followed => ?_⟩
  obtain ⟨below, here⟩ := counted.followed natural safe within followed
  refine ⟨by omega, fun before => ?_, fun last => ?_⟩
  · have strictly : count + republished < budget := by omega
    have replayable : ¬ self.Exhausted reached := by
      rw [here.exhausted_iff natural]
      omega
    rintro payload history outcome rfl run
    obtain ⟨_, either, complete⟩ := republications_of_finishes run
    refine ⟨fun completed => by rw [complete completed replayable]; rfl, ?_⟩
    intro written member after carries
    rcases either with none | once
    · rw [none] at member
      cases member
    · rw [once, List.mem_singleton] at member
      exact (here.next (Nat.lt_of_lt_of_le strictly safe) (member ▸ carries)).2
  · exact givenUp_of_exhausted ((here.exhausted_iff natural).mpr (by omega))

-----------------------------------------------------------------------------------------
-- Beyond the budget
-----------------------------------------------------------------------------------------

/-- A natural count can be followed up to the budget, as long as it is safe; by induction on
the republications.
-/
theorem Counted.climb (counted : Counted topic count headers)
    (natural : self.maxReplays = .ofNat budget)
    (followed : self.Followed first republished headers) {rounds : Nat}
    (safe : count + rounds ≤ 2 ^ 53) (within : count + rounds ≤ budget)
    : ∃ reached,
        self.Followed first (republished + rounds) reached
        ∧ Counted topic (count + rounds) reached := by
  induction rounds with
  | zero => exact ⟨headers, followed, counted⟩
  | succ rounds ih =>
      obtain ⟨reached, followed', here⟩ := ih (by omega) (by omega)
      have replayable : ¬ self.Exhausted reached := by
        rw [here.exhausted_iff natural]
        omega
      obtain ⟨_, _, after, _, _, _, carries, next⟩ := followed'.next replayable
      exact ⟨after, next, (here.next (by omega) carries).1⟩

/-- Until it is given up, a message that gives up within the budget counts up. -/
theorem GivesUpWithin.next (gives : self.GivesUpWithin budget first)
    (followed : self.Followed first republished headers)
    (replayable : ¬ self.Exhausted headers)
    : republished < budget
      ∧ ∃ after, self.Followed first (republished + 1) after
          ∧ after.Carry (stringHeaders headers (replayCount headers))
          ∧ CountsUp headers after := by
  obtain ⟨rounds, within, law⟩ := gives
  obtain ⟨payload, history, after, same, run, once, carries, next⟩ := followed.next replayable
  have before : republished < rounds := (law _ _ next).1
  have counting := ((law _ _ followed).2.1 before payload history _ same run).2
  refine ⟨by omega, after, next, carries, counting _ ?_ after carries⟩
  rw [once]
  exact List.mem_singleton_self _

/-- No message with a natural count below the budget gives up within a budget beyond 2^53. -/
theorem Counted.not_givesUpWithin (counted : Counted topic count headers)
    (natural : self.maxReplays = .ofNat budget) (large : 2 ^ 53 < budget)
    (below : count < budget) (followed : self.Followed first republished headers)
    : ¬ self.GivesUpWithin budget first := by
  intro gives
  rcases Nat.lt_or_ge count (2 ^ 53) with small | beyond
  · obtain ⟨reached, followed', here⟩ :=
      @climb self first headers republished topic count budget counted natural followed
        (2 ^ 53 - count) (by omega) (by omega)
    have last : count + (2 ^ 53 - count) = 2 ^ 53 := by omega
    rw [last] at here
    have replayable : ¬ self.Exhausted reached := by
      rw [here.exhausted_iff natural]
      omega
    obtain ⟨_, after, _, _, up⟩ := gives.next followed' replayable
    exact not_countsUp_of_large here.count (Nat.le_refl _) up
  · have replayable : ¬ self.Exhausted headers := by
      rw [counted.exhausted_iff natural]
      omega
    obtain ⟨_, after, _, _, up⟩ := gives.next followed replayable
    exact not_countsUp_of_large counted.count beyond up

/-- A message that can be replayed and gives up within the budget carries a natural count,
and its budget is a safe integer; witness: the count before the first republication is one
less than a natural number, and is not -1, which would allow one republication too many.
-/
theorem GivesUpWithin.counted (gives : self.GivesUpWithin budget headers)
    (natural : self.maxReplays = .ofNat budget) (distinct : headers.Distinct)
    (replayable : ¬ self.Exhausted headers)
    : (∃ count : Nat, replayCount headers = .ofNat count) ∧ budget ≤ 2 ^ 53 := by
  cases origin : originalTopic headers with
  | none => exact absurd (Or.inl (by simp [origin])) replayable
  | some topic =>
      have named : topic ≠ "" := by
        intro missing
        exact replayable (Or.inl (by simp [origin, missing]))
      obtain ⟨_, after, followed, carries, count, text, read, before⟩ :=
        gives.next .start replayable
      cases count with
      | succ count =>
          have counted : Counted topic count headers :=
            {
              named
              distinct
              origin
              count := by
                rw [before, Number.ofNat]
                push_cast
                rw [add_sub_cancel_right]
            }
          refine ⟨⟨count, counted.count⟩, ?_⟩
          by_contra large
          refine counted.not_givesUpWithin natural (by omega) ?_ .start gives
          rw [counted.exhausted_iff natural] at replayable
          omega
      | zero =>
          have counted : Counted topic 0 after :=
            {
              named
              distinct := carries.distinct (nodup_stringHeaders headers _)
              origin := by
                rw [originalTopic, carries.text?, lookup_stringHeaders_topic _ distinct]
                exact origin
              count := read
            }
          rcases Nat.lt_or_ge (2 ^ 53) budget with large | safe
          · exact absurd gives
              (counted.not_givesUpWithin natural large (by omega) followed)
          · obtain ⟨reached, followed', _⟩ :=
              @Counted.climb self headers after 1 topic 0 budget counted natural followed
                budget (by omega) (by omega)
            obtain ⟨rounds, within, law⟩ := gives
            have := (law _ _ followed').1
            omega

-----------------------------------------------------------------------------------------
-- Exactly when a message is given up in time
-----------------------------------------------------------------------------------------

/-- A dead letter that keeps coming back with the headers of its last republication is
republished within the budget, counting up, and then given up, exactly when it cannot be
replayed at all or its count is a natural number and the budget at most 2^53.
-/
theorem givesUpWithin_iff {self : DlqReplayConsumer} {headers : Headers} {budget : Nat}
    (natural : self.maxReplays = .ofNat budget) (distinct : headers.Distinct)
    : self.GivesUpWithin budget headers
      ↔ self.Exhausted headers
        ∨ (∃ count : Nat, replayCount headers = .ofNat count) ∧ budget ≤ 2 ^ 53 := by
  constructor
  · intro gives
    by_cases exhausted : self.Exhausted headers
    · exact Or.inl exhausted
    · exact Or.inr (gives.counted natural distinct exhausted)
  · rintro (exhausted | ⟨⟨count, read⟩, safe⟩)
    · exact givesUpWithin_of_exhausted budget exhausted
    · by_cases exhausted : self.Exhausted headers
      · exact givesUpWithin_of_exhausted budget exhausted
      · cases origin : originalTopic headers with
        | none => exact absurd (Or.inl (by simp [origin])) exhausted
        | some topic =>
            have named : topic ≠ "" := by
              intro missing
              exact exhausted (Or.inl (by simp [origin, missing]))
            have counted : Counted topic count headers := ⟨named, distinct, origin, read⟩
            apply givesUpWithin_of_counted counted natural safe
            rw [counted.exhausted_iff natural] at exhausted
            omega

/-- A dead letter of the knowledge topic with a replay count, as kafkajs hands it back. -/
def knowledgeHeaders (count : String) : Headers :=
  [
    ("x-original-topic", .one (.buffer (Buffer.ofText "knowledge-events"))),
    ("x-dlq-replay-count", .many [.text count])
  ]

theorem distinct_knowledgeHeaders (count : String) : (knowledgeHeaders count).Distinct := by
  simp [Headers.Distinct, knowledgeHeaders]

/-- A message not replayed yet is replayed at most once, where one replay is allowed. -/
theorem givesUpWithin_fresh
    : knowledgeLoop.replayer.GivesUpWithin 1 (knowledgeHeaders "0") := by
  have natural : knowledgeLoop.replayer.maxReplays = .ofNat 1 := rfl
  have fresh : replayCount (knowledgeHeaders "0") = .ofNat 0 := by
    decide +kernel
  exact (givesUpWithin_iff natural (distinct_knowledgeHeaders "0")).mpr
    (Or.inr ⟨⟨0, fresh⟩, by norm_num⟩)

/-- A count that is not a number stays one, and the message is replayed without end; by
induction on the replays.
-/
theorem Followed.of_nan (malformed : replayCount headers = .nan) (distinct : headers.Distinct)
    (named : (originalTopic headers).getD "" ≠ "") (republished : Nat)
    : ∃ reached,
        self.Followed headers republished reached
        ∧ replayCount reached = .nan
        ∧ reached.Distinct
        ∧ originalTopic reached = originalTopic headers := by
  induction republished with
  | zero => exact ⟨headers, .start, malformed, distinct, rfl⟩
  | succ republished ih =>
      obtain ⟨reached, followed, still, distinct', origin⟩ := ih
      have replayable : ¬ self.Exhausted reached := by
        rintro (missing | spent)
        · rw [origin] at missing
          exact named missing
        · rw [still] at spent
          cases spent
      obtain ⟨_, _, after, _, _, _, carries, next⟩ := followed.next replayable
      refine ⟨after, next, ?_, carries.distinct (nodup_stringHeaders reached _), ?_⟩
      · rw [replayCount_of_carry carries, still]
        decide +kernel
      · rw [originalTopic, carries.text?, lookup_stringHeaders_topic _ distinct']
        exact origin

/-- A replay count that is not a number is republished without end. -/
theorem replays_malformed_count
    : (∀ republished, ∃ reached,
        knowledgeLoop.replayer.Followed (knowledgeHeaders "abc") republished reached)
      ∧ ¬ knowledgeLoop.replayer.GivesUpWithin 1 (knowledgeHeaders "abc") := by
  have endless : ∀ republished, ∃ reached,
      knowledgeLoop.replayer.Followed (knowledgeHeaders "abc") republished reached := by
    intro republished
    obtain ⟨reached, followed, _⟩ :=
      @Followed.of_nan knowledgeLoop.replayer (knowledgeHeaders "abc") (by decide +kernel)
        (distinct_knowledgeHeaders "abc") (by decide +kernel) republished
    exact ⟨reached, followed⟩
  refine ⟨endless, ?_⟩
  rintro ⟨rounds, within, law⟩
  obtain ⟨reached, followed⟩ := endless (rounds + 1)
  exact absurd (law _ _ followed).1 (Nat.not_succ_le_self rounds)

end DlqReplayConsumer
end SharedKernel.Messaging
