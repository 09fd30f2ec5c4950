import SharedKernel.Logger.RedactWalk

/-! When a redaction throws: a copy is given a property that its own prototype, set by an earlier
property `__proto__`, makes read-only. Otherwise the redaction goes through the walk.
-/

namespace SharedKernel.Logger

open Foundation Js

-----------------------------------------------------------------------------------------
-- Obstructed walks
-----------------------------------------------------------------------------------------

variable {α : Type} [Fintype α]

/-- The key is read-only in an object that inherits from what is shown, the copies being those of
the visits.
-/
inductive Refuses (objects : CallerObjects α) (visits : List (Visit α)) (key : String)
    : HeapValue (Address α) → Prop
  | function {identity : Nat} (refused : objects.refuses identity key = true)
    : Refuses objects visits key (.primitive (.other identity))
  | caller {address : α} (readOnly : objects.readOnlyFrom key (Fintype.card α) address = true)
    : Refuses objects visits key (.ref (.caller address))
  | copy {visit : Visit α} {shown parent} (member : visit ∈ visits)
    (shows : Shown (slots (objects.heap.node visit.object)) visit.met shown)
    (absent : key ∉ shown.map Prod.fst) (inherits : ("__proto__", parent) ∈ shown)
    (above : Refuses objects visits key parent)
    : Refuses objects visits key (.ref (.copy visit.object))

/-- Assigning the shown properties one after another, to an object that has others already, comes
to a key that is read-only in the prototype that the object has by then.
-/
def Blocked (objects : CallerObjects α) (visits : List (Visit α))
    (out shown : List (String × HeapValue (Address α)))
    : Prop :=
  ∃ before key value after parent,
    shown = before ++ (key, value) :: after
    ∧ ("__proto__", parent) ∈ out ++ before
    ∧ Refuses objects visits key parent

/-- The copy for the visit cannot be given its properties. -/
def Obstructs (objects : CallerObjects α) (visits : List (Visit α)) (visit : Visit α) : Prop :=
  ∃ shown,
    Shown (slots (objects.heap.node visit.object)) visit.met shown
    ∧ Blocked objects visits [] shown

/-- The walk of the value visits an object whose copy cannot be given its properties. -/
def Obstructed [DecidableEq α] (objects : CallerObjects α) (value : HeapValue α) : Prop :=
  ∃ meetings visits later,
    DepthFirst (walked objects.heap) ∅ (refs [value]) meetings visits later
    ∧ ∃ visit ∈ visits, Obstructs objects visits visit

/-- Where nothing is frozen and functions refuse no key, nothing is refused, by induction on the
chain of prototypes.
-/
theorem not_refuses_yielding {objects : CallerObjects α} (yielding : objects.Yielding)
    {visits : List (Visit α)} {key : String} {value : HeapValue (Address α)}
    : ¬ Refuses objects visits key value := by
  intro refuses
  induction refuses with
  | function refused => simp [yielding.granted] at refused
  | caller readOnly => simp [CallerObjects.readOnlyFrom_thawed yielding.thawed] at readOnly
  | copy _ _ _ _ _ ih => exact ih

/-- Nor is any walk obstructed there. -/
theorem not_obstructed_yielding [DecidableEq α] {objects : CallerObjects α}
    (yielding : objects.Yielding) (value : HeapValue α)
    : ¬ Obstructed objects value := by
  rintro ⟨_, visits, _, _, visit, _, _, _, _, key, _, _, parent, _, _, refuses⟩
  exact not_refuses_yielding yielding refuses

section Blocked

variable {objects : CallerObjects α} {visits : List (Visit α)} {key : String}

/-- What is refused by a copy is refused by its prototype, and is no key of its own. -/
theorem refuses_copy (distinct : (visits.map Visit.object).Nodup) {visit : Visit α}
    (member : visit ∈ visits) {shown : List (String × HeapValue (Address α))}
    (shows : Shown (slots (objects.heap.node visit.object)) visit.met shown)
    : Refuses objects visits key (.ref (.copy visit.object))
      ↔ key ∉ shown.map Prod.fst
        ∧ ∃ parent, ("__proto__", parent) ∈ shown ∧ Refuses objects visits key parent := by
  constructor
  · intro refuses
    generalize isCopy : HeapValue.ref (Address.copy visit.object) = value at refuses
    cases refuses with
    | function _ | caller _ => cases isCopy
    | @copy other shown' parent member' shows' absent inherits above =>
        have same : visit.object = other.object := by
          simpa using isCopy
        obtain rfl := List.inj_on_of_nodup_map distinct member member' same
        obtain rfl := shows.unique shows'
        exact ⟨absent, parent, inherits, above⟩
  · intro both
    obtain ⟨absent, parent, inherits, above⟩ := both
    exact .copy member shows absent inherits above

theorem blocked_nil (out : List (String × HeapValue (Address α)))
    : ¬ Blocked objects visits out [] := by
  rintro ⟨before, key, value, after, parent, absurd, _⟩
  simp at absurd

/-- The properties are blocked at the first one, or after it. -/
theorem blocked_cons {out rest : List (String × HeapValue (Address α))}
    {value : HeapValue (Address α)}
    : Blocked objects visits out ((key, value) :: rest)
      ↔ (∃ parent, ("__proto__", parent) ∈ out ∧ Refuses objects visits key parent)
        ∨ Blocked objects visits (out ++ [(key, value)]) rest := by
  constructor
  · rintro ⟨before, key', value', after, parent, split, inherits, above⟩
    cases before with
    | nil =>
        cases split
        exact Or.inl ⟨parent, by simpa using inherits, above⟩
    | cons first before =>
        cases split
        exact Or.inr ⟨before, key', value', after, parent, rfl, by simpa using inherits, above⟩
  · rintro (⟨parent, inherits, above⟩ | ⟨before, key', value', after, parent, rfl, inherits, above⟩)
    · exact ⟨[], key, value, rest, parent, rfl, by simpa using inherits, above⟩
    · exact ⟨(key, value) :: before, key', value', after, parent, rfl, by simpa using inherits,
        above⟩

omit [Fintype α] in
/-- The items of an array are shown without a key. -/
theorem array_unnamed {visit : Visit α} {items : List (HeapValue α)}
    (node : objects.heap.node visit.object = .array items)
    {shown : List (String × HeapValue (Address α))}
    (shows : Shown (slots (objects.heap.node visit.object)) visit.met shown)
    (value : HeapValue (Address α))
    : ("__proto__", value) ∉ shown := by
  intro named
  have among := List.mem_map_of_mem (f := Prod.fst) named
  rw [shows.keys, node, slots, List.map_map] at among
  obtain ⟨_, _, absurd⟩ := List.mem_map.mp among
  simp at absurd

/-- The copy of an array is never in the way. -/
theorem not_obstructs_array {visit : Visit α} {items : List (HeapValue α)}
    (node : objects.heap.node visit.object = .array items)
    : ¬ Obstructs objects visits visit := by
  rintro ⟨shown, shows, before, key, value, after, parent, rfl, inherits, _⟩
  exact array_unnamed node shows parent (List.mem_append_left _ inherits)

end Blocked

-----------------------------------------------------------------------------------------
-- What the redaction knows of its copies
-----------------------------------------------------------------------------------------

variable [DecidableEq α] {objects : CallerObjects α} {all done : List (Visit α)}
  {state : Redaction α}

/-- The locks of the copies made so far are those of the walk. -/
structure Locks (objects : CallerObjects α) (all done : List (Visit α)) (state : Redaction α)
    : Prop where
  seen : ∀ visit ∈ done, visit.object ∈ state.seen
  refuses
    : ∀ visit ∈ done,
        ∀ key,
          state.locks visit.object key = true ↔ Refuses objects all key (.ref (.copy visit.object))

/-- The copies that are shown have been made. -/
def Made (done : List (Visit α)) (shown : List (String × HeapValue (Address α))) : Prop :=
  ∀ key address, (key, .ref (.copy address)) ∈ shown → address ∈ done.map Visit.object

omit [DecidableEq α] in
/-- What is read-only in a prototype is refused by it. -/
theorem readOnlyIn_iff (locks : Locks objects all done state) {key : String}
    {parent : HeapValue (Address α)}
    (made : ∀ address, parent = .ref (.copy address) → address ∈ done.map Visit.object)
    : readOnlyIn objects state.locks key parent = true ↔ Refuses objects all key parent := by
  constructor
  · intro readOnly
    match parent with
    | .primitive (.other identity) => exact .function readOnly
    | .primitive .undefined | .primitive .null | .primitive (.boolean _) | .primitive (.number _)
    | .primitive (.text _) => cases readOnly
    | .ref (.caller address) => exact .caller readOnly
    | .ref (.copy address) =>
        obtain ⟨visit, member, rfl⟩ := List.mem_map.mp (made address rfl)
        exact (locks.refuses visit member key).mp readOnly
  · intro refuses
    cases refuses with
    | function refused => exact refused
    | caller readOnly => exact readOnly
    | @copy visit shown parent member shows absent inherits above =>
        obtain ⟨visit', member', same⟩ := List.mem_map.mp (made visit.object rfl)
        have refuses := Refuses.copy member shows absent inherits above
        rw [readOnlyIn, ← same]
        rw [← same] at refuses
        exact (locks.refuses visit' member' key).mpr refuses

omit [DecidableEq α] in
/-- A key is read-only in an object under construction if its prototype refuses the key. -/
theorem inheritedReadOnly_iff (locks : Locks objects all done state)
    {out : List (String × HeapValue (Address α))} (distinct : (out.map Prod.fst).Nodup)
    (made : Made done out) (key : String)
    : inheritedReadOnly objects state.locks out key = true
      ↔ ∃ parent, ("__proto__", parent) ∈ out ∧ Refuses objects all key parent := by
  unfold inheritedReadOnly
  rw [Option.any_eq_true]
  constructor
  · rintro ⟨⟨name, parent⟩, found, readOnly⟩
    have named := List.find?_some found
    simp only [decide_eq_true_eq] at named
    subst named
    have inherits := List.mem_of_find?_eq_some found
    refine ⟨parent, inherits, (readOnlyIn_iff locks ?_).mp readOnly⟩
    rintro address rfl
    exact made _ address inherits
  · rintro ⟨parent, inherits, refuses⟩
    refine ⟨_, (find?_key distinct).mpr inherits, (readOnlyIn_iff locks ?_).mpr refuses⟩
    rintro address rfl
    exact made _ address inherits

-----------------------------------------------------------------------------------------
-- The redaction along the walk
-----------------------------------------------------------------------------------------

/-- A redaction has gone through the visits. -/
structure Advances (objects : CallerObjects α) (all done visits : List (Visit α))
    (later : Finset α) (state next : Redaction α)
    : Prop where
  seen : next.seen = later
  created
    : ∃ made,
        next.created = state.created ++ made
        ∧ List.Forall₂ (Copied objects.heap) visits made
  locks : Locks objects all (done ++ visits) next

omit [DecidableEq α] in
/-- Nothing is visited. -/
theorem Advances.none (locks : Locks objects all done state)
    : Advances objects all done [] state.seen state state where
  seen := rfl
  created := ⟨[], (List.append_nil _).symm, .nil⟩
  locks := by simpa using locks

omit [DecidableEq α] in
/-- More is visited. -/
theorem Advances.trans {visits more : List (Visit α)} {between later : Finset α}
    {middle next : Redaction α} (first : Advances objects all done visits between state middle)
    (second : Advances objects all (done ++ visits) more later middle next)
    : Advances objects all done (visits ++ more) later state next where
  seen := second.seen
  created := by
    obtain ⟨made, same, copied⟩ := first.created
    obtain ⟨made', same', copied'⟩ := second.created
    exact ⟨made ++ made', by rw [same', same, List.append_assoc], List.rel_append copied copied'⟩
  locks := by
    rw [← List.append_assoc]
    exact second.locks

/-- Code throws if something is in the way, and otherwise gives a good value and goes through the
visits.
-/
def Proceeds {β : Type} (objects : CallerObjects α) (all done visits : List (Visit α))
    (later : Finset α) (state : Redaction α) (blocked : Prop) (good : β → Prop)
    (result : Except Thrown β × Redaction α)
    : Prop :=
  ((blocked ∨ ∃ visit ∈ visits, Obstructs objects all visit)
      ∧ ∃ key next, result = (.error (readOnlyError "#<Object>" key), next))
  ∨ (¬ blocked ∧ ∀ visit ∈ visits, ¬ Obstructs objects all visit)
      ∧ ∃ value next,
          result = (.ok value, next)
          ∧ good value
          ∧ Advances objects all done visits later state next

section Proceeds

variable {visits more : List (Visit α)} {between later : Finset α} {β γ : Type}
  {blocked : Prop} {good : β → Prop} {good' : γ → Prop} {code : RedactCode α β}

omit [DecidableEq α] in
/-- Nothing is visited, and nothing is in the way. -/
theorem Proceeds.pure (locks : Locks objects all done state) (unblocked : ¬ blocked) {value : β}
    (isGood : good value)
    : Proceeds objects all done [] state.seen state blocked good (.ok value, state) :=
  Or.inr ⟨⟨unblocked, by simp⟩, value, state, rfl, isGood, .none locks⟩

omit [DecidableEq α] in
/-- What is in the way, and what is good, can be said in another way. -/
theorem Proceeds.congr {blocked' : Prop} {good' : β → Prop} {result : Except Thrown β × Redaction α}
    (proceeds : Proceeds objects all done visits later state blocked good result)
    (same : blocked ↔ blocked') (fine : ∀ value, good value → good' value)
    : Proceeds objects all done visits later state blocked' good' result := by
  rcases proceeds with ⟨either, thrown⟩ | ⟨⟨unblocked, free⟩, value, next, ran, isGood, advances⟩
  · exact Or.inl ⟨either.imp_left same.mp, thrown⟩
  · exact Or.inr ⟨⟨fun absurd => unblocked (same.mpr absurd), free⟩, value, next, ran,
      fine value isGood, advances⟩

omit [DecidableEq α] in
/-- Code goes on where other code has got to. -/
theorem Proceeds.bind {next : β → RedactCode α γ}
    (first : Proceeds objects all done visits between state False good (Atomic.on state code))
    (second
      : ∀ value middle,
          good value
          → Advances objects all done visits between state middle
          → Proceeds objects all (done ++ visits) more later middle blocked good'
              (Atomic.on middle (next value)))
    : Proceeds objects all done (visits ++ more) later state blocked good'
        (Atomic.on state (code >>= next)) := by
  rw [Atomic.on_bind]
  rcases first with
    ⟨absurd | ⟨visit, member, obstructs⟩, key, thrown, ran⟩
    | ⟨⟨_, free⟩, value, middle, ran, isGood, advances⟩
  · exact absurd.elim
  · rw [ran]
    exact Or.inl ⟨Or.inr ⟨visit, List.mem_append_left _ member, obstructs⟩, key, thrown, rfl⟩
  · rw [ran]
    rcases second value middle isGood advances with
      ⟨either, stopped⟩ | ⟨⟨unblocked, free'⟩, result, last, ran', isGood', advances'⟩
    · refine Or.inl ⟨either.imp_right ?_, stopped⟩
      rintro ⟨visit, member, obstructs⟩
      exact ⟨visit, List.mem_append_right _ member, obstructs⟩
    · refine Or.inr ⟨⟨unblocked, ?_⟩, result, last, ran', isGood', advances.trans advances'⟩
      intro visit member
      rcases List.mem_append.mp member with here | there
      · exact free visit here
      · exact free' visit there

omit [DecidableEq α] in
/-- What code gives is made into something else. -/
theorem Proceeds.bind_pure {f : β → γ}
    (first : Proceeds objects all done visits later state blocked good (Atomic.on state code))
    (fine : ∀ value, good value → good' (f value))
    : Proceeds objects all done visits later state blocked good'
        (Atomic.on state (code >>= fun value => Pure.pure (f value))) := by
  rw [Atomic.on_bind]
  rcases first with ⟨either, key, thrown, ran⟩ | ⟨free, value, next, ran, isGood, advances⟩
  · rw [ran]
    exact Or.inl ⟨either, key, thrown, rfl⟩
  · rw [ran]
    exact Or.inr ⟨free, f value, next, rfl, fine value isGood, advances⟩

end Proceeds

/-- Each value that is redacted goes through its walk. -/
def Along (objects : CallerObjects α) (all : List (Visit α)) (depth : Nat)
    (redact : HeapValue α → RedactCode α (HeapValue (Address α)))
    : Prop :=
  ∀ (key : String) value done state meetings visits later,
    key ∉ sensitiveLogKeys
    → state.seenᶜ.card ≤ depth
    → DepthFirst (walked objects.heap) state.seen (refs [value]) meetings visits later
    → visits ⊆ all
    → Locks objects all done state
    → Proceeds objects all done visits later state False
        (fun shown => Shown [(key, value)] meetings [(key, shown)])
        (Atomic.on state (redact value))

section Along

variable {depth : Nat} {redact : HeapValue α → RedactCode α (HeapValue (Address α))}
  {meetings : List (Meeting α)} {visits : List (Visit α)} {later : Finset α}

/-- The depth stays enough for the objects that are left. -/
theorem Advances.enough {middle : Redaction α} {given : List α}
    (advances : Advances objects all done visits later state middle)
    (walk : DepthFirst (walked objects.heap) state.seen given meetings visits later)
    (enough : state.seenᶜ.card ≤ depth)
    : middle.seenᶜ.card ≤ depth := by
  rw [advances.seen]
  exact (Finset.card_le_card (Finset.compl_subset_compl.mpr walk.seen_subset)).trans enough

/-- The items of an array are redacted along their walk, by induction on them. -/
theorem mapM_along (along : Along objects all depth redact) (items : List (HeapValue α))
    (enough : state.seenᶜ.card ≤ depth)
    (walk
      : DepthFirst (walked objects.heap) state.seen
          (openRefs (items.map (fun item => ("", item)))) meetings visits later)
    (among : visits ⊆ all) (locks : Locks objects all done state)
    : Proceeds objects all done visits later state False
        (fun shown =>
          Shown (items.map (fun item => ("", item))) meetings (shown.map (fun item => ("", item))))
        (Atomic.on state (items.mapM redact)) := by
  induction items generalizing state done meetings visits with
  | nil =>
      cases walk
      exact .pure locks id .nil
  | cons item rest ih =>
      rw [List.map_cons, openRefs_plain _ _ unnamed_plain] at walk
      obtain ⟨meetings, further, visits, more, between, rfl, rfl, walk, onward⟩ := walk.split
      obtain ⟨here, there⟩ := List.append_subset.mp among
      rw [List.mapM_cons]
      refine (along "" item done state _ _ _ unnamed_plain enough walk here locks).bind ?_
      intro shown middle shows advances
      rw [← advances.seen] at onward
      refine (ih (advances.enough walk enough) onward there advances.locks).bind_pure ?_
      intro others shows'
      exact shows.append shows'

/-- The value of an entry is redacted along its walk, unless the key is sensitive. -/
theorem entry_along (along : Along objects all depth redact) (key : String) (value : HeapValue α)
    (enough : state.seenᶜ.card ≤ depth)
    (walk
      : DepthFirst (walked objects.heap) state.seen (openRefs [(key, value)]) meetings visits later)
    (among : visits ⊆ all) (locks : Locks objects all done state)
    : Proceeds objects all done visits later state False
        (fun shown => Shown [(key, value)] meetings [(key, shown)])
        (Atomic.on state
          (if key ∈ sensitiveLogKeys then pure (.primitive (.text logRedactCensor))
            else redact value)) := by
  by_cases sensitive : key ∈ sensitiveLogKeys
  · rw [if_pos sensitive]
    rw [openRefs_secret _ _ sensitive] at walk
    cases walk
    exact .pure locks id (.secret sensitive .nil)
  · rw [if_neg sensitive]
    rw [openRefs_plain _ _ sensitive] at walk
    have single : refs [value] ++ openRefs [] = refs [value] := List.append_nil _
    rw [single] at walk
    exact along key value done state _ _ _ sensitive enough walk among locks

omit [Fintype α] [DecidableEq α] in
/-- One slot is shown as one property. -/
theorem Shown.single {key : String} {value : HeapValue α} {meetings : List (Meeting α)}
    {shown : List (String × HeapValue (Address α))} (shows : Shown [(key, value)] meetings shown)
    : ∃ held, shown = [(key, held)] := by
  have keys := shows.keys
  match shown with
  | [] => cases keys
  | [(key', held)] =>
      cases keys
      exact ⟨held, rfl⟩
  | _ :: _ :: _ => simp at keys

omit [Fintype α] in
/-- What is shown under a further key has been made, or is no copy. -/
theorem Made.snoc {out : List (String × HeapValue (Address α))} (made : Made done out)
    {key : String} {value : HeapValue α} {held : HeapValue (Address α)}
    (walk
      : DepthFirst (walked objects.heap) state.seen (openRefs [(key, value)]) meetings visits later)
    (shows : Shown [(key, value)] meetings [(key, held)])
    : Made (done ++ visits) (out ++ [(key, held)]) := by
  intro name address shown
  rw [List.map_append, List.mem_append]
  rcases List.mem_append.mp shown with old | now
  · exact Or.inl (made name address old)
  · obtain rfl : name = key := congrArg Prod.fst (List.mem_singleton.mp now)
    exact Or.inr (walk.first_visited (shows.first_met now))

omit [DecidableEq α] in
/-- Assigning a property is blocked, or adds it. -/
theorem on_assignProperty (locks : Locks objects all done state)
    {out : List (String × HeapValue (Address α))} (distinct : (out.map Prod.fst).Nodup)
    (made : Made done out) (key : String) (held : HeapValue (Address α))
    : ((∃ parent, ("__proto__", parent) ∈ out ∧ Refuses objects all key parent)
        ∧ Atomic.on state (assignProperty objects out key held)
          = (.error (readOnlyError "#<Object>" key), state))
      ∨ (¬ (∃ parent, ("__proto__", parent) ∈ out ∧ Refuses objects all key parent)
        ∧ Atomic.on state (assignProperty objects out key held)
          = (.ok (out ++ [(key, held)]), state)) := by
  have readOnly := inheritedReadOnly_iff locks distinct made key
  rw [← readOnly]
  by_cases refused : inheritedReadOnly objects state.locks out key = true
  · exact Or.inl ⟨refused, by simp [assignProperty, refused]⟩
  · exact Or.inr ⟨refused, by simp [assignProperty, refused]⟩

/-- The properties of an object are redacted along their walk, unless they are blocked; by
induction on them.
-/
theorem redactProperties_along (along : Along objects all depth redact)
    (properties : List (String × HeapValue α)) (out : List (String × HeapValue (Address α)))
    (distinct : (out.map Prod.fst ++ properties.map Prod.fst).Nodup) (made : Made done out)
    (enough : state.seenᶜ.card ≤ depth)
    (walk
      : DepthFirst (walked objects.heap) state.seen (openRefs properties) meetings visits later)
    (among : visits ⊆ all) (locks : Locks objects all done state)
    {shown : List (String × HeapValue (Address α))} (shows : Shown properties meetings shown)
    : Proceeds objects all done visits later state (Blocked objects all out shown)
        (fun result => result = out ++ shown)
        (Atomic.on state (redactProperties objects redact properties out)) := by
  induction properties generalizing state done meetings visits out shown with
  | nil =>
      cases walk
      cases shows
      exact .pure locks (blocked_nil out) (List.append_nil out).symm
  | cons entry rest ih =>
      obtain ⟨key, value⟩ := entry
      have parts : openRefs ((key, value) :: rest) = openRefs [(key, value)] ++ openRefs rest :=
        openRefs_append [(key, value)] rest
      rw [parts] at walk
      obtain ⟨meetings, further, visits, more, between, rfl, rfl, walk, onward⟩ := walk.split
      obtain ⟨here, there⟩ := List.append_subset.mp among
      obtain ⟨first, showsFirst⟩ := Shown.exists_shown walk.meetings_objects
      obtain ⟨held, rfl⟩ := showsFirst.single
      obtain ⟨others, showsOthers⟩ := Shown.exists_shown onward.meetings_objects
      obtain rfl := (showsFirst.append showsOthers).unique shows
      rw [redactProperties]
      refine (entry_along along key value enough walk here locks).bind ?_
      intro held' middle showsHeld advances
      cases showsFirst.unique showsHeld
      have distinctOut : (out.map Prod.fst).Nodup := distinct.sublist (List.sublist_append_left ..)
      have madeOut : Made (done ++ visits) out := by
        intro name address shown
        rw [List.map_append, List.mem_append]
        exact Or.inl (made name address shown)
      rw [Atomic.on_bind]
      rcases on_assignProperty advances.locks distinctOut madeOut key held with
        ⟨refused, ran⟩ | ⟨granted, ran⟩
      · rw [ran]
        exact Or.inl ⟨Or.inl (blocked_cons.mpr (Or.inl refused)), key, middle, rfl⟩
      · rw [ran]
        rw [← advances.seen] at onward
        have onwards := ih (out ++ [(key, held)]) (by simpa using distinct)
          (made.snoc walk showsFirst) (advances.enough walk enough) onward there advances.locks
          showsOthers
        refine onwards.congr ?_ ?_
        · rw [List.singleton_append, blocked_cons]
          exact (or_iff_right granted).symm
        · rintro result rfl
          rw [List.append_assoc]

/-- An object that is entered has been seen. -/
theorem Locks.enter (locks : Locks objects all done state) (address : α)
    : Locks objects all done { state with seen := insert address state.seen } where
  seen visit member := Finset.mem_insert_of_mem (locks.seen visit member)
  refuses := locks.refuses

/-- The copy of a visited object is made, once its slots have been redacted. -/
theorem Proceeds.create (visit : Visit α) {between : Finset α} {β : Type} {blocked : Prop}
    {good : β → Prop} {code : RedactCode α β} (build : β → HeapNode (Address α))
    (locked : (α → String → Bool) → β → String → Bool) (fresh : visit.object ∉ state.seen)
    (locks : Locks objects all done state)
    (inside
      : DepthFirst (walked objects.heap) (insert visit.object state.seen)
          (walked objects.heap visit.object) visit.met visits between)
    (proceeds
      : Proceeds objects all done visits between
          { state with seen := insert visit.object state.seen } blocked good
          (Atomic.on { state with seen := insert visit.object state.seen } code))
    (obstructs : blocked ↔ Obstructs objects all visit)
    (copied : ∀ value, good value → Copied objects.heap visit (visit.object, build value))
    (refuses
      : ∀ value middle,
          good value
          → Locks objects all (done ++ visits) middle
          → ∀ key,
              locked middle.locks value key = true
              ↔ Refuses objects all key (.ref (.copy visit.object)))
    : Proceeds objects all done (visits ++ [visit]) between state False
        (fun shown => shown = HeapValue.ref (Address.copy visit.object))
        (Atomic.on { state with seen := insert visit.object state.seen } (do
          let value ← code
          modify (fun state =>
            state.create visit.object (build value) (locked state.locks value))
          return HeapValue.ref (Address.copy visit.object))) := by
  rw [Atomic.on_bind]
  rcases proceeds with
    ⟨either, key, thrown, ran⟩ | ⟨⟨unblocked, free⟩, value, middle, ran, isGood, advances⟩
  · rw [ran]
    refine Or.inl ⟨Or.inr ?_, key, thrown, rfl⟩
    rcases either with blocks | ⟨other, member, inTheWay⟩
    · exact ⟨visit, by simp, obstructs.mp blocks⟩
    · exact ⟨other, List.mem_append_left _ member, inTheWay⟩
  · rw [ran]
    refine Or.inr ⟨⟨id, ?_⟩, _, _, rfl, rfl, ?_, ?_, ?_, ?_⟩
    · intro other member
      rcases List.mem_append.mp member with inner | same
      · exact free other inner
      · obtain rfl := List.mem_singleton.mp same
        exact fun inTheWay => unblocked (obstructs.mpr inTheWay)
    · exact advances.seen
    · obtain ⟨made, same, copies⟩ := advances.created
      refine ⟨made ++ [(visit.object, build value)], ?_,
        List.rel_append copies (.cons (copied value isGood) .nil)⟩
      simp [Redaction.create, same]
    · intro other member
      rw [← List.append_assoc] at member
      rcases List.mem_append.mp member with old | same
      · exact advances.locks.seen other old
      · obtain rfl := List.mem_singleton.mp same
        change other.object ∈ middle.seen
        rw [advances.seen]
        exact inside.seen_subset (Finset.mem_insert_self ..)
    · intro other member key
      rw [← List.append_assoc] at member
      rcases List.mem_append.mp member with old | same
      · have different : other.object ≠ visit.object := by
          intro same
          rcases List.mem_append.mp old with before | inner
          · exact fresh (same ▸ locks.seen other before)
          · apply inside.unseen other.object (List.mem_map_of_mem inner)
            rw [same]
            exact Finset.mem_insert_self ..
        simpa [Redaction.create, Function.update_of_ne different]
          using advances.locks.refuses other old key
      · obtain rfl := List.mem_singleton.mp same
        simpa [Redaction.create] using refuses value middle isGood advances.locks key

omit [DecidableEq α] in
/-- The keys that are locked in a copy are those that it refuses. -/
theorem lockedKeys_iff (distinct : (all.map Visit.object).Nodup) {visit : Visit α}
    (member : visit ∈ all) {shown : List (String × HeapValue (Address α))}
    (shows : Shown (slots (objects.heap.node visit.object)) visit.met shown)
    (locks : Locks objects all done state) (keys : (shown.map Prod.fst).Nodup)
    (made : Made done shown) (key : String)
    : lockedKeys objects state.locks shown key = true
      ↔ Refuses objects all key (.ref (.copy visit.object)) := by
  rw [refuses_copy distinct member shows, ← inheritedReadOnly_iff locks keys made]
  simp [lockedKeys]

/-- A value that needs no recursion is redacted along its walk. -/
theorem known_along {value : HeapValue α} (known : ∀ address ∈ refs [value], address ∈ state.seen)
    {key : String} (plain : key ∉ sensitiveLogKeys)
    (walk : DepthFirst (walked objects.heap) state.seen (refs [value]) meetings visits later)
    (locks : Locks objects all done state)
    : Proceeds objects all done visits later state False
        (fun shown => Shown [(key, value)] meetings [(key, shown)])
        (Atomic.on state (deepRedactWithin objects depth value)) := by
  cases value with
  | primitive value =>
      cases walk
      rw [deepRedactWithin.eq_def]
      exact .pure locks id (.primitive plain .nil)
  | ref address =>
      have seen := known address (by simp)
      cases walk with
      | first fresh _ _ => exact absurd seen fresh
      | again met rest =>
          cases rest
          rw [on_deepRedactWithin_seen seen]
          exact .pure locks id (.ref (.again address) plain .nil)

/-- Redacting a value goes through its walk, by induction on the depth. -/
theorem deepRedactWithin_along (distinct : (all.map Visit.object).Nodup) (depth : Nat)
    : Along objects all depth (deepRedactWithin objects depth) := by
  induction depth with
  | zero =>
      intro key value done state meetings visits later plain enough walk among locks
      refine known_along (fun address _ => ?_) plain walk locks
      have none := Finset.card_eq_zero.mp (Nat.le_zero.mp enough)
      rw [Finset.compl_eq_empty_iff] at none
      rw [none]
      exact Finset.mem_univ address
  | succ depth ih =>
      intro key value done state meetings visits later plain enough walk among locks
      by_cases known : ∀ address ∈ refs [value], address ∈ state.seen
      · exact known_along known plain walk locks
      · push Not at known
        obtain ⟨address, isRef, fresh⟩ := known
        obtain rfl : value = .ref address := by
          simpa [eq_comm] using isRef
        cases walk with
        | again met _ => exact absurd met fresh
        | @first _ between _ _ _ _ _ inner made _ inside rest =>
            cases rest
            have fewer : (insert address state.seen)ᶜ.card ≤ depth := by
              have one := Finset.card_erase_of_mem (Finset.mem_compl.mpr fresh)
              rw [Finset.compl_insert]
              omega
            let visit : Visit α := { object := address, met := inner }
            have member : visit ∈ all := among (by simp [visit])
            obtain ⟨shown, shows⟩ := Shown.exists_shown inside.meetings_objects
            cases node : objects.heap.node address with
            | array items =>
                rw [on_deepRedactWithin_array fresh node]
                have slots_eq : walked objects.heap address
                    = openRefs (items.map (fun item => ("", item))) := by
                  rw [walked, node, slots]
                have redacted := mapM_along ih items fewer (slots_eq ▸ inside)
                  (List.append_subset.mp among).1 (locks.enter address)
                refine (Proceeds.create visit .array (fun _ _ _ => false) fresh locks inside
                  redacted (iff_of_false id (not_obstructs_array node)) ?_ ?_).congr Iff.rfl ?_
                · intro copies shows
                  refine ⟨rfl, _, by rw [node]; exact shows, ?_⟩
                  simp [node, rebuild, visit]
                · intro copies middle _ _ name
                  refine iff_of_false Bool.false_ne_true ?_
                  rw [refuses_copy distinct member shows]
                  rintro ⟨_, parent, inherits, _⟩
                  have isArray : objects.heap.node visit.object = .array items := node
                  exact array_unnamed isArray shows parent inherits
                · rintro _ rfl
                  exact .ref (.first address) plain .nil
            | object properties prototype =>
                rw [on_deepRedactWithin_object fresh node]
                have slots_eq : walked objects.heap address = openRefs properties := by
                  rw [walked, node, slots]
                have keys := objects.heap.distinct address properties prototype node
                have redacted := redactProperties_along ih properties []
                  (by simpa using keys) (fun _ _ absurd => by cases absurd) fewer
                  (slots_eq ▸ inside) (List.append_subset.mp among).1 (locks.enter address)
                  (by rw [node] at shows; exact shows)
                refine (Proceeds.create visit assign (lockedKeys objects) fresh locks inside
                  redacted ?_ ?_ ?_).congr Iff.rfl ?_
                · constructor
                  · exact fun blocked => ⟨shown, shows, blocked⟩
                  · rintro ⟨shown', shows', blocked⟩
                    rwa [← Shown.unique shows shows']
                · intro out same
                  exact ⟨rfl, shown, shows, by simp [node, rebuild, visit, same]⟩
                · intro out middle same locks name
                  rw [same, List.nil_append]
                  apply lockedKeys_iff distinct member shows locks
                  · rw [shows.keys, node]
                    exact keys
                  · intro name address shown
                    rw [List.map_append, List.mem_append]
                    exact Or.inr (inside.first_visited (shows.first_met shown))
                · rintro _ rfl
                  exact .ref (.first address) plain .nil

end Along

/-- A redaction throws if its walk is obstructed, and otherwise rebuilds the graph of its value;
witness: the walk of the value, which exists and is the only one.
-/
theorem deepRedact_cases (objects : CallerObjects α) (value : HeapValue α)
    : (Obstructed objects value
        ∧ ∃ key state,
            deepRedact objects value = (.error (readOnlyError "#<Object>" key), state))
      ∨ (¬ Obstructed objects value
        ∧ ∃ shown state meetings visits,
            deepRedact objects value = (.ok shown, state)
            ∧ Rebuilt objects.heap value shown state meetings visits) := by
  obtain ⟨meetings, visits, later, walk⟩ :=
    DepthFirst.exists_walk (walked objects.heap) ∅ (refs [value])
  have enough : (∅ : Finset α)ᶜ.card ≤ Fintype.card α := Finset.card_le_univ _
  have locks : Locks objects visits [] noRedaction := ⟨by simp, by simp⟩
  have obstructed
      : Obstructed objects value ↔ ∃ visit ∈ visits, Obstructs objects visits visit := by
    constructor
    · rintro ⟨_, _, _, walk', found⟩
      obtain ⟨rfl, rfl, rfl⟩ := walk.unique walk'
      exact found
    · exact fun found => ⟨meetings, visits, later, walk, found⟩
  rcases deepRedactWithin_along walk.nodup (Fintype.card α) "" value [] noRedaction meetings visits
      later unnamed_plain enough walk (List.Subset.refl _) locks with
    ⟨absurd | inTheWay, thrown⟩ | ⟨⟨_, free⟩, shown, state, ran, shows, advances⟩
  · exact absurd.elim
  · exact Or.inl ⟨obstructed.mpr inTheWay, thrown⟩
  · refine Or.inr ⟨?_, shown, state, meetings, visits, ran, ?_, shows, ?_⟩
    · rw [obstructed]
      rintro ⟨visit, member, inTheWay⟩
      exact free visit member inTheWay
    · rw [advances.seen]
      exact walk
    · obtain ⟨made, same, copied⟩ := advances.created
      rw [same]
      exact copied

/-- A redaction that does not throw rebuilds the graph of its value. -/
theorem rebuilt_of_deepRedact {value : HeapValue α} {shown : HeapValue (Address α)}
    (redacted : deepRedact objects value = (.ok shown, state))
    : ∃ meetings visits, Rebuilt objects.heap value shown state meetings visits := by
  rcases deepRedact_cases objects value with
    ⟨_, key, _, thrown⟩ | ⟨_, _, _, meetings, visits, ran, rebuilt⟩
  · rw [thrown] at redacted
    cases redacted
  · rw [ran] at redacted
    cases redacted
    exact ⟨meetings, visits, rebuilt⟩

/-- A frozen login, and an object that has it twice, the second time under `__proto__`. -/
def frozenLogin : CallerObjects Bool where
  heap :=
    {
      node
        | false =>
            .object
              [("a", .ref true), ("__proto__", .ref true), ("password", .primitive .null)]
              none
        | true => .object [("password", .primitive (.text "hunter2"))] none
      distinct := by
        rintro (_ | _) properties prototype same
        · cases same
          decide
        · cases same
          decide
    }
  named := fun _ => []
  frozen := id
  refuses := fun _ _ => false

example : (deepRedact frozenLogin (.ref false)).1 = .error (readOnlyError "#<Object>" "password") :=
  rfl

end SharedKernel.Logger
