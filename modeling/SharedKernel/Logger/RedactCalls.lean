import SharedKernel.Foundation.CallLog
import SharedKernel.Logger.Obstruction

/-! What the redaction of a value costs: every call is logged, and there are at most as many as
the graph has fields, whatever is shared in it and whatever cycles it has.
-/

namespace SharedKernel.Logger

open Foundation Js

-----------------------------------------------------------------------------------------
-- The redaction with a log of its calls
-----------------------------------------------------------------------------------------

/-- The state of a redaction, with the calls made so far. -/
structure LoggedRedaction (α : Type) extends Redaction α where
  calls : List (Call α (HeapValue α))

/-- The state once a call is entered. -/
def LoggedRedaction.enter {α : Type} (state : LoggedRedaction α) (value : HeapValue α)
    : LoggedRedaction α :=
  { state with calls := state.calls ++ [{ value, seen := state.seen }] }

/-- The state once the call on an object has gone on to it. -/
def LoggedRedaction.descend {α : Type} [DecidableEq α] (state : LoggedRedaction α) (address : α)
    : LoggedRedaction α :=
  { state.enter (.ref address) with seen := insert address state.seen }

abbrev LoggedCode (α β : Type) := Atomic (LoggedRedaction α) Thrown β

variable {α : Type} [Fintype α] (objects : CallerObjects α)

/-- `out[key] = value`, as without the log. -/
def loggedAssign (out : List (String × HeapValue (Address α))) (key : String)
    (value : HeapValue (Address α))
    : LoggedCode α (List (String × HeapValue (Address α))) := do
  let state ← get
  if inheritedReadOnly objects state.locks out key then throw (readOnlyError "#<Object>" key)
  else return out ++ [(key, value)]

/-- The loop over the entries, as without the log. -/
def loggedProperties (redact : HeapValue α → LoggedCode α (HeapValue (Address α)))
    : List (String × HeapValue α)
      → List (String × HeapValue (Address α))
      → LoggedCode α (List (String × HeapValue (Address α)))
  | [], out => return out
  | (key, val) :: rest, out => do
      let shown ←
        (if key ∈ sensitiveLogKeys then pure (.primitive (.text logRedactCensor)) else redact val)
      let out ← loggedAssign objects out key shown
      loggedProperties redact rest out

variable [DecidableEq α]

/-- Redact a value as without the log, entering every call in it. -/
def loggedRedactWithin : Nat → HeapValue α → LoggedCode α (HeapValue (Address α))
  | _, .primitive value => do
      modify (fun state => state.enter (.primitive value))
      return .primitive value
  | depth, .ref address => do
      modify (fun state => state.enter (.ref address))
      let state ← get
      if address ∈ state.seen then return .ref (.caller address)
      else
        match depth with
        | 0 => throw (.error .rangeError "Maximum call stack size exceeded")
        | depth + 1 => do
            modify (fun state => { state with seen := insert address state.seen })
            match objects.heap.node address with
            | .array items => do
                let items ← items.mapM (loggedRedactWithin depth)
                modify (fun state =>
                  {
                    state with
                    toRedaction := state.create address (.array items) (fun _ => false)
                  })
                return .ref (.copy address)
            | .object properties _ => do
                let out ← loggedProperties objects (loggedRedactWithin depth) properties []
                modify (fun state =>
                  {
                    state with
                    toRedaction :=
                      state.create address (assign out) (lockedKeys objects state.locks out)
                  })
                return .ref (.copy address)

/-- Redact a value with a log of the calls. -/
def loggedRedact (value : HeapValue α)
    : Except Thrown (HeapValue (Address α)) × LoggedRedaction α :=
  Atomic.on { noRedaction with calls := [] } (loggedRedactWithin objects (Fintype.card α) value)

section Steps

variable {objects} {state : LoggedRedaction α} {depth : Nat} {address : α}

/-- The call on an object that has been seen goes no deeper. -/
theorem on_loggedRedactWithin_seen (seen : address ∈ state.seen)
    : Atomic.on state (loggedRedactWithin objects depth (.ref address))
      = (.ok (.ref (.caller address)), state.enter (.ref address)) := by
  rw [loggedRedactWithin.eq_def]
  simp [seen, LoggedRedaction.enter]

/-- The call on an array that has not been seen goes on to its items. -/
theorem on_loggedRedactWithin_array (fresh : address ∉ state.seen) {items : List (HeapValue α)}
    (node : objects.heap.node address = .array items)
    : Atomic.on state (loggedRedactWithin objects (depth + 1) (.ref address))
      = Atomic.on (state.descend address) (do
          let items ← items.mapM (loggedRedactWithin objects depth)
          modify (fun state =>
            { state with toRedaction := state.create address (.array items) (fun _ => false) })
          return HeapValue.ref (Address.copy address)) := by
  simp [loggedRedactWithin, fresh, node, LoggedRedaction.enter, LoggedRedaction.descend]

/-- The call on an object that has not been seen goes on to its properties. -/
theorem on_loggedRedactWithin_object (fresh : address ∉ state.seen)
    {properties : List (String × HeapValue α)} {prototype : Option α}
    (node : objects.heap.node address = .object properties prototype)
    : Atomic.on state (loggedRedactWithin objects (depth + 1) (.ref address))
      = Atomic.on (state.descend address) (do
          let out ← loggedProperties objects (loggedRedactWithin objects depth) properties []
          modify (fun state =>
            {
              state with
              toRedaction :=
                state.create address (assign out) (lockedKeys objects state.locks out)
            })
          return HeapValue.ref (Address.copy address)) := by
  simp [loggedRedactWithin, fresh, node, LoggedRedaction.enter, LoggedRedaction.descend]

end Steps

section Forget

variable {objects} {β γ : Type}

omit [Fintype α] [DecidableEq α] in
/-- Code does the same as other code, but for the log. -/
def Forgets (logged : LoggedCode α β) (code : RedactCode α β) : Prop :=
  ∀ state : LoggedRedaction α,
    Atomic.on state.toRedaction code
    = ((Atomic.on state logged).1, (Atomic.on state logged).2.toRedaction)

omit [Fintype α] [DecidableEq α] in
theorem Forgets.bind {logged : LoggedCode α β} {code : RedactCode α β}
    {next : β → LoggedCode α γ} {after : β → RedactCode α γ} (first : Forgets logged code)
    (second : ∀ value, Forgets (next value) (after value))
    : Forgets (logged >>= next) (code >>= after) := by
  intro state
  rw [Atomic.on_bind, Atomic.on_bind, first state]
  cases Atomic.on state logged with
  | mk outcome changed =>
      cases outcome with
      | ok value => exact second value changed
      | error err => rfl

omit [DecidableEq α] in
/-- A property is assigned as without the log. -/
theorem loggedAssign_forget (out : List (String × HeapValue (Address α))) (key : String)
    (value : HeapValue (Address α))
    : Forgets (loggedAssign objects out key value) (assignProperty objects out key value) := by
  intro state
  simp only [loggedAssign, assignProperty, Atomic.on_bind, Atomic.on_get, Atomic.on_ite]
  split <;> rfl

omit [DecidableEq α] in
/-- The loop is the same as without the log if the redaction of a value is, by induction on the
entries.
-/
theorem loggedProperties_forget {logged : HeapValue α → LoggedCode α (HeapValue (Address α))}
    {redact : HeapValue α → RedactCode α (HeapValue (Address α))}
    (same : ∀ value, Forgets (logged value) (redact value))
    (properties : List (String × HeapValue α)) (out : List (String × HeapValue (Address α)))
    : Forgets (loggedProperties objects logged properties out)
        (redactProperties objects redact properties out) := by
  induction properties generalizing out with
  | nil => exact fun _ => rfl
  | cons entry rest ih =>
      obtain ⟨key, val⟩ := entry
      refine Forgets.bind ?_ (fun shown => (loggedAssign_forget out key shown).bind ih)
      by_cases sensitive : key ∈ sensitiveLogKeys
      · rw [if_pos sensitive, if_pos sensitive]
        exact fun _ => rfl
      · rw [if_neg sensitive, if_neg sensitive]
        exact same val

omit [Fintype α] [DecidableEq α] in
/-- So is the loop over the items, by induction on them. -/
theorem mapM_forget {logged : HeapValue α → LoggedCode α (HeapValue (Address α))}
    {redact : HeapValue α → RedactCode α (HeapValue (Address α))}
    (same : ∀ value, Forgets (logged value) (redact value)) (items : List (HeapValue α))
    : Forgets (items.mapM logged) (items.mapM redact) := by
  induction items with
  | nil => exact fun _ => rfl
  | cons item rest ih =>
      rw [List.mapM_cons, List.mapM_cons]
      exact (same item).bind (fun shown => ih.bind (fun others _ => rfl))

/-- The log changes nothing about a redaction, by induction on the depth. -/
theorem loggedRedactWithin_forget (depth : Nat) (value : HeapValue α)
    : Forgets (loggedRedactWithin objects depth value) (deepRedactWithin objects depth value) := by
  induction depth generalizing value with
  | zero =>
      intro state
      cases value with
      | primitive value => rfl
      | ref address =>
          by_cases seen : address ∈ state.seen
          · rw [on_loggedRedactWithin_seen seen, on_deepRedactWithin_seen seen]
            rfl
          · simp [loggedRedactWithin, deepRedactWithin, LoggedRedaction.enter, seen]
  | succ depth ih =>
      intro state
      cases value with
      | primitive value => rfl
      | ref address =>
          by_cases seen : address ∈ state.seen
          · rw [on_loggedRedactWithin_seen seen, on_deepRedactWithin_seen seen]
            rfl
          · cases node : objects.heap.node address with
            | array items =>
                rw [on_loggedRedactWithin_array seen node, on_deepRedactWithin_array seen node]
                exact Forgets.bind (mapM_forget ih items) (fun shown => by exact fun _ => rfl)
                  (state.descend address)
            | object properties prototype =>
                rw [on_loggedRedactWithin_object seen node, on_deepRedactWithin_object seen node]
                exact Forgets.bind (loggedProperties_forget ih properties [])
                  (fun out => by exact fun _ => rfl) (state.descend address)

end Forget

-----------------------------------------------------------------------------------------
-- The log
-----------------------------------------------------------------------------------------

omit [Fintype α] [DecidableEq α] in
/-- The fields of an object or an array. -/
def fields (heap : Heap α) (address : α) : List (HeapValue α) :=
  (slots (heap.node address)).map Prod.snd

/-- The values that the redaction of an object goes on to. -/
def openFields (heap : Heap α) (address : α) : List (HeapValue α) :=
  ((slots (heap.node address)).filter (fun entry => entry.1 ∉ sensitiveLogKeys)).map Prod.snd

/-- The value of a property, unless its key is sensitive. -/
def openValue (entry : String × HeapValue α) : List (HeapValue α) :=
  if entry.1 ∈ sensitiveLogKeys then [] else [entry.2]

omit [Fintype α] [DecidableEq α] in
/-- The open fields of an array are its items. -/
theorem openFields_array {heap : Heap α} {address : α} {items : List (HeapValue α)}
    (node : heap.node address = .array items)
    : openFields heap address = items := by
  simp [openFields, node, slots, List.filter_map, Function.comp_def, unnamed_plain]

omit [Fintype α] [DecidableEq α] in
/-- The open fields of an object are the values of its properties but the sensitive ones. -/
theorem openFields_object {heap : Heap α} {address : α}
    {properties : List (String × HeapValue α)} {prototype : Option α}
    (node : heap.node address = .object properties prototype)
    : openFields heap address = properties.flatMap openValue := by
  rw [openFields, node, slots]
  clear node
  induction properties with
  | nil => rfl
  | cons entry rest ih =>
      rw [List.flatMap_cons, ← ih, openValue]
      by_cases sensitive : entry.1 ∈ sensitiveLogKeys
      · rw [if_pos sensitive, List.filter_cons_of_neg (by simpa using sensitive)]
        rfl
      · rw [if_neg sensitive, List.filter_cons_of_pos (by simpa using sensitive)]
        rfl

/-- The values are redacted with calls that are a log of the recursion, or begin one where the
redaction throws.
-/
def Logs {β : Type} (heap : Heap α) (values : List (HeapValue α)) (before : LoggedRedaction α)
    (result : Except Thrown β × LoggedRedaction α)
    : Prop :=
  ∃ calls missing later,
    result.2.calls = before.calls ++ calls
    ∧ CallLog HeapValue.ref? (openFields heap) before.seen values (calls ++ missing) later
    ∧ ∀ value, result.1 = .ok value → missing = [] ∧ result.2.seen = later

section Logs

variable {objects} {heap : Heap α} {values more : List (HeapValue α)}
  {before after : LoggedRedaction α} {β γ : Type}

omit [Fintype α] in
/-- Nothing is called. -/
theorem Logs.none (heap : Heap α) {result : Except Thrown β × LoggedRedaction α}
    (calls : result.2.calls = before.calls) (seen : result.2.seen = before.seen)
    : Logs heap [] before result :=
  ⟨[], [], before.seen, by simpa using calls, .nil before.seen, fun _ _ => ⟨rfl, seen⟩⟩

/-- Logs follow one another. -/
theorem Logs.bind {code : LoggedCode α β} {next : β → LoggedCode α γ}
    (first : Logs heap values before (Atomic.on before code))
    (second : ∀ value middle, Logs heap more middle (Atomic.on middle (next value)))
    : Logs heap (values ++ more) before (Atomic.on before (code >>= next)) := by
  obtain ⟨calls, missing, later, entered, log, complete⟩ := first
  rw [Atomic.on_bind]
  cases ran : Atomic.on before code with
  | mk outcome middle =>
      rw [ran] at entered complete
      cases outcome with
      | error err =>
          obtain ⟨further, last, onward⟩ :=
            CallLog.exists_log HeapValue.ref? (openFields heap) later more
          refine ⟨calls, missing ++ further, last, entered, ?_, fun value absurd => by cases absurd⟩
          rw [← List.append_assoc]
          exact log.append onward
      | ok value =>
          obtain ⟨rfl, rfl⟩ := complete value rfl
          obtain ⟨further, missing, last, entered', onward, complete'⟩ := second value middle
          refine ⟨calls ++ further, missing, last, ?_, ?_, complete'⟩
          · have entered : middle.calls = before.calls ++ calls := entered
            rw [entered', entered, List.append_assoc]
          · rw [List.append_nil] at log
            rw [List.append_assoc]
            exact log.append onward

/-- What is done at the end calls nothing. -/
theorem Logs.bind_none {code : LoggedCode α β} {next : β → LoggedCode α γ}
    (first : Logs heap values before (Atomic.on before code))
    (second : ∀ value middle, Logs heap [] middle (Atomic.on middle (next value)))
    : Logs heap values before (Atomic.on before (code >>= next)) := by
  have both := first.bind second
  rwa [List.append_nil] at both

omit [Fintype α] in
/-- A value that needs no recursion is one call. -/
theorem Logs.leaf {value : HeapValue α}
    (known : ∀ address, value = .ref address → address ∈ before.seen)
    {result : Except Thrown β × LoggedRedaction α} (entered : result.2 = before.enter value)
    : Logs heap [value] before result := by
  refine ⟨[{ value, seen := before.seen }], [], before.seen, by rw [entered]; rfl,
    .leaf ?_ (.nil before.seen), fun _ _ => ⟨rfl, by rw [entered]; rfl⟩⟩
  intro address found
  exact known address (HeapValue.ref?_eq_some.mp found)

omit [Fintype α] in
/-- An object that has not been seen is one call, and those for its fields. -/
theorem Logs.descent {address : α} (fresh : address ∉ before.seen)
    {result : Except Thrown β × LoggedRedaction α}
    (inside : Logs heap (openFields heap address) (before.descend address) result)
    : Logs heap [.ref address] before result := by
  obtain ⟨calls, missing, later, entered, log, complete⟩ := inside
  refine ⟨{ value := .ref address, seen := before.seen } :: calls, missing, later, ?_, ?_, complete⟩
  · simp [entered, LoggedRedaction.enter, LoggedRedaction.descend]
  · have whole : CallLog HeapValue.ref? (openFields heap) before.seen [.ref address]
        ({ value := .ref address, seen := before.seen } :: ((calls ++ missing) ++ [])) later :=
      .descent rfl fresh log (.nil later)
    simpa using whole

/-- The items of an array are redacted with a log, by induction on them. -/
theorem mapM_logs {redact : HeapValue α → LoggedCode α (HeapValue (Address α))}
    (each : ∀ value state, Logs heap [value] state (Atomic.on state (redact value)))
    (items : List (HeapValue α)) (state : LoggedRedaction α)
    : Logs heap items state (Atomic.on state (items.mapM redact)) := by
  induction items generalizing state with
  | nil => exact .none heap rfl rfl
  | cons item rest ih =>
      rw [List.mapM_cons]
      exact (each item state).bind (fun shown middle =>
        (ih middle).bind_none (fun others last => .none heap rfl rfl))

/-- The properties of an object are redacted with a log, by induction on them. -/
theorem loggedProperties_logs {redact : HeapValue α → LoggedCode α (HeapValue (Address α))}
    (each : ∀ value state, Logs heap [value] state (Atomic.on state (redact value)))
    (properties : List (String × HeapValue α)) (out : List (String × HeapValue (Address α)))
    (state : LoggedRedaction α)
    : Logs heap (properties.flatMap openValue) state
        (Atomic.on state (loggedProperties objects redact properties out)) := by
  induction properties generalizing out state with
  | nil => exact .none heap rfl rfl
  | cons entry rest ih =>
      obtain ⟨key, val⟩ := entry
      rw [List.flatMap_cons, loggedProperties]
      refine Logs.bind ?_ (fun shown middle => ?_)
      · unfold openValue
        by_cases sensitive : key ∈ sensitiveLogKeys
        · rw [if_pos sensitive, if_pos sensitive]
          exact .none heap rfl rfl
        · rw [if_neg sensitive, if_neg sensitive]
          exact each val state
      · have step
            : Logs heap [] middle (Atomic.on middle (loggedAssign objects out key shown)) := by
          simp only [loggedAssign, Atomic.on_bind, Atomic.on_get, Atomic.on_ite, Atomic.on_throw,
            Atomic.on_pure]
          split <;> exact .none heap rfl rfl
        exact step.bind (fun out last => ih out last)

/-- Redacting a value has a log, by induction on the depth. -/
theorem loggedRedactWithin_logs (depth : Nat) (value : HeapValue α) (state : LoggedRedaction α)
    : Logs objects.heap [value] state
        (Atomic.on state (loggedRedactWithin objects depth value)) := by
  induction depth generalizing value state with
  | zero =>
      cases value with
      | primitive value =>
          rw [loggedRedactWithin.eq_def]
          exact .leaf (by simp) rfl
      | ref address =>
          by_cases seen : address ∈ state.seen
          · rw [on_loggedRedactWithin_seen seen]
            exact .leaf (by simpa using seen) rfl
          · obtain ⟨missing, later, log⟩ :=
              CallLog.exists_log HeapValue.ref? (openFields objects.heap)
                (insert address state.seen) (openFields objects.heap address)
            apply Logs.descent seen
            refine ⟨[], missing, later, ?_, log, ?_⟩
            · simp [loggedRedactWithin, LoggedRedaction.enter, LoggedRedaction.descend, seen]
            · simp [loggedRedactWithin, LoggedRedaction.enter, seen]
  | succ depth ih =>
      cases value with
      | primitive value =>
          rw [loggedRedactWithin.eq_def]
          exact .leaf (by simp) rfl
      | ref address =>
          by_cases seen : address ∈ state.seen
          · rw [on_loggedRedactWithin_seen seen]
            exact .leaf (by simpa using seen) rfl
          · apply Logs.descent seen
            cases node : objects.heap.node address with
            | array items =>
                rw [on_loggedRedactWithin_array seen node, openFields_array node]
                exact (mapM_logs ih items _).bind_none (fun _ _ => .none _ rfl rfl)
            | object properties prototype =>
                rw [on_loggedRedactWithin_object seen node, openFields_object node]
                exact (loggedProperties_logs ih properties [] _).bind_none (fun _ _ =>
                  .none _ rfl rfl)

end Logs

-----------------------------------------------------------------------------------------
-- The cost
-----------------------------------------------------------------------------------------

/-- The number of fields of the graph of a value: of all objects and arrays in it. -/
noncomputable def fieldCount (heap : Heap α) (value : HeapValue α) : Nat :=
  reachableTotal (fun address => refs (fields heap address)) (refs [value])
    (fun address => (fields heap address).length)

/-- The number of references between the objects of the graph of a value. -/
noncomputable def referenceCount (heap : Heap α) (value : HeapValue α) : Nat :=
  reachableTotal (fun address => refs (fields heap address)) (refs [value])
    (fun address => (refs (fields heap address)).length)

/-- The calls of a redaction are few. -/
structure RedactionCost (heap : Heap α) (value : HeapValue α)
    (calls : List (Call α (HeapValue α)))
    : Prop where
  /-- The fields of no object are visited twice. -/
  once : (descended HeapValue.ref? calls).Nodup
  /-- The set of seen objects never shrinks from call to call. -/
  grows : calls.Pairwise (fun earlier later => earlier.seen ⊆ later.seen)
  /-- It has grown once a call has descended. -/
  strictly
    : calls.Pairwise (fun earlier later =>
        earlier.descends? HeapValue.ref? ≠ none → earlier.seen ⊂ later.seen)
  bounded : calls.length ≤ 1 + fieldCount heap value
  objects
    : calls.countP (fun call => call.value.ref?.isSome) ≤ 1 + referenceCount heap value

omit [Fintype α] [DecidableEq α] in
/-- The open fields of an object are among its fields. -/
theorem openFields_sublist (heap : Heap α) (address : α)
    : (openFields heap address).Sublist (fields heap address) :=
  List.filter_sublist.map _

section Cost

variable {heap : Heap α} {value : HeapValue α}
  {calls : List (Call α (HeapValue α))} {later : Finset α}

omit [Fintype α] in
/-- What a redaction descends into is in the graph of the value. -/
theorem descended_reachable
    (log : CallLog HeapValue.ref? (openFields heap) ∅ [value] calls later)
    : ∀ address ∈ descended HeapValue.ref? calls,
        Reachable (fun address => refs (fields heap address)) (refs [value]) address := by
  intro address member
  apply (log.reachable address member).mono
  intro address
  exact ((openFields_sublist heap address).filterMap _).subset

/-- The calls on some of the values are at most one and the fields of that kind in the graph;
witness: each object is descended into once.
-/
theorem countP_calls_le (log : CallLog HeapValue.ref? (openFields heap) ∅ [value] calls later)
    (p : HeapValue α → Bool)
    : calls.countP (fun call => p call.value)
      ≤ 1 + reachableTotal (fun address => refs (fields heap address)) (refs [value])
          (fun address => (fields heap address).countP p) := by
  have total := sum_le_reachableTotal log.nodup (descended_reachable log)
    (fun address => (fields heap address).countP p)
  have fewer
      : ((descended HeapValue.ref? calls).map
          (fun address => (openFields heap address).countP p)).sum
        ≤ ((descended HeapValue.ref? calls).map
            (fun address => (fields heap address).countP p)).sum :=
    List.sum_le_sum (fun address _ => (openFields_sublist heap address).countP_le)
  have one : [value].countP p ≤ 1 := List.countP_le_length
  rw [log.countP_calls]
  omega

/-- The calls of a redaction are few: a log of the recursion from nothing seen. -/
theorem redactionCost_of_log
    (log : CallLog HeapValue.ref? (openFields heap) ∅ [value] calls later)
    : RedactionCost heap value calls where
  once := log.nodup
  grows := log.grows.imp (fun before => before.1)
  strictly := by
    apply log.grows.imp
    intro earlier later before descends
    obtain ⟨object, descends⟩ := Option.ne_none_iff_exists'.mp descends
    have fresh := (Call.descends?_eq_some.mp descends).2
    exact (Finset.ssubset_iff_of_subset before.1).mpr ⟨object, before.2 object descends, fresh⟩
  bounded := by
    have most := countP_calls_le log (fun _ => true)
    simpa [fieldCount] using most
  objects := by
    have most := countP_calls_le log (fun value => value.ref?.isSome)
    simpa [referenceCount, refs, List.length_filterMap_eq_countP] using most

end Cost

/-- The first calls of few are few. -/
theorem RedactionCost.of_append {heap : Heap α} {value : HeapValue α}
    {calls missing : List (Call α (HeapValue α))}
    (cost : RedactionCost heap value (calls ++ missing))
    : RedactionCost heap value calls where
  once := by
    have once := cost.once
    rw [descended_append] at once
    exact once.sublist (List.sublist_append_left ..)
  grows := (List.pairwise_append.mp cost.grows).1
  strictly := (List.pairwise_append.mp cost.strictly).1
  bounded := (List.sublist_append_left ..).length_le.trans cost.bounded
  objects := ((List.sublist_append_left ..).countP_le).trans cost.objects

/-- The redaction of any value in any finite graph ends, also where it throws because something is
in its way, and its calls are few; witness: with the log it is the same redaction, and the log is
one of the recursion, or begins one.
-/
theorem deepRedact_cost (objects : CallerObjects α) (value : HeapValue α)
    : ∃ outcome state,
        loggedRedact objects value = (outcome, state)
        ∧ deepRedact objects value = (outcome, state.toRedaction)
        ∧ RedactionCost objects.heap value state.calls
        ∧ ((Obstructed objects value
            ∧ ¬ objects.Yielding
            ∧ ∃ key, outcome = .error (readOnlyError "#<Object>" key))
          ∨ (¬ Obstructed objects value ∧ ∃ shown, outcome = .ok shown)) := by
  let start : LoggedRedaction α := { noRedaction with calls := [] }
  have same : deepRedact objects value = ((loggedRedact objects value).1, _) :=
    loggedRedactWithin_forget (Fintype.card α) value start
  have logs : Logs objects.heap [value] start (loggedRedact objects value) :=
    loggedRedactWithin_logs (Fintype.card α) value start
  obtain ⟨calls, missing, later, entered, log, _⟩ := logs
  refine ⟨(loggedRedact objects value).1, (loggedRedact objects value).2, rfl, same, ?_, ?_⟩
  · have all : (loggedRedact objects value).2.calls = calls := entered
    rw [all]
    exact (redactionCost_of_log log).of_append
  · rcases deepRedact_cases objects value with
      ⟨obstructed, key, state, thrown⟩ | ⟨free, shown, state, _, _, redacted, _⟩
    · refine Or.inl ⟨obstructed, fun yielding => not_obstructed_yielding yielding value obstructed,
        key, ?_⟩
      exact congrArg Prod.fst (same.symm.trans thrown)
    · exact Or.inr ⟨free, shown, congrArg Prod.fst (same.symm.trans redacted)⟩

end SharedKernel.Logger
