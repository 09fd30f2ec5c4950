import SharedKernel.Logger.LogMethodHook
import SharedKernel.Logger.Masking

/-! What the composed hook does to the objects of the caller and to the correlation of the
records: it writes the ids of the active context into the caller's own object.
-/

namespace SharedKernel.Logger

open Foundation Js Tracing

-----------------------------------------------------------------------------------------
-- Setting properties
-----------------------------------------------------------------------------------------

section Entries

variable {β : Type} {entries : List (String × β)} {key : String} {value : β}

/-- What is found under a key: what has been set there, or what was there. -/
theorem find?_setEntry (other : String)
    : ((setEntry key value entries).find? (fun entry => entry.1 = other)).map Prod.snd
      = if other = key then some value
        else (entries.find? (fun entry => entry.1 = other)).map Prod.snd := by
  induction entries with
  | nil =>
      by_cases same : other = key
      · simp [setEntry, same]
      · simp [setEntry, same, Ne.symm same]
  | cons entry rest ih =>
      unfold setEntry
      by_cases here : entry.1 = key
      · by_cases same : other = key
        · simp [here, same]
        · simp [here, same, Ne.symm same]
      · rw [if_neg here, List.find?_cons, List.find?_cons]
        by_cases found : entry.1 = other
        · have different : other ≠ key := fun same => here (found.trans same)
          simp [found, different]
        · simpa [found] using ih

end Entries

/-- Where keys are distinct, the value of a key is found. -/
theorem find?_map_key {β : Type} {entries : List (String × β)}
    (distinct : (entries.map Prod.fst).Nodup) {key : String} {value : β}
    : (entries.find? (fun entry => entry.1 = key)).map Prod.snd = some value
      ↔ (key, value) ∈ entries := by
  rw [← find?_key distinct, Option.map_eq_some_iff]
  constructor
  · intro found
    obtain ⟨⟨key', _⟩, found, rfl⟩ := found
    have named := List.find?_some found
    simp only [decide_eq_true_eq] at named
    rw [← named] at found ⊢
    exact found
  · intro found
    exact ⟨_, found, rfl⟩

variable {α : Type}

/-- An object has what is found among its properties. -/
theorem own?_eq_some_iff {objects : CallerObjects α} {target : α} {key : String}
    {value : HeapValue α} {entries : List (String × HeapValue α)} {prototype : Option α}
    (node : objects.heap.node target = .object entries prototype)
    : objects.own? target key = some value ↔ (key, value) ∈ entries := by
  have distinct := objects.heap.distinct target entries prototype node
  have own : objects.properties target = entries := by
    simp [CallerObjects.properties, node]
  rw [CallerObjects.own?, own]
  exact find?_map_key distinct

variable [DecidableEq α]

namespace CallerObjects

/-- Setting a property sets the entry among the object's own. -/
theorem properties_write (objects : CallerObjects α) (address : α) (key : String)
    (value : HeapValue α)
    : (objects.write address key value).properties address
      = setEntry key value (objects.properties address) := by
  cases node : objects.heap.node address with
  | object entries prototype =>
      simp [CallerObjects.properties, CallerObjects.write, setProperty, node]
  | array items => simp [CallerObjects.properties, CallerObjects.write, setProperty, node]

/-- A property that has been set is found, and the others are as before. -/
theorem own?_write (objects : CallerObjects α) (address : α) (key : String)
    (value : HeapValue α) (other : String)
    : (objects.write address key value).own? address other
      = if other = key then some value else objects.own? address other := by
  rw [own?, own?, properties_write]
  exact find?_setEntry other

end CallerObjects

variable [Fintype α] {objects : CallerObjects α} {target : α} {key : String}
  {value : HeapValue α}

/-- Setting a property throws, or sets it. -/
theorem strictSet_cases (objects : CallerObjects α) (target : α) (key : String)
    (value : HeapValue α)
    : (∃ err, Atomic.on objects (strictSet target key value) = (.error err, objects))
      ∨ Atomic.on objects (strictSet target key value)
        = (.ok (), objects.write target key value) := by
  simp only [strictSet, Atomic.on_bind, Atomic.on_get, Atomic.on_ite, Atomic.on_throw,
    Atomic.on_modify]
  split
  · split
    · exact Or.inl ⟨_, rfl⟩
    · exact Or.inr rfl
  · split
    · exact Or.inl ⟨_, rfl⟩
    · split
      · exact Or.inl ⟨_, rfl⟩
      · exact Or.inr rfl

/-- It throws on a frozen object. -/
theorem strictSet_frozen (frozen : objects.frozen target = true) (key : String)
    (value : HeapValue α)
    : ∃ err, Atomic.on objects (strictSet target key value) = (.error err, objects) := by
  simp only [strictSet, Atomic.on_bind, Atomic.on_get, Atomic.on_ite, Atomic.on_throw, frozen,
    if_true]
  split
  · exact ⟨_, rfl⟩
  · split
    · exact ⟨_, rfl⟩
    · exact ⟨_, rfl⟩

/-- An assignment of fields to a frozen object throws. -/
theorem objectAssign_frozen (frozen : objects.frozen target = true)
    {fields : List (String × String)} (some : fields ≠ [])
    : ∃ err, Atomic.on objects (objectAssign target fields) = (.error err, objects) := by
  cases fields with
  | nil => exact absurd rfl some
  | cons field rest =>
      obtain ⟨err, thrown⟩ := strictSet_frozen frozen field.1 (.primitive (.text field.2))
      exact ⟨err, by simp [objectAssign, thrown]⟩

/-- After an assignment the object has the fields, and its other properties are as before;
witness: induction on the fields.
-/
theorem objectAssign_sets {fields : List (String × String)} {after : CallerObjects α}
    (distinct : (fields.map Prod.fst).Nodup)
    (ran : Atomic.on objects (objectAssign target fields) = (.ok (), after))
    : (∀ field ∈ fields, after.own? target field.1 = some (.primitive (.text field.2)))
      ∧ ∀ other,
          other ∉ fields.map Prod.fst → after.own? target other = objects.own? target other := by
  induction fields generalizing objects with
  | nil =>
      cases ran
      exact ⟨fun _ member => (List.not_mem_nil member).elim, fun _ _ => rfl⟩
  | cons field rest ih =>
      obtain ⟨key, text⟩ := field
      rw [List.map_cons, List.nodup_cons] at distinct
      rw [objectAssign, Atomic.on_bind] at ran
      rcases strictSet_cases objects target key (.primitive (.text text)) with ⟨err, thrown⟩ | set
      · rw [thrown] at ran
        cases ran
      · rw [set] at ran
        obtain ⟨others, same⟩ := ih distinct.2 ran
        constructor
        · intro field member
          rcases List.mem_cons.mp member with rfl | later
          · rw [same key distinct.1, CallerObjects.own?_write, if_pos rfl]
          · exact others field later
        · intro other absent
          rw [List.map_cons, List.mem_cons, not_or] at absent
          rw [same other absent.2, CallerObjects.own?_write, if_neg absent.1]

/-- A property of the object that the logging method is called with. -/
def MethodCall.field? (call : MethodCall α) (heap : Heap α) (key : String)
    : Option (HeapValue (Address α)) :=
  match call.first with
  | some (.fields entries) =>
      (entries.find? (fun entry => entry.1 = key)).map (fun entry => .primitive (.text entry.2))
  | some (.value (.ref address)) =>
      match redactedNode? heap call.redaction address with
      | some (.object properties _) =>
          (properties.find? (fun entry => entry.1 = key)).map Prod.snd
      | _ => none
  | _ => none

/-- The redaction of an object throws if it is obstructed, and otherwise calls the method with a
copy of the object.
-/
theorem on_redactLogMethodHook_ref (objects : CallerObjects α) (address : α)
    (rest : List (LogArgument α))
    : (Obstructed objects (.ref address)
        ∧ ∃ err,
            Atomic.on objects (redactLogMethodHook (.value (.ref address) :: rest))
            = (.error err, objects))
      ∨ (¬ Obstructed objects (.ref address)
        ∧ ∃ call shown meetings,
            Atomic.on objects (redactLogMethodHook (.value (.ref address) :: rest))
              = (.ok call, objects)
            ∧ call.first = some (.value (.ref (.copy address)))
            ∧ redactedNode? objects.heap call.redaction (.copy address)
              = some (rebuild (objects.heap.node address) shown)
            ∧ Shown (slots (objects.heap.node address)) meetings shown) := by
  rcases deepRedact_cases objects (.ref address) with
    ⟨obstructed, key, state, thrown⟩ | ⟨free, shown, state, meetings, visits, ran, rebuilt⟩
  · exact Or.inl ⟨obstructed, readOnlyError "#<Object>" key, by simp [redactLogMethodHook, thrown]⟩
  · refine Or.inr ⟨free, ?_⟩
    have root := rebuilt.root
    have copied := @Rebuilt.copy _ _ _ _ _ _ _ _ rebuilt
    cases rebuilt.walk with
    | again met rest => cases met
    | first fresh inside rest' =>
        cases rest'
        obtain ⟨node, found, _, inner, shows, rebuilds⟩ :=
          copied (List.mem_append_right _ (List.mem_singleton_self _))
        have isCopy : shown = .ref (.copy address) := by
          cases shown with
          | primitive value => cases root
          | ref made =>
              cases root
              rfl
        refine ⟨{ first := some (.value shown), redaction := state, others := rest }, inner, _, ?_,
          by rw [isCopy], ?_, shows⟩
        · simp [redactLogMethodHook, ran]
        · exact found.trans (congrArg some rebuilds)

/-- A log call, with the trace context that is active when it is made. -/
structure LogCall (α : Type) where
  ctx : Option TraceContext
  inputArgs : List (HeapValue α)

def traceKeys : List String :=
  ["trace_id", "span_id", "parent_span_id"]

/-- The trace keys are ordinary: they are not sensitive and name no prototype. -/
theorem traceKeys_plain : ∀ key ∈ traceKeys, key ∉ sensitiveLogKeys ∧ key ≠ "__proto__" := by
  decide

/-- The fields of a context are under the trace keys, each once. -/
theorem traceLogFields_keys (ctx : Option TraceContext)
    : ((traceLogFields ctx).map Prod.fst).Nodup
      ∧ ∀ field ∈ traceLogFields ctx, field.1 ∈ traceKeys := by
  unfold traceLogFields
  cases ctx with
  | none => simp
  | some ctx =>
      dsimp only
      split <;> simp [traceKeys]

end SharedKernel.Logger
