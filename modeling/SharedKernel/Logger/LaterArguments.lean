import SharedKernel.Logger.TraceFields

/-! Which arguments of a log call reach the logging method masked: the first one is redacted,
the later ones are handed on as they are.
-/

namespace SharedKernel.Logger

open Foundation Js Tracing

-----------------------------------------------------------------------------------------
-- Nodes that lead to the same objects and hold the same secrets
-----------------------------------------------------------------------------------------

section Alike

variable {β : Type}

/-- The node is an object with this property. -/
def HasEntry (node : HeapNode β) (key : String) (held : HeapValue β) : Prop :=
  ∃ properties prototype, node = .object properties prototype ∧ (key, held) ∈ properties

/-- Two nodes refer to the same objects and have the same sensitive properties. -/
structure Alike (node other : HeapNode β) : Prop where
  targets : ∀ target, target ∈ node.targets ↔ target ∈ other.targets
  secrets : ∀ key held, key ∈ sensitiveLogKeys → (HasEntry node key held ↔ HasEntry other key held)

theorem Alike.refl (node : HeapNode β) : Alike node node :=
  ⟨fun _ => Iff.rfl, fun _ _ _ => Iff.rfl⟩

theorem Alike.symm {node other : HeapNode β} (alike : Alike node other) : Alike other node :=
  ⟨
    fun target => (alike.targets target).symm,
    fun key held sensitive => (alike.secrets key held sensitive).symm
  ⟩

/-- A value is masked if every reachable object is an object without a bare secret. -/
theorem masked_iff_entries {heap : β → HeapNode β} {value : HeapValue β}
    : Masked (fun address => some (heap address)) value
      ↔ ∀ address key held,
          Reaches (fun address => some (heap address)) value address
          → HasEntry (heap address) key held
          → key ∈ sensitiveLogKeys
          → held = .primitive (.text logRedactCensor) := by
  constructor
  · intro masked address key held reaches entry sensitive
    obtain ⟨properties, prototype, node, member⟩ := entry
    exact masked address properties prototype key held reaches (congrArg some node) member sensitive
  · intro masked address properties prototype key held reaches node member sensitive
    exact masked address key held reaches ⟨properties, prototype, Option.some.inj node, member⟩
      sensitive

variable {heap other : β → HeapNode β}

/-- What is reachable among nodes is reachable among nodes that are alike, by induction on the
path.
-/
theorem reaches_of_alike (alike : ∀ address, Alike (heap address) (other address))
    {value : HeapValue β} {address : β}
    (reaches : Reaches (fun address => some (heap address)) value address)
    : Reaches (fun address => some (other address)) value address := by
  obtain ⟨start, same, path⟩ := reaches
  refine ⟨start, same, Relation.ReflTransGen.mono ?_ _ _ path⟩
  intro source target leads
  obtain ⟨node, found, isTarget⟩ := leads
  cases found
  exact ⟨_, rfl, ((alike source).targets target).mp isTarget⟩

/-- A value that is masked among nodes is masked among nodes that are alike. -/
theorem masked_of_alike (alike : ∀ address, Alike (heap address) (other address))
    {value : HeapValue β} (masked : Masked (fun address => some (heap address)) value)
    : Masked (fun address => some (other address)) value := by
  rw [masked_iff_entries] at masked ⊢
  intro address key held reaches entry sensitive
  have before := reaches_of_alike (fun address => (alike address).symm) reaches
  exact masked address key held before (((alike address).secrets key held sensitive).mpr entry)
    sensitive

theorem masked_congr (alike : ∀ address, Alike (heap address) (other address))
    (value : HeapValue β)
    : Masked (fun address => some (heap address)) value
      ↔ Masked (fun address => some (other address)) value :=
  ⟨masked_of_alike alike, masked_of_alike (fun address => (alike address).symm)⟩

end Alike

-----------------------------------------------------------------------------------------
-- Nodes without the properties that a call overwrites
-----------------------------------------------------------------------------------------

section Kept

variable {β : Type}

/-- The node without the properties under some keys. -/
def keptNode (keys : List String) : HeapNode β → HeapNode β
  | .object properties prototype =>
      .object (properties.filter (fun entry => entry.1 ∉ keys)) prototype
  | .array items => .array items

/-- What the node has under the keys refers to nothing. -/
def Inert (keys : List String) (node : HeapNode β) : Prop :=
  ∀ key held, key ∈ keys → HasEntry node key held → held.ref? = none

variable {keys : List String} {node : HeapNode β}

/-- A node whose properties under ordinary keys refer to nothing can do without them. -/
theorem alike_keptNode (plain : ∀ key ∈ keys, key ∉ sensitiveLogKeys) (inert : Inert keys node)
    : Alike node (keptNode keys node) := by
  cases node with
  | array items => exact .refl _
  | object properties prototype =>
      constructor
      · intro target
        simp only [keptNode, HeapNode.targets, List.mem_append, mem_refs, List.mem_map,
          List.mem_filter, Prod.exists, exists_eq_right, decide_eq_true_eq]
        refine or_congr ?_ Iff.rfl
        constructor
        · rintro ⟨key, member⟩
          refine ⟨key, member, fun overwritten => ?_⟩
          cases inert key (.ref target) overwritten ⟨properties, prototype, rfl, member⟩
        · rintro ⟨key, member, _⟩
          exact ⟨key, member⟩
      · intro key held sensitive
        constructor
        · rintro ⟨_, _, same, member⟩
          cases same
          refine ⟨_, _, rfl, List.mem_filter.mpr ⟨member, ?_⟩⟩
          simpa using fun overwritten => plain key overwritten sensitive
        · rintro ⟨_, _, same, member⟩
          cases same
          exact ⟨_, _, rfl, (List.mem_filter.mp member).1⟩

/-- The walk goes on from such a node as it would without them. -/
theorem openRefs_keptNode (inert : Inert keys node)
    : openRefs (slots (keptNode keys node)) = openRefs (slots node) := by
  cases node with
  | array items => rfl
  | object properties prototype =>
      have silent : ∀ entry ∈ properties, entry.1 ∈ keys → entry.2.ref? = none :=
        fun entry member overwritten =>
          inert entry.1 entry.2 overwritten ⟨properties, prototype, rfl, member⟩
      clear inert
      simp only [keptNode, slots]
      induction properties with
      | nil => rfl
      | cons entry rest ih =>
          obtain ⟨key, held⟩ := entry
          have others := ih (fun entry member => silent entry (List.mem_cons_of_mem _ member))
          by_cases overwritten : key ∈ keys
          · have nothing : held.ref? = none := silent _ (List.mem_cons_self ..) overwritten
            rw [List.filter_cons_of_neg (by simpa using overwritten), others]
            by_cases sensitive : key ∈ sensitiveLogKeys
            · rw [openRefs_secret _ _ sensitive]
            · rw [openRefs_plain _ _ sensitive]
              simp [refs, nothing]
          · rw [List.filter_cons_of_pos (by simpa using overwritten)]
            by_cases sensitive : key ∈ sensitiveLogKeys
            · rw [openRefs_secret _ _ sensitive, openRefs_secret _ _ sensitive, others]
            · rw [openRefs_plain _ _ sensitive, openRefs_plain _ _ sensitive, others]

/-- The walk goes on to some of the targets of a node. -/
theorem openRefs_keptNode_sublist (keys : List String) (node : HeapNode β)
    : (openRefs (slots (keptNode keys node))).Sublist node.targets := by
  cases node with
  | array items =>
      have same : (slots (.array items)).map Prod.snd = items := by
        simp [slots, Function.comp_def]
      have some := (List.filter_sublist (l := slots (.array items))
        (p := fun entry => entry.1 ∉ sensitiveLogKeys)).map Prod.snd
      rw [same] at some
      exact some.filterMap _
  | object properties prototype =>
      have some : ((((properties.filter (fun entry => entry.1 ∉ keys)).filter
          (fun entry => entry.1 ∉ sensitiveLogKeys))).map Prod.snd).Sublist
          (properties.map Prod.snd) :=
        (List.filter_sublist.trans List.filter_sublist).map _
      exact (some.filterMap _).trans (List.sublist_append_left _ _)

end Kept

-----------------------------------------------------------------------------------------
-- The assignment of the ids
-----------------------------------------------------------------------------------------

variable {α : Type} [DecidableEq α]

/-- The objects once the fields are set. -/
def assignFields (objects : CallerObjects α) (target : α) (fields : List (String × String))
    : CallerObjects α :=
  fields.foldl
    (fun objects field => objects.write target field.1 (.primitive (.text field.2))) objects

section Assign

variable {objects : CallerObjects α} {target : α}

/-- A plain object, or an array: it has no prototype in the graph. -/
def Orphan (node : HeapNode α) : Prop :=
  ∀ properties prototype, node = .object properties prototype → prototype = none

/-- Setting a property changes one object, and adds no prototype to it. -/
theorem orphan_write (orphan : Orphan (objects.heap.node target)) (key : String)
    (value : HeapValue α)
    : Orphan ((objects.write target key value).heap.node target) := by
  intro properties prototype same
  cases node : objects.heap.node target with
  | array items => simp [CallerObjects.write, setProperty, node] at same
  | object before parent =>
      simp only [CallerObjects.write, setProperty, node, if_true, HeapNode.object.injEq] at same
      rw [← same.2]
      exact orphan before parent node

theorem write_other (key : String) (value : HeapValue α) {address : α} (other : address ≠ target)
    : (objects.write target key value).heap.node address = objects.heap.node address := by
  simp [CallerObjects.write, setProperty, other]

/-- Setting an entry that is left out changes nothing, by induction on the entries. -/
theorem filter_setEntry {β : Type} {keys : List String} {key : String} (overwritten : key ∈ keys)
    (value : β) (entries : List (String × β))
    : (setEntry key value entries).filter (fun entry => entry.1 ∉ keys)
      = entries.filter (fun entry => entry.1 ∉ keys) := by
  induction entries with
  | nil => simp [setEntry, overwritten]
  | cons entry rest ih =>
      unfold setEntry
      split
      · rename_i same
        rw [List.filter_cons_of_neg (by simpa using overwritten),
          List.filter_cons_of_neg (by simpa [same] using overwritten)]
      · rw [List.filter_cons, List.filter_cons, ih]

/-- A node without the keys is the same after setting one of them. -/
theorem keptNode_write {keys : List String} {key : String} (overwritten : key ∈ keys)
    (value : HeapValue α) (address : α)
    : keptNode keys ((objects.write target key value).heap.node address)
      = keptNode keys (objects.heap.node address) := by
  by_cases same : address = target
  · subst same
    cases node : objects.heap.node address with
    | array items => simp [CallerObjects.write, setProperty, node]
    | object properties prototype =>
        have filtered := filter_setEntry overwritten value properties
        simpa [CallerObjects.write, setProperty, node, keptNode] using filtered
  · rw [write_other key value same]

/-- A node without the keys is the same after an assignment, by induction on the fields. -/
theorem keptNode_assignFields {keys : List String} {fields : List (String × String)}
    (overwritten : ∀ field ∈ fields, field.1 ∈ keys) (address : α)
    : keptNode keys ((assignFields objects target fields).heap.node address)
      = keptNode keys (objects.heap.node address) := by
  induction fields generalizing objects with
  | nil => rfl
  | cons field rest ih =>
      have later := @ih (objects.write target field.1 (.primitive (.text field.2)))
        (fun field member => overwritten field (List.mem_cons_of_mem _ member))
      exact later.trans (keptNode_write (overwritten field (List.mem_cons_self ..)) _ address)

/-- An assignment changes one object, by induction on the fields. -/
theorem assignFields_other (fields : List (String × String)) {address : α}
    (other : address ≠ target)
    : (assignFields objects target fields).heap.node address = objects.heap.node address := by
  induction fields generalizing objects with
  | nil => rfl
  | cons field rest ih =>
      have later := @ih (objects.write target field.1 (.primitive (.text field.2)))
      exact later.trans (write_other _ _ other)

variable [Fintype α]

/-- Setting a property of a plain object that is not frozen does not throw. -/
theorem strictSet_thawed (orphan : Orphan (objects.heap.node target))
    (thawed : objects.frozen target = false) (key : String) (value : HeapValue α)
    : Atomic.on objects (strictSet target key value)
      = (.ok (), objects.write target key value) := by
  have ownOnly : objects.readOnlyAbove target key = false := by
    cases node : objects.heap.node target with
    | array items => simp [CallerObjects.readOnlyAbove, HeapNode.prototype?, node]
    | object properties prototype =>
        obtain rfl := orphan properties prototype node
        simp [CallerObjects.readOnlyAbove, HeapNode.prototype?, node]
  simp [strictSet, thawed, ownOnly]

/-- Nor does an assignment, by induction on the fields. -/
theorem objectAssign_thawed (orphan : Orphan (objects.heap.node target))
    (thawed : objects.frozen target = false) (fields : List (String × String))
    : Atomic.on objects (objectAssign target fields)
      = (.ok (), assignFields objects target fields) := by
  induction fields generalizing objects with
  | nil => rfl
  | cons field rest ih =>
      obtain ⟨key, text⟩ := field
      rw [objectAssign, Atomic.on_bind, strictSet_thawed orphan thawed]
      exact ih (orphan_write orphan key _) thawed

/-- An assignment throws, or sets all fields, by induction on them. -/
theorem objectAssign_cases (objects : CallerObjects α) (target : α)
    (fields : List (String × String))
    : (∃ err after, Atomic.on objects (objectAssign target fields) = (.error err, after))
      ∨ Atomic.on objects (objectAssign target fields)
        = (.ok (), assignFields objects target fields) := by
  induction fields generalizing objects with
  | nil => exact Or.inr rfl
  | cons field rest ih =>
      obtain ⟨key, text⟩ := field
      rw [objectAssign, Atomic.on_bind]
      rcases strictSet_cases objects target key (.primitive (.text text)) with ⟨err, thrown⟩ | set
      · rw [thrown]
        exact Or.inl ⟨err, objects, rfl⟩
      · rw [set]
        exact ih (objects.write target key (.primitive (.text text)))

/-- What an assignment has set refers to nothing. -/
theorem inert_assignFields {fields : List (String × String)}
    (distinct : (fields.map Prod.fst).Nodup)
    (assigned
      : Atomic.on objects (objectAssign target fields)
        = (.ok (), assignFields objects target fields))
    : Inert (fields.map Prod.fst) ((assignFields objects target fields).heap.node target) := by
  intro key held overwritten entry
  obtain ⟨properties, prototype, node, member⟩ := entry
  obtain ⟨field, given, rfl⟩ := List.mem_map.mp overwritten
  have set := (objectAssign_sets distinct assigned).1 field given
  have own := (own?_eq_some_iff node).mpr member
  cases set.symm.trans own
  rfl

end Assign

-----------------------------------------------------------------------------------------
-- Log calls
-----------------------------------------------------------------------------------------

omit [DecidableEq α] in
/-- No secret is bare in an argument of the logging method. -/
def ArgumentMasked {β : Type} (node? : β → Option (HeapNode β)) : LogArgument β → Prop
  | .value value => Masked node? value
  | .fields entries =>
      ∀ entry ∈ entries, entry.1 ∈ sensitiveLogKeys → entry.2 = logRedactCensor

/-- No secret is bare in any argument that the logging method is called with. -/
structure MaskedCall (objects : CallerObjects α) (call : MethodCall α) : Prop where
  first
    : ∀ argument,
        call.first = some argument
        → ArgumentMasked (redactedNode? objects.heap call.redaction) argument
  others : ∀ argument ∈ call.others, ArgumentMasked objects.heap.node? argument

omit [DecidableEq α] in
/-- The value is a tree of plain objects and arrays: no object is met twice in it, none has
another of the graph as its prototype, and arrays have nothing but their items.
-/
structure PlainTree [Fintype α] [DecidableEq α] (objects : CallerObjects α)
    (value : HeapValue α)
    : Prop where
  orphans
    : ∀ address, Reaches objects.heap.node? value address → Orphan (objects.heap.node address)
  unnamed
    : ∀ address items,
        Reaches objects.heap.node? value address
        → objects.heap.node address = .array items
        → objects.named address = []
  once
    : ∀ address,
        encounters (fun address => (objects.heap.node address).targets) (refs [value]) address ≤ 1

/-- The nodes of the caller, without the properties of the first argument that the call
overwrites.
-/
def keptNodes (objects : CallerObjects α) (log : LogCall α) (address : α) : HeapNode α :=
  if log.inputArgs.head?.bind HeapValue.ref? = some address then
    keptNode ((traceLogFields log.ctx).map Prod.fst) (objects.heap.node address)
  else objects.heap.node address

/-- No argument after the first leads to a bare secret, by references that the call keeps. -/
def LaterMasked (objects : CallerObjects α) (log : LogCall α) : Prop :=
  ∀ value ∈ log.inputArgs.tail, Masked (fun address => some (keptNodes objects log address)) value

variable [Fintype α]

/-- The first argument is frozen, so that the ids of the active context cannot be written into it,
or something is in the way of its redaction.
-/
def Refused (objects : CallerObjects α) (log : LogCall α) : Prop :=
  ∃ address,
    log.inputArgs.head? = some (.ref address)
    ∧ (log.ctx ≠ none ∧ objects.frozen address = true
      ∨ Obstructed (assignFields objects address (traceLogFields log.ctx)) (.ref address))

/-- Whatever the logging method is called with is masked. -/
def EveryArgumentMasked (objects : CallerObjects α) (log : LogCall α) : Prop :=
  ∀ call after,
    Atomic.on objects (traceLogMethodHook log.ctx log.inputArgs) = (.ok call, after)
    → MaskedCall after call

omit [DecidableEq α] [Fintype α] in
/-- A primitive argument is masked. -/
theorem masked_primitive {β : Type} (node? : β → Option (HeapNode β)) (value : Primitive)
    : Masked node? (.primitive value) := by
  intro address properties prototype key held reaches
  obtain ⟨_, absurd, _⟩ := reaches
  cases absurd

omit [Fintype α] in
/-- Without an object in the first place, nothing is overwritten. -/
theorem laterMasked_of_noObject {objects : CallerObjects α} {log : LogCall α}
    (noObject : log.inputArgs.head?.bind HeapValue.ref? = none)
    : LaterMasked objects log ↔ ∀ value ∈ log.inputArgs.tail, Masked objects.heap.node? value := by
  have same : (fun address => some (keptNodes objects log address)) = objects.heap.node? := by
    funext address
    simp [keptNodes, noObject, Heap.node?]
  rw [LaterMasked, same]

/-- The hook calls the method at most once. -/
theorem everyArgumentMasked_of_run {objects after : CallerObjects α} {log : LogCall α}
    {call : MethodCall α}
    (ran : Atomic.on objects (traceLogMethodHook log.ctx log.inputArgs) = (.ok call, after))
    : EveryArgumentMasked objects log ↔ MaskedCall after call := by
  constructor
  · intro every
    exact every call after ran
  · intro masked call' after' ran'
    cases ran.symm.trans ran'
    exact masked

omit [Fintype α] in
/-- A call with a masked first argument is masked if the others are. -/
theorem maskedCall_iff {objects : CallerObjects α} {call : MethodCall α}
    {values : List (HeapValue α)}
    (first
      : ∀ argument,
          call.first = some argument
          → ArgumentMasked (redactedNode? objects.heap call.redaction) argument)
    (others : call.others = values.map .value)
    : MaskedCall objects call ↔ ∀ value ∈ values, Masked objects.heap.node? value := by
  constructor
  · intro masked value member
    apply masked.others (.value value)
    rw [others]
    exact List.mem_map_of_mem member
  · intro masked
    refine ⟨first, fun argument member => ?_⟩
    rw [others] at member
    obtain ⟨value, given, rfl⟩ := List.mem_map.mp member
    exact masked value given

/-- A call whose first argument is no object hands on the others as they are. -/
theorem everyArgumentMasked_noObject {objects : CallerObjects α} {log : LogCall α}
    (noObject : log.inputArgs.head?.bind HeapValue.ref? = none)
    : EveryArgumentMasked objects log
      ↔ ∀ value ∈ log.inputArgs.tail, Masked objects.heap.node? value := by
  have fieldsMasked (ctx : Option TraceContext) (argument : LogArgument (Address α))
      (same
        : some
            (LogArgument.fields
              ((traceLogFields ctx).map (fun entry =>
                if entry.1 ∈ sensitiveLogKeys then (entry.1, logRedactCensor) else entry)))
          = some argument)
      : ArgumentMasked (redactedNode? objects.heap noRedaction) argument := by
    cases same
    intro entry member sensitive
    obtain ⟨field, _, rfl⟩ := List.mem_map.mp member
    by_cases secret : field.1 ∈ sensitiveLogKeys
    · rw [if_pos secret]
    · rw [if_neg secret] at sensitive
      exact absurd sensitive secret
  obtain ⟨ctx, inputArgs⟩ := log
  cases inputArgs with
  | nil =>
      cases ctx with
      | none =>
          rw [everyArgumentMasked_of_run rfl]
          exact maskedCall_iff (fun argument absurd => by cases absurd) rfl
      | some ctx =>
          rw [everyArgumentMasked_of_run rfl]
          exact maskedCall_iff (fieldsMasked (some ctx)) rfl
  | cons first rest =>
      cases first with
      | ref address => cases noObject
      | primitive value =>
          cases ctx with
          | none =>
              rw [everyArgumentMasked_of_run rfl]
              refine maskedCall_iff (fun argument same => ?_) rfl
              cases same
              exact masked_primitive _ value
          | some ctx =>
              rw [everyArgumentMasked_of_run rfl,
                @maskedCall_iff α _ _ _ (.primitive value :: rest) (fieldsMasked (some ctx)) rfl,
                List.forall_mem_cons]
              exact and_iff_right (masked_primitive _ value)

/-- A tree is masked by its redaction, also after the ids are set in it; witness: nothing in it
is encountered twice.
-/
theorem masked_first {objects : CallerObjects α} {address : α} {ctx : Option TraceContext}
    (tree : PlainTree objects (.ref address))
    (assigned
      : Atomic.on objects (objectAssign address (traceLogFields ctx))
        = (.ok (), assignFields objects address (traceLogFields ctx)))
    {shown : HeapValue (Address α)} {state : Redaction α}
    (redacted
      : deepRedact (assignFields objects address (traceLogFields ctx)) (.ref address)
        = (.ok shown, state))
    : Masked (redactedNode? (assignFields objects address (traceLogFields ctx)).heap state)
        shown := by
  have inert := inert_assignFields (traceLogFields_keys ctx).1 assigned
  have fewer : ∀ source,
      (walked (assignFields objects address (traceLogFields ctx)).heap source).Sublist
        (objects.heap.node source).targets := by
    intro source
    by_cases same : source = address
    · subst same
      rw [walked, ← openRefs_keptNode inert,
        keptNode_assignFields (fun field member => List.mem_map_of_mem member)]
      exact openRefs_keptNode_sublist _ _
    · have kept := openRefs_keptNode_sublist [] (objects.heap.node source)
      rw [openRefs_keptNode (fun _ _ absurd => by cases absurd)] at kept
      rw [walked, assignFields_other _ same]
      exact kept
  obtain ⟨meetings, visits, rebuilt⟩ := rebuilt_of_deepRedact redacted
  rw [rebuilt.masked_iff]
  intro start again
  have twice := (rebuilt.walk.again_iff start).mp again
  have once := (encounters_le fewer start).trans (tree.once start)
  omega

/-- What a call with an object in the first place does: it throws if it is refused, and else
sets the ids, redacts the object and hands on the others.
-/
theorem on_traceLogMethodHook_ref {objects : CallerObjects α} {ctx : Option TraceContext}
    {address : α} {rest : List (HeapValue α)}
    : Atomic.on objects (traceLogMethodHook ctx (.ref address :: rest))
      = Atomic.on objects
          (objectAssign address (traceLogFields ctx) >>= fun _ =>
            redactLogMethodHook (.value (.ref address) :: rest.map .value)) := by
  cases ctx <;> rfl

/-- The objects after the ids are set are like those that the call keeps. -/
theorem alike_keptNodes {objects : CallerObjects α} {ctx : Option TraceContext} {address : α}
    (rest : List (HeapValue α))
    (assigned
      : Atomic.on objects (objectAssign address (traceLogFields ctx))
        = (.ok (), assignFields objects address (traceLogFields ctx)))
    (other : α)
    : Alike ((assignFields objects address (traceLogFields ctx)).heap.node other)
        (keptNodes objects { ctx, inputArgs := .ref address :: rest } other) := by
  by_cases same : other = address
  · subst same
    have plain : ∀ key ∈ (traceLogFields ctx).map Prod.fst, key ∉ sensitiveLogKeys := by
      intro key member
      obtain ⟨field, given, rfl⟩ := List.mem_map.mp member
      exact (traceKeys_plain _ ((traceLogFields_keys ctx).2 field given)).1
    have kept := alike_keptNode plain (inert_assignFields (traceLogFields_keys ctx).1 assigned)
    rw [keptNode_assignFields (fun field member => List.mem_map_of_mem member)] at kept
    simpa [keptNodes, HeapValue.ref?] using kept
  · rw [assignFields_other _ same]
    simpa [keptNodes, HeapValue.ref?, Ne.symm same] using Alike.refl _

/-- A call that can set the ids in its tree and redact it hands on the others, as they are once
the ids are set.
-/
theorem everyArgumentMasked_object {objects : CallerObjects α} {ctx : Option TraceContext}
    {address : α} {rest : List (HeapValue α)} (tree : PlainTree objects (.ref address))
    (assigned
      : Atomic.on objects (objectAssign address (traceLogFields ctx))
        = (.ok (), assignFields objects address (traceLogFields ctx)))
    (free : ¬ Obstructed (assignFields objects address (traceLogFields ctx)) (.ref address))
    : EveryArgumentMasked objects { ctx, inputArgs := .ref address :: rest }
      ↔ ∀ value ∈ rest,
          Masked (assignFields objects address (traceLogFields ctx)).heap.node? value := by
  rcases deepRedact_cases (assignFields objects address (traceLogFields ctx)) (.ref address) with
    ⟨obstructed, _⟩ | ⟨_, shown, state, _, _, redacted, _⟩
  · exact absurd obstructed free
  have ran : Atomic.on objects (traceLogMethodHook ctx (.ref address :: rest))
      = (.ok { first := some (.value shown), redaction := state, others := rest.map .value },
        assignFields objects address (traceLogFields ctx)) := by
    rw [on_traceLogMethodHook_ref, Atomic.on_bind, assigned]
    simp [redactLogMethodHook, redacted]
  rw [everyArgumentMasked_of_run ran]
  refine maskedCall_iff (fun argument same => ?_) rfl
  cases same
  exact masked_first tree assigned redacted

/-- A refused call never gets to the method. -/
theorem everyArgumentMasked_refused {objects : CallerObjects α} {log : LogCall α}
    (refused : Refused objects log)
    : EveryArgumentMasked objects log := by
  obtain ⟨ctx, inputArgs⟩ := log
  obtain ⟨address, passed, either⟩ := refused
  obtain ⟨rest, rfl⟩ := List.head?_eq_some_iff.mp passed
  intro call after ran
  rw [on_traceLogMethodHook_ref, Atomic.on_bind] at ran
  rcases either with ⟨active, frozen⟩ | obstructed
  · have given : traceLogFields ctx ≠ [] := by
      cases ctx with
      | none => exact absurd rfl active
      | some ctx => simp [traceLogFields]
    obtain ⟨err, thrown⟩ := objectAssign_frozen frozen given
    rw [thrown] at ran
    cases ran
  · rcases objectAssign_cases objects address (traceLogFields ctx) with
      ⟨err, after, thrown⟩ | assigned
    · rw [thrown] at ran
      cases ran
    · rw [assigned] at ran
      rcases on_redactLogMethodHook_ref (assignFields objects address (traceLogFields ctx)) address
          (rest.map .value) with
        ⟨_, err, thrown⟩ | ⟨free, _⟩
      · cases thrown.symm.trans ran
      · exact absurd obstructed free

/-- Every argument of a log call whose arguments are trees is masked exactly if the call is
refused or the arguments after the first are masked as they are; witness: the first is redacted,
and setting the ids in it changes for the others only what is overwritten.
-/
theorem everyArgumentMasked_iff {objects : CallerObjects α} {log : LogCall α}
    (trees : ∀ value ∈ log.inputArgs, PlainTree objects value)
    : EveryArgumentMasked objects log ↔ Refused objects log ∨ LaterMasked objects log := by
  by_cases noObject : log.inputArgs.head?.bind HeapValue.ref? = none
  · rw [everyArgumentMasked_noObject noObject, laterMasked_of_noObject noObject]
    refine (or_iff_right ?_).symm
    rintro ⟨address, passed, _⟩
    simp [passed, HeapValue.ref?] at noObject
  · obtain ⟨address, isRef⟩ := Option.ne_none_iff_exists'.mp noObject
    obtain ⟨first, passed, same⟩ := Option.bind_eq_some_iff.mp isRef
    rw [HeapValue.ref?_eq_some] at same
    subst same
    obtain ⟨ctx, inputArgs⟩ := log
    obtain ⟨rest, rfl⟩ := List.head?_eq_some_iff.mp passed
    have tree := trees (.ref address) (List.mem_cons_self ..)
    by_cases refused : Refused objects { ctx, inputArgs := .ref address :: rest }
    · exact iff_of_true (everyArgumentMasked_refused refused) (Or.inl refused)
    · rw [or_iff_right refused]
      have assigned : Atomic.on objects (objectAssign address (traceLogFields ctx))
          = (.ok (), assignFields objects address (traceLogFields ctx)) := by
        cases ctx with
        | none => rfl
        | some ctx =>
            apply objectAssign_thawed (tree.orphans address ⟨address, rfl, .refl⟩)
            by_contra frozen
            rw [Bool.not_eq_false] at frozen
            exact refused ⟨address, rfl, Or.inl ⟨by simp, frozen⟩⟩
      have free : ¬ Obstructed (assignFields objects address (traceLogFields ctx)) (.ref address) :=
        fun obstructed => refused ⟨address, rfl, Or.inr obstructed⟩
      rw [everyArgumentMasked_object tree assigned free]
      exact forall₂_congr (fun value _ => masked_congr (alike_keptNodes rest assigned) value)

/-- A login, not frozen. -/
def loginObjects : CallerObjects Unit where
  heap :=
    {
      node := fun _ => .object [("password", .primitive (.text "hunter2"))] none
      distinct := by
        intro address properties prototype same
        cases same
        decide
    }
  named := fun _ => []
  frozen := fun _ => false
  refuses := fun _ _ => false

/-- The login as the first argument, with a message after it. -/
def loginFirst : LogCall Unit where
  ctx := none
  inputArgs := [.ref (), .primitive (.text "login")]

/-- The login after the message. -/
def loginLast : LogCall Unit where
  ctx := none
  inputArgs := [.primitive (.text "login"), .ref ()]

theorem loginObjects_tree (value : HeapValue Unit) : PlainTree loginObjects value where
  orphans := by
    intro address _ properties prototype node
    cases node
    rfl
  unnamed := by
    intro address items _ node
    cases node
  once := by
    intro address
    have silent : ∀ source, (loginObjects.heap.node source).targets = [] := fun _ => rfl
    simp only [encounters, silent, List.count_nil, Finset.sum_const_zero, Nat.add_zero]
    cases value with
    | primitive value => simp
    | ref other => exact List.count_le_length

/-- Passed first, the login is masked, as there is nothing after it but the message. -/
theorem everyArgumentMasked_loginFirst : EveryArgumentMasked loginObjects loginFirst := by
  refine (everyArgumentMasked_iff (fun value _ => loginObjects_tree value)).mpr (Or.inr ?_)
  intro value member
  cases List.mem_singleton.mp member
  exact masked_primitive _ _

/-- Passed after the message, the password reaches the logging method. -/
theorem loginLast_shown
    : ¬ ∀ (objects : CallerObjects Unit) (log : LogCall Unit),
        (∀ value ∈ log.inputArgs, PlainTree objects value) → EveryArgumentMasked objects log := by
  intro claimed
  have masked := claimed loginObjects loginLast (fun value _ => loginObjects_tree value) _ _ rfl
  have login := masked.others (.value (.ref ())) (List.mem_singleton_self _)
  have blank :=
    login () _ _ "password" _ ⟨(), rfl, .refl⟩ rfl (List.mem_singleton_self _) (by decide)
  simp [logRedactCensor] at blank

end SharedKernel.Logger
