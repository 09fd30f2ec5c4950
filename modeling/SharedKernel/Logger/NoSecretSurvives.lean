import SharedKernel.Logger.Masking

/-! No secret survives a redaction of a value that shares none, and two values that differ in
nothing but their secrets look the same.
-/

namespace SharedKernel.Logger

open Foundation Js

/-- Two nodes differ in the values under sensitive keys at most. -/
inductive AgreeOpenly {β : Type} : HeapNode β → HeapNode β → Prop
  | array (items : List (HeapValue β)) : AgreeOpenly (.array items) (.array items)
  | object {properties others : List (String × HeapValue β)} (prototype : Option β)
    (same
      : List.Forall₂
          (fun entry other =>
            entry.1 = other.1 ∧ (entry.1 ∉ sensitiveLogKeys → entry.2 = other.2))
          properties others)
    : AgreeOpenly (.object properties prototype) (.object others prototype)

variable {α : Type}

/-- The objects that can be reached from an object without a look at its secrets. -/
def publicTargets (heap : Heap α) (address : α) : List α :=
  walked heap address
    ++ match heap.node address with
      | .object _ prototype => prototype.toList
      | .array _ => []

/-- Two graphs of a value differ in the values under sensitive keys at most. -/
def SameButSecrets (heap other : Heap α) (value : HeapValue α) : Prop :=
  ∀ address,
    Reachable (publicTargets heap) (refs [value]) address
    → AgreeOpenly (heap.node address) (other.node address)

/-- Nodes that agree openly lead the walk to the same objects. -/
theorem AgreeOpenly.openRefs_eq {node other : HeapNode α} (agree : AgreeOpenly node other)
    : openRefs (slots node) = openRefs (slots other) := by
  cases agree with
  | array items => rfl
  | object prototype same =>
      simp only [slots]
      induction same with
      | nil => rfl
      | @cons entry other properties others both _ ih =>
          obtain ⟨key, value⟩ := entry
          obtain ⟨key', value'⟩ := other
          obtain ⟨rfl, sameValue⟩ := both
          by_cases sensitive : key ∈ sensitiveLogKeys
          · rw [openRefs_secret _ _ sensitive, openRefs_secret _ _ sensitive, ih]
          · rw [openRefs_plain _ _ sensitive, openRefs_plain _ _ sensitive, ih,
              show value = value' from sameValue sensitive]

/-- The order of two nodes does not matter. -/
theorem AgreeOpenly.symm {node other : HeapNode α} (agree : AgreeOpenly node other)
    : AgreeOpenly other node := by
  cases agree with
  | array items => exact .array items
  | object prototype same =>
      refine .object prototype (same.flip.imp ?_)
      rintro entry other ⟨sameKey, sameValue⟩
      exact ⟨sameKey.symm, fun plain => (sameValue (sameKey ▸ plain)).symm⟩

/-- Nodes that agree openly are shown alike. -/
theorem AgreeOpenly.shown {node other : HeapNode α} (agree : AgreeOpenly node other)
    {meetings : List (Meeting α)} {shown : List (String × HeapValue (Address α))}
    (shows : Shown (slots node) meetings shown)
    : Shown (slots other) meetings shown := by
  cases agree with
  | array items => exact shows
  | object prototype same =>
      simp only [slots] at shows ⊢
      induction same generalizing meetings shown with
      | nil => exact shows
      | @cons entry other _ _ both _ ih =>
          obtain ⟨key, value⟩ := entry
          obtain ⟨key', value'⟩ := other
          obtain ⟨rfl, sameValue⟩ := both
          cases shows with
          | secret sensitive rest => exact .secret sensitive (ih rest)
          | primitive plain rest =>
              obtain rfl := sameValue plain
              exact .primitive plain (ih rest)
          | ref meeting plain rest =>
              obtain rfl := sameValue plain
              exact .ref meeting plain (ih rest)

/-- Nodes that agree openly have the same keys. -/
theorem AgreeOpenly.ownKeys {objects : CallerObjects α} {other : Heap α} {address : α}
    (agree : AgreeOpenly (objects.heap.node address) (other.node address))
    : objects.ownKeys address = { objects with heap := other }.ownKeys address := by
  simp only [CallerObjects.ownKeys]
  generalize objects.heap.node address = node at agree ⊢
  generalize other.node address = node' at agree ⊢
  cases agree with
  | array items => rfl
  | object prototype same =>
      have keys : List.Forall₂ Eq (_ : List String) _ :=
        List.forall₂_map_left_iff.mpr (List.forall₂_map_right_iff.mpr
          (same.imp (fun _ _ both => both.1)))
      rw [List.forall₂_eq_eq_eq] at keys
      simp only [keys]

/-- Graphs that agree on what is public make the same keys read-only, by induction on the bound
on the chain of prototypes.
-/
theorem readOnlyFrom_congr {objects : CallerObjects α} {other : Heap α} {given : List α}
    (agree
      : ∀ address,
          Reachable (publicTargets objects.heap) given address
          → AgreeOpenly (objects.heap.node address) (other.node address))
    (key : String) (depth : Nat) {address : α}
    (reachable : Reachable (publicTargets objects.heap) given address)
    : objects.readOnlyFrom key depth address
      = { objects with heap := other }.readOnlyFrom key depth address := by
  induction depth generalizing address with
  | zero => rfl
  | succ depth ih =>
      have here := agree address reachable
      have own := here.ownKeys
      have above : ∀ prototype,
          (objects.heap.node address).prototype? = some prototype
          → Reachable (publicTargets objects.heap) given prototype := by
        intro prototype inherits
        obtain ⟨start, member, path⟩ := reachable
        refine ⟨start, member, path.tail (List.mem_append_right _ ?_)⟩
        cases node : objects.heap.node address with
        | array items =>
            rw [node] at inherits
            cases inherits
        | object properties parent =>
            rw [node, HeapNode.prototype?] at inherits
            simp [inherits]
      have parent : (objects.heap.node address).prototype? = (other.node address).prototype? := by
        generalize objects.heap.node address = node at here
        generalize other.node address = node' at here
        cases here <;> rfl
      simp only [CallerObjects.readOnlyFrom, own, ← parent]
      split
      · rfl
      · cases inherits : (objects.heap.node address).prototype? with
        | none => rfl
        | some prototype => exact ih (above prototype inherits)

variable [DecidableEq α]

omit [DecidableEq α] in
/-- The sensitive properties of an object are blank. -/
theorem Masked.entry {heap : Heap α} {value : HeapValue α} (masked : Masked heap.node? value)
    {address : α} (reaches : Reaches heap.node? value address)
    {properties : List (String × HeapValue α)} {prototype : Option α}
    (node : heap.node address = .object properties prototype)
    : ∀ entry ∈ properties,
        entry.1 ∈ sensitiveLogKeys → entry.2 = .primitive (.text logRedactCensor) := by
  rintro ⟨key, held⟩ member sensitive
  exact masked address properties prototype key held reaches (congrArg some node) member sensitive

omit [DecidableEq α] in
/-- Where all is masked, every reference is public. -/
theorem Masked.public {heap : Heap α} {value : HeapValue α} (masked : Masked heap.node? value)
    {address target : α} (reaches : Reaches heap.node? value address)
    (isTarget : target ∈ (heap.node address).targets)
    : target ∈ publicTargets heap address := by
  unfold publicTargets walked
  cases node : heap.node address with
  | array items =>
      rw [node] at isTarget
      apply List.mem_append_left
      refine mem_openRefs.mpr ⟨"", unnamed_plain, ?_⟩
      exact List.mem_map_of_mem (mem_refs.mp isTarget)
  | object properties prototype =>
      rw [node, HeapNode.targets] at isTarget
      rcases List.mem_append.mp isTarget with property | parent
      · obtain ⟨⟨key, held⟩, member, isRef⟩ := List.mem_map.mp (mem_refs.mp property)
        cases isRef
        apply List.mem_append_left
        refine mem_openRefs.mpr ⟨key, ?_, member⟩
        intro sensitive
        cases masked.entry reaches node _ member sensitive
      · exact List.mem_append_right _ parent

omit [DecidableEq α] in
/-- Nodes that agree openly are equal where all is masked in both graphs. -/
theorem AgreeOpenly.eq {heap other : Heap α} {value : HeapValue α} {address : α}
    (agree : AgreeOpenly (heap.node address) (other.node address))
    (masked : Masked heap.node? value) (reaches : Reaches heap.node? value address)
    (masked' : Masked other.node? value) (reaches' : Reaches other.node? value address)
    : heap.node address = other.node address := by
  have blank := @Masked.entry _ heap value masked address reaches
  have blank' := @Masked.entry _ other value masked' address reaches'
  generalize heap.node address = node at agree blank
  generalize other.node address = node' at agree blank'
  cases agree with
  | array items => rfl
  | @object properties others prototype same =>
      congr 1
      have first := blank rfl
      have second := blank' rfl
      clear blank blank'
      induction same with
      | nil => rfl
      | @cons entry entry' properties others both _ ih =>
          obtain ⟨key, held⟩ := entry
          obtain ⟨key', held'⟩ := entry'
          obtain ⟨sameKey, sameValue⟩ := both
          simp only at sameKey sameValue
          subst sameKey
          have rest := ih (fun entry member => first entry (List.mem_cons_of_mem _ member))
            (fun entry member => second entry (List.mem_cons_of_mem _ member))
          have sameHeld : held = held' := by
            by_cases sensitive : key ∈ sensitiveLogKeys
            · have one : held = _ := first _ (List.mem_cons_self ..) sensitive
              have two : held' = _ := second _ (List.mem_cons_self ..) sensitive
              rw [one, two]
            · exact sameValue sensitive
          rw [rest, sameHeld]

omit [DecidableEq α] in
/-- What leads the walk somewhere is public. -/
theorem reachable_public {heap : Heap α} {given : List α} {address : α}
    (reachable : Reachable (walked heap) given address)
    : Reachable (publicTargets heap) given address := by
  obtain ⟨start, member, path⟩ := reachable
  refine ⟨start, member, ?_⟩
  exact Relation.ReflTransGen.mono (fun _ _ next => List.mem_append_left _ next) _ _ path

omit [DecidableEq α] in
/-- From a public object that is masked in both graphs, the graphs are the same, by induction
on the path.
-/
theorem SameButSecrets.path {heap other : Heap α} {value : HeapValue α} {start address : α}
    (same : SameButSecrets heap other value)
    (met : Reachable (publicTargets heap) (refs [value]) start)
    (masked : Masked heap.node? (.ref start)) (masked' : Masked other.node? (.ref start))
    (path : Relation.ReflTransGen (Leads heap.node?) start address)
    : heap.node address = other.node address
      ∧ Reachable (publicTargets heap) (refs [value]) address
      ∧ Relation.ReflTransGen (Leads other.node?) start address := by
  induction path with
  | refl =>
      have agree := same start met
      exact ⟨agree.eq masked ⟨start, rfl, .refl⟩ masked' ⟨start, rfl, .refl⟩, met, .refl⟩
  | @tail source target path leads ih =>
      obtain ⟨equal, reached, path'⟩ := ih
      obtain ⟨node, found, isTarget⟩ := leads
      cases found
      have next : Reachable (publicTargets heap) (refs [value]) target := by
        obtain ⟨first, member, before⟩ := reached
        exact ⟨first, member, before.tail (masked.public ⟨start, rfl, path⟩ isTarget)⟩
      have longer := path.tail ⟨heap.node source, rfl, isTarget⟩
      have longer' := path'.tail ⟨other.node source, rfl, by rw [← equal]; exact isTarget⟩
      have agree := same target next
      exact ⟨agree.eq masked ⟨start, rfl, longer⟩ masked' ⟨start, rfl, longer'⟩, next, longer'⟩

section Congruence

variable [Fintype α] {objects : CallerObjects α} {other : Heap α}

omit [DecidableEq α] in
/-- What is refused in a graph is refused in one that agrees on the visits, by induction on the
chain of prototypes.
-/
theorem Refuses.congr {visits : List (Visit α)}
    (agree
      : ∀ visit ∈ visits,
          AgreeOpenly (objects.heap.node visit.object) (other.node visit.object))
    (same
      : ∀ visit ∈ visits,
          ∀ object,
            .again object ∈ visit.met
            → ∀ key depth,
                objects.readOnlyFrom key depth object
                = { objects with heap := other }.readOnlyFrom key depth object)
    {key : String} {value : HeapValue (Address α)} (refuses : Refuses objects visits key value)
    {visit : Visit α} (member : visit ∈ visits)
    (known : ∀ object, value = .ref (.caller object) → .again object ∈ visit.met)
    : Refuses { objects with heap := other } visits key value := by
  induction refuses generalizing visit with
  | function refused => exact .function refused
  | @caller object readOnly =>
      refine .caller ?_
      rw [← same visit member object (known object rfl)]
      exact readOnly
  | @copy inner shown parent within shows absent inherits above ih =>
      refine .copy within ((agree inner within).shown shows) absent inherits (ih within ?_)
      rintro object rfl
      exact shows.again_met inherits

omit [DecidableEq α] in
/-- A visit that is in the way in a graph is in the way in one that agrees on the visits. -/
theorem Obstructs.congr {visits : List (Visit α)}
    (agree
      : ∀ visit ∈ visits,
          AgreeOpenly (objects.heap.node visit.object) (other.node visit.object))
    (same
      : ∀ visit ∈ visits,
          ∀ object,
            .again object ∈ visit.met
            → ∀ key depth,
                objects.readOnlyFrom key depth object
                = { objects with heap := other }.readOnlyFrom key depth object)
    {visit : Visit α} (member : visit ∈ visits) (obstructs : Obstructs objects visits visit)
    : Obstructs { objects with heap := other } visits visit := by
  obtain ⟨shown, shows, before, key, value, after, parent, rfl, inherits, refuses⟩ := obstructs
  refine ⟨_, (agree visit member).shown shows, before, key, value, after, parent, rfl, inherits,
    refuses.congr agree same member ?_⟩
  rintro object rfl
  exact shows.again_met (List.mem_append_left _ inherits)

omit [DecidableEq α] [Fintype α] in
/-- Nodes that agree openly have the same public targets. -/
theorem SameButSecrets.targets {heap : Heap α} {value : HeapValue α}
    (same : SameButSecrets heap other value) {address : α}
    (reachable : Reachable (publicTargets heap) (refs [value]) address)
    : publicTargets heap address = publicTargets other address := by
  have agree := same address reachable
  simp only [publicTargets, walked, agree.openRefs_eq]
  congr 1
  generalize heap.node address = node at agree
  generalize other.node address = node' at agree
  cases agree <;> rfl

omit [DecidableEq α] [Fintype α] in
/-- The order of two graphs does not matter. -/
theorem SameButSecrets.symm {heap : Heap α} {value : HeapValue α}
    (same : SameButSecrets heap other value)
    : SameButSecrets other heap value := by
  intro address reachable
  have here := Reachable.of_congr (fun _ reachable => same.targets reachable) reachable
  exact (same address here).symm

omit [Fintype α] in
/-- Graphs that are the same but for secrets agree on what is visited. -/
theorem SameButSecrets.visited {heap : Heap α} {value : HeapValue α}
    (same : SameButSecrets heap other value) {meetings : List (Meeting α)}
    {visits : List (Visit α)} {later : Finset α}
    (walk : DepthFirst (walked heap) ∅ (refs [value]) meetings visits later)
    : ∀ visit ∈ visits, AgreeOpenly (heap.node visit.object) (other.node visit.object) :=
  fun visit member => same _ (reachable_public (walk.reachable visit member))

/-- A graph that is obstructed stays so with other secrets. -/
theorem Obstructed.congr {value : HeapValue α} (same : SameButSecrets objects.heap other value)
    (obstructed : Obstructed objects value)
    : Obstructed { objects with heap := other } value := by
  obtain ⟨meetings, visits, later, walk, visit, member, obstructs⟩ := obstructed
  have agree := same.visited walk
  refine ⟨meetings, visits, later, ?_, visit, member, obstructs.congr agree ?_ member⟩
  · exact walk.congr (fun visit member => (agree visit member).openRefs_eq)
  · intro visit member object again key depth
    have seen := walk.met_seen (.again object)
      (List.mem_append_right _ (List.mem_flatMap.mpr ⟨visit, member, again⟩))
    have reachable := (walk.visited_iff object).mp (walk.visited object seen)
    exact readOnlyFrom_congr same key depth (reachable_public reachable)

omit [DecidableEq α] [Fintype α] in
/-- The visits are copied in one way, by induction on them. -/
theorem copied_unique {heap : Heap α} {visits : List (Visit α)}
    (agree : ∀ visit ∈ visits, AgreeOpenly (heap.node visit.object) (other.node visit.object))
    {made made' : List (α × HeapNode (Address α))}
    (copied : List.Forall₂ (Copied heap) visits made)
    (copied' : List.Forall₂ (Copied other) visits made')
    : made' = made := by
  induction copied generalizing made' with
  | nil =>
      cases copied'
      rfl
  | @cons visit entry visits made one rest ih =>
      cases copied' with
      | @cons _ entry' _ _ one' rest' =>
          obtain ⟨object, node⟩ := entry
          obtain ⟨object', node'⟩ := entry'
          obtain ⟨here, shown, shows, rebuilds⟩ := one
          obtain ⟨here', shown', shows', rebuilds'⟩ := one'
          have agreed := agree visit (List.mem_cons_self ..)
          obtain rfl := (agreed.shown shows).unique shows'
          rw [ih (fun visit member => agree visit (List.mem_cons_of_mem _ member)) rest']
          simp only at here here' rebuilds rebuilds'
          rw [here, here', rebuilds, rebuilds']
          congr 2
          generalize heap.node visit.object = node at agreed
          generalize other.node visit.object = node' at agreed
          cases agreed <;> rfl

omit [Fintype α] in
/-- Redactions of graphs that are the same but for secrets show and make the same. -/
theorem Rebuilt.same {heap : Heap α} {value : HeapValue α} (same : SameButSecrets heap other value)
    {shown shown' : HeapValue (Address α)} {state state' : Redaction α}
    {meetings meetings' : List (Meeting α)} {visits visits' : List (Visit α)}
    (rebuilt : Rebuilt heap value shown state meetings visits)
    (rebuilt' : Rebuilt other value shown' state' meetings' visits')
    : shown' = shown ∧ state'.created = state.created := by
  have agree := same.visited rebuilt.walk
  have walk : DepthFirst (walked other) ∅ (refs [value]) meetings visits state.seen :=
    rebuilt.walk.congr (fun visit member => (agree visit member).openRefs_eq)
  obtain ⟨rfl, rfl, _⟩ := walk.unique rebuilt'.walk
  have one := rebuilt.shows.unique rebuilt'.shows
  simp only [List.cons.injEq, Prod.mk.injEq, true_and, and_true] at one
  exact ⟨one, copied_unique agree rebuilt.copied rebuilt'.copied⟩

end Congruence

end SharedKernel.Logger
