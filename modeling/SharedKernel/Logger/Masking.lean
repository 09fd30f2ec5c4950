import SharedKernel.Logger.Obstruction

/-! Which secrets survive a redaction: an object that is encountered twice is shown as it is
the second time, with everything that can be reached from it.
-/

namespace SharedKernel.Logger

open Foundation Js

/-- Every sensitive property in the graph reachable from the value is blank. -/
def Masked {β : Type} (node? : β → Option (HeapNode β)) (value : HeapValue β) : Prop :=
  ∀ address properties prototype key held,
    Reaches node? value address
    → node? address = some (.object properties prototype)
    → (key, held) ∈ properties
    → key ∈ sensitiveLogKeys
    → held = .primitive (.text logRedactCensor)

variable {α : Type}

/-- The objects after a redaction: those of the caller, and those created. -/
def redactedNode? [DecidableEq α] (heap : Heap α) (state : Redaction α)
    : Address α → Option (HeapNode (Address α))
  | .caller address => some ((heap.node address).map .caller)
  | .copy address => (state.created.find? (fun entry => entry.1 = address)).map Prod.snd

/-- A new object refers to all that is assigned to it. -/
theorem mem_targets_assign {β : Type} {properties : List (String × HeapValue β)}
    (distinct : (properties.map Prod.fst).Nodup) (target : β)
    : target ∈ (assign properties).targets ↔ target ∈ refs (properties.map Prod.snd) := by
  have prototype
      : (properties.find? (fun entry => entry.1 = "__proto__")).bind
          (fun entry => entry.2.ref?) = some target
        ↔ ("__proto__", .ref target) ∈ properties := by
    rw [← find?_key distinct, Option.bind_eq_some_iff]
    constructor
    · intro found
      obtain ⟨⟨key, value⟩, found, isRef⟩ := found
      have named := List.find?_some found
      simp only [decide_eq_true_eq] at named
      simp only [HeapValue.ref?_eq_some] at isRef
      rw [found, named, isRef]
    · intro found
      exact ⟨_, found, rfl⟩
  simp only [assign, HeapNode.targets, List.mem_append, mem_refs, Option.mem_toList, prototype,
    List.mem_map, List.mem_filter, decide_eq_true_eq, Prod.exists, exists_eq_right]
  constructor
  · intro either
    rcases either with ⟨key, member, _⟩ | member
    · exact ⟨key, member⟩
    · exact ⟨_, member⟩
  · intro keyed
    obtain ⟨key, member⟩ := keyed
    by_cases named : key = "__proto__"
    · subst named
      exact Or.inr member
    · exact Or.inl ⟨key, member, named⟩

/-- The copy of a node refers to what the meetings become. -/
theorem mem_targets_rebuild {heap : Heap α} {address : α} {meetings : List (Meeting α)}
    {shown : List (String × HeapValue (Address α))}
    (shows : Shown (slots (heap.node address)) meetings shown) (target : Address α)
    : target ∈ (rebuild (heap.node address) shown).targets
      ↔ ∃ meeting ∈ meetings, toAddress meeting = target := by
  rw [← List.mem_map, ← shows.refs_eq]
  cases node : heap.node address with
  | array items => rfl
  | object properties prototype =>
      have distinct := heap.distinct address properties prototype node
      have keys := shows.keys
      rw [node, slots] at keys
      rw [← keys] at distinct
      exact mem_targets_assign distinct target

/-- No sensitive property of a copy shows its value. -/
theorem masked_rebuild {node : HeapNode α} {meetings : List (Meeting α)}
    {shown : List (String × HeapValue (Address α))} (shows : Shown (slots node) meetings shown)
    {properties : List (String × HeapValue (Address α))} {prototype : Option (Address α)}
    (rebuilt : rebuild node shown = .object properties prototype)
    : ∀ entry ∈ properties,
        entry.1 ∈ sensitiveLogKeys → entry.2 = .primitive (.text logRedactCensor) := by
  intro entry member sensitive
  cases node with
  | array items => cases rebuilt
  | object before _ =>
      cases rebuilt
      exact shows.masked entry (List.mem_filter.mp member).1 sensitive

/-- What is related to the second list has a partner in the first, by induction on both. -/
theorem exists_of_forall₂ {ι κ : Type} {related : ι → κ → Prop} {items : List ι} {others : List κ}
    (all : List.Forall₂ related items others)
    : ∀ other ∈ others, ∃ item ∈ items, related item other := by
  induction all with
  | nil => simp
  | cons one rest ih =>
      intro other member
      rcases List.mem_cons.mp member with rfl | later
      · exact ⟨_, List.mem_cons_self .., one⟩
      · obtain ⟨item, found, holds⟩ := ih other later
        exact ⟨item, List.mem_cons_of_mem _ found, holds⟩

variable [DecidableEq α]

namespace Rebuilt

variable {heap : Heap α} {value : HeapValue α} {shown : HeapValue (Address α)}
  {state : Redaction α} {meetings : List (Meeting α)} {visits : List (Visit α)}

/-- What is shown refers to what the meeting with the value becomes. -/
theorem root (rebuilt : Rebuilt heap value shown state meetings visits)
    : refs [shown] = meetings.map toAddress :=
  rebuilt.shows.refs_eq

/-- Each created object is the copy for a visit. -/
theorem origin (rebuilt : Rebuilt heap value shown state meetings visits) {address : α}
    {node : HeapNode (Address α)}
    (found : redactedNode? heap state (.copy address) = some node)
    : ∃ visit ∈ visits, visit.object = address ∧ Copied heap visit (address, node) := by
  obtain ⟨⟨key, made⟩, here, rfl⟩ := Option.map_eq_some_iff.mp found
  have named := List.find?_some here
  simp only [decide_eq_true_eq] at named
  subst named
  obtain ⟨visit, member, copied⟩ :=
    exists_of_forall₂ rebuilt.copied _ (List.mem_of_find?_eq_some here)
  exact ⟨visit, member, copied.1.symm, copied⟩

/-- No object is copied twice. -/
theorem distinct (rebuilt : Rebuilt heap value shown state meetings visits)
    : (state.created.map Prod.fst).Nodup := by
  have same : List.Forall₂ Eq (visits.map Visit.object) (state.created.map Prod.fst) := by
    rw [List.forall₂_map_left_iff, List.forall₂_map_right_iff]
    exact rebuilt.copied.imp (fun _ _ copied => copied.1.symm)
  rw [List.forall₂_eq_eq_eq] at same
  rw [← same]
  exact rebuilt.walk.nodup

/-- Each visit has its copy among the created objects. -/
theorem copy (rebuilt : Rebuilt heap value shown state meetings visits) {visit : Visit α}
    (member : visit ∈ visits)
    : ∃ node,
        redactedNode? heap state (.copy visit.object) = some node
        ∧ Copied heap visit (visit.object, node) := by
  obtain ⟨⟨key, node⟩, found, copied⟩ := exists_of_forall₂ rebuilt.copied.flip visit member
  obtain rfl : key = visit.object := copied.1
  refine ⟨node, ?_, copied⟩
  rw [redactedNode?, (find?_key rebuilt.distinct).mpr found, Option.map_some]

/-- A copy refers to what the meetings of its visit become. -/
theorem leads_copy (rebuilt : Rebuilt heap value shown state meetings visits) {visit : Visit α}
    (member : visit ∈ visits) {meeting : Meeting α} (met : meeting ∈ visit.met)
    : Leads (redactedNode? heap state) (.copy visit.object) (toAddress meeting) := by
  obtain ⟨node, found, _, slots, shows, rfl⟩ := rebuilt.copy member
  exact ⟨_, found, (mem_targets_rebuild shows _).mpr ⟨meeting, met, rfl⟩⟩

/-- A copy refers to nothing else. -/
theorem of_leads_copy (rebuilt : Rebuilt heap value shown state meetings visits) {address : α}
    {target : Address α} (leads : Leads (redactedNode? heap state) (.copy address) target)
    : ∃ meeting ∈ allMeetings meetings visits, toAddress meeting = target := by
  obtain ⟨node, found, isTarget⟩ := leads
  obtain ⟨visit, member, rfl, _, slots, shows, rfl⟩ := rebuilt.origin found
  obtain ⟨meeting, met, same⟩ := (mem_targets_rebuild shows target).mp isTarget
  exact ⟨meeting, List.mem_append_right _ (List.mem_flatMap.mpr ⟨visit, member, met⟩), same⟩

end Rebuilt

/-- The objects of the caller refer to each other as before. -/
theorem leads_caller {heap : Heap α} {state : Redaction α} {address : α} {target : Address α}
    : Leads (redactedNode? heap state) (.caller address) target
      ↔ ∃ object, target = .caller object ∧ Leads heap.node? address object := by
  constructor
  · intro led
    obtain ⟨node, found, isTarget⟩ := led
    cases found
    rw [HeapNode.targets_map, List.mem_map] at isTarget
    obtain ⟨object, isTarget, rfl⟩ := isTarget
    exact ⟨object, rfl, _, rfl, isTarget⟩
  · intro led
    obtain ⟨object, rfl, node, found, isTarget⟩ := led
    cases found
    refine ⟨_, rfl, ?_⟩
    rw [HeapNode.targets_map]
    exact List.mem_map_of_mem isTarget

/-- What is reachable in the caller's graph is reachable from the caller's object. -/
theorem reaches_caller {heap : Heap α} {state : Redaction α} {start object : α}
    (path : Relation.ReflTransGen (Leads heap.node?) start object)
    : Relation.ReflTransGen (Leads (redactedNode? heap state)) (.caller start)
        (.caller object) :=
  path.lift Address.caller (fun _ target leads => leads_caller.mpr ⟨target, rfl, leads⟩)

namespace Rebuilt

variable {heap : Heap α} {value : HeapValue α} {shown : HeapValue (Address α)}
  {state : Redaction α} {meetings : List (Meeting α)} {visits : List (Visit α)}

/-- An object that is met again is reachable from what is shown; witness: first meetings lead
to each visit.
-/
theorem exposes (rebuilt : Rebuilt heap value shown state meetings visits) {object : α}
    (again : .again object ∈ allMeetings meetings visits)
    : Reaches (redactedNode? heap state) shown (.caller object) := by
  have root : ∀ meeting ∈ meetings, shown = .ref (toAddress meeting) := by
    intro meeting met
    have member : toAddress meeting ∈ refs [shown] := by
      rw [rebuilt.root]
      exact List.mem_map_of_mem met
    exact (List.mem_singleton.mp (mem_refs.mp member)).symm
  rcases List.mem_append.mp again with outer | inner
  · exact ⟨_, root _ outer, .refl⟩
  · obtain ⟨visit, member, met⟩ := List.mem_flatMap.mp inner
    obtain ⟨start, first, path⟩ := rebuilt.walk.led visit member
    have copies
        : Relation.ReflTransGen (Leads (redactedNode? heap state)) (.copy start)
            (.copy visit.object) := by
      apply path.lift Address.copy
      intro source target led
      obtain ⟨other, found, rfl, met⟩ := led
      exact rebuilt.leads_copy found met
    exact ⟨_, root _ first, copies.tail (rebuilt.leads_copy member met)⟩

/-- An object of the caller is reachable from what is shown only through one that is met
again, by induction on the path.
-/
theorem exposed (rebuilt : Rebuilt heap value shown state meetings visits) {object : α}
    (reaches : Reaches (redactedNode? heap state) shown (.caller object))
    : ∃ start,
        .again start ∈ allMeetings meetings visits ∧ Reaches heap.node? (.ref start) object := by
  obtain ⟨origin, rfl, path⟩ := reaches
  have inv : ∀ address,
      Relation.ReflTransGen (Leads (redactedNode? heap state)) origin address
      → ∀ object,
          address = .caller object
          → ∃ start,
              .again start ∈ allMeetings meetings visits
              ∧ Reaches heap.node? (.ref start) object := by
    intro address path
    induction path with
    | refl =>
        intro object same
        subst same
        have member : .caller object ∈ meetings.map toAddress := by
          rw [← rebuilt.root]
          simp
        obtain ⟨meeting, met, same⟩ := List.mem_map.mp member
        cases meeting with
        | first other => cases same
        | again other =>
            cases same
            exact ⟨object, List.mem_append_left _ met, object, rfl, .refl⟩
    | @tail source target _ leads ih =>
        intro object same
        subst same
        cases source with
        | caller before =>
            obtain ⟨after, same, leads⟩ := leads_caller.mp leads
            cases same
            obtain ⟨start, again, _, same, path⟩ := ih before rfl
            exact ⟨start, again, _, same, path.tail leads⟩
        | copy before =>
            obtain ⟨meeting, met, same⟩ := rebuilt.of_leads_copy leads
            cases meeting with
            | first other => cases same
            | again other =>
                cases same
                exact ⟨object, met, object, rfl, .refl⟩
  exact inv _ path object rfl

end Rebuilt
/-- Everything shown is masked exactly if what is met again is. -/
theorem Rebuilt.masked_iff {heap : Heap α} {value : HeapValue α} {shown : HeapValue (Address α)}
    {state : Redaction α} {meetings : List (Meeting α)} {visits : List (Visit α)}
    (rebuilt : Rebuilt heap value shown state meetings visits)
    : Masked (redactedNode? heap state) shown
      ↔ ∀ start,
          .again start ∈ allMeetings meetings visits → Masked heap.node? (.ref start) := by
  constructor
  · intro masked start again address properties prototype key held reaches found member sensitive
    obtain ⟨_, same, path⟩ := reaches
    cases same
    obtain ⟨origin, shownOrigin, leads⟩ := rebuilt.exposes again
    have node : heap.node address = .object properties prototype := Option.some.inj found
    have blank :=
      masked (.caller address)
        (properties.map (fun entry => (entry.1, entry.2.map .caller))) (prototype.map .caller)
        key (held.map .caller) ⟨origin, shownOrigin, leads.trans (reaches_caller path)⟩
        (by rw [redactedNode?, node, HeapNode.map]) (List.mem_map.mpr ⟨_, member, rfl⟩) sensitive
    cases held with
    | ref address => cases blank
    | primitive value => simpa [HeapValue.map] using blank
  · intro masked address properties prototype key held reaches found member sensitive
    cases address with
    | copy object =>
        obtain ⟨visit, _, _, _, slots, shows, same⟩ := rebuilt.origin found
        exact masked_rebuild shows same.symm _ member sensitive
    | caller object =>
        obtain ⟨start, again, path⟩ := rebuilt.exposed reaches
        have mapped : (heap.node object).map Address.caller = .object properties prototype :=
          Option.some.inj found
        cases node : heap.node object with
        | array items =>
            rw [node] at mapped
            cases mapped
        | object before parent =>
            rw [node] at mapped
            cases mapped
            obtain ⟨⟨name, value⟩, earlier, same⟩ := List.mem_map.mp member
            cases same
            have blank :=
              masked start again object before parent name value path
                (by rw [Heap.node?, node]) earlier sensitive
            rw [blank, HeapValue.map]

end SharedKernel.Logger
