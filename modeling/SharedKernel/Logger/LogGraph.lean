import SharedKernel.Logger.LogValue
import SharedKernel.Logger.Masking

/-! Log arguments as trees and as object graphs: where a tree is laid out in a graph, the
redaction of the graph is laid out as the redaction of the tree.
-/

namespace SharedKernel.Logger.LogValue

open Foundation Js

-----------------------------------------------------------------------------------------
-- Trees in graphs
-----------------------------------------------------------------------------------------

section Layout

variable {β : Type}

mutual

/-- The graph has the tree at the value, and each object of the tree in a place of its identity.
What an error or a date has besides its enumerable properties is not in the graph.
-/
inductive LaidOut (node? : β → Option (HeapNode β)) (place : Nat → β → Prop)
    : LogValue → HeapValue β → Prop
  | primitive (value : Primitive) : LaidOut node? place (.primitive value) (.primitive value)
  | array {identity items address values} (placed : place identity address)
    (node : node? address = some (.array values))
    (inside
      : PropertiesLaidOut node? place (items.map (fun item => ("", item))) (slots (.array values)))
    : LaidOut node? place (.array identity items) (.ref address)
  | object {identity properties address entries prototype} (placed : place identity address)
    (node : node? address = some (.object entries prototype))
    (inside : PropertiesLaidOut node? place properties entries)
    : LaidOut node? place (.object identity properties) (.ref address)
  | error {identity own properties address entries prototype} (placed : place identity address)
    (node : node? address = some (.object entries prototype))
    (inside : PropertiesLaidOut node? place properties entries)
    : LaidOut node? place (.error identity own properties) (.ref address)
  | date {identity time address prototype} (placed : place identity address)
    (node : node? address = some (.object [] prototype))
    : LaidOut node? place (.date identity time) (.ref address)

inductive PropertiesLaidOut (node? : β → Option (HeapNode β)) (place : Nat → β → Prop)
    : List (String × LogValue) → List (String × HeapValue β) → Prop
  | nil : PropertiesLaidOut node? place [] []
  | cons {key value shown properties entries} (first : LaidOut node? place value shown)
    (rest : PropertiesLaidOut node? place properties entries)
    : PropertiesLaidOut node? place ((key, value) :: properties) ((key, shown) :: entries)

end

variable {node? : β → Option (HeapNode β)} {place : Nat → β → Prop}
  {properties : List (String × LogValue)} {entries : List (String × HeapValue β)}

/-- What is assigned to a new object is laid out as what is assigned in the tree, by induction on
the properties.
-/
theorem PropertiesLaidOut.assigned (laid : PropertiesLaidOut node? place properties entries)
    : PropertiesLaidOut node? place (assigned properties)
        (entries.filter (fun entry => entry.1 ≠ "__proto__")) := by
  induction properties generalizing entries with
  | nil =>
      cases laid
      exact .nil
  | cons property properties ih =>
      cases laid with
      | @cons key _ _ _ _ first rest =>
          by_cases proto : key = "__proto__"
          · simpa [LogValue.assigned, proto] using ih rest
          · simpa [LogValue.assigned, proto] using PropertiesLaidOut.cons first (ih rest)

end Layout

-----------------------------------------------------------------------------------------
-- The walk of a tree
-----------------------------------------------------------------------------------------

section Walk

variable {α : Type} [DecidableEq α]

/-- Each identity has one place, of its own. -/
structure Placing (place : Nat → α → Prop) : Prop where
  one : ∀ identity address other, place identity address → place identity other → other = address
  own : ∀ identity other address, place identity address → place other address → other = identity

/-- After a redaction, the places of an object are where it was and where its copy is. -/
def shownPlace (place : Nat → α → Prop) (identity : Nat) (address : Address α) : Prop :=
  ∃ home, place identity home ∧ (address = .caller home ∨ address = .copy home)

/-- The objects that have been seen in the tree are those that have been seen in the graph. -/
def Agree (place : Nat → α → Prop) (seen : List Nat) (found : Finset α) : Prop :=
  ∀ identity address, place identity address → (identity ∈ seen ↔ address ∈ found)

variable {heap : Heap α} {state : Redaction α} {place : Nat → α → Prop} {all : List (Visit α)}
  {seen : List Nat} {found : Finset α}

/-- They agree on what has just been entered. -/
theorem Agree.cons (agree : Agree place seen found) (placing : Placing place) {identity : Nat}
    {address : α} (placed : place identity address)
    : Agree place (identity :: seen) (insert address found) := by
  intro other home placed'
  rw [List.mem_cons, Finset.mem_insert, agree other home placed']
  refine or_congr_left ⟨?_, ?_⟩
  · rintro rfl
    exact placing.one _ _ _ placed placed'
  · rintro rfl
    exact placing.own _ _ _ placed placed'

variable (heap state place) in
/-- The redaction has left the value as it is. -/
def LeftAlone (value : LogValue) : Prop :=
  ∀ shown,
    LaidOut heap.node? place value shown
    → LaidOut (redactedNode? heap state) (shownPlace place) value (shown.map .caller)

omit [DecidableEq α] in
/-- An object of the caller has its place. -/
theorem shownPlace_caller {identity : Nat} {address : α} (placed : place identity address)
    : shownPlace place identity (.caller address) :=
  ⟨address, placed, Or.inl rfl⟩

omit [DecidableEq α] in
/-- A copy has the place of what it is made for. -/
theorem shownPlace_copy {identity : Nat} {address : α} (placed : place identity address)
    : shownPlace place identity (.copy address) :=
  ⟨address, placed, Or.inr rfl⟩

/-- An object of the caller is the one it was. -/
theorem redactedNode?_caller {address : α} {node : HeapNode α}
    (same : heap.node? address = some node)
    : redactedNode? heap state (.caller address) = some (node.map .caller) := by
  rw [redactedNode?, Option.some.inj same]

/-- Properties are left as they are where their values are, by induction on them. -/
theorem properties_leftAlone {properties : List (String × LogValue)}
    (each : ∀ entry ∈ properties, LeftAlone heap state place entry.2)
    {entries : List (String × HeapValue α)}
    (laid : PropertiesLaidOut heap.node? place properties entries)
    : PropertiesLaidOut (redactedNode? heap state) (shownPlace place) properties
        (entries.map (fun entry => (entry.1, entry.2.map .caller))) := by
  induction properties generalizing entries with
  | nil =>
      cases laid
      exact .nil
  | cons property properties ih =>
      rw [List.forall_mem_cons] at each
      cases laid with
      | cons first rest => exact .cons (each.1 _ first) (ih each.2 rest)

/-- What the redaction does not copy is left as it is, by induction on the value. -/
theorem leftAlone (value : LogValue) : LeftAlone heap state place value := by
  induction value using induct with
  | onPrimitive value =>
      intro shown laid
      cases laid
      exact .primitive value
  | onArray identity items ih =>
      intro shown laid
      cases laid with
      | @array _ _ address values placed node inside =>
          refine .array (shownPlace_caller placed) (redactedNode?_caller node) ?_
          have each
              : ∀ entry ∈ items.map (fun item => ("", item)),
                  LeftAlone heap state place entry.2 := by
            simpa using ih
          have unchanged := properties_leftAlone each inside
          simp only [slots, List.map_map] at unchanged ⊢
          exact unchanged
  | onObject identity properties ih =>
      intro shown laid
      cases laid with
      | object placed node inside =>
          exact
            .object (shownPlace_caller placed) (redactedNode?_caller node)
              (properties_leftAlone ih inside)
  | onError identity own properties ih =>
      intro shown laid
      cases laid with
      | error placed node inside =>
          exact
            .error (shownPlace_caller placed) (redactedNode?_caller node)
              (properties_leftAlone ih inside)
  | onDate identity time =>
      intro shown laid
      cases laid with
      | date placed node => exact .date (shownPlace_caller placed) (redactedNode?_caller node)

-----------------------------------------------------------------------------------------
-- The redaction of a tree
-----------------------------------------------------------------------------------------

variable (heap state all place) in
/-- The redactions of a tree and of its value in the graph, from what they have seen, go on alike,
and show the same, given the copies that have been made in all.
-/
def AlikeFrom (value : LogValue) (shown : HeapValue α) (seen : List Nat) (found : Finset α)
    : Prop :=
  ∃ meetings visits later,
    DepthFirst (walked heap) found (refs [shown]) meetings visits later
    ∧ Agree place (value.deepRedact seen).2 later
    ∧ (visits ⊆ all
      → ∀ key result,
          key ∉ sensitiveLogKeys
          → Shown [(key, shown)] meetings [(key, result)]
          → LaidOut (redactedNode? heap state) (shownPlace place) (value.deepRedact seen).1 result)

variable (heap state all place) in
/-- They do so wherever the tree is laid out. -/
def Alike (value : LogValue) : Prop :=
  ∀ shown seen found,
    LaidOut heap.node? place value shown
    → Agree place seen found
    → AlikeFrom heap state place all value shown seen found

omit [DecidableEq α] in
/-- A plain property is shown as its value is, and before the others. -/
theorem shown_cons_plain {key : String} {value : HeapValue α}
    {rest : List (String × HeapValue α)} {meetings further : List (Meeting α)}
    {shown : List (String × HeapValue (Address α))} (plain : key ∉ sensitiveLogKeys)
    (met : meetings.map Meeting.object = refs [value])
    (metRest : further.map Meeting.object = openRefs rest)
    (all : Shown ((key, value) :: rest) (meetings ++ further) shown)
    : ∃ result others,
        shown = (key, result) :: others
        ∧ Shown [(key, value)] meetings [(key, result)]
        ∧ Shown rest further others := by
  have here : meetings.map Meeting.object = openRefs [(key, value)] := by
    rw [openRefs_plain value [] plain, met]
    simp [openRefs]
  obtain ⟨one, first⟩ := Shown.exists_shown here
  obtain ⟨others, second⟩ := Shown.exists_shown metRest
  have keys := first.keys
  obtain ⟨⟨key', result⟩, rfl, same⟩ : ∃ entry, one = [entry] ∧ entry.1 = key := by
    simpa [List.map_eq_cons_iff] using keys
  obtain rfl : key' = key := same
  exact ⟨result, others, (first.append second).unique all, first, second⟩

/-- Properties are redacted alike where their values are, by induction on them. -/
theorem properties_alike {properties : List (String × LogValue)}
    (each : ∀ entry ∈ properties, Alike heap state place all entry.2)
    {entries : List (String × HeapValue α)}
    (laid : PropertiesLaidOut heap.node? place properties entries)
    (agree : Agree place seen found)
    : ∃ meetings visits later,
        DepthFirst (walked heap) found (openRefs entries) meetings visits later
        ∧ Agree place (redactProperties properties seen).2 later
        ∧ (visits ⊆ all
          → ∀ shown,
              Shown entries meetings shown
              → PropertiesLaidOut (redactedNode? heap state) (shownPlace place)
                  (redactProperties properties seen).1 shown) := by
  induction properties generalizing entries seen found with
  | nil =>
      cases laid
      refine ⟨[], [], found, .nil _, agree, fun _ shown shows => ?_⟩
      cases shows
      exact .nil
  | cons property properties ih =>
      rw [List.forall_mem_cons] at each
      cases laid with
      | @cons key value held _ entries first rest =>
          by_cases sensitive : key ∈ sensitiveLogKeys
          · obtain ⟨meetings, visits, later, walk, agreed, laidOut⟩ := ih each.2 rest agree
            simp only [redactProperties, if_pos sensitive, openRefs_secret _ _ sensitive]
            refine ⟨meetings, visits, later, walk, agreed, fun within shown shows => ?_⟩
            obtain ⟨others, shows'⟩ := Shown.exists_shown walk.meetings_objects
            rw [Shown.unique (.secret sensitive shows') shows]
            exact .cons (.primitive _) (laidOut within others shows')
          · obtain ⟨meetings, visits, between, walk, agreed, laidOut⟩ :=
              each.1 held seen found first agree
            obtain ⟨further, more, later, onward, agreed', laidOut'⟩ := ih each.2 rest agreed
            simp only [redactProperties, if_neg sensitive, openRefs_plain _ _ sensitive]
            refine ⟨_, _, later, walk.append onward, agreed', fun within shown shows => ?_⟩
            obtain ⟨result, others, rfl, shows, shows'⟩ :=
              shown_cons_plain sensitive walk.meetings_objects onward.meetings_objects shows
            have own := laidOut (fun _ member => within (List.mem_append_left _ member))
            have other := laidOut' (fun _ member => within (List.mem_append_right _ member))
            exact .cons (own key result sensitive shows) (other others shows')

variable (heap state all) in
/-- Every visit has its copy. -/
def AllCopied : Prop :=
  ∀ visit ∈ all,
    ∃ node,
      redactedNode? heap state (.copy visit.object) = some node
      ∧ Copied heap visit (visit.object, node)

/-- An object that has been seen is shown as it is. -/
theorem alike_seen {identity : Nat} {address : α} {value : LogValue}
    (placed : place identity address) (met : identity ∈ seen)
    (laid : LaidOut heap.node? place value (.ref address)) (agree : Agree place seen found)
    (redacted : value.deepRedact seen = (value, seen))
    : AlikeFrom heap state place all value (.ref address) seen found := by
  rw [AlikeFrom, redacted]
  refine
    ⟨[.again address], [], found, .again ((agree _ _ placed).mp met) (.nil _), agree,
      fun _ key result plain shows => ?_⟩
  have same := Shown.unique (.ref (.again address) plain .nil) shows
  cases same
  exact leftAlone value _ laid

/-- An object that has not been seen becomes a copy, whose properties are redacted alike. -/
theorem alike_entered (placing : Placing place) (copied : AllCopied heap state all)
    {identity : Nat} {address : α} {properties : List (String × LogValue)}
    (placed : place identity address) (fresh : identity ∉ seen)
    (each : ∀ entry ∈ properties, Alike heap state place all entry.2)
    (inside
      : PropertiesLaidOut heap.node? place properties (slots (heap.node address)))
    (agree : Agree place seen found)
    : ∃ visits later,
        DepthFirst (walked heap) found (refs [.ref address]) [.first address] visits later
        ∧ Agree place (redactProperties properties (identity :: seen)).2 later
        ∧ (visits ⊆ all
          → ∃ shown,
              redactedNode? heap state (.copy address) = some (rebuild (heap.node address) shown)
              ∧ shown.map Prod.fst = (slots (heap.node address)).map Prod.fst
              ∧ PropertiesLaidOut (redactedNode? heap state) (shownPlace place)
                  (redactProperties properties (identity :: seen)).1 shown) := by
  obtain ⟨meetings, visits, later, walk, agreed, laidOut⟩ :=
    properties_alike each inside (agree.cons placing placed)
  have new : address ∉ found := fun old => fresh ((agree _ _ placed).mpr old)
  refine ⟨_, later, .first new walk (.nil _), agreed, fun within => ?_⟩
  have visited : ⟨address, meetings⟩ ∈ all := within (by simp)
  obtain ⟨node, found, _, shown, shows, rfl⟩ := copied _ visited
  exact
    ⟨shown, found, shows.keys,
      laidOut (fun _ member => within (List.mem_append_left _ member)) shown shows⟩

/-- An object of the graph is redacted alike, whatever the tree has for it, if the redaction of
the tree makes an object of its enumerable properties.
-/
theorem alike_object (placing : Placing place) (copied : AllCopied heap state all)
    {identity : Nat} {address : α} {value : LogValue} {properties : List (String × LogValue)}
    {entries : List (String × HeapValue α)} {prototype : Option α}
    (placed : place identity address)
    (node : heap.node? address = some (.object entries prototype))
    (each : ∀ entry ∈ properties, Alike heap state place all entry.2)
    (inside : PropertiesLaidOut heap.node? place properties entries)
    (laid : LaidOut heap.node? place value (.ref address)) (agree : Agree place seen found)
    (old : identity ∈ seen → value.deepRedact seen = (value, seen))
    (new
      : identity ∉ seen
        → value.deepRedact seen
          = (.object identity (assigned (redactProperties properties (identity :: seen)).1),
              (redactProperties properties (identity :: seen)).2))
    : AlikeFrom heap state place all value (.ref address) seen found := by
  by_cases met : identity ∈ seen
  · exact alike_seen placed met laid agree (old met)
  · have held : heap.node address = .object entries prototype := Option.some.inj node
    have inside' : PropertiesLaidOut heap.node? place properties (slots (heap.node address)) := by
      rwa [held]
    obtain ⟨visits, later, walk, agreed, copy⟩ :=
      alike_entered placing copied placed met each inside' agree
    rw [AlikeFrom, new met]
    refine ⟨_, visits, later, walk, agreed, fun within key result plain shows => ?_⟩
    have same := Shown.unique (.ref (.first address) plain .nil) shows
    cases same
    obtain ⟨shown, made, _, laidOut⟩ := copy within
    rw [held] at made
    exact .object (shownPlace_copy placed) made laidOut.assigned

/-- Items are redacted as properties without a name, by induction on them. -/
theorem redactProperties_unnamed (items : List LogValue) (seen : List Nat)
    : redactProperties (items.map (fun item => ("", item))) seen
      = ((redactItems items seen).1.map (fun item => ("", item)), (redactItems items seen).2) := by
  induction items generalizing seen with
  | nil => rfl
  | cons item rest ih =>
      simp only [List.map_cons, redactProperties, redactItems, if_neg unnamed_plain, ih]

omit [DecidableEq α] in
/-- Slots that are keyed as those of an array are those of an array. -/
theorem slots_unnamed {values : List (HeapValue α)} {shown : List (String × HeapValue (Address α))}
    (keys : shown.map Prod.fst = (slots (.array values)).map Prod.fst)
    : slots (.array (shown.map Prod.snd)) = shown := by
  have unnamed : ∀ entry ∈ shown, entry.1 = "" := by
    intro entry member
    have among : entry.1 ∈ (slots (.array values)).map Prod.fst := by
      rw [← keys]
      exact List.mem_map_of_mem member
    simp only [slots, List.map_map, List.mem_map] at among
    obtain ⟨_, _, same⟩ := among
    exact same.symm
  have same : ∀ entry ∈ shown, ("", entry.2) = entry :=
    fun entry member => Prod.ext (unnamed entry member).symm rfl
  rw [slots, List.map_map]
  exact (List.map_congr_left same).trans (List.map_id shown)

/-- The redactions go on alike, by induction on the tree. -/
theorem alike (placing : Placing place) (copied : AllCopied heap state all) (value : LogValue)
    : Alike heap state place all value := by
  induction value using induct with
  | onPrimitive value =>
      intro shown seen found laid agree
      cases laid
      refine ⟨[], [], found, .nil _, agree, fun _ key result plain shows => ?_⟩
      have same := Shown.unique (.primitive plain .nil) shows
      cases same
      exact .primitive value
  | onArray identity items ih =>
      intro shown seen found laid agree
      cases laid with
      | @array _ _ address values placed node inside =>
          by_cases met : identity ∈ seen
          · exact
              alike_seen placed met (.array placed node inside) agree
                (by rw [deepRedact, if_pos met])
          · have held : heap.node address = .array values := Option.some.inj node
            rw [← held] at inside
            have each
                : ∀ entry ∈ items.map (fun item => ("", item)),
                    Alike heap state place all entry.2 := by
              simpa using ih
            obtain ⟨visits, later, walk, agreed, copy⟩ :=
              alike_entered placing copied placed met each inside agree
            rw [redactProperties_unnamed] at agreed copy
            rw [AlikeFrom, deepRedact, if_neg met]
            refine ⟨_, visits, later, walk, agreed, fun within key result plain shows => ?_⟩
            have same := Shown.unique (.ref (.first address) plain .nil) shows
            cases same
            obtain ⟨shown, made, keys, laidOut⟩ := copy within
            rw [held] at made keys
            refine .array (shownPlace_copy placed) made ?_
            rwa [slots_unnamed keys]
  | onObject identity properties ih =>
      intro shown seen found laid agree
      cases laid with
      | object placed node inside =>
          exact
            alike_object placing copied placed node ih inside (.object placed node inside) agree
              (fun met => by rw [deepRedact, if_pos met])
              (fun met => by rw [deepRedact, if_neg met])
  | onError identity own properties ih =>
      intro shown seen found laid agree
      cases laid with
      | error placed node inside =>
          exact
            alike_object placing copied placed node ih inside (.error placed node inside) agree
              (fun met => by rw [deepRedact, if_pos met])
              (fun met => by rw [deepRedact, if_neg met])
  | onDate identity time =>
      intro shown seen found laid agree
      cases laid with
      | date placed node =>
          exact
            alike_object placing copied placed node (by simp) .nil (.date placed node) agree
              (fun met => by rw [deepRedact, if_pos met])
              (fun met => by rw [deepRedact, if_neg met]; rfl)

end Walk

/-- The redaction of a graph in which a tree is laid out, if it does not throw, lays out the
redaction of the tree; witness: the walk of the tree, which is the only one.
-/
theorem deepRedact_laidOut {α : Type} [Fintype α] [DecidableEq α] {objects : CallerObjects α}
    {place : Nat → α → Prop} (placing : Placing place) {root : LogValue} {value : HeapValue α}
    (laid : LaidOut objects.heap.node? place root value) {shown : HeapValue (Address α)}
    {state : Redaction α} (redacted : Logger.deepRedact objects value = (.ok shown, state))
    : LaidOut (redactedNode? objects.heap state) (shownPlace place) (root.deepRedact []).1
        shown := by
  obtain ⟨meetings, visits, rebuilt⟩ := rebuilt_of_deepRedact redacted
  have copied : AllCopied objects.heap state visits := fun visit member => rebuilt.copy member
  have nothing : Agree place [] ∅ := fun _ _ _ => by simp
  obtain ⟨meetings', visits', later, walk, _, laidOut⟩ :=
    alike placing copied root value [] ∅ laid nothing
  obtain ⟨rfl, rfl, _⟩ := rebuilt.walk.unique walk
  exact laidOut (List.Subset.refl _) "" shown unnamed_plain rebuilt.shows

-----------------------------------------------------------------------------------------
-- The graph of a tree
-----------------------------------------------------------------------------------------

mutual

/-- The objects of a tree with their identities. -/
def parts : LogValue → List (Nat × LogValue)
  | primitive _ => []
  | array identity items => (identity, array identity items) :: itemParts items
  | object identity properties => (identity, object identity properties) :: propertyParts properties
  | error identity own properties =>
      (identity, error identity own properties) :: propertyParts properties
  | date identity time => [(identity, date identity time)]

def itemParts : List LogValue → List (Nat × LogValue)
  | [] => []
  | item :: rest => parts item ++ itemParts rest

def propertyParts : List (String × LogValue) → List (Nat × LogValue)
  | [] => []
  | (_, value) :: rest => parts value ++ propertyParts rest

end

theorem itemParts_eq (items : List LogValue) : itemParts items = items.flatMap parts := by
  induction items with
  | nil => rfl
  | cons item rest ih => rw [itemParts, ih, List.flatMap_cons]

theorem propertyParts_eq (properties : List (String × LogValue))
    : propertyParts properties = properties.flatMap (fun entry => parts entry.2) := by
  induction properties with
  | nil => rfl
  | cons entry rest ih => rw [propertyParts, ih, List.flatMap_cons]

theorem itemIdentities_eq (items : List LogValue)
    : itemIdentities items = items.flatMap identities := by
  induction items with
  | nil => rfl
  | cons item rest ih => rw [itemIdentities, ih, List.flatMap_cons]

theorem propertyIdentities_eq (properties : List (String × LogValue))
    : propertyIdentities properties = properties.flatMap (fun entry => identities entry.2) := by
  induction properties with
  | nil => rfl
  | cons entry rest ih => rw [propertyIdentities, ih, List.flatMap_cons]

/-- Each object is listed with its identity, by induction on the tree. -/
theorem parts_fst (value : LogValue) : value.parts.map Prod.fst = value.identities := by
  induction value using induct with
  | onPrimitive value => rfl
  | onArray identity items ih =>
      rw [parts, identities, itemParts_eq, itemIdentities_eq, List.map_cons, List.map_flatMap]
      exact congrArg _ (List.flatMap_congr ih)
  | onObject identity properties ih | onError identity own properties ih =>
      rw [parts, identities, propertyParts_eq, propertyIdentities_eq, List.map_cons,
        List.map_flatMap]
      exact congrArg _ (List.flatMap_congr ih)
  | onDate identity time => rfl

/-- The keys of an object. -/
def keys : LogValue → List String
  | object _ properties | error _ _ properties => properties.map Prod.fst
  | primitive _ | array _ _ | date _ _ => []

/-- No object of the tree has a key twice. -/
def Keyed (root : LogValue) : Prop :=
  ∀ part ∈ root.parts, part.2.keys.Nodup

section Graph

variable (bound : Nat) [NeZero bound]

/-- The value of a tree whose objects are at their identities. -/
def top : LogValue → HeapValue (Fin bound)
  | primitive value => .primitive value
  | array identity _ | object identity _ | error identity _ _ | date identity _ =>
      .ref (Fin.ofNat bound identity)

/-- The object that a tree is at its root. -/
def topNode : LogValue → HeapNode (Fin bound)
  | array _ items => .array (items.map (top bound))
  | object _ properties | error _ _ properties =>
      .object (properties.map (fun entry => (entry.1, top bound entry.2))) none
  | primitive _ | date _ _ => .object [] none

theorem topNode_keys {value : LogValue} {entries : List (String × HeapValue (Fin bound))}
    {prototype : Option (Fin bound)} (same : topNode bound value = .object entries prototype)
    : entries.map Prod.fst = value.keys := by
  cases value with
  | array identity items => cases same
  | object identity properties | error identity own properties =>
      cases same
      simp [keys]
  | primitive value | date identity time =>
      cases same
      rfl

/-- The graph of a tree. -/
def graph (root : LogValue) (keyed : root.Keyed) : Heap (Fin bound) where
  node address :=
    let part? := root.parts.find? (fun part => part.1 = address.val)
    (part?.map (fun part => topNode bound part.2)).getD (.object [] none)
  distinct := by
    intro address entries prototype same
    cases found : root.parts.find? (fun part => part.1 = address.val) with
    | none =>
        rw [found] at same
        cases same
        exact List.nodup_nil
    | some part =>
        rw [found] at same
        rw [topNode_keys bound same]
        exact keyed part (List.mem_of_find?_eq_some found)

/-- The address of an identity is the identity. -/
def atIdentity (identity : Nat) (address : Fin bound) : Prop :=
  address.val = identity

omit [NeZero bound] in
theorem placing_atIdentity : Placing (atIdentity bound) where
  one := by
    rintro _ address other rfl same
    exact Fin.ext same
  own := by
    rintro _ _ address rfl rfl
    rfl

variable {bound} {root : LogValue} (keyed : root.Keyed)

/-- Each object of the tree is in its graph. -/
theorem graph_node? (distinct : root.identities.Nodup)
    (within : ∀ identity ∈ root.identities, identity < bound) {identity : Nat} {value : LogValue}
    (part : (identity, value) ∈ root.parts)
    : atIdentity bound identity (Fin.ofNat bound identity)
      ∧ (graph bound root keyed).node? (Fin.ofNat bound identity) = some (topNode bound value) := by
  have among : identity ∈ root.identities := by
    rw [← parts_fst]
    exact List.mem_map_of_mem part
  have val : (Fin.ofNat bound identity).val = identity := Nat.mod_eq_of_lt (within identity among)
  have own : (root.parts.map Prod.fst).Nodup := by
    rw [parts_fst]
    exact distinct
  refine ⟨val, ?_⟩
  simp only [Heap.node?, graph, val, (find?_key own).mpr part]
  rfl

/-- Properties are laid out where their values are, by induction on them. -/
theorem properties_laidOut {properties : List (String × LogValue)}
    (each
      : ∀ entry ∈ properties,
          entry.2.parts ⊆ root.parts
          → LaidOut (graph bound root keyed).node? (atIdentity bound) entry.2 (top bound entry.2))
    (inside : properties.flatMap (fun entry => entry.2.parts) ⊆ root.parts)
    : PropertiesLaidOut (graph bound root keyed).node? (atIdentity bound) properties
        (properties.map (fun entry => (entry.1, top bound entry.2))) := by
  induction properties with
  | nil => exact .nil
  | cons entry rest ih =>
      rw [List.flatMap_cons, List.append_subset] at inside
      rw [List.forall_mem_cons] at each
      exact .cons (each.1 inside.1) (ih each.2 inside.2)

/-- A tree whose objects have an identity and whose properties a key of their own is laid out in
its graph, by induction on the tree.
-/
theorem laidOut_graph (distinct : root.identities.Nodup)
    (within : ∀ identity ∈ root.identities, identity < bound)
    : LaidOut (graph bound root keyed).node? (atIdentity bound) root (top bound root) := by
  suffices all
      : ∀ value : LogValue,
          value.parts ⊆ root.parts
          → LaidOut (graph bound root keyed).node? (atIdentity bound) value (top bound value) from
    all root (List.Subset.refl _)
  intro value
  induction value using induct with
  | onPrimitive value => exact fun _ => .primitive value
  | onArray identity items ih =>
      intro inside
      rw [parts, List.cons_subset, itemParts_eq] at inside
      obtain ⟨placed, node⟩ := graph_node? keyed distinct within inside.1
      refine .array placed node ?_
      have unnamed := @properties_laidOut bound _ root keyed (items.map (fun item => ("", item)))
        (by simpa using ih) (by simpa [List.flatMap_map] using inside.2)
      simpa [slots, Function.comp_def] using unnamed
  | onObject identity properties ih =>
      intro inside
      rw [parts, List.cons_subset, propertyParts_eq] at inside
      obtain ⟨placed, node⟩ := graph_node? keyed distinct within inside.1
      exact .object placed node (properties_laidOut keyed ih inside.2)
  | onError identity own properties ih =>
      intro inside
      rw [parts, List.cons_subset, propertyParts_eq] at inside
      obtain ⟨placed, node⟩ := graph_node? keyed distinct within inside.1
      exact .error placed node (properties_laidOut keyed ih inside.2)
  | onDate identity time =>
      intro inside
      have part := inside (List.mem_singleton_self _)
      obtain ⟨placed, node⟩ := graph_node? keyed distinct within part
      exact .date placed node

/-- The redaction of the graph of a tree comes to an end, and lays out the redaction of the tree.
-/
theorem deepRedact_graph (distinct : root.identities.Nodup)
    (within : ∀ identity ∈ root.identities, identity < bound)
    : ∃ shown state,
        Logger.deepRedact (.plain (graph bound root keyed)) (top bound root) = (.ok shown, state)
        ∧ LaidOut (redactedNode? (graph bound root keyed) state) (shownPlace (atIdentity bound))
            (root.deepRedact []).1 shown := by
  have yielding : (CallerObjects.plain (graph bound root keyed)).Yielding :=
    ⟨fun _ => rfl, fun _ _ => rfl⟩
  rcases deepRedact_cases (.plain (graph bound root keyed)) (top bound root) with
    ⟨obstructed, _⟩ | ⟨_, shown, state, _, _, redacted, _⟩
  · exact absurd obstructed (not_obstructed_yielding yielding _)
  · exact
      ⟨shown, state, redacted,
        deepRedact_laidOut (placing_atIdentity bound) (laidOut_graph keyed distinct within)
          redacted⟩

end Graph

end SharedKernel.Logger.LogValue
