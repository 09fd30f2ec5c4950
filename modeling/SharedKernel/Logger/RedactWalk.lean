import SharedKernel.Foundation.DepthFirst
import SharedKernel.Logger.Redact

/-! The redaction of a value is a depth-first walk with one set of seen objects: the first
meeting with an object becomes a copy of it, and every later one the object itself.
-/

namespace SharedKernel.Logger

open Foundation Js

variable {α : Type}

/-- The properties of an object; array items are properties without a name. -/
def slots {β : Type} : HeapNode β → List (String × HeapValue β)
  | .object properties _ => properties
  | .array items => items.map (fun item => ("", item))

/-- The objects that the slots refer to, those under sensitive keys left out. -/
def openRefs (slots : List (String × HeapValue α)) : List α :=
  refs ((slots.filter (fun entry => entry.1 ∉ sensitiveLogKeys)).map Prod.snd)

theorem openRefs_secret {key : String} (value : HeapValue α) (rest : List (String × HeapValue α))
    (sensitive : key ∈ sensitiveLogKeys)
    : openRefs ((key, value) :: rest) = openRefs rest := by
  simp [openRefs, sensitive]

theorem openRefs_plain {key : String} (value : HeapValue α) (rest : List (String × HeapValue α))
    (plain : key ∉ sensitiveLogKeys)
    : openRefs ((key, value) :: rest) = refs [value] ++ openRefs rest := by
  simp only [openRefs, plain, not_false_eq_true, decide_true, List.filter_cons_of_pos,
    List.map_cons]
  exact refs_append [value] _

theorem openRefs_append (entries more : List (String × HeapValue α))
    : openRefs (entries ++ more) = openRefs entries ++ openRefs more := by
  simp [openRefs]

theorem mem_openRefs {entries : List (String × HeapValue α)} {address : α}
    : address ∈ openRefs entries
      ↔ ∃ key, key ∉ sensitiveLogKeys ∧ (key, .ref address) ∈ entries := by
  simp only [openRefs, mem_refs, List.mem_map, List.mem_filter, decide_eq_true_eq, Prod.exists,
    exists_eq_right]
  constructor
  · intro found
    obtain ⟨key, member, plain⟩ := found
    exact ⟨key, plain, member⟩
  · intro found
    obtain ⟨key, plain, member⟩ := found
    exact ⟨key, member, plain⟩

/-- The keys of array items are not sensitive. -/
theorem unnamed_plain : "" ∉ sensitiveLogKeys := by decide

/-- The objects that a redaction goes on to from an object. -/
def walked (heap : Heap α) (address : α) : List α :=
  openRefs (slots (heap.node address))

/-- What a meeting becomes. -/
def toAddress : Meeting α → Address α
  | .first address => .copy address
  | .again address => .caller address

/-- The slots as they are shown, given the meetings with the objects that they refer to. -/
inductive Shown
    : List (String × HeapValue α) → List (Meeting α) → List (String × HeapValue (Address α)) → Prop
  | nil : Shown [] [] []
  | secret {key value slots meetings shown} (sensitive : key ∈ sensitiveLogKeys)
    (rest : Shown slots meetings shown)
    : Shown ((key, value) :: slots) meetings
        ((key, .primitive (.text logRedactCensor)) :: shown)
  | primitive {key value slots meetings shown} (plain : key ∉ sensitiveLogKeys)
    (rest : Shown slots meetings shown)
    : Shown ((key, .primitive value) :: slots) meetings ((key, .primitive value) :: shown)
  | ref {key slots meetings shown} (meeting : Meeting α) (plain : key ∉ sensitiveLogKeys)
    (rest : Shown slots meetings shown)
    : Shown ((key, .ref meeting.object) :: slots) (meeting :: meetings)
        ((key, .ref (toAddress meeting)) :: shown)

namespace Shown

variable {slots more : List (String × HeapValue α)} {meetings further : List (Meeting α)}
  {shown others : List (String × HeapValue (Address α))}

/-- Shown slots follow one another, by induction on the first. -/
theorem append (first : Shown slots meetings shown) (second : Shown more further others)
    : Shown (slots ++ more) (meetings ++ further) (shown ++ others) := by
  induction first with
  | nil => exact second
  | secret sensitive rest ih => exact .secret sensitive ih
  | primitive plain rest ih => exact .primitive plain ih
  | ref meeting plain rest ih => exact .ref meeting plain ih

/-- Every slot keeps its key, by induction on the slots. -/
theorem keys (all : Shown slots meetings shown) : shown.map Prod.fst = slots.map Prod.fst := by
  induction all with
  | nil => rfl
  | secret | primitive | ref => simpa

/-- The slots refer to what the meetings become, by induction on the slots. -/
theorem refs_eq (all : Shown slots meetings shown)
    : refs (shown.map Prod.snd) = meetings.map toAddress := by
  induction all with
  | nil => rfl
  | secret _ _ ih | primitive _ _ ih => exact ih
  | ref meeting _ _ ih => rw [List.map_cons, List.map_cons, refs_ref, ih]

/-- The value under a sensitive key is blank, by induction on the slots. -/
theorem masked (all : Shown slots meetings shown)
    : ∀ entry ∈ shown,
        entry.1 ∈ sensitiveLogKeys → entry.2 = .primitive (.text logRedactCensor) := by
  induction all with
  | nil => simp
  | secret sensitive rest ih =>
      intro entry member isSensitive
      rcases List.mem_cons.mp member with rfl | member
      · rfl
      · exact ih entry member isSensitive
  | primitive plain rest ih | ref meeting plain rest ih =>
      intro entry member isSensitive
      rcases List.mem_cons.mp member with rfl | member
      · exact absurd isSensitive plain
      · exact ih entry member isSensitive

/-- What is shown has been met. -/
theorem met (all : Shown slots meetings shown) {key : String} {address : Address α}
    (member : (key, .ref address) ∈ shown)
    : ∃ meeting ∈ meetings, toAddress meeting = address := by
  rw [← List.mem_map, ← all.refs_eq, mem_refs]
  exact List.mem_map.mpr ⟨_, member, rfl⟩

/-- A copy is shown for an object that is met for the first time. -/
theorem first_met (all : Shown slots meetings shown) {key : String} {address : α}
    (copied : (key, .ref (.copy address)) ∈ shown)
    : .first address ∈ meetings := by
  obtain ⟨meeting, member, same⟩ := all.met copied
  cases meeting with
  | first object =>
      cases same
      exact member
  | again object => cases same

/-- An object of the caller is shown if it is met again. -/
theorem again_met (all : Shown slots meetings shown) {key : String} {address : α}
    (kept : (key, .ref (.caller address)) ∈ shown)
    : .again address ∈ meetings := by
  obtain ⟨meeting, member, same⟩ := all.met kept
  cases meeting with
  | first object => cases same
  | again object =>
      cases same
      exact member

/-- Slots are shown in one way, by induction on them. -/
theorem unique (all : Shown slots meetings shown) (again : Shown slots meetings others)
    : others = shown := by
  induction all generalizing others with
  | nil =>
      cases again
      rfl
  | secret sensitive rest ih =>
      cases again with
      | secret _ rest' => rw [ih rest']
      | primitive plain _ | ref _ plain _ => exact absurd sensitive plain
  | primitive plain rest ih =>
      cases again with
      | secret sensitive _ => exact absurd sensitive plain
      | primitive _ rest' => rw [ih rest']
  | @ref key slots _ _ meeting plain rest ih =>
      generalize given : (key, HeapValue.ref meeting.object) :: slots = all at again
      cases again with
      | secret sensitive _ =>
          cases given
          exact absurd sensitive plain
      | primitive _ _ => cases given
      | ref _ _ rest' =>
          cases given
          rw [ih rest']

/-- Slots are shown for any meetings with the objects that they refer to, by induction on them.
-/
theorem exists_shown (met : meetings.map Meeting.object = openRefs slots)
    : ∃ shown, Shown slots meetings shown := by
  induction slots generalizing meetings with
  | nil =>
      obtain rfl := List.map_eq_nil_iff.mp met
      exact ⟨[], .nil⟩
  | cons entry rest ih =>
      obtain ⟨key, value⟩ := entry
      by_cases sensitive : key ∈ sensitiveLogKeys
      · rw [openRefs_secret _ _ sensitive] at met
        obtain ⟨shown, shows⟩ := ih met
        exact ⟨_, .secret sensitive shows⟩
      · rw [openRefs_plain _ _ sensitive] at met
        cases value with
        | primitive value =>
            obtain ⟨shown, shows⟩ := ih met
            exact ⟨_, .primitive sensitive shows⟩
        | ref address =>
            obtain ⟨meeting, later, rfl, rfl, same⟩ := List.map_eq_cons_iff.mp met
            obtain ⟨shown, shows⟩ := ih same
            exact ⟨_, .ref meeting sensitive shows⟩

end Shown

/-- The new object for a node whose slots are shown. -/
def rebuild (node : HeapNode α) (shown : List (String × HeapValue (Address α)))
    : HeapNode (Address α) :=
  match node with
  | .array _ => .array (shown.map Prod.snd)
  | .object _ _ => assign shown

/-- The created object is the copy for the visit. -/
def Copied (heap : Heap α) (visit : Visit α) (created : α × HeapNode (Address α)) : Prop :=
  created.1 = visit.object
  ∧ ∃ shown,
      Shown (slots (heap.node visit.object)) visit.met shown
      ∧ created.2 = rebuild (heap.node visit.object) shown

/-- A redaction as a whole: the walk behind it, what it shows, and a copy for each visit. -/
structure Rebuilt [DecidableEq α] (heap : Heap α) (value : HeapValue α)
    (shown : HeapValue (Address α)) (state : Redaction α) (meetings : List (Meeting α))
    (visits : List (Visit α))
    : Prop where
  walk : DepthFirst (walked heap) ∅ (refs [value]) meetings visits state.seen
  shows : Shown [("", value)] meetings [("", shown)]
  copied : List.Forall₂ (Copied heap) visits state.created

end SharedKernel.Logger
