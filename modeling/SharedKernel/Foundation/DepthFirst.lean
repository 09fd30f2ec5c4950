import Mathlib.Algebra.Order.BigOperators.Group.Finset
import Mathlib.Algebra.Ring.Nat
import Mathlib.Data.Fintype.Basic
import Mathlib.Logic.Relation

/-! Depth-first walks of a graph with one set of seen objects, shared by all branches: an
object is walked the first time it is met, and left alone every time after.
-/

namespace Foundation

variable {α : Type}

/-- How a walk meets an object. -/
inductive Meeting (α : Type) where
  | first (object : α)
  | again (object : α)
deriving DecidableEq

def Meeting.object : Meeting α → α
  | first object | again object => object

/-- A walked object, with its successors as the walk met them. -/
structure Visit (α : Type) where
  object : α
  met : List (Meeting α)

/-- The walk of a list of objects, from one set of seen objects to another: how it meets
them, and all that it visits within them.
-/
inductive DepthFirst [DecidableEq α] (next : α → List α)
    : Finset α → List α → List (Meeting α) → List (Visit α) → Finset α → Prop
  | nil (seen : Finset α) : DepthFirst next seen [] [] [] seen
  | again {seen later : Finset α} {object : α} {given meetings visits}
    (met : object ∈ seen) (rest : DepthFirst next seen given meetings visits later)
    : DepthFirst next seen (object :: given) (.again object :: meetings) visits later
  | first {seen between later : Finset α} {object : α} {given meetings visits inner made}
    (fresh : object ∉ seen)
    (inside : DepthFirst next (insert object seen) (next object) inner made between)
    (rest : DepthFirst next between given meetings visits later)
    : DepthFirst next seen (object :: given) (.first object :: meetings)
        (made ++ { object, met := inner } :: visits) later

/-- The object is reachable from the given ones. -/
def Reachable (next : α → List α) (given : List α) (object : α) : Prop :=
  ∃ start ∈ given, Relation.ReflTransGen (fun source target => target ∈ next source) start object

/-- A visit has met the second object for the first time. -/
def Led (visits : List (Visit α)) (source target : α) : Prop :=
  ∃ visit ∈ visits, visit.object = source ∧ .first target ∈ visit.met

/-- Every meeting of a walk, those of the given objects and those within visits. -/
def allMeetings (meetings : List (Meeting α)) (visits : List (Visit α)) : List (Meeting α) :=
  meetings ++ visits.flatMap Visit.met

/-- More visits lead to more objects. -/
theorem Led.mono {visits more : List (Visit α)} {source target : α}
    (led : Led visits source target) (subset : visits ⊆ more)
    : Led more source target := by
  obtain ⟨visit, member, same, met⟩ := led
  exact ⟨visit, subset member, same, met⟩

section Reachable

variable {next : α → List α} {given : List α}

/-- Successors that agree on all reachable objects reach the same objects, by induction on the
path.
-/
theorem Reachable.congr {other : α → List α} {object : α}
    (same : ∀ object, Reachable next given object → next object = other object)
    (reachable : Reachable next given object)
    : Reachable other given object := by
  obtain ⟨start, member, path⟩ := reachable
  refine ⟨start, member, ?_⟩
  induction path with
  | refl => exact .refl
  | @tail source target earlier successor ih =>
      rw [same source ⟨start, member, earlier⟩] at successor
      exact ih.tail successor

/-- An object that is reachable by successors that agree is reachable, by induction on the
path.
-/
theorem Reachable.of_congr {other : α → List α} {object : α}
    (same : ∀ object, Reachable next given object → next object = other object)
    (reachable : Reachable other given object)
    : Reachable next given object := by
  obtain ⟨start, member, path⟩ := reachable
  refine ⟨start, member, ?_⟩
  induction path with
  | refl => exact .refl
  | @tail source target _ successor ih =>
      rw [← same source ⟨start, member, ih⟩] at successor
      exact ih.tail successor

/-- More successors reach more objects. -/
theorem Reachable.mono {other : α → List α} {object : α}
    (more : ∀ object, next object ⊆ other object) (reachable : Reachable next given object)
    : Reachable other given object := by
  obtain ⟨start, member, path⟩ := reachable
  exact ⟨start, member,
    Relation.ReflTransGen.mono (fun source _ successor => more source successor) _ _ path⟩

end Reachable

namespace DepthFirst

variable [DecidableEq α] {next : α → List α} {seen between later : Finset α}
  {given others : List α} {meetings further : List (Meeting α)} {visits more : List (Visit α)}

/-- Walks follow one another, by induction on the first. -/
theorem append (walk : DepthFirst next seen given meetings visits between)
    (onward : DepthFirst next between others further more later)
    : DepthFirst next seen (given ++ others) (meetings ++ further) (visits ++ more) later := by
  induction walk with
  | nil => exact onward
  | again met rest ih => exact .again met (ih onward)
  | first fresh inside rest _ ih =>
      have longer := DepthFirst.first fresh inside (ih onward)
      simpa using longer

/-- A list of objects has one walk, by induction on it. -/
theorem unique (walk : DepthFirst next seen given meetings visits later)
    (other : DepthFirst next seen given further more between)
    : further = meetings ∧ more = visits ∧ between = later := by
  induction walk generalizing further more between with
  | nil =>
      cases other
      exact ⟨rfl, rfl, rfl⟩
  | again met rest ih =>
      cases other with
      | again _ rest' =>
          obtain ⟨rfl, rfl, rfl⟩ := ih rest'
          exact ⟨rfl, rfl, rfl⟩
      | first fresh _ _ => exact absurd met fresh
  | first fresh inside rest ih ih' =>
      cases other with
      | again met _ => exact absurd met fresh
      | first _ inside' rest' =>
          obtain ⟨rfl, rfl, rfl⟩ := ih inside'
          obtain ⟨rfl, rfl, rfl⟩ := ih' rest'
          exact ⟨rfl, rfl, rfl⟩

/-- What has been seen afterwards was seen before or has been visited, by induction on the
walk.
-/
theorem mem_later (walk : DepthFirst next seen given meetings visits later) (object : α)
    : object ∈ later ↔ object ∈ seen ∨ object ∈ visits.map Visit.object := by
  induction walk with
  | nil => simp
  | again met rest ih => exact ih
  | first fresh inside rest inner ih =>
      rw [ih, inner]
      simp only [Finset.mem_insert, List.map_append, List.map_cons, List.mem_append,
        List.mem_cons]
      tauto

theorem seen_subset (walk : DepthFirst next seen given meetings visits later) : seen ⊆ later :=
  fun object member => (walk.mem_later object).mpr (Or.inl member)

/-- No visited object had been seen before, by induction on the walk. -/
theorem unseen (walk : DepthFirst next seen given meetings visits later)
    : ∀ object ∈ visits.map Visit.object, object ∉ seen := by
  induction walk with
  | nil => simp
  | again met rest ih => exact ih
  | @first seen between later object given meetings visits inner made fresh inside rest ih ih' =>
      intro other member old
      simp only [List.map_append, List.map_cons, List.mem_append, List.mem_cons] at member
      rcases member with within | rfl | after
      · exact ih other within (Finset.mem_insert_of_mem old)
      · exact fresh old
      · exact ih' other after (inside.seen_subset (Finset.mem_insert_of_mem old))

/-- No object is visited twice, by induction on the walk. -/
theorem nodup (walk : DepthFirst next seen given meetings visits later)
    : (visits.map Visit.object).Nodup := by
  induction walk with
  | nil => simp
  | again met rest ih => exact ih
  | @first seen between later object given meetings visits inner made fresh inside rest ih ih' =>
      have seenNow : object ∈ between := inside.seen_subset (Finset.mem_insert_self object seen)
      rw [List.map_append, List.map_cons, List.nodup_append]
      refine ⟨ih, List.nodup_cons.mpr ⟨?_, ih'⟩, ?_⟩
      · intro after
        exact rest.unseen object after seenNow
      · intro one within other after same
        subst same
        rcases List.mem_cons.mp after with rfl | after
        · exact inside.unseen one within (Finset.mem_insert_self one seen)
        · exact rest.unseen one after ((inside.mem_later one).mpr (Or.inr within))

/-- Each given object has been met, by induction on the walk. -/
theorem meetings_objects (walk : DepthFirst next seen given meetings visits later)
    : meetings.map Meeting.object = given := by
  induction walk with
  | nil => rfl
  | again met rest ih => rw [List.map_cons, ih, Meeting.object]
  | first fresh inside rest _ ih => rw [List.map_cons, ih, Meeting.object]

/-- Each successor of a visited object has been met, by induction on the walk. -/
theorem visit_objects (walk : DepthFirst next seen given meetings visits later)
    : ∀ visit ∈ visits, visit.met.map Meeting.object = next visit.object := by
  induction walk with
  | nil => simp
  | again met rest ih => exact ih
  | first fresh inside rest ih ih' =>
      intro visit member
      rcases List.mem_append.mp member with within | after
      · exact ih visit within
      · rcases List.mem_cons.mp after with rfl | after
        · exact inside.meetings_objects
        · exact ih' visit after

/-- Each given object has been seen afterwards, by induction on the walk. -/
theorem given_seen (walk : DepthFirst next seen given meetings visits later)
    : ∀ object ∈ given, object ∈ later := by
  induction walk with
  | nil => simp
  | again met rest ih =>
      intro other member
      rcases List.mem_cons.mp member with rfl | member
      · exact rest.seen_subset met
      · exact ih other member
  | @first seen between later object given meetings visits inner made fresh inside rest _ ih =>
      intro other member
      rcases List.mem_cons.mp member with rfl | member
      · exact rest.seen_subset (inside.seen_subset (Finset.mem_insert_self other seen))
      · exact ih other member

/-- Each successor of a visited object has been seen afterwards, by induction on the walk. -/
theorem closed (walk : DepthFirst next seen given meetings visits later)
    : ∀ visit ∈ visits, ∀ object ∈ next visit.object, object ∈ later := by
  induction walk with
  | nil => simp
  | again met rest ih => exact ih
  | first fresh inside rest ih ih' =>
      intro visit member object successor
      rcases List.mem_append.mp member with within | after
      · exact rest.seen_subset (ih visit within object successor)
      · rcases List.mem_cons.mp after with rfl | after
        · exact rest.seen_subset (inside.given_seen object successor)
        · exact ih' visit after object successor

/-- Each object that is met has been seen afterwards. -/
theorem met_seen (walk : DepthFirst next seen given meetings visits later)
    : ∀ meeting ∈ allMeetings meetings visits, meeting.object ∈ later := by
  intro meeting member
  rcases List.mem_append.mp member with outer | inner
  · apply walk.given_seen
    rw [← walk.meetings_objects]
    exact List.mem_map_of_mem outer
  · obtain ⟨visit, found, met⟩ := List.mem_flatMap.mp inner
    apply walk.closed visit found
    rw [← walk.visit_objects visit found]
    exact List.mem_map_of_mem met

/-- Each visited object is reachable from a given one, by induction on the walk. -/
theorem reachable (walk : DepthFirst next seen given meetings visits later)
    : ∀ visit ∈ visits, Reachable next given visit.object := by
  induction walk with
  | nil => simp
  | again met rest ih =>
      intro visit member
      obtain ⟨start, given, path⟩ := ih visit member
      exact ⟨start, List.mem_cons_of_mem _ given, path⟩
  | @first seen between later object given meetings visits inner made fresh inside rest ih ih' =>
      intro visit member
      rcases List.mem_append.mp member with within | after
      · obtain ⟨start, successor, path⟩ := ih visit within
        exact ⟨object, List.mem_cons_self .., .head successor path⟩
      · rcases List.mem_cons.mp after with rfl | after
        · exact ⟨object, List.mem_cons_self .., .refl⟩
        · obtain ⟨start, member, path⟩ := ih' visit after
          exact ⟨start, List.mem_cons_of_mem _ member, path⟩

/-- First meetings lead from the given objects to each visited one, by induction on the walk.
-/
theorem led (walk : DepthFirst next seen given meetings visits later)
    : ∀ visit ∈ visits,
        ∃ start,
          .first start ∈ meetings ∧ Relation.ReflTransGen (Led visits) start visit.object := by
  induction walk with
  | nil => simp
  | again met rest ih =>
      intro visit member
      obtain ⟨start, first, path⟩ := ih visit member
      exact ⟨start, List.mem_cons_of_mem _ first, path⟩
  | @first seen between later object given meetings visits inner made fresh inside rest ih ih' =>
      intro visit member
      have here : { object, met := inner } ∈ made ++ { object, met := inner } :: visits := by
        simp
      rcases List.mem_append.mp member with within | after
      · obtain ⟨start, first, path⟩ := ih visit within
        refine ⟨object, List.mem_cons_self .., .head ⟨_, here, rfl, first⟩ ?_⟩
        exact Relation.ReflTransGen.mono
          (fun source target led => led.mono (List.subset_append_left ..)) _ _ path
      · rcases List.mem_cons.mp after with rfl | after
        · exact ⟨object, List.mem_cons_self .., .refl⟩
        · obtain ⟨start, first, path⟩ := ih' visit after
          have later : visits ⊆ made ++ { object, met := inner } :: visits := by
            intro other member
            exact List.mem_append_right _ (List.mem_cons_of_mem _ member)
          exact ⟨start, List.mem_cons_of_mem _ first,
            Relation.ReflTransGen.mono (fun source target led => led.mono later) _ _ path⟩

/-- Successors that agree on the visited objects have the same walks, by induction on the walk. -/
theorem congr {other : α → List α} (walk : DepthFirst next seen given meetings visits later)
    (same : ∀ visit ∈ visits, next visit.object = other visit.object)
    : DepthFirst other seen given meetings visits later := by
  induction walk with
  | nil => exact .nil _
  | again met rest ih => exact .again met (ih same)
  | @first _ _ _ object _ _ visits inner made fresh inside rest ih ih' =>
      have here : next object = other object := same { object, met := inner } (by simp)
      refine .first fresh ?_ (ih' (fun visit member => same visit (by simp [member])))
      rw [← here]
      exact ih (fun visit member => same visit (by simp [member]))

/-- Every list of objects has a walk, by induction on the number of objects that have not been
seen, and on the list.
-/
theorem exists_walk [Fintype α] (next : α → List α) (seen : Finset α) (given : List α)
    : ∃ meetings visits later, DepthFirst next seen given meetings visits later := by
  induction bound : seenᶜ.card using Nat.strong_induction_on generalizing seen given with
  | _ unseen ih =>
      induction given generalizing seen unseen with
      | nil => exact ⟨[], [], seen, .nil seen⟩
      | cons object rest onward =>
          by_cases met : object ∈ seen
          · obtain ⟨meetings, visits, later, walk⟩ := onward unseen ih seen bound
            exact ⟨_, _, _, .again met walk⟩
          · have fewer : (insert object seen)ᶜ.card < unseen := by
              rw [← bound, Finset.compl_insert]
              exact Finset.card_erase_lt_of_mem (Finset.mem_compl.mpr met)
            obtain ⟨inner, made, between, inside⟩ :=
              ih _ fewer (insert object seen) (next object) rfl
            have less : betweenᶜ.card < unseen :=
              (Finset.card_le_card (Finset.compl_subset_compl.mpr inside.seen_subset)).trans_lt
                fewer
            obtain ⟨meetings, visits, later, walk⟩ := ih _ less between rest rfl
            exact ⟨_, _, _, .first met inside walk⟩

/-- A walk of two lists is a walk of the first and then one of the second. -/
theorem split [Fintype α] (walk : DepthFirst next seen (given ++ others) meetings visits later)
    : ∃ meetings' further visits' more between,
        meetings = meetings' ++ further
        ∧ visits = visits' ++ more
        ∧ DepthFirst next seen given meetings' visits' between
        ∧ DepthFirst next between others further more later := by
  obtain ⟨meetings', visits', between, first⟩ := exists_walk next seen given
  obtain ⟨further, more, later', second⟩ := exists_walk next between others
  obtain ⟨rfl, rfl, rfl⟩ := walk.unique (first.append second)
  exact ⟨_, _, _, _, _, rfl, rfl, first, second⟩

/-- What is met for the first time is visited, by induction on the walk. -/
theorem first_visited (walk : DepthFirst next seen given meetings visits later) {object : α}
    (first : .first object ∈ meetings)
    : object ∈ visits.map Visit.object := by
  induction walk with
  | nil => cases first
  | again met rest ih =>
      rcases List.mem_cons.mp first with absurd | first
      · cases absurd
      · exact ih first
  | first fresh inside rest _ ih =>
      rw [List.map_append, List.map_cons, List.mem_append, List.mem_cons]
      rcases List.mem_cons.mp first with same | first
      · cases same
        exact Or.inr (Or.inl rfl)
      · exact Or.inr (Or.inr (ih first))

/-- An object is met for the first time as often as it is visited, by induction on the walk. -/
theorem count_first (walk : DepthFirst next seen given meetings visits later) (object : α)
    : (allMeetings meetings visits).count (.first object)
      = (visits.map Visit.object).count object := by
  induction walk with
  | nil => rfl
  | again met rest ih =>
      rw [← ih]
      simp [allMeetings]
  | first fresh inside rest ih ih' =>
      simp only [allMeetings, List.count_append] at ih ih'
      simp only [allMeetings, List.flatMap_append, List.flatMap_cons, List.map_append,
        List.map_cons, List.cons_append, List.count_append, List.count_cons, ← ih, ← ih',
        beq_iff_eq, Meeting.first.injEq]
      omega

/-- An object is met as often as it is given or is a successor of a visited object. -/
theorem count_objects (walk : DepthFirst next seen given meetings visits later) (object : α)
    : ((allMeetings meetings visits).map Meeting.object).count object
      = given.count object
        + ((visits.map Visit.object).map (fun source => (next source).count object)).sum := by
  have inner : visits.map (fun visit => (visit.met.map Meeting.object).count object)
      = visits.map (fun visit => (next visit.object).count object) := by
    apply List.map_congr_left
    intro visit member
    rw [walk.visit_objects visit member]
  rw [allMeetings, List.map_append, walk.meetings_objects, List.count_append, List.map_flatMap,
    List.count_flatMap, List.map_map]
  exact congrArg (fun counts => given.count object + List.sum counts) inner

end DepthFirst

/-- A meeting with an object is the first one or a later one. -/
theorem count_first_add_again [DecidableEq α] (meetings : List (Meeting α)) (object : α)
    : meetings.count (.first object) + meetings.count (.again object)
      = (meetings.map Meeting.object).count object := by
  induction meetings with
  | nil => rfl
  | cons meeting meetings ih =>
      cases meeting with
      | first other | again other =>
          simp only [List.map_cons, List.count_cons, Meeting.object, beq_iff_eq,
            Meeting.first.injEq, Meeting.again.injEq, reduceCtorEq, if_false]
          omega

section Encounters

variable [DecidableEq α] {next : α → List α} {given : List α} {meetings : List (Meeting α)}
  {visits : List (Visit α)} {later : Finset α}

/-- A walk that has seen nothing before has visited all that it has seen. -/
theorem DepthFirst.visited (walk : DepthFirst next ∅ given meetings visits later)
    : ∀ object ∈ later, object ∈ visits.map Visit.object := by
  intro object seen
  rcases (walk.mem_later object).mp seen with before | visited
  · simp at before
  · exact visited

/-- A walk that has seen nothing before visits what is reachable from the given objects;
witness: what it sees is closed under successors.
-/
theorem DepthFirst.visited_iff (walk : DepthFirst next ∅ given meetings visits later)
    (object : α)
    : object ∈ visits.map Visit.object ↔ Reachable next given object := by
  constructor
  · intro member
    obtain ⟨visit, found, rfl⟩ := List.mem_map.mp member
    exact walk.reachable visit found
  · intro reached
    obtain ⟨start, member, path⟩ := reached
    apply walk.visited
    induction path with
    | refl => exact walk.given_seen start member
    | tail _ successor ih =>
        obtain ⟨visit, found, same⟩ := List.mem_map.mp (walk.visited _ ih)
        exact walk.closed visit found _ (same ▸ successor)

open Classical in
/-- How often an object is given, or is a successor of a reachable object. -/
noncomputable def encounters [Fintype α] (next : α → List α) (given : List α) (object : α)
    : Nat :=
  given.count object
    + ∑ source with Reachable next given source, (next source).count object

/-- With fewer successors an object is encountered less often. -/
theorem encounters_le [Fintype α] {other : α → List α}
    (fewer : ∀ object, (next object).Sublist (other object)) (object : α)
    : encounters next given object ≤ encounters other given object := by
  classical
  apply Nat.add_le_add_left
  calc ∑ source with Reachable next given source, (next source).count object
      ≤ ∑ source with Reachable next given source, (other source).count object :=
        Finset.sum_le_sum (fun source _ => (fewer source).count_le object)
    _ ≤ ∑ source with Reachable other given source, (other source).count object := by
        apply Finset.sum_le_sum_of_subset
        intro source member
        simp only [Finset.mem_filter, Finset.mem_univ, true_and] at member ⊢
        exact member.mono (fun object => (fewer object).subset)

/-- A walk that has seen nothing before meets each object as often as it is encountered. -/
theorem DepthFirst.count_encounters [Fintype α]
    (walk : DepthFirst next ∅ given meetings visits later) (object : α)
    : ((allMeetings meetings visits).map Meeting.object).count object
      = encounters next given object := by
  classical
  have same : (visits.map Visit.object).toFinset
      = Finset.univ.filter (Reachable next given) := by
    ext source
    simp [← walk.visited_iff]
  rw [walk.count_objects, encounters, ← List.sum_toFinset _ walk.nodup, same]

/-- A walk that has seen nothing before meets an object again exactly if it is encountered
twice.
-/
theorem DepthFirst.again_iff [Fintype α]
    (walk : DepthFirst next ∅ given meetings visits later) (object : α)
    : .again object ∈ allMeetings meetings visits ↔ 2 ≤ encounters next given object := by
  have total := count_first_add_again (allMeetings meetings visits) object
  rw [walk.count_encounters, walk.count_first] at total
  rw [← List.count_pos_iff]
  by_cases visited : object ∈ visits.map Visit.object
  · rw [List.count_eq_one_of_mem walk.nodup visited] at total
    omega
  · have unmet : ((allMeetings meetings visits).map Meeting.object).count object = 0 := by
      rw [List.count_eq_zero]
      intro member
      obtain ⟨meeting, met, rfl⟩ := List.mem_map.mp member
      exact visited (walk.visited _ (walk.met_seen meeting met))
    rw [walk.count_encounters] at unmet
    rw [List.count_eq_zero.mpr visited] at total
    omega

end Encounters
end Foundation
