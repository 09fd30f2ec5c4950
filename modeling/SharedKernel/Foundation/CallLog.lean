import SharedKernel.Foundation.DepthFirst

/-! The calls of a recursion over a graph with one set of seen objects: every value costs a
call, and the call of an object that has not been seen descends into its fields. Since a
descent adds its object to the set for good, no object is descended into twice.
-/

namespace Foundation

variable {α ν : Type}

/-- A call of the recursion: its argument, and the objects seen when it is entered. -/
structure Call (α ν : Type) where
  value : ν
  seen : Finset α

section CallLog

variable [DecidableEq α]

/-- The calls for a list of values, in the order in which they are entered, from one set of
seen objects to another.
-/
inductive CallLog (object? : ν → Option α) (fields : α → List ν)
    : Finset α → List ν → List (Call α ν) → Finset α → Prop
  | nil (seen : Finset α) : CallLog object? fields seen [] [] seen
  | leaf {seen later : Finset α} {value : ν} {values calls}
    (known : ∀ object, object? value = some object → object ∈ seen)
    (rest : CallLog object? fields seen values calls later)
    : CallLog object? fields seen (value :: values) ({ value, seen } :: calls) later
  | descent {seen between later : Finset α} {value : ν} {object : α} {values inner calls}
    (found : object? value = some object) (fresh : object ∉ seen)
    (inside : CallLog object? fields (insert object seen) (fields object) inner between)
    (rest : CallLog object? fields between values calls later)
    : CallLog object? fields seen (value :: values) ({ value, seen } :: (inner ++ calls)) later

/-- The object that a call descends into, if it does. -/
def Call.descends? (object? : ν → Option α) (call : Call α ν) : Option α :=
  (object? call.value).filter (fun object => object ∉ call.seen)

/-- The objects that are descended into, in order. -/
def descended (object? : ν → Option α) (calls : List (Call α ν)) : List α :=
  calls.filterMap (Call.descends? object?)

/-- What an earlier call has seen and descended into has been seen by the later. -/
def SeenBefore (object? : ν → Option α) (earlier later : Call α ν) : Prop :=
  earlier.seen ⊆ later.seen
  ∧ ∀ object, earlier.descends? object? = some object → object ∈ later.seen

variable {object? : ν → Option α} {fields : α → List ν} {seen between later : Finset α}
  {values more : List ν} {calls further : List (Call α ν)} {value : ν} {object : α}

theorem Call.descends?_eq_some {call : Call α ν}
    : call.descends? object? = some object
      ↔ object? call.value = some object ∧ object ∉ call.seen := by
  simp [descends?, Option.filter_eq_some_iff]

theorem descended_append (calls further : List (Call α ν))
    : descended object? (calls ++ further)
      = descended object? calls ++ descended object? further :=
  List.filterMap_append

/-- A call on what is known descends into nothing. -/
theorem descended_leaf (known : ∀ object, object? value = some object → object ∈ seen)
    (calls : List (Call α ν))
    : descended object? ({ value, seen } :: calls) = descended object? calls := by
  have shallow : Call.descends? object? { value, seen } = none := by
    rw [Option.eq_none_iff_forall_ne_some]
    intro object descends
    obtain ⟨found, fresh⟩ := Call.descends?_eq_some.mp descends
    exact fresh (known object found)
  rw [descended, List.filterMap_cons, shallow]
  rfl

/-- A call on an object that has not been seen descends into it. -/
theorem descended_descent (found : object? value = some object) (fresh : object ∉ seen)
    (calls : List (Call α ν))
    : descended object? ({ value, seen } :: calls) = object :: descended object? calls := by
  have descends : Call.descends? object? { value, seen } = some object :=
    Call.descends?_eq_some.mpr ⟨found, fresh⟩
  rw [descended, List.filterMap_cons, descends]
  rfl

namespace CallLog

/-- Logs follow one another, by induction on the first. -/
theorem append (log : CallLog object? fields seen values calls between)
    (onward : CallLog object? fields between more further later)
    : CallLog object? fields seen (values ++ more) (calls ++ further) later := by
  induction log with
  | nil => exact onward
  | leaf known rest ih => exact .leaf known (ih onward)
  | descent found fresh inside rest _ ih =>
      have longer := CallLog.descent found fresh inside (ih onward)
      simpa using longer

/-- What has been seen afterwards was seen before or has been descended into, by induction on
the log.
-/
theorem mem_later (log : CallLog object? fields seen values calls later) (object : α)
    : object ∈ later ↔ object ∈ seen ∨ object ∈ descended object? calls := by
  induction log with
  | nil => simp [descended]
  | leaf known rest ih => rw [descended_leaf known, ih]
  | descent found fresh inside rest inner ih =>
      rw [descended_descent found fresh, descended_append, ih, inner]
      simp only [Finset.mem_insert, List.mem_cons, List.mem_append]
      tauto

theorem seen_subset (log : CallLog object? fields seen values calls later) : seen ⊆ later :=
  fun object member => (log.mem_later object).mpr (Or.inl member)

/-- Every list of values has a log, by induction on the number of objects that have not been seen,
and on the list.
-/
theorem exists_log [Fintype α] (object? : ν → Option α) (fields : α → List ν) (seen : Finset α)
    (values : List ν)
    : ∃ calls later, CallLog object? fields seen values calls later := by
  induction bound : seenᶜ.card using Nat.strong_induction_on generalizing seen values with
  | _ unseen ih =>
      induction values generalizing seen unseen with
      | nil => exact ⟨[], seen, .nil seen⟩
      | cons value rest onward =>
          by_cases known : ∀ object, object? value = some object → object ∈ seen
          · obtain ⟨calls, later, log⟩ := onward unseen ih seen bound
            exact ⟨_, _, .leaf known log⟩
          · push Not at known
            obtain ⟨object, found, fresh⟩ := known
            have fewer : (insert object seen)ᶜ.card < unseen := by
              rw [← bound, Finset.compl_insert]
              exact Finset.card_erase_lt_of_mem (Finset.mem_compl.mpr fresh)
            obtain ⟨inner, between, inside⟩ := ih _ fewer (insert object seen) (fields object) rfl
            have less : betweenᶜ.card < unseen :=
              (Finset.card_le_card (Finset.compl_subset_compl.mpr inside.seen_subset)).trans_lt
                fewer
            obtain ⟨calls, later, log⟩ := ih _ less between rest rfl
            exact ⟨_, _, .descent found fresh inside log⟩

/-- Every call sees what had been seen at the start, by induction on the log. -/
theorem seen_at_calls (log : CallLog object? fields seen values calls later)
    : ∀ call ∈ calls, seen ⊆ call.seen := by
  induction log with
  | nil => simp
  | leaf known rest ih =>
      intro call member
      rcases List.mem_cons.mp member with rfl | member
      · exact Finset.Subset.refl _
      · exact ih call member
  | descent found fresh inside rest ih ih' =>
      intro call member
      rcases List.mem_cons.mp member with rfl | member
      · exact Finset.Subset.refl _
      · rcases List.mem_append.mp member with within | after
        · exact (Finset.subset_insert _ _).trans (ih call within)
        · exact ((Finset.subset_insert _ _).trans inside.seen_subset).trans (ih' call after)

/-- What a call has seen and descended into has been seen at the end, by induction on the log.
-/
theorem calls_at_later (log : CallLog object? fields seen values calls later)
    : ∀ call ∈ calls,
        call.seen ⊆ later
        ∧ ∀ object, call.descends? object? = some object → object ∈ later := by
  intro call member
  refine ⟨?_, fun object descends => ?_⟩
  · induction log with
    | nil => cases member
    | leaf known rest ih =>
        rcases List.mem_cons.mp member with rfl | member
        · exact rest.seen_subset
        · exact ih member
    | descent found fresh inside rest ih ih' =>
        rcases List.mem_cons.mp member with rfl | member
        · exact (Finset.subset_insert _ _).trans (inside.seen_subset.trans rest.seen_subset)
        · rcases List.mem_append.mp member with within | after
          · exact (ih within).trans rest.seen_subset
          · exact ih' after
  · apply (log.mem_later object).mpr
    exact Or.inr (List.mem_filterMap.mpr ⟨call, member, descends⟩)

/-- The set of seen objects only grows from call to call, and strictly after a descent, by
induction on the log.
-/
theorem grows (log : CallLog object? fields seen values calls later)
    : calls.Pairwise (SeenBefore object?) := by
  induction log with
  | nil => exact .nil
  | leaf known rest ih =>
      refine List.pairwise_cons.mpr ⟨fun call member => ⟨rest.seen_at_calls call member, ?_⟩, ih⟩
      intro object descends
      obtain ⟨found, fresh⟩ := Call.descends?_eq_some.mp descends
      exact (fresh (known object found)).elim
  | @descent seen between later value object values inner calls found fresh inside rest ih ih' =>
      rw [List.pairwise_cons, List.pairwise_append]
      refine ⟨fun call member => ?_, ih, ih', fun earlier within call after => ?_⟩
      · -- both the calls inside and those after it have seen the object
        have entered : insert object seen ⊆ call.seen := by
          rcases List.mem_append.mp member with within | after
          · exact inside.seen_at_calls call within
          · exact inside.seen_subset.trans (rest.seen_at_calls call after)
        refine ⟨(Finset.subset_insert _ _).trans entered, fun other descends => ?_⟩
        obtain ⟨same, _⟩ := Call.descends?_eq_some.mp descends
        obtain rfl : object = other := Option.some.inj (found.symm.trans same)
        exact entered (Finset.mem_insert_self object seen)
      · obtain ⟨subset, entered⟩ := inside.calls_at_later earlier within
        have seenThen := rest.seen_at_calls call after
        exact ⟨subset.trans seenThen, fun other descends => seenThen (entered other descends)⟩

/-- No object is descended into twice: the later call would have seen it. -/
theorem nodup (log : CallLog object? fields seen values calls later)
    : (descended object? calls).Nodup := by
  rw [descended, List.Nodup, List.pairwise_filterMap]
  apply log.grows.imp
  intro earlier later before object descends other descends' same
  subst same
  exact (Call.descends?_eq_some.mp descends').2 (before.2 object descends)

/-- Of the values that are given and the fields that are descended into, each costs one call, by
induction on the log.
-/
theorem countP_calls (log : CallLog object? fields seen values calls later) (p : ν → Bool)
    : calls.countP (fun call => p call.value)
      = values.countP p
        + ((descended object? calls).map (fun object => (fields object).countP p)).sum := by
  induction log with
  | nil => rfl
  | leaf known rest ih =>
      rw [descended_leaf known, List.countP_cons, List.countP_cons, ih]
      dsimp only
      omega
  | descent found fresh inside rest ih ih' =>
      rw [descended_descent found fresh, descended_append, List.countP_cons, List.countP_cons,
        List.countP_append, ih, ih', List.map_cons, List.map_append, List.sum_cons,
        List.sum_append]
      dsimp only
      omega

/-- What is descended into is reachable from the given values, by induction on the log. -/
theorem reachable (log : CallLog object? fields seen values calls later)
    : ∀ object ∈ descended object? calls,
        Reachable (fun object => (fields object).filterMap object?) (values.filterMap object?)
          object := by
  have wider {value : ν} {values : List ν} {object : α}
      (reached
        : Reachable (fun object => (fields object).filterMap object?) (values.filterMap object?)
            object)
      : Reachable (fun object => (fields object).filterMap object?)
          ((value :: values).filterMap object?) object := by
    obtain ⟨start, given, path⟩ := reached
    refine ⟨start, ?_, path⟩
    obtain ⟨other, member, same⟩ := List.mem_filterMap.mp given
    exact List.mem_filterMap.mpr ⟨other, List.mem_cons_of_mem _ member, same⟩
  induction log with
  | nil => simp [descended]
  | leaf known rest ih =>
      intro object member
      rw [descended_leaf known] at member
      exact wider (ih object member)
  | @descent seen between later value object values inner calls found fresh inside rest ih ih' =>
      intro other member
      have given : object ∈ (value :: values).filterMap object? :=
        List.mem_filterMap.mpr ⟨value, List.mem_cons_self .., found⟩
      rw [descended_descent found fresh, descended_append] at member
      rcases List.mem_cons.mp member with rfl | member
      · exact ⟨_, given, .refl⟩
      · rcases List.mem_append.mp member with within | after
        · obtain ⟨start, successor, path⟩ := ih other within
          exact ⟨object, given, .head successor path⟩
        · exact wider (ih' other after)

end CallLog
end CallLog

open Classical in
/-- What is counted over all the objects that are reachable from the given ones. -/
noncomputable def reachableTotal [Fintype α] (next : α → List α) (given : List α) (count : α → Nat)
    : Nat :=
  ∑ object with Reachable next given object, count object

/-- What is counted over different reachable objects is within the count over all of them. -/
theorem sum_le_reachableTotal [DecidableEq α] [Fintype α] {next : α → List α} {given : List α}
    {objects : List α} (distinct : objects.Nodup)
    (reachable : ∀ object ∈ objects, Reachable next given object) (count : α → Nat)
    : (objects.map count).sum ≤ reachableTotal next given count := by
  classical
  rw [← List.sum_toFinset _ distinct, reachableTotal]
  apply Finset.sum_le_sum_of_subset
  intro object member
  simpa using reachable object (List.mem_toFinset.mp member)

end Foundation
