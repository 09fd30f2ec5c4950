import SharedKernel.Js.SafeInteger
import SharedKernel.Logger.LogValue

/-! What a redaction loses besides secrets: what errors and dates have that is not an
enumerable property, and properties named `__proto__`.
-/

namespace SharedKernel.Logger.LogValue

open Js

-----------------------------------------------------------------------------------------
-- The redaction of a tree
-----------------------------------------------------------------------------------------

/-- A property with its value redacted. -/
def entryWith (redact : LogValue → LogValue) (entry : String × LogValue) : String × LogValue :=
  if entry.1 ∈ sensitiveLogKeys then (entry.1, text logRedactCensor)
  else (entry.1, redact entry.2)

@[simp] theorem entryWith_fst (redact : LogValue → LogValue) (entry : String × LogValue)
    : (entryWith redact entry).1 = entry.1 := by
  unfold entryWith
  split <;> rfl

mutual

/-- What the redaction makes of a value without shared objects. -/
def rebuilt : LogValue → LogValue
  | primitive value => primitive value
  | array identity items => array identity (rebuiltItems items)
  | object identity properties | error identity _ properties =>
      object identity (assigned (rebuiltProperties properties))
  | date identity _ => object identity []

def rebuiltItems : List LogValue → List LogValue
  | [] => []
  | item :: rest => rebuilt item :: rebuiltItems rest

def rebuiltProperties : List (String × LogValue) → List (String × LogValue)
  | [] => []
  | (key, value) :: rest =>
      (if key ∈ sensitiveLogKeys then (key, text logRedactCensor) else (key, rebuilt value))
        :: rebuiltProperties rest

end

theorem rebuiltItems_eq (items : List LogValue) : rebuiltItems items = items.map rebuilt := by
  induction items with
  | nil => rfl
  | cons item rest ih => rw [rebuiltItems, ih, List.map_cons]

theorem rebuiltProperties_eq (properties : List (String × LogValue))
    : rebuiltProperties properties = properties.map (entryWith rebuilt) := by
  induction properties with
  | nil => rfl
  | cons entry rest ih => rw [rebuiltProperties, ih, List.map_cons, entryWith]

theorem maskedItems_eq (items : List LogValue) : maskedItems items = items.map masked := by
  induction items with
  | nil => rfl
  | cons item rest ih => rw [maskedItems, ih, List.map_cons]

theorem maskedProperties_eq (properties : List (String × LogValue))
    : maskedProperties properties = properties.map (entryWith masked) := by
  induction properties with
  | nil => rfl
  | cons entry rest ih => rw [maskedProperties, ih, List.map_cons, entryWith]

/-- A property with its value redacted is masked already, if the value is. -/
theorem entryWith_fixed {redact : LogValue → LogValue} {entry : String × LogValue}
    (fixed : (redact entry.2).masked = redact entry.2)
    : entryWith masked (entryWith redact entry) = entryWith redact entry := by
  by_cases sensitive : entry.1 ∈ sensitiveLogKeys
  · simp only [entryWith, if_pos sensitive]
  · simp only [entryWith, if_neg sensitive, fixed]

/-- So are any of the properties with their values redacted. -/
theorem maskedProperties_fixed {redact : LogValue → LogValue}
    {properties shown : List (String × LogValue)}
    (among : ∀ entry ∈ shown, entry ∈ properties.map (entryWith redact))
    (fixed : ∀ entry ∈ properties, (redact entry.2).masked = redact entry.2)
    : maskedProperties shown = shown := by
  have each : ∀ entry ∈ shown, entryWith masked entry = entry := by
    intro entry member
    obtain ⟨before, inside, rfl⟩ := List.mem_map.mp (among entry member)
    exact entryWith_fixed (fixed before inside)
  rw [maskedProperties_eq]
  exact (List.map_congr_left each).trans (List.map_id' shown)

/-- What is masked stays as it is, by induction on the value. -/
theorem masked_masked (value : LogValue) : value.masked.masked = value.masked := by
  induction value using induct with
  | onPrimitive value | onDate identity time => rfl
  | onArray identity items ih =>
      simp only [masked, maskedItems_eq, List.map_map]
      exact congrArg _ (List.map_congr_left ih)
  | onObject identity properties ih | onError identity own properties ih =>
      have among : ∀ entry ∈ maskedProperties properties,
          entry ∈ properties.map (entryWith masked) := by
        rw [maskedProperties_eq]
        exact fun _ member => member
      rw [masked, masked, maskedProperties_fixed among ih]

/-- What is rebuilt is masked already, by induction on the value. -/
theorem masked_rebuilt (value : LogValue) : value.rebuilt.masked = value.rebuilt := by
  induction value using induct with
  | onPrimitive value | onDate identity time => rfl
  | onArray identity items ih =>
      simp only [rebuilt, masked, rebuiltItems_eq, maskedItems_eq, List.map_map]
      exact congrArg _ (List.map_congr_left ih)
  | onObject identity properties ih | onError identity own properties ih =>
      have among : ∀ entry ∈ assigned (rebuiltProperties properties),
          entry ∈ properties.map (entryWith rebuilt) := by
        rw [rebuiltProperties_eq]
        exact fun _ member => (List.mem_filter.mp member).1
      rw [rebuilt, masked, maskedProperties_fixed among ih]

/-- Distinct objects, none of which has been seen. -/
def Apart (identities seen : List Nat) : Prop :=
  identities.Nodup ∧ ∀ identity ∈ identities, identity ∉ seen

/-- Nothing has been seen since but these. -/
def Within (seen next identities : List Nat) : Prop :=
  ∀ identity ∈ next, identity ∈ seen ∨ identity ∈ identities

/-- An object that is apart from what is seen can be entered. -/
theorem Apart.cons {identity : Nat} {inside seen : List Nat}
    (apart : Apart (identity :: inside) seen)
    : identity ∉ seen ∧ Apart inside (identity :: seen) := by
  obtain ⟨distinct, fresh⟩ := apart
  rw [List.nodup_cons] at distinct
  refine ⟨fresh identity (List.mem_cons_self ..), distinct.2, fun other member among => ?_⟩
  rcases List.mem_cons.mp among with rfl | old
  · exact distinct.1 member
  · exact fresh other (List.mem_cons_of_mem _ member) old

/-- What comes second is apart from what has been seen by then. -/
theorem Apart.append {first second seen : List Nat} (apart : Apart (first ++ second) seen)
    : Apart first seen ∧ ∀ next, Within seen next first → Apart second next := by
  obtain ⟨distinct, fresh⟩ := apart
  rw [List.nodup_append] at distinct
  obtain ⟨one, two, different⟩ := distinct
  refine ⟨⟨one, fun identity member => fresh identity (List.mem_append_left _ member)⟩, ?_⟩
  refine fun next within => ⟨two, fun identity member among => ?_⟩
  rcases within identity among with old | inFirst
  · exact fresh identity (List.mem_append_right _ member) old
  · exact different identity inFirst identity member rfl

/-- What has been seen after the second part. -/
theorem Within.append {seen between next first second : List Nat}
    (one : Within seen between first) (two : Within between next second)
    : Within seen next (first ++ second) := by
  intro identity member
  rw [List.mem_append]
  rcases two identity member with earlier | inSecond
  · rcases one identity earlier with old | inFirst
    · exact Or.inl old
    · exact Or.inr (Or.inl inFirst)
  · exact Or.inr (Or.inr inSecond)

/-- What has been seen after an object that was entered. -/
theorem Within.cons {identity : Nat} {seen next inside : List Nat}
    (within : Within (identity :: seen) next inside)
    : Within seen next (identity :: inside) := by
  intro other member
  rw [List.mem_cons]
  rcases within other member with entered | inInside
  · rcases List.mem_cons.mp entered with same | old
    · exact Or.inr (Or.inl same)
    · exact Or.inl old
  · exact Or.inr (Or.inr inInside)

/-- A redaction does as if nothing had been seen, and sees objects of the value only. -/
def Unshared (value : LogValue) : Prop :=
  ∀ seen,
    Apart value.identities seen
    → (value.deepRedact seen).1 = value.rebuilt
      ∧ Within seen (value.deepRedact seen).2 value.identities

/-- The items follow one another, by induction on them. -/
theorem redactItems_unshared {items : List LogValue} (each : ∀ item ∈ items, Unshared item)
    {seen : List Nat} (apart : Apart (itemIdentities items) seen)
    : (redactItems items seen).1 = rebuiltItems items
      ∧ Within seen (redactItems items seen).2 (itemIdentities items) := by
  induction items generalizing seen with
  | nil => exact ⟨rfl, fun _ member => Or.inl member⟩
  | cons item rest ih =>
      rw [itemIdentities] at apart
      obtain ⟨here, within⟩ := each item (List.mem_cons_self ..) seen apart.append.1
      obtain ⟨after, beyond⟩ :=
        ih (fun other member => each other (List.mem_cons_of_mem _ member))
          (apart.append.2 _ within)
      refine ⟨?_, within.append beyond⟩
      simp only [redactItems, here, after, rebuiltItems]

/-- The properties follow one another, by induction on them. -/
theorem redactProperties_unshared {properties : List (String × LogValue)}
    (each : ∀ entry ∈ properties, Unshared entry.2) {seen : List Nat}
    (apart : Apart (propertyIdentities properties) seen)
    : (redactProperties properties seen).1 = rebuiltProperties properties
      ∧ Within seen (redactProperties properties seen).2 (propertyIdentities properties) := by
  induction properties generalizing seen with
  | nil => exact ⟨rfl, fun _ member => Or.inl member⟩
  | cons entry rest ih =>
      obtain ⟨key, value⟩ := entry
      rw [propertyIdentities] at apart
      have others := fun entry member => each entry (List.mem_cons_of_mem (key, value) member)
      by_cases sensitive : key ∈ sensitiveLogKeys
      · have nothing : Within seen seen (identities value) := fun _ member => Or.inl member
        obtain ⟨after, beyond⟩ := ih others (apart.append.2 seen nothing)
        have all := nothing.append beyond
        simp only [redactProperties, if_pos sensitive, after, rebuiltProperties,
          propertyIdentities]
        exact ⟨trivial, all⟩
      · obtain ⟨here, within⟩ := each (key, value) (List.mem_cons_self ..) seen apart.append.1
        obtain ⟨after, beyond⟩ := ih others (apart.append.2 _ within)
        have all := within.append beyond
        simp only [redactProperties, if_neg sensitive, here, after, rebuiltProperties,
          propertyIdentities]
        exact ⟨trivial, all⟩

/-- In a value without shared objects no object is met again, by induction on the value. -/
theorem unshared (value : LogValue) : Unshared value := by
  induction value using induct with
  | onPrimitive value => exact fun seen _ => ⟨rfl, fun _ member => Or.inl member⟩
  | onArray identity items ih =>
      intro seen apart
      rw [identities] at apart ⊢
      obtain ⟨unseen, inside⟩ := apart.cons
      obtain ⟨shown, within⟩ := redactItems_unshared ih inside
      simp only [deepRedact, if_neg unseen, shown, rebuilt]
      exact ⟨trivial, within.cons⟩
  | onObject identity properties ih | onError identity own properties ih =>
      intro seen apart
      rw [identities] at apart ⊢
      obtain ⟨unseen, inside⟩ := apart.cons
      obtain ⟨shown, within⟩ := redactProperties_unshared ih inside
      simp only [deepRedact, if_neg unseen, shown, rebuilt]
      exact ⟨trivial, within.cons⟩
  | onDate identity time =>
      intro seen apart
      rw [identities] at apart ⊢
      obtain ⟨unseen, _⟩ := apart.cons
      have nothing : Within (identity :: seen) (identity :: seen) [] :=
        fun _ member => Or.inl member
      simp only [deepRedact, if_neg unseen, rebuilt]
      exact ⟨trivial, nothing.cons⟩

/-- The redaction of a value without shared objects. -/
theorem deepRedact_unshared {value : LogValue} (distinct : value.identities.Nodup)
    : (value.deepRedact []).1 = value.rebuilt :=
  (unshared value [] ⟨distinct, fun _ _ => List.not_mem_nil⟩).1

-----------------------------------------------------------------------------------------
-- What a redaction preserves
-----------------------------------------------------------------------------------------

section Preserved

variable (strict : Bool)

mutual

/-- Outside values under sensitive keys the value has no date, and no `__proto__` property that
is written. In the strict sense it has no error and no such property at all.
-/
def preserved : LogValue → Bool
  | primitive _ => true
  | array _ items => preservedItems items
  | object _ properties => preservedProperties properties
  | error _ _ properties => !strict && preservedProperties properties
  | date _ _ => false

def preservedItems : List LogValue → Bool
  | [] => true
  | item :: rest => preserved item && preservedItems rest

def preservedProperties : List (String × LogValue) → Bool
  | [] => true
  | (key, value) :: rest =>
      (if key ∈ sensitiveLogKeys then true
      else if key = "__proto__" then !strict && (toJson value).isNone
      else preserved value)
        && preservedProperties rest

end

/-- One property is preserved. -/
def Kept (entry : String × LogValue) : Prop :=
  if entry.1 ∈ sensitiveLogKeys then True
  else if entry.1 = "__proto__" then strict = false ∧ toJson entry.2 = none
  else preserved strict entry.2 = true

theorem preservedItems_iff (items : List LogValue)
    : preservedItems strict items = true
      ↔ ∀ item ∈ items, preserved strict item = true := by
  induction items with
  | nil => simp [preservedItems]
  | cons item rest ih => simp [preservedItems, ih]

theorem preservedProperties_iff (properties : List (String × LogValue))
    : preservedProperties strict properties = true
      ↔ ∀ entry ∈ properties, Kept strict entry := by
  induction properties with
  | nil => simp [preservedProperties]
  | cons entry rest ih =>
      rw [preservedProperties, Bool.and_eq_true, ih, List.forall_mem_cons]
      refine and_congr_left fun _ => ?_
      unfold Kept
      split
      · simp
      · split <;> simp

end Preserved

/-- A property named `__proto__` is not sensitive. -/
theorem proto_not_sensitive : "__proto__" ∉ sensitiveLogKeys := by
  decide

/-- What is strictly preserved is rebuilt as it is, by induction on the value. -/
theorem rebuilt_strict (value : LogValue)
    (kept : preserved true value = true)
    : value.rebuilt = value.masked := by
  induction value using induct with
  | onPrimitive value => rfl
  | onArray identity items ih =>
      rw [preserved, preservedItems_iff] at kept
      rw [rebuilt, masked, rebuiltItems_eq, maskedItems_eq]
      exact congrArg _ (List.map_congr_left fun item member => ih item member (kept item member))
  | onObject identity properties ih =>
      rw [preserved, preservedProperties_iff] at kept
      have plain : ∀ entry ∈ properties, entry.1 ≠ "__proto__" := by
        intro entry member proto
        have here := kept entry member
        rw [Kept, proto, if_neg proto_not_sensitive, if_pos rfl] at here
        exact absurd here.1 (by decide)
      have each : ∀ entry ∈ properties, entryWith rebuilt entry = entryWith masked entry := by
        intro entry member
        have here := kept entry member
        unfold entryWith
        rw [Kept, if_neg (plain entry member)] at here
        split
        · rfl
        · rename_i insensitive
          rw [if_neg insensitive] at here
          rw [ih entry member here]
      rw [rebuilt, masked, rebuiltProperties_eq, maskedProperties_eq, List.map_congr_left each]
      congr 1
      rw [assigned, List.filter_eq_self]
      intro entry member
      obtain ⟨before, among, rfl⟩ := List.mem_map.mp member
      simpa using plain before among
  | onError identity own properties ih =>
      rw [preserved] at kept
      exact absurd kept (by simp)
  | onDate identity time =>
      rw [preserved] at kept
      exact absurd kept (by decide)

-----------------------------------------------------------------------------------------
-- What is written of an object
-----------------------------------------------------------------------------------------

theorem propertiesToJson_eq (properties : List (String × LogValue))
    : propertiesToJson properties = written (fun _ => toJson) properties := by
  induction properties with
  | nil => rfl
  | cons entry rest ih =>
      rw [propertiesToJson, ih, written, written, List.filterMap_cons]
      cases toJson entry.2 <;> rfl

theorem itemsToJson_eq (items : List LogValue)
    : itemsToJson items = items.map (fun item => (toJson item).getD .null) := by
  induction items with
  | nil => rfl
  | cons item rest ih => rw [itemsToJson, ih, List.map_cons]

/-- Of one property the same is written of the rebuilt value as of the masked one; a `__proto__`
property, which is not rebuilt, is not written at all.
-/
def WrittenAlike (write : String → LogValue → Option Json) (entry : String × LogValue) : Prop :=
  if entry.1 ∈ sensitiveLogKeys then True
  else if entry.1 = "__proto__" then write entry.1 entry.2.masked = none
  else write entry.1 entry.2.rebuilt = write entry.1 entry.2.masked

section Written

variable {write : String → LogValue → Option Json} {properties : List (String × LogValue)}

/-- What is written has the key of a property. -/
theorem key_of_written {key : String} {json : Json}
    (member : (key, json) ∈ written write properties)
    : ∃ value, (key, value) ∈ properties ∧ write key value = some json := by
  obtain ⟨⟨name, value⟩, among, same⟩ := List.mem_filterMap.mp member
  obtain ⟨shown, some, pair⟩ := Option.map_eq_some_iff.mp same
  obtain ⟨rfl, rfl⟩ := Prod.mk.inj pair
  exact ⟨value, among, some⟩

/-- No `__proto__` property is assigned. -/
theorem proto_not_assigned (value : LogValue) : ("__proto__", value) ∉ assigned properties := by
  unfold assigned
  simp

@[simp] theorem assigned_proto (value : LogValue)
    : assigned (("__proto__", value) :: properties) = assigned properties := by
  simp [assigned]

theorem assigned_other {key : String} (plain : key ≠ "__proto__") (value : LogValue)
    : assigned ((key, value) :: properties) = (key, value) :: assigned properties := by
  simp [assigned, plain]

theorem written_cons_none {key : String} {value : LogValue} (hidden : write key value = none)
    : written write ((key, value) :: properties) = written write properties := by
  simp [written, hidden]

theorem written_cons_some {key : String} {value : LogValue} {json : Json}
    (shown : write key value = some json)
    : written write ((key, value) :: properties) = (key, json) :: written write properties := by
  simp [written, shown]

/-- One property more that is written alike. -/
theorem written_cons_congr {key : String} {one two : LogValue}
    {others : List (String × LogValue)} (alike : write key one = write key two)
    (same : written write properties = written write others)
    : written write ((key, one) :: properties) = written write ((key, two) :: others) := by
  cases shown : write key two with
  | none => rw [written_cons_none shown, written_cons_none (alike.trans shown), same]
  | some json => rw [written_cons_some shown, written_cons_some (alike.trans shown), same]

/-- One property more that is written or not of either: it was written alike. -/
theorem alike_of_cons {key : String} {one two : LogValue} {others : List (String × LogValue)}
    (shown : (write key one).isSome = (write key two).isSome)
    (same : written write ((key, one) :: properties) = written write ((key, two) :: others))
    : write key one = write key two ∧ written write properties = written write others := by
  cases left : write key one with
  | none =>
      have right : write key two = none := by simpa [left] using shown.symm
      rw [written_cons_none left, written_cons_none right] at same
      exact ⟨right.symm, same⟩
  | some json =>
      rw [left] at shown
      obtain ⟨other, right⟩ := Option.isSome_iff_exists.mp shown.symm
      rw [written_cons_some left, written_cons_some right, List.cons.injEq] at same
      exact ⟨by rw [right, (Prod.mk.inj same.1).2], same.2⟩

/-- What is written is the same when it is the same of each property, by induction on them. -/
theorem written_eq (alike : ∀ entry ∈ properties, WrittenAlike write entry)
    : written write (assigned (rebuiltProperties properties))
      = written write (maskedProperties properties) := by
  induction properties with
  | nil => rfl
  | cons entry rest ih =>
      obtain ⟨key, value⟩ := entry
      have others := ih fun entry member => alike entry (List.mem_cons_of_mem _ member)
      have here := alike _ (List.mem_cons_self ..)
      rw [rebuiltProperties, maskedProperties]
      unfold WrittenAlike at here
      by_cases sensitive : key ∈ sensitiveLogKeys
      · have plain : key ≠ "__proto__" := fun proto => proto_not_sensitive (proto ▸ sensitive)
        rw [if_pos sensitive, if_pos sensitive, assigned_other plain]
        exact written_cons_congr rfl others
      · rw [if_neg sensitive] at here
        rw [if_neg sensitive, if_neg sensitive]
        by_cases proto : key = "__proto__"
        · rw [if_pos proto] at here
          rw [written_cons_none here, proto, assigned_proto, others]
        · rw [if_neg proto] at here
          rw [assigned_other proto]
          exact written_cons_congr here others

/-- Where a value is written as often as the other, what is written is the same only when it is
the same of each property, by induction on them.
-/
theorem alike_of_written
    (shown
      : ∀ entry ∈ properties,
          entry.1 ∉ sensitiveLogKeys
          → entry.1 ≠ "__proto__"
          → (write entry.1 entry.2.rebuilt).isSome = (write entry.1 entry.2.masked).isSome)
    (same
      : written write (assigned (rebuiltProperties properties))
          = written write (maskedProperties properties))
    : ∀ entry ∈ properties, WrittenAlike write entry := by
  induction properties with
  | nil => exact fun _ absurd => (List.not_mem_nil absurd).elim
  | cons entry rest ih =>
      obtain ⟨key, value⟩ := entry
      have others := ih fun entry member => shown entry (List.mem_cons_of_mem _ member)
      have here := shown _ (List.mem_cons_self ..)
      rw [rebuiltProperties, maskedProperties] at same
      rw [List.forall_mem_cons]
      unfold WrittenAlike
      by_cases sensitive : key ∈ sensitiveLogKeys
      · have plain : key ≠ "__proto__" := fun proto => proto_not_sensitive (proto ▸ sensitive)
        rw [if_pos sensitive, if_pos sensitive, assigned_other plain] at same
        rw [if_pos sensitive]
        exact ⟨trivial, others (alike_of_cons rfl same).2⟩
      · rw [if_neg sensitive, if_neg sensitive] at same
        rw [if_neg sensitive]
        by_cases proto : key = "__proto__"
        · subst proto
          rw [assigned_proto] at same
          rw [if_pos rfl]
          cases hidden : write "__proto__" value.masked with
          | none =>
              rw [written_cons_none hidden] at same
              exact ⟨rfl, others same⟩
          | some json =>
              -- the rebuilt object has no such property
              rw [written_cons_some hidden] at same
              have member := List.mem_cons_self (a := ("__proto__", json))
                (l := written write (maskedProperties rest))
              rw [← same] at member
              obtain ⟨_, among, _⟩ := key_of_written member
              exact absurd among (proto_not_assigned _)
        · rw [assigned_other proto] at same
          obtain ⟨alike, after⟩ := alike_of_cons (here sensitive proto) same
          rw [if_neg proto]
          exact ⟨alike, others after⟩

end Written

-----------------------------------------------------------------------------------------
-- What JSON shows of a redaction
-----------------------------------------------------------------------------------------

/-- A value is written or not, whatever is replaced inside. -/
theorem shown_masked (value : LogValue)
    : (toJson value.masked).isSome = (toJson value).isSome := by
  cases value <;> rfl

/-- A value is written or not, whatever is rebuilt inside. -/
theorem shown_rebuilt (value : LogValue)
    : (toJson value.rebuilt).isSome = (toJson value.masked).isSome := by
  cases value <;> rfl

/-- Array items that are written or not alike. -/
theorem getD_inj {one two : Option Json} (shown : one.isSome = two.isSome)
    : one.getD .null = two.getD .null ↔ one = two := by
  cases one <;> cases two <;> simp_all

/-- A property is written alike exactly when it is preserved, if that holds of its value. -/
theorem writtenAlike_iff {entry : String × LogValue}
    (value
      : toJson entry.2.rebuilt = toJson entry.2.masked
        ↔ preserved false entry.2 = true)
    : WrittenAlike (fun _ => toJson) entry ↔ Kept false entry := by
  unfold WrittenAlike Kept
  split
  · rfl
  · split
    · have shown := shown_masked entry.2
      cases masked : toJson entry.2.masked <;>
        cases original : toJson entry.2 <;> simp_all
    · exact value

/-- The properties of a rebuilt object are written as those of the masked one exactly when they
are preserved, if that holds of their values.
-/
theorem written_eq_iff {properties : List (String × LogValue)}
    (each
      : ∀ entry ∈ properties,
          toJson entry.2.rebuilt = toJson entry.2.masked
          ↔ preserved false entry.2 = true)
    : written (fun _ => toJson) (assigned (rebuiltProperties properties))
        = written (fun _ => toJson) (maskedProperties properties)
      ↔ preservedProperties false properties = true := by
  have one := fun entry member => writtenAlike_iff (each entry member)
  rw [preservedProperties_iff]
  constructor
  · intro same entry member
    exact (one entry member).mp
      (alike_of_written (fun entry _ _ _ => shown_rebuilt entry.2) same entry member)
  · intro kept
    exact written_eq fun entry member => (one entry member).mpr (kept entry member)

/-- A value is written as if it had been masked in place exactly when it is preserved, by
induction on the value.
-/
theorem toJson_rebuilt (value : LogValue)
    : toJson value.rebuilt = toJson value.masked
      ↔ preserved false value = true := by
  induction value using induct with
  | onPrimitive value => simp [rebuilt, masked, preserved]
  | onArray identity items ih =>
      simp only [rebuilt, masked, toJson, Option.some.injEq, Json.arr.injEq, itemsToJson_eq,
        rebuiltItems_eq, maskedItems_eq, List.map_map, preserved, preservedItems_iff,
        List.map_inj_left, Function.comp_apply]
      exact forall₂_congr fun item member =>
        (getD_inj (shown_rebuilt item)).trans (ih item member)
  | onObject identity properties ih =>
      simp only [rebuilt, masked, toJson, Option.some.injEq, Json.obj.injEq, propertiesToJson_eq,
        preserved]
      exact written_eq_iff ih
  | onError identity own properties ih =>
      simp only [rebuilt, masked, toJson, Option.some.injEq, Json.obj.injEq, propertiesToJson_eq,
        preserved, Bool.not_false, Bool.true_and]
      exact written_eq_iff ih
  | onDate identity time =>
      have differs : dateToJson time ≠ .obj [] := by
        unfold dateToJson
        split <;> simp
      simpa [rebuilt, masked, toJson, propertiesToJson, preserved] using differs.symm

-----------------------------------------------------------------------------------------
-- Looking like an error
-----------------------------------------------------------------------------------------

/-- A value that is not an error may be taken for one: it has a text for a message. An error may
keep what pino reads of it.
-/
def LookAlike : LogValue → Prop
  | object _ properties => ∃ message, ("message", text message) ∈ properties
  | error _ _ properties => ∃ key ∈ errorKeys, ∃ value, (key, value) ∈ properties
  | primitive _ | array _ _ | date _ _ => False

/-- Nothing is a text after a redaction that was none before. -/
theorem text_of_rebuilt {value : LogValue} {shown : String} (same : value.rebuilt = text shown)
    : value = text shown := by
  cases value with
  | primitive value => exact same
  | array identity items | object identity properties | error identity own properties
  | date identity time =>
      rw [rebuilt] at same
      cases same

/-- Nothing is a text with its parts replaced that was none before. -/
theorem text_of_masked {value : LogValue} {shown : String} (same : value.masked = text shown)
    : value = text shown := by
  cases value with
  | primitive value => exact same
  | array identity items | object identity properties | error identity own properties
  | date identity time =>
      rw [masked] at same
      cases same

section Properties

variable {properties : List (String × LogValue)} {key : String} {value : LogValue}

/-- An insensitive property after a redaction is one from before. -/
theorem property_of_entryWith {redact : LogValue → LogValue} (insensitive : key ∉ sensitiveLogKeys)
    (member : (key, value) ∈ properties.map (entryWith redact))
    : ∃ before, (key, before) ∈ properties ∧ redact before = value := by
  obtain ⟨⟨name, before⟩, among, same⟩ := List.mem_map.mp member
  have named : name = key := by simpa using congrArg Prod.fst same
  subst named
  rw [entryWith, if_neg insensitive] at same
  exact ⟨before, among, (Prod.mk.inj same).2⟩

/-- An insensitive property of a rebuilt object is one from before. -/
theorem property_of_rebuilt (insensitive : key ∉ sensitiveLogKeys)
    (member : (key, value) ∈ assigned (rebuiltProperties properties))
    : ∃ before, (key, before) ∈ properties ∧ before.rebuilt = value := by
  rw [rebuiltProperties_eq] at member
  exact property_of_entryWith insensitive (List.mem_filter.mp member).1

/-- A text for a message is the message from before. -/
theorem message_of_entryWith {redact : LogValue → LogValue}
    (texts : ∀ value shown, redact value = text shown → value = text shown) {message : String}
    (member : ("message", text message) ∈ properties.map (entryWith redact))
    : ("message", text message) ∈ properties := by
  obtain ⟨before, among, same⟩ := property_of_entryWith (by decide) member
  rw [texts before message same] at among
  exact among

end Properties

/-- What does not look like an error does not look like one after a redaction. -/
theorem rebuilt_not_errorLike {value : LogValue} (other : ¬ value.ErrorLike)
    : ¬ value.rebuilt.ErrorLike := by
  cases value with
  | primitive value | array identity items => exact id
  | object identity properties =>
      rw [rebuilt, rebuiltProperties_eq]
      intro like
      obtain ⟨message, member⟩ := like
      have among := (List.mem_filter.mp member).1
      exact other ⟨message, message_of_entryWith (fun _ _ => text_of_rebuilt) among⟩
  | error identity own properties => exact absurd trivial other
  | date identity time =>
      rw [rebuilt]
      intro like
      obtain ⟨message, member⟩ := like
      exact List.not_mem_nil member

/-- What does not look like an error does not look like one when its parts are replaced. -/
theorem masked_not_errorLike {value : LogValue} (other : ¬ value.ErrorLike)
    : ¬ value.masked.ErrorLike := by
  cases value with
  | primitive value | array identity items | date identity time => exact id
  | object identity properties =>
      rw [masked, maskedProperties_eq]
      intro like
      obtain ⟨message, member⟩ := like
      exact other ⟨message, message_of_entryWith (fun _ _ => text_of_masked) member⟩
  | error identity own properties => exact absurd trivial other

/-- A rebuilt error does not look like an error, unless it had a message to enumerate. -/
theorem rebuilt_error_not_errorLike {identity : Nat} {own : ErrorData}
    {properties : List (String × LogValue)} (plain : ¬ (error identity own properties).LookAlike)
    : ¬ (error identity own properties).rebuilt.ErrorLike := by
  rw [rebuilt]
  intro like
  obtain ⟨message, member⟩ := like
  obtain ⟨before, among, _⟩ := property_of_rebuilt (by decide) member
  exact plain ⟨"message", by decide, before, among⟩

-----------------------------------------------------------------------------------------
-- What can be written as JSON
-----------------------------------------------------------------------------------------

theorem plainItems_iff (items : List LogValue)
    : plainItems items = true ↔ ∀ item ∈ items, item.plain = true := by
  induction items with
  | nil => simp [plainItems]
  | cons item rest ih => simp [plainItems, ih]

theorem plainProperties_iff (properties : List (String × LogValue))
    : plainProperties properties = true
      ↔ ∀ entry ∈ properties,
          entry.1 ∈ sensitiveLogKeys ∨ (entry.1 ≠ "__proto__" ∧ entry.2.plain = true) := by
  induction properties with
  | nil => simp [plainProperties]
  | cons entry rest ih => simp [plainProperties, ih]

/-- Properties stay plain where their values do. -/
theorem plain_entryWith {redact : LogValue → LogValue} {properties : List (String × LogValue)}
    (plain : plainProperties properties = true)
    (each : ∀ entry ∈ properties, entry.2.plain = true → (redact entry.2).plain = true)
    : ∀ entry ∈ properties.map (entryWith redact),
        entry.1 ∈ sensitiveLogKeys ∨ (entry.1 ≠ "__proto__" ∧ entry.2.plain = true) := by
  intro shown member
  obtain ⟨entry, among, rfl⟩ := List.mem_map.mp member
  rw [plainProperties_iff] at plain
  rcases plain entry among with sensitive | ⟨other, here⟩
  · exact Or.inl (by rwa [entryWith_fst])
  · by_cases sensitive : entry.1 ∈ sensitiveLogKeys
    · exact Or.inl (by rwa [entryWith_fst])
    · rw [entryWith, if_neg sensitive]
      exact Or.inr ⟨other, each entry among here⟩

/-- A redaction keeps a value plain, by induction on the value. -/
theorem plain_rebuilt (value : LogValue) (plain : value.plain = true)
    : value.rebuilt.plain = true := by
  induction value using induct with
  | onPrimitive value => exact plain
  | onArray identity items ih =>
      rw [LogValue.plain, plainItems_iff] at plain
      rw [rebuilt, LogValue.plain, rebuiltItems_eq, plainItems_iff]
      intro shown member
      obtain ⟨item, among, rfl⟩ := List.mem_map.mp member
      exact ih item among (plain item among)
  | onObject identity properties ih | onError identity own properties ih =>
      rw [rebuilt, LogValue.plain, rebuiltProperties_eq, plainProperties_iff]
      exact fun entry member =>
        plain_entryWith (by simpa only [LogValue.plain] using plain) ih entry
          (List.mem_filter.mp member).1
  | onDate identity time => rfl

/-- So does masking it, by induction on the value. -/
theorem plain_masked (value : LogValue) (plain : value.plain = true)
    : value.masked.plain = true := by
  induction value using induct with
  | onPrimitive value => exact plain
  | onArray identity items ih =>
      rw [LogValue.plain, plainItems_iff] at plain
      rw [masked, LogValue.plain, maskedItems_eq, plainItems_iff]
      intro shown member
      obtain ⟨item, among, rfl⟩ := List.mem_map.mp member
      exact ih item among (plain item among)
  | onObject identity properties ih | onError identity own properties ih =>
      rw [masked, LogValue.plain, maskedProperties_eq, plainProperties_iff]
      exact fun entry member =>
        plain_entryWith (by simpa only [LogValue.plain] using plain) ih entry member
  | onDate identity time => rfl

-----------------------------------------------------------------------------------------
-- The keys of a log argument
-----------------------------------------------------------------------------------------

/-- The keys that are looked for are no indices. -/
theorem index_not_mem {keys : List String}
    (named : keys.all (fun key => key.toList.any (fun char => !char.isDigit)) = true) (index : Nat)
    : toString index ∉ keys := by
  intro member
  have other := List.all_eq_true.mp named _ member
  obtain ⟨char, among, letter⟩ := List.any_eq_true.mp other
  have digit : char.isDigit = true := Number.isDigit_of_mem_repr among
  rw [digit] at letter
  cases letter

theorem key_of_indexed {items : List LogValue} {entry : String × LogValue}
    (member : entry ∈ indexed items)
    : ∃ index, entry.1 = toString (index : Nat) := by
  obtain ⟨⟨item, index⟩, _, rfl⟩ := List.mem_map.mp member
  exact ⟨index, rfl⟩

/-- The items of an array are redacted under their indices. -/
theorem indexed_map (redact : LogValue → LogValue) (items : List LogValue)
    : indexed (items.map redact) = (indexed items).map (entryWith redact) := by
  have each : ∀ entry ∈ indexed items, entryWith redact entry = (entry.1, redact entry.2) := by
    intro entry member
    obtain ⟨index, named⟩ := key_of_indexed member
    rw [entryWith, if_neg (named ▸ index_not_mem (by decide) index)]
  rw [List.map_congr_left each, indexed, List.zipIdx_map, List.map_map, indexed, List.map_map]
  rfl

theorem indexed_rebuilt (items : List LogValue)
    : indexed (rebuiltItems items) = assigned (rebuiltProperties (indexed items)) := by
  rw [rebuiltItems_eq, rebuiltProperties_eq, indexed_map, assigned, eq_comm, List.filter_eq_self]
  intro entry member
  obtain ⟨before, among, rfl⟩ := List.mem_map.mp member
  obtain ⟨index, named⟩ := key_of_indexed among
  have other : toString index ∉ ["__proto__"] := index_not_mem (by decide) index
  simpa [named] using other

theorem indexed_masked (items : List LogValue)
    : indexed (maskedItems items) = maskedProperties (indexed items) := by
  rw [maskedItems_eq, maskedProperties_eq, indexed_map]

/-- Redacted properties have the keys from before. -/
theorem httpLike_of_keys {properties others : List (String × LogValue)}
    (kept : ∀ key value, (key, value) ∈ others → ∃ before, (key, before) ∈ properties)
    (like : HttpLike others)
    : HttpLike properties := by
  rcases like with request | ⟨value, response⟩
  · refine Or.inl fun key named => ?_
    obtain ⟨value, member⟩ := request key named
    exact kept key value member
  · exact Or.inr (kept "setHeader" value response)

theorem httpLike_of_entryWith {redact : LogValue → LogValue}
    {properties : List (String × LogValue)} (like : HttpLike (properties.map (entryWith redact)))
    : HttpLike properties := by
  refine httpLike_of_keys (fun key value member => ?_) like
  obtain ⟨⟨name, before⟩, among, same⟩ := List.mem_map.mp member
  have named : name = key := by simpa using congrArg Prod.fst same
  exact ⟨before, named ▸ among⟩

theorem httpLike_of_masked {properties : List (String × LogValue)}
    (like : HttpLike (maskedProperties properties))
    : HttpLike properties :=
  httpLike_of_entryWith (maskedProperties_eq properties ▸ like)

theorem httpLike_of_rebuilt {properties : List (String × LogValue)}
    (like : HttpLike (assigned (rebuiltProperties properties)))
    : HttpLike properties := by
  rw [rebuiltProperties_eq] at like
  exact httpLike_of_entryWith (httpLike_of_keys (fun key value member =>
    ⟨value, (List.mem_filter.mp member).1⟩) like)

-----------------------------------------------------------------------------------------
-- What pino writes of a redaction
-----------------------------------------------------------------------------------------

/-- What stands under the key is written as JSON, as far as pino's documentation tells. -/
def WrittenAsJson (key : String) (value : LogValue) : Prop :=
  key ∉ inheritedKeys ∧ value.plain = true ∧ (key = "err" → ¬ value.ErrorLike)

/-- A property of a log argument loses nothing: its key is sensitive; it stands under `__proto__`
and is not defined; outside values under sensitive keys it has no error, no date and no
`__proto__` property; or it is written as JSON, and JSON shows no date in it.
-/
def EntryKept (entry : String × LogValue) : Prop :=
  entry.1 ∈ sensitiveLogKeys
  ∨ (entry.1 = "__proto__" ∧ entry.2 = primitive .undefined)
  ∨ (entry.1 ≠ "__proto__" ∧ preserved true entry.2 = true)
  ∨ (WrittenAsJson entry.1 entry.2 ∧ preserved false entry.2 = true)

/-- What is written of the property can be told: it loses nothing, or it stands under a key that
is not inherited, and can be written as JSON or is an error under `err`.
-/
def EntryUnmistaken (entry : String × LogValue) : Prop :=
  EntryKept entry
  ∨ (entry.1 ∉ inheritedKeys ∧ entry.2.plain = true ∧ (entry.1 = "err" → ¬ entry.2.LookAlike))

/-- No property loses anything; the value is not an error, and what is logged in a way of its
own has no error, no date and no `__proto__` property at all.
-/
def Lossless : LogValue → Prop
  | primitive _ | date _ _ => True
  | array _ items => ∀ entry ∈ indexed items, EntryKept entry
  | object _ properties =>
      (∀ entry ∈ properties, EntryKept entry)
      ∧ (HttpLike properties → preservedProperties true properties = true)
  | error _ _ _ => False

/-- What is written of the value can be told. -/
def Unmistaken : LogValue → Prop
  | primitive _ | date _ _ => True
  | array _ items => ∀ entry ∈ indexed items, EntryUnmistaken entry
  | object _ properties =>
      (∀ entry ∈ properties, EntryUnmistaken entry)
      ∧ (HttpLike properties → preservedProperties true properties = true)
  | error _ _ properties =>
      ¬ HttpLike properties
      ∧ plainProperties properties = true
      ∧ ∀ key ∈ "err" :: errorKeys, ∀ value, (key, value) ∉ properties

section Pino

variable {pino : Pino} {entry : String × LogValue} {properties : List (String × LogValue)}

/-- What is written as JSON is written so when it is rebuilt or masked. -/
theorem alike_of_json (documented : pino.Documented) {key : String} {value : LogValue}
    (insensitive : key ∉ sensitiveLogKeys) (json : WrittenAsJson key value)
    : pino.write key value.rebuilt = value.rebuilt.toJson
      ∧ pino.write key value.masked = value.masked.toJson := by
  obtain ⟨own, plain, other⟩ := json
  have rebuilt :=
    documented.json key value.rebuilt insensitive own (plain_rebuilt value plain)
      (masked_rebuilt value) (fun err => rebuilt_not_errorLike (other err))
  have masked :=
    documented.json key value.masked insensitive own (plain_masked value plain)
      (masked_masked value) (fun err => masked_not_errorLike (other err))
  exact ⟨rebuilt, masked⟩

/-- A property that loses nothing is written alike. -/
theorem alike_of_kept (documented : pino.Documented) (kept : EntryKept entry)
    : WrittenAlike pino.write entry := by
  unfold WrittenAlike
  split
  · trivial
  · rename_i insensitive
    rcases kept with sensitive | ⟨proto, unset⟩ | ⟨other, strict⟩ | ⟨json, preserved⟩
    · exact absurd sensitive insensitive
    · rw [if_pos proto, unset]
      exact documented.undefined entry.1
    · rw [if_neg other, rebuilt_strict entry.2 strict]
    · have other : entry.1 ≠ "__proto__" := fun proto => json.1 (proto ▸ by decide)
      obtain ⟨rebuilt, masked⟩ := alike_of_json documented insensitive json
      rw [if_neg other, rebuilt, masked]
      exact (toJson_rebuilt entry.2).mpr preserved

/-- Of a masked error the message is written. -/
theorem error_written (documented : pino.Documented) (identity : Nat) (own : ErrorData)
    (whole : plainProperties properties = true)
    (free : ∀ key ∈ errorKeys, ∀ value, (key, value) ∉ properties)
    : ∃ members,
        pino.write "err" (error identity own properties).masked = some (.obj members)
        ∧ ("message", .str own.message) ∈ members := by
  have plain := plain_masked (error identity own properties) (by rwa [LogValue.plain])
  rw [masked, LogValue.plain] at plain
  have others : ∀ key ∈ errorKeys, ∀ value, (key, value) ∉ maskedProperties properties := by
    intro key named value member
    have names : ∀ key ∈ errorKeys, key ∉ sensitiveLogKeys := by decide
    rw [maskedProperties_eq] at member
    obtain ⟨before, among, _⟩ := property_of_entryWith (names key named) member
    exact free key named before among
  obtain ⟨members, written, _, message, _⟩ := documented.err identity own _ plain others
  exact ⟨members, written, message⟩

/-- An error under `err` is not written as it would be if it had not been rebuilt: its message
is lost.
-/
theorem error_not_alike (documented : pino.Documented) {identity : Nat} {own : ErrorData}
    (whole : plainProperties properties = true)
    (plain : ¬ (error identity own properties).LookAlike)
    : (pino.write "err" (error identity own properties).rebuilt).isSome
          = (pino.write "err" (error identity own properties).masked).isSome
      ∧ pino.write "err" (error identity own properties).rebuilt
        ≠ pino.write "err" (error identity own properties).masked := by
  have free : ∀ key ∈ errorKeys, ∀ value, (key, value) ∉ properties :=
    fun key named value member => plain ⟨key, named, value, member⟩
  obtain ⟨members, written, message⟩ := error_written documented identity own whole free
  have rebuilt : pino.write "err" (error identity own properties).rebuilt
      = (error identity own properties).rebuilt.toJson :=
    documented.json "err" _ (by decide) (by decide)
      (plain_rebuilt (error identity own properties) (by rwa [LogValue.plain]))
      (masked_rebuilt (error identity own properties))
      (fun _ => rebuilt_error_not_errorLike plain)
  rw [rebuilt, written]
  refine ⟨rfl, fun alike => ?_⟩
  rw [LogValue.rebuilt, toJson, Option.some.injEq, Json.obj.injEq, propertiesToJson_eq] at alike
  rw [← alike] at message
  obtain ⟨value, among, -⟩ := key_of_written message
  obtain ⟨before, original, -⟩ := property_of_rebuilt (by decide) among
  exact plain ⟨"message", by decide, before, original⟩

/-- Where it can be told, a property is written or not alike, and loses nothing if it is written
alike.
-/
theorem kept_of_alike (documented : pino.Documented) (unmistaken : EntryUnmistaken entry)
    (insensitive : entry.1 ∉ sensitiveLogKeys) (other : entry.1 ≠ "__proto__")
    : (pino.write entry.1 entry.2.rebuilt).isSome = (pino.write entry.1 entry.2.masked).isSome
      ∧ (pino.write entry.1 entry.2.rebuilt = pino.write entry.1 entry.2.masked
        → EntryKept entry) := by
  rcases unmistaken with kept | ⟨own, plain, exact'⟩
  · have alike := alike_of_kept documented kept
    rw [WrittenAlike, if_neg insensitive, if_neg other] at alike
    exact ⟨congrArg Option.isSome alike, fun _ => kept⟩
  · obtain ⟨key, value⟩ := entry
    by_cases json : key = "err" → ¬ value.ErrorLike
    · obtain ⟨rebuilt, masked⟩ := alike_of_json documented insensitive ⟨own, plain, json⟩
      dsimp only
      rw [rebuilt, masked]
      refine ⟨shown_rebuilt value, fun same => ?_⟩
      exact Or.inr (Or.inr (Or.inr ⟨⟨own, plain, json⟩, (toJson_rebuilt value).mp same⟩))
    · rw [Classical.not_imp, not_not] at json
      obtain ⟨rfl, like⟩ := json
      cases value with
      | error identity data properties =>
          rw [LogValue.plain] at plain
          obtain ⟨shown, differs⟩ := error_not_alike documented plain (exact' rfl)
          exact ⟨shown, fun same => absurd same differs⟩
      | object identity properties => exact absurd like (exact' rfl)
      | primitive _ | array _ _ | date _ _ => exact like.elim

/-- Properties that lose nothing are written alike, and where it can be told only these. -/
theorem kept_of_written (documented : pino.Documented)
    (unmistaken : ∀ entry ∈ properties, EntryUnmistaken entry)
    (same
      : written pino.write (assigned (rebuiltProperties properties))
        = written pino.write (maskedProperties properties))
    : ∀ entry ∈ properties, EntryKept entry := by
  have alike := alike_of_written
    (fun entry member insensitive other =>
      (kept_of_alike documented (unmistaken entry member) insensitive other).1) same
  intro entry member
  have here := alike entry member
  by_cases sensitive : entry.1 ∈ sensitiveLogKeys
  · exact Or.inl sensitive
  · by_cases proto : entry.1 = "__proto__"
    · rcases unmistaken entry member with kept | ⟨own, _⟩
      · exact kept
      · exact absurd (proto ▸ by decide) own
    · rw [WrittenAlike, if_neg sensitive, if_neg proto] at here
      exact (kept_of_alike documented (unmistaken entry member) sensitive proto).2 here

/-- What is lossless is written as if it had been masked in place. -/
theorem record_of_lossless (documented : pino.Documented) {root : LogValue}
    (lossless : Lossless root)
    : pino.record root.rebuilt = pino.record root.masked := by
  cases root with
  | primitive value => rfl
  | array identity items =>
      rw [rebuilt, masked, documented.array, documented.array, indexed_rebuilt, indexed_masked]
      exact written_eq fun entry member => alike_of_kept documented (lossless entry member)
  | object identity properties =>
      obtain ⟨kept, http⟩ := lossless
      by_cases like : HttpLike properties
      · rw [rebuilt_strict (object identity properties) (by rw [preserved]; exact http like)]
      · rw [rebuilt, masked, documented.object _ _ (mt httpLike_of_rebuilt like),
          documented.object _ _ (mt httpLike_of_masked like)]
        exact written_eq fun entry member => alike_of_kept documented (kept entry member)
  | error identity own properties => exact lossless.elim
  | date identity time =>
      have empty : ¬ HttpLike [] := by
        rintro (request | ⟨value, absurd⟩)
        · obtain ⟨value, absurd⟩ := request "method" (by decide)
          exact List.not_mem_nil absurd
        · exact List.not_mem_nil absurd
      rw [rebuilt, masked, documented.object _ _ empty, documented.date]
      rfl

/-- What is written as if it had been masked in place is lossless, if what is written of it can
be told.
-/
theorem lossless_of_record (documented : pino.Documented) {root : LogValue}
    (unmistaken : Unmistaken root) (same : pino.record root.rebuilt = pino.record root.masked)
    : Lossless root := by
  cases root with
  | primitive value => trivial
  | array identity items =>
      rw [rebuilt, masked, documented.array, documented.array, indexed_rebuilt,
        indexed_masked] at same
      exact kept_of_written documented unmistaken same
  | object identity properties =>
      obtain ⟨entries, http⟩ := unmistaken
      refine ⟨?_, http⟩
      by_cases like : HttpLike properties
      · have strict := (preservedProperties_iff true properties).mp (http like)
        intro entry member
        have here := strict entry member
        unfold Kept at here
        split at here
        · exact Or.inl ‹_›
        · split at here
          · cases here.1
          · exact Or.inr (Or.inr (Or.inl ⟨‹_›, here⟩))
      · rw [rebuilt, masked, documented.object _ _ (mt httpLike_of_rebuilt like),
          documented.object _ _ (mt httpLike_of_masked like)] at same
        exact kept_of_written documented entries same
  | error identity own properties =>
      obtain ⟨other, plain, free⟩ := unmistaken
      obtain ⟨members, shown, _⟩ := error_written documented identity own plain
        (fun key named => free key (List.mem_cons_of_mem _ named))
      rw [masked] at shown
      rw [rebuilt, masked, documented.object _ _ (mt httpLike_of_rebuilt other),
        documented.error _ _ _ (mt httpLike_of_masked other), written_cons_some shown] at same
      have member :=
        List.mem_cons_self (a := ("err", Json.obj members)) (l := written pino.write [])
      rw [← same] at member
      obtain ⟨value, among, -⟩ := key_of_written member
      obtain ⟨before, original, -⟩ := property_of_rebuilt (by decide) among
      exact absurd original (free "err" (List.mem_cons_self ..) before)
  | date identity time => trivial

end Pino

/-- A tree is logged as if the values under sensitive keys had been replaced in it, exactly when
it is lossless in the sense above; where what pino writes cannot be told, that much is enough.
-/
theorem deepRedact_lossless {pino : Pino} (documented : pino.Documented) (root : LogValue)
    (distinct : root.identities.Nodup)
    : (Lossless root → pino.record (root.deepRedact []).1 = pino.record root.masked)
      ∧ (Unmistaken root
        → pino.record (root.deepRedact []).1 = pino.record root.masked
        → Lossless root) := by
  rw [deepRedact_unshared distinct]
  exact ⟨record_of_lossless documented, lossless_of_record documented⟩

-----------------------------------------------------------------------------------------
-- An error
-----------------------------------------------------------------------------------------

/-- An error as an object with its type, its message, its stack and its other properties. -/
def shownError : LogValue → LogValue
  | error identity own properties =>
      object identity
        ([("type", text own.type), ("message", text own.message), ("stack", text own.stack)]
          ++ properties)
  | value => value

/-- What is written of a value: under `err` an error is shown. -/
def writeShown (key : String) (value : LogValue) : Option Json :=
  if key = "err" then (shownError value).toJson else value.toJson

/-- A serialization by these alone. -/
def plainPino : Pino where
  record
    | primitive _ | date _ _ => []
    | array _ items => written writeShown (indexed items)
    | object _ properties => written writeShown properties
    | error identity own properties => written writeShown [("err", error identity own properties)]
  write := writeShown

theorem plainPino_documented : plainPino.Documented where
  object _ _ _ := rfl
  array _ _ := rfl
  error _ _ _ _ := rfl
  date _ _ := rfl
  json key value insensitive own plain fixed other := by
    change writeShown key value = value.toJson
    unfold writeShown
    split
    · rename_i err
      cases value with
      | error identity own properties => exact absurd trivial (other err)
      | primitive _ | array _ _ | object _ _ | date _ _ => rfl
    · rfl
  undefined key := by
    change writeShown key (primitive .undefined) = none
    unfold writeShown
    split <;> rfl
  err _ _ _ _ _ := ⟨_, rfl, List.mem_cons_self .., by simp [toJson, text, propertiesToJson,
    primitiveToJson], by simp [toJson, text, propertiesToJson, primitiveToJson]⟩

/-- A login attempt with the number of the failure. -/
def loginLog : LogValue :=
  object 0
    [
      ("userId", text "u1"),
      ("input", object 1 [("password", text "hunter2"), ("remember", .primitive (.boolean true))]),
      ("err", object 2 [("code", text "E42")])
    ]

theorem deepRedact_lossless_login
    : plainPino.record (loginLog.deepRedact []).1 = plainPino.record loginLog.masked := by
  refine (deepRedact_lossless plainPino_documented loginLog (by decide)).1 ⟨?_, ?_⟩
  · intro entry member
    simp only [List.mem_cons, List.not_mem_nil, or_false] at member
    rcases member with rfl | rfl | rfl
    · exact Or.inr (Or.inr (Or.inl ⟨by decide, rfl⟩))
    · exact Or.inr (Or.inr (Or.inl ⟨by decide, rfl⟩))
    · exact Or.inr (Or.inr (Or.inl ⟨by decide, rfl⟩))
  · exact fun _ => rfl

/-- A failure, as it is logged with its error. -/
def failureLog : LogValue :=
  object 0 [("err", error 1 { type := "Error", message := "boom", stack := "Error: boom" } [])]

/-- Of an error nothing is left. -/
theorem deepRedact_loses_error
    : ¬ ∀ pino : Pino,
          pino.Documented
          → ∀ root : LogValue,
              root.identities.Nodup
              → pino.record (root.deepRedact []).1 = pino.record root.masked := by
  intro same
  have lost
      : [("err", Json.obj [])]
        = [("err",
            Json.obj
              [("type", .str "Error"), ("message", .str "boom"), ("stack", .str "Error: boom")])] :=
    same plainPino plainPino_documented failureLog (by decide)
  simp at lost

end SharedKernel.Logger.LogValue
