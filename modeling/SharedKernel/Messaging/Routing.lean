import Mathlib.Data.List.Nodup
import SharedKernel.Js.Thrown

/-! The routing tables, where an event goes: total over the event types, but read with strings
that arrive at runtime. The tables are plain objects, so that a read falls back on the
properties every object inherits.
-/

namespace SharedKernel.Messaging

open Js

-----------------------------------------------------------------------------------------
-- Reading a property of a plain object
-----------------------------------------------------------------------------------------

/-- What plain objects inherit: methods, known by their number of parameters, and their
prototype itself, which has no length.
-/
inductive Inherited where
  | method (length : Nat)
  | prototype
deriving DecidableEq

/-- The properties of `Object.prototype`. -/
def objectPrototype : List (String × Inherited) :=
  [
    ("constructor", .method 1),
    ("__defineGetter__", .method 2),
    ("__defineSetter__", .method 2),
    ("hasOwnProperty", .method 1),
    ("__lookupGetter__", .method 1),
    ("__lookupSetter__", .method 1),
    ("isPrototypeOf", .method 1),
    ("propertyIsEnumerable", .method 1),
    ("toString", .method 0),
    ("valueOf", .method 0),
    ("__proto__", .prototype),
    ("toLocaleString", .method 0)
  ]

/-- The value of a property that exists: one of the object, or an inherited one. -/
inductive Property (α : Type) where
  | own (value : α)
  | inherited (value : Inherited)
deriving DecidableEq

/-- Read a property of a plain object, given its own properties. -/
def readProperty {α : Type} (own : String → Option α) (name : String) : Option (Property α) :=
  match own name with
  | some value => some (.own value)
  | none => (objectPrototype.lookup name).map .inherited

/-- Every plain object inherits a property of this name. -/
def IsInherited (name : String) : Prop :=
  ∃ value, (name, value) ∈ objectPrototype

instance (name : String) : Decidable (IsInherited name) :=
  decidable_of_iff (name ∈ objectPrototype.map Prod.fst) (by simp [IsInherited])

/-- The inherited properties have one value each. -/
theorem lookup_objectPrototype {name : String} {value : Inherited}
    : objectPrototype.lookup name = some value ↔ (name, value) ∈ objectPrototype := by
  constructor
  · intro found
    obtain ⟨before, after, same, -⟩ := List.lookup_eq_some_iff.mp found
    rw [same]
    simp
  · intro member
    simp only [objectPrototype, List.mem_cons, List.not_mem_nil, or_false, Prod.mk.injEq] at member
    rcases member with ⟨rfl, rfl⟩ | ⟨rfl, rfl⟩ | ⟨rfl, rfl⟩ | ⟨rfl, rfl⟩ | ⟨rfl, rfl⟩ | ⟨rfl, rfl⟩
      | ⟨rfl, rfl⟩ | ⟨rfl, rfl⟩ | ⟨rfl, rfl⟩ | ⟨rfl, rfl⟩ | ⟨rfl, rfl⟩ | ⟨rfl, rfl⟩ <;> decide

/-- A read finds the property of the object, else an inherited one. -/
theorem readProperty_eq_some_iff {α : Type} {own : String → Option α} {name : String}
    {property : Property α}
    : readProperty own name = some property
      ↔ (∃ value, own name = some value ∧ property = .own value)
        ∨ own name = none
          ∧ ∃ value, (name, value) ∈ objectPrototype ∧ property = .inherited value := by
  unfold readProperty
  cases found : own name with
  | some value => simp [eq_comm]
  | none => simp [Option.map_eq_some_iff, lookup_objectPrototype, eq_comm (a := property)]

-----------------------------------------------------------------------------------------
-- The tables
-----------------------------------------------------------------------------------------

inductive EventType where
  | knowledgePublished
  | knowledgeArchived
  | knowledgeMarkedStale
  | voteCast
  | voteRetracted
  | followCreated
  | followRemoved
  | bookmarkAdded
  | bookmarkRemoved
  | answerAccepted
  | creditAwarded
  | creditSpent
  | creditReservationReleased
deriving DecidableEq

namespace EventType

/-- The string of an event type. -/
def value : EventType → String
  | knowledgePublished => "KnowledgePublished"
  | knowledgeArchived => "KnowledgeArchived"
  | knowledgeMarkedStale => "KnowledgeMarkedStale"
  | voteCast => "VoteCast"
  | voteRetracted => "VoteRetracted"
  | followCreated => "FollowCreated"
  | followRemoved => "FollowRemoved"
  | bookmarkAdded => "BookmarkAdded"
  | bookmarkRemoved => "BookmarkRemoved"
  | answerAccepted => "AnswerAccepted"
  | creditAwarded => "CreditAwarded"
  | creditSpent => "CreditSpent"
  | creditReservationReleased => "CreditReservationReleased"

def all : List EventType :=
  [
    knowledgePublished,
    knowledgeArchived,
    knowledgeMarkedStale,
    voteCast,
    voteRetracted,
    followCreated,
    followRemoved,
    bookmarkAdded,
    bookmarkRemoved,
    answerAccepted,
    creditAwarded,
    creditSpent,
    creditReservationReleased
  ]

/-- The event type of a string. -/
def ofValue? (text : String) : Option EventType :=
  all.find? (fun event => event.value = text)

theorem mem_all (event : EventType) : event ∈ all := by
  cases event <;> decide

/-- Event types have different strings. -/
theorem value_inj {event other : EventType} (same : event.value = other.value)
    : event = other := by
  have distinct : (all.map value).Nodup := by decide
  exact List.inj_on_of_nodup_map distinct (mem_all event) (mem_all other) same

/-- No string of an event type names an inherited property. -/
theorem value_not_inherited (event : EventType) : ¬ IsInherited event.value := by
  cases event <;> decide

theorem ofValue?_eq_some {text : String} {event : EventType}
    : ofValue? text = some event ↔ event.value = text := by
  constructor
  · intro found
    simpa using List.find?_some found
  · rintro rfl
    cases found : ofValue? event.value with
    | none => exact (by simpa using List.find?_eq_none.mp found event (mem_all event))
    | some other =>
        have same : other.value = event.value := by simpa using List.find?_some found
        rw [value_inj same]

end EventType

inductive Transport where
  | kafka
  | queue
deriving DecidableEq

def Transport.value : Transport → String
  | kafka => "kafka"
  | queue => "queue"

inductive KafkaTopic where
  | knowledgeEvents
  | engagementEvents
  | creditEvents
deriving DecidableEq

def KafkaTopic.value : KafkaTopic → String
  | knowledgeEvents => "knowledge-events"
  | engagementEvents => "engagement-events"
  | creditEvents => "credit-events"

/-- A table over the event types has the properties of their strings. -/
def ofRecord {α : Type} (record : EventType → α) (name : String) : Option α :=
  (EventType.ofValue? name).map record

/-- Which brokers an event goes to. -/
def EVENT_TRANSPORT_MAP : EventType → List Transport
  | .knowledgePublished => [.kafka]
  | .knowledgeArchived => [.kafka]
  | .knowledgeMarkedStale => [.kafka]
  | .voteCast => [.kafka]
  | .voteRetracted => [.kafka]
  | .followCreated => [.kafka]
  | .followRemoved => [.kafka]
  | .bookmarkAdded => [.kafka]
  | .bookmarkRemoved => [.kafka]
  | .answerAccepted => [.kafka]
  | .creditAwarded => [.kafka]
  | .creditSpent => [.kafka]
  | .creditReservationReleased => [.kafka]

/-- The `length` of a value of the transport table; the prototype has none. -/
def Property.length? {α : Type} : Property (List α) → Option Nat
  | own values => some values.length
  | inherited (.method length) => some length
  | inherited .prototype => none

/-- The transports of an event type; what is found is an object, hence never falsy. -/
def transportsForEventType (eventType : String)
    : Except Thrown (Property (List Transport)) :=
  match readProperty (ofRecord EVENT_TRANSPORT_MAP) eventType with
  | none => .error (.error .error ("No transport mapped for event type: " ++ eventType))
  | some transports =>
      if transports.length? = some 0 then
        .error (.error .error ("No transport mapped for event type: " ++ eventType))
      else .ok transports

/-- Which topic an event goes to. -/
def EVENT_TOPIC_MAP : EventType → KafkaTopic
  | .knowledgePublished => .knowledgeEvents
  | .knowledgeArchived => .knowledgeEvents
  | .knowledgeMarkedStale => .knowledgeEvents
  | .voteCast => .engagementEvents
  | .voteRetracted => .engagementEvents
  | .followCreated => .engagementEvents
  | .followRemoved => .engagementEvents
  | .bookmarkAdded => .engagementEvents
  | .bookmarkRemoved => .engagementEvents
  | .answerAccepted => .engagementEvents
  | .creditAwarded => .creditEvents
  | .creditSpent => .creditEvents
  | .creditReservationReleased => .creditEvents

/-- A value of the topic table is falsy where it is the empty string. -/
def Property.falsy : Property KafkaTopic → Bool
  | own topic => topic.value = ""
  | inherited _ => false

/-- The topic of an event type. -/
def topicForEventType (eventType : String) : Except Thrown (Property KafkaTopic) :=
  match readProperty (ofRecord EVENT_TOPIC_MAP) eventType with
  | none => .error (.error .error ("No Kafka topic mapped for event type: " ++ eventType))
  | some topic =>
      if topic.falsy then
        .error (.error .error ("No Kafka topic mapped for event type: " ++ eventType))
      else .ok topic

-----------------------------------------------------------------------------------------
-- What the lookups find
-----------------------------------------------------------------------------------------

/-- The call returns a value. -/
def Returns {α : Type} (result : Except Thrown α) : Prop :=
  ∃ value, result = .ok value

/-- The string is that of an event type. -/
def IsEventType (text : String) : Prop :=
  ∃ event : EventType, event.value = text

/-- A table has a property for every event type, and no other of its own. -/
theorem ofRecord_eq_some {α : Type} {record : EventType → α} {name : String} {value : α}
    : ofRecord record name = some value ↔ ∃ event, event.value = name ∧ record event = value := by
  simp [ofRecord, EventType.ofValue?_eq_some]

theorem ofRecord_eq_none {α : Type} {record : EventType → α} {name : String}
    : ofRecord record name = none ↔ ¬ IsEventType name := by
  rw [← not_iff_not, ← ne_eq, Option.ne_none_iff_exists']
  simp [ofRecord_eq_some, IsEventType]

/-- A read of a table finds the entry of an event type, or an inherited property. -/
theorem readProperty_ofRecord {α : Type} {record : EventType → α} {name : String}
    {property : Property α}
    : readProperty (ofRecord record) name = some property
      ↔ (∃ event : EventType, event.value = name ∧ property = .own (record event))
        ∨ ∃ value, (name, value) ∈ objectPrototype ∧ property = .inherited value := by
  rw [readProperty_eq_some_iff, ofRecord_eq_none]
  apply or_congr
  · simp [ofRecord_eq_some]
  · apply and_iff_right_of_imp
    rintro ⟨value, member, -⟩ ⟨event, rfl⟩
    exact event.value_not_inherited ⟨value, member⟩

/-- Every event type has a transport. -/
theorem EVENT_TRANSPORT_MAP_ne_nil (event : EventType) : EVENT_TRANSPORT_MAP event ≠ [] := by
  cases event <;> decide

/-- Every topic has a name. -/
theorem KafkaTopic.value_ne_empty (topic : KafkaTopic) : topic.value ≠ "" := by
  cases topic <;> decide

/-- The transports of an event type are those of its table; of the inherited properties, all
but the methods without parameters are found too.
-/
theorem transportsForEventType_eq_ok {eventType : String} {transports : Property (List Transport)}
    : transportsForEventType eventType = .ok transports
      ↔ (∃ event : EventType,
            event.value = eventType ∧ transports = .own (EVENT_TRANSPORT_MAP event))
        ∨ ∃ value,
            (eventType, value) ∈ objectPrototype
            ∧ value ≠ .method 0
            ∧ transports = .inherited value := by
  have found : transportsForEventType eventType = .ok transports
      ↔ readProperty (ofRecord EVENT_TRANSPORT_MAP) eventType = some transports
        ∧ transports.length? ≠ some 0 := by
    unfold transportsForEventType
    cases readProperty (ofRecord EVENT_TRANSPORT_MAP) eventType with
    | none => simp
    | some property =>
        by_cases empty : property.length? = some 0
        · simp only [empty, if_true, reduceCtorEq, Option.some.injEq, false_iff]
          rintro ⟨rfl, full⟩
          exact full empty
        · simp only [empty, if_false, Except.ok.injEq, Option.some.injEq, iff_self_and]
          rintro rfl
          exact empty
  rw [found, readProperty_ofRecord]
  constructor
  · rintro ⟨entry | ⟨value, member, rfl⟩, full⟩
    · exact Or.inl entry
    · refine Or.inr ⟨value, member, ?_, rfl⟩
      rintro rfl
      exact full rfl
  · rintro (⟨event, named, rfl⟩ | ⟨value, member, method, rfl⟩)
    · refine ⟨Or.inl ⟨event, named, rfl⟩, ?_⟩
      simpa [Property.length?] using EVENT_TRANSPORT_MAP_ne_nil event
    · refine ⟨Or.inr ⟨value, member, rfl⟩, ?_⟩
      cases value with
      | method length => simpa [Property.length?] using method
      | prototype => simp [Property.length?]

/-- The topic of an event type is that of its table; the inherited properties are found too. -/
theorem topicForEventType_eq_ok {eventType : String} {topic : Property KafkaTopic}
    : topicForEventType eventType = .ok topic
      ↔ (∃ event : EventType, event.value = eventType ∧ topic = .own (EVENT_TOPIC_MAP event))
        ∨ ∃ value, (eventType, value) ∈ objectPrototype ∧ topic = .inherited value := by
  have truthy : ∀ property : Property KafkaTopic, property.falsy = false := by
    rintro (topic | value)
    · simpa [Property.falsy] using topic.value_ne_empty
    · rfl
  rw [← readProperty_ofRecord]
  unfold topicForEventType
  cases readProperty (ofRecord EVENT_TOPIC_MAP) eventType with
  | none => simp
  | some property => simp [truthy]

/-- The two lookups agree on a string: both return what the tables hold for an event type, and
both throw for any other string.
-/
structure Routed (eventType : String) : Prop where
  topic : Returns (topicForEventType eventType) ↔ Returns (transportsForEventType eventType)
  transports : Returns (transportsForEventType eventType) ↔ IsEventType eventType
  /-- The result is the string of a topic. -/
  topicValue
    : ∀ result,
        topicForEventType eventType = .ok result → ∃ topic : KafkaTopic, result = .own topic
  /-- The result is a list of transports that is not empty. -/
  transportsValue
    : ∀ result,
        transportsForEventType eventType = .ok result
        → ∃ transports : List Transport, transports ≠ [] ∧ result = .own transports
  refused
    : ¬ IsEventType eventType
      → (∃ error, topicForEventType eventType = .error error)
        ∧ ∃ error, transportsForEventType eventType = .error error

/-- A call throws where it does not return. -/
theorem throws_of_not_returns {α : Type} {result : Except Thrown α} (silent : ¬ Returns result)
    : ∃ error, result = .error error := by
  cases result with
  | error error => exact ⟨error, rfl⟩
  | ok value => exact (silent ⟨value, rfl⟩).elim

/-- The lookups agree exactly on the strings that name no inherited property: there, only
entries of the tables are found.
-/
theorem routed_iff (eventType : String) : Routed eventType ↔ ¬ IsInherited eventType := by
  constructor
  · rintro routed ⟨value, member⟩
    obtain ⟨topic, absurd⟩ :=
      routed.topicValue _ (topicForEventType_eq_ok.mpr (Or.inr ⟨value, member, rfl⟩))
    cases absurd
  · intro ordinary
    have topic : ∀ result, topicForEventType eventType = .ok result
        ↔ ∃ event : EventType, event.value = eventType ∧ result = .own (EVENT_TOPIC_MAP event) := by
      intro result
      rw [topicForEventType_eq_ok, or_iff_left]
      rintro ⟨value, member, -⟩
      exact ordinary ⟨value, member⟩
    have transports : ∀ result, transportsForEventType eventType = .ok result
        ↔ ∃ event : EventType,
            event.value = eventType ∧ result = .own (EVENT_TRANSPORT_MAP event) := by
      intro result
      rw [transportsForEventType_eq_ok, or_iff_left]
      rintro ⟨value, member, -⟩
      exact ordinary ⟨value, member⟩
    have topicReturns : Returns (topicForEventType eventType) ↔ IsEventType eventType := by
      simp [Returns, topic, IsEventType]
    have transportsReturns : Returns (transportsForEventType eventType)
        ↔ IsEventType eventType := by
      simp [Returns, transports, IsEventType]
    constructor
    · exact topicReturns.trans transportsReturns.symm
    · exact transportsReturns
    · intro result returned
      obtain ⟨event, -, rfl⟩ := (topic result).mp returned
      exact ⟨_, rfl⟩
    · intro result returned
      obtain ⟨event, -, rfl⟩ := (transports result).mp returned
      exact ⟨_, EVENT_TRANSPORT_MAP_ne_nil event, rfl⟩
    · intro unknown
      exact ⟨
        throws_of_not_returns (topicReturns.not.mpr unknown),
        throws_of_not_returns (transportsReturns.not.mpr unknown)
      ⟩

/-- An inherited method without parameters has a topic but no transports. -/
theorem toString_routed_nowhere : ¬ Routed "toString" := by
  intro routed
  have topic : topicForEventType "toString" = .ok (.inherited (.method 0)) := by decide
  have transports : transportsForEventType "toString"
      = .error (.error .error "No transport mapped for event type: toString") := by decide
  obtain ⟨result, returned⟩ := routed.topic.mp ⟨_, topic⟩
  rw [transports] at returned
  cases returned

end SharedKernel.Messaging
