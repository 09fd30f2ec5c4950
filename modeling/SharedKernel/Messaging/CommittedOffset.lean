import SharedKernel.Js.ShortestDecimal
import SharedKernel.Messaging.ReplayLoop

/-! The committed offset is the successor of the message's offset up to 2^53, and beyond that
only where rounding the successor and printing it happen to give it back.
-/

namespace SharedKernel.Messaging

open Foundation Js

/-- The offset's successor survives the way through a double: the offset is below 2^53, or both
round to one double and the successor is the roundest number that does.
-/
def CountsUp (offset : Nat) : Prop :=
  offset < 2 ^ 53
  ∨ ∃ double, Number.ofRat offset = .finite double ∧ Number.Roundest (offset + 1) double

/-- The next offset of an offset is its successor exactly where that survives. -/
theorem nextOffset_eq_repr_iff {offset : Nat} (bounded : offset < 2 ^ 63 - 1)
    : nextOffset offset.repr = (offset + 1).repr ↔ CountsUp offset := by
  rcases Nat.lt_or_ge offset (2 ^ 53) with safe | large
  · constructor
    · intro _
      exact Or.inl safe
    · intro _
      exact Number.successor_repr safe
  · rw [nextOffset, Number.successor_large_iff large (by omega)]
    constructor
    · intro survives
      exact Or.inr survives
    · rintro (safe | survives)
      · exact absurd safe (not_lt.mpr large)
      · exact survives

/-- A message without a value and without headers. -/
def bareMessage (offset : Nat) : EachMessagePayload where
  topic := "knowledge-events"
  partition := 0
  message := { key := none, value := none, offset := offset.repr, headers := [] }

/-- Every commit that the consumer issues for a message at the offset names its successor. -/
def ResilientEventConsumer.CommitsSuccessor (self : ResilientEventConsumer) (offset : Nat)
    : Prop :=
  ∀ payload events topic partition committed resume,
    payload.message.offset = offset.repr
    → Run (self.eachMessage payload) events
        (.await (.commitOffsets topic partition committed) resume)
    → committed = (offset + 1).repr

/-- Every commit that the replay consumer issues for a message at the offset names its
successor.
-/
def DlqReplayConsumer.CommitsSuccessor (self : DlqReplayConsumer) (offset : Nat) : Prop :=
  ∀ payload events topic partition committed resume,
    payload.message.offset = offset.repr
    → Run (self.eachMessage payload) events
        (.await (.commitOffsets topic partition committed) resume)
    → committed = (offset + 1).repr

/-- The consumer commits the next offset, and commits it for a message without a value. -/
theorem ResilientEventConsumer.commitsSuccessor_iff (self : ResilientEventConsumer)
    (offset : Nat)
    : self.CommitsSuccessor offset ↔ nextOffset offset.repr = (offset + 1).repr := by
  constructor
  · intro commits
    exact commits (bareMessage offset) [] _ _ _ _ rfl (.refl _)
  · rintro next payload events topic partition committed resume same run
    obtain ⟨_, _, named, _⟩ := (self.safe_eachMessage payload).guarded run
    rw [named, same, next]

/-- The replay consumer commits the next offset, and commits it for a message without headers.
-/
theorem DlqReplayConsumer.commitsSuccessor_iff (self : DlqReplayConsumer) (offset : Nat)
    : self.CommitsSuccessor offset ↔ nextOffset offset.repr = (offset + 1).repr := by
  constructor
  · intro commits
    exact commits (bareMessage offset)
      [⟨.log .error "DLQ message missing x-original-topic header — cannot replay, skipping", ()⟩]
      _ _ _ _ rfl (.step _ (.refl _))
  · rintro next payload events topic partition committed resume same run
    obtain ⟨_, _, named, _⟩ := (self.safe_eachMessage payload).guarded run
    rw [named, same, next]

/-- Both consumers commit the successor of an offset exactly where it survives the way through
a double.
-/
theorem commits_successor {offset : Nat} (bounded : offset < 2 ^ 63 - 1)
    (consumer : ResilientEventConsumer) (replayer : DlqReplayConsumer)
    : (consumer.CommitsSuccessor offset ↔ CountsUp offset)
      ∧ (replayer.CommitsSuccessor offset ↔ CountsUp offset) := by
  rw [consumer.commitsSuccessor_iff, replayer.commitsSuccessor_iff,
    nextOffset_eq_repr_iff bounded]
  exact ⟨Iff.rfl, Iff.rfl⟩

/-- The offset of the tenth message. -/
theorem commits_successor_ten
    : knowledgeLoop.consumer.CommitsSuccessor 10 ∧ knowledgeLoop.replayer.CommitsSuccessor 10 :=
  have both :=
    @commits_successor 10 (by norm_num) knowledgeLoop.consumer knowledgeLoop.replayer
  ⟨both.1.mpr (Or.inl (by norm_num)), both.2.mpr (Or.inl (by norm_num))⟩

/-- Offset 2^53 is committed again, and the commit after 2^53 + 2 skips a message. -/
theorem successor_lost
    : nextOffset "9007199254740992" = "9007199254740992"
      ∧ nextOffset "9007199254740994" = "9007199254740996"
      ∧ ¬ knowledgeLoop.consumer.CommitsSuccessor 9007199254740992
      ∧ ¬ knowledgeLoop.replayer.CommitsSuccessor 9007199254740992 := by
  have stays : nextOffset "9007199254740992" = "9007199254740992" := by decide +kernel
  have other : ¬ nextOffset (Nat.repr 9007199254740992) = Nat.repr (9007199254740992 + 1) := by
    rw [show Nat.repr 9007199254740992 = "9007199254740992" by decide +kernel, stays]
    decide +kernel
  refine ⟨stays, by decide +kernel, ?_, ?_⟩
  · rw [ResilientEventConsumer.commitsSuccessor_iff]
    exact other
  · rw [DlqReplayConsumer.commitsSuccessor_iff]
    exact other

end SharedKernel.Messaging
