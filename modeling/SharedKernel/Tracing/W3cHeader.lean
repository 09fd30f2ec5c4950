import SharedKernel.Tracing.TraceContinuity

/-! The headers of version 00 as the standard has them, ids of zeros alone being invalid, and
the headers for which the receive side agrees with it.
-/

namespace SharedKernel.Tracing

open Foundation Js

/-- The text consists of zeros. -/
def AllZero (text : String) : Prop :=
  ∀ char ∈ text.toList, char = '0'

/-- The header of version 00 with this trace and this parent, neither of them all zero. -/
def ValidHeader (text traceId parentSpanId : String) : Prop :=
  Accepted text traceId parentSpanId ∧ ¬ AllZero traceId ∧ ¬ AllZero parentSpanId

/-- A header of version 00 one of whose ids is all zero. -/
def ZeroHeader (text : String) : Prop :=
  ∃ traceId parentSpanId,
    Accepted text traceId parentSpanId ∧ (AllZero traceId ∨ AllZero parentSpanId)

/-- The receive side follows the standard on a text. -/
structure FollowsStandard (text : String) : Prop where
  /-- It accepts the text where it is a valid header. -/
  accepts
    : (∃ inbound, parseInboundTraceparent (some (.str text)) = .ok (some inbound))
      ↔ ∃ traceId parentSpanId, ValidHeader text traceId parentSpanId
  /-- It finds the two ids of the header. -/
  returns
    : ∀ traceId parentSpanId,
        parseInboundTraceparent (some (.str text)) = .ok (some { traceId, parentSpanId })
        → ValidHeader text traceId parentSpanId
  /-- A context with a parent has the ids of a valid header. -/
  adopts
    : ∀ events ctx parentSpanId,
        Finishes (startTraceContext draw (some (.str text))) events (.ok ctx)
        → ctx.parentSpanId = some parentSpanId
        → ValidHeader text ctx.traceId parentSpanId

/-- The receive side accepts what has the form of a header, with the ids there. -/
theorem parseInboundTraceparent_str (text traceId parentSpanId : String)
    : parseInboundTraceparent (some (.str text)) = .ok (some { traceId, parentSpanId })
      ↔ Accepted text traceId parentSpanId := by
  obtain ⟨inbound, parsed, accepted⟩ :=
    @parseInboundTraceparent_header (some (.str text)) (Or.inr (Or.inr ⟨text, rfl⟩))
  rw [parsed, Except.ok.injEq, accepted]
  simp [AcceptedHeader]

/-- A header that is not of zeros is valid as soon as it has the form. -/
theorem Accepted.valid {text traceId parentSpanId : String}
    (accepted : Accepted text traceId parentSpanId) (nonzero : ¬ ZeroHeader text)
    : ValidHeader text traceId parentSpanId :=
  ⟨
    accepted,
    fun zeros => nonzero ⟨traceId, parentSpanId, accepted, Or.inl zeros⟩,
    fun zeros => nonzero ⟨traceId, parentSpanId, accepted, Or.inr zeros⟩
  ⟩

/-- The receive side follows the standard exactly on the texts that are not headers with an
id of zeros; witness: such a header has the form that is accepted.
-/
theorem followsStandard_iff (text : String)
    : FollowsStandard text ↔ ¬ ZeroHeader text := by
  constructor
  · intro follows zero
    obtain ⟨traceId, parentSpanId, accepted, zeros⟩ := zero
    obtain ⟨_, trace, parent⟩ :=
      follows.returns _ _ ((parseInboundTraceparent_str ..).mpr accepted)
    rcases zeros with zeros | zeros
    · exact trace zeros
    · exact parent zeros
  · intro nonzero
    constructor
    · constructor
      · rintro ⟨⟨traceId, parentSpanId⟩, parsed⟩
        have accepted := (parseInboundTraceparent_str ..).mp parsed
        exact ⟨traceId, parentSpanId, accepted.valid nonzero⟩
      · rintro ⟨traceId, parentSpanId, accepted, _⟩
        exact ⟨_, (parseInboundTraceparent_str ..).mpr accepted⟩
    · intro traceId parentSpanId parsed
      exact ((parseInboundTraceparent_str ..).mp parsed).valid nonzero
    · intro events ctx parentSpanId run parent
      obtain ⟨_, same, ⟨_, kept, ⟨_, received, accepted⟩, _⟩ | ⟨root, _⟩⟩ :=
        finishes_startTraceContext (Or.inr (Or.inr ⟨text, rfl⟩)) run
      · cases same
        cases received
        cases parent.symm.trans kept
        exact accepted.valid nonzero
      · cases same
        rw [root] at parent
        cases parent

/-- A header whose trace is all zero. -/
def zeroTraceHeader : String :=
  "00-00000000000000000000000000000000-b7ad6b7169203331-01"

/-- A trace of zeros is accepted, and becomes the trace of the receiving boundary. -/
theorem zeroTraceHeader_adopted : ¬ FollowsStandard zeroTraceHeader := by
  intro follows
  obtain ⟨_, trace, _⟩ :=
    follows.returns "00000000000000000000000000000000" "b7ad6b7169203331" (by decide)
  apply trace
  intro char member
  simpa using member

end SharedKernel.Tracing
