import SharedKernel.Foundation.Run
import SharedKernel.Tracing.TraceContext

/-! One trace over any number of hops: what the send side formats is what the receive side
accepts, and anything else starts a new trace.
-/

namespace SharedKernel.Tracing

open Foundation Js

-----------------------------------------------------------------------------------------
-- The grammar of a header
-----------------------------------------------------------------------------------------

/-- The text has this many lower-case hexadecimal digits and nothing else. -/
def Hex (count : Nat) (text : String) : Prop :=
  text.toList.length = count ∧ text.toList.all isHex = true

/-- The header of version 00 with this trace, this parent and some flags. -/
def Accepted (text traceId parentSpanId : String) : Prop :=
  ∃ flags,
    Hex 32 traceId
    ∧ Hex 16 parentSpanId
    ∧ Hex 2 flags
    ∧ text = "00-" ++ traceId ++ "-" ++ parentSpanId ++ "-" ++ flags

/-- The characters of an accepted header. -/
theorem toList_header (traceId parentSpanId flags : String)
    : ("00-" ++ traceId ++ "-" ++ parentSpanId ++ "-" ++ flags).toList
      = ['0', '0', '-'] ++ (traceId.toList
          ++ '-' :: (parentSpanId.toList ++ '-' :: flags.toList)) := by
  simp [String.toList_append]

/-- A list from an index on is the item there and the list after it. -/
theorem drop_eq_cons_of_getElem? {chars : List Char} {index : Nat} {char : Char}
    (found : chars[index]? = some char)
    : chars.drop index = char :: chars.drop (index + 1) := by
  obtain ⟨within, rfl⟩ := List.getElem?_eq_some_iff.mp found
  exact List.drop_eq_getElem_cons within

/-- A text of 55 characters is what the expression reads of it, piece by piece. -/
theorem pieces_of_length {chars : List Char} (sized : chars.length = 55)
    {first second : Char} (atFirst : chars[35]? = some first) (atSecond : chars[52]? = some second)
    : chars
      = chars.take 3 ++ ((chars.drop 3).take 32
          ++ first :: ((chars.drop 36).take 16 ++ second :: (chars.drop 53).take 2)) := by
  have flags : (chars.drop 53).take 2 = chars.drop 53 := by
    rw [List.take_of_length_le]
    simp [sized]
  have parent : chars.drop 36 = (chars.drop 36).take 16 ++ chars.drop 52 := by
    have split := (List.take_append_drop 16 (chars.drop 36)).symm
    rwa [List.drop_drop] at split
  have trace : chars.drop 3 = (chars.drop 3).take 32 ++ chars.drop 35 := by
    have split := (List.take_append_drop 32 (chars.drop 3)).symm
    rwa [List.drop_drop] at split
  rw [flags, ← drop_eq_cons_of_getElem? atSecond, ← parent, ← drop_eq_cons_of_getElem? atFirst,
    ← trace, List.take_append_drop]

/-- The regular expression accepts exactly the headers of the grammar, and finds their two
ids; witness: the pieces of the text.
-/
theorem matchTraceparent_eq_some_iff (text traceId parentSpanId : String)
    : matchTraceparent text = some { traceId, parentSpanId }
      ↔ Accepted text traceId parentSpanId := by
  constructor
  · intro matched
    simp only [matchTraceparent] at matched
    split at matched
    · rename_i form
      obtain ⟨sized, version, trace, first, parent, second, flags⟩ := form
      obtain ⟨rfl, rfl⟩ := InboundTrace.mk.inj (Option.some.inj matched)
      refine ⟨String.ofList ((text.toList.drop 53).take 2), ?_, ?_, ?_, ?_⟩
      · exact ⟨by simp [sized], by simpa using trace⟩
      · exact ⟨by simp [sized], by simpa using parent⟩
      · exact ⟨by simp [sized], by simpa using flags⟩
      · rw [← String.toList_inj, toList_header]
        simp only [String.toList_ofList]
        rw [← version]
        exact pieces_of_length sized first second
    · cases matched
  · intro accepted
    obtain ⟨flags, ⟨traceSize, trace⟩, ⟨parentSize, parent⟩, ⟨flagsSize, flagged⟩, same⟩ := accepted
    -- each piece starts where the one before it ends
    have whole : text.toList = _ := same ▸ toList_header traceId parentSpanId flags
    rw [matchTraceparent]
    generalize text.toList = chars at whole
    have at3 : chars.drop 3
        = traceId.toList ++ '-' :: (parentSpanId.toList ++ '-' :: flags.toList) := by
      rw [whole]
      rfl
    have at35 : chars.drop 35 = '-' :: (parentSpanId.toList ++ '-' :: flags.toList) := by
      rw [show 35 = 3 + 32 from rfl, ← List.drop_drop, at3, List.drop_left' traceSize]
    have at36 : chars.drop 36 = parentSpanId.toList ++ '-' :: flags.toList := by
      rw [show 36 = 35 + 1 from rfl, ← List.drop_drop, at35]
      rfl
    have at52 : chars.drop 52 = '-' :: flags.toList := by
      rw [show 52 = 36 + 16 from rfl, ← List.drop_drop, at36, List.drop_left' parentSize]
    have at53 : chars.drop 53 = flags.toList := by
      rw [show 53 = 52 + 1 from rfl, ← List.drop_drop, at52]
      rfl
    have sized : chars.length = 55 := by simp [whole, traceSize, parentSize, flagsSize]
    have first : chars[35]? = some '-' := by rw [← List.head?_drop, at35, List.head?_cons]
    have second : chars[52]? = some '-' := by rw [← List.head?_drop, at52, List.head?_cons]
    have version : chars.take 3 = ['0', '0', '-'] := by
      rw [whole]
      rfl
    simp only [at3, at36, at53, List.take_left' traceSize, List.take_left' parentSize,
      List.take_of_length_le flagsSize.le, String.ofList_toList]
    rw [if_pos ⟨sized, version, trace, first, parent, second, flagged⟩]

-----------------------------------------------------------------------------------------
-- Sending and receiving
-----------------------------------------------------------------------------------------

/-- A value of a metadata key. -/
inductive MetadataValue where
  | text (value : String)
  | buffer (bytes : List UInt8)

/-- The metadata of a gRPC call, as far as the code relies on it: setting a key to printable
ASCII replaces its values.
-/
structure MetadataLibrary (M : Type) where
  set : M → String → String → M
  get : M → String → List MetadataValue
  get_set
    : ∀ metadata key value,
        (∀ char ∈ value.toList, ' ' ≤ char ∧ char ≤ '~')
        → get (set metadata key value) key = [.text value]

def TRACEPARENT_METADATA_KEY : String := "traceparent"

section Hops

variable {M : Type} (lib : MetadataLibrary M)

/-- Attach a header to the metadata of a call, where there is one. -/
def attachTraceparent (metadata : M) (traceparent : Option String) : M :=
  match traceparent with
  | none | some "" => metadata
  | some traceparent => lib.set metadata TRACEPARENT_METADATA_KEY traceparent

/-- The header in the metadata of a call. -/
def readTraceparent (metadata : M) : Option String :=
  match (lib.get metadata TRACEPARENT_METADATA_KEY).head? with
  | some (MetadataValue.text value) => some value
  | _ => none

/-- How a header travels to the next boundary: as it is, or in the metadata of a gRPC call. -/
inductive Channel (M : Type) where
  | direct
  | grpc (metadata : M)

/-- What the next boundary receives. -/
def Channel.carry (channel : Channel M) (header : Option String) : Value :=
  match channel with
  | .direct => header.map .str
  | .grpc metadata => (readTraceparent lib (attachTraceparent lib metadata header)).map .str

/-- The random source: an operation asks for a number of bytes in hexadecimal. -/
abbrev RandomEffects : Signature where
  Op := Nat
  Reply := fun _ => String

/-- Draw bytes in hexadecimal. -/
def draw (bytes : Nat) : Program RandomEffects Thrown String :=
  Program.perform (F := RandomEffects) bytes

/-- A chain of boundaries: each starts its context from the header that the one before it sends
while its own context is active. The channels are those after the first boundary.
-/
def hops (header : Value) : List (Channel M) → Program RandomEffects Thrown (List TraceContext)
  | [] => do
      let ctx ← startTraceContext draw header
      return [ctx]
  | channel :: rest => do
      let ctx ← startTraceContext draw header
      let later ← hops (channel.carry lib (getCurrentTraceparent (some ctx))) rest
      return ctx :: later

end Hops

/-- A header of the receive side: absent, or a string. -/
def IsHeader (header : Value) : Prop :=
  header = none ∨ header = some .null ∨ ∃ text, header = some (.str text)

/-- The header is a string that the grammar accepts. -/
def AcceptedHeader (header : Value) (traceId parentSpanId : String) : Prop :=
  ∃ text, header = some (.str text) ∧ Accepted text traceId parentSpanId

/-- The ids of a context are hexadecimal and of their lengths. -/
def TraceContext.WellFormed (ctx : TraceContext) : Prop :=
  Hex 32 ctx.traceId ∧ Hex 16 ctx.spanId

/-- Every draw yields two lower-case hexadecimal digits for each byte. -/
def DrawsHex (events : List (Event RandomEffects)) : Prop :=
  ∀ event ∈ events, Hex (2 * event.op) event.reply

/-- One trace over the contexts of a chain, the first of which received `header`. -/
structure TraceContinuity (header : Value) (events : List (Event RandomEffects))
    (first : TraceContext) (later : List TraceContext)
    : Prop where
  wellFormed : ∀ ctx ∈ first :: later, ctx.WellFormed
  sameTrace : ∀ ctx ∈ later, ctx.traceId = first.traceId
  parents
    : (first :: later).IsChain (fun ctx next => next.parentSpanId = some ctx.spanId)
  /-- The first boundary keeps the ids of an accepted header, and of no other. -/
  kept
    : ∀ traceId parentSpanId,
        AcceptedHeader header traceId parentSpanId
        ↔ first.traceId = traceId ∧ first.parentSpanId = some parentSpanId
  /-- Otherwise it has a new trace, of sixteen drawn bytes, and no parent. -/
  fresh
    : (∀ traceId parentSpanId, ¬ AcceptedHeader header traceId parentSpanId)
      → first.parentSpanId = none ∧ ∃ rest, events = ⟨16, first.traceId⟩ :: rest

/-- A header of the receive side never throws, and is parsed as its text, if it is one. -/
theorem parseInboundTraceparent_header {header : Value} (isHeader : IsHeader header)
    : ∃ inbound,
        parseInboundTraceparent header = .ok inbound
        ∧ ∀ traceId parentSpanId,
            inbound = some { traceId, parentSpanId }
            ↔ AcceptedHeader header traceId parentSpanId := by
  rcases isHeader with rfl | rfl | ⟨text, rfl⟩
  · exact ⟨none, rfl, by simp [AcceptedHeader]⟩
  · exact ⟨none, rfl, by simp [AcceptedHeader]⟩
  · refine ⟨matchTraceparent text, ?_, fun traceId parentSpanId => ?_⟩
    · by_cases empty : text = ""
      · subst empty
        rfl
      · simp [parseInboundTraceparent, Json.truthy, empty, Json.toText, Except.map]
    · rw [matchTraceparent_eq_some_iff]
      simp [AcceptedHeader]

/-- Without an inbound trace both ids are drawn. -/
theorem startTraceContext_fresh {F : Signature} (randomHex : Nat → Program F Thrown String)
    {header : Value} (parsed : parseInboundTraceparent header = .ok none)
    : startTraceContext randomHex header
      = (randomHex 16).bind (fun traceId =>
          (randomHex 8).bind (fun spanId =>
            .done { traceId, spanId, parentSpanId := none })) := by
  unfold startTraceContext
  simp only [parsed, Program.settle_ok, Program.bind_eq, Program.done_bind, Program.pure_eq]
  rfl

/-- With an inbound trace only the span is drawn. -/
theorem startTraceContext_joined {F : Signature} (randomHex : Nat → Program F Thrown String)
    {header : Value} {inbound : InboundTrace}
    (parsed : parseInboundTraceparent header = .ok (some inbound))
    : startTraceContext randomHex header
      = (randomHex 8).bind (fun spanId =>
          .done
            {
              traceId := inbound.traceId,
              spanId,
              parentSpanId := some inbound.parentSpanId
            }) := by
  unfold startTraceContext
  simp only [parsed, Program.settle_ok, Program.bind_eq, Program.done_bind, Program.pure_eq]
  rfl

/-- The context of one boundary: it goes on with an accepted header, and starts a trace
otherwise; its span is drawn last.
-/
theorem finishes_startTraceContext {header : Value} (isHeader : IsHeader header)
    {events : List (Event RandomEffects)} {outcome : Except Thrown TraceContext}
    (run : Finishes (startTraceContext draw header) events outcome)
    : ∃ ctx,
        outcome = .ok ctx
        ∧ ((∃ parentSpanId,
              ctx.parentSpanId = some parentSpanId
              ∧ AcceptedHeader header ctx.traceId parentSpanId
              ∧ events = [⟨8, ctx.spanId⟩])
          ∨ ctx.parentSpanId = none
              ∧ (∀ traceId parentSpanId, ¬ AcceptedHeader header traceId parentSpanId)
              ∧ events = [⟨16, ctx.traceId⟩, ⟨8, ctx.spanId⟩]) := by
  obtain ⟨inbound, parsed, accepted⟩ := parseInboundTraceparent_header isHeader
  cases inbound with
  | none =>
      simp only [startTraceContext_fresh _ parsed, draw, Program.perform_eq, Program.done_bind,
        Program.await_bind, finishes_await, finishes_done] at run
      obtain ⟨traceId, _, rfl, spanId, _, rfl, rfl, rfl⟩ := run
      refine ⟨_, rfl, Or.inr ⟨rfl, fun traceId parentSpanId absurd => ?_, rfl⟩⟩
      cases (accepted traceId parentSpanId).mpr absurd
  | some inbound =>
      simp only [startTraceContext_joined _ parsed, draw, Program.perform_eq,
        Program.done_bind, Program.await_bind, finishes_await, finishes_done] at run
      obtain ⟨spanId, _, rfl, rfl, rfl⟩ := run
      exact ⟨_, rfl, Or.inl ⟨inbound.parentSpanId, rfl, (accepted _ _).mp rfl, rfl⟩⟩

/-- A hexadecimal digit is printable. -/
theorem isHex_printable {char : Char} (hex : isHex char = true) : ' ' ≤ char ∧ char ≤ '~' := by
  simp only [isHex, Char.isDigit, Bool.or_eq_true, Bool.and_eq_true, decide_eq_true_eq] at hex
  simp only [Char.le_def, UInt32.le_iff_toNat_le] at hex ⊢
  rcases hex with ⟨least, most⟩ | ⟨least, most⟩
  · exact ⟨le_trans (by decide) least, le_trans most (by decide)⟩
  · exact ⟨le_trans (by decide) least, le_trans most (by decide)⟩

/-- What the send side formats has the form of the grammar, with the flags of a sampled span. -/
theorem formatTraceparent_eq (ctx : TraceContext)
    : formatTraceparent ctx = "00-" ++ ctx.traceId ++ "-" ++ ctx.spanId ++ "-" ++ "01" := by
  rw [formatTraceparent, ← String.toList_inj]
  simp [String.toList_append]

/-- The header of a well-formed context is accepted, with the ids of the context. -/
theorem accepted_formatTraceparent {ctx : TraceContext} (formed : ctx.WellFormed)
    : Accepted (formatTraceparent ctx) ctx.traceId ctx.spanId :=
  ⟨"01", formed.1, formed.2, ⟨rfl, by decide⟩, formatTraceparent_eq ctx⟩

/-- The header of a well-formed context is printable. -/
theorem formatTraceparent_printable {ctx : TraceContext} (formed : ctx.WellFormed)
    : ∀ char ∈ (formatTraceparent ctx).toList, ' ' ≤ char ∧ char ≤ '~' := by
  have trace := List.all_eq_true.mp formed.1.2
  have span := List.all_eq_true.mp formed.2.2
  intro char member
  rw [formatTraceparent_eq, toList_header] at member
  simp only [List.mem_append, List.mem_cons] at member
  rcases member with (rfl | rfl | rfl | absurd) | member | rfl | member | rfl | flags
  · decide
  · decide
  · decide
  · cases absurd
  · exact isHex_printable (trace char member)
  · decide
  · exact isHex_printable (span char member)
  · decide
  · have digits : char = '0' ∨ char = '1' := by simpa using flags
    rcases digits with rfl | rfl <;> decide

/-- Both channels carry the header of a well-formed context as it is. -/
theorem carry_formatTraceparent {M : Type} (lib : MetadataLibrary M) (channel : Channel M)
    {ctx : TraceContext} (formed : ctx.WellFormed)
    : channel.carry lib (getCurrentTraceparent (some ctx))
      = some (.str (formatTraceparent ctx)) := by
  cases channel with
  | direct => rfl
  | grpc metadata =>
      have present : formatTraceparent ctx ≠ "" := by
        intro absurd
        have chars := congrArg String.toList absurd
        rw [formatTraceparent_eq, toList_header] at chars
        cases chars
      have attached : attachTraceparent lib metadata (some (formatTraceparent ctx))
          = lib.set metadata TRACEPARENT_METADATA_KEY (formatTraceparent ctx) := by
        unfold attachTraceparent
        split
        · rename_i absurd
          cases absurd
        · rename_i absurd
          exact (present (Option.some.inj absurd)).elim
        · rename_i same
          rw [Option.some.inj same]
      simp only [Channel.carry, getCurrentTraceparent, Option.map_some, attached, readTraceparent,
        lib.get_set _ _ _ (formatTraceparent_printable formed), List.head?_cons]

/-- A header is accepted with one pair of ids. -/
theorem AcceptedHeader.unique {header : Value}
    {traceId traceId' parentSpanId parentSpanId' : String}
    (accepted : AcceptedHeader header traceId parentSpanId)
    (accepted' : AcceptedHeader header traceId' parentSpanId')
    : traceId = traceId' ∧ parentSpanId = parentSpanId' := by
  obtain ⟨text, rfl, form⟩ := accepted
  obtain ⟨text', same, form'⟩ := accepted'
  cases same
  have matched := (matchTraceparent_eq_some_iff text traceId parentSpanId).mpr form
  have matched' := (matchTraceparent_eq_some_iff text traceId' parentSpanId').mpr form'
  rw [matched] at matched'
  exact InboundTrace.mk.inj (Option.some.inj matched')

/-- One boundary by itself is a chain. -/
theorem traceContinuity_start {header : Value} (isHeader : IsHeader header)
    {events : List (Event RandomEffects)} {outcome : Except Thrown TraceContext}
    (draws : DrawsHex events) (run : Finishes (startTraceContext draw header) events outcome)
    : ∃ ctx, outcome = .ok ctx ∧ TraceContinuity header events ctx [] := by
  obtain ⟨ctx, rfl, ⟨parentSpanId, parent, accepted, rfl⟩ | ⟨root, refused, rfl⟩⟩ :=
    finishes_startTraceContext isHeader run
  · have span : Hex 16 ctx.spanId := draws ⟨8, ctx.spanId⟩ (.head _)
    obtain ⟨text, rfl, flags, trace, form⟩ := id accepted
    refine ⟨ctx, rfl, by simpa using ⟨trace, span⟩, by simp, by simp, ?_, ?_⟩
    · intro traceId other
      constructor
      · intro accepted'
        obtain ⟨rfl, rfl⟩ := accepted.unique accepted'
        exact ⟨rfl, parent⟩
      · intro same
        obtain ⟨rfl, same⟩ := same
        rw [parent] at same
        cases same
        exact accepted
    · intro refused
      exact (refused _ _ accepted).elim
  · have trace : Hex 32 ctx.traceId := draws ⟨16, ctx.traceId⟩ (.head _)
    have span : Hex 16 ctx.spanId := draws ⟨8, ctx.spanId⟩ (.tail _ (.head _))
    refine ⟨ctx, rfl, by simpa using ⟨trace, span⟩, by simp, by simp, ?_, ?_⟩
    · intro traceId parentSpanId
      refine iff_of_false (refused traceId parentSpanId) (fun absurd => ?_)
      rw [root] at absurd
      cases absurd.2
    · exact fun _ => ⟨root, _, rfl⟩

/-- A chain goes on from a context whose header its next boundary receives. -/
theorem TraceContinuity.cons {header : Value} {head tail : List (Event RandomEffects)}
    {first next : TraceContext} {later : List TraceContext}
    (start : TraceContinuity header head first [])
    (rest : TraceContinuity (some (.str (formatTraceparent first))) tail next later)
    : TraceContinuity header (head ++ tail) first (next :: later) := by
  have formed : first.WellFormed := start.wellFormed first (.head _)
  obtain ⟨trace, parent⟩ := (rest.kept first.traceId first.spanId).mp
    ⟨_, rfl, accepted_formatTraceparent formed⟩
  constructor
  · intro ctx member
    rcases List.mem_cons.mp member with rfl | member
    · exact formed
    · exact rest.wellFormed ctx member
  · intro ctx member
    rcases List.mem_cons.mp member with rfl | member
    · exact trace
    · exact (rest.sameTrace ctx member).trans trace
  · exact List.isChain_cons_cons.mpr ⟨parent, rest.parents⟩
  · exact start.kept
  · intro refused
    obtain ⟨root, drawn, rfl⟩ := start.fresh refused
    exact ⟨root, drawn ++ tail, rfl⟩

/-- Every chain of boundaries is one trace, whatever header the first one receives, and the
send side makes up no header; witness: induction on the channels, the header of each later
boundary being that of a well-formed context.
-/
theorem hops_traceContinuity {M : Type} (lib : MetadataLibrary M) {header : Value}
    (isHeader : IsHeader header) {channels : List (Channel M)}
    {events : List (Event RandomEffects)} {outcome : Except Thrown (List TraceContext)}
    (draws : DrawsHex events) (run : Finishes (hops lib header channels) events outcome)
    : (∃ first later,
          outcome = .ok (first :: later)
          ∧ later.length = channels.length
          ∧ TraceContinuity header events first later)
      ∧ getCurrentTraceparent none = none := by
  refine ⟨?_, rfl⟩
  induction channels generalizing header events outcome with
  | nil =>
      rw [hops, Program.bind_eq, finishes_bind] at run
      rcases run with ⟨error, rfl, failed⟩ | ⟨ctx, head, tail, rfl, started, ended⟩
      · obtain ⟨_, absurd, _⟩ := traceContinuity_start isHeader draws failed
        cases absurd
      · obtain ⟨rfl, rfl⟩ := (finishes_done ..).mp ended
        rw [List.append_nil] at draws ⊢
        obtain ⟨first, same, continuity⟩ := traceContinuity_start isHeader draws started
        cases same
        exact ⟨ctx, [], rfl, rfl, continuity⟩
  | cons channel rest ih =>
      rw [hops, Program.bind_eq, finishes_bind] at run
      rcases run with ⟨error, rfl, failed⟩ | ⟨ctx, head, tail, rfl, started, run⟩
      · obtain ⟨_, absurd, _⟩ := traceContinuity_start isHeader draws failed
        cases absurd
      · have drawsHead : DrawsHex head := fun event member =>
          draws event (List.mem_append_left _ member)
        have drawsTail : DrawsHex tail := fun event member =>
          draws event (List.mem_append_right _ member)
        obtain ⟨first, same, start⟩ := traceContinuity_start isHeader drawsHead started
        cases same
        have carried := carry_formatTraceparent lib channel (start.wellFormed ctx (.head _))
        have received : IsHeader (some (.str (formatTraceparent ctx))) := Or.inr (Or.inr ⟨_, rfl⟩)
        rw [carried, Program.bind_eq, finishes_bind] at run
        rcases run with ⟨error, rfl, failed⟩ | ⟨contexts, calls, last, rfl, followed, ended⟩
        · obtain ⟨_, _, absurd, _⟩ := ih received drawsTail failed
          cases absurd
        · obtain ⟨rfl, rfl⟩ := (finishes_done ..).mp ended
          rw [List.append_nil] at drawsTail ⊢
          obtain ⟨next, later, same, sized, continuity⟩ := ih received drawsTail followed
          cases same
          exact ⟨ctx, next :: later, rfl, by simp [sized], start.cons continuity⟩

/-- Metadata as a list of keys with their values. -/
def listMetadata : MetadataLibrary (List (String × MetadataValue)) where
  set metadata key value := (key, .text value) :: metadata.filter (fun entry => entry.1 ≠ key)
  get metadata key := (metadata.filter (fun entry => entry.1 = key)).map Prod.snd
  get_set := by
    intro metadata key value _
    simp [List.filter_filter]

/-- The draws of two boundaries, the second of which goes on with the trace of the first. -/
def sampleDraws : List (Event RandomEffects) :=
  [⟨16, "4bf92f3577b34da6a3ce929d0e0e4736"⟩, ⟨8, "00f067aa0ba902b7"⟩, ⟨8, "b7ad6b7169203331"⟩]

/-- Two boundaries with a gRPC call between them, and no header for the first. -/
theorem hops_traceContinuity_sample
    : (∃ first later,
          Except.ok (ε := Thrown) [
              (⟨"4bf92f3577b34da6a3ce929d0e0e4736", "00f067aa0ba902b7", none⟩ : TraceContext),
              ⟨"4bf92f3577b34da6a3ce929d0e0e4736", "b7ad6b7169203331", some "00f067aa0ba902b7"⟩
            ]
            = .ok (first :: later)
          ∧ later.length = [Channel.grpc ([] : List (String × MetadataValue))].length
          ∧ TraceContinuity none sampleDraws first later)
      ∧ getCurrentTraceparent none = none := by
  have draws : DrawsHex sampleDraws := by
    intro event member
    simp only [sampleDraws, List.mem_cons, List.not_mem_nil, or_false] at member
    rcases member with rfl | rfl | rfl <;> exact ⟨by decide, by decide⟩
  apply hops_traceContinuity listMetadata (Or.inl rfl) draws
  refine .step _ (.step _ ?_)
  exact .step _ (.refl _)

end SharedKernel.Tracing
