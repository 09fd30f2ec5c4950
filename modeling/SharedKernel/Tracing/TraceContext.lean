import SharedKernel.Foundation.Program
import SharedKernel.Js.Coercion

/-! W3C trace context: the inbound traceparent header and the context a receiving boundary
establishes from it.
-/

namespace SharedKernel.Tracing

open Foundation Js

structure TraceContext where
  traceId : String
  spanId : String
  parentSpanId : Option String
deriving DecidableEq

/-- A valid inbound header: the trace and the span of the caller. -/
structure InboundTrace where
  traceId : String
  parentSpanId : String
deriving DecidableEq

/-- A lower-case hexadecimal digit. -/
def isHex (char : Char) : Bool :=
  char.isDigit || ('a' ≤ char && char ≤ 'f')

/-- The regular expression of a version-00 header, with its two groups. -/
def matchTraceparent (text : String) : Option InboundTrace :=
  let chars := text.toList
  let version := chars.take 3
  let traceId := (chars.drop 3).take 32
  let parentSpanId := (chars.drop 36).take 16
  let flags := (chars.drop 53).take 2
  if chars.length = 55 ∧ version = ['0', '0', '-'] ∧ traceId.all isHex ∧ chars[35]? = some '-'
      ∧ parentSpanId.all isHex ∧ chars[52]? = some '-' ∧ flags.all isHex then
    some { traceId := String.ofList traceId, parentSpanId := String.ofList parentSpanId }
  else none

/-- Parse an inbound header of any type; matching it coerces it to a string, which may throw.
-/
def parseInboundTraceparent (header : Value) : Except Thrown (Option InboundTrace) :=
  match header with
  | none => .ok none
  | some value =>
      if !Json.truthy (some value) then .ok none
      else value.toText.map matchTraceparent

/-- Establish the context at a receiving boundary; `randomHex` draws the given number of bytes.
-/
def startTraceContext {F : Signature} (randomHex : Nat → Program F Thrown String)
    (inboundTraceparent : Value)
    : Program F Thrown TraceContext := do
  let inbound ← Program.settle (parseInboundTraceparent inboundTraceparent)
  let traceId ←
    match inbound with
    | some inbound => pure inbound.traceId
    | none => randomHex 16
  let spanId ← randomHex 8
  return { traceId, spanId, parentSpanId := inbound.map (·.parentSpanId) }

/-- The header of a context. -/
def formatTraceparent (ctx : TraceContext) : String :=
  "00-" ++ ctx.traceId ++ "-" ++ ctx.spanId ++ "-01"

/-- The header to send, where a context is active. -/
def getCurrentTraceparent (ctx : Option TraceContext) : Option String :=
  ctx.map formatTraceparent

/-- The fields that correlate a log record with the context; a root span has no parent. -/
def traceLogFields (ctx : Option TraceContext) : List (String × String) :=
  match ctx with
  | none => []
  | some ctx =>
      ("trace_id", ctx.traceId)
        :: ("span_id", ctx.spanId)
        :: match ctx.parentSpanId with
          | none | some "" => []
          | some parentSpanId => [("parent_span_id", parentSpanId)]

end SharedKernel.Tracing
