import SharedKernel.Logger.Redact
import SharedKernel.Tracing.TraceContext

/-! The hooks that every log call passes: the ids of the active trace context are added to its
first argument, which is then redacted.
-/

namespace SharedKernel.Logger

open Foundation Js Tracing

variable {α : Type} [DecidableEq α]

/-- Code on the objects of the caller. -/
abbrev HookCode (α β : Type) := Atomic (CallerObjects α) Thrown β

variable [Fintype α]

/-- `target[key] = value`, in strict code. -/
def strictSet (target : α) (key : String) (value : HeapValue α) : HookCode α Unit := do
  let objects ← get
  let name := describe (objects.heap.node target)
  if (objects.own? target key).isSome then
    if objects.frozen target then throw (readOnlyError name key)
    else modify (fun objects => objects.write target key value)
  else if objects.readOnlyAbove target key then throw (readOnlyError name key)
  else if objects.frozen target then throw (notExtensibleError key)
  else modify (fun objects => objects.write target key value)

/-- `Object.assign` of text fields. -/
def objectAssign (target : α) : List (String × String) → HookCode α Unit
  | [] => pure ()
  | (key, text) :: rest => do
      strictSet target key (.primitive (.text text))
      objectAssign target rest

-----------------------------------------------------------------------------------------
-- The hooks
-----------------------------------------------------------------------------------------

/-- An argument of a log call: a value of the caller, or the fields made for the call. -/
inductive LogArgument (α : Type) where
  | value (value : HeapValue α)
  | fields (entries : List (String × String))

/-- What the logging method is called with: its first argument, with the objects made for it,
and the others.
-/
structure MethodCall (α : Type) where
  first : Option (LogArgument (Address α))
  redaction : Redaction α
  others : List (LogArgument α)

/-- Redact the first argument if it is an object, and call the method. -/
def redactLogMethodHook : List (LogArgument α) → HookCode α (MethodCall α)
  | .value (.ref address) :: rest => do
      let objects ← get
      match deepRedact objects (.ref address) with
      | (.ok shown, redaction) =>
          return { first := some (.value shown), redaction, others := rest }
      | (.error err, _) => throw err
  | .fields entries :: rest =>
      return {
        first :=
          some
            (.fields
              (entries.map (fun entry =>
                if entry.1 ∈ sensitiveLogKeys then (entry.1, logRedactCensor) else entry)))
        redaction := noRedaction
        others := rest
      }
  | .value (.primitive value) :: rest =>
      return { first := some (.value (.primitive value)), redaction := noRedaction, others := rest }
  | [] => return { first := none, redaction := noRedaction, others := [] }

/-- Add the fields of the active context to the first argument, or before it if it is no
object, and go on to the redaction.
-/
def traceLogMethodHook (ctx : Option TraceContext) (inputArgs : List (HeapValue α))
    : HookCode α (MethodCall α) :=
  let fields := traceLogFields ctx
  if fields.length > 0 then
    match inputArgs with
    | .ref address :: _ => do
        objectAssign address fields
        redactLogMethodHook (inputArgs.map .value)
    | _ => redactLogMethodHook (.fields fields :: inputArgs.map .value)
  else redactLogMethodHook (inputArgs.map .value)

end SharedKernel.Logger
