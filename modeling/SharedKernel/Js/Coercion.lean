import SharedKernel.Js.Json
import SharedKernel.Js.Thrown

/-! String coercion of parsed JSON values, as template literals, regular expressions and
`String` apply it. An object with a property named toString has no primitive value.
-/

namespace Js.Json

/-- The value is null. -/
def isNull : Json → Bool
  | null => true
  | _ => false

mutual

/-- `String(value)`. -/
def toText : Json → Except Thrown String
  | null => .ok "null"
  | bool value => .ok (if value then "true" else "false")
  | num value => .ok value.toText
  | str text => .ok text
  | arr items => joinText items
  | obj members =>
      if members.any (fun entry => entry.1 = "toString") then
        .error (.error .typeError "Cannot convert object to primitive value")
      else .ok "[object Object]"

/-- The items of an array joined by commas; null is left empty. -/
def joinText : List Json → Except Thrown String
  | [] => .ok ""
  | [item] => if item.isNull then .ok "" else toText item
  | item :: rest => do
      let head ← if item.isNull then .ok "" else toText item
      let tail ← joinText rest
      return head ++ "," ++ tail

end

example : toText (arr [num (.finite 1), null, arr [str "a", bool true]]) = .ok "1,,a,true" := by
  decide +kernel

end Js.Json
