import Mathlib.Data.List.Basic

/-! Folding a list whose items commute unless they are of one kind: only the order within each
kind matters.
-/

namespace Foundation

variable {State Kind : Type*} {Item : Type*} {step : State → Item → State}
  {kind : Item → Kind} {allowed : Item → Prop}

variable [DecidableEq Kind]

end Foundation
