import SharedKernel.Js.Thrown

/-! JavaScript dates: a time value in milliseconds since the epoch, or an invalid date. -/

namespace Js

/-- A `Date`; `invalid` is the date whose time value is NaN. -/
inductive Date where
  | invalid
  | valid (time : Int)
deriving DecidableEq

namespace Date

/-- A number in decimal, padded with zeros to a width. -/
def pad (width : Nat) (value : Int) : String :=
  let ds := Nat.toDigits 10 value.toNat
  String.ofList (List.replicate (width - ds.length) '0' ++ ds)

/-- Year, month and day of a day number in the proleptic Gregorian calendar; the year is
counted from March so that the leap day comes last.
-/
def civil (day : Int) : Int × Int × Int :=
  let shifted := day + 719468
  let era := shifted / 146097
  let dayOfEra := shifted % 146097
  let yearOfEra := (dayOfEra - dayOfEra / 1460 + dayOfEra / 36524 - dayOfEra / 146096) / 365
  let dayOfYear := dayOfEra - (365 * yearOfEra + yearOfEra / 4 - yearOfEra / 100)
  let month := (5 * dayOfYear + 2) / 153
  let date := dayOfYear - (153 * month + 2) / 5 + 1
  if month < 10 then (yearOfEra + era * 400, month + 3, date)
  else (yearOfEra + era * 400 + 1, month - 9, date)

/-- A year in four digits, or signed in six outside that range. -/
def yearText (year : Int) : String :=
  if 0 ≤ year ∧ year ≤ 9999 then pad 4 year
  else (if year < 0 then "-" else "+") ++ pad 6 year.natAbs

/-- `date.toISOString()`: it throws a RangeError on an invalid date. -/
def toISOString : Date → Except Thrown String
  | invalid => .error (.error .rangeError "Invalid time value")
  | valid time =>
      let (year, month, date) := civil (time / 86400000)
      let inDay := time % 86400000
      .ok
        (yearText year ++ "-" ++ pad 2 month ++ "-" ++ pad 2 date ++ "T"
          ++ pad 2 (inDay / 3600000) ++ ":" ++ pad 2 (inDay / 60000 % 60) ++ ":"
          ++ pad 2 (inDay / 1000 % 60) ++ "." ++ pad 3 (inDay % 1000) ++ "Z")

/-- A valid date prints. -/
theorem toISOString_valid (time : Int) : ∃ text, (valid time).toISOString = .ok text :=
  ⟨_, rfl⟩

example : (valid 1787529600000).toISOString = .ok "2026-08-24T00:00:00.000Z" := by
  decide +kernel

end Date
end Js
