import Mathlib.Data.Int.Log
import Mathlib.Data.Rat.Floor

/-! JavaScript numbers: IEEE-754 doubles as exact rationals, with rounding to 53 bits, the
`Number(text)` and `String(number)` conversions, and the comparisons the code uses.
-/

namespace Js

/-- A JavaScript number. Both zeros are `finite 0`: no modelled operation tells them apart. -/
inductive Number where
  | nan
  | infinity (negative : Bool)
  | finite (value : ℚ)
deriving DecidableEq

namespace Number

-----------------------------------------------------------------------------------------
-- Rounding
-----------------------------------------------------------------------------------------

/-- The nearest integer, ties to even. -/
def roundHalfEven (value : ℚ) : Int :=
  let below := ⌊value⌋
  let rest := value - below
  if rest < 1 / 2 then below
  else if 1 / 2 < rest then below + 1
  else if below % 2 = 0 then below
  else below + 1

/-- The exponent of the last of the 53 significant bits, bounded below for subnormals. -/
def lastBit (value : ℚ) : Int :=
  max (Int.log 2 |value| - 52) (-1074)

/-- The double nearest to an exact value, ties to an even significand. -/
def ofRat (value : ℚ) : Number :=
  let rounded := roundHalfEven (value / 2 ^ lastBit value) * (2 : ℚ) ^ lastBit value
  if (2 : ℚ) ^ (1024 : Nat) ≤ |rounded| then infinity (rounded < 0) else finite rounded

/-- An exactly represented natural number. -/
def ofNat (value : Nat) : Number :=
  finite value

/-- JavaScript `+` on numbers. -/
def add : Number → Number → Number
  | nan, _ | _, nan => nan
  | infinity left, infinity right => if left = right then infinity left else nan
  | infinity left, finite _ => infinity left
  | finite _, infinity right => infinity right
  | finite left, finite right => ofRat (left + right)

/-- The sign of a number that is not zero. -/
def negative : Number → Bool
  | nan => false
  | infinity negative => negative
  | finite value => value < 0

/-- JavaScript `*` on numbers. -/
def mul (left right : Number) : Number :=
  match left, right with
  | nan, _ | _, nan => nan
  | finite left, finite right => ofRat (left * right)
  | _, _ =>
      if left = finite 0 ∨ right = finite 0 then nan
      else infinity (left.negative != right.negative)

/-- `Math.round`: the nearest integer, halves upwards. -/
def round : Number → Number
  | finite value => finite ⌊value + 1 / 2⌋
  | other => other

/-- `Math.floor`. -/
def floor : Number → Number
  | finite value => finite ⌊value⌋
  | other => other

/-- JavaScript `left >= right`: false as soon as either side is NaN. -/
def ge : Number → Number → Bool
  | nan, _ | _, nan => false
  | infinity left, infinity right => !left || right
  | infinity left, finite _ => !left
  | finite _, infinity right => right
  | finite left, finite right => right ≤ left

/-- JavaScript `left > right`: false as soon as either side is NaN. -/
def gt : Number → Number → Bool
  | nan, _ | _, nan => false
  | infinity left, infinity right => !left && right
  | infinity left, finite _ => !left
  | finite _, infinity right => right
  | finite left, finite right => right < left

/-- `Math.min` of two numbers. -/
def min (left right : Number) : Number :=
  if left = nan ∨ right = nan then nan else if left.gt right then right else left

/-- The natural number a JavaScript number is, if any: `Number.isInteger` and not negative. -/
def natural? : Number → Option Nat
  | finite value => if value.den = 1 ∧ 0 ≤ value then some value.num.toNat else none
  | _ => none

/-- JavaScript truthiness of a number: false for zero and NaN. -/
def truthy : Number → Bool
  | nan => false
  | infinity _ => true
  | finite value => value ≠ 0

-----------------------------------------------------------------------------------------
-- Number(text)
-----------------------------------------------------------------------------------------

/-- The white space and line terminators that `Number(text)` strips. -/
def isSpace (char : Char) : Bool :=
  char ∈ ['\t', '\n', '\x0b', '\x0c', '\r', ' ', '\u00a0', '\u1680', '\u2028', '\u2029',
    '\u202f', '\u205f', '\u3000', '\ufeff']
  || ('\u2000' ≤ char && char ≤ '\u200a')

/-- Strip white space at both ends. -/
def trim (text : List Char) : List Char :=
  ((text.dropWhile isSpace).reverse.dropWhile isSpace).reverse

/-- A nonempty string of digits in a base up to sixteen. -/
def digits? (base : Nat) (text : List Char) : Option Nat :=
  let digit (char : Char) : Option Nat :=
    let value :=
      if char.isDigit then char.toNat - '0'.toNat
      else if 'a' ≤ char ∧ char ≤ 'f' then char.toNat - 'a'.toNat + 10
      else if 'A' ≤ char ∧ char ≤ 'F' then char.toNat - 'A'.toNat + 10
      else base
    if value < base then some value else none
  if text = [] then none
  else
    (text.mapM digit).map (fun values => values.foldl (fun total value => base * total + value) 0)

/-- A run of decimal digits, possibly empty, and the text after it. -/
def spanDigits (text : List Char) : List Char × List Char :=
  (text.takeWhile Char.isDigit, text.dropWhile Char.isDigit)

/-- The exponent part of a decimal literal, up to the end of the text. -/
def exponent? : List Char → Option Int
  | [] => some 0
  | mark :: rest =>
      if mark = 'e' ∨ mark = 'E' then
        match rest with
        | '+' :: ds =>
            if ds.all Char.isDigit && ds ≠ [] then some (Nat.ofDigitChars 10 ds 0) else none
        | '-' :: ds =>
            if ds.all Char.isDigit && ds ≠ [] then some (-(Nat.ofDigitChars 10 ds 0)) else none
        | ds => if ds.all Char.isDigit && ds ≠ [] then some (Nat.ofDigitChars 10 ds 0) else none
      else none

/-- An unsigned decimal literal: digits with an optional fraction and exponent. -/
def unsignedDecimal? (text : List Char) : Option ℚ :=
  let (whole, rest) := spanDigits text
  let (fraction, rest) :=
    match rest with
    | '.' :: rest => spanDigits rest
    | _ => ([], rest)
  if whole = [] ∧ fraction = [] then none
  else
    (exponent? rest).map (fun (exponent : Int) =>
      (Nat.ofDigitChars 10 (whole ++ fraction) 0 : ℚ) * 10 ^ (exponent - fraction.length))

/-- A signed decimal literal or infinity. -/
def decimal (text : List Char) : Number :=
  let unsigned (negative : Bool) (text : List Char) : Number :=
    if text = "Infinity".toList then infinity negative
    else
      match unsignedDecimal? text with
      | some value => ofRat (if negative then -value else value)
      | none => nan
  match text with
  | '+' :: rest => unsigned false rest
  | '-' :: rest => unsigned true rest
  | _ => unsigned false text

/-- `Number(text)`: trimmed, empty is zero, prefixed integers, otherwise a decimal. -/
def ofText (text : String) : Number :=
  let prefixed (base : Nat) (rest : List Char) : Number :=
    match digits? base rest with
    | some value => ofRat value
    | none => nan
  match trim text.toList with
  | [] => finite 0
  | '0' :: 'x' :: rest | '0' :: 'X' :: rest => prefixed 16 rest
  | '0' :: 'o' :: rest | '0' :: 'O' :: rest => prefixed 8 rest
  | '0' :: 'b' :: rest | '0' :: 'B' :: rest => prefixed 2 rest
  | trimmed => decimal trimmed

-----------------------------------------------------------------------------------------
-- String(number)
-----------------------------------------------------------------------------------------

/-- The decimal with the given number of significant digits that reads back as a positive
double, as significand and exponent; the closer of the two neighbours is tried first.
-/
def candidate (value : ℚ) (significant : Nat) : Option (Nat × Int) :=
  let exponent := Int.log 10 value + 1 - significant
  let scaled := value / 10 ^ exponent
  let below := ⌊scaled⌋₊
  let neighbours :=
    if roundHalfEven scaled = below then [below, below + 1] else [below + 1, below]
  (neighbours.find?
    (fun (significand : Nat) => ofRat (significand * 10 ^ exponent) = finite value)).map
    (fun significand =>
      if significand = 10 ^ significant then (1, exponent + significant)
      else (significand, exponent))

/-- The shortest decimal reading back as a positive double; 17 digits always suffice. -/
def shortest (value : ℚ) : Nat × Int :=
  ((List.range' 1 17).findSome? (candidate value)).getD (⌊value⌋₊, 0)

/-- Lay out a significand and exponent as `Number.prototype.toString` does. -/
def layout (significand : Nat) (exponent : Int) : List Char :=
  let ds := Nat.toDigits 10 significand
  let point : Int := ds.length + exponent
  if 0 ≤ exponent ∧ point ≤ 21 then ds ++ List.replicate exponent.toNat '0'
  else if 0 < point ∧ point ≤ 21 then ds.take point.toNat ++ '.' :: ds.drop point.toNat
  else if -6 < point ∧ point ≤ 0 then
    '0' :: '.' :: List.replicate (-point).toNat '0' ++ ds
  else
    let sign := if 0 ≤ point - 1 then '+' else '-'
    let power := sign :: Nat.toDigits 10 (point - 1).natAbs
    match ds with
    | [single] => single :: 'e' :: power
    | first :: rest => first :: '.' :: rest ++ 'e' :: power
    | [] => []

/-- `String(number)`. -/
def toText : Number → String
  | nan => "NaN"
  | infinity false => "Infinity"
  | infinity true => "-Infinity"
  | finite value =>
      if value = 0 then "0"
      else
        let (significand, exponent) := shortest |value|
        let body := layout significand exponent
        String.ofList (if value < 0 then '-' :: body else body)

end Number
end Js
