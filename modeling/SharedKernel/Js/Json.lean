import SharedKernel.Js.Number

/-! JSON values, `JSON.stringify` and `JSON.parse`. Strings are sequences of Unicode scalar
values: a lone surrogate escape reads as the replacement character.
-/

namespace Js

/-- A JSON value; an object keeps its members in order, the last of equal names winning. -/
inductive Json where
  | null
  | bool (value : Bool)
  | num (value : Number)
  | str (value : String)
  | arr (items : List Json)
  | obj (members : List (String × Json))

/-- A JSON value, or undefined. -/
abbrev Value := Option Json

namespace Json

/-- An own property of an object; every other value, an array included, has none of the
names that the code reads. -/
def field? (value : Json) (name : String) : Value :=
  match value with
  | obj members => (members.reverse.find? (fun entry => entry.1 = name)).map Prod.snd
  | _ => none

/-- JavaScript truthiness of a property that may be undefined. -/
def truthy : Value → Bool
  | none | some null => false
  | some (bool value) => value
  | some (num value) => value.truthy
  | some (str value) => value ≠ ""
  | some (arr _) | some (obj _) => true

-----------------------------------------------------------------------------------------
-- JSON.stringify
-----------------------------------------------------------------------------------------

/-- One lower-case hexadecimal digit. -/
def hexDigit (value : Nat) : Char :=
  Nat.digitChar value

/-- One character inside a quoted JSON string. -/
def escape (char : Char) : List Char :=
  match char with
  | '"' => ['\\', '"']
  | '\\' => ['\\', '\\']
  | '\x08' => ['\\', 'b']
  | '\x0c' => ['\\', 'f']
  | '\n' => ['\\', 'n']
  | '\r' => ['\\', 'r']
  | '\t' => ['\\', 't']
  | _ =>
      if char.toNat < 0x20 then
        ['\\', 'u', '0', '0', hexDigit (char.toNat / 16), hexDigit (char.toNat % 16)]
      else [char]

/-- A quoted JSON string. -/
def quote (text : String) : List Char :=
  '"' :: text.toList.flatMap escape ++ ['"']

mutual

/-- `JSON.stringify(value)`; a number that is not finite is written as null. -/
def encode : Json → List Char
  | null => "null".toList
  | bool true => "true".toList
  | bool false => "false".toList
  | num (.finite value) => (Number.finite value).toText.toList
  | num _ => "null".toList
  | str text => quote text
  | arr items => '[' :: encodeItems items ++ [']']
  | obj members => '{' :: encodeMembers members ++ ['}']

/-- Comma-separated array items. -/
def encodeItems : List Json → List Char
  | [] => []
  | [item] => encode item
  | item :: rest => encode item ++ ',' :: encodeItems rest

/-- Comma-separated object members. -/
def encodeMembers : List (String × Json) → List Char
  | [] => []
  | [(name, item)] => quote name ++ ':' :: encode item
  | (name, item) :: rest => quote name ++ ':' :: encode item ++ ',' :: encodeMembers rest

end

/-- `JSON.stringify(value)`. -/
def stringify (value : Json) : String :=
  String.ofList value.encode

-----------------------------------------------------------------------------------------
-- JSON.parse
-----------------------------------------------------------------------------------------

/-- Skip JSON white space. -/
def skipSpace (text : List Char) : List Char :=
  text.dropWhile (fun char => char ∈ [' ', '\t', '\n', '\r'])

/-- The value of four hexadecimal digits. -/
def unit? (a b c d : Char) : Option Nat :=
  Number.digits? 16 [a, b, c, d]

/-- The code units of a string body up to its closing quote, and the text after it. -/
def readUnits : List Char → Option (List Nat × List Char)
  | '"' :: rest => some ([], rest)
  | '\\' :: 'u' :: a :: b :: c :: d :: rest => do
      let unit ← unit? a b c d
      let (units, rest) ← readUnits rest
      return (unit :: units, rest)
  | '\\' :: mark :: rest => do
      let char ←
        match mark with
        | '"' => some '"'
        | '\\' => some '\\'
        | '/' => some '/'
        | 'b' => some '\x08'
        | 'f' => some '\x0c'
        | 'n' => some '\n'
        | 'r' => some '\r'
        | 't' => some '\t'
        | _ => none
      let (units, rest) ← readUnits rest
      return (char.toNat :: units, rest)
  | char :: rest => do
      if char.toNat < 0x20 ∨ char = '\\' then none
      else
        let (units, rest) ← readUnits rest
        return (char.toNat :: units, rest)
  | [] => none

/-- Join surrogate pairs; a lone surrogate becomes the replacement character. -/
def joinUnits : List Nat → List Char
  | [] => []
  | [unit] => [if 0xd800 ≤ unit ∧ unit < 0xe000 then '\ufffd' else Char.ofNat unit]
  | high :: low :: rest =>
      if 0xd800 ≤ high ∧ high < 0xdc00 ∧ 0xdc00 ≤ low ∧ low < 0xe000 then
        Char.ofNat (0x10000 + (high - 0xd800) * 0x400 + (low - 0xdc00)) :: joinUnits rest
      else if 0xd800 ≤ high ∧ high < 0xe000 then '\ufffd' :: joinUnits (low :: rest)
      else Char.ofNat high :: joinUnits (low :: rest)

/-- A string after its opening quote. -/
def readString (text : List Char) : Option (String × List Char) :=
  (readUnits text).map (fun (units, rest) => (String.ofList (joinUnits units), rest))

/-- The characters a JSON number is made of, and the text after them. -/
def spanNumber (text : List Char) : List Char × List Char :=
  let numeric (char : Char) : Bool := char.isDigit || char ∈ ['+', '-', '.', 'e', 'E']
  (text.takeWhile numeric, text.dropWhile numeric)

/-- The JSON number grammar: no leading plus, no leading zeros, digits on both sides of the
point.
-/
def validNumber (text : List Char) : Bool :=
  let unsigned := match text with
    | '-' :: rest => rest
    | _ => text
  let (whole, rest) := Number.spanDigits unsigned
  let wholeOk := whole = ['0'] || (whole ≠ [] && whole.head? ≠ some '0')
  match rest with
  | '.' :: rest =>
      let (fraction, rest) := Number.spanDigits rest
      wholeOk && fraction ≠ [] && (Number.exponent? rest).isSome
  | _ => wholeOk && (Number.exponent? rest).isSome

mutual

/-- A value at the start of the text. The fuel bounds the number of nested calls, each of
which consumes a character.
-/
def readValue : Nat → List Char → Option (Json × List Char)
  | 0, _ => none
  | fuel + 1, text =>
      match skipSpace text with
      | 'n' :: 'u' :: 'l' :: 'l' :: rest => some (null, rest)
      | 't' :: 'r' :: 'u' :: 'e' :: rest => some (bool true, rest)
      | 'f' :: 'a' :: 'l' :: 's' :: 'e' :: rest => some (bool false, rest)
      | '"' :: rest => (readString rest).map (fun (value, rest) => (str value, rest))
      | '[' :: rest =>
          match skipSpace rest with
          | ']' :: rest => some (arr [], rest)
          | rest => (readItems fuel rest).map (fun (items, rest) => (arr items, rest))
      | '{' :: rest =>
          match skipSpace rest with
          | '}' :: rest => some (obj [], rest)
          | rest => (readMembers fuel rest).map (fun (members, rest) => (obj members, rest))
      | rest =>
          let (digits, rest) := spanNumber rest
          if validNumber digits then some (num (Number.decimal digits), rest) else none

/-- One or more array items and the closing bracket. -/
def readItems : Nat → List Char → Option (List Json × List Char)
  | 0, _ => none
  | fuel + 1, text => do
      let (item, rest) ← readValue fuel text
      match skipSpace rest with
      | ',' :: rest =>
          let (items, rest) ← readItems fuel rest
          return (item :: items, rest)
      | ']' :: rest => return ([item], rest)
      | _ => none

/-- One or more object members and the closing brace. -/
def readMembers : Nat → List Char → Option (List (String × Json) × List Char)
  | 0, _ => none
  | fuel + 1, text =>
      match skipSpace text with
      | '"' :: rest => do
          let (name, rest) ← readString rest
          match skipSpace rest with
          | ':' :: rest =>
              let (item, rest) ← readValue fuel rest
              match skipSpace rest with
              | ',' :: rest =>
                  let (members, rest) ← readMembers fuel rest
                  return ((name, item) :: members, rest)
              | '}' :: rest => return ([(name, item)], rest)
              | _ => none
          | _ => none
      | _ => none
end

/-- `JSON.parse(text)`; `none` where it throws. -/
def parse (text : String) : Option Json := do
  let (value, rest) ← readValue (2 * text.length + 2) text.toList
  if skipSpace rest = [] then some value else none

end Json
end Js
