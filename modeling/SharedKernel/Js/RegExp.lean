import Mathlib.Data.List.Basic
import Mathlib.Tactic.Common

/-! Regular expressions whose repetitions are of character sets, matched by backtracking: a
pattern is given what remains to be matched after it, and tries its ways in order.
-/

namespace Js

/-- The state of a match: the character before the place it has reached, the text after that
place, and the groups read so far.
-/
structure MatchState where
  before : Option Char
  rest : List Char
  groups : List (List Char)
deriving DecidableEq

/-- The characters that end a line. -/
def isLineTerminator (char : Char) : Bool :=
  char ∈ ['\n', '\r', '\u2028', '\u2029']

/-- The characters of `\w`. -/
def isWordChar (char : Char) : Bool :=
  char.isAlphanum || char = '_'

-----------------------------------------------------------------------------------------
-- Patterns
-----------------------------------------------------------------------------------------

/-- Patterns: a character of a set, as many of them as possible, as few as possible, `^`, `\b`,
`(?!…)`, a group and a sequence. With the flag `m`, `^` stands at every start of a line.
-/
inductive RegExp where
  | one (set : Char → Bool)
  | many (set : Char → Bool)
  | fewest (set : Char → Bool)
  | start (multiline : Bool)
  | boundary
  | without (pattern : RegExp)
  | group (pattern : RegExp)
  | seq (first second : RegExp)

namespace RegExp

/-- A word, and what follows it. -/
def word (text : List Char) (next : RegExp) : RegExp :=
  text.foldr (fun char rest => seq (one (· = char)) rest) next

/-- At least one character of a set, and what follows. -/
def plus (set : Char → Bool) (next : RegExp) : RegExp :=
  seq (one set) (seq (many set) next)

/-- A run of characters of a set, the longest first. -/
def longest (set : Char → Bool) (next : Option Char → List Char → Option MatchState)
    : Option Char → List Char → Option MatchState
  | before, [] => next before []
  | before, char :: rest =>
      if set char then (longest set next (some char) rest).or (next before (char :: rest))
      else next before (char :: rest)

/-- A run of characters of a set, the shortest first. -/
def shortest (set : Char → Bool) (next : Option Char → List Char → Option MatchState)
    : Option Char → List Char → Option MatchState
  | before, [] => next before []
  | before, char :: rest =>
      if set char then (next before (char :: rest)).or (shortest set next (some char) rest)
      else next before (char :: rest)

/-- `\b` at a place: a word character on exactly one side. -/
def atBoundary (state : MatchState) : Bool :=
  state.before.any isWordChar != state.rest.head?.any isWordChar

/-- `^` at a place. -/
def atStart (multiline : Bool) (state : MatchState) : Bool :=
  state.before.all fun char => multiline && isLineTerminator char

/-- What has been read of a text when some of it remains. -/
def readUpTo (text rest : List Char) : List Char :=
  text.take (text.length - rest.length)

/-- The first way to match a pattern and then what remains. -/
def run : RegExp → (MatchState → Option MatchState) → MatchState → Option MatchState
  | one set, next, state =>
      match state.rest with
      | [] => none
      | char :: rest => if set char then next { state with before := some char, rest } else none
  | many set, next, state =>
      longest set (fun before rest => next { state with before, rest }) state.before state.rest
  | fewest set, next, state =>
      shortest set (fun before rest => next { state with before, rest }) state.before state.rest
  | start multiline, next, state => if atStart multiline state then next state else none
  | boundary, next, state => if atBoundary state then next state else none
  | without pattern, next, state => if (pattern.run some state).isSome then none else next state
  -- An outer group is numbered before the groups inside it.
  | group pattern, next, state =>
      pattern.run
        (fun later =>
          next
            { later with
              groups :=
                state.groups ++ readUpTo state.rest later.rest
                  :: later.groups.drop state.groups.length })
        state
  | seq first second, next, state => first.run (second.run next) state

/-- `RegExp.exec` from a place on: the first match there or later. -/
def exec (pattern : RegExp) : Option Char → List Char → Option MatchState
  | before, [] => pattern.run some ⟨before, [], []⟩
  | before, char :: rest =>
      (pattern.run some ⟨before, char :: rest, []⟩).or (exec pattern (some char) rest)

/-- `RegExp.test`. -/
def test (pattern : RegExp) (text : List Char) : Bool :=
  (pattern.exec none text).isSome

/-- The loop `while ((m = re.exec(text)))` of a global pattern, for a bound on its rounds. -/
def execLoop (pattern : RegExp) : Nat → Option Char → List Char → List MatchState
  | 0, _, _ => []
  | rounds + 1, before, text =>
      match pattern.exec before text with
      | none => []
      | some found => found :: execLoop pattern rounds found.before found.rest

-----------------------------------------------------------------------------------------
-- How the patterns run
-----------------------------------------------------------------------------------------

section Rules

variable {set : Char → Bool} {first second pattern : RegExp}
  {next : MatchState → Option MatchState} {state : MatchState} {before : Option Char}
  {text rest : List Char} {groups : List (List Char)}

@[simp] theorem run_seq
    : (seq first second).run next state = first.run (second.run next) state :=
  rfl

@[simp] theorem run_one_nil : (one set).run next ⟨before, [], groups⟩ = none :=
  rfl

@[simp] theorem run_one_cons {char : Char}
    : (one set).run next ⟨before, char :: rest, groups⟩
      = if set char then next ⟨some char, rest, groups⟩ else none :=
  rfl

@[simp] theorem run_many
    : (many set).run next ⟨before, text, groups⟩
      = longest set (fun before rest => next ⟨before, rest, groups⟩) before text :=
  rfl

@[simp] theorem run_fewest
    : (fewest set).run next ⟨before, text, groups⟩
      = shortest set (fun before rest => next ⟨before, rest, groups⟩) before text :=
  rfl

@[simp] theorem run_start {multiline : Bool}
    : (start multiline).run next ⟨before, text, groups⟩
      = if before.all (fun char => multiline && isLineTerminator char)
        then next ⟨before, text, groups⟩ else none :=
  rfl

@[simp] theorem run_group
    : (group pattern).run next state
      = pattern.run
          (fun later =>
            next
              ⟨
                later.before,
                later.rest,
                state.groups ++ readUpTo state.rest later.rest
                  :: later.groups.drop state.groups.length
              ⟩)
          state :=
  rfl

@[simp] theorem readUpTo_append (passed : List Char)
    : readUpTo (passed ++ rest) rest = passed := by
  simp [readUpTo]

/-- The character before the place behind a text. -/
def lastOf (before : Option Char) (text : List Char) : Option Char :=
  text.getLast?.or before

/-- A word is read by comparing it with the text, by induction on it. -/
theorem run_word (characters : List Char)
    : (word characters pattern).run next ⟨before, text, groups⟩
      = (characters.isPrefixOf? text).bind
          (fun rest => pattern.run next ⟨lastOf before characters, rest, groups⟩) := by
  induction characters generalizing before text with
  | nil => simp [word, lastOf, List.isPrefixOf?]
  | cons char characters ih =>
      have unfolded
          : word (char :: characters) pattern
            = seq (one (· = char)) (word characters pattern) :=
        rfl
      cases text with
      | nil => simp [unfolded, List.isPrefixOf?]
      | cons head text =>
          rw [unfolded, run_seq, run_one_cons, List.isPrefixOf?]
          by_cases same : head = char
          · subst same
            have last : lastOf before (head :: characters) = lastOf (some head) characters := by
              cases characters <;> simp [lastOf, List.getLast?_cons]
            simp [ih, last]
          · simp [same, Ne.symm same]

/-- Where what remains cannot begin with a character of the set, only the whole run of them
is of use, by induction on the text.
-/
theorem longest_of_fails {next : Option Char → List Char → Option MatchState}
    (fails : ∀ before char rest, set char → next before (char :: rest) = none)
    : longest set next before text
      = next (lastOf before (text.takeWhile set)) (text.dropWhile set) := by
  induction text generalizing before with
  | nil => rfl
  | cons char text ih =>
      by_cases member : set char
      · have last
            : lastOf before (char :: text.takeWhile set)
              = lastOf (some char) (text.takeWhile set) := by
          cases text.takeWhile set <;> simp [lastOf, List.getLast?_cons]
        simp [longest, member, ih, fails before char text member, last]
      · simp [longest, member, lastOf]

/-- The loop of a pattern whose matches are not empty is over after a round for each character
and one more, by induction on the rounds.
-/
theorem execLoop_enough {rounds : Nat} (more : Nat)
    (shorter
      : ∀ before text found,
          pattern.exec before text = some found → found.rest.length < text.length)
    (enough : text.length < rounds)
    : pattern.execLoop (rounds + more) before text = pattern.execLoop rounds before text := by
  induction rounds generalizing before text with
  | zero => cases enough
  | succ rounds ih =>
      rw [Nat.succ_add, execLoop, execLoop]
      cases search : pattern.exec before text with
      | none => rfl
      | some found =>
          have less := shorter before text found search
          simp only [ih (Nat.lt_of_lt_of_le less (Nat.le_of_lt_succ enough))]

end Rules

end RegExp
end Js
