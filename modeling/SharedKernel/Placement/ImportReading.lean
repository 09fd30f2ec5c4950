import Mathlib.Data.List.TakeWhile
import SharedKernel.Placement.ImportSyntax

/-! What the pattern of the purity gate finds in a text: it enters the text behind an `import`
at the start of a line, and reads on to the first specifier behind a `from`.
-/

namespace SharedKernel.Placement

open Js

-----------------------------------------------------------------------------------------
-- Entering an import
-----------------------------------------------------------------------------------------

/-- The text begins with the word `type`. -/
def startsWithType (text : List Char) : Bool :=
  ("type".toList.isPrefixOf? text).any fun rest => !rest.head?.any isWordChar

/-- The text behind white space. Before the word `type`, the last blank is given back. -/
def afterGap : List Char → Option (List Char)
  | [] => some []
  | char :: text =>
      if Number.isSpace char then (afterGap text).or (some (char :: text))
      else if startsWithType (char :: text) then none
      else some (char :: text)

/-- The text behind `import` and white space, which has to be more than one blank before the
word `type`.
-/
def afterImport (text : List Char) : Option (List Char) :=
  ("import".toList.isPrefixOf? (text.dropWhile Number.isSpace)).bind fun
    | [] => none
    | char :: rest => if Number.isSpace char then afterGap rest else none

/-- The text behind the first such `import` at the start of a line. -/
def entered : Bool → List Char → Option (List Char)
  | _, [] => none
  | lineStart, char :: text =>
      (if lineStart then afterImport (char :: text) else none).or
        (entered (isLineTerminator char) text)

-----------------------------------------------------------------------------------------
-- Reading a specifier
-----------------------------------------------------------------------------------------

/-- A specifier that was read, the quote behind it and the text behind that. -/
structure ReadSpecifier where
  spec : List Char
  quote : Char
  rest : List Char

/-- A specifier in quotes, at the beginning of a text. -/
def readQuoted : List Char → Option ReadSpecifier
  | quote :: char :: text =>
      if isQuote quote && !isQuote char then
        match text.dropWhile (!isQuote ·) with
        | [] => none
        | closing :: rest => some ⟨char :: text.takeWhile (!isQuote ·), closing, rest⟩
      else none
  | _ => none

/-- `from`, white space and a specifier, at the beginning of a text. -/
def readFrom (text : List Char) : Option ReadSpecifier :=
  ("from".toList.isPrefixOf? text).bind fun
    | [] => none
    | char :: rest =>
        if Number.isSpace char then readQuoted (rest.dropWhile Number.isSpace) else none

/-- The text up to the first such `from`, and the specifier. -/
def readClause : List Char → Option (List Char × ReadSpecifier)
  | [] => none
  | char :: text =>
      match readFrom (char :: text) with
      | some read => some ([], read)
      | none => (readClause text).map fun (clause, read) => (char :: clause, read)

/-- The state behind a specifier. -/
def ReadSpecifier.state (clause : List Char) (read : ReadSpecifier) : MatchState :=
  ⟨some read.quote, read.rest, [clause, read.spec]⟩

-----------------------------------------------------------------------------------------
-- The patterns
-----------------------------------------------------------------------------------------

/-- The pattern of a specifier in quotes reads one. -/
theorem run_quotedPattern (before : Option Char) (text clause : List Char)
    : quotedPattern.run some ⟨before, text, [clause]⟩
      = (readQuoted text).map (·.state clause) := by
  match text with
  | [] => rfl
  | [quote] => by_cases opening : isQuote quote <;> simp [quotedPattern, readQuoted, opening]
  | quote :: char :: text =>
      by_cases opening : isQuote quote
      · by_cases unquoted : isQuote char
        · simp [quotedPattern, readQuoted, opening, unquoted]
        · have split := List.takeWhile_append_dropWhile (p := (!isQuote ·)) (l := text)
          simp only [quotedPattern, RegExp.run_seq, RegExp.run_one_cons, opening, if_true,
            RegExp.run_group, unquoted, Bool.not_false, RegExp.run_many]
          rw [RegExp.longest_of_fails (by simp +contextual)]
          cases left : text.dropWhile (!isQuote ·) with
          | nil => simp [readQuoted, opening, unquoted, left]
          | cons closing rest =>
              have closes : isQuote closing := by
                simpa [left] using List.head?_dropWhile_not (!isQuote ·) text
              rw [left] at split
              have passed
                  : RegExp.readUpTo (char :: text) (closing :: rest)
                    = char :: text.takeWhile (!isQuote ·) := by
                simpa [split] using
                  @RegExp.readUpTo_append (closing :: rest)
                    (char :: text.takeWhile (!isQuote ·))
              simp [readQuoted, opening, unquoted, left, closes, passed, ReadSpecifier.state]
      · simp [quotedPattern, readQuoted, opening]

/-- White space is no quote. -/
theorem not_isQuote_of_isSpace {char : Char} (space : Number.isSpace char)
    : isQuote char = false := by
  rw [isQuote, Bool.or_eq_false_iff]
  constructor <;>
  · rw [decide_eq_false_iff_not]
    rintro rfl
    exact absurd space (by decide)

/-- No specifier in quotes begins with white space. -/
theorem readQuoted_of_isSpace {char : Char} (text : List Char) (space : Number.isSpace char)
    : readQuoted (char :: text) = none := by
  cases text <;> simp [readQuoted, not_isQuote_of_isSpace space]

/-- The pattern of a specifier behind `from` reads one. -/
theorem run_fromPattern (before : Option Char) (text clause : List Char)
    : fromPattern.run some ⟨before, text, [clause]⟩
      = (readFrom text).map (·.state clause) := by
  rw [fromPattern, RegExp.run_word, readFrom, Option.map_bind]
  congr 1
  funext rest
  cases rest with
  | nil => rfl
  | cons char rest =>
      by_cases space : Number.isSpace char
      · simp only [RegExp.plus, RegExp.run_seq, RegExp.run_one_cons, space, if_true,
          RegExp.run_many, run_quotedPattern]
        rw [RegExp.longest_of_fails]
        · simp [space]
        · intro before char rest space
          rw [readQuoted_of_isSpace rest space, Option.map_none]
      · simp [RegExp.plus, space]

/-- A word does not stand before another character than its first. -/
theorem isPrefixOf?_cons_of_ne {first char : Char} (word text : List Char)
    (other : char ≠ first) : (first :: word).isPrefixOf? (char :: text) = none := by
  simp [List.isPrefixOf?, Ne.symm other]

/-- No place before a character other than `f` is read from. -/
theorem readFrom_cons_of_ne {char : Char} (text : List Char) (other : char ≠ 'f')
    : readFrom (char :: text) = none := by
  have unread : "from".toList.isPrefixOf? (char :: text) = none :=
    isPrefixOf?_cons_of_ne "rom".toList text other
  rw [readFrom, unread]
  rfl

/-- The pattern of a clause and its specifier reads up to the first specifier, by induction on
the text.
-/
theorem shortest_readClause (before : Option Char) (passed text : List Char)
    : RegExp.shortest (fun _ => true)
        (fun before rest =>
          fromPattern.run some ⟨before, rest, [RegExp.readUpTo (passed ++ text) rest]⟩)
        before text
      = (readClause text).map fun (clause, read) => read.state (passed ++ clause) := by
  induction text generalizing before passed with
  | nil => simp [RegExp.shortest, run_fromPattern, readFrom, List.isPrefixOf?, readClause]
  | cons char text ih =>
      have later := ih (some char) (passed ++ [char])
      simp only [List.append_assoc, List.singleton_append] at later
      rw [RegExp.shortest, if_pos rfl, later, run_fromPattern, readClause,
        RegExp.readUpTo_append]
      cases readFrom (char :: text) with
      | some read => simp
      | none => simp [Function.comp_def]

/-- What the gate's pattern makes of a text that it has entered. -/
def readState (text : List Char) : Option MatchState :=
  (readClause text).map fun (clause, read) => read.state clause

/-- The pattern of a clause reads up to the first specifier, except from the word `type`. -/
theorem run_clausePattern (before : Option Char) (text : List Char)
    : clausePattern.run some ⟨before, text, []⟩
      = if startsWithType text then none else readState text := by
  have word (rest : List Char)
      : RegExp.atBoundary ⟨RegExp.lastOf before "type".toList, rest, []⟩
        = !rest.head?.any isWordChar := by
    simp [RegExp.atBoundary, RegExp.lastOf, isWordChar]
  have types
      : ((RegExp.word "type".toList .boundary).run some ⟨before, text, []⟩).isSome
        = startsWithType text := by
    rw [RegExp.run_word, startsWithType]
    cases "type".toList.isPrefixOf? text with
    | none => rfl
    | some rest =>
        simp only [Option.bind_some, RegExp.run, word, Option.any_some]
        cases rest.head?.any isWordChar <;> rfl
  rw [clausePattern, RegExp.run_seq, notTypePattern, RegExp.run, types]
  congr 1
  simpa [readState] using shortest_readClause before [] text

-----------------------------------------------------------------------------------------
-- The text behind an import
-----------------------------------------------------------------------------------------

/-- No specifier in a text, none in what remains of it, by induction on what is left out. -/
theorem readClause_append_none {first second : List Char}
    (unread : readClause (first ++ second) = none) : readClause second = none := by
  induction first with
  | nil => exact unread
  | cons char first ih =>
      apply ih
      rw [List.cons_append, readClause] at unread
      split at unread
      · cases unread
      · simpa using unread

/-- Text without an `f` in front of a text adds no specifier, by induction on it. -/
theorem readClause_none_append {first second : List Char}
    (others : ∀ char ∈ first, char ≠ 'f') (unread : readClause second = none)
    : readClause (first ++ second) = none := by
  induction first with
  | nil => exact unread
  | cons char first ih =>
      rw [List.forall_mem_cons] at others
      rw [List.cons_append, readClause, readFrom_cons_of_ne _ others.1, ih others.2]
      rfl

/-- White space has no `f`. -/
theorem ne_of_isSpace {char : Char} (space : Number.isSpace char) : char ≠ 'f' := by
  rintro rfl
  exact absurd space (by decide)

/-- Behind white space stands the rest of the text, by induction on it. -/
theorem afterGap_split {text rest : List Char} (behind : afterGap text = some rest)
    : ∃ gap : List Char, (∀ char ∈ gap, Number.isSpace char) ∧ text = gap ++ rest := by
  induction text with
  | nil =>
      cases behind
      exact ⟨[], by simp, rfl⟩
  | cons char text ih =>
      rw [afterGap] at behind
      split at behind
      next space =>
        rcases Option.or_eq_some_iff.mp behind with deeper | ⟨_, here⟩
        · obtain ⟨gap, blank, rfl⟩ := ih deeper
          exact ⟨char :: gap, by simpa [space] using blank, rfl⟩
        · cases here
          exact ⟨[], by simp, rfl⟩
      next =>
        split at behind
        · cases behind
        · cases behind
          exact ⟨[], by simp, rfl⟩

/-- Nothing is read of a text if nothing is read behind the text without an `f` before it. -/
theorem readState_none_append {first second : List Char} (others : ∀ char ∈ first, char ≠ 'f')
    (unread : readState second = none) : readState (first ++ second) = none := by
  rw [readState, Option.map_eq_none_iff] at unread ⊢
  exact readClause_none_append others unread

/-- White space is passed by as much as can be, by induction on the text. -/
theorem longest_afterGap (before : Option Char) (text : List Char)
    : RegExp.longest Number.isSpace
        (fun _ rest => if startsWithType rest then none else readState rest) before text
      = (afterGap text).bind readState := by
  induction text generalizing before with
  | nil => rfl
  | cons char text ih =>
      rw [RegExp.longest, afterGap]
      by_cases space : Number.isSpace char
      · have other : startsWithType (char :: text) = false := by
          have head : char ≠ 't' := by
            rintro rfl
            exact absurd space (by decide)
          have unread : "type".toList.isPrefixOf? (char :: text) = none :=
            isPrefixOf?_cons_of_ne "ype".toList text head
          rw [startsWithType, unread]
          rfl
        rw [if_pos space, if_pos space, ih, other, if_neg Bool.false_ne_true]
        cases behind : afterGap text with
        | none => rfl
        | some rest =>
            obtain ⟨gap, blank, rfl⟩ := afterGap_split behind
            cases unread : readState rest with
            | some read => simp [unread]
            | none =>
                have others : ∀ letter ∈ char :: gap, letter ≠ 'f' := by
                  rw [List.forall_mem_cons]
                  exact ⟨ne_of_isSpace space, fun letter member => ne_of_isSpace (blank _ member)⟩
                have none_here := readState_none_append others unread
                simpa [unread] using none_here
      · rw [if_neg space, if_neg space]
        split <;> rfl

/-- Behind an import stands the rest of the text. -/
theorem afterImport_split {text rest : List Char} (behind : afterImport text = some rest)
    : ∃ front gap : List Char,
        (∀ char ∈ front, char ≠ 'f') ∧ (∀ char ∈ gap, Number.isSpace char)
        ∧ text = front ++ 't' :: (gap ++ rest) := by
  obtain ⟨found, word, behind⟩ := Option.bind_eq_some_iff.mp behind
  rw [List.isPrefixOf?_eq_some_iff_append_eq] at word
  match found with
  | [] => cases behind
  | char :: text' =>
      by_cases space : Number.isSpace char
      · simp only [space, if_true] at behind
        obtain ⟨gap, blank, rfl⟩ := afterGap_split behind
        refine ⟨text.takeWhile Number.isSpace ++ "impor".toList, char :: gap, ?_, ?_, ?_⟩
        · intro letter member
          rcases List.mem_append.mp member with gap | word
          · exact ne_of_isSpace (List.mem_takeWhile_imp gap)
          · rintro rfl
            exact absurd word (by decide)
        · simpa [space] using blank
        · calc text
              = text.takeWhile Number.isSpace ++ text.dropWhile Number.isSpace :=
                List.takeWhile_append_dropWhile.symm
            _ = _ := by
                rw [← word]
                simp
      · simp [space] at behind

/-- The gate's pattern matches at the start of a line, behind an import. -/
theorem run_importPattern (before : Option Char) (text : List Char)
    : importPattern.run some ⟨before, text, []⟩
      = if before.all isLineTerminator then (afterImport text).bind readState else none := by
  have fails (before : Option Char) (char : Char) (rest : List Char)
      (space : Number.isSpace char)
      : (RegExp.word "import".toList (.plus Number.isSpace clausePattern)).run some
          ⟨before, char :: rest, []⟩
        = none := by
    have head : char ≠ 'i' := by
      rintro rfl
      exact absurd space (by decide)
    have unread : "import".toList.isPrefixOf? (char :: rest) = none :=
      isPrefixOf?_cons_of_ne "mport".toList rest head
    rw [RegExp.run_word, unread]
    rfl
  rw [importPattern, RegExp.run_seq, RegExp.run_start, RegExp.run_seq, RegExp.run_many,
    RegExp.longest_of_fails fails, RegExp.run_word, afterImport, Option.bind_assoc]
  simp only [Bool.true_and]
  congr 2
  funext rest
  cases rest with
  | nil => rfl
  | cons char rest =>
      by_cases space : Number.isSpace char
      · simp [RegExp.plus, space, run_clausePattern, longest_afterGap]
      · simp [RegExp.plus, space]

/-- Where a text is entered, an `import` ends, by induction on the text. -/
theorem entered_split {lineStart : Bool} {text rest : List Char}
    (behind : entered lineStart text = some rest)
    : ∃ front gap : List Char,
        (∀ char ∈ gap, Number.isSpace char) ∧ text = front ++ 't' :: (gap ++ rest) := by
  induction text generalizing lineStart with
  | nil => cases behind
  | cons char text ih =>
      rcases Option.or_eq_some_iff.mp behind with here | ⟨_, later⟩
      · split at here
        · obtain ⟨front, gap, _, blank, split⟩ := afterImport_split here
          exact ⟨front, gap, blank, split⟩
        · cases here
      · obtain ⟨front, gap, blank, rfl⟩ := ih later
        exact ⟨char :: front, gap, blank, rfl⟩

/-- Behind an import where nothing is read, nothing is read in the rest of the text. -/
theorem readState_entered_none {text rest later : List Char} {lineStart : Bool}
    (behind : afterImport text = some rest) (unread : readState rest = none)
    (enters : entered lineStart (text.drop 1) = some later) : readState later = none := by
  obtain ⟨front, gap, others, blank, split⟩ := afterImport_split behind
  obtain ⟨passed, between, _, same⟩ := entered_split enters
  have whole : readClause text = none := by
    rw [readState, Option.map_eq_none_iff] at unread
    have letters : ∀ char ∈ front ++ 't' :: gap, char ≠ 'f' := by
      intro char member
      rcases List.mem_append.mp member with member | member
      · exact others char member
      · rcases List.mem_cons.mp member with rfl | member
        · decide
        · exact ne_of_isSpace (blank char member)
    have none_here := readClause_none_append letters unread
    rwa [List.append_assoc, List.cons_append, ← split] at none_here
  rw [readState, Option.map_eq_none_iff]
  have through : text = (text.take 1 ++ (passed ++ 't' :: between)) ++ later := by
    rw [List.append_assoc, List.append_assoc, List.cons_append, ← same, List.take_append_drop]
  rw [through] at whole
  exact readClause_append_none whole

/-- The gate's pattern finds what it reads behind the first import at the start of a line, by
induction on the text.
-/
theorem exec_importPattern (before : Option Char) (text : List Char)
    : importPattern.exec before text
      = (entered (before.all isLineTerminator) text).bind readState := by
  induction text generalizing before with
  | nil =>
      rw [RegExp.exec, run_importPattern]
      split <;> rfl
  | cons char text ih =>
      rw [RegExp.exec, run_importPattern, ih, entered, Option.all_some]
      split
      next =>
        cases behind : afterImport (char :: text) with
        | none => rfl
        | some rest =>
            cases unread : readState rest with
            | some found => simp [unread]
            | none =>
                cases enters : entered (isLineTerminator char) text with
                | none => simp [unread]
                | some later => simp [unread, readState_entered_none behind unread enters]
      next => rfl

-----------------------------------------------------------------------------------------
-- The end of the loop
-----------------------------------------------------------------------------------------

/-- A specifier in quotes takes characters. -/
theorem readQuoted_shorter {text : List Char} {read : ReadSpecifier}
    (found : readQuoted text = some read) : read.rest.length < text.length := by
  match text with
  | [] | [_] => cases found
  | quote :: char :: text =>
      rw [readQuoted] at found
      split at found
      · split at found
        · cases found
        · rename_i closing rest left
          cases found
          have drops := (List.dropWhile_sublist (!isQuote ·) (l := text)).length_le
          rw [left] at drops
          simp only [List.length_cons] at drops ⊢
          omega
      · cases found

/-- A `from` and its specifier take characters. -/
theorem readFrom_shorter {text : List Char} {read : ReadSpecifier}
    (found : readFrom text = some read) : read.rest.length < text.length := by
  obtain ⟨behind, split, reading⟩ := Option.bind_eq_some_iff.mp found
  rw [List.isPrefixOf?_eq_some_iff_append_eq] at split
  subst split
  match behind with
  | [] => cases reading
  | char :: rest =>
      dsimp only at reading
      split at reading
      · have less := readQuoted_shorter reading
        have drops := (List.dropWhile_sublist Number.isSpace (l := rest)).length_le
        simp only [List.length_append, List.length_cons]
        omega
      · cases reading

/-- A clause and its specifier take characters, by induction on the text. -/
theorem readClause_shorter {text clause : List Char} {read : ReadSpecifier}
    (found : readClause text = some (clause, read)) : read.rest.length < text.length := by
  induction text generalizing clause with
  | nil => cases found
  | cons char text ih =>
      rw [readClause] at found
      split at found
      next here =>
        cases found
        exact readFrom_shorter here
      next =>
        obtain ⟨⟨later, _⟩, deeper, same⟩ := Option.map_eq_some_iff.mp found
        cases same
        exact Nat.lt_succ_of_lt (ih deeper)

/-- No match of the gate's pattern is empty. -/
theorem exec_importPattern_shorter (before : Option Char) (text : List Char)
    (found : MatchState) (search : importPattern.exec before text = some found)
    : found.rest.length < text.length := by
  rw [exec_importPattern] at search
  obtain ⟨behind, enters, search⟩ := Option.bind_eq_some_iff.mp search
  obtain ⟨⟨clause, read⟩, reading, rfl⟩ := Option.map_eq_some_iff.mp search
  obtain ⟨front, gap, _, rfl⟩ := entered_split enters
  have less := readClause_shorter reading
  simp only [ReadSpecifier.state, List.length_append, List.length_cons]
  omega

end SharedKernel.Placement
