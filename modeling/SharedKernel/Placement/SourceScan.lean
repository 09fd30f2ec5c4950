import SharedKernel.Placement.ImportScan

/-! A source made of import declarations, as the pattern of the purity gate reads it: a match
reaches from a declaration that it enters to the next one whose specifier it reads.
-/

namespace SharedKernel.Placement

open Js

-----------------------------------------------------------------------------------------
-- Declarations that are entered and read
-----------------------------------------------------------------------------------------

/-- The form has a `from`. -/
def ImportForm.hasFrom : ImportForm → Bool
  | sideEffect => false
  | _ => true

namespace ImportDeclaration

/-- The gate's pattern enters a declaration, for a declaration at the start of a line or not. -/
def opens (lineStart : Bool) (declaration : ImportDeclaration) : Bool :=
  (entered lineStart declaration.head).isSome

/-- The gate's pattern reads the specifier of a declaration, which takes a `from`, white space
behind it and a specifier that is not empty.
-/
def read (declaration : ImportDeclaration) : Bool :=
  declaration.form.hasFrom && !declaration.gap.text.isEmpty
    && !declaration.specifier.text.isEmpty

end ImportDeclaration

/-- No declaration is left open: one that is entered is followed by one that is read, if it is
not itself read.
-/
def Settled : Bool → List ImportDeclaration → Prop
  | _, [] => True
  | lineStart, declaration :: later =>
      (declaration.opens lineStart → ∃ next ∈ declaration :: later, next.read)
      ∧ Settled false later

/-- A match of the gate's pattern: it enters the first declaration of a span and reads the
specifier of the next one that can be read, the last of the span.
-/
structure Matched (lineStart : Bool) (span : List ImportDeclaration) (last : ImportDeclaration)
    (clause : List Char) : Prop where
  enters : ∀ first ∈ (span ++ [last]).head?, first.opens lineStart
  unread : ∀ declaration ∈ span, ¬ declaration.read
  read : last.read
  /-- The clause is the text behind the first `import`, up to the last `from`. -/
  clause
    : ∃ gap : Break,
        entered lineStart (span.flatMap ImportDeclaration.toText ++ last.head)
        = some (clause ++ "from".toList ++ gap.text)

-----------------------------------------------------------------------------------------
-- Where a clause ends
-----------------------------------------------------------------------------------------

section Clauses

variable {front gap text : List Char}

/-- What ends a text ends it behind another one, by induction on that one. -/
theorem endedClause_append (ended : (endedClause text).isSome)
    : (endedClause (front ++ text)).isSome := by
  induction front with
  | nil => exact ended
  | cons char front ih =>
      rw [List.cons_append, endedClause]
      split
      · rfl
      · simpa using ih

/-- A clause does not end in white space before its end, by induction on that. -/
theorem endedClause_behind_gap (blank : ∀ char ∈ gap, Number.isSpace char)
    (ended : (endedClause (gap ++ text)).isSome) : (endedClause text).isSome := by
  induction gap with
  | nil => exact ended
  | cons char gap ih =>
      rw [List.forall_mem_cons] at blank
      have other : isFrom (char :: (gap ++ text)) = false := by
        rw [← Bool.not_eq_true, isFrom_iff]
        rintro ⟨_, same⟩
        have head : char = 'f' := (List.cons.inj same).1
        exact ne_of_isSpace blank.1 head
      rw [List.cons_append, endedClause_cons other, Option.isSome_map] at ended
      exact ih blank.2 ended

/-- A clause does not end where a `t` follows, by induction on what stands before it. -/
theorem endedClause_behind_letter (ended : (endedClause (front ++ 't' :: text)).isSome)
    : (endedClause text).isSome := by
  have other (front : List Char) : isFrom (front ++ 't' :: text) = false := by
    rw [← Bool.not_eq_true, isFrom_iff]
    rintro ⟨gap, same⟩
    have member : 't' ∈ "from".toList ++ gap.text := by
      rw [← same]
      simp
    rcases List.mem_append.mp member with word | blank
    · exact absurd word (by decide)
    · exact absurd (gap.blank _ blank) (by decide)
  induction front with
  | nil =>
      have here := other []
      rw [List.nil_append] at here ended
      rwa [endedClause_cons here, Option.isSome_map] at ended
  | cons char front ih =>
      have here := other (char :: front)
      rw [List.cons_append] at here ended
      rw [endedClause_cons here, Option.isSome_map] at ended
      exact ih ended

/-- Behind an import, the same clause ends as in the whole text. -/
theorem endedClause_entered {lineStart : Bool} {rest : List Char}
    (enters : entered lineStart text = some rest)
    : (endedClause rest).isSome ↔ (endedClause text).isSome := by
  obtain ⟨front, gap, blank, rfl⟩ := entered_split enters
  constructor
  · intro ended
    have whole := @endedClause_append (front ++ 't' :: gap) rest ended
    rwa [List.append_assoc] at whole
  · intro ended
    exact endedClause_behind_gap blank (endedClause_behind_letter ended)

/-- A clause that ends is told by where it ends. -/
theorem clause_unique {clause other : List Char} {gap gap' : Break}
    (same
      : clause ++ "from".toList ++ gap.text = other ++ "from".toList ++ gap'.text)
    : clause = other := by
  have trimmed (clause : List Char) (gap : Break)
      : (clause ++ "from".toList ++ gap.text).reverse.dropWhile Number.isSpace
        = "morf".toList ++ clause.reverse := by
    rw [List.reverse_append, List.dropWhile_append_of_pos]
    · rw [List.reverse_append]
      rfl
    · intro char member
      exact gap.blank char (List.mem_reverse.mp member)
  have reversed := trimmed clause gap
  rw [same, trimmed other gap'] at reversed
  exact (List.reverse_injective (List.append_cancel_left reversed)).symm

end Clauses

/-- A text does not end in `from` and white space if its last character is something else. -/
theorem endedClause_of_last {text : List Char}
    (last : ∀ char, text.getLast? = some char → Number.isSpace char = false)
    : endedClause text = none := by
  cases ended : endedClause text with
  | none => rfl
  | some clause =>
      obtain ⟨gap, rfl⟩ := endedClause_split ended
      obtain ⟨char, found⟩ :=
        Option.isSome_iff_exists.mp (List.getLast?_isSome.mpr gap.nonempty)
      have space := gap.blank char (List.mem_of_getLast? found)
      rw [last char (by rw [List.getLast?_append, found]; rfl)] at space
      cases space

/-- A form with a `from` ends in it. -/
theorem ImportForm.toText_hasFrom {form : ImportForm} (from_here : form.hasFrom)
    : ∃ front : List Char, form.toText = front ++ "from".toList := by
  cases form with
  | sideEffect => cases from_here
  | value clause => exact ⟨_, rfl⟩
  | type gap clause => exact ⟨_, rfl⟩

/-- The head of a declaration ends in `from` and white space if it has both. -/
theorem endedClause_head (declaration : ImportDeclaration)
    : (endedClause declaration.head).isSome
      ↔ declaration.form.hasFrom ∧ declaration.gap.text ≠ [] := by
  obtain ⟨before, form, gap, quote, specifier⟩ := declaration
  by_cases from_here : form.hasFrom
  · obtain ⟨front, text⟩ := ImportForm.toText_hasFrom from_here
    have head
        : ImportDeclaration.head ⟨before, form, gap, quote, specifier⟩
          = (before.toText ++ "import".toList ++ front) ++ ("from".toList ++ gap.text) := by
      simp [ImportDeclaration.head, text]
    rw [head]
    by_cases empty : gap.text = []
    · rw [empty, endedClause_of_last]
      · simp
      · intro char found
        rw [List.append_nil, List.getLast?_append] at found
        cases found
        decide
    · have ended : endedClause ("from".toList ++ gap.text) = some [] := by
        have here : isFrom ("from".toList ++ gap.text) := isFrom_iff.mpr ⟨⟨gap, empty⟩, rfl⟩
        change endedClause ('f' :: ("rom".toList ++ gap.text)) = some []
        rw [endedClause]
        exact if_pos here
      apply iff_of_true
      · apply endedClause_append
        rw [ended]
        rfl
      · exact ⟨from_here, empty⟩
  · simp only [from_here, Bool.false_eq_true, false_and, iff_false]
    intro ended
    have head
        : ImportDeclaration.head ⟨before, form, gap, quote, specifier⟩
          = (before.toText ++ "impor".toList) ++ 't' :: (gap.text ++ []) := by
      cases form with
      | sideEffect => simp [ImportDeclaration.head, ImportForm.toText]
      | value | type => exact absurd rfl from_here
    rw [head] at ended
    have nothing := endedClause_behind_gap gap.blank (endedClause_behind_letter ended)
    cases nothing

-----------------------------------------------------------------------------------------
-- Passing a declaration
-----------------------------------------------------------------------------------------

namespace ImportDeclaration

variable (declaration : ImportDeclaration) (rest : List Char)

/-- The character of a quote is one. -/
theorem isQuote_quote : isQuote declaration.quote.char := by
  cases declaration.quote <;> rfl

/-- The text is entered in a declaration or behind it. -/
theorem entered_toText (lineStart : Bool)
    : entered lineStart (declaration.toText ++ rest)
      = ((entered lineStart declaration.head).map (· ++ (declaration.quoted ++ rest))).or
          (entered false rest) := by
  have text
      : declaration.toText ++ rest
        = declaration.head
          ++ declaration.quote.char
            :: (declaration.specifier.text ++ declaration.quote.char :: rest) := by
    simp [toText, quoted]
  rw [text, entered_quote declaration.isQuote_quote, entered_quote declaration.isQuote_quote,
    entered_oneLine declaration.specifier.oneLine]
  simp [quoted]

/-- A specifier that is not empty is read. -/
theorem readQuoted_quoted (nonempty : declaration.specifier.text ≠ [])
    : readQuoted (declaration.quoted ++ rest)
      = some ⟨declaration.specifier.text, declaration.quote.char, rest⟩ := by
  have quoted := declaration.isQuote_quote
  have plain := declaration.specifier.unquoted
  rw [ImportDeclaration.quoted]
  obtain ⟨char, spec, same⟩ := List.exists_cons_of_ne_nil nonempty
  rw [same, List.forall_mem_cons] at plain
  have unquoted : ∀ char ∈ spec, !isQuote char := by simpa using plain.2
  simp [same, readQuoted, quoted, plain.1, List.dropWhile_append_of_pos unquoted,
    List.takeWhile_append_of_pos unquoted]

/-- Nothing is read of an empty specifier. -/
theorem readQuoted_empty (empty : declaration.specifier.text = [])
    : readQuoted (declaration.quoted ++ rest) = none := by
  simp [quoted, empty, readQuoted, declaration.isQuote_quote]

/-- No specifier is read from within another. -/
theorem readClause_quoted
    : readClause (declaration.quoted ++ rest)
      = (readClause rest).map (behind declaration.quoted) := by
  have quoted := declaration.isQuote_quote
  have skip (rest : List Char)
      : readClause (declaration.quote.char :: rest)
        = (readClause rest).map (behind [declaration.quote.char]) := by
    have other : declaration.quote.char ≠ 'f' :=
      (ne_of_isQuote quoted (by decide)).symm
    rw [readClause, readFrom_cons_of_ne _ other]
    rfl
  have inside
      : readClause (declaration.specifier.text ++ declaration.quote.char :: rest)
        = (readClause (declaration.quote.char :: rest)).map
            (behind declaration.specifier.text) := by
    apply readClause_past quoted declaration.specifier.unquoted
    exact Or.inl (endedClause_of_last declaration.specifier.trimmed)
  rw [ImportDeclaration.quoted, List.cons_append, List.append_assoc, List.singleton_append, skip,
    inside, skip, Option.map_map, Option.map_map]
  congr 1
  funext found
  simp [behind]

/-- A specifier behind the end of a clause is read. -/
theorem readClause_read {text clause : List Char} (plain : Unquoted text)
    (ended : endedClause text = some clause) (nonempty : declaration.specifier.text ≠ [])
    : readClause (text ++ (declaration.quoted ++ rest))
      = some (clause, ⟨declaration.specifier.text, declaration.quote.char, rest⟩) :=
  readClause_ended declaration.isQuote_quote plain ended
    (declaration.readQuoted_quoted rest nonempty)

/-- Any other specifier is passed. -/
theorem readClause_unread {text : List Char} (plain : Unquoted text)
    (unread : endedClause text = none ∨ declaration.specifier.text = [])
    : readClause (text ++ (declaration.quoted ++ rest))
      = (readClause rest).map (behind (text ++ declaration.quoted)) := by
  have past
      : readClause (text ++ (declaration.quoted ++ rest))
        = (readClause (declaration.quoted ++ rest)).map (behind text) := by
    apply readClause_past declaration.isQuote_quote plain
    exact unread.imp_right (declaration.readQuoted_empty rest)
  rw [past, declaration.readClause_quoted rest, Option.map_map]
  congr 1
  funext found
  simp [behind]

end ImportDeclaration

end SharedKernel.Placement
