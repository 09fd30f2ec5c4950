import SharedKernel.Placement.ImportReading

/-! The text of import declarations, as the pattern of the purity gate reads it: quote by
quote, since no token that it looks for holds one.
-/

namespace SharedKernel.Placement

open Js

-----------------------------------------------------------------------------------------
-- Entering across a quote
-----------------------------------------------------------------------------------------

/-- No character of a text is a quote. -/
def Unquoted (text : List Char) : Prop :=
  ∀ char ∈ text, isQuote char = false

@[simp] theorem unquoted_nil : Unquoted [] := by
  simp [Unquoted]

@[simp] theorem unquoted_cons {char : Char} {text : List Char}
    : Unquoted (char :: text) ↔ isQuote char = false ∧ Unquoted text :=
  List.forall_mem_cons

@[simp] theorem unquoted_append {first second : List Char}
    : Unquoted (first ++ second) ↔ Unquoted first ∧ Unquoted second :=
  List.forall_mem_append

section Quotes

variable {quote : Char} {text rest : List Char}

/-- A quote is one of two characters. -/
theorem isQuote_iff {char : Char} : isQuote char ↔ char = '\'' ∨ char = '"' := by
  simp [isQuote]

/-- A quote is no white space. -/
theorem not_isSpace_of_isQuote (quoted : isQuote quote) : Number.isSpace quote = false := by
  by_contra space
  rw [Bool.not_eq_false] at space
  exact absurd quoted (by simp [not_isQuote_of_isSpace space])

/-- A quote is no other character. -/
theorem ne_of_isQuote {char : Char} (quoted : isQuote quote) (other : isQuote char = false)
    : char ≠ quote := by
  rintro rfl
  exact absurd quoted (by simp [other])

/-- A word without quotes ends before a quote, by induction on it. -/
theorem isPrefixOf?_quote {word : List Char} (quoted : isQuote quote) (plain : Unquoted word)
    : word.isPrefixOf? (text ++ quote :: rest)
      = (word.isPrefixOf? text).map (· ++ quote :: rest) := by
  induction word generalizing text with
  | nil => simp [List.isPrefixOf?]
  | cons char word ih =>
      rw [Unquoted, List.forall_mem_cons] at plain
      cases text with
      | nil => simp [List.isPrefixOf?, ne_of_isQuote quoted plain.1]
      | cons head text =>
          simp only [List.cons_append, List.isPrefixOf?]
          split
          · exact ih plain.2
          · rfl

/-- White space ends before a quote. -/
theorem dropWhile_quote (quoted : isQuote quote)
    : (text ++ quote :: rest).dropWhile Number.isSpace
      = text.dropWhile Number.isSpace ++ quote :: rest := by
  rw [List.dropWhile_append]
  split
  next none_left =>
    rw [List.isEmpty_iff.mp none_left, List.nil_append, List.dropWhile_cons_of_neg]
    simp [not_isSpace_of_isQuote quoted]
  next => rfl

/-- A quote ends a word. -/
theorem startsWithType_quote (quoted : isQuote quote)
    : startsWithType (text ++ quote :: rest) = startsWithType text := by
  have ends : isWordChar quote = false := by
    rcases isQuote_iff.mp quoted with rfl | rfl <;> decide
  have plain : Unquoted "type".toList := by simp [isQuote]
  rw [startsWithType, startsWithType, isPrefixOf?_quote quoted plain, Option.any_map]
  congr 1
  funext behind
  cases behind with
  | nil => simp [ends]
  | cons char behind => rfl

/-- A gap is passed as far as a quote, by induction on the text. -/
theorem afterGap_quote (quoted : isQuote quote)
    : afterGap (text ++ quote :: rest) = (afterGap text).map (· ++ quote :: rest) := by
  induction text with
  | nil =>
      have types := @startsWithType_quote quote [] rest quoted
      rw [List.nil_append] at types
      simp only [List.nil_append, afterGap, not_isSpace_of_isQuote quoted, types]
      rfl
  | cons char text ih =>
      rw [List.cons_append, afterGap, afterGap, ih, ← List.cons_append,
        startsWithType_quote quoted]
      split
      · cases afterGap text <;> rfl
      · split <;> rfl

/-- An import is passed as far as a quote. -/
theorem afterImport_quote (quoted : isQuote quote)
    : afterImport (text ++ quote :: rest) = (afterImport text).map (· ++ quote :: rest) := by
  have plain : Unquoted "import".toList := by simp [isQuote]
  rw [afterImport, afterImport, dropWhile_quote quoted, isPrefixOf?_quote quoted plain]
  cases "import".toList.isPrefixOf? (text.dropWhile Number.isSpace) with
  | none => rfl
  | some behind =>
      cases behind with
      | nil => simp [not_isSpace_of_isQuote quoted]
      | cons char behind =>
          by_cases space : Number.isSpace char
          · simp [space, afterGap_quote quoted]
          · simp [space]

/-- The text is entered before a quote or behind it, by induction on what stands before. -/
theorem entered_quote (quoted : isQuote quote) (lineStart : Bool)
    : entered lineStart (text ++ quote :: rest)
      = ((entered lineStart text).map (· ++ quote :: rest)).or (entered false rest) := by
  induction text generalizing lineStart with
  | nil =>
      have ends : isLineTerminator quote = false := by
        rcases isQuote_iff.mp quoted with rfl | rfl <;> decide
      have here := @afterImport_quote quote [] rest quoted
      rw [List.nil_append] at here
      simp only [List.nil_append, entered, here, ends]
      cases lineStart <;> rfl
  | cons char text ih =>
      rw [List.cons_append, entered, entered, ih, ← List.cons_append, afterImport_quote quoted]
      cases lineStart with
      | true => cases afterImport (char :: text) <;> simp
      | false => simp

end Quotes

/-- A text on one line is not entered behind its start, by induction on it. -/
theorem entered_oneLine {text : List Char}
    (oneLine : ∀ char ∈ text, isLineTerminator char = false) : entered false text = none := by
  induction text with
  | nil => rfl
  | cons char text ih =>
      rw [List.forall_mem_cons] at oneLine
      rw [entered, oneLine.1, ih oneLine.2]
      rfl

-----------------------------------------------------------------------------------------
-- Reading across a quote
-----------------------------------------------------------------------------------------

/-- The text is `from` and white space. -/
def isFrom (text : List Char) : Bool :=
  match "from".toList.isPrefixOf? text with
  | some (char :: gap) => (char :: gap).all Number.isSpace
  | _ => false

/-- The clause of a text that ends in `from` and white space. -/
def endedClause : List Char → Option (List Char)
  | [] => none
  | char :: text =>
      if isFrom (char :: text) then some [] else (endedClause text).map (char :: ·)

/-- What is read behind a text. -/
def behind (passed : List Char) (found : List Char × ReadSpecifier)
    : List Char × ReadSpecifier :=
  (passed ++ found.1, found.2)

/-- The text is `from` and white space. -/
theorem isFrom_iff {text : List Char}
    : isFrom text ↔ ∃ gap : Break, text = "from".toList ++ gap.text := by
  constructor
  · intro from_here
    rw [isFrom] at from_here
    split at from_here
    next char gap split =>
      rw [List.isPrefixOf?_eq_some_iff_append_eq] at split
      exact ⟨⟨⟨char :: gap, List.all_eq_true.mp from_here⟩, by simp⟩, split.symm⟩
    next => cases from_here
  · rintro ⟨⟨⟨gap, blank⟩, nonempty⟩, rfl⟩
    obtain ⟨char, gap, rfl⟩ := List.exists_cons_of_ne_nil nonempty
    have split : "from".toList.isPrefixOf? ("from".toList ++ char :: gap) = some (char :: gap) :=
      List.isPrefixOf?_eq_some_iff_append_eq.mpr rfl
    simp only [isFrom, split]
    exact List.all_eq_true.mpr blank

/-- A text that does not itself end a clause ends one if its tail does. -/
theorem endedClause_cons {char : Char} {text : List Char} (other : isFrom (char :: text) = false)
    : endedClause (char :: text) = (endedClause text).map (char :: ·) := by
  rw [endedClause, other, if_neg Bool.false_ne_true]

/-- No clause ends in a text if it ends neither here nor in the tail. -/
theorem endedClause_cons_eq_none {char : Char} {text : List Char}
    : endedClause (char :: text) = none
      ↔ isFrom (char :: text) = false ∧ endedClause text = none := by
  rw [endedClause]
  split
  next here => simp [here]
  next other => simp [other]

/-- A text that ends in `from` and white space, by induction on it. -/
theorem endedClause_split {text clause : List Char} (ended : endedClause text = some clause)
    : ∃ gap : Break, text = clause ++ "from".toList ++ gap.text := by
  induction text generalizing clause with
  | nil => cases ended
  | cons char text ih =>
      rw [endedClause] at ended
      split at ended
      next here =>
        cases ended
        exact isFrom_iff.mp here
      next =>
        obtain ⟨rest, later, rfl⟩ := Option.map_eq_some_iff.mp ended
        obtain ⟨gap, rfl⟩ := ih later
        exact ⟨gap, by simp⟩

section Reading

variable {quote : Char} {text rest : List Char}

/-- Before a quote, only `from` and white space is read from. -/
theorem readFrom_quote (quoted : isQuote quote) (plain : Unquoted text)
    : readFrom (text ++ quote :: rest)
      = if isFrom text then readQuoted (quote :: rest) else none := by
  have word : Unquoted "from".toList := by simp [isQuote]
  rw [readFrom, isFrom, isPrefixOf?_quote quoted word]
  cases split : "from".toList.isPrefixOf? text with
  | none => rfl
  | some found =>
      rw [List.isPrefixOf?_eq_some_iff_append_eq] at split
      subst split
      cases found with
      | nil => simp [not_isSpace_of_isQuote quoted]
      | cons char gap =>
          by_cases space : Number.isSpace char
          · simp only [Option.map_some, Option.bind_some, List.cons_append, space, if_true,
              dropWhile_quote quoted, List.all_cons, Bool.true_and]
            cases left : gap.dropWhile Number.isSpace with
            | nil =>
                have blank : gap.all Number.isSpace :=
                  List.all_eq_true.mpr (List.dropWhile_eq_nil_iff.mp left)
                rw [blank, if_pos rfl, List.nil_append]
            | cons head left' =>
                have member : head ∈ gap := by
                  apply (List.dropWhile_sublist Number.isSpace).subset
                  rw [left]
                  exact List.mem_cons_self
                have letter : Number.isSpace head = false := by
                  simpa [left] using List.head?_dropWhile_not Number.isSpace gap
                have unread : readQuoted (head :: (left' ++ quote :: rest)) = none := by
                  cases left' <;> simp [readQuoted, plain head (by simp [member])]
                have mixed : gap.all Number.isSpace = false := by
                  rw [List.all_eq_false]
                  exact ⟨head, member, by simp [letter]⟩
                simp [unread, mixed]
          · simp [space]

/-- A text that ends in `from` and white space is read up to there, by induction on it. -/
theorem readClause_ended {clause : List Char} {read : ReadSpecifier} (quoted : isQuote quote)
    (plain : Unquoted text) (ended : endedClause text = some clause)
    (specifier : readQuoted (quote :: rest) = some read)
    : readClause (text ++ quote :: rest) = some (clause, read) := by
  induction text generalizing clause with
  | nil => cases ended
  | cons char text ih =>
      have here := @readFrom_quote quote (char :: text) rest quoted plain
      rw [List.cons_append] at here ⊢
      rw [readClause, here, specifier]
      rw [endedClause] at ended
      split at ended
      next from_here =>
        cases ended
        rw [if_pos from_here]
      next other =>
        obtain ⟨later, found, rfl⟩ := Option.map_eq_some_iff.mp ended
        rw [if_neg other, ih (List.forall_mem_cons.mp plain).2 found]
        rfl

/-- Any other text is read past, by induction on it. -/
theorem readClause_past (quoted : isQuote quote) (plain : Unquoted text)
    (unread : endedClause text = none ∨ readQuoted (quote :: rest) = none)
    : readClause (text ++ quote :: rest)
      = (readClause (quote :: rest)).map (behind text) := by
  induction text with
  | nil =>
      rw [List.nil_append]
      cases readClause (quote :: rest) <;> rfl
  | cons char text ih =>
      have here := @readFrom_quote quote (char :: text) rest quoted plain
      rw [List.cons_append] at here ⊢
      have later : endedClause text = none ∨ readQuoted (quote :: rest) = none :=
        unread.imp_left fun none_ended => (endedClause_cons_eq_none.mp none_ended).2
      have unread_here : readFrom (char :: (text ++ quote :: rest)) = none := by
        rw [here]
        rcases unread with none_ended | none_read
        · rw [(endedClause_cons_eq_none.mp none_ended).1, if_neg Bool.false_ne_true]
        · rw [none_read, ite_self]
      rw [readClause, unread_here, ih (List.forall_mem_cons.mp plain).2 later, Option.map_map]
      rfl

end Reading

-----------------------------------------------------------------------------------------
-- The text of declarations
-----------------------------------------------------------------------------------------

@[simp] theorem Gap.unquoted (gap : Gap) : Unquoted gap.text :=
  fun char member => not_isQuote_of_isSpace (gap.blank char member)

@[simp] theorem Name.unquoted (name : Name) : Unquoted name.text := by
  intro char member
  have ends := name.whole char member
  simp only [endsName, Bool.or_eq_false_iff] at ends
  exact ends.1.2

@[simp] theorem Renaming.unquoted (renamed : Renaming) : Unquoted renamed.toText := by
  simp [Renaming.toText, isQuote]

@[simp] theorem ImportSpecifier.unquoted (specifier : ImportSpecifier)
    : Unquoted specifier.toText := by
  cases types : specifier.typeOnly <;> cases renamed : specifier.renamed
    <;> simp [ImportSpecifier.toText, types, renamed, isQuote]

@[simp] theorem NamedImports.unquoted (imports : NamedImports) : Unquoted imports.toText := by
  cases imports with
  | empty gap => simp [NamedImports.toText]
  | listed first rest comma =>
      have later : Unquoted (rest.flatMap fun specifier => ',' :: specifier.toText) := by
        induction rest with
        | nil => simp
        | cons specifier rest ih => simpa [isQuote] using ih
      cases comma <;> simp [NamedImports.toText, later, isQuote]

@[simp] theorem Bindings.unquoted (bindings : Bindings) : Unquoted bindings.toText := by
  cases bindings <;> simp [Bindings.toText, isQuote]

@[simp] theorem ImportClause.unquoted (clause : ImportClause) : Unquoted clause.toText := by
  cases clause <;> simp [ImportClause.toText, isQuote]

@[simp] theorem ImportForm.unquoted (form : ImportForm) : Unquoted form.toText := by
  cases form <;> simp [ImportForm.toText, isQuote]

@[simp] theorem Separator.unquoted (separator : Separator) : Unquoted separator.toText := by
  cases semicolon : separator.semicolon <;> simp [Separator.toText, semicolon, isQuote]

@[simp] theorem ImportDeclaration.head_unquoted (declaration : ImportDeclaration)
    : Unquoted declaration.head := by
  simp [ImportDeclaration.head, isQuote]

end SharedKernel.Placement
