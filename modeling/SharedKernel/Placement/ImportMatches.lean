import SharedKernel.Placement.SourceScan

/-! The matches of the purity gate's pattern in a source made of import declarations: they are
the matched spans between which no declaration is left open.
-/

namespace SharedKernel.Placement

open Js

-----------------------------------------------------------------------------------------
-- Text without quotes
-----------------------------------------------------------------------------------------

/-- Nothing in quotes is read from a text without quotes. -/
theorem readQuoted_unquoted {text : List Char} (plain : Unquoted text)
    : readQuoted text = none := by
  match text with
  | [] | [_] => rfl
  | quote :: char :: text => simp [readQuoted, plain quote (by simp)]

/-- No specifier is read from a text without quotes, by induction on the text. -/
theorem readClause_unquoted {text : List Char} (plain : Unquoted text)
    : readClause text = none := by
  induction text with
  | nil => rfl
  | cons char text ih =>
      have here : readFrom (char :: text) = none := by
        rw [readFrom]
        cases split : "from".toList.isPrefixOf? (char :: text) with
        | none => rfl
        | some found =>
            rw [List.isPrefixOf?_eq_some_iff_append_eq] at split
            rw [← split, unquoted_append] at plain
            cases found with
            | nil => rfl
            | cons head rest =>
                have later : Unquoted (rest.dropWhile Number.isSpace) :=
                  fun letter member =>
                    plain.2 letter
                      (List.mem_cons_of_mem _
                        ((List.dropWhile_sublist Number.isSpace).subset member))
                simp [readQuoted_unquoted later]
      rw [readClause, here, ih (unquoted_cons.mp plain).2]
      rfl

/-- The gate's pattern finds nothing in a text without quotes. -/
theorem exec_unquoted (before : Option Char) {text : List Char} (plain : Unquoted text)
    : importPattern.exec before text = none := by
  rw [exec_importPattern]
  cases enters : entered (before.all isLineTerminator) text with
  | none => rfl
  | some rest =>
      obtain ⟨front, gap, _, rfl⟩ := entered_split enters
      have later : Unquoted rest := by
        simp only [unquoted_append, unquoted_cons] at plain
        exact plain.2.2.2
      simp [readState, readClause_unquoted later]

-----------------------------------------------------------------------------------------
-- One round
-----------------------------------------------------------------------------------------

/-- A specifier that can be read stands behind the end of a clause. -/
theorem ImportDeclaration.read_iff (declaration : ImportDeclaration)
    : declaration.read
      ↔ (endedClause declaration.head).isSome ∧ declaration.specifier.text ≠ [] := by
  simp [ImportDeclaration.read, endedClause_head, and_assoc]

/-- Of a declaration that is not read, the clause does not end or the specifier is empty. -/
theorem endedClause_unread {declaration : ImportDeclaration}
    (unread : ¬ declaration.read)
    : endedClause declaration.head = none ∨ declaration.specifier.text = [] := by
  rw [declaration.read_iff, not_and_or, Option.not_isSome_iff_eq_none, not_ne_iff] at unread
  exact unread

/-- Declarations that are not read are passed, by induction on them. -/
theorem readClause_span {span : List ImportDeclaration} (rest : List Char)
    (unread : ∀ declaration ∈ span, ¬ declaration.read)
    : readClause (span.flatMap ImportDeclaration.toText ++ rest)
      = (readClause rest).map (behind (span.flatMap ImportDeclaration.toText)) := by
  induction span with
  | nil =>
      rw [List.flatMap_nil, List.nil_append]
      cases readClause rest <;> rfl
  | cons declaration span ih =>
      rw [List.forall_mem_cons] at unread
      have here :=
        declaration.readClause_unread (span.flatMap ImportDeclaration.toText ++ rest)
          declaration.head_unquoted (endedClause_unread unread.1)
      rw [ih unread.2, Option.map_map, ← List.append_assoc, ← ImportDeclaration.toText] at here
      rw [List.flatMap_cons, List.append_assoc, here]
      congr 1
      funext found
      simp [behind]

section Rounds

variable {declaration : ImportDeclaration} {before : Option Char} {rest behindImport : List Char}

/-- A declaration that is not entered is passed. -/
theorem exec_passed (closed : ¬ declaration.opens (before.all isLineTerminator))
    : importPattern.exec before (declaration.toText ++ rest)
      = importPattern.exec (some declaration.quote.char) rest := by
  have line : isLineTerminator declaration.quote.char = false := by
    cases declaration.quote <;> rfl
  rw [ImportDeclaration.opens, Option.not_isSome_iff_eq_none] at closed
  rw [exec_importPattern, exec_importPattern, declaration.entered_toText rest, closed,
    Option.all_some, line]
  rfl

/-- From a declaration that is entered, the gate's pattern reads on. -/
theorem exec_entered
    (enters : entered (before.all isLineTerminator) declaration.head = some behindImport)
    : importPattern.exec before (declaration.toText ++ rest)
      = readState (behindImport ++ (declaration.quoted ++ rest)) := by
  rw [exec_importPattern, declaration.entered_toText rest, enters]
  rfl

/-- What is entered has no quotes. -/
theorem entered_head_unquoted {lineStart : Bool}
    (enters : entered lineStart declaration.head = some behindImport)
    : Unquoted behindImport := by
  obtain ⟨front, gap, _, split⟩ := entered_split enters
  have plain := declaration.head_unquoted
  simp only [split, unquoted_append, unquoted_cons] at plain
  exact plain.2.2.2

/-- What is entered of a declaration that is not read is passed. -/
theorem readClause_entered_unread {lineStart : Bool}
    (enters : entered lineStart declaration.head = some behindImport)
    (unread : ¬ declaration.read)
    : readClause (behindImport ++ (declaration.quoted ++ rest))
      = (readClause rest).map (behind (behindImport ++ declaration.quoted)) := by
  apply declaration.readClause_unread rest (entered_head_unquoted enters)
  refine (endedClause_unread unread).imp_left fun none_ended => ?_
  rw [← Option.not_isSome_iff_eq_none, endedClause_entered enters, none_ended]
  exact Bool.false_ne_true

end Rounds

/-- Nothing is found if no declaration from an entered one on is read. -/
theorem exec_unread {declaration : ImportDeclaration} {later : List ImportDeclaration}
    {before : Option Char} {rest : List Char} (plain : Unquoted rest)
    (opens : declaration.opens (before.all isLineTerminator))
    (unread : ∀ next ∈ declaration :: later, ¬ next.read)
    : importPattern.exec before
        ((declaration :: later).flatMap ImportDeclaration.toText ++ rest)
      = none := by
  obtain ⟨behindImport, enters⟩ := Option.isSome_iff_exists.mp opens
  rw [List.forall_mem_cons] at unread
  rw [List.flatMap_cons, List.append_assoc, exec_entered enters, readState,
    readClause_entered_unread enters unread.1, readClause_span rest unread.2,
    readClause_unquoted plain]
  rfl

/-- From a declaration that is entered to the next one that is read, there is a match, and it
is what the pattern finds.
-/
theorem exec_span {lineStart : Bool} {span : List ImportDeclaration} {last : ImportDeclaration}
    (enters : ∀ first ∈ (span ++ [last]).head?, first.opens lineStart)
    (unread : ∀ declaration ∈ span, ¬ declaration.read) (read : last.read)
    : ∃ clause,
        Matched lineStart span last clause
        ∧ ∀ before rest,
            before.all isLineTerminator = lineStart
            → importPattern.exec before
                (span.flatMap ImportDeclaration.toText ++ (last.toText ++ rest))
              = some
                  ⟨some last.quote.char, rest, [clause, last.specifier.text]⟩ := by
  obtain ⟨ended, nonempty⟩ := last.read_iff.mp read
  cases span with
  | nil =>
      obtain ⟨behindImport, entry⟩ := Option.isSome_iff_exists.mp (enters last rfl)
      obtain ⟨clause, ends⟩ :=
        Option.isSome_iff_exists.mp ((endedClause_entered entry).mpr ended)
      obtain ⟨gap, split⟩ := endedClause_split ends
      refine ⟨clause, ⟨enters, unread, read, gap, ?_⟩, ?_⟩
      · simpa [split] using entry
      · rintro before rest rfl
        rw [List.flatMap_nil, List.nil_append, exec_entered entry, readState,
          last.readClause_read rest (entered_head_unquoted entry) ends nonempty]
        rfl
  | cons first span =>
      rw [List.forall_mem_cons] at unread
      obtain ⟨behindImport, entry⟩ := Option.isSome_iff_exists.mp (enters first rfl)
      obtain ⟨clause, ends⟩ := Option.isSome_iff_exists.mp ended
      obtain ⟨gap, split⟩ := endedClause_split ends
      refine
        ⟨
          behindImport ++ first.quoted ++ span.flatMap ImportDeclaration.toText ++ clause,
          ⟨enters, List.forall_mem_cons.mpr unread, read, gap, ?_⟩,
          ?_
        ⟩
      · rw [List.flatMap_cons, List.append_assoc, first.entered_toText, entry, split]
        simp
      · rintro before rest rfl
        rw [List.flatMap_cons, List.append_assoc, exec_entered entry, readState,
          readClause_entered_unread entry unread.1, readClause_span _ unread.2,
          ImportDeclaration.toText, List.append_assoc,
          last.readClause_read rest last.head_unquoted ends nonempty]
        simp [behind, ReadSpecifier.state]

/-- A match is found. -/
theorem Matched.exec {span : List ImportDeclaration} {last : ImportDeclaration}
    {clause : List Char} {before : Option Char}
    (matched : Matched (before.all isLineTerminator) span last clause) (rest : List Char)
    : importPattern.exec before
        (span.flatMap ImportDeclaration.toText ++ (last.toText ++ rest))
      = some ⟨some last.quote.char, rest, [clause, last.specifier.text]⟩ := by
  obtain ⟨other, same, found⟩ := exec_span matched.enters matched.unread matched.read
  obtain ⟨gap, here⟩ := matched.clause
  obtain ⟨gap', there⟩ := same.clause
  rw [found before rest rfl, clause_unique (Option.some.inj (here.symm.trans there))]

-----------------------------------------------------------------------------------------
-- All rounds
-----------------------------------------------------------------------------------------

/-- Declarations that end in one that is read leave nothing open, by induction on them. -/
theorem Settled.append {lineStart : Bool} {span later : List ImportDeclaration}
    {last : ImportDeclaration} (read : last.read) (settled : Settled false later)
    : Settled lineStart (span ++ last :: later) := by
  induction span generalizing lineStart with
  | nil => exact ⟨fun _ => ⟨last, List.mem_cons_self, read⟩, settled⟩
  | cons declaration span ih => exact ⟨fun _ => ⟨last, by simp, read⟩, ih⟩

/-- Declarations that leave nothing open do so from any of them on, by induction on those before
it.
-/
theorem Settled.rest {lineStart : Bool} {span later : List ImportDeclaration}
    {last : ImportDeclaration} (settled : Settled lineStart (span ++ last :: later))
    : Settled false later := by
  induction span generalizing lineStart with
  | nil => exact settled.2
  | cons declaration span ih => exact ih settled.2

/-- Declarations are split at the first one that is read. -/
theorem split_at_read {declarations : List ImportDeclaration}
    (some_read : ∃ declaration ∈ declarations, declaration.read)
    : ∃ span last later,
        declarations = span ++ last :: later ∧ (∀ declaration ∈ span, ¬ declaration.read)
        ∧ last.read := by
  obtain ⟨last, found⟩ := Option.isSome_iff_exists.mp (List.find?_isSome.mpr some_read)
  obtain ⟨read, span, later, split, unread⟩ := List.find?_eq_some_iff_append.mp found
  refine ⟨span, last, later, split, fun declaration member => ?_, read⟩
  simpa using unread declaration member

/-- Rounds pass a declaration that is not entered. -/
theorem execLoop_passed {declaration : ImportDeclaration} {before : Option Char}
    (closed : ¬ declaration.opens (before.all isLineTerminator)) (rounds : Nat)
    (rest : List Char)
    : importPattern.execLoop rounds before (declaration.toText ++ rest)
      = importPattern.execLoop rounds (some declaration.quote.char) rest := by
  cases rounds with
  | zero => rfl
  | succ rounds => rw [RegExp.execLoop, RegExp.execLoop, exec_passed closed]

/-- A quote does not end a line. -/
theorem ImportDeclaration.quote_line (declaration : ImportDeclaration)
    : (some declaration.quote.char).all isLineTerminator = false := by
  cases declaration.quote <;> rfl

/-- Where the first declaration of a text is entered, a match is found first. -/
theorem execLoop_entered {first : ImportDeclaration} {declarations : List ImportDeclaration}
    {before : Option Char} (opens : first.opens (before.all isLineTerminator))
    (some_read : ∃ next ∈ first :: declarations, next.read)
    : ∃ span last later clause,
        first :: declarations = span ++ last :: later
        ∧ Matched (before.all isLineTerminator) span last clause
        ∧ ∀ rounds rest,
            importPattern.execLoop (rounds + 1) before
              ((first :: declarations).flatMap ImportDeclaration.toText ++ rest)
            = ⟨
                some last.quote.char,
                later.flatMap ImportDeclaration.toText ++ rest,
                [clause, last.specifier.text]
              ⟩
              :: importPattern.execLoop rounds (some last.quote.char)
                  (later.flatMap ImportDeclaration.toText ++ rest) := by
  obtain ⟨span, last, later, split, unread, read⟩ := split_at_read some_read
  have enters : ∀ head ∈ (span ++ [last]).head?, head.opens (before.all isLineTerminator) := by
    have same : (span ++ [last]).head? = some first := by
      have heads := congrArg List.head? split
      cases span <;> simpa using heads.symm
    rw [same]
    rintro head ⟨⟩
    exact opens
  obtain ⟨clause, matched, found⟩ := exec_span enters unread read
  refine ⟨span, last, later, clause, split, matched, fun rounds rest => ?_⟩
  have here := found before (later.flatMap ImportDeclaration.toText ++ rest) rfl
  rw [split, List.flatMap_append, List.flatMap_cons, List.append_assoc, List.append_assoc,
    RegExp.execLoop, here]

/-- A matched span before which no declaration is left open is found, by induction on the
declarations before it.
-/
theorem execLoop_matched {prior span later : List ImportDeclaration} {last : ImportDeclaration}
    {clause : List Char} {before : Option Char} {rounds : Nat} (rest : List Char)
    (settled : Settled (before.all isLineTerminator) prior)
    (matched : Matched (before.all isLineTerminator && prior.isEmpty) span last clause)
    (enough : prior.length < rounds)
    : ∃ found
        ∈ importPattern.execLoop rounds before
            ((prior ++ (span ++ last :: later)).flatMap ImportDeclaration.toText ++ rest),
        found.groups = [clause, last.specifier.text] := by
  induction size : prior.length using Nat.strong_induction_on
    generalizing prior before rounds with
  | _ size' ih =>
    subst size
    match prior with
    | [] =>
        obtain ⟨rounds, rfl⟩ := Nat.exists_eq_add_of_lt enough
        rw [List.isEmpty_nil, Bool.and_true] at matched
        have here := matched.exec (later.flatMap ImportDeclaration.toText ++ rest)
        simp only [List.nil_append, List.flatMap_append, List.flatMap_cons, List.append_assoc]
        rw [RegExp.execLoop, here]
        exact ⟨_, List.mem_cons_self, rfl⟩
    | declaration :: prior =>
        rw [List.isEmpty_cons, Bool.and_false] at matched
        by_cases opens : declaration.opens (before.all isLineTerminator)
        · obtain ⟨round, last', prior', clause', split, _, found⟩ :=
            execLoop_entered opens (settled.1 opens)
          obtain ⟨rounds, rfl⟩ := Nat.exists_eq_add_of_lt (Nat.zero_lt_of_lt enough)
          have shorter : prior'.length < (declaration :: prior).length := by
            rw [split, List.length_append, List.length_cons]
            omega
          rw [split] at settled
          have settled' : Settled ((some last'.quote.char).all isLineTerminator) prior' := by
            rw [last'.quote_line]
            exact settled.rest
          have matched'
              : Matched ((some last'.quote.char).all isLineTerminator && prior'.isEmpty)
                  span last clause := by
            rw [last'.quote_line, Bool.false_and]
            exact matched
          have enough' : prior'.length < rounds := by omega
          obtain ⟨read, member, groups⟩ :=
            ih prior'.length shorter settled' matched' enough' rfl
          refine ⟨read, ?_, groups⟩
          rw [List.flatMap_append, List.append_assoc, Nat.zero_add, found]
          rw [List.flatMap_append, List.append_assoc] at member
          exact List.mem_cons_of_mem _ member
        · rw [List.cons_append, List.flatMap_cons, List.append_assoc, execLoop_passed opens]
          apply ih prior.length (Nat.lt_succ_self _) _ _ (Nat.lt_of_succ_lt enough) rfl
          · rw [declaration.quote_line]
            exact settled.2
          · rw [declaration.quote_line, Bool.false_and]
            exact matched

/-- The groups are those of a matched span before which no declaration is left open. -/
def FoundIn (lineStart : Bool) (declarations : List ImportDeclaration)
    (groups : List (List Char)) : Prop :=
  ∃ prior span last later clause,
    declarations = prior ++ (span ++ last :: later)
    ∧ Settled lineStart prior
    ∧ Matched (lineStart && prior.isEmpty) span last clause
    ∧ groups = [clause, last.specifier.text]

section Found

variable {lineStart : Bool} {span later : List ImportDeclaration}
  {declaration last : ImportDeclaration} {clause : List Char} {groups : List (List Char)}

/-- A span at the beginning is found. -/
theorem FoundIn.here (matched : Matched lineStart span last clause)
    : FoundIn lineStart (span ++ last :: later) [clause, last.specifier.text] := by
  refine ⟨[], span, last, later, clause, rfl, trivial, ?_, rfl⟩
  rwa [List.isEmpty_nil, Bool.and_true]

/-- What is found behind a declaration that is not entered is found from it on. -/
theorem FoundIn.passed (closed : ¬ declaration.opens lineStart)
    (found : FoundIn false later groups) : FoundIn lineStart (declaration :: later) groups := by
  obtain ⟨prior, span, last, later, clause, rfl, settled, matched, same⟩ := found
  have closed_here : declaration.opens lineStart → ∃ next ∈ declaration :: prior, next.read :=
    fun opens => absurd opens closed
  refine
    ⟨declaration :: prior, span, last, later, clause, rfl, ⟨closed_here, settled⟩, ?_, same⟩
  rwa [List.isEmpty_cons, Bool.and_false]

/-- What is found behind a declaration that is read is found before it. -/
theorem FoundIn.behind (read : last.read) (found : FoundIn false later groups)
    : FoundIn lineStart (span ++ last :: later) groups := by
  obtain ⟨prior, span', last', later, clause, rfl, settled, matched, same⟩ := found
  refine
    ⟨
      span ++ last :: prior,
      span',
      last',
      later,
      clause,
      by simp,
      Settled.append read settled,
      ?_,
      same
    ⟩
  have nonempty : (span ++ last :: prior).isEmpty = false := by
    cases span <;> rfl
  rwa [nonempty, Bool.and_false]

end Found

/-- Whatever is found is a matched span before which no declaration is left open, by induction
on the declarations.
-/
theorem execLoop_found {declarations : List ImportDeclaration} {before : Option Char}
    {rounds : Nat} {rest : List Char} {found : MatchState} (plain : Unquoted rest)
    (member
      : found
        ∈ importPattern.execLoop rounds before
            (declarations.flatMap ImportDeclaration.toText ++ rest))
    : FoundIn (before.all isLineTerminator) declarations found.groups := by
  induction size : declarations.length using Nat.strong_induction_on
    generalizing declarations before rounds with
  | _ size' ih =>
    subst size
    obtain _ | rounds := rounds
    · cases member
    match declarations with
    | [] =>
        rw [List.flatMap_nil, List.nil_append, RegExp.execLoop, exec_unquoted before plain]
          at member
        cases member
    | declaration :: later =>
        by_cases opens : declaration.opens (before.all isLineTerminator)
        · by_cases some_read : ∃ next ∈ declaration :: later, next.read
          · obtain ⟨span, last, later', clause, split, matched, rounds_eq⟩ :=
              execLoop_entered opens some_read
            rw [rounds_eq] at member
            rw [split]
            rcases List.mem_cons.mp member with rfl | deeper
            · exact FoundIn.here matched
            · have shorter : later'.length < (declaration :: later).length := by
                rw [split, List.length_append, List.length_cons]
                omega
              have further := ih later'.length shorter deeper rfl
              rw [last.quote_line] at further
              exact FoundIn.behind matched.read further
          · have unread : ∀ next ∈ declaration :: later, ¬ next.read :=
              fun next member read => some_read ⟨next, member, read⟩
            rw [RegExp.execLoop, exec_unread plain opens unread] at member
            cases member
        · rw [List.flatMap_cons, List.append_assoc, execLoop_passed opens] at member
          have further := ih later.length (Nat.lt_succ_self _) member rfl
          rw [declaration.quote_line] at further
          exact FoundIn.passed opens further

end SharedKernel.Placement
