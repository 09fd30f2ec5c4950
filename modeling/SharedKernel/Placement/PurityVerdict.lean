import SharedKernel.Placement.ImportMatches

/-! Which files the purity gate reports, and how far these are the files that load a banned
package at run time.
-/

namespace SharedKernel.Placement

open Js

-----------------------------------------------------------------------------------------
-- What is recorded
-----------------------------------------------------------------------------------------

/-- What the gate records names the file and a package that it may not import. -/
theorem checkFile_error {rel text error : String} (recorded : error ∈ checkFile rel text)
    : ∃ spec, error = purityError rel spec ∧ isBanned rel spec := by
  rw [checkFile] at recorded
  split at recorded
  · cases recorded
  · obtain ⟨found, _, recorded⟩ := List.mem_flatMap.mp recorded
    simp only [checkImport, Bool.not_eq_true'] at recorded
    split at recorded
    · cases recorded
    · split at recorded
      next => cases recorded
      next banned _ =>
        rw [Bool.not_eq_false] at banned
        exact ⟨_, List.mem_singleton.mp recorded, banned⟩

/-- The gate records what it records for the files of the shared kernel. -/
theorem mem_checkSharedKernelPurity {entries : List Entry} {error : String}
    : error ∈ checkSharedKernelPurity (some entries)
      ↔ ∃ file ∈ walk skSrc entries, error ∈ checkFile file.rel file.text :=
  List.mem_flatMap

/-- More rounds find nothing more in a file. -/
theorem importPattern_rounds (text : List Char) (more : Nat)
    : importPattern.execLoop (text.length + 1 + more) none text
      = importPattern.execLoop (text.length + 1) none text :=
  RegExp.execLoop_enough more exec_importPattern_shorter (Nat.lt_succ_self _)

/-- A match is recorded if its package is banned and its clause is not of types only. -/
theorem checkImport_ne_nil {rel : String} {found : MatchState} {clause spec : List Char}
    (groups : found.groups = [clause, spec])
    : checkImport rel found ≠ []
      ↔ isBanned rel (String.ofList spec) ∧ ¬ onlyTypes clause := by
  simp only [checkImport, groups]
  cases banned : isBanned rel (String.ofList spec)
    <;> cases types : onlyTypes clause <;> simp [banned, types]

-----------------------------------------------------------------------------------------
-- Files of imports
-----------------------------------------------------------------------------------------

/-- The declarations have a match of the gate's pattern, with no declaration left open before
it, whose specifier is banned and whose clause is not of types only.
-/
def Reported (rel : String) (declarations : List ImportDeclaration) : Prop :=
  ∃ before span last after clause,
    declarations = before ++ (span ++ last :: after)
    ∧ Settled true before
    ∧ Matched before.isEmpty span last clause
    ∧ isBanned rel (String.ofList last.specifier.text)
    ∧ ¬ onlyTypes clause

/-- There are no more declarations than characters, by induction on them. -/
theorem length_le_text (declarations : List ImportDeclaration)
    : declarations.length ≤ (declarations.flatMap ImportDeclaration.toText).length := by
  induction declarations with
  | nil => exact Nat.le_refl _
  | cons declaration declarations ih =>
      simp only [List.flatMap_cons, List.length_append, List.length_cons,
        ImportDeclaration.toText, ImportDeclaration.quoted]
      omega

/-- The gate records an error for a file of imports exactly if they are reported. -/
theorem checkFile_ne_nil {rel : String} (counted : endsWith rel ".spec.ts" = false)
    (source : ImportSource)
    : checkFile rel source.toText ≠ [] ↔ Reported rel source.declarations := by
  have text
      : source.toText.toList
        = source.declarations.flatMap ImportDeclaration.toText ++ source.after.toText :=
    String.toList_ofList
  rw [checkFile, counted, if_neg Bool.false_ne_true, text, ne_eq, List.flatMap_eq_nil_iff]
  constructor
  · intro recorded
    obtain ⟨found, member, recorded⟩ : ∃ found ∈ _, checkImport rel found ≠ [] := by
      simpa using recorded
    obtain ⟨before, span, last, after, clause, split, settled, matched, groups⟩ :=
      execLoop_found source.after.unquoted member
    exact
      ⟨before, span, last, after, clause, split, settled, matched,
        (checkImport_ne_nil groups).mp recorded⟩
  · rintro ⟨before, span, last, after, clause, split, settled, matched, unfit⟩ none_recorded
    have enough
        : before.length
          < (source.declarations.flatMap ImportDeclaration.toText
              ++ source.after.toText).length + 1 := by
      have characters := length_le_text source.declarations
      rw [split, List.length_append] at characters
      rw [List.length_append, split]
      omega
    obtain ⟨found, member, groups⟩ :=
      @execLoop_matched before span after last clause none _ source.after.toText settled matched
        enough
    rw [← split] at member
    exact (checkImport_ne_nil groups).mpr unfit (none_recorded found member)

/-- The gate records an error for a file: one that it finds in the text of that file. -/
def RecordsFor (entries : List Entry) (file : SourceFile) : Prop :=
  ∃ error ∈ checkSharedKernelPurity (some entries), error ∈ checkFile file.rel file.text

/-- For a file of the directory, it does so where it finds one. -/
theorem recordsFor_iff {entries : List Entry} {file : SourceFile}
    (walked : file ∈ walk skSrc entries)
    : RecordsFor entries file ↔ checkFile file.rel file.text ≠ [] := by
  constructor
  · rintro ⟨error, _, found⟩
    exact List.ne_nil_of_mem found
  · intro some_found
    obtain ⟨error, found⟩ := List.exists_mem_of_ne_nil _ some_found
    exact ⟨error, mem_checkSharedKernelPurity.mpr ⟨file, walked, found⟩, found⟩

/-- A file of imports that loads a banned package at run time has an error recorded for it
exactly if it is reported.
-/
theorem purity_gate_exact (entries : List Entry) (file : SourceFile) (source : ImportSource)
    (walked : file ∈ walk skSrc entries) (text : file.text = source.toText)
    (counted : endsWith file.rel ".spec.ts" = false)
    : ((∃ declaration ∈ source.declarations, declaration.LoadsBanned file.rel)
          → RecordsFor entries file)
      ↔ (∀ declaration ∈ source.declarations, ¬ declaration.LoadsBanned file.rel)
        ∨ Reported file.rel source.declarations := by
  rw [recordsFor_iff walked, text, checkFile_ne_nil counted, imp_iff_not_or, not_exists]
  simp only [not_and]

-----------------------------------------------------------------------------------------
-- Single imports
-----------------------------------------------------------------------------------------

/-- No white space. -/
def noGap : Gap :=
  ⟨[], by simp⟩

/-- One blank. -/
def blank : Break :=
  ⟨⟨[' '], by simp [Number.isSpace]⟩, by decide⟩

/-- The package that is never imported. -/
def kafkajs : ModuleSpecifier where
  text := "kafkajs".toList
  denotes := "kafkajs".toList
  unquoted := by simp [isQuote]
  oneLine := by simp [isLineTerminator]
  trimmed := by
    rintro char ⟨⟩
    decide
  plain := fun _ => rfl

/-- A file with one import of it. -/
def kafkaImport (form : ImportForm) : ImportSource :=
  ⟨[⟨⟨none, noGap⟩, form, blank.toGap, .single, kafkajs⟩], ⟨none, noGap⟩⟩

/-- The name `Kafka`. -/
def kafkaName : Name :=
  ⟨"Kafka".toList, by decide, by simp [endsName, isQuote, Number.isSpace]⟩

/-- ` { Kafka } ` or ` { type Kafka } `. -/
def kafkaBindings (typeOnly : Option Break) : Bindings :=
  .named blank.toGap
    (.listed ⟨blank.toGap, typeOnly, kafkaName, none, blank.toGap⟩ [] none)
    blank.toGap

/-- The sources, if they are one file. -/
def onlyIndex (text : String) : List Entry :=
  [.file "index.ts" text]

/-- That file. -/
def indexFile (text : String) : SourceFile :=
  ⟨"packages/shared-kernel/src/index.ts", text⟩

theorem indexFile_walked (text : String) : indexFile text ∈ walk skSrc (onlyIndex text) := by
  have typescript : endsWith "index.ts" ".ts" = true := by decide
  rw [onlyIndex, walk, if_pos typescript]
  exact List.mem_cons_self

/-- `import { Kafka } from 'kafkajs'` is recorded. -/
theorem purity_gate_exact_kafka
    : RecordsFor (onlyIndex (kafkaImport (.value (.bindings (kafkaBindings none)))).toText)
        (indexFile (kafkaImport (.value (.bindings (kafkaBindings none)))).toText) := by
  apply
    (purity_gate_exact _ _ (kafkaImport (.value (.bindings (kafkaBindings none))))
      (indexFile_walked _) rfl (by decide)).mpr
  · refine Or.inr ⟨[], [], _, [], "\x7b Kafka \x7d ".toList, rfl, trivial, ?_, by decide, ?_⟩
    · refine ⟨?_, by simp, by decide, blank, by decide⟩
      rintro first ⟨⟩
      decide
    · decide +kernel
  · exact ⟨_, List.mem_singleton_self _, by decide, by decide⟩

/-- An import for its side effect is not recorded. -/
theorem side_effect_missed
    : ¬ ∀ entries file source,
          file ∈ walk skSrc entries
          → file.text = ImportSource.toText source
          → endsWith file.rel ".spec.ts" = false
          → (∃ declaration ∈ source.declarations,
              ImportDeclaration.LoadsBanned file.rel declaration)
          → RecordsFor entries file := by
  intro holds
  have missed
      : checkFile "packages/shared-kernel/src/index.ts" (kafkaImport .sideEffect).toText = [] := by
    decide +kernel
  have walked := indexFile_walked (kafkaImport .sideEffect).toText
  have recorded :=
    holds _ _ (kafkaImport .sideEffect) walked rfl (by decide)
      ⟨_, List.mem_singleton_self _, by decide, by decide⟩
  exact (recordsFor_iff walked).mp recorded missed

/-- Nor is `import kafka, { type Kafka } from 'kafkajs'`. -/
example
    : checkFile "packages/shared-kernel/src/index.ts"
        (kafkaImport
          (.value
            (.both blank ⟨"kafka".toList, by decide, by simp [endsName, isQuote, Number.isSpace]⟩
              noGap (kafkaBindings (some blank))))).toText
      = [] := by
  decide +kernel

end SharedKernel.Placement
