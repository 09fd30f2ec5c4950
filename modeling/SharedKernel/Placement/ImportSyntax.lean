import SharedKernel.Placement.PurityGate

/-! Import declarations: their forms and their layout, the text they are written as, and which
of them are left at run time.
-/

namespace SharedKernel.Placement

open Js

-----------------------------------------------------------------------------------------
-- Tokens
-----------------------------------------------------------------------------------------

/-- White space. -/
structure Gap where
  text : List Char
  blank : ∀ char ∈ text, Number.isSpace char

/-- White space that keeps two words apart. -/
structure Break extends Gap where
  nonempty : text ≠ []

/-- The characters that end a name. -/
def endsName (char : Char) : Bool :=
  Number.isSpace char || isQuote char || char ∈ ['\x7b', '\x7d', ',', '*', ';']

/-- A name. -/
structure Name where
  text : List Char
  nonempty : text ≠ []
  whole : ∀ char ∈ text, endsName char = false

/-- A quote. -/
inductive Quote where
  | single
  | double

/-- The character of a quote. -/
def Quote.char : Quote → Char
  | single => '\''
  | double => '"'

/-- A module specifier, as it is written between its quotes and as the package it denotes. An
escape may make the two differ.
-/
structure ModuleSpecifier where
  text : List Char
  denotes : List Char
  unquoted : ∀ char ∈ text, isQuote char = false
  oneLine : ∀ char ∈ text, isLineTerminator char = false
  trimmed : ∀ char, text.getLast? = some char → Number.isSpace char = false
  plain : '\\' ∉ text → denotes = text

-----------------------------------------------------------------------------------------
-- Declarations
-----------------------------------------------------------------------------------------

/-- `as` and a name. -/
structure Renaming where
  before : Break
  after : Break
  name : Name

/-- What is imported in braces under one name. -/
structure ImportSpecifier where
  before : Gap
  /-- The modifier `type`, by the white space that follows it. -/
  typeOnly : Option Break
  name : Name
  renamed : Option Renaming
  after : Gap

/-- What stands in braces: nothing, or specifiers with or without a comma at the end. -/
inductive NamedImports where
  | empty (gap : Gap)
  | listed (first : ImportSpecifier) (rest : List ImportSpecifier) (comma : Option Gap)

/-- A namespace or what stands in braces, and the white space around it. -/
inductive Bindings where
  | nameSpace (before afterStar : Gap) (asName : Break) (name : Name) (after : Break)
  | named (before : Gap) (imports : NamedImports) (after : Gap)

/-- What an import binds: a default, a namespace or names in braces, or a default and one of
the others.
-/
inductive ImportClause where
  | default (before : Break) (name : Name) (after : Break)
  | bindings (bindings : Bindings)
  | both (before : Break) (name : Name) (beforeComma : Gap) (bindings : Bindings)

/-- The form of an import: `import 'x'`, `import … from 'x'` or `import type … from 'x'`. -/
inductive ImportForm where
  | sideEffect
  | value (clause : ImportClause)
  | type (gap : Break) (clause : ImportClause)

/-- What ends a declaration: white space, after a semicolon or not. -/
structure Separator where
  semicolon : Option Gap
  gap : Gap

/-- An import declaration, with what stands before it. -/
structure ImportDeclaration where
  before : Separator
  form : ImportForm
  gap : Gap
  quote : Quote
  specifier : ModuleSpecifier

/-- A source text made of import declarations. -/
structure ImportSource where
  declarations : List ImportDeclaration
  after : Separator

-----------------------------------------------------------------------------------------
-- Text
-----------------------------------------------------------------------------------------

/-- The text of `as` and a name. -/
def Renaming.toText (renamed : Renaming) : List Char :=
  renamed.before.text ++ "as".toList ++ renamed.after.text ++ renamed.name.text

/-- The text of a name in braces. -/
def ImportSpecifier.toText (specifier : ImportSpecifier) : List Char :=
  specifier.before.text
    ++ (specifier.typeOnly.elim [] fun gap => "type".toList ++ gap.text)
    ++ specifier.name.text
    ++ specifier.renamed.elim [] Renaming.toText
    ++ specifier.after.text

/-- The text in braces. -/
def NamedImports.toText : NamedImports → List Char
  | empty gap => gap.text
  | listed first rest comma =>
      first.toText ++ rest.flatMap (fun specifier => ',' :: specifier.toText)
        ++ comma.elim [] fun gap => ',' :: gap.text

/-- The text of a namespace or of braces. -/
def Bindings.toText : Bindings → List Char
  | nameSpace before afterStar asName name after =>
      before.text ++ "*".toList ++ afterStar.text ++ "as".toList ++ asName.text ++ name.text
        ++ after.text
  | named before imports after =>
      before.text ++ "\x7b".toList ++ imports.toText ++ "\x7d".toList ++ after.text

/-- The text of a clause. -/
def ImportClause.toText : ImportClause → List Char
  | default before name after => before.text ++ name.text ++ after.text
  | bindings inner => inner.toText
  | both before name beforeComma inner =>
      before.text ++ name.text ++ beforeComma.text ++ ",".toList ++ inner.toText

/-- The text between `import` and the white space before the specifier. -/
def ImportForm.toText : ImportForm → List Char
  | sideEffect => []
  | value clause => clause.toText ++ "from".toList
  | type gap clause => gap.text ++ "type".toList ++ clause.toText ++ "from".toList

/-- The text of a separator. -/
def Separator.toText (separator : Separator) : List Char :=
  (separator.semicolon.elim [] fun gap => gap.text ++ ";".toList) ++ separator.gap.text

namespace ImportDeclaration

/-- The text up to the specifier. -/
def head (declaration : ImportDeclaration) : List Char :=
  declaration.before.toText ++ "import".toList ++ declaration.form.toText
    ++ declaration.gap.text

/-- The specifier in its quotes. -/
def quoted (declaration : ImportDeclaration) : List Char :=
  declaration.quote.char :: (declaration.specifier.text ++ [declaration.quote.char])

/-- The text of a declaration. -/
def toText (declaration : ImportDeclaration) : List Char :=
  declaration.head ++ declaration.quoted

end ImportDeclaration

/-- The text of a source. -/
def ImportSource.toText (source : ImportSource) : String :=
  String.ofList (source.declarations.flatMap ImportDeclaration.toText ++ source.after.toText)

-----------------------------------------------------------------------------------------
-- What is left at run time
-----------------------------------------------------------------------------------------

/-- Some name in the braces is bound to a value. -/
def NamedImports.bindsValue : NamedImports → Bool
  | empty _ => false
  | listed first rest _ => (first :: rest).any fun specifier => specifier.typeOnly.isNone

/-- A clause binds at least one value. -/
def ImportClause.bindsValue : ImportClause → Bool
  | bindings (.named _ imports _) => imports.bindsValue
  | _ => true

/-- The declaration is not erased: it binds a value, or it is there for its side effect. -/
def ImportDeclaration.live (declaration : ImportDeclaration) : Bool :=
  match declaration.form with
  | .sideEffect => true
  | .value clause => clause.bindsValue
  | .type .. => false

/-- The declaration loads, at run time, a package that the file may not import. -/
def ImportDeclaration.LoadsBanned (rel : String) (declaration : ImportDeclaration) : Prop :=
  declaration.live ∧ isBanned rel (String.ofList declaration.specifier.denotes)

end SharedKernel.Placement
