import SharedKernel.Js.Number
import SharedKernel.Js.RegExp

/-! The purity gate of `scripts/check-repo-placement.cjs`: no file of the shared kernel imports
a transport or a framework at run time.
-/

namespace SharedKernel.Placement

open Js

-----------------------------------------------------------------------------------------
-- Files
-----------------------------------------------------------------------------------------

/-- `text.startsWith(head)`. -/
def startsWith (text head : String) : Bool :=
  head.toList.isPrefixOf text.toList

/-- `text.endsWith(tail)`. -/
def endsWith (text tail : String) : Bool :=
  tail.toList.isSuffixOf text.toList

/-- What a directory holds. -/
inductive Entry where
  | directory (name : String) (entries : List Entry)
  | file (name text : String)

/-- A file, by its path from the root of the repository. -/
structure SourceFile where
  rel : String
  text : String
deriving DecidableEq

/-- The `.ts` files of a directory and of those below it. -/
def walk (dir : String) : List Entry → List SourceFile
  | [] => []
  | .directory name entries :: rest => walk (dir ++ "/" ++ name) entries ++ walk dir rest
  | .file name text :: rest =>
      if endsWith name ".ts" then ⟨dir ++ "/" ++ name, text⟩ :: walk dir rest else walk dir rest

-----------------------------------------------------------------------------------------
-- Imports
-----------------------------------------------------------------------------------------

/-- The quotes of `['"]`. -/
def isQuote (char : Char) : Bool :=
  char = '\'' || char = '"'

/-- The packages that the shared kernel does not import. -/
def runtimeBanned : List String :=
  ["kafkajs", "@nestjs/", "fastify", "@prisma/", "ioredis"]

/-- The generated stubs, which need the gRPC runtime. -/
def grpcRuntimeOk (rel : String) : Bool :=
  startsWith rel "packages/shared-kernel/src/grpc/"

/-- Whether a file may not import a package at run time. -/
def isBanned (rel spec : String) : Bool :=
  runtimeBanned.any (fun banned => spec = banned || startsWith spec banned)
  || (startsWith spec "@grpc/grpc-js" && !grpcRuntimeOk rel)

/-- `['"]([^'"]+)['"]`. -/
def quotedPattern : RegExp :=
  .seq (.one isQuote)
    (.seq (.group (.seq (.one (!isQuote ·)) (.many (!isQuote ·)))) (.one isQuote))

/-- `from\s+['"]([^'"]+)['"]`. -/
def fromPattern : RegExp :=
  .word "from".toList (.plus Number.isSpace quotedPattern)

/-- `(?!type\b)`. -/
def notTypePattern : RegExp :=
  .without (.word "type".toList .boundary)

/-- `(?!type\b)([\s\S]*?)from\s+['"]([^'"]+)['"]`. -/
def clausePattern : RegExp :=
  .seq notTypePattern (.seq (.group (.fewest fun _ => true)) fromPattern)

/-- `/^\s*import\s+(?!type\b)([\s\S]*?)from\s+['"]([^'"]+)['"]/gm`. -/
def importPattern : RegExp :=
  .seq (.start true)
    (.seq (.many Number.isSpace)
      (.word "import".toList (.plus Number.isSpace clausePattern)))

/-- `/\{([\s\S]*)\}/`. -/
def namedPattern : RegExp :=
  .seq (.one (· = '\x7b')) (.seq (.group (.many fun _ => true)) (.one (· = '\x7d')))

/-- `/^\s*type\s/`. -/
def typePattern : RegExp :=
  .seq (.start false)
    (.seq (.many Number.isSpace) (.word "type".toList (.one Number.isSpace)))

/-- Whether what stands in the braces of a clause is erased. -/
def onlyTypes (clause : List Char) : Bool :=
  match namedPattern.exec none clause with
  | none => false
  | some named =>
      ((named.groups.getD 0 []).splitOn ',').all fun specifier =>
        (Number.trim specifier).isEmpty || typePattern.test specifier

-----------------------------------------------------------------------------------------
-- The gate
-----------------------------------------------------------------------------------------

/-- The error of an import. -/
def purityError (rel spec : String) : String :=
  rel ++ "\n    runtime-imports '" ++ spec ++ "' — shared-kernel must never own a live\n" ++
    "    connection or a framework binding, only describe one ('import type' is fine).\n" ++
    "    Keep the adapter in the service; put only the contract/algorithm here\n" ++
    "    (folder_structure_sop.md § Where an abstraction lives)."

/-- What the gate records for a match. -/
def checkImport (rel : String) (found : MatchState) : List String :=
  let clause := found.groups.getD 0 []
  let spec := String.ofList (found.groups.getD 1 [])
  if !isBanned rel spec then []
  else if onlyTypes clause then []
  else [purityError rel spec]

/-- What the gate records for a file. A match is not empty, so that one round for each
character and one more are enough.
-/
def checkFile (rel text : String) : List String :=
  if endsWith rel ".spec.ts" then []
  else
    (importPattern.execLoop (text.toList.length + 1) none text.toList).flatMap (checkImport rel)

/-- The sources of the shared kernel. -/
def skSrc : String :=
  "packages/shared-kernel/src"

/-- What the gate records, for the entries of the directory if it exists. -/
def checkSharedKernelPurity : Option (List Entry) → List String
  | none => []
  | some entries => (walk skSrc entries).flatMap fun file => checkFile file.rel file.text

end SharedKernel.Placement
