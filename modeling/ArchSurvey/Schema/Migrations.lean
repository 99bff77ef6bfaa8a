import ArchSurvey.Disk.Path
import ArchSurvey.Project.Parts
import ArchSurvey.Scan.Scanner
import ArchSurvey.Scan.Tiers
import ArchSurvey.Schema.Reader
import ArchSurvey.Schema.Replay
import ArchSurvey.Text.LetterCase

/-!
# The migration scanner

Reads the migration scripts of a project and reports the tables that stand after the last of them.
-/

namespace ArchSurvey.Schema

open Text

/-!
## The order of scripts

Scripts are replayed by version, and those of one version by name; repeatable ones come last.
-/

/-- What decides when a script is replayed. -/
structure ScriptOrder where
  repeatable : Bool
  version : List Nat
  name : String
  deriving DecidableEq, Repr

namespace ScriptOrder

/-- The parts of a version: digits with dots and underscores between them. -/
def versionParts (text : List Char) : List (List Char) :=
  let digits := text.takeWhile isDigit
  if digits.isEmpty then []
  else
    digits ::
      match _shape : text.dropWhile isDigit with
      | [] => []
      | separator :: rest =>
          if separator == '.' || separator == '_' then versionParts rest else []
termination_by text.length
decreasing_by
  have shorter := (List.dropWhile_sublist isDigit (l := text)).length_le
  rw [_shape, List.length_cons] at shorter
  omega

/-- The version at the start of a file name, after a letter `V` if there is one. -/
def versionOf (name : List Char) : List Nat :=
  let text := match name with
    | 'V' :: rest => rest
    | 'v' :: rest => rest
    | text => text
  (versionParts text).filterMap natural64?

/-- The order of a script by its path. -/
def ofPath (path : String) : ScriptOrder :=
  let name := Path.fileName path
  { repeatable := startsWith "R__".toList name.toList
    version := versionOf name.toList
    name }

/-- The lexicographic order of versions. -/
def versionLe : List Nat → List Nat → Bool
  | [], _ => true
  | _ :: _, [] => false
  | a :: v, b :: w => a < b || (a == b && versionLe v w)

/-- The order of scripts. -/
def le (a b : ScriptOrder) : Bool :=
  if a.repeatable != b.repeatable then b.repeatable
  else if a.version != b.version then versionLe a.version b.version
  else a.name ≤ b.name

end ScriptOrder

/-! ## The migration scanner -/

/-- The scripts that are read. -/
def scriptPatterns : List String :=
  ["**/V*.sql", "**/R__*.sql", "**/*.up.sql", "**/changelog*.sql", "**/migrations/*.sql",
    "**/db/*.sql", "**/schema.sql"]

/-- Whether a script is to be replayed: not if it takes a migration back. -/
def isForward (path : String) : Bool :=
  !Text.endsWith ".down.sql".toList path.toList

/-- Reads a script with its place in the order. -/
def readMigration (path : String) (text : List Char) :
    Attempt (Except String (List (ScriptOrder × Script))) :=
  .finished <|
    match readScript text with
    | .ok statements => .ok [(ScriptOrder.ofPath path, ⟨Path.fileName path, statements⟩)]
    | .error error => .error error.message

/-- How scripts are read. -/
def migrationEngine : TierEngine (ScriptOrder × Script) :=
  { accepts := fun path => .finished (isForward path), fallback := readMigration }

/-- The tables after some scripts, replayed in their order. -/
def replayInOrder (scripts : List (ScriptOrder × Script)) : List Table :=
  replay ((scripts.mergeSort fun a b => a.1.le b.1).map Prod.snd)

/-- Scans the migration scripts of a project. -/
def scanMigrations (context : Context) : Except ScanError ScanResult := do
  let files ← context.findFilesAny scriptPatterns
  let (scripts, stats) := migrationEngine.parseFiles context files
  let database := Project.database context "SQL"
  let entities := (replayInOrder scripts).map (Table.entity database.id)
  let components := if entities.isEmpty then [] else [database]
  return Sweep.finish "sql-migrations" { components, entities } stats

/-- The migration scanner. -/
def migrationScanner : Scanner :=
  { id := "sql-migrations"
    title := "SQL Migrations"
    languages := ["sql"]
    patterns := scriptPatterns
    priority := 60
    scan := fun context => .finished (.ofOutcome "sql-migrations" (scanMigrations context)) }

end ArchSurvey.Schema
