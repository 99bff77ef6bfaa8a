/-!
# Occurrences

What a structural parser makes of a source: one occurrence for each place where its query matches,
with the pieces of the source that the query names.
-/

namespace ArchSurvey.Grammar

/-- A named piece of a source and the line that it starts on. -/
structure Capture where
  name : String
  text : String
  line : Nat
  deriving DecidableEq, Repr

/-- A place where a query matches: the kind and first line of the largest captured piece, and all
captures. -/
structure Occurrence where
  kind : String
  line : Nat
  captures : List Capture
  deriving DecidableEq, Repr

/-- The text of the first capture with a name. -/
def Occurrence.text? (occurrence : Occurrence) (name : String) : Option String :=
  (occurrence.captures.find? fun capture => capture.name == name).map Capture.text

/-- The texts of all captures with a name. -/
def Occurrence.texts (occurrence : Occurrence) (name : String) : List String :=
  (occurrence.captures.filter fun capture => capture.name == name).map Capture.text

/-- Why a structural parser makes nothing of a source. -/
inductive Refusal where
  /-- There is no grammar for the language. -/
  | unavailable (language : String)
  /-- The source is ill-formed. -/
  | rejected (reason : String)
  /-- The query cannot be read. -/
  | brokenQuery
  deriving DecidableEq, Repr

/-- What is said of a refusal. -/
def Refusal.message : Refusal → String
  | unavailable language => "no structural parser available for " ++ language
  | rejected reason => "source rejected: " ++ reason
  | brokenQuery => "invalid query"

/-- A parser for one language and query. -/
structure StructuralParser where
  language : String
  available : Bool
  parse : List UInt8 → Except Refusal (List Occurrence)

/-- The parser of a language without a grammar. -/
def StructuralParser.missing (language : String) : StructuralParser :=
  ⟨language, false, fun _ => .error (.unavailable language)⟩

end ArchSurvey.Grammar
