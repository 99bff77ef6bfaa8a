import ArchSurvey.Grammar.Go
import ArchSurvey.Grammar.Java
import ArchSurvey.Grammar.Python
import ArchSurvey.Grammar.Query
import ArchSurvey.Grammar.Script.Statements
import ArchSurvey.Text.Utf8

/-!
# Structural parsers

A structural parser reads a source by the grammar of its language and answers a query about the
syntax tree.
-/

namespace ArchSurvey.Grammar

/-- The syntax tree of a source in a language, if it is well-formed. -/
def Language.tree? : Language → List Char → Option Tree
  | .python => Grammar.python.tree?
  | .java => Grammar.java.tree?
  | .javaScript => (script false).tree?
  | .typeScript => (script true).tree?
  | .go => Grammar.go.tree?

/-- The text of a source, without the mark that may stand before it. -/
def sourceText (bytes : List UInt8) : List Char :=
  match Text.Utf8.decodeLossy bytes with
  | '\ufeff' :: rest => rest
  | text => text

/-- How a piece of a source reads: one with bytes that are no text reads as nothing. -/
def reading (bytes : List UInt8) (piece : List Char) : String :=
  if piece.contains '\ufffd' && (Text.Utf8.decode? bytes).isNone then "" else String.ofList piece

namespace Query

/-- The occurrences that a query finds in a syntax tree. -/
def occurrences (query : Query) (reading : List Char → String) (tree : Tree) : List Occurrence :=
  (query.answers tree).filterMap fun answer => answer.occurrence? reading

/-- What a query makes of a source. -/
def read (query : Query) (bytes : List UInt8) : Except Refusal (List Occurrence) :=
  match query.language.tree? (sourceText bytes) with
  | none => .error (.rejected (query.language.name ++ " source has syntax errors"))
  | some tree => .ok (query.occurrences (reading bytes) tree)

/-- The parser that answers a query, if there are grammars. -/
def parser (query : Query) (grammars : Bool) : StructuralParser :=
  if grammars then ⟨query.language.name, true, query.read⟩ else .missing query.language.name

end Query

end ArchSurvey.Grammar
