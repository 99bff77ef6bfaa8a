import ArchSurvey.Text.LetterCase

/-!
# Labels and node names

How the texts of a model appear in a diagram: as labels, which stay on one line and inside their
double quotes, and as names of nodes, which are made of ASCII letters, digits and underscores.
-/

namespace ArchSurvey.Diagram

/-- A character as a label shows it. -/
def labelChar (c : Char) : Char :=
  if c == '"' then '\'' else if c == '\n' || c == '\r' then ' ' else c

/-- A text as a label shows it: double quotes become single ones and line ends become blanks. -/
def label (text : String) : String :=
  String.ofList (text.toList.map labelChar)

/-- A label that may be missing. -/
def optionalLabel (text : Option String) : String :=
  label (text.getD "")

/-- A character that the name of a node may hold. -/
def isNodeChar (c : Char) : Bool :=
  Text.isAsciiAlphanumeric c || c == '_'

/-- The name of the node of a text: all that a name may not hold becomes an underscore. -/
def nodeName (text : String) : String :=
  String.ofList (text.toList.map fun c => if isNodeChar c then c else '_')

/-- A text in double quotes. -/
def quoted (text : String) : String :=
  "\"" ++ text ++ "\""

theorem labelChar_ne_quote (c : Char) : labelChar c ≠ '"' := by
  unfold labelChar
  split
  · decide
  · split
    · decide
    · simp_all

theorem labelChar_not_lineEnd (c : Char) : labelChar c ≠ '\n' ∧ labelChar c ≠ '\r' := by
  unfold labelChar
  split
  · decide
  · split
    · decide
    · simp_all

theorem isNodeChar_of_mem_nodeName {c : Char} {text : String}
    (member : c ∈ (nodeName text).toList) : isNodeChar c = true := by
  simp only [nodeName, String.toList_ofList, List.mem_map] at member
  obtain ⟨source, _, rfl⟩ := member
  split
  · assumption
  · decide

end ArchSurvey.Diagram
