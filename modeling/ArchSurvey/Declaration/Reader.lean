import ArchSurvey.Declaration.Note

/-!
# Reading declarations

Splits the source of a class-based language into declarations at braces and semicolons outside
strings, comments and parentheses, and tells classes, methods and fields apart.  Each member is
known by the class that it is declared in; what stands in the body of a method is passed over.
-/

namespace ArchSurvey.Declaration

open Text
open Text.Pattern (concat oneOf opt literal group many some1 fewest1 blanks blanks1 noneOf textStart
  textEnd any is wordChar char)

/-- What is declared. -/
inductive Member where
  | type (keyword name : String)
  | method (returnType name : String) (parameters : List Char)
  | field (type name : String)
  deriving DecidableEq, Repr

/-- A declaration with what stands in front of it. -/
structure Declared where
  annotations : List Note
  modifiers : List String
  member : Member
  /-- The name of the class that it is declared in. -/
  enclosing : Option String
  line : Nat
  deriving DecidableEq, Repr

/-- The annotation of a declaration with a name. -/
def Declared.note? (declared : Declared) (name : String) : Option Note :=
  declared.annotations.find? fun note => note.name == name

/-- The clause that names the package. -/
def packageClause : Pattern :=
  concat
    [textStart, literal "package", blanks1, some1 (oneOf [wordChar, is '.']), textEnd]

/-- A type: its keyword in group 1 and its name in group 2. -/
def typeHead : Pattern :=
  concat
    [textStart,
      group 1 (oneOf (["class", "interface", "enum", "record", "@interface"].map literal)), blanks1,
      group 2 (some1 wordChar)]

/-- The type of a method or field, as short as possible, in group 1. -/
def memberType : Pattern :=
  group 1 (fewest1 (char fun c => isWordChar c || ".<>[],? ".toList.contains c))

/-- A method: its type, name and parameters in groups 1 to 3. -/
def methodHead : Pattern :=
  concat
    [textStart, opt (concat [is '<', many (noneOf ">"), is '>', blanks]), memberType, blanks1,
      group 2 (some1 wordChar), blanks, is '(', group 3 (many any), is ')', blanks,
      opt (concat
        [literal "throws", blanks1,
          some1 (char fun c => isWordChar c || c == '.' || c == ',' || isBlank c)]),
      textEnd]

/-- A field: its type and name in groups 1 and 2. -/
def fieldHead : Pattern :=
  concat
    [textStart, memberType, blanks1, group 2 (some1 wordChar), blanks,
      opt (.seq (is '=') (many any)), textEnd]

/-- What a text without annotations and modifiers declares; a field needs a class around it. -/
def memberOf (inClass : Bool) (text : List Char) : Option Member :=
  match typeHead.search text with
  | some found => some (.type (found.groupString 1) (found.groupString 2))
  | none =>
      match methodHead.search text with
      | some found =>
          some (.method (String.ofList (trim (found.group 1))) (found.groupString 2)
            (trim (found.group 3)))
      | none =>
          match fieldHead.search text with
          | some found =>
              if inClass then
                some (.field (String.ofList (trim (found.group 1))) (found.groupString 2))
              else none
          | none => none

/-- The declaration that a piece of source is, if it is one. -/
def declaredBy (piece : List Char) (enclosing : Option String) (line : Nat) : Option Declared :=
  if piece.isEmpty || packageClause.occurs piece || startsWith "import ".toList piece then none
  else
    let heading := Heading.ofText piece
    (memberOf enclosing.isSome (trim heading.rest)).map fun member =>
      { annotations := heading.annotations
        modifiers := heading.modifiers
        member
        enclosing
        line }

/-- What an open brace belongs to. -/
inductive Scope where
  | type (name : String)
  | block
  deriving DecidableEq, Repr

/-- What is known after some of a source: the open braces, innermost first; the piece being read,
last character first, with the line of its first character; the current line; the parentheses open
in the piece; and the declarations, latest first. -/
structure State where
  scopes : List Scope := []
  piece : List Char := []
  pieceLine : Nat := 1
  line : Nat := 1
  depth : Int := 0
  found : List Declared := []
  deriving DecidableEq, Repr

namespace State

/-- Adds a character to the piece being read. -/
def push (state : State) (c : Char) : State :=
  { state with piece := c :: state.piece }

/-- Counts a line feed. -/
def countLine (state : State) (c : Char) : State :=
  if c == '\n' then { state with line := state.line + 1 } else state

/-- Takes the line of the first character of a piece. -/
def markLine (state : State) (c : Char) : State :=
  if state.piece.all isBlank && !isBlank c then { state with pieceLine := state.line } else state

/-- Ends the piece being read and keeps the declaration that it is; only members of types and types
themselves count. -/
def finish (state : State) : Option Declared × State :=
  let declared :=
    match state.scopes with
    | [] => declaredBy (trim state.piece.reverse) none state.pieceLine
    | .type name :: _ => declaredBy (trim state.piece.reverse) (some name) state.pieceLine
    | .block :: _ => none
  (declared, { state with piece := [], depth := 0, found := declared.toList ++ state.found })

/-- What the brace after a declaration belongs to; the body of an enumeration counts as a block. -/
def scopeOf : Option Declared → Scope
  | some { member := .type keyword name, .. } => if keyword == "enum" then .block else .type name
  | _ => .block

/-- Opens a brace. -/
def openBrace (state : State) : State :=
  let (declared, state) := state.finish
  { state with scopes := scopeOf declared :: state.scopes }

/-- Ends a statement. -/
def endStatement (state : State) : State :=
  state.finish.2

/-- Closes a brace. -/
def closeBrace (state : State) : State :=
  { state with scopes := state.scopes.drop 1, piece := [] }

/-- Reads one character outside comments and literals. -/
def step (state : State) (c : Char) : State :=
  let state := (state.countLine c).markLine c
  if c == '(' then { state.push c with depth := state.depth + 1 }
  else if c == ')' then { state.push c with depth := state.depth - 1 }
  else if 0 < state.depth then state.push c
  else if c == '\x7b' then state.openBrace
  else if c == ';' then state.endStatement
  else if c == '\x7d' then state.closeBrace
  else state.push c

end State

/-- Where in a source a reader is. -/
inductive Place where
  | code
  | lineComment
  | blockComment
  /-- In a literal that ends with the given quote. -/
  | literal (quote : Char)
  deriving DecidableEq, Repr

/-- Reads a source from a place in it. -/
def readFrom : Place → State → List Char → State
  | .literal quote, state, [] => state.push quote
  | _, state, [] => state
  | .lineComment, state, c :: rest =>
      if c == '\n' then readFrom .code (state.step c) rest else readFrom .lineComment state rest
  | .blockComment, state, '*' :: '/' :: rest => readFrom .code state rest
  | .blockComment, state, c :: rest => readFrom .blockComment (state.countLine c) rest
  | .literal quote, state, '\\' :: c :: rest =>
      readFrom (.literal quote) (((state.push '\\').countLine c).push c) rest
  | .literal quote, state, c :: rest =>
      if c == quote then readFrom .code (state.push quote) rest
      else readFrom (.literal quote) ((state.countLine c).push c) rest
  | .code, state, '/' :: '/' :: rest => readFrom .lineComment state rest
  | .code, state, '/' :: '*' :: rest => readFrom .blockComment state rest
  | .code, state, c :: rest =>
      if c == '"' || c == '\'' then readFrom (.literal c) (state.push c) rest
      else readFrom .code (state.step c) rest
termination_by _ _ text => text.length

/-- The declarations of a source, in order. -/
def readSource (text : List Char) : List Declared :=
  (readFrom .code {} text).found.reverse

/-- The name of a type that a declaration declares. -/
def Declared.typeName? (declared : Declared) : Option String :=
  match declared.member with
  | .type _ name => some name
  | _ => none

/-- The types among declarations, each with its name. -/
def typesOf (source : List Declared) : List (Declared × String) :=
  source.filterMap fun declared => declared.typeName?.map (declared, ·)

/-- The members declared directly in the types of a name. -/
def membersOf (source : List Declared) (name : String) : List Declared :=
  source.filter fun declared => declared.enclosing == some name

end ArchSurvey.Declaration
