import ArchSurvey.Grammar.Parse
import ArchSurvey.Text.Split

/-!
# Words and types of scripts

The lexis that JavaScript and TypeScript have in common, and the constructs of their grammars; the
grammar of types, and of what a declaration may say of types.
-/

namespace ArchSurvey.Grammar.Script

open Text Rule

/-- The constructs that occur within others. -/
inductive Construct where
  | type
  | objectType
  | expression
  | operand
  /-- Expressions with commas between. -/
  | sequence
  | pattern
  /-- What `new` is applied to. -/
  | constructed
  | element
  | statement
  | block
  deriving DecidableEq, Repr

/-- The blanks of a line. -/
def isSpace (c : Char) : Bool :=
  c != '\n' && (isBlank c || ['\ufeff', '\u2060', '\u200b'].contains c)

/-- A character that a name can start with. -/
def isFirst (c : Char) : Bool :=
  if c.toNat < 128 then isAsciiAlphanumeric c && !isAsciiDigit c || c == '_' || c == '$'
  else !isSpace c

/-- A character that a name can go on with. -/
def isOther (c : Char) : Bool :=
  isFirst c || isAsciiDigit c

/-- The words that are no names. -/
def reserved : List (List Char) :=
  ["break", "case", "catch", "class", "const", "continue", "debugger", "default", "delete", "do",
    "else", "export", "extends", "false", "finally", "for", "function", "if", "import", "in",
    "instanceof", "new", "null", "return", "super", "switch", "this", "throw", "true", "try",
    "typeof", "undefined", "var", "void", "while", "with"].map String.toList

/-- What words and blanks look like. -/
def lexis : Lexis where
  blank := .run isSpace
  comment := (Scan.toLineEnd "//".toList).orElse (.between "/*".toList "*/".toList false)
  signs := [">>>=", "...", "===", "!==", "**=", "<<=", ">>=", ">>>", "&&=", "||=", "??=", "=>",
    "==", "!=", "<=", ">=", "&&", "||", "??", "?.", "++", "--", "+=", "-=", "*=", "/=", "%=", "&=",
    "|=", "^=", "<<", ">>", "**"].map String.toList
  isWordChar := isOther
  endsLines := false

/-- A name of a value or of a type. -/
def identifier : Rule Construct :=
  leaf .identifier (.word isFirst isOther reserved)

/-- A name that selects something; it may be any word. -/
def property : Rule Construct :=
  leaf .property (.word isFirst isOther [])

/-- A name that only the class itself knows. -/
def privateName : Rule Construct :=
  leaf .expression ((Scan.exactly ['#']).andThen (.word isFirst isOther []))

/-- The characters of a string on one line; a line end belongs to it after a backslash. -/
def string : Rule Construct :=
  leaf .string ((Scan.quoted '\'').orElse (.quoted '"'))

/-- A type. -/
def type : Rule Construct :=
  .part .type

/-- An expression without commas. -/
def expression : Rule Construct :=
  .part .expression

/-- Expressions with commas between. -/
def sequence : Rule Construct :=
  .part .sequence

/-- A statement. -/
def statement : Rule Construct :=
  .part .statement

/-- A block of statements. -/
def block : Rule Construct :=
  .part .block

/-- Where a statement may end: at a semicolon, before a brace, and wherever nothing more of it
follows on the line. -/
def semicolon : Rule Construct :=
  .any [";", .lineEnd, .ahead "\x7d"]

/-- The number of characters of a template up to its end or the next substitution. -/
def templateRun (count : Nat) : List Char → Nat
  | [] => count
  | [c] => if c == '\x60' || c == '\\' then count else count + 1
  | c :: d :: rest =>
      if c == '\x60' || (c == '$' && d == '\x7b') then count
      else if c == '\\' then templateRun (count + 2) rest
      else templateRun (count + 1) (d :: rest)

/-- A text with substitutions. -/
def template (substitution : Rule Construct) : Rule Construct :=
  let chars : Scan := fun text =>
    let count := templateRun 0 text
    if count == 0 then none else some count
  let quote : Rule Construct := .scan (.exactly ['\x60'])
  .node .expression (.all [quote,
    .many (.any [
      .scan chars,
      .all [.scan (.exactly ['$', '\x7b']), substitution, "\x7d"]]),
    quote])

/-- The number of characters of a regular expression up to and including the slash that ends
it. -/
def patternRun (inClass : Bool) (count : Nat) : List Char → Option Nat
  | [] => none
  | [c] => if c == '/' && !inClass then some (count + 1) else none
  | c :: d :: rest =>
      if c == '\n' then none
      else if c == '\\' then
        if d == '\n' then none else patternRun inClass (count + 2) rest
      else if c == '[' then patternRun true (count + 1) (d :: rest)
      else if c == ']' then patternRun false (count + 1) (d :: rest)
      else if c == '/' && !inClass then some (count + 1)
      else patternRun inClass (count + 1) (d :: rest)

/-- A regular expression. -/
def regularExpression : Rule Construct :=
  let slashes : Scan := fun text =>
    match text with
    | '/' :: rest => patternRun false 1 rest
    | _ => none
  leaf .expression (slashes.andThen (Scan.optional (.run isOther)))

/-- Something or nothing, with commas between each two. -/
def elided (rule : Rule Construct) : Rule Construct :=
  separated "," (maybe rule)

/-- A rule that typed sources know, or nothing. -/
def ifTyped (typed : Bool) (rule : Rule Construct) : Rule Construct :=
  if typed then maybe rule else nothing

/-- Some of the rules are for typed sources only. -/
def anyOf (typed : Bool) (rules typedRules : List (Rule Construct)) : Rule Construct :=
  .any (if typed then typedRules ++ rules else rules)

/-! ## Types -/

/-- The types that something generic is applied to. -/
def typeArguments : Rule Construct :=
  .node .type (.all ["<", separated "," type, maybe ",", .glued ['>']])

/-- The variables of a generic declaration. -/
def typeParameters : Rule Construct :=
  .node .type (.all ["<",
    separated "," (.all [maybe "const", identifier, maybe (.all ["extends", type]),
      maybe (.all ["=", type])]),
    maybe ",", .glued ['>']])

/-- What a function gives: a value of a type, or a fact about an argument. -/
def result : Rule Construct :=
  let subject : Rule Construct := .any ["this", identifier]
  .any [
    .all ["asserts", sameLine, subject, maybe (.all ["is", type])],
    .all [subject, sameLine, "is", type],
    type]

/-- What a declaration says of the type of a name. -/
def typing : Rule Construct :=
  .all [":", type]

/-- What a declaration says of the type of a result. -/
def resultTyping : Rule Construct :=
  .all [":", result]

/-- The name of a property, which may be computed. -/
def propertyName : Rule Construct :=
  .any [property, privateName, string, leaf .expression .number,
    .node .expression (.all ["[", expression, "]"])]

/-- A word that says something of a member, provided that a member follows. -/
def modifier (texts : List String) : Rule Construct :=
  .all [words texts, .ahead (.any [propertyName, "*"])]

/-- A binding of a value to the names of a pattern, which may have a value of its own. -/
def binding : Rule Construct :=
  .all [.part .pattern, maybe (.all ["=", expression])]

/-- A parameter of a function. -/
def parameter (typed : Bool) : Rule Construct :=
  .all [
    if typed then
      .many (.all [words ["public", "private", "protected", "readonly", "override"],
        .ahead (.any [identifier, "\x7b", "["])])
    else nothing,
    maybe "...", anyOf typed [.part .pattern] ["this"],
    ifTyped typed "?", ifTyped typed typing, maybe (.all ["=", expression])]

/-- A member of an object type. -/
def typeMember (parameters : Rule Construct) : Rule Construct :=
  let sign : Rule Construct := maybe (words ["+", "-"])
  let signature : Rule Construct := .all [maybe typeParameters, parameters, maybe resultTyping]
  .any [
    .all [maybe (.all [sign, "readonly"]), "[", identifier,
      .any [typing, .all ["in", type, maybe (.all ["as", type])]], "]", sign, maybe "?",
      maybe typing],
    .all [maybe "new", signature],
    .all [.many (modifier ["readonly", "get", "set"]), propertyName, maybe "?",
      .any [signature, maybe typing]]]

/-- A type that consists of one word, of what stands between brackets, or of a name. -/
def simpleType (parameters : Rule Construct) : Rule Construct :=
  let item : Rule Construct :=
    .all [maybe "...", .any [.all [identifier, maybe "?", typing], .all [type, maybe "?"]]]
  let name : Rule Construct :=
    .all [identifier, .many (.all [".", property]), maybe (.all [sameLine, typeArguments])]
  .any [
    .all [maybe "abstract", maybe "new", maybe typeParameters, parameters, "=>", result],
    .all ["(", type, ")"],
    .all ["[", commasEnd item, "]"],
    .part .objectType,
    string, .all [maybe "-", leaf .expression .number], template type,
    words ["void", "null", "undefined", "this", "true", "false"],
    .all ["typeof", .any [.all ["import", "(", type, ")"], "this", identifier],
      .many (.all [".", .any [property, privateName]]), maybe (.all [sameLine, typeArguments])],
    .all ["import", "(", type, ")", .many (.all [".", property]), maybe typeArguments],
    name]

/-- A type that is no union, intersection or choice. -/
def elementType (parameters : Rule Construct) : Rule Construct :=
  let operator : Rule Construct :=
    .all [words ["keyof", "unique", "readonly"], .ahead type]
  .any [
    .all ["infer", identifier, maybe (.all ["extends", type])],
    .all [.many operator, simpleType parameters,
      .many (.all [sameLine, "[", maybe type, "]"])]]

/-- A type. -/
def typeRule (parameters : Rule Construct) : Rule Construct :=
  let members : Rule Construct := separated "&" (elementType parameters)
  let alternatives : Rule Construct :=
    .all [maybe "|", separated "|" (.all [maybe "&", members])]
  .node .type (.all [alternatives,
    maybe (.all [sameLine, "extends", alternatives, "?", type, ":", type])])

/-- A type of objects, by their members. -/
def objectTypeRule (parameters : Rule Construct) : Rule Construct :=
  .node .type (.all ["\x7b",
    .many (.all [typeMember parameters, .any [",", semicolon]]), "\x7d"])

end ArchSurvey.Grammar.Script
