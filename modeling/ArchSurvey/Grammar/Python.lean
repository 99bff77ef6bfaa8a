import ArchSurvey.Grammar.Parse

/-!
# The grammar of Python

Blocks are told by indentation: the lines of a block are indented as its first line is, or more.
A block may be left out.
-/

namespace ArchSurvey.Grammar.Python

open Text Rule

/-- The constructs that occur within others. -/
inductive Construct where
  | expression
  | operand
  /-- Expressions with commas between. -/
  | sequence
  /-- An expression in the text of a string. -/
  | insertion
  | statement
  deriving DecidableEq, Repr

/-- A letter or an underscore. -/
def isFirst (c : Char) : Bool :=
  isWordChar c && !isDigit c

/-- The words that are no names. -/
def reserved : List (List Char) :=
  ["False", "None", "True", "and", "as", "assert", "break", "class", "continue", "def", "del",
    "elif", "else", "except", "finally", "for", "from", "global", "if", "import", "in", "is",
    "lambda", "nonlocal", "not", "or", "pass", "raise", "return", "try", "while", "with",
    "yield"].map String.toList

/-- The blanks of a line. -/
def isSpace (c : Char) : Bool :=
  isAsciiSpace c || ['\ufeff', '\u2060', '\u200b'].contains c

/-- What words and blanks look like.  A line end after a backslash is a blank. -/
def lexis : Lexis where
  blank := (Scan.run isSpace).orElse
    ((Scan.exactly ['\\', '\n']).orElse (.exactly ['\\', '\r', '\n']))
  comment := .toLineEnd ['#']
  signs := ["**=", "//=", ">>=", "<<=", "...", "->", ":=", "**", "//", ">>", "<<", "==", "!=",
    "<=", ">=", "<>", "+=", "-=", "*=", "/=", "%=", "&=", "|=", "^=", "@="].map String.toList
  isWordChar := isWordChar
  endsLines := true

/-- A name of a value. -/
def identifier : Rule Construct :=
  leaf .identifier (.word isFirst isWordChar reserved)

/-- An expression without commas. -/
def expression : Rule Construct :=
  .part .expression

/-- Expressions with commas between. -/
def sequence : Rule Construct :=
  .part .sequence

/-- Something between brackets. -/
def bracketed (opening closing : String) (rule : Rule Construct) : Rule Construct :=
  .all [opening, .within true (.all [rule, closing])]

/-- The letters before a string that is `formatted` or not. -/
def marks (formatted : Bool) : Scan := fun text =>
  let letters := text.takeWhile fun c =>
    ['r', 'R', 'b', 'B', 'u', 'U', 'f', 'F'].contains c
  if letters.any (fun c => c == 'f' || c == 'F') == formatted && letters.length ≤ 2 then
    some letters.length
  else none

/-- The quotes of strings that may go over several lines. -/
def longQuotes : List (List Char) :=
  [['"', '"', '"'], ['\'', '\'', '\'']]

/-- A string in which nothing is inserted. -/
def plainString : Rule Construct :=
  .any (
    (longQuotes.map fun quote =>
      leaf .string ((marks false).andThen (.between quote quote true))) ++
    ['"', '\''].map fun quote => leaf .string ((marks false).andThen (.quoted quote)))

/-- The number of characters of a string between quotes up to its end or the next insertion.  The
name of a character may stand between braces after a backslash; it is being read if `inName`. -/
def stringRun (quote : List Char) (inName : Bool) (count : Nat) : List Char → Nat
  | [] => count
  | [c] =>
      if quote.contains c || (!inName && c == '\x7b') || (!inName && c == '\x7d') then count
      else count + 1
  | c :: d :: rest =>
      if startsWith quote (c :: d :: rest) then count
      else if c == '\n' && quote.length == 1 then count
      else if inName then stringRun quote (c != '\x7d') (count + 1) (d :: rest)
      else if c == '\\' && d != '\x7b' && d != '\x7d' then
        stringRun quote (d == 'N' && startsWith ['\x7b'] rest) (count + 2) rest
      else if c == '\x7b' || c == '\x7d' then
        if c == d then stringRun quote false (count + 2) rest else count
      else stringRun quote false (count + 1) (d :: rest)

/-- A string in which expressions are inserted. -/
def formattedString : Rule Construct :=
  .any ((longQuotes ++ [['"'], ['\'']]).map fun quote =>
    let chars : Scan := fun text =>
      let count := stringRun quote false 0 text
      if count == 0 then none else some count
    .node .string (.all [
      .scan ((marks true).andThen (.exactly quote)),
      .many (.any [.scan chars, .part .insertion]),
      .scan (.exactly quote)]))

/-- What a name is annotated with. -/
def typing : Rule Construct :=
  .all [":", expression]

/-- A value that is assigned or given by default. -/
def value : Rule Construct :=
  .all ["=", expression]

/-- What can be assigned to in a loop. -/
def target : Rule Construct :=
  .all [maybe "*", .part .operand]

/-- What can be assigned to in a loop, with commas between. -/
def targets : Rule Construct :=
  .all [separated "," target, maybe ","]

/-- The loops and conditions after a value that is made for each turn. -/
def turns : Rule Construct :=
  let loop : Rule Construct :=
    .all [maybe "async", "for", targets, "in", separated "," expression]
  .all [loop, .many (.any [loop, .all ["if", expression]])]

/-- Items with commas between, or one item that is made for each turn. -/
def items (item : Rule Construct) : Rule Construct :=
  maybe (.all [
    .extend .generator item (maybe turns), .many (.all [",", item]), maybe ","])

/-- An expression, or one for each of several values. -/
def starred : Rule Construct :=
  .all [maybe "*", expression]

/-- The giving of values to the caller. -/
def yielding : Rule Construct :=
  .all ["yield", .any [.all ["from", expression], maybe sequence]]

/-- What is assigned. -/
def assigned : Rule Construct :=
  .any [.node .expression yielding, sequence]

/-- The arguments of a call. -/
def arguments : Rule Construct :=
  let argument : Rule Construct := .any [
    .all [words ["**", "*"], expression], .all [identifier, "=", expression], expression]
  .node .arguments (bracketed "(" ")" (items argument))

/-- An index or a range of them. -/
def subscript : Rule Construct :=
  let range : Rule Construct := .many (.all [":", maybe expression])
  let one : Rule Construct := .any [.all [.ahead ":", range], .all [starred, range]]
  .node .expression (bracketed "[" "]" (.all [separated "," one, maybe ","]))

/-- What an expression is made of, without what may follow it. -/
def base : Rule Construct :=
  let entry : Rule Construct := .any [
    .all ["**", expression], .all [expression, ":", expression]]
  .any [
    .node .string (several (.any [plainString, formattedString])),
    leaf .expression .number,
    .node .expression (words ["True", "False", "None", "..."]),
    identifier,
    .node .expression (bracketed "(" ")" (.any [yielding, items starred])),
    .node .expression (bracketed "[" "]" (items starred)),
    .node .expression (bracketed "\x7b" "\x7d" (items entry)),
    .node .expression (bracketed "\x7b" "\x7d" (items starred))]

/-- What may follow an expression and belong to it. -/
def suffix : Rule Construct :=
  .any [
    .node .call arguments,
    .node .member (.all [".", leaf .property (.word isFirst isWordChar [])]),
    subscript]

/-- A parameter of a function; `typed` if its type may be given. -/
def parameter (typed : Rule Construct) : Rule Construct :=
  .any [
    .all ["**", identifier, typed],
    .all ["*", maybe (.all [identifier, typed])],
    "/",
    .all [.any [identifier, bracketed "(" ")" targets], typed, maybe value]]

/-- A function without a name. -/
def function : Rule Construct :=
  .node .expression (.all ["lambda", commasEnd (parameter nothing), ":", expression])

/-- What may follow an operand in an expression. -/
def operation : Rule Construct :=
  let operator : Rule Construct := .any [
    words ["or", "and", "in", "<", ">", "==", "!=", "<=", ">=", "<>", "|", "^", "&", "<<", ">>",
      "+", "-", "*", "/", "//", "%", "@", "**"],
    .all ["not", "in"], .all ["is", maybe "not"]]
  .any [
    .all [operator, .part .operand],
    .all ["if", expression, "else", expression],
    .all [":=", expression],
    .all ["as", .part .operand]]

/-- A name with others before it. -/
def dotted : Rule Construct :=
  separated "." identifier

/-- A name that is taken from elsewhere, and how it is called here. -/
def taken : Rule Construct :=
  .all [dotted, maybe (.all ["as", identifier])]

/-- What is taken from a module. -/
def takingFrom : Rule Construct :=
  .all ["from", .many (.glued ['.']), maybe dotted, "import", .any [
    "*",
    bracketed "(" ")" (.all [separated "," taken, maybe ","]),
    .all [separated "," taken, maybe ","]]]

/-- The variables of a generic declaration. -/
def typeParameters : Rule Construct :=
  bracketed "[" "]" (commasEnd (.all [maybe (words ["**", "*"]), identifier, maybe typing,
    maybe value]))

/-- A statement on one line, without its end. -/
def simple : Rule Construct :=
  let assignment : Rule Construct := words ["=", "+=", "-=", "*=", "/=", "//=", "%=", "**=",
    ">>=", "<<=", "&=", "|=", "^=", "@="]
  .any [
    .all ["import", separated "," taken],
    takingFrom,
    .all ["return", maybe sequence],
    .all ["raise", maybe sequence, maybe (.all ["from", expression])],
    .all [words ["assert", "del"], sequence],
    words ["pass", "break", "continue"],
    .all [words ["global", "nonlocal"], separated "," identifier],
    .all ["type", identifier, maybe typeParameters, "=", expression],
    .all [words ["print", "exec"], maybe ">>", sequence, .ahead (.any [";", .lineEnd])],
    .all [assigned, maybe typing, .many (.all [assignment, assigned])]]

/-- Statements on one line. -/
def line : Rule Construct :=
  .node .statement (.all [separated ";" simple, maybe ";", .lineEnd])

/-- What a compound statement does: statements on the same line, or a block. -/
def suite : Rule Construct :=
  .all [":", .any [.all [.lineEnd, .indented (.part .statement)], line]]

/-- A line that goes on with a compound statement. -/
def furtherLine (rule : Rule Construct) : Rule Construct :=
  .line (.all [rule, suite])

/-- What else a compound statement does. -/
def otherwise : Rule Construct :=
  maybe (furtherLine "else")

/-- The definition of a function. -/
def functionDefinition : Rule Construct :=
  .node .function (.all [maybe "async", "def", identifier, maybe typeParameters,
    .node .parameters (bracketed "(" ")" (commasEnd (parameter (maybe typing)))),
    maybe (.all ["->", expression]), suite])

/-- The definition of a class. -/
def classDefinition : Rule Construct :=
  .node .statement (.all ["class", identifier, maybe typeParameters, maybe arguments, suite])

/-- A definition after decorators on lines of their own. -/
def decoratedDefinition : Rule Construct :=
  let decorator : Rule Construct := .all [.node .decorator (.all ["@", expression]), .lineEnd]
  .node .decorated (.all [decorator, .many (.line decorator),
    .line (.any [functionDefinition, classDefinition])])

/-- A case of a choice. -/
def clause : Rule Construct :=
  .node .statement (.all ["case", sequence, maybe (.all ["if", expression]), suite])

/-- The rule of a statement. -/
def statementRule : Rule Construct :=
  .any ([functionDefinition, classDefinition, decoratedDefinition] ++ ([
    .all ["if", expression, suite, .many (furtherLine (.all ["elif", expression])), otherwise],
    .all [maybe "async", "for", targets, "in", sequence, suite, otherwise],
    .all ["while", expression, suite, otherwise],
    .all ["try", suite,
      .many (furtherLine (.all ["except", maybe "*",
        maybe (.all [expression, maybe (.all [",", expression])])])),
      otherwise, maybe (furtherLine "finally")],
    .all [maybe "async", "with", separated "," expression, suite],
    .all ["match", sequence, ":", .lineEnd, .indented clause]]).map (.node .statement) ++ [line])

/-- The rule of each construct. -/
def rule : Construct → Rule Construct
  | .expression => .extend .expression (.part .operand) (.many operation)
  | .operand =>
      .any [
        .node .expression (.all [words ["not", "-", "+", "~", "await"], .part .operand]),
        function,
        .grow base suffix]
  | .sequence =>
      .extend .expression starred (.all [.many (.all [",", starred]), maybe ","])
  | .insertion =>
      let spec : Rule Construct := .many (.any [
        .scan (.run fun c => !(['\x7b', '\x7d', '\n', '"', '\''].contains c)), .part .insertion])
      .node .expression (.all [.scan (.exactly ['\x7b']),
        .within true (.all [assigned, maybe "=",
          maybe (.all ["!", identifier]), maybe (.all [.glued [':'], spec]), "\x7d"])])
  | .statement => statementRule

end Python

/-- The grammar of Python. -/
def python : Rules Python.Construct where
  lexis := Python.lexis
  rule := Python.rule
  source := .many (.line (.part .statement))

end ArchSurvey.Grammar
