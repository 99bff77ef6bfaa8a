import ArchSurvey.Grammar.Parse

/-!
# The grammar of Go

A line end ends a statement wherever a statement may end, and is a blank anywhere else; between
brackets no statement may end.  Statements and declarations may stand in any order, and so may
types wherever values may.
-/

namespace ArchSurvey.Grammar.Go

open Text Rule

/-- The constructs that occur within others.  A brace after an expression `inHeader` starts the
block of a statement and not a literal. -/
inductive Construct where
  | type
  | expression (inHeader : Bool)
  | operand (inHeader : Bool)
  | simple (inHeader : Bool)
  | literal
  | statement
  | block
  deriving DecidableEq, Repr

/-- A letter or an underscore. -/
def isFirst (c : Char) : Bool :=
  isWordChar c && !isDigit c

/-- The words that are no names. -/
def reserved : List (List Char) :=
  ["break", "case", "chan", "const", "continue", "default", "defer", "else", "fallthrough", "for",
    "func", "go", "goto", "if", "import", "interface", "map", "package", "range", "return",
    "select", "struct", "switch", "type", "var"].map String.toList

/-- What words and blanks look like. -/
def lexis : Lexis where
  blank := .run isAsciiSpace
  comment := (Scan.toLineEnd "//".toList).orElse (.between "/*".toList "*/".toList false)
  signs := ["<<=", ">>=", "&^=", "...", "&&", "||", "<-", "++", "--", "==", "!=", "<=", ">=",
    ":=", "+=", "-=", "*=", "/=", "%=", "&=", "|=", "^=", "<<", ">>", "&^"].map String.toList
  isWordChar := isWordChar
  endsLines := false

/-- A name of some kind. -/
def name (kind : Kind) : Rule Construct :=
  leaf kind (.word isFirst isWordChar reserved)

/-- A name of a value or of a type. -/
def identifier : Rule Construct :=
  name .identifier

/-- An expression in which braces are free. -/
def expression : Rule Construct :=
  .part (.expression false)

/-- A type. -/
def type : Rule Construct :=
  .part .type

/-- A block of statements. -/
def block : Rule Construct :=
  .part .block

/-- A string in which escapes are read. -/
def interpreted : Rule Construct :=
  leaf .interpretedString (.quoted '"')

/-- A string. -/
def anyString : Rule Construct :=
  .any [interpreted, leaf .expression (.raw '\x60')]

/-- Where a statement may end. -/
def terminator : Rule Construct :=
  .any [";", .lineEnd, .ahead "\x7d", .ahead ")"]

/-- Something as often as it occurs, each time with the end of a statement after it. -/
def terminated (rule : Rule Construct) : Rule Construct :=
  .many (.any [";", .all [rule, terminator]])

/-- Something between parentheses or brackets. -/
def bracketed (opening closing : String) (rule : Rule Construct) : Rule Construct :=
  .all [opening, .within true (.all [rule, closing])]

/-- A group of what ends like statements. -/
def group (opening closing : String) (rule : Rule Construct) : Rule Construct :=
  .all [opening, .within false (.all [terminated rule, closing])]

/-- Several expressions. -/
def expressions (inHeader : Bool) : Rule Construct :=
  .node .expressionList (separated "," (.part (.expression inHeader)))

/-- The parameters of a function. -/
def parameters : Rule Construct :=
  let variadic : Rule Construct := .all [maybe "...", type]
  .node .parameters
    (bracketed "(" ")" (commasEnd (.any [.all [identifier, variadic], variadic])))

/-- The parameters and results of a function. -/
def signature : Rule Construct :=
  .all [parameters, maybe (.all [sameLine, .any [parameters, type]])]

/-- What a type must be one of. -/
def constraint : Rule Construct :=
  separated "|" (.all [maybe "~", type])

/-- The type parameters of a declaration. -/
def typeParameters : Rule Construct :=
  bracketed "[" "]" (.all [separated "," (.all [identifier, maybe constraint]), maybe ","])

/-- The types that a generic type is applied to. -/
def typeArguments : Rule Construct :=
  .all [sameLine, bracketed "[" "]" (.all [separated "," type, maybe ","])]

/-- A type that has a name. -/
def namedType : Rule Construct :=
  .all [identifier, maybe (.all [".", name .fieldName]), maybe typeArguments]

/-- A field of a structure. -/
def field : Rule Construct :=
  .all [
    .any [
      .all [separated "," identifier, sameLine, type],
      .all [maybe "*", namedType]],
    maybe (.all [sameLine, anyString])]

/-- A member of an interface. -/
def member : Rule Construct :=
  .any [.all [identifier, signature], constraint]

/-- A type that starts as no expression does. -/
def literalType : Rule Construct :=
  .any [
    .all [bracketed "[" "]" (maybe (.any ["...", expression])), type],
    .all ["map", bracketed "[" "]" type, type],
    .all ["chan", maybe "<-", type],
    .all ["<-", "chan", type],
    .all ["struct", group "\x7b" "\x7d" field],
    .all ["interface", group "\x7b" "\x7d" member]]

/-- The type of a function. -/
def functionType : Rule Construct :=
  .all ["func", signature]

/-- What an expression is made of, without what may follow it. -/
def base (inHeader : Bool) : Rule Construct :=
  let named : List (Rule Construct) :=
    if inHeader then [] else [.node .expression (.all [namedType, .part .literal])]
  .any (
    [.node .expression (.all [functionType, maybe (.all [sameLine, block])]),
      .node .expression (.all [literalType, maybe (.part .literal)])] ++ named ++
    [identifier, leaf .expression .number, anyString, leaf .expression (.quoted '\''),
      .node .expression (bracketed "(" ")" (.any [expression, type]))])

/-- The arguments of a call. -/
def arguments : Rule Construct :=
  .node .arguments
    (bracketed "(" ")" (commasEnd (.all [expression, maybe "..."])))

/-- What stands between the brackets after an expression. -/
def index : Rule Construct :=
  .any [
    .all [expression, .many (.all [words [":", ","], maybe expression])],
    .all [":", maybe expression, maybe (.all [":", maybe expression])]]

/-- What may follow an expression and belong to it. -/
def suffix : Rule Construct :=
  .all [sameLine, .any [
    .node .call arguments,
    .node .member (.all [".", name .fieldName]),
    .node .expression (.all [".", bracketed "(" ")" (.any ["type", type])]),
    .node .expression (bracketed "[" "]" index)]]

/-- The operators between two values. -/
def operator : Rule Construct :=
  words ["||", "&&", "==", "!=", "<", "<=", ">", ">=", "+", "-", "|", "^", "*", "/", "%", "<<",
    ">>", "&", "&^"]

/-- What makes a statement of some expressions. -/
def effect (inHeader : Bool) : Rule Construct :=
  .any [
    .node .shortDeclaration (.all [":=", expressions inHeader]),
    .node .statement (.all [
      words ["=", "+=", "-=", "*=", "/=", "%=", "&=", "|=", "^=", "<<=", ">>=", "&^="],
      expressions inHeader]),
    .all [sameLine, .node .statement (words ["++", "--"])],
    .all [sameLine, .node .statement (.all ["<-", .part (.expression inHeader)])]]

/-- A simple statement in the header of another. -/
def headerSimple : Rule Construct :=
  .part (.simple true)

/-- The header of a loop. -/
def loop : Rule Construct :=
  .any [
    .all [maybe (.all [expressions true, words [":=", "="]]), "range", .part (.expression true)],
    .all [maybe headerSimple, ";", maybe (.part (.expression true)), ";", maybe headerSimple],
    .part (.expression true),
    nothing]

/-- The header of a choice between values or types. -/
def choice : Rule Construct :=
  .any [.all [maybe headerSimple, ";", maybe headerSimple], headerSimple, nothing]

/-- The header of a condition. -/
def condition : Rule Construct :=
  .any [
    .all [headerSimple, maybe (.all [";", .part (.expression true)])],
    .all [";", .part (.expression true)]]

/-- What to do in one of several cases. -/
def clause : Rule Construct :=
  .node .statement (.all [
    .any [.all ["case", .any [.part (.simple false), separated "," type]], "default"],
    ":", terminated (.part .statement)])

/-- The cases of a choice. -/
def clauses : Rule Construct :=
  .all ["\x7b", .within false (.all [.many clause, "\x7d"])]

/-- One declaration or a group of them after a word. -/
def declaration (word : String) (rule : Rule Construct) : Rule Construct :=
  .all [word, .any [group "(" ")" rule, rule]]

/-- The names, type and values of variables. -/
def variableSpec : Rule Construct :=
  .all [separated "," identifier, maybe (.all [sameLine, type]),
    maybe (.all ["=", expressions false])]

/-- A type with a name, new or not. -/
def namedTypeDeclaration : Rule Construct :=
  .all [identifier, maybe typeParameters, maybe "=", type]

/-- A package that is used. -/
def imported : Rule Construct :=
  .all [maybe (.any [".", identifier]), anyString]

/-- A name after a word of the same line. -/
def label : Rule Construct :=
  maybe (.all [sameLine, identifier])

/-- A function or method. -/
def function : Rule Construct :=
  .all ["func",
    .any [.all [identifier, maybe typeParameters], .all [parameters, identifier]],
    signature, maybe (.all [sameLine, block])]

/-- The statements that start with a word of their own. -/
def statements : List (Rule Construct) :=
  [block,
    .node .packageClause (.all ["package", name .packageName]),
    .node .statement (declaration "import" imported),
    .node .statement (declaration "const" variableSpec),
    .node .statement (declaration "var" variableSpec),
    .node .statement (declaration "type" namedTypeDeclaration),
    .node .function function,
    .node .statement (.all ["return", maybe (.all [sameLine, expressions false])]),
    .node .statement (.all [words ["break", "continue"], label]),
    .node .statement (.all ["goto", identifier]),
    .node .statement "fallthrough",
    .node .statement (.all [words ["go", "defer"], expression]),
    .node .statement (.all ["if", condition, block,
      maybe (.all [sameLine, "else", .any [.all [.ahead "if", .part .statement], block]])]),
    .node .statement (.all ["for", loop, block]),
    .node .statement (.all ["switch", choice, clauses]),
    .node .statement (.all ["select", clauses]),
    .node .statement (.all [identifier, ":", maybe (.part .statement)])]

/-- The rule of each construct. -/
def rule : Construct → Rule Construct
  | .type =>
      .node .type (.any [
        .all ["*", type], bracketed "(" ")" type, functionType, literalType, namedType])
  | .expression inHeader =>
      .extend .expression (.part (.operand inHeader))
        (.many (.all [sameLine, operator, .part (.operand inHeader)]))
  | .operand inHeader =>
      .any [
        .grow (base inHeader) suffix,
        .node .expression (.all [words ["+", "-", "!", "^", "*", "&", "<-"],
          .part (.operand inHeader)])]
  | .simple inHeader => .grow (expressions inHeader) (effect inHeader)
  | .literal =>
      let element : Rule Construct := .any [.part .literal, expression]
      .node .expression (bracketed "\x7b" "\x7d"
        (commasEnd (.all [element, maybe (.all [":", element])])))
  | .statement => .any (statements ++ [.part (.simple false)])
  | .block => .node .statement (group "\x7b" "\x7d" (.part .statement))

end Go

/-- The grammar of Go. -/
def go : Rules Go.Construct where
  lexis := Go.lexis
  rule := Go.rule
  source := Go.terminated (.part .statement)

end ArchSurvey.Grammar
