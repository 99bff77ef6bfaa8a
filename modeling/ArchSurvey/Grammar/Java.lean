import ArchSurvey.Grammar.Parse

/-!
# The grammar of Java

Statements and methods may stand outside of classes.
-/

namespace ArchSurvey.Grammar.Java

open Text Rule

/-- The constructs that occur within others. -/
inductive Construct where
  | note
  | value
  | type
  /-- An expression, which may be or contain functions or not. -/
  | expression (functions : Bool)
  | operand (functions : Bool)
  | pattern
  | arrayItems
  | member
  | statement
  | block
  deriving DecidableEq, Repr

/-- A character that a name can start with. -/
def isFirst (c : Char) : Bool :=
  (isWordChar c && !isDigit c) || c == '$'

/-- A character that a name can go on with. -/
def isOther (c : Char) : Bool :=
  isWordChar c || c == '$'

/-- The types of numbers and truth values. -/
def primitives : List String :=
  ["boolean", "byte", "char", "double", "float", "int", "long", "short"]

/-- The words that are no names. -/
def reserved : List (List Char) :=
  (primitives ++ ["abstract", "assert", "break", "case", "catch", "class", "continue", "default",
    "do", "else", "enum", "extends", "false", "final", "finally", "for", "if", "implements",
    "import", "instanceof", "interface", "native", "new", "null", "package", "private",
    "protected", "public", "return", "static", "strictfp", "super", "switch", "synchronized",
    "this", "throw", "throws", "transient", "true", "try", "void", "volatile", "while"]).map
    String.toList

/-- What words and blanks look like. -/
def lexis : Lexis where
  blank := .run isAsciiSpace
  comment := (Scan.toLineEnd "//".toList).orElse (.between "/*".toList "*/".toList false)
  signs := [">>>=", "<<=", ">>=", ">>>", "...", "->", "::", "++", "--", "&&", "||", "==", "!=",
    "<=", ">=", "+=", "-=", "*=", "/=", "&=", "|=", "^=", "%=", "<<", ">>"].map String.toList
  isWordChar := isOther
  endsLines := false

/-- A name. -/
def identifier : Rule Construct :=
  leaf .identifier (.word isFirst isOther reserved)

/-- Annotations as often as there are. -/
def annotations : Rule Construct :=
  .many (.part .note)

/-- A type without annotations. -/
def type : Rule Construct :=
  .part .type

/-- An expression. -/
def expression : Rule Construct :=
  .part (.expression true)

/-- A statement. -/
def statement : Rule Construct :=
  .part .statement

/-- A block of statements. -/
def block : Rule Construct :=
  .part .block

/-- A name with others before it. -/
def qualified : Rule Construct :=
  .node .expression (separated "." identifier)

/-- Annotations and other modifiers. -/
def modifiers : Rule Construct :=
  .node .modifiers (several (.any [.part .note,
    words ["public", "protected", "private", "abstract", "static", "final", "strictfp", "default",
      "synchronized", "native", "transient", "volatile", "sealed", "non-sealed"]]))

/-- What a generic type is applied to. -/
def typeArguments : Rule Construct :=
  .all ["<",
    commas (.all [annotations, .any [
      .all ["?", maybe (.all [words ["extends", "super"], annotations, type])],
      type]]),
    .glued ['>']]

/-- The variables of a generic declaration. -/
def typeParameters : Rule Construct :=
  .node .type (.all ["<",
    separated "," (.all [annotations, identifier,
      maybe (.all ["extends", separated "&" (.all [annotations, type])])]),
    .glued ['>']])

/-- The brackets of array types. -/
def dimensions : Rule Construct :=
  several (.all [annotations, "[", "]"])

/-- A type that is no array. -/
def elementType : Rule Construct :=
  .any [words primitives,
    separated "." (.all [annotations, identifier, maybe typeArguments])]

/-- The type of what a method returns. -/
def returnType : Rule Construct :=
  .any [.node .type "void", type]

/-- Several types. -/
def types : Rule Construct :=
  separated "," (.all [annotations, type])

/-- The items of an array. -/
def arrayItems : Rule Construct :=
  .part .arrayItems

/-- A name that is declared, and its value. -/
def declarator : Rule Construct :=
  .node .declarator (.all [identifier, maybe dimensions,
    maybe (.all ["=", .any [arrayItems, expression]])])

/-- A parameter of a method. -/
def parameter : Rule Construct :=
  .all [maybe modifiers, type, maybe (.all [annotations, "..."]),
    .any [
      .all [.many (.all [identifier, "."]), "this"],
      .all [identifier, maybe dimensions]]]

/-- The parameters of a method. -/
def parameters : Rule Construct :=
  .node .parameters (.all ["(", commas parameter, ")"])

/-- The arguments of a call. -/
def arguments : Rule Construct :=
  .node .arguments (.all ["(", commas expression, ")"])

/-- An expression between parentheses. -/
def parenthesized : Rule Construct :=
  .node .expression (.all ["(", expression, ")"])

/-- The body of a class. -/
def classBody : Rule Construct :=
  .node .classBody (.all ["\x7b", .many (.part .member), "\x7d"])

/-- What a class can throw, extend or implement. -/
def relatives (word : String) : Rule Construct :=
  maybe (.all [word, types])

/-- The declaration of a class. -/
def classDeclaration : Rule Construct :=
  .node .classDeclaration (.all [maybe modifiers, "class", identifier, maybe typeParameters,
    maybe (.all ["extends", annotations, type]), relatives "implements", relatives "permits",
    classBody])

/-- A constant of an enumeration. -/
def enumConstant : Rule Construct :=
  .node .statement (.all [maybe modifiers, identifier, maybe arguments, maybe classBody])

/-- The declarations of what is like a class. -/
def typeDeclaration : Rule Construct :=
  .any [classDeclaration,
    .node .statement (.all [maybe modifiers, "interface", identifier, maybe typeParameters,
      relatives "extends", relatives "permits", classBody]),
    .node .statement (.all [maybe modifiers, "enum", identifier, relatives "implements", "\x7b",
      commas enumConstant, maybe ",", maybe (.all [";", .many (.part .member)]), "\x7d"]),
    .node .statement (.all [maybe modifiers, "record", identifier, maybe typeParameters,
      parameters, relatives "implements", classBody]),
    .node .statement (.all [maybe modifiers, "@", "interface", identifier, classBody])]

/-- The declaration of a method. -/
def method : Rule Construct :=
  .node .method (.all [maybe modifiers, maybe (.all [typeParameters, annotations]), returnType,
    identifier, parameters, maybe dimensions, relatives "throws",
    maybe (.all ["default", .part .value]), .any [block, ";"]])

/-- The declaration of a field. -/
def field : Rule Construct :=
  .node .field (.all [maybe modifiers, type, separated "," declarator, ";"])

/-- The declaration of a constructor; that of a record may leave out the parameters. -/
def constructor : Rule Construct :=
  .node .statement (.all [maybe modifiers, maybe typeParameters, identifier,
    maybe (.all [parameters, relatives "throws"]), block])

/-- The declaration of variables. -/
def declaration : Rule Construct :=
  .node .statement (.all [maybe modifiers, type, separated "," declarator])

/-- The parameters of a function. -/
def functionParameters : Rule Construct :=
  .any [identifier, parameters, .node .parameters (.all ["(", commas identifier, ")"])]

/-- A function. -/
def function : Rule Construct :=
  .node .expression (.all [functionParameters, "->", .any [block, expression]])

/-- The making of an object or array. -/
def creation : Rule Construct :=
  .node .expression (.all ["new", maybe typeArguments, annotations, .node .type elementType,
    .any [
      .all [arguments, maybe classBody],
      .all [several (.all [annotations, "[", expression, "]"]), maybe dimensions],
      .all [dimensions, arrayItems]]])

/-- A case of a choice. -/
def caseLabel : Rule Construct :=
  .any [
    .all ["case", separated "," (.any ["default", .part .pattern, .part (.expression false)]),
      maybe (.all ["when", .part (.expression false)])],
    "default"]

/-- A choice between cases. -/
def choice : Rule Construct :=
  .node .expression (.all ["switch", parenthesized, "\x7b",
    .many (.all [caseLabel, .any [
      .all ["->", .any [block, .all [.ahead "throw", statement], .all [expression, ";"]]],
      .all [":", .many statement]]]),
    "\x7d"])

/-- A type with something after it that no other expression has. -/
def typeExpression : Rule Construct :=
  .node .expression (.all [returnType, .any [
    .all [".", "class"],
    .all ["::", maybe typeArguments, .any ["new", identifier]]]])

/-- A string or character. -/
def quoted : Rule Construct :=
  .any [leaf .string (.between "\"\"\"".toList "\"\"\"".toList true), leaf .string (.quoted '"'),
    leaf .expression (.quoted '\'')]

/-- What an expression is made of, without what may follow it. -/
def base (functions : Bool) : Rule Construct :=
  .any ((if functions then [function] else []) ++
    [quoted, leaf .expression .number,
      .node .expression (words ["true", "false", "null", "this", "super"]),
      creation, choice, typeExpression, identifier, parenthesized])

/-- What may follow an expression and belong to it. -/
def suffix : Rule Construct :=
  .any [
    .node .call arguments,
    .node .expression (.all [".", .any [
      .all [maybe typeArguments, identifier], words ["this", "super", "class"], creation, quoted]]),
    .node .expression (.all ["[", expression, "]"]),
    .node .expression (.all ["::", maybe typeArguments, .any ["new", identifier]]),
    .node .expression (words ["++", "--"])]

/-- The conversion of a value to a type. -/
def cast (operand : Rule Construct) : Rule Construct :=
  let signed : Rule Construct := words ["+", "-", "++", "--"]
  .node .expression (.any [
    .all ["(", .node .type (.all [words primitives, maybe dimensions]), ")", operand],
    .all ["(", separated "&" (.all [annotations, type]), ")", .unless signed, operand]])

/-- The operators between two values. -/
def operator : Rule Construct :=
  words ["+", "-", "*", "/", "%", "&&", "||", "==", "!=", "<", "<=", ">", ">=", "&", "|", "^",
    "<<", ">>", ">>>"]

/-- The operators that change a variable. -/
def assignment : Rule Construct :=
  words ["=", "+=", "-=", "*=", "/=", "&=", "|=", "^=", "%=", "<<=", ">>=", ">>>="]

/-- What may follow an operand in an expression. -/
def operation (operand : Rule Construct) : Rule Construct :=
  .any [
    .all [operator, operand],
    .all ["instanceof", maybe "final", .any [.part .pattern, type]],
    .all ["?", expression, ":", expression],
    .all [assignment, expression]]

/-- The header of a loop over something. -/
def loop : Rule Construct :=
  .any [
    .all [maybe modifiers, type, identifier, maybe dimensions, ":", expression],
    .all [
      maybe (.any [declaration, separated "," expression]), ";", maybe expression, ";",
      commas expression]]

/-- Something that is closed at the end of a block. -/
def resource : Rule Construct :=
  .any [.all [maybe modifiers, type, identifier, "=", expression], expression]

/-- A block that may fail. -/
def attempt : Rule Construct :=
  .all ["try",
    maybe (.all ["(", separated ";" resource, maybe ";", ")"]), block,
    .many (.all ["catch", "(", maybe modifiers, separated "|" type, identifier, ")", block]),
    maybe (.all ["finally", block])]

/-- The description of a module. -/
def moduleDeclaration : Rule Construct :=
  .all [annotations, maybe "open", "module", qualified, "\x7b",
    .many (.all [words ["requires", "exports", "opens", "uses", "provides"],
      .many (.any ["static", qualified, ","]), ";"]),
    "\x7d"]

/-- The rule of each construct. -/
def rule : Construct → Rule Construct
  | .note =>
      .node .expression (.all ["@", qualified,
        maybe (.all ["(",
          .any [
            .all [separated "," (.all [identifier, "=", .part .value]), ")"],
            .all [maybe (.part .value), ")"]]])])
  | .value =>
      .any [.part .note,
        .node .expression (.all ["\x7b", commasEnd (.part .value), "\x7d"]),
        .part (.expression false)]
  | .type => .node .type (.all [elementType, maybe dimensions])
  | .expression functions =>
      let operand : Rule Construct := .part (.operand functions)
      .extend .expression operand (.many (operation operand))
  | .operand functions =>
      let operand : Rule Construct := .part (.operand functions)
      .any [cast operand, .grow (base functions) suffix,
        .node .expression (.all [words ["+", "-", "!", "~", "++", "--"], operand])]
  | .pattern =>
      .node .expression (.any [
        .all [type, "(", commas (.part .pattern), ")", maybe identifier],
        .all [maybe modifiers, type, identifier]])
  | .arrayItems =>
      .node .expression (.all ["\x7b", commasEnd (.any [arrayItems, expression]), "\x7d"])
  | .member =>
      .any [typeDeclaration, method, field, constructor,
        .node .statement (.all ["static", block]), block, ";"]
  | .statement =>
      .any [block, ";",
        .node .statement (.all ["if", parenthesized, statement, maybe (.all ["else", statement])]),
        .node .statement (.all ["while", parenthesized, statement]),
        .node .statement (.all ["for", "(", loop, ")", statement]),
        .node .statement (.all ["do", statement, "while", parenthesized, ";"]),
        .node .statement (.all ["return", maybe expression, ";"]),
        .node .statement (.all [words ["throw", "yield"], expression, ";"]),
        .node .statement (.all [words ["break", "continue"], maybe identifier, ";"]),
        .node .statement (.all ["assert", expression, maybe (.all [":", expression]), ";"]),
        .node .statement (.all ["synchronized", parenthesized, block]),
        .node .statement attempt,
        .node .statement (.all [.ahead "switch", .grow choice suffix, maybe ";"]),
        typeDeclaration,
        .all [declaration, ";"],
        .node .statement (.all [.unless "switch", expression, ";"]),
        .node .statement (.all [identifier, ":", statement])]
  | .block => .node .statement (.all ["\x7b", .many statement, "\x7d"])

end Java

/-- The grammar of Java. -/
def java : Rules Java.Construct where
  lexis := Java.lexis
  rule := Java.rule
  source := .many (.any [
    .node .statement (.all [Java.annotations, "package", Java.qualified, ";"]),
    .node .statement (.all ["import", .all [Rule.maybe "static", Java.qualified,
      Rule.maybe (.all [".", "*"])], ";"]),
    .node .statement Java.moduleDeclaration,
    Java.typeDeclaration,
    Java.method,
    .part .statement])

end ArchSurvey.Grammar
