import ArchSurvey.Grammar.Script.Basic

/-!
# Expressions of scripts

The grammar of expressions, functions and classes.  Elements of markup are expressions of sources
that are not typed.
-/

namespace ArchSurvey.Grammar.Script

open Text Rule

/-- The arguments of a call. -/
def arguments : Rule Construct :=
  .node .arguments (.all ["(", elided (.all [maybe "...", expression]), ")"])

/-- What is said of declarations before them. -/
def decorators : Rule Construct :=
  .many (.node .decorator (.all ["@", .any [
    .all ["(", expression, ")"],
    .grow identifier (.any [.node .member (.all [".", property]), .node .call arguments])]]))

/-- The parameters of a function. -/
def parameters (typed : Bool) : Rule Construct :=
  .node .parameters (.all ["(", elided (.all [decorators, parameter typed]), ")"])

/-- The names that a pattern binds. -/
def patternRule : Rule Construct :=
  let inObject : Rule Construct := .any [
    .all ["...", .part .pattern],
    .all [propertyName, ":", binding],
    .all [identifier, maybe (.all ["=", expression])]]
  .any [identifier,
    .node .expression (.all ["\x7b", elided inObject, "\x7d"]),
    .node .expression (.all ["[", elided (.all [maybe "...", binding]), "]"])]

/-- What a function takes and gives. -/
def signature (typed : Bool) : Rule Construct :=
  .all [ifTyped typed typeParameters, parameters typed, ifTyped typed resultTyping]

/-- A function that starts with the word for it. -/
def function (typed : Bool) : Rule Construct :=
  .node .function (.all [maybe (.all ["async", sameLine]), "function", maybe "*",
    maybe identifier, signature typed, block])

/-- A function by its parameters and an arrow. -/
def arrow (typed : Bool) : Rule Construct :=
  let body : Rule Construct := .any [block, .all [.unless "\x7b", expression]]
  let rest : Rule Construct := .all [.any [identifier, signature typed], "=>", body]
  .node .function (.any [.all ["async", sameLine, rest], rest])

/-- A method with the words before it. -/
def method (typed : Bool) (modifiers : List String) : Rule Construct :=
  .all [.many (modifier modifiers), maybe "*", propertyName, ifTyped typed "?", signature typed,
    if typed then .any [block, semicolon] else block]

/-- The words that may stand before a member of a class. -/
def memberModifiers (typed : Bool) : List String :=
  ["static", "async", "get", "set", "accessor"] ++
    if typed then ["public", "private", "protected", "readonly", "abstract", "override", "declare"]
    else []

/-- A member of a class. -/
def member (typed : Bool) : Rule Construct :=
  let modifiers : Rule Construct := .many (modifier (memberModifiers typed))
  .all [decorators, anyOf typed
    [.all ["static", block],
      method typed (memberModifiers typed),
      .all [modifiers, propertyName, ifTyped typed (words ["?", "!"]), ifTyped typed typing,
        maybe (.all ["=", expression]), semicolon]]
    [.all [modifiers, "[", identifier, typing, "]", typing, semicolon]]]

/-- A class, with or without a name. -/
def classRule (typed : Bool) : Rule Construct :=
  .node .statement (.all [decorators, ifTyped typed "abstract", "class",
    maybe (.all [.unless (words ["implements"]), identifier]), ifTyped typed typeParameters,
    maybe (.all ["extends", .part .operand, ifTyped typed typeArguments]),
    ifTyped typed (.all ["implements", separated "," type]),
    "\x7b", .many (.any [";", .node .statement (member typed)]), "\x7d"])

/-- An object by its members. -/
def object (typed : Bool) : Rule Construct :=
  .node .expression (.all ["\x7b",
    elided (.any [
      .all ["...", expression],
      .all [propertyName, ":", expression],
      method typed ["async", "get", "set", "static"],
      .all [identifier, maybe (.all ["=", expression])]]),
    "\x7d"])

/-- The name of an element of markup or of its attribute. -/
def markupName : Rule Construct :=
  leaf .expression ((Scan.word isFirst
    (fun c => isOther c || c == '-' || c == '.' || c == ':') []))

/-- An element of markup. -/
def elementRule : Rule Construct :=
  let inserted : Rule Construct := .all ["\x7b", maybe (.all [maybe "...", sequence]), "\x7d"]
  let value : Rule Construct :=
    .any [leaf .expression ((Scan.raw '"').orElse (.raw '\'')), inserted, .part .element]
  let attributes : Rule Construct :=
    .many (.any [.all [markupName, maybe (.all ["=", value])], inserted])
  let content : Rule Construct := .many (.any [
    .scan (.run fun c => !(['\x7b', '\x7d', '<', '>'].contains c)),
    inserted, .part .element])
  let ending : Rule Construct := .all ["<", "/", maybe markupName, .glued ['>']]
  .node .expression (.all ["<", .any [
    .all [.glued ['>'], content, ending],
    .all [markupName, attributes, .any [
      .all ["/", .glued ['>']],
      .all [.glued ['>'], content, ending]]]]])

/-- Expressions between parentheses. -/
def parenthesized (typed : Bool) : Rule Construct :=
  .node .expression (.all ["(", sequence, ifTyped typed typing, ")"])

/-- The making of an object. -/
def creation (typed : Bool) : Rule Construct :=
  .node .expression (.all ["new", .any [
    .all [".", "target"],
    .all [.part .constructed, ifTyped typed typeArguments, maybe arguments]]])

/-- What an expression is made of, without what may follow it. -/
def base (typed : Bool) : Rule Construct :=
  .any ([function typed, .all [.ahead (words ["class", "@", "abstract"]), classRule typed],
    string, leaf .expression .number, template sequence, regularExpression, creation typed,
    .node .expression (words ["this", "super", "null", "true", "false", "undefined"]),
    .node .expression (.all ["import", .any [.ahead "(", .all [".", "meta"]]]),
    identifier, privateName, parenthesized typed,
    .node .expression (.all ["[", elided (.all [maybe "...", expression]), "]"]), object typed] ++
    if typed then [] else [.part .element])

/-- The selection of a member. -/
def selection : Rule Construct :=
  .any [
    .node .member (.all [words [".", "?."], property]),
    .node .expression (.all [words [".", "?."], privateName]),
    .node .expression (.all [maybe "?.", "[", sequence, "]"])]

/-- What may follow an expression and belong to it. -/
def suffix (typed : Bool) : Rule Construct :=
  anyOf typed
    [.node .call (.all [maybe "?.", ifTyped typed typeArguments, arguments]),
      selection,
      .node .expression (template sequence),
      .all [sameLine, .node .expression (words ["++", "--"])]]
    [.all [sameLine, .node .expression "!"]]

/-- An operand of an operation. -/
def operandRule (typed : Bool) : Rule Construct :=
  let operators : List String :=
    ["typeof", "void", "delete", "await", "!", "~", "+", "-", "++", "--"]
  anyOf typed
    [arrow typed,
      .node .expression (.all [words operators, .part .operand]),
      .node .expression (.all ["yield", maybe (.all [sameLine, maybe "*", expression])]),
      .grow (base typed) (suffix typed)]
    [.all [.ahead "<", .any [arrow typed,
      .node .expression (.all ["<", type, .glued ['>'], .part .operand])]]]

/-- What `new` is applied to. -/
def constructedRule (typed : Bool) : Rule Construct :=
  .grow (base typed) selection

/-- What may follow an operand in an expression. -/
def operation (typed : Bool) : Rule Construct :=
  let operator : Rule Construct := words ["??", "||", "&&", "|", "^", "&", "==", "!=", "===",
    "!==", "<", "<=", ">", ">=", "<<", ">>", ">>>", "+", "-", "*", "/", "%", "**", "in",
    "instanceof"]
  let assignment : Rule Construct := words ["=", "+=", "-=", "*=", "/=", "%=", "**=", "<<=", ">>=",
    ">>>=", "&=", "|=", "^=", "&&=", "||=", "??="]
  let choosing : Rule Construct :=
    .any ["?", .all [.glued ['?'], .ahead (leaf .expression .number)]]
  anyOf typed
    [.all [operator, .part .operand], .all [choosing, expression, ":", expression],
      .all [assignment, expression]]
    [.all [sameLine, words ["as", "satisfies"], .any ["const", type]]]

end ArchSurvey.Grammar.Script
