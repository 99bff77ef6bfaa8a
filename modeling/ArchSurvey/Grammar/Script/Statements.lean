import ArchSurvey.Grammar.Script.Expressions

/-!
# Statements of scripts

The grammar of statements and declarations.
-/

namespace ArchSurvey.Grammar.Script

open Rule

/-- A name of something that a file gives to others or takes from them. -/
def exchanged (typed : Bool) : Rule Construct :=
  let name : Rule Construct := .any [property, string]
  .any [
    .all [ifTyped typed "type", name, maybe (.all ["as", name])],
    .all [name, maybe (.all ["as", name])]]

/-- Names that a file gives to others or takes from them. -/
def exchangedNames (typed : Bool) : Rule Construct :=
  .all ["\x7b", commasEnd (exchanged typed), "\x7d"]

/-- What is said of a file that is taken from. -/
def fileAttributes : Rule Construct :=
  maybe (.all [words ["with", "assert"], expression])

/-- What a file takes from others. -/
def importRule (typed : Bool) : Rule Construct :=
  let all : Rule Construct := .all ["*", "as", identifier]
  let names : Rule Construct := .any [all, exchangedNames typed]
  let clause : Rule Construct := .any [names, .all [identifier, maybe (.all [",", names])]]
  let source : Rule Construct := .all ["from", string, fileAttributes]
  .all ["import",
    anyOf typed
      [.all [string, fileAttributes], .all [clause, source]]
      [.all ["type", clause, source],
        .all [maybe "type", identifier, "=",
          .any [.all ["require", "(", string, ")"], separated "." identifier]]],
    semicolon]

/-- An expression as a statement. -/
def expressionStatement : Rule Construct :=
  .all [
    .unless (.any ["\x7b", "function", .all ["async", sameLine, "function"], "class"]),
    sequence, semicolon]

/-- A declaration of variables, without its end. -/
def bindings (typed : Bool) : Rule Construct :=
  .all [words ["var", "let", "const"],
    separated "," (.all [.part .pattern, ifTyped typed "!", ifTyped typed typing,
      maybe (.all ["=", expression])])]

/-- A function that is declared; in typed sources the body may be elsewhere. -/
def functionDeclaration (typed : Bool) : Rule Construct :=
  .node .statement (.all [maybe (.all ["async", sameLine]), "function", maybe "*", identifier,
    signature typed, if typed then .any [block, semicolon] else block])

/-- The declarations that only typed sources know. -/
def typedDeclarations : List (Rule Construct) :=
  [.all ["interface", identifier, maybe typeParameters,
      maybe (.all ["extends", separated "," type]), .part .objectType],
    .all ["type", identifier, maybe typeParameters, "=", type, semicolon],
    .all [maybe "const", "enum", identifier, "\x7b",
      commasEnd (.all [propertyName, maybe (.all ["=", expression])]), "\x7d"],
    .all [words ["namespace", "module"], .any [string, separated "." identifier],
      .any [block, semicolon]],
    .all ["declare", .any [.all ["global", block], statement]]]

/-- What a file gives to others. -/
def exportRule (typed : Bool) : Rule Construct :=
  let source : Rule Construct := .all ["from", string, fileAttributes]
  .all [decorators, "export", anyOf typed
    [.all ["*", maybe (.all ["as", .any [property, string]]), source, semicolon],
      .all [exchangedNames typed, maybe source, semicolon],
      .all ["default", .any ([function typed, classRule typed] ++
        (if typed then typedDeclarations else []) ++ [expressionStatement])],
      statement]
    [.all ["type", exchangedNames typed, maybe source, semicolon],
      .all ["type", "*", maybe (.all ["as", .any [property, string]]), source, semicolon],
      .all ["=", expression, semicolon],
      .all ["as", "namespace", identifier, semicolon]]]

/-- The header of a loop. -/
def loop (typed : Bool) : Rule Construct :=
  .any [
    .all [.any [.all [words ["var", "let", "const"], .part .pattern], .part .constructed],
      words ["of", "in"], sequence],
    .all [maybe (.any [bindings typed, sequence]), ";", maybe sequence, ";", maybe sequence]]

/-- The cases of a choice. -/
def clauses : Rule Construct :=
  .all ["\x7b",
    .many (.all [.any [.all ["case", sequence], "default"], ":", .many statement]), "\x7d"]

/-- The rule of a statement. -/
def statementRule (typed : Bool) : Rule Construct :=
  let condition : Rule Construct := .node .expression (.all ["(", sequence, ")"])
  .any ([block, ";"] ++ ([
    .all [bindings typed, semicolon],
    functionDeclaration typed,
    classRule typed,
    .all ["if", condition, statement, maybe (.all ["else", statement])],
    .all ["for", maybe "await", "(", loop typed, ")", statement],
    .all ["while", condition, statement],
    .all ["do", statement, "while", condition, maybe ";"],
    .all ["switch", condition, clauses],
    .all ["try", block,
      maybe (.all ["catch",
        maybe (.all ["(", .part .pattern, ifTyped typed typing, ")"]), block]),
      maybe (.all ["finally", block])],
    .all ["return", maybe (.all [sameLine, sequence]), semicolon],
    .all ["throw", sequence, semicolon],
    .all [words ["break", "continue"], maybe (.all [sameLine, identifier]), semicolon],
    .all ["debugger", semicolon],
    .all ["with", condition, statement],
    importRule typed,
    exportRule typed] ++ (if typed then typedDeclarations else []) ++ [
    .all [identifier, ":", statement],
    expressionStatement]).map (.node .statement))

/-- The rule of each construct. -/
def rule (typed : Bool) : Construct → Rule Construct
  | .type => typeRule (parameters typed)
  | .objectType => objectTypeRule (parameters typed)
  | .expression => .extend .expression (.part .operand) (.many (operation typed))
  | .operand => operandRule typed
  | .sequence => .extend .expression expression (.many (.all [",", expression]))
  | .pattern => patternRule
  | .constructed => constructedRule typed
  | .element => elementRule
  | .statement => statementRule typed
  | .block => .node .statement (.all ["\x7b", .many statement, "\x7d"])

end Script

/-- The grammar of JavaScript, or with types that of TypeScript. -/
def script (typed : Bool) : Rules Script.Construct where
  lexis := Script.lexis
  rule := Script.rule typed
  source := .all [
    Rule.maybe (Rule.leaf .comment (.toLineEnd ['#', '!'])), .many Script.statement]

end ArchSurvey.Grammar
