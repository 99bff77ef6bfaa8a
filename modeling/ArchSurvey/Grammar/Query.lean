import ArchSurvey.Grammar.Occurrence
import ArchSurvey.Grammar.Tree

/-!
# Queries

What can be asked of a syntax tree, and the pieces of it that answer.
-/

namespace ArchSurvey.Grammar

/-!
## Languages

The languages whose sources a structural parser can read.
-/

/-- A language with a grammar. -/
inductive Language where
  | python
  | java
  | javaScript
  | typeScript
  | go
  deriving DecidableEq, Repr

namespace Language

/-- The name of a language. -/
def name : Language → String
  | python => "python"
  | java => "java"
  | javaScript => "javascript"
  | typeScript => "typescript"
  | go => "go"

/-- The file extensions of a language. -/
def extensions : Language → List String
  | python => ["py"]
  | java => ["java"]
  | javaScript => ["js", "jsx", "mjs", "cjs"]
  | typeScript => ["ts", "tsx"]
  | go => ["go"]

/-- Every language. -/
def all : List Language :=
  [python, java, javaScript, typeScript, go]

/-- The language of the files with an extension. -/
def ofExtension? (extension : String) : Option Language :=
  all.find? fun language => language.extensions.contains extension

end Language

/-! ## Queries -/

/-- A question about a syntax tree. -/
inductive Query where
  /-- Functions with a decorator that calls a method. -/
  | decoratedRoutes
  /-- Annotated methods of annotated classes. -/
  | controllerMethods
  /-- Fields of annotated classes. -/
  | entityFields
  /-- Calls of a method on a name whose first argument is a string. -/
  | routeCalls
  /-- The same calls in typed sources. -/
  | typedRouteCalls
  /-- The package, groups of routes, and calls whose first argument is a string. -/
  | routerCalls
  deriving DecidableEq, Repr

/-- The language whose trees a query is about. -/
def Query.language : Query → Language
  | decoratedRoutes => .python
  | controllerMethods => .java
  | entityFields => .java
  | routeCalls => .javaScript
  | typedRouteCalls => .typeScript
  | routerCalls => .go

/-- An answer to a query: the trees that it names, and the one whose place in the source decides
when the answer is given. -/
structure Answer where
  last : Tree
  named : List (String × Tree)

/-- A call of a member of a value. -/
structure MemberCall where
  object : Tree
  verb : Tree
  arguments : Tree

namespace MemberCall

/-- The call that a tree is, if it calls a member. -/
def ofTree? (tree : Tree) : Option MemberCall := do
  guard (tree.is .call)
  let callee ← tree.parts.head?
  let arguments ← tree.child? .arguments
  guard (callee.is .member)
  match callee.parts with
  | [object, verb] => some ⟨object, verb, arguments⟩
  | _ => none

/-- The first argument, if it is of a kind and no comment stands before it. -/
def firstArgument? (call : MemberCall) (kind : Kind) : Option Tree :=
  call.arguments.children.head?.filter fun argument => argument.is kind

end MemberCall

namespace Tree

/-- The decorated functions whose decorator calls a member of a name, once for each decorator. -/
def decoratedRoutes (tree : Tree) : List Answer :=
  if !tree.is .decorated then [] else
  match tree.child? .function with
  | none => []
  | some function =>
      (tree.childrenOf .decorator).filterMap fun decorator => do
        let call ← (← decorator.parts.head?) |> MemberCall.ofTree?
        guard (call.object.is .identifier && (call.arguments.child? .generator).isNone)
        let handler ← function.child? .identifier
        let params ← function.child? .parameters
        some ⟨params, [("route", tree), ("object", call.object), ("verb", call.verb),
          ("args", call.arguments), ("handler", handler), ("params", params)]⟩

/-- The members of a kind that the body of a class with modifiers has, with the modifiers and name
of the class. -/
def membersOfClass (tree : Tree) (kind : Kind) : List (List (String × Tree) × Tree) :=
  if !tree.is .classDeclaration then [] else
  match tree.child? .modifiers, tree.child? .identifier, tree.child? .classBody with
  | some modifiers, some name, some body =>
      (body.childrenOf kind).map fun child =>
        ([("class", tree), ("class_annotations", modifiers), ("class_name", name)], child)
  | _, _, _ => []

/-- The methods with modifiers of a class with modifiers. -/
def controllerMethods (tree : Tree) : List Answer :=
  (tree.membersOfClass .method).filterMap fun (named, method) => do
    let modifiers ← method.child? .modifiers
    let name ← method.child? .identifier
    let params ← method.child? .parameters
    some ⟨params, named ++
      [("method_annotations", modifiers), ("method_name", name), ("params", params)]⟩

/-- The fields of a class with modifiers, once for each name that is declared. -/
def entityFields (tree : Tree) : List Answer :=
  (tree.membersOfClass .field).flatMap fun (named, field) =>
    let modifiers := (field.child? .modifiers).toList.map fun found => ("field_annotations", found)
    match field.child? .type with
    | none => []
    | some type =>
        (field.childrenOf .declarator).filterMap fun declarator => do
          let name ← declarator.child? .identifier
          some ⟨name, named ++ modifiers ++ [("field_type", type), ("field_name", name)]⟩

/-- A call of a member of a name whose first argument is a string. -/
def routeCalls (tree : Tree) : List Answer :=
  Option.toList do
    let call ← MemberCall.ofTree? tree
    guard (call.object.is .identifier && call.verb.is .property)
    let path ← call.firstArgument? .string
    some ⟨path, [("route", tree), ("object", call.object), ("verb", call.verb), ("path", path)]⟩

/-- The name of the package. -/
def packageNames (tree : Tree) : List Answer :=
  if !tree.is .packageClause then [] else
  (tree.childrenOf .packageName).map fun name => ⟨name, [("package", name)]⟩

/-- The names that are declared together with groups, once for each name and group. -/
def routeGroups (tree : Tree) : List Answer :=
  if !tree.is .shortDeclaration then [] else
  match tree.parts with
  | [left, right] =>
      (left.childrenOf .identifier).flatMap fun name =>
        right.children.filterMap fun value => do
          let call ← MemberCall.ofTree? value
          guard (call.object.is .identifier)
          let path ← call.firstArgument? .interpretedString
          some ⟨path, [("group_var", name), ("group_parent", call.object),
            ("group_verb", call.verb), ("group_prefix", path)]⟩
  | _ => []

/-- A call of a member of any value whose first argument is a string. -/
def routerCalls (tree : Tree) : List Answer :=
  packageNames tree ++ routeGroups tree ++ Option.toList do
    let call ← MemberCall.ofTree? tree
    let path ← call.firstArgument? .interpretedString
    some ⟨path, [("route", tree), ("object", call.object), ("verb", call.verb), ("path", path)]⟩

/-- The number of bytes that a tree stands for. -/
def byteSize (tree : Tree) : Nat :=
  tree.text.foldl (fun size c => size + c.utf8Size) 0

end Tree

namespace Answer

/-- The largest of the named trees, and of several the first. -/
def largest? (answer : Answer) : Option Tree :=
  answer.named.foldl (fun found entry =>
    match found with
    | none => some entry.2
    | some tree => if tree.byteSize < entry.2.byteSize then some entry.2 else some tree) none

/-- What an answer says.  Captures are given by line and else as the query names them; the text of
each is as `reading` has it. -/
def occurrence? (reading : List Char → String) (answer : Answer) : Option Occurrence := do
  let largest ← answer.largest?
  let captures := answer.named.map fun (name, tree) =>
    Capture.mk name (reading tree.text) tree.start.line
  some ⟨largest.kind.name, largest.start.line,
    captures.mergeSort fun first second => decide (first.line ≤ second.line)⟩

end Answer

namespace Query

/-- The answers to a query at one node. -/
def answersAt : Query → Tree → List Answer
  | decoratedRoutes => Tree.decoratedRoutes
  | controllerMethods => Tree.controllerMethods
  | entityFields => Tree.entityFields
  | routeCalls => Tree.routeCalls
  | typedRouteCalls => Tree.routeCalls
  | routerCalls => Tree.routerCalls

/-- The answers to a query, in the order in which the source completes them. -/
def answers (query : Query) (tree : Tree) : List Answer :=
  (tree.preorder.flatMap query.answersAt).mergeSort fun first second =>
    decide (first.last.start.offset ≤ second.last.start.offset)

end Query

end ArchSurvey.Grammar
