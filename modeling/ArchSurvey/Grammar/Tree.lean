/-!
# Syntax trees

A node of a syntax tree knows what it stands for and where it starts and stops in the source.
Comments are nodes like any other and stand between the parts of a construct.
-/

namespace ArchSurvey.Grammar

/-- A place in a source: the number of characters before it, its line counted from one, its
column, and the characters after it.  A tab is eight columns wide. -/
structure Spot where
  offset : Nat
  line : Nat
  column : Nat
  rest : List Char
  deriving Repr

namespace Spot

/-- The start of a source. -/
def start (source : List Char) : Spot :=
  ⟨0, 1, 0, source⟩

/-- The place after a character that the given ones follow. -/
def after (spot : Spot) (c : Char) (rest : List Char) : Spot :=
  if c == '\n' then ⟨spot.offset + 1, spot.line + 1, 0, rest⟩
  else if c == '\r' || c == '\x0c' then ⟨spot.offset + 1, spot.line, 0, rest⟩
  else ⟨spot.offset + 1, spot.line, spot.column + (if c == '\t' then 8 else 1), rest⟩

/-- The place after some characters. -/
def advance (spot : Spot) : Nat → Spot
  | 0 => spot
  | count + 1 =>
      match spot.rest with
      | [] => spot
      | c :: rest => (spot.after c rest).advance count

/-- The characters up to a later place. -/
def upTo (start stop : Spot) : List Char :=
  start.rest.take (stop.offset - start.offset)

end Spot

/-- What a node stands for. -/
inductive Kind where
  /-- The whole source. -/
  | source
  | comment
  /-- A name of a value. -/
  | identifier
  /-- A name that selects a member of a value. -/
  | property
  /-- A name that selects a field or method of a value. -/
  | fieldName
  | packageName
  | packageClause
  /-- A string without substitutions. -/
  | string
  /-- A string in which escapes are read. -/
  | interpretedString
  /-- Any other expression. -/
  | expression
  /-- A value and the name that selects one of its members. -/
  | member
  | call
  | arguments
  /-- Values that are made one by one. -/
  | generator
  | parameters
  | type
  /-- Any other statement or declaration. -/
  | statement
  | decorated
  | decorator
  | function
  | modifiers
  | classDeclaration
  | classBody
  | method
  | field
  /-- One of the names that a declaration introduces. -/
  | declarator
  | expressionList
  /-- A declaration of variables by their values. -/
  | shortDeclaration
  deriving DecidableEq, Repr

/-- The name of a kind. -/
def Kind.name : Kind → String
  | source => "source"
  | comment => "comment"
  | identifier => "identifier"
  | property => "property_identifier"
  | fieldName => "field_identifier"
  | packageName => "package_identifier"
  | packageClause => "package_clause"
  | string => "string"
  | interpretedString => "interpreted_string_literal"
  | expression => "expression"
  | member => "member_expression"
  | call => "call_expression"
  | arguments => "arguments"
  | generator => "generator_expression"
  | parameters => "parameters"
  | type => "type"
  | statement => "statement"
  | decorated => "decorated_definition"
  | decorator => "decorator"
  | function => "function_definition"
  | modifiers => "modifiers"
  | classDeclaration => "class_declaration"
  | classBody => "class_body"
  | method => "method_declaration"
  | field => "field_declaration"
  | declarator => "variable_declarator"
  | expressionList => "expression_list"
  | shortDeclaration => "short_var_declaration"

/-- A syntax tree. -/
inductive Tree where
  | node (kind : Kind) (start stop : Spot) (children : List Tree)

namespace Tree

/-- What the root stands for. -/
def kind : Tree → Kind
  | node kind _ _ _ => kind

/-- Where a tree starts. -/
def start : Tree → Spot
  | node _ start _ _ => start

/-- Where a tree stops. -/
def stop : Tree → Spot
  | node _ _ stop _ => stop

/-- The children of the root, comments included. -/
def children : Tree → List Tree
  | node _ _ _ children => children

/-- The piece of the source that a tree stands for. -/
def text (tree : Tree) : List Char :=
  tree.start.upTo tree.stop

/-- Whether the root is of a kind. -/
def is (tree : Tree) (kind : Kind) : Bool :=
  tree.kind == kind

/-- The children of a kind. -/
def childrenOf (tree : Tree) (kind : Kind) : List Tree :=
  tree.children.filter fun child => child.is kind

/-- The first child of a kind. -/
def child? (tree : Tree) (kind : Kind) : Option Tree :=
  tree.children.find? fun child => child.is kind

/-- The children that are no comments. -/
def parts (tree : Tree) : List Tree :=
  tree.children.filter fun child => !child.is .comment

mutual

/-- A tree and all trees below it, each before those below it. -/
def preorder : Tree → List Tree
  | node kind start stop children => node kind start stop children :: preorderAll children

/-- The trees of a list and all trees below them. -/
def preorderAll : List Tree → List Tree
  | [] => []
  | tree :: others => tree.preorder ++ preorderAll others

end

@[simp] theorem preorderAll_nil : preorderAll [] = [] := by
  simp [preorderAll]

@[simp] theorem preorderAll_cons (tree : Tree) (others : List Tree) :
    preorderAll (tree :: others) = tree.preorder ++ preorderAll others := by
  simp [preorderAll]

/-- A tree comes before all trees below it. -/
theorem preorder_eq (tree : Tree) : tree.preorder = tree :: preorderAll tree.children := by
  cases tree with
  | node kind start stop below => simp [preorder, Tree.children]

/-- What stands before a construct becomes its first children, if the construct is made of what
was just added. -/
def adopt (left added : List Tree) : List Tree :=
  match left, added.getLast? with
  | first :: _, some (node kind _ stop children) =>
      [node kind first.start stop (left ++ added.dropLast ++ children)]
  | _, _ => left ++ added

end Tree

end ArchSurvey.Grammar
