import ArchSurvey.Proofs.Text.Pattern
import ArchSurvey.Schema.Reader

/-!
# The notation of scripts

The documented part of the language of scripts: what a script says, as a tree,
and the texts that spell it.  A tree holds what matters for the tables, and
the spelling relations leave open what does not: letter case, white space,
quotes and qualifications of names, names of constraints, referenced columns,
default values and optional words.
-/

namespace ArchSurvey.Schema

open Text
open Text.Pattern (Spells)

/-- The letters of names and keywords, in lower case. -/
def nameLetters : List Char :=
  "abcdefghijklmnopqrstuvwxyz0123456789_".toList

/-- The words that cannot be names. -/
def reserved : List String :=
  ["add", "alter", "cascade", "check", "column", "constraint", "create",
    "default", "drop", "exclude", "exists", "foreign", "if", "index", "key",
    "not", "null", "only", "primary", "references", "restrict", "table",
    "unique"]

/-- The name of a table, column, schema or constraint. -/
structure Name where
  letters : List Char
  filled : letters ≠ []
  plain : ∀ c ∈ letters, c ∈ nameLetters
  free : String.ofList letters ∉ reserved
  deriving DecidableEq

def Name.text (name : Name) : String :=
  String.ofList name.letters

/-- The text has the word, in any letter case, among its runs of word
characters. -/
def Mentions (word : String) (text : List Char) : Prop :=
  ∃ run ∈ splitWhen (fun c => !isWordChar c) text, Spells word.toList run

instance (word : String) (text : List Char) : Decidable (Mentions word text) :=
  inferInstanceAs (Decidable (∃ run ∈ _, List.Forall₂ _ _ run))

/-- A word of a type with what stands in parentheses after it, or what stands
in parentheses alone. -/
def typePartText (word : List Char) (arguments : Option (List Char)) :
    List Char :=
  word ++ arguments.elim [] fun inner => '(' :: inner ++ [')']

/-- A part of a type, in lower case and with single spaces. -/
structure TypePart where
  word : List Char
  arguments : Option (List Char)
  filled : word = [] → arguments ≠ none
  plain : ∀ c ∈ word, c ∈ nameLetters
  inner : ∀ inner ∈ arguments, ∀ c ∈ inner, c ∈ ',' :: ' ' :: nameLetters
  single : ∀ inner ∈ arguments, ¬[' ', ' '] <:+: inner
  free : ∀ keyword ∈ columnKeywords,
    ¬Mentions (lowerString keyword) (typePartText word arguments)

def TypePart.text (part : TypePart) : List Char :=
  typePartText part.word part.arguments

/-- A type: its parts, with a space between each two. -/
structure DataType where
  parts : List TypePart
  filled : parts ≠ []

def DataType.letters (type : DataType) : List Char :=
  joinWith [' '] (type.parts.map TypePart.text)

def DataType.text (type : DataType) : String :=
  String.ofList (type.letters.map Char.toUpper)

/-- What is said about a column after its type. -/
inductive Clause where
  | notNull
  | primaryKey
  | references (table : Name)
  /-- A default value, which says nothing about the table. -/
  | default
  deriving DecidableEq

/-- The table that a clause points at. -/
def Clause.table? : Clause → Option String
  | .references table => some table.text
  | .notNull | .primaryKey | .default => none

/-- The declaration of a column. -/
structure Declaration where
  name : Name
  type : DataType
  clauses : List Clause

/-- A constraint of a table. -/
inductive Constraint where
  | primaryKey (columns : List Name)
  | foreignKey (columns : List Name) (table : Name)

/-- What a table is made of. -/
inductive Item where
  | column (declaration : Declaration)
  | constraint (constraint : Constraint)

/-- How the removal of a column is written. -/
inductive Removal where
  /-- With the word `COLUMN`. -/
  | column
  /-- Without it, a single space and the name without quotes. -/
  | tight
  /-- Without it, and with other white space or with quotes. -/
  | loose
  deriving DecidableEq

/-- A change of a table. -/
inductive Action where
  | add (declaration : Declaration)
  | drop (removal : Removal) (column : Name)
  | constrain (constraint : Constraint)

/-- A sentence of a script. -/
inductive Sentence where
  | create (unlessExists : Bool) (table : Name) (items : List Item)
  | alter (table : Name) (actions : List Action)
  | drop (tables : List Name)

section Meaning

/-- The column that a declaration adds. -/
def Declaration.column (declaration : Declaration) : Column where
  name := declaration.name.text
  dataType := declaration.type.text
  nullable := !(declaration.clauses.contains .primaryKey ||
    declaration.clauses.contains .notNull)
  inKey := declaration.clauses.contains .primaryKey
  references := declaration.clauses.findSome? Clause.table?

def Item.declaration? : Item → Option Declaration
  | .column declaration => some declaration
  | .constraint _ => none

/-- The columns of a primary key that an item declares for its table. -/
def Item.key? : Item → Option (List String)
  | .constraint (.primaryKey columns) => some (columns.map Name.text)
  | .constraint (.foreignKey _ _) | .column _ => none

/-- The columns that an item lets point at a table. -/
def Item.links : Item → List (String × String)
  | .constraint (.foreignKey columns table) =>
      columns.map fun column => (column.text, table.text)
  | .constraint (.primaryKey _) | .column _ => []

/-- The primary key of a table, declared for the table or for columns. -/
def keyOf (items : List Item) : List String :=
  (items.filterMap Item.key?).getLast?.getD
    (((items.filterMap Item.declaration?).filter fun declaration =>
      declaration.clauses.contains .primaryKey).map fun declaration =>
        declaration.name.text)

/-- The column of a table with a key and foreign keys: columns of the key are
never null. -/
def Declaration.columnIn (key : List String) (links : List (String × String))
    (declaration : Declaration) : Column :=
  let inKey := declaration.clauses.contains .primaryKey ||
    key.contains declaration.name.text
  { declaration.column with
    nullable := !(inKey || declaration.clauses.contains .notNull)
    inKey
    references := (links.lookup declaration.name.text).or
      declaration.column.references }

/-- The table that a new table's items make. -/
def tableOf (table : Name) (items : List Item) : TableDefinition where
  name := table.text
  columns := (items.filterMap Item.declaration?).map
    (Declaration.columnIn (keyOf items) (items.flatMap Item.links))
  primaryKey := keyOf items

/-- What a constraint adds to an existing table. -/
def Constraint.statements (table : String) : Constraint → List Statement
  | .primaryKey columns => [.addPrimaryKey table (columns.map Name.text)]
  | .foreignKey columns target =>
      columns.map fun column => .addForeignKey table column.text target.text

def Action.statements (table : String) : Action → List Statement
  | .add declaration => [.addColumn table declaration.column]
  | .drop _ column => [.dropColumn table column.text]
  | .constrain constraint => constraint.statements table

def Sentence.statements : Sentence → List Statement
  | .create unlessExists table items =>
      [.createTable (tableOf table items) unlessExists]
  | .alter table actions => actions.flatMap (Action.statements table.text)
  | .drop tables => tables.map fun table => .dropTable table.text

end Meaning

section Spelling

/-- A text with the given letters, each in lower or upper case. -/
def Cased (letters text : List Char) : Prop :=
  List.Forall₂ (fun letter c => c = letter ∨ c = letter.toUpper) letters text

/-- White space or nothing. -/
def Gap (text : List Char) : Prop :=
  ∀ c ∈ text, isBlank c = true

/-- White space. -/
def Space (text : List Char) : Prop :=
  text ≠ [] ∧ Gap text

instance (letters text : List Char) : Decidable (Cased letters text) :=
  inferInstanceAs (Decidable (List.Forall₂ _ _ _))

instance (text : List Char) : Decidable (Gap text) :=
  inferInstanceAs (Decidable (∀ c ∈ text, isBlank c = true))

instance (text : List Char) : Decidable (Space text) :=
  inferInstanceAs (Decidable (_ ∧ _))

/-- Keywords with white space after each. -/
inductive Words : List String → List Char → Prop where
  | nil : Words [] []
  | cons {word : String} {words : List String} {text space rest : List Char} :
      Cased word.toList text → Space space → Words words rest →
      Words (word :: words) (text ++ space ++ rest)

/-- The pairs of marks that quote a name. -/
def quotes : List (Char × Char) :=
  [('"', '"'), ('\x60', '\x60'), ('[', ']')]

inductive NameText (name : Name) : List Char → Prop where
  | plain {text : List Char} : Cased name.letters text → NameText name text
  | quoted {text : List Char} {start stop : Char} :
      Cased name.letters text → (start, stop) ∈ quotes →
      NameText name (start :: text ++ [stop])

/-- A name, perhaps with the name of a schema before it. -/
inductive QualifiedText (name : Name) : List Char → Prop where
  | bare {text : List Char} : NameText name text → QualifiedText name text
  | qualified {schema : Name} {front text : List Char} :
      NameText schema front → NameText name text →
      QualifiedText name (front ++ '.' :: text)

inductive Padded (spelled : List Char → Prop) : List Char → Prop where
  | intro {before text after : List Char} :
      Gap before → spelled text → Gap after →
      Padded spelled (before ++ text ++ after)

/-- Items with a separator between each two. -/
inductive Separated {α : Type} (separator : Char)
    (spelled : α → List Char → Prop) : List α → List Char → Prop where
  | one {item : α} {text : List Char} :
      spelled item text → Separated separator spelled [item] text
  | more {item : α} {items : List α} {text rest : List Char} :
      spelled item text → Separated separator spelled items rest →
      Separated separator spelled (item :: items) (text ++ separator :: rest)

/-- The list of columns between parentheses. -/
def ColumnsText : List Name → List Char → Prop :=
  Separated ',' fun name => Padded (NameText name)

/-- A table, perhaps with columns of it. -/
inductive TargetText (table : Name) : List Char → Prop where
  | bare {text : List Char} :
      QualifiedText table text → TargetText table text
  | columns {columns : List Name} {text gap list : List Char} :
      QualifiedText table text → Gap gap → ColumnsText columns list →
      TargetText table (text ++ gap ++ '(' :: list ++ [')'])

def Digits (text : List Char) : Prop :=
  text ≠ [] ∧ ∀ c ∈ text, c ∈ "0123456789".toList

/-- The sign of a number, which may be left out. -/
def SignText (text : List Char) : Prop :=
  text ∈ [[], ['+'], ['-']]

inductive FractionText : List Char → Prop where
  | none : FractionText []
  | some {digits : List Char} : Digits digits → FractionText ('.' :: digits)

inductive ExponentText : List Char → Prop where
  | none : ExponentText []
  | some {letter : Char} {sign digits : List Char} :
      letter ∈ ['e', 'E'] → SignText sign → Digits digits →
      ExponentText (letter :: sign ++ digits)

inductive NumberText : List Char → Prop where
  | intro {sign whole fraction exponent : List Char} :
      SignText sign → Digits whole → FractionText fraction →
      ExponentText exponent →
      NumberText (sign ++ whole ++ fraction ++ exponent)

/-- What may stand in a quoted default: no quote, no opening of a comment and
none of the words that say something about a column. -/
structure StringText (content : List Char) : Prop where
  noQuote : '\'' ∉ content
  noBlock : ¬['/', '*'] <:+: content
  noLine : ¬['-', '-'] <:+: content
  free : ∀ word ∈ ["not", "null", "primary", "key", "references"],
    ¬Mentions word content

inductive ClauseText : Clause → List Char → Prop where
  | notNull {text last : List Char} :
      Words ["not"] text → Cased "null".toList last →
      ClauseText .notNull (text ++ last)
  | primaryKey {text last : List Char} :
      Words ["primary"] text → Cased "key".toList last →
      ClauseText .primaryKey (text ++ last)
  | references {table : Name} {text target : List Char} :
      Words ["references"] text → TargetText table target →
      ClauseText (.references table) (text ++ target)
  | number {text number : List Char} :
      Words ["default"] text → NumberText number →
      ClauseText .default (text ++ number)
  | string {text content : List Char} :
      Words ["default"] text → StringText content →
      ClauseText .default (text ++ '\'' :: content ++ ['\''])

inductive ClausesText : List Clause → List Char → Prop where
  | nil : ClausesText [] []
  | cons {clause : Clause} {clauses : List Clause}
      {space text rest : List Char} :
      Space space → ClauseText clause text → ClausesText clauses rest →
      ClausesText (clause :: clauses) (space ++ text ++ rest)

inductive DeclarationText : Declaration → List Char → Prop where
  | intro {declaration : Declaration} {name space type clauses : List Char} :
      NameText declaration.name name → Space space →
      Cased declaration.type.letters type →
      ClausesText declaration.clauses clauses →
      DeclarationText declaration (name ++ space ++ type ++ clauses)

inductive KeyText : Constraint → List Char → Prop where
  | primaryKey {columns : List Name} {text key gap list : List Char} :
      Words ["primary"] text → Cased "key".toList key → Gap gap →
      ColumnsText columns list →
      KeyText (.primaryKey columns) (text ++ key ++ gap ++ '(' :: list ++ [')'])
  | foreignKey {columns : List Name} {table : Name}
      {text key gap list space references target : List Char} :
      Words ["foreign"] text → Cased "key".toList key → Gap gap →
      ColumnsText columns list → Gap space →
      Words ["references"] references → TargetText table target →
      KeyText (.foreignKey columns table)
        (text ++ key ++ gap ++ '(' :: list ++
          ')' :: space ++ references ++ target)

/-- A constraint, perhaps with a name. -/
inductive ConstraintText (constraint : Constraint) : List Char → Prop where
  | anonymous {text : List Char} :
      KeyText constraint text → ConstraintText constraint text
  | named {label : Name} {text name space key : List Char} :
      Words ["constraint"] text → NameText label name → Space space →
      KeyText constraint key →
      ConstraintText constraint (text ++ name ++ space ++ key)

inductive ItemText : Item → List Char → Prop where
  | column {declaration : Declaration} {text : List Char} :
      DeclarationText declaration text → ItemText (.column declaration) text
  | constraint {constraint : Constraint} {text : List Char} :
      ConstraintText constraint text → ItemText (.constraint constraint) text

inductive RemovalText (column : Name) : Removal → List Char → Prop where
  | column {text name : List Char} :
      Words ["drop", "column"] text → NameText column name →
      RemovalText column .column (text ++ name)
  | tight {letters name : List Char} :
      Cased "drop".toList letters → Cased column.letters name →
      RemovalText column .tight (letters ++ ' ' :: name)
  | loose {letters space name : List Char} :
      Cased "drop".toList letters → Space space → NameText column name →
      (space = [' '] → ¬Cased column.letters name) →
      RemovalText column .loose (letters ++ space ++ name)

inductive ActionText : Action → List Char → Prop where
  | add {declaration : Declaration} {words : List String}
      {text added : List Char} :
      words ∈ [["add"], ["add", "column"]] → Words words text →
      DeclarationText declaration added →
      ActionText (.add declaration) (text ++ added)
  | drop {removal : Removal} {column : Name} {text : List Char} :
      RemovalText column removal text → ActionText (.drop removal column) text
  | constrain {constraint : Constraint} {text added : List Char} :
      Words ["add"] text → ConstraintText constraint added →
      ActionText (.constrain constraint) (text ++ added)

inductive SentenceText : Sentence → List Char → Prop where
  | create {unlessExists : Bool} {table : Name} {items : List Item}
      {text condition name gap body : List Char} :
      Words ["create", "table"] text →
      Words (if unlessExists then ["if", "not", "exists"] else []) condition →
      QualifiedText table name → Gap gap →
      Separated ',' (fun item => Padded (ItemText item)) items body →
      SentenceText (.create unlessExists table items)
        (text ++ condition ++ name ++ gap ++ '(' :: body ++ [')'])
  | alter {table : Name} {actions : List Action}
      {text name space list : List Char} :
      Words ["alter", "table"] text → QualifiedText table name →
      Space space →
      Separated ',' (fun action => Padded (ActionText action)) actions list →
      SentenceText (.alter table actions) (text ++ name ++ space ++ list)
  | drop {tables : List Name} {words : List String}
      {text condition list : List Char} :
      Words ["drop", "table"] text →
      words ∈ [[], ["if", "exists"]] → Words words condition →
      Separated ',' (fun table => Padded (QualifiedText table)) tables list →
      SentenceText (.drop tables) (text ++ condition ++ list)

/-- Sentences with semicolons between them, and perhaps one at the end. -/
inductive ScriptText : List Sentence → List Char → Prop where
  | blank {text : List Char} : Gap text → ScriptText [] text
  | last {sentence : Sentence} {text : List Char} :
      Padded (SentenceText sentence) text → ScriptText [sentence] text
  | more {sentence : Sentence} {sentences : List Sentence}
      {text rest : List Char} :
      Padded (SentenceText sentence) text → ScriptText sentences rest →
      ScriptText (sentence :: sentences) (text ++ ';' :: rest)

end Spelling

end ArchSurvey.Schema
