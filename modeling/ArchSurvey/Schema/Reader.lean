import ArchSurvey.Schema.Nesting
import ArchSurvey.Schema.Statement
import ArchSurvey.Text.LetterCase
import ArchSurvey.Text.Pattern

/-!
# Reading scripts

The statements of a script about tables; all other statements are passed over.  Keywords are
recognised in any letter case, names are written in lower case and types in upper case.
-/

namespace ArchSurvey.Schema

open Text
open Text.Pattern (concat opt oneOf group blanks blanks1 is word wordEdge wordChar some1 fewest1
  many any anyOf textStart textEnd noneOf)

/-- Whether a character quotes a name. -/
def isQuote (c : Char) : Bool :=
  ['"', '\x60', '[', ']'].contains c

/-- The bare name in lower case, without qualification and quotes. -/
def identifier (text : List Char) : String :=
  String.ofList (lower (trimWhile isQuote (afterLast '.' (trim text))))

/-- The names between commas. -/
def identifiers (text : List Char) : List String :=
  ((splitOn ',' text).map identifier).filter (· != "")

/-- A name, perhaps qualified and quoted. -/
def namePattern : Pattern :=
  some1 (oneOf [wordChar, is '.', .char isQuote])

/-- A name, perhaps quoted but not qualified. -/
def plainNamePattern : Pattern :=
  some1 (oneOf [wordChar, .char isQuote])

/-- Words with blanks after each. -/
def phrase (words : List String) : Pattern :=
  concat (words.map fun text => .seq (word text) blanks1)

/-- The opening of a new table up to its opening parenthesis: group 1 if it may exist already, and
its name in group 2. -/
def createTable : Pattern :=
  concat
    [textStart, blanks, phrase ["create"],
      opt (oneOf
        [concat
            [opt (oneOf [phrase ["global"], phrase ["local"]]), word "temp", opt (word "orary"),
              blanks1],
          phrase ["unlogged"]]),
      phrase ["table"], opt (group 1 (phrase ["if", "not", "exists"])), group 2 namePattern, blanks,
      is '(']

/-- A change of a table: its name in group 1 and the actions in group 2. -/
def alterTable : Pattern :=
  concat
    [textStart, blanks, phrase ["alter", "table"], opt (phrase ["if", "exists"]),
      opt (phrase ["only"]), group 1 namePattern, blanks1, group 2 (many any), textEnd]

/-- The removal of tables: their names in group 1. -/
def dropTable : Pattern :=
  concat
    [textStart, blanks, phrase ["drop", "table"], opt (phrase ["if", "exists"]),
      group 1 (fewest1 any),
      opt (concat [blanks1, oneOf [word "cascade", word "restrict"]]), blanks, textEnd]

/-- An addition to a table: what is added in group 1. -/
def addAction : Pattern :=
  concat
    [textStart, blanks, phrase ["add"], opt (phrase ["column"]),
      opt (phrase ["if", "not", "exists"]), group 1 (some1 any), textEnd]

/-- The removal of a column: its name in group 1. -/
def dropColumn : Pattern :=
  concat
    [textStart, blanks, phrase ["drop"], opt (phrase ["column"]), opt (phrase ["if", "exists"]),
      group 1 plainNamePattern]

/-- What stands in parentheses, in a group. -/
def parenthesized (number : Nat) : Pattern :=
  concat [is '(', group number (many (noneOf ")")), is ')']

/-- A primary key of a table: its columns in group 1. -/
def primaryKey : Pattern :=
  concat [phrase ["primary"], word "key", blanks, parenthesized 1]

/-- A foreign key of a table: its columns in group 1 and the other table in group 2. -/
def foreignKey : Pattern :=
  concat
    [phrase ["foreign"], word "key", blanks, parenthesized 1, blanks, phrase ["references"],
      group 2 namePattern]

/-- The table that a column points at, in group 1. -/
def inlineReferences : Pattern :=
  concat [wordEdge, phrase ["references"], group 1 namePattern]

/-- That a column may not be null. -/
def notNull : Pattern :=
  concat [wordEdge, phrase ["not"], word "null", wordEdge]

/-- That a column is the primary key. -/
def inlinePrimaryKey : Pattern :=
  concat [wordEdge, phrase ["primary"], word "key", wordEdge]

/-- The words that end the type of a column. -/
def columnKeywords : List String :=
  ["NOT", "NULL", "PRIMARY", "REFERENCES", "DEFAULT", "UNIQUE", "CHECK", "CONSTRAINT",
    "GENERATED", "AUTO_INCREMENT", "AUTOINCREMENT", "IDENTITY", "COLLATE", "COMMENT", "ON"]

/-- The words that begin a constraint of a table. -/
def constraintKeywords : List String :=
  ["PRIMARY", "FOREIGN", "CONSTRAINT", "UNIQUE", "CHECK", "INDEX", "KEY", "EXCLUDE"]

/-- Whether a word is one of some upper-case keywords, in any letter case. -/
def isKeyword (keywords : List String) (text : List Char) : Bool :=
  keywords.contains (String.ofList (upper text))

/-- Whether an item of a table is a constraint of the table. -/
def isConstraint (item : List Char) : Bool :=
  isKeyword constraintKeywords ((words item).headD [])

/-- The words of a column, what stands in parentheses or quotes being one word with its
neighbours. -/
def columnWords (item : List Char) : List (List Char) :=
  ((splitOutside ' ' (joinWith [' '] (words item))).map trim).filter fun text => !text.isEmpty

/-- Reads a column: a name, the words of a type, and what is said about it. -/
def readColumn (item : List Char) : Option Column :=
  match columnWords item with
  | [] => none
  | name :: rest =>
      let name := identifier name
      let type := rest.takeWhile fun text => !isKeyword columnKeywords text
      if name == "" || type.isEmpty then none
      else
        let inKey := inlinePrimaryKey.occurs item
        some
          { name
            dataType := String.ofList (upper (joinWith [' '] type))
            nullable := !(inKey || notNull.occurs item)
            inKey
            references := (inlineReferences.search item).map fun found =>
              identifier (found.group 1) }

/-- The columns of the last primary key among the constraints of a table. -/
def declaredKey (constraints : List (List Char)) : List String :=
  ((constraints.filterMap primaryKey.search).getLast?.map fun found =>
    identifiers (found.group 1)).getD []

/-- The columns that point at another table by the constraints of a table. -/
def foreignKeys (constraints : List (List Char)) : List (String × String) :=
  (constraints.filterMap foreignKey.search).flatMap fun found =>
    (identifiers (found.group 1)).map fun column => (column, identifier (found.group 2))

/-- A column with what the constraints of its table say about it. -/
def constrain (key : List String) (foreign : List (String × String)) (column : Column) : Column :=
  let column :=
    if key.contains column.name then { column with inKey := true, nullable := false } else column
  match foreign.lookup column.name with
  | some target => { column with references := some target }
  | none => column

/-- Reads the items of a table. -/
def readTable (name : String) (body : List Char) : TableDefinition :=
  let items := splitOutside ',' body
  let constraints := items.filter isConstraint
  let columns := (items.filter fun item => !isConstraint item).filterMap readColumn
  let declared := declaredKey constraints
  let key :=
    if declared.isEmpty then (columns.filter Column.inKey).map Column.name else declared
  { name
    columns := columns.map (constrain key (foreignKeys constraints))
    primaryKey := key }

/-- Reads what is added to a table. -/
def readAddition (table : String) (added : List Char) : List Statement :=
  if isConstraint added then
    match foreignKey.search added with
    | some found =>
        (identifiers (found.group 1)).map fun column =>
          .addForeignKey table column (identifier (found.group 2))
    | none =>
        match primaryKey.search added with
        | some found => [.addPrimaryKey table (identifiers (found.group 1))]
        | none => []
  else (readColumn added).toList.map (.addColumn table)

/-- Whether an action removes something other than a column. -/
def dropsOther (action : List Char) : Bool :=
  let text := upper (trimStart action)
  ["DROP CONSTRAINT", "DROP PRIMARY", "DROP INDEX"].any fun start => startsWith start.toList text

/-- Reads one action of a change of a table. -/
def readAction (table : String) (action : List Char) : List Statement :=
  match addAction.search action with
  | some found => readAddition table (trim (found.group 1))
  | none =>
      if dropsOther action then []
      else
        match dropColumn.search action with
        | some found => [.dropColumn table (identifier (found.group 1))]
        | none => []

/-- Reads one statement, which may amount to several changes or to none. -/
def readStatement (text : List Char) : Except SchemaError (List Statement) :=
  match createTable.search text with
  | some found =>
      let name := identifier (found.group 2)
      match insideParentheses found.after with
      | some body => .ok [.createTable (readTable name body) (found.group? 1).isSome]
      | none => .error (.unterminated name)
  | none =>
      match alterTable.search text with
      | some found =>
          let table := identifier (found.group 1)
          .ok ((splitOutside ',' (found.group 2)).flatMap (readAction table))
      | none =>
          match dropTable.search text with
          | some found => .ok ((identifiers (found.group 1)).map .dropTable)
          | none => .ok []

/-- Reads the statements of a script; the first statement that cannot be read refuses it. -/
def readScript (text : List Char) : Except SchemaError (List Statement) := do
  let statements ← (splitOutside ';' (withoutComments text)).mapM readStatement
  return statements.flatten

end ArchSurvey.Schema
