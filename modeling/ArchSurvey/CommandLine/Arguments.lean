/-!
# Arguments

Reading the words of a command line: options under a long or a short name, with or without a value,
and operands.  Words are read in order, and the first one that settles the matter does so.
-/

namespace ArchSurvey.CommandLine

/-- Why the words of a command line are not read to their end. -/
inductive Halt where
  /-- The user asks for help. -/
  | help
  /-- The user asks for the version. -/
  | version
  /-- The words make no sense. -/
  | misuse
  deriving DecidableEq, Repr

/-- An option that a command takes. -/
structure Choice where
  long : String
  short : Option Char := none
  takesValue : Bool := false
  repeatable : Bool := false
  /-- Whether a text is a value of the option. -/
  accepts : String → Bool := fun _ => true

/-- What a command takes. -/
structure Shape where
  choices : List Choice
  /-- How many operands there may be. -/
  operands : Nat := 0

/-- What has been read of a command line. -/
structure Arguments where
  /-- The options with their values, empty for those that take none, in order. -/
  given : List (String × String) := []
  operands : List String := []
  deriving DecidableEq, Repr

namespace Arguments

/-- Whether an option is given. -/
def has (arguments : Arguments) (long : String) : Bool :=
  arguments.given.any fun option => option.1 == long

/-- The value of an option. -/
def value? (arguments : Arguments) (long : String) : Option String :=
  arguments.given.lookup long

/-- The values of an option. -/
def values (arguments : Arguments) (long : String) : List String :=
  (arguments.given.filter fun option => option.1 == long).map Prod.snd

/-- The arguments with one more option. -/
def give (arguments : Arguments) (choice : Choice) (value : String) : Except Halt Arguments :=
  if (!choice.repeatable && arguments.has choice.long) || !choice.accepts value then .error .misuse
  else .ok { arguments with given := arguments.given ++ [(choice.long, value)] }

/-- The arguments with some more operands. -/
def operate (shape : Shape) (arguments : Arguments) (operands : List String) :
    Except Halt Arguments :=
  let operands := arguments.operands ++ operands
  if shape.operands < operands.length || operands.contains "" then .error .misuse
  else .ok { arguments with operands }

end Arguments

/-- Whether a word stands for options. -/
def isOption (word : String) : Bool :=
  match word.toList with
  | '-' :: _ :: _ => true
  | _ => false

/-- The halt that an option of every command asks for. -/
def haltOf (long : String) : Option Halt :=
  if long == "help" then some .help
  else if long == "version" then some .version
  else none

/-- What a step makes of a word: the arguments so far, and the option that waits for its value. -/
abbrev Progress := Arguments × Option Choice

/-- Reads an option by its long name, with the value after an equals sign if there is one. -/
def readLong (shape : Shape) (arguments : Arguments) (name : String) (value : Option String) :
    Except Halt Progress := do
  match shape.choices.find? fun choice => choice.long == name with
  | none => throw .misuse
  | some choice =>
      if choice.takesValue then
        match value with
        | none => return (arguments, some choice)
        | some value => return (← arguments.give choice value, none)
      else
        match value, haltOf name with
        | some _, _ => throw .misuse
        | none, some halt => throw halt
        | none, none => return (← arguments.give choice "", none)

/-- Reads options by their short names, the last of which may have its value after it. -/
def readShorts (shape : Shape) (arguments : Arguments) : List Char → Except Halt Progress
  | [] => .ok (arguments, none)
  | c :: rest =>
      match shape.choices.find? fun choice => choice.short == some c with
      | none => .error .misuse
      | some choice =>
          if choice.takesValue then
            match rest with
            | [] => .ok (arguments, some choice)
            | '=' :: value => (arguments.give choice (String.ofList value)).map (·, none)
            | value => (arguments.give choice (String.ofList value)).map (·, none)
          else
            match haltOf choice.long with
            | some halt => .error halt
            | none =>
                match arguments.give choice "" with
                | .error halt => .error halt
                | .ok arguments => readShorts shape arguments rest

/-- A name and the value after its first equals sign. -/
def splitValue (text : List Char) : String × Option String :=
  match text.dropWhile (· != '=') with
  | [] => (String.ofList text, none)
  | _ :: value => (String.ofList (text.takeWhile (· != '=')), some (String.ofList value))

/-- Reads a word that stands for options. -/
def readOption (shape : Shape) (arguments : Arguments) (word : String) : Except Halt Progress :=
  match word.toList with
  | '-' :: '-' :: text =>
      let (name, value) := splitValue text
      readLong shape arguments name value
  | '-' :: shorts => readShorts shape arguments shorts
  | _ => .error .misuse

/-- Reads the words after those read so far; `waiting` is the option whose value comes next. -/
def readFrom (shape : Shape) : Progress → List String → Except Halt Arguments
  | (arguments, none), [] => .ok arguments
  | (_, some _), [] => .error .misuse
  | (arguments, some choice), word :: rest =>
      if isOption word then .error .misuse
      else
        match arguments.give choice word with
        | .error halt => .error halt
        | .ok arguments => readFrom shape (arguments, none) rest
  | (arguments, none), word :: rest =>
      if word == "--" then arguments.operate shape rest
      else if isOption word then
        match readOption shape arguments word with
        | .error halt => .error halt
        | .ok progress => readFrom shape progress rest
      else
        match arguments.operate shape [word] with
        | .error halt => .error halt
        | .ok arguments => readFrom shape (arguments, none) rest

/-- Reads the words of a command. -/
def read (shape : Shape) (words : List String) : Except Halt Arguments :=
  readFrom shape ({}, none) words

end ArchSurvey.CommandLine
