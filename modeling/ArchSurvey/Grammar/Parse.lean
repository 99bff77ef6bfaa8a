import ArchSurvey.Grammar.Lexis

/-!
# Grammars and parsing

A grammar is a rule for each sort of construct.  A rule is tried at a place of the source and
matches what follows or does not; of several alternatives the first that matches counts.  The work
that may be spent on the syntax tree of a source is bounded by its length, and no source of use
comes near the bound.
-/

namespace ArchSurvey.Grammar

/-- What can be asked of the source at a place.  The names of constructs are those of `ν`. -/
inductive Rule (ν : Type) where
  /-- A word of a sort, here and now. -/
  | scan (scan : Scan)
  /-- A word or sign after blanks, and no longer one. -/
  | text (word : List Char)
  /-- A sign after blanks, which may be the start of a longer one. -/
  | glued (sign : List Char)
  /-- One rule after the other. -/
  | all (rules : List (Rule ν))
  /-- The first of several rules that matches. -/
  | any (rules : List (Rule ν))
  /-- A rule as often as it matches. -/
  | many (rule : Rule ν)
  /-- Nothing, provided that a rule would match. -/
  | ahead (rule : Rule ν)
  /-- Nothing, provided that a rule would not match. -/
  | unless (rule : Rule ν)
  /-- A rule after blanks, whose matches are the children of a node. -/
  | node (kind : Kind) (rule : Rule ν)
  /-- A rule, and then another as often as it matches, which takes what stands before it as its
  first children. -/
  | grow (base step : Rule ν)
  /-- A rule, and then another, which makes a node of both if it matches something. -/
  | extend (kind : Kind) (base more : Rule ν)
  /-- A construct of the grammar. -/
  | part (name : ν)
  /-- A rule in brackets, where a line end is a blank, or outside of them. -/
  | within (inBrackets : Bool) (rule : Rule ν)
  /-- The end of a line outside of brackets, or of the source, with the comments before it. -/
  | lineEnd
  /-- A rule for a line that is indented as its block is, or more. -/
  | line (rule : Rule ν)
  /-- A rule for each of the lines that are indented more than their block is, if there are
  any. -/
  | indented (rule : Rule ν)

/-- The construct that a text stands for is the text itself. -/
instance {ν : Type} : Coe String (Rule ν) where
  coe word := .text word.toList

namespace Rule

variable {ν : Type}

/-- Nothing. -/
def nothing : Rule ν :=
  .all []

/-- A rule or nothing. -/
def maybe (rule : Rule ν) : Rule ν :=
  .any [rule, nothing]

/-- A rule at least once. -/
def several (rule : Rule ν) : Rule ν :=
  .all [rule, .many rule]

/-- A rule at least once, with a separator between each two. -/
def separated (separator rule : Rule ν) : Rule ν :=
  .all [rule, .many (.all [separator, rule])]

/-- A rule as often as it matches, with commas between. -/
def commas (rule : Rule ν) : Rule ν :=
  maybe (separated "," rule)

/-- A rule as often as it matches, with commas between and perhaps one at the end. -/
def commasEnd (rule : Rule ν) : Rule ν :=
  maybe (.all [separated "," rule, maybe ","])

/-- One of several words or signs. -/
def words (texts : List String) : Rule ν :=
  .any (texts.map fun text => .text text.toList)

/-- A word of a sort, as a node of its own. -/
def leaf (kind : Kind) (scan : Scan) : Rule ν :=
  .node kind (.scan scan)

/-- What follows stands on the same line. -/
def sameLine : Rule ν :=
  .unless .lineEnd

end Rule

/-- The grammar of a language: its lexis and a rule for each construct. -/
structure Rules (ν : Type) where
  lexis : Lexis
  rule : ν → Rule ν
  /-- What a whole source is. -/
  source : Rule ν

/-! ## Parsing -/

/-- What surrounds a construct: the column of its block, and whether brackets are open. -/
structure Surroundings where
  indent : Nat := 0
  inBrackets : Bool := false

/-- What a rule has matched: trees, and the place after them. -/
abbrev Match := List Tree × Spot

namespace Rules

variable {ν : Type}

/-- The comments at a place, and the place after them and after the blanks. -/
def skip (rules : Rules ν) (around : Surroundings) (spot : Spot) : Match :=
  rules.lexis.skip (!rules.lexis.endsLines || around.inBrackets) spot

/-- The place where the last of some trees stops. -/
def stopOf (trees : List Tree) (spot : Spot) : Spot :=
  (trees.getLast?.map Tree.stop).getD spot

/-- The end of a line, or of the source, with the comments before it. -/
def lineEnd? (rules : Rules ν) (spot : Spot) : Option Match :=
  let (comments, next) := rules.lexis.skip false spot
  match next.rest with
  | [] => some (comments, stopOf comments spot)
  | c :: _ => if c == '\n' then some (comments, stopOf comments spot) else none

/-- The next line with content, if it is indented to a column or more. -/
def line? (rules : Rules ν) (column : Nat) (spot : Spot) : Option Match :=
  let (comments, next) := rules.lexis.skip true spot
  if next.rest.isEmpty || next.column < column then none else some (comments, next)

/-- The comments that still belong to a block, and the place after them; none if what follows is
indented as the block is. -/
def blockEnd? (rules : Rules ν) (column : Nat) (spot : Spot) : Option Match :=
  let comments := (rules.lexis.skip true spot).1.takeWhile fun comment =>
    decide (column ≤ comment.start.column)
  let stop := stopOf comments spot
  match rules.line? column stop with
  | some _ => none
  | none => some (comments, stop)

mutual

/-- What a rule matches at a place. -/
def run (rules : Rules ν) : Nat → Rule ν → Surroundings → Spot → Option Match
  | 0, _, _, _ => none
  | fuel + 1, rule, around, spot =>
      match rule with
      | .scan scan => (scan spot.rest).map fun count => ([], spot.advance count)
      | .text word =>
          let (comments, next) := rules.skip around spot
          if rules.lexis.startsWith word next.rest then
            some (comments, next.advance word.length)
          else none
      | .glued sign =>
          let (comments, next) := rules.skip around spot
          if Text.startsWith sign next.rest then some (comments, next.advance sign.length)
          else none
      | .all [] => some ([], spot)
      | .all (first :: others) => do
          let (trees, next) ← rules.run fuel first around spot
          let (more, stop) ← rules.run fuel (.all others) around next
          some (trees ++ more, stop)
      | .any [] => none
      | .any (first :: others) =>
          match rules.run fuel first around spot with
          | some found => some found
          | none => rules.run fuel (.any others) around spot
      | .many rule =>
          match rules.run fuel rule around spot with
          | none => some ([], spot)
          | some (trees, next) =>
              if next.offset == spot.offset then some ([], spot)
              else do
                let (more, stop) ← rules.run fuel (.many rule) around next
                some (trees ++ more, stop)
      | .ahead rule => (rules.run fuel rule around spot).map fun _ => ([], spot)
      | .unless rule =>
          match rules.run fuel rule around spot with
          | some _ => none
          | none => some ([], spot)
      | .node kind rule => do
          let (comments, start) := rules.skip around spot
          let (children, stop) ← rules.run fuel rule around start
          some (comments ++ [.node kind start stop children], stop)
      | .grow base step => do
          let (comments, start) := rules.skip around spot
          let (trees, next) ← rules.run fuel base around start
          let (grown, stop) ← rules.grow fuel step around trees next
          some (comments ++ grown, stop)
      | .extend kind base more => do
          let (comments, start) := rules.skip around spot
          let (trees, next) ← rules.run fuel base around start
          let (others, stop) ← rules.run fuel more around next
          if stop.offset == next.offset then some (comments ++ trees, next)
          else some (comments ++ [.node kind start stop (trees ++ others)], stop)
      | .part name => rules.run fuel (rules.rule name) around spot
      | .within inBrackets rule => rules.run fuel rule { around with inBrackets } spot
      | .lineEnd => if around.inBrackets then none else rules.lineEnd? spot
      | .line rule => do
          let (comments, start) ← rules.line? around.indent spot
          let (trees, stop) ← rules.run fuel rule around start
          some (comments ++ trees, stop)
      | .indented rule =>
          match rules.line? (around.indent + 1) spot with
          | none => some ([], spot)
          | some (comments, start) => do
              let (trees, next) ←
                rules.run fuel (.many (.line rule)) { around with indent := start.column } start
              let (trailing, stop) ← rules.blockEnd? start.column next
              some (comments ++ trees ++ trailing, stop)

/-- What some trees grow to by a rule that takes them as its first children, as often as it
matches. -/
def grow (rules : Rules ν) :
    Nat → Rule ν → Surroundings → List Tree → Spot → Option Match
  | 0, _, _, _, _ => none
  | fuel + 1, step, around, trees, spot =>
      match rules.run fuel step around spot with
      | none => some (trees, spot)
      | some (added, next) =>
          if next.offset == spot.offset then some (trees, spot)
          else rules.grow fuel step around (Tree.adopt trees added) next

end

/-- The most work that is spent on a source of a length. -/
def effort (length : Nat) : Nat :=
  1000 * (length + 10)

/-- The syntax tree of a source, if it is well-formed. -/
def tree? (rules : Rules ν) (source : List Char) : Option Tree := do
  let start := Spot.start source
  let (trees, stop) ← rules.run (effort source.length) rules.source {} start
  let (comments, finish) := rules.lexis.skip true stop
  if finish.rest.isEmpty then some (.node .source start finish (trees ++ comments)) else none

end Rules

end ArchSurvey.Grammar
