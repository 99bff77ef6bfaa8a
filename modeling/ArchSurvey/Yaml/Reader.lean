import ArchSurvey.Yaml.Basic
import ArchSurvey.Yaml.Scalar

/-!
# Reading YAML documents

Blocks are told apart by their columns, and flow collections by their brackets.  Anchors, tags and
directives are no part of what is read, and a text holds at most one document.
-/

namespace ArchSurvey.Yaml

/-- The longest text of a key. -/
def maxKeyLength : Nat := 1024

/-- A scalar that does not stand for itself alone. -/
def quoted (text : List Char) : Yaml :=
  scalar false (String.ofList text)

mutual

/-- A scalar or a flow collection on its own. -/
def flowNode (inFlow : Bool) (least : Nat) : Nat → Place → Step Yaml
  | 0, _ => none
  | fuel + 1, place =>
      match place.rest with
      | '"' :: _ => (quotedScalar true place.next).map fun (text, next) => (quoted text, next)
      | '\'' :: _ => (quotedScalar false place.next).map fun (text, next) => (quoted text, next)
      | '[' :: _ => flowItems least fuel [] place.next.flowContent
      | '\x7b' :: _ => flowEntries least fuel [] place.next.flowContent
      | _ =>
          (plainScalar inFlow least place).map fun (text, next) =>
            (scalar true (String.ofList text), next)

/-- A node between flow brackets, with its value if it is a key. -/
def flowEntry (least : Nat) : Nat → Place → Step (Yaml × Option Yaml)
  | 0, _ => none
  | fuel + 1, place =>
      match flowNode true least fuel place with
      | none => none
      | some (node, next) =>
          let next := next.flowContent
          match next.rest with
          | ':' :: _ =>
              if next.line != place.line then none
              else
                let start := next.next.flowContent
                match start.rest with
                | ',' :: _ => some ((node, some nothing), start)
                | ']' :: _ => some ((node, some nothing), start)
                | '\x7d' :: _ => some ((node, some nothing), start)
                | _ =>
                    match flowNode true least fuel start with
                    | none => none
                    | some (value, next) => some ((node, some value), next.flowContent)
          | _ => some ((node, none), next)

/-- The items of a flow list up to its closing bracket; `read` holds those before, last first. -/
def flowItems (least : Nat) : Nat → List Yaml → Place → Step Yaml
  | 0, _, _ => none
  | fuel + 1, read, place =>
      match place.rest with
      | ']' :: _ => some (list read.reverse, place.next)
      | _ =>
          match flowEntry least fuel place with
          | none => none
          | some ((node, value), next) =>
              let item :=
                match value with
                | none => node
                | some value => map [(node, value)]
              match next.rest with
              | ',' :: _ => flowItems least fuel (item :: read) next.next.flowContent
              | ']' :: _ => some (list (item :: read).reverse, next.next)
              | _ => none

/-- The entries of a flow map up to its closing bracket; `read` holds those before, last first. -/
def flowEntries (least : Nat) : Nat → List (Yaml × Yaml) → Place → Step Yaml
  | 0, _, _ => none
  | fuel + 1, read, place =>
      match place.rest with
      | '\x7d' :: _ => some (map read.reverse, place.next)
      | _ =>
          match flowEntry least fuel place with
          | none => none
          | some ((node, value), next) =>
              let entry := (node, value.getD nothing)
              match next.rest with
              | ',' :: _ => flowEntries least fuel (entry :: read) next.next.flowContent
              | '\x7d' :: _ => some (map (entry :: read).reverse, next.next)
              | _ => none

end

/-- How many steps the reader may take at a place. -/
def steps (place : Place) : Nat :=
  4 * place.rest.length + 8

/-- A scalar or a flow collection where blocks may stand around it. -/
def inlineNode (least : Nat) (place : Place) : Step Yaml :=
  match place.rest with
  | '|' :: _ =>
      (blockScalar false least place.next).map fun (text, next) => (quoted text, next)
  | '>' :: _ =>
      (blockScalar true least place.next).map fun (text, next) => (quoted text, next)
  | _ => flowNode false least (steps place) place

/-- A key that ends on its line with a colon, and the place after the colon. -/
def key? (least : Nat) (place : Place) : Option (Yaml × Place) := do
  let (node, next) ← flowNode false least (steps place) place
  let next := next.skip (next.rest.takeWhile isSpace).length
  if next.line == place.line && next.column ≤ place.column + maxKeyLength && next.hasMark ':' then
    some (node, next.next)
  else none

mutual

/-- A node whose first content is at a place, where a block of its own may start. -/
def blockNode : Nat → Nat → Place → Step Yaml
  | 0, _, _ => none
  | fuel + 1, least, place =>
      if place.hasMark '-' then blockItems false fuel place.column [] place
      else if place.hasMark '?' || (key? least place).isSome then
        blockEntries fuel place.column [] place
      else inlineNode least place

/-- What stands after a mark of a block at a column: a block further right, or nothing. -/
def nested : Nat → Nat → Place → Step Yaml
  | 0, _, _ => none
  | fuel + 1, column, place =>
      let start := place.content false
      if start.atEnd || start.column ≤ column then some (nothing, place)
      else blockNode fuel (column + 1) start

/-- The items of a block list at a column.  One that shares its column with the keys around it ends
at the next of them. -/
def blockItems (isShared : Bool) : Nat → Nat → List Yaml → Place → Step Yaml
  | 0, _, _, _ => none
  | fuel + 1, column, read, place =>
      match nested fuel column place.next with
      | none => none
      | some (item, after) =>
          let next := after.content true
          let read := item :: read
          if next.atEnd || next.column < column then some (list read.reverse, after)
          else if next.column == column then
            if next.hasMark '-' then blockItems isShared fuel column read next
            else if isShared then some (list read.reverse, after)
            else none
          else none

/-- The value after the colon of a key at a column. -/
def blockValue : Nat → Nat → Place → Step Yaml
  | 0, _, _ => none
  | fuel + 1, column, place =>
      let start := place.content true
      if start.atEnd then some (nothing, place)
      else if start.line == place.line then inlineNode (column + 1) start
      else if column < start.column then blockNode fuel (column + 1) start
      else if start.column == column && start.hasMark '-' then
        blockItems true fuel column [] start
      else some (nothing, place)

/-- The entries of a block map at a column. -/
def blockEntries : Nat → Nat → List (Yaml × Yaml) → Place → Step Yaml
  | 0, _, _, _ => none
  | fuel + 1, column, read, place =>
      match blockEntry fuel column place with
      | none => none
      | some (entry, after) =>
          let next := after.content true
          let read := entry :: read
          if next.atEnd || next.column < column then some (map read.reverse, after)
          else if next.column == column then blockEntries fuel column read next
          else none

/-- An entry of a block map at a column. -/
def blockEntry : Nat → Nat → Place → Step (Yaml × Yaml)
  | 0, _, _ => none
  | fuel + 1, column, place =>
      if place.hasMark '?' then
        match nested fuel column place.next with
        | none => none
        | some (node, after) =>
            let next := after.content true
            if next.column == column && next.hasMark ':' then
              (nested fuel column next.next).map fun (value, after) => ((node, value), after)
            else some ((node, nothing), after)
      else
        match key? (column + 1) place with
        | none => none
        | some (node, next) =>
            (blockValue fuel column next).map fun (value, after) => ((node, value), after)

end

/-- A character that a text may hold. -/
def isPrintable (c : Char) : Bool :=
  let n := c.toNat
  c == '\t' || c == '\n' || c == '\r' || n == 0x85 || (0x20 ≤ n && n ≤ 0x7E) ||
    (0xA0 ≤ n && n ≤ 0xFFFD && n != 0xFEFF) || 0x10000 ≤ n

/-- The text with a line feed for each line end. -/
def withLineFeeds : List Char → List Char
  | [] => []
  | '\r' :: '\n' :: rest => '\n' :: withLineFeeds rest
  | '\r' :: rest => '\n' :: withLineFeeds rest
  | c :: rest => (if c == '\u0085' then '\n' else c) :: withLineFeeds rest

/-- The text without the mark of byte order at its start. -/
def withoutByteOrder (text : List Char) : List Char :=
  match text with
  | '\ufeff' :: rest => rest
  | rest => rest

/-- The document that starts at a place, and the place after it. -/
def document (start : Place) : Step Yaml :=
  if start.hasMarker ['-', '-', '-'] then
    let after := start.skip 3
    let content := after.content true
    if content.atEnd then some (nothing, after)
    else if content.line == after.line then inlineNode 0 content
    else blockNode (steps content) 0 content
  else if start.rest.head? == some '%' then none
  else blockNode (steps start) 0 start

/-- The document of a text, or nothing inside for a text without content; none if the text is no
YAML. -/
def parse? (text : List Char) : Option (Option Yaml) :=
  let text := withLineFeeds (withoutByteOrder text)
  if !text.all isPrintable then none
  else
    let start := (Place.mk 0 0 text).content false
    if start.rest.isEmpty then some none
    else do
      let (node, after) ← document start
      let next := after.content true
      let next := if next.hasMarker ['.', '.', '.'] then (next.skip 3).content true else next
      if next.rest.isEmpty then some (some node) else none

end ArchSurvey.Yaml
