import ArchSurvey.Text.Utf8

/-!
# Path patterns

Patterns over slash-separated paths.  Reading a pattern keeps a stack of unfinished branches, one
more for each open brace and each comma inside braces; two stars stand for any number of whole
directories where slashes or the ends of the pattern surround them, and for two stars elsewhere.

A path is matched by the bytes of its text, so a question mark stands for one byte.  The matcher is
structural on the pattern; a star tries every end that it can reach.
-/

namespace ArchSurvey

/-- Why a text is no path pattern. -/
inductive GlobError where
  | unclosedClass
  | invalidRange (first last : Char)
  | danglingEscape
  | unclosedAlternates
  | unopenedAlternates
  deriving DecidableEq, Repr

/-- What is said of a pattern that cannot be read. -/
def GlobError.message : GlobError → String
  | unclosedClass => "unclosed character class; missing ']'"
  | invalidRange first last =>
      "invalid range; '" ++ first.toString ++ "' > '" ++ last.toString ++ "'"
  | danglingEscape => "dangling '\\'"
  | unclosedAlternates =>
      "unclosed alternate group; missing '\x7d' (maybe escape '\x7b' with '[\x7b]'?)"
  | unopenedAlternates =>
      "unopened alternate group; missing '\x7b' (maybe escape '\x7d' with '[\x7d]'?)"

namespace Glob

/-- A part of a path pattern. -/
inductive Token where
  | literal (c : Char)
  /-- One byte other than a slash. -/
  | any
  /-- Any number of bytes other than slashes. -/
  | zeroOrMore
  /-- Any number of directories at the start of the path. -/
  | leadingDirectories
  /-- Everything below a directory. -/
  | everythingBelow
  /-- A slash, with any number of directories after it. -/
  | innerDirectories
  /-- One byte from or outside some ranges of characters. -/
  | oneOf (negated : Bool) (ranges : List (Char × Char))
  /-- Any of several patterns. -/
  | alternates (branches : List (List Token))

/-- The reader's state: the branches being read, innermost first and each last token first, and for
each open brace how many branches were there before it. -/
structure Reading where
  branches : List (List Token)
  opened : List Nat

/-- Adds a token to the branch being read. -/
def Reading.push (state : Reading) (token : Token) : Except GlobError Reading :=
  match state.branches with
  | [] => .error .unopenedAlternates
  | branch :: rest => .ok { state with branches := (token :: branch) :: rest }

/-- The ranges of a class, its last range extended to `c` if a hyphen stands before it. -/
def addToClass (inRange : Bool) (c : Char) (ranges : List (Char × Char)) :
    Except GlobError (List (Char × Char)) :=
  match inRange, ranges with
  | true, (first, _) :: rest =>
      if c < first then .error (.invalidRange first c) else .ok ((first, c) :: rest)
  | _, ranges => .ok ((c, c) :: ranges)

/-- The ranges of a class up to its closing bracket, last first, and the text after it. -/
def readClass (first inRange : Bool) (ranges : List (Char × Char)) :
    List Char → Except GlobError (List (Char × Char) × List Char)
  | [] => .error .unclosedClass
  | c :: rest =>
      if c == ']' && !first then
        .ok (if inRange then ('-', '-') :: ranges else ranges, rest)
      else if c == '-' && !first && !inRange then readClass false true ranges rest
      else
        match addToClass inRange c ranges with
        | .error e => .error e
        | .ok ranges => readClass false false ranges rest

/-- Closes the innermost brace: its branches become one token of the branch around it. -/
def Reading.close (state : Reading) : Except GlobError Reading :=
  match state.opened with
  | [] => .error .unopenedAlternates
  | before :: opened =>
      let count := state.branches.length - before
      let inner := (state.branches.take count).map List.reverse
      Reading.push ⟨state.branches.drop count, opened⟩ (.alternates inner.reverse)

/-- Adds two stars as two stars. -/
def Reading.pushStars (state : Reading) : Except GlobError Reading :=
  match state.push .zeroOrMore with
  | .error e => .error e
  | .ok state => state.push .zeroOrMore

/-- Replaces the slash before two stars by the token for directories, unless the tokens before
already stand for directories. -/
def Reading.pushDirectories (state : Reading) (token : Token) : Except GlobError Reading :=
  match state.branches with
  | (.leadingDirectories :: _) :: _ => .ok state
  | (.everythingBelow :: _) :: _ => .ok state
  | (_ :: branch) :: rest => .ok { state with branches := (token :: branch) :: rest }
  | _ => .error .unopenedAlternates

/-- Reads two stars whose text before ends with `previous`: the state after them and whether they
take the next character, a slash, with them. -/
def readStars (state : Reading) (previous : Option Char) (next : Option Char) :
    Except GlobError (Reading × Bool) :=
  let nested := 2 ≤ state.branches.length
  match state.branches with
  | [] => .error .unopenedAlternates
  | [] :: _ =>
      match next with
      | none => (state.push .leadingDirectories).map (·, false)
      | some '/' => (state.push .leadingDirectories).map (·, true)
      | some _ => state.pushStars.map (·, false)
  | _ =>
      let opens := previous == some '/' || (nested && (previous == some ',' || previous == some '\x7b'))
      if !opens then state.pushStars.map (·, false)
      else
        match next with
        | none => (state.pushDirectories .everythingBelow).map (·, false)
        | some '/' => (state.pushDirectories .innerDirectories).map (·, true)
        | some c =>
            if nested && (c == ',' || c == '\x7d') then
              (state.pushDirectories .everythingBelow).map (·, false)
            else state.pushStars.map (·, false)

/-- Reads the text of a pattern with at most `fuel` steps; `previous` is the character before. -/
def readFrom : Nat → Reading → Option Char → List Char → Except GlobError Reading
  | 0, state, _, _ => .ok state
  | _ + 1, state, _, [] => .ok state
  | fuel + 1, state, previous, c :: rest => do
      match c, rest with
      | '?', rest => readFrom fuel (← state.push .any) (some c) rest
      | '*', '*' :: rest =>
          let (state, slash) ← readStars state previous rest.head?
          if slash then readFrom fuel state (some '/') (rest.drop 1)
          else readFrom fuel state (some '*') rest
      | '*', rest => readFrom fuel (← state.push .zeroOrMore) (some c) rest
      | '[', rest =>
          let (negated, inner) :=
            match rest with
            | '!' :: inner => (true, inner)
            | '^' :: inner => (true, inner)
            | inner => (false, inner)
          let (ranges, after) ← readClass true false [] inner
          readFrom fuel (← state.push (.oneOf negated ranges.reverse)) (some ']') after
      | '\x7b', rest =>
          readFrom fuel ⟨[] :: state.branches, state.branches.length :: state.opened⟩ (some c) rest
      | '\x7d', rest => readFrom fuel (← state.close) (some c) rest
      | ',', rest =>
          if state.opened.isEmpty then readFrom fuel (← state.push (.literal ',')) (some c) rest
          else readFrom fuel ⟨[] :: state.branches, state.opened⟩ (some c) rest
      | '\\', rest =>
          match rest with
          | [] => .error .danglingEscape
          | e :: rest => readFrom fuel (← state.push (.literal e)) (some e) rest
      | c, rest => readFrom fuel (← state.push (.literal c)) (some c) rest

/-- Reads a path pattern. -/
def parse (pattern : String) : Except GlobError (List Token) :=
  let text := pattern.toList
  match readFrom text.length ⟨[[]], []⟩ none text with
  | .error e => .error e
  | .ok ⟨[only], _⟩ => .ok only.reverse
  | .ok ⟨[], _⟩ => .error .unopenedAlternates
  | .ok _ => .error .unclosedAlternates

end Glob

end ArchSurvey

namespace ArchSurvey.Glob

/-! ## Matching -/

/-- The byte of a slash. -/
def slash : UInt8 := 47

/-- Whether `next` accepts the text from here or after some bytes other than slashes. -/
def afterSegment (next : List UInt8 → Bool) : List UInt8 → Bool
  | [] => next []
  | b :: rest => next (b :: rest) || (b != slash && afterSegment next rest)

/-- Whether `next` accepts the text after some slash. -/
def afterSlash (next : List UInt8 → Bool) : List UInt8 → Bool
  | [] => false
  | b :: rest => (b == slash && next rest) || afterSlash next rest

/-- Whether `next` accepts some end of the text, the whole text and the empty one included. -/
def afterAny (next : List UInt8 → Bool) : List UInt8 → Bool
  | [] => next []
  | b :: rest => next (b :: rest) || afterAny next rest

/-- The text after the bytes of a character, if it starts with them. -/
def dropBytes? : List UInt8 → List UInt8 → Option (List UInt8)
  | [], text => some text
  | _ :: _, [] => none
  | b :: bytes, c :: text => if b == c then dropBytes? bytes text else none

/-- The byte ranges of a class: a range of characters runs from the last byte of its first
character to the first byte of its last, and every other byte stands for itself. -/
def byteRanges (range : Char × Char) : List (UInt8 × UInt8) :=
  let first := String.utf8EncodeChar range.1
  let last := String.utf8EncodeChar range.2
  if range.1 == range.2 then first.map fun b => (b, b)
  else
    (first.dropLast.map fun b => (b, b)) ++
      (last.drop 1).map (fun b => (b, b)) ++
      [(first.getLastD 0, last.headD 0)]

/-- Whether a class has a byte. -/
def inClass (negated : Bool) (ranges : List (Char × Char)) (b : UInt8) : Bool :=
  (ranges.any fun range => (byteRanges range).any fun (low, high) => low ≤ b && b ≤ high) != negated

mutual

/-- Whether a pattern asks for nothing: it has no token but groups of such patterns. -/
def isVoid : List Token → Bool
  | [] => true
  | .alternates branches :: rest => areVoid branches && isVoid rest
  | _ :: _ => false

/-- Whether every branch asks for nothing. -/
def areVoid : List (List Token) → Bool
  | [] => true
  | branch :: rest => isVoid branch && areVoid rest

end

mutual

/-- Whether one token matches a start of the text whose rest `next` accepts. -/
def matchToken : Token → List UInt8 → (List UInt8 → Bool) → Bool
  | .literal c, text, next =>
      match dropBytes? (String.utf8EncodeChar c) text with
      | some rest => next rest
      | none => false
  | .any, text, next =>
      match text with
      | [] => false
      | b :: rest => b != slash && next rest
  | .zeroOrMore, text, next => afterSegment next text
  | .leadingDirectories, text, next => next text || afterSlash next text
  | .everythingBelow, text, next =>
      match text with
      | [] => false
      | b :: rest => b == slash && afterAny next rest
  | .innerDirectories, text, next =>
      match text with
      | [] => false
      | b :: rest => b == slash && (next rest || afterSlash next rest)
  | .oneOf negated ranges, text, next =>
      match text with
      | [] => false
      | b :: rest => inClass negated ranges b && next rest
  | .alternates branches, text, next =>
      if areVoid branches then next text else matchBranches branches text next

/-- Whether the tokens match a start of the text whose rest `next` accepts. -/
def matchTokens : List Token → List UInt8 → (List UInt8 → Bool) → Bool
  | [], text, next => next text
  | token :: rest, text, next => matchToken token text fun after => matchTokens rest after next

/-- Whether a branch that asks for something matches a start of the text whose rest `next`
accepts. -/
def matchBranches : List (List Token) → List UInt8 → (List UInt8 → Bool) → Bool
  | [], _, _ => false
  | branch :: rest, text, next =>
      (!isVoid branch && matchTokens branch text next) || matchBranches rest text next

end

/-- Whether a pattern matches a whole path. -/
def isMatch (pattern : List Token) (path : String) : Bool :=
  let bytes := Text.Utf8.encode path.toList
  match pattern with
  | [.leadingDirectories] => true
  | pattern => matchTokens pattern bytes List.isEmpty

end ArchSurvey.Glob
