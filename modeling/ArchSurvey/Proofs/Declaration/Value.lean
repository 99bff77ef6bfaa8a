import ArchSurvey.Declaration.Reader
import ArchSurvey.Proofs.Declaration.Heading
import ArchSurvey.Proofs.Text.Blank
import ArchSurvey.Proofs.Text.Tail

/-!
# Initial values

What a field declares stands in front of its equals sign, so its initial value
is of no account (`declaredBy_value`).
-/

namespace ArchSurvey.Declaration

open Text
open Text.Pattern (concat opt group many noneOf any textStart textEnd is
  literal some1 oneOf wordChar blanks blanks1 Match Follows)

/-- The type and the name of a method or a field. -/
def memberFront : List Pattern :=
  [memberType, blanks1, group 2 (some1 wordChar), blanks]

/-- What follows the name of a field. -/
def fieldEnd : List Pattern :=
  [opt (.seq (is '=') (many any)), textEnd]

/-- The type parameters of a method. -/
def typeParameters : Pattern :=
  concat [is '<', many (noneOf ">"), is '>', blanks]

/-- What follows the name of a method. -/
def methodEnd : List Pattern :=
  [is '(', group 3 (many any), is ')', blanks,
    opt (concat
      [literal "throws", blanks1,
        some1 (.char fun c =>
          isWordChar c || c == '.' || c == ',' || isBlank c)]),
    textEnd]

theorem methodHead_eq : methodHead = .seq textStart
    (concat (opt typeParameters :: (memberFront ++ methodEnd))) := rfl

theorem fieldHead_eq :
    fieldHead = .seq textStart (concat (memberFront ++ fieldEnd)) := rfl

theorem stopsAt_memberFront : (concat memberFront).StopsAt '=' := by
  simp [memberFront, memberType, blanks, blanks1, Pattern.blank, wordChar]
  decide

section Members

variable {text : List Char} {place : Pattern.Place}

/-- The type and the name are read from the text. -/
theorem mem_of_memberFront
    (way : place ∈ (concat memberFront).ways (.start [] text)) :
    place.Bounded ∧ ∀ c ∈ place.rest, c ∈ text := by
  have follows := Pattern.follows_of_mem_ways way
  obtain ⟨front, split, -⟩ := follows.reads
  refine ⟨follows.bounded (Pattern.bounded_start text), fun c member => ?_⟩
  have whole : text = front ++ place.rest := split
  rw [whole]
  exact List.mem_append_right front member

theorem ways_is_of_ne {c : Char} (other : place.rest.head? ≠ some c) :
    (is c).ways place = [] := by
  refine (Pattern.readsOne_char _).stops fun d first => ?_
  rw [beq_eq_false_iff_ne]
  rintro rfl
  exact other first

/-- Nothing is a method that has no parenthesis behind a name. -/
theorem methodHead_eq_none
    (noOpen : ∀ place ∈ (concat memberFront).ways (.start [] text),
      place.rest.head? ≠ some '(') (plain : text.head? ≠ some '<') :
    methodHead.search text = none := by
  have none : typeParameters.ways (.start [] text) = [] := by
    rw [typeParameters, Pattern.ways_concat_cons, ways_is_of_ne plain]
    rfl
  rw [methodHead_eq]
  refine Pattern.search_textStart_eq_none ?_
  rw [Pattern.ways_concat_cons, Pattern.ways_opt_of_fails none,
    List.flatMap_singleton, Pattern.ways_concat_append,
    List.flatMap_eq_nil_iff]
  intro place way
  rw [methodEnd, Pattern.ways_concat_cons, ways_is_of_ne (noOpen place way)]
  rfl

theorem ways_fieldEnd (plain : place.rest.head? ≠ some '=') :
    (concat fieldEnd).ways place =
      if place.rest.isEmpty then [place] else [] := by
  have none : (Pattern.seq (is '=') (many any)).ways place = [] := by
    rw [Pattern.ways_seq, ways_is_of_ne plain]
    rfl
  rw [fieldEnd, Pattern.ways_concat_cons, Pattern.ways_opt_of_fails none,
    List.flatMap_singleton]
  rfl

/-- An initial value is read to the end of the text. -/
theorem leads_fieldEnd {tail : List Char} (value : place.rest = '=' :: tail) :
    (concat fieldEnd).Leads place (place.past ('=' :: tail) []) := by
  have sign : (is '=').Leads place (place.past ['='] tail) :=
    (Pattern.readsOne_char _).reads value rfl
  have inner : (place.past ['='] tail).rest = tail ++ [] := by simp
  have all : (many any).Leads (place.past ['='] tail)
      ((place.past ['='] tail).past tail []) :=
    Pattern.leads_many (Pattern.readsOne_char _) inner (fun _ _ => rfl)
      (by simp)
  rw [Pattern.Place.past_past] at all
  exact (sign.seq all).opt.seq (Pattern.leads_textEnd rfl)

theorem map_findSome?_congr {α β γ : Type} {list : List α}
    {find other : α → Option β} {image imageToo : β → γ}
    (same : ∀ item ∈ list,
      (find item).map image = (other item).map imageToo) :
    (list.findSome? find).map image = (list.findSome? other).map imageToo := by
  induction list with
  | nil => rfl
  | cons item rest ih =>
      have here := same item List.mem_cons_self
      have later := ih fun item member =>
        same item (List.mem_cons_of_mem _ member)
      rw [List.findSome?_cons, List.findSome?_cons]
      cases one : find item <;> cases two : other item <;> simp_all

/-- The initial value of a field says nothing about its type and name. -/
theorem map_group_fieldHead (plain : '=' ∉ text) (tail : List Char) :
    (fieldHead.search (text ++ '=' :: tail)).map Match.group =
      (fieldHead.search text).map Match.group := by
  have start : Pattern.Place.start [] (text ++ '=' :: tail) =
      (Pattern.Place.start [] text).extend ('=' :: tail) := rfl
  rw [fieldHead_eq, Pattern.search_textStart, Pattern.search_textStart, start,
    Pattern.ways_concat_append, Pattern.ways_concat_append,
    Pattern.ways_extend stopsAt_memberFront, List.flatMap_map,
    List.head?_flatMap, List.head?_flatMap, Option.map_map, Option.map_map]
  -- Each way to match the front leads on to the end of the text exactly if it
  -- leads on to the equals sign.
  refine map_findSome?_congr fun place way => ?_
  obtain ⟨bounded, inside⟩ := mem_of_memberFront way
  have other : place.rest.head? ≠ some '=' := fun first =>
    plain (inside '=' (List.mem_of_mem_head? first))
  rw [ways_fieldEnd other]
  cases rest : place.rest with
  | nil =>
      have value : (place.extend ('=' :: tail)).rest = '=' :: tail := by
        rw [Pattern.Place.extend_rest, rest, List.nil_append]
      have kept : ∀ number,
          (Match.ending [] (text ++ '=' :: tail)
            ((place.extend ('=' :: tail)).past ('=' :: tail) [])).group number =
            (Match.ending [] text place).group number :=
        fun number =>
          Pattern.group_ending_extend bounded [] (text ++ '=' :: tail) [] text
            number
      rw [leads_fieldEnd value]
      exact congrArg some (funext kept)
  | cons c rest =>
      have none : (concat fieldEnd).ways (place.extend ('=' :: tail)) = [] := by
        rw [ways_fieldEnd (by simpa [rest] using other)]
        simp [rest]
      rw [none]
      rfl

theorem stopsAt_typeHead : ∃ pattern, typeHead = .seq textStart pattern ∧
    pattern.StopsAt '=' := by
  refine ⟨_, rfl, ?_⟩
  simp [blanks1, Pattern.blank, wordChar, literal, is]
  decide

/-- Which member a text is depends on the groups that are found. -/
theorem memberOf_congr {other : List Char} (inClass : Bool)
    (types : (typeHead.search text).map Match.group =
      (typeHead.search other).map Match.group)
    (methods : (methodHead.search text).map Match.group =
      (methodHead.search other).map Match.group)
    (fields : (fieldHead.search text).map Match.group =
      (fieldHead.search other).map Match.group) :
    memberOf inClass text = memberOf inClass other := by
  rw [memberOf, memberOf]
  cases one : typeHead.search text <;> cases two : typeHead.search other <;>
    simp only [one, two, Option.map_some, Option.map_none, Option.some.injEq,
      reduceCtorEq] at types
  · cases three : methodHead.search text <;>
      cases four : methodHead.search other <;>
      simp only [three, four, Option.map_some, Option.map_none,
        Option.some.injEq, reduceCtorEq] at methods
    · cases five : fieldHead.search text <;>
        cases six : fieldHead.search other <;>
        simp only [five, six, Option.map_some, Option.map_none,
          Option.some.injEq, reduceCtorEq] at fields
      · rfl
      · simp only [Match.groupString, fields]
    · simp only [Match.groupString, methods]
  · simp only [Match.groupString, types]

/-- What stands in front of an equals sign tells what is declared. -/
theorem memberOf_value {front : List Char} (inClass : Bool)
    (plain : '=' ∉ front) (noOpen : '(' ∉ front)
    (noParameters : front.head? ≠ some '<') (tail : List Char) :
    memberOf inClass (front ++ '=' :: tail) = memberOf inClass front := by
  obtain ⟨pattern, shape, stops⟩ := stopsAt_typeHead
  have noMethod : methodHead.search front = none := by
    refine methodHead_eq_none (fun place way first => ?_) noParameters
    exact noOpen ((mem_of_memberFront way).2 '(' (List.mem_of_mem_head? first))
  have noMethodToo : methodHead.search (front ++ '=' :: tail) = none := by
    have start : Pattern.Place.start [] (front ++ '=' :: tail) =
        (Pattern.Place.start [] front).extend ('=' :: tail) := rfl
    refine methodHead_eq_none (fun place way first => ?_) ?_
    · rw [start, Pattern.ways_extend stopsAt_memberFront] at way
      obtain ⟨middle, inner, rfl⟩ := List.mem_map.mp way
      have inside := (mem_of_memberFront inner).2
      cases rest : middle.rest with
      | nil => simp [rest] at first
      | cons c rest =>
          have here : c = '(' := by simpa [rest] using first
          exact noOpen (inside '(' (by simp [rest, here]))
    · cases front with
      | nil => simp
      | cons c front => simpa using noParameters
  refine memberOf_congr inClass ?_ ?_ (map_group_fieldHead plain tail)
  · rw [shape]
    exact Pattern.map_group_search_append stops front tail
  · rw [noMethod, noMethodToo]

end Members

section Marks

variable {p : Char → Bool} {mark : Char} {text front tail : List Char}

theorem takeWhile_append_mark (refused : p mark = false)
    (text tail : List Char) :
    (text ++ mark :: tail).takeWhile p = text.takeWhile p := by
  induction text with
  | nil => simp [refused]
  | cons c text ih => by_cases passes : p c = true <;> simp [passes, ih]

/-- What is dropped in front of a mark does not depend on what follows it. -/
theorem exists_dropWhile_mark (refused : p mark = false)
    (dropped : text.dropWhile p = front ++ mark :: tail) :
    ∃ before, text = before ++ mark :: tail ∧ before.dropWhile p = front := by
  refine ⟨text.takeWhile p ++ front, ?_, ?_⟩
  · rw [List.append_assoc, ← dropped, List.takeWhile_append_dropWhile]
  · have whole : (text.takeWhile p ++ front ++ mark :: tail).dropWhile p =
        front ++ mark :: tail := by
      rw [List.append_assoc, ← dropped, List.takeWhile_append_dropWhile]
    rw [dropWhile_append_mark refused] at whole
    exact List.append_cancel_right whole

theorem trimStart_append_value (text tail : List Char) :
    trimStart (text ++ '=' :: tail) = trimStart text ++ '=' :: tail :=
  dropWhile_append_mark (by decide) text tail

theorem exists_trimStart_value
    (trimmed : trimStart text = front ++ '=' :: tail) :
    ∃ before, text = before ++ '=' :: tail ∧ trimStart before = front :=
  exists_dropWhile_mark (by decide) trimmed

end Marks

section Headings

variable {text front tail : List Char} {heading : Heading}

theorem takeArguments_value {arguments : Option (List Char)}
    (takes : takeArguments text = (arguments, front ++ '=' :: tail)) :
    ∃ before, text = before ++ '=' :: tail ∧ ∀ other,
      takeArguments (before ++ '=' :: other) =
        (arguments, front ++ '=' :: other) := by
  rw [takeArguments.eq_def] at takes
  split at takes
  · rename_i rest
    split at takes
    · rename_i inside after closes
      obtain ⟨rfl, rfl⟩ := Prod.mk.inj takes
      obtain ⟨read, rfl, -, same⟩ := exists_of_afterParenthesis closes
      refine ⟨'(' :: (read ++ ')' :: front), by simp, fun other => ?_⟩
      have shape : '(' :: (read ++ ')' :: front) ++ '=' :: other =
          '(' :: (read ++ ')' :: (front ++ '=' :: other)) := by simp
      rw [shape, takeArguments, same]
    · cases front <;> cases (Prod.mk.inj takes).2
  · rename_i noOpen
    obtain ⟨rfl, rfl⟩ := Prod.mk.inj takes
    refine ⟨front, rfl, fun other => takeArguments_none fun first => ?_⟩
    cases front with
    | nil => simp at first
    | cons c front =>
        obtain rfl : c = '(' := by simpa using first
        exact noOpen _ rfl

theorem takeNote_value {note : Note}
    (takes : takeNote text = (note, front ++ '=' :: tail)) :
    ∃ before, text = before ++ '=' :: tail ∧ ∀ other,
      takeNote (before ++ '=' :: other) = (note, front ++ '=' :: other) := by
  have notName : isNameChar '=' = false := by decide
  rw [takeNote_eq] at takes
  obtain ⟨rfl, rest⟩ := Prod.mk.inj takes
  obtain ⟨inner, called, same⟩ := takeArguments_value (Prod.ext rfl rest)
  obtain ⟨middle, gap, trimmed⟩ := exists_trimStart_value called
  obtain ⟨before, rfl, named⟩ := exists_dropWhile_mark notName gap
  refine ⟨before, rfl, fun other => ?_⟩
  have spaces : trimStart ((before ++ '=' :: other).dropWhile isNameChar) =
      inner ++ '=' :: other := by
    rw [dropWhile_append_mark notName, named, trimStart_append_value, trimmed]
  rw [takeNote_eq, spaces, same, takeWhile_append_mark notName,
    takeWhile_append_mark notName]

theorem takeModifier_value {word : String}
    (takes : takeModifier text = some (word, front ++ '=' :: tail)) :
    ∃ before, text = before ++ '=' :: tail ∧ ∀ other,
      takeModifier (before ++ '=' :: other) =
        some (word, front ++ '=' :: other) := by
  have notPart : isModifierChar '=' = false := by decide
  rw [takeModifier_eq] at takes
  split at takes
  · rename_i known
    obtain ⟨rfl, rest⟩ := Prod.mk.inj (Option.some.inj takes)
    obtain ⟨before, rfl, dropped⟩ := exists_dropWhile_mark notPart rest
    rw [takeWhile_append_mark notPart] at known
    refine ⟨before, rfl, fun other => ?_⟩
    rw [takeModifier_eq, takeWhile_append_mark notPart,
      takeWhile_append_mark notPart, dropWhile_append_mark notPart, dropped,
      if_pos known]
  · cases takes

theorem startsNote_value (front tail other : List Char) :
    startsNote (front ++ '=' :: tail) = startsNote (front ++ '=' :: other) := by
  have before : ∀ after,
      startsWith "@interface".toList (front ++ '=' :: after) =
        startsWith "@interface".toList front := fun after =>
    startsWith_append (p := fun c => c != '=') (by decide) (by simp)
  rw [startsNote, startsNote, before, before]
  cases front <;> rfl

theorem takeModifier_eq_none_value (front tail other : List Char) :
    takeModifier (front ++ '=' :: tail) = none ↔
      takeModifier (front ++ '=' :: other) = none := by
  have notPart : isModifierChar '=' = false := by decide
  simp only [takeModifier_eq, takeWhile_append_mark notPart, ite_eq_right_iff,
    reduceCtorEq]

/-- Annotations and modifiers in front of an equals sign are read whatever
follows it. -/
theorem Reads.exists_value (reads : Reads text heading)
    (value : heading.rest = front ++ '=' :: tail) :
    ∃ before, text = before ++ '=' :: tail ∧ ∀ other,
      Reads (before ++ '=' :: other)
        { heading with rest := front ++ '=' :: other } := by
  induction reads with
  | note starts takes _ ih =>
      obtain ⟨inner, trimmed, later⟩ := ih value
      obtain ⟨after, rfl, rfl⟩ := exists_trimStart_value trimmed
      obtain ⟨body, equal, same⟩ := takeNote_value takes
      obtain ⟨rest, rfl⟩ :=
        List.head?_eq_some_iff.mp (head?_of_startsNote starts)
      obtain rfl : rest = body ++ '=' :: tail := equal
      refine ⟨'@' :: body, rfl, fun other => ?_⟩
      have begins : startsNote ('@' :: body ++ '=' :: other) = true :=
        (startsNote_value ..).trans starts
      exact .note begins (same other)
        (trimStart_append_value after other ▸ later other)
  | modifier plain takes _ ih =>
      obtain ⟨inner, trimmed, later⟩ := ih value
      obtain ⟨after, rfl, rfl⟩ := exists_trimStart_value trimmed
      obtain ⟨before, rfl, same⟩ := takeModifier_value takes
      refine ⟨before, rfl, fun other => ?_⟩
      have begins : startsNote (before ++ '=' :: other) = false :=
        (startsNote_value ..).trans plain
      exact .modifier begins (same other)
        (trimStart_append_value after other ▸ later other)
  | done plain takes =>
      obtain rfl : _ = front ++ '=' :: tail := value
      refine ⟨front, rfl, fun other => ?_⟩
      have begins : startsNote (front ++ '=' :: other) = false :=
        (startsNote_value ..).trans plain
      exact .done begins ((takeModifier_eq_none_value ..).mp takes)

end Headings

/-- Whether a piece of source has come to the initial value of a field: an
equals sign stands behind the annotations and modifiers, with neither
parentheses nor type parameters in front of it. -/
def hasValue (piece : List Char) : Bool :=
  let rest := (Heading.ofText piece).rest
  let front := trimStart (rest.takeWhile (· != '='))
  rest.contains '=' && !front.contains '(' && front.head? != some '<'

theorem exists_first_mark {text : List Char} (member : '=' ∈ text) :
    ∃ front tail, text = front ++ '=' :: tail ∧ '=' ∉ front ∧
      text.takeWhile (· != '=') = front := by
  obtain ⟨front, tail, rfl, plain⟩ := List.eq_append_cons_of_mem member
  refine ⟨front, tail, rfl, plain, ?_⟩
  rw [takeWhile_append_mark (by simp), List.takeWhile_eq_self_iff]
  intro c inside
  rw [bne_iff_ne]
  rintro rfl
  exact plain inside

section Declarations

variable {piece before front : List Char} {heading : Heading}

theorem trim_append_value (text tail : List Char) :
    trim (text ++ '=' :: tail) = trimStart text ++ '=' :: trimEnd tail :=
  trim_append_mark (by decide) text tail

/-- The clause of a package has no equals sign. -/
theorem packageClause_value (before tail : List Char) :
    packageClause.occurs (before ++ '=' :: tail) = false := by
  have shape : packageClause = .seq textStart (concat
      ([literal "package", blanks1, some1 (oneOf [wordChar, is '.'])] ++
        [textEnd])) := rfl
  have stops : (concat [literal "package", blanks1,
      some1 (oneOf [wordChar, is '.'])]).StopsAt '=' := by
    simp [blanks1, Pattern.blank, wordChar, literal, is]
    decide
  have start : Pattern.Place.start [] (before ++ '=' :: tail) =
      (Pattern.Place.start [] before).extend ('=' :: tail) := rfl
  have none : packageClause.search (before ++ '=' :: tail) = none := by
    rw [shape]
    refine Pattern.search_textStart_eq_none ?_
    rw [Pattern.ways_concat_append, start, Pattern.ways_extend stops,
      List.flatMap_map, List.flatMap_eq_nil_iff]
    intro place _
    simp [concat, Pattern.ways_textEnd]
  rw [Pattern.occurs, none]
  rfl

/-- The declaration that a text with an equals sign is, read in front of it. -/
theorem declaredBy_eq_of_reads (solid : trimStart before = before)
    (reads : ∀ tail, Reads (before ++ '=' :: tail)
      { heading with rest := front ++ '=' :: tail })
    (plain : '=' ∉ front) (noOpen : '(' ∉ trimStart front)
    (noParameters : (trimStart front).head? ≠ some '<')
    (enclosing : Option String) (line : Nat) (tail : List Char) :
    declaredBy (before ++ '=' :: tail) enclosing line =
      if startsWith "import ".toList before then none
      else (memberOf enclosing.isSome (trimStart front)).map fun member =>
        { annotations := heading.annotations
          modifiers := heading.modifiers
          member
          enclosing
          line } := by
  have filled : (before ++ '=' :: tail).isEmpty = false := by simp
  have imports : startsWith "import ".toList (before ++ '=' :: tail) =
      startsWith "import ".toList before :=
    startsWith_append (p := fun c => c != '=') (by decide) (by simp)
  have begins : trimStart (before ++ '=' :: tail) = before ++ '=' :: tail := by
    rw [trimStart_append_value, solid]
  have read : Heading.ofText (before ++ '=' :: tail) =
      { heading with rest := front ++ '=' :: tail } := by
    refine Reads.ofText_eq ?_
    rw [begins]
    exact reads tail
  have plainToo : '=' ∉ trimStart front := fun member =>
    plain ((List.dropWhile_sublist isBlank).subset member)
  have member : memberOf enclosing.isSome (trim (front ++ '=' :: tail)) =
      memberOf enclosing.isSome (trimStart front) := by
    rw [trim_append_value, memberOf_value _ plainToo noOpen noParameters]
  rw [declaredBy, filled, packageClause_value, imports, Bool.false_or,
    Bool.false_or]
  simp only [read, member]

/-- What a piece with an initial value declares does not depend on the rest of
the value. -/
theorem declaredBy_value (value : hasValue piece = true)
    (enclosing : Option String) (line : Nat) (one two : List Char) :
    declaredBy (trim (piece ++ one)) enclosing line =
      declaredBy (trim (piece ++ two)) enclosing line := by
  simp only [hasValue, Bool.and_eq_true, Bool.not_eq_true', bne_iff_ne,
    List.contains_eq_mem, decide_eq_true_iff, decide_eq_false_iff_not] at value
  obtain ⟨⟨signed, noOpen⟩, noParameters⟩ := value
  obtain ⟨front, tail, split, plain, first⟩ := exists_first_mark signed
  rw [first] at noOpen noParameters
  obtain ⟨inner, trimmed, reads⟩ := (reads_ofText piece).exists_value split
  obtain ⟨before, rfl, rfl⟩ := exists_trimStart_value trimmed
  have solid := trimStart_trimStart before
  -- Both sides are what is declared where the value is empty.
  have settled : ∀ more, declaredBy (trim (before ++ '=' :: tail ++ more))
      enclosing line = declaredBy (trimStart before ++ ['=']) enclosing line := by
    intro more
    rw [List.append_assoc, List.cons_append, trim_append_value,
      declaredBy_eq_of_reads solid reads plain noOpen noParameters,
      declaredBy_eq_of_reads solid reads plain noOpen noParameters]
  rw [settled, settled]

end Declarations

end ArchSurvey.Declaration
