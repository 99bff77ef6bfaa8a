import ArchSurvey.Proofs.Lists
import ArchSurvey.Proofs.Manifest.RequirementPattern
import Mathlib.Data.List.Infix

/-!
# Requirement files

A requirement file has one requirement on a line or on several ones that are
joined by backslashes.  Its lines are read one by one, so of an entry only the
first line counts, and all lines behind it are options.  Markers and comments
are cut off, but hashes are not.  An entry is therefore read as what is meant
exactly if it is clean (`readLine_first_iff`), and so is a file
(`readLines_print_iff`).
-/

namespace ArchSurvey.Manifest.Requirement

open Text

/-! ## Files -/

/-- A line that goes on behind a backslash, perhaps with a carriage return. -/
structure Turn where
  back : List Char
  indent : List Char
  deriving DecidableEq

/-- A hash of a package, on the same line or on the next one. -/
structure Hash where
  gap : List Char
  turn : Option Turn
  digest : List Char
  deriving DecidableEq

/-- A marker of the environment with hashes behind it. -/
structure Marker where
  gap : List Char
  text : List Char
  hashes : List Hash
  deriving DecidableEq

/-- A required package with hashes, a marker and a comment. -/
structure Entry where
  indent : List Char
  package : Package
  hashes : List Hash
  marker : Option Marker
  gap : List Char
  comment : Option (List Char)
  deriving DecidableEq

/-- What a file consists of. -/
inductive Item where
  | blank (gap : List Char)
  | comment (indent text : List Char)
  | option (indent text : List Char)
  | entry (entry : Entry)
  deriving DecidableEq

def Turn.spell (turn : Turn) : List Char :=
  '\\' :: (turn.back ++ '\n' :: turn.indent)

def Hash.spell (hash : Hash) : List Char :=
  hash.gap ++ (hash.turn.elim [] Turn.spell ++
    '-' :: ("-hash=".toList ++ hash.digest))

def Marker.spell (marker : Marker) : List Char :=
  marker.gap ++ ';' :: (marker.text ++ marker.hashes.flatMap Hash.spell)

/-- What stands behind the package. -/
def Entry.rest (entry : Entry) : List Char :=
  entry.hashes.flatMap Hash.spell ++ (entry.marker.elim [] Marker.spell ++
    (entry.gap ++ entry.comment.elim [] ('#' :: ·)))

def Entry.spell (entry : Entry) : List Char :=
  entry.indent ++ (entry.package.spell ++ entry.rest)

def Item.spell : Item → List Char
  | blank gap => gap
  | comment indent text => indent ++ '#' :: text
  | option indent text => indent ++ '-' :: text
  | entry written => written.spell

/-- The text of a file. -/
def print (file : List Item) : List Char :=
  joinWith ['\n'] (file.map Item.spell)

/-- The requirement that an item states. -/
def Item.requirement? : Item → Option Requirement
  | entry written => some (written.package.requirement "compile")
  | _ => none

def Turn.WellFormed (turn : Turn) : Prop :=
  turn.back ∈ [[], ['\r']] ∧ IsGap turn.indent

def Hash.WellFormed (hash : Hash) : Prop :=
  IsGap hash.gap ∧ (hash.turn = none → hash.gap ≠ []) ∧
    (∀ turn ∈ hash.turn, turn.WellFormed) ∧ ∀ c ∈ hash.digest, isBlank c = false

def Marker.WellFormed (marker : Marker) : Prop :=
  IsGap marker.gap ∧ '\n' ∉ marker.text ∧
    ∀ hash ∈ marker.hashes, hash.WellFormed

structure Entry.WellFormed (entry : Entry) : Prop where
  indent : IsGap entry.indent
  package : entry.package.WellFormed
  hashes : ∀ hash ∈ entry.hashes, hash.WellFormed
  marker : ∀ marker ∈ entry.marker, marker.WellFormed
  gap : IsGap entry.gap
  comment : ∀ text ∈ entry.comment, entry.gap ≠ [] ∧ '\n' ∉ text

def Item.WellFormed : Item → Prop
  | blank gap => IsGap gap
  | comment indent text => IsGap indent ∧ '\n' ∉ text
  | option indent text => IsGap indent ∧ '\n' ∉ text
  | entry written => written.WellFormed

/-- No hash stands in front of the marker, a comment that no marker stands in
front of has a space before it, and no equals sign is lost. -/
structure Entry.Clean (entry : Entry) : Prop where
  hashes : entry.hashes = []
  comment : entry.marker = none → entry.comment ≠ none →
    entry.gap.getLast? = some ' '
  exact : entry.package.Exact

instance : DecidablePred Turn.WellFormed := fun _ =>
  inferInstanceAs (Decidable (_ ∧ _))

instance : DecidablePred Hash.WellFormed := fun _ =>
  inferInstanceAs (Decidable (_ ∧ (_ → _) ∧ (∀ _ ∈ _, _) ∧ ∀ _ ∈ _, _))

instance : DecidablePred Marker.WellFormed := fun _ =>
  inferInstanceAs (Decidable (_ ∧ _ ∧ ∀ _ ∈ _, _))

instance : DecidablePred Entry.WellFormed := fun entry =>
  decidable_of_iff
    (IsGap entry.indent ∧ entry.package.WellFormed ∧
      (∀ hash ∈ entry.hashes, hash.WellFormed) ∧
      (∀ marker ∈ entry.marker, marker.WellFormed) ∧ IsGap entry.gap ∧
      ∀ text ∈ entry.comment, entry.gap ≠ [] ∧ '\n' ∉ text)
    ⟨fun ⟨indent, package, hashes, marker, gap, comment⟩ =>
        ⟨indent, package, hashes, marker, gap, comment⟩,
      fun ⟨indent, package, hashes, marker, gap, comment⟩ =>
        ⟨indent, package, hashes, marker, gap, comment⟩⟩

instance : DecidablePred Entry.Clean := fun entry =>
  decidable_of_iff
    (entry.hashes = [] ∧ (entry.marker = none → entry.comment ≠ none →
      entry.gap.getLast? = some ' ') ∧ entry.package.Exact)
    ⟨fun ⟨hashes, comment, exact_⟩ => ⟨hashes, comment, exact_⟩,
      fun ⟨hashes, comment, exact_⟩ => ⟨hashes, comment, exact_⟩⟩

instance : DecidablePred Item.WellFormed
  | .blank _ => inferInstanceAs (Decidable (IsGap _))
  | .comment .. => inferInstanceAs (Decidable (_ ∧ _))
  | .option .. => inferInstanceAs (Decidable (_ ∧ _))
  | .entry _ => inferInstanceAs (Decidable (Entry.WellFormed _))

/-! ## Lines -/

/-- What is read of a line. -/
def readLine (line : List Char) : List Requirement :=
  if isIgnored (withoutComment line) then []
  else (read "compile" (withoutComment line)).toList

theorem readLines_eq (text : List Char) :
    readLines text = (lines text).flatMap readLine := by
  rw [readLines]
  induction lines text with
  | nil => rfl
  | cons line later ih =>
      rw [List.flatMap_cons, ← ih, readLine, List.map_cons, List.filter_cons]
      cases isIgnored (withoutComment line) with
      | true => simp
      | false =>
          cases found : read "compile" (withoutComment line) <;> simp [found]

theorem length_readLine_le (line : List Char) :
    (readLine line).length ≤ 1 := by
  rw [readLine]
  split
  · exact Nat.zero_le 1
  · cases read "compile" (withoutComment line) <;> simp

section Lines

variable {before gap rest text : List Char} {c : Char}

theorem withoutComment_eq (line : List Char) :
    withoutComment line = trim (beforeFirst [' ', '#'] line) :=
  rfl

theorem not_note_isInfix (plain : '#' ∉ text) : ¬[' ', '#'] <:+: text :=
  fun holds => plain (holds.subset (by simp))

theorem withoutComment_eq_trim (plain : '#' ∉ text) :
    withoutComment text = trim text := by
  rw [withoutComment_eq, beforeFirst_eq_self (not_note_isInfix plain)]

/-- A space in front of a number sign starts a comment. -/
theorem withoutComment_append_note (plain : '#' ∉ before)
    (spaced : before.getLast? = some ' ') (rest : List Char) :
    withoutComment (before ++ '#' :: rest) = trim before := by
  obtain ⟨front, rfl⟩ := List.getLast?_eq_some_iff.mp spaced
  have cuts : beforeFirst [' ', '#'] (front ++ ([' ', '#'] ++ rest)) = front :=
    beforeFirst_append (not_note_isInfix plain)
  rw [withoutComment_eq, List.append_assoc]
  rw [trim, trim, trimWhile_append_right (by decide)]
  exact congrArg trim cuts

/-- A character that is not blank and starts no comment stays. -/
theorem exists_withoutComment (plain : '#' ∉ before)
    (solid : isBlank c = false)
    (other : c ≠ '#' ∨ before.getLast? ≠ some ' ') (after : List Char) :
    ∃ rest, rest <+: after ∧ withoutComment (before ++ c :: after) =
      trimStart before ++ c :: rest := by
  have space : c ∉ [' ', '#'].dropLast := by
    intro member
    obtain rfl : c = ' ' := by simpa using member
    exact absurd solid (by decide)
  have lacks : ¬[' ', '#'] <:+: before ++ [c] := by
    intro holds
    rcases pair_infix_append_iff.mp holds with within | within | meets
    · exact not_note_isInfix plain within
    · exact absurd within.length_le (by simp)
    · obtain rfl : c = '#' := by simpa using meets.2
      exact other.elim (· rfl) (· meets.1)
  obtain ⟨rest, kept, -, left⟩ :=
    exists_trim_beforeFirst solid space lacks after
  exact ⟨rest, kept, left⟩

theorem trimStart_gap (isGap : IsGap gap) : trimStart gap = [] :=
  List.dropWhile_eq_nil_iff.mpr isGap.blank

theorem trim_gap (isGap : IsGap gap) : trim gap = [] := by
  have trimmed := @trimWhile_append_left gap [] isBlank isGap.blank
  rw [List.append_nil] at trimmed
  exact trimmed

theorem readLine_blank (isGap : IsGap gap) : readLine gap = [] := by
  have note : '#' ∉ gap := isGap.not_mem (by decide)
  rw [readLine, withoutComment_eq_trim note, trim_gap isGap]
  rfl

theorem readLine_option (isGap : IsGap gap) :
    readLine (gap ++ '-' :: text) = [] := by
  obtain ⟨rest, -, left⟩ := @exists_withoutComment gap '-'
    (isGap.not_mem (by decide)) (by decide) (.inl (by decide)) text
  rw [readLine, left, trimStart_gap isGap]
  rfl

theorem readLine_comment (isGap : IsGap gap) :
    readLine (gap ++ '#' :: text) = [] := by
  have note : '#' ∉ gap := isGap.not_mem (by decide)
  by_cases spaced : gap.getLast? = some ' '
  · rw [readLine, withoutComment_append_note note spaced, trim_gap isGap]
    rfl
  · obtain ⟨rest, -, left⟩ := @exists_withoutComment gap '#' note (by decide)
      (.inr spaced) text
    rw [readLine, left, trimStart_gap isGap]
    rfl

theorem withoutComment_dropReturn (line : List Char) :
    withoutComment (dropReturn line) = withoutComment line := by
  rcases exists_dropReturn line with same | returns
  · rw [same]
  · by_cases holds : [' ', '#'] <:+: dropReturn line
    · have cuts := beforeFirst_append_of_infix (by simp) holds ['\r']
      rw [← returns] at cuts
      rw [withoutComment_eq, withoutComment_eq, cuts]
    · have whole : ¬[' ', '#'] <:+: line := by
        rw [returns, infix_append_cons_iff (by decide) (by simp), not_or]
        exact ⟨holds, by simp⟩
      rw [withoutComment_eq, withoutComment_eq, beforeFirst_eq_self holds,
        beforeFirst_eq_self whole, trim_dropReturn]

end Lines

/-! ## Lines that go on -/

/-- Every line of the text but the first one starts with a hyphen. -/
def Folded (text : List Char) : Prop :=
  ∀ before after, text = before ++ '\n' :: after →
    ∃ indent rest, IsGap indent ∧ after = indent ++ '-' :: rest

section Folds

variable {before after text : List Char}

theorem folded_of_inLine (inLine : '\n' ∉ text) : Folded text := by
  rintro front back rfl
  exact absurd (by simp) inLine

theorem Folded.append (first : Folded before) (second : Folded after) :
    Folded (before ++ after) := by
  intro front back split
  rcases List.append_eq_append_iff.mp split with
    ⟨between, rfl, later⟩ | ⟨between, rfl, later⟩
  · exact second between back later
  · cases between with
    | nil => exact second [] back later.symm
    | cons c between =>
        obtain ⟨rfl, rfl⟩ := List.cons.inj later
        obtain ⟨indent, rest, isGap, rfl⟩ := first front between rfl
        exact ⟨indent, rest ++ after, isGap, by simp⟩

theorem folded_turn {indent : List Char} (isGap : IsGap indent)
    (inLine : '\n' ∉ text) : Folded ('\n' :: (indent ++ '-' :: text)) := by
  intro front back split
  cases front with
  | nil =>
      obtain ⟨-, rfl⟩ := List.cons.inj split
      exact ⟨indent, text, isGap, rfl⟩
  | cons c front =>
      obtain ⟨-, later⟩ := List.cons.inj split
      have whole : '\n' ∉ indent ++ '-' :: text := by
        simp [isGap.inLine, inLine]
      exact absurd (later ▸ by simp) whole

theorem folded_flatMap {α : Type} {spell : α → List Char} {items : List α}
    (each : ∀ item ∈ items, Folded (spell item)) :
    Folded (items.flatMap spell) := by
  induction items with
  | nil => exact folded_of_inLine List.not_mem_nil
  | cons item items ih =>
      obtain ⟨here, later⟩ := List.forall_mem_cons.mp each
      exact here.append (ih later)

/-- Of a folded text only the first line counts. -/
theorem flatMap_folded (folded : Folded text) :
    (splitOn '\n' text).flatMap readLine = readLine (firstLine text) := by
  induction length : text.length using Nat.strongRecOn generalizing text with
  | _ length ih =>
      subst length
      by_cases inLine : '\n' ∈ text
      · obtain ⟨first, later, rfl, absent⟩ :=
          List.eq_append_cons_of_mem inLine
        obtain ⟨indent, rest, isGap, rfl⟩ := folded first later rfl
        have foldedToo : Folded (indent ++ '-' :: rest) :=
          fun front back split =>
            folded (first ++ '\n' :: front) back (by simp [split])
        have start : firstLine (indent ++ '-' :: rest) =
            indent ++ '-' :: firstLine rest := by
          rw [firstLine_append isGap.inLine]
          rfl
        have silent :=
          ih (indent ++ '-' :: rest).length (by simp; omega) foldedToo rfl
        rw [start, readLine_option isGap] at silent
        rw [splitOn, splitWhen_append_cons (by simp), ← splitOn, ← splitOn,
          splitOn_eq_singleton absent, List.flatMap_append, silent,
          firstLine_append absent]
        simp [firstLine]
      · rw [splitOn_eq_singleton inLine, firstLine_eq_self inLine]
        simp

theorem Hash.folded {hash : Hash} (wellFormed : hash.WellFormed) :
    Folded hash.spell := by
  obtain ⟨isGap, -, turned, solid⟩ := wellFormed
  have digest : '\n' ∉ hash.digest := fun member =>
    absurd (solid _ member) (by decide)
  have option : '\n' ∉ "-hash=".toList ++ hash.digest :=
    List.not_mem_append (by decide) digest
  refine (folded_of_inLine isGap.inLine).append ?_
  cases turns : hash.turn with
  | none => exact folded_of_inLine (by simpa using digest)
  | some turn =>
      obtain ⟨back, indent⟩ := turned turn turns
      have returns : '\n' ∉ '\\' :: turn.back := by
        revert back
        simp only [List.mem_cons, List.not_mem_nil, or_false]
        rintro (empty | single) <;> simp [*]
      have whole :=
        (folded_of_inLine returns).append (folded_turn indent option)
      simpa [Turn.spell] using whole

theorem Marker.folded {marker : Marker} (wellFormed : marker.WellFormed) :
    Folded marker.spell := by
  obtain ⟨isGap, inLine, hashes⟩ := wellFormed
  have front : '\n' ∉ marker.gap ++ ';' :: marker.text := by
    simp [isGap.inLine, inLine]
  have whole := (folded_of_inLine front).append
    (folded_flatMap fun hash member => Hash.folded (hashes hash member))
  simpa [Marker.spell] using whole

end Folds

/-! ## Entries -/

section Reading

variable {package : Package} {gap stuff : List Char} {c : Char}
  (wellFormed : package.WellFormed)

include wellFormed

theorem trimStart_package (text : List Char) :
    trimStart (package.spell ++ text) = package.spell ++ text := by
  obtain ⟨c, first, solid⟩ := Package.starts wellFormed
  obtain ⟨rest, spelled⟩ := List.head?_eq_some_iff.mp first
  rw [spelled]
  exact List.dropWhile_cons_of_neg (by simp [solid])

theorem trim_package (isGap : IsGap gap) :
    trim (package.spell ++ gap) = package.spell := by
  rw [trim, trimWhile_append_right isGap.blank]
  exact trim_eq_self (Package.starts wellFormed) (Package.ends wellFormed)

theorem front_lacks {mark : Char} (isMark : mark ∈ marks)
    (isGap : IsGap gap) : mark ∉ package.spell ++ gap :=
  List.not_mem_append (Package.lacks isMark wellFormed)
    (not_mem_of_isGap isMark isGap)

/-- Behind the package white space and a marker are cut off. -/
theorem trim_beforeFirst_package (isGap : IsGap gap)
    (shape : stuff = [] ∨ stuff.head? = some ';') :
    trim (beforeFirst [';'] (package.spell ++ (gap ++ stuff))) =
      package.spell := by
  have plain : ¬[';'] <:+: package.spell ++ gap := by
    rw [List.singleton_infix_iff]
    exact front_lacks wellFormed (by decide) isGap
  have cuts : beforeFirst [';'] (package.spell ++ (gap ++ stuff)) =
      package.spell ++ gap := by
    rcases shape with rfl | marked
    · rw [List.append_nil, beforeFirst_eq_self plain]
    · obtain ⟨rest, rfl⟩ := List.head?_eq_some_iff.mp marked
      have cut := @beforeFirst_append [';'] (package.spell ++ gap) rest
        (by simpa using plain)
      rw [← cut]
      simp
  rw [cuts, trim_package wellFormed isGap]

/-- A requirement with a marker is what is meant exactly if no equals sign is
lost. -/
theorem read_eq_requirement_iff (scope : String) (isGap : IsGap gap)
    (shape : stuff = [] ∨ stuff.head? = some ';') :
    read scope (package.spell ++ (gap ++ stuff)) =
      some (package.requirement scope) ↔ package.Exact := by
  have address : ¬" @ ".toList <:+: package.spell := fun holds =>
    Package.lacks (by decide) wellFormed (holds.subset (by decide : '@' ∈ _))
  have whole := trim_eq_self (Package.starts wellFormed)
    (Package.ends wellFormed)
  have found := @search_eq_requirement_iff package [] scope wellFormed
    (.inl rfl) (.inl rfl) List.not_mem_nil
  rw [List.append_nil] at found
  rw [read_eq, trim_beforeFirst_package wellFormed isGap shape,
    beforeFirst_eq_self address, whole, found]
  simp

/-- A requirement with something else behind it is not what is meant. -/
theorem read_ne_requirement (scope : String) (isGap : IsGap gap)
    (other : c ∈ ['-', '\\', '#']) (parted : c = '-' → gap ≠ [])
    (inLine : '\n' ∉ stuff) :
    read scope (package.spell ++ (gap ++ c :: stuff)) ≠
      some (package.requirement scope) := by
  have each : ∀ c ∈ ['-', '\\', '#'], isBlank c = false ∧ c ≠ ';' ∧
      c ∉ " @ ".toList ∧ c ∉ '[' :: ']' :: signs ∧
      (isNameChar c = true → c = '-') := by decide
  obtain ⟨solid, unmarked, address, sign, named⟩ := each c other
  have lacks : ¬[';'] <:+: package.spell ++ gap ++ [c] := by
    rw [List.singleton_infix_iff, List.mem_append, List.mem_singleton, not_or]
    exact ⟨front_lacks wellFormed (by decide) isGap, unmarked.symm⟩
  have lacksToo : ¬" @ ".toList <:+: package.spell ++ gap ++ [c] := by
    intro holds
    have member : '@' ∈ package.spell ++ gap ++ [c] :=
      holds.subset (by decide : '@' ∈ _)
    rcases List.mem_append.mp member with within | within
    · exact front_lacks wellFormed (by decide) isGap within
    · exact address (List.mem_singleton.mp within ▸ by decide)
  obtain ⟨first, kept, -, left⟩ :=
    exists_trim_beforeFirst solid (by simp) lacks stuff
  obtain ⟨second, keptToo, ends, leftToo⟩ :=
    exists_trim_beforeFirst solid
      (fun member => address ((List.dropLast_subset _) member)) lacksToo first
  rw [trimStart_package wellFormed, List.append_assoc, List.append_assoc]
    at left
  rw [trimStart_package wellFormed, List.append_assoc, List.append_assoc]
    at leftToo
  have last : Ends (gap ++ c :: second) := by
    rcases ends with rfl | ends
    · exact Ends.append ⟨c, rfl, solid⟩
    · have behind : Ends (gap ++ [c] ++ second) := ends.append
      simpa using behind
  have inLineToo : '\n' ∉ gap ++ c :: second := by
    refine List.not_mem_append isGap.inLine ?_
    rw [List.mem_cons, not_or]
    refine ⟨?_, fun member => inLine ((keptToo.trans kept).subset member)⟩
    rintro rfl
    exact absurd solid (by decide)
  rw [read_eq, left, leftToo, Ne, search_eq_requirement_iff scope wellFormed
    (.inr ⟨gap, c, second, rfl, isGap, solid, sign,
      fun isName => parted (named isName)⟩) (.inr last) inLineToo]
  simp

theorem isIgnored_package (text : List Char) :
    isIgnored (package.spell ++ text) = false := by
  have name := wellFormed.name
  cases named : package.name with
  | nil =>
      rw [named] at name
      exact name.elim
  | cons c rest =>
      rw [named] at name
      have number : c ≠ '#' := by
        rintro rfl
        exact absurd name.1 (by decide)
      have hyphen : c ≠ '-' := by
        rintro rfl
        exact absurd name.1 (by decide)
      simp [isIgnored, Package.spell, named, number, hyphen]

theorem readLine_eq_singleton_iff {line text : List Char} {found : Requirement}
    (left : withoutComment line = package.spell ++ text) :
    readLine line = [found] ↔
      read "compile" (package.spell ++ text) = some found := by
  rw [readLine, left, isIgnored_package wellFormed]
  cases read "compile" (package.spell ++ text) <;> simp

section Lines

variable {indent : List Char} (indented : IsGap indent)

include indented

theorem trimStart_line (text : List Char) :
    trimStart (indent ++ (package.spell ++ text)) = package.spell ++ text := by
  rw [trimStart, List.dropWhile_append_of_pos indented.blank]
  exact trimStart_package wellFormed text

variable (isGap : IsGap gap)

include isGap

theorem line_lacks : '#' ∉ indent ++ (package.spell ++ gap) :=
  List.not_mem_append (indented.not_mem (by decide))
    (front_lacks wellFormed (by decide) isGap)

theorem trim_line :
    trim (indent ++ (package.spell ++ gap)) = package.spell := by
  rw [trim, trimWhile_append_left indented.blank]
  exact trim_package wellFormed isGap

/-- What stays of a line whose package has something behind it. -/
theorem exists_withoutComment_line (solid : isBlank c = false)
    (other : c ≠ '#' ∨ gap ≠ [] ∧ gap.getLast? ≠ some ' ') :
    ∃ rest, rest <+: stuff ∧
      withoutComment (indent ++ (package.spell ++ (gap ++ c :: stuff))) =
        package.spell ++ (gap ++ c :: rest) := by
  have spaced : c ≠ '#' ∨
      (indent ++ (package.spell ++ gap)).getLast? ≠ some ' ' := by
    refine other.imp_right fun ⟨filled, last⟩ => ?_
    rwa [← List.append_assoc, List.getLast?_append_of_ne_nil _ filled]
  obtain ⟨rest, kept, left⟩ := exists_withoutComment
    (line_lacks wellFormed indented isGap) solid spaced stuff
  refine ⟨rest, kept, ?_⟩
  rw [trimStart_line wellFormed indented] at left
  simpa using left

/-- A line with a package and nothing behind it but a marker or a comment. -/
theorem readLine_eq_requirement_iff
    (shape : stuff = [] ∨ stuff.head? = some ';' ∨
      stuff.head? = some '#' ∧ gap.getLast? = some ' ') :
    readLine (indent ++ (package.spell ++ (gap ++ stuff))) =
      [package.requirement "compile"] ↔ package.Exact := by
  have plain := line_lacks wellFormed indented isGap
  have left : ∃ gap' stuff', IsGap gap' ∧
      (stuff' = [] ∨ stuff'.head? = some ';') ∧
      withoutComment (indent ++ (package.spell ++ (gap ++ stuff))) =
        package.spell ++ (gap' ++ stuff') := by
    rcases shape with rfl | marked | ⟨noted, spaced⟩
    · refine ⟨[], [], isGap_nil, .inl rfl, ?_⟩
      rw [List.append_nil, withoutComment_eq_trim plain,
        trim_line wellFormed indented isGap]
      simp
    · obtain ⟨rest, rfl⟩ := List.head?_eq_some_iff.mp marked
      obtain ⟨rest', -, left⟩ := @exists_withoutComment_line _ _ rest ';'
        wellFormed _ indented isGap (by decide) (.inl (by decide))
      exact ⟨gap, ';' :: rest', isGap, .inr rfl, left⟩
    · obtain ⟨rest, rfl⟩ := List.head?_eq_some_iff.mp noted
      refine ⟨[], [], isGap_nil, .inl rfl, ?_⟩
      have last : (indent ++ (package.spell ++ gap)).getLast? = some ' ' := by
        simp [List.getLast?_append, spaced]
      have cuts := withoutComment_append_note plain last rest
      rw [trim_line wellFormed indented isGap] at cuts
      simpa using cuts
  obtain ⟨gap', stuff', isGap', shape', left⟩ := left
  rw [readLine_eq_singleton_iff wellFormed left,
    read_eq_requirement_iff wellFormed "compile" isGap' shape']

/-- A line with a hash, a backslash or something that is no comment behind the
package. -/
theorem readLine_ne_requirement (other : c ∈ ['-', '\\', '#'])
    (parted : c = '-' → gap ≠ [])
    (noted : c = '#' → gap ≠ [] ∧ gap.getLast? ≠ some ' ')
    (inLine : '\n' ∉ stuff) :
    readLine (indent ++ (package.spell ++ (gap ++ c :: stuff))) ≠
      [package.requirement "compile"] := by
  have each : ∀ c ∈ ['-', '\\', '#'], isBlank c = false := by decide
  obtain ⟨rest, kept, left⟩ := @exists_withoutComment_line _ _ stuff c
    wellFormed _ indented isGap (each c other) (by
      by_cases same : c = '#'
      · exact .inr (noted same)
      · exact .inl same)
  rw [Ne, readLine_eq_singleton_iff wellFormed left]
  exact read_ne_requirement wellFormed "compile" isGap other parted
    fun member => inLine (kept.subset member)

end Lines

end Reading

theorem Hash.first {hash : Hash} (wellFormed : hash.WellFormed)
    (more : List Char) :
    ∃ c stuff, c ∈ ['-', '\\', '#'] ∧ c ≠ '#' ∧ (c = '-' → hash.gap ≠ []) ∧
      firstLine (hash.spell ++ more) = hash.gap ++ c :: firstLine stuff := by
  obtain ⟨isGap, filled, -, -⟩ := wellFormed
  have split (c : Char) (stuff : List Char) (inLine : c ≠ '\n') :
      firstLine (hash.gap ++ c :: stuff) =
        hash.gap ++ c :: firstLine stuff := by
    rw [firstLine_append isGap.inLine, firstLine, firstLine,
      List.takeWhile_cons_of_pos (by simpa using inLine)]
  cases turns : hash.turn with
  | none =>
      refine ⟨'-', "-hash=".toList ++ hash.digest ++ more, by decide,
        by decide, fun _ => filled turns, ?_⟩
      rw [← split _ _ (by decide)]
      simp [Hash.spell, turns]
  | some turn =>
      refine ⟨'\\', turn.back ++ '\n' :: (turn.indent ++
        '-' :: ("-hash=".toList ++ hash.digest ++ more)), by decide,
        by decide, fun same => absurd same (by decide), ?_⟩
      rw [← split _ _ (by decide)]
      simp [Hash.spell, turns, Turn.spell]

section Entries

variable {entry : Entry} (wellFormed : entry.WellFormed)

include wellFormed

theorem firstLine_entry :
    firstLine entry.spell =
      entry.indent ++ (entry.package.spell ++ firstLine entry.rest) := by
  rw [Entry.spell, firstLine_append wellFormed.indent.inLine,
    firstLine_append (Package.lacks (by decide) wellFormed.package)]

theorem Entry.folded : Folded entry.spell := by
  have comment : '\n' ∉ entry.comment.elim [] ('#' :: ·) := by
    cases noted : entry.comment with
    | none => exact List.not_mem_nil
    | some text => simpa using (wellFormed.comment text noted).2
  have marker : Folded (entry.marker.elim [] Marker.spell) := by
    cases marked : entry.marker with
    | none => exact folded_of_inLine List.not_mem_nil
    | some marker => exact Marker.folded (wellFormed.marker marker marked)
  have hashes : Folded (entry.hashes.flatMap Hash.spell) :=
    folded_flatMap fun hash member =>
      Hash.folded (wellFormed.hashes hash member)
  have package : '\n' ∉ entry.package.spell :=
    Package.lacks (by decide) wellFormed.package
  exact (folded_of_inLine wellFormed.indent.inLine).append
    ((folded_of_inLine package).append (hashes.append (marker.append
      ((folded_of_inLine wellFormed.gap.inLine).append
        (folded_of_inLine comment)))))

/-- The first line of an entry is read as what is meant exactly if the entry is
clean. -/
theorem readLine_first_iff :
    readLine (firstLine entry.spell) =
      [entry.package.requirement "compile"] ↔ entry.Clean := by
  rw [firstLine_entry wellFormed]
  cases hashed : entry.hashes with
  | cons hash hashes =>
      have here : hash.WellFormed := wellFormed.hashes hash (by simp [hashed])
      obtain ⟨c, stuff, other, number, parted, first⟩ := Hash.first here
        (hashes.flatMap Hash.spell ++ (entry.marker.elim [] Marker.spell ++
          (entry.gap ++ entry.comment.elim [] ('#' :: ·))))
      have split : firstLine entry.rest =
          hash.gap ++ c :: firstLine stuff := by
        rw [← first]
        simp [Entry.rest, hashed]
      rw [split]
      refine iff_of_false ?_ fun clean => by
        simpa [hashed] using clean.hashes
      exact readLine_ne_requirement wellFormed.package wellFormed.indent here.1
        other parted (fun same => absurd same number) (not_mem_firstLine stuff)
  | nil =>
      cases marked : entry.marker with
      | some marker =>
          have isGap := (wellFormed.marker marker marked).1
          have split : firstLine entry.rest = marker.gap ++ ';' :: firstLine
              (marker.text ++ marker.hashes.flatMap Hash.spell ++
                (entry.gap ++ entry.comment.elim [] ('#' :: ·))) := by
            simp [Entry.rest, hashed, marked, Marker.spell,
              firstLine_append isGap.inLine]
            rfl
          rw [split, readLine_eq_requirement_iff wellFormed.package
            wellFormed.indent isGap (.inr (.inl rfl))]
          exact ⟨fun exact_ => ⟨hashed, by simp [marked], exact_⟩, (·.exact)⟩
      | none =>
          have isGap := wellFormed.gap
          have front : entry.rest =
              entry.gap ++ entry.comment.elim [] ('#' :: ·) := by
            simp [Entry.rest, hashed, marked]
          rw [front, firstLine_append isGap.inLine]
          cases noted : entry.comment with
          | none =>
              rw [Option.elim_none, firstLine_eq_self List.not_mem_nil,
                readLine_eq_requirement_iff wellFormed.package
                  wellFormed.indent isGap (.inl rfl)]
              exact ⟨fun exact_ => ⟨hashed, by simp [noted], exact_⟩,
                (·.exact)⟩
          | some text =>
              obtain ⟨filled, inLine⟩ := wellFormed.comment text noted
              have whole : '\n' ∉ '#' :: text := by simpa using inLine
              rw [Option.elim_some, firstLine_eq_self whole]
              by_cases spaced : entry.gap.getLast? = some ' '
              · rw [readLine_eq_requirement_iff wellFormed.package
                  wellFormed.indent isGap (.inr (.inr ⟨rfl, spaced⟩))]
                exact ⟨fun exact_ => ⟨hashed, fun _ _ => spaced, exact_⟩,
                  (·.exact)⟩
              · refine iff_of_false ?_ fun clean =>
                  spaced (clean.comment marked (by simp [noted]))
                exact readLine_ne_requirement wellFormed.package
                  wellFormed.indent isGap (by decide) (fun _ => filled)
                  (fun _ => ⟨filled, spaced⟩) inLine

end Entries

/-! ## Reading files -/

/-- What is read of the lines of an item. -/
def Item.read (item : Item) : List Requirement :=
  (splitOn '\n' item.spell).flatMap readLine

theorem Item.read_eq {item : Item} (wellFormed : item.WellFormed) :
    item.read = readLine (firstLine item.spell) := by
  refine flatMap_folded ?_
  cases item with
  | blank gap => exact folded_of_inLine (IsGap.inLine wellFormed)
  | comment indent text =>
      exact folded_of_inLine
        (by simp [Item.spell, wellFormed.1.inLine, wellFormed.2])
  | option indent text =>
      exact folded_of_inLine
        (by simp [Item.spell, wellFormed.1.inLine, wellFormed.2])
  | entry written => exact Entry.folded wellFormed

/-- An item is read as the requirement that it states exactly if it is no entry
or a clean one. -/
theorem Item.read_eq_iff {item : Item} (wellFormed : item.WellFormed) :
    item.read = item.requirement?.toList ↔
      ∀ entry, item = .entry entry → entry.Clean := by
  rw [Item.read_eq wellFormed]
  cases item with
  | blank gap =>
      have isGap : IsGap gap := wellFormed
      rw [Item.spell, firstLine_eq_self isGap.inLine, readLine_blank isGap]
      simp [Item.requirement?]
  | comment indent text =>
      obtain ⟨isGap, inLine⟩ := wellFormed
      have whole : '\n' ∉ indent ++ '#' :: text := by
        simp [isGap.inLine, inLine]
      rw [Item.spell, firstLine_eq_self whole, readLine_comment isGap]
      simp [Item.requirement?]
  | option indent text =>
      obtain ⟨isGap, inLine⟩ := wellFormed
      have whole : '\n' ∉ indent ++ '-' :: text := by
        simp [isGap.inLine, inLine]
      rw [Item.spell, firstLine_eq_self whole, readLine_option isGap]
      simp [Item.requirement?]
  | entry written =>
      simpa [Item.spell, Item.requirement?] using readLine_first_iff wellFormed

theorem Item.length_read_le {item : Item} (wellFormed : item.WellFormed) :
    item.read.length ≤ item.requirement?.toList.length := by
  cases item with
  | entry written =>
      rw [Item.read_eq wellFormed]
      exact length_readLine_le _
  | blank gap =>
      exact ((Item.read_eq_iff wellFormed).mpr (by simp) ▸ Nat.le_refl _)
  | comment indent text =>
      exact ((Item.read_eq_iff wellFormed).mpr (by simp) ▸ Nat.le_refl _)
  | option indent text =>
      exact ((Item.read_eq_iff wellFormed).mpr (by simp) ▸ Nat.le_refl _)

theorem readLines_print (file : List Item) :
    readLines (print file) = file.flatMap Item.read := by
  rw [readLines_eq, flatMap_lines (fun line => by
    rw [readLine, withoutComment_dropReturn]; rfl) rfl, print]
  by_cases filled : file = []
  · rw [filled]
    rfl
  · rw [splitOn_joinWith (by simpa using filled), List.flatMap_map,
      List.flatMap_assoc]
    rfl

/-- A requirement file is read as one requirement for each entry, each with the
lower-cased name and the written specifier, exactly if all entries are clean. -/
theorem readLines_print_iff {file : List Item}
    (wellFormed : ∀ item ∈ file, item.WellFormed) :
    readLines (print file) = file.filterMap Item.requirement? ↔
      ∀ entry, .entry entry ∈ file → entry.Clean := by
  have meant : file.filterMap Item.requirement? =
      file.flatMap fun item => item.requirement?.toList :=
    List.filterMap_eq_flatMap_toList _ _
  rw [readLines_print, meant, flatMap_eq_flatMap_iff fun item member =>
    Item.length_read_le (wellFormed item member)]
  constructor
  · intro same entry member
    exact (Item.read_eq_iff (wellFormed _ member)).mp (same _ member) entry rfl
  · intro clean item member
    refine (Item.read_eq_iff (wellFormed item member)).mpr ?_
    rintro entry rfl
    exact clean entry member

/-! ## Hashes -/

/-- A package with exactly one version. -/
def pinned (name version : String) : Package :=
  ⟨name.toList, none, some ⟨[], ⟨"==", [], version.toList⟩, []⟩⟩

/-- A hash on a line of its own. -/
def foldedHash (digest : String) : Hash :=
  ⟨[' '], some ⟨[], [' ', ' ']⟩, digest.toList⟩

/-- Packages whose hashes stand behind a marker, between other lines. -/
def webFile : List Item :=
  [.comment [] " web".toList,
    .entry ⟨[], pinned "Flask" "3.0.0", [],
      some ⟨[' '], " os_name == 'nt'".toList,
        [foldedHash "sha256:ab", foldedHash "sha256:cd"]⟩, [], none⟩,
    .blank [],
    .option [] "r dev.txt".toList,
    .entry ⟨[], ⟨"uvicorn".toList, some ⟨[], "standard".toList⟩,
      some ⟨[' '], ⟨">=", [' '], "0.29".toList⟩,
        [⟨[], [' '], ⟨"<", [], "1".toList⟩⟩]⟩⟩, [], none, [' '],
      some " the server".toList⟩]

theorem readLines_print_iff_webFile :
    (∀ item ∈ webFile, item.WellFormed) ∧
      readLines (print webFile) =
        [⟨"flask", some "3.0.0", "compile"⟩,
          ⟨"uvicorn", some ">=0.29, <1", "compile"⟩] := by
  have wellFormed : ∀ item ∈ webFile, item.WellFormed := by decide +kernel
  refine ⟨wellFormed, ((readLines_print_iff wellFormed).mpr ?_).trans ?_⟩
  · intro entry member
    simp only [webFile, List.mem_cons, List.not_mem_nil, reduceCtorEq,
      Item.entry.injEq, false_or, or_false] at member
    rcases member with rfl | rfl <;> decide +kernel
  · decide +kernel

/-- A hash behind a package becomes a part of the version. -/
theorem not_readLines_print :
    ¬ ∀ file : List Item, (∀ item ∈ file, item.WellFormed) →
      readLines (print file) = file.filterMap Item.requirement? := by
  intro always
  let file : List Item :=
    [.entry ⟨[], pinned "Flask" "3.0.0", [foldedHash "sha256:ab"], none, [],
      none⟩]
  have wellFormed : ∀ item ∈ file, item.WellFormed := by decide +kernel
  have reads := always file wellFormed
  revert reads
  decide +kernel

end ArchSurvey.Manifest.Requirement
