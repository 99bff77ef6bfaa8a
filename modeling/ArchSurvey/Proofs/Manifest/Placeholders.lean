import ArchSurvey.Manifest.Pom
import ArchSurvey.Proofs.Keyed
import ArchSurvey.Proofs.Text.Occurrences
import ArchSurvey.Proofs.Text.Split

/-!
# Placeholders in project object models

A value is text with placeholders in it, each with the name of a property.
Filling in replaces the placeholders of defined names by the values of these
properties and leaves the others as they are written.  The values are not
looked through again, so none of a defined name is left exactly if no property
that is named directly has a value that names another one.
-/

namespace ArchSurvey.Manifest.Pom

open Text
open Text.Pattern (Free Place Leads readsWords_literal leads_some1 readsOne_char
  replacedFrom replacedFrom_skip replacedFrom_of_leads replaceAll_eq
  replaceAll_text free_of_lacks)

/-! ## Values -/

/-- The placeholder of a property. -/
def mark (name : List Char) : List Char :=
  '$' :: '\x7b' :: (name ++ ['\x7d'])

/-- A part of a value. -/
inductive Part where
  | text (characters : List Char)
  | placeholder (name : List Char)
  deriving DecidableEq, Repr

namespace Part

def spell : Part → List Char
  | text characters => characters
  | placeholder name => mark name

/-- Text does not hold or begin what opens a placeholder, and neither does a
name, which has no closing brace. -/
def WellFormed : Part → Prop
  | text characters =>
      ¬ ['$', '\x7b'] <:+: characters ∧ characters.getLast? ≠ some '$'
  | placeholder name =>
      name ≠ [] ∧ '\x7d' ∉ name ∧ ¬ ['$', '\x7b'] <:+: name

instance : DecidablePred WellFormed
  | text _ => inferInstanceAs (Decidable (_ ∧ _))
  | placeholder _ => inferInstanceAs (Decidable (_ ∧ _ ∧ _))

/-- What stands for a part once defined names are filled in. -/
def filled (defined : List (String × String)) : Part → List Char
  | text characters => characters
  | placeholder name =>
      match defined.lookup (String.ofList name) with
      | some value => value.toList
      | none => mark name

end Part

def spellParts (parts : List Part) : List Char :=
  parts.flatMap Part.spell

/-- Each dollar sign in front of a brace belongs to a placeholder. -/
def Tidy (value : String) : Prop :=
  ∃ parts : List Part, (∀ part ∈ parts, part.WellFormed) ∧
    value.toList = spellParts parts

/-- The value has the placeholder of a property. -/
def Names (value name : String) : Prop :=
  mark name.toList <:+: value.toList

instance (value name : String) : Decidable (Names value name) :=
  inferInstanceAs (Decidable (_ <:+: _))

/-- No placeholder of a defined name is left in the value. -/
def Resolved (defined : List (String × String)) (value : String) : Prop :=
  ∀ property ∈ defined, ¬ Names value property.1

instance (defined : List (String × String)) (value : String) :
    Decidable (Resolved defined value) :=
  inferInstanceAs (Decidable (∀ _ ∈ _, ¬ _))

/-- One value is another one with the placeholders of defined names filled in,
and everything else as it is written. -/
def FilledIn (defined : List (String × String)) (written value : String) :
    Prop :=
  ∃ parts : List Part, (∀ part ∈ parts, part.WellFormed) ∧
    written.toList = spellParts parts ∧
    value.toList = parts.flatMap (Part.filled defined)

/-! ## Marks in values -/

section Marks

variable {part : Part} {parts : List Part} {name rest : List Char}

theorem free_text {characters : List Char}
    (wellFormed : (Part.text characters).WellFormed) :
    Free [['$', '\x7b']] characters := by
  intro front back split filled rest word member starts
  obtain rfl := List.mem_singleton.mp member
  obtain ⟨lacks, last⟩ := wellFormed
  obtain ⟨c, back, rfl⟩ := List.exists_cons_of_ne_nil filled
  obtain ⟨rfl, second⟩ := List.cons_prefix_cons.mp starts
  cases back with
  | nil => exact last (by simp [split])
  | cons d back =>
      obtain ⟨rfl, -⟩ := List.cons_prefix_cons.mp second
      exact lacks ⟨front, back, by simp [split]⟩

/-- Behind its dollar sign a placeholder opens no other one. -/
theorem free_tail_mark (wellFormed : (Part.placeholder name).WellFormed) :
    Free [['$', '\x7b']] ('\x7b' :: (name ++ ['\x7d'])) := by
  obtain ⟨-, -, lacks⟩ := wellFormed
  refine @free_of_lacks [['$', '\x7b']] ('\x7b' :: name) '\x7d' (by decide) ?_
  intro word member holds
  obtain rfl := List.mem_singleton.mp member
  rcases List.infix_cons_iff.mp holds with starts | within
  · simp at starts
  · rcases (infix_append_cons_iff (by decide) (by simp)).mp within with
      here | beyond
    · exact lacks here
    · simp at beyond

/-- A word that does not start in a text occurs behind it if at all. -/
theorem infix_of_free {word more text : List Char} (free : Free [word] text)
    (holds : word ++ more <:+: text ++ rest) : word ++ more <:+: rest := by
  obtain ⟨front, back, equal⟩ := holds
  rw [List.append_assoc] at equal
  rcases List.append_eq_append_iff.mp equal with
    ⟨between, rfl, split⟩ | ⟨between, rfl, split⟩
  · cases between with
    | nil => exact ⟨[], back, by simpa using split⟩
    | cons c between =>
        refine absurd ?_ (free front (c :: between) rfl (by simp) rest word
          List.mem_cons_self)
        exact ⟨more ++ back, by simpa using split⟩
  · exact ⟨between, back, by simp [split]⟩

/-- A placeholder that occurs in a text occurs in the part it begins in. -/
theorem mark_infix_append_iff (wellFormed : part.WellFormed)
    (closed : '\x7d' ∉ name) :
    mark name <:+: part.spell ++ rest ↔
      part = .placeholder name ∨ mark name <:+: rest := by
  constructor
  · intro holds
    cases part with
    | text characters => exact .inr (infix_of_free (free_text wellFormed) holds)
    | placeholder other =>
        rw [Part.spell, mark, mark, List.cons_append] at holds
        rcases List.infix_cons_iff.mp holds with starts | within
        · left
          obtain ⟨-, starts⟩ := List.cons_prefix_cons.mp starts
          obtain ⟨-, starts⟩ := List.cons_prefix_cons.mp starts
          obtain ⟨back, equal⟩ := starts
          have split : name ++ '\x7d' :: back = other ++ '\x7d' :: rest := by
            simpa using equal
          rw [(parted_unique closed wellFormed.2.1 split).1]
        · exact .inr (infix_of_free (free_tail_mark wellFormed) within)
  · rintro (rfl | ⟨front, back, rfl⟩)
    · exact (List.prefix_append _ _).isInfix
    · exact ⟨part.spell ++ front, back, by simp⟩

theorem mark_infix_spellParts_append_iff
    (wellFormed : ∀ part ∈ parts, part.WellFormed) (closed : '\x7d' ∉ name) :
    mark name <:+: spellParts parts ++ rest ↔
      .placeholder name ∈ parts ∨ mark name <:+: rest := by
  induction parts with
  | nil => simp [spellParts]
  | cons part parts ih =>
      obtain ⟨here, later⟩ := List.forall_mem_cons.mp wellFormed
      rw [spellParts, List.flatMap_cons, List.append_assoc,
        mark_infix_append_iff here closed, ← spellParts, ih later,
        List.mem_cons, or_assoc, eq_comm]

theorem mark_infix_spellParts_iff
    (wellFormed : ∀ part ∈ parts, part.WellFormed) (closed : '\x7d' ∉ name) :
    mark name <:+: spellParts parts ↔ .placeholder name ∈ parts := by
  have alone := @mark_infix_spellParts_append_iff _ _ [] wellFormed closed
  simpa [mark] using alone

end Marks

/-! ## Filling in -/

section Filling

variable {defined : List (String × String)} {part : Part} {parts : List Part}

/-- What is put in the place of a placeholder that was found. -/
def image (defined : List (String × String)) (found : Pattern.Match) :
    List Char :=
  match defined.lookup (found.groupString 1) with
  | some value => value.toList
  | none => found.text

theorem resolve_eq (defined : List (String × String)) (value : String) :
    resolve defined value =
      String.ofList (replacedFrom placeholder (image defined) none
        value.toList) := rfl

theorem placeholder_fails {place : Place}
    (refused : ¬ ['$', '\x7b'] <+: place.rest) :
    placeholder.ways place = [] :=
  Pattern.ways_seq_of_left ((readsWords_literal "$\x7b").stops
    fun word member => by
      obtain rfl := List.mem_singleton.mp member
      exact refused)

/-- A placeholder is found where it stands, with its name kept. -/
theorem leads_placeholder {name rest : List Char}
    (wellFormed : (Part.placeholder name).WellFormed)
    (previous : Option Char) :
    ∃ after, Leads placeholder ⟨previous, mark name ++ rest, 0, []⟩ after ∧
      after.read = (mark name).length ∧ after.rest = rest ∧
      after.groups = [(1, name ++ '\x7d' :: rest, name.length)] := by
  obtain ⟨filled, closed, -⟩ := wellFormed
  let start : Place := ⟨previous, mark name ++ rest, 0, []⟩
  let opened := start.past ['$', '\x7b'] (name ++ '\x7d' :: rest)
  have one : Leads (Pattern.literal "$\x7b") start opened :=
    (readsWords_literal "$\x7b").reads (by simp) (by simp [start, mark])
  have two : Leads (Pattern.some1 (Pattern.noneOf "\x7d")) opened
      (opened.past name ('\x7d' :: rest)) := by
    refine leads_some1 (readsOne_char _) filled rfl (fun c member => ?_)
      (by simp)
    have other : c ≠ '\x7d' := fun same => closed (same ▸ member)
    simpa using other
  have three : Leads (Pattern.literal "\x7d")
      (opened.keep 1 name ('\x7d' :: rest))
      ((opened.keep 1 name ('\x7d' :: rest)).past ['\x7d'] rest) :=
    (readsWords_literal "\x7d").reads (by simp) rfl
  refine ⟨_, one.seq (two.group.seq three), ?_, rfl, rfl⟩
  simp [opened, start, mark, Place.keep]
  omega

/-- Defined names are filled in and everything else stays as it is. -/
theorem replacedFrom_spellParts (wellFormed : ∀ part ∈ parts, part.WellFormed)
    (previous : Option Char) :
    replacedFrom placeholder (image defined) previous (spellParts parts) =
      parts.flatMap (Part.filled defined) := by
  induction parts generalizing previous with
  | nil => rfl
  | cons part parts ih =>
      obtain ⟨here, later⟩ := List.forall_mem_cons.mp wellFormed
      rw [spellParts, List.flatMap_cons, ← spellParts, List.flatMap_cons]
      cases part with
      | text characters =>
          rw [Part.spell, replacedFrom_skip (fun _ _ => rfl)
            fun front back split filled => placeholder_fails
              (free_text here front back split filled _ _
                List.mem_cons_self), ih later]
          rfl
      | placeholder name =>
          obtain ⟨after, leads, reads, ends, groups⟩ :=
            @leads_placeholder name (spellParts parts) here previous
          have filled : Part.spell (.placeholder name) ≠ [] := by
            simp [Part.spell, mark]
          rw [replacedFrom_of_leads filled leads reads ends, ih later]
          congr 1
          simp [image, Part.filled, Pattern.Match.groupString,
            Pattern.Match.group, Pattern.Match.group?, groups,
            Pattern.Match.ending, reads, Part.spell]

theorem resolve_filledIn {value : String} (tidy : Tidy value) :
    FilledIn defined value (resolve defined value) := by
  obtain ⟨parts, wellFormed, spelled⟩ := tidy
  refine ⟨parts, wellFormed, spelled, ?_⟩
  rw [resolve_eq, spelled, replacedFrom_spellParts wellFormed,
    String.toList_ofList]

/-- Without properties a value stays as it is. -/
theorem resolve_nil (value : String) : resolve [] value = value := by
  have itself : resolve [] value =
      String.ofList (placeholder.replaceAll Pattern.Match.text value.toList) :=
    rfl
  rw [itself, replaceAll_text, String.ofList_toList]

theorem mem_of_lookup {name value : String}
    (found : defined.lookup name = some value) : (name, value) ∈ defined := by
  obtain ⟨before, after, rfl, -⟩ := List.lookup_eq_some_iff.mp found
  simp

/-- What is filled in is made of parts again. -/
theorem exists_parts_filled (tidy : ∀ pair ∈ defined, Tidy pair.2)
    (wellFormed : part.WellFormed) :
    ∃ others : List Part, (∀ other ∈ others, other.WellFormed) ∧
      part.filled defined = spellParts others := by
  cases part with
  | text characters =>
      exact ⟨[.text characters], by simpa using wellFormed,
        by simp [Part.filled, spellParts, Part.spell]⟩
  | placeholder name =>
      rw [Part.filled]
      cases found : defined.lookup (String.ofList name) with
      | none =>
          exact ⟨[.placeholder name], by simpa using wellFormed,
            by simp [spellParts, Part.spell]⟩
      | some value =>
          exact tidy _ (mem_of_lookup found)

theorem mark_infix_filled_iff {name : List Char}
    (tidy : ∀ pair ∈ defined, Tidy pair.2)
    (wellFormed : ∀ part ∈ parts, part.WellFormed) (closed : '\x7d' ∉ name) :
    mark name <:+: parts.flatMap (Part.filled defined) ↔
      ∃ part ∈ parts, mark name <:+: part.filled defined := by
  induction parts with
  | nil => simp [mark]
  | cons part parts ih =>
      obtain ⟨here, later⟩ := List.forall_mem_cons.mp wellFormed
      obtain ⟨others, formed, spelled⟩ := exists_parts_filled tidy here
      rw [List.flatMap_cons, spelled,
        mark_infix_spellParts_append_iff formed closed,
        ← mark_infix_spellParts_iff formed closed, ← spelled, ih later]
      simp

/-- A placeholder of a defined name that stands in a filled part comes from the
value of a property. -/
theorem names_of_infix_filled {property : String × String}
    (wellFormed : part.WellFormed) (member : property ∈ defined)
    (closed : '\x7d' ∉ property.1.toList)
    (holds : mark property.1.toList <:+: part.filled defined) :
    ∃ other ∈ defined, part = .placeholder other.1.toList ∧
      Names other.2 property.1 := by
  have alone (other : Part) (formed : other.WellFormed)
      (within : mark property.1.toList <:+: other.spell) :
      other = .placeholder property.1.toList := by
    have single : mark property.1.toList <:+: spellParts [other] := by
      simpa [spellParts] using within
    have among := (mark_infix_spellParts_iff (by simpa using formed)
      closed).mp single
    exact (List.mem_singleton.mp among).symm
  cases part with
  | text characters => cases alone (.text characters) wellFormed holds
  | placeholder name =>
      rw [Part.filled] at holds
      cases found : defined.lookup (String.ofList name) with
      | none =>
          rw [found] at holds
          have same := alone (.placeholder name) wellFormed holds
          obtain rfl : name = property.1.toList := by simpa using same
          have absent := List.lookup_eq_none_iff.mp found property member
          simp at absent
      | some value =>
          rw [found] at holds
          exact ⟨(String.ofList name, value), mem_of_lookup found, by simp,
            holds⟩

/-- A value in which defined names are filled in has none of them left exactly
if this holds of the values that were put in. -/
theorem resolved_iff_of_filledIn {written value : String}
    (sorted : Keyed.Sorted defined) (tidy : ∀ pair ∈ defined, Tidy pair.2)
    (closed : ∀ pair ∈ defined, '\x7d' ∉ pair.1.toList)
    (filledIn : FilledIn defined written value) :
    Resolved defined value ↔
      ∀ property ∈ defined, Names written property.1 →
        Resolved defined property.2 := by
  obtain ⟨parts, wellFormed, spelled, filled⟩ := filledIn
  have named (property : String × String) (member : property ∈ defined) :
      Names written property.1 ↔
        .placeholder property.1.toList ∈ parts := by
    rw [Names, spelled]
    exact mark_infix_spellParts_iff wellFormed (closed property member)
  have left (property : String × String) (member : property ∈ defined) :
      Names value property.1 ↔
        ∃ part ∈ parts,
          mark property.1.toList <:+: part.filled defined := by
    rw [Names, filled]
    exact mark_infix_filled_iff tidy wellFormed (closed property member)
  constructor
  · intro resolved property member names other memberToo within
    refine resolved other memberToo ((left other memberToo).mpr
      ⟨_, (named property member).mp names, ?_⟩)
    have found : defined.lookup property.1 = some property.2 :=
      sorted.mem_iff_lookup.mp member
    simpa [Part.filled, found, Names] using within
  · intro settled property member names
    obtain ⟨part, among, holds⟩ := (left property member).mp names
    obtain ⟨other, memberToo, rfl, within⟩ := names_of_infix_filled
      (wellFormed part among) member (closed property member) holds
    exact settled other memberToo ((named other memberToo).mpr among)
      property member within

end Filling

/-! ## Build files -/

/-- What tells dependencies apart: group, artifact and version. -/
def PomDependency.coordinates (dependency : PomDependency) : List String :=
  dependency.group :: dependency.artifact :: dependency.version.toList

/-- The dependency with the placeholders of defined names filled in. -/
def PomDependency.fill (defined : List (String × String))
    (dependency : PomDependency) : PomDependency :=
  { dependency with
    group := resolve defined dependency.group
    artifact := resolve defined dependency.artifact
    version := dependency.version.map (resolve defined) }

/-- The dependencies in a build file as they are written. -/
def written (text : List Char) : List PomDependency :=
  let text := relevant text
  let own := without "dependencyManagement" (without "parent" text)
  let blocks := ((element "dependencies").searchAll own).map Pattern.Match.text
  blocks.flatMap (readDependencies [] false) ++
    ((firstElement "dependencyManagement" text).map
      (readDependencies [] true)).getD []

/-- The properties that a build file gives values to, its own coordinates
included. -/
def definitions (text : List Char) (pom : BuildFile) :
    List (String × String) :=
  Keyed.ofList
    (((firstElement "properties" (relevant text)).map readProperties).getD [] ++
      ("project.artifactId", pom.artifact) ::
        (pom.group.toList.map (("project.groupId", ·)) ++
          pom.version.toList.map (("project.version", ·))))

/-- In the values that are filled in and in those they are filled into each
dollar sign in front of a brace belongs to a placeholder. -/
structure TidyValues (text : List Char) (pom : BuildFile) : Prop where
  written : ∀ dependency ∈ written text,
    ∀ value ∈ dependency.coordinates, Tidy value
  defined : ∀ property ∈ definitions text pom, Tidy property.2

theorem PomDependency.coordinates_fill (defined : List (String × String))
    (dependency : PomDependency) :
    (dependency.fill defined).coordinates =
      dependency.coordinates.map (resolve defined) := by
  cases dependency with
  | mk group artifact version scope managed => cases version <;> rfl

section Reading

variable {text : List Char} {pom : BuildFile}

theorem readDependency_eq (defined : List (String × String)) (managed : Bool)
    (text : List Char) :
    readDependency defined managed text =
      (readDependency [] managed text).map (PomDependency.fill defined) := by
  simp only [readDependency, bind, Option.bind]
  cases firstText "groupId" (without "exclusions" text) with
  | none => rfl
  | some group =>
      cases firstText "artifactId" (without "exclusions" text) with
      | none => rfl
      | some artifact =>
          have nothing : resolve [] = id := funext resolve_nil
          simp [PomDependency.fill, nothing]

theorem readDependencies_eq (defined : List (String × String))
    (managed : Bool) (text : List Char) :
    readDependencies defined managed text =
      (readDependencies [] managed text).map (PomDependency.fill defined) := by
  rw [readDependencies, readDependencies, List.map_filterMap]
  simp only [← readDependency_eq]

/-- What a build file depends on is what is written there, with the defined
names filled in. -/
theorem dependencies_of_read (reads : read text = .ok pom) :
    pom.dependencies =
      (written text).map (PomDependency.fill (definitions text pom)) := by
  rw [read] at reads
  dsimp only at reads
  split at reads
  · cases reads
  · obtain rfl := Except.ok.inj reads
    -- The definitions are named, so that they are not unfolded below.
    generalize same : definitions text _ = defined
    rw [definitions] at same
    rw [same, written, List.map_append, List.map_flatMap]
    refine congrArg₂ (· ++ ·) ?_ ?_
    · exact List.flatMap_congr fun block _ =>
        readDependencies_eq defined false block
    · cases firstElement "dependencyManagement" (relevant text) with
      | none => rfl
      | some management => exact readDependencies_eq defined true management

/-- The name of a property has no closing brace. -/
theorem closed_of_mem_readProperties {pair : String × String}
    (member : pair ∈ readProperties text) : '\x7d' ∉ pair.1.toList := by
  obtain ⟨found, within, rfl⟩ := List.mem_map.mp member
  obtain ⟨before, after, way, kept⟩ :=
    @Pattern.exists_way_of_group _ _ _ _ _ _ [Pattern.literal "<"]
      (by decide) within
  obtain ⟨name, rest, split, -, named, rfl⟩ :=
    Pattern.eq_past_of_mem_ways_some1 way
  have same : found.group 1 = name := by
    rw [kept, split]
    simp
  intro brace
  have odd := named '\x7d' (by simpa [Pattern.Match.groupString, same] using
    brace)
  revert odd
  decide +kernel

theorem closed_of_mem_definitions {pair : String × String}
    (member : pair ∈ definitions text pom) : '\x7d' ∉ pair.1.toList := by
  rcases List.mem_append.mp (Keyed.mem_of_mem_ofList member) with own | given
  · cases block : firstElement "properties" (relevant text) with
    | none => simp [block] at own
    | some inside =>
        rw [block] at own
        exact closed_of_mem_readProperties own
  · have known : pair.1 ∈
        ["project.artifactId", "project.groupId", "project.version"] := by
      simp only [List.mem_cons, List.mem_append, List.mem_map] at given
      rcases given with rfl | ⟨_, -, rfl⟩ | ⟨_, -, rfl⟩ <;> simp
    have all : ∀ name ∈
        ["project.artifactId", "project.groupId", "project.version"],
          '\x7d' ∉ name.toList := by
      decide
    exact all _ known

/-- Each coordinate of a dependency is what is written with the placeholders of
defined names filled in and the others as they are.  None of a defined name is
left exactly if the properties that are named in the coordinates have values
that name no defined property. -/
theorem read_resolved_iff (reads : read text = .ok pom)
    (tidy : TidyValues text pom) :
    List.Forall₂ (fun wrote dependency : PomDependency =>
        List.Forall₂ (FilledIn (definitions text pom)) wrote.coordinates
          dependency.coordinates)
      (written text) pom.dependencies ∧
    ((∀ dependency ∈ pom.dependencies, ∀ value ∈ dependency.coordinates,
        Resolved (definitions text pom) value) ↔
      ∀ dependency ∈ written text, ∀ value ∈ dependency.coordinates,
        ∀ property ∈ definitions text pom, Names value property.1 →
          Resolved (definitions text pom) property.2) := by
  rw [dependencies_of_read reads]
  constructor
  · rw [List.forall₂_map_right_iff, List.forall₂_same]
    intro dependency member
    rw [PomDependency.coordinates_fill, List.forall₂_map_right_iff,
      List.forall₂_same]
    exact fun value among =>
      resolve_filledIn (tidy.written dependency member value among)
  · rw [List.forall_mem_map]
    refine forall₂_congr fun dependency member => ?_
    rw [PomDependency.coordinates_fill, List.forall_mem_map]
    refine forall₂_congr fun value among => ?_
    exact resolved_iff_of_filledIn (Keyed.sorted_ofList _) tidy.defined
      (fun pair => closed_of_mem_definitions)
      (resolve_filledIn (tidy.written dependency member value among))

end Reading

/-! ## Values of values -/

/-- A project with some properties and one dependency of a given version. -/
def shopText (properties : List String) (version : String) : List Char :=
  (["<project>", "<artifactId>shop</artifactId>", "<properties>"] ++
    properties ++
    ["</properties>", "<dependencies>", "<dependency>",
      "<groupId>org</groupId>", "<artifactId>clients</artifactId>",
      "<version>", version, "</version>", "</dependency>",
      "</dependencies>", "</project>"]).flatMap String.toList

/-- What is read of such a project. -/
def shopPom (version : String) : BuildFile :=
  { group := none
    artifact := "shop"
    version := none
    packaging := "jar"
    name := none
    dependencies :=
      [{ group := "org", artifact := "clients", version := some version
         scope := "compile", managed := false }] }

theorem tidy_of_plain {value : String}
    (plain : (Part.text value.toList).WellFormed) : Tidy value :=
  ⟨[.text value.toList], by simpa using plain,
    by simp [spellParts, Part.spell]⟩

theorem tidyValues_shop {text : List Char} {pom : BuildFile}
    {version : String} (wrote : written text = (shopPom version).dependencies)
    (tidy : Tidy version)
    (defined : ∀ property ∈ definitions text pom, Tidy property.2) :
    TidyValues text pom where
  written := by
    rw [wrote]
    intro dependency member value among
    obtain rfl := List.mem_singleton.mp member
    have known : value ∈ ["org", "clients", version] := among
    simp only [List.mem_cons, List.not_mem_nil, or_false] at known
    rcases known with rfl | rfl | rfl
    · exact tidy_of_plain (by decide +kernel)
    · exact tidy_of_plain (by decide +kernel)
    · exact tidy
  defined := defined

theorem read_resolved_iff_undefined :
    let text := shopText ["<kafka>3.6</kafka>"]
      "$\x7bkafka\x7d-$\x7bbuild\x7d"
    let pom := shopPom "3.6-$\x7bbuild\x7d"
    read text = .ok pom ∧ TidyValues text pom ∧
      ∀ dependency ∈ pom.dependencies, ∀ value ∈ dependency.coordinates,
        Resolved (definitions text pom) value := by
  intro text pom
  have reads : read text = .ok pom := by decide +kernel
  have wrote : written text =
      (shopPom "$\x7bkafka\x7d-$\x7bbuild\x7d").dependencies := by
    decide +kernel
  have defined : definitions text pom =
      [("kafka", "3.6"), ("project.artifactId", "shop")] := by
    decide +kernel
  have tidy : TidyValues text pom := by
    refine tidyValues_shop wrote ⟨[.placeholder "kafka".toList, .text ['-'],
      .placeholder "build".toList], by decide +kernel, by decide +kernel⟩ ?_
    rw [defined]
    intro property member
    simp only [List.mem_cons, List.not_mem_nil, or_false] at member
    rcases member with rfl | rfl
    · exact tidy_of_plain (by decide +kernel)
    · exact tidy_of_plain (by decide +kernel)
  refine ⟨reads, tidy, (read_resolved_iff reads tidy).2.mpr ?_⟩
  rw [wrote, defined]
  decide +kernel

/-- No property depends on itself through the values of properties: each name
ranks above those that its value has. -/
def Acyclic (defined : List (String × String)) : Prop :=
  ∃ rank : String → Nat, ∀ property ∈ defined, ∀ other ∈ defined,
    Names property.2 other.1 → rank other.1 < rank property.1

/-- A version that is given by the property of a property keeps the placeholder
of the inner one. -/
theorem not_read_resolved :
    ¬ ∀ text pom, read text = .ok pom → TidyValues text pom →
      Acyclic (definitions text pom) →
      ∀ dependency ∈ pom.dependencies, ∀ value ∈ dependency.coordinates,
        Resolved (definitions text pom) value := by
  intro always
  let text := shopText ["<base>3.6</base>", "<kafka>$\x7bbase\x7d</kafka>"]
    "$\x7bkafka\x7d"
  let pom := shopPom "$\x7bbase\x7d"
  have reads : read text = .ok pom := by decide +kernel
  have wrote : written text = (shopPom "$\x7bkafka\x7d").dependencies := by
    decide +kernel
  have defined : definitions text pom =
      [("base", "3.6"), ("kafka", "$\x7bbase\x7d"),
        ("project.artifactId", "shop")] := by
    decide +kernel
  have tidy : TidyValues text pom := by
    refine tidyValues_shop wrote
      ⟨[.placeholder "kafka".toList], by decide +kernel, by decide +kernel⟩ ?_
    rw [defined]
    intro property member
    simp only [List.mem_cons, List.not_mem_nil, or_false] at member
    rcases member with rfl | rfl | rfl
    · exact tidy_of_plain (by decide +kernel)
    · exact ⟨[.placeholder "base".toList], by decide +kernel,
        by decide +kernel⟩
    · exact tidy_of_plain (by decide +kernel)
  have acyclic : Acyclic (definitions text pom) := by
    refine ⟨fun name => if name = "kafka" then 1 else 0, ?_⟩
    rw [defined]
    decide +kernel
  have resolved := always text pom reads tidy acyclic
  rw [defined] at resolved
  revert resolved
  decide +kernel

end ArchSurvey.Manifest.Pom
