import ArchSurvey.Manifest.Requirement
import ArchSurvey.Proofs.Text.Lines

/-!
# Requirements as they are written

A requirement is a name, perhaps with extras in brackets and a specifier of
versions behind them.  It begins and ends with a character that is not blank
and has none of the marks that end a requirement on its line.
-/

namespace ArchSurvey.Manifest.Requirement

open Text

/-! ## Names, extras and versions -/

/-- A character that a package name may have. -/
def isNameChar (c : Char) : Bool :=
  isAsciiAlphanumeric c || c == '.' || c == '_' || c == '-'

/-- Characters that separate the parts of a line. -/
def separators : List Char :=
  ['[', ']', '=', '<', '>', '~', '!', ';', '#', '@']

/-- Extras in brackets, with white space in front. -/
structure Extras where
  gap : List Char
  text : List Char
  deriving DecidableEq

/-- A version that is compared with. -/
structure Clause where
  comparison : String
  gap : List Char
  version : List Char
  deriving DecidableEq

/-- A clause behind a comma, with white space around the comma. -/
structure Further where
  gap : List Char
  space : List Char
  clause : Clause
  deriving DecidableEq

/-- The clauses for the versions that will do, with white space in front. -/
structure Specifier where
  gap : List Char
  first : Clause
  others : List Further
  deriving DecidableEq

/-- A package with its extras and versions. -/
structure Package where
  name : List Char
  extras : Option Extras
  specifier : Option Specifier
  deriving DecidableEq

def Extras.spell (extras : Extras) : List Char :=
  extras.gap ++ '[' :: (extras.text ++ [']'])

def Clause.spell (clause : Clause) : List Char :=
  clause.comparison.toList ++ clause.gap ++ clause.version

def Further.spell (further : Further) : List Char :=
  further.gap ++ ',' :: (further.space ++ further.clause.spell)

/-- The first version and all further clauses. -/
def Specifier.rest (specifier : Specifier) : List Char :=
  specifier.first.version ++ specifier.others.flatMap Further.spell

def Specifier.spell (specifier : Specifier) : List Char :=
  specifier.gap ++ specifier.first.comparison.toList ++
    specifier.first.gap ++ specifier.rest

def Package.spell (package : Package) : List Char :=
  package.name ++ (package.extras.elim [] Extras.spell ++
    package.specifier.elim [] Specifier.spell)

/-- The clauses as they are written, without the sign of equality if it stands
for exactly one version. -/
def Specifier.version (specifier : Specifier) : List Char :=
  if specifier.first.comparison = "==" ∧ specifier.others = [] then
    specifier.rest
  else specifier.first.comparison.toList ++ specifier.rest

/-- The requirement that is meant. -/
def Package.requirement (package : Package) (scope : String) : Requirement where
  name := String.ofList (package.name.map Char.toLower)
  version := package.specifier.map fun specifier =>
    String.ofList specifier.version
  scope

/-- An equals sign is only left out for exactly one version. -/
def Package.Exact (package : Package) : Prop :=
  ∀ specifier ∈ package.specifier,
    specifier.first.comparison = "==" → specifier.others = []

def IsName : List Char → Prop
  | [] => False
  | c :: rest =>
      isAsciiAlphanumeric c = true ∧ ∀ d ∈ rest, isNameChar d = true

def IsVersion (version : List Char) : Prop :=
  version ≠ [] ∧
    ∀ c ∈ version,
      isBlank c = false ∧ c ∉ ['=', ',', ';', '#', '@', '\\']

def Extras.WellFormed (extras : Extras) : Prop :=
  IsGap extras.gap ∧ ∀ c ∈ extras.text, c ∉ separators ∧ c ≠ '\n'

def Clause.WellFormed (clause : Clause) : Prop :=
  clause.comparison ∈ comparisons ∧ IsGap clause.gap ∧ IsVersion clause.version

def Further.WellFormed (further : Further) : Prop :=
  IsGap further.gap ∧ IsGap further.space ∧ further.clause.WellFormed

def Specifier.WellFormed (specifier : Specifier) : Prop :=
  IsGap specifier.gap ∧ specifier.first.WellFormed ∧
    ∀ further ∈ specifier.others, further.WellFormed

structure Package.WellFormed (package : Package) : Prop where
  name : IsName package.name
  extras : ∀ extras ∈ package.extras, extras.WellFormed
  specifier : ∀ specifier ∈ package.specifier, specifier.WellFormed

instance : DecidablePred IsName
  | [] => inferInstanceAs (Decidable False)
  | _ :: _ => inferInstanceAs (Decidable (_ ∧ _))

instance : DecidablePred IsVersion := fun _ =>
  inferInstanceAs (Decidable (_ ∧ ∀ _ ∈ _, _ ∧ _))

instance : DecidablePred Extras.WellFormed := fun _ =>
  inferInstanceAs (Decidable (_ ∧ ∀ _ ∈ _, _ ∧ _))

instance : DecidablePred Clause.WellFormed := fun _ =>
  inferInstanceAs (Decidable (_ ∧ _ ∧ _))

instance : DecidablePred Further.WellFormed := fun _ =>
  inferInstanceAs (Decidable (_ ∧ _ ∧ _))

instance : DecidablePred Specifier.WellFormed := fun _ =>
  inferInstanceAs (Decidable (_ ∧ _ ∧ ∀ _ ∈ _, _))

instance : DecidablePred Package.WellFormed := fun package =>
  decidable_of_iff
    (IsName package.name ∧ (∀ extras ∈ package.extras, extras.WellFormed) ∧
      ∀ specifier ∈ package.specifier, specifier.WellFormed)
    ⟨fun ⟨name, extras, specifier⟩ => ⟨name, extras, specifier⟩,
      fun ⟨name, extras, specifier⟩ => ⟨name, extras, specifier⟩⟩

instance : DecidablePred Package.Exact := fun _ =>
  inferInstanceAs (Decidable (∀ _ ∈ _, _ → _))

/-! ## Characters -/

section Characters

variable {c : Char}

theorem isNameChar_of_isAsciiAlphanumeric
    (plain : isAsciiAlphanumeric c = true) : isNameChar c = true := by
  simp [isNameChar, plain]

theorem toNat_lt_of_isNameChar (named : isNameChar c = true) :
    c.toNat < 128 := by
  simp only [isNameChar, Bool.or_eq_true, beq_iff_eq] at named
  rcases named with ((plain | rfl) | rfl) | rfl
  · exact toNat_lt_of_isAsciiAlphanumeric plain
  · decide
  · decide
  · decide

/-- What holds of each character that names may have holds of theirs. -/
theorem forall_nameChar (property : Char → Prop)
    (each : ∀ code < 128, isNameChar (Char.ofNat code) = true →
      property (Char.ofNat code)) (named : isNameChar c = true) :
    property c :=
  forall_ascii (fun c => isNameChar c = true → property c) each
    (toNat_lt_of_isNameChar named) named

theorem isBlank_of_isNameChar (named : isNameChar c = true) :
    isBlank c = false :=
  forall_nameChar (isBlank · = false) (by decide +kernel) named

theorem isNameChar_of_isBlank {c : Char} (white : isBlank c = true) :
    isNameChar c = false := by
  cases named : isNameChar c with
  | false => rfl
  | true => rw [isBlank_of_isNameChar named] at white; cases white

theorem not_mem_separators_of_isNameChar (named : isNameChar c = true) :
    c ∉ separators :=
  forall_nameChar (· ∉ separators) (by decide +kernel) named

theorem lowerChar_of_isNameChar (named : isNameChar c = true) :
    c ≠ 'Σ' ∧ lowerChar c = [c.toLower] :=
  forall_nameChar (fun c => c ≠ 'Σ' ∧ lowerChar c = [c.toLower])
    (by decide +kernel) named

theorem lower_of_isNameChar {name : List Char}
    (named : ∀ c ∈ name, isNameChar c = true) :
    lower name = name.map Char.toLower := by
  have from_ (before : List Char) :
      lowerFrom before name = name.map Char.toLower := by
    induction name generalizing before with
    | nil => rfl
    | cons c name ih =>
        obtain ⟨here, later⟩ := List.forall_mem_cons.mp named
        obtain ⟨other, image⟩ := lowerChar_of_isNameChar here
        simp [lowerFrom, other, image, ih later]
  exact from_ []

theorem IsName.chars {name : List Char} (isName : IsName name) :
    ∀ c ∈ name, isNameChar c = true := by
  cases name with
  | nil => exact isName.elim
  | cons c name =>
      exact List.forall_mem_cons.mpr
        ⟨isNameChar_of_isAsciiAlphanumeric isName.1, isName.2⟩

end Characters

/-! ## Marks that nothing is written with -/

/-- Characters that no package is written with. -/
def marks : List Char :=
  ['\n', ';', '#', '@']

section Marks

variable {mark : Char} {package : Package} {specifier : Specifier}
  (isMark : mark ∈ marks)

include isMark

theorem not_mem_of_isGap {gap : List Char} (isGap : IsGap gap) :
    mark ∉ gap := by
  have each : ∀ mark ∈ marks, mark = '\n' ∨ isBlank mark = false := by decide
  rcases each mark isMark with rfl | solid
  · exact isGap.inLine
  · exact isGap.not_mem solid

theorem IsName.lacks {name : List Char} (isName : IsName name) :
    mark ∉ name := by
  have each : ∀ mark ∈ marks, isNameChar mark = false := by decide
  intro member
  have named := isName.chars mark member
  rw [each mark isMark] at named
  cases named

theorem Extras.lacks {extras : Extras} (wellFormed : extras.WellFormed) :
    mark ∉ extras.spell := by
  obtain ⟨isGap, plain⟩ := wellFormed
  have each : ∀ mark ∈ marks,
      (mark ∈ separators ∨ mark = '\n') ∧ mark ≠ '[' ∧ mark ≠ ']' := by decide
  obtain ⟨refused, other, otherToo⟩ := each mark isMark
  have inText : mark ∉ extras.text := fun member =>
    refused.elim (plain mark member).1 (plain mark member).2
  simp [Extras.spell, not_mem_of_isGap isMark isGap, inText, other, otherToo]

theorem Clause.version_lacks {clause : Clause}
    (wellFormed : clause.WellFormed) : mark ∉ clause.version := by
  have each : ∀ mark ∈ marks, isBlank mark = true ∨
      mark ∈ ['=', ',', ';', '#', '@', '\\'] := by decide
  intro member
  obtain ⟨solid, other⟩ := wellFormed.2.2.2 mark member
  rcases each mark isMark with white | refused
  · rw [white] at solid
    cases solid
  · exact other refused

theorem Clause.lacks {clause : Clause} (wellFormed : clause.WellFormed) :
    mark ∉ clause.spell := by
  have each : ∀ word ∈ comparisons, ∀ mark ∈ marks, mark ∉ word.toList := by
    decide
  refine List.not_mem_append (List.not_mem_append ?_ ?_) ?_
  · exact each _ wellFormed.1 mark isMark
  · exact not_mem_of_isGap isMark wellFormed.2.1
  · exact Clause.version_lacks isMark wellFormed

theorem Further.lacks {further : Further} (wellFormed : further.WellFormed) :
    mark ∉ further.spell := by
  obtain ⟨gap, space, clause⟩ := wellFormed
  have other : ∀ mark ∈ marks, mark ≠ ',' := by decide
  simp [Further.spell, not_mem_of_isGap isMark gap,
    not_mem_of_isGap isMark space, Clause.lacks isMark clause,
    other mark isMark]

theorem Specifier.rest_lacks (wellFormed : specifier.WellFormed) :
    mark ∉ specifier.rest := by
  obtain ⟨-, first, others⟩ := wellFormed
  refine List.not_mem_append (Clause.version_lacks isMark first)
    fun member => ?_
  obtain ⟨further, written, within⟩ := List.mem_flatMap.mp member
  exact Further.lacks isMark (others further written) within

theorem Specifier.lacks (wellFormed : specifier.WellFormed) :
    mark ∉ specifier.spell := by
  have front := Clause.lacks isMark wellFormed.2.1
  have gap := not_mem_of_isGap isMark wellFormed.1
  have rest := Specifier.rest_lacks isMark wellFormed
  simp only [Clause.spell, List.mem_append, not_or] at front
  simp [Specifier.spell, gap, front, rest]

theorem Package.lacks (wellFormed : package.WellFormed) :
    mark ∉ package.spell := by
  refine List.not_mem_append (IsName.lacks isMark wellFormed.name)
    (List.not_mem_append ?_ ?_)
  · cases extras : package.extras with
    | none => exact List.not_mem_nil
    | some written =>
        exact Extras.lacks isMark (wellFormed.extras written extras)
  · cases specified : package.specifier with
    | none => exact List.not_mem_nil
    | some specifier =>
        exact Specifier.lacks isMark
          (wellFormed.specifier specifier specified)

end Marks

/-! ## Beginnings and ends -/

section Bounds

variable {package : Package} {specifier : Specifier}

theorem Clause.version_starts {clause : Clause}
    (wellFormed : clause.WellFormed) :
    Starts clause.version ∧ clause.version.head? ≠ some '=' := by
  obtain ⟨-, -, filled, plain⟩ := wellFormed
  refine ⟨starts_of_solid filled fun c member => (plain c member).1, ?_⟩
  intro equals
  exact (plain _ (List.mem_of_mem_head? equals)).2 (by simp)

theorem ends_flatMap {α : Type} {spell : α → List Char} {items : List α}
    (filled : items ≠ []) (ends : ∀ item ∈ items, Ends (spell item)) :
    Ends (items.flatMap spell) := by
  induction items with
  | nil => exact absurd rfl filled
  | cons item items ih =>
      obtain ⟨here, later⟩ := List.forall_mem_cons.mp ends
      by_cases last : items = []
      · simpa [last] using here
      · exact (ih last later).append

theorem Clause.version_ends {clause : Clause} (wellFormed : clause.WellFormed) :
    Ends clause.version :=
  ends_of_solid wellFormed.2.2.1 fun c member => (wellFormed.2.2.2 c member).1

theorem Specifier.ends (wellFormed : specifier.WellFormed) :
    Ends specifier.rest := by
  obtain ⟨-, first, others⟩ := wellFormed
  by_cases single : specifier.others = []
  · simpa [Specifier.rest, single] using Clause.version_ends first
  · refine (ends_flatMap single fun further member => ?_).append
    have last : Ends further.clause.spell :=
      (Clause.version_ends (others further member).2.2).append
    have split : further.spell =
        (further.gap ++ ',' :: further.space) ++ further.clause.spell := by
      simp [Further.spell]
    rw [split]
    exact last.append

theorem Package.starts (wellFormed : package.WellFormed) :
    Starts package.spell := by
  have name := wellFormed.name
  refine Starts.append ?_
  cases named : package.name with
  | nil =>
      rw [named] at name
      exact name.elim
  | cons c rest =>
      rw [named] at name
      exact ⟨c, rfl, isBlank_of_isNameChar
        (isNameChar_of_isAsciiAlphanumeric name.1)⟩

theorem Package.ends (wellFormed : package.WellFormed) :
    Ends package.spell := by
  rw [Package.spell]
  cases specified : package.specifier with
  | some specifier =>
      have last := Specifier.ends (wellFormed.specifier specifier specified)
      exact last.append.append.append
  | none =>
      cases extended : package.extras with
      | some extras =>
          have last : Ends [']'] := ⟨']', rfl, by decide⟩
          have split : extras.spell = (extras.gap ++ '[' :: extras.text) ++
              [']'] := by
            simp [Extras.spell]
          simp only [Option.elim, List.append_nil, split]
          exact last.append.append
      | none =>
          have filled : package.name ≠ [] := by
            intro empty
            have name := wellFormed.name
            rw [empty] at name
            exact name.elim
          simpa using ends_of_solid filled fun c member =>
            isBlank_of_isNameChar (wellFormed.name.chars c member)

end Bounds

end ArchSurvey.Manifest.Requirement
