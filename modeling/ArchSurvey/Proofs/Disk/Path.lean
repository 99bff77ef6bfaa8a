import ArchSurvey.Disk.Path
import ArchSurvey.Proofs.Text.Split

/-!
# Laws of absolute paths

The path of a place is read back as the place, so whatever is said of a path
from its last components is said of the end of the place.
-/

namespace ArchSurvey.Path

/-- A text that names an entry of a directory. -/
structure IsName (name : String) : Prop where
  notEmpty : name ≠ ""
  notHere : name ≠ "."
  notAbove : name ≠ ".."
  noSlash : '/' ∉ name.toList

theorem isName_iff {name : String} :
    IsName name ↔
      name ≠ "" ∧ name ≠ "." ∧ name ≠ ".." ∧ '/' ∉ name.toList :=
  ⟨fun isName =>
      ⟨isName.notEmpty, isName.notHere, isName.notAbove, isName.noSlash⟩,
    fun ⟨notEmpty, notHere, notAbove, noSlash⟩ =>
      ⟨notEmpty, notHere, notAbove, noSlash⟩⟩

instance (name : String) : Decidable (IsName name) :=
  decidable_of_iff _ isName_iff.symm

/-- The absolute path of a place. -/
def ofPlace (place : List String) : String :=
  "/" ++ String.intercalate "/" place

/-- Names with a slash in front of each. -/
def slashed (place : List String) : List Char :=
  place.flatMap fun name => '/' :: name.toList

@[simp]
theorem slashed_nil : slashed [] = [] :=
  rfl

@[simp]
theorem slashed_cons (name : String) (place : List String) :
    slashed (name :: place) = '/' :: (name.toList ++ slashed place) :=
  rfl

theorem slashed_append (first second : List String) :
    slashed (first ++ second) = slashed first ++ slashed second :=
  List.flatMap_append

theorem toList_ofPlace {place : List String} (nonempty : place ≠ []) :
    (ofPlace place).toList = slashed place := by
  induction place with
  | nil => exact absurd rfl nonempty
  | cons name rest ih =>
      by_cases last : rest = []
      · subst last
        simp [ofPlace]
      · have following := ih last
        rw [ofPlace, String.toList_append] at following
        rw [ofPlace, String.intercalate_cons_of_ne_nil last,
          String.append_assoc, String.toList_append, String.toList_append,
          String.toList_append, following, slashed_cons]
        rfl

/-- Characters that do not separate join the piece that is being read. -/
theorem splitFrom_append {p : Char → Bool} {inside : List Char}
    (within : ∀ c ∈ inside, p c = false) (piece rest : List Char) :
    Text.splitFrom p piece (inside ++ rest) =
      Text.splitFrom p (inside.reverse ++ piece) rest := by
  induction inside generalizing piece with
  | nil => rfl
  | cons c inside ih =>
      have here : p c = false := within c List.mem_cons_self
      rw [List.cons_append, Text.splitFrom, here,
        if_neg (by decide : ¬false = true),
        ih (fun d member => within d (List.mem_cons_of_mem _ member))]
      simp

theorem splitFrom_slashed {place : List String}
    (proper : ∀ name ∈ place, IsName name) (piece : List Char) :
    Text.splitFrom (· == '/') piece (slashed place) =
      piece.reverse :: place.map String.toList := by
  induction place generalizing piece with
  | nil => rfl
  | cons name rest ih =>
      have within : ∀ c ∈ name.toList, (c == '/') = false := by
        intro c member
        have noSlash := (proper name List.mem_cons_self).noSlash
        have different : c ≠ '/' := fun equal => noSlash (equal ▸ member)
        simpa using different
      rw [slashed_cons, Text.splitFrom, beq_self_eq_true, if_pos rfl,
        splitFrom_append within,
        ih fun other member => proper other (List.mem_cons_of_mem _ member)]
      simp

/-- The pieces of the path of a place. -/
theorem splitOn_ofPlace {place : List String} (nonempty : place ≠ [])
    (proper : ∀ name ∈ place, IsName name) :
    (Text.splitOn '/' (ofPlace place).toList).map String.ofList =
      "" :: place := by
  rw [toList_ofPlace nonempty, Text.splitOn, Text.splitWhen,
    splitFrom_slashed proper]
  simp [Function.comp_def]

theorem ofPlace_nil : ofPlace [] = "/" :=
  rfl

theorem names_ofPlace {place : List String}
    (proper : ∀ name ∈ place, IsName name) : names (ofPlace place) = place := by
  by_cases empty : place = []
  · subst empty
    rw [ofPlace_nil]
    decide
  · rw [names, splitOn_ofPlace empty proper, List.filter_cons_of_neg (by simp)]
    apply List.filter_eq_self.mpr
    intro name member
    have isName := proper name member
    simp [isName.notEmpty, isName.notHere]

theorem isAbsolute_ofPlace (place : List String) :
    isAbsolute (ofPlace place) = true := by
  rw [isAbsolute, ofPlace, String.toList_append]
  rfl

theorem components_ofPlace {place : List String}
    (proper : ∀ name ∈ place, IsName name) :
    components (ofPlace place) = "/" :: place := by
  rw [components, isAbsolute_ofPlace, if_pos rfl, names_ofPlace proper]
  rfl

theorem fileName?_ofPlace {place : List String}
    (proper : ∀ name ∈ place, IsName name) :
    fileName? (ofPlace place) = place.getLast? := by
  rw [fileName?, names_ofPlace proper]
  cases last : place.getLast? with
  | none => rfl
  | some name =>
      have notAbove := (proper name (List.mem_of_getLast? last)).notAbove
      split
      · next above => exact absurd (Option.some.inj above) notAbove
      · rfl

theorem parent?_ofPlace {place : List String} (nonempty : place ≠ [])
    (proper : ∀ name ∈ place, IsName name) :
    parent? (ofPlace place) = some (ofPlace place.dropLast) := by
  obtain ⟨name, rest, rfl⟩ := List.exists_cons_of_ne_nil nonempty
  rw [parent?, components_ofPlace proper]
  rfl

theorem parentName?_ofPlace {place : List String} (nonempty : place ≠ [])
    (proper : ∀ name ∈ place, IsName name) :
    parentName? (ofPlace place) = place.dropLast.getLast? := by
  rw [parentName?, parent?_ofPlace nonempty proper]
  exact fileName?_ofPlace fun name member =>
    proper name ((List.dropLast_sublist place).subset member)

theorem ofPlace_append {place below : List String} (nonempty : place ≠ [])
    (nonemptyBelow : below ≠ []) :
    ofPlace (place ++ below) =
      ofPlace place ++ "/" ++ String.intercalate "/" below := by
  rw [ofPlace, String.intercalate_append_of_ne_nil nonempty nonemptyBelow,
    ofPlace]
  simp only [String.append_assoc]

theorem isAbsolute_intercalate {below : List String}
    (proper : ∀ name ∈ below, IsName name) :
    isAbsolute (String.intercalate "/" below) = false := by
  cases below with
  | nil => decide
  | cons name rest =>
      have isName := proper name List.mem_cons_self
      obtain ⟨c, inside, spelled⟩ := List.exists_cons_of_ne_nil
        (fun empty => isName.notEmpty (String.toList_eq_nil_iff.mp empty))
      have different : c ≠ '/' := by
        intro equal
        apply isName.noSlash
        rw [spelled, equal]
        exact List.mem_cons_self
      rw [isAbsolute, String.toList_intercalate, List.map_cons, spelled]
      cases rest <;> simp [List.intercalate, different]

theorem getLast?_ofPlace {place : List String} (nonempty : place ≠ [])
    (proper : ∀ name ∈ place, IsName name) :
    (ofPlace place).toList.getLast? ≠ some '/' := by
  rcases List.eq_nil_or_concat place with rfl | ⟨before, name, rfl⟩
  · exact absurd rfl nonempty
  · intro last
    have isName := proper name (by simp)
    have spelled : name.toList ≠ [] :=
      fun empty => isName.notEmpty (String.toList_eq_nil_iff.mp empty)
    have ends := List.getLast?_eq_some_getLast spelled
    rw [toList_ofPlace (by simp), List.concat_eq_append, slashed_append,
      slashed_cons, slashed_nil, List.append_nil, List.append_cons,
      List.getLast?_append, ends, Option.some_or] at last
    apply isName.noSlash
    rw [← Option.some.inj last]
    exact List.getLast_mem spelled

/-- The path of a directory and the path below it make the whole path. -/
theorem join_ofPlace {place below : List String} (nonempty : place ≠ [])
    (nonemptyBelow : below ≠ [])
    (proper : ∀ name ∈ place ++ below, IsName name) :
    join (ofPlace place) (String.intercalate "/" below) =
      ofPlace (place ++ below) := by
  obtain ⟨properPlace, properBelow⟩ := List.forall_mem_append.mp proper
  have inhabited : ofPlace place ≠ "" := by
    intro empty
    have absolute := isAbsolute_ofPlace place
    rw [empty] at absolute
    exact absurd absolute (by decide)
  have open' := getLast?_ofPlace nonempty properPlace
  rw [join, isAbsolute_intercalate properBelow, ofPlace_append nonempty
    nonemptyBelow]
  simp [inhabited, open']

theorem dropComponents?_append (start rest : List String) :
    dropComponents? start (start ++ rest) = some rest := by
  induction start with
  | nil => rfl
  | cons name start ih => simpa [dropComponents?] using ih

/-- Seen from a directory, only the place below it is left of a path. -/
theorem relativeTo_ofPlace {place below : List String}
    (proper : ∀ name ∈ place ++ below, IsName name) :
    relativeTo (ofPlace place) (ofPlace (place ++ below)) =
      String.intercalate "/" below := by
  obtain ⟨properPlace, -⟩ := List.forall_mem_append.mp proper
  rw [relativeTo, components_ofPlace proper, components_ofPlace properPlace,
    ← List.cons_append, dropComponents?_append, Option.getD_some]

/-- A name that follows a directory is the file name of the whole path. -/
theorem fileName?_join {name : String} (isName : IsName name) (base : String) :
    fileName? (join base name) = some name := by
  have relative : isAbsolute name = false := by
    have alone := @isAbsolute_intercalate [name] (by simpa using isName)
    rwa [String.intercalate_singleton] at alone
  have whole : ∀ c ∈ name.toList, (c == '/') = false := by
    intro c member
    have different : c ≠ '/' := fun equal => isName.noSlash (equal ▸ member)
    simpa using different
  have kept : [name].filter (fun name => name != "" && name != ".") = [name] := by
    simp [isName.notEmpty, isName.notHere]
  have last (path : String) (pieces : List (List Char))
      (split : Text.splitOn '/' path.toList = pieces ++ [name.toList]) :
      fileName? path = some name := by
    rw [fileName?, names, split, List.map_append, List.filter_append,
      List.map_singleton, String.ofList_toList, kept, List.getLast?_concat]
    split
    · next above => exact absurd (Option.some.inj above) isName.notAbove
    · rfl
  have alone : Text.splitOn '/' name.toList = [name.toList] :=
    Text.splitWhen_eq_singleton whole
  have behind (before : List Char) :
      Text.splitOn '/' (before ++ '/' :: name.toList) =
        Text.splitOn '/' before ++ [name.toList] := by
    rw [Text.splitOn, Text.splitWhen_append_cons (by simp)]
    exact congrArg _ alone
  rw [join, relative, if_neg (by decide)]
  split
  · exact last _ [] alone
  · split
    · next slash =>
        obtain ⟨before, spelled⟩ :=
          List.getLast?_eq_some_iff.mp (eq_of_beq slash)
        apply last _ (Text.splitOn '/' before)
        rw [String.toList_append, spelled, List.append_assoc]
        exact behind before
    · apply last _ (Text.splitOn '/' base.toList)
      rw [String.toList_append, String.toList_append, List.append_assoc]
      exact behind base.toList

/-- A function of the paths below a root that looks at them only from the last
name of the root on. -/
def LooksBelow {β : Type} (f : String → β) : Prop :=
  ∀ (parent : List String) (name : String) (below : List String), below ≠ [] →
    (∀ part ∈ parent ++ name :: below, IsName part) →
    f (ofPlace (parent ++ name :: below)) = f (ofPlace (name :: below))

/-- A test of the paths below a root that holds if it holds from the root on, or
if a test of the root itself does. -/
def SplitsAtRoot (test ofRoot : String → Bool) : Prop :=
  ∀ (parent : List String) (name : String) (below : List String), below ≠ [] →
    (∀ part ∈ parent ++ name :: below, IsName part) →
    test (ofPlace (parent ++ name :: below)) =
      (ofRoot (ofPlace (parent ++ [name])) || test (ofPlace (name :: below)))

theorem LooksBelow.const {β : Type} (value : β) :
    LooksBelow fun _ => value :=
  fun _ _ _ _ _ => rfl

theorem LooksBelow.map {β γ : Type} {f : String → β} (looks : LooksBelow f)
    (g : β → γ) : LooksBelow fun path => g (f path) :=
  fun parent name below nonempty proper =>
    congrArg g (looks parent name below nonempty proper)

theorem LooksBelow.splitsAtRoot {test : String → Bool}
    (looks : LooksBelow test) : SplitsAtRoot test fun _ => false :=
  fun parent name below nonempty proper => by
    rw [looks parent name below nonempty proper, Bool.false_or]

theorem SplitsAtRoot.or {test ofRoot other otherOfRoot : String → Bool}
    (first : SplitsAtRoot test ofRoot)
    (second : SplitsAtRoot other otherOfRoot) :
    SplitsAtRoot (fun path => test path || other path)
      fun root => ofRoot root || otherOfRoot root := by
  intro parent name below nonempty proper
  dsimp only
  rw [first parent name below nonempty proper,
    second parent name below nonempty proper]
  ac_rfl

theorem LooksBelow.or {test other otherOfRoot : String → Bool}
    (first : LooksBelow test) (second : SplitsAtRoot other otherOfRoot) :
    SplitsAtRoot (fun path => test path || other path) otherOfRoot := by
  intro parent name below nonempty proper
  dsimp only
  rw [first parent name below nonempty proper,
    second parent name below nonempty proper]
  ac_rfl

theorem SplitsAtRoot.any {ι : Type} {items : List ι}
    {test ofRoot : ι → String → Bool}
    (splits : ∀ item ∈ items, SplitsAtRoot (test item) (ofRoot item)) :
    SplitsAtRoot (fun path => items.any fun item => test item path)
      fun root => items.any fun item => ofRoot item root := by
  induction items with
  | nil => exact (LooksBelow.const false).splitsAtRoot
  | cons item items ih =>
      have first := splits item List.mem_cons_self
      have others := ih fun other member =>
        splits other (List.mem_cons_of_mem _ member)
      simpa only [List.any_cons] using first.or others

theorem looksBelow_fileName? : LooksBelow fileName? := by
  intro parent name below _ proper
  obtain ⟨-, properBelow⟩ := List.forall_mem_append.mp proper
  rw [fileName?_ofPlace proper, fileName?_ofPlace properBelow,
    List.getLast?_append, List.getLast?_cons, Option.some_or]

theorem looksBelow_fileName : LooksBelow fileName :=
  looksBelow_fileName?.map fun last => last.getD ""

theorem looksBelow_extension? : LooksBelow extension? :=
  looksBelow_fileName?.map fun last =>
    last.bind fun name => (splitExtension name).2

theorem looksBelow_stem : LooksBelow stem := by
  intro parent name below nonempty proper
  rw [stem, stem, looksBelow_fileName? parent name below nonempty proper]

/-- The directory of a file below a root is below the root or is the root. -/
theorem looksBelow_parentName? : LooksBelow parentName? := by
  intro parent name below nonempty proper
  obtain ⟨-, properBelow⟩ := List.forall_mem_append.mp proper
  obtain ⟨inner, rest, rfl⟩ := List.exists_cons_of_ne_nil nonempty
  rw [parentName?_ofPlace (by simp) proper,
    parentName?_ofPlace (by simp) properBelow,
    List.dropLast_append_of_ne_nil (by simp), List.dropLast_cons_cons,
    List.getLast?_append, List.getLast?_cons, Option.some_or]

end ArchSurvey.Path
