import ArchSurvey.Scan.Context
import ArchSurvey.Scan.Index

/-!
# Look-ups in an index

An index answers as a context does that has its listing.  A look-up that needs
no listing leaves the index as it is; any other one keeps the listing that the
index has, or else takes one.
-/

namespace ArchSurvey

/-- Whether a pattern can be read. -/
def Glob.isReadable (pattern : String) : Bool :=
  (ofText pattern).isOk

theorem Glob.isReadable_of_ok {pattern : String} {glob : Glob}
    (read : ofText pattern = .ok glob) : isReadable pattern = true := by
  rw [isReadable, read]
  rfl

theorem Glob.isReadable_of_error {pattern : String} {error : ScanError}
    (unread : ofText pattern = .error error) : isReadable pattern = false := by
  rw [isReadable, unread]
  rfl

theorem Glob.eq_invalidGlob_of_error {pattern : String} {error : ScanError}
    (unread : ofText pattern = .error error) :
    ∃ reason, error = .invalidGlob pattern reason := by
  rw [ofText] at unread
  split at unread
  · cases unread
  · cases unread
    exact ⟨_, rfl⟩

theorem Glob.exists_error_of_unreadable {pattern : String}
    (unreadable : isReadable pattern = false) :
    ∃ error, ofText pattern = .error error := by
  cases read : ofText pattern with
  | error error => exact ⟨error, rfl⟩
  | ok glob =>
      rw [isReadable_of_ok read] at unreadable
      cases unreadable

namespace Context

variable {context : Context} {pattern : String}

theorem findFiles_of_error {error : ScanError}
    (unread : Glob.ofText pattern = .error error) :
    context.findFiles pattern = .error error := by
  rw [findFiles, unread]
  rfl

theorem findFiles_of_ok {glob : Glob} (read : Glob.ofText pattern = .ok glob) :
    context.findFiles pattern =
      context.entries.map fun entries => Listing.matching entries glob := by
  rw [findFiles, read]
  cases context.entries <;> rfl

theorem isReadable_of_findFiles {files : List String}
    (found : context.findFiles pattern = .ok files) :
    Glob.isReadable pattern = true := by
  cases read : Glob.ofText pattern with
  | error error =>
      rw [findFiles_of_error read] at found
      cases found
  | ok glob => exact Glob.isReadable_of_ok read

end Context

namespace Index

/-- The listing that an index has, or else takes. -/
def listingOn (index : Index) (disk : Disk) : Except Fault (List Entry) :=
  index.listing.getD (Listing.take disk index.root index.excludes)

/-- Every remembered answer is the one that the listing gives. -/
def Sound (index : Index) : Prop :=
  ∀ pattern files, index.answers.lookup pattern = some files →
    ∃ glob entries, Glob.ofText pattern = .ok glob ∧
      index.listing = some (.ok entries) ∧
      files = Listing.matching entries glob

/-- What a look-up can make of an index. -/
structure Becomes (index : Index) (disk : Disk) (needsListing : Bool)
    (later : Index) : Prop where
  sound : later.Sound
  root : later.root = index.root
  excludes : later.excludes = index.excludes
  unchanged : needsListing = false → later = index
  listing : needsListing = true → later.listing = some (index.listingOn disk)

section

variable {index later last : Index} {disk : Disk} {needs needsLater : Bool}

theorem Becomes.refl (sound : index.Sound) : index.Becomes disk false index :=
  ⟨sound, rfl, rfl, fun _ => rfl, fun needs => by cases needs⟩

theorem Becomes.listingOn_eq (becomes : index.Becomes disk needs later) :
    later.listingOn disk = index.listingOn disk := by
  cases needs with
  | false => rw [becomes.unchanged rfl]
  | true => rw [listingOn, becomes.listing rfl, Option.getD_some]

theorem Becomes.trans (becomes : index.Becomes disk needs later)
    (goesOn : later.Becomes disk needsLater last) :
    index.Becomes disk (needs || needsLater) last where
  sound := goesOn.sound
  root := goesOn.root.trans becomes.root
  excludes := goesOn.excludes.trans becomes.excludes
  unchanged := by
    intro unneeded
    obtain ⟨here, there⟩ := Bool.or_eq_false_iff.mp unneeded
    exact (goesOn.unchanged there).trans (becomes.unchanged here)
  listing := by
    intro needed
    cases needsLater with
    | true => rw [goesOn.listing rfl, becomes.listingOn_eq]
    | false =>
        rw [goesOn.unchanged rfl]
        exact becomes.listing (by simpa using needed)

/-- An answer that the listing gives may be remembered. -/
theorem Becomes.remember (becomes : index.Becomes disk true later)
    {pattern : String} {glob : Glob} {entries : List Entry}
    (read : Glob.ofText pattern = .ok glob)
    (listed : index.listingOn disk = .ok entries) :
    index.Becomes disk true
      { later with
        answers :=
          (pattern, Listing.matching entries glob) :: later.answers } where
  sound := by
    intro other files remembered
    rw [List.lookup_cons] at remembered
    split at remembered
    · next same =>
        obtain rfl := eq_of_beq same
        cases remembered
        exact ⟨glob, entries, read, listed ▸ becomes.listing rfl, rfl⟩
    · exact becomes.sound other files remembered
  root := becomes.root
  excludes := becomes.excludes
  unchanged := fun unneeded => by cases unneeded
  listing := becomes.listing

end

section

variable {index : Index} {context : Context}

/-- The listing of an index is that of a context of the same root. -/
theorem list_spec (sound : index.Sound) (rooted : context.root = index.root)
    (disk : Disk) :
    (index.list disk).1 =
        { context with listing := index.listingOn disk }.entries ∧
      index.Becomes disk true (index.list disk).2 := by
  refine ⟨?_, ?_, rfl, rfl, fun unneeded => ?_, fun _ => rfl⟩
  · rw [list, Context.entries, rooted]
    rfl
  · intro pattern files remembered
    obtain ⟨glob, entries, read, listed, rfl⟩ := sound pattern files remembered
    refine ⟨glob, entries, read, ?_, rfl⟩
    change some (index.listing.getD _) = _
    rw [listed]
    rfl
  · cases unneeded

/-- A remembered answer is given again, and the index stays as it is. -/
theorem findFiles_spec_of_remembered (sound : index.Sound) {disk : Disk}
    {pattern : String} {files : List String}
    (remembered : index.answers.lookup pattern = some files) :
    index.findFiles disk pattern = (.ok files, index) ∧
      { context with listing := index.listingOn disk }.findFiles pattern =
        .ok files ∧
      index.Becomes disk (Glob.isReadable pattern) index := by
  obtain ⟨glob, entries, read, listed, rfl⟩ := sound pattern files remembered
  have held : index.listingOn disk = .ok entries := by
    rw [listingOn, listed, Option.getD_some]
  refine ⟨by rw [findFiles, remembered], ?_, ?_⟩
  · rw [Context.findFiles_of_ok read, held]
    rfl
  · rw [Glob.isReadable_of_ok read]
    exact ⟨sound, rfl, rfl, fun _ => rfl, fun _ => by rw [listed, held]⟩

theorem findFiles_spec (sound : index.Sound)
    (rooted : context.root = index.root) (disk : Disk) (pattern : String) :
    (index.findFiles disk pattern).1 =
        { context with listing := index.listingOn disk }.findFiles pattern ∧
      index.Becomes disk (Glob.isReadable pattern)
        (index.findFiles disk pattern).2 := by
  cases remembered : index.answers.lookup pattern with
  | some files =>
      obtain ⟨answer, same, becomes⟩ :
          _ ∧ { context with listing := index.listingOn disk }.findFiles
            pattern = .ok files ∧ _ :=
        findFiles_spec_of_remembered sound remembered
      rw [answer, same]
      exact ⟨rfl, becomes⟩
  | none =>
      cases read : Glob.ofText pattern with
      | error error =>
          rw [Glob.isReadable_of_error read, Context.findFiles_of_error read,
            findFiles, remembered]
          dsimp only
          rw [read]
          exact ⟨rfl, .refl sound⟩
      | ok glob =>
          obtain ⟨listed, becomes⟩ := list_spec sound rooted disk
          rw [Glob.isReadable_of_ok read, Context.findFiles_of_ok read,
            ← listed, findFiles, remembered]
          dsimp only
          rw [read]
          dsimp only
          generalize index.list disk = outcome at listed becomes ⊢
          obtain ⟨answer, later⟩ := outcome
          cases held : index.listingOn disk with
          | error fault =>
              rw [held] at listed
              obtain rfl : answer = _ := listed
              exact ⟨rfl, becomes⟩
          | ok entries =>
              rw [held] at listed
              obtain rfl : answer = _ := listed
              exact ⟨rfl, becomes.remember read held⟩

theorem findMore_spec (sound : index.Sound) (rooted : context.root = index.root)
    (disk : Disk) (found patterns : List String) :
    (index.findMore disk found patterns).1 =
        { context with listing := index.listingOn disk }.findMore found
          patterns ∧
      index.Becomes disk (patterns.head?.any Glob.isReadable)
        (index.findMore disk found patterns).2 := by
  induction patterns generalizing index found with
  | nil => exact ⟨rfl, .refl sound⟩
  | cons pattern rest ih =>
      obtain ⟨answers, becomes⟩ := findFiles_spec sound rooted disk pattern
      rw [findMore, Context.findMore, ← answers, List.head?_cons,
        Option.any_some]
      generalize index.findFiles disk pattern = outcome at answers becomes ⊢
      obtain ⟨answer, later⟩ := outcome
      cases answer with
      | error error => exact ⟨rfl, becomes⟩
      | ok files =>
          -- The pattern can be read, so the index has its listing from here on.
          have readable := Context.isReadable_of_findFiles answers.symm
          obtain ⟨later_answers, goesOn⟩ := ih becomes.sound
            (rooted.trans becomes.root.symm) (Listing.union found files)
          rw [becomes.listingOn_eq] at later_answers
          have both := becomes.trans goesOn
          rw [readable, Bool.true_or] at both
          rw [readable]
          exact ⟨later_answers, both⟩

theorem hasFiles_spec (sound : index.Sound) (rooted : context.root = index.root)
    (disk : Disk) (pattern : String) :
    (index.hasFiles disk pattern).1 =
        { context with listing := index.listingOn disk }.hasFiles pattern ∧
      index.Becomes disk (Glob.isReadable pattern)
        (index.hasFiles disk pattern).2 := by
  obtain ⟨answers, becomes⟩ := findFiles_spec sound rooted disk pattern
  rw [hasFiles, Context.hasFiles, ← answers]
  generalize index.findFiles disk pattern = outcome at becomes ⊢
  obtain ⟨answer, later⟩ := outcome
  cases answer with
  | error error => exact ⟨rfl, becomes⟩
  | ok files => exact ⟨rfl, becomes⟩

theorem totalFiles_spec (sound : index.Sound)
    (rooted : context.root = index.root) (disk : Disk) :
    (index.totalFiles disk).1 =
        { context with listing := index.listingOn disk }.totalFiles ∧
      index.Becomes disk true (index.totalFiles disk).2 := by
  obtain ⟨listed, becomes⟩ := list_spec sound rooted disk
  rw [totalFiles, Context.totalFiles, ← listed]
  generalize index.list disk = outcome at becomes ⊢
  obtain ⟨answer, later⟩ := outcome
  cases answer with
  | error error => exact ⟨rfl, becomes⟩
  | ok entries => exact ⟨rfl, becomes⟩

end

section

variable {index : Index} {disk : Disk}

/-- A pattern that cannot be read is refused, and the index stays as it is. -/
theorem findFiles_of_error (sound : index.Sound) {pattern : String}
    {error : ScanError} (unread : Glob.ofText pattern = .error error) :
    index.findFiles disk pattern = (.error error, index) := by
  cases remembered : index.answers.lookup pattern with
  | some files =>
      obtain ⟨glob, -, read, -⟩ := sound pattern files remembered
      rw [read] at unread
      cases unread
  | none =>
      rw [findFiles, remembered]
      dsimp only
      rw [unread]

/-- Patterns are looked up one after another, up to the first error. -/
theorem findMore_append (found earlier later : List String) :
    index.findMore disk found (earlier ++ later) =
      match index.findMore disk found earlier with
      | (.error error, extended) => (.error error, extended)
      | (.ok files, extended) => extended.findMore disk files later := by
  induction earlier generalizing index found with
  | nil => rfl
  | cons pattern rest ih =>
      rw [List.cons_append, findMore, findMore]
      cases index.findFiles disk pattern with
      | mk answer extended =>
          cases answer with
          | error error => rfl
          | ok files => exact ih _

/-- A pattern that cannot be read stops a look-up of several, unless an earlier
one did. -/
theorem findFilesAny_of_error (sound : index.Sound) {pattern : String}
    {error : ScanError} (unread : Glob.ofText pattern = .error error)
    (earlier later : List String) :
    index.findFilesAny disk (earlier ++ pattern :: later) =
      match index.findFilesAny disk earlier with
      | (.error first, extended) => (.error first, extended)
      | (.ok _, extended) => (.error error, extended) := by
  let context : Context :=
    { disk, root := index.root, projectName := "", listing := .ok [] }
  have rooted : context.root = index.root := rfl
  obtain ⟨-, becomes⟩ := findMore_spec sound rooted disk [] earlier
  rw [findFilesAny, findFilesAny, findMore_append]
  generalize index.findMore disk [] earlier = outcome at becomes ⊢
  obtain ⟨answer, extended⟩ := outcome
  cases answer with
  | error first => rfl
  | ok files =>
      dsimp only
      rw [findMore, findFiles_of_error becomes.sound unread]

/-- A listing that could not be taken is not taken again. -/
theorem list_of_fault {fault : Fault}
    (unlisted : index.listing = some (.error fault)) :
    index.list disk =
      (.error (Listing.unreadable index.root fault), index) := by
  obtain ⟨root, excludes, listing, answers⟩ := index
  obtain rfl : listing = some (.error fault) := unlisted
  rfl

theorem totalFiles_of_fault {fault : Fault}
    (unlisted : index.listing = some (.error fault)) :
    index.totalFiles disk =
      (.error (Listing.unreadable index.root fault), index) := by
  rw [totalFiles, list_of_fault unlisted]

theorem findFiles_of_fault (sound : index.Sound) {fault : Fault}
    (unlisted : index.listing = some (.error fault)) {pattern : String}
    {glob : Glob} (read : Glob.ofText pattern = .ok glob) :
    index.findFiles disk pattern =
      (.error (Listing.unreadable index.root fault), index) := by
  cases remembered : index.answers.lookup pattern with
  | some files =>
      obtain ⟨-, entries, -, listed, -⟩ := sound pattern files remembered
      rw [unlisted] at listed
      cases listed
  | none =>
      rw [findFiles, remembered]
      dsimp only
      rw [read]
      dsimp only
      rw [list_of_fault unlisted]

end

end Index

end ArchSurvey
