import ArchSurvey.Proofs.Disk.Additions
import ArchSurvey.Proofs.Lists
import ArchSurvey.Proofs.Scan.Checkout
import ArchSurvey.Proofs.Scan.Removal
import Mathlib.Data.List.Basic

/-!
# Sources of a scan

What a scanner makes of a project follows from the files that its patterns find
and from their contents.  Other files have no say in it, so files may be added
to the project that no pattern finds.
-/

namespace ArchSurvey

open ArchSurvey.Path (ofPlace)

/-- The patterns of the files that are chosen. -/
def FileChoice.patterns : FileChoice → List String
  | matching pattern => [pattern]
  | matchingAny patterns => patterns

/-- Whether a test looks at no other files than those that some patterns find,
and is none of a scanner's own. -/
def Applicability.looksOnlyAt (patterns : List String) : Applicability → Bool
  | always => true
  | never => true
  | hasFiles pattern => patterns.contains pattern
  | hasAnyFiles several => several.all patterns.contains
  | fileContains pattern _ => patterns.contains pattern
  | hasDependency _ => true
  | hasAnyDependency _ => true
  | and first second =>
      first.looksOnlyAt patterns && second.looksOnlyAt patterns
  | or first second =>
      first.looksOnlyAt patterns && second.looksOnlyAt patterns
  | negate test => test.looksOnlyAt patterns
  | custom _ _ => false

namespace Context

/-- The found files match one of the patterns, unless they were found before. -/
theorem mem_findFiles_of_mem_findMore {context : Context}
    {patterns found files : List String}
    (more : context.findMore found patterns = .ok files) {file : String}
    (member : file ∈ files) :
    file ∈ found ∨ ∃ pattern ∈ patterns, ∃ matching,
      context.findFiles pattern = .ok matching ∧ file ∈ matching := by
  induction patterns generalizing found with
  | nil =>
      cases more
      exact .inl member
  | cons pattern rest ih =>
      rw [findMore] at more
      cases here : context.findFiles pattern with
      | error error =>
          rw [here] at more
          cases more
      | ok matching =>
          rw [here] at more
          rcases ih more with before | ⟨other, among, later⟩
          · rcases List.mem_append.mp (List.mem_eraseDups.mp before) with
              earlier | new
            · exact .inl earlier
            · exact .inr ⟨pattern, List.mem_cons_self, matching, here, new⟩
          · exact .inr ⟨other, List.mem_cons_of_mem _ among, later⟩

/-- Two projects in which some patterns find the same files with the same
contents, all else that a scanner sees being the same. -/
structure SameSources (patterns : List String) (first second : Context) :
    Prop where
  findFiles_eq : ∀ pattern ∈ patterns,
    second.findFiles pattern = first.findFiles pattern
  read_eq : ∀ pattern ∈ patterns, ∀ files,
    first.findFiles pattern = .ok files → ∀ file ∈ files,
      second.disk.read file = first.disk.read file
  isExpired_eq : ∀ file, second.isExpired file = first.isExpired file
  projectName_eq : second.projectName = first.projectName
  settings_eq : second.settings = first.settings
  previous_eq : second.previous = first.previous

namespace SameSources

variable {patterns : List String} {first second : Context}
  (same : SameSources patterns first second)

include same

theorem with_previous (previous : List (String × ScanResult)) :
    SameSources patterns { first with previous } { second with previous } :=
  ⟨same.findFiles_eq, same.read_eq, same.isExpired_eq, same.projectName_eq,
    same.settings_eq, rfl⟩

theorem with_deadline (deadline : Option (String → Bool)) :
    SameSources patterns { first with deadline } { second with deadline } :=
  ⟨same.findFiles_eq, same.read_eq, fun _ => rfl, same.projectName_eq,
    same.settings_eq, same.previous_eq⟩

theorem findMore_eq {among : List String} (inside : among ⊆ patterns)
    (found : List String) :
    second.findMore found among = first.findMore found among := by
  induction among generalizing found with
  | nil => rfl
  | cons pattern rest ih =>
      rw [List.cons_subset] at inside
      rw [findMore, findMore, same.findFiles_eq pattern inside.1]
      cases first.findFiles pattern with
      | error error => rfl
      | ok files => exact ih inside.2 _

theorem files_eq {choice : FileChoice} (inside : choice.patterns ⊆ patterns) :
    choice.files second = choice.files first := by
  cases choice with
  | matching pattern => exact same.findFiles_eq pattern (inside (by
      simp [FileChoice.patterns]))
  | matchingAny among => exact same.findMore_eq inside []

theorem read_eq_of_chosen {choice : FileChoice}
    (inside : choice.patterns ⊆ patterns) {files : List String}
    (chosen : choice.files first = .ok files) :
    ∀ file ∈ files, second.disk.read file = first.disk.read file := by
  intro file member
  cases choice with
  | matching pattern =>
      exact same.read_eq pattern (inside (by simp [FileChoice.patterns])) files
        chosen file member
  | matchingAny among =>
      rcases mem_findFiles_of_mem_findMore chosen member with
        none | ⟨pattern, listed, matching, found, inMatching⟩
      · cases none
      · exact same.read_eq pattern (inside listed) matching found file
          inMatching

theorem hasFiles_eq {pattern : String} (inside : pattern ∈ patterns) :
    second.hasFiles pattern = first.hasFiles pattern := by
  rw [hasFiles, hasFiles, same.findFiles_eq pattern inside]

theorem any_hasFiles_eq {among : List String} (inside : among ⊆ patterns) :
    among.any second.hasFiles = among.any first.hasFiles := by
  rw [Bool.eq_iff_iff, List.any_eq_true, List.any_eq_true]
  refine exists_congr fun pattern => and_congr_right fun member => ?_
  rw [same.hasFiles_eq (inside member)]

theorem anyFileHas_eq {pattern : String} (inside : pattern ∈ patterns)
    (needle : String) :
    second.anyFileHas pattern needle = first.anyFileHas pattern needle := by
  rw [anyFileHas, anyFileHas, same.findFiles_eq pattern inside]
  cases found : first.findFiles pattern with
  | error error => rfl
  | ok files =>
      have has : ∀ file ∈ files,
          second.fileHas needle file = first.fileHas needle file := by
        intro file member
        rw [fileHas, fileHas, Disk.readText, Disk.readText,
          same.read_eq pattern inside files found file member]
      dsimp only
      rw [Bool.eq_iff_iff, List.any_eq_true, List.any_eq_true]
      refine exists_congr fun file => and_congr_right fun member => ?_
      rw [has file member]

theorem knownDependencies_eq :
    second.knownDependencies = first.knownDependencies := by
  rw [knownDependencies, knownDependencies, same.previous_eq]

/-- A test of the files that the patterns find comes to the same. -/
theorem evaluate_eq {test : Applicability}
    (looks : test.looksOnlyAt patterns = true) :
    test.evaluate second = test.evaluate first := by
  induction test with
  | always => rfl
  | never => rfl
  | hasFiles pattern =>
      rw [Applicability.evaluate, Applicability.evaluate,
        same.hasFiles_eq (List.contains_iff_mem.mp looks)]
  | hasAnyFiles among =>
      have inside : among ⊆ patterns := fun pattern member =>
        List.contains_iff_mem.mp (List.all_eq_true.mp looks pattern member)
      rw [Applicability.evaluate, Applicability.evaluate,
        same.any_hasFiles_eq inside]
  | fileContains pattern needle =>
      have inside := List.contains_iff_mem.mp looks
      rw [Applicability.evaluate, Applicability.evaluate,
        same.hasFiles_eq inside, same.anyFileHas_eq inside]
  | hasDependency name =>
      rw [Applicability.evaluate, Applicability.evaluate, dependsOnAny,
        dependsOnAny, same.knownDependencies_eq]
  | hasAnyDependency names =>
      rw [Applicability.evaluate, Applicability.evaluate, dependsOnAny,
        dependsOnAny, same.knownDependencies_eq]
  | and one other ihOne ihOther =>
      obtain ⟨here, there⟩ := Bool.and_eq_true_iff.mp looks
      rw [Applicability.evaluate, Applicability.evaluate, ihOne here,
        ihOther there]
  | or one other ihOne ihOther =>
      obtain ⟨here, there⟩ := Bool.and_eq_true_iff.mp looks
      rw [Applicability.evaluate, Applicability.evaluate, ihOne here,
        ihOther there]
  | negate test ih =>
      rw [Applicability.evaluate, Applicability.evaluate, ih looks]
  | custom name test => cases looks

theorem isApplicable_eq {scanner : Scanner} (reads : scanner.patterns ⊆ patterns)
    (looks : scanner.applicability.looksOnlyAt patterns = true) :
    scanner.isApplicable second = scanner.isApplicable first := by
  rw [Scanner.isApplicable, Scanner.isApplicable, same.any_hasFiles_eq reads,
    Applicability.test, Applicability.test, same.evaluate_eq looks]

end SameSources

end Context

section

variable {α : Type} {patterns : List String} {first second : Context}
  (same : Context.SameSources patterns first second)

include same

theorem TierEngine.parseFiles_eq_of_sameSources (engine : TierEngine α)
    {files : List String}
    (reads : ∀ file ∈ files, second.disk.read file = first.disk.read file) :
    engine.parseFiles second files = engine.parseFiles first files := by
  have alone : ∀ file ∈ files,
      engine.parseAlone second file = engine.parseAlone first file := by
    intro file member
    rw [parseAlone, parseAlone, same.isExpired_eq,
      engine.parseFile_congr (reads file member)]
  rw [parseFiles, parseFiles, List.filterMap_congr alone]

theorem Pass.reading_eq_of_sameSources {pass : Pass α}
    (inside : pass.choice.patterns ⊆ patterns) :
    pass.reading second = pass.reading first := by
  rw [reading, reading, same.files_eq inside]
  cases chosen : pass.choice.files first with
  | error error => rfl
  | ok files =>
      exact congrArg Except.ok (pass.engine.parseFiles_eq_of_sameSources same
        (same.read_eq_of_chosen inside chosen))

theorem Pass.readAll_eq_of_sameSources {passes : List (Pass α)}
    (inside : ∀ pass ∈ passes, pass.choice.patterns ⊆ patterns) :
    readAll second passes = readAll first passes := by
  fun_induction readAll first passes with
  | case1 => rfl
  | case2 pass => exact reading_eq_of_sameSources same (inside pass (by simp))
  | case3 pass next rest ih =>
      rw [readAll, reading_eq_of_sameSources same (inside pass (by simp)),
        ih fun other member => inside other (List.mem_cons_of_mem _ member)]

/-- A method that reads the files that the patterns find gives the same. -/
theorem Method.scan_eq_of_sameSources {method : Method}
    (inside : ∀ pass ∈ method.passes, pass.choice.patterns ⊆ patterns)
    (scanner : String) :
    method.scan scanner second = method.scan scanner first := by
  rw [scan, scan, Pass.readAll_eq_of_sameSources same inside]

end

namespace Disk

theorem place_root (disk : Disk) (followLast : Bool) :
    disk.place followLast (ofPlace []) = .ok [] := by
  have resolved : resolveFrom disk.tree followLast maxLinks [] [] = .ok [] :=
    rfl
  rw [place, if_neg (by decide), Path.isAbsolute_ofPlace, if_pos rfl,
    lookupNames_ofPlace followLast (by simp)]
  dsimp only
  rw [resolved]
  rfl

/-- A canonical path of a directory spells out where it stands. -/
theorem exists_hasDirectory {disk : Disk} (wellFormed : disk.tree.WellFormed)
    {path root : String} (leads : disk.canonical path = .ok root)
    (isDirectory : disk.isDirectory root = true) :
    ∃ place entries, disk.place true path = .ok place ∧
      disk.HasDirectory root place entries := by
  rw [canonical] at leads
  cases led : disk.place true path with
  | error fault =>
      rw [led] at leads
      cases leads
  | ok place =>
      cases stands : disk.tree.at? place with
      | none => simp [led, stands, bind, Except.bind] at leads
      | some found =>
          have spelled : root = ofPlace place := by
            simp only [led, stands, bind, Except.bind, Except.ok.injEq]
              at leads
            exact leads.symm
          have proper := Node.proper_of_at? wellFormed stands
          subst spelled
          cases found with
          | directory entries =>
              exact ⟨place, entries, rfl, rfl, proper, stands⟩
          | file content =>
              rw [Disk.isDirectory, node_ofPlace proper stands (by simp)]
                at isDirectory
              cases isDirectory
          | link target =>
              -- A look-up ends at a link only if the whole disk is one.
              have top : place = [] := by
                cases last : place.reverse with
                | nil => simpa using last
                | cons name above =>
                    have noLink := (ends_of_place led name above last).2 rfl
                    apply absurd _ (noLink target)
                    rw [List.reverse_reverse, Node.standingAt, stands]
                    rfl
              subst top
              have node : disk.node (ofPlace []) = .ok (.link target) := by
                simp [Disk.node, place_root, stands, bind, Except.bind]
              rw [Disk.isDirectory, node] at isDirectory
              cases isDirectory

end Disk

/-- The files that are listed after some were added, as far as they are seen. -/
theorem Listing.filter_places_of_filter {entries entries' : List (String × Node)}
    {keeps : List String → Bool}
    (listed : ((Node.directory entries').filePlaces skipped).filter keeps =
      ((Node.directory entries).filePlaces skipped).filter keeps)
    (excludes : List Glob) :
    (places excludes entries').filter keeps =
      (places excludes entries).filter keeps := by
  have seen (all : List (List String)) (within : List String → Bool) :
      ((all.mergeSort placeLe).filter within).filter keeps =
        ((all.filter keeps).mergeSort placeLe).filter within := by
    rw [← filter_mergeSort placeLe_trans placeLe_total, List.filter_filter,
      List.filter_filter]
    simp only [Bool.and_comm]
  rw [places, places, seen, seen, listed]

namespace Context

variable {disk next : Disk} {root : String} {place : List String}
  {places : List (List String)} {entries : List (String × Node)}
  {excludes : List Glob}

theorem hasFiles_of_mem {context : Context}
    (listed : context.listing = .ok ((Listing.places excludes entries).map
      (Listing.entryAt root)))
    {pattern : String} {glob : Glob} (read : Glob.ofText pattern = .ok glob)
    {below : List String} (inside : below ∈ Listing.places excludes entries)
    (matched : glob.matchesPath (Listing.relativeText below) = true) :
    context.hasFiles pattern = true := by
  have found : below ∈ (Listing.places excludes entries).filter fun below =>
      glob.matchesPath (Listing.relativeText below) :=
    List.mem_filter.mpr ⟨inside, matched⟩
  rw [hasFiles, findFiles_of_listing listed read]
  dsimp only
  rw [List.isEmpty_map, List.isEmpty_eq_false_iff_exists_mem.mpr ⟨below, found⟩]
  rfl

/-- Patterns that match none of the files that were added find the same files
with the same contents. -/
theorem sameSources_of_adds (has : disk.HasDirectory root place entries)
    (wellFormed : disk.tree.WellFormed) (adds : Disk.Adds places disk next)
    {patterns : List String}
    (unseen : ∀ pattern ∈ patterns, ∀ glob, Glob.ofText pattern = .ok glob →
      ∀ below, place ++ below ∈ places →
        glob.matchesPath (Listing.relativeText below) = false)
    {first : Context} (here : first.disk = disk)
    (listed : first.listing = Listing.take disk root excludes) :
    SameSources patterns first
      { first with
        disk := next, listing := Listing.take next root excludes } := by
  obtain ⟨entries', stands, kept⟩ := adds.directory has.stands
  have hasNext : next.HasDirectory root place entries' :=
    ⟨has.spelled, has.proper, stands⟩
  rw [has.take_eq] at listed
  refine ⟨?_, ?_, fun _ => rfl, rfl, rfl, rfl⟩
  · intro pattern among
    cases read : Glob.ofText pattern with
    | error error =>
        rw [findFiles_of_error read, findFiles_of_error read]
    | ok glob =>
        rw [findFiles_of_listing (hasNext.take_eq excludes) read,
          findFiles_of_listing listed read,
          Listing.filter_places_of_filter
            (kept Listing.skipped _ (unseen pattern among glob read))]
  · intro pattern among files found file member
    cases read : Glob.ofText pattern with
    | error error =>
        rw [findFiles_of_error read] at found
        cases found
    | ok glob =>
        rw [findFiles_of_listing listed read] at found
        cases found
        obtain ⟨below, matched, rfl⟩ := List.mem_map.mp member
        obtain ⟨inside, seen⟩ := List.mem_filter.mp matched
        obtain ⟨nonempty, proper, content, holds⟩ :=
          Listing.file_of_mem_places (wellFormed.at? has.stands) inside
        have apart : place ++ below ∉ places := by
          intro added
          rw [unseen pattern among glob read below added] at seen
          cases seen
        have before : disk.tree.at? (place ++ below) = some (.file content) :=
          (has.at?_append below).trans holds
        rw [has.path_entryAt nonempty proper, here,
          has.read_eq proper before,
          hasNext.read_eq proper (adds.file apart before)]

end Context

end ArchSurvey
