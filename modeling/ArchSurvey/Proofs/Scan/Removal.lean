import ArchSurvey.Proofs.Disk.Removal
import ArchSurvey.Proofs.Lists
import ArchSurvey.Proofs.Scan.Methods

/-!
# Removing a file from a project

What a method finds in a project does not depend on a file that no tier read:
the other files are found in the same order and read as before, and the file
itself yields nothing.
-/

namespace ArchSurvey

namespace Context

/-- Whether a path is that of a listed file. -/
def Lists (context : Context) (file : String) : Prop :=
  ∃ entries, context.entries = .ok entries ∧ file ∈ entries.map Entry.path

section

variable {context : Context}

theorem lists_of_mem_findFiles {pattern : String} {files : List String}
    (found : context.findFiles pattern = .ok files) :
    ∀ file ∈ files, context.Lists file := by
  rw [findFiles] at found
  cases read : Glob.ofText pattern with
  | error error =>
      rw [read] at found
      cases found
  | ok glob =>
      cases listed : context.entries with
      | error error =>
          rw [read, listed] at found
          cases found
      | ok entries =>
          rw [read, listed] at found
          cases found
          intro file member
          exact ⟨entries, listed,
            List.map_subset Entry.path List.filter_sublist.subset member⟩

theorem lists_of_mem_findMore {patterns found files : List String}
    (before : ∀ file ∈ found, context.Lists file)
    (more : context.findMore found patterns = .ok files) :
    ∀ file ∈ files, context.Lists file := by
  induction patterns generalizing found with
  | nil =>
      cases more
      exact before
  | cons pattern rest ih =>
      rw [findMore] at more
      cases here : context.findFiles pattern with
      | error error =>
          rw [here] at more
          cases more
      | ok matching =>
          rw [here] at more
          refine ih (fun file member => ?_) more
          rcases List.mem_append.mp (List.mem_eraseDups.mp member) with
            earlier | new
          · exact before file earlier
          · exact lists_of_mem_findFiles here file new

theorem lists_of_mem_files {choice : FileChoice} {files : List String}
    (chosen : choice.files context = .ok files) :
    ∀ file ∈ files, context.Lists file := by
  cases choice with
  | matching pattern => exact lists_of_mem_findFiles chosen
  | matchingAny patterns =>
      exact lists_of_mem_findMore (fun _ member => by cases member) chosen

end

/-- A project without one of its files, all else being as it was. -/
structure Without (file : String) (whole rest : Context) : Prop where
  entries_eq : rest.entries = whole.entries.map fun entries =>
    entries.filter fun entry => entry.path != file
  read_eq : ∀ other, other ≠ file → whole.Lists other →
    rest.disk.read other = whole.disk.read other
  isExpired_eq : ∀ other, other ≠ file →
    rest.isExpired other = whole.isExpired other
  projectName_eq : rest.projectName = whole.projectName
  settings_eq : rest.settings = whole.settings

namespace Without

variable {file : String} {whole rest : Context}
  (without : Without file whole rest)

include without

theorem findFiles_eq (pattern : String) :
    rest.findFiles pattern =
      (whole.findFiles pattern).map fun files => files.filter (· != file) := by
  rw [findFiles, findFiles, without.entries_eq]
  cases Glob.ofText pattern with
  | error error => rfl
  | ok glob =>
      cases whole.entries with
      | error error => rfl
      | ok entries =>
          change Except.ok (Listing.matching _ glob) =
            Except.ok ((Listing.matching entries glob).filter (· != file))
          rw [Listing.matching, Listing.matching, List.filter_map,
            List.filter_filter, List.filter_filter]
          simp only [Function.comp_def, Bool.and_comm]

theorem findMore_eq (found patterns : List String) :
    rest.findMore (found.filter (· != file)) patterns =
      (whole.findMore found patterns).map fun files =>
        files.filter (· != file) := by
  induction patterns generalizing found with
  | nil => rfl
  | cons pattern others ih =>
      rw [findMore, findMore, without.findFiles_eq]
      cases whole.findFiles pattern with
      | error error => rfl
      | ok files =>
          have united : Listing.union (found.filter (· != file))
              (files.filter (· != file)) =
                (Listing.union found files).filter (· != file) := by
            rw [Listing.union, Listing.union, filter_eraseDups,
              List.filter_append]
          change rest.findMore (Listing.union (found.filter (· != file))
            (files.filter (· != file))) others = _
          rw [united]
          exact ih _

/-- The other files are chosen in the same order. -/
theorem files_eq (choice : FileChoice) :
    choice.files rest =
      (choice.files whole).map fun files => files.filter (· != file) := by
  cases choice with
  | matching pattern => exact without.findFiles_eq pattern
  | matchingAny patterns => exact without.findMore_eq [] patterns

end Without

end Context

namespace TierEngine

variable {α : Type} (engine : TierEngine α)

/-- What a file adds to the data of a reading. -/
def dataOf (context : Context) (file : String) : List α :=
  if context.isExpired file then []
  else (engine.parseFile context.disk file {}).2.1

theorem parseFiles_fst (context : Context) (files : List String) :
    (engine.parseFiles context files).1 =
      files.flatMap (engine.dataOf context) := by
  rw [parseFiles]
  induction files with
  | nil => rfl
  | cons file rest ih =>
      rw [List.flatMap_cons, ← ih, dataOf, List.filterMap_cons, parseAlone]
      cases context.isExpired file <;> rfl

theorem parseFile_congr {disk other : Disk} {file : String}
    (same : disk.read file = other.read file) (stats : Statistics) :
    engine.parseFile disk file stats = engine.parseFile other file stats := by
  rw [parseFile, parseFile, same]

variable {engine} {file : String} {whole rest : Context}

/-- A reading yields the same data without a file that no tier read. -/
theorem parseFiles_without_fst (without : Context.Without file whole rest)
    {files : List String} (listed : ∀ other ∈ files, whole.Lists other)
    (fruitless : file ∈ files →
      (engine.parseFile whole.disk file {}).1.isSuccess = false) :
    (engine.parseFiles rest (files.filter (· != file))).1 =
      (engine.parseFiles whole files).1 := by
  have others : ∀ other ∈ files.filter (· != file),
      engine.dataOf rest other = engine.dataOf whole other := by
    intro other member
    obtain ⟨among, apart⟩ := List.mem_filter.mp member
    have different : other ≠ file := by simpa using apart
    rw [dataOf, dataOf, without.isExpired_eq other different,
      engine.parseFile_congr (without.read_eq other different
        (listed other among))]
  have silent : ∀ other ∈ files, (other != file) = false →
      engine.dataOf whole other = [] := by
    intro other member same
    obtain rfl : other = file := by simpa using same
    obtain ⟨record, data, nothing, reads⟩ :=
      engine.parseFile_eq_record whole.disk other
    have failed := fruitless member
    rw [reads] at failed
    rw [dataOf, reads, nothing failed]
    exact ite_self []
  calc
    (engine.parseFiles rest (files.filter (· != file))).1
      = (files.filter (· != file)).flatMap (engine.dataOf rest) :=
        engine.parseFiles_fst rest _
    _ = (files.filter (· != file)).flatMap (engine.dataOf whole) :=
        by rw [List.flatMap_def, List.map_congr_left others, List.flatMap_def]
    _ = files.flatMap (engine.dataOf whole) := flatMap_filter_of_nil silent
    _ = (engine.parseFiles whole files).1 := (engine.parseFiles_fst whole _).symm

end TierEngine

/-- No pass of a method that meets a file gets anything from it: the file is
skipped, or no tier can read it. -/
def Method.Fruitless (method : Method) (context : Context) (file : String) :
    Prop :=
  ∀ pass ∈ method.passes, ∀ files, pass.choice.files context = .ok files →
    file ∈ files →
      (pass.engine.parseFile context.disk file {}).1 = .skipped ∨
        (pass.engine.parseFile context.disk file {}).1 = .failed

namespace Pass

variable {α : Type} {file : String} {whole rest : Context}

theorem reading_without (without : Context.Without file whole rest)
    {pass : Pass α}
    (fruitless : ∀ files, pass.choice.files whole = .ok files → file ∈ files →
      (pass.engine.parseFile whole.disk file {}).1.isSuccess = false) :
    (pass.reading rest).map Prod.fst = (pass.reading whole).map Prod.fst := by
  rw [reading, reading, without.files_eq]
  cases chosen : pass.choice.files whole with
  | error error => rfl
  | ok files =>
      exact congrArg Except.ok (TierEngine.parseFiles_without_fst without
        (Context.lists_of_mem_files chosen) (fruitless files chosen))

/-- The data of several passes are joined. -/
theorem readAll_cons_fst (context : Context) (pass next : Pass α)
    (others : List (Pass α)) :
    (readAll context (pass :: next :: others)).map Prod.fst =
      ((pass.reading context).map Prod.fst).bind fun data =>
        ((readAll context (next :: others)).map Prod.fst).map (data ++ ·) := by
  rw [readAll]
  cases pass.reading context with
  | error error => rfl
  | ok here => cases readAll context (next :: others) <;> rfl

/-- All passes together read the same data. -/
theorem readAll_without (without : Context.Without file whole rest)
    {passes : List (Pass α)}
    (fruitless : ∀ pass ∈ passes, ∀ files,
      pass.choice.files whole = .ok files → file ∈ files →
        (pass.engine.parseFile whole.disk file {}).1.isSuccess = false) :
    (readAll rest passes).map Prod.fst =
      (readAll whole passes).map Prod.fst := by
  fun_induction readAll whole passes with
  | case1 => rfl
  | case2 pass =>
      exact reading_without without (fruitless pass List.mem_cons_self)
  | case3 pass next others ih =>
      have later := ih fun other member =>
        fruitless other (List.mem_cons_of_mem _ member)
      have here := reading_without without (fruitless pass List.mem_cons_self)
      rw [readAll_cons_fst, here, later]
      exact (readAll_cons_fst whole pass next others).symm

end Pass

/-- Whether a scan succeeded, and what it found. -/
def ScanResult.report (result : ScanResult) : Bool × Findings :=
  (result.success, result.findings)

/-- What is reported of a project by a method is the same without a file that
is fruitless. -/
theorem Method.scan_without {method : Method} {file : String}
    {whole rest : Context} (without : Context.Without file whole rest)
    (fruitless : method.Fruitless whole file) (scanner : String) :
    (method.scan scanner rest).map ScanResult.report =
      (method.scan scanner whole).map ScanResult.report := by
  have reports (context : Context) :
      (method.scan scanner context).map ScanResult.report =
        ((Pass.readAll context method.passes).map Prod.fst).map fun data =>
          (true, method.conclude data) := by
    rw [scan]
    cases Pass.readAll context method.passes <;> rfl
  have unread : ∀ pass ∈ method.passes, ∀ files,
      pass.choice.files whole = .ok files → file ∈ files →
        (pass.engine.parseFile whole.disk file {}).1.isSuccess = false := by
    intro pass among files chosen member
    rcases fruitless pass among files chosen member with skipped | failed
    · rw [skipped]
      rfl
    · rw [failed]
      rfl
  rw [reports, reports, Pass.readAll_without without unread]

theorem ScanResult.report_ofOutcome_congr (scanner : String)
    {first second : Except ScanError ScanResult}
    (alike : first.map report = second.map report) :
    (ofOutcome scanner first).report = (ofOutcome scanner second).report := by
  cases first with
  | error error =>
      cases second with
      | error other =>
          obtain rfl : error = other := Except.error.inj alike
          rfl
      | ok result => cases alike
  | ok result =>
      cases second with
      | error error => cases alike
      | ok other => exact Except.ok.inj alike

/-- Two projects of which a scanner reports the same. -/
def Scanner.ReportsAlike (scanner : Scanner) (first second : Context) : Prop :=
  ∃ a b, scanner.scan first = .finished a ∧ scanner.scan second = .finished b ∧
    a.success = b.success ∧ a.findings = b.findings

/-- A scanner whose method does not depend on the files reports the same of a
project without a file that is fruitless. -/
theorem Scanner.Follows.reportsAlike_without {scanner : Scanner}
    {method : Context → Method} (follows : scanner.Follows method)
    {file : String} {whole rest : Context}
    (without : Context.Without file whole rest)
    (same : method rest = method whole)
    (fruitless : (method whole).Fruitless whole file) :
    scanner.ReportsAlike whole rest := by
  have outcomes := Method.scan_without without fruitless scanner.id
  have reports := ScanResult.report_ofOutcome_congr scanner.id outcomes
  obtain ⟨success, findings⟩ := Prod.mk.inj reports
  have scansRest := follows rest
  rw [same] at scansRest
  exact ⟨_, _, follows whole, scansRest, success.symm, findings.symm⟩

namespace Checkout

variable {name : String} {entries : List (String × Node)}

theorem entries_context (checkout : Checkout name entries) (view : View) :
    (checkout.context view).entries =
      .ok ((Listing.places view.excludes entries).map
        (Listing.entryAt checkout.root)) := by
  rw [Context.entries, checkout.listing_context view]
  rfl

theorem place_of_lists (checkout : Checkout name entries) {view : View}
    (wellFormed : (Node.directory entries).WellFormed) {file : String}
    (listed : (checkout.context view).Lists file) :
    ∃ place ∈ Listing.places view.excludes entries,
      file = checkout.file place := by
  obtain ⟨_, all, member⟩ := listed
  cases (checkout.entries_context view).symm.trans all
  obtain ⟨entry, among, rfl⟩ := List.mem_map.mp member
  obtain ⟨place, inside, rfl⟩ := List.mem_map.mp among
  obtain ⟨nonempty, proper, -⟩ := Listing.file_of_mem_places wellFormed inside
  exact ⟨place, inside, checkout.path_entryAt nonempty proper⟩

end Checkout

section

variable {entries remaining : List (String × Node)} {place : List String}
  {content : List UInt8}
  (wellFormed : (Node.directory entries).WellFormed)
  (stands : (Node.directory entries).at? place = some (.file content))
  (removed : (Node.directory entries).remove place = .directory remaining)

include wellFormed stands removed

/-- The other files are listed in the same order. -/
theorem Listing.places_remove (excludes : List Glob) :
    places excludes remaining =
      (places excludes entries).filter (· != place) := by
  have nonempty : place ≠ [] := by
    rintro rfl
    cases stands
  rw [places, places, ← removed,
    Node.filePlaces_remove nonempty wellFormed stands,
    ← filter_mergeSort placeLe_trans placeLe_total, List.filter_filter,
    List.filter_filter]
  simp only [Bool.and_comm]

/-- Two checkouts at one place, of a tree and of the tree without a file, are a
project and the project without the file. -/
theorem Checkout.context_without {name : String} (here : Checkout name entries)
    (there : Checkout name remaining) (beside : there.parent = here.parent)
    (view : View) :
    Context.Without (here.file place) (here.context view)
      (there.context view) := by
  have proper := Node.proper_of_at? wellFormed stands
  have root : there.root = here.root := by rw [root, root, beside]
  refine ⟨?entries, ?read, ?expired, rfl, rfl⟩
  case entries =>
    rw [here.entries_context, there.entries_context, root,
      Listing.places_remove wellFormed stands removed]
    change Except.ok _ = Except.ok (List.filter _ (List.map _ _))
    rw [List.filter_map]
    congr 2
    apply List.filter_congr
    intro other inside
    obtain ⟨nonempty, properOther, -⟩ :=
      Listing.file_of_mem_places wellFormed inside
    rw [Function.comp_apply, here.path_entryAt nonempty properOther,
      Bool.eq_iff_iff, bne_iff_ne, bne_iff_ne]
    exact not_congr
      ⟨congrArg here.file, here.file_injective properOther proper⟩
  case read =>
    intro file apart listed
    obtain ⟨other, inside, rfl⟩ := here.place_of_lists wellFormed listed
    obtain ⟨-, properOther, found, standsOther⟩ :=
      Listing.file_of_mem_places wellFormed inside
    have different : other ≠ place := fun equal => apart (equal ▸ rfl)
    have kept : (Node.directory remaining).at? other = some (.file found) := by
      rw [← removed]
      exact Node.at?_remove stands different standsOther
    have sameFile : there.file other = here.file other := by
      rw [file, file, beside]
    have read := there.read_file properOther kept
    rw [sameFile] at read
    exact read.trans (here.read_file properOther standsOther).symm
  case expired =>
    intro file _
    rw [Context.isExpired, Context.isExpired, context, context]
    simp only [root]

end

end ArchSurvey
