import ArchSurvey.CommandLine.Run
import ArchSurvey.Proofs.CommandLine.Deadline
import ArchSurvey.Proofs.CommandLine.Documents
import ArchSurvey.Proofs.Glob.Ending
import ArchSurvey.Proofs.Scan.Sources
import ArchSurvey.Proofs.Survey.Closure
import ArchSurvey.Proofs.Survey.Repetition
import Mathlib.Data.List.Infix

/-!
# Scanning again

What a scan writes is no source: no pattern of a built-in scanner matches the
name of a document.  So a scan of a project in which a scan has written finds
what that one found, unless a document was written through a link to a file
with another name.
-/

namespace ArchSurvey

open Text.Utf8 (encode)

namespace CommandLine

/-- The names of the files that a scan writes. -/
def documentNames : List String :=
  Generator.offers.map (Generator.drawingName · ++ ".md") ++
    ["index.md", reportFile]

theorem isName_of_mem_documentNames {name : String}
    (member : name ∈ documentNames) : Path.IsName name := by
  have all : ∀ other ∈ documentNames, Path.IsName other := by decide
  exact all name member

/-- The end of a pattern of a built-in scanner and the name of a document are
apart. -/
theorem endsApart_of_mem_documentNames {pattern name : String} {glob : Glob}
    (among : pattern ∈ sourcePatterns) (read : Glob.ofText pattern = .ok glob)
    (member : name ∈ documentNames) :
    Glob.EndsApart (encode (Glob.ending glob.tokens)) (encode name.toList) := by
  have all : ∀ other ∈ sourcePatterns, ∀ glob ∈ (Glob.ofText other).toOption,
      ∀ name ∈ documentNames,
        Glob.EndsApart (encode (Glob.ending glob.tokens))
          (encode name.toList) := by
    decide +kernel
  apply all pattern among glob _ name member
  rw [read]
  rfl

theorem not_matchesPath_empty {pattern : String} {glob : Glob}
    (among : pattern ∈ sourcePatterns) (read : Glob.ofText pattern = .ok glob) :
    glob.matchesPath "" = false := by
  have all : ∀ other ∈ sourcePatterns, ∀ glob ∈ (Glob.ofText other).toOption,
      glob.matchesPath "" = false := by
    decide +kernel
  apply all pattern among glob
  rw [read]
  rfl

section

variable {plan : DrawingPlan} {directory : String} {model : Model}
  {quality : Option Quality}

theorem exists_name_of_mem_documents {files : List (String × String)}
    (drawn : documents plan directory model quality = .ok files)
    {file : String × String} (member : file ∈ files) :
    ∃ name ∈ documentNames, file.1 = Path.join directory name := by
  obtain ⟨drawings, drawnAll, rfl⟩ := documents_eq_ok_iff.mp drawn
  obtain ⟨⟨name, text⟩, among, rfl⟩ := List.mem_map.mp member
  refine ⟨name, ?_, rfl⟩
  rcases List.mem_append.mp among with drawing | index
  · obtain ⟨drawing, inside, same⟩ := List.mem_map.mp drawing
    cases same
    obtain ⟨-, -, generator, -, kind, -, result⟩ :=
      (Generator.mem_iff_of_drawAll drawnAll).mp inside
    obtain ⟨offered, named⟩ := Generator.offered_of_draw? result
    rw [Drawing.fileName, named]
    exact List.mem_append_left _ (List.mem_map_of_mem offered)
  · split at index
    · cases List.mem_singleton.mp index
      exact List.mem_append_right _ List.mem_cons_self
    · cases index

/-- Files that are written one after the other are added where their paths
lead. -/
theorem Writes.adds {files : List (String × String)} {disk final : Disk}
    (writes : Writes files disk final) :
    ∃ places, Disk.Adds places disk final ∧
      ∀ place ∈ places, ∃ file ∈ files, final.place true file.1 = .ok place := by
  induction writes with
  | nil => exact ⟨[], .refl _, by simp⟩
  | cons written later ih =>
      obtain ⟨place, led, added⟩ := Disk.adds_of_write written
      obtain ⟨places, addedLater, source⟩ := ih
      refine ⟨place :: places, added.trans addedLater, ?_⟩
      intro other member
      rcases List.mem_cons.mp member with rfl | inside
      · exact ⟨_, List.mem_cons_self,
          later.place (Disk.place_of_write written led)⟩
      · obtain ⟨file, among, leads⟩ := source other inside
        exact ⟨file, List.mem_cons_of_mem _ among, leads⟩

end

theorem Writes.append {first second : List (String × String)}
    {disk between final : Disk} (before : Writes first disk between)
    (after : Writes second between final) :
    Writes (first ++ second) disk final := by
  induction before with
  | nil => exact after
  | cons written _ ih => exact .cons written (ih after)

/-- A survey is written to files with the names of documents. -/
theorem writes_of_writeSurvey {session : Session} {config : ProjectConfig}
    {directory : String} {report : SurveyReport} {disk final : Disk}
    {written : List String}
    (wrote : writeSurvey session config directory report disk =
      (.ok written, final)) :
    ∃ made files, disk.makeDirectories directory = (.ok (), made) ∧
      Writes files made final ∧ written = files.map Prod.fst ∧
      ∀ path ∈ written, ∃ name ∈ documentNames,
        path = Path.join directory name := by
  rw [writeSurvey] at wrote
  cases planned : drawingPlan config with
  | error error =>
      rw [planned] at wrote
      cases wrote
  | ok plan =>
      rw [planned] at wrote
      dsimp only at wrote
      cases drew : writeDocuments plan directory report.model
          (some report.quality) disk with
      | mk result between =>
          rw [drew] at wrote
          cases result with
          | error error => cases wrote
          | ok documents =>
              obtain ⟨made, files, directories, drawn, writes, rfl⟩ :=
                writes_of_writeDocuments drew
              dsimp only at wrote
              rw [writeText] at wrote
              cases saved : between.write (Path.join directory reportFile)
                  (encode (reportText session report).toList) with
              | error fault =>
                  rw [saved] at wrote
                  cases wrote
              | ok last =>
                  rw [saved] at wrote
                  cases wrote
                  refine ⟨made, files ++ [(Path.join directory reportFile,
                    reportText session report)], directories,
                    writes.append (.cons saved (.nil _)), by simp, ?_⟩
                  intro path member
                  rcases List.mem_append.mp member with document | report
                  · obtain ⟨file, among, rfl⟩ := List.mem_map.mp document
                    exact exists_name_of_mem_documents drawn among
                  · obtain rfl := List.mem_singleton.mp report
                    exact ⟨reportFile, by decide, rfl⟩

theorem writeSurvey_of_writes {session : Session} {config : ProjectConfig}
    {plan : DrawingPlan} {directory : String} {report : SurveyReport}
    {files : List (String × String)} {disk made between final : Disk}
    (planned : drawingPlan config = .ok plan)
    (directories : disk.makeDirectories directory = (.ok (), made))
    (drawn : documents plan directory report.model (some report.quality) =
      .ok files)
    (writes : Writes files made between)
    (saved : between.write (Path.join directory reportFile)
      (encode (reportText session report).toList) = .ok final) :
    writeSurvey session config directory report disk =
      (.ok (files.map Prod.fst ++ [Path.join directory reportFile]), final) := by
  rw [writeSurvey, planned]
  dsimp only
  rw [writeDocuments, makeDirectories, directories]
  dsimp only
  rw [drawn]
  dsimp only
  rw [writeAll_of_writes writes]
  dsimp only
  rw [writeText, saved]

/-- What a file is written over, or made as, is no source: it has the name that
its path ends with, or no pattern of a built-in scanner matches it. -/
def MissesSources (disk : Disk) (root path : String) : Prop :=
  ∀ place, disk.place true path = .ok place →
    place.getLast? = Path.fileName? path ∨
      ∀ below, place = Path.names root ++ below → ∀ pattern ∈ sourcePatterns,
        ∀ glob, Glob.ofText pattern = .ok glob →
          glob.matchesPath (Listing.relativeText below) = false

/-- A document that misses the sources is matched by no pattern of a built-in
scanner. -/
theorem MissesSources.matchesPath_eq {disk : Disk}
    {root directory name : String} (member : name ∈ documentNames)
    (misses : MissesSources disk root (Path.join directory name))
    {below : List String}
    (led : disk.place true (Path.join directory name) =
      .ok (Path.names root ++ below))
    {pattern : String} (among : pattern ∈ sourcePatterns) {glob : Glob}
    (read : Glob.ofText pattern = .ok glob) :
    glob.matchesPath (Listing.relativeText below) = false := by
  rcases misses _ led with named | apart
  · rw [Path.fileName?_join (isName_of_mem_documentNames member)] at named
    -- What is not the root itself ends with the name of the document.
    rcases List.eq_nil_or_concat' below with rfl | ⟨front, last, rfl⟩
    · exact not_matchesPath_empty among read
    · rw [← List.append_assoc, List.getLast?_concat] at named
      cases named
      exact Glob.matchesPath_of_endsApart
        (endsApart_of_mem_documentNames among read member)
        ((Listing.suffix_relativeText front name).flatMap _)
  · exact apart below rfl pattern among glob read

end CommandLine

namespace Context

variable {disk next : Disk} {root : String} {place : List String}
  {entries entries' : List (String × Node)} {config : ProjectConfig}

/-- By one configuration a project has on two disks contexts that differ in the
listing only. -/
theorem exists_excludes_of_ofConfig (has : disk.HasDirectory root place entries)
    (hasNext : next.HasDirectory root place entries') {context : Context}
    (made : ofConfig disk root config = .ok context) :
    context.disk = disk ∧ ∃ excludes,
      context.listing = Listing.take disk root excludes ∧
      ofConfig next root config = .ok
        { context with
          disk := next, listing := Listing.take next root excludes } := by
  rw [ofConfig, withExcludes] at made ⊢
  cases read : config.scan.exclude.mapM Glob.ofText with
  | error error =>
      rw [read] at made
      cases made
  | ok globs =>
      rw [read] at made
      cases made
      refine ⟨rfl, globs, ?_, ?_⟩
      · change Listing.take disk (absoluteRoot disk root) globs = _
        rw [has.absoluteRoot_eq]
      · simp only [ofRoot, has.absoluteRoot_eq, hasNext.absoluteRoot_eq]
        rfl

end Context

namespace CommandLine

/-- A project is surveyed, and what comes of it is written. -/
structure Scans (session : Session) (config : ProjectConfig)
    (path root directory : String) (report : SurveyReport)
    (written : List String) (final : Disk) : Prop where
  leads : session.disk.canonical path = .ok root
  isDirectory : session.disk.isDirectory root = true
  surveyed : surveyProject session.timing session.grammars session.disk root
    config = .ok (.finished report)
  wrote : writeSurvey session config directory report session.disk =
    (.ok written, final)

/-- Files with the names of documents are added to the disk. -/
theorem Scans.exists_adds {session : Session} {config : ProjectConfig}
    {path root directory : String} {report : SurveyReport}
    {written : List String} {final : Disk}
    (scans : Scans session config path root directory report written final) :
    ∃ places, Disk.Adds places session.disk final ∧ ∀ place ∈ places,
      ∃ name ∈ documentNames, Path.join directory name ∈ written ∧
        final.place true (Path.join directory name) = .ok place := by
  obtain ⟨made, files, directories, writes, rfl, named⟩ :=
    writes_of_writeSurvey scans.wrote
  obtain ⟨places, adds, source⟩ := writes.adds
  have makes := Disk.adds_of_makeDirectories session.disk directory
  rw [directories] at makes
  refine ⟨places, makes.trans adds, fun place member => ?_⟩
  obtain ⟨file, inside, led⟩ := source place member
  have document := List.mem_map_of_mem (f := Prod.fst) inside
  obtain ⟨name, isDocument, joined⟩ := named _ document
  rw [joined] at document led
  exact ⟨name, isDocument, document, led⟩

/-- A request for a scan is met. -/
def Outcome.Meets (outcome : Outcome) : Prop :=
  outcome.exitCode = exitSuccess ∨ outcome.exitCode = exitFailed

theorem not_meets_refuse (session : Session) (message : String)
    (advice : List String) : ¬(session.refuse message advice).Meets := by
  simp [Outcome.Meets, Session.refuse, exitError, exitSuccess, exitFailed]

theorem meets_finishScan_iff {session : Session} {request : ScanRequest}
    {config : ProjectConfig} {root : String} {report : SurveyReport}
    {final : Disk} (writes : request.noWrite = false) :
    (finishScan session request config root report).Meets ∧
        (finishScan session request config root report).disk = final ↔
      ∃ written, writeSurvey session config
          (request.output.getD (Path.join root config.output.directory)) report
          session.disk =
        (.ok written, final) := by
  unfold finishScan
  rw [writes]
  dsimp only
  rw [if_neg Bool.false_ne_true]
  cases done : writeSurvey session config
      (request.output.getD (Path.join root config.output.directory)) report
      session.disk with
  | mk result disk =>
      cases result with
      | error error => simp [not_meets_refuse]
      | ok written =>
          have met : ({
              exitCode := if report.hasFailures then exitFailed else exitSuccess
              output := surveyOutput session request.format report written
              disk } : Outcome).Meets := by
            unfold Outcome.Meets
            dsimp only
            split
            · exact .inr rfl
            · exact .inl rfl
          simp [met]

theorem exists_surveyed_of_meets {session : Session} {request : ScanRequest}
    (scans : request.dryRun = false) (met : (runScan session request).Meets) :
    ∃ root context report, Reaches session request root context ∧
      (Survey.ofConfig (builtinRegistry session.grammars)
        (request.configure session.disk root)).run session.timing context =
          .finished report := by
  rcases refuses_or_reaches session request with
    ⟨message, refused⟩ | ⟨root, context, reaches⟩
  · rw [refused] at met
    exact absurd met (not_meets_refuse _ _ _)
  · cases outcome : (Survey.ofConfig (builtinRegistry session.grammars)
        (request.configure session.disk root)).run session.timing context with
    | panicked message =>
        rw [reaches.runScan_of_panicked scans outcome] at met
        simp [Outcome.Meets, exitPanic, exitSuccess, exitFailed] at met
    | finished report => exact ⟨root, context, report, reaches, outcome⟩

/-- A scan that is to write is met exactly if its project is surveyed and what
comes of it is written. -/
theorem meets_runScan_iff {session : Session} {request : ScanRequest}
    {final : Disk} (scans : request.dryRun = false)
    (writes : request.noWrite = false) :
    (runScan session request).Meets ∧ (runScan session request).disk = final ↔
      ∃ root report written, Scans session
        (request.configure session.disk root) request.path root
        (request.output.getD (Path.join root
          (request.configure session.disk root).output.directory))
        report written final := by
  constructor
  · rintro ⟨met, here⟩
    obtain ⟨root, context, report, reaches, finished⟩ :=
      exists_surveyed_of_meets scans met
    rw [reaches.runScan_of_finished scans finished] at met here
    obtain ⟨written, wrote⟩ := (meets_finishScan_iff writes).mp ⟨met, here⟩
    exact ⟨root, report, written, reaches.leads, reaches.isDirectory,
      surveyProject_eq_ok_iff.mpr ⟨context, reaches.made, finished⟩, wrote⟩
  · rintro ⟨root, report, written, leads, isDirectory, surveyed, wrote⟩
    obtain ⟨context, made, finished⟩ := surveyProject_eq_ok_iff.mp surveyed
    have reaches : Reaches session request root context :=
      ⟨leads, isDirectory, made⟩
    rw [reaches.runScan_of_finished scans finished]
    exact (meets_finishScan_iff writes).mpr ⟨written, wrote⟩

/-- A disk with a project that has a directory for documents. -/
def shopOnDisk (sources docs : List (String × Node)) : Disk :=
  { tree := .directory
      [("shop", .directory (("docs", .directory docs) :: sources))]
    current := [] }

theorem place_docs_shopOnDisk (sources docs : List (String × Node)) :
    (shopOnDisk sources docs).place true "/shop/docs" =
      .ok ["shop", "docs"] := by
  rfl

theorem wellFormed_shopOnDisk {sources docs : List (String × Node)}
    (apart : "docs" ∉ sources.map Prod.fst)
    (ofSources : Node.EntriesWellFormed sources)
    (ofDocuments : Node.EntriesWellFormed docs) :
    (shopOnDisk sources docs).tree.WellFormed := by
  simp only [shopOnDisk, Node.WellFormed, Node.EntriesWellFormed, List.map_nil,
    List.not_mem_nil, not_false_eq_true, and_true, true_and]
  exact ⟨by decide, by decide, apart, ofDocuments, ofSources⟩

/-- By a configuration an index is drawn and nothing else. -/
structure DrawsIndex (config : ProjectConfig) : Prop where
  generators : config.generators.enabled = []
  diagrams : config.generators.diagrams = []
  index : config.output.generateIndex = true

theorem DrawsIndex.drawingPlan_eq {config : ProjectConfig}
    (draws : DrawsIndex config) :
    drawingPlan config = .ok
      { generators := [], kinds := [], options := config.generators.options } := by
  rw [drawingPlan, draws.generators, draws.diagrams, draws.index]
  rfl

/-- The text of that index. -/
def indexText (report : SurveyReport) : String :=
  Diagram.textOfLines
    (Catalog.indexLines report.model (some report.quality) [])

theorem DrawsIndex.writeSurvey_eq {config : ProjectConfig}
    (draws : DrawsIndex config) {session : Session} {report : SurveyReport}
    {sources docs : List (String × Node)} {between final : Disk}
    (index : (shopOnDisk sources docs).write "/shop/docs/index.md"
      (encode (indexText report).toList) = .ok between)
    (saved : between.write "/shop/docs/architecture.json"
      (encode (reportText session report).toList) = .ok final) :
    writeSurvey session config "/shop/docs" report (shopOnDisk sources docs) =
      (.ok ["/shop/docs/index.md", "/shop/docs/architecture.json"], final) := by
  have directories : (shopOnDisk sources docs).makeDirectories "/shop/docs" =
      (.ok (), shopOnDisk sources docs) := rfl
  have drawn : documents { generators := [], kinds := [], options :=
      config.generators.options } "/shop/docs" report.model
      (some report.quality) = .ok [("/shop/docs/index.md", indexText report)] :=
    rfl
  exact writeSurvey_of_writes draws.drawingPlan_eq directories drawn
    (.cons index (.nil _)) saved

/-- The disk with the documents of that project. -/
def shopDocumented (sources : List (String × Node)) (index saved : List UInt8) :
    Disk :=
  shopOnDisk sources
    [("index.md", .file index), ("architecture.json", .file saved)]

theorem write_shopOnDisk (sources : List (String × Node))
    (index saved : List UInt8) :
    ∃ between, (shopOnDisk sources []).write "/shop/docs/index.md" index =
        .ok between ∧
      between.write "/shop/docs/architecture.json" saved =
        .ok (shopDocumented sources index saved) :=
  ⟨shopOnDisk sources [("index.md", .file index)], rfl, rfl⟩

theorem place_index_shopDocumented (sources : List (String × Node))
    (index saved : List UInt8) :
    (shopDocumented sources index saved).place true "/shop/docs/index.md" =
      .ok ["shop", "docs", "index.md"] := by
  rfl

theorem place_report_shopDocumented (sources : List (String × Node))
    (index saved : List UInt8) :
    (shopDocumented sources index saved).place true
        "/shop/docs/architecture.json" =
      .ok ["shop", "docs", "architecture.json"] := by
  rfl

theorem missesSources_shopDocumented (sources : List (String × Node))
    (index saved : List UInt8) :
    ∀ document ∈ ["/shop/docs/index.md", "/shop/docs/architecture.json"],
      MissesSources (shopDocumented sources index saved) "/shop" document := by
  intro document member place led
  left
  rcases List.mem_cons.mp member with rfl | other
  · rw [place_index_shopDocumented] at led
    cases led
    rfl
  · obtain rfl := List.mem_singleton.mp other
    rw [place_report_shopDocumented] at led
    cases led
    rfl

/-- A configuration by which an index is drawn into a directory. -/
def indexOnly : ProjectConfig :=
  { generators := { enabled := [] }, output := { directory := "docs" } }

/-- The disk of a project whose index is a link to a manifest that is missing. -/
def shopUnlinked : Disk :=
  shopOnDisk [] [("index.md", .link "../package.json")]

/-- The disk after the index was written through the link. -/
def shopLinked (index saved : List UInt8) : Disk :=
  shopOnDisk [("package.json", .file index)]
    [("index.md", .link "../package.json"), ("architecture.json", .file saved)]

theorem write_shopUnlinked (index saved : List UInt8) :
    ∃ between, shopUnlinked.write "/shop/docs/index.md" index = .ok between ∧
      between.write "/shop/docs/architecture.json" saved =
        .ok (shopLinked index saved) := by
  have led : shopUnlinked.place true "/shop/docs/index.md" =
      .ok ["shop", "package.json"] := by
    decide +kernel
  refine ⟨shopOnDisk [("package.json", .file index)]
    [("index.md", .link "../package.json")], ?_, rfl⟩
  rw [Disk.write, led]
  rfl

/-- Nothing is found as long as the manifest is missing. -/
theorem exists_survey_shopUnlinked :
    ∃ report, surveyProject {} true shopUnlinked "/shop" indexOnly =
        .ok (.finished report) ∧ report.results = [] := by
  obtain ⟨context, made⟩ :=
    @Context.exists_ofConfig_of_check indexOnly rfl shopUnlinked "/shop"
  have idle : ∀ scanner ∈ builtinScanners true,
      scanner.isApplicable context = false := by
    cases made
    decide +kernel
  have empty : (Survey.ofConfig (builtinRegistry true) indexOnly).plan context =
      [] := by
    apply List.eq_nil_iff_forall_not_mem.mpr
    intro scanner planned
    obtain ⟨member, applies⟩ := Survey.mem_plan_iff.mp planned
    rw [idle scanner (mem_builtinScanners_of_mem_ofConfig member)] at applies
    cases applies
  exact ⟨Survey.reportOf context [], surveyProject_eq_ok_iff.mpr ⟨context, made,
    Survey.run_of_plan_eq_nil (Context.previous_ofConfig made) empty⟩, rfl⟩

theorem isApplicable_shopLinked {index saved : List UInt8} {context : Context}
    (made : Context.ofConfig (shopLinked index saved) "/shop" indexOnly =
      .ok context) :
    Manifest.PackageJson.scanner.isApplicable context = true := by
  obtain ⟨glob, read, matched⟩ : ∃ glob,
      Glob.ofText "**/package.json" = .ok glob ∧
        glob.matchesPath (Listing.relativeText ["package.json"]) = true :=
    ⟨_, rfl, by decide +kernel⟩
  let entries : List (String × Node) :=
    [("docs", .directory
        [("index.md", .link "../package.json"),
          ("architecture.json", .file saved)]),
      ("package.json", .file index)]
  have has : (shopLinked index saved).HasDirectory "/shop" ["shop"] entries :=
    ⟨rfl, by decide, rfl⟩
  have listed : context.listing = .ok ((Listing.places [] entries).map
      (Listing.entryAt "/shop")) := by
    cases made
    change Listing.take _ (Context.absoluteRoot _ "/shop") [] = _
    rw [has.absoluteRoot_eq, has.take_eq]
  have inside : ["package.json"] ∈ Listing.places [] entries := by
    refine List.mem_filter.mpr ⟨List.mem_mergeSort.mpr ?_, rfl⟩
    exact List.mem_append_right _ List.mem_cons_self
  have found := Context.hasFiles_of_mem listed read inside matched
  change (["**/package.json"].any context.hasFiles &&
    ["**/package.json"].any context.hasFiles) = true
  simp [found]

/-- The index is taken for the manifest, whatever it says. -/
theorem results_shopLinked {index saved : List UInt8} {report : SurveyReport}
    (finished : surveyProject {} true (shopLinked index saved) "/shop"
      indexOnly = .ok (.finished report)) : report.results ≠ [] := by
  obtain ⟨context, made⟩ := @Context.exists_ofConfig_of_check indexOnly rfl
    (shopLinked index saved) "/shop"
  have punctual : ({} : Timing).OnTime
      (Survey.ofConfig (builtinRegistry true) indexOnly) :=
    ⟨by decide, fun _ _ => rfl, fun _ _ _ => rfl, fun _ _ => .refl _⟩
  have builtin : Manifest.PackageJson.scanner ∈ builtinScanners true := by
    simp [builtinScanners]
  have ran := mem_ran_ofConfig made builtin (by decide)
    (isApplicable_shopLinked made)
  rw [surveyProject_eq_reportOf_ran made punctual] at finished
  cases finished
  rw [Survey.results_reportOf_mergeInputs]
  exact List.ne_nil_of_mem (List.mem_map_of_mem ran)

end CommandLine

end ArchSurvey
