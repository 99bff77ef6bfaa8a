import ArchSurvey.Proofs.Disk.Path
import ArchSurvey.Proofs.Scan.Relocation
import ArchSurvey.Proofs.Text.Split
import ArchSurvey.Source.Path
import ArchSurvey.Survey.Builtin

/-!
# Moving a project under the built-in scanners

The built-in scanners look at paths below the root of a project, with one
exception: the filters for test code and for foreign code are given absolute
paths.  So they hide a whole project that stands below a directory of that kind,
and the findings of six scanners depend on where a project is checked out.
-/

/-!
## Laws of source paths

A source path below a root names a directory, or looks like that of test code,
if the path of the root does or the path from the root on does.  All else that
is read off a source path is read off its end.
-/

namespace ArchSurvey.Source

open ArchSurvey.Path (IsName LooksBelow SplitsAtRoot ofPlace slashed)

/-- What marks the path of test code. -/
def testMarkers : List String :=
  ["/src/test/", "/tests/", "/__tests__/"]

/-- A text with slashes in place of backslashes. -/
def withSlashes (text : List Char) : List Char :=
  text.map fun c => if c == '\\' then '/' else c

/-- Whether all paths below a directory look like that of test code. -/
def isTestRoot (root : String) : Bool :=
  testMarkers.any fun marker =>
    Text.occursIn marker.toList (withSlashes root.toList ++ ['/'])

/-- Whether the name of a file looks like that of test code. -/
def isTestName (name : List Char) : Bool :=
  Text.startsWith "test_".toList name || name == "conftest.py".toList ||
    Text.endsWith "_test.py".toList name ||
    Text.endsWith "_test.go".toList name ||
    Text.occursIn ".test.".toList name || Text.occursIn ".spec.".toList name

theorem isTestPath_eq (path : String) :
    isTestPath path =
      (isTestName (Path.fileName path).toList ||
        testMarkers.any fun marker =>
          Text.occursIn marker.toList (withSlashes path.toList)) := by
  rw [Bool.or_comm]
  simp only [isTestPath, isTestName, testMarkers, withSlashes, Bool.or_assoc]

theorem looksBelow_moduleName : LooksBelow moduleName :=
  Path.looksBelow_stem

/-- An ending without slashes is one of the file name. -/
theorem looksBelow_endsWith {ending : List Char} (free : '/' ∉ ending) :
    LooksBelow fun path => Text.endsWith ending path.toList := by
  intro parent name below nonempty _
  rcases List.eq_nil_or_concat below with rfl | ⟨before, last, rfl⟩
  · exact absurd rfl nonempty
  · have ends (above : List String) :
        Text.endsWith ending (ofPlace (above ++ [last])).toList =
          Text.endsWith ending last.toList := by
      rw [Path.toList_ofPlace (by simp), Path.slashed_append,
        Path.slashed_cons, Path.slashed_nil, List.append_nil,
        Text.endsWith_append_cons free]
    dsimp only
    rw [List.concat_eq_append, ← List.cons_append, ← List.append_assoc,
      ends (parent ++ name :: before), ends (name :: before)]

theorem splitsAtRoot_isBelow (directory : String) :
    SplitsAtRoot (isBelow directory) (isBelow directory) := by
  intro parent name below _ proper
  obtain ⟨properParent, properBelow⟩ := List.forall_mem_append.mp proper
  have properRoot : ∀ part ∈ parent ++ [name], IsName part := by
    refine List.forall_mem_append.mpr ⟨properParent, ?_⟩
    rw [List.forall_mem_singleton]
    exact properBelow name List.mem_cons_self
  rw [isBelow, isBelow, isBelow, Path.names_ofPlace proper,
    Path.names_ofPlace properRoot, Path.names_ofPlace properBelow,
    Bool.eq_iff_iff]
  simp only [List.contains_eq_mem, decide_eq_true_eq, Bool.or_eq_true,
    List.mem_append, List.mem_cons, List.not_mem_nil, or_false]
  constructor
  · rintro (above | here | inside)
    · exact Or.inl (Or.inl above)
    · exact Or.inr (Or.inl here)
    · exact Or.inr (Or.inr inside)
  · rintro ((above | here) | here | inside)
    · exact Or.inl above
    · exact Or.inr (Or.inl here)
    · exact Or.inr (Or.inl here)
    · exact Or.inr (Or.inr inside)

/-- No marker is long enough to reach from above a root to below it. -/
theorem splitsAtRoot_marker {marker : String} (known : marker ∈ testMarkers) :
    SplitsAtRoot
      (fun path => Text.occursIn marker.toList (withSlashes path.toList))
      fun root =>
        Text.occursIn marker.toList (withSlashes root.toList ++ ['/']) := by
  intro parent name below nonempty _
  have few : marker.toList.tail.dropLast.count '/' ≤ 1 := by
    revert marker
    decide
  obtain ⟨inner, rest, rfl⟩ := List.exists_cons_of_ne_nil nonempty
  have whole := Text.infix_section_iff (withSlashes (slashed parent))
    (withSlashes name.toList) (withSlashes (inner.toList ++ slashed rest)) few
  dsimp only
  rw [Path.toList_ofPlace (by simp), Path.toList_ofPlace (by simp),
    Path.toList_ofPlace (by simp), Path.slashed_append, Path.slashed_append,
    Bool.eq_iff_iff, Bool.or_eq_true, Text.occursIn_iff, Text.occursIn_iff,
    Text.occursIn_iff]
  simpa [withSlashes] using whole

theorem splitsAtRoot_isTestPath : SplitsAtRoot isTestPath isTestRoot := by
  have named := Path.looksBelow_fileName.map fun name => isTestName name.toList
  have marked := SplitsAtRoot.any fun _ => splitsAtRoot_marker
  rw [funext isTestPath_eq]
  exact named.or marked

end ArchSurvey.Source

/-!
## Scans by the built-in scanners
-/

namespace ArchSurvey

open ArchSurvey.Path (IsName LooksBelow SplitsAtRoot ofPlace)
open Source (isTestRoot isTestPath isBelow)

/-- Whether a scanner refuses every file below a root for the path of the root
alone. -/
def hidesRoot (scanner root : String) : Bool :=
  match scanner with
  | "express-routes" => isBelow "node_modules" root || isTestRoot root
  | "go-http-router" => isBelow "vendor" root || isTestRoot root
  | "flask-routes" => isTestRoot root
  | "spring-rest-api" => isTestRoot root
  | "jpa-entities" => isTestRoot root
  | "kafka-consumer" => isTestRoot root
  | _ => false

/-- An engine sees below a root if its refusals split there and all else that it
reads off a path lies below. -/
theorem TierEngine.seesBelow_of_refuses {α : Type} {engine : TierEngine α}
    {refuses hides : String → Bool} (splits : SplitsAtRoot refuses hides)
    (accepts : ∀ path, engine.accepts path = .finished (!refuses path))
    (extract : LooksBelow engine.extract)
    (fallback : LooksBelow engine.fallback) : engine.SeesBelow hides := by
  refine ⟨?_, extract, fallback⟩
  have refused :
      (fun path => !(engine.accepts path).getD false) = refuses := by
    funext path
    rw [accepts, Attempt.getD_finished, Bool.not_not]
  rw [refused]
  exact splits

/-- Nothing is refused. -/
theorem splitsAtRoot_none : SplitsAtRoot (fun _ => false) fun _ => false :=
  (LooksBelow.const false).splitsAtRoot

/-! ### Manifests -/

theorem Manifest.Pom.movesWith :
    Manifest.Pom.scanner.MovesWith fun _ => false := by
  apply Scanner.movesWith_of_sweep (fun _ => Manifest.Pom.engine)
    Manifest.Pom.patterns (fun _ => Findings.concat)
  · intro context
    exact TierEngine.seesBelow_of_refuses splitsAtRoot_none (fun _ => rfl)
      (fun _ _ _ _ _ => rfl) (fun _ _ _ _ _ => rfl)
  · exact fun _ _ _ _ _ => ⟨rfl, rfl⟩
  · exact fun _ => rfl

theorem Manifest.GoModule.movesWith :
    Manifest.GoModule.scanner.MovesWith fun _ => false := by
  apply Scanner.movesWith_of_sweep (fun _ => Manifest.GoModule.engine)
    Manifest.GoModule.patterns (fun _ => Findings.concat)
  · intro context
    exact TierEngine.seesBelow_of_refuses splitsAtRoot_none (fun _ => rfl)
      (fun _ _ _ _ _ => rfl) (fun _ _ _ _ _ => rfl)
  · exact fun _ _ _ _ _ => ⟨rfl, rfl⟩
  · exact fun _ => rfl

/-- A package without a name is called after its directory, which lies below
the root or is the root. -/
theorem Manifest.PackageJson.movesWith :
    Manifest.PackageJson.scanner.MovesWith fun _ => false := by
  apply Scanner.movesWith_of_sweep
    (fun context => Manifest.PackageJson.engine
      (Manifest.PackageJson.includesDev context))
    Manifest.PackageJson.patterns (fun _ => Findings.concat)
  · intro context
    apply TierEngine.seesBelow_of_refuses splitsAtRoot_none (fun _ => rfl)
      (fun _ _ _ _ _ => rfl)
    intro parent name below nonempty proper
    funext text
    have title (manifest : Manifest.PackageJson.Package) :
        manifest.title (ofPlace (parent ++ name :: below)) =
          manifest.title (ofPlace (name :: below)) := by
      rw [Manifest.PackageJson.Package.title,
        Manifest.PackageJson.Package.title,
        Path.looksBelow_parentName? _ _ _ nonempty proper]
    simp only [Manifest.PackageJson.engine,
      Manifest.PackageJson.Package.findings,
      Manifest.PackageJson.Package.component, title]
  · exact fun _ _ _ _ _ => ⟨rfl, rfl⟩
  · exact fun _ => rfl

theorem Manifest.PythonPackages.movesWith :
    Manifest.PythonPackages.scanner.MovesWith fun _ => false := by
  apply Scanner.movesWith_of_sweep
    (fun context =>
      Manifest.PythonPackages.engine (Project.own context "Python").id)
    Manifest.PythonPackages.patterns
    (fun context found =>
      let findings := Findings.concat found
      { findings with
        components := findings.components ++
          if findings.dependencies.isEmpty then []
          else [Project.own context "Python"] })
  · intro context
    apply TierEngine.seesBelow_of_refuses splitsAtRoot_none (fun _ => rfl)
      (fun _ _ _ _ _ => rfl)
    intro parent name below nonempty proper
    funext text
    simp only [Manifest.PythonPackages.engine, Manifest.PythonPackages.read,
      Path.looksBelow_fileName _ _ _ nonempty proper]
  · exact fun _ _ _ _ _ => ⟨rfl, rfl⟩
  · exact fun _ => rfl

/-! ### Sources -/

theorem Route.Decorated.movesWith (parser : Grammar.StructuralParser) :
    (Route.Decorated.scanner parser).MovesWith isTestRoot := by
  apply Scanner.movesWith_of_sweep
    (fun context =>
      Route.Decorated.engine parser (Project.own context "Flask"))
    Route.Decorated.patterns (fun _ => Findings.concat)
  · intro context
    apply TierEngine.seesBelow_of_refuses Source.splitsAtRoot_isTestPath
      (fun _ => rfl)
    · intro parent name below nonempty proper
      funext occurrences
      simp only [Route.Decorated.engine,
        Source.looksBelow_moduleName _ _ _ nonempty proper]
    · intro parent name below nonempty proper
      funext text
      simp only [Route.Decorated.engine,
        Source.looksBelow_moduleName _ _ _ nonempty proper]
  · exact fun _ _ _ _ _ => ⟨rfl, rfl⟩
  · exact fun _ => rfl

theorem Route.Controller.movesWith (parser : Grammar.StructuralParser) :
    (Route.Controller.scanner parser).MovesWith isTestRoot := by
  apply Scanner.movesWith_of_sweep
    (fun context =>
      Route.Controller.engine parser (Project.own context "Spring Boot"))
    Route.Controller.patterns (fun _ => Findings.concat)
  · intro context
    exact TierEngine.seesBelow_of_refuses Source.splitsAtRoot_isTestPath
      (fun _ => rfl) (fun _ _ _ _ _ => rfl) (fun _ _ _ _ _ => rfl)
  · exact fun _ _ _ _ _ => ⟨rfl, rfl⟩
  · exact fun _ => rfl

theorem Entity.Mapped.movesWith (parser : Grammar.StructuralParser) :
    (Entity.Mapped.scanner parser).MovesWith isTestRoot := by
  apply Scanner.movesWith_of_sweep
    (fun context =>
      Entity.Mapped.engine parser (Project.database context "JPA"))
    Entity.Mapped.patterns
    (fun context found =>
      let findings := Findings.concat found
      { findings with
        relationships := findings.relationships ++
          if findings.entities.isEmpty then []
          else
            [Entity.Mapped.usage context (Project.database context "JPA")] })
  · intro context
    exact TierEngine.seesBelow_of_refuses Source.splitsAtRoot_isTestPath
      (fun _ => rfl) (fun _ _ _ _ _ => rfl) (fun _ _ _ _ _ => rfl)
  · exact fun _ _ _ _ _ => ⟨rfl, rfl⟩
  · exact fun _ => rfl

theorem Messaging.Topic.movesWith :
    Messaging.Topic.scanner.MovesWith isTestRoot := by
  apply Scanner.movesWith_of_sweep
    (fun context => Messaging.Topic.engine (Project.ownId context))
    Messaging.Topic.patterns
    (fun context found =>
      Messaging.Topic.withTopology context (Findings.concat found))
  · intro context
    apply TierEngine.seesBelow_of_refuses Source.splitsAtRoot_isTestPath
      (fun _ => rfl) (fun _ _ _ _ _ => rfl)
    intro parent name below nonempty proper
    funext text
    simp only [Messaging.Topic.engine, Messaging.Topic.flowsOf,
      Path.looksBelow_extension? _ _ _ nonempty proper]
  · exact fun _ _ _ _ _ => ⟨rfl, rfl⟩
  · exact fun _ => rfl

/-- A file without a package clause is called after its directory. -/
theorem Route.Grouped.movesWith (parser : Grammar.StructuralParser) :
    (Route.Grouped.scanner parser).MovesWith fun root =>
      isBelow "vendor" root || isTestRoot root := by
  apply Scanner.movesWith_of_sweep
    (fun context => Route.Grouped.engine parser (Project.own context "Go"))
    Route.Grouped.patterns
    (fun _ found => Route.withoutRepeatedComponents (Findings.concat found))
  · intro context
    have refuses := (Source.splitsAtRoot_isBelow "vendor").or
      Source.splitsAtRoot_isTestPath
    apply TierEngine.seesBelow_of_refuses refuses
    · intro path
      have accepts : (Route.Grouped.engine parser
          (Project.own context "Go")).accepts path =
            .finished (Route.Grouped.isRouteSource path) := rfl
      rw [accepts, Route.Grouped.isRouteSource, Bool.not_or, Bool.and_comm]
    · intro parent name below nonempty proper
      funext occurrences
      simp only [Route.Grouped.engine, Route.Grouped.ofOccurrences,
        Route.Grouped.directoryName,
        Path.looksBelow_parentName? _ _ _ nonempty proper]
    · intro parent name below nonempty proper
      funext text
      simp only [Route.Grouped.engine, Route.Grouped.ofSource,
        Route.Grouped.directoryName,
        Path.looksBelow_parentName? _ _ _ nonempty proper]
  · exact fun _ _ _ _ _ => ⟨rfl, rfl⟩
  · exact fun _ => rfl

theorem Route.Call.seesBelow (parser : Grammar.StructuralParser)
    (component : Component) :
    (Route.Call.engine parser component).SeesBelow fun root =>
      isBelow "node_modules" root || isTestRoot root := by
  have named := Path.looksBelow_fileName.map fun name =>
    Text.endsWith ".d.ts".toList name.toList ||
      Text.endsWith ".min.js".toList name.toList
  have refuses := (named.or (Source.splitsAtRoot_isBelow "node_modules")).or
    Source.splitsAtRoot_isTestPath
  apply TierEngine.seesBelow_of_refuses refuses (fun _ => rfl)
  · intro parent name below nonempty proper
    funext occurrences
    simp only [Route.Call.engine,
      Source.looksBelow_moduleName _ _ _ nonempty proper]
  · intro parent name below nonempty proper
    funext text
    simp only [Route.Call.engine,
      Source.looksBelow_moduleName _ _ _ nonempty proper]

/-- The scan of the files of both languages. -/
theorem Route.Call.scan_of_found
    {javaScript typeScript : Grammar.StructuralParser} {context : Context}
    {files typedFiles : List String}
    (found : context.findFiles "**/*.js" = .ok files)
    (typedFound : context.findFiles "**/*.ts" = .ok typedFiles) :
    Route.Call.scan javaScript typeScript context =
      let component := Project.own context "Express"
      let reading := bothReadings (files.length + typedFiles.length)
        ((Route.Call.engine javaScript component).parseFiles context files)
        ((Route.Call.engine typeScript component).parseFiles context typedFiles)
      .ok (Sweep.finish "express-routes"
        (Route.withoutRepeatedComponents
          (Findings.concat reading.1.1 ++ Findings.concat reading.1.2))
        reading.2) := by
  rw [Route.Call.scan, found, typedFound]
  rfl

theorem Route.Call.scan_scanner
    (javaScript typeScript : Grammar.StructuralParser) (context : Context) :
    (Route.Call.scanner javaScript typeScript).scan context =
      .finished (.ofOutcome "express-routes"
        (Route.Call.scan javaScript typeScript context)) :=
  rfl

/-- Two sweeps, one for each language, see the same roots. -/
theorem Route.Call.movesWith
    (javaScript typeScript : Grammar.StructuralParser) :
    (Route.Call.scanner javaScript typeScript).MovesWith fun root =>
      isBelow "node_modules" root || isTestRoot root := by
  intro name entries wellFormed here there view
  refine ⟨_, _, Route.Call.scan_scanner _ _ _, Route.Call.scan_scanner _ _ _, ?_⟩
  have finds (checkout : Checkout name entries) (pattern : String) :=
    checkout.findFiles_context view wellFormed pattern
  cases plain : Listing.placesMatching view.excludes entries "**/*.js" with
  | error error =>
      rw [Route.Call.scan, Route.Call.scan, finds here, finds there, plain]
      exact agrees_failed_iff "express-routes" error
  | ok places =>
      cases typed : Listing.placesMatching view.excludes entries "**/*.ts" with
      | error error =>
          rw [Route.Call.scan, Route.Call.scan, finds here, finds there,
            finds here, finds there, plain, typed]
          exact agrees_failed_iff "express-routes" error
      | ok typedPlaces =>
          have listed := Listing.placesMatching_subset plain
          have typedListed := Listing.placesMatching_subset typed
          have found (checkout : Checkout name entries) :
              (checkout.context view).findFiles "**/*.js" =
                .ok (places.map checkout.file) := by
            rw [finds, plain]
            rfl
          have typedFound (checkout : Checkout name entries) :
              (checkout.context view).findFiles "**/*.ts" =
                .ok (typedPlaces.map checkout.file) := by
            rw [finds, typed]
            rfl
          let component := Project.own (there.context view) "Express"
          have sees := Route.Call.seesBelow javaScript component
          have typedSees := Route.Call.seesBelow typeScript component
          have below (checkout : Checkout name entries) :=
            (sees.readsBelow_parseFiles wellFormed checkout view listed).both
              (typedSees.readsBelow_parseFiles wellFormed checkout view
                typedListed)
              (places.length + typedPlaces.length)
          rw [Route.Call.scan_of_found (found here) (typedFound here),
            Route.Call.scan_of_found (found there) (typedFound there)]
          simp only [List.length_map]
          exact agrees_finish_iff (below here) (below there)
            (fun alike =>
              (sees.sameReading_parseFiles wellFormed here there view listed
                alike).both
              (typedSees.sameReading_parseFiles wellFormed here there view
                typedListed alike)
              (places.length + typedPlaces.length))
            "express-routes"
            (fun found => Route.withoutRepeatedComponents
              (Findings.concat found.1 ++ Findings.concat found.2))

/-- Scripts are read and put in order by their file names. -/
theorem Schema.movesWith_migration :
    Schema.migrationScanner.MovesWith fun _ => false := by
  apply Scanner.movesWith_of_sweep (fun _ => Schema.migrationEngine)
    Schema.scriptPatterns
    (fun context scripts =>
      let database := Project.database context "SQL"
      let entities :=
        (Schema.replayInOrder scripts).map (Schema.Table.entity database.id)
      { components := if entities.isEmpty then [] else [database], entities })
  · intro context
    have free : '/' ∉ ".down.sql".toList := by decide
    have backward := (Source.looksBelow_endsWith free).splitsAtRoot
    apply TierEngine.seesBelow_of_refuses backward (fun _ => rfl)
      (fun _ _ _ _ _ => rfl)
    intro parent name below nonempty proper
    funext text
    simp only [Schema.migrationEngine, Schema.readMigration,
      Schema.ScriptOrder.ofPath, Path.looksBelow_fileName _ _ _ nonempty proper]
  · exact fun _ _ _ _ _ => ⟨rfl, rfl⟩
  · exact fun _ => rfl

/-- Every built-in scanner moves with the roots that it hides. -/
theorem movesWith_of_mem_builtinScanners {grammars : Bool} {scanner : Scanner}
    (member : scanner ∈ builtinScanners grammars) :
    scanner.MovesWith (hidesRoot scanner.id) := by
  simp only [builtinScanners, List.mem_cons, List.not_mem_nil, or_false]
    at member
  rcases member with rfl | rfl | rfl | rfl | rfl | rfl | rfl | rfl | rfl | rfl |
    rfl
  · exact Manifest.Pom.movesWith
  · exact Manifest.PackageJson.movesWith
  · exact Manifest.PythonPackages.movesWith
  · exact Manifest.GoModule.movesWith
  · exact Route.Decorated.movesWith _
  · exact Route.Controller.movesWith _
  · exact Route.Call.movesWith _ _
  · exact Route.Grouped.movesWith _
  · exact Entity.Mapped.movesWith _
  · exact Schema.movesWith_migration
  · exact Messaging.Topic.movesWith

/-- A small project. -/
def shop : List (String × Node) :=
  [("app.py", .file (Text.Utf8.encode
    "from flask import Flask\napp = Flask(__name__)\n".toList))]

theorem wellFormed_shop : (Node.directory shop).WellFormed := by
  have isName : IsName "app.py" := by decide
  rw [shop, Node.WellFormed, Node.EntriesWellFormed]
  exact ⟨isName, by simp, by rw [Node.WellFormed]; trivial,
    by rw [Node.EntriesWellFormed]; trivial⟩

/-- The small project in a directory at the top of a disk. -/
def shopIn (parent : String) (isName : IsName parent) : Checkout "shop" shop :=
  have proper : ∀ part ∈ [parent, "shop"], IsName part := by
    intro part member
    rw [List.mem_cons, List.mem_singleton] at member
    rcases member with rfl | rfl
    · exact isName
    · decide
  let disk : Disk :=
    { tree := .directory [(parent, .directory [("shop", .directory shop)])]
      current := [] }
  have stands : disk.tree.at? [parent, "shop"] = some (.directory shop) := by
    simp [disk, Node.at?, Node.entry?]
  { disk
    path := ofPlace [parent, "shop"]
    parent := [parent]
    proper
    stands
    leads := Disk.place_ofPlace proper stands (by simp) true }

theorem placesMore_shop :
    Listing.placesMore [] shop [] Route.Decorated.patterns =
      .ok [["app.py"]] := by
  let sources : Glob :=
    ⟨"**/*.py", [.leadingDirectories, .zeroOrMore, .literal '.', .literal 'p',
      .literal 'y']⟩
  have read : Glob.ofText "**/*.py" = .ok sources := rfl
  have matched :
      sources.matchesPath (Listing.relativeText ["app.py"]) = true := by
    decide +kernel
  have places : Listing.places [] shop = [["app.py"]] := by
    have files : (Node.directory shop).filePlaces Listing.skipped =
        [["app.py"]] := rfl
    rw [Listing.places, files, List.mergeSort_singleton]
    rfl
  simp [Route.Decorated.patterns, Listing.placesMore, Listing.placesMatching,
    read, places, matched, Except.map, List.eraseDups_cons]

/-- The only source of the small project is scanned unless it looks like a
test. -/
theorem scanned_shopIn {parser : Grammar.StructuralParser} {parent : String}
    {isName : IsName parent} {result : ScanResult}
    (scans : (Route.Decorated.scanner parser).scan
      ((shopIn parent isName).context { projectName := "shop" }) =
        .finished result) :
    result.statistics.scanned =
      if isTestPath (ofPlace [parent, "shop", "app.py"]) then 0 else 1 := by
  have found : ((shopIn parent isName).context
      { projectName := "shop" }).findFilesAny Route.Decorated.patterns =
        .ok [ofPlace [parent, "shop", "app.py"]] := by
    rw [Checkout.findFilesAny_context _ _ wellFormed_shop, placesMore_shop]
    rfl
  change Attempt.finished (ScanResult.ofOutcome "flask-routes"
    ((Route.Decorated.engine parser (Project.service "shop" "Flask")).sweep
      "flask-routes" Route.Decorated.patterns Findings.concat _)) = _ at scans
  rw [TierEngine.sweep, found] at scans
  cases scans
  change (TierEngine.parseFiles _ _ _).2.scanned = _
  rw [TierEngine.scanned_parseFiles (fun _ _ => rfl), List.countP_singleton]
  change (if (!isTestPath _) = true then 1 else 0) = _
  cases isTestPath (ofPlace [parent, "shop", "app.py"]) <;> rfl

end ArchSurvey
