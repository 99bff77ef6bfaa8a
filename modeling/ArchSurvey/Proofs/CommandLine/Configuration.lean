import ArchSurvey.CommandLine.Run
import ArchSurvey.Proofs.CommandLine.Documents
import ArchSurvey.Proofs.Config.Check

/-!
# Configurations that are fit for use

A configuration passes its checks exactly if everything that is done with it
later succeeds, and only configurations that pass are loaded.  So what is wrong
with a configuration never comes up after the scan.
-/

namespace ArchSurvey

namespace ProjectConfig

/-- What a configuration asks for can be had: its kinds of diagram are known and
drawn of every model in every style, and what it leaves out can be told for
every project. -/
structure Usable (config : ProjectConfig) : Prop where
  drawable : ∃ kinds,
    DiagramKind.ofTexts config.generators.diagrams = .ok kinds ∧
      ∀ (options : Diagram.DrawingOptions) (model : Model), ∃ drawings,
        Generator.drawAll options model config.generators.enabled kinds =
          .ok drawings
  excludable : ∀ (disk : Disk) (root : String), ∃ context,
    Context.withExcludes disk root config.scan.exclude = .ok context

theorem covers_of_check {config : ProjectConfig}
    (passes : config.check = .ok ()) : ∃ kinds,
      DiagramKind.ofTexts config.generators.diagrams = .ok kinds ∧
        Generator.Covers config.generators.enabled kinds := by
  obtain ⟨-, -, -, diagrams, -⟩ := check_eq_ok_iff.mp passes
  exact checkDiagrams_eq_ok_iff.mp diagrams

theorem exists_withExcludes_iff {disk : Disk} {root : String}
    {patterns : List String} :
    (∃ context, Context.withExcludes disk root patterns = .ok context) ↔
      checkExcludes patterns = .ok () := by
  rw [checkExcludes_eq_ok_iff, Context.withExcludes]
  cases patterns.mapM Glob.ofText with
  | error error => simp [bind, Except.bind]
  | ok globs => simp [bind, Except.bind, pure, Except.pure]

/-- With time and known groups, a configuration passes exactly if it can be
used. -/
theorem check_eq_ok_iff_usable {config : ProjectConfig}
    (time : config.scan.timeoutSeconds ≠ 0)
    (groups : ∀ group ∈ config.scanners.groups, group ∈ Groups.names) :
    config.check = .ok () ↔ config.Usable := by
  constructor
  · intro passes
    obtain ⟨kinds, known, covers⟩ := covers_of_check passes
    obtain ⟨-, -, -, -, excludes⟩ := check_eq_ok_iff.mp passes
    refine ⟨⟨kinds, known, ?_⟩, ?_⟩
    · intro options model
      exact Generator.exists_drawAll_iff.mpr covers
    · intro disk root
      exact exists_withExcludes_iff.mpr excludes
  · rintro ⟨⟨kinds, known, drawn⟩, excludable⟩
    have covers : Generator.Covers config.generators.enabled kinds :=
      Generator.exists_drawAll_iff.mp (drawn {} { projectName := "" })
    apply check_eq_ok_iff.mpr
    refine ⟨time, checkGroups_eq_ok_iff.mpr groups,
      checkGenerators_eq_ok_iff.mpr covers.known,
      checkDiagrams_eq_ok_iff.mpr ⟨kinds, known, covers⟩, ?_⟩
    exact exists_withExcludes_iff.mp (excludable ⟨.emptyDirectory, []⟩ "/")

/-- A loaded configuration passes. -/
theorem check_load (disk : Disk) (root : String) (explicit : Option String) :
    (load disk root explicit).check = .ok () := by
  have default : ({} : ProjectConfig).check = .ok () := by rfl
  rw [load]
  cases found : (explicit.or (discover? disk root)).bind (fitFile? disk) with
  | none => exact default
  | some config =>
      obtain ⟨path, -, fit⟩ := Option.bind_eq_some_iff.mp found
      rw [fitFile?] at fit
      split at fit
      · cases fit
      · split at fit
        · cases fit
        · next checked =>
            cases fit
            exact checked

end ProjectConfig

namespace CommandLine

/-- After a scan with a loaded configuration, only the disk keeps documents and
report from being written. -/
theorem isFault_of_writeSurvey {session : Session} {request : ScanRequest}
    {disk : Disk} {root directory : String} {report : SurveyReport}
    {start : Disk} {cause : WriteError}
    (failed : (writeSurvey session (request.configure disk root) directory
      report start).1 = .error cause) : cause.IsFault := by
  obtain ⟨kinds, known, covers⟩ := ProjectConfig.covers_of_check
    (ProjectConfig.check_load disk root request.config)
  rw [writeSurvey] at failed
  split at failed
  · next unplanned =>
      have planned : ∃ plan,
          drawingPlan (request.configure disk root) = .ok plan := by
        rw [drawingPlan, ScanRequest.configure, known]
        exact ⟨_, rfl⟩
      obtain ⟨plan, planned⟩ := planned
      rw [planned] at unplanned
      cases unplanned
  · next plan planned =>
      rw [drawingPlan, ScanRequest.configure, known] at planned
      cases planned
      split at failed
      · next stopped =>
          cases failed
          obtain ⟨files, -, prevents⟩ :=
            prevents_of_writeDocuments covers stopped
          exact prevents.isFault
      · dsimp only at failed
        split at failed
        · next stopped =>
            cases failed
            exact isFault_of_writeText (congrArg Prod.fst stopped)
        · cases failed

end CommandLine

end ArchSurvey

/-!
## Requests to generate documents

A request that cannot be answered leaves the disk as it was.  One that can be
answered writes each type of diagram that it asks for, unless the disk keeps it
from doing so.
-/

namespace ArchSurvey.CommandLine

variable {disk : Disk} {request : GenerateRequest}

/-- A request can be answered: its input is a report or a model, the types and
the generators are known, and each type is drawn by one of the generators. -/
structure GenerateRequest.Answerable (disk : Disk) (request : GenerateRequest) :
    Prop where
  readable : ∃ text value, disk.readText request.input = .ok text ∧
    Json.parseChars? text = some value ∧
      ((∃ report, ReportDocument.ofJson? value = some report) ∨
        ∃ model, Model.ofJson? value = some model)
  typesKnown : ∀ type ∈ request.types, ∃ kind, DiagramKind.ofText type = .ok kind
  generatorsKnown : ∀ id ∈ request.chosenGenerators, ∃ generator,
    Generator.ofId? id = some generator
  typesDrawn : ∀ type ∈ request.types, ∀ kind,
    DiagramKind.ofText type = .ok kind →
      ∃ id ∈ request.chosenGenerators, ∃ generator,
        Generator.ofId? id = some generator ∧ generator.supports kind = true

theorem isSome_ofDocument?_iff {value : Json} :
    (Model.ofDocument? value).isSome ↔
      (∃ report, ReportDocument.ofJson? value = some report) ∨
        ∃ model, Model.ofJson? value = some model := by
  rw [Model.ofDocument?]
  cases ReportDocument.ofJson? value with
  | some report => simp
  | none => simp [Option.isSome_iff_exists]

theorem exists_load_iff {path : String} :
    (∃ loaded, Model.load disk path = .ok loaded) ↔
      ∃ text value, disk.readText path = .ok text ∧
        Json.parseChars? text = some value ∧
          ((∃ report, ReportDocument.ofJson? value = some report) ∨
            ∃ model, Model.ofJson? value = some model) := by
  rw [Model.load]
  cases disk.readText path with
  | error fault => simp
  | ok text =>
      simp only [Except.ok.injEq, exists_and_left, exists_eq_left',
        ← isSome_ofDocument?_iff]
      cases parsed : Json.parseChars? text with
      | none => simp
      | some value =>
          simp only [Option.bind_some, Option.some.injEq, exists_eq_left']
          cases Model.ofDocument? value with
          | none => simp
          | some loaded => simp

/-- The kinds are had exactly if the types are known and the generators cover
them. -/
theorem kinds_eq_ok_iff {kinds : List DiagramKind} :
    request.kinds = .ok kinds ↔ DiagramKind.ofTexts request.types = .ok kinds ∧
      Generator.Covers request.chosenGenerators kinds := by
  have config : ({ generators := { enabled := request.chosenGenerators
                                   diagrams := request.types } } :
      ProjectConfig).check = .ok () ↔
        ∃ kinds, DiagramKind.ofTexts request.types = .ok kinds ∧
          Generator.Covers request.chosenGenerators kinds := by
    rw [ProjectConfig.check_eq_ok_iff, ProjectConfig.checkDiagrams_eq_ok_iff,
      ProjectConfig.checkGenerators_eq_ok_iff]
    constructor
    · rintro ⟨-, -, -, drawable, -⟩
      exact drawable
    · rintro ⟨kinds, known, covers⟩
      have time : ({} : ScanSettings).timeoutSeconds ≠ 0 := by decide
      exact ⟨time, rfl, covers.known, ⟨kinds, known, covers⟩, rfl⟩
  rw [GenerateRequest.kinds]
  cases known : DiagramKind.ofTexts request.types with
  | error error => simp [Except.mapError, bind, Except.bind]
  | ok found =>
      rw [known] at config
      simp only [Except.ok.injEq, exists_eq_left'] at config
      simp only [Except.mapError, bind, Except.bind, pure, Except.pure]
      split
      · next unfit =>
          have uncovered :
              ¬ Generator.Covers request.chosenGenerators found := by
            intro covers
            rw [config.mpr covers] at unfit
            cases unfit
          simp only [reduceCtorEq, false_iff, not_and]
          rintro same
          cases same
          exact uncovered
      · next fit =>
          split at fit
          · cases fit
          · next passes =>
              have covers := config.mp passes
              simp only [Except.ok.injEq]
              constructor
              · rintro rfl
                exact ⟨rfl, covers⟩
              · rintro ⟨same, -⟩
                exact same

theorem GenerateRequest.answerable_iff :
    request.Answerable disk ↔
      (∃ loaded, Model.load disk request.input = .ok loaded) ∧
        ∃ kinds, request.kinds = .ok kinds := by
  rw [exists_load_iff]
  simp only [kinds_eq_ok_iff]
  constructor
  · rintro ⟨readable, typesKnown, generatorsKnown, typesDrawn⟩
    obtain ⟨kinds, known⟩ := exists_mapM_eq_ok_iff.mpr typesKnown
    refine ⟨readable, kinds, known, generatorsKnown, ?_⟩
    intro kind member
    obtain ⟨type, asked, same⟩ := (mem_iff_of_mapM_eq_ok known).mp member
    exact typesDrawn type asked kind same
  · rintro ⟨readable, kinds, known, covers⟩
    refine ⟨readable, exists_mapM_eq_ok_iff.mp ⟨kinds, known⟩, covers.known, ?_⟩
    intro type asked kind same
    exact covers.supported kind
      ((mem_iff_of_mapM_eq_ok known).mpr ⟨type, asked, same⟩)

/-- The files hold a drawing of the kind by one of the generators, and it is
read back unless the path of another file leads to its place. -/
def Delivers (generators : List String) (directory : String)
    (files : List (String × String)) (final : Disk) (model : Model)
    (kind : DiagramKind) : Prop :=
  ∃ id ∈ generators, ∃ generator drawing,
    Generator.ofId? id = some generator ∧
    generator.draw? {} model kind = some drawing ∧
    (Path.join directory drawing.fileName, drawing.content) ∈ files ∧
    ((∀ file ∈ files, file.1 ≠ Path.join directory drawing.fileName →
        final.place true file.1 ≠
          final.place true (Path.join directory drawing.fileName)) →
      final.readText (Path.join directory drawing.fileName) =
        .ok drawing.content.toList)

theorem delivers_of_writes {generators : List String} {directory : String}
    {kinds : List DiagramKind} {withIndex : Bool} {model : Model}
    {quality : Option Quality} {files : List (String × String)}
    {start final : Disk}
    (drawn : documents { generators, kinds, withIndex } directory model quality =
      .ok files)
    (writes : Writes files start final) {kind : DiagramKind}
    (asked : kind ∈ kinds) :
    Delivers generators directory files final model kind := by
  obtain ⟨id, chosen, generator, drawing, found, result, member⟩ :=
    exists_document_of_mem drawn asked
  refine ⟨id, chosen, generator, drawing, found, result, member, ?_⟩
  intro apart
  refine writes.readText member ?_ apart
  rintro ⟨path, text⟩ inside rfl
  exact text_eq_of_mem drawn inside member

theorem runGenerate_of_not_answerable {session : Session}
    (unfit : ¬ request.Answerable session.disk) :
    (runGenerate session request).exitCode = exitError ∧
      (runGenerate session request).output = "" ∧
      (runGenerate session request).disk = session.disk := by
  rw [GenerateRequest.answerable_iff] at unfit
  rw [runGenerate]
  cases loaded : Model.load session.disk request.input with
  | error error => exact ⟨rfl, rfl, rfl⟩
  | ok found =>
      cases asked : request.kinds with
      | error message => exact ⟨rfl, rfl, rfl⟩
      | ok kinds => exact absurd ⟨⟨found, loaded⟩, kinds, asked⟩ unfit

/-- A request that cannot be answered changes nothing.  Of one that can be
answered, every document is written, or the disk refuses one. -/
theorem runGenerate_spec (session : Session) (request : GenerateRequest) :
    (¬ request.Answerable session.disk →
      (runGenerate session request).exitCode = exitError ∧
        (runGenerate session request).output = "" ∧
        (runGenerate session request).disk = session.disk) ∧
    (request.Answerable session.disk →
      ∃ model quality kinds files,
        Model.load session.disk request.input = .ok (model, quality) ∧
        DiagramKind.ofTexts request.types = .ok kinds ∧
        documents { generators := request.chosenGenerators, kinds
                    withIndex := request.types.isEmpty }
          request.directory model quality = .ok files ∧
        ((∃ cause, Prevents request.directory files session.disk
              (runGenerate session request).disk cause ∧
            (runGenerate session request).exitCode = exitError ∧
            (runGenerate session request).output = "" ∧
            (runGenerate session request).errors =
              ["Error: " ++ cause.message]) ∨
          ((runGenerate session request).exitCode = exitSuccess ∧
            (runGenerate session request).output =
              Console.linesText (files.map fun file => "Wrote " ++ file.1) ∧
            (runGenerate session request).errors = [] ∧
            (∃ made, session.disk.makeDirectories request.directory =
                (.ok (), made) ∧
              Writes files made (runGenerate session request).disk) ∧
            ∀ kind ∈ kinds, Delivers request.chosenGenerators request.directory
              files (runGenerate session request).disk model kind))) := by
  refine ⟨runGenerate_of_not_answerable, ?_⟩
  intro fit
  obtain ⟨⟨⟨model, quality⟩, loaded⟩, kinds, asked⟩ :=
    GenerateRequest.answerable_iff.mp fit
  obtain ⟨known, covers⟩ := kinds_eq_ok_iff.mp asked
  rw [runGenerate, loaded]
  simp only [asked]
  cases written : writeDocuments
      { generators := request.chosenGenerators, kinds
        withIndex := request.types.isEmpty }
      request.directory model quality session.disk with
  | mk result final =>
      cases result with
      | error cause =>
          obtain ⟨files, drawn, prevents⟩ :=
            prevents_of_writeDocuments covers written
          exact ⟨model, quality, kinds, files, rfl, known, drawn,
            .inl ⟨cause, prevents, rfl, rfl, rfl⟩⟩
      | ok paths =>
          obtain ⟨made, files, directory, drawn, writes, rfl⟩ :=
            writes_of_writeDocuments written
          refine ⟨model, quality, kinds, files, rfl, known, drawn,
            .inr ⟨rfl, ?_, rfl, ⟨made, directory, writes⟩, ?_⟩⟩
          · simp [Session.answer, List.map_map, Function.comp_def]
          · intro kind member
            exact delivers_of_writes drawn writes member

/-- From the model of a shop its entities are drawn, and nothing is drawn of an
unknown type. -/
theorem runGenerate_spec_entities :
    let shop := "\x7b\"project_name\": \"shop\"\x7d"
    let session : Session :=
      { disk :=
          { tree := .directory [("shop.json",
              .file (Text.Utf8.encode shop.toList))]
            current := [] } }
    let request : GenerateRequest :=
      { input := "/shop.json", types := ["er-diagram"], output := some "/docs" }
    (runGenerate session { request with types := ["class"] }).disk =
      session.disk ∧
    ∃ files, Delivers ["mermaid", "markdown"] "/docs" files
      (runGenerate session request).disk { projectName := "shop" } .entities := by
  intro shop session request
  have model : Model.load session.disk "/shop.json" =
      .ok ({ projectName := "shop" }, none) := by
    decide +kernel
  have unfit : ¬ GenerateRequest.Answerable session.disk
      { request with types := ["class"] } := by
    intro fit
    obtain ⟨kind, known⟩ := fit.typesKnown "class" List.mem_cons_self
    cases known
  have fit : request.Answerable session.disk := by
    apply GenerateRequest.answerable_iff.mpr
    exact ⟨⟨_, model⟩, [.entities], by decide +kernel⟩
  have done : (runGenerate session request).exitCode = exitSuccess := by
    decide +kernel
  refine ⟨((runGenerate_spec session _).1 unfit).2.2, ?_⟩
  obtain ⟨found, quality, kinds, files, loaded, known, -, ends⟩ :=
    (runGenerate_spec session request).2 fit
  cases model.symm.trans loaded
  have one : DiagramKind.ofTexts ["er-diagram"] = .ok [.entities] := by
    decide +kernel
  cases one.symm.trans known
  rcases ends with ⟨cause, -, failed, -⟩ | ⟨-, -, -, -, delivered⟩
  · rw [done] at failed
    cases failed
  · exact ⟨files, delivered .entities List.mem_cons_self⟩

end ArchSurvey.CommandLine
