import ArchSurvey.CommandLine.Documents
import ArchSurvey.Proofs.Diagram.Generator
import ArchSurvey.Proofs.Disk.Writing
import ArchSurvey.Proofs.Text.Utf8
import Mathlib.Data.List.Nodup

/-!
# What is written

Where the generators cover the kinds, only the disk can keep documents from
being written.  Documents that are written are there, each with its own text,
unless the paths of two of them lead to one place.
-/

namespace ArchSurvey

namespace Generator

open Diagram

/-- The kinds that the generators draw. -/
def offers : List (Generator × DiagramKind) :=
  all.flatMap fun generator => generator.kinds.map (generator, ·)

/-- The name of the drawing of a kind that a generator draws. -/
def drawingName : Generator × DiagramKind → String
  | (diagrams, kind) => kind.name
  | (catalogs, .endpoints) => "api-catalog"
  | (catalogs, .component) => "component-catalog"
  | (catalogs, .dependencies) => "dependency-matrix"
  | (catalogs, .entities) => "data-catalog"
  | (catalogs, _) => "message-flows"

variable {options : DrawingOptions} {model : Model}

theorem offered_of_draw? {generator : Generator} {kind : DiagramKind}
    {drawing : Drawing}
    (drawn : generator.draw? options model kind = some drawing) :
    (generator, kind) ∈ offers ∧
      drawing.name = drawingName (generator, kind) := by
  cases generator <;> cases kind <;> cases drawn <;> exact ⟨by decide, rfl⟩

theorem nodup_drawingNames : (offers.map drawingName).Nodup := by
  decide

/-- Drawings of one model with one name are one drawing. -/
theorem eq_of_name_eq {generator generator' : Generator}
    {kind kind' : DiagramKind} {drawing drawing' : Drawing}
    (drawn : generator.draw? options model kind = some drawing)
    (drawn' : generator'.draw? options model kind' = some drawing')
    (same : drawing.name = drawing'.name) : drawing = drawing' := by
  obtain ⟨offered, name⟩ := offered_of_draw? drawn
  obtain ⟨offered', name'⟩ := offered_of_draw? drawn'
  have one : (generator, kind) = (generator', kind') :=
    List.inj_on_of_nodup_map nodup_drawingNames offered offered'
      (by rw [← name, ← name', same])
  cases one
  exact Option.some.inj (drawn.symm.trans drawn')

/-- No drawing takes the file of the index, and none leaves its directory. -/
theorem fileName_of_draw? {generator : Generator} {kind : DiagramKind}
    {drawing : Drawing}
    (drawn : generator.draw? options model kind = some drawing) :
    drawing.fileName ≠ "index.md" ∧
      Path.isAbsolute drawing.fileName = false := by
  obtain ⟨offered, name⟩ := offered_of_draw? drawn
  have each : ∀ name ∈ offers.map drawingName,
      name ++ ".md" ≠ "index.md" ∧ Path.isAbsolute (name ++ ".md") = false := by
    decide
  rw [Drawing.fileName, name]
  exact each _ (List.mem_map_of_mem offered)

end Generator

namespace CommandLine

/-- The disk is at fault. -/
def WriteError.IsFault : WriteError → Prop
  | notCreated _ _ => True
  | notWritten _ _ => True
  | drawing _ => False

/-- Texts are written to files one after the other. -/
inductive Writes : List (String × String) → Disk → Disk → Prop where
  | nil (disk : Disk) : Writes [] disk disk
  | cons {path text : String} {rest : List (String × String)}
      {disk next final : Disk} :
      disk.write path (Text.Utf8.encode text.toList) = .ok next →
      Writes rest next final → Writes ((path, text) :: rest) disk final

/-- A disk lets its directory or one of the files not be made; those before it
are. -/
inductive Prevents (directory : String) (files : List (String × String))
    (disk final : Disk) : WriteError → Prop where
  | directory {fault : Fault} :
      disk.makeDirectories directory = (.error fault, final) →
      Prevents directory files disk final (.notCreated directory fault)
  | file {made : Disk} {written rest : List (String × String)}
      {path text : String} {fault : Fault} :
      disk.makeDirectories directory = (.ok (), made) →
      files = written ++ (path, text) :: rest → Writes written made final →
      final.write path (Text.Utf8.encode text.toList) = .error fault →
      Prevents directory files disk final (.notWritten path fault)

theorem Prevents.isFault {directory : String} {files : List (String × String)}
    {disk final : Disk} {cause : WriteError}
    (prevents : Prevents directory files disk final cause) :
    cause.IsFault := by
  cases prevents <;> trivial

namespace Writes

variable {files : List (String × String)} {disk final : Disk}

theorem place (writes : Writes files disk final) {followLast : Bool}
    {other : String} {reached : List String}
    (led : disk.place followLast other = .ok reached) :
    final.place followLast other = .ok reached := by
  induction writes with
  | nil => exact led
  | cons written _ ih => exact ih (Disk.place_of_write written led)

theorem read (writes : Writes files disk final) {other : String}
    {reached : List String} (led : disk.place true other = .ok reached)
    (apart : ∀ file ∈ files, final.place true file.1 ≠ .ok reached) :
    final.read other = disk.read other := by
  induction writes with
  | nil => rfl
  | cons written later ih =>
      rw [ih (Disk.place_of_write written led)
        fun file member => apart file (List.mem_cons_of_mem _ member)]
      apply Disk.read_of_write_apart written led
      intro here
      exact apart _ List.mem_cons_self
        (later.place (Disk.place_of_write written here))

/-- A written text is read, unless another path leads to its place or it was
written over. -/
theorem readText (writes : Writes files disk final) {path text : String}
    (member : (path, text) ∈ files)
    (one : ∀ file ∈ files, file.1 = path → file.2 = text)
    (apart : ∀ file ∈ files, file.1 ≠ path →
      final.place true file.1 ≠ final.place true path) :
    final.readText path = .ok text.toList := by
  induction writes with
  | nil => cases member
  | @cons head _ rest start next _ written later ih =>
      by_cases again : path ∈ rest.map Prod.fst
      · obtain ⟨⟨_, other⟩, inRest, rfl⟩ := List.mem_map.mp again
        obtain rfl := one _ (List.mem_cons_of_mem _ inRest) rfl
        exact ih inRest
          (fun file inside => one file (List.mem_cons_of_mem _ inside))
          (fun file inside => apart file (List.mem_cons_of_mem _ inside))
      · rcases List.mem_cons.mp member with same | inRest
        · cases same
          obtain ⟨place, led, -⟩ := Disk.puts_of_write written
          have here := Disk.place_of_write written led
          have kept : _ = next.read path := later.read here (by
            intro file inside
            rw [← later.place here]
            apply apart file (List.mem_cons_of_mem _ inside)
            intro same
            exact again (same ▸ List.mem_map_of_mem inside))
          rw [Disk.readText, kept, Disk.read_of_write written]
          simp [bind, Except.bind, Text.Utf8.decode?_encode]
        · exact absurd (List.mem_map_of_mem inRest) again

end Writes

theorem isFault_of_writeText {path text : String} {disk : Disk}
    {cause : WriteError}
    (failed : (writeText path text disk).1 = .error cause) : cause.IsFault := by
  rw [writeText] at failed
  split at failed <;> cases failed
  trivial

theorem stops_of_writeAll {files : List (String × String)} {disk final : Disk}
    {cause : WriteError} (failed : writeAll files disk = (.error cause, final)) :
    ∃ written path text rest fault, files = written ++ (path, text) :: rest ∧
      Writes written disk final ∧
      final.write path (Text.Utf8.encode text.toList) = .error fault ∧
      cause = .notWritten path fault := by
  induction files generalizing disk with
  | nil => cases failed
  | cons file rest ih =>
      obtain ⟨path, text⟩ := file
      rw [writeAll, writeText] at failed
      cases wrote : disk.write path (Text.Utf8.encode text.toList) with
      | error fault =>
          rw [wrote] at failed
          cases failed
          exact ⟨[], path, text, rest, fault, rfl, .nil _, wrote, rfl⟩
      | ok next =>
          rw [wrote] at failed
          dsimp only at failed
          split at failed
          · next later =>
              cases failed
              obtain ⟨written, path', text', rest', fault, rfl, writes, refused,
                rfl⟩ := ih later
              exact ⟨(path, text) :: written, path', text', rest', fault, rfl,
                .cons wrote writes, refused, rfl⟩
          · cases failed

theorem writes_of_writeAll {files : List (String × String)}
    {disk final : Disk} {written : List String}
    (done : writeAll files disk = (.ok written, final)) :
    Writes files disk final ∧ written = files.map Prod.fst := by
  induction files generalizing disk written with
  | nil =>
      cases done
      exact ⟨.nil _, rfl⟩
  | cons file rest ih =>
      obtain ⟨path, text⟩ := file
      rw [writeAll, writeText] at done
      cases wrote : disk.write path (Text.Utf8.encode text.toList) with
      | error fault =>
          rw [wrote] at done
          cases done
      | ok next =>
          rw [wrote] at done
          dsimp only at done
          split at done
          · cases done
          · next later =>
              cases done
              obtain ⟨writes, rfl⟩ := ih later
              exact ⟨.cons wrote writes, rfl⟩

theorem writeAll_of_writes {files : List (String × String)} {disk final : Disk}
    (writes : Writes files disk final) :
    writeAll files disk = (.ok (files.map Prod.fst), final) := by
  induction writes with
  | nil => rfl
  | cons written _ ih =>
      rw [writeAll, writeText, written]
      dsimp only
      rw [ih]
      rfl

section

variable {plan : DrawingPlan} {directory : String} {model : Model}
  {quality : Option Quality} {disk : Disk}

theorem documents_eq_ok_iff {files : List (String × String)} :
    documents plan directory model quality = .ok files ↔
      ∃ drawings, Generator.drawAll plan.options model plan.generators
          plan.kinds = .ok drawings ∧
        files = (drawings.map (fun drawing =>
            (drawing.fileName, drawing.content)) ++
          if plan.withIndex then
            [("index.md", Diagram.textOfLines (Catalog.indexLines model quality
              (drawings.map Drawing.fileName)))]
          else []).map fun (name, text) => (Path.join directory name, text) := by
  rw [documents]
  cases Generator.drawAll plan.options model plan.generators plan.kinds with
  | error error => simp [bind, Except.bind]
  | ok drawings =>
      constructor
      · intro same
        exact ⟨drawings, rfl, (Except.ok.inj same).symm⟩
      · rintro ⟨_, same, rfl⟩
        cases same
        rfl

/-- Documents are had exactly if the generators cover the kinds. -/
theorem exists_documents_iff :
    (∃ files, documents plan directory model quality = .ok files) ↔
      Generator.Covers plan.generators plan.kinds := by
  rw [← @Generator.exists_drawAll_iff _ _ plan.options model]
  simp only [documents_eq_ok_iff]
  constructor
  · rintro ⟨files, drawings, drawn, -⟩
    exact ⟨drawings, drawn⟩
  · rintro ⟨drawings, drawn⟩
    exact ⟨_, drawings, drawn, rfl⟩

theorem join_injective {name name' : String}
    (relative : Path.isAbsolute name = false)
    (relative' : Path.isAbsolute name' = false)
    (same : Path.join directory name = Path.join directory name') :
    name = name' := by
  rw [Path.join, Path.join, relative, relative'] at same
  simp only [Bool.false_eq_true, if_false] at same
  split at same
  · exact same
  · split at same
    · exact (String.append_right_inj _).mp same
    · exact (String.append_right_inj _).mp same

/-- A path is that of one document. -/
theorem text_eq_of_mem {files : List (String × String)}
    (drawn : documents plan directory model quality = .ok files)
    {path text text' : String} (member : (path, text) ∈ files)
    (member' : (path, text') ∈ files) : text = text' := by
  obtain ⟨drawings, drawnAll, rfl⟩ := documents_eq_ok_iff.mp drawn
  have source {path text : String} (member : (path, text) ∈ (drawings.map
      (fun drawing => (drawing.fileName, drawing.content)) ++
        if plan.withIndex then
          [("index.md", Diagram.textOfLines (Catalog.indexLines model quality
            (drawings.map Drawing.fileName)))]
        else []).map fun (name, text) => (Path.join directory name, text)) :
      (∃ generator kind drawing,
          Generator.draw? generator plan.options model kind = some drawing ∧
          path = Path.join directory drawing.fileName ∧
          text = drawing.content) ∨
        path = Path.join directory "index.md" ∧
          text = Diagram.textOfLines (Catalog.indexLines model quality
            (drawings.map Drawing.fileName)) := by
    rw [List.map_append] at member
    rcases List.mem_append.mp member with drawn | index
    · rw [List.map_map] at drawn
      obtain ⟨drawing, among, same⟩ := List.mem_map.mp drawn
      obtain ⟨id, -, generator, -, kind, -, result⟩ :=
        (Generator.mem_iff_of_drawAll drawnAll).mp among
      cases same
      exact .inl ⟨generator, kind, drawing, result, rfl, rfl⟩
    · obtain ⟨entry, among, same⟩ := List.mem_map.mp index
      split at among
      · obtain rfl := List.mem_singleton.mp among
        cases same
        exact .inr ⟨rfl, rfl⟩
      · cases among
  have indexRelative : Path.isAbsolute "index.md" = false := by decide
  rcases source member with
    ⟨generator, kind, drawing, result, here, rfl⟩ | ⟨here, rfl⟩
  · have named := Generator.fileName_of_draw? result
    rcases source member' with
      ⟨generator', kind', drawing', result', here', rfl⟩ | ⟨here', rfl⟩
    · have named' := Generator.fileName_of_draw? result'
      have same := join_injective named.2 named'.2 (here.symm.trans here')
      rw [Generator.eq_of_name_eq result result'
        (String.append_left_inj ".md" |>.mp same)]
    · exact absurd
        (join_injective named.2 indexRelative (here.symm.trans here')) named.1
  · rcases source member' with
      ⟨generator', kind', drawing', result', here', rfl⟩ | ⟨here', rfl⟩
    · have named' := Generator.fileName_of_draw? result'
      exact absurd
        (join_injective named'.2 indexRelative (here'.symm.trans here))
        named'.1
    · rfl

/-- Each kind that is asked for has a document by one of the generators. -/
theorem exists_document_of_mem {files : List (String × String)}
    (drawn : documents plan directory model quality = .ok files)
    {kind : DiagramKind} (asked : kind ∈ plan.kinds) :
    ∃ id ∈ plan.generators, ∃ generator drawing,
      Generator.ofId? id = some generator ∧
      generator.draw? plan.options model kind = some drawing ∧
      (Path.join directory drawing.fileName, drawing.content) ∈ files := by
  have covers := exists_documents_iff.mp ⟨files, drawn⟩
  obtain ⟨id, chosen, generator, found, supports⟩ :=
    covers.supported kind asked
  obtain ⟨drawings, drawnAll, rfl⟩ := documents_eq_ok_iff.mp drawn
  have drawable := supports
  rw [Generator.supports_eq_isSome_draw? generator plan.options model]
    at drawable
  obtain ⟨drawing, result⟩ := Option.isSome_iff_exists.mp drawable
  refine ⟨id, chosen, generator, drawing, found, result, ?_⟩
  have member : drawing ∈ drawings :=
    (Generator.mem_iff_of_drawAll drawnAll).mpr ⟨id, chosen, generator, found,
      kind, Generator.mem_wanted_of_supports asked supports, result⟩
  rw [List.map_append]
  apply List.mem_append_left
  rw [List.map_map]
  exact List.mem_map_of_mem member

/-- What the generators cover is kept from being written by the disk only. -/
theorem prevents_of_writeDocuments
    (covers : Generator.Covers plan.generators plan.kinds) {disk final : Disk}
    {cause : WriteError}
    (failed : writeDocuments plan directory model quality disk =
      (.error cause, final)) :
    ∃ files, documents plan directory model quality = .ok files ∧
      Prevents directory files disk final cause := by
  obtain ⟨files, drawn⟩ :
      ∃ files, documents plan directory model quality = .ok files :=
    exists_documents_iff.mpr covers
  refine ⟨files, drawn, ?_⟩
  rw [writeDocuments, makeDirectories] at failed
  cases made : disk.makeDirectories directory with
  | mk result start =>
      rw [made] at failed
      cases result with
      | error fault =>
          cases failed
          exact .directory made
      | ok =>
          rw [drawn] at failed
          obtain ⟨written, path, text, rest, fault, split, writes, refused,
            rfl⟩ := stops_of_writeAll failed
          exact .file made split writes refused

theorem writes_of_writeDocuments {disk final : Disk} {written : List String}
    (done : writeDocuments plan directory model quality disk =
      (.ok written, final)) :
    ∃ made files, disk.makeDirectories directory = (.ok (), made) ∧
      documents plan directory model quality = .ok files ∧
      Writes files made final ∧ written = files.map Prod.fst := by
  rw [writeDocuments, makeDirectories] at done
  cases made : disk.makeDirectories directory with
  | mk result start =>
      rw [made] at done
      cases result with
      | error fault => cases done
      | ok =>
          cases drawn : documents plan directory model quality with
          | error error =>
              rw [drawn] at done
              cases done
          | ok files =>
              rw [drawn] at done
              exact ⟨start, files, rfl, rfl, writes_of_writeAll done⟩

end

end CommandLine

end ArchSurvey
