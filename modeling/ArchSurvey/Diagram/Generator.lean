import ArchSurvey.Catalog.Basic
import ArchSurvey.Diagram.Document

/-!
# Generators

The two ways of showing a model: as diagrams and as catalogs.  Every kind of diagram that is asked
for is drawn by each chosen generator that draws it, and by at least one.
-/

namespace ArchSurvey

open Diagram Catalog

/-- The generators of documents. -/
inductive Generator where
  | diagrams
  | catalogs
  deriving DecidableEq, Repr

/-- A document with the name of its file. -/
structure Drawing where
  name : String
  content : String
  deriving DecidableEq, Repr

/-- The name of the file of a document. -/
def Drawing.fileName (drawing : Drawing) : String :=
  drawing.name ++ ".md"

namespace Generator

/-- Every generator. -/
def all : List Generator :=
  [diagrams, catalogs]

/-- The identity of a generator. -/
def id : Generator → String
  | diagrams => "mermaid"
  | catalogs => "markdown"

/-- The name of a generator as readers know it. -/
def title : Generator → String
  | diagrams => "Mermaid Diagram Generator"
  | catalogs => "Markdown Documentation Generator"

/-- The generator with an identity. -/
def ofId? (id : String) : Option Generator :=
  all.find? fun generator => generator.id == id

/-- The kinds that a generator draws. -/
def kinds : Generator → List DiagramKind
  | diagrams => [.context, .container, .component, .dependencies, .entities, .flows, .sequence]
  | catalogs => [.endpoints, .component, .dependencies, .entities, .flows]

/-- Whether a generator draws a kind. -/
def supports (generator : Generator) (kind : DiagramKind) : Bool :=
  generator.kinds.contains kind

/-- The name and the content of the catalog of a kind that there is one of. -/
def catalog? (model : Model) : DiagramKind → Option (String × Page)
  | .endpoints => some ("api-catalog", endpointCatalog model)
  | .component => some ("component-catalog", componentCatalog model)
  | .dependencies => some ("dependency-matrix", dependencyCatalog model)
  | .entities => some ("data-catalog", entityCatalog model)
  | .flows => some ("message-flows", flowCatalog model)
  | _ => none

/-- The drawing of a kind that the generator draws. -/
def draw? (generator : Generator) (options : DrawingOptions) (model : Model)
    (kind : DiagramKind) : Option Drawing :=
  match generator with
  | diagrams => (document? options model kind).map fun content => ⟨kind.name, content⟩
  | catalogs => (catalog? model kind).map fun (name, catalog) =>
      ⟨name, textOfLines catalog.lines⟩

/-- Draws a model. -/
def draw (generator : Generator) (options : DrawingOptions) (model : Model) (kind : DiagramKind) :
    Except DrawingError Drawing :=
  match generator.draw? options model kind with
  | some drawing => .ok drawing
  | none => .error (.unsupported [generator.id] kind)

/-- The generators with the identities, provided that each kind is drawn by one of them. -/
def resolve (ids : List String) (kinds : List DiagramKind) :
    Except DrawingError (List Generator) := do
  let generators ← ids.mapM fun id =>
    match ofId? id with
    | some generator => .ok generator
    | none => .error (.unknownGenerator id)
  match kinds.find? fun kind => !generators.any fun generator => generator.supports kind with
  | some kind => .error (.unsupported ids kind)
  | none => .ok generators

/-- The kinds that a generator is to draw when some are asked for; asking for none is asking for
all. -/
def wanted (generator : Generator) (asked : List DiagramKind) : List DiagramKind :=
  if asked.isEmpty then generator.kinds else asked.filter generator.supports

/-- Draws every kind that is asked for with every generator that draws it. -/
def drawAll (options : DrawingOptions) (model : Model) (ids : List String)
    (asked : List DiagramKind) : Except DrawingError (List Drawing) := do
  let generators ← resolve ids asked
  let drawings ← generators.mapM fun generator =>
    (generator.wanted asked).mapM (generator.draw options model)
  return drawings.flatten

/-- A generator draws the kinds that it supports. -/
theorem supports_eq_isSome_draw? (generator : Generator) (options : DrawingOptions)
    (model : Model) (kind : DiagramKind) :
    generator.supports kind = (generator.draw? options model kind).isSome := by
  cases generator <;> cases kind <;> rfl

end Generator

end ArchSurvey
