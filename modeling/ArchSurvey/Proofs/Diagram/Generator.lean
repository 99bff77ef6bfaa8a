import ArchSurvey.Diagram.Generator
import ArchSurvey.Proofs.Lists

/-!
# What is drawn

Drawing fails for the choice of generators and kinds only, never for a model or
an option.  What is drawn are the drawings of the kinds that are asked for by
the generators that draw them.
-/

namespace ArchSurvey.Generator

open Diagram

variable {ids : List String} {kinds : List DiagramKind}
  {options : DrawingOptions} {model : Model}

/-- Generators are known, and each kind is drawn by one of them. -/
structure Covers (ids : List String) (kinds : List DiagramKind) : Prop where
  known : ∀ id ∈ ids, ∃ generator, ofId? id = some generator
  supported : ∀ kind ∈ kinds, ∃ id ∈ ids, ∃ generator,
    ofId? id = some generator ∧ generator.supports kind = true

/-- The generator with an identity, or the identity that none has. -/
def named (id : String) : Except DrawingError Generator :=
  match ofId? id with
  | some generator => .ok generator
  | none => .error (.unknownGenerator id)

theorem named_eq_ok_iff {id : String} {generator : Generator} :
    named id = .ok generator ↔ ofId? id = some generator := by
  rw [named]
  cases ofId? id <;> simp

theorem resolve_eq_bind :
    resolve ids kinds = (ids.mapM named).bind fun found =>
      match kinds.find? fun kind => !found.any fun generator =>
          generator.supports kind with
      | some kind => .error (.unsupported ids kind)
      | none => .ok found :=
  rfl

theorem resolve_eq_ok_iff {generators : List Generator} :
    resolve ids kinds = .ok generators ↔
      ids.mapM named = .ok generators ∧
        ∀ kind ∈ kinds, ∃ generator ∈ generators,
          generator.supports kind = true := by
  rw [resolve_eq_bind]
  cases resolved : ids.mapM named with
  | error error => simp [Except.bind]
  | ok found =>
      cases missing : kinds.find? fun kind => !found.any fun generator =>
          generator.supports kind with
      | some kind =>
          have absent : (found.any fun generator =>
              generator.supports kind) = false := by
            simpa using List.find?_some missing
          constructor
          · intro impossible
            simp [Except.bind, missing] at impossible
          · rintro ⟨same, covered⟩
            cases same
            obtain ⟨generator, member, supports⟩ :=
              covered kind (List.mem_of_find?_eq_some missing)
            rw [List.any_eq_false] at absent
            exact absurd supports (absent generator member)
      | none =>
          have covered : ∀ kind ∈ kinds, ∃ generator ∈ found,
              generator.supports kind = true := by
            intro kind member
            simpa using List.find?_eq_none.mp missing kind member
          simp only [Except.bind, missing]
          constructor
          · intro same
            cases same
            exact ⟨rfl, covered⟩
          · rintro ⟨same, -⟩
            exact same

theorem mem_iff_of_resolve {generators : List Generator}
    (resolved : resolve ids kinds = .ok generators) {generator : Generator} :
    generator ∈ generators ↔ ∃ id ∈ ids, ofId? id = some generator := by
  rw [mem_iff_of_mapM_eq_ok (resolve_eq_ok_iff.mp resolved).1]
  simp only [named_eq_ok_iff]

theorem exists_resolve_iff :
    (∃ generators, resolve ids kinds = .ok generators) ↔ Covers ids kinds := by
  constructor
  · rintro ⟨generators, resolved⟩
    have among {generator : Generator} : generator ∈ generators ↔
        ∃ id ∈ ids, ofId? id = some generator := mem_iff_of_resolve resolved
    obtain ⟨named, covered⟩ := resolve_eq_ok_iff.mp resolved
    constructor
    · intro id member
      obtain ⟨generator, found⟩ :=
        exists_mapM_eq_ok_iff.mp ⟨generators, named⟩ id member
      exact ⟨generator, named_eq_ok_iff.mp found⟩
    · intro kind member
      obtain ⟨generator, inside, supports⟩ := covered kind member
      obtain ⟨id, chosen, found⟩ := among.mp inside
      exact ⟨id, chosen, generator, found, supports⟩
  · rintro ⟨known, supported⟩
    have each : ∀ id ∈ ids, ∃ generator, named id = .ok generator := by
      intro id member
      obtain ⟨generator, found⟩ := known id member
      exact ⟨generator, named_eq_ok_iff.mpr found⟩
    obtain ⟨generators, resolved⟩ := exists_mapM_eq_ok_iff.mpr each
    refine ⟨generators, resolve_eq_ok_iff.mpr ⟨resolved, ?_⟩⟩
    intro kind member
    obtain ⟨id, chosen, generator, found, supports⟩ := supported kind member
    refine ⟨generator, ?_, supports⟩
    exact (mem_iff_of_mapM_eq_ok resolved).mpr
      ⟨id, chosen, named_eq_ok_iff.mpr found⟩

theorem draw_eq_ok_iff {generator : Generator} {kind : DiagramKind}
    {drawing : Drawing} :
    generator.draw options model kind = .ok drawing ↔
      generator.draw? options model kind = some drawing := by
  rw [draw]
  cases generator.draw? options model kind <;> simp

/-- What a generator is to draw, it draws. -/
theorem supports_of_mem_wanted {generator : Generator} {kind : DiagramKind}
    (member : kind ∈ generator.wanted kinds) :
    generator.supports kind = true := by
  rw [wanted] at member
  split at member
  · exact List.contains_iff_mem.mpr member
  · exact (List.mem_filter.mp member).2

theorem mem_wanted_of_supports {generator : Generator} {kind : DiagramKind}
    (asked : kind ∈ kinds) (supports : generator.supports kind = true) :
    kind ∈ generator.wanted kinds := by
  rw [wanted, if_neg]
  · exact List.mem_filter.mpr ⟨asked, supports⟩
  · intro none
    rw [List.isEmpty_iff.mp none] at asked
    cases asked

theorem exists_draw_of_mem_wanted {generator : Generator} {kind : DiagramKind}
    (member : kind ∈ generator.wanted kinds) :
    ∃ drawing, generator.draw options model kind = .ok drawing := by
  have drawn := supports_of_mem_wanted member
  rw [supports_eq_isSome_draw? generator options model] at drawn
  obtain ⟨drawing, found⟩ := Option.isSome_iff_exists.mp drawn
  exact ⟨drawing, draw_eq_ok_iff.mpr found⟩

theorem drawAll_eq_ok_iff {drawings : List Drawing} :
    drawAll options model ids kinds = .ok drawings ↔
      ∃ generators sheets, resolve ids kinds = .ok generators ∧
        (generators.mapM fun generator =>
          (generator.wanted kinds).mapM (generator.draw options model)) =
            .ok sheets ∧
        drawings = sheets.flatten := by
  rw [drawAll]
  cases resolve ids kinds with
  | error error => simp [bind, Except.bind]
  | ok generators =>
      cases drawn : generators.mapM fun generator =>
          (generator.wanted kinds).mapM (generator.draw options model) with
      | error error => simp [bind, Except.bind, drawn]
      | ok sheets =>
          simp [bind, Except.bind, drawn, pure, Except.pure, eq_comm]

/-- Drawing succeeds whenever the generators cover the kinds, whatever the
model and the options. -/
theorem exists_drawAll_iff :
    (∃ drawings, drawAll options model ids kinds = .ok drawings) ↔
      Covers ids kinds := by
  rw [← exists_resolve_iff]
  constructor
  · rintro ⟨drawings, drawn⟩
    obtain ⟨generators, -, resolved, -⟩ := drawAll_eq_ok_iff.mp drawn
    exact ⟨generators, resolved⟩
  · rintro ⟨generators, resolved⟩
    have each : ∀ generator ∈ generators, ∃ sheet,
        (generator.wanted kinds).mapM (generator.draw options model) =
          .ok sheet := by
      intro generator _
      exact exists_mapM_eq_ok_iff.mpr fun _ => exists_draw_of_mem_wanted
    obtain ⟨sheets, drawn⟩ := exists_mapM_eq_ok_iff.mpr each
    exact ⟨sheets.flatten,
      drawAll_eq_ok_iff.mpr ⟨generators, sheets, resolved, drawn, rfl⟩⟩

/-- The drawings are those of the chosen generators for what they are to
draw. -/
theorem mem_iff_of_drawAll {drawings : List Drawing}
    (drawn : drawAll options model ids kinds = .ok drawings)
    {drawing : Drawing} :
    drawing ∈ drawings ↔ ∃ id ∈ ids, ∃ generator,
      ofId? id = some generator ∧ ∃ kind ∈ generator.wanted kinds,
        generator.draw? options model kind = some drawing := by
  obtain ⟨generators, sheets, resolved, sheetsDrawn, rfl⟩ :=
    drawAll_eq_ok_iff.mp drawn
  rw [List.mem_flatten]
  constructor
  · rintro ⟨sheet, inside, member⟩
    obtain ⟨generator, among, sheetDrawn⟩ :=
      (mem_iff_of_mapM_eq_ok sheetsDrawn).mp inside
    obtain ⟨id, chosen, found⟩ := (mem_iff_of_resolve resolved).mp among
    obtain ⟨kind, wanted, result⟩ :=
      (mem_iff_of_mapM_eq_ok sheetDrawn).mp member
    exact ⟨id, chosen, generator, found, kind, wanted,
      draw_eq_ok_iff.mp result⟩
  · rintro ⟨id, chosen, generator, found, kind, wanted, result⟩
    have among := (mem_iff_of_resolve resolved).mpr ⟨id, chosen, found⟩
    obtain ⟨sheet, sheetDrawn⟩ :=
      exists_mapM_eq_ok_iff.mp ⟨sheets, sheetsDrawn⟩ generator among
    refine ⟨sheet, ?_, ?_⟩
    · exact (mem_iff_of_mapM_eq_ok sheetsDrawn).mpr
        ⟨generator, among, sheetDrawn⟩
    · exact (mem_iff_of_mapM_eq_ok sheetDrawn).mpr
        ⟨kind, wanted, draw_eq_ok_iff.mpr result⟩

end ArchSurvey.Generator
