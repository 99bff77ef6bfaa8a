import ArchSurvey.Proofs.Diagram.Names
import ArchSurvey.Proofs.Model.FirstByKey

/-!
# References between entities

A field that refers to a text is to point at an entity of that name, and at one
whose name is the plural only where there is none of that name.  The look-up
takes the first entity of either name, so the order of the entities decides
which it is, unless no entities have both names.
-/

namespace ArchSurvey.Diagram

open Text

/-- An entity has a name, whatever the letter case. -/
def IsNamed (name : String) (entity : DataEntity) : Prop :=
  lowerString entity.name = lowerString name

/-- An entity has the plural of a name, whatever the letter case. -/
def IsPlural (name : String) (entity : DataEntity) : Prop :=
  lowerString entity.name = lowerString name ++ "s"

instance (name : String) : DecidablePred (IsPlural name) := fun _ =>
  inferInstanceAs (Decidable (_ = _))

/-- The diagram draws a relation for a field, and to the block of an entity. -/
def PointsAt (model : Model) (entity : DataEntity) (field : Field)
    (target : DataEntity) : Prop :=
  ∃ relation ∈ (entityDiagram model).relations,
    fieldRelation? model.entities entity field = some relation ∧
      relation.one = blockName target.name

/-- What a field that refers to a name is to point at: an entity of that name
and none of the plural; where there is none of that name, one of the plural;
and else nothing. -/
structure FollowsReference (model : Model) (entity : DataEntity) (field : Field)
    (name : String) : Prop where
  exact : (∃ target ∈ model.entities, IsNamed name target) →
    (∃ target ∈ model.entities, IsNamed name target ∧
      PointsAt model entity field target) ∧
    ∀ other ∈ model.entities, IsPlural name other →
      ¬ PointsAt model entity field other
  plural : (∀ target ∈ model.entities, ¬ IsNamed name target) →
    (∃ target ∈ model.entities, IsPlural name target) →
    ∃ target ∈ model.entities, IsPlural name target ∧
      PointsAt model entity field target
  nothing : (∀ target ∈ model.entities,
      ¬ IsNamed name target ∧ ¬ IsPlural name target) →
    fieldRelation? model.entities entity field = none

/-- Where an entity has a name, one that has it stands in front of each that has
the plural. -/
def NamedFirst (name : String) (entities : List DataEntity) : Prop :=
  (∃ target ∈ entities, IsNamed name target) →
    ∀ front other back, entities = front ++ other :: back →
      IsPlural name other → ∃ target ∈ front, IsNamed name target

/-! ## The look-up -/

section

variable {name : String} {entities : List DataEntity} {target : DataEntity}

/-- An entity and one whose name is the plural have blocks of different
names. -/
theorem IsNamed.blockName_ne {other : DataEntity} (named : IsNamed name target)
    (plural : IsPlural name other) :
    blockName other.name ≠ blockName target.name := by
  have ending : "s" ≠ "" := by decide
  refine blockName_ne_of_lowerString ?_ ending
  rw [plural, named]

/-- The look-up takes the first entity of either name. -/
theorem entityNamed?_eq_some_iff :
    entityNamed? entities name = some target ↔
      (IsNamed name target ∨ IsPlural name target) ∧
        ∃ front back, entities = front ++ target :: back ∧
          ∀ other ∈ front, ¬ IsNamed name other ∧ ¬ IsPlural name other := by
  rw [entityNamed?, List.find?_eq_some_iff_append]
  simp [IsNamed, IsPlural]

theorem entityNamed?_eq_none_iff :
    entityNamed? entities name = none ↔
      ∀ other ∈ entities, ¬ IsNamed name other ∧ ¬ IsPlural name other := by
  rw [entityNamed?, List.find?_eq_none]
  simp [IsNamed, IsPlural]

theorem exists_entityNamed?
    (either : IsNamed name target ∨ IsPlural name target)
    (shown : target ∈ entities) :
    ∃ found, entityNamed? entities name = some found := by
  cases looked : entityNamed? entities name with
  | some found => exact ⟨found, rfl⟩
  | none =>
      obtain ⟨unnamed, single⟩ :=
        entityNamed?_eq_none_iff.mp looked target shown
      exact absurd either (not_or.mpr ⟨unnamed, single⟩)

/-- Names come first exactly if the entity that is found has the name itself
where some entity has it. -/
theorem namedFirst_iff :
    NamedFirst name entities ↔
      ((∃ target ∈ entities, IsNamed name target) →
        ∀ found, entityNamed? entities name = some found →
          IsNamed name found) := by
  constructor
  · intro first some found looked
    obtain ⟨either, front, back, split, none⟩ :=
      entityNamed?_eq_some_iff.mp looked
    rcases either with named | plural
    · exact named
    · obtain ⟨target, inFront, named⟩ :=
        first some front found back split plural
      exact absurd named (none target inFront).1
  · intro finds some front other back split plural
    have shown : other ∈ entities := by simp [split]
    obtain ⟨found, looked⟩ := exists_entityNamed? (.inr plural) shown
    have named := finds some found looked
    obtain ⟨-, front', back', split', none⟩ :=
      entityNamed?_eq_some_iff.mp looked
    -- The entity that is found stands in front of every other of either name.
    rcases List.append_eq_append_iff.mp (split.symm.trans split') with
      ⟨between, extends', rest⟩ | ⟨between, extends', rest⟩
    · cases between with
      | nil =>
          obtain ⟨rfl, -⟩ := List.cons.inj rest
          exact absurd rfl (named.blockName_ne plural)
      | cons first between =>
          obtain ⟨rfl, -⟩ := List.cons.inj rest
          have inFront : other ∈ front' := by simp [extends']
          exact absurd plural (none other inFront).2
    · cases between with
      | nil =>
          obtain ⟨rfl, -⟩ := List.cons.inj rest
          exact absurd rfl (named.blockName_ne plural)
      | cons first between =>
          obtain ⟨rfl, -⟩ := List.cons.inj rest
          exact ⟨found, by simp [extends'], named⟩

/-- In every order names come first exactly if no entity has the plural of a
name that another has. -/
theorem namedFirst_every_order_iff :
    (∀ order, order.Perm entities → NamedFirst name order) ↔
      ((∃ target ∈ entities, IsNamed name target) →
        ∀ other ∈ entities, ¬ IsPlural name other) := by
  constructor
  · rintro first ⟨target, shown, named⟩ other member plural
    have order : (other :: entities.erase other).Perm entities :=
      (List.perm_cons_erase member).symm
    obtain ⟨early, inFront, -⟩ := first _ order
      ⟨target, order.mem_iff.mpr shown, named⟩ [] other _ rfl plural
    cases inFront
  · rintro apart order perm ⟨target, shown, named⟩ front other back split plural
    have member : other ∈ entities := perm.mem_iff.mp (by simp [split])
    exact absurd plural
      (apart ⟨target, perm.mem_iff.mp shown, named⟩ other member)

end

section

variable {model : Model} {entity : DataEntity} {field : Field} {name : String}
  (refers : field.references = some name)

include refers

theorem fieldRelation?_of_refers :
    fieldRelation? model.entities entity field =
      (entityNamed? model.entities name).map fun target =>
        ⟨blockName target.name, blockName entity.name, label field.name⟩ := by
  rw [fieldRelation?, referencedEntity?, refers]
  rfl

variable (shown : entity ∈ model.entities) (has : field ∈ entity.fields)

include shown has

/-- A field that refers to a name points at the entity that is found, or at
any other whose block has the same name. -/
theorem pointsAt_iff {target : DataEntity} :
    PointsAt model entity field target ↔
      ∃ found, entityNamed? model.entities name = some found ∧
        blockName found.name = blockName target.name := by
  rw [PointsAt, fieldRelation?_of_refers refers]
  constructor
  · rintro ⟨relation, -, drawn, points⟩
    obtain ⟨found, looked, rfl⟩ := Option.map_eq_some_iff.mp drawn
    exact ⟨found, looked, points⟩
  · rintro ⟨found, looked, same⟩
    refine ⟨_, ?_, Option.map_eq_some_iff.mpr ⟨found, looked, rfl⟩, same⟩
    refine mem_firstByKey_id.mpr (List.mem_flatMap.mpr ⟨entity, shown, ?_⟩)
    refine List.mem_filterMap.mpr ⟨field, has, ?_⟩
    rw [fieldRelation?_of_refers refers, looked]
    rfl

/-- In a given order a field follows its reference exactly if the first entity
of either name has the name itself, where some entity has it. -/
theorem followsReference_iff :
    FollowsReference model entity field name ↔
      NamedFirst name model.entities := by
  have points {target : DataEntity} :
      PointsAt model entity field target ↔ _ :=
    pointsAt_iff refers shown has
  rw [namedFirst_iff]
  constructor
  · intro follows some found looked
    obtain ⟨⟨target, -, named, pointed⟩, -⟩ := follows.exact some
    obtain ⟨found', looked', same⟩ := points.mp pointed
    obtain rfl : found = found' := Option.some.inj (looked.symm.trans looked')
    -- The block of what is found is that of the name, so it is no plural.
    rcases (entityNamed?_eq_some_iff.mp looked).1 with named | plural
    · exact named
    · exact absurd same (named.blockName_ne plural)
  · intro finds
    constructor
    · rintro ⟨target, member, named⟩
      obtain ⟨found, looked⟩ := exists_entityNamed? (.inl named) member
      have foundNamed := finds ⟨target, member, named⟩ found looked
      refine ⟨⟨found, ?_, foundNamed, points.mpr ⟨found, looked, rfl⟩⟩, ?_⟩
      · exact List.mem_of_find?_eq_some looked
      · intro other _ plural pointed
        obtain ⟨found', looked', same⟩ := points.mp pointed
        obtain rfl : found = found' :=
          Option.some.inj (looked.symm.trans looked')
        exact foundNamed.blockName_ne plural same.symm
    · rintro none ⟨target, member, plural⟩
      obtain ⟨found, looked⟩ := exists_entityNamed? (.inr plural) member
      have inside := List.mem_of_find?_eq_some looked
      have foundPlural := (entityNamed?_eq_some_iff.mp looked).1.resolve_left
        (none found inside)
      exact ⟨found, inside, foundPlural, points.mpr ⟨found, looked, rfl⟩⟩
    · intro none
      rw [fieldRelation?_of_refers refers, entityNamed?_eq_none_iff.mpr none]
      rfl

end

/-! ## The diagram -/

/-- Some field of a model refers to a name. -/
def Refers (model : Model) (name : String) : Prop :=
  ∃ entity ∈ model.entities, ∃ field ∈ entity.fields,
    field.references = some name

/-- Every field of a model that refers to a name follows its reference. -/
def FollowsReferences (model : Model) : Prop :=
  ∀ entity ∈ model.entities, ∀ field ∈ entity.fields, ∀ name,
    field.references = some name → FollowsReference model entity field name

theorem followsReferences_iff_namedFirst {model : Model} :
    FollowsReferences model ↔
      ∀ name, Refers model name → NamedFirst name model.entities := by
  constructor
  · rintro follows name ⟨entity, shown, field, has, refers⟩
    exact (followsReference_iff refers shown has).mp
      (follows entity shown field has name refers)
  · intro first entity shown field has name refers
    exact (followsReference_iff refers shown has).mpr
      (first name ⟨entity, shown, field, has, refers⟩)

/-- The fields of a model follow their references exactly if the names that
they refer to come before their plurals.  They do so in every order of the
entities exactly if none of these names is that of an entity while another has
its plural. -/
theorem followsReferences_iff (model : Model) :
    (FollowsReferences model ↔
      ∀ name, Refers model name → NamedFirst name model.entities) ∧
    ((∀ order, order.Perm model.entities →
        FollowsReferences { model with entities := order }) ↔
      ∀ name, Refers model name →
        (∃ target ∈ model.entities, IsNamed name target) →
          ∀ other ∈ model.entities, ¬ IsPlural name other) := by
  refine ⟨followsReferences_iff_namedFirst, ?_⟩
  have refers {order : List DataEntity} (perm : order.Perm model.entities)
      (name : String) :
      Refers { model with entities := order } name ↔ Refers model name := by
    simp only [Refers, perm.mem_iff]
  simp only [followsReferences_iff_namedFirst, ← namedFirst_every_order_iff]
  constructor
  · intro first name referred order perm
    exact first order perm name ((refers perm name).mpr referred)
  · intro first order perm name referred
    exact first name ((refers perm name).mp referred) order perm

/-- A field that refers to an order, where orders come before the order. -/
def parentField : Field :=
  ⟨"parent", "BIGINT", false, none, some "order"⟩

/-- A plural in front of a name is taken for it. -/
theorem not_followsReferences :
    ¬ ∀ model : Model, FollowsReferences model := by
  intro always
  let item : DataEntity :=
    { component := "db", name := "item", fields := [parentField] }
  let model : Model :=
    { projectName := "shop"
      entities := [.table "db" "orders", .table "db" "order", item] }
  have first : NamedFirst "order" model.entities :=
    followsReferences_iff_namedFirst.mp (always model) "order"
      ⟨item, by simp [model], parentField, by simp [item], rfl⟩
  obtain ⟨target, inFront, -⟩ := first
    ⟨.table "db" "order", by simp [model], rfl⟩ [] (.table "db" "orders") _ rfl
    (by decide +kernel)
  cases inFront

end ArchSurvey.Diagram
