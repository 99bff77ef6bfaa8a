import ArchSurvey.Entity.Mapped
import ArchSurvey.Proofs.Declaration.Bodies

/-!
# Entities in nested classes

A field belongs to the class whose body it stands in.  The reader looks the
fields of a class up by its name, and passes over what stands in the body of a
method or an enumeration.  The entities that it finds are those of the classes
with their own fields exactly when no entity stands in such a body and no other
class of an entity's name has persistent fields.
-/

namespace ArchSurvey.Entity.Mapped

open Text
open Declaration (Note Body Declared Scope Token State declares declaredBy
  memberOf plainText readSource spell typesOf membersOf)

/-- The classes that some declarations make up. -/
def classesOf (source : List Declared) : List MappedClass :=
  (typesOf source).map fun (type, name) =>
    ⟨type.annotations, name, (membersOf source name).filterMap fieldOfMember⟩

/-- The field that a piece of source in a class declares. -/
def fieldIn (piece : List Char) : Option MappedField :=
  (declaredBy (trim piece) (some "") 0).bind fieldOfMember

/-- The type that is declared: its annotations, keyword and name. -/
def typeOf? (declared : Declared) : Option (List Note × String × String) :=
  match declared.member with
  | .type keyword name => some (declared.annotations, keyword, name)
  | _ => none

/-- The type that a piece of source declares. -/
def typeIn (piece : List Char) : Option (List Note × String × String) :=
  (declaredBy (trim piece) none 0).bind typeOf?

/-- The class that a piece of source declares in front of a body with some
fields.  An enumeration has no persistent fields. -/
def classIn (piece : List Char) (fields : List MappedField) :
    Option MappedClass :=
  (typeIn piece).map fun (annotations, keyword, name) =>
    ⟨annotations, name, if keyword == "enum" then [] else fields⟩

/-- Whether what stands in the body behind a piece of source is read: the body
of a type that is not an enumeration. -/
def isRead (piece : List Char) : Bool :=
  match typeIn piece with
  | some (_, keyword, _) => keyword != "enum"
  | none => false

/-- The fields that are declared directly in a body. -/
def ownFields : Body → List MappedField
  | .last _ => []
  | .statement text rest => (fieldIn (plainText text)).toList ++ ownFields rest
  | .block head _ rest => (fieldIn (plainText head)).toList ++ ownFields rest

/-- The classes in a body, at any depth, with their own fields. -/
def allClasses : Body → List MappedClass
  | .last _ => []
  | .statement text rest =>
      (classIn (plainText text) []).toList ++ allClasses rest
  | .block head inner rest =>
      (classIn (plainText head) (ownFields inner)).toList ++
        (allClasses inner ++ allClasses rest)

/-- The classes that stand in no body that is passed over. -/
def visibleClasses : Body → List MappedClass
  | .last _ => []
  | .statement text rest =>
      (classIn (plainText text) []).toList ++ visibleClasses rest
  | .block head inner rest =>
      (classIn (plainText head) (ownFields inner)).toList ++
        ((if isRead (plainText head) then visibleClasses inner else []) ++
          visibleClasses rest)

/-- The classes that stand in a body that is passed over. -/
def hiddenClasses : Body → List MappedClass
  | .last _ => []
  | .statement _ rest => hiddenClasses rest
  | .block head inner rest =>
      (if isRead (plainText head) then hiddenClasses inner
        else allClasses inner) ++ hiddenClasses rest

namespace MappedClass

/-- Whether a class is an entity. -/
def isEntity (mapped : MappedClass) : Bool :=
  mapped.annotations.any fun note => note.name == "Entity"

/-- The fields of a class that are stored. -/
def persistent (mapped : MappedClass) : List MappedField :=
  mapped.fields.filter MappedField.isPersistent

/-- Of two classes with one name, neither is an entity that the other one has
persistent fields for. -/
def Unmixed (mapped other : MappedClass) : Prop :=
  mapped.name = other.name →
    (mapped.isEntity = true → other.persistent = []) ∧
    (other.isEntity = true → mapped.persistent = [])

end MappedClass

section Reading

variable {body : Body} {name : String}

theorem classesOf_unlined (source : List Declared) :
    classesOf (source.map Declared.unlined) = classesOf source := by
  have members : ∀ name,
      (membersOf (source.map Declared.unlined) name).filterMap fieldOfMember =
        (membersOf source name).filterMap fieldOfMember := by
    intro name
    rw [membersOf, List.filter_map, List.filterMap_map]
    rfl
  have types : typesOf (source.map Declared.unlined) =
      (typesOf source).map fun (type, name) => (type.unlined, name) := by
    rw [typesOf, typesOf, List.filterMap_map, List.map_filterMap]
    refine List.filterMap_congr fun declared _ => ?_
    simp only [Function.comp_apply, Option.map_map]
    rfl
  rw [classesOf, classesOf, types, List.map_map]
  refine List.map_congr_left fun type _ => ?_
  simp only [Function.comp_apply, members]
  rfl

/-- The classes of a source are made up of the declarations in its bodies. -/
theorem classesOfSource_body (well : Declaration.wellFormed body.tokens = true)
    (flat : body.isFlat = true) :
    classesOfSource (spell body.tokens) = classesOf (body.declared none) := by
  rw [← Declaration.readSource_body well flat, classesOf_unlined]
  rfl

end Reading

section Pieces

variable {scope : Option Scope} {piece : List Char} {name : String}

/-- A piece declares the same type in every scope that is read. -/
theorem bind_typeOf?_declares (readable : scope ≠ some .block) :
    (declares scope piece).bind typeOf? = typeIn piece := by
  cases scope with
  | none => rfl
  | some scope =>
      cases scope with
      | block => exact absurd rfl readable
      | type name =>
          simp only [declares, typeIn, declaredBy, memberOf]
          split
          · rfl
          · split
            · rfl
            · split
              · rfl
              · split <;> rfl

/-- The body behind a piece is read if it is one of a type that is not an
enumeration. -/
theorem scopeOf_declares (readable : scope ≠ some .block) :
    State.scopeOf (declares scope piece) =
      match typeIn piece with
      | some (_, keyword, name) =>
          if keyword == "enum" then .block else .type name
      | none => .block := by
  rw [← bind_typeOf?_declares readable]
  cases declares scope piece with
  | none => rfl
  | some declared =>
      obtain ⟨annotations, modifiers, member, enclosing, line⟩ := declared
      cases member <;> rfl

/-- What a piece declares in a class is known by the name of that class. -/
theorem declares_type (name : String) (piece : List Char) :
    declares (some (.type name)) piece =
      (declaredBy (trim piece) (some "") 0).map fun declared =>
        { declared with enclosing := some name } := by
  simp only [declares, declaredBy]
  split
  · rfl
  · rw [Option.map_map]
    rfl

end Pieces

/-- The persistent fields that are found for a name. -/
def fieldsFor (name : String) (source : List Declared) : List MappedField :=
  ((membersOf source name).filterMap fieldOfMember).filter
    MappedField.isPersistent

section Fields

variable {scope : Option Scope} {piece : List Char} {name : String}
  {body : Body} {mapped : MappedClass}

theorem fieldsFor_append (source others : List Declared) :
    fieldsFor name (source ++ others) =
      fieldsFor name source ++ fieldsFor name others := by
  simp [fieldsFor, membersOf]

theorem fieldsFor_declares (scope : Option Scope) (piece : List Char) :
    fieldsFor name (declares scope piece).toList =
      if scope = some (.type name) then
        (fieldIn piece).toList.filter MappedField.isPersistent
      else [] := by
  cases scope with
  | none =>
      have outside : ∀ declared ∈ (declares none piece).toList,
          declared.enclosing = none := by
        simp only [declares, declaredBy, Option.mem_toList]
        intro declared member
        split at member
        · cases member
        · obtain ⟨_, -, rfl⟩ := Option.map_eq_some_iff.mp member
          rfl
      have none_ : membersOf (declares none piece).toList name = [] := by
        rw [membersOf, List.filter_eq_nil_iff]
        intro declared member
        simp [outside declared member]
      simp [fieldsFor, none_]
  | some scope =>
      cases scope with
      | block => simp [declares, fieldsFor, membersOf]
      | type other =>
          rw [declares_type, fieldIn, fieldsFor, membersOf]
          cases declaredBy (trim piece) (some "") 0 with
          | none => simp
          | some declared =>
              by_cases same : other = name
              · have field : fieldOfMember
                    { declared with enclosing := some other } =
                      fieldOfMember declared := rfl
                subst same
                cases found : fieldOfMember declared <;>
                  simp [field, found]
              · simp [same]

/-- Nothing is found in a body that is passed over. -/
theorem declared_block (body : Body) : body.declared (some .block) = [] := by
  induction body with
  | last text => rfl
  | statement text rest ih => exact ih
  | block head inner rest ihInner ihRest =>
      simp only [Body.declared, declares, State.scopeOf, ihInner, ihRest]
      rfl

/-- The scope of the body behind a piece, if that body is read. -/
theorem exists_type_of_isRead (readable : scope ≠ some .block)
    (read : isRead piece = true) (fields : List MappedField) :
    ∃ annotations name,
      State.scopeOf (declares scope piece) = .type name ∧
      classIn piece fields = some ⟨annotations, name, fields⟩ := by
  rw [isRead] at read
  split at read
  · rename_i annotations keyword name type
    have other : keyword ≠ "enum" := by simpa using read
    refine ⟨annotations, name, ?_, ?_⟩
    · simp [scopeOf_declares readable, type, other]
    · simp [classIn, type, other]
  · cases read

theorem scopeOf_of_not_isRead (readable : scope ≠ some .block)
    (passed : isRead piece = false) :
    State.scopeOf (declares scope piece) = .block := by
  rw [isRead] at passed
  rw [scopeOf_declares readable]
  split at passed
  · rename_i annotations keyword name type
    have enumeration : (keyword == "enum") = true := by simpa using passed
    simp [enumeration]
  · rfl

/-- A class whose body is passed over has no fields. -/
theorem fields_of_not_isRead (passed : isRead piece = false)
    {fields : List MappedField} (class_ : classIn piece fields = some mapped) :
    mapped.fields = [] := by
  obtain ⟨⟨annotations, keyword, name⟩, type, rfl⟩ :=
    Option.map_eq_some_iff.mp class_
  rw [isRead, type] at passed
  have enumeration : (keyword == "enum") = true := by simpa using passed
  simp [enumeration]

/-- The annotations and names of the types among declarations. -/
def headings (source : List Declared) : List (List Note × String) :=
  (typesOf source).map fun (type, name) => (type.annotations, name)

theorem headings_append (source others : List Declared) :
    headings (source ++ others) = headings source ++ headings others := by
  simp [headings, typesOf]

theorem headings_declares (readable : scope ≠ some .block)
    (fields : List MappedField) :
    headings (declares scope piece).toList =
      (classIn piece fields).toList.map fun mapped =>
        (mapped.annotations, mapped.name) := by
  rw [classIn, ← bind_typeOf?_declares readable]
  cases declares scope piece with
  | none => rfl
  | some declared =>
      obtain ⟨annotations, modifiers, member, enclosing, line⟩ := declared
      cases member <;> rfl

/-- The types that are found are the classes that are visible. -/
theorem headings_declared (readable : scope ≠ some .block) :
    headings (body.declared scope) = (visibleClasses body).map fun mapped =>
      (mapped.annotations, mapped.name) := by
  induction body generalizing scope with
  | last text => rfl
  | statement text rest ih =>
      rw [Body.declared, headings_append, headings_declares readable [],
        ih readable, visibleClasses, List.map_append]
  | block head inner rest ihInner ihRest =>
      rw [Body.declared, headings_append, headings_append,
        headings_declares readable (ownFields inner), ihRest readable,
        visibleClasses, List.map_append, List.map_append]
      congr 2
      cases read : isRead (plainText head) with
      | true =>
          obtain ⟨_, name, scope_, -⟩ :=
            exists_type_of_isRead readable read []
          rw [scope_, ihInner (by simp)]
          rfl
      | false =>
          rw [scopeOf_of_not_isRead readable read, declared_block]
          rfl

/-- How many persistent fields the classes of a name have. -/
def storedUnder (name : String) : List MappedClass → Nat
  | [] => 0
  | mapped :: classes =>
      (if mapped.name = name then mapped.persistent.length else 0) +
        storedUnder name classes

theorem storedUnder_append (classes others : List MappedClass) :
    storedUnder name (classes ++ others) =
      storedUnder name classes + storedUnder name others := by
  induction classes with
  | nil => exact (Nat.zero_add _).symm
  | cons first classes ih =>
      rw [List.cons_append, storedUnder, storedUnder, ih, Nat.add_assoc]

/-- A class whose body is passed over stores nothing. -/
theorem storedUnder_of_not_isRead (passed : isRead piece = false)
    (fields : List MappedField) :
    storedUnder name (classIn piece fields).toList = 0 := by
  cases class_ : classIn piece fields with
  | none => rfl
  | some mapped =>
      have empty := fields_of_not_isRead passed class_
      by_cases same : mapped.name = name <;>
        simp [storedUnder, MappedClass.persistent, same, empty]

/-- A class that a statement declares has no body and stores nothing. -/
theorem storedUnder_nil :
    storedUnder name (classIn piece []).toList = 0 := by
  cases class_ : classIn piece [] with
  | none => rfl
  | some mapped =>
      obtain ⟨⟨annotations, keyword, other⟩, -, rfl⟩ :=
        Option.map_eq_some_iff.mp class_
      by_cases same : other = name <;>
        simp [storedUnder, MappedClass.persistent, same]

/-- As many persistent fields are found for a name as the classes of that name
have, and the body that they are looked up in if it belongs to such a class. -/
theorem length_fieldsFor_declared (readable : scope ≠ some .block) :
    (fieldsFor name (body.declared scope)).length =
      (if scope = some (.type name) then
        ((ownFields body).filter MappedField.isPersistent).length else 0) +
      storedUnder name (visibleClasses body) := by
  induction body generalizing scope with
  | last text =>
      simp [Body.declared, fieldsFor, membersOf, ownFields, visibleClasses,
        storedUnder]
  | statement text rest ih =>
      rw [Body.declared, fieldsFor_append, fieldsFor_declares,
        List.length_append, ih readable, ownFields, visibleClasses,
        storedUnder_append, storedUnder_nil]
      split <;> simp [Nat.add_assoc]
  | block head inner rest ihInner ihRest =>
      rw [Body.declared, fieldsFor_append, fieldsFor_append,
        fieldsFor_declares, List.length_append, List.length_append,
        ihRest readable, ownFields, visibleClasses, storedUnder_append,
        storedUnder_append]
      have within : (fieldsFor name (inner.declared
          (some (State.scopeOf (declares scope (plainText head)))))).length =
            storedUnder name
              (classIn (plainText head) (ownFields inner)).toList +
            storedUnder name (if isRead (plainText head) then
              visibleClasses inner else []) := by
        cases read : isRead (plainText head) with
        | true =>
            obtain ⟨annotations, other, scope_, class_⟩ :=
              exists_type_of_isRead readable read (ownFields inner)
            rw [scope_, class_, ihInner (by simp)]
            by_cases same : other = name <;>
              simp [storedUnder, MappedClass.persistent, same]
        | false =>
            rw [scopeOf_of_not_isRead readable read, declared_block,
              storedUnder_of_not_isRead read]
            rfl
      rw [within]
      split <;> simp <;> omega

/-- The own fields of a body are found for the name of its class, in order. -/
theorem ownFields_sublist (name : String) (body : Body) :
    ((ownFields body).filter MappedField.isPersistent).Sublist
      (fieldsFor name (body.declared (some (.type name)))) := by
  induction body with
  | last text => exact List.nil_sublist _
  | statement text rest ih =>
      rw [Body.declared, fieldsFor_append, fieldsFor_declares, if_pos rfl,
        ownFields, List.filter_append]
      exact (List.Sublist.refl _).append ih
  | block head inner rest _ ih =>
      rw [Body.declared, fieldsFor_append, fieldsFor_append,
        fieldsFor_declares, if_pos rfl, ownFields, List.filter_append]
      exact (List.Sublist.refl _).append
        (ih.trans (List.sublist_append_right _ _))

/-- The persistent fields of a visible class are found for its name, in
order. -/
theorem persistent_sublist (readable : scope ≠ some .block)
    (member : mapped ∈ visibleClasses body) :
    mapped.persistent.Sublist
      (fieldsFor mapped.name (body.declared scope)) := by
  induction body generalizing scope with
  | last text => cases member
  | statement text rest ih =>
      rw [Body.declared, fieldsFor_append]
      rcases List.mem_append.mp member with here | later
      · have class_ := Option.mem_toList.mp here
        obtain ⟨⟨annotations, keyword, name⟩, -, rfl⟩ :=
          Option.map_eq_some_iff.mp class_
        simp [MappedClass.persistent]
      · exact (ih readable later).trans (List.sublist_append_right _ _)
  | block head inner rest ihInner ihRest =>
      rw [Body.declared, fieldsFor_append, fieldsFor_append]
      have inside : mapped.persistent.Sublist (fieldsFor mapped.name
            (inner.declared
              (some (State.scopeOf (declares scope (plainText head)))))) ∨
          mapped ∈ visibleClasses rest := by
        rcases List.mem_append.mp member with here | later
        · have class_ := Option.mem_toList.mp here
          cases read : isRead (plainText head) with
          | true =>
              obtain ⟨annotations, name, scope_, same⟩ :=
                exists_type_of_isRead readable read (ownFields inner)
              obtain rfl := Option.some.inj (same.symm.trans class_)
              rw [scope_]
              exact .inl (ownFields_sublist name inner)
          | false =>
              have empty := fields_of_not_isRead read class_
              exact .inl (by simp [MappedClass.persistent, empty])
        · rcases List.mem_append.mp later with within | behind
          · cases read : isRead (plainText head) with
            | true =>
                obtain ⟨_, name, scope_, -⟩ :=
                  exists_type_of_isRead readable read []
                rw [scope_]
                exact .inl (ihInner (by simp) (by simpa [read] using within))
            | false => simp [read] at within
          · exact .inr behind
      rcases inside with within | behind
      · exact (within.trans (List.sublist_append_left _ _)).trans
          (List.sublist_append_right _ _)
      · exact ((ihRest readable behind).trans
          (List.sublist_append_right _ _)).trans
            (List.sublist_append_right _ _)

end Fields

section Classes

variable {classes : List MappedClass} {mapped : MappedClass}

theorem storedUnder_eq_zero_iff {name : String} :
    storedUnder name classes = 0 ↔
      ∀ mapped ∈ classes, mapped.name = name → mapped.persistent = [] := by
  induction classes with
  | nil => simp [storedUnder]
  | cons first classes ih =>
      rw [storedUnder, Nat.add_eq_zero_iff, ih, List.forall_mem_cons]
      by_cases same : first.name = name <;> simp [same]

theorem le_storedUnder (member : mapped ∈ classes) :
    mapped.persistent.length ≤ storedUnder mapped.name classes := by
  induction classes with
  | nil => cases member
  | cons first classes ih =>
      rw [storedUnder]
      rcases List.mem_cons.mp member with rfl | later
      · simp
      · exact Nat.le_add_left_of_le (ih later)

/-- Entities have no fields of other classes exactly if for the name of each as
many fields are stored as it has itself. -/
theorem pairwise_unmixed_iff :
    classes.Pairwise MappedClass.Unmixed ↔
      ∀ mapped ∈ classes, mapped.isEntity = true →
        storedUnder mapped.name classes = mapped.persistent.length := by
  induction classes with
  | nil => simp
  | cons first classes ih =>
      rw [List.pairwise_cons, ih, List.forall_mem_cons]
      simp only [storedUnder, if_true, Nat.add_eq_left]
      constructor
      · rintro ⟨unmixed, later⟩
        constructor
        · intro entity
          exact storedUnder_eq_zero_iff.mpr fun other member same =>
            (unmixed other member same.symm).1 entity
        · intro other member entity
          rw [later other member entity]
          split
          · rename_i same
            simp [(unmixed other member same).2 entity]
          · exact Nat.zero_add _
      · rintro ⟨here, later⟩
        constructor
        · intro other member same
          constructor
          · intro entity
            exact storedUnder_eq_zero_iff.mp (here entity) other member
              same.symm
          · intro entity
            have sum := later other member entity
            have own := le_storedUnder member
            rw [if_pos same] at sum
            exact List.length_eq_zero_iff.mp (by omega)
        · intro other member entity
          have sum := later other member entity
          have own := le_storedUnder member
          omega

/-- The class with the fields that are found for its name. -/
def withFound (source : List Declared) (mapped : MappedClass) : MappedClass :=
  { mapped with
    fields := (membersOf source mapped.name).filterMap fieldOfMember }

theorem classesOf_declared (body : Body) :
    classesOf (body.declared none) =
      (visibleClasses body).map (withFound (body.declared none)) := by
  have types := @headings_declared none body (by simp)
  have made : ∀ source, classesOf source = (headings source).map
      fun (annotations, name) => ⟨annotations, name,
        (membersOf source name).filterMap fieldOfMember⟩ := by
    intro source
    rw [classesOf, headings, List.map_map]
    rfl
  rw [made, types, List.map_map]
  rfl

/-- A class with further fields is the same entity exactly if none of them is
persistent or it is no entity. -/
theorem entity?_eq_iff {other : MappedClass} (database : String)
    (annotations : other.annotations = mapped.annotations)
    (name : other.name = mapped.name)
    (own : mapped.persistent.Sublist other.persistent) :
    other.entity? database = mapped.entity? database ↔
      (mapped.isEntity = true →
        other.persistent.length = mapped.persistent.length) := by
  rw [MappedClass.entity?, MappedClass.entity?, annotations, name]
  cases entity : mapped.isEntity with
  | false =>
      rw [MappedClass.isEntity] at entity
      simp [entity]
  | true =>
      rw [MappedClass.isEntity] at entity
      simp only [entity, if_true, Option.some.injEq, true_implies]
      constructor
      · intro same
        have lengths := congrArg (fun entity => entity.fields.length) same
        simpa [MappedClass.persistent] using lengths
      · intro same
        have equal := own.eq_of_length same.symm
        simp only [MappedClass.persistent] at equal
        rw [equal]

theorem isSome_entity? (mapped : MappedClass) (database : String) :
    (mapped.entity? database).isSome = mapped.isEntity := by
  rw [MappedClass.entity?, MappedClass.isEntity]
  split <;> simp_all

theorem length_entitiesOf (database : String) (classes : List MappedClass) :
    (entitiesOf database classes).length =
      classes.countP MappedClass.isEntity := by
  rw [entitiesOf, List.length_filterMap_eq_countP]
  exact congrArg (fun test => classes.countP test)
    (funext fun mapped => isSome_entity? mapped database)

/-- Changed classes, entities before and after, are the same entities exactly
if each one is. -/
theorem entitiesOf_map_eq_iff {database : String}
    {change : MappedClass → MappedClass}
    (kept : ∀ mapped, (change mapped).isEntity = mapped.isEntity) :
    entitiesOf database (classes.map change) = entitiesOf database classes ↔
      ∀ mapped ∈ classes,
        (change mapped).entity? database = mapped.entity? database := by
  induction classes with
  | nil => simp [entitiesOf]
  | cons first classes ih =>
      have both : ((change first).entity? database).isSome =
          (first.entity? database).isSome := by
        rw [isSome_entity?, isSome_entity?, kept]
      simp only [entitiesOf] at ih
      rw [List.forall_mem_cons, ← ih, entitiesOf, entitiesOf, List.map_cons,
        List.filterMap_cons, List.filterMap_cons]
      cases one : first.entity? database <;>
        cases two : (change first).entity? database <;>
        simp_all

end Classes

section Bodies

variable {body : Body}

theorem visibleClasses_sublist (body : Body) :
    (visibleClasses body).Sublist (allClasses body) := by
  induction body with
  | last text => exact List.Sublist.refl _
  | statement text rest ih => exact (List.Sublist.refl _).append ih
  | block head inner rest ihInner ihRest =>
      refine (List.Sublist.refl _).append (List.Sublist.append ?_ ihRest)
      split
      · exact ihInner
      · exact List.nil_sublist _

/-- Each class is visible or hidden. -/
theorem countP_allClasses (test : MappedClass → Bool) (body : Body) :
    (allClasses body).countP test =
      (visibleClasses body).countP test +
        (hiddenClasses body).countP test := by
  induction body with
  | last text => rfl
  | statement text rest ih =>
      simp only [allClasses, visibleClasses, hiddenClasses, List.countP_append,
        ih]
      omega
  | block head inner rest ihInner ihRest =>
      simp only [allClasses, visibleClasses, hiddenClasses, List.countP_append,
        ihRest]
      cases isRead (plainText head) with
      | true =>
          simp only [if_true, ihInner]
          omega
      | false =>
          simp only [Bool.false_eq_true, if_false, List.countP_nil]
          omega

/-- The entities of the visible classes are all there are exactly if no hidden
class is one. -/
theorem entitiesOf_visibleClasses_iff (database : String) :
    entitiesOf database (visibleClasses body) =
        entitiesOf database (allClasses body) ↔
      ∀ mapped ∈ hiddenClasses body, mapped.isEntity = false := by
  have within : (entitiesOf database (visibleClasses body)).Sublist
      (entitiesOf database (allClasses body)) :=
    (visibleClasses_sublist body).filterMap _
  have count := countP_allClasses MappedClass.isEntity body
  have lengths : entitiesOf database (visibleClasses body) =
      entitiesOf database (allClasses body) ↔
        (hiddenClasses body).countP MappedClass.isEntity = 0 := by
    constructor
    · intro same
      have equal := congrArg List.length same
      rw [length_entitiesOf, length_entitiesOf] at equal
      omega
    · intro none
      refine within.eq_of_length ?_
      rw [length_entitiesOf, length_entitiesOf]
      omega
  rw [lengths, List.countP_eq_zero]
  simp

/-- The entities found in a source are those of its classes with their own
fields exactly if none stands in a body that is passed over and no other class
of the name of one has persistent fields. -/
theorem entities_body_iff (database : String)
    (well : Declaration.wellFormed body.tokens = true)
    (flat : body.isFlat = true) :
    entitiesOf database (classesOfSource (spell body.tokens)) =
        entitiesOf database (allClasses body) ↔
      (∀ mapped ∈ hiddenClasses body, mapped.isEntity = false) ∧
        (visibleClasses body).Pairwise MappedClass.Unmixed := by
  let found := body.declared none
  have lookups : entitiesOf database
        ((visibleClasses body).map (withFound found)) =
          entitiesOf database (visibleClasses body) ↔
      (visibleClasses body).Pairwise MappedClass.Unmixed := by
    rw [pairwise_unmixed_iff,
      @entitiesOf_map_eq_iff _ database (withFound found) fun _ => rfl]
    refine forall₂_congr fun mapped member => ?_
    have own : mapped.persistent.Sublist (withFound found mapped).persistent :=
      persistent_sublist (by simp) member
    have length : (withFound found mapped).persistent.length =
        storedUnder mapped.name (visibleClasses body) := by
      have counted := @length_fieldsFor_declared none mapped.name body (by simp)
      simp only [reduceCtorEq, if_false, Nat.zero_add] at counted
      exact counted
    have same := @entity?_eq_iff mapped (withFound found mapped) database
      rfl rfl own
    rw [length] at same
    exact same
  have count : (entitiesOf database
      ((visibleClasses body).map (withFound found))).length =
        (entitiesOf database (visibleClasses body)).length := by
    rw [length_entitiesOf, length_entitiesOf, List.countP_map]
    rfl
  rw [classesOfSource_body well flat, classesOf_declared,
    ← entitiesOf_visibleClasses_iff database, ← lookups]
  constructor
  · intro same
    have visible : entitiesOf database (visibleClasses body) =
        entitiesOf database (allClasses body) := by
      refine ((visibleClasses_sublist body).filterMap _).eq_of_length ?_
      exact count.symm.trans (congrArg List.length same)
    exact ⟨visible, same.trans visible.symm⟩
  · rintro ⟨visible, same⟩
    exact same.trans visible

end Bodies

/-- The tokens of some code without comments and literals. -/
def code (text : String) : List Token :=
  text.toList.map .code

/-- A nested entity with a table of its own and one field. -/
def nestedEntity (name table field : String) : Body :=
  .block (code "@Entity @Table(name = " ++ [.literal '"' table.toList] ++
      code (") static class " ++ name))
    (.statement (code field) (.last [])) (.last [])

/-- Two classes, each with an entity in it. -/
def nestedEntities (name other : String) : Body :=
  .block (code "class A") (nestedEntity name "a_line" "int x")
    (.block (code "class B") (nestedEntity other "b_line" "int y") (.last []))

/-- Entities with different names have their own fields. -/
theorem entities_body_iff_nestedEntities :
    let body := nestedEntities "Line" "Row"
    Declaration.wellFormed body.tokens = true ∧ body.isFlat = true ∧
      (entitiesOf "db" (allClasses body)).length = 2 ∧
      entitiesOf "db" (classesOfSource (spell body.tokens)) =
        entitiesOf "db" (allClasses body) := by
  intro body
  have well : Declaration.wellFormed body.tokens = true := by decide +kernel
  have flat : body.isFlat = true := by decide +kernel
  have hidden : ∀ mapped ∈ hiddenClasses body, mapped.isEntity = false := by
    decide +kernel
  have unmixed := (@pairwise_unmixed_iff (visibleClasses body)).mpr
    (by decide +kernel)
  exact ⟨well, flat, by decide +kernel,
    (entities_body_iff "db" well flat).mpr ⟨hidden, unmixed⟩⟩

/-- Nested entities with one name have the fields of both. -/
theorem not_entities_body :
    ¬ ∀ body : Body, Declaration.wellFormed body.tokens = true →
      body.isFlat = true →
      entitiesOf "db" (classesOfSource (spell body.tokens)) =
        entitiesOf "db" (allClasses body) := by
  intro always
  have well : Declaration.wellFormed (nestedEntities "Line" "Line").tokens =
      true := by decide +kernel
  have flat : (nestedEntities "Line" "Line").isFlat = true := by
    decide +kernel
  have same := always _ well flat
  rw [classesOfSource_body well flat] at same
  have fields := congrArg (List.map fun entity => entity.fields.length) same
  exact absurd fields (by decide +kernel)

end ArchSurvey.Entity.Mapped
