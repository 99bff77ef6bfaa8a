import ArchSurvey.Json.Decode
import ArchSurvey.Proofs.Json.Layout
import ArchSurvey.Proofs.Keyed

/-!
# Values read back or refused

What is written is read back, and what lacks a field is refused.
-/

/-!
## Reading printed values

Both printed texts of a value are layouts of it, so it is read back, as long as
its numbers fit a word.
-/

namespace ArchSurvey.Json

/-- The parts of the value have texts of their own: no numbers but natural ones
that fit a word. -/
inductive Printable : Json → Prop where
  | null : Printable .null
  | bool (value : Bool) : Printable (.bool value)
  | nat {n : Nat} : n ≤ maxWord → Printable (.nat n)
  | str (text : String) : Printable (.str text)
  | arr {items : List Json} :
      (∀ item ∈ items, Printable item) → Printable (.arr items)
  | obj {members : List (String × Json)} :
      (∀ member ∈ members, Printable member.2) → Printable (.obj members)

namespace Printable

@[simp] theorem bool_iff {value : Bool} : Printable (.bool value) ↔ True :=
  iff_true_intro (.bool value)

@[simp] theorem str_iff {text : String} : Printable (.str text) ↔ True :=
  iff_true_intro (.str text)

@[simp] theorem nat_iff {n : Nat} : Printable (.nat n) ↔ n ≤ maxWord := by
  constructor
  · rintro ⟨⟩
    assumption
  · exact .nat

@[simp] theorem arr_iff {items : List Json} :
    Printable (.arr items) ↔ ∀ item ∈ items, Printable item := by
  constructor
  · rintro ⟨⟩
    assumption
  · exact .arr

@[simp] theorem obj_iff {members : List (String × Json)} :
    Printable (.obj members) ↔ ∀ member ∈ members, Printable member.2 := by
  constructor
  · rintro ⟨⟩
    assumption
  · exact .obj

theorem obj_map {α : Type} {encode : α → Json} {entries : List (String × α)}
    (each : ∀ entry ∈ entries, Printable (encode entry.2)) :
    Printable (.obj (entries.map fun (name, value) => (name, encode value))) := by
  refine .obj fun member inside => ?_
  obtain ⟨entry, among, rfl⟩ := List.mem_map.mp inside
  exact each entry among

@[simp] theorem ofString?_iff {text : Option String} :
    Printable (ofString? text) ↔ True := by
  cases text with
  | none => exact iff_true_intro .null
  | some text => exact str_iff

@[simp] theorem ofStrings_iff {texts : List String} :
    Printable (ofStrings texts) ↔ True := by
  simp [ofStrings]

end Printable

theorem isGap_nil : IsGap [] := by
  intro c impossible
  cases impossible

theorem isGap_newline (depth : Nat) : IsGap (newline depth) := by
  intro c member
  rcases List.mem_cons.mp member with rfl | space
  · rfl
  · obtain rfl := List.eq_of_mem_replicate space
    rfl

theorem spells_bool (value : Bool) : Spells (.bool value)
    (compactText (.bool value)) := by
  cases value with
  | true => exact .true
  | false => exact .false

section Pretty

variable {depth : Nat} {gap : List Char}

theorem spellsItems_pretty (blank : IsGap gap) {item : Json}
    {items : List Json} (spells : ∀ other ∈ item :: items,
      Spells other (prettyText depth other)) :
    SpellsItems (item :: items) (newline depth ++ (prettyText depth item ++
      (prettyItems depth false items ++ gap))) := by
  have first := spells item List.mem_cons_self
  induction items generalizing item with
  | nil => exact .last (isGap_newline depth) first blank
  | cons next items ih =>
      have rest : ∀ other ∈ next :: items,
          Spells other (prettyText depth other) :=
        fun other member => spells other (List.mem_cons_of_mem _ member)
      have later := ih rest (rest next List.mem_cons_self)
      have spelled := SpellsItems.more (isGap_newline depth) first isGap_nil later
      simpa [prettyItems] using spelled

theorem spellsMembers_pretty (blank : IsGap gap) {name : String} {value : Json}
    {members : List (String × Json)}
    (spells : ∀ member ∈ (name, value) :: members,
      Spells member.2 (prettyText depth member.2)) :
    SpellsMembers ((name, value) :: members)
      (newline depth ++ (quote name ++ ':' :: ' ' ::
        (prettyText depth value ++
          (prettyMembers depth false members ++ gap)))) := by
  have first := spells (name, value) List.mem_cons_self
  have space : IsGap [' '] := by
    intro c member
    cases List.mem_singleton.mp member
    rfl
  induction members generalizing name value with
  | nil =>
      exact .last (isGap_newline depth) isGap_nil space first blank
  | cons next members ih =>
      obtain ⟨name', value'⟩ := next
      have rest : ∀ member ∈ (name', value') :: members,
          Spells member.2 (prettyText depth member.2) :=
        fun member inside => spells member (List.mem_cons_of_mem _ inside)
      have later := ih rest (rest (name', value') List.mem_cons_self)
      have spelled := @SpellsMembers.more name _ _ _ _ _ _ _ _
        (isGap_newline depth) isGap_nil space first isGap_nil later
      simpa [prettyMembers] using spelled

/-- The text with a line for each part lays out the value. -/
theorem Printable.spells_pretty {value : Json} (printable : Printable value)
    (depth : Nat) : Spells value (prettyText depth value) := by
  induction printable generalizing depth with
  | null => exact .null
  | bool value => exact spells_bool value
  | nat fits => exact .nat fits
  | str text => exact .str text
  | @arr items _ ih =>
      cases items with
      | nil => exact .none isGap_nil
      | cons item items =>
          have spelled := spellsItems_pretty (isGap_newline depth)
            fun other member => ih other member (depth + 1)
          simpa [prettyText, prettyItems] using Spells.arr spelled
  | @obj members _ ih =>
      cases members with
      | nil => exact .empty isGap_nil
      | cons member members =>
          have spelled := spellsMembers_pretty (isGap_newline depth)
            fun other inside => ih other inside (depth + 1)
          simpa [prettyText, prettyMembers] using Spells.obj spelled

end Pretty

theorem spellsItems_compact {item : Json} {items : List Json}
    (spells : ∀ other ∈ item :: items, Spells other (compactText other)) :
    ∃ text, SpellsItems (item :: items) text ∧
      compactItems true (item :: items) = text ++ [']'] := by
  have first := spells item List.mem_cons_self
  induction items generalizing item with
  | nil =>
      exact ⟨_, .last isGap_nil first isGap_nil, by simp [compactItems]⟩
  | cons next items ih =>
      have rest : ∀ other ∈ next :: items, Spells other (compactText other) :=
        fun other member => spells other (List.mem_cons_of_mem _ member)
      obtain ⟨text, later, same⟩ := ih rest (rest next List.mem_cons_self)
      refine ⟨_, .more isGap_nil first isGap_nil later, ?_⟩
      simp only [compactItems, if_true, List.nil_append] at same
      simp [compactItems, same]

theorem spellsMembers_compact {name : String} {value : Json}
    {members : List (String × Json)}
    (spells : ∀ member ∈ (name, value) :: members,
      Spells member.2 (compactText member.2)) :
    ∃ text, SpellsMembers ((name, value) :: members) text ∧
      compactMembers true ((name, value) :: members) = text ++ ['\x7d'] := by
  have first := spells (name, value) List.mem_cons_self
  induction members generalizing name value with
  | nil =>
      exact ⟨_, .last isGap_nil isGap_nil isGap_nil first isGap_nil,
        by simp [compactMembers]⟩
  | cons next members ih =>
      obtain ⟨name', value'⟩ := next
      have rest : ∀ member ∈ (name', value') :: members,
          Spells member.2 (compactText member.2) :=
        fun member inside => spells member (List.mem_cons_of_mem _ inside)
      obtain ⟨text, later, same⟩ :=
        ih rest (rest (name', value') List.mem_cons_self)
      refine ⟨_, .more isGap_nil isGap_nil isGap_nil first isGap_nil later, ?_⟩
      simp only [compactMembers, if_true, List.nil_append] at same
      simp [compactMembers, same]

/-- The text without white space lays out the value. -/
theorem Printable.spells_compact {value : Json} (printable : Printable value) :
    Spells value (compactText value) := by
  induction printable with
  | null => exact .null
  | bool value => exact spells_bool value
  | nat fits => exact .nat fits
  | str text => exact .str text
  | @arr items _ ih =>
      cases items with
      | nil => exact .none isGap_nil
      | cons item items =>
          obtain ⟨text, spelled, same⟩ := spellsItems_compact ih
          rw [compactText, same]
          exact .arr spelled
  | @obj members _ ih =>
      cases members with
      | nil => exact .empty isGap_nil
      | cons member members =>
          obtain ⟨text, spelled, same⟩ := spellsMembers_compact ih
          rw [compactText, same]
          exact .obj spelled

/-- A printed value is read back. -/
theorem Printable.parse_pretty {value : Json} (printable : Printable value) :
    parseChars? value.pretty.toList = some value := by
  rw [pretty, String.toList_ofList]
  exact parseChars?_of_spells (printable.spells_pretty 0)

theorem Printable.parse_compact {value : Json} (printable : Printable value) :
    parseChars? value.compact.toList = some value := by
  rw [compact, String.toList_ofList]
  exact parseChars?_of_spells printable.spells_compact

end ArchSurvey.Json

namespace ArchSurvey.Json

/-!
## Reading written values

What is written of options, lists, maps and records is read back.
-/

variable {α : Type} {decode : Decoder α} {encode : α → Json}

@[simp] theorem string_str (text : String) : string (str text) = some text :=
  rfl

@[simp] theorem truth_bool (value : Bool) : truth (bool value) = some value :=
  rfl

@[simp] theorem natural_nat (n : Nat) : natural (nat n) = some n :=
  rfl

@[simp] theorem variant_str (named : String → Option α) (name : String) :
    variant named (str name) = named name :=
  rfl

@[simp] theorem option_ofString? (text : Option String) :
    option string (ofString? text) = some text := by
  cases text <;> rfl

theorem list_encode {items : List α}
    (back : ∀ item ∈ items, decode (encode item) = some item) :
    list decode (arr (items.map encode)) = some items := by
  rw [list]
  induction items with
  | nil => rfl
  | cons item items ih =>
      have rest := ih fun other member => back other (List.mem_cons_of_mem _ member)
      rw [List.map_cons, List.mapM_cons, back item List.mem_cons_self, rest]
      rfl

@[simp] theorem list_ofStrings (texts : List String) :
    list string (ofStrings texts) = some texts :=
  list_encode fun _ _ => rfl

theorem mapM_encode {entries : List (String × α)}
    (back : ∀ entry ∈ entries, decode (encode entry.2) = some entry.2) :
    (entries.map fun (name, value) => (name, encode value)).mapM
      (fun (name, value) => (decode value).map (name, ·)) = some entries := by
  induction entries with
  | nil => rfl
  | cons entry entries ih =>
      obtain ⟨name, value⟩ := entry
      have rest := ih fun other member =>
        back other (List.mem_cons_of_mem _ member)
      have first : decode (encode value) = some value :=
        back (name, value) List.mem_cons_self
      rw [List.map_cons, List.mapM_cons, rest]
      simp [first]

/-- A map is read back if its keys are in order, each once. -/
theorem map_encode {entries : List (String × α)}
    (back : ∀ entry ∈ entries, decode (encode entry.2) = some entry.2)
    (sorted : Keyed.Sorted entries) :
    map decode (obj (entries.map fun (name, value) => (name, encode value))) =
      some entries := by
  rw [map, mapM_encode back]
  simp [sorted.ofList_eq]

/-- An object that gives each name once is a record of any names. -/
theorem objectRecord_obj (names : List String) {members : List (String × Json)}
    (once : (members.map Prod.fst).Nodup) :
    objectRecord names (obj members) = some ⟨members⟩ := by
  have single : ∀ name, occurrences name members ≤ 1 := by
    intro name
    have count := List.nodup_iff_count.mp once name
    rw [List.count, List.countP_map] at count
    exact count
  rw [objectRecord, if_pos]
  simp [single]

theorem record_obj (names : List String) {members : List (String × Json)}
    (once : (members.map Prod.fst).Nodup) :
    record names (obj members) = some ⟨members⟩ :=
  objectRecord_obj names once

/-- A name is not that of a member with another one. -/
@[simp] theorem lookup_cons_of_ne {name other : String} (apart : name ≠ other)
    (value : Json) (members : List (String × Json)) :
    ((other, value) :: members).lookup name = members.lookup name := by
  rw [List.lookup_cons, beq_eq_false_iff_ne.mpr apart]

namespace Fields

variable (members : List (String × Json)) (name : String)

@[simp] theorem required_mk (decode : Decoder α) :
    required ⟨members⟩ name decode = (members.lookup name).bind decode :=
  rfl

@[simp] theorem withDefault_mk (default : α) (decode : Decoder α) :
    withDefault ⟨members⟩ name default decode =
      match members.lookup name with
      | none => some default
      | some value => decode value :=
  rfl

@[simp] theorem optional_mk (decode : Decoder α) :
    optional ⟨members⟩ name decode =
      match members.lookup name with
      | none => some none
      | some value => option decode value :=
  rfl

@[simp] theorem listOf_mk (decode : Decoder α) :
    listOf ⟨members⟩ name decode =
      match members.lookup name with
      | none => some []
      | some value => list decode value :=
  rfl

end Fields

/-!
## Values with a field left out

A record has fields that have to be given, and so have the records in its
fields, items and entries.  A reader that demands a shape refuses every value
from which such a field is left out, wherever it belongs.
-/

/-- The fields that have to be given in a value, and in the values in it. -/
inductive Shape where
  /-- A value with no such fields. -/
  | plain
  | list (item : Shape)
  | map (entry : Shape)
  | record (required : List String) (field : String → Shape)

/-- The second value is the first one with one required field left out. -/
inductive Omits : Shape → Json → Json → Prop where
  | field {required : List String} {field : String → Shape}
      {members : List (String × Json)} {name : String} :
      name ∈ required →
      Omits (.record required field) (.obj members)
        (.obj (members.filter fun member => member.1 != name))
  | within {required : List String} {field : String → Shape}
      {before after : List (String × Json)} {name : String}
      {value value' : Json} :
      Omits (field name) value value' →
      Omits (.record required field) (.obj (before ++ (name, value) :: after))
        (.obj (before ++ (name, value') :: after))
  | item {shape : Shape} {before after : List Json} {value value' : Json} :
      Omits shape value value' →
      Omits (.list shape) (.arr (before ++ value :: after))
        (.arr (before ++ value' :: after))
  | entry {shape : Shape} {before after : List (String × Json)} {name : String}
      {value value' : Json} :
      Omits shape value value' →
      Omits (.map shape) (.obj (before ++ (name, value) :: after))
        (.obj (before ++ (name, value') :: after))

theorem forall_mem_replaced {β : Type} {p : β → Prop} {before after : List β}
    {item item' : β} (each : ∀ other ∈ before ++ item :: after, p other)
    (replaced : p item → p item') : ∀ other ∈ before ++ item' :: after, p other := by
  intro other member
  rcases List.mem_append.mp member with inBefore | further
  · exact each other (List.mem_append_left _ inBefore)
  · rcases List.mem_cons.mp further with rfl | inAfter
    · exact replaced (each item (List.mem_append_right _ List.mem_cons_self))
    · exact each other
        (List.mem_append_right _ (List.mem_cons_of_mem _ inAfter))

theorem Omits.printable {shape : Shape} {value value' : Json}
    (omits : Omits shape value value') (printable : Printable value) :
    Printable value' := by
  induction omits with
  | field =>
      cases printable with
      | obj each =>
          exact .obj fun member inside =>
            each member (List.mem_filter.mp inside).1
  | within _ ih =>
      cases printable with
      | obj each =>
          exact .obj (forall_mem_replaced each fun first => ih first)
  | item _ ih =>
      cases printable with
      | arr each => exact .arr (forall_mem_replaced each ih)
  | entry _ ih =>
      cases printable with
      | obj each =>
          exact .obj (forall_mem_replaced each fun first => ih first)

/-- Leaving a field out of a record adds no name to it. -/
theorem Omits.forall_mem {required : List String} {field : String → Shape}
    {members : List (String × Json)} {value' : Json} {p : String → Prop}
    (omits : Omits (.record required field) (.obj members) value')
    (each : ∀ member ∈ members, p member.1) :
    ∃ members', value' = .obj members' ∧ ∀ member ∈ members', p member.1 := by
  cases omits with
  | field =>
      exact ⟨_, rfl, fun member inside =>
        each member (List.mem_filter.mp inside).1⟩
  | within => exact ⟨_, rfl, forall_mem_replaced each id⟩

variable {α : Type} {decode : Decoder α} {shape : Shape}

/-- Values with a required field left out are refused. -/
def Demands (decode : Decoder α) (shape : Shape) : Prop :=
  ∀ value value', Omits shape value value' → decode value' = none

theorem mapM_eq_none_of_mem {β γ : Type} {f : β → Option γ} {items : List β}
    {item : β} (member : item ∈ items) (refused : f item = none) :
    items.mapM f = none := by
  induction items with
  | nil => cases member
  | cons head rest ih =>
      rw [List.mapM_cons]
      rcases List.mem_cons.mp member with rfl | later
      · rw [refused]
        rfl
      · rw [ih later]
        cases f head <;> rfl

theorem Demands.list (demands : Demands decode shape) :
    Demands (list decode) (.list shape) := by
  intro value value' omits
  cases omits with
  | item inner =>
      rw [Json.list]
      exact mapM_eq_none_of_mem (List.mem_append_right _ List.mem_cons_self)
        (demands _ _ inner)

theorem map_eq_none_of_entry {value : Json} (refused : decode value = none)
    (before after : List (String × Json)) (name : String) :
    map decode (.obj (before ++ (name, value) :: after)) = none := by
  rw [Json.map, mapM_eq_none_of_mem
    (List.mem_append_right _ List.mem_cons_self) (by simp [refused])]
  rfl

theorem Demands.map (demands : Demands decode shape) :
    Demands (map decode) (.map shape) := by
  intro value value' omits
  cases omits with
  | @entry _ before after name _ value' inner =>
      exact map_eq_none_of_entry (demands _ _ inner) before after name

/-- A record demands its required fields and the shapes of all of them. -/
theorem Demands.record {names required : List String} {field : String → Shape}
    {read : Fields → Option α}
    (known : ∀ name ∉ names, field name = .plain)
    (requires : ∀ fields : Fields, ∀ name ∈ required,
      fields.value? name = none → read fields = none)
    (asks : ∀ (fields : Fields) name value value', Omits (field name) value value' →
      fields.value? name = some value' → read fields = none) :
    Demands (fun value => (record names value).bind read)
      (.record required field) := by
  intro value value' omits
  cases omits with
  | @field _ _ members name member =>
      dsimp only
      rw [Json.record, objectRecord]
      split
      · apply requires _ name member
        apply Keyed.lookup_eq_none
        simp
      · rfl
      · simp
  | @within _ _ before after name value value' inner =>
      have named : name ∈ names := by
        by_cases named : name ∈ names
        · exact named
        · rw [known name named] at inner
          cases inner
      dsimp only
      rw [Json.record, objectRecord]
      split
      · next once =>
          apply asks _ name _ _ inner
          have single := List.all_eq_true.mp once name named
          have absent : name ∉ before.map Prod.fst := by
            intro inBefore
            obtain ⟨member, inside, same⟩ := List.mem_map.mp inBefore
            have twice : 0 < before.countP fun member => member.1 == name :=
              List.countP_pos_iff.mpr ⟨member, inside, by simp [same]⟩
            simp [occurrences, List.countP_append] at single
            omega
          rw [Fields.value?, List.lookup_append, Keyed.lookup_eq_none absent]
          simp
      · rfl
      · simp

end ArchSurvey.Json
