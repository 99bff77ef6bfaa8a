import ArchSurvey.Proofs.Declaration.Arguments

/-!
# Attributes of annotations

Printed arguments are read back by their names.  The reader finds the strings of
each of them, whatever stands in the strings, but for an argument without a
name: an equals sign in one of its strings is taken for the one behind a name
(`takeNote_arguments_iff`).
-/

namespace ArchSurvey.Declaration

open Text

/-! ## Looking up attributes -/

namespace Argument

/-- What an argument says of an attribute to the reader. -/
def valueFor (key : String) (argument : Argument) : Option Value :=
  if argument.isLegible && argument.key == key then some argument.value
  else none

end Argument

section Lookup

variable {value : Value} {argument : Argument} {arguments : List Argument}
  {key : String} {text piece : List Char}

theorem no_sign_of_plain (plain : ∀ c ∈ text, isPlain c = true) :
    '=' ∉ text := fun member => by
  cases plain '=' member

theorem no_sign_of_blank (white : ∀ c ∈ text, isBlank c = true) :
    '=' ∉ text := fun member => by
  cases white '=' member

/-- An equals sign in a value stands in one of its strings. -/
theorem Value.Prints.sign_mem_iff (prints : value.Prints text) :
    '=' ∈ text ↔ ∃ literal ∈ value.literals, '=' ∈ literal := by
  cases prints with
  | string printed =>
      obtain ⟨-, rfl⟩ := printed
      simp [Value.literals, inQuotes]
  | @strings texts before inner after white listed whiteToo =>
      have inside : '=' ∈ inner ↔ ∃ literal ∈ texts, '=' ∈ literal := by
        induction listed with
        | nil => simp
        | only printed =>
            obtain ⟨-, rfl⟩ := printed
            simp [inQuotes]
        | cons printed blank blankToo _ ih =>
            obtain ⟨-, rfl⟩ := printed
            simp [inQuotes, no_sign_of_blank blank, no_sign_of_blank blankToo,
              ih]
      simp [Value.literals, no_sign_of_blank white, no_sign_of_blank whiteToo,
        inside]
  | name _ plain => simp [Value.literals, no_sign_of_plain plain]

/-- The first mark of a value with strings is a quote. -/
theorem Value.Prints.exists_quote (prints : value.Prints text)
    (filled : value.literals ≠ []) :
    ∃ front back, text = front ++ '"' :: back ∧ '=' ∉ front := by
  cases prints with
  | string printed =>
      obtain ⟨-, rfl⟩ := printed
      exact ⟨[], _, rfl, by simp⟩
  | @strings texts before inner after white listed =>
      have quote : ∃ back, inner = '"' :: back := by
        cases listed with
        | nil => exact absurd rfl filled
        | only printed => exact ⟨_, printed.2⟩
        | cons printed => exact ⟨_, by rw [printed.2]; rfl⟩
      obtain ⟨back, rfl⟩ := quote
      exact ⟨'\x7b' :: before, back ++ (after ++ ['\x7d']), by simp,
        by simp [no_sign_of_blank white]⟩
  | name => exact absurd rfl filled

theorem valueIn_of_cutAt {key argument before after : List Char}
    (cut : cutAt '=' argument = some (before, after)) :
    Note.valueIn key argument =
      if trim before == key then some (trim after) else none := by
  rw [Note.valueIn, cut]

theorem mem_trim {c : Char} (solid : isBlank c = false) (member : c ∈ text) :
    c ∈ trim text := by
  have kept : ∀ {text : List Char}, c ∈ text → c ∈ text.dropWhile isBlank := by
    intro text member
    rw [← List.takeWhile_append_dropWhile (p := isBlank) (l := text),
      List.mem_append] at member
    rcases member with early | late
    · cases solid.symm.trans (List.mem_takeWhile_imp early)
    · exact late
  rw [trim, trimWhile, dropEndWhile, List.mem_reverse]
  exact kept (List.mem_reverse.mpr (kept member))

/-- An argument without a name is the value if it is legible, and else nothing
that has a name. -/
theorem rel_valueIn_bare {before printed after : List Char}
    (white : ∀ c ∈ before, isBlank c = true) (prints : value.Prints printed)
    (whiteToo : ∀ c ∈ after, isBlank c = true) (unquoted : '"' ∉ key.toList) :
    Option.Rel Value.Prints ((⟨none, value⟩ : Argument).valueFor key)
      (Note.valueIn key.toList (before ++ printed ++ after)) := by
  cases legible : (⟨none, value⟩ : Argument).isLegible with
  | true =>
      have plain : ¬∃ literal ∈ value.literals, '=' ∈ literal := by
        simpa [Argument.isLegible] using legible
      rw [← prints.sign_mem_iff] at plain
      have whole : '=' ∉ before ++ printed ++ after := by
        simp [no_sign_of_blank white, plain, no_sign_of_blank whiteToo]
      have trimmed : trim (before ++ printed ++ after) = printed :=
        trim_append white whiteToo prints.bounds.1 prints.bounds.2
      rw [Note.valueIn, cutAt_eq_none whole, trimmed, Argument.valueFor,
        legible, Argument.key]
      by_cases same : key = "value"
      · simp [same, prints]
      · have different : key.toList ≠ "value".toList := fun equal =>
          same (String.toList_inj.mp equal)
        rw [if_neg (by simp [Ne.symm same]),
          if_neg (by rw [beq_false_of_ne different]; decide)]
        exact .none
  | false =>
      have signed : ∃ literal ∈ value.literals, '=' ∈ literal := by
        simpa [Argument.isLegible] using legible
      have inside := prints.sign_mem_iff.mpr signed
      obtain ⟨literal, member, -⟩ := signed
      obtain ⟨front, back, rfl, noSign⟩ :=
        prints.exists_quote (List.ne_nil_of_mem member)
      have sign : '=' ∈ back := by simpa [noSign] using inside
      obtain ⟨inner, tail, rfl, plain⟩ := List.eq_append_cons_of_mem sign
      have shape : before ++ (front ++ '"' :: (inner ++ '=' :: tail)) ++ after =
          before ++ front ++ '"' :: inner ++ '=' :: (tail ++ after) := by simp
      have absent : '=' ∉ before ++ front ++ '"' :: inner := by
        simp [no_sign_of_blank white, noSign, plain]
      -- What is taken for a name has a quote in it.
      have quoted : '"' ∈ trim (before ++ front ++ '"' :: inner) :=
        mem_trim (by decide) (by simp)
      have different : trim (before ++ front ++ '"' :: inner) ≠ key.toList :=
        fun same => unquoted (same ▸ quoted)
      rw [shape, valueIn_of_cutAt (cutAt_append absent), Argument.valueFor,
        legible, if_neg (by simp),
        if_neg (by rw [beq_false_of_ne different]; decide)]
      exact .none

/-- The reader looks up what an argument says of an attribute. -/
theorem rel_valueIn (padded : Padded argument piece)
    (unquoted : '"' ∉ key.toList) :
    Option.Rel Value.Prints (argument.valueFor key)
      (Note.valueIn key.toList piece) := by
  obtain ⟨before, printed, after, rfl, white, prints, whiteToo⟩ := padded
  cases prints with
  | @named name value gap gapToo text filled plain blank blankToo printed =>
      have shape :
          before ++ (name.toList ++ (gap ++ '=' :: (gapToo ++ text))) ++ after =
            before ++ name.toList ++ gap ++ '=' :: (gapToo ++ text ++ after) :=
        by simp
      have absent : '=' ∉ before ++ name.toList ++ gap := by
        simp [no_sign_of_blank white, no_sign_of_plain plain,
          no_sign_of_blank blank]
      have solid := solid_of_plain plain
      have trimmed : trim (before ++ name.toList ++ gap) = name.toList :=
        trim_append white blank (starts_of_solid filled solid)
          (ends_of_solid filled solid)
      have trimmedToo : trim (gapToo ++ text ++ after) = text :=
        trim_append blankToo whiteToo printed.bounds.1 printed.bounds.2
      rw [shape, valueIn_of_cutAt (cutAt_append absent), trimmed, trimmedToo,
        Argument.valueFor, Argument.isLegible, Argument.key]
      by_cases same : name = key
      · simp [same, printed]
      · have different : name.toList ≠ key.toList := fun equal =>
          same (String.toList_inj.mp equal)
        simp [same, different]
  | bare prints => exact rel_valueIn_bare white prints whiteToo unquoted

theorem rel_findSome? {α β γ δ : Type} {relates : α → β → Prop}
    {prints : γ → δ → Prop} {find : α → Option γ} {seek : β → Option δ}
    {items : List α} {others : List β}
    (related : List.Forall₂ relates items others)
    (agrees : ∀ item other, relates item other →
      Option.Rel prints (find item) (seek other)) :
    Option.Rel prints (items.findSome? find) (others.findSome? seek) := by
  induction related with
  | nil => exact .none
  | @cons item other items others here _ ih =>
      have first := agrees item other here
      rw [List.findSome?_cons, List.findSome?_cons]
      cases one : find item <;> cases two : seek other <;>
        rw [one, two] at first
      · exact ih
      · cases first
      · cases first
      · exact first

/-- The reader finds the value of the first argument that says something of an
attribute. -/
theorem rel_valueOf? {note : Note} (holds : note.arguments = some text)
    (listed : Listed Argument.Prints arguments text)
    (unquoted : '"' ∉ key.toList) :
    Option.Rel Value.Prints (arguments.findSome? (Argument.valueFor key))
      (note.valueOf? key) := by
  have found : note.valueOf? key =
      (splitArguments text).findSome? (Note.valueIn key.toList) := by
    rw [Note.valueOf?, holds]
    rfl
  rw [found]
  exact rel_findSome? (forall₂_splitArguments listed) fun _ _ padded =>
    rel_valueIn padded unquoted

end Lookup

/-! ## Reading annotations back -/

/-- The first string that some arguments give to an attribute. -/
def firstLiteral (arguments : List Argument) (key : String) :
    Option (List Char) :=
  (arguments.find? fun argument => argument.key == key).bind
    fun argument => argument.value.literals.head?

/-- The path of a mapping: the first string of the `value`, or else of the
`path`, or else nothing. -/
def pathOf (arguments : List Argument) : List Char :=
  ((firstLiteral arguments "value").or (firstLiteral arguments "path")).getD []

/-- What is read of an annotation is what its arguments say. -/
structure Note.ReadsBack (note : Note) (arguments : List Argument) : Prop where
  strings : ∀ argument ∈ arguments,
    note.stringsOf argument.key = argument.value.literals
  path : note.path = pathOf arguments

section Annotations

variable {note : Note} {arguments : List Argument} {argument : Argument}
  {key : String} {text : List Char}

theorem stringsOf_eq (holds : note.arguments = some text)
    (listed : Listed Argument.Prints arguments text)
    (unquoted : '"' ∉ key.toList) :
    note.stringsOf key =
      ((arguments.findSome? (Argument.valueFor key)).map
        Value.literals).getD [] := by
  have found := rel_valueOf? holds listed unquoted
  rw [Note.stringsOf]
  cases said : arguments.findSome? (Argument.valueFor key) <;>
    cases read : note.valueOf? key <;> rw [said, read] at found
  · rfl
  · cases found
  · cases found
  · cases found with
    | some prints => exact prints.searchAll_anyString

theorem stringOf_eq (holds : note.arguments = some text)
    (listed : Listed Argument.Prints arguments text)
    (unquoted : '"' ∉ key.toList) :
    note.stringOf key =
      (arguments.findSome? (Argument.valueFor key)).bind
        fun value => value.literals.head? := by
  have found := rel_valueOf? holds listed unquoted
  have first : note.stringOf key = (note.valueOf? key).bind fun value =>
      (firstString.search value).map fun found => found.group 1 := by
    rw [Note.stringOf]
    cases note.valueOf? key with
    | none => rfl
    | some value => cases search : firstString.search value <;> simp [search]
  rw [first]
  cases said : arguments.findSome? (Argument.valueFor key) <;>
    cases read : note.valueOf? key <;> rw [said, read] at found
  · rfl
  · cases found
  · cases found
  · cases found with
    | some prints => exact prints.search_firstString

/-- Legible arguments are found by their names. -/
theorem findSome?_valueFor
    (legible : ∀ argument ∈ arguments, argument.isLegible = true) :
    arguments.findSome? (Argument.valueFor key) =
      (arguments.find? fun argument => argument.key == key).map
        Argument.value := by
  induction arguments with
  | nil => rfl
  | cons argument arguments ih =>
      have here := legible argument List.mem_cons_self
      have later := ih fun other member => legible other (.tail _ member)
      rw [List.findSome?_cons, List.find?_cons, later, Argument.valueFor, here]
      cases argument.key == key <;> rfl

theorem find?_key_of_mem (distinct : (arguments.map Argument.key).Nodup)
    (member : argument ∈ arguments) :
    (arguments.find? fun other => other.key == argument.key) =
      some argument := by
  induction arguments with
  | nil => cases member
  | cons first arguments ih =>
      obtain ⟨apart, distinct⟩ := List.nodup_cons.mp distinct
      rcases List.mem_cons.mp member with rfl | later
      · simp
      · have different : first.key ≠ argument.key := fun same =>
          apart (same ▸ List.mem_map_of_mem later)
        rw [List.find?_cons, beq_false_of_ne different]
        exact ih distinct later

/-- Nothing is found of an argument that is not legible. -/
theorem findSome?_valueFor_of_not
    (distinct : (arguments.map Argument.key).Nodup)
    (member : argument ∈ arguments) (illegible : argument.isLegible = false) :
    arguments.findSome? (Argument.valueFor argument.key) = none := by
  rw [List.findSome?_eq_none_iff]
  intro other memberToo
  by_cases same : other.key = argument.key
  · have one := find?_key_of_mem distinct memberToo
    rw [same, find?_key_of_mem distinct member, Option.some.injEq] at one
    simp [Argument.valueFor, ← one, illegible]
  · simp [Argument.valueFor, same]

theorem unquoted_of_listed (listed : Listed Argument.Prints arguments text)
    (member : argument ∈ arguments) : '"' ∉ argument.key.toList := by
  have settled : ∀ {argument : Argument} {text : List Char},
      argument.Prints text → '"' ∉ argument.key.toList := by
    intro argument text prints
    cases prints with
    | bare => exact (by decide : '"' ∉ "value".toList)
    | named _ plain => exact fun quote => no_quote_of_plain plain _ quote rfl
  induction listed with
  | nil => cases member
  | only printed =>
      obtain rfl := List.mem_singleton.mp member
      exact settled printed
  | cons printed _ _ _ ih =>
      rcases List.mem_cons.mp member with rfl | later
      · exact settled printed
      · exact ih later

/-- What is read of printed arguments is what they say exactly if all are
legible. -/
theorem readsBack_iff (distinct : (arguments.map Argument.key).Nodup)
    (listed : Listed Argument.Prints arguments text)
    (holds : note.arguments = some text) :
    note.ReadsBack arguments ↔
      ∀ argument ∈ arguments, argument.isLegible = true := by
  constructor
  · intro back argument member
    cases legible : argument.isLegible with
    | true => rfl
    | false =>
        have strings := back.strings argument member
        rw [stringsOf_eq holds listed (unquoted_of_listed listed member),
          findSome?_valueFor_of_not distinct member legible] at strings
        simp [Argument.isLegible, ← strings] at legible
  · intro legible
    refine ⟨fun argument member => ?_, ?_⟩
    · rw [stringsOf_eq holds listed (unquoted_of_listed listed member),
        findSome?_valueFor legible, find?_key_of_mem distinct member]
      rfl
    · rw [Note.path, stringOf_eq holds listed (by decide),
        stringOf_eq holds listed (by decide), findSome?_valueFor legible,
        findSome?_valueFor legible, Option.bind_map, Option.bind_map]
      rfl

theorem trim_listed (listed : Listed Argument.Prints arguments text)
    {front back : List Char} (white : ∀ c ∈ front, isBlank c = true)
    (whiteToo : ∀ c ∈ back, isBlank c = true) :
    trim (front ++ text ++ back) = text := by
  cases arguments with
  | nil =>
      cases listed
      have all : ∀ c ∈ front ++ [] ++ back, isBlank c = true := by
        simp only [List.append_nil, List.mem_append]
        rintro c (early | late)
        · exact white c early
        · exact whiteToo c late
      rw [trim, trimWhile, List.dropWhile_eq_nil_iff.mpr all]
      rfl
  | cons =>
      obtain ⟨starts, ends⟩ := listed.bounds (by simp)
      exact trim_append white whiteToo starts ends

/-- Printed arguments are read up to the closing parenthesis. -/
theorem takeArguments_listed (listed : Listed Argument.Prints arguments text)
    {front back : List Char} (white : ∀ c ∈ front, isBlank c = true)
    (whiteToo : ∀ c ∈ back, isBlank c = true) (rest : List Char) :
    takeArguments ('(' :: (front ++ text ++ back ++ ')' :: rest)) =
      (some text, rest) := by
  have inner : Closed true text :=
    listed.closed fun _ _ printed => printed.closed
  have closed : Closed true (front ++ text ++ back) :=
    ((closed_of_blank white).append inner).append (closed_of_blank whiteToo)
  obtain ⟨last, -, same⟩ :=
    closed.afterParenthesis_append (by decide : '(' ≠ '\\') 1 []
  have ends : afterParenthesis 1 false '(' []
      (front ++ text ++ back ++ ')' :: rest) =
        some (front ++ text ++ back, rest) := by
    rw [same, afterParenthesis]
    simp
  rw [takeArguments, ends]
  simp only [trim_listed listed white whiteToo]

end Annotations

/-- The arguments `"/x,{id}(<a>", params = {"b=c", "d"}, method = Method.GET`.
-/
def mappingArguments : List Argument :=
  [⟨none, .string "/x,\x7bid\x7d(<a>".toList⟩,
    ⟨some "params", .strings ["b=c".toList, "d".toList]⟩,
    ⟨some "method", .name "Method.GET".toList⟩]

/-- The arguments of a mapping on two lines. -/
def mappingText : List Char :=
  "\"/x,\x7bid\x7d(<a>\",\n params = \x7b\"b=c\", \"d\"\x7d, ".toList ++
    "method = Method.GET".toList

theorem listed_mappingArguments :
    Listed Argument.Prints mappingArguments mappingText := by
  have space : ∀ c ∈ [' '], isBlank c = true := by decide
  have line : ∀ c ∈ ['\n', ' '], isBlank c = true := by decide
  have nothing : ∀ c ∈ ([] : List Char), isBlank c = true := by decide
  have first : PrintsString "b=c".toList (inQuotes "b=c".toList) :=
    ⟨by decide, rfl⟩
  have second : PrintsString "d".toList (inQuotes "d".toList) :=
    ⟨by decide, rfl⟩
  have strings := Value.Prints.strings nothing
    (.cons first nothing space (.only second)) nothing
  have bare : Argument.Prints ⟨none, .string "/x,\x7bid\x7d(<a>".toList⟩ _ :=
    .bare (.string ⟨by decide, rfl⟩)
  have params : Argument.Prints ⟨some "params", _⟩ _ :=
    .named (by decide) (by decide) space space strings
  have method : Argument.Prints ⟨some "method", .name "Method.GET".toList⟩ _ :=
    .named (by decide) (by decide) space space (.name (by decide) (by decide))
  have listed := Listed.cons bare nothing line
    (.cons params nothing space (.only method))
  refine cast (congrArg (Listed Argument.Prints mappingArguments) ?_) listed
  decide

section Annotations

variable {arguments : List Argument} {text : List Char}

/-- An annotation is read with its arguments, and what they say is read back
exactly if no argument without a name has an equals sign in its strings. -/
theorem takeNote_arguments_iff {name front back : List Char}
    (named : ∀ c ∈ name, isNameChar c = true)
    (distinct : (arguments.map Argument.key).Nodup)
    (listed : Listed Argument.Prints arguments text)
    (white : ∀ c ∈ front, isBlank c = true)
    (whiteToo : ∀ c ∈ back, isBlank c = true) (rest : List Char) :
    ∃ note, takeNote (name ++ '(' :: (front ++ text ++ back ++ ')' :: rest)) =
        (note, rest) ∧
      (note.ReadsBack arguments ↔
        ∀ argument ∈ arguments, argument.isLegible = true) := by
  obtain ⟨taken, dropped⟩ := @span_append isNameChar name
    ('(' :: (front ++ text ++ back ++ ')' :: rest)) named
    (refuses_some (by decide))
  have solid : trimStart ('(' :: (front ++ text ++ back ++ ')' :: rest)) =
      '(' :: (front ++ text ++ back ++ ')' :: rest) :=
    List.dropWhile_cons_of_neg (by decide)
  refine ⟨⟨String.ofList (afterLast '.' name), some text⟩, ?_,
    readsBack_iff distinct listed rfl⟩
  rw [takeNote_eq, taken, dropped, solid,
    takeArguments_listed listed white whiteToo]

/-- A comma, braces and parentheses in a string make no difference, nor does an
equals sign in a string of an attribute with a name. -/
theorem takeNote_arguments_iff_mapping :
    ∃ note, takeNote ("Mapping".toList ++ '(' ::
        ([] ++ mappingText ++ [] ++ ')' :: [])) = (note, []) ∧
      note.ReadsBack mappingArguments := by
  have named : ∀ c ∈ "Mapping".toList, isNameChar c = true := by decide
  have blank : ∀ c ∈ ([] : List Char), isBlank c = true := by decide
  obtain ⟨note, takes, back⟩ := takeNote_arguments_iff named (by decide)
    listed_mappingArguments blank blank []
  exact ⟨note, takes, back.mpr (by decide)⟩

/-- The only argument `"/items/type=book"`. -/
def typeArguments : List Argument :=
  [⟨none, .string "/items/type=book".toList⟩]

/-- An equals sign in a string without a name is taken for the one behind a
name, and the path is lost. -/
theorem not_takeNote_arguments :
    ¬∀ (name text : List Char) (arguments : List Argument),
      (∀ c ∈ name, isNameChar c = true) →
      (arguments.map Argument.key).Nodup →
      Listed Argument.Prints arguments text →
      (takeNote (name ++ '(' :: (text ++ [')']))).1.path =
        pathOf arguments := by
  intro all
  have listed : Listed Argument.Prints typeArguments
      (inQuotes "/items/type=book".toList) :=
    .only (.bare (.string ⟨by decide, rfl⟩))
  have same := all "GetMapping".toList _ _ (by decide) (by decide) listed
  revert same
  decide +kernel

end Annotations

end ArchSurvey.Declaration
