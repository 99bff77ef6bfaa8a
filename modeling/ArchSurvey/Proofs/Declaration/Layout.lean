import ArchSurvey.Proofs.Declaration.Heading
import ArchSurvey.Proofs.Declaration.Tokens

/-!
# Layouts of annotations and modifiers

Laid out with white space and comments in front of each, annotations and
modifiers are read up to the first comment (`Layout.exists_reads`).  So they are
read as they are exactly if there is none, and no name begins like the keyword
of annotation types (`ofText_layout_iff`).
-/

namespace ArchSurvey.Declaration

open Text

/-- Whether the reader of arguments sees a token as it is: it knows no
comments and no character literals, and takes a quote behind a backslash for a
character of the string. -/
def Token.isPlain : Token → Bool
  | code c => c != '\\'
  | literal quote text =>
      if quote == '"' then text.getLast? != some '\\'
      else text.all fun c => c != '"' && c != '(' && c != ')'
  | _ => false

/-- Whether the parentheses in some code are balanced, `depth` of them being
open. -/
def balances (depth : Nat) : List Token → Bool
  | [] => depth == 0
  | .code c :: rest =>
      if c == '(' then balances (depth + 1) rest
      else if c == ')' then 0 < depth && balances (depth - 1) rest
      else balances depth rest
  | _ :: rest => balances depth rest

/-- The arguments of an annotation, up to its closing parenthesis. -/
structure Legible (arguments : List Token) : Prop where
  well : wellFormed (arguments ++ [.code ')']) = true
  plain : ∀ token ∈ arguments, token.isPlain = true
  balanced : balances 0 arguments = true

section Arguments

variable {depth : Nat} {previous : Char} {inside text : List Char}

/-- A string is read up to its end. -/
theorem afterParenthesis_string (enclosed : isEnclosed '"' text = true)
    (ends : (previous :: text).getLast? ≠ some '\\') (rest : List Char) :
    afterParenthesis depth true previous inside (text ++ '"' :: rest) =
      afterParenthesis depth false '"' ('"' :: (text.reverse ++ inside))
        rest := by
  fun_induction isEnclosed '"' text generalizing previous inside with
  | case1 c tail ih =>
      have later : (c :: tail).getLast? ≠ some '\\' := by simpa using ends
      rw [List.cons_append, List.cons_append, afterParenthesis,
        if_neg (by simp), if_pos rfl, afterParenthesis, if_neg (by simp),
        if_pos rfl, ih enclosed later]
      simp
  | case2 => cases enclosed
  | case3 c tail noEscape noLone ih =>
      obtain ⟨plain, inner⟩ : c ≠ '"' ∧ isEnclosed '"' tail = true := by
        simpa using enclosed
      have later : (c :: tail).getLast? ≠ some '\\' := by simpa using ends
      rw [List.cons_append, afterParenthesis, if_neg (by simp [plain]),
        if_pos rfl, ih inner later]
      simp
  | case4 =>
      have here : previous ≠ '\\' := by simpa using ends
      rw [List.nil_append, afterParenthesis, if_pos (by simp [here])]
      rfl

/-- Characters that are no parentheses and no quotes are passed over. -/
theorem afterParenthesis_plain
    (plain : ∀ c ∈ text, c ≠ '"' ∧ c ≠ '(' ∧ c ≠ ')') (last : Char)
    (lastPlain : last ≠ '"' ∧ last ≠ '(' ∧ last ≠ ')') (rest : List Char) :
    afterParenthesis depth false previous inside (text ++ last :: rest) =
      afterParenthesis depth false last (last :: (text.reverse ++ inside))
        rest := by
  induction text generalizing previous inside with
  | nil =>
      obtain ⟨noQuote, noOpen, noClose⟩ := lastPlain
      rw [List.nil_append, afterParenthesis, if_neg (by simp [noQuote]),
        if_neg (by simp), if_neg (by simp [noOpen]),
        if_neg (by simp [noClose])]
      rfl
  | cons c text ih =>
      obtain ⟨noQuote, noOpen, noClose⟩ := plain c List.mem_cons_self
      rw [List.cons_append, afterParenthesis, if_neg (by simp [noQuote]),
        if_neg (by simp), if_neg (by simp [noOpen]),
        if_neg (by simp [noClose]),
        ih fun d member => plain d (List.mem_cons_of_mem c member)]
      simp

/-- The end that the reader finds is the end of the arguments. -/
theorem afterParenthesis_spell {arguments : List Token}
    (well : wellFormed (arguments ++ [.code ')']) = true)
    (plain : ∀ token ∈ arguments, token.isPlain = true)
    (balanced : balances depth arguments = true) (start : previous ≠ '\\')
    (rest : List Char) :
    afterParenthesis (depth + 1) false previous inside
      (spell arguments ++ ')' :: rest) =
        some (inside.reverse ++ spell arguments, rest) := by
  induction arguments generalizing depth previous inside with
  | nil =>
      obtain rfl : depth = 0 := by simpa [balances] using balanced
      simp [spell, afterParenthesis]
  | cons token arguments ih =>
      have plainLater : ∀ token ∈ arguments, token.isPlain = true :=
        fun token member => plain token (List.mem_cons_of_mem _ member)
      have here := plain token List.mem_cons_self
      rw [spell, List.flatMap_cons, ← spell]
      rw [List.cons_append] at well
      cases token with
      | line => cases here
      | block => cases here
      | code c =>
          have noBackslash : c ≠ '\\' := by simpa [Token.isPlain] using here
          simp only [wellFormed, Bool.and_eq_true, bne_iff_ne] at well
          obtain ⟨⟨⟨noString, -⟩, -⟩, wellLater⟩ := well
          rw [Token.text, List.singleton_append, List.cons_append,
            afterParenthesis, if_neg (by simp [noString]), if_neg (by simp)]
          rw [balances] at balanced
          split at balanced
          · rename_i opens
            rw [if_pos opens,
              ih wellLater plainLater balanced noBackslash]
            simp
          · rename_i noOpen
            split at balanced
            · rename_i closes
              obtain ⟨deep, inner⟩ :
                  0 < depth ∧ balances (depth - 1) arguments = true := by
                simpa using balanced
              obtain ⟨less, rfl⟩ : ∃ less, depth = less + 1 :=
                ⟨depth - 1, by omega⟩
              rw [Nat.add_sub_cancel] at inner
              rw [if_neg noOpen, if_pos closes, if_neg (by omega),
                Nat.add_sub_cancel,
                ih wellLater plainLater inner noBackslash]
              simp
            · rename_i noClose
              rw [if_neg noOpen, if_neg noClose,
                ih wellLater plainLater balanced noBackslash]
              simp
      | literal quote text =>
          simp only [wellFormed, Bool.and_eq_true, Bool.or_eq_true,
            beq_iff_eq] at well
          obtain ⟨⟨marked, enclosed⟩, wellLater⟩ := well
          have shape :
              (Token.literal quote text).text ++ spell arguments ++ ')' :: rest =
                quote :: (text ++ quote :: (spell arguments ++ ')' :: rest)) := by
            simp [Token.text]
          rw [shape]
          -- A character literal is no string to the reader, which takes its
          -- letters one by one: `isPlain` keeps quotes and parentheses out.
          rcases marked with rfl | rfl
          · have ends : ('"' :: text).getLast? ≠ some '\\' := by
              cases text with
              | nil => simp
              | cons c text => simpa [Token.isPlain] using here
            rw [afterParenthesis, if_pos (by simp [start]), Bool.not_false,
              afterParenthesis_string enclosed ends,
              ih wellLater plainLater balanced (by decide)]
            simp [Token.text]
          · have inner : ∀ c ∈ '\'' :: text, c ≠ '"' ∧ c ≠ '(' ∧ c ≠ ')' := by
              simpa [Token.isPlain, and_assoc] using here
            rw [← List.cons_append,
              afterParenthesis_plain inner '\'' (by decide),
              ih wellLater plainLater balanced (by decide)]
            simp [Token.text]

end Arguments

/-- An annotation, with the tokens of its arguments, or a modifier. -/
inductive Item where
  | note (name : List Char) (arguments : Option (List Token))
  | modifier (word : String)
  deriving DecidableEq, Repr

namespace Item

/-- What is to be read of an annotation. -/
def note? : Item → Option Note
  | note name arguments =>
      some ⟨String.ofList (afterLast '.' name),
        arguments.map fun tokens => trim (spell tokens)⟩
  | modifier _ => none

/-- What is to be read of a modifier. -/
def word? : Item → Option String
  | note .. => none
  | modifier word => some word

/-- Whether an item looks like the keyword of annotation types. -/
def isKeyword : Item → Bool
  | note name _ => startsWith "interface".toList name
  | modifier _ => false

end Item

/-- White space and comments. -/
def Gap (gap : List Token) : Prop :=
  ∀ token ∈ gap, token.isComment = true ∨
    ∃ c, token = .code c ∧ isBlank c = true

/-- How annotations and modifiers, each behind a gap, are laid out in front of
a text that begins with neither. -/
inductive Layout : List (List Token × Item) → List Char → Prop where
  | done {rest : List Char} :
      startsNote (trimStart rest) = false →
      takeModifier (trimStart rest) = none → Layout [] rest
  | mark {items : List (List Token × Item)} {gap : List Token}
      {name later : List Char} :
      Gap gap → (∀ c ∈ name, isNameChar c = true) →
      (∀ c ∈ later.head?, isNameChar c = false) →
      (trimStart later).head? ≠ some '(' → Layout items later →
      Layout ((gap, .note name none) :: items)
        (spell gap ++ '@' :: (name ++ later))
  | call {items : List (List Token × Item)} {gap arguments : List Token}
      {name later : List Char} :
      Gap gap → (∀ c ∈ name, isNameChar c = true) → Legible arguments →
      Layout items later →
      Layout ((gap, .note name (some arguments)) :: items)
        (spell gap ++ '@' :: (name ++ '(' :: (spell arguments ++ ')' :: later)))
  | modifier {items : List (List Token × Item)} {gap : List Token}
      {word : String} {later : List Char} :
      Gap gap → word ∈ modifierWords →
      (∀ c ∈ later.head?, isModifierChar c = false) → Layout items later →
      Layout ((gap, .modifier word) :: items)
        (spell gap ++ (word.toList ++ later))

/-- Whether an item is read when those in front of it are. -/
def isSeen (entry : List Token × Item) : Bool :=
  entry.1.all (fun token => !token.isComment) && !entry.2.isKeyword

section Layouts

variable {items : List (List Token × Item)} {gap : List Token}
  {text : List Char}

/-- A gap without comments is passed over. -/
theorem trimStart_gap (trivia : Gap gap)
    (clear : gap.all (fun token => !token.isComment) = true) :
    trimStart (spell gap ++ text) = trimStart text := by
  have white : ∀ c ∈ spell gap, isBlank c = true := by
    intro c member
    obtain ⟨token, here, inside⟩ := List.mem_flatMap.mp member
    have plain : token.isComment = false := by
      simpa using List.all_eq_true.mp clear token here
    rcases trivia token here with comment | ⟨d, rfl, blank⟩
    · cases comment.symm.trans plain
    · obtain rfl : c = d := by simpa [Token.text] using inside
      exact blank
  exact List.dropWhile_append_of_pos white

/-- A gap with a comment is passed over up to the comment. -/
theorem head?_trimStart_gap (trivia : Gap gap)
    (commented : gap.all (fun token => !token.isComment) = false) :
    (trimStart (spell gap ++ text)).head? = some '/' := by
  have slash : ¬isBlank '/' = true := by decide
  induction gap with
  | nil => cases commented
  | cons token gap ih =>
      rw [spell, List.flatMap_cons, ← spell, List.append_assoc]
      rcases trivia token List.mem_cons_self with comment | ⟨c, rfl, blank⟩
      · cases token with
        | code => cases comment
        | literal => cases comment
        | line => exact congrArg List.head? (List.dropWhile_cons_of_neg slash)
        | block => exact congrArg List.head? (List.dropWhile_cons_of_neg slash)
      · have later : gap.all (fun token => !token.isComment) = false := by
          simpa [Token.isComment] using commented
        rw [trimStart, Token.text, List.singleton_append,
          List.dropWhile_cons_of_pos blank]
        exact ih (fun token member =>
          trivia token (List.mem_cons_of_mem _ member)) later

theorem reads_keyword {name later : List Char}
    (keyword : startsWith "interface".toList name = true) :
    Reads ('@' :: (name ++ later)) { rest := '@' :: (name ++ later) } := by
  refine .done ?_ (takeModifier_eq_none (by simp; decide))
  rw [startsNote_cons, Bool.not_eq_false', startsWith_iff]
  exact (startsWith_iff.mp keyword).trans (List.prefix_append ..)

theorem reads_note {name later rest : List Char}
    {arguments : Option (List Char)} {heading : Heading}
    (named : ∀ c ∈ name, isNameChar c = true)
    (boundary : ∀ c ∈ later.head?, isNameChar c = false)
    (free : startsWith "interface".toList name = false)
    (takes : takeArguments (trimStart later) = (arguments, rest))
    (reads : Reads (trimStart rest) heading) :
    Reads ('@' :: (name ++ later))
      { heading with
        annotations := ⟨String.ofList (afterLast '.' name), arguments⟩ ::
          heading.annotations } := by
  obtain ⟨taken, dropped⟩ := span_append named boundary
  refine .note ?_ ?_ reads
  · rw [startsNote_cons, startsWith_append (by decide) boundary, free]
    rfl
  · rw [List.drop_one, List.tail_cons, takeNote_eq, taken, dropped, takes]

theorem takeArguments_spell {arguments : List Token}
    (legible : Legible arguments) (later : List Char) :
    takeArguments ('(' :: (spell arguments ++ ')' :: later)) =
      (some (trim (spell arguments)), later) := by
  rw [takeArguments, afterParenthesis_spell legible.well legible.plain
    legible.balanced (by decide)]
  rfl

end Layouts

/-- The items that are read. -/
def seen (items : List (List Token × Item)) : List Item :=
  (items.takeWhile isSeen).map Prod.snd

/-- How some items are read. -/
def Heading.ofItems (items : List Item) (rest : List Char) : Heading where
  annotations := items.filterMap Item.note?
  modifiers := items.filterMap Item.word?
  rest := rest

section Layouts

variable {items : List (List Token × Item)} {gap : List Token} {item : Item}
  {text : List Char}

theorem seen_cons {entry : List Token × Item} (here : isSeen entry = true) :
    seen (entry :: items) = entry.2 :: seen items := by
  rw [seen, List.takeWhile_cons_of_pos here, List.map_cons, ← seen]

theorem seen_cons_of_not {entry : List Token × Item}
    (hidden : isSeen entry = false) : seen (entry :: items) = [] := by
  rw [seen, List.takeWhile_cons_of_neg (by simp [hidden]), List.map_nil]

/-- An item is read behind a gap unless there is a comment in it. -/
theorem exists_reads_gap (trivia : Gap gap) (solid : trimStart text = text)
    (reads : ∃ rest, Reads text (.ofItems (seen (([], item) :: items)) rest)) :
    ∃ rest, Reads (trimStart (spell gap ++ text))
      (.ofItems (seen ((gap, item) :: items)) rest) := by
  cases clear : gap.all fun token => !token.isComment with
  | true =>
      have alike : isSeen (gap, item) = isSeen ([], item) := by
        rw [isSeen, clear]
        rfl
      have same : seen ((gap, item) :: items) = seen (([], item) :: items) := by
        cases here : isSeen ([], item) with
        | true => rw [seen_cons here, seen_cons (alike.trans here)]
        | false =>
            rw [seen_cons_of_not here, seen_cons_of_not (alike.trans here)]
      rwa [trimStart_gap trivia clear, solid, same]
  | false =>
      have hidden : isSeen (gap, item) = false := by rw [isSeen, clear]; rfl
      have slash : (trimStart (spell gap ++ text)).head? = some '/' :=
        head?_trimStart_gap trivia clear
      rw [seen_cons_of_not hidden]
      refine ⟨_, .done ?_ (takeModifier_eq_none ?_)⟩
      · rw [startsNote, slash]
        rfl
      · rw [slash]
        exact refuses_some (by decide)

theorem exists_reads_note {name tail later : List Char}
    {arguments : Option (List Token)}
    (named : ∀ c ∈ name, isNameChar c = true)
    (boundary : ∀ c ∈ tail.head?, isNameChar c = false)
    (takes : takeArguments (trimStart tail) =
      (arguments.map fun tokens => trim (spell tokens), later))
    (reads : ∃ rest, Reads (trimStart later) (.ofItems (seen items) rest)) :
    ∃ rest, Reads ('@' :: (name ++ tail))
      (.ofItems (seen (([], .note name arguments) :: items)) rest) := by
  obtain ⟨rest, reads⟩ := reads
  cases keyword : startsWith "interface".toList name with
  | true =>
      have hidden : isSeen ([], .note name arguments) = false := by
        rw [isSeen, Item.isKeyword, keyword]
        rfl
      rw [seen_cons_of_not hidden]
      exact ⟨_, reads_keyword keyword⟩
  | false =>
      have here : isSeen ([], .note name arguments) = true := by
        rw [isSeen, Item.isKeyword, keyword]
        rfl
      rw [seen_cons here]
      exact ⟨rest, reads_note named boundary keyword takes reads⟩

/-- Of annotations and modifiers those are read that stand in front of the
first comment and the first name that begins like the keyword of annotation
types. -/
theorem Layout.exists_reads (layout : Layout items text) :
    ∃ rest, Reads (trimStart text) (.ofItems (seen items) rest) := by
  induction layout with
  | done noNote noWord => exact ⟨_, .done noNote noWord⟩
  | @mark items gap name later trivia named boundary noCall _ ih =>
      refine exists_reads_gap trivia (List.dropWhile_cons_of_neg (by decide)) ?_
      refine exists_reads_note named boundary (takeArguments_none noCall) ?_
      rwa [trimStart_trimStart]
  | @call items gap arguments name later trivia named legible _ ih =>
      refine exists_reads_gap trivia (List.dropWhile_cons_of_neg (by decide)) ?_
      exact exists_reads_note named (refuses_some (by decide))
        (takeArguments_spell legible later) ih
  | @modifier items gap word later trivia known boundary _ ih =>
      obtain ⟨rest, reads⟩ := ih
      obtain ⟨letters, first, tail, spelled, solid, noMark⟩ :=
        spelling_of_modifier known
      obtain ⟨taken, dropped⟩ := span_append letters boundary
      refine exists_reads_gap trivia ?_ ?_
      · rw [spelled]
        exact List.dropWhile_cons_of_neg (by simp [solid])
      · rw [seen_cons rfl]
        refine ⟨rest, .modifier ?_ ?_ reads⟩
        · rw [spelled]
          simp [startsNote, noMark]
        · rw [takeModifier_eq, taken, dropped, String.ofList_toList,
            if_pos (by simpa using known)]

/-- Each item is an annotation or a modifier. -/
theorem length_ofItems (items : List Item) :
    (items.filterMap Item.note?).length + (items.filterMap Item.word?).length =
      items.length := by
  induction items with
  | nil => rfl
  | cons item items ih =>
      cases item with
      | note name arguments =>
          simp only [List.filterMap_cons, Item.note?, Item.word?,
            List.length_cons]
          omega
      | modifier word =>
          simp only [List.filterMap_cons, Item.note?, Item.word?,
            List.length_cons]
          omega

theorem seen_eq_iff :
    seen items = items.map Prod.snd ↔ ∀ entry ∈ items, isSeen entry = true := by
  rw [← List.takeWhile_eq_self_iff]
  refine ⟨fun equal => ?_, fun all => by rw [seen, all]⟩
  have lengths := congrArg List.length equal
  rw [seen, List.length_map, List.length_map] at lengths
  exact (List.takeWhile_prefix isSeen).eq_of_length lengths

end Layouts

/-- The arguments `name = "a)b", index = @Index("c")`. -/
def tableArguments : List Token :=
  "name = ".toList.map .code ++ [.literal '"' "a)b".toList] ++
    ", index = @Index(".toList.map .code ++ [.literal '"' "c".toList] ++
      [.code ')']

/-- The annotations and the modifier of a class, with some white space or
comments in front of the second annotation. -/
def tableItems (gap : List Token) : List (List Token × Item) :=
  [([], .note "Entity".toList none),
    (gap, .note "Table".toList (some tableArguments)),
    ([.code ' '], .modifier "public")]

/-- The text behind the gap. -/
def tableRest : List Char :=
  "@Table(name = \"a)b\", index = @Index(\"c\")) public class A".toList

def tableText (gap : List Token) : List Char :=
  "@Entity".toList ++ (spell gap ++ tableRest)

theorem layout_tableItems {gap : List Token} (trivia : Gap gap)
    (boundary : (spell gap ++ tableRest).head?.any isNameChar = false)
    (noCall : (trimStart (spell gap ++ tableRest)).head? ≠ some '(') :
    Layout (tableItems gap) (tableText gap) := by
  have nothing : Gap [] := by simp [Gap]
  have space : Gap [.code ' '] := by simp [Gap]; decide
  have named : ∀ c ∈ "Table".toList, isNameChar c = true := by decide
  have legible : Legible tableArguments := ⟨by decide, by decide, by decide⟩
  have known : "public" ∈ modifierWords := by decide
  have rest : Layout [] " class A".toList := .done (by decide) (by decide)
  have edge : " class A".toList.head? = some ' ' := by decide
  have words := Layout.modifier space known
    (edge ▸ refuses_some (by decide)) rest
  have table := Layout.call trivia named legible words
  refine .mark nothing (by decide) (fun c first => ?_) noCall table
  rwa [Option.mem_def.mp first] at boundary

section Layouts

variable {items : List (List Token × Item)} {text : List Char}

/-- The annotations and modifiers in front of a declaration are read as they are
exactly if no comment stands in front of one of them and no annotation's name
begins like the keyword of annotation types. -/
theorem ofText_layout_iff (layout : Layout items text) :
    ((Heading.ofText text).annotations =
        (items.map Prod.snd).filterMap Item.note? ∧
      (Heading.ofText text).modifiers =
        (items.map Prod.snd).filterMap Item.word?) ↔
    ∀ entry ∈ items, isSeen entry = true := by
  obtain ⟨rest, reads⟩ := layout.exists_reads
  rw [reads.ofText_eq, ← seen_eq_iff]
  constructor
  · rintro ⟨notes, words⟩
    have count := length_ofItems (seen items)
    have whole := length_ofItems (items.map Prod.snd)
    rw [← notes, ← words] at whole
    have lengths : (seen items).length = (items.map Prod.snd).length :=
      count.symm.trans whole
    -- What is read is a prefix of the items, and as long as they are.
    exact ((List.takeWhile_prefix isSeen).map Prod.snd).eq_of_length lengths
  · intro same
    rw [same]
    exact ⟨rfl, rfl⟩

/-- On two lines, both annotations are read. -/
theorem ofText_layout_iff_lines :
    (Heading.ofText (tableText [.code '\n'])).annotations =
        [⟨"Entity", none⟩,
          ⟨"Table", some "name = \"a)b\", index = @Index(\"c\")".toList⟩] ∧
      (Heading.ofText (tableText [.code '\n'])).modifiers = ["public"] := by
  have lines : Gap [.code '\n'] := by simp [Gap]; decide
  have layout := layout_tableItems lines (by decide) (by decide)
  exact (ofText_layout_iff layout).mpr (by decide)

/-- Behind a comment neither annotation nor modifier is read. -/
theorem not_ofText_layout :
    ¬∀ (items : List (List Token × Item)) (text : List Char),
      Layout items text →
        (Heading.ofText text).annotations =
            (items.map Prod.snd).filterMap Item.note? ∧
          (Heading.ofText text).modifiers =
            (items.map Prod.snd).filterMap Item.word? := by
  intro all
  have comment : Gap [.code ' ', .block " c ".toList, .code ' '] := by
    simp [Gap, Token.isComment]
    decide
  have layout := layout_tableItems comment (by decide) (by decide)
  have same := (all _ _ layout).2
  revert same
  decide

end Layouts

end ArchSurvey.Declaration
