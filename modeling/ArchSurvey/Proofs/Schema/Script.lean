import ArchSurvey.Proofs.Lists
import ArchSurvey.Proofs.Schema.Sentences
import Mathlib.Data.List.Flatten

/-!
# Reading scripts

A script is split into the texts of its sentences, and what is understood of
the sentences is what is read of it.  It is all that the sentences say exactly
if no removal of a column is taken for another removal.  Whatever the texts of
two scripts are, a semicolon between them keeps them apart where the first one
is balanced.
-/

namespace ArchSurvey.Schema

open Text

section Pieces

variable {script : List Sentence} {text : List Char}

theorem Padded.segmentOfSentence {sentence : Sentence}
    (padded : Padded (SentenceText sentence) text) :
    Segment (· ≠ ';') text := by
  obtain ⟨front, spelled, back⟩ := padded
  have blank {gap : List Char} (white : Gap gap) : Segment (· ≠ ';') gap :=
    (segment_gap white).mono fun _ passes => passes.2
  exact ((blank front).append spelled.segment).append (blank back)

/-- A script opens no comment. -/
theorem ScriptText.segment (spelled : ScriptText script text) :
    Segment (fun _ => True) text := by
  induction spelled with
  | blank white => exact (segment_gap white).mono fun _ _ => trivial
  | last padded => exact padded.segmentOfSentence.mono fun _ _ => trivial
  | more padded _ ih =>
      exact (padded.segmentOfSentence.mono fun _ _ => trivial).append
        (.plain trivial (by decide) ih)

/-- A script is split at the semicolons between its sentences. -/
theorem splitOutside_script (spelled : ScriptText script text) :
    List.Forall₂ (fun sentence => Padded (SentenceText sentence)) script
      (splitOutside ';' text) := by
  induction spelled with
  | @blank text white =>
      have blank : isAllBlank text = true := by
        rw [isAllBlank, List.all_eq_true]
        exact white
      rw [splitOutside, piecesFrom_last (segment_gap white) (by decide)
        fun c passes => passes.2]
      simp [blank]
  | @last sentence text padded =>
      have solid := padded.isAllBlank fun _ => SentenceText.starts
      rw [splitOutside, piecesFrom_last padded.segmentOfSentence (by decide)
        fun c passes => passes]
      simpa [solid] using padded
  | @more sentence sentences text rest padded _ ih =>
      have solid := padded.isAllBlank fun _ => SentenceText.starts
      rw [splitOutside, piecesFrom_outside padded.segmentOfSentence (by decide)
        fun c passes => passes]
      rw [splitOutside] at ih
      simpa [solid] using And.intro padded ih

/-- What is read of the text of a script. -/
theorem readScript_eq_understood (spelled : ScriptText script text) :
    readScript text = .ok (script.flatMap Sentence.understood) := by
  have each := List.Forall₂.imp
    (fun _ _ padded => readStatement_padded padded) (splitOutside_script spelled)
  rw [readScript, spelled.segment.withoutComments_eq_self,
    mapM_eq_ok_of_forall₂ (List.forall₂_map_left_iff.mpr each)]
  rfl

end Pieces

section Joining

variable {first second : List Char}

/-- Two scripts without comments, the first of which is balanced, are read
together as the one and then the other; the first statement that cannot be
read refuses them. -/
theorem readScript_append
    (noBlock : ¬['/', '*'] <:+: first ∧ ¬['/', '*'] <:+: second)
    (noLine : ¬['-', '-'] <:+: first ∧ ¬['-', '-'] <:+: second)
    (balanced : Balanced first) :
    readScript (first ++ ';' :: second) =
      match readScript first, readScript second with
      | .error error, _ => .error error
      | .ok _, .error error => .error error
      | .ok one, .ok two => .ok (one ++ two) := by
  have clean : withoutComments (first ++ ';' :: second) =
      first ++ ';' :: second := by
    refine withoutComments_of_clean ?_ ?_
    · simp [Text.infix_append_cons_iff, noBlock]
    · simp [Text.infix_append_cons_iff, noLine]
  have separates : ';' ∉ ['\'', '(', ')'] := by decide
  simp only [readScript, clean, withoutComments_of_clean noBlock.1 noLine.1,
    withoutComments_of_clean noBlock.2 noLine.2,
    splitOutside_append separates balanced, List.mapM_append]
  cases (splitOutside ';' first).mapM readStatement with
  | error error => rfl
  | ok one =>
      cases (splitOutside ';' second).mapM readStatement with
      | error error => rfl
      | ok two => exact congrArg Except.ok List.flatten_append

/-- A script that closes a parenthesis before it opens one, with a semicolon
between the two and another one in a string. -/
def crossed : List Char :=
  "DROP TABLE a;) x; y (';'".toList

/-- A script whose second statement has no end. -/
def openEnded : List Char :=
  "DROP TABLE b; CREATE TABLE c (id INT".toList

/-- The first script is read, and the second one refuses both. -/
theorem readScript_append_crossed :
    Balanced crossed ∧ readScript crossed = .ok [.dropTable "a"] ∧
      readScript (crossed ++ ';' :: openEnded) =
        .error (.unterminated "c") := by
  have balanced : Balanced crossed := ⟨by decide, by decide⟩
  have noBlock : ¬['/', '*'] <:+: crossed ∧ ¬['/', '*'] <:+: openEnded :=
    ⟨fun opened => absurd (opened.subset List.mem_cons_self) (by decide),
      fun opened => absurd (opened.subset List.mem_cons_self) (by decide)⟩
  have noLine : ¬['-', '-'] <:+: crossed ∧ ¬['-', '-'] <:+: openEnded :=
    ⟨fun opened => absurd (opened.subset List.mem_cons_self) (by decide),
      fun opened => absurd (opened.subset List.mem_cons_self) (by decide)⟩
  have one : readScript crossed = .ok [.dropTable "a"] := by
    rw [readScript, withoutComments_of_clean noBlock.1 noLine.1]
    decide
  have two : readScript openEnded = .error (.unterminated "c") := by
    rw [readScript, withoutComments_of_clean noBlock.2 noLine.2]
    decide
  refine ⟨balanced, one, ?_⟩
  rw [readScript_append noBlock noLine balanced, one, two]

end Joining

section Understanding

/-- Where each part of a list lacks some at most, nothing is lacking in the
whole exactly if nothing is in any part. -/
theorem flatMap_eq_flatMap_iff {α β : Type} {items : List α}
    {kept all : α → List β} (within : ∀ item ∈ items,
      List.Sublist (kept item) (all item)) :
    items.flatMap kept = items.flatMap all ↔
      ∀ item ∈ items, kept item = all item := by
  induction items with
  | nil => simp
  | cons item rest ih =>
      have here := within item List.mem_cons_self
      have others : ∀ other ∈ rest, List.Sublist (kept other) (all other) :=
        fun other member => within other (List.mem_cons_of_mem item member)
      rw [List.flatMap_cons, List.flatMap_cons, List.forall_mem_cons,
        ← ih others]
      constructor
      · intro equal
        have total := congrArg List.length equal
        have one := here.length_le
        have two := (List.Sublist.flatMap_right rest others).length_le
        rw [List.length_append, List.length_append] at total
        exact List.append_inj equal (by omega)
      · rintro ⟨one, two⟩
        rw [one, two]

theorem Action.understood_sublist (table : String) (action : Action) :
    List.Sublist (action.understood table) (action.statements table) := by
  rw [Action.understood]
  split
  · exact .refl _
  · exact List.nil_sublist _

theorem Action.understood_eq_iff {table : String} {action : Action} :
    action.understood table = action.statements table ↔
      action.Unmistakable := by
  rw [Action.understood]
  split
  · simp_all
  · rename_i mistaken
    refine iff_of_false (fun equal => ?_) mistaken
    cases action with
    | add declaration => exact mistaken trivial
    | constrain constraint => exact mistaken trivial
    | drop removal column => cases equal

theorem Sentence.understood_sublist (sentence : Sentence) :
    List.Sublist sentence.understood sentence.statements := by
  cases sentence with
  | create unlessExists table items => exact .refl _
  | drop tables => exact .refl _
  | alter table actions =>
      exact .flatMap_right actions fun action _ =>
        action.understood_sublist table.text

theorem Sentence.understood_eq_iff {sentence : Sentence} :
    sentence.understood = sentence.statements ↔ sentence.Unmistakable := by
  cases sentence with
  | create unlessExists table items => exact iff_of_true rfl trivial
  | drop tables => exact iff_of_true rfl trivial
  | alter table actions =>
      rw [Sentence.understood, Sentence.statements, flatMap_eq_flatMap_iff
        fun action _ => action.understood_sublist table.text]
      simp only [Action.understood_eq_iff, Sentence.Unmistakable]

/-- A script in the documented notation is read as the statements it means, in
their order, exactly if no bare removal of a column is taken for the removal
of something else. -/
theorem readScript_eq_statements_iff {script : List Sentence}
    {text : List Char} (spelled : ScriptText script text) :
    readScript text = .ok (script.flatMap Sentence.statements) ↔
      ∀ sentence ∈ script, sentence.Unmistakable := by
  rw [readScript_eq_understood spelled, Except.ok.injEq,
    flatMap_eq_flatMap_iff fun sentence _ => sentence.understood_sublist]
  simp only [Sentence.understood_eq_iff]

end Understanding

section Removals

def ordersName : Name :=
  ⟨"orders".toList, by decide, by decide, by decide⟩

def indexName : Name :=
  ⟨"index_no".toList, by decide, by decide, by decide⟩

/-- A script that removes the column `index_no` of the table `orders`. -/
def indexRemoval (removal : Removal) : List Sentence :=
  [.alter ordersName [.drop removal indexName]]

theorem scriptText_indexRemoval {removal : Removal} {text : List Char}
    (spelled : RemovalText indexName removal text) :
    ScriptText (indexRemoval removal)
      ("ALTER TABLE orders ".toList ++ text) := by
  have space : Space [' '] := by decide
  have alter : Cased "alter".toList "ALTER".toList := by decide
  have table : Cased "table".toList "TABLE".toList := by decide
  have named : QualifiedText ordersName "orders".toList :=
    .bare (.plain (by decide))
  have list : Separated ',' (fun action => Padded (ActionText action))
      [.drop removal indexName] text := .one (Padded.self (.drop spelled))
  have words : Words ["alter", "table"] "ALTER TABLE ".toList :=
    .cons alter space (.cons table space .nil)
  exact .last (Padded.self (.alter words named space list))

/-- With a quoted name, the column is removed. -/
theorem readScript_eq_statements_iff_quoted :
    ScriptText (indexRemoval .loose)
        "ALTER TABLE orders DROP \"index_no\"".toList ∧
      readScript "ALTER TABLE orders DROP \"index_no\"".toList =
        .ok [.dropColumn "orders" "index_no"] := by
  have space : Space [' '] := by decide
  have drop : Cased "drop".toList "DROP".toList := by decide
  have named : NameText indexName ('"' :: "index_no".toList ++ ['"']) :=
    .quoted (by decide) (by decide)
  have spelled : RemovalText indexName .loose "DROP \"index_no\"".toList :=
    .loose drop space named (by decide)
  have script := scriptText_indexRemoval spelled
  exact ⟨script, (readScript_eq_statements_iff script).mpr
    (by simp [indexRemoval, Sentence.Unmistakable, Action.Unmistakable])⟩

/-- A script in the documented notation need not be read as what it means: the
removal of the column `index_no` is taken for that of an index. -/
theorem not_readScript_eq_statements :
    ¬∀ (script : List Sentence) (text : List Char), ScriptText script text →
      readScript text = .ok (script.flatMap Sentence.statements) := by
  intro all
  have drop : Cased "drop".toList "DROP".toList := by decide
  have named : Cased indexName.letters "index_no".toList := by decide
  have spelled : RemovalText indexName .tight "DROP index_no".toList :=
    .tight drop named
  have script := scriptText_indexRemoval spelled
  have claimed := (readScript_eq_understood script).symm.trans
    (all _ _ script)
  revert claimed
  decide

end Removals

end ArchSurvey.Schema
