import ArchSurvey.Diagram.Entities
import ArchSurvey.Proofs.Text.Blank
import Mathlib.Data.List.Forall2

/-!
# Names in diagrams

Which texts a diagram tells apart.  The names of nodes show letters and digits
of ASCII only, so texts have the same name if they agree in these and in their
places.  The names of blocks drop the letter case as well, but still tell a
text from its plural.
-/

/-!
## Laws of letter case

The lower-case form of a text character by character.  The dotted capital I is
the only character with two characters in lower case, an `i` and a dot above.
Of the characters that are neither letters nor digits of ASCII it is the only
one whose lower case starts with an `i`.
-/

namespace ArchSurvey.Text

/-- A search in runs finds the shift of a run around the number. -/
theorem exists_run_of_shiftFrom {runs : Array (Nat × Nat × Nat × Int)}
    {n low high : Nat} {shift : Int}
    (found : shiftFrom runs n low high = some shift) :
    ∃ first last step, (first, last, step, shift) ∈ runs ∧
      first ≤ n ∧ n ≤ last := by
  fun_induction shiftFrom runs n low high with
  | case1 low high below middle absent => cases found
  | case2 low high below middle first last step held run before ih =>
      exact ih found
  | case3 low high below middle first last step held run before after ih =>
      exact ih found
  | case4 low high below middle first last step held run before after onStep =>
      cases found
      exact ⟨first, last, step, Array.mem_of_getElem? run, by omega, by omega⟩
  | case5 => cases found
  | case6 => cases found

theorem eq_toNat_of_ofNat_eq {code : Nat} {c : Char} (printed : c.toNat ≠ 0)
    (same : Char.ofNat code = c) : code = c.toNat := by
  subst same
  rw [Char.ofNat] at printed ⊢
  by_cases valid : code.isValidChar
  · rw [dif_pos valid]
    rfl
  · rw [dif_neg valid] at printed
    exact absurd rfl printed

/-- No character above ASCII is an `i` in lower case. -/
theorem shifted_lowerRuns_ne {c : Char} (above : 128 ≤ c.toNat) :
    shifted lowerRuns c ≠ 'i' := by
  have apart : ∀ run ∈ lowerRuns,
      ¬ ((run.1 : Int) + run.2.2.2 ≤ 105 ∧ 105 ≤ run.2.1 + run.2.2.2) := by
    decide +kernel
  rw [shifted]
  split
  · rintro rfl
    revert above
    decide
  · next shift found =>
      obtain ⟨first, last, step, member, least, most⟩ :=
        exists_run_of_shiftFrom found
      intro same
      have image : Int.toNat (c.toNat + shift) = 105 :=
        eq_toNat_of_ofNat_eq (by decide) same
      have outside : ¬ ((first : Int) + shift ≤ 105 ∧ 105 ≤ last + shift) :=
        apart _ member
      omega

theorem lowerFrom_cons_dotted (before rest : List Char) :
    lowerFrom before ('İ' :: rest) =
      'i' :: '\u0307' :: lowerFrom ('İ' :: before) rest := by
  have image : lowerChar 'İ' = ['i', '\u0307'] := by decide
  simp [lowerFrom, image]

theorem isAsciiAlphanumeric_of_toLower {c : Char} (ascii : c.toNat < 128)
    (lower : c.toLower = 'i') : isAsciiAlphanumeric c = true :=
  forall_ascii (fun c => c.toLower = 'i' → isAsciiAlphanumeric c = true)
    (by decide +kernel) ascii lower

/-- Every other character has one character in lower case, which is an `i` for
letters of ASCII only. -/
theorem exists_lowerFrom_cons {c : Char} (undotted : c ≠ 'İ')
    (before rest : List Char) : ∃ image,
      lowerFrom before (c :: rest) = image :: lowerFrom (c :: before) rest ∧
        (image = 'i' → isAsciiAlphanumeric c = true) := by
  by_cases sigma : c = 'Σ'
  · subst sigma
    rw [lowerFrom]
    cases startsCased before && !startsCased rest with
    | true => exact ⟨'ς', rfl, by decide⟩
    | false => exact ⟨'σ', rfl, by decide⟩
  · have other : (c == 'Σ') = false := by simpa using sigma
    by_cases ascii : c.toNat < 128
    · exact ⟨c.toLower, by simp [lowerFrom, other, lowerChar, ascii],
        isAsciiAlphanumeric_of_toLower ascii⟩
    · have single : expansion lowerExpansions c = none := by
        have apart : (c.toNat == 304) = false := by
          rw [beq_eq_false_iff_ne]
          intro same
          exact undotted (by rw [← Char.ofNat_toNat c, same])
        simp [expansion, lowerExpansions, List.lookup_cons, apart]
      exact ⟨shifted lowerRuns c,
        by simp [lowerFrom, other, lowerChar, ascii, single],
        fun same =>
          absurd same (shifted_lowerRuns_ne (Nat.le_of_not_lt ascii))⟩

end ArchSurvey.Text

namespace ArchSurvey.Diagram

open Text

/-! ## Characters of names -/

section Characters

variable {c d : Char}

theorem toNat_lt_of_isNodeChar (named : isNodeChar c = true) :
    c.toNat < 128 := by
  rw [isNodeChar, Bool.or_eq_true, beq_iff_eq] at named
  rcases named with plain | rfl
  · exact toNat_lt_of_isAsciiAlphanumeric plain
  · decide

/-- What holds of each character that names of nodes may have holds of
theirs. -/
theorem forall_nodeChar (property : Char → Prop)
    (each : ∀ code < 128, isNodeChar (Char.ofNat code) = true →
      property (Char.ofNat code)) (named : isNodeChar c = true) :
    property c :=
  forall_ascii (fun c => isNodeChar c = true → property c) each
    (toNat_lt_of_isNodeChar named) named

/-- A character as the name of a node shows it. -/
def nodeChar (c : Char) : Char :=
  if isNodeChar c then c else '_'

theorem isNodeChar_nodeChar (c : Char) : isNodeChar (nodeChar c) = true := by
  rw [nodeChar]
  split
  · assumption
  · decide

theorem nodeChar_eq (c : Char) :
    nodeChar c = if isAsciiAlphanumeric c then c else '_' := by
  rw [nodeChar, isNodeChar]
  by_cases plain : isAsciiAlphanumeric c = true
  · simp [plain]
  · by_cases underscore : c = '_'
    · simp [underscore]
    · simp [plain, underscore]

/-- Two characters that no name tells apart: the same one twice, or two that
are neither letters nor digits of ASCII. -/
def Alike (c d : Char) : Prop :=
  c = d ∨ isAsciiAlphanumeric c = false ∧ isAsciiAlphanumeric d = false

theorem nodeChar_eq_underscore_iff :
    nodeChar c = '_' ↔ isAsciiAlphanumeric c = false := by
  rw [nodeChar_eq]
  by_cases plain : isAsciiAlphanumeric c = true
  · have other : c ≠ '_' := by
      rintro rfl
      exact absurd plain (by decide)
    simp [plain, other]
  · simp [plain]

theorem nodeChar_eq_iff : nodeChar c = nodeChar d ↔ Alike c d := by
  rw [Alike]
  by_cases here : isAsciiAlphanumeric c = true
  · by_cases there : isAsciiAlphanumeric d = true
    · simp [nodeChar_eq, here, there]
    · have blank := nodeChar_eq_underscore_iff.mpr (eq_false_of_ne_true there)
      have apart : c ≠ d := fun same => there (same ▸ here)
      rw [blank, nodeChar_eq_underscore_iff]
      simp [here, apart]
  · have blank := nodeChar_eq_underscore_iff.mpr (eq_false_of_ne_true here)
    rw [blank, eq_comm, nodeChar_eq_underscore_iff]
    constructor
    · exact fun there => .inr ⟨eq_false_of_ne_true here, there⟩
    · rintro (rfl | ⟨-, there⟩)
      · exact eq_false_of_ne_true here
      · exact there

end Characters

/-! ## Names of nodes -/

/-- A text of characters that the names of nodes may have. -/
def IsName (text : String) : Prop :=
  ∀ c ∈ text.toList, isNodeChar c = true

instance : DecidablePred IsName := fun text =>
  inferInstanceAs (Decidable (∀ c ∈ text.toList, isNodeChar c = true))

theorem IsName.not_mem {name : String} (isName : IsName name) {mark : Char}
    (foreign : isNodeChar mark = false) : mark ∉ name.toList := by
  intro member
  rw [isName mark member] at foreign
  cases foreign

theorem isName_nodeName (text : String) : IsName (nodeName text) :=
  fun _ => isNodeChar_of_mem_nodeName

theorem toList_nodeName (text : String) :
    (nodeName text).toList = text.toList.map nodeChar := by
  rw [nodeName, String.toList_ofList]
  rfl

/-- Texts have the same name exactly if they agree place by place up to
characters that are neither letters nor digits. -/
theorem nodeName_eq_iff {text other : String} :
    nodeName text = nodeName other ↔
      List.Forall₂ Alike text.toList other.toList := by
  rw [← String.toList_inj, toList_nodeName, toList_nodeName,
    ← List.forall₂_eq_eq_eq, List.forall₂_map_left_iff,
    List.forall₂_map_right_iff]
  simp only [nodeChar_eq_iff]

/-! ## Names of blocks -/

theorem upperChar_nodeChar (c : Char) :
    upperChar (nodeChar c) = [(nodeChar c).toUpper] :=
  forall_nodeChar (fun c => upperChar c = [c.toUpper]) (by decide +kernel)
    (isNodeChar_nodeChar c)

theorem toList_blockName (name : String) :
    (blockName name).toList =
      name.toList.map fun c => (nodeChar c).toUpper := by
  rw [blockName, upperString, String.toList_ofList, upper, toList_nodeName,
    List.flatMap_map]
  simp only [upperChar_nodeChar]
  exact List.flatMap_pure_eq_map _ _

theorem isName_blockName (name : String) : IsName (blockName name) := by
  intro c member
  rw [toList_blockName] at member
  obtain ⟨source, -, rfl⟩ := List.mem_map.mp member
  exact forall_nodeChar (fun c => isNodeChar c.toUpper = true)
    (by decide +kernel) (isNodeChar_nodeChar source)

/-- In capitals an underscore stands for what is no letter and no digit. -/
theorem isAsciiAlphanumeric_of_toUpper {c : Char}
    (underscore : (nodeChar c).toUpper = '_') :
    isAsciiAlphanumeric c = false := by
  rw [← nodeChar_eq_underscore_iff]
  exact forall_nodeChar (fun c => c.toUpper = '_' → c = '_')
    (by decide +kernel) (isNodeChar_nodeChar c) underscore

/-- Of two texts whose names agree as names of blocks, neither is longer than
the other in lower case. -/
theorem eq_nil_of_lowerFrom_append {text other : List Char}
    (same : text.map (fun c => (nodeChar c).toUpper) =
      other.map fun c => (nodeChar c).toUpper) (before before' : List Char)
    {more : List Char}
    (longer : lowerFrom before text = lowerFrom before' other ++ more) :
    more = [] := by
  induction text generalizing other before before' with
  | nil =>
      obtain rfl : other = [] := by simpa using same.symm
      simpa [lowerFrom] using longer.symm
  | cons c text ih =>
      cases other with
      | nil => simp at same
      | cons d other =>
          obtain ⟨heads, tails⟩ := List.cons.inj same
          have dotted : (nodeChar 'İ').toUpper = '_' := by decide
          -- Only the dotted capital takes more than one place in lower case.
          by_cases here : c = 'İ' <;> by_cases there : d = 'İ'
          · subst here there
            rw [lowerFrom_cons_dotted, lowerFrom_cons_dotted] at longer
            exact ih tails _ _ (List.cons.inj (List.cons.inj longer).2).2
          · -- Only the first name has an `i` here that is no letter.
            subst here
            obtain ⟨image, lowered, plain⟩ :=
              exists_lowerFrom_cons there before' other
            rw [lowerFrom_cons_dotted, lowered] at longer
            have letter := plain (List.cons.inj longer).1.symm
            have blank :=
              isAsciiAlphanumeric_of_toUpper (heads.symm.trans dotted)
            rw [blank] at letter
            cases letter
          · subst there
            obtain ⟨image, lowered, plain⟩ :=
              exists_lowerFrom_cons here before text
            rw [lowerFrom_cons_dotted, lowered] at longer
            have letter := plain (List.cons.inj longer).1
            have blank := isAsciiAlphanumeric_of_toUpper (heads.trans dotted)
            rw [blank] at letter
            cases letter
          · obtain ⟨image, lowered, -⟩ := exists_lowerFrom_cons here before text
            obtain ⟨image', lowered', -⟩ :=
              exists_lowerFrom_cons there before' other
            rw [lowered, lowered'] at longer
            exact ih tails _ _ (List.cons.inj longer).2

/-- The block of an entity is not named like that of an entity whose name goes
on where its own ends. -/
theorem blockName_ne_of_lowerString {name other more : String}
    (longer : lowerString other = lowerString name ++ more)
    (filled : more ≠ "") : blockName other ≠ blockName name := by
  intro same
  have blocks := congrArg String.toList same
  have lowered := congrArg String.toList longer
  rw [toList_blockName, toList_blockName] at blocks
  simp only [lowerString, String.toList_append, String.toList_ofList, lower]
    at lowered
  apply filled
  rw [← String.toList_inj]
  exact eq_nil_of_lowerFrom_append blocks [] [] lowered

end ArchSurvey.Diagram
