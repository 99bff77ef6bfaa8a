import ArchSurvey.Proofs.Text.Split
import ArchSurvey.Schema.Migrations
import Mathlib.Data.List.Lex
import Mathlib.Data.Prod.Lex
import Mathlib.Data.String.Basic

/-!
# The order of scripts

Scripts are to be replayed in three groups: those with a version by their
version, then repeatable ones, then all others by name.  Sorting puts the
others first, because a script without a version has the empty one, and passes
over the parts of a version that have more than sixty-four bits.
-/

namespace ArchSurvey.Schema

open Text

/-- The value of a decimal digit.  Whatever letters it is written in, its ten
digits stand in a row. -/
def digitWeight (c : Char) : Nat :=
  match digitRanges.toList.find? fun range =>
      range.1 ≤ c.toNat && c.toNat ≤ range.2 with
  | some range => (c.toNat - range.1) % 10
  | none => c.toNat - 48

/-- The number that decimal digits stand for, however many they are. -/
def numeral (digits : List Char) : Nat :=
  digits.foldl (fun value c => 10 * value + digitWeight c) 0

/-- The parts of the version in a file name. -/
def versionTexts (name : List Char) : List (List Char) :=
  ScriptOrder.versionParts <|
    match name with
    | 'V' :: rest => rest
    | 'v' :: rest => rest
    | text => text

/-- Each part of the version of a script is a number of at most sixty-four
bits. -/
def Legible (path : String) : Prop :=
  ∀ part ∈ versionTexts (Path.fileName path).toList,
    (natural64? part).isSome = true

/-- What scripts are told apart by. -/
inductive ScriptKind where
  | versioned (numbers : List Nat)
  | repeatable
  | other (name : String)
  deriving DecidableEq, Repr

namespace ScriptKind

/-- The kind of a script, by its path. -/
def ofPath (path : String) : ScriptKind :=
  let name := Path.fileName path
  if versionTexts name.toList ≠ [] then
    .versioned ((versionTexts name.toList).map numeral)
  else if startsWith "R__".toList name.toList then .repeatable
  else .other name

def IsOther (kind : ScriptKind) : Prop :=
  ∃ name, kind = .other name

/-- A script of the first kind may be replayed before one of the second. -/
def Le : ScriptKind → ScriptKind → Prop
  | .versioned numbers, .versioned others => numbers ≤ others
  | .versioned _, .repeatable | .versioned _, .other _ => True
  | .repeatable, .versioned _ => False
  | .repeatable, .repeatable | .repeatable, .other _ => True
  | .other _, .versioned _ | .other _, .repeatable => False
  | .other name, .other another => name ≤ another

theorem Le.refl (kind : ScriptKind) : kind.Le kind := by
  cases kind with
  | versioned numbers => exact le_refl numbers
  | repeatable => trivial
  | other name => exact le_refl name

end ScriptKind

/-- A script that has been read: its path and its statements. -/
abbrev ReadScript :=
  String × List Statement

/-- A script with its place in the order. -/
def ReadScript.placed (script : ReadScript) : ScriptOrder × Script :=
  (.ofPath script.1, ⟨Path.fileName script.1, script.2⟩)

/-- Scripts in the order in which they are replayed. -/
def inOrder (scripts : List ReadScript) : List ReadScript :=
  scripts.mergeSort fun a b => a.placed.1.le b.placed.1

/-- The scripts stand in the order in which they are to be replayed. -/
def Documented (scripts : List ReadScript) : Prop :=
  scripts.Pairwise fun a b =>
    (ScriptKind.ofPath a.1).Le (ScriptKind.ofPath b.1)

section Sorting

/-- Whether a sorted list satisfies a relation between items that come one
after the other is seen before sorting, if the relation holds of items that
may come either way. -/
theorem pairwise_mergeSort_iff {α : Type} {le : α → α → Bool}
    {related : α → α → Prop} (trans : ∀ a b c, le a b → le b c → le a c)
    (total : ∀ a b, le a b || le b a)
    (alike : ∀ a b, le a b → le b a → related a b) {items : List α} :
    (items.mergeSort le).Pairwise related ↔
      ∀ a ∈ items, ∀ b ∈ items, le a b = true → related a b := by
  have ordered := List.pairwise_mergeSort trans total items
  have member (item : α) : item ∈ items ↔ item ∈ items.mergeSort le :=
    List.mem_mergeSort.symm
  simp only [member]
  generalize items.mergeSort le = sorted at ordered
  constructor
  · intro pairs a first b second below
    induction sorted with
    | nil => cases first
    | cons head rest ih =>
        obtain ⟨least, ordered⟩ := List.pairwise_cons.mp ordered
        obtain ⟨before, pairs⟩ := List.pairwise_cons.mp pairs
        rcases List.mem_cons.mp first with rfl | early
        · rcases List.mem_cons.mp second with rfl | late
          · exact alike _ _ below below
          · exact before b late
        · rcases List.mem_cons.mp second with rfl | late
          · exact alike a _ below (least a early)
          · exact ih ordered pairs early late
  · intro all
    exact ordered.imp_of_mem fun first second below =>
      all _ first _ second below

/-- What decides the order of scripts, in the order of importance. -/
def ScriptOrder.key (order : ScriptOrder) : Bool ×ₗ List Nat ×ₗ String :=
  toLex (order.repeatable, toLex (order.version, order.name))

theorem versionLe_iff {version another : List Nat} :
    ScriptOrder.versionLe version another = true ↔ version ≤ another := by
  induction version generalizing another with
  | nil => cases another <;> simp [ScriptOrder.versionLe, le_iff_eq_or_lt]
  | cons part rest ih =>
      cases another with
      | nil => simp [ScriptOrder.versionLe, le_iff_eq_or_lt]
      | cons other others =>
          simp only [ScriptOrder.versionLe, Bool.or_eq_true,
            decide_eq_true_eq, Bool.and_eq_true, beq_iff_eq, ih,
            le_iff_eq_or_lt, List.cons.injEq, List.cons_lt_cons_iff]
          tauto

theorem ScriptOrder.le_iff {a b : ScriptOrder} :
    a.le b = true ↔ a.key ≤ b.key := by
  rw [ScriptOrder.le]
  simp only [ScriptOrder.key, Prod.Lex.le_iff, ofLex_toLex]
  cases a.repeatable <;> cases b.repeatable <;>
    by_cases same : a.version = b.version <;>
      simp [same, versionLe_iff, lt_iff_le_and_ne]

theorem documented_inOrder_iff {scripts : List ReadScript} :
    Documented (inOrder scripts) ↔ ∀ a ∈ scripts, ∀ b ∈ scripts,
      a.placed.1.le b.placed.1 = true →
        (ScriptKind.ofPath a.1).Le (ScriptKind.ofPath b.1) := by
  refine pairwise_mergeSort_iff (fun a b c => ?_) (fun a b => ?_)
    fun a b first second => ?_
  · simp only [ScriptOrder.le_iff]
    exact le_trans
  · simp only [Bool.or_eq_true, ScriptOrder.le_iff]
    exact le_total _ _
  · rw [ScriptOrder.le_iff] at first second
    have same : a.placed.1.key = b.placed.1.key := le_antisymm first second
    have named : Path.fileName a.1 = Path.fileName b.1 :=
      congrArg (fun key => (ofLex (ofLex key).2).2) same
    rw [ScriptKind.ofPath, ScriptKind.ofPath, named]
    exact .refl _

end Sorting

section Kinds

variable {path : String} {numbers : List Nat}

theorem digitWeight_of_isAsciiDigit {c : Char}
    (digit : isAsciiDigit c = true) : digitWeight c = c.toNat - 48 := by
  have low : c.toNat ≤ 57 := by
    simp only [isAsciiDigit, Bool.and_eq_true, decide_eq_true_eq] at digit
    exact digit.2
  have above : ∀ range ∈ digitRanges.toList, 57 < range.1 := by decide
  have none : digitRanges.toList.find? (fun range =>
      range.1 ≤ c.toNat && c.toNat ≤ range.2) = none := by
    rw [List.find?_eq_none]
    intro range member
    have := above range member
    simp only [Bool.and_eq_true, decide_eq_true_eq]
    omega
  rw [digitWeight, none]

theorem numeral_eq_digitsValue {digits : List Char}
    (ascii : ∀ c ∈ digits, isAsciiDigit c = true) :
    numeral digits = digitsValue digits := by
  have step (value : Nat) : digits.foldl
        (fun value c => 10 * value + digitWeight c) value =
      digits.foldl (fun value c => 10 * value + (c.toNat - 48)) value := by
    induction digits generalizing value with
    | nil => rfl
    | cons c rest ih =>
        rw [List.foldl_cons, List.foldl_cons,
          digitWeight_of_isAsciiDigit (ascii c List.mem_cons_self)]
        exact ih (fun d member => ascii d (List.mem_cons_of_mem c member)) _
  exact step 0

/-- A number that is read at all is read as what its digits stand for. -/
theorem natural64?_eq_numeral {digits : List Char}
    (legible : (natural64? digits).isSome = true) :
    natural64? digits = some (numeral digits) := by
  rw [natural64?] at legible ⊢
  split at legible
  · cases legible
  · rename_i digital
    rw [if_neg digital]
    simp only [Bool.or_eq_true, Bool.not_eq_true', not_or,
      Bool.not_eq_false, List.all_eq_true] at digital
    simp only at legible ⊢
    split at legible
    · rename_i small
      rw [if_pos small, numeral_eq_digitsValue digital.2]
    · cases legible

/-- The version of a legible script is made of its numbers. -/
theorem versionOf_eq_of_legible (legible : Legible path) :
    (ScriptOrder.ofPath path).version =
      (versionTexts (Path.fileName path).toList).map numeral := by
  change (versionTexts (Path.fileName path).toList).filterMap natural64? = _
  rw [Legible] at legible
  generalize versionTexts (Path.fileName path).toList = parts at legible
  induction parts with
  | nil => rfl
  | cons part rest ih =>
      obtain ⟨here, later⟩ := List.forall_mem_cons.mp legible
      rw [List.filterMap_cons, natural64?_eq_numeral here, ih later]
      rfl

theorem versionTexts_of_repeatable {name : List Char}
    (again : startsWith "R__".toList name = true) : versionTexts name = [] := by
  obtain ⟨rest, rfl⟩ := startsWith_iff.mp again
  have digit : isDigit 'R' = false := by decide
  change ScriptOrder.versionParts ('R' :: '_' :: '_' :: rest) = []
  rw [ScriptOrder.versionParts]
  simp [digit]

/-- What the kind of a script says about its place in the order. -/
theorem kind_cases (path : String) :
    (∃ numbers, ScriptKind.ofPath path = .versioned numbers ∧
        (ScriptOrder.ofPath path).repeatable = false ∧
        (Legible path → numbers ≠ [] ∧
          (ScriptOrder.ofPath path).version = numbers)) ∨
      (ScriptKind.ofPath path = .repeatable ∧
        (ScriptOrder.ofPath path).repeatable = true) ∨
      (ScriptKind.ofPath path = .other (ScriptOrder.ofPath path).name ∧
        (ScriptOrder.ofPath path).repeatable = false ∧
        (ScriptOrder.ofPath path).version = []) := by
  have again : (ScriptOrder.ofPath path).repeatable =
      startsWith "R__".toList (Path.fileName path).toList := rfl
  rw [ScriptKind.ofPath, again]
  by_cases versioned : versionTexts (Path.fileName path).toList ≠ []
  · have once : startsWith "R__".toList (Path.fileName path).toList =
        false := by
      rw [Bool.eq_false_iff]
      exact fun again => versioned (versionTexts_of_repeatable again)
    exact .inl ⟨_, if_pos versioned, once, fun legible =>
      ⟨by simpa using versioned, versionOf_eq_of_legible legible⟩⟩
  · rw [if_neg versioned]
    cases repeats : startsWith "R__".toList (Path.fileName path).toList with
    | true => exact .inr (.inl ⟨rfl, rfl⟩)
    | false =>
        have unversioned : (ScriptOrder.ofPath path).version = [] := by
          rw [not_not] at versioned
          change (versionTexts (Path.fileName path).toList).filterMap _ = []
          rw [versioned, List.filterMap_nil]
        exact .inr (.inr ⟨rfl, rfl, unversioned⟩)

end Kinds

section Groups

variable {scripts : List ReadScript}

/-- Sorting two scripts as they are to be replayed takes two things: what is
neither versioned nor repeatable does not come before what is, and versions
are not put against their numbers. -/
theorem le_imp_kindLe_iff (a b : ReadScript) :
    (a.placed.1.le b.placed.1 = true →
        (ScriptKind.ofPath a.1).Le (ScriptKind.ofPath b.1)) ↔
      ((ScriptKind.ofPath a.1).IsOther → ¬(ScriptKind.ofPath b.1).IsOther →
        b.placed.1.repeatable = false ∧ b.placed.1.version = [] ∧
          b.placed.1.name < a.placed.1.name) ∧
      ∀ numbers others, ScriptKind.ofPath a.1 = .versioned numbers →
        ScriptKind.ofPath b.1 = .versioned others →
        a.placed.1.le b.placed.1 = true → numbers ≤ others := by
  rw [ScriptOrder.le_iff]
  simp only [ScriptOrder.key, Prod.Lex.le_iff, ofLex_toLex, ScriptKind.IsOther,
    ReadScript.placed]
  rcases kind_cases a.1 with ⟨numbers, kind, -⟩ | ⟨kind, again⟩ |
    ⟨kind, once, unversioned⟩
  · rcases kind_cases b.1 with ⟨others, kind', -⟩ | ⟨kind', -⟩ | ⟨kind', -⟩ <;>
      simp [kind, kind', ScriptKind.Le]
  · rcases kind_cases b.1 with ⟨others, kind', once', -⟩ | ⟨kind', -⟩ |
      ⟨kind', -⟩
    · simp [kind, kind', ScriptKind.Le, again, once']
    · simp [kind, kind', ScriptKind.Le]
    · simp [kind, kind', ScriptKind.Le]
  · rcases kind_cases b.1 with ⟨others, kind', once', -⟩ | ⟨kind', again'⟩ |
      ⟨kind', once', unversioned'⟩
    · have lower : [] < (ScriptOrder.ofPath b.1).version ↔
          (ScriptOrder.ofPath b.1).version ≠ [] := by
        cases (ScriptOrder.ofPath b.1).version <;> simp
      by_cases unread : (ScriptOrder.ofPath b.1).version = [] <;>
        simp [kind, kind', ScriptKind.Le, once, once', unversioned, lower,
          unread]
    · simp [kind, kind', ScriptKind.Le, once, again']
    · simp [kind, kind', ScriptKind.Le, once, once', unversioned, unversioned']

/-- Scripts are replayed in their documented order exactly if none that is
neither versioned nor repeatable comes before one that is, and none is put
before another against the numbers of their versions. -/
theorem documented_iff : Documented (inOrder scripts) ↔
    (∀ a ∈ scripts, (ScriptKind.ofPath a.1).IsOther →
      ∀ b ∈ scripts, ¬(ScriptKind.ofPath b.1).IsOther →
        b.placed.1.repeatable = false ∧ b.placed.1.version = [] ∧
          b.placed.1.name < a.placed.1.name) ∧
    ∀ a ∈ scripts, ∀ b ∈ scripts, ∀ numbers others,
      ScriptKind.ofPath a.1 = .versioned numbers →
      ScriptKind.ofPath b.1 = .versioned others →
      a.placed.1.le b.placed.1 = true → numbers ≤ others := by
  rw [documented_inOrder_iff]
  simp only [le_imp_kindLe_iff]
  constructor
  · intro all
    exact ⟨fun a first other b second => (all a first b second).1 other,
      fun a first b second => (all a first b second).2⟩
  · rintro ⟨groups, versions⟩ a first b second
    exact ⟨fun other => groups a first other b second,
      versions a first b second⟩

/-- Legible versions are put in the order of their numbers. -/
theorem numbers_le_of_le {a b : ReadScript} {numbers others : List Nat}
    (legible : Legible a.1) (legible' : Legible b.1)
    (versioned : ScriptKind.ofPath a.1 = .versioned numbers)
    (versioned' : ScriptKind.ofPath b.1 = .versioned others)
    (below : a.placed.1.le b.placed.1 = true) : numbers ≤ others := by
  have read {path : String} {numbers : List Nat} (legible : Legible path)
      (versioned : ScriptKind.ofPath path = .versioned numbers) :
      (ScriptOrder.ofPath path).repeatable = false ∧ numbers ≠ [] ∧
        (ScriptOrder.ofPath path).version = numbers := by
    rcases kind_cases path with ⟨found, kind, once, read⟩ | ⟨kind, -⟩ |
      ⟨kind, -⟩
    · cases versioned.symm.trans kind
      exact ⟨once, read legible⟩
    · cases versioned.symm.trans kind
    · cases versioned.symm.trans kind
  obtain ⟨once, -, version⟩ := read legible versioned
  obtain ⟨once', -, version'⟩ := read legible' versioned'
  rw [ScriptOrder.le_iff] at below
  simp only [ScriptOrder.key, ReadScript.placed, Prod.Lex.le_iff, ofLex_toLex,
    once, once', version, version', lt_irrefl, false_or, true_and] at below
  rcases below with less | ⟨same, -⟩
  · exact less.le
  · exact same.le

/-- Where all versions are legible, the order is the documented one exactly if
no script that is neither versioned nor repeatable stands beside one that is. -/
theorem documented_iff_of_legible
    (legible : ∀ script ∈ scripts, Legible script.1) :
    Documented (inOrder scripts) ↔
      (∀ script ∈ scripts, (ScriptKind.ofPath script.1).IsOther) ∨
        ∀ script ∈ scripts, ¬(ScriptKind.ofPath script.1).IsOther := by
  have versions : ∀ a ∈ scripts, ∀ b ∈ scripts, ∀ numbers others,
      ScriptKind.ofPath a.1 = .versioned numbers →
      ScriptKind.ofPath b.1 = .versioned others →
      a.placed.1.le b.placed.1 = true → numbers ≤ others := by
    intro a first b second numbers others versioned versioned' below
    exact numbers_le_of_le (legible a first) (legible b second) versioned
      versioned' below
  rw [documented_iff, and_iff_left versions]
  constructor
  · intro groups
    by_contra mixed
    push Not at mixed
    obtain ⟨⟨b, second, ranked⟩, a, first, other⟩ := mixed
    obtain ⟨once, unread, -⟩ := groups a first other b second ranked
    rcases kind_cases b.1 with ⟨numbers, kind, -, read⟩ | ⟨-, again⟩ | ⟨kind, -⟩
    · obtain ⟨filled, version⟩ := read (legible b second)
      exact filled (version.symm.trans unread)
    · exact Bool.false_ne_true (once.symm.trans again)
    · exact ranked ⟨_, kind⟩
  · rintro (all | none) a first other b second ranked
    · exact absurd (all b second) ranked
    · exact absurd other (none a first)

end Groups

section Reading

/-- A script has been read of the file at its path. -/
def ReadScript.StandsOn (disk : Disk) (script : ReadScript) : Prop :=
  ∃ bytes, disk.read script.1 = .ok bytes ∧
    readScript (Utf8.decodeLossy bytes) = .ok script.2

/-- What is read of a file is its script, with its place, or nothing. -/
theorem data_parseAlone {context : Context} {file : String}
    {part : List (ScriptOrder × Script) × Statistics}
    (read : migrationEngine.parseAlone context file = some part) :
    part.1 = [] ∨ ∃ statements,
      ReadScript.StandsOn context.disk (file, statements) ∧
        part.1 = [ReadScript.placed (file, statements)] := by
  rw [TierEngine.parseAlone] at read
  split at read
  · cases read
  · have data : part.1 =
        (migrationEngine.parseFile context.disk file {}).2.1 := by
      cases read
      rfl
    rw [data, TierEngine.parseFile]
    split
    · exact .inl rfl
    · cases standing : context.disk.read file with
      | error fault => exact .inl rfl
      | ok bytes =>
          simp only [TierEngine.readText, migrationEngine, readMigration]
          cases script : readScript (Utf8.decodeLossy bytes) with
          | error error => exact .inl rfl
          | ok statements =>
              exact .inr ⟨statements, ⟨bytes, standing, script⟩, rfl⟩

/-- The scripts that are read of some files are in the order of the files. -/
theorem exists_parseFiles (context : Context) (files : List String) :
    ∃ scripts : List ReadScript, (scripts.map Prod.fst).Sublist files ∧
      (∀ script ∈ scripts, script.StandsOn context.disk) ∧
      (migrationEngine.parseFiles context files).1 =
        scripts.map ReadScript.placed := by
  rw [TierEngine.parseFiles]
  induction files with
  | nil => exact ⟨[], .slnil, by simp, rfl⟩
  | cons file rest ih =>
      obtain ⟨scripts, among, stand, data⟩ := ih
      dsimp only at data ⊢
      cases read : migrationEngine.parseAlone context file with
      | none =>
          rw [List.filterMap_cons_none read]
          exact ⟨scripts, among.cons file, stand, data⟩
      | some part =>
          rw [List.filterMap_cons_some read, List.flatMap_cons, data]
          rcases data_parseAlone read with none | ⟨statements, stands, one⟩
          · exact ⟨scripts, among.cons file, stand, by rw [none, List.nil_append]⟩
          · exact ⟨(file, statements) :: scripts, among.cons_cons file,
              List.forall_mem_cons.mpr ⟨stands, stand⟩, by rw [one]; rfl⟩

/-- Placed scripts are replayed in order. -/
theorem replayInOrder_placed (scripts : List ReadScript) :
    replayInOrder (scripts.map ReadScript.placed) =
      replay ((inOrder scripts).map fun script => script.placed.2) := by
  have sorted : (inOrder scripts).map ReadScript.placed =
      (scripts.map ReadScript.placed).mergeSort fun a b => a.1.le b.1 :=
    List.map_mergeSort fun _ _ _ _ => rfl
  rw [replayInOrder, ← sorted, List.map_map]
  rfl

/-- What is read of files is scripts in the order of the files, and scripts are
replayed in an order of their own, each once.  It is the documented one exactly
if none that is neither versioned nor repeatable comes before one that is, and
none is put before another against the numbers of their versions; where all
versions are legible, exactly if all scripts are neither versioned nor
repeatable or none is. -/
theorem replayed_as_documented_iff (scripts : List ReadScript) :
    (∀ (context : Context) (files : List String),
      ∃ read : List ReadScript, (read.map Prod.fst).Sublist files ∧
        (∀ script ∈ read, script.StandsOn context.disk) ∧
        (migrationEngine.parseFiles context files).1 =
          read.map ReadScript.placed) ∧
      replayInOrder (scripts.map ReadScript.placed) =
        replay ((inOrder scripts).map fun script => script.placed.2) ∧
      (inOrder scripts).Perm scripts ∧
      (Documented (inOrder scripts) ↔
        (∀ a ∈ scripts, (ScriptKind.ofPath a.1).IsOther →
          ∀ b ∈ scripts, ¬(ScriptKind.ofPath b.1).IsOther →
            b.placed.1.repeatable = false ∧ b.placed.1.version = [] ∧
              b.placed.1.name < a.placed.1.name) ∧
        ∀ a ∈ scripts, ∀ b ∈ scripts, ∀ numbers others,
          ScriptKind.ofPath a.1 = .versioned numbers →
          ScriptKind.ofPath b.1 = .versioned others →
          a.placed.1.le b.placed.1 = true → numbers ≤ others) ∧
      ((∀ script ∈ scripts, Legible script.1) →
        (Documented (inOrder scripts) ↔
          (∀ script ∈ scripts, (ScriptKind.ofPath script.1).IsOther) ∨
            ∀ script ∈ scripts, ¬(ScriptKind.ofPath script.1).IsOther)) :=
  ⟨exists_parseFiles, replayInOrder_placed scripts, List.mergeSort_perm _ _,
    documented_iff, documented_iff_of_legible⟩

theorem versionTexts_of_fileName {path name : String}
    {texts : List (List Char)} (named : Path.fileName path = name)
    (read : versionTexts name.toList = texts) :
    versionTexts (Path.fileName path).toList = texts := by
  rw [named, read]

/-- The versions two and ten are legible, and replayed in this order. -/
theorem replayed_as_documented_iff_versions :
    (∀ script ∈ ([("db/V10__add.sql", []), ("db/V2__init.sql", [])] :
        List ReadScript), Legible script.1) ∧
      Documented (inOrder
        [("db/V10__add.sql", []), ("db/V2__init.sql", [])]) := by
  have ten : versionTexts (Path.fileName "db/V10__add.sql").toList =
      [['1', '0']] :=
    versionTexts_of_fileName (show _ = "V10__add.sql" by decide) (by cbv)
  have two : versionTexts (Path.fileName "db/V2__init.sql").toList =
      [['2']] :=
    versionTexts_of_fileName (show _ = "V2__init.sql" by decide) (by cbv)
  have legible : ∀ script ∈ ([("db/V10__add.sql", []),
      ("db/V2__init.sql", [])] : List ReadScript), Legible script.1 := by
    simp only [List.forall_mem_cons, Legible, ten, two]
    decide
  refine ⟨legible, ((replayed_as_documented_iff _).2.2.2.2 legible).mpr
    (.inr ?_)⟩
  simp [ScriptKind.IsOther, ScriptKind.ofPath, ten, two]

/-- A script that is neither versioned nor repeatable is replayed before a
versioned one. -/
theorem not_documented :
    ¬Documented (inOrder
      [("db/V1__init.sql", []), ("db/schema.sql", [])]) := by
  have other : versionTexts (Path.fileName "db/schema.sql").toList = [] :=
    versionTexts_of_fileName (show _ = "schema.sql" by decide) (by cbv)
  have plain : startsWith ['R', '_', '_']
      (Path.fileName "db/schema.sql").toList = false := by decide
  have one : versionTexts (Path.fileName "db/V1__init.sql").toList =
      [['1']] :=
    versionTexts_of_fileName (show _ = "V1__init.sql" by decide) (by cbv)
  have legible : ∀ script ∈ ([("db/V1__init.sql", []),
      ("db/schema.sql", [])] : List ReadScript), Legible script.1 := by
    simp only [List.forall_mem_cons, Legible, one, other]
    decide
  rw [documented_iff_of_legible legible]
  simp [ScriptKind.IsOther, ScriptKind.ofPath, one, other, plain]

end Reading

end ArchSurvey.Schema
