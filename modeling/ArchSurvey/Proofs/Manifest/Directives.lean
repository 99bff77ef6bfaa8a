import ArchSurvey.Proofs.Manifest.DirectiveRows

/-!
# Directives of module files

A module file has directives, each on a line of its own or with its entries in
parentheses, and comments behind them.  The reader takes each line for itself,
so a file whose lines are all taken for what they are is read as what its
directives say.
-/

namespace ArchSurvey.Manifest.GoModule

open Text

/-! ## Files -/

/-- A directive on a line of its own or a block of entries, among which empty
lines and comments may stand. -/
inductive Section where
  | single (margin : Margin) (directive : Directive)
  | requires (opening : Margin) (gap : List Char)
      (entries : List (Margin × Option Item)) (closing : Margin)
  | others (opening : Margin) (verb : Verb) (gap : List Char)
      (entries : List (Margin × Option (List Char))) (closing : Margin)
  deriving DecidableEq

/-- A line of a block of requirements. -/
def itemRow (entry : Margin × Option Item) : Row :=
  ⟨entry.1, entry.2.elim (.single .blank) .item⟩

/-- A line of a block that requires nothing. -/
def entryRow (entry : Margin × Option (List Char)) : Row :=
  ⟨entry.1, entry.2.elim (.single .blank) .entry⟩

/-- The required module on a line of a block. -/
def requirement? (entry : Margin × Option Item) : Option Requirement :=
  entry.2.map fun item => item.requirement entry.1.comment

namespace Section

def rows : Section → List Row
  | single margin directive => [⟨margin, .single directive⟩]
  | requires opening gap entries closing =>
      ⟨opening, .openRequire gap⟩ :: entries.map itemRow ++ [⟨closing, .close⟩]
  | others opening verb gap entries closing =>
      ⟨opening, .openOther verb gap⟩ :: entries.map entryRow ++
        [⟨closing, .close⟩]

/-- The path that the module directive gives. -/
def path? : Section → Option (List Char)
  | single _ (.module _ path) => some path.word
  | _ => none

/-- The version that the go directive gives. -/
def version? : Section → Option (List Char)
  | single _ (.go _ version) => some version
  | _ => none

/-- The modules that are required, each marked by its own comment. -/
def requirements : Section → List Requirement
  | single margin (.require _ item) => [item.requirement margin.comment]
  | requires _ _ entries _ => entries.filterMap requirement?
  | _ => []

end Section

/-- The text of a file. -/
def print (file : List Section) : List Char :=
  joinWith ['\n'] ((file.flatMap Section.rows).map Row.spell)

/-- A file in which one directive names the module and at most one names the
version of the language. -/
structure WellFormed (file : List Section) (path : List Char) : Prop where
  rows : ∀ row ∈ file.flatMap Section.rows, row.WellFormed
  path : file.filterMap Section.path? = [path]
  version : (file.filterMap Section.version?).length ≤ 1

/-- What the directives of a file say. -/
def content (file : List Section) (path : List Char) : ModuleFile where
  path := String.ofList path
  goVersion := (file.filterMap Section.version?).head?.map String.ofList
  requirements := file.flatMap Section.requirements

/-- What is known after the directives of a file. -/
def State.after (state : State) (file : List Section) : State :=
  { state with
    path := (file.filterMap Section.path?).getLast?.getD state.path
    goVersion :=
      ((file.filterMap Section.version?).getLast?.map String.ofList).or
        state.goVersion
    requirements := state.requirements ++ file.flatMap Section.requirements }

section Reading

variable {state : State} {file : List Section}

theorem State.after_append (state : State) (file more : List Section) :
    (state.after file).after more = state.after (file ++ more) := by
  simp [State.after, List.filterMap_append, List.getLast?_append,
    Option.getD_or, Option.map_or, Option.or_assoc]

/-- A section that says nothing of the module changes nothing. -/
theorem State.after_silent {block : Section} (noPath : block.path? = none)
    (noVersion : block.version? = none) (nothing : block.requirements = []) :
    state.after [block] = state := by
  simp [State.after, noPath, noVersion, nothing]

/-- Outside of a block of requirements an entry is passed over. -/
theorem State.step_entry (outside : state.inRequire = false)
    (text : List Char) : state.step (.entry text) = state := by
  rw [State.step, outside]
  rfl

/-- The end of a block leads back to where nothing is open. -/
theorem State.step_close {other : Bool} (outside : state.inRequire = false)
    (notOther : state.inOther = false) :
    State.step { state with inOther := other } .close = state := by
  obtain ⟨path, goVersion, requirements, inRequire, inOther⟩ := state
  obtain rfl : inRequire = false := outside
  obtain rfl : inOther = false := notOther
  rfl

theorem step_itemRow {entry : Margin × Option Item} {line : Line}
    (means : (itemRow entry).Means line) (inside : state.inRequire = true)
    (notOther : state.inOther = false) :
    state.step line =
      { state with
        requirements :=
          state.requirements ++ (requirement? entry).toList } := by
  obtain ⟨margin, _ | item⟩ := entry
  · obtain rfl : line = .blank := means
    simp [State.step, requirement?]
  · obtain ⟨text, rfl, reads⟩ := means
    simp [State.step, inside, notOther, State.add, reads, requirement?,
      itemRow]

/-- The entries of a block of requirements are required. -/
theorem foldl_itemRows {entries : List (Margin × Option Item)}
    (means : ∀ entry ∈ entries, (itemRow entry).Means (itemRow entry).line)
    (inside : state.inRequire = true) (notOther : state.inOther = false) :
    ((entries.map itemRow).map Row.line).foldl State.step state =
      { state with
        requirements :=
          state.requirements ++ entries.filterMap requirement? } := by
  induction entries generalizing state with
  | nil => simp
  | cons entry entries ih =>
      obtain ⟨here, later⟩ := List.forall_mem_cons.mp means
      have run := @ih
        { state with
          requirements := state.requirements ++ (requirement? entry).toList }
        later inside notOther
      rw [List.map_cons, List.map_cons, List.foldl_cons,
        step_itemRow here inside notOther, run]
      cases required : requirement? entry <;> simp [required]

theorem step_passed {line : Line}
    (passed : line = .openOther ∨ ∃ text, line = .entry text)
    (outside : state.inRequire = false) :
    ∃ inOther, state.step line = { state with inOther } := by
  rcases passed with rfl | ⟨text, rfl⟩
  · exact ⟨true, rfl⟩
  · exact ⟨state.inOther, state.step_entry outside text⟩

theorem step_entryRow {entry : Margin × Option (List Char)} {line : Line}
    (means : (entryRow entry).Means line) (outside : state.inRequire = false) :
    ∃ inOther, state.step line = { state with inOther } := by
  obtain ⟨margin, _ | text⟩ := entry
  · obtain rfl : line = .blank := means
    exact ⟨state.inOther, rfl⟩
  · exact step_passed means outside

/-- The entries of a block that requires nothing are passed over. -/
theorem foldl_entryRows {entries : List (Margin × Option (List Char))}
    (means : ∀ entry ∈ entries, (entryRow entry).Means (entryRow entry).line)
    (outside : state.inRequire = false) :
    ∃ inOther, ((entries.map entryRow).map Row.line).foldl State.step state =
      { state with inOther } := by
  induction entries generalizing state with
  | nil => exact ⟨state.inOther, rfl⟩
  | cons entry entries ih =>
      obtain ⟨here, later⟩ := List.forall_mem_cons.mp means
      obtain ⟨first, step⟩ := step_entryRow here outside
      obtain ⟨last, run⟩ := @ih { state with inOther := first } later outside
      refine ⟨last, ?_⟩
      rw [List.map_cons, List.map_cons, List.foldl_cons, step, run]

theorem step_single {margin : Margin} {directive : Directive} {line : Line}
    (means : Row.Means ⟨margin, .single directive⟩ line)
    (outside : state.inRequire = false) :
    state.step line = state.after [.single margin directive] := by
  cases directive with
  | blank =>
      obtain rfl : line = .blank := means
      exact (State.after_silent rfl rfl rfl).symm
  | module gap path =>
      obtain rfl : line = .module path.word := means
      simp [State.step, State.after, Section.path?, Section.version?,
        Section.requirements]
  | go gap version =>
      obtain rfl : line = .go version := means
      simp [State.step, State.after, Section.path?, Section.version?,
        Section.requirements]
  | require gap item =>
      obtain ⟨text, rfl, reads⟩ := means
      simp [State.step, State.add, reads, State.after, Section.path?,
        Section.version?, Section.requirements]
  | other verb gap text =>
      obtain ⟨text, rfl⟩ := means
      rw [state.step_entry outside]
      exact (State.after_silent rfl rfl rfl).symm

/-- Behind a section what it says is known, and no block is open. -/
theorem foldl_rows {block : Section}
    (means : ∀ row ∈ block.rows, row.Means row.line)
    (outside : state.inRequire = false) (notOther : state.inOther = false) :
    (block.rows.map Row.line).foldl State.step state =
      state.after [block] := by
  cases block with
  | single margin directive =>
      exact step_single (means _ List.mem_cons_self) outside
  | requires opening gap entries closing =>
      obtain ⟨opens, inner⟩ := List.forall_mem_cons.mp means
      obtain ⟨entered, closes⟩ := List.forall_mem_append.mp inner
      have opened : Row.line ⟨opening, .openRequire gap⟩ = .openRequire := opens
      have closed : Row.line ⟨closing, .close⟩ = .close :=
        closes _ List.mem_cons_self
      have run := @foldl_itemRows { state with inRequire := true } entries
        (List.forall_mem_map.mp entered) rfl notOther
      rw [Section.rows, List.cons_append, List.map_cons, List.foldl_cons,
        opened, State.step, List.map_append, List.foldl_append, run,
        List.map_singleton, closed]
      simp [State.step, State.after, Section.path?, Section.version?,
        Section.requirements, outside, notOther]
  | others opening verb gap entries closing =>
      obtain ⟨opens, inner⟩ := List.forall_mem_cons.mp means
      obtain ⟨entered, closes⟩ := List.forall_mem_append.mp inner
      have closed : Row.line ⟨closing, .close⟩ = .close :=
        closes _ List.mem_cons_self
      obtain ⟨first, opened⟩ := step_passed opens outside
      obtain ⟨last, run⟩ := @foldl_entryRows { state with inOther := first }
        entries (List.forall_mem_map.mp entered) outside
      rw [Section.rows, List.cons_append, List.map_cons, List.foldl_cons,
        opened, List.map_append, List.foldl_append, run, List.map_singleton,
        closed, State.after_silent rfl rfl rfl]
      exact State.step_close outside notOther

theorem foldl_file
    (means : ∀ row ∈ file.flatMap Section.rows, row.Means row.line)
    (outside : state.inRequire = false) (notOther : state.inOther = false) :
    ((file.flatMap Section.rows).map Row.line).foldl State.step state =
      state.after file := by
  induction file generalizing state with
  | nil => simp [State.after]
  | cons block file ih =>
      rw [List.flatMap_cons] at means
      obtain ⟨here, later⟩ := List.forall_mem_append.mp means
      rw [List.flatMap_cons, List.map_append, List.foldl_append,
        foldl_rows here outside notOther,
        @ih (state.after [block]) later outside notOther, State.after_append]
      rfl

theorem IsWord.inLine {word : List Char} (isWord : IsWord word) :
    '\n' ∉ word := fun member => by
  cases (isWord.2.1 _ member).1

theorem Name.inLine {path : Name} (isWord : IsWord path.word) :
    '\n' ∉ path.spell := fun member => by
  cases Name.solid isWord _ member

theorem Item.inLine {item : Item} (wellFormed : item.WellFormed) :
    '\n' ∉ item.spell := by
  obtain ⟨named, spaced, -, versioned⟩ := wellFormed
  exact List.not_mem_append
    (List.not_mem_append (Name.inLine named) spaced.inLine) versioned.inLine

theorem Verb.inLine (verb : Verb) : '\n' ∉ verb.spell := by
  cases verb <;> decide

theorem Directive.inLine {directive : Directive}
    (wellFormed : directive.WellFormed) : '\n' ∉ directive.spell := by
  cases directive with
  | blank => exact List.not_mem_nil
  | module gap path =>
      obtain ⟨spaced, -, named⟩ := wellFormed
      exact List.not_mem_append
        (List.not_mem_append (by decide) spaced.inLine) (Name.inLine named)
  | go gap version =>
      obtain ⟨spaced, -, versioned⟩ := wellFormed
      exact List.not_mem_append
        (List.not_mem_append (by decide) spaced.inLine) versioned.inLine
  | require gap item =>
      obtain ⟨spaced, -, required⟩ := wellFormed
      exact List.not_mem_append
        (List.not_mem_append (by decide) spaced.inLine) (Item.inLine required)
  | other verb gap text =>
      obtain ⟨spaced, -, -, -, inLine, -⟩ := wellFormed
      exact List.not_mem_append
        (List.not_mem_append verb.inLine spaced.inLine) inLine

theorem Code.inLine {code : Code} (wellFormed : code.WellFormed) :
    '\n' ∉ code.spell := by
  cases code with
  | single directive => exact Directive.inLine wellFormed
  | openRequire gap =>
      exact List.not_mem_append
        (List.not_mem_append (by decide) (IsGap.inLine wellFormed)) (by decide)
  | item item => exact Item.inLine wellFormed
  | openOther verb gap =>
      exact List.not_mem_append
        (List.not_mem_append verb.inLine (IsGap.inLine wellFormed)) (by decide)
  | entry text => exact wellFormed.2.2.1
  | close => decide

theorem Row.inLine {row : Row} (wellFormed : row.WellFormed) :
    '\n' ∉ row.spell := by
  obtain ⟨indented, spaced, commented, coded⟩ := wellFormed
  have ending : '\n' ∉ row.margin.ending := by
    refine List.not_mem_append spaced.inLine ?_
    cases comment : row.margin.comment with
    | none => exact List.not_mem_nil
    | some text => simpa using commented text comment
  exact List.not_mem_append
    (List.not_mem_append indented.inLine (Code.inLine coded)) ending

theorem Section.rows_ne_nil (block : Section) : block.rows ≠ [] := by
  cases block <;> simp [Section.rows]

theorem WellFormed.named {path : List Char}
    (wellFormed : WellFormed file path) : path ≠ [] := by
  have given : path ∈ file.filterMap Section.path? := by
    rw [wellFormed.path]
    exact List.mem_cons_self
  obtain ⟨block, within, fits⟩ := List.mem_filterMap.mp given
  match block, fits with
  | .single margin (.module gap name), rfl =>
      have row := wellFormed.rows ⟨margin, .single (.module gap name)⟩
        (List.mem_flatMap.mpr ⟨_, within, List.mem_cons_self⟩)
      exact row.code.2.2.1

/-- A file of plain rows is read as what its directives say. -/
theorem read_print {path : List Char} (wellFormed : WellFormed file path)
    (plain : ∀ row ∈ file.flatMap Section.rows, row.Plain) :
    read (print file) = .ok (content file path) := by
  have means : ∀ row ∈ file.flatMap Section.rows, row.Means row.line :=
    fun row member =>
      (Row.means_line_iff (wellFormed.rows row member)).mpr (plain row member)
  have filled : (file.flatMap Section.rows).map Row.spell ≠ [] := by
    cases file with
    | nil => cases wellFormed.path
    | cons block file => simp [block.rows_ne_nil]
  have inLine : ∀ line ∈ (file.flatMap Section.rows).map Row.spell,
      '\n' ∉ line := by
    rintro line member
    obtain ⟨row, within, rfl⟩ := List.mem_map.mp member
    exact Row.inLine (wellFormed.rows row within)
  have run := @foldl_file {} file means rfl rfl
  have reads : ((lines (print file)).map fun line =>
      Line.ofText (trim line)).foldl State.step {} = State.after {} file := by
    rw [List.foldl_map, print,
      foldl_lines_joinWith (fun state line => by rw [trim_dropReturn])
        (fun state => rfl) filled inLine, List.foldl_map, ← run,
      List.foldl_map]
    rfl
  have modulePath : (State.after {} file).path = path := by
    simp [State.after, wellFormed.path]
  have goVersion : (file.filterMap Section.version?).getLast? =
      (file.filterMap Section.version?).head? := by
    match file.filterMap Section.version?, wellFormed.version with
    | [], _ => rfl
    | [version], _ => rfl
  rw [read, reads, modulePath, if_neg (by simpa using wellFormed.named),
    State.after, content, goVersion]
  simp

/-- Each line of a module file is taken for what it is exactly if it is plain,
and a file of plain lines is read as what its directives say. -/
theorem read_print_of_plain {path : List Char}
    (wellFormed : WellFormed file path) :
    (∀ row ∈ file.flatMap Section.rows, row.Means row.line ↔ row.Plain) ∧
    ((∀ row ∈ file.flatMap Section.rows, row.Plain) →
      read (print file) = .ok (content file path)) :=
  ⟨fun row member => Row.means_line_iff (wellFormed.rows row member),
    read_print wellFormed⟩

end Reading

/-! ## Comments behind directives -/

/-- A row without white space in front of it. -/
def margin (comment : Option String) : Margin :=
  ⟨[], [' '], comment.map String.toList⟩

/-- A module with a path and a version. -/
def moduleAt (path version : String) : Item :=
  ⟨⟨path.toList, false⟩, [' '], version.toList⟩

/-- A module that requires others in a block and by a line of its own. -/
def shopFile : List Section :=
  [.single (margin (some " the shop")) .blank,
    .single (margin none) (.module [' '] ⟨"acme.org/shop".toList, true⟩),
    .single (margin none) (.go [' '] "1.21".toList),
    .requires (margin none) [' ']
      [(margin (some " indirect"), some (moduleAt "acme.org/a" "v1.0.0")),
        (margin (some " the second"), none),
        (margin (some " used here"), some (moduleAt "acme.org/b" "v2.0.0"))]
      (margin none),
    .others (margin (some " for now")) .replace [' ']
      [(margin none, some "acme.org/b v2.0.0 => ../b".toList)] (margin none),
    .single (margin (some "indirect"))
      (.require [' '] (moduleAt "acme.org/c" "v3.0.0")),
    .single (margin (some " broken"))
      (.other .exclude [' '] "acme.org/c v3.0.1".toList),
    .single (margin none) .blank]

theorem read_print_of_plain_shopFile :
    let path := "acme.org/shop".toList
    WellFormed shopFile path ∧
      read (print shopFile) =
        .ok ⟨"acme.org/shop", some "1.21",
          [⟨"acme.org/a", some "v1.0.0", true⟩,
            ⟨"acme.org/b", some "v2.0.0", false⟩,
            ⟨"acme.org/c", some "v3.0.0", true⟩]⟩ := by
  intro path
  have wellFormed : WellFormed shopFile path :=
    ⟨by decide +kernel, by decide +kernel, by decide +kernel⟩
  refine ⟨wellFormed, ((read_print_of_plain wellFormed).2 ?_).trans ?_⟩
  · decide +kernel
  · decide +kernel

/-- A comment behind the module directive becomes a part of the path. -/
theorem not_read_print :
    ¬ ∀ file path, WellFormed file path →
      read (print file) = .ok (content file path) := by
  intro always
  let file : List Section :=
    [.single (margin (some " the shop"))
      (.module [' '] ⟨"acme.org/shop".toList, false⟩)]
  have wellFormed : WellFormed file "acme.org/shop".toList :=
    ⟨by decide +kernel, by decide +kernel, by decide +kernel⟩
  have content := always file _ wellFormed
  revert content
  decide +kernel

end ArchSurvey.Manifest.GoModule
