import ArchSurvey.Text.Pattern
import Mathlib.Data.List.Forall2

/-!
# Ways to match

The places a pattern can lead to from a place, the preferred one first.
Matching takes the first way that the continuation accepts
(`run_eq_findSome?`), so a search is settled by the first way at each place:
`Leads` is the way a pattern prefers, and a pattern without ways fails.
-/

namespace ArchSurvey.Text.Pattern

/-- The ways to go at most `fuel` rounds of a repetition. -/
def roundWays (body : Place → List Place) (greedy : Bool) :
    Nat → Place → List Place
  | 0, place => [place]
  | fuel + 1, place =>
      let more := (body place).flatMap fun after =>
        if after.read == place.read then []
        else roundWays body greedy fuel after
      if greedy then more ++ [place] else place :: more

/-- The places after a match of a pattern, the preferred one first. -/
def ways : Pattern → Place → List Place
  | empty, place => [place]
  | char test, place =>
      match place.rest with
      | [] => []
      | c :: rest =>
          if test c then [⟨some c, rest, place.read + 1, place.groups⟩] else []
  | seq first second, place => (ways first place).flatMap (ways second)
  | alt left right, place => ways left place ++ ways right place
  | star greedy body, place =>
      roundWays (ways body) greedy place.rest.length place
  | group number body, place =>
      (ways body place).map fun after =>
        { after with
          groups := (number, place.rest, after.read - place.read) ::
            after.groups }
  | textStart, place => if place.before.isNone then [place] else []
  | textEnd, place => if place.rest.isEmpty then [place] else []
  | lineStart, place =>
      if place.before.isNone || place.before == some '\n' then [place] else []
  | wordEdge, place =>
      if besideWord place.before != besideWord place.rest.head? then [place]
      else []

section Equations

variable (test : Char → Bool) (first second body : Pattern) (greedy : Bool)
  (number : Nat) (place : Place)

theorem ways_empty : ways empty place = [place] :=
  rfl

theorem ways_char :
    ways (char test) place =
      match place.rest with
      | [] => []
      | c :: rest =>
          if test c then [⟨some c, rest, place.read + 1, place.groups⟩]
          else [] :=
  rfl

theorem ways_seq :
    ways (seq first second) place =
      (ways first place).flatMap (ways second) :=
  rfl

theorem ways_alt :
    ways (alt first second) place = ways first place ++ ways second place :=
  rfl

theorem ways_star :
    ways (star greedy body) place =
      roundWays (ways body) greedy place.rest.length place :=
  rfl

theorem ways_group :
    ways (group number body) place =
      (ways body place).map fun after =>
        { after with
          groups := (number, place.rest, after.read - place.read) ::
            after.groups } :=
  rfl

theorem ways_textStart :
    ways textStart place = if place.before.isNone then [place] else [] :=
  rfl

theorem ways_textEnd :
    ways textEnd place = if place.rest.isEmpty then [place] else [] :=
  rfl

theorem ways_lineStart :
    ways lineStart place =
      if place.before.isNone || place.before == some '\n' then [place]
      else [] :=
  rfl

theorem ways_wordEdge :
    ways wordEdge place =
      if besideWord place.before != besideWord place.rest.head? then [place]
      else [] :=
  rfl

theorem ways_concat_cons (patterns : List Pattern) :
    ways (concat (first :: patterns)) place =
      (ways first place).flatMap (ways (concat patterns)) := by
  cases patterns with
  | nil => exact (List.flatMap_singleton' _).symm
  | cons second rest => rfl

theorem ways_concat_append (patterns others : List Pattern) :
    ways (concat (patterns ++ others)) place =
      (ways (concat patterns) place).flatMap (ways (concat others)) := by
  induction patterns generalizing place with
  | nil => exact (List.append_nil _).symm
  | cons first rest ih =>
      rw [List.cons_append, ways_concat_cons, ways_concat_cons,
        List.flatMap_assoc]
      exact List.flatMap_congr fun after _ => ih after

end Equations

theorem mem_roundWays_succ {body : Place → List Place} {greedy : Bool}
    {fuel : Nat} {place after : Place} :
    after ∈ roundWays body greedy (fuel + 1) place ↔
      after = place ∨ ∃ middle ∈ body place, middle.read ≠ place.read ∧
        after ∈ roundWays body greedy fuel middle := by
  have more : (after ∈ (body place).flatMap fun middle =>
      if middle.read == place.read then []
      else roundWays body greedy fuel middle) ↔
        ∃ middle ∈ body place, middle.read ≠ place.read ∧
          after ∈ roundWays body greedy fuel middle := by
    rw [List.mem_flatMap]
    refine exists_congr fun middle => and_congr_right fun _ => ?_
    by_cases same : middle.read = place.read <;> simp [same]
  rw [roundWays]
  cases greedy with
  | true =>
      simp only [if_true, List.mem_append, List.mem_singleton, more, or_comm]
  | false => simp only [Bool.false_eq_true, if_false, List.mem_cons, more]

/-- What commutes with a round commutes with the repetition. -/
theorem roundWays_map {body : Place → List Place} {change : Place → Place}
    (keeps : ∀ place, (change place).read = place.read)
    (commutes : ∀ place, body (change place) = (body place).map change)
    (greedy : Bool) (fuel : Nat) (place : Place) :
    roundWays body greedy fuel (change place) =
      (roundWays body greedy fuel place).map change := by
  induction fuel generalizing place with
  | zero => rfl
  | succ fuel ih =>
      have more : ((body (change place)).flatMap fun after =>
          if after.read == (change place).read then []
          else roundWays body greedy fuel after) =
            ((body place).flatMap fun after =>
              if after.read == place.read then []
              else roundWays body greedy fuel after).map change := by
        rw [commutes, List.flatMap_map, List.map_flatMap]
        refine List.flatMap_congr fun after _ => ?_
        rw [keeps, keeps]
        split
        · rfl
        · exact ih after
      simp only [roundWays, more]
      cases greedy <;> simp

section Matching

variable {α : Type}

theorem findSome?_flatMap {β γ : Type} (list : List β) (image : β → List γ)
    (next : γ → Option α) :
    (list.flatMap image).findSome? next =
      list.findSome? fun item => (image item).findSome? next := by
  induction list with
  | nil => rfl
  | cons item rest ih =>
      rw [List.flatMap_cons, List.findSome?_append, List.findSome?_cons, ih]
      cases (image item).findSome? next <;> rfl

theorem rounds_eq_findSome?
    {body : Place → (Place → Option α) → Option α} {steps : Place → List Place}
    (equal : ∀ place next, body place next = (steps place).findSome? next)
    (greedy : Bool) (fuel : Nat) (place : Place) (next : Place → Option α) :
    rounds body greedy fuel place next =
      (roundWays steps greedy fuel place).findSome? next := by
  induction fuel generalizing place with
  | zero => simp [rounds, roundWays]
  | succ fuel ih =>
      have more : (body place fun after =>
          if after.read == place.read then none
          else rounds body greedy fuel after next) =
            ((steps place).flatMap fun after =>
              if after.read == place.read then []
              else roundWays steps greedy fuel after).findSome? next := by
        rw [equal, findSome?_flatMap]
        congr 1
        funext after
        split
        · rfl
        · exact ih after
      simp only [rounds, roundWays, more]
      cases greedy with
      | true =>
          simp only [if_true, List.findSome?_append]
          cases List.findSome? next _ <;> simp
      | false =>
          simp only [Bool.false_eq_true, if_false, List.findSome?_cons]
          cases next place <;> rfl

/-- Matching takes the first way that the continuation accepts. -/
theorem run_eq_findSome? (pattern : Pattern) (place : Place)
    (next : Place → Option α) :
    pattern.run place next = (pattern.ways place).findSome? next := by
  induction pattern generalizing place next with
  | empty => simp [run, ways_empty]
  | char test =>
      rw [run, ways_char]
      cases place.rest with
      | nil => rfl
      | cons c rest => by_cases passes : test c = true <;> simp [passes]
  | seq first second first_ih second_ih =>
      rw [run, ways_seq, first_ih, findSome?_flatMap]
      simp only [second_ih]
  | alt left right left_ih right_ih =>
      rw [run, ways_alt, List.findSome?_append, left_ih, right_ih]
      cases List.findSome? next (left.ways place) <;> rfl
  | star greedy body ih =>
      rw [run, ways_star]
      exact rounds_eq_findSome? ih greedy _ place next
  | group number body ih =>
      rw [run, ways_group, ih, List.findSome?_map]
      rfl
  | textStart =>
      rw [run, ways_textStart]
      split <;> simp
  | textEnd =>
      rw [run, ways_textEnd]
      split <;> simp
  | lineStart =>
      rw [run, ways_lineStart]
      split <;> simp
  | wordEdge =>
      rw [run, ways_wordEdge]
      split <;> simp

end Matching

theorem run_some (pattern : Pattern) (place : Place) :
    pattern.run place some = (pattern.ways place).head? := by
  rw [run_eq_findSome?]
  cases pattern.ways place <;> rfl

/-- The way that a pattern prefers. -/
def Leads (pattern : Pattern) (place after : Place) : Prop :=
  (pattern.ways place).head? = some after

/-- The place after a text that was read, with the rest still to be read. -/
def Place.past (place : Place) (text rest : List Char) : Place :=
  { place with
    before := text.getLast?.or place.before
    rest
    read := place.read + text.length }

@[simp] theorem Place.past_rest (place : Place) (text rest : List Char) :
    (place.past text rest).rest = rest := rfl

@[simp] theorem Place.past_groups (place : Place) (text rest : List Char) :
    (place.past text rest).groups = place.groups := rfl

@[simp] theorem Place.past_read (place : Place) (text rest : List Char) :
    (place.past text rest).read = place.read + text.length := rfl

@[simp] theorem Place.past_before (place : Place) (text rest : List Char) :
    (place.past text rest).before = text.getLast?.or place.before := rfl

theorem Place.past_nil {place : Place} {rest : List Char}
    (split : place.rest = rest) : place.past [] rest = place := by
  subst split
  rfl

@[simp] theorem Place.past_past (place : Place)
    (first second middle rest : List Char) :
    (place.past first middle).past second rest =
      place.past (first ++ second) rest := by
  simp only [Place.past, Place.mk.injEq, List.getLast?_append,
    List.length_append, Option.or_assoc, true_and, and_true]
  omega

/-- The place after a text that was read and kept under a number. -/
def Place.keep (place : Place) (number : Nat) (text rest : List Char) :
    Place :=
  ⟨text.getLast?.or place.before, rest, place.read + text.length,
    (number, place.rest, text.length) :: place.groups⟩

@[simp] theorem Place.keep_rest (place : Place) (number : Nat)
    (text rest : List Char) : (place.keep number text rest).rest = rest := rfl

@[simp] theorem Place.keep_groups (place : Place) (number : Nat)
    (text rest : List Char) :
    (place.keep number text rest).groups =
      (number, place.rest, text.length) :: place.groups := rfl

section Leading

variable {first second body : Pattern} {place middle after : Place}

theorem Leads.seq (one : Leads first place middle)
    (two : Leads second middle after) :
    Leads (seq first second) place after := by
  rw [Leads] at one two ⊢
  obtain ⟨others, equal⟩ := List.head?_eq_some_iff.mp one
  simp [ways_seq, List.head?_flatMap, equal, two]

theorem Leads.concat {patterns others : List Pattern}
    (one : Leads (concat patterns) place middle)
    (two : Leads (concat others) middle after) :
    Leads (concat (patterns ++ others)) place after := by
  rw [Leads, ways_concat_append]
  exact one.seq two

theorem Leads.exists_seq {result : Place → Prop}
    (one : Leads first place middle)
    (two : ∃ after, Leads second middle after ∧ result after) :
    ∃ after, Leads (Pattern.seq first second) place after ∧ result after := by
  obtain ⟨after, leads, property⟩ := two
  exact ⟨after, one.seq leads, property⟩

theorem Leads.left (leads : Leads first place after) :
    Leads (alt first second) place after := by
  rw [Leads] at leads ⊢
  simp [ways_alt, leads]

theorem Leads.right (fails : first.ways place = [])
    (leads : Leads second place after) :
    Leads (alt first second) place after := by
  rw [Leads] at leads ⊢
  simp [ways_alt, fails, leads]

theorem Leads.opt (leads : Leads body place after) :
    Leads (opt body) place after :=
  leads.left

theorem leads_opt_of_fails (fails : body.ways place = []) :
    Leads (opt body) place place :=
  Leads.right fails rfl

theorem Leads.group {text rest : List Char} {number : Nat}
    (leads : Leads body place (place.past text rest)) :
    Leads (group number body) place (place.keep number text rest) := by
  rw [Leads] at leads ⊢
  simp [ways_group, leads, Place.keep]

theorem leads_textStart (start : place.before = none) :
    Leads textStart place place := by
  simp [Leads, ways_textStart, start]

theorem leads_textEnd (finish : place.rest = []) :
    Leads textEnd place place := by
  simp [Leads, ways_textEnd, finish]

theorem leads_wordEdge
    (edge : besideWord place.before ≠ besideWord place.rest.head?) :
    Leads wordEdge place place := by
  simp [Leads, ways_wordEdge, edge]

theorem ways_seq_eq_nil :
    (seq first second).ways place = [] ↔
      ∀ after ∈ first.ways place, second.ways after = [] := by
  rw [ways_seq, List.flatMap_eq_nil_iff]

theorem ways_seq_of_left (fails : first.ways place = []) :
    (seq first second).ways place = [] := by
  rw [ways_seq, fails, List.flatMap_nil]

theorem ways_alt_eq_nil (one : first.ways place = [])
    (two : second.ways place = []) : (alt first second).ways place = [] := by
  rw [ways_alt, one, two, List.append_nil]

theorem ways_opt_of_fails (fails : body.ways place = []) :
    (opt body).ways place = [place] := by
  simp [Pattern.opt, ways_alt, ways_empty, fails]

end Leading

/-- The pattern reads one character of a class, in one way if at all. -/
structure ReadsOne (body : Pattern) (test : Char → Bool) : Prop where
  reads : ∀ {place : Place} {c : Char} {rest : List Char},
    place.rest = c :: rest → test c = true →
      Leads body place (place.past [c] rest)
  stops : ∀ {place : Place},
    (∀ c ∈ place.rest.head?, test c = false) → body.ways place = []

theorem readsOne_char (test : Char → Bool) : ReadsOne (char test) test where
  reads split passes := by
    simp [Leads, ways_char, split, passes, Place.past]
  stops {place} refused := by
    rw [ways_char]
    split
    · rfl
    · rename_i c rest split
      simp [refused c (by simp [split])]

theorem ReadsOne.alt {left right : Pattern} {first second : Char → Bool}
    (one : ReadsOne left first) (two : ReadsOne right second) :
    ReadsOne (alt left right) fun c => first c || second c where
  reads {place c rest} split passes := by
    cases here : first c with
    | true => exact (one.reads split here).left
    | false =>
        have fails : left.ways place = [] :=
          one.stops (by simp [split, here])
        exact .right fails (two.reads split (by simpa [here] using passes))
  stops {place} refused := by
    have both : ∀ c ∈ place.rest.head?, first c = false ∧ second c = false :=
      fun c member => by simpa using refused c member
    rw [ways_alt, one.stops fun c member => (both c member).1,
      two.stops fun c member => (both c member).2, List.append_nil]

theorem head?_roundWays {body : Pattern} {test : Char → Bool}
    (one : ReadsOne body test) {place : Place} {text rest : List Char}
    {fuel : Nat} (enough : text.length ≤ fuel)
    (split : place.rest = text ++ rest) (within : ∀ c ∈ text, test c = true)
    (beyond : ∀ c ∈ rest.head?, test c = false) :
    (roundWays body.ways true fuel place).head? =
      some (place.past text rest) := by
  induction text generalizing place fuel with
  | nil =>
      have stays : place.past [] rest = place := Place.past_nil split
      have fails : body.ways place = [] := one.stops (by simpa [split])
      cases fuel <;> simp [roundWays, fails, stays]
  | cons c text ih =>
      obtain ⟨fuel, rfl⟩ : ∃ less, fuel = less + 1 :=
        Nat.exists_eq_succ_of_ne_zero (by simp at enough; omega)
      have step : Leads body place (place.past [c] (text ++ rest)) :=
        one.reads split (within c List.mem_cons_self)
      have others : (roundWays body.ways true fuel
          (place.past [c] (text ++ rest))).head? =
            some ((place.past [c] (text ++ rest)).past text rest) :=
        ih (by simpa using enough) rfl
          fun d member => within d (List.mem_cons_of_mem c member)
      rw [Leads] at step
      obtain ⟨tail, equal⟩ := List.head?_eq_some_iff.mp step
      simp [roundWays, List.head?_flatMap, equal, others]

section Classes

variable {body : Pattern} {test : Char → Bool} {place : Place}
  {text rest : List Char}

/-- A greedy repetition over a class prefers to read all that belongs to it. -/
theorem leads_many (one : ReadsOne body test)
    (split : place.rest = text ++ rest) (within : ∀ c ∈ text, test c = true)
    (beyond : ∀ c ∈ rest.head?, test c = false) :
    Leads (many body) place (place.past text rest) :=
  head?_roundWays one (by simp [split]) split within beyond

theorem leads_some1 (one : ReadsOne body test) (filled : text ≠ [])
    (split : place.rest = text ++ rest) (within : ∀ c ∈ text, test c = true)
    (beyond : ∀ c ∈ rest.head?, test c = false) :
    Leads (some1 body) place (place.past text rest) := by
  cases text with
  | nil => exact absurd rfl filled
  | cons c text =>
      have first : Leads body place (place.past [c] (text ++ rest)) :=
        one.reads split (within c List.mem_cons_self)
      have others := leads_many one
        (show (place.past [c] (text ++ rest)).rest = text ++ rest from rfl)
        (fun d member => within d (List.mem_cons_of_mem c member)) beyond
      rw [Place.past_past] at others
      exact first.seq others

theorem eq_past_of_mem_ways_char {after : Place}
    (way : after ∈ (char test).ways place) :
    ∃ c rest, place.rest = c :: rest ∧ test c = true ∧
      after = place.past [c] rest := by
  rw [ways_char] at way
  split at way
  · simp at way
  · rename_i c rest split
    split at way
    · rename_i passes
      exact ⟨c, rest, split, passes, by simpa [Place.past] using way⟩
    · simp at way

theorem eq_past_of_mem_roundWays {greedy : Bool} {fuel : Nat} {after : Place}
    (way : after ∈ roundWays (char test).ways greedy fuel place) :
    ∃ text rest, place.rest = text ++ rest ∧ (∀ c ∈ text, test c = true) ∧
      after = place.past text rest := by
  have stays : ∃ text rest, place.rest = text ++ rest ∧
      (∀ c ∈ text, test c = true) ∧ place = place.past text rest :=
    ⟨[], place.rest, rfl, by simp, rfl⟩
  induction fuel generalizing place with
  | zero =>
      rw [roundWays, List.mem_singleton] at way
      exact way ▸ stays
  | succ fuel ih =>
      rcases mem_roundWays_succ.mp way with rfl | ⟨middle, first, -, others⟩
      · exact stays
      · obtain ⟨c, rest, equal, passes, rfl⟩ := eq_past_of_mem_ways_char first
        obtain ⟨text, last, split, within, rfl⟩ := ih others
          ⟨[], _, rfl, by simp, rfl⟩
        rw [Place.past_rest] at split
        refine ⟨c :: text, last, by simp [equal, split], ?_, by simp⟩
        simpa [passes] using within

theorem eq_past_of_mem_ways_some1 {after : Place}
    (way : after ∈ (some1 (char test)).ways place) :
    ∃ text rest, place.rest = text ++ rest ∧ text ≠ [] ∧
      (∀ c ∈ text, test c = true) ∧ after = place.past text rest := by
  obtain ⟨middle, first, others⟩ := List.mem_flatMap.mp way
  obtain ⟨c, rest, split, passes, rfl⟩ := eq_past_of_mem_ways_char first
  obtain ⟨text, last, equal, within, rfl⟩ := eq_past_of_mem_roundWays others
  rw [Place.past_rest] at equal
  refine ⟨c :: text, last, by simp [split, equal], by simp, ?_, by simp⟩
  simpa [passes] using within

end Classes

/-- A lazy repetition stops at the first place that the rest of the pattern
accepts. -/
theorem head?_flatMap_fewest {next : Place → List Place} {place after : Place}
    {text rest : List Char} {fuel : Nat} (enough : text.length ≤ fuel)
    (split : place.rest = text ++ rest)
    (early : ∀ front back, text = front ++ back → back ≠ [] →
      next (place.past front (back ++ rest)) = [])
    (accepts : (next (place.past text rest)).head? = some after) :
    ((roundWays any.ways false fuel place).flatMap next).head? =
      some after := by
  induction text generalizing place fuel with
  | nil =>
      have stays : place.past [] rest = place := Place.past_nil split
      rw [stays] at accepts
      cases fuel <;> simp [roundWays, accepts]
  | cons c text ih =>
      obtain ⟨fuel, rfl⟩ : ∃ less, fuel = less + 1 :=
        Nat.exists_eq_succ_of_ne_zero (by simp at enough; omega)
      have stays : place.past [] (c :: text ++ rest) = place :=
        Place.past_nil split
      have here : next place = [] := by
        have none := early [] (c :: text) rfl (by simp)
        rwa [stays] at none
      have step : any.ways place = [place.past [c] (text ++ rest)] := by
        simp [any, ways_char, split, Place.past]
      have later : ((roundWays any.ways false fuel
          (place.past [c] (text ++ rest))).flatMap next).head? = some after :=
        ih (by simpa using enough) rfl
          (fun front back equal filled => by
            have none := early (c :: front) back (by simp [equal]) filled
            simpa using none)
          (by simpa using accepts)
      simp [roundWays, here, step, later]

/-- A kept text that is as short as possible ends where the rest of the
pattern first matches. -/
theorem leads_keep_fewest {tail : Pattern} {number : Nat} {place after : Place}
    {text rest : List Char} (filled : text ≠ [])
    (split : place.rest = text ++ rest)
    (early : ∀ front back, text = front ++ back → front ≠ [] → back ≠ [] →
      ∀ place : Place, place.rest = back ++ rest → tail.ways place = [])
    (leads : Leads tail (place.keep number text rest) after) :
    Leads (seq (group number (fewest1 any)) tail) place after := by
  obtain ⟨c, text, rfl⟩ := List.exists_cons_of_ne_nil filled
  have step : any.ways place = [place.past [c] (text ++ rest)] := by
    simp [any, ways_char, split, Place.past]
  let first := place.past [c] (text ++ rest)
  have found : ((roundWays any.ways false (text ++ rest).length
      first).flatMap fun later => tail.ways
        { later with
          groups := (number, place.rest, later.read - place.read) ::
            later.groups }).head? = some after := by
    have follows : first.rest = text ++ rest := rfl
    refine head?_flatMap_fewest (by simp) follows (fun front back equal more =>
      early (c :: front) back (by simp [equal]) (by simp) more _ rfl) ?_
    rw [Leads] at leads
    rw [← leads]
    simp [first, Place.keep]
  rw [Leads, ways_seq, ways_group, fewest1, ways_seq, step]
  simpa [ways_star, List.flatMap_map] using found

/-- A text of the given letters in any case. -/
def Spells (letters text : List Char) : Prop :=
  List.Forall₂ (fun letter c => sameLetter letter c = true) letters text

section Words

variable {place after : Place} {text rest : List Char}

theorem leads_letters {letters : List Char} (spelled : Spells letters text)
    (split : place.rest = text ++ rest) :
    Leads (concat (letters.map fun letter => char (sameLetter letter))) place
      (place.past text rest) := by
  induction spelled generalizing place with
  | nil =>
      have stays : place.past [] rest = place := Place.past_nil split
      rw [stays]
      rfl
  | @cons letter c letters text same others ih =>
      have first : Leads (char (sameLetter letter)) place
          (place.past [c] (text ++ rest)) :=
        (readsOne_char _).reads split same
      have next : Leads
          (concat (letters.map fun letter => char (sameLetter letter)))
          (place.past [c] (text ++ rest))
          ((place.past [c] (text ++ rest)).past text rest) := ih rfl
      cases letters with
      | nil =>
          cases others
          exact first
      | cons letter letters =>
          rw [Place.past_past] at next
          exact first.seq next

theorem leads_word {letters : String} (spelled : Spells letters.toList text)
    (split : place.rest = text ++ rest) :
    Leads (word letters) place (place.past text rest) :=
  leads_letters spelled split

theorem spells_of_mem_ways_letters {letters : List Char}
    (way : after ∈ (concat (letters.map fun letter =>
      char (sameLetter letter))).ways place) :
    ∃ text rest, place.rest = text ++ rest ∧ Spells letters text ∧
      after = place.past text rest := by
  induction letters generalizing place with
  | nil =>
      have stays : after = place := by simpa [concat, ways_empty] using way
      exact ⟨[], place.rest, rfl, .nil, stays⟩
  | cons letter letters ih =>
      cases letters with
      | nil =>
          obtain ⟨c, rest, split, same, rfl⟩ := eq_past_of_mem_ways_char way
          exact ⟨[c], rest, split, .cons same .nil, rfl⟩
      | cons next letters =>
          obtain ⟨middle, first, others⟩ := List.mem_flatMap.mp way
          obtain ⟨c, rest, split, same, rfl⟩ := eq_past_of_mem_ways_char first
          obtain ⟨text, last, equal, spelled, rfl⟩ := ih others
          rw [Place.past_rest] at equal
          exact ⟨c :: text, last, by simp [split, equal], .cons same spelled,
            by simp⟩

theorem spells_of_mem_ways_word {letters : String}
    (way : after ∈ (word letters).ways place) :
    ∃ text rest, place.rest = text ++ rest ∧ Spells letters.toList text ∧
      after = place.past text rest :=
  spells_of_mem_ways_letters way

theorem leads_blanks (split : place.rest = text ++ rest)
    (within : ∀ c ∈ text, isBlank c = true)
    (beyond : ∀ c ∈ rest.head?, isBlank c = false) :
    Leads blanks place (place.past text rest) :=
  leads_many (readsOne_char isBlank) split within beyond

theorem leads_blanks1 (filled : text ≠ [])
    (split : place.rest = text ++ rest)
    (within : ∀ c ∈ text, isBlank c = true)
    (beyond : ∀ c ∈ rest.head?, isBlank c = false) :
    Leads blanks1 place (place.past text rest) :=
  leads_some1 (readsOne_char isBlank) filled split within beyond

theorem blank_of_mem_ways_blanks (way : after ∈ blanks.ways place) :
    ∃ gap rest, place.rest = gap ++ rest ∧ (∀ c ∈ gap, isBlank c = true) ∧
      after = place.past gap rest :=
  eq_past_of_mem_roundWays way

theorem blank_of_mem_ways_blanks1 (way : after ∈ blanks1.ways place) :
    ∃ gap rest, place.rest = gap ++ rest ∧ gap ≠ [] ∧
      (∀ c ∈ gap, isBlank c = true) ∧ after = place.past gap rest :=
  eq_past_of_mem_ways_some1 way

end Words

section Searching

variable {pattern : Pattern} {text before rest : List Char} {after : Place}

/-- The place where a match starts, with the text before it. -/
def Place.start (before rest : List Char) : Place :=
  ⟨before.getLast?, rest, 0, []⟩

theorem searchFrom_of_leads {previous : Option Char} {passed : List Char}
    (leads : Leads pattern ⟨previous, text, 0, []⟩ after) :
    searchFrom pattern previous passed text =
      some (Match.ending passed text after) := by
  rw [Leads, ← run_some] at leads
  cases text <;> simp [searchFrom, leads]

theorem search_of_leads_start (leads : Leads pattern (.start [] text) after) :
    pattern.search text = some (Match.ending [] text after) :=
  searchFrom_of_leads leads

theorem searchFrom_skip {previous : Option Char} {passed : List Char}
    (barren : ∀ front back, before = front ++ back → back ≠ [] →
      pattern.ways ⟨front.getLast?.or previous, back ++ rest, 0, []⟩ = []) :
    searchFrom pattern previous passed (before ++ rest) =
      searchFrom pattern (before.getLast?.or previous)
        (before.reverse ++ passed) rest := by
  induction before generalizing previous passed with
  | nil => simp
  | cons c before ih =>
      have fails : pattern.ways ⟨previous, c :: before ++ rest, 0, []⟩ = [] :=
        barren [] (c :: before) rfl (by simp)
      have later : ∀ front back, before = front ++ back → back ≠ [] →
          pattern.ways ⟨front.getLast?.or (some c), back ++ rest, 0, []⟩ =
            [] := by
        intro front back split filled
        have here := barren (c :: front) back (by simp [split]) filled
        simpa [List.getLast?_cons, Option.or_some] using here
      have skips := @ih (some c) (c :: passed) later
      have none : pattern.run ⟨previous, c :: (before ++ rest), 0, []⟩ some =
          none := by
        rw [run_some]
        simpa using congrArg List.head? fails
      rw [List.cons_append, searchFrom, none]
      simpa [List.getLast?_cons, Option.or_some] using skips

/-- The match found in a text is the first one, so nothing before it may have
a way to match. -/
theorem search_of_leads
    (barren : ∀ front back, before = front ++ back → back ≠ [] →
      pattern.ways (.start front (back ++ rest)) = [])
    (leads : Leads pattern (.start before rest) after) :
    pattern.search (before ++ rest) =
      some (Match.ending before.reverse rest after) := by
  rw [search, searchFrom_skip (by simpa [Place.start] using barren)]
  simpa using searchFrom_of_leads
    (by simpa [Place.start] using leads)

theorem search_eq_none
    (barren : ∀ front back, text = front ++ back →
      pattern.ways (.start front back) = []) :
    pattern.search text = none := by
  have skipped : searchFrom pattern none [] (text ++ []) =
      searchFrom pattern (text.getLast?.or none) (text.reverse ++ []) [] :=
    searchFrom_skip fun front back split _ => by
      simpa [Place.start] using barren front back split
  have finish := barren text [] (by simp)
  rw [List.append_nil] at skipped
  rw [search, skipped, searchFrom, run_some]
  simp only [Place.start] at finish
  simp [finish]

theorem searchFrom_textStart {passed : List Char} {c : Char} :
    searchFrom (seq textStart pattern) (some c) passed text = none := by
  induction text generalizing c passed with
  | nil => simp [searchFrom, run]
  | cons d text ih => simp [searchFrom, run, ih]

/-- A pattern bound to the start of the text is searched for there alone. -/
theorem search_textStart_eq_none
    (fails : pattern.ways (.start [] text) = []) :
    (seq textStart pattern).search text = none := by
  have first : (seq textStart pattern).ways (.start [] text) = [] := by
    simpa [ways_seq, ways_textStart, Place.start] using fails
  have nowhere : (seq textStart pattern).run ⟨none, text, 0, []⟩ some =
      none := by
    rw [run_some]
    exact congrArg List.head? first
  cases text with
  | nil => simp [search, searchFrom, nowhere]
  | cons c text => simp [search, searchFrom, nowhere, searchFrom_textStart]

theorem isSome_searchFrom_of_leads {previous : Option Char}
    {passed : List Char}
    (leads : Leads pattern ⟨before.getLast?.or previous, rest, 0, []⟩ after) :
    (searchFrom pattern previous passed (before ++ rest)).isSome = true := by
  induction before generalizing previous passed with
  | nil => simp [searchFrom_of_leads (by simpa using leads)]
  | cons c before ih =>
      rw [List.cons_append, searchFrom]
      split
      · rfl
      · exact ih (by simpa [List.getLast?_cons, Option.or_some] using leads)

theorem occurs_of_leads (leads : Leads pattern (.start before rest) after) :
    pattern.occurs (before ++ rest) = true :=
  isSome_searchFrom_of_leads (by simpa [Place.start] using leads)

theorem occurs_eq_false
    (barren : ∀ front back, text = front ++ back →
      pattern.ways (.start front back) = []) :
    pattern.occurs text = false := by
  rw [occurs, search_eq_none barren]
  rfl

theorem group?_ending (passed start : List Char) (place : Place)
    (number : Nat) :
    (Match.ending passed start place).group? number =
      (place.groups.lookup number).map fun (from_, length) =>
        from_.take length := by
  obtain ⟨before, rest, read, groups⟩ := place
  simp only [Match.ending, Match.group?]
  induction groups with
  | nil => rfl
  | cons group groups ih =>
      obtain ⟨other, from_, length⟩ := group
      by_cases same : number = other
      · simp [same]
      · have different : (number == other) = false := by simpa using same
        simp [List.lookup_cons, different, ih]

@[simp] theorem ending_after (passed start : List Char) (place : Place) :
    (Match.ending passed start place).after = place.rest := rfl

end Searching

end ArchSurvey.Text.Pattern
