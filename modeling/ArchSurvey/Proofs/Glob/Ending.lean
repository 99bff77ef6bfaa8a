import ArchSurvey.Scan.Listing

/-!
# How matched paths end

Whatever a pattern asks for before, a path that it matches ends with the
characters at its end.  So a pattern and a file name of which neither is an end
of the other never meet.
-/

namespace ArchSurvey.Glob

open Text.Utf8 (encode)

/-- A continuation accepts an end of a text. -/
def AcceptsEnd (next : List UInt8 → Bool) (text : List UInt8) : Prop :=
  ∃ rest, rest <:+ text ∧ next rest = true

section

variable {next : List UInt8 → Bool} {b : UInt8} {text : List UInt8}

theorem AcceptsEnd.cons (accepts : AcceptsEnd next text) :
    AcceptsEnd next (b :: text) := by
  obtain ⟨rest, suffix, accepted⟩ := accepts
  exact ⟨rest, suffix.trans (List.suffix_cons b text), accepted⟩

theorem AcceptsEnd.of_eq_true (accepted : next text = true) :
    AcceptsEnd next text :=
  ⟨text, List.suffix_refl text, accepted⟩

theorem acceptsEnd_of_afterSegment (accepted : afterSegment next text = true) :
    AcceptsEnd next text := by
  induction text with
  | nil => exact .of_eq_true accepted
  | cons b rest ih =>
      rcases Bool.or_eq_true_iff.mp accepted with here | later
      · exact .of_eq_true here
      · exact (ih (Bool.and_eq_true_iff.mp later).2).cons

theorem acceptsEnd_of_afterSlash (accepted : afterSlash next text = true) :
    AcceptsEnd next text := by
  induction text with
  | nil => cases accepted
  | cons b rest ih =>
      rcases Bool.or_eq_true_iff.mp accepted with here | later
      · exact (AcceptsEnd.of_eq_true (Bool.and_eq_true_iff.mp here).2).cons
      · exact (ih later).cons

theorem acceptsEnd_of_afterAny (accepted : afterAny next text = true) :
    AcceptsEnd next text := by
  induction text with
  | nil => exact .of_eq_true accepted
  | cons b rest ih =>
      rcases Bool.or_eq_true_iff.mp accepted with here | later
      · exact .of_eq_true here
      · exact (ih later).cons

theorem eq_append_of_dropBytes? {bytes rest : List UInt8}
    (dropped : dropBytes? bytes text = some rest) : text = bytes ++ rest := by
  induction bytes generalizing text with
  | nil => exact Option.some.inj dropped
  | cons b bytes ih =>
      cases text with
      | nil => cases dropped
      | cons c text =>
          rw [dropBytes?] at dropped
          split at dropped
          · next same =>
              rw [ih dropped, eq_of_beq same]
              rfl
          · cases dropped

end

mutual

/-- A token that matches leaves an end of the text to what follows it. -/
theorem acceptsEnd_of_matchToken {next : List UInt8 → Bool}
    {text : List UInt8} :
    ∀ token : Token, matchToken token text next = true → AcceptsEnd next text
  | .literal c, accepted => by
      rw [matchToken] at accepted
      split at accepted
      · next rest dropped =>
          exact ⟨rest, ⟨_, (eq_append_of_dropBytes? dropped).symm⟩, accepted⟩
      · cases accepted
  | .any, accepted => by
      cases text with
      | nil => cases accepted
      | cons b rest =>
          rw [matchToken] at accepted
          exact (AcceptsEnd.of_eq_true (Bool.and_eq_true_iff.mp accepted).2).cons
  | .zeroOrMore, accepted => by
      rw [matchToken] at accepted
      exact acceptsEnd_of_afterSegment accepted
  | .leadingDirectories, accepted => by
      rw [matchToken] at accepted
      rcases Bool.or_eq_true_iff.mp accepted with here | later
      · exact .of_eq_true here
      · exact acceptsEnd_of_afterSlash later
  | .everythingBelow, accepted => by
      cases text with
      | nil => cases accepted
      | cons b rest =>
          rw [matchToken] at accepted
          exact (acceptsEnd_of_afterAny (Bool.and_eq_true_iff.mp accepted).2).cons
  | .innerDirectories, accepted => by
      cases text with
      | nil => cases accepted
      | cons b rest =>
          rw [matchToken] at accepted
          rcases Bool.or_eq_true_iff.mp (Bool.and_eq_true_iff.mp accepted).2
            with here | later
          · exact (AcceptsEnd.of_eq_true here).cons
          · exact (acceptsEnd_of_afterSlash later).cons
  | .oneOf negated ranges, accepted => by
      cases text with
      | nil => cases accepted
      | cons b rest =>
          rw [matchToken] at accepted
          exact (AcceptsEnd.of_eq_true (Bool.and_eq_true_iff.mp accepted).2).cons
  | .alternates branches, accepted => by
      rw [matchToken] at accepted
      split at accepted
      · exact .of_eq_true accepted
      · exact acceptsEnd_of_matchBranches branches accepted

theorem acceptsEnd_of_matchTokens {next : List UInt8 → Bool}
    {text : List UInt8} :
    ∀ tokens : List Token, matchTokens tokens text next = true →
      AcceptsEnd next text
  | [], accepted => .of_eq_true accepted
  | token :: rest, accepted => by
      rw [matchTokens] at accepted
      obtain ⟨middle, suffix, later⟩ := acceptsEnd_of_matchToken token accepted
      obtain ⟨last, suffix', accepted'⟩ := acceptsEnd_of_matchTokens rest later
      exact ⟨last, suffix'.trans suffix, accepted'⟩

theorem acceptsEnd_of_matchBranches {next : List UInt8 → Bool}
    {text : List UInt8} :
    ∀ branches : List (List Token), matchBranches branches text next = true →
      AcceptsEnd next text
  | [], accepted => by
      rw [matchBranches] at accepted
      cases accepted
  | branch :: rest, accepted => by
      rw [matchBranches] at accepted
      rcases Bool.or_eq_true_iff.mp accepted with here | later
      · exact acceptsEnd_of_matchTokens branch (Bool.and_eq_true_iff.mp here).2
      · exact acceptsEnd_of_matchBranches rest later

end

/-- The characters at the end of a pattern, after everything that leaves a
choice. -/
def ending : List Token → List Char
  | [] => []
  | .literal c :: rest =>
      if (ending rest).length = rest.length then c :: ending rest
      else ending rest
  | _ :: rest => ending rest

theorem exists_front (tokens : List Token) :
    ∃ front, tokens = front ++ (ending tokens).map .literal := by
  fun_induction ending tokens with
  | case1 => exact ⟨[], rfl⟩
  | case2 c rest whole ih =>
      obtain ⟨front, split⟩ := ih
      have nothing : front = [] := by
        have lengths := congrArg List.length split
        rw [List.length_append, List.length_map] at lengths
        exact List.length_eq_zero_iff.mp (by omega)
      rw [nothing] at split
      exact ⟨[], congrArg (Token.literal c :: ·) split⟩
  | case3 c rest _ ih =>
      obtain ⟨front, split⟩ := ih
      exact ⟨.literal c :: front, congrArg (Token.literal c :: ·) split⟩
  | case4 token rest _ ih =>
      obtain ⟨front, split⟩ := ih
      exact ⟨token :: front, congrArg (token :: ·) split⟩

theorem matchTokens_append (first second : List Token) (text : List UInt8)
    (next : List UInt8 → Bool) :
    matchTokens (first ++ second) text next =
      matchTokens first text fun after => matchTokens second after next := by
  induction first generalizing text with
  | nil => rw [List.nil_append, matchTokens]
  | cons token first ih =>
      rw [List.cons_append, matchTokens, matchTokens]
      congr 1
      funext after
      exact ih after

/-- Characters match their own text only. -/
theorem eq_encode_of_matchTokens {characters : List Char} {text : List UInt8}
    (matched : matchTokens (characters.map .literal) text List.isEmpty = true) :
    text = encode characters := by
  induction characters generalizing text with
  | nil =>
      rw [List.map_nil, matchTokens] at matched
      exact List.isEmpty_iff.mp matched
  | cons c characters ih =>
      rw [List.map_cons, matchTokens, matchToken] at matched
      split at matched
      · next rest dropped =>
          rw [eq_append_of_dropBytes? dropped, ih matched]
          rfl
      · cases matched

/-- A path that a pattern matches ends with the characters at its end. -/
theorem ending_suffix_of_isMatch {tokens : List Token} {path : String}
    (matched : isMatch tokens path = true) :
    encode (ending tokens) <:+ encode path.toList := by
  unfold isMatch at matched
  dsimp only at matched
  split at matched
  · exact List.nil_suffix
  · obtain ⟨front, split⟩ := exists_front tokens
    rw [split, matchTokens_append] at matched
    obtain ⟨rest, suffix, accepted⟩ := acceptsEnd_of_matchTokens front matched
    rwa [eq_encode_of_matchTokens accepted] at suffix

/-- Neither of two texts is an end of the other. -/
def EndsApart (first second : List UInt8) : Prop :=
  ¬first <:+ second ∧ ¬second <:+ first

instance (first second : List UInt8) : Decidable (EndsApart first second) :=
  inferInstanceAs (Decidable (_ ∧ _))

/-- A pattern matches no path that ends with a text from which its own end is
apart. -/
theorem matchesPath_of_endsApart {glob : Glob} {name path : String}
    (apart : EndsApart (encode (ending glob.tokens)) (encode name.toList))
    (named : encode name.toList <:+ encode path.toList) :
    glob.matchesPath path = false := by
  rw [← Bool.not_eq_true]
  intro matched
  rcases List.suffix_or_suffix_of_suffix (ending_suffix_of_isMatch matched) named
    with first | second
  · exact apart.1 first
  · exact apart.2 second

end ArchSurvey.Glob
