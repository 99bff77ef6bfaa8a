import ArchSurvey.Proofs.Lists
import ArchSurvey.Proofs.Text.Blank
import ArchSurvey.Route.Controller
import ArchSurvey.Route.Grouped

/-!
# Nested prefixes

A joined path starts with a slash and has one where its parts meet, whatever
slashes these had there.  Among paths without white space it makes no difference
in which grouping several are joined.  With white space it does, since that is
trimmed at each step.

A variable that is no group has no prefix, and every other has one that starts
with a slash.  Parents are followed for a bounded number of steps, so groups
that are their own parents do no harm.  Within the bound a group lies below its
parent: its prefix is that of the parent with its own path behind it.  The
prefixes of groups and of classes may be joined in any grouping.
-/

namespace ArchSurvey.Route

open Text

/-! ## Slashes -/

/-- No character is white space. -/
def Solid (path : List Char) : Prop :=
  ∀ c ∈ path, isBlank c = false

/-- There is nothing but slashes. -/
def Slashes (path : List Char) : Prop :=
  ∀ c ∈ path, c = '/'

/-- The path with a slash in front, unless it has one there. -/
def rooted (path : List Char) : List Char :=
  if path.head? = some '/' then path else '/' :: path

/-- The path without the slashes at its end. -/
def stem (path : List Char) : List Char :=
  dropEndWhile (· == '/') path

/-- The path without the slashes at its start. -/
def tip (path : List Char) : List Char :=
  path.dropWhile (· == '/')

/-- Two paths with a slash between them, or the only one that is not empty. -/
def linked (front back : List Char) : List Char :=
  if front = [] then back else if back = [] then front else front ++ '/' :: back

instance : DecidablePred Solid := fun path =>
  inferInstanceAs (Decidable (∀ c ∈ path, isBlank c = false))

instance : DecidablePred Slashes := fun path =>
  inferInstanceAs (Decidable (∀ c ∈ path, c = '/'))

section Paths

variable {path front back opening closing : List Char}

theorem rooted_eq_self (starts : path.head? = some '/') : rooted path = path :=
  if_pos starts

@[simp] theorem stem_nil : stem [] = [] :=
  rfl

/-- Whether a character at the start is kept depends on what follows it. -/
theorem stem_cons (c : Char) (path : List Char) :
    stem (c :: path) =
      if stem path = [] ∧ c = '/' then [] else c :: stem path := by
  unfold stem dropEndWhile
  rw [List.reverse_cons, List.dropWhile_append]
  by_cases none : path.reverse.dropWhile (· == '/') = []
  · by_cases slash : c = '/' <;> simp [none, slash]
  · simp [none]

theorem stem_append_of_stem_ne_nil (filled : stem back ≠ [])
    (front : List Char) : stem (front ++ back) = front ++ stem back := by
  induction front with
  | nil => rfl
  | cons c front ih =>
      have kept : front ++ stem back ≠ [] := by simp [filled]
      rw [List.cons_append, stem_cons, ih, if_neg fun both => kept both.1]
      rfl

theorem stem_append_slashes (slashes : Slashes closing) (path : List Char) :
    stem (path ++ closing) = stem path := by
  have dropped : ∀ c ∈ closing.reverse, (c == '/') = true := by
    intro c member
    exact beq_iff_eq.mpr (slashes c (List.mem_reverse.mp member))
  rw [stem, dropEndWhile, List.reverse_append,
    List.dropWhile_append_of_pos dropped]
  rfl

theorem head?_stem (filled : stem path ≠ []) :
    (stem path).head? = path.head? := by
  cases path with
  | nil => rfl
  | cons c path =>
      rw [stem_cons] at filled ⊢
      split at filled
      · exact absurd rfl filled
      · next kept => rw [if_neg kept]; rfl

theorem stem_eq_self (unclosed : path.getLast? ≠ some '/') :
    stem path = path := by
  induction path with
  | nil => rfl
  | cons c path ih =>
      rw [stem_cons]
      cases path with
      | nil => simpa using unclosed
      | cons d path =>
          rw [List.getLast?_cons_cons] at unclosed
          rw [ih unclosed]
          simp

theorem stem_stem (path : List Char) : stem (stem path) = stem path := by
  induction path with
  | nil => rfl
  | cons c path ih =>
      rw [stem_cons]
      split
      · rfl
      · next kept => rw [stem_cons, ih, if_neg kept]

theorem tip_slashes_append (slashes : Slashes opening) (path : List Char) :
    tip (opening ++ path) = tip path :=
  List.dropWhile_append_of_pos fun c member =>
    beq_iff_eq.mpr (slashes c member)

theorem tip_cons (c : Char) (path : List Char) :
    tip (c :: path) = if c = '/' then tip path else c :: path := by
  simp [tip, List.dropWhile_cons]

theorem tip_eq_self (unopened : path.head? ≠ some '/') : tip path = path := by
  cases path with
  | nil => rfl
  | cons c path =>
      rw [tip_cons, if_neg fun slash => unopened (by rw [slash]; rfl)]

theorem head?_tip (path : List Char) : (tip path).head? ≠ some '/' := by
  induction path with
  | nil => simp [tip]
  | cons c path ih =>
      rw [tip_cons]
      split
      · exact ih
      · next other => simpa using other

theorem tip_tip (path : List Char) : tip (tip path) = tip path :=
  tip_eq_self (head?_tip path)

/-- The slashes at both ends may be dropped in any order. -/
theorem stem_tip (path : List Char) : stem (tip path) = tip (stem path) := by
  induction path with
  | nil => rfl
  | cons c path ih =>
      rw [tip_cons, stem_cons]
      by_cases slash : c = '/'
      · rw [if_pos slash, ih]
        split
        · next empty => rw [empty.1]
        · rw [tip_cons, if_pos slash]
      · rw [if_neg slash, stem_cons, if_neg fun both => slash both.2, tip_cons,
          if_neg slash]

theorem stem_eq_nil_iff : stem path = [] ↔ Slashes path := by
  simp [stem, dropEndWhile, Slashes]

theorem tip_eq_nil_iff : tip path = [] ↔ Slashes path := by
  simp [tip, Slashes]

theorem stem_tip_ne_nil (filled : tip path ≠ []) : stem (tip path) ≠ [] := by
  intro empty
  have slashes := stem_eq_nil_iff.mp empty
  exact filled ((tip_tip path).symm.trans (tip_eq_nil_iff.mpr slashes))

theorem tip_stem_ne_nil (filled : stem path ≠ []) : tip (stem path) ≠ [] := by
  intro empty
  have slashes := tip_eq_nil_iff.mp empty
  exact filled ((stem_stem path).symm.trans (stem_eq_nil_iff.mpr slashes))

theorem tip_append_of_tip_ne_nil (filled : tip front ≠ []) (back : List Char) :
    tip (front ++ back) = tip front ++ back := by
  have kept : (front.dropWhile (· == '/')).isEmpty = false := by
    simpa [tip] using filled
  rw [tip, List.dropWhile_append, kept, if_neg Bool.false_ne_true]
  rfl

/-!
## Links

Without white space a joined path is the link of a stem and a tip, with a slash
in front.  Links are associative, and dropping slashes at either end of a link
drops them from one of its parts.
-/

@[simp] theorem linked_nil_left (back : List Char) : linked [] back = back :=
  if_pos rfl

@[simp] theorem linked_nil_right (front : List Char) :
    linked front [] = front := by
  unfold linked
  split
  · next empty => exact empty.symm
  · exact if_pos rfl

theorem linked_of_filled (first : front ≠ []) (second : back ≠ []) :
    linked front back = front ++ '/' :: back := by
  rw [linked, if_neg first, if_neg second]

theorem linked_ne_nil (filled : front ≠ []) (back : List Char) :
    linked front back ≠ [] := by
  by_cases empty : back = []
  · simpa [empty] using filled
  · simp [linked_of_filled filled empty]

theorem linked_cons (c : Char) (filled : front ≠ []) (back : List Char) :
    linked (c :: front) back = c :: linked front back := by
  by_cases empty : back = []
  · simp [empty]
  · rw [linked_of_filled (List.cons_ne_nil c front) empty,
      linked_of_filled filled empty]
    rfl

theorem head?_linked (filled : front ≠ []) (back : List Char) :
    (linked front back).head? = front.head? := by
  obtain ⟨c, rest, rfl⟩ := List.exists_cons_of_ne_nil filled
  by_cases empty : back = []
  · rw [empty, linked_nil_right]
  · rw [linked_of_filled filled empty]
    rfl

theorem linked_assoc (front middle back : List Char) :
    linked (linked front middle) back = linked front (linked middle back) := by
  by_cases noFront : front = []
  · simp [noFront]
  by_cases noMiddle : middle = []
  · simp [noMiddle]
  by_cases noBack : back = []
  · simp [noBack]
  rw [linked_of_filled (linked_ne_nil noFront middle) noBack,
    linked_of_filled noFront (linked_ne_nil noMiddle back),
    linked_of_filled noFront noMiddle, linked_of_filled noMiddle noBack,
    List.append_assoc, List.cons_append]

/-- Slashes at the end of a link are those at the end of its back. -/
theorem stem_linked (front back : List Char) :
    stem (linked (stem front) (tip back)) =
      linked (stem front) (stem (tip back)) := by
  by_cases noFront : stem front = []
  · simp [noFront]
  by_cases noBack : tip back = []
  · simp [noBack, stem_stem]
  have filled : stem ('/' :: tip back) = '/' :: stem (tip back) := by
    rw [stem_cons, if_neg fun both => stem_tip_ne_nil noBack both.1]
  rw [linked_of_filled noFront noBack,
    linked_of_filled noFront (stem_tip_ne_nil noBack),
    stem_append_of_stem_ne_nil (by simp [filled]), filled]

/-- Slashes at the start of a link are those at the start of its front. -/
theorem tip_linked (front back : List Char) :
    tip (linked (stem front) (tip back)) =
      linked (tip (stem front)) (tip back) := by
  by_cases noFront : stem front = []
  · rw [noFront, linked_nil_left, tip_tip]
    exact (linked_nil_left _).symm
  by_cases noBack : tip back = []
  · simp [noBack]
  rw [linked_of_filled noFront noBack,
    linked_of_filled (tip_stem_ne_nil noFront) noBack,
    tip_append_of_tip_ne_nil (tip_stem_ne_nil noFront)]

/-- A slash in front of a path has no bearing on its tip. -/
theorem tip_rooted (path : List Char) : tip (rooted path) = tip path := by
  unfold rooted
  split
  · rfl
  · rw [tip_cons, if_pos rfl]

/-- Behind the stem of a path, a slash in front of the path may be left out if
one is put in front of all. -/
theorem rooted_linked_stem_rooted (path back : List Char) :
    rooted (linked (stem (rooted path)) back) =
      rooted (linked (stem path) back) := by
  by_cases starts : path.head? = some '/'
  · rw [rooted_eq_self starts]
  have plain : rooted path = '/' :: path := if_neg starts
  rw [plain, stem_cons]
  by_cases empty : stem path = []
  · rw [if_pos ⟨empty, rfl⟩, empty]
  have plainLink : (linked (stem path) back).head? ≠ some '/' := by
    rwa [head?_linked empty, head?_stem empty]
  rw [if_neg fun both => empty both.1, linked_cons _ empty, rooted_eq_self rfl]
  exact (if_neg plainLink).symm

/-! ## Joined paths -/

/-- Whatever is joined, a slash stands in front. -/
theorem exists_joinPaths (base path : List Char) :
    ∃ rest, joinPaths base path = '/' :: rest := by
  have slash (joined : List Char) : ∃ rest,
      (if joined.head? == some '/' then joined else '/' :: joined) =
        '/' :: rest := by
    split
    · next starts => exact List.head?_eq_some_iff.mp (eq_of_beq starts)
    · exact ⟨joined, rfl⟩
  exact slash _

theorem Solid.rooted (solid : Solid path) : Solid (rooted path) := by
  unfold Route.rooted
  split
  · exact solid
  · exact List.forall_mem_cons.mpr ⟨rfl, solid⟩

theorem Solid.stem (solid : Solid path) : Solid (stem path) := by
  intro c member
  have kept : c ∈ path.reverse :=
    (List.dropWhile_sublist _).subset (List.mem_reverse.mp member)
  exact solid c (List.mem_reverse.mp kept)

theorem Solid.tip (solid : Solid path) : Solid (tip path) :=
  fun c member => solid c ((List.dropWhile_sublist _).subset member)

theorem Solid.linked (solidFront : Solid front) (solidBack : Solid back) :
    Solid (linked front back) := by
  unfold Route.linked
  split
  · exact solidBack
  split
  · exact solidFront
  · exact List.forall_mem_append.mpr
      ⟨solidFront, List.forall_mem_cons.mpr ⟨rfl, solidBack⟩⟩

theorem trim_of_solid (solid : Solid path) : trim path = path := by
  by_cases empty : path = []
  · rw [empty]
    rfl
  · exact trim_eq_self (starts_of_solid empty solid) (ends_of_solid empty solid)

theorem joinPaths_eq (solidFront : Solid front) (solidBack : Solid back) :
    joinPaths front back = rooted (linked (stem front) (tip back)) := by
  rw [joinPaths, trim_of_solid solidFront, trim_of_solid solidBack]
  simp [rooted, linked, stem, tip]

theorem solid_joinPaths (solidFront : Solid front) (solidBack : Solid back) :
    Solid (joinPaths front back) := by
  rw [joinPaths_eq solidFront solidBack]
  exact (solidFront.stem.linked solidBack.tip).rooted

theorem joinPaths_assoc {middle : List Char} (solidFront : Solid front)
    (solidMiddle : Solid middle) (solidBack : Solid back) :
    joinPaths (joinPaths front middle) back =
      joinPaths front (joinPaths middle back) := by
  have inner := solid_joinPaths solidFront solidMiddle
  have outer := solid_joinPaths solidMiddle solidBack
  calc
    joinPaths (joinPaths front middle) back
      = rooted (linked (stem (rooted (linked (stem front) (tip middle))))
          (tip back)) := by
        rw [joinPaths_eq inner solidBack, joinPaths_eq solidFront solidMiddle]
    _ = rooted (linked (linked (stem front) (stem (tip middle)))
          (tip back)) := by
        rw [rooted_linked_stem_rooted, stem_linked]
    _ = rooted (linked (stem front)
          (linked (tip (stem middle)) (tip back))) := by
        rw [linked_assoc, stem_tip]
    _ = rooted (linked (stem front)
          (tip (rooted (linked (stem middle) (tip back))))) := by
        rw [tip_rooted, tip_linked]
    _ = joinPaths front (joinPaths middle back) := by
        rw [joinPaths_eq solidFront outer, joinPaths_eq solidMiddle solidBack]

theorem associates_joinPaths : Grouping.Associates Solid joinPaths :=
  ⟨solid_joinPaths, joinPaths_assoc⟩

theorem Slashes.solid (slashes : Slashes path) : Solid path := by
  intro c member
  rw [slashes c member]
  rfl

/-- The slashes where the parts meet are dropped. -/
theorem joinPaths_parts (solidFront : Solid front) (solidBack : Solid back)
    (unclosed : front.getLast? ≠ some '/') (unopened : back.head? ≠ some '/')
    (closes : Slashes closing) (opens : Slashes opening) :
    joinPaths (front ++ closing) (opening ++ back) =
      rooted (linked front back) := by
  rw [joinPaths_eq (List.forall_mem_append.mpr ⟨solidFront, closes.solid⟩)
      (List.forall_mem_append.mpr ⟨opens.solid, solidBack⟩),
    stem_append_slashes closes, stem_eq_self unclosed,
    tip_slashes_append opens, tip_eq_self unopened]

theorem joinPaths_slashes (solid : Solid front)
    (unclosed : front.getLast? ≠ some '/') (closes : Slashes closing)
    (opens : Slashes opening) :
    joinPaths (front ++ closing) opening = rooted front := by
  have joined : joinPaths (front ++ closing) (opening ++ []) =
      rooted (linked front []) :=
    joinPaths_parts solid (List.forall_mem_nil _) unclosed (by simp) closes
      opens
  rwa [List.append_nil, linked_nil_right] at joined

theorem slashes_joinPaths (solid : Solid back)
    (unopened : back.head? ≠ some '/') (closes : Slashes closing)
    (opens : Slashes opening) :
    joinPaths closing (opening ++ back) = '/' :: back := by
  have joined : joinPaths ([] ++ closing) (opening ++ back) =
      rooted (linked [] back) :=
    joinPaths_parts (List.forall_mem_nil _) solid (by simp) unopened closes
      opens
  rwa [linked_nil_left, rooted, if_neg unopened] at joined

end Paths

end ArchSurvey.Route

/-! ## Nested groups -/

namespace ArchSurvey.Route.Grouped

/-- The parents of a variable end after so many groups, its own included: the
parent of the last one is no group. -/
inductive EndsAfter (groups : List (List Char × List Char × List Char)) :
    Nat → List Char → Prop where
  | outside {variable_ : List Char} (absent : groups.lookup variable_ = none) :
      EndsAfter groups 0 variable_
  | inside {depth : Nat} {variable_ parent own : List Char}
      (declared : groups.lookup variable_ = some (parent, own))
      (outer : EndsAfter groups depth parent) :
      EndsAfter groups (depth + 1) variable_

section Groups

variable {groups : List (List Char × List Char × List Char)}
  {variable_ parent own : List Char} {depth fuel : Nat}

theorem segments_of_absent (absent : groups.lookup variable_ = none)
    (fuel : Nat) : segments groups fuel variable_ = [] := by
  cases fuel with
  | zero => rfl
  | succ fuel => rw [segments, absent]

theorem segments_of_declared
    (declared : groups.lookup variable_ = some (parent, own)) (fuel : Nat) :
    segments groups (fuel + 1) variable_ =
      own :: segments groups fuel parent := by
  rw [segments, declared]

theorem length_segments_le (groups : List (List Char × List Char × List Char))
    (fuel : Nat) (variable_ : List Char) :
    (segments groups fuel variable_).length ≤ fuel := by
  induction fuel generalizing variable_ with
  | zero => exact Nat.le_refl 0
  | succ fuel ih =>
      cases found : groups.lookup variable_ with
      | none =>
          rw [segments_of_absent found]
          exact Nat.zero_le _
      | some group =>
          rw [segments_of_declared found, List.length_cons]
          exact Nat.succ_le_succ (ih group.1)

/-- More steps than there are groups to follow make no difference. -/
theorem EndsAfter.segments_eq (ends : EndsAfter groups depth variable_)
    (enough : depth ≤ fuel) :
    segments groups fuel variable_ = segments groups depth variable_ := by
  induction ends generalizing fuel with
  | outside absent =>
      rw [segments_of_absent absent, segments_of_absent absent]
  | @inside depth variable_ parent own declared outer ih =>
      obtain ⟨fuel, rfl⟩ : ∃ more, fuel = more + 1 := ⟨fuel - 1, by omega⟩
      rw [segments_of_declared declared, segments_of_declared declared,
        ih (Nat.le_of_succ_le_succ enough)]

theorem prefixOf_of_absent (absent : groups.lookup variable_ = none) :
    prefixOf groups variable_ = [] := by
  rw [prefixOf, segments_of_absent absent]
  rfl

/-- The prefix of a group is its own path behind the prefixes of the parents
that are followed. -/
theorem prefixOf_of_declared
    (declared : groups.lookup variable_ = some (parent, own)) :
    prefixOf groups variable_ =
      joinPaths ((segments groups (maxDepth - 1) parent).foldr
        (fun segment outer => joinPaths outer segment) []) own := by
  have unfolded :
      segments groups maxDepth variable_ =
        own :: segments groups (maxDepth - 1) parent :=
    segments_of_declared declared (maxDepth - 1)
  rw [prefixOf, unfolded]
  rfl

theorem EndsAfter.prefixOf_eq (ends : EndsAfter groups depth variable_)
    (shallow : depth ≤ maxDepth)
    (declared : groups.lookup variable_ = some (parent, own)) :
    prefixOf groups variable_ =
      joinPaths (prefixOf groups parent) own := by
  cases ends with
  | outside absent =>
      rw [declared] at absent
      cases absent
  | @inside depth _ parent' own' found outer =>
      obtain ⟨rfl, rfl⟩ : parent' = parent ∧ own' = own := by
        simpa using found.symm.trans declared
      -- One step fewer is left for the parent, which is still enough.
      have followed : segments groups (maxDepth - 1) parent' =
          segments groups maxDepth parent' := by
        rw [outer.segments_eq (Nat.le_sub_one_of_lt shallow),
          outer.segments_eq (Nat.le_of_succ_le shallow)]
      rw [prefixOf_of_declared declared, followed]
      rfl

end Groups

/-- At most sixteen groups are followed from a variable.  One that is no group
has no prefix, and any other has one that starts with a slash.  If its parents
end after sixteen groups or fewer, a group lies below its parent. -/
theorem prefixOf_composes (groups : List (List Char × List Char × List Char))
    (variable_ : List Char) :
    (segments groups maxDepth variable_).length ≤ 16 ∧
    (groups.lookup variable_ = none → prefixOf groups variable_ = []) ∧
    (groups.lookup variable_ ≠ none →
      ∃ rest, prefixOf groups variable_ = '/' :: rest) ∧
    ∀ parent own, groups.lookup variable_ = some (parent, own) →
      ∀ depth ≤ 16, EndsAfter groups depth variable_ →
        prefixOf groups variable_ =
          joinPaths (prefixOf groups parent) own := by
  refine ⟨length_segments_le groups maxDepth variable_, prefixOf_of_absent,
    ?_, ?_⟩
  · intro present
    obtain ⟨⟨parent, own⟩, declared⟩ := Option.ne_none_iff_exists'.mp present
    rw [prefixOf_of_declared declared]
    exact exists_joinPaths _ own
  · intro parent own declared depth shallow ends
    exact ends.prefixOf_eq shallow declared

/-- A router with an interface in two versions, and a group that is its own
parent. -/
def versions : List (List Char × List Char × List Char) :=
  [("v2".toList, "api".toList, "/v2/".toList),
    ("v1".toList, "api".toList, "v1".toList),
    ("api".toList, "router".toList, "/api".toList),
    ("loop".toList, "loop".toList, "again".toList)]

theorem prefixOf_composes_versions :
    prefixOf versions "v1".toList =
        joinPaths (prefixOf versions "api".toList) "v1".toList ∧
      prefixOf versions "router".toList = [] ∧
      ∃ rest, prefixOf versions "loop".toList = '/' :: rest := by
  have version : versions.lookup "v1".toList =
      some ("api".toList, "v1".toList) := by decide
  have interface : versions.lookup "api".toList =
      some ("router".toList, "/api".toList) := by decide
  have router : versions.lookup "router".toList = none := by decide
  have ends : EndsAfter versions 2 "v1".toList :=
    .inside version (.inside interface (.outside router))
  refine ⟨?_, (prefixOf_composes versions _).2.1 router,
    (prefixOf_composes versions _).2.2.1 (by decide)⟩
  exact (prefixOf_composes versions _).2.2.2 _ _ version 2 (by decide) ends

/-- So many groups, each the parent of the one before it. -/
def nested (depth : Nat) : List (List Char × List Char × List Char) :=
  (List.range depth).map fun place =>
    (List.replicate place 'g', List.replicate (place + 1) 'g', ['p'])

/-- The outermost of seventeen groups is out of reach for the innermost. -/
example : prefixOf (nested 17) [] ≠
    joinPaths (prefixOf (nested 17) ['g']) ['p'] := by decide +kernel

end ArchSurvey.Route.Grouped

/-! ## Prefixes in any grouping -/

namespace ArchSurvey.Route

/-- The prefixes of a router are joined from the outermost to its own. -/
theorem Grouped.prefixOf_eq_foldl
    (groups : List (List Char × List Char × List Char)) (router : List Char) :
    prefixOf groups router =
      (segments groups maxDepth router).reverse.foldl joinPaths [] := by
  rw [List.foldl_reverse]
  rfl

theorem Grouped.FileRoutes.path_endpoint {routes : FileRoutes}
    {component : String} {r : Registration} {grouping : Grouping (List Char)}
    (solid : ∀ path ∈ grouping.items, Solid path)
    (whole : grouping.items =
      [] :: ((segments routes.groups maxDepth r.router).reverse ++ [r.path])) :
    (routes.endpoint component r).path =
      String.ofList (grouping.value joinPaths) := by
  have folded := associates_joinPaths.value_eq_foldl solid whole
  rw [List.foldl_append, ← prefixOf_eq_foldl] at folded
  rw [folded]
  rfl

theorem Controller.Handler.exists_route_of_mem_endpoints {handler : Handler}
    {component : String} {endpoint : Endpoint}
    (member : endpoint ∈ handler.endpoints component) :
    ∃ route ∈ handler.routes,
      endpoint.path = String.ofList (joinPaths handler.base route.2) := by
  rw [endpoints] at member
  split at member
  · obtain ⟨route, mapped, rfl⟩ := List.mem_map.mp member
    exact ⟨route, mapped, rfl⟩
  · exact absurd member List.not_mem_nil

/-- Among paths without white space, joining is associative.  What is joined
starts with a slash; only the base is left of it if the path is empty or nothing
but slashes, and otherwise one slash stands between the two.  Therefore the
prefixes of groups, from the empty one on, and those of a class may be joined
with each other and with the path below them in any grouping. -/
theorem joinPaths_in_any_grouping :
    (∀ front middle back, Solid front → Solid middle → Solid back →
      joinPaths (joinPaths front middle) back =
        joinPaths front (joinPaths middle back)) ∧
    (∀ front back, ∃ rest, joinPaths front back = '/' :: rest) ∧
    (∀ base closing path, Solid base → base.getLast? ≠ some '/' →
      Slashes closing → Slashes path →
      joinPaths (base ++ closing) path = rooted base) ∧
    (∀ closing opening path, Solid path → path.head? ≠ some '/' →
      Slashes closing → Slashes opening →
      joinPaths closing (opening ++ path) = '/' :: path) ∧
    (∀ base closing opening path, Solid base → Solid path →
      base ≠ [] → base.getLast? ≠ some '/' → Slashes closing →
      path ≠ [] → path.head? ≠ some '/' → Slashes opening →
      joinPaths (base ++ closing) (opening ++ path) =
        rooted (base ++ '/' :: path)) ∧
    (∀ grouping other : Grouping (List Char),
      (∀ path ∈ grouping.items, Solid path) → other.items = grouping.items →
      other.value joinPaths = grouping.value joinPaths) ∧
    (∀ (routes : Grouped.FileRoutes) (component : String)
        (r : Grouped.Registration) (grouping : Grouping (List Char)),
      (∀ path ∈ grouping.items, Solid path) →
      grouping.items =
        [] :: ((Grouped.segments routes.groups Grouped.maxDepth
          r.router).reverse ++ [r.path]) →
      (routes.endpoint component r).path =
        String.ofList (grouping.value joinPaths)) ∧
    ∀ (handler : Controller.Handler) (component : String)
        (prefixes : Grouping (List Char)),
      (∀ path ∈ prefixes.items, Solid path) →
      (∀ route ∈ handler.routes, Solid route.2) →
      handler.base = prefixes.value joinPaths →
      ∀ endpoint ∈ handler.endpoints component, ∃ route ∈ handler.routes,
        ∀ grouping : Grouping (List Char),
          grouping.items = prefixes.items ++ [route.2] →
          endpoint.path = String.ofList (grouping.value joinPaths) := by
  refine ⟨fun _ _ _ => joinPaths_assoc, exists_joinPaths,
    fun _ _ _ => joinPaths_slashes, fun _ _ _ => slashes_joinPaths,
    ?oneSlash, fun _ _ => associates_joinPaths.value_eq_of_items_eq,
    fun _ _ _ _ => Grouped.FileRoutes.path_endpoint, ?controller⟩
  case oneSlash =>
    intro base closing opening path solidBase solidPath filledBase unclosed
      closes filledPath unopened opens
    rw [joinPaths_parts solidBase solidPath unclosed unopened closes opens,
      linked_of_filled filledBase filledPath]
  case controller =>
    intro handler component prefixes solid solidRoutes base endpoint member
    obtain ⟨route, mapped, path⟩ :=
      Controller.Handler.exists_route_of_mem_endpoints member
    refine ⟨route, mapped, ?_⟩
    intro grouping whole
    -- The prefixes as they are grouped already, with the path behind them.
    have same : grouping.items = (prefixes.both (.one route.2)).items := whole
    have each : ∀ path ∈ (prefixes.both (.one route.2)).items, Solid path :=
      List.forall_mem_append.mpr
        ⟨solid, List.forall_mem_singleton.mpr (solidRoutes route mapped)⟩
    rw [path, base, associates_joinPaths.value_eq_of_items_eq each same]
    rfl

/-- Paths with slashes at all ends, a route of a group within a group and a
controller whose class has two prefixes. -/
theorem joinPaths_in_any_grouping_users :
    let api := "//api/".toList
    let version := "/v1//".toList
    let users := "users/".toList
    let routes : Grouped.FileRoutes := { groups := Grouped.versions }
    let r : Grouped.Registration := ⟨"v1".toList, "GET".toList, users, none⟩
    let grouping : Grouping (List Char) :=
      .both (.one []) (.both (.one "/api".toList)
        (.both (.one "v1".toList) (.one users)))
    let prefixes : Grouping (List Char) :=
      .both (.one "api".toList) (.one "v1/".toList)
    let handler : Controller.Handler :=
      { classAnnotations :=
          [⟨"RestController", none⟩,
            ⟨"RequestMapping", some "\"/api/v1/\"".toList⟩]
        className := "Users"
        annotations := [⟨"GetMapping", some "\"users/\"".toList⟩]
        name := "list"
        parameters := "()".toList }
    (Solid api ∧ Solid version ∧ Solid users) ∧
    joinPaths (joinPaths api version) users =
      joinPaths api (joinPaths version users) ∧
    joinPaths api "//".toList = rooted "//api".toList ∧
    joinPaths "//".toList users = '/' :: users ∧
    joinPaths api version = rooted "//api/v1//".toList ∧
    (routes.endpoint "shop" r).path = String.ofList (grouping.value joinPaths) ∧
    (∀ path ∈ prefixes.items, Solid path) ∧
    (∀ route ∈ handler.routes, Solid route.2) ∧
    handler.base = prefixes.value joinPaths ∧
    ∀ endpoint ∈ handler.endpoints "shop", ∃ route ∈ handler.routes,
      ∀ whole : Grouping (List Char),
        whole.items = prefixes.items ++ [route.2] →
        endpoint.path = String.ofList (whole.value joinPaths) := by
  intro api version users routes r grouping prefixes handler
  obtain ⟨assoc, -, slashes, below, oneSlash, -, registered, controller⟩ :=
    joinPaths_in_any_grouping
  have solid : Solid api ∧ Solid version ∧ Solid users := by decide
  have solidPrefixes : ∀ path ∈ prefixes.items, Solid path := by decide
  have solidRoutes : ∀ route ∈ handler.routes, Solid route.2 := by
    decide +kernel
  have base : handler.base = prefixes.value joinPaths := by decide +kernel
  refine ⟨solid, assoc api version users solid.1 solid.2.1 solid.2.2, ?_, ?_,
    ?_, ?_, solidPrefixes, solidRoutes, base, ?_⟩
  · exact slashes "//api".toList "/".toList "//".toList (by decide) (by decide)
      (by decide) (by decide)
  · exact below "//".toList [] users solid.2.2 (by decide) (by decide)
      (by decide)
  · exact oneSlash "//api".toList "/".toList "/".toList "v1//".toList
      (by decide) (by decide) (by decide) (by decide) (by decide) (by decide)
      (by decide) (by decide)
  · exact registered routes "shop" r grouping (by decide) (by decide)
  · exact controller handler "shop" prefixes solidPrefixes solidRoutes base

/-- White space that comes to an end of a path is trimmed, and with it the
slashes behind it. -/
example : joinPaths (joinPaths "a".toList "/ /".toList) [] ≠
    joinPaths "a".toList (joinPaths "/ /".toList []) := by decide

end ArchSurvey.Route
