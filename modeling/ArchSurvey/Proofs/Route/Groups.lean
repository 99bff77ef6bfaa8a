import ArchSurvey.Proofs.Text.Occurrences
import ArchSurvey.Route.Grouped
import Mathlib.Data.List.Find

/-!
# The groups of a router variable

A variable of a router may be declared many times in a file, and a route
belongs to the declaration nearest before it.  The reader keeps one declaration
for each name, the last one of the file, and follows parents for a bounded
number of steps.  The two agree on a route exactly when no variable that its
lookup passes through is declared again behind the place where it is used.
-/

namespace ArchSurvey.Route.Grouped

open Text
open Text.Pattern (placed placed_snd placed_pairwise group_stands)

/-- A declaration of a group, with the place in the text where it starts. -/
structure Declared where
  start : Nat
  name : List Char
  parent : List Char
  own : List Char
  deriving DecidableEq, Repr

/-- A declaration as the reader keeps it. -/
def Declared.group (declaration : Declared) :
    List Char × List Char × List Char :=
  (declaration.name, declaration.parent, declaration.own)

/-- The declarations in a text, the last one first. -/
def declared (text : List Char) : List Declared :=
  ((placed 0 (groupDeclaration.searchAll text)).map fun place =>
    ⟨place.1, place.2.group 1, place.2.group 2, place.2.group 3⟩).reverse

/-- The routes that a text registers, each with the place where it starts. -/
def registered (text : List Char) : List (Nat × Registration) :=
  ((placed 0 (verbRoute.searchAll text)).filterMap fun place =>
    (verbRegistration place.2).map (Prod.mk place.1)) ++
  ((placed 0 (handleRoute.searchAll text)).flatMap fun place =>
    (handleRegistrations place.2).map (Prod.mk place.1))

theorem groups_ofSource (path : String) (text : List Char) :
    (ofSource path text).groups = (declared text).map Declared.group := by
  rw [declared, List.map_reverse, List.map_map]
  refine congrArg List.reverse ?_
  conv_lhs => rw [← placed_snd 0 (groupDeclaration.searchAll text)]
  exact List.map_map

theorem registrations_ofSource (path : String) (text : List Char) :
    (ofSource path text).registrations =
      (registered text).map Prod.snd := by
  have verbs := placed_snd 0 (verbRoute.searchAll text)
  have handles := placed_snd 0 (handleRoute.searchAll text)
  rw [ofSource, registered]
  conv_lhs => rw [← verbs, ← handles]
  simp [List.map_filterMap, List.map_flatMap, List.filterMap_map,
    List.flatMap_map, Function.comp_def]

/-- The variable of a declaration stands at its place in the text. -/
theorem name_stands {text : List Char} {declaration : Declared}
    (member : declaration ∈ declared text) :
    declaration.name <+: text.drop declaration.start := by
  obtain ⟨place, stands, rfl⟩ := List.mem_map.mp (List.mem_reverse.mp member)
  exact group_stands (by decide) stands

/-- The variable that a route is registered on stands at its place in the
text. -/
theorem router_stands {text : List Char} {use : Nat × Registration}
    (member : use ∈ registered text) :
    use.2.router <+: text.drop use.1 := by
  rcases List.mem_append.mp member with verb | handle
  · obtain ⟨place, stands, found⟩ := List.mem_filterMap.mp verb
    obtain ⟨route, reads, rfl⟩ := Option.map_eq_some_iff.mp found
    have router : route.router = place.2.group 1 := by
      simp only [verbRegistration, bind, Option.bind_eq_some_iff] at reads
      obtain ⟨method, -, reads⟩ := reads
      split at reads
      · rw [← Option.some.inj reads]
      · cases reads
    rw [router]
    exact group_stands (by decide) stands
  · obtain ⟨place, stands, found⟩ := List.mem_flatMap.mp handle
    obtain ⟨route, reads, rfl⟩ := List.mem_map.mp found
    have router : route.router = place.2.group 1 := by
      rw [handleRegistrations] at reads
      split at reads
      · obtain ⟨method, -, rfl⟩ := List.mem_map.mp reads
        rfl
      · cases reads
    rw [router]
    exact group_stands (by decide) stands

/-- Declarations of one text start at different places. -/
theorem declared_pairwise (text : List Char) :
    (declared text).Pairwise fun one other => other.start < one.start := by
  rw [declared, List.pairwise_reverse, List.pairwise_map]
  exact placed_pairwise fun _ member =>
    (Text.Pattern.exists_search_of_mem_matchesFrom member).1

/-- The declaration of a variable that stands nearest before a place, of
declarations the last one first. -/
def nearest (declarations : List Declared) (place : Nat)
    (variable_ : List Char) : Option Declared :=
  declarations.find? fun declaration =>
    declaration.name == variable_ && declaration.start < place

/-- The declarations that a variable stands for at a place, walking back from
there: the nearest one before it, and what the parent stands for at that one. -/
def scope : List Declared → Nat → List Char → List Declared
  | [], _, _ => []
  | declaration :: earlier, place, variable_ =>
      if declaration.name == variable_ && declaration.start < place then
        declaration :: scope earlier declaration.start declaration.parent
      else scope earlier place variable_

/-- The declarations that the reader follows from a variable: the last one in
the file, and the last one of each parent. -/
def followed (declarations : List Declared) :
    Nat → List Char → List Declared
  | 0, _ => []
  | fuel + 1, variable_ =>
      match declarations.find? (·.name == variable_) with
      | none => []
      | some declaration =>
          declaration :: followed declarations fuel declaration.parent

/-- The variables that are looked up for one variable at a place, each with the
place where it is used. -/
def lookups (place : Nat) (variable_ : List Char)
    (found : List Declared) : List (Nat × List Char) :=
  (place, variable_) :: found.map fun declaration =>
    (declaration.start, declaration.parent)

/-- The prefix that declarations give, the innermost first. -/
def prefixOfScope (found : List Declared) : List Char :=
  (found.map Declared.own).foldr (fun own outer => joinPaths outer own) []

section Lookup

variable {declarations : List Declared} {place : Nat}
  {variable_ : List Char}

theorem lookup_groups (declarations : List Declared) (variable_ : List Char) :
    (declarations.map Declared.group).lookup variable_ =
      (declarations.find? (·.name == variable_)).map fun declaration =>
        (declaration.parent, declaration.own) := by
  induction declarations with
  | nil => rfl
  | cons first others ih =>
      by_cases same : first.name = variable_
      · simp [Declared.group, same]
      · have other : (variable_ == first.name) = false := by
          simpa using Ne.symm same
        simpa [Declared.group, same, List.lookup_cons, other] using ih

theorem segments_groups (declarations : List Declared) (fuel : Nat)
    (variable_ : List Char) :
    segments (declarations.map Declared.group) fuel variable_ =
      (followed declarations fuel variable_).map Declared.own := by
  induction fuel generalizing variable_ with
  | zero => rfl
  | succ fuel ih =>
      rw [segments, followed, lookup_groups]
      cases declarations.find? (·.name == variable_) with
      | none => rfl
      | some declaration =>
          exact congrArg (declaration.own :: ·) (ih declaration.parent)

theorem prefixOf_ofSource (path : String) (text variable_ : List Char) :
    prefixOf (ofSource path text).groups variable_ =
      prefixOfScope (followed (declared text) maxDepth variable_) := by
  rw [prefixOf, prefixOfScope, groups_ofSource, segments_groups]

/-- Declarations behind a place are not seen from there. -/
theorem scope_append {later earlier : List Declared}
    (behind : ∀ declaration ∈ later, place ≤ declaration.start) :
    scope (later ++ earlier) place variable_ =
      scope earlier place variable_ := by
  induction later with
  | nil => rfl
  | cons first later ih =>
      have hidden : ¬ first.start < place :=
        Nat.not_lt.mpr (behind first List.mem_cons_self)
      simp only [List.cons_append, scope, hidden, decide_false,
        Bool.and_false, Bool.false_eq_true, if_false]
      exact ih fun declaration member =>
        behind declaration (List.mem_cons_of_mem _ member)

/-- The nearest declaration is looked up, then its parent from there. -/
theorem scope_eq
    (ordered : declarations.Pairwise fun one other => other.start < one.start) :
    scope declarations place variable_ =
      match nearest declarations place variable_ with
      | none => []
      | some declaration =>
          declaration :: scope declarations declaration.start
            declaration.parent := by
  have walk : ∀ later earlier, declarations = later ++ earlier →
      scope earlier place variable_ =
        match nearest earlier place variable_ with
        | none => []
        | some declaration =>
            declaration :: scope declarations declaration.start
              declaration.parent := by
    intro later earlier
    induction earlier generalizing later with
    | nil => intros; rfl
    | cons first earlier ih =>
        intro whole
        cases here :
            first.name == variable_ && decide (first.start < place) with
        | false =>
            have next := ih (later ++ [first]) (by simpa using whole)
            simpa [scope, nearest, here] using next
        | true =>
            have split : declarations = (later ++ [first]) ++ earlier := by
              simpa using whole
            have behind : ∀ declaration ∈ later ++ [first],
                first.start ≤ declaration.start := by
              intro declaration member
              rcases List.mem_append.mp member with before | same
              · rw [whole] at ordered
                exact Nat.le_of_lt ((List.pairwise_append.mp ordered).2.2
                  declaration before first List.mem_cons_self)
              · exact Nat.le_of_eq (congrArg Declared.start
                  (List.mem_singleton.mp same).symm)
            have hidden :=
              @scope_append first.start first.parent _ earlier behind
            rw [← split] at hidden
            simp [scope, nearest, here, hidden]
  exact walk [] declarations rfl

/-- The last declaration of a variable is the nearest before a place exactly
when none stands behind it. -/
theorem find?_eq_nearest_iff
    (ordered : declarations.Pairwise fun one other => other.start < one.start) :
    declarations.find? (·.name == variable_) =
        nearest declarations place variable_ ↔
      ∀ declaration ∈ declarations, declaration.name = variable_ →
        declaration.start < place := by
  constructor
  · intro same
    induction declarations with
    | nil => simp
    | cons first earlier ih =>
        obtain ⟨behind, ordered⟩ := List.pairwise_cons.mp ordered
        by_cases named : first.name = variable_
        · have before : first.start < place := by
            by_contra late
            have found : some first = nearest earlier place variable_ := by
              simpa [nearest, named, late] using same
            have member := List.mem_of_find?_eq_some found.symm
            exact absurd (behind first member) (Nat.lt_irrefl _)
          intro declaration member _
          rcases List.mem_cons.mp member with rfl | later
          · exact before
          · exact Nat.lt_trans (behind declaration later) before
        · have rest := ih ordered (by simpa [nearest, named] using same)
          intro declaration member name
          rcases List.mem_cons.mp member with rfl | later
          · exact absurd name named
          · exact rest declaration later name
  · intro settled
    refine List.find?_congr fun declaration member => ?_
    cases named : declaration.name == variable_ with
    | false => rfl
    | true => simpa using settled declaration member (by simpa using named)

/-- The reader follows what a variable stands for exactly when the chain is not
deeper than it goes and no variable it looks up is declared again behind the
place of its use. -/
theorem followed_eq_scope_iff
    (ordered : declarations.Pairwise fun one other => other.start < one.start)
    (fuel : Nat) :
    followed declarations fuel variable_ = scope declarations place variable_ ↔
      (scope declarations place variable_).length ≤ fuel ∧
      ∀ lookup ∈ (lookups place variable_
          (scope declarations place variable_)).take fuel,
        ∀ declaration ∈ declarations, declaration.name = lookup.2 →
          declaration.start < lookup.1 := by
  induction fuel generalizing place variable_ with
  | zero => simp [followed, List.nil_eq]
  | succ fuel ih =>
      have last := @find?_eq_nearest_iff _ place variable_ ordered
      rw [lookups, List.take_succ_cons, List.forall_mem_cons, ← last,
        followed, scope_eq ordered]
      cases declarations.find? (·.name == variable_) with
      | none =>
          cases nearest declarations place variable_ with
          | none => simp
          | some near => simp
      | some declaration =>
          cases nearest declarations place variable_ with
          | none => simp
          | some near =>
              by_cases same : declaration = near
              · subst same
                have deeper := @ih declaration.start declaration.parent
                simpa [lookups] using deeper
              · simp [same]

end Lookup

/-- Whether the lookups of a route see the declarations of the whole file as
they are at the route. -/
structure Settled (text : List Char) (place : Nat) (route : Registration) :
    Prop where
  shallow : (scope (declared text) place route.router).length ≤ maxDepth
  last : ∀ lookup ∈ (lookups place route.router
      (scope (declared text) place route.router)).take maxDepth,
    ∀ declaration ∈ declared text, declaration.name = lookup.2 →
      declaration.start < lookup.1

theorem settled_iff {text : List Char} {place : Nat} {route : Registration} :
    Settled text place route ↔
      followed (declared text) maxDepth route.router =
        scope (declared text) place route.router := by
  rw [followed_eq_scope_iff (declared_pairwise text)]
  exact ⟨fun settled => ⟨settled.shallow, settled.last⟩,
    fun ⟨shallow, last⟩ => ⟨shallow, last⟩⟩

/-- The path of a route with the prefix of some declarations. -/
def pathBelow (found : List Declared) (route : Registration) : String :=
  String.ofList (joinPaths (prefixOfScope found) route.path)

/-- The paths of the routes in a text, each below what its variable stands for
where the route is registered. -/
def scopedPaths (text : List Char) : List String :=
  (registered text).map fun use =>
    pathBelow (scope (declared text) use.1 use.2.router) use.2

theorem paths_ofSource (path component : String) (text : List Char) :
    ((ofSource path text).endpoints component).map Endpoint.path =
      (registered text).map fun use => pathBelow
        (followed (declared text) maxDepth use.2.router) use.2 := by
  rw [FileRoutes.endpoints, registrations_ofSource, List.map_map, List.map_map]
  refine List.map_congr_left fun use _ => ?_
  have below := prefixOf_ofSource path text use.2.router
  simp [FileRoutes.endpoint, Endpoint.web, pathBelow, below]

/-- Each route has the path below the declarations that are followed from its
variable.  They are what the variable stands for at the route exactly when the
route is settled, and the paths are right where every route is. -/
theorem paths_ofSource_iff_settled (path component : String)
    (text : List Char) :
    ((ofSource path text).endpoints component).map Endpoint.path =
        (registered text).map (fun use => pathBelow
          (followed (declared text) maxDepth use.2.router) use.2) ∧
      (∀ use ∈ registered text,
        followed (declared text) maxDepth use.2.router =
            scope (declared text) use.1 use.2.router ↔
          Settled text use.1 use.2) ∧
      ((∀ use ∈ registered text, Settled text use.1 use.2) →
        ((ofSource path text).endpoints component).map Endpoint.path =
          scopedPaths text) := by
  refine ⟨paths_ofSource path component text,
    fun use _ => settled_iff.symm, fun settled => ?_⟩
  rw [paths_ofSource]
  refine List.map_congr_left fun use member => ?_
  rw [settled_iff.mp (settled use member)]

/-- A file whose groups have different variables, one below another. -/
def nestedGroups : List Char :=
  "api := r.Group(\"/api\")
users := api.Group(\"/users\")
users.GET(\"/list\", listUsers)
".toList

theorem paths_ofSource_iff_settled_nestedGroups :
    scopedPaths nestedGroups = ["/api/users/list"] ∧
      (∀ use ∈ registered nestedGroups, Settled nestedGroups use.1 use.2) ∧
      ((ofSource "main.go" nestedGroups).endpoints "shop").map Endpoint.path =
        scopedPaths nestedGroups := by
  have same : ∀ use ∈ registered nestedGroups,
      followed (declared nestedGroups) maxDepth use.2.router =
        scope (declared nestedGroups) use.1 use.2.router := by
    decide +kernel
  have settled := fun use member => settled_iff.mpr (same use member)
  exact ⟨by decide +kernel, settled,
    (paths_ofSource_iff_settled "main.go" "shop" nestedGroups).2.2 settled⟩

/-- A file that declares one variable in two functions. -/
def repeatedGroup : List Char :=
  "func users(r *gin.Engine) \x7b
  g := r.Group(\"/users\")
  g.GET(\"/list\", listUsers)
\x7d

func orders(r *gin.Engine) \x7b
  g := r.Group(\"/orders\")
  g.GET(\"/list\", listOrders)
\x7d
".toList

/-- A route does not always lie below the nearest declaration of its variable:
the last one of the file takes its place. -/
theorem not_paths_ofSource_scopedPaths :
    ¬ ∀ path component text,
      ((ofSource path text).endpoints component).map Endpoint.path =
        scopedPaths text := by
  intro always
  exact absurd (always "main.go" "shop" repeatedGroup) (by decide +kernel)

end ArchSurvey.Route.Grouped
