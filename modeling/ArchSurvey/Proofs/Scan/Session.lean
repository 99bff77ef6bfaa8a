import Mathlib.Control.Monad.Basic
import ArchSurvey.Proofs.Scan.Index

/-!
# Sessions

A session is what goes on with a context: questions about the files are asked of
it and of the contexts that come from it, while the disk changes.  They all
share one index, so every answer is that of the one listing which was taken when
a question first needed it.
-/

namespace ArchSurvey

/-- A question about the files of a project. -/
inductive Query where
  /-- Which files match a pattern. -/
  | find (pattern : String)
  /-- Which files match some of the patterns. -/
  | findAny (patterns : List String)
  /-- Whether some file matches a pattern. -/
  | has (pattern : String)
  /-- How many files there are. -/
  | total

/-- The answer to a question. -/
inductive Answer where
  | files (found : Except ScanError (List String))
  | truth (holds : Bool)
  | number (count : Except ScanError Nat)
  deriving DecidableEq

/-- Whether a question cannot be answered without a listing.  Patterns are read
first, so one that cannot be read puts an end to the question. -/
def Query.needsListing : Query → Bool
  | find pattern => Glob.isReadable pattern
  | findAny patterns => patterns.head?.any Glob.isReadable
  | has pattern => Glob.isReadable pattern
  | total => true

/-- The answer of a context by its listing. -/
def Context.answer (context : Context) : Query → Answer
  | .find pattern => .files (context.findFiles pattern)
  | .findAny patterns => .files (context.findFilesAny patterns)
  | .has pattern => .truth (context.hasFiles pattern)
  | .total => .number context.totalFiles

/-- The answer of an index on the disk as it is, and the index afterwards. -/
def Index.answer (index : Index) (disk : Disk) : Query → Answer × Index
  | .find pattern => (index.findFiles disk pattern).map Answer.files id
  | .findAny patterns => (index.findFilesAny disk patterns).map Answer.files id
  | .has pattern => (index.hasFiles disk pattern).map Answer.truth id
  | .total => (index.totalFiles disk).map Answer.number id

theorem Index.answer_spec {index : Index} {context : Context}
    (sound : index.Sound) (rooted : context.root = index.root) (disk : Disk)
    (query : Query) :
    (index.answer disk query).1 =
        { context with listing := index.listingOn disk }.answer query ∧
      index.Becomes disk query.needsListing (index.answer disk query).2 := by
  cases query with
  | find pattern =>
      exact (findFiles_spec sound rooted disk pattern).imp_left
        (congrArg Answer.files)
  | findAny patterns =>
      exact (findMore_spec sound rooted disk [] patterns).imp_left
        (congrArg Answer.files)
  | has pattern =>
      exact (hasFiles_spec sound rooted disk pattern).imp_left
        (congrArg Answer.truth)
  | total =>
      exact (totalFiles_spec sound rooted disk).imp_left (congrArg Answer.number)

/-- A question that needs no listing has the same answer by any. -/
theorem Context.answer_of_unneeded {query : Query}
    (unneeded : query.needsListing = false) (context : Context)
    (listing other : Except Fault (List Entry)) :
    { context with listing }.answer query =
      { context with listing := other }.answer query := by
  cases query with
  | find pattern =>
      obtain ⟨error, unread⟩ := Glob.exists_error_of_unreadable unneeded
      rw [answer, answer, findFiles_of_error unread, findFiles_of_error unread]
  | findAny patterns =>
      cases patterns with
      | nil => rfl
      | cons pattern rest =>
          obtain ⟨error, unread⟩ := Glob.exists_error_of_unreadable unneeded
          rw [answer, answer, findFilesAny, findFilesAny, findMore, findMore,
            findFiles_of_error unread, findFiles_of_error unread]
          rfl
  | has pattern =>
      obtain ⟨error, unread⟩ := Glob.exists_error_of_unreadable unneeded
      rw [answer, answer, hasFiles, hasFiles, findFiles_of_error unread,
        findFiles_of_error unread]
  | total => cases unneeded

/-- How a context comes from another one. -/
inductive Derivation where
  | clone
  | withPrevious (previous : List (String × ScanResult))
  | withDeadline (passed : String → Bool)

/-- A context that comes from another one. -/
def Context.derive (context : Context) : Derivation → Context
  | .clone => context
  | .withPrevious previous => { context with previous }
  | .withDeadline passed => { context with deadline := some passed }

theorem Context.root_derive (context : Context) (derivation : Derivation) :
    (context.derive derivation).root = context.root := by
  cases derivation <;> rfl

/-- What happens in a session; contexts are known by their positions. -/
inductive Event where
  | ask (position : Nat) (query : Query)
  | derive (position : Nat) (derivation : Derivation)
  | change (disk : Disk)

namespace Event

/-- The contexts after an event. -/
def extend (contexts : List Context) : Event → List Context
  | derive position derivation =>
      contexts ++
        (contexts[position]?.map fun context => context.derive derivation).toList
  | _ => contexts

/-- Whether an event is a question that cannot be answered without a listing. -/
def needsListing (contexts : List Context) : Event → Bool
  | ask position query => contexts[position]?.isSome && query.needsListing
  | _ => false

/-- The answer in an event, if a context is asked, by a listing. -/
def answerBy (listing : Except Fault (List Entry)) (contexts : List Context) :
    Event → Option Answer
  | ask position query =>
      contexts[position]?.map fun context =>
        { context with listing }.answer query
  | _ => none

theorem answerBy_of_unneeded {contexts : List Context} {event : Event}
    (unneeded : event.needsListing contexts = false)
    (listing other : Except Fault (List Entry)) :
    event.answerBy listing contexts = event.answerBy other contexts := by
  cases event with
  | ask position query =>
      rw [needsListing] at unneeded
      rw [answerBy, answerBy]
      cases asked : contexts[position]? with
      | none => rfl
      | some context =>
          rw [asked] at unneeded
          exact congrArg some
            (context.answer_of_unneeded unneeded listing other)
  | derive position derivation => rfl
  | change disk => rfl

end Event

/-- The answers in some events by a listing. -/
def answersBy (listing : Except Fault (List Entry)) :
    List Context → List Event → List (Option Answer)
  | _, [] => []
  | contexts, event :: rest =>
      event.answerBy listing contexts ::
        answersBy listing (event.extend contexts) rest

/-- The contexts of a session with the index that they share, and the disk as it
is. -/
structure Session where
  disk : Disk
  index : Index
  contexts : List Context

namespace Session

/-- The session of a context whose files have not been asked for. -/
def start (disk : Disk) (excludes : List Glob) (context : Context) : Session :=
  { disk, index := { root := context.root, excludes }, contexts := [context] }

/-- What an event makes of a session, with the answer if a context is asked. -/
def step (session : Session) : Event → Option Answer × Session
  | .ask position query =>
      match session.contexts[position]? with
      | none => (none, session)
      | some _ =>
          let (answer, index) := session.index.answer session.disk query
          (some answer, { session with index })
  | .derive position derivation =>
      (none, { session with
        contexts := Event.extend session.contexts (.derive position derivation) })
  | .change disk => (none, { session with disk })

/-- The answers in some events, and the session afterwards. -/
def run (session : Session) : List Event → List (Option Answer) × Session
  | [] => ([], session)
  | event :: rest =>
      let (answer, next) := session.step event
      let (answers, last) := run next rest
      (answer :: answers, last)

/-- The disk on which the listing is taken: as it is when a question first needs
a listing. -/
def listedOn (session : Session) : List Event → Option Disk
  | [] => none
  | event :: rest =>
      if event.needsListing session.contexts then some session.disk
      else (session.step event).2.listedOn rest

/-- The listing that a session has, or else takes in some events. -/
def takes (session : Session) (events : List Event) :
    Option (Except Fault (List Entry)) :=
  session.index.listing.or
    ((session.listedOn events).map fun disk =>
      Listing.take disk session.index.root session.index.excludes)

/-- The index remembers true answers, and all contexts have its root. -/
structure Sound (session : Session) : Prop where
  index : session.index.Sound
  rooted : ∀ context ∈ session.contexts, context.root = session.index.root

theorem sound_start (disk : Disk) (excludes : List Glob) (context : Context) :
    (start disk excludes context).Sound where
  index := fun _ _ remembered => by cases remembered
  rooted := fun _ member => congrArg Context.root (List.mem_singleton.mp member)

theorem takes_of_needed {session : Session} {event : Event}
    (needed : event.needsListing session.contexts = true)
    (rest : List Event) :
    session.takes (event :: rest) =
      some (session.index.listingOn session.disk) := by
  rw [takes, listedOn, if_pos needed, Option.map_some, Option.or_some]
  rfl

section

variable {session : Session} (sound : session.Sound)

include sound

/-- An event answers by the listing of the index, which it takes only if the
question needs it. -/
theorem step_spec (event : Event) :
    (session.step event).1 =
        event.answerBy (session.index.listingOn session.disk)
          session.contexts ∧
      (session.step event).2.contexts = event.extend session.contexts ∧
      session.index.Becomes session.disk
        (event.needsListing session.contexts) (session.step event).2.index := by
  cases event with
  | ask position query =>
      cases asked : session.contexts[position]? with
      | none =>
          rw [step, asked, Event.answerBy, asked, Event.needsListing, asked]
          exact ⟨rfl, rfl, .refl sound.index⟩
      | some context =>
          obtain ⟨answers, becomes⟩ := Index.answer_spec sound.index
            (sound.rooted context (List.mem_of_getElem? asked)) session.disk
            query
          rw [step, asked, Event.answerBy, asked, Event.needsListing, asked]
          exact ⟨congrArg some answers, rfl, becomes⟩
  | derive position derivation => exact ⟨rfl, rfl, .refl sound.index⟩
  | change disk => exact ⟨rfl, rfl, .refl sound.index⟩

theorem sound_step (event : Event) : (session.step event).2.Sound := by
  obtain ⟨-, contexts, becomes⟩ := step_spec sound event
  refine ⟨becomes.sound, ?_⟩
  rw [contexts, becomes.root]
  cases event with
  | ask position query => exact sound.rooted
  | derive position derivation =>
      intro context member
      rcases List.mem_append.mp member with before | derived
      · exact sound.rooted context before
      · obtain ⟨parent, stands, rfl⟩ :=
          Option.map_eq_some_iff.mp (Option.mem_toList.mp derived)
        rw [Context.root_derive]
        exact sound.rooted parent (List.mem_of_getElem? stands)
  | change disk => exact sound.rooted

/-- What a session takes is settled by its first event, or by those after it. -/
theorem takes_cons (event : Event) (rest : List Event) :
    session.takes (event :: rest) = (session.step event).2.takes rest := by
  obtain ⟨-, -, becomes⟩ := step_spec sound event
  cases needed : event.needsListing session.contexts with
  | true =>
      rw [takes_of_needed needed, takes, becomes.listing needed,
        Option.some_or]
  | false =>
      rw [takes, takes, listedOn, needed, becomes.unchanged needed]
      rfl

end

/-- A run answers by the one listing that it takes, and keeps it. -/
theorem run_spec {session : Session} (sound : session.Sound)
    (events : List Event) :
    (∀ listing, (∀ held, session.takes events = some held → held = listing) →
      (session.run events).1 =
        answersBy listing session.contexts events) ∧
      (session.run events).2.Sound ∧
      (session.run events).2.index.root = session.index.root ∧
      (session.run events).2.index.listing = session.takes events := by
  induction events generalizing session with
  | nil =>
      refine ⟨fun _ _ => rfl, sound, rfl, ?_⟩
      rw [takes, listedOn, Option.map_none, Option.or_none]
      rfl
  | cons event rest ih =>
      obtain ⟨answers, contexts, becomes⟩ := step_spec sound event
      obtain ⟨later, soundLast, root, kept⟩ := ih (sound_step sound event)
      refine ⟨?_, soundLast, root.trans becomes.root,
        kept.trans (takes_cons sound event rest).symm⟩
      intro listing taken
      have laterTaken : ∀ held,
          (session.step event).2.takes rest = some held → held = listing := by
        rw [← takes_cons sound event rest]
        exact taken
      have here : (session.step event).1 =
          event.answerBy listing session.contexts := by
        rw [answers]
        cases needed : event.needsListing session.contexts with
        | true => rw [taken _ (takes_of_needed needed rest)]
        -- Until the listing is taken, any other one answers alike.
        | false => exact Event.answerBy_of_unneeded needed _ _
      -- The rest of the run goes on from the contexts after the event.
      rw [answersBy, ← here, ← contexts, ← later listing laterTaken]
      rfl

/-- Every answer in a session is that of the one listing which was taken when a
question first needed it.  A root that could not be listed then cannot be listed
later, and a pattern that cannot be read is refused at any time, without change
to the index. -/
theorem answers_by_one_listing (context : Context) (excludes : List Glob)
    (disk : Disk) (events : List Event) :
    let session := start disk excludes context
    let index := (session.run events).2.index
    (∀ listing,
      (∀ moment, session.listedOn events = some moment →
        listing = Listing.take moment context.root excludes) →
      (session.run events).1 = answersBy listing [context] events) ∧
    (∀ moment fault, session.listedOn events = some moment →
      Listing.take moment context.root excludes = .error fault →
      ∀ now : Disk,
        index.totalFiles now =
          (.error (Listing.unreadable context.root fault), index) ∧
        ∀ pattern glob, Glob.ofText pattern = .ok glob →
          index.findFiles now pattern =
            (.error (Listing.unreadable context.root fault), index)) ∧
    ∀ pattern error, Glob.ofText pattern = .error error →
      (∃ reason, error = .invalidGlob pattern reason) ∧
      ∀ now : Disk,
        index.findFiles now pattern = (.error error, index) ∧
        index.hasFiles now pattern = (false, index) ∧
        ∀ earlier later,
          index.findFilesAny now (earlier ++ pattern :: later) =
            match index.findFilesAny now earlier with
            | (.error first, extended) => (.error first, extended)
            | (.ok _, extended) => (.error error, extended) := by
  intro session index
  obtain ⟨answers, sound, root, listing⟩ :=
    run_spec (sound_start disk excludes context) events
  have root : index.root = context.root := root
  have taken : session.takes events = (session.listedOn events).map fun moment =>
      Listing.take moment context.root excludes := rfl
  refine ⟨?_, ?_, ?_⟩
  · intro listing first
    apply answers listing
    intro held takes
    rw [taken] at takes
    obtain ⟨moment, listed, rfl⟩ := Option.map_eq_some_iff.mp takes
    exact (first moment listed).symm
  · intro moment fault listed failed now
    have unlisted : index.listing = some (.error fault) := by
      rw [listing, taken, listed, Option.map_some, failed]
    rw [← root]
    exact ⟨Index.totalFiles_of_fault unlisted, fun pattern glob read =>
      Index.findFiles_of_fault sound.index unlisted read⟩
  · intro pattern error unread
    refine ⟨Glob.eq_invalidGlob_of_error unread, fun now => ?_⟩
    have refused : index.findFiles now pattern = (.error error, index) :=
      Index.findFiles_of_error sound.index unread
    refine ⟨refused, ?_, Index.findFilesAny_of_error sound.index unread⟩
    rw [Index.hasFiles, refused]

/-- A disk with a project of some empty files. -/
def diskWith (names : List String) : Disk :=
  { tree := .directory
      [("shop", .directory (names.map fun name => (name, .file [])))]
    current := [] }

/-- A file that comes late is not found, by a clone neither; a project that comes
late cannot be listed, and a class without an end is no pattern. -/
theorem answers_by_one_listing_late :
    let context : Context :=
      { disk := diskWith [], root := "/shop", projectName := "shop"
        listing := .ok [] }
    let missing : Disk := { tree := .emptyDirectory, current := [] }
    (((start (diskWith ["app.py"]) [] context).run
        [.ask 0 (.find "*.py"), .change (diskWith ["app.py", "late.py"]),
          .derive 0 .clone, .ask 1 (.findAny ["*.py", "*.js"]),
          .ask 1 .total]).1 =
      [some (.files (.ok ["/shop/app.py"])), none, none,
        some (.files (.ok ["/shop/app.py"])), some (.number (.ok 1))]) ∧
    let index := ((start missing [] context).run
      [.ask 0 .total, .change (diskWith ["app.py"])]).2.index
    index.findFiles (diskWith ["app.py"]) "*.py" =
      (.error (.rootUnreadable "/shop" Fault.notFound.message), index) ∧
    index.hasFiles (diskWith ["app.py"]) "[" = (false, index) := by
  intro context missing
  constructor
  · rw [(answers_by_one_listing context [] (diskWith ["app.py"]) _).1
      (Listing.take (diskWith ["app.py"]) "/shop" [])]
    · decide +kernel
    · intro moment listed
      have first : some (diskWith ["app.py"]) = some moment := listed
      rw [Option.some.inj first]
  · obtain ⟨-, faulty, refuses⟩ := answers_by_one_listing context [] missing
      [.ask 0 .total, .change (diskWith ["app.py"])]
    have failed : Listing.take missing "/shop" [] = .error .notFound := by
      decide +kernel
    obtain ⟨-, refused, -⟩ := (refuses "[" _ rfl).2 (diskWith ["app.py"])
    exact ⟨(faulty missing .notFound rfl failed _).2 "*.py" _ rfl, refused⟩

end Session

end ArchSurvey
