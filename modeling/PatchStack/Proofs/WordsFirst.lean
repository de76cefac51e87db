import Mathlib.Data.List.Forall2
import PatchStack.Proofs.Endings
import PatchStack.Proofs.Questions

set_option autoImplicit false

/-!
# Words before questions

A command reads all of its words before it asks anything. If it refuses one, nothing is printed and
nothing is asked, and the first word that it refuses is what is reported, unless a number in it is
too long to be read, on which the command breaks down. Otherwise a command that lists patches prints
all of them or none. Only the command for revisions prints as it goes, and what it has printed when
it fails are the lines of the revisions before the failing one.

## Main definitions

* `PatchStack.Error.ending`, `PatchStack.Error.report` — how a command ends that fails, and what it
  says about that.
* `PatchStack.Invocation.RefusesFirst` — the first word that a command refuses.
* `PatchStack.AllOrNothing` — a command prints all that it finds in a stack, or nothing.
* `PatchStack.Git.ResolveInTurn`, `PatchStack.UpToFailure` — a command prints what revisions resolve
  to, up to the first one that does not.
* `PatchStack.WordsFirst` — what a command does with its words.
* `PatchStack.Surroundings.IsReady` — a valid configuration, in a repository.

## Main results

* `PatchStack.readAll_cases` — reading fails exactly at the first word that cannot be read.
* `PatchStack.Surroundings.revLines_cases` — printing revisions stops at the first failure.
* `PatchStack.Surroundings.IsReady.words_first` — every command reads its words first.
-/

namespace PatchStack

/-! ## Failures -/

/-- How a command ends that fails. -/
def Error.ending : Error → Ending
  | .breakdown cause => .breakdown cause
  | _ => .exit 1

/-- What a command says that fails. About a breakdown it says nothing. -/
def Error.report : Error → List Text
  | .breakdown _ => []
  | e => [e.line]

/-- A command that fails says why, unless it breaks down. -/
lemma Printed.after_outcome_of_error (lines : List Text) (e : Error) (st : Session)
    (warnings : List Text) :
    (Printed.outcome (⟨lines, some e⟩, st)).after warnings =
      ⟨e.ending, lines, warnings ++ e.report, st.calls⟩ := by
  cases e <;> rfl

/-! ## Reading words -/

section Words

variable {α : Type} {read : Text → Reading α}

/-- The first word is read before the others. -/
lemma readAll_cons (t : Text) (words : List Text) :
    readAll read (t :: words) =
      match read t with
      | .error fault => .error (.ofReading fault)
      | .ok a => (a :: ·) <$> readAll read words := by
  rw [readAll, List.mapM_cons]
  cases read t with
  | error fault => rfl
  | ok a =>
    unfold readAll
    cases words.mapM read <;> rfl

/-- Reading all words succeeds if each word can be read. Otherwise it fails with the first one that
cannot, and does not look at those behind it.

**Proof sketch.** By induction on the words. -/
theorem readAll_cases (read : Text → Reading α) (words : List Text) :
    (∃ parsed, List.Forall₂ (fun t a => read t = .ok a) words parsed ∧
        readAll read words = .ok parsed) ∨
      ∃ before word behind fault, words = before ++ word :: behind ∧
        (∀ t ∈ before, ∃ a, read t = .ok a) ∧ read word = .error fault ∧
        readAll read words = .error (.ofReading fault) := by
  induction words with
  | nil => exact .inl ⟨[], .nil, rfl⟩
  | cons t words ih =>
    rw [readAll_cons]
    cases ht : read t with
    | error fault => exact .inr ⟨[], t, words, fault, rfl, nofun, ht, rfl⟩
    | ok a =>
      rcases ih with ⟨parsed, hparsed, h⟩ | ⟨before, word, behind, fault, rfl, hbefore, hword, h⟩
      · refine .inl ⟨a :: parsed, .cons ht hparsed, ?_⟩
        rw [h]
        rfl
      · have hbefore' := List.forall_mem_cons.2 ⟨⟨a, ht⟩, hbefore⟩
        refine .inr ⟨t :: before, word, behind, fault, rfl, hbefore', hword, ?_⟩
        rw [h]
        rfl

end Words

namespace Invocation

/-- The words of a command. -/
def words : Invocation → List Text
  | .locate locator _ _ => [locator]
  | .range ranges _ _ _ => ranges
  | .rev specs _ => specs
  | .stack _ => []

/-- Can the command read the word? -/
def check (i : Invocation) (word : Text) : Reading Unit :=
  match i with
  | .locate _ _ _ => (fun _ => ()) <$> Locator.ofText word
  | .range _ _ _ _ => (fun _ => ()) <$> Range.ofText word
  | .rev _ _ => (fun _ => ()) <$> RevisionSpec.ofText word
  | .stack _ => .ok ()

/-- The command can read all of its words. -/
def AcceptsWords (i : Invocation) : Prop := ∀ t ∈ i.words, i.check t = .ok ()

/-- The first of its words that the command cannot read is refused for the fault: the word is
malformed, or a number in it is too long. -/
def RefusesFirst (i : Invocation) (fault : ReadingFault SyntaxError) : Prop :=
  ∃ before word behind, i.words = before ++ word :: behind ∧
    (∀ t ∈ before, i.check t = .ok ()) ∧ i.check word = .error fault

variable {i : Invocation}

/-- A command that refuses a word does not accept all of them. -/
lemma RefusesFirst.not_acceptsWords {fault : ReadingFault SyntaxError}
    (h : i.RefusesFirst fault) : ¬ i.AcceptsWords := by
  obtain ⟨before, word, behind, hwords, -, hword⟩ := h
  intro haccepts
  have := haccepts word (by simp [hwords])
  rw [hword] at this
  cases this

/-- Reading the words of a command in its own way ends as the command accepts or refuses them.

**Proof sketch.** The check of a word succeeds and fails as reading it does, so that this is
`readAll_cases` in terms of the command. -/
lemma words_cases {α : Type} {read : Text → Reading α} {words : List Text}
    (hwords : i.words = words) (hcheck : ∀ t, i.check t = (fun _ => ()) <$> read t) :
    (i.AcceptsWords ∧ ∃ parsed, List.Forall₂ (fun t a => read t = .ok a) words parsed ∧
        readAll read words = .ok parsed) ∨
      ∃ fault, i.RefusesFirst fault ∧ readAll read words = .error (.ofReading fault) := by
  subst hwords
  have haccept {t : Text} (h : ∃ a, read t = .ok a) : i.check t = .ok () := by
    obtain ⟨a, ha⟩ := h
    rw [hcheck, ha]
    rfl
  rcases readAll_cases read i.words with
    ⟨parsed, hparsed, h⟩ | ⟨before, word, behind, fault, hwords, hbefore, hword, h⟩
  · have hboth := hparsed.imp fun t a ha => And.intro (haccept ⟨a, ha⟩) ha
    exact .inl ⟨((List.forall₂_and_left _ _).1 hboth).1, parsed, hparsed, h⟩
  · refine .inr ⟨fault, ⟨before, word, behind, hwords, fun t ht => haccept (hbefore t ht), ?_⟩, h⟩
    rw [hcheck, hword]
    rfl

end Invocation

/-! ## Listing patches -/

/-- A command prints all lines that it makes of the stack of a branch, or it prints nothing and
fails since there is no stack or since the lines cannot be made. -/
inductive AllOrNothing (git : Git) (branch : Option Text)
    (lines : Stack → Except Error (List Text)) (warnings : List Text) (o : Outcome) : Prop where
  /-- The stack is found, and all lines are printed. -/
  | all {s : Stack} {st : Session} {printed : List Text}
      (hs : (git.stackOf branch).run.run .fresh = (.ok s, st)) (hlines : lines s = .ok printed)
      (h : o = ⟨.exit 0, printed, warnings, st.calls⟩)
  /-- There is no stack. -/
  | noStack {st : Session} {e : Error}
      (hs : (git.stackOf branch).run.run .fresh = (.error e, st))
      (h : o = ⟨e.ending, [], warnings ++ e.report, st.calls⟩)
  /-- The lines cannot be made. -/
  | noLines {s : Stack} {st : Session} {e : Error}
      (hs : (git.stackOf branch).run.run .fresh = (.ok s, st)) (hlines : lines s = .error e)
      (h : o = ⟨e.ending, [], warnings ++ e.report, st.calls⟩)

section Listing

variable {w : Surroundings} {start : Path} {branch : Option Text}

/-- A command that does not fail says no more than it has been warned of. -/
lemma after_outcome_of_lines (lines : List Text) (st : Session) (warnings : List Text) :
    (Printed.outcome (⟨lines, none⟩, st)).after warnings =
      ⟨.exit 0, lines, warnings, st.calls⟩ := by
  rw [Printed.outcome, Outcome.after, List.append_nil]

/-- In a repository, what is done with a stack is done with the one that git finds. -/
lemma stackOf_of_repository (hrepository : ∃ root, w.tree.discover start = .ok root) :
    w.stackOf start branch = w.git.stackOf branch := by
  obtain ⟨root, hroot⟩ := hrepository
  unfold Surroundings.stackOf Surroundings.needRepository
  rw [hroot]
  rfl

/-- A command that only makes lines of a stack prints all of them or nothing.

**Proof sketch.** The stack is missing, its lines cannot be made, or they are printed all together
behind both. -/
theorem allOrNothing_of_lines (hrepository : ∃ root, w.tree.discover start = .ok root)
    (lines : Stack → Except Error (List Text)) (warnings : List Text) :
    AllOrNothing w.git branch lines warnings
      ((Printed.outcome (printAll do
        let s ← w.stackOf start branch
        Run.ofExcept (lines s))).after warnings) := by
  rw [stackOf_of_repository hrepository, printAll, Run.run_bind]
  rcases hs : (w.git.stackOf branch).run.run .fresh with ⟨e | s, st⟩
  · exact .noStack hs (Printed.after_outcome_of_error [] e st warnings)
  · dsimp only
    rw [Run.run_ofExcept]
    cases hlines : lines s with
    | error e => exact .noLines hs hlines (Printed.after_outcome_of_error [] e st warnings)
    | ok printed => exact .all hs hlines (after_outcome_of_lines printed st warnings)

end Listing

/-! ## Printing revisions -/

/-- How many lines are printed for a revision: two for a range, one for any other. -/
def RevisionSpec.lineCount : RevisionSpec → Nat
  | .branchRange _ _ | .range _ => 2
  | .single _ => 1

/-- Revisions resolve one after the other, each in the session that the one before has left. -/
inductive Git.ResolveInTurn (git : Git) (c : RangeConstraint) :
    Session → List RevisionSpec → List Boundary → Session → Prop where
  /-- There is no revision. -/
  | nil (st : Session) : ResolveInTurn git c st [] [] st
  /-- The first one resolves, and so do the others. -/
  | cons {st st₁ st₂ : Session} {spec : RevisionSpec} {specs : List RevisionSpec} {b : Boundary}
      {bs : List Boundary}
      (hfirst : (resolveSpec git.services spec none c).run.run st = (.ok b, st₁))
      (hrest : ResolveInTurn git c st₁ specs bs st₂) :
      ResolveInTurn git c st (spec :: specs) (b :: bs) st₂

section Revisions

variable {σ : Type} {v : Services σ} {c : RangeConstraint}

/-- A range resolves to two ends.

**Proof sketch.** One case for one patch, whose commit is both ends, and one for several. -/
lemma exists_ends_of_resolveBounds {b : Bounds} {s : Stack} {st st' : σ} {r : Boundary}
    (h : (resolveBounds v b s c).run.run st = (.ok r, st')) :
    ∃ first last, r = .ends first last := by
  obtain ⟨names, st₁, -, h⟩ := Run.run_bind_eq_ok_iff.1 h
  cases names with
  | nil => cases h
  | cons first rest =>
    obtain ⟨begins, st₂, -, h⟩ := Run.run_bind_eq_ok_iff.1 h
    dsimp only at h
    split_ifs at h
    · cases h
      exact ⟨_, _, rfl⟩
    · obtain ⟨ends, st₃, -, h⟩ := Run.run_bind_eq_ok_iff.1 h
      cases h
      exact ⟨_, _, rfl⟩

/-- What a revision resolves to has as many lines as the revision asks for.

**Proof sketch.** A range resolves to two ends and a single revision to one. -/
theorem length_boundaryLines {spec : RevisionSpec} {current : Option Stack} {st st' : σ}
    {b : Boundary} (h : (resolveSpec v spec current c).run.run st = (.ok b, st')) :
    (boundaryLines b).length = spec.lineCount := by
  cases spec with
  | branchRange branch bounds =>
    obtain ⟨s, st₁, -, h⟩ := Run.run_bind_eq_ok_iff.1 h
    obtain ⟨first, last, rfl⟩ := exists_ends_of_resolveBounds h
    rfl
  | range bounds =>
    obtain ⟨s, st₁, -, h⟩ := Run.run_bind_eq_ok_iff.1 h
    obtain ⟨first, last, rfl⟩ := exists_ends_of_resolveBounds h
    rfl
  | single revision =>
    obtain ⟨r, st₁, -, h⟩ := Run.run_bind_eq_ok_iff.1 h
    cases h
    rfl

/-- Revisions that resolve have as many lines as they ask for. -/
lemma Git.ResolveInTurn.lengths {git : Git} {st st' : Session} {specs : List RevisionSpec}
    {bs : List Boundary} (h : git.ResolveInTurn c st specs bs st') :
    List.Forall₂ (fun spec b => (boundaryLines b).length = spec.lineCount) specs bs := by
  induction h with
  | nil => exact .nil
  | cons hfirst _ ih => exact .cons (length_boundaryLines hfirst) ih

/-- Printing revisions goes on as long as they resolve, and stops at the first one that does not.

**Proof sketch.** By induction on the revisions, from every session. -/
theorem Surroundings.revLines_cases (w : Surroundings) (specs : List RevisionSpec) (st : Session) :
    (∃ bs st', w.git.ResolveInTurn c st specs bs st' ∧
        w.revLines c specs st = (⟨bs.flatMap boundaryLines, none⟩, st')) ∨
      ∃ before spec behind bs st₁ e st', specs = before ++ spec :: behind ∧
        w.git.ResolveInTurn c st before bs st₁ ∧
        (resolveSpec w.git.services spec none c).run.run st₁ = (.error e, st') ∧
        w.revLines c specs st = (⟨bs.flatMap boundaryLines, some e⟩, st') := by
  -- From every session, since each revision begins where the one before has stopped.
  induction specs generalizing st with
  | nil => exact .inl ⟨[], st, .nil st, rfl⟩
  | cons spec specs ih =>
    unfold revLines
    rcases hfirst : (resolveSpec w.git.services spec none c).run.run st with ⟨e | b, st₁⟩
    · exact .inr ⟨[], spec, specs, [], st, e, st₁, rfl, .nil st, hfirst, rfl⟩
    · dsimp only
      rcases ih st₁ with ⟨bs, st', hrest, h⟩ |
        ⟨before, spec', behind, bs, st₂, e, st', rfl, hrest, hfails, h⟩
      · refine .inl ⟨b :: bs, st', .cons hfirst hrest, ?_⟩
        rw [h]
        rfl
      · refine .inr ⟨spec :: before, spec', behind, b :: bs, st₂, e, st', rfl,
          .cons hfirst hrest, hfails, ?_⟩
        rw [h]
        rfl

end Revisions

/-- A command prints the lines of revisions one after the other. If one cannot be resolved, it
fails there, and what it has printed are the lines of those before. -/
inductive UpToFailure (git : Git) (c : RangeConstraint) (specs : List RevisionSpec)
    (warnings : List Text) (o : Outcome) : Prop where
  /-- All revisions resolve. -/
  | all {bs : List Boundary} {st : Session} (hall : git.ResolveInTurn c .fresh specs bs st)
      (hlengths :
        List.Forall₂ (fun spec b => (boundaryLines b).length = spec.lineCount) specs bs)
      (h : o = ⟨.exit 0, bs.flatMap boundaryLines, warnings, st.calls⟩)
  /-- The first one that does not resolve has others before and behind it. -/
  | upTo {before behind : List RevisionSpec} {spec : RevisionSpec} {bs : List Boundary}
      {st st' : Session} {e : Error} (hspecs : specs = before ++ spec :: behind)
      (hbefore : git.ResolveInTurn c .fresh before bs st)
      (hlengths :
        List.Forall₂ (fun spec b => (boundaryLines b).length = spec.lineCount) before bs)
      (hfails : (resolveSpec git.services spec none c).run.run st = (.error e, st'))
      (h : o = ⟨e.ending, bs.flatMap boundaryLines, warnings ++ e.report, st'.calls⟩)

/-! ## Commands -/

/-- What a command does with its words, under settings and after some warnings. -/
structure WordsFirst (git : Git) (s : Settings) (warnings : List Text) (i : Invocation)
    (o : Outcome) : Prop where
  /-- If it does not accept all of them, it prints nothing and asks nothing. It reports that the
  first one that it refuses is malformed, or it breaks down since a number in that one is too long.
  -/
  refused : ¬ i.AcceptsWords →
    (∃ e, i.RefusesFirst (.malformed e) ∧
        o = ⟨.exit 1, [], warnings ++ [(Error.malformed e).line], []⟩) ∨
      ∃ fault, i.RefusesFirst (.numeral fault) ∧
        o = ⟨.breakdown (.numeral fault), [], warnings, []⟩
  /-- The patch at a locator is printed, or nothing. -/
  locate : ∀ {text branch option}, i = .locate text branch option → i.AcceptsWords →
    ∃ l c, Locator.ofText text = .ok l ∧ chosen option s.constraint = .ok c ∧
      AllOrNothing git branch (fun stack => (fun n => [n.text]) <$> l.resolve stack c) warnings o
  /-- All patches of ranges are printed, or nothing. -/
  range : ∀ {texts branch option contiguous}, i = .range texts branch option contiguous →
    i.AcceptsWords → ∃ rs c, List.Forall₂ (fun t r => Range.ofText t = .ok r) texts rs ∧
      chosen option s.rangeConstraint = .ok c ∧
      AllOrNothing git branch
        (fun stack => List.map (·.text) <$>
          if contiguous then selectContiguous rs stack c else selectAll rs stack c) warnings o
  /-- The lines of revisions are printed up to the first one that does not resolve. -/
  rev : ∀ {texts option}, i = .rev texts option → i.AcceptsWords →
    ∃ specs c, List.Forall₂ (fun t spec => RevisionSpec.ofText t = .ok spec) texts specs ∧
      chosen option s.rangeConstraint = .ok c ∧ UpToFailure git c specs warnings o
  /-- A whole stack is printed, or nothing. -/
  stack : ∀ {branch}, i = .stack branch → AllOrNothing git branch stackLines warnings o

/-- The configuration that the options name is valid, and the run starts in a repository. -/
structure Surroundings.IsReady (w : Surroundings) (g : GlobalOptions) (s : Settings)
    (warnings : List Text) : Prop where
  /-- The settings can be had. -/
  settings : w.settings g = .ok s
  /-- They have a constraint for single patches. -/
  constraint : ∃ c, s.constraint = .ok c
  /-- They have a constraint for ranges. -/
  rangeConstraint : ∃ c, s.rangeConstraint = .ok c
  /-- They say how much is logged, perhaps with a warning. -/
  level : ∃ n unknown, s.level g.verbose = .ok (n, unknown) ∧ warnings = levelWarning unknown
  /-- There is a repository around the directory in which the run starts. -/
  repository : ∃ root, w.tree.discover (w.start g) = .ok root

namespace WordsFirst

variable {w : Surroundings} {start : Path} {s : Settings} {warnings : List Text}

/-- A constraint is known if the option gives one, or else if the settings do. -/
lemma exists_chosen {α : Type} (option : Option α) {setting : Except SettingsFault α}
    (h : ∃ c, setting = .ok c) : ∃ c, chosen option setting = .ok c := by
  cases option with
  | some c => exact ⟨c, rfl⟩
  | none => exact h

/-- A command that refuses a word has printed and asked nothing.

**Proof sketch.** The command accepts its words in none of the other parts, and of no word if it has
none. -/
lemma of_refusesFirst {git : Git} {i : Invocation} {fault : ReadingFault SyntaxError}
    (h : i.RefusesFirst fault) :
    WordsFirst git s warnings i
      ((Printed.outcome (⟨[], some (.ofReading fault)⟩, .fresh)).after warnings) where
  refused _ := by
    rw [Printed.after_outcome_of_error]
    cases fault with
    | malformed e => exact .inl ⟨e, h, rfl⟩
    | numeral fault =>
      refine .inr ⟨fault, h, ?_⟩
      simp [Error.ofReading, Error.report, Error.ending, Session.fresh]
  locate _ haccepts := absurd haccepts h.not_acceptsWords
  range _ haccepts := absurd haccepts h.not_acceptsWords
  rev _ haccepts := absurd haccepts h.not_acceptsWords
  stack hi := by
    subst hi
    exact absurd (List.forall_mem_nil _) h.not_acceptsWords

/-- A failed reading is all that a command does. -/
lemma printAll_of_error {α : Type} {x : Except Error α} {e : Error} (h : x = .error e)
    (f : α → Run Session (List Text)) :
    printAll (Run.ofExcept x >>= f) = (⟨[], some e⟩, .fresh) := by
  subst h
  rfl

/-- The last step of a command, which puts what was found into lines. -/
lemma ofExcept_bind_pure {α β : Type} (x : Except Error α) (f : α → β) :
    (Run.ofExcept x >>= fun a => pure (f a) : Run Session β) = Run.ofExcept (f <$> x) := by
  cases x <;> rfl

/-- The command for a locator reads it before it asks for a stack.

**Proof sketch.** The constraint is known, so that the command is what it prints. The word is
refused, and nothing is done, or it is accepted, and what is left is to ask for the stack and to
give out all lines or none. -/
lemma of_locate (hrepository : ∃ root, w.tree.discover start = .ok root)
    (hconstraint : ∃ c, s.constraint = .ok c) (text : Text) (branch : Option Text)
    (option : Option LocationConstraint) :
    WordsFirst w.git s warnings (.locate text branch option)
      (((Invocation.locate text branch option).run w start s).after warnings) := by
  obtain ⟨c, hc⟩ := exists_chosen option hconstraint
  have hprinted : (Invocation.locate text branch option).printed w start s =
      .ok (printAll (w.locate start text branch c)) := map_eq_ok_iff.2 ⟨c, hc, rfl⟩
  rw [Invocation.run_of_printed hprinted]
  cases htext : Locator.ofText text with
  | error fault =>
    have hread : (Locator.ofText text).mapError Error.ofReading = .error (.ofReading fault) := by
      rw [htext]
      rfl
    rw [Surroundings.locate, printAll_of_error hread]
    exact of_refusesFirst ⟨[], text, [], rfl, nofun, map_eq_error_iff.2 htext⟩
  | ok l =>
    have haccepts : (Invocation.locate text branch option).AcceptsWords :=
      List.forall_mem_singleton.2 (map_eq_ok_iff.2 ⟨l, htext, rfl⟩)
    have hlines : w.locate start text branch c = (do
        let stack ← w.stackOf start branch
        Run.ofExcept ((fun n => [n.text]) <$> l.resolve stack c)) := by
      simp only [Surroundings.locate, htext, ← ofExcept_bind_pure]
      rfl
    rw [hlines]
    constructor
    case refused => exact absurd haccepts
    case locate =>
      intro _ _ _ hi _
      cases hi
      exact ⟨l, c, htext, hc, allOrNothing_of_lines hrepository _ warnings⟩
    case range => nofun
    case rev => nofun
    case stack => nofun

/-- The command for ranges reads all of them before it asks for a stack.

**Proof sketch.** As for a locator, with all words read before the stack is asked for. -/
lemma of_range (hrepository : ∃ root, w.tree.discover start = .ok root)
    (hconstraint : ∃ c, s.rangeConstraint = .ok c) (texts : List Text) (branch : Option Text)
    (option : Option RangeConstraint) (contiguous : Bool) :
    WordsFirst w.git s warnings (.range texts branch option contiguous)
      (((Invocation.range texts branch option contiguous).run w start s).after warnings) := by
  obtain ⟨c, hc⟩ := exists_chosen option hconstraint
  have hprinted : (Invocation.range texts branch option contiguous).printed w start s =
      .ok (printAll (w.range start texts branch c contiguous)) := map_eq_ok_iff.2 ⟨c, hc, rfl⟩
  rw [Invocation.run_of_printed hprinted]
  have hwords : (Invocation.range texts branch option contiguous).words = texts := rfl
  rcases Invocation.words_cases hwords fun _ => rfl with
    ⟨haccepts, rs, hrs, hread⟩ | ⟨fault, hfault, hread⟩
  · have hlines : w.range start texts branch c contiguous = (do
        let stack ← w.stackOf start branch
        Run.ofExcept (List.map (·.text) <$>
          if contiguous then selectContiguous rs stack c else selectAll rs stack c)) := by
      simp only [Surroundings.range, ← ofExcept_bind_pure]
      rw [hread]
      rfl
    rw [hlines]
    constructor
    case refused => exact absurd haccepts
    case locate => nofun
    case range =>
      intro _ _ _ _ hi _
      cases hi
      exact ⟨rs, c, hrs, hc, allOrNothing_of_lines hrepository _ warnings⟩
    case rev => nofun
    case stack => nofun
  · rw [Surroundings.range, printAll_of_error hread]
    exact of_refusesFirst hfault

/-- The command for revisions reads all of them before it resolves the first one.

**Proof sketch.** All words are read first. After that the revisions are resolved one by one, and
the lines are those of all of them, or of those before the first one that fails
(`Surroundings.revLines_cases`). -/
lemma of_rev (hrepository : ∃ root, w.tree.discover start = .ok root)
    (hconstraint : ∃ c, s.rangeConstraint = .ok c) (texts : List Text)
    (option : Option RangeConstraint) :
    WordsFirst w.git s warnings (.rev texts option)
      (((Invocation.rev texts option).run w start s).after warnings) := by
  obtain ⟨c, hc⟩ := exists_chosen option hconstraint
  obtain ⟨root, hroot⟩ := hrepository
  have hprinted : (Invocation.rev texts option).printed w start s =
      .ok (w.rev start texts c) := map_eq_ok_iff.2 ⟨c, hc, rfl⟩
  rw [Invocation.run_of_printed hprinted]
  have hwords : (Invocation.rev texts option).words = texts := rfl
  rcases Invocation.words_cases hwords fun _ => rfl with
    ⟨haccepts, specs, hspecs, hread⟩ | ⟨fault, hfault, hread⟩
  · have hrev : w.rev start texts c = w.revLines c specs .fresh := by
      unfold Surroundings.rev
      rw [hread, hroot]
    rw [hrev]
    constructor
    case refused => exact absurd haccepts
    case locate => nofun
    case range => nofun
    case stack => nofun
    case rev =>
      intro _ _ hi _
      cases hi
      refine ⟨specs, c, hspecs, hc, ?_⟩
      rcases w.revLines_cases specs .fresh with
        ⟨bs, st, hall, h⟩ | ⟨before, spec, behind, bs, st, e, st', hsplit, hbefore, hfails, h⟩
      · rw [h]
        exact .all hall hall.lengths (after_outcome_of_lines _ _ _)
      · rw [h]
        exact .upTo hsplit hbefore hbefore.lengths hfails (Printed.after_outcome_of_error _ _ _ _)
  · have hrev : w.rev start texts c = (⟨[], some (.ofReading fault)⟩, .fresh) := by
      unfold Surroundings.rev
      rw [hread]
    rw [hrev]
    exact of_refusesFirst hfault

/-- The command for a whole stack has no words. -/
lemma of_stack (hrepository : ∃ root, w.tree.discover start = .ok root) (branch : Option Text) :
    WordsFirst w.git s warnings (.stack branch)
      (((Invocation.stack branch).run w start s).after warnings) where
  refused := absurd (List.forall_mem_nil _)
  locate := nofun
  range := nofun
  rev := nofun
  stack hi := by
    cases hi
    exact allOrNothing_of_lines hrepository stackLines warnings

end WordsFirst

namespace Surroundings.IsReady

variable {w : Surroundings} {g : GlobalOptions} {s : Settings} {warnings : List Text}

/-- **Every command reads its words first.** If the words of a command cannot all be read, the run
fails at the first one that cannot, prints nothing and asks nothing of git: it reports that this one
is malformed, or breaks down on a number in it that is too long. Otherwise the commands for locators
and ranges print their complete result or nothing, and the command for revisions prints exactly the
lines of the revisions before the first one that does not resolve, two for a range and one for any
other. The run ends with success if nothing fails.

**Proof sketch.** Reading a list of words succeeds with all of them or fails with the first that
cannot be read, and it comes before the stack is asked for and before the session begins. A command
that lists patches makes all of its lines in one step from the stack. For revisions one goes
through the list, each of them in the session that the one before has left. -/
theorem words_first (h : w.IsReady g s warnings) {arguments : List Text} {command : CommandName}
    {rest : List Text}
    (harguments : GlobalOptions.ofArguments? arguments = some (g, command, rest)) :
    (Invocation.ofArguments? command rest = none → runCommandLine w arguments = .usage) ∧
      ∀ i, Invocation.ofArguments? command rest = some i →
        WordsFirst w.git s warnings i (runCommandLine w arguments) := by
  obtain ⟨n, unknown, hlevel, rfl⟩ := h.level
  unfold runCommandLine
  rw [harguments]
  dsimp only
  rw [h.settings]
  dsimp only
  rw [hlevel]
  dsimp only
  refine ⟨fun hi => by rw [hi], fun i hi => ?_⟩
  rw [hi]
  dsimp only
  cases i with
  | locate text branch option => exact .of_locate h.repository h.constraint text branch option
  | range texts branch option contiguous =>
    exact .of_range h.repository h.rangeConstraint texts branch option contiguous
  | rev texts option => exact .of_rev h.repository h.rangeConstraint texts option
  | stack branch => exact .of_stack h.repository branch

end Surroundings.IsReady

/-- A repository in which one revision names a commit, and nothing else can be found. -/
def headOnly : ReplyTable :=
  [("rev-parse --verify HEAD^\x7bcommit\x7d".toList, Git.prints "c0\n"),
    ("log -1 --format=%s c0".toList, Git.prints "first\n")]

/-- A run in this repository, without a configuration. -/
def inHeadOnly : Surroundings where
  tree := ⟨[], [[]]⟩
  directory := []
  configName := ".stackloc.yaml".toList
  documents := []
  git := headOnly.git

/-- The commit of the first revision is printed before the second one fails. -/
theorem words_first_headOnly :
    ∃ g i, inHeadOnly.IsReady g .defaults [] ∧
      GlobalOptions.ofArguments? ["rev".toList, "HEAD".toList, "other".toList] =
        some (g, .rev, ["HEAD".toList, "other".toList]) ∧
      i.AcceptsWords ∧
      WordsFirst headOnly.git .defaults [] i
        (runCommandLine inHeadOnly ["rev".toList, "HEAD".toList, "other".toList]) ∧
      (runCommandLine inHeadOnly ["rev".toList, "HEAD".toList, "other".toList]).output =
        ["c0 -".toList] := by
  let g : GlobalOptions := ⟨none, none, false⟩
  let i : Invocation := .rev ["HEAD".toList, "other".toList] none
  have hready : inHeadOnly.IsReady g .defaults [] :=
    { settings := rfl
      constraint := ⟨.all, rfl⟩
      rangeConstraint := ⟨.all, rfl⟩
      level := ⟨30, none, rfl, rfl⟩
      repository := ⟨[], rfl⟩ }
  have harguments : GlobalOptions.ofArguments? ["rev".toList, "HEAD".toList, "other".toList] =
      some (g, .rev, ["HEAD".toList, "other".toList]) := rfl
  have hi : Invocation.ofArguments? .rev ["HEAD".toList, "other".toList] = some i := rfl
  refine ⟨g, i, hready, harguments, ?_, (hready.words_first harguments).2 i hi, ?_⟩
  · exact List.forall_mem_cons.2 ⟨rfl, List.forall_mem_singleton.2 rfl⟩
  · decide +kernel

end PatchStack
