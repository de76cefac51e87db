import PatchStack.CommandLine.Surroundings
import PatchStack.Git.Session

set_option autoImplicit false

/-!
# Running a command

A run depends on its arguments and on what surrounds it: the tree of directories with its
configuration files, and git. It ends with an exit status and the lines that it prints, or it
breaks down. What it writes to a log besides is left out.

Every command reads all its words before it asks anything of a repository. Only `rev` prints
lines before it fails, those of the revisions before the one that cannot be resolved.

## Main definitions

* `PatchStack.Outcome` — how a run ends.
* `PatchStack.Invocation.run` — a command with its options.
* `PatchStack.runCommandLine` — a list of arguments.
-/

namespace PatchStack

/-- How a run ends. -/
inductive Ending where
  /-- With an exit status. -/
  | exit (status : Nat)
  /-- By breaking down. -/
  | breakdown (cause : Breakdown)
  deriving DecidableEq, Repr

/-- How a run ends, what it prints and which commands it asks for. -/
structure Outcome where
  /-- How it ends. -/
  ending : Ending
  /-- The lines of its output. -/
  output : List Text
  /-- The lines of its error output, but for those of the log. -/
  errors : List Text
  /-- The commands it asks for, those included that cannot be started. -/
  calls : List Command

namespace Outcome

/-- A run that ends before anything is asked of a repository. -/
def early (ending : Ending) (errors : List Text) : Outcome := ⟨ending, [], errors, []⟩

/-- A run whose arguments make no sense. -/
def usage : Outcome := early (.exit 2) []

/-- The outcome with more lines of error output before its own. -/
def after (errors : List Text) (o : Outcome) : Outcome := { o with errors := errors ++ o.errors }

/-- How a run ends whose settings cannot be used. -/
def ofFault : SettingsFault → Outcome
  | .absent => usage
  | .malformed => early (.exit 1) ["Failed to parse config: <yaml>".toList]
  | .notMapping => early (.exit 1) ["Configuration must be a mapping at the top level.".toList]
  | .badConstraint key word =>
    early (.exit 1) ["Invalid resolve.".toList ++ key ++ " '".toList ++ word ++
      "' in configuration.".toList]
  | .breakdown cause => early (.breakdown cause) []

end Outcome

/-! ## Commands -/

/-- What a command prints, and the error that ends it, if one does. -/
structure Printed where
  /-- The lines. -/
  lines : List Text
  /-- The error. -/
  error : Option Error

/-- The line of a resolved revision: its commit and its patch, or a dash. -/
def revisionLine (r : ResolvedRevision) : Text :=
  r.commit.id ++ ' ' :: (r.patch.map (·.text)).getD ['-']

/-- The lines of a boundary: one for a single revision, two for a range. -/
def boundaryLines : Boundary → List Text
  | .single r => [revisionLine r]
  | .ends first last => [revisionLine first, revisionLine last]

/-- The mark of a group in the listing of a stack. -/
def groupMark : Group → Char
  | .applied => '+'
  | .unapplied => '-'
  | .hidden => '!'

/-- `t` with spaces before it, so that it is at least `width` long. -/
def padLeft (width : Nat) (t : Text) : Text := List.replicate (width - t.length) ' ' ++ t

/-- The line of the patch at an index: the index, a mark, and the name. The topmost applied
patch has a mark of its own. -/
def patchLine (s : Stack) (index : Nat) (n : PatchName) (group : Group) : Text :=
  let mark := if (index : Int) = s.topIndex then '>' else groupMark group
  padLeft 3 (Text.ofInt index) ++ ' ' :: mark :: ' ' :: n.text

/-- The lines of a stack: its base, then its patches. -/
def stackLines (s : Stack) : Except Error (List Text) := do
  let patches ← s.patches.zipIdx.mapM fun (n, i) => patchLine s i n <$> s.groupAt i
  return ("base: ".toList ++ s.base) :: patches

/-- Reads all words; the first one that is not read is the error. -/
def readAll {α : Type} (read : Text → Reading α) (words : List Text) : Except Error (List α) :=
  (words.mapM read).mapError .ofReading

namespace Surroundings

variable (w : Surroundings)

/-- Needs a repository around the directory that the run starts from. -/
def needRepository (start : Path) : Run Session Unit := do
  let _ ← Run.ofExcept (w.tree.discover start)

/-- The stack of a branch, in the repository around the directory that the run starts from. -/
def stackOf (start : Path) (branch : Option Text) : Run Session Stack := do
  w.needRepository start
  w.git.stackOf branch

/-- Prints the patch at a locator. -/
def locate (start : Path) (locator : Text) (branch : Option Text) (c : LocationConstraint) :
    Run Session (List Text) := do
  let l ← Run.ofExcept ((Locator.ofText locator).mapError .ofReading)
  let s ← w.stackOf start branch
  let n ← Run.ofExcept (l.resolve s c)
  return [n.text]

/-- Prints the patches of ranges. -/
def range (start : Path) (ranges : List Text) (branch : Option Text) (c : RangeConstraint)
    (contiguous : Bool) : Run Session (List Text) := do
  let rs ← Run.ofExcept (readAll Range.ofText ranges)
  let s ← w.stackOf start branch
  let names ← Run.ofExcept (if contiguous then selectContiguous rs s c else selectAll rs s c)
  return names.map (·.text)

/-- Prints the lines of revisions up to the first one that cannot be resolved. -/
def revLines (c : RangeConstraint) : List RevisionSpec → Session → Printed × Session
  | [], session => (⟨[], none⟩, session)
  | spec :: rest, session =>
    match ((resolveSpec w.git.services spec none c).run.run session) with
    | (.ok b, session) =>
      let (printed, session) := revLines c rest session
      (⟨boundaryLines b ++ printed.lines, printed.error⟩, session)
    | (.error e, session) => (⟨[], some e⟩, session)

/-- Prints the commits of revisions. -/
def rev (start : Path) (specs : List Text) (c : RangeConstraint) : Printed × Session :=
  match readAll RevisionSpec.ofText specs with
  | .error e => (⟨[], some e⟩, .fresh)
  | .ok parsed =>
    match w.tree.discover start with
    | .error e => (⟨[], some e⟩, .fresh)
    | .ok _ => w.revLines c parsed .fresh

/-- Prints a whole stack. -/
def stack (start : Path) (branch : Option Text) : Run Session (List Text) := do
  let s ← w.stackOf start branch
  Run.ofExcept (stackLines s)

end Surroundings

/-- A computation that prints all of its lines or none. -/
def printAll (m : Run Session (List Text)) : Printed × Session :=
  match m.run.run .fresh with
  | (.ok lines, session) => (⟨lines, none⟩, session)
  | (.error e, session) => (⟨[], some e⟩, session)

/-- The outcome of a command that has printed. -/
def Printed.outcome (p : Printed × Session) : Outcome :=
  match p.1.error with
  | none => ⟨.exit 0, p.1.lines, [], p.2.calls⟩
  | some (.breakdown cause) => ⟨.breakdown cause, p.1.lines, [], p.2.calls⟩
  | some e => ⟨.exit 1, p.1.lines, ["error: ".toList ++ e.message.toList], p.2.calls⟩

/-- The option's constraint if it was given, else that of the settings. -/
def chosen {α : Type} (option : Option α) (setting : Except SettingsFault α) :
    Except SettingsFault α :=
  match option with
  | some c => .ok c
  | none => setting

/-- Runs a command with its options. -/
def Invocation.run (i : Invocation) (w : Surroundings) (start : Path) (s : Settings) : Outcome :=
  match i with
  | .locate locator branch c =>
    match chosen c s.constraint with
    | .error fault => .ofFault fault
    | .ok c => Printed.outcome (printAll (w.locate start locator branch c))
  | .range ranges branch c contiguous =>
    match chosen c s.rangeConstraint with
    | .error fault => .ofFault fault
    | .ok c => Printed.outcome (printAll (w.range start ranges branch c contiguous))
  | .rev specs c =>
    match chosen c s.rangeConstraint with
    | .error fault => .ofFault fault
    | .ok c => Printed.outcome (w.rev start specs c)
  | .stack branch => Printed.outcome (printAll (w.stack start branch))

/-- The warning about a level of logging that is not known. -/
def levelWarning (name : Option Text) : List Text :=
  match name with
  | some name => ["Unknown log level '".toList ++ name ++ "'; using WARNING.".toList]
  | none => []

/-- Runs a list of arguments. The options of all commands and the command come first, then the
settings and the level of logging, then the options of the command. -/
def runCommandLine (w : Surroundings) (arguments : List Text) : Outcome :=
  match GlobalOptions.ofArguments? arguments with
  | none => .usage
  | some (g, command, rest) =>
    match w.settings g with
    | .error fault => .ofFault fault
    | .ok s =>
      match s.level g.verbose with
      | .error fault => .ofFault fault
      | .ok (_, unknown) =>
        match Invocation.ofArguments? command rest with
        | none => .usage
        | some i => (i.run w (w.start g) s).after (levelWarning unknown)

end PatchStack
