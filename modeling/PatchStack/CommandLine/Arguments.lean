import PatchStack.Group
import PatchStack.Text.Basic

set_option autoImplicit false

/-!
# Arguments of the command line

Arguments are options and words. An option takes the next argument as its value, whatever that
is, or what is attached to it; options of one letter can be written together; two dashes end
the options. Before the command stand the options that all commands have, behind it those of
the command, in between its words. There is no option that asks for help.

## Main definitions

* `PatchStack.OptionName` — the options, with the way they are written.
* `PatchStack.readArguments?` — options and words of a list of arguments.
* `PatchStack.Invocation` — a command with its options and words.
* `PatchStack.GlobalOptions.ofArguments?`, `PatchStack.Invocation.ofArguments?` — reading.
-/

namespace PatchStack

/-- The options. -/
inductive OptionName where
  /-- The directory to start from. -/
  | repo
  /-- The configuration file. -/
  | config
  /-- Debug logging. -/
  | verbose
  /-- The branch whose stack is meant. -/
  | branch
  /-- The groups that patches may belong to. -/
  | constraint
  /-- No gaps in a selection. -/
  | contiguous
  deriving DecidableEq, Repr

namespace OptionName

/-- The long form of an option, after two dashes. -/
def long : OptionName → Text
  | .repo => "repo".toList
  | .config => "config".toList
  | .verbose => "verbose".toList
  | .branch => "branch".toList
  | .constraint => "constraint".toList
  | .contiguous => "contiguous".toList

/-- The short form of an option, after one dash. -/
def short? : OptionName → Option Char
  | .repo => some 'C'
  | .config => some 'c'
  | .verbose => some 'v'
  | .branch => some 'b'
  | .constraint | .contiguous => none

/-- Does the option take a value? -/
def takesValue : OptionName → Bool
  | .verbose | .contiguous => false
  | _ => true

end OptionName

/-- An option as it was given, with its value if it takes one. -/
structure GivenOption where
  /-- The option. -/
  name : OptionName
  /-- Its value, empty for one that takes none. -/
  value : Text

/-- The options that an argument gives, and the arguments after it. -/
abbrev OptionReader := Option (List GivenOption × List Text)

/-- The value of an option: what is attached to it, or else the next argument. -/
def optionValue? (attached : Option Text) (rest : List Text) : Option (Text × List Text) :=
  match attached, rest with
  | some value, _ => some (value, rest)
  | none, value :: rest => some (value, rest)
  | none, [] => none

/-- Reads an option in its long form. -/
def readLong? (known : List OptionName) (t : Text) (rest : List Text) : OptionReader :=
  let (spelling, attached) := match t.cut? '=' with
    | some (before, after) => (before, some after)
    | none => (t, none)
  match known.find? fun o => o.long == spelling with
  | none => none
  | some o =>
    if o.takesValue then do
      let (value, rest) ← optionValue? attached rest
      return ([⟨o, value⟩], rest)
    else if attached.isSome then none
    else some ([⟨o, []⟩], rest)

/-- Reads options of one letter that are written together. The first one that takes a value
takes what is left of the letters. -/
def readShort? (known : List OptionName) : Text → List Text → OptionReader
  | [], rest => some ([], rest)
  | c :: letters, rest =>
    match known.find? fun o => o.short? == some c with
    | none => none
    | some o =>
      if o.takesValue then do
        let attached := if letters.isEmpty then none else some letters
        let (value, rest) ← optionValue? attached rest
        return ([⟨o, value⟩], rest)
      else do
        let (others, rest) ← readShort? known letters rest
        return (⟨o, []⟩ :: others, rest)

/-- Reads the options that one argument gives, if it gives any. -/
def readOption? (known : List OptionName) (argument : Text) (rest : List Text) :
    Option OptionReader :=
  match argument with
  | '-' :: '-' :: t => some (readLong? known t rest)
  | '-' :: c :: t => some (readShort? known (c :: t) rest)
  | _ => none

/-- What a list of arguments gives. -/
structure Arguments where
  /-- The options. -/
  options : List GivenOption
  /-- The words. -/
  words : List Text

/-- Reads options and words. Unless they may be `mixed`, the first word ends the options. Each
round takes an argument at least. -/
def readArgumentsIn? (known : List OptionName) (mixed : Bool) :
    Nat → List Text → Option Arguments
  | _, [] => some ⟨[], []⟩
  | 0, _ => none
  | rounds + 1, argument :: rest =>
    if argument = ['-', '-'] then some ⟨[], rest⟩
    else match readOption? known argument rest with
      | some reader => do
        let (options, rest) ← reader
        let others ← readArgumentsIn? known mixed rounds rest
        return ⟨options ++ others.options, others.words⟩
      | none =>
        if mixed then do
          let others ← readArgumentsIn? known mixed rounds rest
          return ⟨others.options, argument :: others.words⟩
        else some ⟨[], argument :: rest⟩

/-- Reads options and words. -/
def readArguments? (known : List OptionName) (mixed : Bool) (arguments : List Text) :
    Option Arguments := readArgumentsIn? known mixed arguments.length arguments

namespace Arguments

variable (a : Arguments)

/-- The value of an option: the last one counts. -/
def value? (o : OptionName) : Option Text :=
  (a.options.reverse.find? fun given => given.name == o).map (·.value)

/-- Was the option given? -/
def has (o : OptionName) : Bool := a.options.any fun given => given.name == o

end Arguments

/-! ## Commands -/

/-- The options that all commands have. -/
structure GlobalOptions where
  /-- The directory to start from. -/
  repo : Option Text
  /-- The configuration file. -/
  config : Option Text
  /-- Debug logging. -/
  verbose : Bool

/-- The commands. -/
inductive CommandName where
  /-- The patch at a locator. -/
  | locate
  /-- The patches of ranges. -/
  | range
  /-- The commits of revisions. -/
  | rev
  /-- The whole stack. -/
  | stack
  deriving DecidableEq, Repr

namespace CommandName

/-- Every command. -/
def inOrder : List CommandName := [.locate, .range, .rev, .stack]

/-- The word for a command. -/
def word : CommandName → Text
  | .locate => "locate".toList
  | .range => "range".toList
  | .rev => "rev".toList
  | .stack => "stack".toList

/-- The command that a word names. -/
def ofWord? (w : Text) : Option CommandName := inOrder.find? fun c => c.word == w

/-- The options of a command. -/
def options : CommandName → List OptionName
  | .locate => [.branch, .constraint]
  | .range => [.branch, .constraint, .contiguous]
  | .rev => [.constraint]
  | .stack => [.branch]

end CommandName

/-- A command with its options and words. -/
inductive Invocation where
  /-- The patch at a locator. -/
  | locate (locator : Text) (branch : Option Text) (constraint : Option LocationConstraint)
  /-- The patches of ranges. -/
  | range (ranges : List Text) (branch : Option Text) (constraint : Option RangeConstraint)
    (contiguous : Bool)
  /-- The commits of revisions. -/
  | rev (specs : List Text) (constraint : Option RangeConstraint)
  /-- The whole stack. -/
  | stack (branch : Option Text)

/-- Reads the options before the command, the command, and the arguments after it. -/
def GlobalOptions.ofArguments? (arguments : List Text) :
    Option (GlobalOptions × CommandName × List Text) := do
  let a ← readArguments? [.repo, .config, .verbose] false arguments
  match a.words with
  | [] => none
  | w :: rest =>
    let command ← CommandName.ofWord? w
    return (⟨a.value? .repo, a.value? .config, a.has .verbose⟩, command, rest)

/-- The constraint that an option gives: none without the option, nothing for a bad one. -/
def constraintOption? {α : Type} (ofWord? : String → Option α) (value : Option Text) :
    Option (Option α) :=
  match value with
  | none => some none
  | some w => (ofWord? w.str).map some

/-- Reads the arguments after a command. -/
def Invocation.ofArguments? (command : CommandName) (arguments : List Text) :
    Option Invocation := do
  let a ← readArguments? command.options true arguments
  match command, a.words with
  | .locate, [locator] =>
    let c ← constraintOption? LocationConstraint.ofWord? (a.value? .constraint)
    return .locate locator (a.value? .branch) c
  | .range, ranges@(_ :: _) =>
    let c ← constraintOption? RangeConstraint.ofWord? (a.value? .constraint)
    return .range ranges (a.value? .branch) c (a.has .contiguous)
  | .rev, specs@(_ :: _) =>
    let c ← constraintOption? RangeConstraint.ofWord? (a.value? .constraint)
    return .rev specs c
  | .stack, [] => return .stack (a.value? .branch)
  | _, _ => none

end PatchStack
