import PatchStack.Group
import PatchStack.Name
import PatchStack.Text.Numeral

set_option autoImplicit false

/-!
# Errors

Every way in which reading, resolving or consulting a repository can fail, as a cause with the
values it is about. The wording is in one place for each kind of cause: `SyntaxFault.message` for
what is wrong with a text, `Error.message` for all others. Asking a repository changes what has
been asked so far, and what was asked before a failure stays asked.

A computation can also break down where no error is foreseen: on a number with too many digits, on
a command that the system does not start, on a section of a configuration that is no record. A
breakdown passes through whatever handles errors.

## Main definitions

* `PatchStack.SyntaxFault`, `PatchStack.SyntaxError` — what can be wrong with a text that should
  spell an offset chain, a locator, a range or a revision.
* `PatchStack.ReadingFault` — why a text is not read: it is malformed, or breaks the reading down.
* `PatchStack.Issue`, `PatchStack.Report` — what is wrong with a document that describes a stack.
* `PatchStack.GitFault` — what can be wrong with a repository or with what is stored in it.
* `PatchStack.Breakdown` — what ends a computation for which there is no error.
* `PatchStack.Error` — every cause of failure, and `PatchStack.Error.message` the cause in words.
* `PatchStack.Run` — a computation over a state that can fail.
-/

namespace PatchStack

/-! ## Malformed text -/

/-- What is wrong with a malformed text. -/
inductive SyntaxFault where
  /-- There is no text at all where `what` was expected. -/
  | empty (what : String)
  /-- The text goes on after its end with `rest`. -/
  | unexpected (rest : Text)
  /-- A locator does not begin with an anchor. -/
  | noAnchor
  /-- The name that a locator begins with breaks a rule of naming. -/
  | name (fault : NameFault)
  /-- A range has more than one separator. -/
  | manySeparators
  /-- A range has no separator. -/
  | noSeparator
  /-- One of the two locators of a range, spelled `text`, is malformed itself. -/
  | bound (text : Text) (fault : SyntaxFault)
  /-- A range stands where a single revision was expected. -/
  | rangeNotAllowed
  /-- What follows a branch is no locator. -/
  | noLocatorAfter (branch : Text)
  deriving DecidableEq, Repr

/-- A text that should spell a `kind` and does not. -/
structure SyntaxError where
  /-- What was being read. -/
  kind : String
  /-- The whole text. -/
  text : Text
  /-- What is wrong with it. -/
  fault : SyntaxFault
  deriving DecidableEq, Repr

namespace SyntaxError

/-- The error in words, given what was being read, the text and the fault in words. -/
def phrase (kind : String) (text : Text) (reason : String) : String :=
  "invalid " ++ kind ++ " " ++ text.quoted ++ ": " ++ reason

end SyntaxError

/-- The fault in words. -/
def SyntaxFault.message : SyntaxFault → String
  | .empty what => "empty " ++ what
  | .unexpected rest => "unexpected " ++ rest.quoted
  | .noAnchor => "expected a patch name, `@`, `^` or " ++ baseToken.quoted
  | .name fault => fault.message
  | .manySeparators => "more than one `..`"
  | .noSeparator => "missing `..`"
  | .bound text fault => SyntaxError.phrase "patch locator" text fault.message
  | .rangeNotAllowed => "a range is not allowed here"
  | .noLocatorAfter branch => "expected a patch locator after " ++ (branch ++ [':']).quoted

/-- The error in words. -/
def SyntaxError.message (e : SyntaxError) : String := phrase e.kind e.text e.fault.message

/-- Why a text is not read. -/
inductive ReadingFault (ε : Type) where
  /-- It is malformed. -/
  | malformed (error : ε)
  /-- A number in it is too long. There is no error for this. -/
  | numeral (fault : NumeralFault)
  deriving DecidableEq, Repr

/-- What reading a text results in. -/
abbrev Reading (α : Type) := Except (ReadingFault SyntaxError) α

/-! ## Issues with a document -/

/-- What is wrong at one place of a document. -/
inductive IssueKind where
  /-- A required field is absent. -/
  | missing
  /-- The value is no record. -/
  | notRecord
  /-- The value is no fixed sequence. -/
  | notSequence
  /-- The value is no list. -/
  | notList
  /-- The value is no mapping. -/
  | notMapping
  /-- The value is no text. -/
  | notText
  /-- The value is no integer. -/
  | notInteger
  /-- The text spells no integer. -/
  | unreadableInteger
  /-- The number has a fraction. -/
  | fraction
  /-- The number is infinite or none at all. -/
  | notFinite
  /-- The number is too large to be counted. -/
  | tooLarge
  /-- The document is no JSON. -/
  | unreadable
  /-- The field is not known. -/
  | unknownField
  /-- A rule over the whole value is broken. -/
  | rule (text : String)
  deriving DecidableEq, Repr

/-- The code by which reports name the kind. -/
def IssueKind.code : IssueKind → String
  | .missing => "missing"
  | .notRecord => "model_type"
  | .notSequence => "tuple_type"
  | .notList => "list_type"
  | .notMapping => "dict_type"
  | .notText => "string_type"
  | .notInteger => "int_type"
  | .unreadableInteger => "int_parsing"
  | .fraction => "int_from_float"
  | .notFinite => "finite_number"
  | .tooLarge => "int_parsing_size"
  | .unreadable => "json_invalid"
  | .unknownField => "extra_forbidden"
  | .rule _ => "value_error"

/-- One step of the way to a place in a document. -/
inductive PathStep where
  /-- The value of a field. -/
  | key (name : Text)
  /-- The item at a position of a list. -/
  | index (position : Nat)
  deriving DecidableEq, Repr

/-- One thing wrong with a document, and where. -/
structure Issue where
  /-- What is wrong. -/
  kind : IssueKind
  /-- The way from the document to the place. -/
  place : List PathStep
  deriving DecidableEq, Repr

/-- Everything that is wrong with a document. -/
abbrev Report := List Issue

/-! ## Causes of failure -/

/-- What can be wrong with a stored stack document. -/
inductive DocumentFault where
  /-- The document has issues. -/
  | issues (report : Report)
  /-- A name in it breaks a rule of naming. -/
  | name (raw : Text) (fault : NameFault)
  deriving DecidableEq, Repr

/-- What can be wrong with a repository or with what is stored in it. -/
inductive GitFault where
  /-- The directory holds no repository. -/
  | notRepository (directory : Text)
  /-- Neither the directory nor one above it holds a repository. -/
  | noRepository (directory : Text)
  /-- A command that has to succeed failed. -/
  | commandFailed (arguments : List Text) (reason : Text)
  /-- The stored stack document cannot be read. -/
  | invalidMetadata (branch : Text) (fault : DocumentFault)
  /-- The stored stack document contradicts itself. -/
  | inconsistentMetadata (branch : Text) (report : Report)
  deriving DecidableEq, Repr

/-- Why offsets lead to no patch. -/
inductive OffsetFault where
  /-- The base is no patch and the offsets do not lead upwards from it. -/
  | baseWithoutOffset
  /-- The locator leads to the base. -/
  | reachesBase
  deriving DecidableEq, Repr

/-- Why the system does not start a command. -/
inductive LaunchFault where
  /-- An argument holds the character that ends arguments. -/
  | zero
  /-- An argument is too long. -/
  | tooLong
  deriving DecidableEq, Repr

/-- What ends a computation for which there is no error. -/
inductive Breakdown where
  /-- A number is not read or not written. -/
  | numeral (fault : NumeralFault)
  /-- A command is not started. -/
  | launch (fault : LaunchFault)
  /-- A failure is looked into for which the stack is needed that was never found. -/
  | missingStack
  /-- A section of a configuration is no record. -/
  | badSection
  deriving DecidableEq, Repr

/-- Every cause of failure. -/
inductive Error where
  /-- A text is no patch name. -/
  | invalidName (raw : Text) (fault : NameFault)
  /-- A text is malformed. -/
  | malformed (error : SyntaxError)
  /-- No patch has this name; `similar` are names it may be a misspelling of. -/
  | unknownPatch (name : Text) (similar : List Text)
  /-- The offsets of a locator lead to no patch. -/
  | invalidOffset (locator : Text) (fault : OffsetFault)
  /-- A locator leads outside of the stack. -/
  | outOfRange (locator : Text) (index : Int) (total : Nat)
  /-- A patch is in a group that the constraint does not allow. -/
  | constraintViolation (patch : Text) (group : Group) (allowed : List Group)
  /-- The begin of a range comes after its end. -/
  | invertedRange (start stop : Text)
  /-- A range selects no patch where one is needed. -/
  | emptyRange (range : Text)
  /-- Several ranges select the same patch. -/
  | duplicatePatch (patch : Text)
  /-- A selection has a gap between two neighbours. -/
  | nonContiguous (before after : Text)
  /-- A branch or its stack cannot be found. -/
  | unknownBranch (branch : Option Text) (reason : Option Text)
  /-- A revision names no commit. -/
  | unknownCommit (revision : Text)
  /-- Several commits share this prefix of their ids. -/
  | ambiguousPrefix (start : Text) (candidates : List Text)
  /-- The repository cannot be used. -/
  | git (fault : GitFault)
  /-- A stack was asked for the position of a name it does not hold. -/
  | notInStack (name : Text)
  /-- A stack was asked for what is at a position outside of it. -/
  | noSuchIndex (index : Int)
  /-- The computation broke down. -/
  | breakdown (cause : Breakdown)
  deriving DecidableEq, Repr

namespace Error

/-- The failure of a computation that needs a text to be read. -/
def ofReading : ReadingFault SyntaxError → Error
  | .malformed error => .malformed error
  | .numeral fault => .breakdown (.numeral fault)

/-- The failure of a computation that needs a number to be read or written. -/
def ofNumeral (fault : NumeralFault) : Error := .breakdown (.numeral fault)

/-- The failure for an index outside of a stack. The index is a part of the error, so that there is
none for an index that cannot be written. -/
def outside (locator : Text) (index : Int) (total : Nat) : Error :=
  match Text.writeInt index with
  | .ok _ => .outOfRange locator index total
  | .error fault => ofNumeral fault

end Error

/-- What stands for the issues of a document in a one-line message. -/
def reportPlaceholder : String := "<validation>"

/-- The fault of a name in words, with the name. -/
def invalidNameMessage (raw : Text) (fault : NameFault) : String :=
  "invalid patch name " ++ raw.quoted ++ ": " ++ fault.message

/-- The fault of a document in words. -/
def DocumentFault.message : DocumentFault → String
  | .issues _ => reportPlaceholder
  | .name raw fault => invalidNameMessage raw fault

/-- The fault of a repository in words. -/
def GitFault.message : GitFault → String
  | .notRepository directory => "Not a git repository: " ++ directory.str
  | .noRepository directory => "Unable to locate a git repository from " ++ directory.str
  | .commandFailed arguments reason =>
    "git " ++ (Text.join [' '] arguments).str ++ " failed: " ++ reason.str
  | .invalidMetadata branch fault =>
    "Invalid stack metadata for branch " ++ branch.str ++ ": " ++ fault.message
  | .inconsistentMetadata branch _ =>
    "Inconsistent stack metadata for branch " ++ branch.str ++ ": " ++ reportPlaceholder

/-- The fault of offsets in words. -/
def OffsetFault.message : OffsetFault → String
  | .baseWithoutOffset => "the stack base is not a patch; a positive offset is required"
  | .reachesBase => "resolves to the stack base, which is not a patch"

/-- The breakdown in words. -/
def Breakdown.message : Breakdown → String
  | .numeral fault => fault.message
  | .launch .zero => "an argument of a command holds a zero character"
  | .launch .tooLong => "an argument of a command is too long"
  | .missingStack => "there is no stack to look into"
  | .badSection => "a section of the configuration is no mapping"

/-- What a patch was expected to be, in words. -/
def expectedGroups (allowed : List Group) : String :=
  if allowed.isEmpty then "nothing" else " or ".intercalate (allowed.map Group.word)

/-- The cause of failure in words. -/
def Error.message : Error → String
  | .invalidName raw fault => invalidNameMessage raw fault
  | .malformed error => error.message
  | .unknownPatch name similar =>
    "patch " ++ name.quoted ++ " does not exist" ++
      if similar.isEmpty then ""
      else "; did you mean " ++ ", ".intercalate (similar.map Text.quoted) ++ "?"
  | .invalidOffset locator fault =>
    "invalid offset for " ++ locator.quoted ++ ": " ++ fault.message
  | .outOfRange locator index total =>
    locator.quoted ++ " resolves to index " ++ toString index ++ ", outside of a stack of " ++
      toString total ++ " patch(es)"
  | .constraintViolation patch group allowed =>
    "patch " ++ patch.quoted ++ " is " ++ group.word ++ ", expected " ++ expectedGroups allowed
  | .invertedRange start stop =>
    "patch range " ++ (start ++ ['.', '.'] ++ stop).quoted ++ " is inverted: " ++
      start.quoted ++ " comes after " ++ stop.quoted
  | .emptyRange range => "patch range " ++ range.quoted ++ " selects no patches"
  | .duplicatePatch patch => "patch " ++ patch.quoted ++ " appears more than once"
  | .nonContiguous before after =>
    "patches " ++ before.quoted ++ " and " ++ after.quoted ++ " are not contiguous"
  | .unknownBranch branch reason =>
    let label := branch.getD ['<', 'c', 'u', 'r', 'r', 'e', 'n', 't', '>']
    "branch " ++ label.quoted ++ " not found" ++
      match reason with
      | some why => if why.isEmpty then "" else ": " ++ why.str
      | none => ""
  | .unknownCommit revision => "revision " ++ revision.quoted ++ " not found"
  | .ambiguousPrefix start _ => "commit id prefix " ++ start.quoted ++ " is ambiguous"
  | .git fault => fault.message
  | .notInStack name => name.str
  | .noSuchIndex index => toString index
  | .breakdown cause => cause.message

/-! ## Computations that can fail -/

section MapError

variable {ε ε' α β : Type} {x : Except ε α} {f : ε → ε'}

/-- Renaming the causes of failure leaves a value. -/
@[simp]
theorem mapError_ok (a : α) : (Except.ok a).mapError f = .ok a := rfl

/-- It renames a cause of failure. -/
@[simp]
theorem mapError_error (e : ε) : (Except.error e : Except ε α).mapError f = .error (f e) := rfl

/-- What succeeds with renamed causes of failure succeeds without. -/
theorem mapError_eq_ok_iff {a : α} : x.mapError f = .ok a ↔ x = .ok a := by
  cases x <;> simp

/-- What succeeds may be changed before or after that. -/
theorem mapError_map {g : α → β} :
    (x.map g).mapError f = (x.mapError f).map g := by
  cases x <;> rfl

/-- A renamed failure comes from a failure. -/
theorem mapError_eq_error_iff {e : ε'} :
    x.mapError f = .error e ↔ ∃ e', x = .error e' ∧ f e' = e := by
  cases x <;> simp

end MapError

/-- A computation over a state that can fail; the state survives the failure. -/
abbrev Run (σ α : Type) := ExceptT Error (StateM σ) α

namespace Run

variable {σ τ α : Type}

/-- The computation that leaves the state alone and ends as `e` says. -/
def ofExcept (e : Except Error α) : Run σ α := ExceptT.mk (pure e)

/-- The outcome of a computation as a value, so that it can be looked at. -/
def outcome (m : Run σ α) : Run σ (Except Error α) := ExceptT.mk do return .ok (← m.run)

/-- A computation over the part `get` of a larger state, put back by `set`. -/
def zoom (get : σ → τ) (set : τ → σ → σ) (m : Run τ α) : Run σ α :=
  ExceptT.mk fun s => ((m.run.run (get s)).1, set (m.run.run (get s)).2 s)

end Run

end PatchStack
