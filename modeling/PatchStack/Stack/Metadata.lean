import PatchStack.Json.Reader
import PatchStack.Stack.Document

set_option autoImplicit false

/-!
# Stored stacks

With every branch that has a stack, a document is stored that lists its patches and records a
commit for each of them. It may record commits for other patches too, and two groups may list
one patch; the stack made from it drops the first and refuses the second.

## Main definitions

* `PatchStack.Json.integer` — the integer that a value gives, or what is wrong with it.
* `PatchStack.Metadata` — a stored document; every listed patch has a recorded commit.
* `PatchStack.Metadata.ofText` — the document that a text spells.
* `PatchStack.Metadata.firstCommit` — the commit of the bottommost applied patch.
* `PatchStack.Metadata.toStack` — the stack above a given base.
-/

namespace PatchStack

/-! ## Integers of a document

A document may give an integer as such, as a truth value, as a number without a fraction, or as
a text: with blanks around it, a sign, zeros and underscores in front, single underscores between
digits, or a point with zeros behind it. A minus sign may also stand behind the zeros in front. -/

namespace Json

/-- The white space of Unicode: the blanks without the four separators among the controls. -/
def isWhite (c : Char) : Bool := Text.isBlank c && !(0x1C ≤ c.toNat && c.toNat ≤ 0x1F)

/-- The sign in front of a text, of which a plus is dropped, and the text behind it. -/
def splitSign : Text → Text × Text
  | '+' :: rest => ([], rest)
  | '-' :: rest => (['-'], rest)
  | t => ([], t)

/-- What is left of the zeros and underscores before a nonzero digit, a minus sign or a point, of
which the last one before a point and the last one of all stay. -/
def afterZeros? (last : Char) : Text → Option Text
  | [] => some [last]
  | c :: rest =>
    if c = '0' ∨ c = '_' then afterZeros? c rest
    else if c.isDigit ∨ c = '-' then some (c :: rest)
    else if c = '.' then some (last :: c :: rest)
    else none

/-- The text without the zeros in front. It has to begin with a digit. -/
def withoutZeros? : Text → Option Text
  | [] => none
  | c :: rest =>
    if c = '0' then afterZeros? c rest
    else if c.isDigit then some (c :: rest)
    else none

/-- The text without a point that zeros, at least one and nothing else, follow. -/
def withoutPoint (t : Text) : Text :=
  match t.cut? '.' with
  | some (whole, fraction) =>
    if !fraction.isEmpty && fraction.all (· == '0') then whole else t
  | none => t

/-- The text without its underscores, if each of them is between two other characters. -/
def withoutUnderscores (t : Text) : Text :=
  if t.head? = some '_' ∨ t.getLast? = some '_' ∨ t.includes ['_', '_'] then t
  else t.filter (· != '_')

/-- The natural number that digits without needless zeros spell. -/
def plainNat? (t : Text) : Option Nat :=
  if t.isEmpty || !t.all Char.isDigit || (t.head? == some '0' && t != ['0']) then none
  else some (Text.digitsValue t)

/-- The integer that digits, with a minus sign or without, spell. -/
def plainInt? : Text → Option Int
  | '-' :: digits => (plainNat? digits).map fun n => -(n : Int)
  | digits => (plainNat? digits).map fun n => (n : Int)

/-- The integer that a text gives. -/
def integerOfText? (t : Text) : Option Int := do
  let (sign, unsigned) := splitSign (Text.trimBy isWhite t)
  let digits ← withoutZeros? unsigned
  plainInt? (sign ++ withoutUnderscores (withoutPoint digits))

/-- Numbers with a point are counted up to this size. -/
def integerLimit : Nat := 0x8000000000000000

/-- The integer that a value gives, or what is wrong with the value. -/
def integer : Json → Except IssueKind Int
  | int n => .ok n
  | bool b => .ok (if b then 1 else 0)
  | float x =>
    match x with
    | .finite .. =>
      match x.toInt? with
      | some n => if n.natAbs < integerLimit then .ok n else .error .tooLarge
      | none => .error .fraction
    | _ => .error .notFinite
  | text t =>
    match integerOfText? t with
    | some n => if Text.digitCount n ≤ digitLimit then .ok n else .error .tooLarge
    | none => .error .unreadableInteger
  | _ => .error .notInteger

end Json

/-! ## Stored documents -/

/-- The version of the format that is understood. -/
def supportedVersion : Int := 5

/-- How deep the containers of a document may be nested. -/
def documentDepth : Nat := 200

/-- The parts of a stored document. -/
structure MetadataParts where
  /-- The commit of the previous state, if there is one. -/
  prev : Option Text
  /-- The commit of the branch. -/
  head : Text
  /-- The applied patches, bottommost first. -/
  applied : List PatchName
  /-- The unapplied patches. -/
  unapplied : List PatchName
  /-- The hidden patches. -/
  hidden : List PatchName
  /-- The recorded commits. -/
  recorded : List (PatchName × Text)

/-- All listed patches in stack order. -/
def MetadataParts.listed (d : MetadataParts) : List PatchName :=
  d.applied ++ d.unapplied ++ d.hidden

/-- The commit recorded for a patch. -/
def MetadataParts.commitOf? (d : MetadataParts) (n : PatchName) : Option Text :=
  (d.recorded.find? fun entry => entry.1 == n).map (·.2)

/-- The listed patches without a recorded commit. -/
def MetadataParts.unrecorded (d : MetadataParts) : List PatchName :=
  d.listed.filter fun n => (d.commitOf? n).isNone

/-- A stored document in which every listed patch has a recorded commit. -/
structure Metadata extends MetadataParts where
  /-- Every listed patch has a recorded commit. -/
  complete : toMetadataParts.unrecorded = []

namespace Metadata

/-- The entries with one more; an entry for the same patch is replaced. -/
def record {α : Type} (entries : List (PatchName × α)) (entry : PatchName × α) :
    List (PatchName × α) :=
  if entries.any (·.1 == entry.1) then
    entries.map fun e => if e.1 == entry.1 then entry else e
  else entries ++ [entry]

/-- Reads the version. Only one is supported. -/
def readVersion : DocumentReader Unit := fun j =>
  match j.integer with
  | .error kind => .ok (.bad kind)
  | .ok n =>
    if n = supportedVersion then .ok (.ok ())
    else .ok (.bad (.rule ("unsupported stack metadata version " ++ (Text.ofInt n).str)))

/-- Reads a text that may be null. -/
def readNullable : DocumentReader (Option Text)
  | .null => .ok (.ok none)
  | j => (readText j).map (·.map some)

/-- Reads the record of a patch: its commit. Other fields do not matter. -/
def readCommit : DocumentReader Text
  | .record fields => readRequired readText fields "oid".toList
  | _ => .ok (.bad .notRecord)

/-- Reads the parts of a stored document. -/
def readParts (fields : List (Text × Json)) :
    Except DocumentFault (Checked MetadataParts) := do
  let version ← readRequired readVersion fields "version".toList
  let prev ← readOptional none readNullable fields "prev".toList
  let head ← readRequired readText fields "head".toList
  let applied ← readOptional [] (readNames .notList) fields "applied".toList
  let unapplied ← readOptional [] (readNames .notList) fields "unapplied".toList
  let hidden ← readOptional [] (readNames .notList) fields "hidden".toList
  let entries ← readOptional [] (readEntries readCommit) fields "patches".toList
  let recorded := entries.value.map fun es => es.foldl record []
  return {
    value := (fun _ => MetadataParts.mk) <$> version.value <*> prev.value <*> head.value <*>
      applied.value <*> unapplied.value <*> hidden.value <*> recorded
    issues := version.issues ++ prev.issues ++ head.issues ++ applied.issues ++
      unapplied.issues ++ hidden.issues ++ entries.issues }

/-- The report that listed patches have no recorded commit. -/
def unrecordedReport (names : List PatchName) : Report :=
  [⟨.rule ("no commit recorded for patch(es): " ++
    ", ".intercalate (names.map fun n => n.text.str)), []⟩]

/-- Checks that every listed patch has a recorded commit. -/
def ofParts (d : MetadataParts) : Except Report Metadata :=
  if h : d.unrecorded = [] then .ok { d with complete := h }
  else .error (unrecordedReport d.unrecorded)

/-- A stored document from its value. -/
def ofJson : Json → Except DocumentFault Metadata
  | .record fields => do
    let d ← (← readParts fields).finish
    match ofParts d with
    | .ok m => .ok m
    | .error report => .error (.issues report)
  | _ => .error (.issues [⟨.notRecord, []⟩])

/-- The stored document that a text spells. -/
def ofText (t : Text) : Except DocumentFault Metadata :=
  match Json.ofText? documentDepth digitLimit t with
  | some j => ofJson j
  | none => .error (.issues [⟨.unreadable, []⟩])

variable (m : Metadata)

/-- The commit recorded for the bottommost applied patch. -/
def firstCommit : Option Text := m.applied.head?.bind m.commitOf?

/-- The commit recorded for the topmost applied patch. -/
def lastCommit : Option Text := m.applied.getLast?.bind m.commitOf?

/-- The parts of the stack above `base`: the listed patches with their commits. -/
def toStackData (base : Text) : StackData where
  applied := m.applied
  unapplied := m.unapplied
  hidden := m.hidden
  base := base
  top := m.lastCommit.getD base
  commits := m.recorded.filter fun entry => m.listed.contains entry.1

/-- The stack above `base`. -/
def toStack (base : Text) : Except Report Stack :=
  match Stack.ofData (m.toStackData base) with
  | .ok s => .ok s
  | .error fault => .error (Stack.faultReport fault)

end Metadata

end PatchStack
