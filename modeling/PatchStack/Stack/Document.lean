import PatchStack.Json.Basic
import PatchStack.Stack.Basic

set_option autoImplicit false

/-!
# Stacks in documents

A stack is read from a record of its parts. All fields are checked in a fixed order and
everything that is wrong with their types is reported; only a text that is no patch name ends
the reading at once. Whether the parts fit together is asked last, of parts without an issue.

## Main definitions

* `PatchStack.Checked` — what was read, with the issues met on the way.
* `PatchStack.DocumentReader` — reading of a value; its basic instances `readText`, `readName`,
  `readNames` and `readEntries`.
* `PatchStack.Stack.ofJson` — a stack from its document.
-/

namespace PatchStack

/-- What was read of a document, and the issues met on the way. There is no value where there
was an issue. -/
structure Checked (α : Type) where
  /-- The value. -/
  value : Option α
  /-- What is wrong. -/
  issues : Report

namespace Checked

variable {α β : Type}

/-- A value without issues. -/
def ok (a : α) : Checked α := ⟨some a, []⟩

/-- No value, for the one reason given. -/
def bad (kind : IssueKind) : Checked α := ⟨none, [⟨kind, []⟩]⟩

/-- What was read one step further down in the document. -/
def under (step : PathStep) (c : Checked α) : Checked α :=
  ⟨c.value, c.issues.map fun i => ⟨i.kind, step :: i.place⟩⟩

/-- What was read, with `f` applied to the value. -/
def map (f : α → β) (c : Checked α) : Checked β := ⟨c.value.map f, c.issues⟩

/-- Two things read one after the other. -/
def pair (a : Checked α) (b : Checked β) : Checked (α × β) :=
  ⟨a.value.bind fun x => b.value.map fun y => (x, y), a.issues ++ b.issues⟩

/-- Several things read one after the other. -/
def all : List (Checked α) → Checked (List α)
  | [] => ok []
  | c :: rest => (c.pair (all rest)).map fun p => p.1 :: p.2

/-- The value if there are no issues, else the report of them. -/
def finish (c : Checked α) : Except DocumentFault α :=
  match c.issues, c.value with
  | [], some a => .ok a
  | report, _ => .error (.issues report)

end Checked

/-- Reading of a value. A text that is no patch name ends it. -/
abbrev DocumentReader (α : Type) := Json → Except DocumentFault (Checked α)

variable {α : Type}

/-- Reads a text. -/
def readText : DocumentReader Text
  | .text t => .ok (.ok t)
  | _ => .ok (.bad .notText)

/-- Reads a patch name. -/
def readName : DocumentReader PatchName
  | .text raw =>
    match PatchName.ofText raw with
    | .ok n => .ok (.ok n)
    | .error fault => .error (.name raw fault)
  | _ => .ok (.bad .notText)

/-- Reads the items of a list that begin at a position. -/
def readItems (read : DocumentReader α) (position : Nat) :
    List Json → Except DocumentFault (List (Checked α))
  | [] => .ok []
  | item :: rest => do
    let c ← read item
    let cs ← readItems read (position + 1) rest
    return c.under (.index position) :: cs

/-- Reads a list of patch names; `kind` is reported of a value that is no list. -/
def readNames (kind : IssueKind) : DocumentReader (List PatchName)
  | .list items => return .all (← readItems readName 0 items)
  | _ => .ok (.bad kind)

/-- Reads the fields of a mapping whose keys are patch names. The key of an entry is read before
its value. -/
def readFields (read : DocumentReader α) :
    List (Text × Json) → Except DocumentFault (List (Checked (PatchName × α)))
  | [] => .ok []
  | (key, j) :: rest => do
    let n ← readName (.text key)
    let c ← read j
    let cs ← readFields read rest
    return (n.pair (c.under (.key key))) :: cs

/-- Reads a mapping whose keys are patch names. -/
def readEntries (read : DocumentReader α) : DocumentReader (List (PatchName × α))
  | .record fields => return .all (← readFields read fields)
  | _ => .ok (.bad .notMapping)

/-- Reads a field that has to be there. -/
def readRequired (read : DocumentReader α) (fields : List (Text × Json)) (key : Text) :
    Except DocumentFault (Checked α) :=
  match Json.lookup fields key with
  | some j => (read j).map (·.under (.key key))
  | none => .ok (Checked.under (.key key) (.bad .missing))

/-- Reads a field that may be absent. -/
def readOptional (absent : α) (read : DocumentReader α) (fields : List (Text × Json))
    (key : Text) : Except DocumentFault (Checked α) :=
  match Json.lookup fields key with
  | some j => (read j).map (·.under (.key key))
  | none => .ok (.ok absent)

namespace Stack

/-- The fields of a stack's document. -/
def fieldNames : List Text :=
  ["applied".toList, "unapplied".toList, "hidden".toList, "base".toList, "top".toList,
    "patch_commits".toList]

/-- The issues with fields that a stack's document does not have. -/
def unknownFields (fields : List (Text × Json)) : Report :=
  (fields.filter fun f => !fieldNames.contains f.1).map fun f => ⟨.unknownField, [.key f.1]⟩

/-- Reads the parts of a stack. -/
def readData (fields : List (Text × Json)) : Except DocumentFault (Checked StackData) := do
  let applied ← readOptional [] (readNames .notSequence) fields "applied".toList
  let unapplied ← readOptional [] (readNames .notSequence) fields "unapplied".toList
  let hidden ← readOptional [] (readNames .notSequence) fields "hidden".toList
  let base ← readRequired readText fields "base".toList
  let top ← readRequired readText fields "top".toList
  let commits ← readOptional [] (readEntries readText) fields "patch_commits".toList
  return {
    value := StackData.mk <$> applied.value <*> unapplied.value <*> hidden.value <*>
      base.value <*> top.value <*> commits.value
    issues := applied.issues ++ unapplied.issues ++ hidden.issues ++ base.issues ++
      top.issues ++ commits.issues ++ unknownFields fields }

/-- The report that the parts of a stack do not fit together. -/
def faultReport (fault : StackFault) : Report := [⟨.rule fault.message, []⟩]

/-- A stack from its document. -/
def ofJson : Json → Except DocumentFault Stack
  | .record fields => do
    let d ← (← readData fields).finish
    match ofData d with
    | .ok s => .ok s
    | .error fault => .error (.issues (faultReport fault))
  | _ => .error (.issues [⟨.notRecord, []⟩])

end Stack

end PatchStack
