import PatchStack.Error
import PatchStack.Repetition

set_option autoImplicit false

/-!
# Stacks

A stack is a view of a branch at one point in time: its patches in three groups, the commit
below the bottommost applied patch, the commit of the topmost one, and the commits recorded
for its patches. No patch occurs twice, and commits are recorded for patches of the stack
only; a value of type `Stack` carries the proof of both.

## Main definitions

* `PatchStack.StackData` — the parts of a stack, unchecked.
* `PatchStack.Stack` — a stack whose parts fit together.
* `PatchStack.Stack.ofData` — checks the parts.
* `PatchStack.Stack.indexOf`, `PatchStack.Stack.patchAt`, `PatchStack.Stack.groupAt`,
  `PatchStack.Stack.groupOf`, `PatchStack.Stack.commitOf` — what a stack can be asked.
-/

namespace PatchStack

/-- The parts of a stack, unchecked. -/
structure StackData where
  /-- The applied patches, bottommost first. -/
  applied : List PatchName
  /-- The unapplied patches. -/
  unapplied : List PatchName
  /-- The hidden patches. -/
  hidden : List PatchName
  /-- The commit below the bottommost applied patch. -/
  base : Text
  /-- The commit of the topmost applied patch. -/
  top : Text
  /-- The commits recorded for patches. -/
  commits : List (PatchName × Text)

/-- All patches in stack order: applied, then unapplied, then hidden. -/
def StackData.patches (d : StackData) : List PatchName := d.applied ++ d.unapplied ++ d.hidden

/-- How the parts of a stack can fail to fit together. -/
inductive StackFault where
  /-- A patch occurs twice. -/
  | repeated (patch : PatchName)
  /-- Commits are recorded for names outside of the stack, here in code point order. -/
  | unlisted (names : List Text)
  deriving DecidableEq

/-- The fault in words. -/
def StackFault.message : StackFault → String
  | .repeated patch => "patch " ++ patch.text.quoted ++ " appears more than once in the stack"
  | .unlisted names =>
    "commit recorded for unknown patch(es): " ++ ", ".intercalate (names.map Text.str)

/-- A stack whose parts fit together. -/
structure Stack extends StackData where
  /-- No patch occurs twice. -/
  nodup : toStackData.patches.Nodup
  /-- Commits are recorded for patches of the stack only. -/
  commits_listed : ∀ entry ∈ toStackData.commits, entry.1 ∈ toStackData.patches

/-- The names outside of the stack for which commits are recorded, in code point order. -/
def StackData.unlisted (d : StackData) : List Text :=
  ((d.commits.filter fun entry => entry.1 ∉ d.patches).map fun entry => entry.1.text).mergeSort
    Text.precedes

namespace Stack

/-- Checks that the parts of a stack fit together. A repeated patch is found before a commit
for a name outside of the stack. -/
def ofData (d : StackData) : Except StackFault Stack :=
  match h : firstRepeat? d.patches with
  | some patch => .error (.repeated patch)
  | none =>
    if hc : ∀ entry ∈ d.commits, entry.1 ∈ d.patches then
      .ok { d with nodup := firstRepeat?_eq_none_iff.1 h, commits_listed := hc }
    else .error (.unlisted d.unlisted)

variable (s : Stack)

/-- The patches that are listed by default: the applied and the unapplied ones. -/
def visible : List PatchName := s.applied ++ s.unapplied

/-- The number of patches. -/
def total : Nat := s.applied.length + s.unapplied.length + s.hidden.length

/-- The index of the topmost applied patch: minus one, the index of the base, without any. -/
def topIndex : Int := (s.applied.length : Int) - 1

/-- The patches of one group. -/
def patchesIn : Group → List PatchName
  | .applied => s.applied
  | .unapplied => s.unapplied
  | .hidden => s.hidden

/-- The patch of this name. -/
def find? (name : Text) : Option PatchName := s.patches.find? fun n => n.text == name

/-- Does the stack hold a patch of this name? -/
def contains (name : Text) : Bool :=
  s.applied.any (·.text == name) || s.unapplied.any (·.text == name) ||
    s.hidden.any (·.text == name)

/-- The index of the patch of this name. -/
def indexOf (name : Text) : Except Error Nat :=
  match s.patches.findIdx? fun n => n.text == name with
  | some i => .ok i
  | none => .error (.notInStack name)

/-- The patch at an index. -/
def patchAt (i : Int) : Except Error PatchName :=
  if i < 0 then .error (.noSuchIndex i)
  else match s.patches[i.toNat]? with
    | some n => .ok n
    | none => .error (.noSuchIndex i)

/-- The group of the patch at an index, by the lengths of the groups. -/
def groupAt (i : Int) : Except Error Group :=
  if i < 0 ∨ (s.total : Int) ≤ i then .error (.noSuchIndex i)
  else if i < s.applied.length then .ok .applied
  else if i < s.applied.length + s.unapplied.length then .ok .unapplied
  else .ok .hidden

/-- The group of the patch of this name. -/
def groupOf (name : Text) : Except Error Group := do
  s.groupAt (← s.indexOf name)

/-- The commit recorded for a name. -/
def commitOf (name : Text) : Option Text :=
  (s.commits.find? fun entry => entry.1.text == name).map (·.2)

end Stack

end PatchStack
