import PatchStack.Locator.Position

set_option autoImplicit false

/-!
# Ranges

A range is a single locator, or two bounds around `..` of which either may be missing. Both
bounds belong to the range.

A range selects the patches from its begin to its end. Every one of them has to be in a group
that the constraint allows. A missing begin is the first allowed patch of the stack; a missing
end is the last allowed one, or the last applied patch if the constraint stops open ranges
there and the range begins with an applied patch.

## Main definitions

* `PatchStack.Bounds`, `PatchStack.Range` — the two optional bounds; a single locator or bounds.
* `PatchStack.splitRange`, `PatchStack.Bounds.ofText`, `PatchStack.Range.ofText` — reading.
* `PatchStack.Bounds.text`, `PatchStack.Range.text` — spelling.
* `PatchStack.Bounds.startIndex`, `PatchStack.Bounds.stopIndex` — where bounds begin and end.
* `PatchStack.Range.select` — the patches of one range.
* `PatchStack.selectAll` — the patches of several ranges, none of them twice.
* `PatchStack.selectContiguous` — the same in stack order, without a gap.
-/

namespace PatchStack

/-! ## Bounds and ranges -/

/-- The text between the bounds of a range. -/
def rangeSeparator : Text := ['.', '.']

/-- The bounds of a range, both of which belong to it. -/
structure Bounds where
  /-- Where the range begins; without it, at the first patch that is allowed. -/
  start : Option Locator
  /-- Where the range ends; without it, where the constraint says. -/
  stop : Option Locator
  deriving DecidableEq

/-- The spelling of bounds. -/
def Bounds.text (b : Bounds) : Text :=
  (b.start.map Locator.text).getD [] ++ rangeSeparator ++ (b.stop.map Locator.text).getD []

/-- A single locator or bounds. -/
inductive Range where
  /-- The one patch that a locator leads to. -/
  | single (l : Locator)
  /-- The patches from one bound to the other. -/
  | between (b : Bounds)
  deriving DecidableEq

/-- The spelling of a range. -/
def Range.text : Range → Text
  | .single l => l.text
  | .between b => b.text

/-- What a range is called in errors. -/
def rangeKind : String := "patch range"

/-- The texts on both sides of the separator, if there is one; a second one is an error. -/
def splitRange (t : Text) : Reading (Option (Text × Text)) :=
  match t.cutDots? with
  | none => .ok none
  | some (before, after) =>
    if after.cutDots?.isSome then .error (.malformed ⟨rangeKind, t, .manySeparators⟩)
    else .ok (some (before, after))

/-- Reads one bound of the range `whole`; an empty text is a missing bound. -/
def readBound (whole t : Text) : Reading (Option Locator) :=
  if t = [] then .ok none
  else match Locator.ofText t with
    | .ok l => .ok (some l)
    | .error (.malformed e) => .error (.malformed ⟨rangeKind, whole, .bound e.text e.fault⟩)
    | .error (.numeral fault) => .error (.numeral fault)

/-- Reads `t` as bounds. -/
def Bounds.ofText (t : Text) : Reading Bounds := do
  match ← splitRange t with
  | none => .error (.malformed ⟨rangeKind, t, .noSeparator⟩)
  | some (before, after) =>
    let start ← readBound t before
    let stop ← readBound t after
    return ⟨start, stop⟩

/-- Reads `t` as bounds if it has a separator, else as a single locator. -/
def Range.ofText (t : Text) : Reading Range :=
  if t = [] then .error (.malformed ⟨rangeKind, t, .empty "range"⟩)
  else if t.cutDots?.isSome then (Bounds.ofText t).map .between
  else (Locator.ofText t).map .single

/-! ## What ranges select -/

namespace Stack

variable (s : Stack)

/-- The index at which a group begins, also if it is empty. -/
def groupStart : Group → Nat
  | .applied => 0
  | .unapplied => s.applied.length
  | .hidden => s.applied.length + s.unapplied.length

/-- The index of the first patch in one of the groups. -/
def firstIndex? (groups : List Group) : Option Nat :=
  (groups.find? fun g => !(s.patchesIn g).isEmpty).map s.groupStart

/-- The index of the last patch in one of the groups. -/
def lastIndex? (groups : List Group) : Option Nat :=
  (groups.reverse.find? fun g => !(s.patchesIn g).isEmpty).map fun g =>
    s.groupStart g + (s.patchesIn g).length - 1

/-- The index at which a range without an end stops, given where it begins. -/
def openEnd? (c : RangeConstraint) (start : Option Nat) : Option Nat :=
  if c.appliedBoundary && start.any (· < s.applied.length) then some (s.applied.length - 1)
  else s.lastIndex? c.groups

/-- The index of the patch that a bound leads to. -/
def boundIndex (c : RangeConstraint) (l : Locator) : Except Error Nat := do
  let n ← l.resolve s c.asLocation
  s.indexOf n.text

/-- The patch at an index, if its group is allowed. -/
def allowedAt (c : RangeConstraint) (i : Nat) : Except Error PatchName := do
  let group ← s.groupAt i
  let n ← s.patchAt i
  if c.allows group then .ok n else .error (.constraintViolation n.text group c.groups)

/-- The patches from one index to another, both included. -/
def slice (c : RangeConstraint) (start stop : Nat) : Except Error (List PatchName) :=
  (List.range' start (stop + 1 - start)).mapM (s.allowedAt c)

/-- The patches between two indices that have been found. Without one of them there are none,
and the first must not come after the second. -/
def between (c : RangeConstraint) (start stop : Option Nat) : Except Error (List PatchName) :=
  match start, stop with
  | some i, some j =>
    if j < i then do
      let first ← s.patchAt i
      let last ← s.patchAt j
      .error (.invertedRange first.text last.text)
    else s.slice c i j
  | _, _ => .ok []

end Stack

namespace Bounds

variable (b : Bounds) (s : Stack) (c : RangeConstraint)

/-- The index at which bounds begin: that of the begin, or of the first allowed patch. -/
def startIndex : Except Error (Option Nat) :=
  match b.start with
  | some l => some <$> s.boundIndex c l
  | none => .ok (s.firstIndex? c.groups)

/-- The index at which bounds end, given where they begin: that of the end, or where the
constraint stops a range without one. -/
def stopIndex (start : Option Nat) : Except Error (Option Nat) :=
  match b.stop with
  | some l => some <$> s.boundIndex c l
  | none => .ok (s.openEnd? c start)

/-- The patches from one bound to the other. Without bounds and without an allowed patch there
are none. -/
def select : Except Error (List PatchName) := do
  let start ← b.startIndex s c
  let stop ← b.stopIndex s c start
  s.between c start stop

end Bounds

/-- The patches that a range selects, in stack order. -/
def Range.select (r : Range) (s : Stack) (c : RangeConstraint) : Except Error (List PatchName) :=
  match r with
  | .single l => (fun n => [n]) <$> l.resolve s c.asLocation
  | .between b => b.select s c

/-- What several ranges select in the order of the ranges, after what was `selected` before.
The first patch that is selected again is an error. -/
def selectAfter (s : Stack) (c : RangeConstraint) (selected : List PatchName) :
    List Range → Except Error (List PatchName)
  | [] => .ok selected
  | r :: rest => do
    let more ← r.select s c
    match firstRepeatAfter? selected more with
    | some n => .error (.duplicatePatch n.text)
    | none => selectAfter s c (selected ++ more) rest

/-- What several ranges select, in the order of the ranges. -/
def selectAll (ranges : List Range) (s : Stack) (c : RangeConstraint) :
    Except Error (List PatchName) := selectAfter s c [] ranges

/-- The first two neighbours, of patches with their indices, between which there is a gap. -/
def firstGap? : List (Nat × PatchName) → Option (PatchName × PatchName)
  | (i, a) :: (j, b) :: rest => if j = i + 1 then firstGap? ((j, b) :: rest) else some (a, b)
  | _ => none

/-- What several ranges select, in stack order. A gap is an error. -/
def selectContiguous (ranges : List Range) (s : Stack) (c : RangeConstraint) :
    Except Error (List PatchName) := do
  let selected ← selectAll ranges s c
  let placed ← selected.mapM fun n => (fun i => (i, n)) <$> s.indexOf n.text
  let sorted := placed.mergeSort fun a b => decide (a.1 ≤ b.1)
  match firstGap? sorted with
  | some (a, b) => .error (.nonContiguous a.text b.text)
  | none => .ok (sorted.map (·.2))


end PatchStack
