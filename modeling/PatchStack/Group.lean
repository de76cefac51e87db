set_option autoImplicit false

/-!
# Groups of patches

A stack holds its applied patches first, then the unapplied ones, then the hidden ones. A
constraint says which of the three groups a patch may belong to.

## Main definitions

* `PatchStack.Group` — the three groups, `PatchStack.Group.inOrder` their order in a stack.
* `PatchStack.LocationConstraint` — which groups a single patch may belong to.
* `PatchStack.RangeConstraint` — which groups the members of a range may belong to, and
  whether a range without an end stops at the last applied patch.

## Main results

* `PatchStack.RangeConstraint.allows_asLocation` — reading a range constraint as one for
  single patches keeps the allowed groups.
-/

namespace PatchStack

/-- The three groups of patches in a stack. -/
inductive Group where
  /-- Patches whose commits are part of the branch. -/
  | applied
  /-- Patches set aside. -/
  | unapplied
  /-- Patches set aside and not listed by default. -/
  | hidden
  deriving DecidableEq, Repr

namespace Group

/-- The groups in the order in which a stack holds them. -/
def inOrder : List Group := [.applied, .unapplied, .hidden]

/-- The word for a group. -/
def word : Group → String
  | .applied => "applied"
  | .unapplied => "unapplied"
  | .hidden => "hidden"

/-- The group that a word names. -/
def ofWord? (w : String) : Option Group := inOrder.find? fun g => g.word == w

end Group

/-- Which groups a single patch may belong to. -/
inductive LocationConstraint where
  /-- Any group. -/
  | all
  /-- Applied or unapplied. -/
  | visible
  /-- Applied only. -/
  | applied
  /-- Unapplied only. -/
  | unapplied
  /-- Hidden only. -/
  | hidden
  deriving DecidableEq, Repr

namespace LocationConstraint

/-- Every constraint for single patches. -/
def inOrder : List LocationConstraint := [.all, .visible, .applied, .unapplied, .hidden]

/-- The word for a constraint. -/
def word : LocationConstraint → String
  | .all => "all"
  | .visible => "visible"
  | .applied => "applied"
  | .unapplied => "unapplied"
  | .hidden => "hidden"

/-- The constraint that a word names. -/
def ofWord? (w : String) : Option LocationConstraint := inOrder.find? fun c => c.word == w

/-- May a patch of this group be named? -/
def allows : LocationConstraint → Group → Bool
  | .all, _ => true
  | .visible, g => g != .hidden
  | .applied, g => g == .applied
  | .unapplied, g => g == .unapplied
  | .hidden, g => g == .hidden

/-- The allowed groups, in stack order. -/
def groups (c : LocationConstraint) : List Group := Group.inOrder.filter c.allows

end LocationConstraint

/-- Which groups the members of a range may belong to. The two constraints with an applied
boundary allow the same groups as their plain counterparts; under them a range without an end
that begins with an applied patch stops at the last applied one. -/
inductive RangeConstraint where
  /-- Any group. -/
  | all
  /-- Any group; open ranges stop at the applied boundary. -/
  | allWithAppliedBoundary
  /-- Applied or unapplied. -/
  | visible
  /-- Applied or unapplied; open ranges stop at the applied boundary. -/
  | visibleWithAppliedBoundary
  /-- Applied only. -/
  | applied
  /-- Unapplied only. -/
  | unapplied
  /-- Hidden only. -/
  | hidden
  deriving DecidableEq, Repr

namespace RangeConstraint

/-- Every constraint for ranges. -/
def inOrder : List RangeConstraint :=
  [.all, .allWithAppliedBoundary, .visible, .visibleWithAppliedBoundary, .applied, .unapplied,
    .hidden]

/-- The word for a constraint. -/
def word : RangeConstraint → String
  | .all => "all"
  | .allWithAppliedBoundary => "all-with-applied-boundary"
  | .visible => "visible"
  | .visibleWithAppliedBoundary => "visible-with-applied-boundary"
  | .applied => "applied"
  | .unapplied => "unapplied"
  | .hidden => "hidden"

/-- The constraint that a word names. -/
def ofWord? (w : String) : Option RangeConstraint := inOrder.find? fun c => c.word == w

/-- Does a range without an end that begins with an applied patch stop at the last one? -/
def appliedBoundary : RangeConstraint → Bool
  | .allWithAppliedBoundary | .visibleWithAppliedBoundary => true
  | _ => false

/-- The constraint for single patches that allows the same groups. -/
def asLocation : RangeConstraint → LocationConstraint
  | .all | .allWithAppliedBoundary => .all
  | .visible | .visibleWithAppliedBoundary => .visible
  | .applied => .applied
  | .unapplied => .unapplied
  | .hidden => .hidden

/-- May a patch of this group be a member? -/
def allows : RangeConstraint → Group → Bool
  | .all, _ | .allWithAppliedBoundary, _ => true
  | .visible, g | .visibleWithAppliedBoundary, g => g != .hidden
  | .applied, g => g == .applied
  | .unapplied, g => g == .unapplied
  | .hidden, g => g == .hidden

/-- The allowed groups, in stack order. -/
def groups (c : RangeConstraint) : List Group := Group.inOrder.filter c.allows

/-- Read as a constraint for single patches, a range constraint allows the same groups. -/
theorem allows_asLocation (c : RangeConstraint) (g : Group) :
    c.asLocation.allows g = c.allows g := by
  cases c <;> rfl

end RangeConstraint

end PatchStack
