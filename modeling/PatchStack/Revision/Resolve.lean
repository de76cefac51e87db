import PatchStack.Revision.Parser

set_option autoImplicit false

/-!
# Resolving revisions

A revision resolves to a commit, and to a patch if it names exactly one. What is needed from
outside comes through `Services`: the stacks of branches, commits by their revisions, and the
meaning of revision suffixes. A service may change a state and may fail, and what it changed
before it failed stays changed.

## Main definitions

* `PatchStack.Commit`, `PatchStack.ResolvedRevision`, `PatchStack.Boundary` — what comes out.
* `PatchStack.Services` — what is needed from outside.
* `PatchStack.resolvePatchLike` — a locator with its suffix, against a stack.
* `PatchStack.resolveRevision` — a single revision.
* `PatchStack.resolveSpec` — a single revision, or both ends of a range.
-/

namespace PatchStack

/-- A commit as it was made from a repository's answers. The serial number tells commits apart
that were made separately, even if they have one id. -/
structure Commit where
  /-- The full id. -/
  id : Text
  /-- The first line of its message. -/
  summary : Text
  /-- The number under which it was made. -/
  serial : Nat
  deriving DecidableEq, Repr

/-- A resolved revision: a commit and, if it is a patch, its name. -/
structure ResolvedRevision where
  /-- The patch, if the revision is one. -/
  patch : Option PatchName
  /-- The commit. -/
  commit : Commit
  deriving DecidableEq

/-- What a revision or a range resolves to. -/
inductive Boundary where
  /-- A single revision. -/
  | single (revision : ResolvedRevision)
  /-- Both ends of a range. -/
  | ends (first last : ResolvedRevision)
  deriving DecidableEq

namespace Boundary

/-- The revision, or the one that begins the range. -/
def first : Boundary → ResolvedRevision
  | .single revision => revision
  | .ends first _ => first

/-- The revision, or the one that ends the range. -/
def last : Boundary → ResolvedRevision
  | .single revision => revision
  | .ends _ last => last

/-- Do both ends hold the very same commit? -/
def isShared (b : Boundary) : Bool := b.first.commit.serial == b.last.commit.serial

end Boundary

/-- What resolving revisions needs from outside. -/
structure Services (σ : Type) where
  /-- The stack of a branch, or of the current one. -/
  stackOf : Option Text → Run σ Stack
  /-- The commit of a revision. -/
  lookup : Text → Run σ Commit
  /-- The commit that a suffix selects from another. -/
  applySuffix : Commit → Text → Run σ Commit

variable {σ : Type}

/-- The revision under which the commit of a patch is looked up: the id recorded for it, or its
name if none is recorded or the recorded one is empty. -/
def patchRevision (s : Stack) (n : PatchName) : Text :=
  match s.commitOf n.text with
  | some (c :: id) => c :: id
  | _ => n.text

/-- The revision so many commits below the base. -/
def belowBase (s : Stack) (depth : Nat) : Except NumeralFault Text :=
  if depth = 0 then .ok s.base else (fun t => s.base ++ '~' :: t) <$> Text.writeInt depth

/-- The patch at a position and its commit, or the nameless commit at one below the stack. -/
def revisionAt (v : Services σ) (s : Stack) (index : Int) : Run σ ResolvedRevision :=
  if 0 ≤ index then do
    let n ← Run.ofExcept (s.patchAt index)
    return ⟨some n, ← v.lookup (patchRevision s n)⟩
  else do
    let revision ← Run.ofExcept ((belowBase s (-1 - index).toNat).mapError Error.ofNumeral)
    return ⟨none, ← v.lookup revision⟩

/-- Resolves a locator with its suffix against a stack. Ancestors of the base can be reached. A
commit that a suffix selects is no patch. -/
def resolvePatchLike (v : Services σ) (p : PatchLike) (s : Stack) : Run σ ResolvedRevision := do
  let index ← Run.ofExcept (p.locator.position .ancestors s)
  let found ← revisionAt v s index
  if p.suffix = [] then return found
  else return ⟨none, ← v.applySuffix found.commit p.suffix⟩

/-- Does the stack have no patch of the locator's name, so that it is read as an index? -/
def readsAsIndex (l : Locator) (s : Stack) : Bool :=
  match l.anchor, l.disambiguate s with
  | .name _, .ok ⟨.belowTop (some _), _⟩ => true
  | _, _ => false

/-- The given stack, or else that of the current branch. -/
def currentStack (v : Services σ) (current : Option Stack) : Run σ Stack :=
  match current with
  | some s => return s
  | none => v.stackOf none

/-- A revision that only git understands. -/
def resolveGit (v : Services σ) (whole : Text) : Run σ ResolvedRevision := do
  return ⟨none, ← v.lookup whole⟩

/-- Resolves a text that may be a patch or a revision of git. The patch wins. Git is asked if
there is no such patch or no stack, and for an index outside of the stack; if git does not
know the latter either, the index is what is reported. All this is done for whatever fails in
this way, be it the search for the stack: an index outside of a stack that was not found breaks
the computation down. -/
def resolvePatchOrGit (v : Services σ) (p : PatchLike) (whole : Text) (current : Option Stack) :
    Run σ ResolvedRevision := do
  let stack ← (currentStack v current).outcome
  let found ← match stack with
    | .ok s => (resolvePatchLike v p s).outcome
    | .error e => pure (.error e)
  match found, stack with
  | .ok revision, _ => return revision
  | .error (.unknownPatch ..), _ | .error (.unknownBranch ..), _ => resolveGit v whole
  | .error (.outOfRange l i total), .ok s =>
    if readsAsIndex p.locator s then
      match ← (resolveGit v whole).outcome with
      | .error (.unknownCommit _) => throw (.outOfRange l i total)
      | .error e => throw e
      | .ok revision => return revision
    else throw (.outOfRange l i total)
  | .error (.outOfRange ..), .error _ => throw (.breakdown .missingStack)
  | .error e, _ => throw e

/-- Resolves a single revision. The current stack is fetched only if it is needed. -/
def resolveRevision (v : Services σ) (r : Revision) (current : Option Stack) :
    Run σ ResolvedRevision :=
  match r with
  | .git whole => resolveGit v whole
  | .onBranch branch p => do resolvePatchLike v p (← v.stackOf (some branch))
  | .patchOrGit p whole => resolvePatchOrGit v p whole current
  | .patch p => do resolvePatchLike v p (← currentStack v current)

/-- Resolves both ends of a range. A range over one patch has one commit at both ends. -/
def resolveBounds (v : Services σ) (b : Bounds) (s : Stack) (c : RangeConstraint) :
    Run σ Boundary := do
  match ← Run.ofExcept (b.select s c) with
  | [] => throw (.emptyRange b.text)
  | first :: rest =>
    let last := rest.getLastD first
    let begins ← v.lookup (patchRevision s first)
    let ends ← if last = first then pure begins else v.lookup (patchRevision s last)
    return .ends ⟨some first, begins⟩ ⟨some last, ends⟩

/-- Resolves a single revision or both ends of a range. -/
def resolveSpec (v : Services σ) (spec : RevisionSpec) (current : Option Stack)
    (c : RangeConstraint) : Run σ Boundary :=
  match spec with
  | .branchRange branch b => do resolveBounds v b (← v.stackOf (some branch)) c
  | .range b => do resolveBounds v b (← currentStack v current) c
  | .single r => do return .single (← resolveRevision v r current)

end PatchStack
