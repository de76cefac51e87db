import PatchStack.Range

set_option autoImplicit false

/-!
# Revisions and how they are read

A revision is a locator, possibly with a revision suffix behind it, possibly in the stack of a
named branch, or else any text that is left to git. Where a range of patches is welcome too,
it may be qualified with a branch as well.

What stands before the first colon of a revision is a branch if it can be one. The rest, or
the whole text without a branch, is a range if it holds `..`. Otherwise it is a locator with a
revision suffix if it can be read as one, and a matter of git if it cannot.

## Main definitions

* `PatchStack.PatchLike` — a locator with a revision suffix.
* `PatchStack.Revision`, `PatchStack.RevisionSpec` — the four kinds of a single revision; a single
  revision or a range.
* `PatchStack.Revision.text`, `PatchStack.RevisionSpec.text` — their spelling.
* `PatchStack.isSuffix` — the revision suffixes, recognised character by character.
* `PatchStack.isBranchName`, `PatchStack.splitBranch?` — branches.
* `PatchStack.PatchLike.ofText?`, `PatchStack.Revision.ofText`, `PatchStack.RevisionSpec.ofText`
  — reading.
-/

namespace PatchStack

/-! ## Kinds of revision -/

/-- A locator with a revision suffix, which git interprets. -/
structure PatchLike where
  /-- The locator. -/
  locator : Locator
  /-- The suffix, often empty. -/
  suffix : Text
  deriving DecidableEq

/-- The spelling of a locator with its suffix. -/
def PatchLike.text (p : PatchLike) : Text := p.locator.text ++ p.suffix

/-- A single revision. -/
inductive Revision where
  /-- A locator in the stack of a branch. -/
  | onBranch (branch : Text) (p : PatchLike)
  /-- A text that git may understand too, should no patch be meant. -/
  | patchOrGit (p : PatchLike) (whole : Text)
  /-- A text that only git may understand. -/
  | git (whole : Text)
  /-- A locator that cannot be anything else. -/
  | patch (p : PatchLike)
  deriving DecidableEq

/-- The spelling of a revision. -/
def Revision.text : Revision → Text
  | .onBranch branch p => branch ++ ':' :: p.text
  | .patchOrGit _ whole => whole
  | .git whole => whole
  | .patch p => p.text

/-- A single revision or a range of patches. -/
inductive RevisionSpec where
  /-- A range in the stack of a branch. -/
  | branchRange (branch : Text) (bounds : Bounds)
  /-- A range in the current stack. -/
  | range (bounds : Bounds)
  /-- A single revision. -/
  | single (revision : Revision)
  deriving DecidableEq

/-- The spelling of a revision or range. -/
def RevisionSpec.text : RevisionSpec → Text
  | .branchRange branch bounds => branch ++ ':' :: bounds.text
  | .range bounds => bounds.text
  | .single revision => revision.text


/-! ## Revision suffixes -/

/-- How far a revision suffix has been read. -/
inductive SuffixState where
  /-- At the front of the text. -/
  | start
  /-- After a caret, which digits or a braced text may follow. -/
  | caret
  /-- Among the digits of a caret or of a tilde. -/
  | digits
  /-- After a closing brace. -/
  | closed
  /-- After an at sign, which a braced text has to follow. -/
  | atSign
  /-- Inside of braces. -/
  | braced
  deriving DecidableEq, Repr

/-- What a character leads to where a new part of the suffix may begin. -/
def SuffixState.begin? (c : Char) : Option SuffixState :=
  if c = '^' then some .caret
  else if c = '~' then some .digits
  else if c = '@' then some .atSign
  else none

/-- What the next character of a suffix leads to; nothing if it cannot be part of one. -/
def SuffixState.next? (c : Char) : SuffixState → Option SuffixState
  | .start | .closed => begin? c
  | .caret => if c.isDigit then some .digits else if c = '{' then some .braced else begin? c
  | .digits => if c.isDigit then some .digits else begin? c
  | .atSign => if c = '{' then some .braced else none
  | .braced => if c = '}' then some .closed else some .braced

/-- May the suffix end here? -/
def SuffixState.isFinal : SuffixState → Bool
  | .caret | .digits | .closed => true
  | .start | .atSign | .braced => false

/-- Is `t` read from the given state a complete suffix? -/
def isSuffixFrom : SuffixState → Text → Bool
  | state, [] => state.isFinal
  | state, c :: rest =>
    match state.next? c with
    | some next => isSuffixFrom next rest
    | none => false

/-- Is `t` a revision suffix: one part or more, each a caret with an optional number or braced
text, a tilde with an optional number, or an at sign with a braced text? -/
def isSuffix (t : Text) : Bool := isSuffixFrom .start t

/-! ## Branches -/

/-- Does `t` spell a branch left some switches ago, such as `@{-1}`? -/
def isPreviousBranch (t : Text) : Bool :=
  ['@', '{', '-'].isPrefixOf t && t.getLast? == some '}' &&
    isDigits ((t.drop 3).dropLast)
where
  /-- One digit or more. -/
  isDigits (d : Text) : Bool := !d.isEmpty && d.all Char.isDigit

/-- Can `t` be a branch: one left before, or names with slashes between them? -/
def isBranchName (t : Text) : Bool :=
  isPreviousBranch t || (t.splitOn '/').all PatchName.isValid

/-- The branch before the first colon and what follows the colon. -/
def splitBranch? (t : Text) : Option (Text × Text) :=
  match t.cut? ':' with
  | some (branch, rest) => if isBranchName branch then some (branch, rest) else none
  | none => none

/-! ## Revisions and ranges -/

/-- What a revision is called in errors. -/
def revisionKind : String := "revision"

/-- Reads `t` as a locator with a suffix, if it is one. -/
def PatchLike.ofText? (t : Text) : Except NumeralFault (Option PatchLike) :=
  match scanLocator t with
  | .ok (l, rest) => .ok (if rest = [] ∨ isSuffix rest then some ⟨l, rest⟩ else none)
  | .error (.malformed _) => .ok none
  | .error (.numeral fault) => .error fault

/-- Reads a text without a branch as a single revision. -/
def Revision.ofUnqualified (t : Text) : Except NumeralFault Revision := do
  match ← PatchLike.ofText? t with
  | none => return .git t
  | some p =>
    match p.locator.anchor with
    | .name _ => return .patchOrGit p t
    | _ => return .patch p

/-- Reads `t` as a single revision. -/
def Revision.ofText (t : Text) : Reading Revision :=
  if t = [] then .error (.malformed ⟨revisionKind, t, .empty "revision"⟩)
  else if t.cutDots?.isSome then .error (.malformed ⟨revisionKind, t, .rangeNotAllowed⟩)
  else match splitBranch? t with
    | some (branch, rest) =>
      match PatchLike.ofText? rest with
      | .ok (some p) => .ok (.onBranch branch p)
      | .ok none => .error (.malformed ⟨revisionKind, t, .noLocatorAfter branch⟩)
      | .error fault => .error (.numeral fault)
    | none => (Revision.ofUnqualified t).mapError .numeral

/-- Reads a text that is no range in the stack of a branch. -/
def RevisionSpec.ofPlain (t : Text) : Reading RevisionSpec :=
  if t.cutDots?.isSome then (Bounds.ofText t).map .range
  else (Revision.ofText t).map .single

/-- Reads `t` as a range in the stack of a branch, a range or a single revision. -/
def RevisionSpec.ofText (t : Text) : Reading RevisionSpec := do
  if t = [] then .error (.malformed ⟨revisionKind, t, .empty "revision"⟩)
  match splitBranch? t with
  | some (branch, rest) =>
    match ← splitRange rest with
    | some _ => return .branchRange branch (← Bounds.ofText rest)
    | none => RevisionSpec.ofPlain t
  | none => RevisionSpec.ofPlain t

end PatchStack
