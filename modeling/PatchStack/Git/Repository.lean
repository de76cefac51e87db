import PatchStack.Git.Command

set_option autoImplicit false

/-!
# Questions to a repository

What can be asked of a repository, each by one command of git: branches, revisions, the
messages of commits and the contents of stored files.

## Main definitions

* `PatchStack.Git.currentBranch`, `PatchStack.Git.refExists`, `PatchStack.Git.previousBranch`
* `PatchStack.Git.revParse` — the full id of the commit that a revision names.
* `PatchStack.Git.commitSummary`, `PatchStack.Git.showBlob`
-/

namespace PatchStack

/-! ## Hints about ambiguous revisions -/

/-- Is the character a hexadecimal digit as git prints it? -/
def isLowerHex (c : Char) : Bool := c.isDigit || ('a' ≤ c && c ≤ 'f')

/-- The commit id in a line of hints that begins `t`, the blank after it, and the rest. -/
def scanHint? (t : Text) : Option (Text × Char × Text) :=
  let mark := "hint:".toList
  if !mark.isPrefixOf t then none
  else
    let after := t.drop mark.length
    let start := after.dropWhile Text.isBlank
    let id := start.takeWhile isLowerHex
    if start.length = after.length ∨ id.length < 4 ∨ 40 < id.length then none
    else match start.dropWhile isLowerHex with
      | c :: rest => if Text.isBlank c then some (id, c, rest) else none
      | [] => none

/-- The commit ids in the hints of `t`. Each round passes a character at least. -/
def hintsIn : Nat → Bool → Text → List Text
  | rounds + 1, atStart, c :: rest =>
    match if atStart then scanHint? (c :: rest) else none with
    | some (id, blank, rest) => id :: hintsIn rounds (blank == '\n') rest
    | none => hintsIn rounds (c == '\n') rest
  | _, _, _ => []

/-- The commit ids that git hints at, one for each line that begins as a hint. -/
def hints (t : Text) : List Text := hintsIn t.length true t

/-- Does the message speak of an ambiguity, whatever the case of its letters? -/
def speaksOfAmbiguity (t : Text) : Bool := t.lower.includes "ambiguous".toList

namespace Git

variable (git : Git)

/-! ## Branches -/

/-- Where git keeps branches. -/
def branchDirectory : Text := "refs/heads/".toList

/-- The current branch, if there is one. -/
def currentBranch : Shell (Option Text) := do
  let answer ← git.run ["symbolic-ref".toList, "--quiet".toList, "--short".toList, "HEAD".toList]
  let branch := answer.out.trim
  return if answer.status ≠ 0 ∨ branch = [] then none else some branch

/-- Does the reference exist? -/
def refExists (ref : Text) : Shell Bool := do
  let answer ← git.run ["rev-parse".toList, "--verify".toList, "--quiet".toList, ref]
  return answer.status = 0

/-- The branch that was left so many switches ago. -/
def previousBranch (spec : Text) : Shell (Option Text) := do
  let answer ← git.run ["rev-parse".toList, "--symbolic-full-name".toList, spec]
  let name := answer.out.trim
  return if answer.status ≠ 0 ∨ !branchDirectory.isPrefixOf name then none
    else some (name.drop branchDirectory.length)

/-! ## Commits -/

/-- The revision of the commit that another revision leads to. -/
def commitRevision (revision : Text) : Text := revision ++ "^\x7bcommit\x7d".toList

/-- The full id of the commit that a revision names. What could be taken for an option names
none. -/
def revParse (revision : Text) : Shell Text := do
  if revision = [] ∨ revision.head? = some '-' then throw (.unknownCommit revision)
  let answer ← git.run ["rev-parse".toList, "--verify".toList, commitRevision revision]
  if answer.status = 0 then return answer.out.trim
  else if speaksOfAmbiguity answer.err then
    throw (.ambiguousPrefix revision (hints answer.err))
  else throw (.unknownCommit revision)

/-- Why a command failed: what it printed as an error, or else what it printed. -/
def failureReason (answer : Answer) : Text :=
  if answer.err.trim ≠ [] then answer.err.trim
  else if answer.out.trim ≠ [] then answer.out.trim
  else "unknown git error".toList

/-- The first line of the message of a commit. -/
def commitSummary (id : Text) : Shell Text := do
  let command := ["log".toList, "-1".toList, "--format=%s".toList, id]
  let answer ← git.run command
  if answer.status ≠ 0 then throw (.git (.commandFailed command (failureReason answer)))
  return answer.out.trim

/-- The contents of a file at a revision, if it is there. -/
def showBlob (revision path : Text) : Shell (Option Text) := do
  let answer ← git.run ["cat-file".toList, "-p".toList, revision ++ ':' :: path]
  return if answer.status ≠ 0 then none else some answer.out

end Git

end PatchStack
