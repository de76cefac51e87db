import PatchStack.Git.Repository
import PatchStack.Revision.Resolve
import PatchStack.Stack.Metadata

set_option autoImplicit false

/-!
# A session with a repository

During one session the stack of a branch is read once and each commit is made once, so that
all that a session sees fits together. A failure leaves what is remembered as it was.

## Main definitions

* `PatchStack.Session` — the commands run and what is remembered.
* `PatchStack.Git.branchName`, `PatchStack.Git.stackOf` — the stacks of branches.
* `PatchStack.Git.lookup`, `PatchStack.Git.applySuffix`, `PatchStack.Git.readCommit` — commits.
* `PatchStack.Git.services` — the services that resolving revisions needs.
-/

namespace PatchStack

/-- The commands of a session and what it remembers. -/
structure Session where
  /-- The commands run, the first one first. -/
  calls : List Command
  /-- The stacks read, by branch. -/
  branchStacks : List (Text × Stack)
  /-- The commits looked up, by id. -/
  commits : List (Text × Commit)
  /-- How many commits have been made. -/
  made : Nat

namespace Session

/-- The session in which nothing has been asked. -/
def fresh : Session := ⟨[], [], [], 0⟩

/-- Runs commands in a session; what it remembers stays as it is. -/
def shell {α : Type} (m : Shell α) : Run Session α :=
  m.zoom Session.calls fun calls s => { s with calls := calls }

/-- The stack remembered for a branch. -/
def stack? (s : Session) (branch : Text) : Option Stack :=
  (s.branchStacks.find? fun entry => entry.1 == branch).map (·.2)

/-- The commit remembered for an id. -/
def commit? (s : Session) (id : Text) : Option Commit :=
  (s.commits.find? fun entry => entry.1 == id).map (·.2)

end Session

namespace Git

variable (git : Git)

/-! ## Stacks -/

/-- Where stacks are stored. -/
def stackDirectory : Text := "refs/stacks/".toList

/-- The file that describes a stack. -/
def stackFile : Text := "stack.json".toList

/-- The name of a branch: of the current one if none is given, and of the one left before if
that is what the text spells. -/
def branchName (branch : Option Text) : Shell Text := do
  match branch with
  | none =>
    match ← git.currentBranch with
    | some name => return name
    | none => throw (.unknownBranch none (some "HEAD is not on a branch".toList))
  | some spec =>
    if isPreviousBranch spec then
      match ← git.previousBranch spec with
      | some name => return name
      | none => throw (.unknownBranch (some spec) none)
    else if ← git.refExists (branchDirectory ++ spec) then return spec
    else throw (.unknownBranch (some spec) none)

/-- The document stored for the stack of a branch. -/
def readMetadata (branch : Text) : Shell Metadata := do
  match ← git.showBlob (stackDirectory ++ branch) stackFile with
  | none =>
    throw (.unknownBranch (some branch) (some "branch has no stack metadata".toList))
  | some document =>
    match Metadata.ofText document with
    | .ok m => return m
    | .error fault => throw (.git (.invalidMetadata branch fault))

/-- The revision of a stack's base: the parent of the first applied patch's commit, or the head
if there is no such commit. -/
def baseRevision (m : Metadata) : Text :=
  match m.firstCommit with
  | some (c :: id) => c :: id ++ ['^']
  | _ => m.head

/-- Reads the stack of a branch. -/
def readStack (branch : Text) : Shell Stack := do
  let m ← git.readMetadata branch
  let base ← git.revParse (baseRevision m)
  match m.toStack base with
  | .ok s => return s
  | .error report => throw (.git (.inconsistentMetadata branch report))

/-- The stack of a branch. It is read once in a session. -/
def stackOf (branch : Option Text) : Run Session Stack := do
  let name ← Session.shell (git.branchName branch)
  match (← get).stack? name with
  | some s => return s
  | none =>
    let s ← Session.shell (git.readStack name)
    modify fun session => { session with branchStacks := (name, s) :: session.branchStacks }
    return s

/-! ## Commits -/

/-- Makes a commit that has not been made before. -/
def makeCommit (id summary : Text) : Run Session Commit := do
  let session ← get
  set { session with made := session.made + 1 }
  return ⟨id, summary, session.made⟩

/-- The commit of a revision. The commit of an id is made once in a session. -/
def lookup (revision : Text) : Run Session Commit := do
  let id ← Session.shell (git.revParse revision)
  match (← get).commit? id with
  | some commit => return commit
  | none =>
    let summary ← Session.shell (git.commitSummary id)
    let commit ← makeCommit id summary
    modify fun session => { session with commits := (id, commit) :: session.commits }
    return commit

/-- The commit that a suffix selects from another. -/
def applySuffix (commit : Commit) (suffix : Text) : Run Session Commit :=
  git.lookup (commit.id ++ suffix)

/-- The commit of a revision, made anew each time. -/
def readCommit (revision : Text) : Run Session Commit := do
  let id ← Session.shell (git.revParse revision)
  let summary ← Session.shell (git.commitSummary id)
  makeCommit id summary

/-- The services that git provides for resolving revisions. -/
def services : Services Session := ⟨git.stackOf, git.lookup, git.applySuffix⟩

end Git

end PatchStack
