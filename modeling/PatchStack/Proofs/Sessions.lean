import Mathlib.Data.List.Induction
import PatchStack.Proofs.Questions

set_option autoImplicit false

/-!
# Sessions step by step

What looking for a stack or for a commit does in a session, case by case: what is asked of git,
what is remembered afterwards and how it ends. Every session comes about by a list of requests,
each of which may fail.

## Main definitions

* `PatchStack.Session.asked` — a session in which one more command has been run.
* `PatchStack.Git.branchAt`, `PatchStack.Git.idAt` — the branch that is meant and the id of a
  revision, as git answers in a session.
* `PatchStack.Git.StackRun`, `PatchStack.Git.LookupRun` — the ways in which looking for a stack or
  for a commit can go.
* `PatchStack.Request` — what can be asked in a session.
* `PatchStack.Git.session` — the session after a list of requests.
* `PatchStack.Git.Occurs` — what one of the requests came upon.

## Main results

* `PatchStack.Git.stackRun`, `PatchStack.Git.lookupRun` — looking for a stack or for a commit goes
  in one of these ways.
* `PatchStack.Git.exists_state_of_stackOf` — what looking for a stack leaves as it was.
-/

namespace PatchStack

/-! ## Lists and entries -/

/-- An item of a list is the last one or stands before it.

**Proof sketch.** What stands behind the item is nothing, or it has a last item of its own. -/
lemma append_singleton_eq_append_cons_iff {α : Type} {l before behind : List α} {a b : α} :
    l ++ [a] = before ++ b :: behind ↔
      (behind = [] ∧ before = l ∧ b = a) ∨
        ∃ behind', behind = behind' ++ [a] ∧ l = before ++ b :: behind' := by
  constructor
  · intro h
    rcases List.eq_nil_or_concat behind with rfl | ⟨behind, last, rfl⟩
    · obtain ⟨rfl, hlast⟩ := List.append_inj' h rfl
      exact .inl ⟨rfl, rfl, (List.singleton_inj.1 hlast).symm⟩
    · rw [List.concat_eq_append, ← List.cons_append, ← List.append_assoc] at h
      obtain ⟨rfl, hlast⟩ := List.append_inj' h rfl
      obtain rfl := List.singleton_inj.1 hlast
      exact .inr ⟨behind, List.concat_eq_append, rfl⟩
  · rintro (⟨rfl, rfl, rfl⟩ | ⟨behind, rfl, rfl⟩)
    · rfl
    · simp

/-- A new entry is found under its key, and no other key finds another value than before. -/
lemma find?_map_cons_eq_some_iff {α : Type} {entries : List (Text × α)} {key : Text} {value : α}
    (hnone : (entries.find? fun entry => entry.1 == key).map (·.2) = none) (key' : Text)
    (value' : α) :
    (((key, value) :: entries).find? fun entry => entry.1 == key').map (·.2) = some value' ↔
      (entries.find? fun entry => entry.1 == key').map (·.2) = some value' ∨
        (key' = key ∧ value' = value) := by
  by_cases hkey : key = key'
  · subst hkey
    rw [hnone]
    simp [eq_comm]
  · simp [hkey, Ne.symm hkey]

/-! ## Commands in a session -/

/-- The session in which one more command has been run. -/
def Session.asked (st : Session) (command : Command) : Session :=
  { st with calls := st.calls ++ [command] }

namespace Session

variable (st : Session) (command : Command)

/-- The stacks remembered stay. -/
@[simp]
lemma branchStacks_asked : (st.asked command).branchStacks = st.branchStacks := rfl

/-- The commits remembered stay. -/
@[simp]
lemma commits_asked : (st.asked command).commits = st.commits := rfl

/-- No commit is made. -/
@[simp]
lemma made_asked : (st.asked command).made = st.made := rfl

/-- A stack is remembered as before. -/
@[simp]
lemma stack?_asked (name : Text) : (st.asked command).stack? name = st.stack? name := rfl

/-- A commit is remembered as before. -/
@[simp]
lemma commit?_asked (id : Text) : (st.asked command).commit? id = st.commit? id := rfl

end Session

namespace Git

variable {git : Git} {st : Session}

/-- A question is asked in a session as it is by itself. -/
lemma Asks.run_shell {α : Type} {m : Shell α} {command : Command} {read : Answer → Except Error α}
    (h : git.Asks m command read) (st : Session) :
    (Session.shell m).run.run st = (git.ask st.calls command >>= read, st.asked command) := by
  have hrun := h st.calls
  show ((m.run.run st.calls).1, { st with calls := (m.run.run st.calls).2 }) = _
  rw [hrun]
  rfl

/-! ## Looking for a stack -/

/-- The name of the branch that is meant in a session. -/
def branchAt (git : Git) (st : Session) (branch : Option Text) : Except Error Text :=
  git.ask st.calls (branchCommand branch) >>= branchIn branch

section Stacks

variable {branch : Option Text} {name : Text} {s : Stack} {e : Error}

/-- The branch that is meant is found by one command. -/
lemma run_branchName (branch : Option Text) (st : Session) :
    (Session.shell (git.branchName branch)).run.run st =
      (git.branchAt st branch, st.asked (branchCommand branch)) :=
  (git.asks_branchName branch).run_shell st

/-- No stack is found where no branch is meant. -/
theorem run_stackOf_of_no_branch (h : git.branchAt st branch = .error e) :
    (git.stackOf branch).run.run st = (.error e, st.asked (branchCommand branch)) := by
  rw [stackOf, Run.run_bind, run_branchName, h]

/-- Where a branch is meant, its stack is remembered or read. -/
lemma run_stackOf_of_branch (h : git.branchAt st branch = .ok name) :
    (git.stackOf branch).run.run st =
      (match st.stack? name with
        | some s => pure s
        | none => do
          let s ← Session.shell (git.readStack name)
          modify fun session => { session with branchStacks := (name, s) :: session.branchStacks }
          return s : Run Session Stack).run.run (st.asked (branchCommand branch)) := by
  rw [stackOf, Run.run_bind, run_branchName, h]
  rfl

/-- A stack that is remembered is found without another command. -/
theorem run_stackOf_of_remembered (h : git.branchAt st branch = .ok name)
    (hs : st.stack? name = some s) :
    (git.stackOf branch).run.run st = (.ok s, st.asked (branchCommand branch)) := by
  rw [run_stackOf_of_branch h, hs]
  rfl

/-- A stack that is not remembered is read, and is remembered from then on if it can be read. -/
theorem run_stackOf_of_unread (h : git.branchAt st branch = .ok name)
    (hs : st.stack? name = none) :
    (git.stackOf branch).run.run st =
      match (git.readStack name).run.run (st.calls ++ [branchCommand branch]) with
      | (.ok s, calls) =>
        (.ok s, { st with calls := calls, branchStacks := (name, s) :: st.branchStacks })
      | (.error e, calls) => (.error e, { st with calls := calls }) := by
  rw [run_stackOf_of_branch h, hs]
  dsimp only
  have hread : (Session.shell (git.readStack name)).run.run (st.asked (branchCommand branch)) =
      Prod.map id (fun calls => { st with calls := calls })
        ((git.readStack name).run.run (st.calls ++ [branchCommand branch])) := rfl
  rw [Run.run_bind, hread]
  rcases (git.readStack name).run.run (st.calls ++ [branchCommand branch]) with ⟨e | s, calls⟩
  · rfl
  · rfl

variable (git st branch) in
/-- The ways in which looking for a stack can go, each with how it ends and the session after it. -/
inductive StackRun : Except Error Stack × Session → Prop where
  /-- No branch is meant. -/
  | unnamed {e : Error} (h : git.branchAt st branch = .error e) :
    StackRun (.error e, st.asked (branchCommand branch))
  /-- The stack of the branch is remembered. -/
  | remembered {name : Text} {s : Stack} (h : git.branchAt st branch = .ok name)
    (hs : st.stack? name = some s) : StackRun (.ok s, st.asked (branchCommand branch))
  /-- The stack cannot be read. -/
  | unreadable {name : Text} {e : Error} {calls : List Command}
    (h : git.branchAt st branch = .ok name) (hs : st.stack? name = none)
    (hread : (git.readStack name).run.run (st.calls ++ [branchCommand branch]) =
      (.error e, calls)) : StackRun (.error e, { st with calls := calls })
  /-- The stack is read and remembered. -/
  | read {name : Text} {s : Stack} {calls : List Command}
    (h : git.branchAt st branch = .ok name) (hs : st.stack? name = none)
    (hread : (git.readStack name).run.run (st.calls ++ [branchCommand branch]) = (.ok s, calls)) :
    StackRun (.ok s, { st with calls := calls, branchStacks := (name, s) :: st.branchStacks })

variable (git st branch) in
/-- Looking for a stack goes in one of these ways.

**Proof sketch.** The branch has a name or not, its stack is remembered or not, and if not, it can
be read or not. -/
theorem stackRun : git.StackRun st branch ((git.stackOf branch).run.run st) := by
  cases h : git.branchAt st branch with
  | error e =>
    rw [run_stackOf_of_no_branch h]
    exact .unnamed h
  | ok name =>
    cases hs : st.stack? name with
    | some s =>
      rw [run_stackOf_of_remembered h hs]
      exact .remembered h hs
    | none =>
      rw [run_stackOf_of_unread h hs]
      rcases hread : (git.readStack name).run.run (st.calls ++ [branchCommand branch]) with
        ⟨e | s, calls⟩
      · exact .unreadable h hs hread
      · exact .read h hs hread

/-- A failure leaves what is remembered as it was. -/
theorem branchStacks_of_failure {st' : Session}
    (h : (git.stackOf branch).run.run st = (.error e, st')) :
    st'.branchStacks = st.branchStacks := by
  have hrun := git.stackRun st branch
  rw [h] at hrun
  cases hrun <;> rfl

/-- Looking for a stack changes nothing but the stacks remembered and the commands run.

**Proof sketch.** There is one case for each way in which looking for a stack may go, and the
commands are those for the branch and, if the stack is read, for its document and its base. -/
theorem exists_state_of_stackOf {p : Command → Prop} (branch : Option Text) (st : Session)
    (hbranch : p (branchCommand branch))
    (hdocument : ∀ name, git.branchAt st branch = .ok name → p (documentCommand name))
    (hid : ∀ revision, IsAskable revision → p (idCommand revision)) :
    ∃ calls branchStacks, ((git.stackOf branch).run.run st).2 =
        { st with calls := calls, branchStacks := branchStacks } ∧
      Adds p st.calls calls := by
  have hasked : Adds p st.calls (st.calls ++ [branchCommand branch]) := .concat hbranch st.calls
  have hreads {name : Text} (h : git.branchAt st branch = .ok name) :
      Adds p st.calls
        ((git.readStack name).run.run (st.calls ++ [branchCommand branch])).2 :=
    hasked.trans (adds_readStack (hdocument name h) hid _)
  have hrun := git.stackRun st branch
  generalize (git.stackOf branch).run.run st = r at hrun ⊢
  cases hrun with
  | unnamed | remembered => exact ⟨_, st.branchStacks, rfl, hasked⟩
  | unreadable h hs hread =>
    refine ⟨_, st.branchStacks, rfl, ?_⟩
    simpa [hread] using hreads h
  | read h hs hread =>
    refine ⟨_, _, rfl, ?_⟩
    simpa [hread] using hreads h

end Stacks

/-! ## Looking for a commit -/

/-- The id of a revision as git answers in a session. -/
def idAt (git : Git) (st : Session) (revision : Text) : Except Error Text :=
  git.idAfter st.calls revision

section Commits

variable {revision id : Text} {e : Error}

/-- What could be taken for an option is not given to git. -/
lemma run_lookup_of_not_askable (h : ¬ IsAskable revision) (st : Session) :
    (git.lookup revision).run.run st = (.error (.unknownCommit revision), st) := by
  have hshell : (Session.shell (git.revParse revision)).run.run st =
      (.error (.unknownCommit revision), st) := by
    have hrun := git.run_revParse_of_not_askable h st.calls
    show (((git.revParse revision).run.run st.calls).1,
      { st with calls := ((git.revParse revision).run.run st.calls).2 }) = _
    rw [hrun]
  rw [lookup, Run.run_bind, hshell]

/-- The id of a revision is found by one command. -/
lemma run_revParse (h : IsAskable revision) (st : Session) :
    (Session.shell (git.revParse revision)).run.run st =
      (git.idAt st revision, st.asked (idCommand revision)) :=
  (git.asks_revParse h).run_shell st

/-- No commit is found where git knows no id. -/
lemma run_lookup_of_no_id (ha : IsAskable revision) (h : git.idAt st revision = .error e) :
    (git.lookup revision).run.run st = (.error e, st.asked (idCommand revision)) := by
  rw [lookup, Run.run_bind, run_revParse ha, h]

/-- Where git knows an id, its commit is remembered or made. -/
lemma run_lookup_of_id (ha : IsAskable revision) (h : git.idAt st revision = .ok id) :
    (git.lookup revision).run.run st =
      (match st.commit? id with
        | some commit => pure commit
        | none => do
          let summary ← Session.shell (git.commitSummary id)
          let commit ← makeCommit id summary
          modify fun session => { session with commits := (id, commit) :: session.commits }
          return commit : Run Session Commit).run.run (st.asked (idCommand revision)) := by
  rw [lookup, Run.run_bind, run_revParse ha, h]
  rfl

/-- A commit that is remembered is found without another command. -/
lemma run_lookup_of_remembered {commit : Commit} (ha : IsAskable revision)
    (h : git.idAt st revision = .ok id) (hc : st.commit? id = some commit) :
    (git.lookup revision).run.run st = (.ok commit, st.asked (idCommand revision)) := by
  rw [run_lookup_of_id ha h, hc]
  rfl

/-- A commit that is not remembered is made, unless its message cannot be read, and is remembered
from then on. -/
lemma run_lookup_of_unmade (ha : IsAskable revision) (h : git.idAt st revision = .ok id)
    (hc : st.commit? id = none) :
    (git.lookup revision).run.run st =
      match git.summaryAfter (st.calls ++ [idCommand revision]) id with
      | .ok summary =>
        (.ok ⟨id, summary, st.made⟩,
          { (st.asked (idCommand revision)).asked (summaryCommand id) with
            commits := (id, ⟨id, summary, st.made⟩) :: st.commits, made := st.made + 1 })
      | .error e => (.error e, (st.asked (idCommand revision)).asked (summaryCommand id)) := by
  have hsummary : (Session.shell (git.commitSummary id)).run.run (st.asked (idCommand revision)) =
      (git.summaryAfter (st.calls ++ [idCommand revision]) id,
        (st.asked (idCommand revision)).asked (summaryCommand id)) :=
    (git.asks_commitSummary id).run_shell _
  rw [run_lookup_of_id ha h, hc]
  dsimp only
  rw [Run.run_bind, hsummary]
  cases git.summaryAfter (st.calls ++ [idCommand revision]) id <;> rfl

variable (git st revision) in
/-- The ways in which looking for a commit can go, each with how it ends and the session after
it. -/
inductive LookupRun : Except Error Commit × Session → Prop where
  /-- What could be taken for an option is not given to git. -/
  | refused (h : ¬ IsAskable revision) : LookupRun (.error (.unknownCommit revision), st)
  /-- Git knows no id. -/
  | unidentified {e : Error} (ha : IsAskable revision) (h : git.idAt st revision = .error e) :
    LookupRun (.error e, st.asked (idCommand revision))
  /-- The commit of the id is remembered. -/
  | remembered {id : Text} {c : Commit} (ha : IsAskable revision)
    (h : git.idAt st revision = .ok id) (hc : st.commit? id = some c) :
    LookupRun (.ok c, st.asked (idCommand revision))
  /-- The message of the commit cannot be read. -/
  | unreadable {id : Text} {e : Error} (ha : IsAskable revision)
    (h : git.idAt st revision = .ok id) (hc : st.commit? id = none)
    (hs : git.summaryAfter (st.calls ++ [idCommand revision]) id =
      .error e) :
    LookupRun (.error e, (st.asked (idCommand revision)).asked (summaryCommand id))
  /-- The commit is made and remembered. -/
  | made {id summary : Text} (ha : IsAskable revision)
    (h : git.idAt st revision = .ok id) (hc : st.commit? id = none)
    (hs : git.summaryAfter (st.calls ++ [idCommand revision]) id =
      .ok summary) :
    LookupRun (.ok ⟨id, summary, st.made⟩,
      { (st.asked (idCommand revision)).asked (summaryCommand id) with
        commits := (id, ⟨id, summary, st.made⟩) :: st.commits, made := st.made + 1 })

variable (git st revision) in
/-- Looking for a commit goes in one of these ways.

**Proof sketch.** The revision is askable or not, it has an id or not, the commit is remembered or
not, and if not, its message can be read or not. -/
theorem lookupRun : git.LookupRun st revision ((git.lookup revision).run.run st) := by
  by_cases ha : IsAskable revision
  · cases hid : git.idAt st revision with
    | error e =>
      rw [run_lookup_of_no_id ha hid]
      exact .unidentified ha hid
    | ok id =>
      cases hc : st.commit? id with
      | some c =>
        rw [run_lookup_of_remembered ha hid hc]
        exact .remembered ha hid hc
      | none =>
        rw [run_lookup_of_unmade ha hid hc]
        cases hs : git.summaryAfter (st.calls ++ [idCommand revision]) id with
        | error e => exact .unreadable ha hid hc hs
        | ok summary => exact .made ha hid hc hs
  · rw [run_lookup_of_not_askable ha]
    exact .refused ha

end Commits

end Git

/-! ## Requests one after the other -/

/-- What can be asked in a session. -/
inductive Request where
  /-- The stack of a branch, or of the current one. -/
  | stack (branch : Option Text)
  /-- The commit of a revision. -/
  | lookup (revision : Text)
  /-- The commit that a suffix selects from another. -/
  | suffix (commit : Commit) (text : Text)

/-- The revision that is looked up for a request, if it asks for a commit. -/
def Request.revision? : Request → Option Text
  | stack _ => none
  | lookup revision => some revision
  | suffix commit text => some (commit.id ++ text)

namespace Git

variable (git : Git)

/-- The session after one more request, whether or not it fails. -/
def serve (st : Session) : Request → Session
  | .stack branch => ((git.stackOf branch).run.run st).2
  | .lookup revision => ((git.lookup revision).run.run st).2
  | .suffix commit text => ((git.applySuffix commit text).run.run st).2

/-- The session after a list of requests. -/
def session (requests : List Request) : Session := requests.foldl git.serve .fresh

/-- Without requests the session is a new one. -/
@[simp]
lemma session_nil : git.session [] = .fresh := rfl

/-- The last request is served in the session after the others. -/
lemma session_concat (requests : List Request) (r : Request) :
    git.session (requests ++ [r]) = git.serve (git.session requests) r := by
  simp [session]

/-- One of the requests was made in such a session. -/
def Occurs (P : Session → Request → Prop) (requests : List Request) : Prop :=
  ∃ before r behind, requests = before ++ r :: behind ∧ P (git.session before) r

section Occurs

variable {git} {P : Session → Request → Prop}

/-- Nothing occurred before the first request. -/
lemma not_occurs_nil : ¬ git.Occurs P [] := by
  rintro ⟨before, r, behind, h, -⟩
  exact absurd h (by simp)

/-- What occurred was the last request or one before it. -/
lemma occurs_concat (requests : List Request) (r : Request) :
    git.Occurs P (requests ++ [r]) ↔ git.Occurs P requests ∨ P (git.session requests) r := by
  constructor
  · rintro ⟨before, r', behind, h, hP⟩
    obtain ⟨-, rfl, rfl⟩ | ⟨behind, rfl, rfl⟩ := append_singleton_eq_append_cons_iff.1 h
    · exact .inr hP
    · exact .inl ⟨before, r', behind, rfl, hP⟩
  · rintro (⟨before, r', behind, rfl, hP⟩ | hP)
    · exact ⟨before, r', behind ++ [r], by simp, hP⟩
    · exact ⟨requests, r, [], rfl, hP⟩

end Occurs

/-- A request for a commit looks for its revision. -/
lemma serve_of_revision {r : Request} {revision : Text} (h : r.revision? = some revision)
    (st : Session) : git.serve st r = ((git.lookup revision).run.run st).2 := by
  cases r <;> cases h <;> rfl

end Git

end PatchStack
