import PatchStack.Proofs.Runs

set_option autoImplicit false

/-!
# Questions and their commands

A question to a repository runs one command, and its answer is read off the reply to this command
alone, unless the command is not started. Here are the command of each question and the way its
answer is read; what is asked of a session is put together from them.

## Main definitions

* `PatchStack.Git.ask` — the reply to a command as text, if the command is started.
* `PatchStack.Git.Asks` — a computation runs one command and reads its answer.
* `PatchStack.Git.branchCommand`, `PatchStack.Git.branchIn` — the name of a branch.
* `PatchStack.Git.documentCommand`, `PatchStack.Git.documentIn`, `PatchStack.Git.documentAfter` — a
  stored document.
* `PatchStack.Git.idCommand`, `PatchStack.Git.idIn`, `PatchStack.Git.idAfter` — the id of a commit.
* `PatchStack.Git.summaryCommand`, `PatchStack.Git.summaryIn`, `PatchStack.Git.summaryAfter` — the
  message of a commit.
* `PatchStack.Git.Adds` — the commands that were added to a list are of a kind.

## Main results

* `PatchStack.Git.asks_branchName`, `PatchStack.Git.asks_readMetadata`,
  `PatchStack.Git.asks_revParse`, `PatchStack.Git.asks_commitSummary` — each question in this way.
* `PatchStack.Git.readRun` — reading a stack goes in one of the ways `PatchStack.Git.ReadRun`.
* `PatchStack.Git.adds_readStack` — the commands that reading a stack adds.
-/

namespace PatchStack

namespace Git

variable (git : Git)

/-- The reply to a command as text, after the commands asked for before it. There is none to a
command that is not started. -/
def ask (past : List Command) (command : Command) : Except Error Answer :=
  match launchFault? command with
  | some fault => .error (.breakdown (.launch fault))
  | none =>
    let reply := git past command
    .ok ⟨reply.status, Utf8.decode reply.out, Utf8.decode reply.err⟩

/-- The replies to a command that always succeeds and prints the text. -/
def prints (out : String) : List Reply := [⟨0, Utf8.encode out.toList, []⟩]

/-- The computation asks for the one command and ends as its answer is read. -/
def Asks {α : Type} (m : Shell α) (command : Command) (read : Answer → Except Error α) : Prop :=
  ∀ calls, m.run.run calls = (git.ask calls command >>= read, calls ++ [command])

/-- A command is asked for once. -/
lemma asks_run (command : Command) : git.Asks (git.run command) command .ok := by
  intro calls
  show (match launchFault? command with
    | some fault => throw (.breakdown (.launch fault))
    | none => pure _ : Shell Answer).run.run (calls ++ [command]) = _
  rw [ask]
  cases launchFault? command <;> rfl

variable {git} in
/-- What is made of an answer needs no other command. -/
lemma Asks.bind {α β : Type} {m : Shell α} {command : Command} {read : Answer → Except Error α}
    (h : git.Asks m command read) {f : α → Shell β} (g : α → Except Error β)
    (hf : ∀ a calls, (f a).run.run calls = (g a, calls)) :
    git.Asks (m >>= f) command fun a => read a >>= g := by
  intro calls
  rw [Run.run_bind, h calls, ← bind_assoc]
  cases git.ask calls command >>= read with
  | error e => rfl
  | ok a => exact hf a _

variable {git} in
/-- An answer may be read in an equal way. -/
lemma Asks.congr {α : Type} {m : Shell α} {command : Command} {read read' : Answer → Except Error α}
    (h : git.Asks m command read) (hread : ∀ a, read a = read' a) : git.Asks m command read' := by
  rwa [funext hread] at h

/-! ## Branches -/

/-- The command that finds the name of a branch. -/
def branchCommand : Option Text → Command
  | none => ["symbolic-ref".toList, "--quiet".toList, "--short".toList, "HEAD".toList]
  | some spec =>
    if isPreviousBranch spec then ["rev-parse".toList, "--symbolic-full-name".toList, spec]
    else ["rev-parse".toList, "--verify".toList, "--quiet".toList, branchDirectory ++ spec]

/-- The current branch in the answer to its command, if there is one. -/
def currentIn (a : Answer) : Option Text :=
  if a.status ≠ 0 ∨ a.out.trim = [] then none else some a.out.trim

/-- The branch left before in the answer to its command, if there is one. -/
def previousIn (a : Answer) : Option Text :=
  if a.status ≠ 0 ∨ !branchDirectory.isPrefixOf a.out.trim then none
  else some (a.out.trim.drop branchDirectory.length)

/-- The name of a branch in the answer to its command. -/
def branchIn : Option Text → Answer → Except Error Text
  | none, a =>
    match currentIn a with
    | some name => .ok name
    | none => .error (.unknownBranch none (some "HEAD is not on a branch".toList))
  | some spec, a =>
    if isPreviousBranch spec then
      match previousIn a with
      | some name => .ok name
      | none => .error (.unknownBranch (some spec) none)
    else if a.status = 0 then .ok spec
    else .error (.unknownBranch (some spec) none)

/-- The current branch is found by one command. -/
lemma asks_currentBranch :
    git.Asks git.currentBranch (branchCommand none) fun a => .ok (currentIn a) :=
  (git.asks_run _).bind _ fun _ _ => rfl

/-- The branch left before is found by one command. -/
lemma asks_previousBranch (spec : Text) :
    git.Asks (git.previousBranch spec) ["rev-parse".toList, "--symbolic-full-name".toList, spec]
      fun a => .ok (previousIn a) :=
  (git.asks_run _).bind _ fun _ _ => rfl

/-- Whether a reference exists is found by one command. -/
lemma asks_refExists (ref : Text) :
    git.Asks (git.refExists ref) ["rev-parse".toList, "--verify".toList, "--quiet".toList, ref]
      fun a => .ok (decide (a.status = 0)) :=
  (git.asks_run _).bind _ fun _ _ => rfl

/-- The name of a branch is found by one command.

**Proof sketch.** Each of the three ways to name a branch asks one question, and what follows
depends on the answer only. -/
theorem asks_branchName (branch : Option Text) :
    git.Asks (git.branchName branch) (branchCommand branch) (branchIn branch) := by
  cases branch with
  | none =>
    refine (git.asks_currentBranch.bind (fun
      | some name => .ok name
      | none => .error (.unknownBranch none (some "HEAD is not on a branch".toList)))
      fun name calls => ?_).congr fun a => rfl
    cases name <;> rfl
  | some spec =>
    unfold branchName branchCommand branchIn
    dsimp only
    split_ifs
    · refine ((git.asks_previousBranch spec).bind (fun
        | some name => .ok name
        | none => .error (.unknownBranch (some spec) none)) fun name calls => ?_).congr fun a => rfl
      cases name <;> rfl
    · refine ((git.asks_refExists (branchDirectory ++ spec)).bind
        (fun found => if found then .ok spec else .error (.unknownBranch (some spec) none))
        fun found calls => ?_).congr fun a => ?_
      · cases found <;> rfl
      · by_cases h : a.status = 0 <;> simp [h, bind, Except.bind]

/-! ## Stored documents -/

/-- The command that prints the document stored for a branch. -/
def documentCommand (branch : Text) : Command :=
  ["cat-file".toList, "-p".toList, stackDirectory ++ branch ++ ':' :: stackFile]

/-- The document stored for a branch in the answer to its command. -/
def documentIn (branch : Text) (a : Answer) : Except Error Metadata :=
  if a.status ≠ 0 then
    .error (.unknownBranch (some branch) (some "branch has no stack metadata".toList))
  else match Metadata.ofText a.out with
    | .ok m => .ok m
    | .error fault => .error (.git (.invalidMetadata branch fault))

/-- The contents of a file are read by one command. -/
lemma asks_showBlob (revision path : Text) :
    git.Asks (git.showBlob revision path)
      ["cat-file".toList, "-p".toList, revision ++ ':' :: path]
      fun a => .ok (if a.status ≠ 0 then none else some a.out) :=
  (git.asks_run _).bind _ fun _ _ => rfl

/-- The document stored for a branch, as git answers after the commands. -/
def documentAfter (calls : List Command) (branch : Text) : Except Error Metadata :=
  git.ask calls (documentCommand branch) >>= documentIn branch

/-- The document stored for a branch is read by one command.

**Proof sketch.** One question is asked, and what follows depends on the answer only. -/
theorem asks_readMetadata (branch : Text) :
    git.Asks (git.readMetadata branch) (documentCommand branch) (documentIn branch) := by
  refine ((git.asks_showBlob _ _).bind (fun
    | none => .error (.unknownBranch (some branch) (some "branch has no stack metadata".toList))
    | some document =>
      match Metadata.ofText document with
      | .ok m => .ok m
      | .error fault => .error (.git (.invalidMetadata branch fault)))
    fun document calls => ?_).congr fun a => ?_
  · cases document with
    | none => rfl
    | some document =>
      dsimp only
      cases Metadata.ofText document <;> rfl
  · unfold documentIn
    split_ifs <;> rfl

/-! ## Commits -/

/-- Can the revision be given to git? It could be taken for an option otherwise. -/
def IsAskable (revision : Text) : Prop := revision ≠ [] ∧ revision.head? ≠ some '-'

/-- The command that finds the id of a commit. -/
def idCommand (revision : Text) : Command :=
  ["rev-parse".toList, "--verify".toList, commitRevision revision]

/-- The id of a commit in the answer to its command. -/
def idIn (revision : Text) (a : Answer) : Except Error Text :=
  if a.status = 0 then .ok a.out.trim
  else if speaksOfAmbiguity a.err then .error (.ambiguousPrefix revision (hints a.err))
  else .error (.unknownCommit revision)

/-- The id of a commit, as git answers after the commands. -/
def idAfter (calls : List Command) (revision : Text) : Except Error Text :=
  git.ask calls (idCommand revision) >>= idIn revision

/-- The id of a commit is found by one command. -/
theorem asks_revParse {revision : Text} (h : IsAskable revision) :
    git.Asks (git.revParse revision) (idCommand revision) (idIn revision) := by
  have hnot : ¬ (revision = [] ∨ revision.head? = some '-') := not_or.2 h
  unfold revParse
  rw [if_neg hnot]
  refine ((git.asks_run (idCommand revision)).bind (idIn revision) fun a calls => ?_).congr
    fun a => rfl
  unfold idIn
  split_ifs <;> rfl

/-- What could be taken for an option is not given to git. -/
lemma run_revParse_of_not_askable {revision : Text} (h : ¬ IsAskable revision)
    (calls : List Command) :
    (git.revParse revision).run.run calls = (.error (.unknownCommit revision), calls) := by
  have hoption : revision = [] ∨ revision.head? = some '-' := by
    by_contra hnot
    exact h (not_or.1 hnot)
  unfold revParse
  rw [if_pos hoption]
  rfl

/-- The command that prints the first line of a commit's message. -/
def summaryCommand (id : Text) : Command :=
  ["log".toList, "-1".toList, "--format=%s".toList, id]

/-- The first line of a commit's message in the answer to its command. -/
def summaryIn (id : Text) (a : Answer) : Except Error Text :=
  if a.status ≠ 0 then .error (.git (.commandFailed (summaryCommand id) (failureReason a)))
  else .ok a.out.trim

/-- The first line of a commit's message, as git answers after the commands. -/
def summaryAfter (calls : List Command) (id : Text) : Except Error Text :=
  git.ask calls (summaryCommand id) >>= summaryIn id

/-- The message of a commit is read by one command. -/
theorem asks_commitSummary (id : Text) :
    git.Asks (git.commitSummary id) (summaryCommand id) (summaryIn id) := by
  refine ((git.asks_run (summaryCommand id)).bind (summaryIn id) fun a calls => ?_).congr
    fun a => rfl
  unfold summaryIn
  split_ifs <;> rfl

/-! ## Stacks -/

section Reading

variable {git} {calls : List Command} {name : Text}

variable (git calls name) in
/-- The ways in which reading a stack can go, each with how it ends and the commands after it. -/
inductive ReadRun : Except Error Stack × List Command → Prop where
  /-- There is no document, or it cannot be used. -/
  | undocumented {e : Error}
    (h : git.documentAfter calls name = .error e) :
    ReadRun (.error e, calls ++ [documentCommand name])
  /-- The base could be taken for an option. -/
  | refused {m : Metadata}
    (h : git.documentAfter calls name = .ok m)
    (ha : ¬ IsAskable (baseRevision m)) :
    ReadRun (.error (.unknownCommit (baseRevision m)), calls ++ [documentCommand name])
  /-- The base has no id. -/
  | baseless {m : Metadata} {e : Error}
    (h : git.documentAfter calls name = .ok m)
    (ha : IsAskable (baseRevision m))
    (hbase : git.idAfter (calls ++ [documentCommand name]) (baseRevision m) = .error e) :
    ReadRun (.error e, calls ++ [documentCommand name] ++ [idCommand (baseRevision m)])
  /-- The document contradicts itself. -/
  | inconsistent {m : Metadata} {base : Text} {report : Report}
    (h : git.documentAfter calls name = .ok m)
    (ha : IsAskable (baseRevision m))
    (hbase : git.idAfter (calls ++ [documentCommand name]) (baseRevision m) = .ok base)
    (hs : m.toStack base = .error report) :
    ReadRun (.error (.git (.inconsistentMetadata name report)),
      calls ++ [documentCommand name] ++ [idCommand (baseRevision m)])
  /-- The document becomes the stack. -/
  | read {m : Metadata} {base : Text} {s : Stack}
    (h : git.documentAfter calls name = .ok m)
    (ha : IsAskable (baseRevision m))
    (hbase : git.idAfter (calls ++ [documentCommand name]) (baseRevision m) = .ok base)
    (hs : m.toStack base = .ok s) :
    ReadRun (.ok s, calls ++ [documentCommand name] ++ [idCommand (baseRevision m)])

variable (git calls name) in
/-- Reading a stack goes in one of these ways.

**Proof sketch.** The document is asked for first. If it can be used, the base is asked for, unless
its revision is refused, and with both the stack is put together or not. -/
theorem readRun : git.ReadRun calls name ((git.readStack name).run.run calls) := by
  have hdocument : (git.readMetadata name).run.run calls =
      (git.documentAfter calls name, calls ++ [documentCommand name]) :=
    git.asks_readMetadata name calls
  have hid {revision : Text} (ha : IsAskable revision) (calls : List Command) :
      (git.revParse revision).run.run calls =
        (git.idAfter calls revision, calls ++ [idCommand revision]) := git.asks_revParse ha calls
  rw [readStack, Run.run_bind, hdocument]
  cases h : git.documentAfter calls name with
  | error e => exact .undocumented h
  | ok m =>
    dsimp only
    by_cases ha : IsAskable (baseRevision m)
    · rw [Run.run_bind, hid ha]
      cases hbase : git.idAfter (calls ++ [documentCommand name]) (baseRevision m) with
      | error e => exact .baseless h ha hbase
      | ok base =>
        dsimp only
        cases hs : m.toStack base with
        | ok s => exact .read h ha hbase hs
        | error report => exact .inconsistent h ha hbase hs
    · rw [Run.run_bind, git.run_revParse_of_not_askable ha]
      exact .refused h ha

end Reading

/-! ## Commands added -/

/-- The second list of commands goes on from the first one with such commands. -/
def Adds (p : Command → Prop) (calls calls' : List Command) : Prop :=
  ∃ new, calls' = calls ++ new ∧ ∀ command ∈ new, p command

section Adds

variable {git} {p : Command → Prop} {calls calls' calls'' : List Command}

/-- Nothing may be added. -/
lemma Adds.refl (p : Command → Prop) (calls : List Command) : Adds p calls calls :=
  ⟨[], (List.append_nil calls).symm, by simp⟩

/-- What is added in two steps is added. -/
lemma Adds.trans (h : Adds p calls calls') (h' : Adds p calls' calls'') : Adds p calls calls'' := by
  obtain ⟨new, rfl, hnew⟩ := h
  obtain ⟨new', rfl, hnew'⟩ := h'
  exact ⟨new ++ new', List.append_assoc .., List.forall_mem_append.2 ⟨hnew, hnew'⟩⟩

/-- One command may be added. -/
lemma Adds.concat {command : Command} (h : p command) (calls : List Command) :
    Adds p calls (calls ++ [command]) :=
  ⟨[command], rfl, by simpa using h⟩

/-- Reading a stack asks for its document and then for one id. -/
theorem adds_readStack {name : Text} (hdocument : p (documentCommand name))
    (hid : ∀ revision, IsAskable revision → p (idCommand revision)) (calls : List Command) :
    Adds p calls ((git.readStack name).run.run calls).2 := by
  have hasked : Adds p calls (calls ++ [documentCommand name]) := .concat hdocument calls
  have hrun := git.readRun calls name
  generalize (git.readStack name).run.run calls = r at hrun ⊢
  cases hrun with
  | undocumented | refused => exact hasked
  | baseless h ha | inconsistent h ha | read h ha => exact hasked.trans (.concat (hid _ ha) _)

end Adds

end Git

end PatchStack
