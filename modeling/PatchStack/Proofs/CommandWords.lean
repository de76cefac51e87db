import PatchStack.Proofs.Resolutions
import PatchStack.Proofs.Sessions
import PatchStack.Proofs.StackOrder

set_option autoImplicit false

/-!
# The words of commands

A command of git is made of fixed words and of one argument behind them, and the argument is where
texts of the user and of stored documents go. None of them can be taken for an option: they follow
a fixed beginning, or what begins with a dash was refused before.

## Main definitions

* `PatchStack.Git.CommandForm` — the commands without their arguments.
* `PatchStack.Git.IsPlain` — a command of such a form with an argument that is no option.
* `PatchStack.Git.PrintsIds` — the ids that git prints do not look like options.
* `PatchStack.Call` — what can be asked in a session, single questions and whole revisions.
* `PatchStack.Git.sessionAfter` — the session after a list of calls.

## Main results

* `PatchStack.Git.services_add_plain` — the services of git run plain commands only.
* `PatchStack.Git.addsPlain_perform` — so does every call.
* `PatchStack.Git.commands_plain` — all commands of a session are plain.
-/

namespace PatchStack

namespace Git

/-! ## Plain commands -/

/-- The commands without their arguments. -/
inductive CommandForm where
  /-- Asks which branch a symbolic reference stands for. -/
  | symbolicRef
  /-- Asks for the full name of a reference. -/
  | fullName
  /-- Asks whether a reference exists. -/
  | refExists
  /-- Asks for the id of a commit. -/
  | id
  /-- Asks for the first line of a commit's message. -/
  | summary
  /-- Asks for the contents of a file. -/
  | contents

/-- The fixed words of a command. -/
def CommandForm.words : CommandForm → List Text
  | .symbolicRef => ["symbolic-ref".toList, "--quiet".toList, "--short".toList]
  | .fullName => ["rev-parse".toList, "--symbolic-full-name".toList]
  | .refExists => ["rev-parse".toList, "--verify".toList, "--quiet".toList]
  | .id => ["rev-parse".toList, "--verify".toList]
  | .summary => ["log".toList, "-1".toList, "--format=%s".toList]
  | .contents => ["cat-file".toList, "-p".toList]

/-- The command is made of the fixed words of a form and of one argument behind them, which is no
option. -/
def IsPlain (command : Command) : Prop :=
  ∃ (form : CommandForm) (argument : Text),
    command = form.words ++ [argument] ∧ argument.head? ≠ some '-'

/-- What begins like something that can be given to git is no option. -/
lemma head?_append_ne {beginning : Text} (h : IsAskable beginning) (rest : Text) :
    (beginning ++ rest).head? ≠ some '-' := by
  obtain ⟨c, beginning, rfl⟩ := List.exists_cons_of_ne_nil h.1
  exact h.2

/-- A branch that was left before is spelled with an at sign in front. -/
lemma head?_of_isPreviousBranch {spec : Text} (h : isPreviousBranch spec = true) :
    spec.head? = some '@' := by
  simp only [isPreviousBranch, Bool.and_eq_true, List.isPrefixOf_iff_prefix] at h
  obtain ⟨rest, rfl⟩ := h.1.1
  rfl

/-- The name of a branch stands behind the directory of branches, or begins with an at sign. -/
lemma isPlain_branchCommand (branch : Option Text) : IsPlain (branchCommand branch) := by
  cases branch with
  | none => exact ⟨.symbolicRef, "HEAD".toList, rfl, by decide⟩
  | some spec =>
    unfold branchCommand
    dsimp only
    split_ifs with hprevious
    · refine ⟨.fullName, spec, rfl, ?_⟩
      rw [head?_of_isPreviousBranch hprevious]
      decide
    · exact ⟨.refExists, branchDirectory ++ spec, rfl, head?_append_ne ⟨by decide, by decide⟩ _⟩

/-- The name of a branch stands behind the directory of stacks. -/
lemma isPlain_documentCommand (branch : Text) : IsPlain (documentCommand branch) := by
  refine ⟨.contents, stackDirectory ++ branch ++ ':' :: stackFile, rfl, ?_⟩
  rw [List.append_assoc]
  exact head?_append_ne ⟨by decide, by decide⟩ _

/-- A revision is given to git as it is, but not if it begins with a dash. -/
lemma isPlain_idCommand {revision : Text} (h : IsAskable revision) :
    IsPlain (idCommand revision) :=
  ⟨.id, commitRevision revision, rfl, head?_append_ne h _⟩

/-- The message of a commit is asked for by an id. -/
lemma isPlain_summaryCommand {id : Text} (h : id.head? ≠ some '-') : IsPlain (summaryCommand id) :=
  ⟨.summary, id, rfl, h⟩

/-- The ids that git prints for revisions do not begin with a dash. -/
def PrintsIds (git : Git) : Prop :=
  ∀ past revision a, git.ask past (idCommand revision) = .ok a → a.status = 0 →
    a.out.trim.head? ≠ some '-'

end Git

/-- What can be asked in a session. -/
inductive Call where
  /-- The stack of a branch, the commit of a revision, or a commit selected by a suffix. -/
  | request (r : Request)
  /-- The name of a branch, or of the current one. -/
  | branchName (branch : Option Text)
  /-- The document stored for the stack of a branch. -/
  | metadata (branch : Text)
  /-- A single revision, or both ends of a range. -/
  | resolve (spec : RevisionSpec) (current : Option Stack) (constraint : RangeConstraint)

namespace Git

variable {git : Git}

/-- The session after one more call, whether or not it fails. -/
def perform (git : Git) (st : Session) : Call → Session
  | .request r => git.serve st r
  | .branchName branch => ((Session.shell (git.branchName branch)).run.run st).2
  | .metadata branch => ((Session.shell (git.readMetadata branch)).run.run st).2
  | .resolve spec current constraint =>
    ((resolveSpec git.services spec current constraint).run.run st).2

/-- The session after a list of calls. -/
def sessionAfter (git : Git) (calls : List Call) : Session := calls.foldl git.perform .fresh

/-! ## What calls add -/

/-- From the first session to the second, plain commands were run only. -/
def AddsPlain (st st' : Session) : Prop := Adds IsPlain st.calls st'.calls

/-- One plain command may be added. -/
lemma AddsPlain.asked {command : Command} (h : IsPlain command) (st : Session) :
    AddsPlain st (st.asked command) := .concat h st.calls

/-- Looking for a stack runs plain commands only. -/
lemma addsPlain_stackOf (branch : Option Text) (st : Session) :
    AddsPlain st ((git.stackOf branch).run.run st).2 := by
  have hdocument (name : Text) (_ : git.branchAt st branch = .ok name) :
      IsPlain (documentCommand name) := isPlain_documentCommand name
  obtain ⟨calls, branchStacks, hst, hadds⟩ := exists_state_of_stackOf branch st
    (isPlain_branchCommand branch) hdocument (fun revision => isPlain_idCommand)
  rw [AddsPlain, hst]
  exact hadds

/-- Looking for a commit runs plain commands only: what is refused is not given to git, and the
message is asked for by the id that git printed.

**Proof sketch.** There is one case for each way in which looking for a commit may go. The revision
is asked for only if it is askable, and the message by an id that git printed. -/
lemma addsPlain_lookup (hids : git.PrintsIds) (revision : Text) (st : Session) :
    AddsPlain st ((git.lookup revision).run.run st).2 := by
  have hsummary {id : Text} (hid : git.idAt st revision = .ok id) :
      IsPlain (summaryCommand id) := by
    obtain ⟨a, ha, hread⟩ := bind_eq_ok_iff.1 hid
    unfold idIn at hread
    split_ifs at hread with hstatus
    cases hread
    exact isPlain_summaryCommand (hids st.calls revision a ha hstatus)
  have hrun := git.lookupRun st revision
  generalize (git.lookup revision).run.run st = r at hrun ⊢
  cases hrun with
  | refused => exact .refl _ _
  | unidentified ha | remembered ha => exact .asked (isPlain_idCommand ha) st
  | unreadable ha hid | made ha hid =>
    exact (Adds.concat (isPlain_idCommand ha) st.calls).trans (.concat (hsummary hid) _)

/-- The services of git run plain commands only. -/
theorem services_add_plain (hids : git.PrintsIds) :
    git.services.Leads AddsPlain fun _ _ => True where
  refl _ := .refl _ _
  trans _ _ _ h h' := h.trans h'
  kept _ _ := trivial
  stackOf branch st := ⟨addsPlain_stackOf branch st, fun _ _ => trivial⟩
  lookup revision st := ⟨addsPlain_lookup hids revision st, fun _ _ => trivial⟩
  applySuffix commit suffix st := ⟨addsPlain_lookup hids (commit.id ++ suffix) st,
    fun _ _ => trivial⟩

/-- One more call runs plain commands only, whether or not it fails.

**Proof sketch.** There is one case for each call, and of each the commands are known. -/
theorem addsPlain_perform (hids : git.PrintsIds) (st : Session) (call : Call) :
    AddsPlain st (git.perform st call) := by
  have hleads := services_add_plain hids
  cases call with
  | request r =>
    cases r with
    | stack branch => exact (hleads.stackOf branch st).1
    | lookup revision => exact (hleads.lookup revision st).1
    | suffix commit text => exact (hleads.applySuffix commit text st).1
  | branchName branch =>
    rw [perform, run_branchName]
    exact .asked (isPlain_branchCommand branch) st
  | metadata branch =>
    rw [perform, (git.asks_readMetadata branch).run_shell]
    exact .asked (isPlain_documentCommand branch) st
  | resolve spec current constraint => exact (hleads.resolveSpec current spec constraint st).1

/-- Calls one after the other run plain commands only. -/
lemma addsPlain_foldl (hids : git.PrintsIds) (calls : List Call) (st : Session) :
    AddsPlain st (calls.foldl git.perform st) := by
  induction calls generalizing st with
  | nil => exact .refl _ _
  | cons call calls ih => exact (addsPlain_perform hids st call).trans (ih _)

/-- **No text becomes an option of git.** Whatever is asked in a session, directly or to resolve
revisions, and whatever the stored documents hold: each command that is run is made of fixed words
and of one argument behind them that does not begin with a dash.

**Proof sketch.** The names of branches stand behind a directory or begin with an at sign, and what
could be taken for an option is refused as a revision. The message of a commit is asked for by the
id that git printed. So each question adds plain commands to those run before, resolving adds them
as its services do, and by induction so does a list of calls. -/
theorem commands_plain (hids : git.PrintsIds) (calls : List Call) :
    ∀ command ∈ (git.sessionAfter calls).calls, IsPlain command := by
  obtain ⟨new, hnew, hplain⟩ := addsPlain_foldl hids calls .fresh
  intro command hcommand
  rw [sessionAfter, hnew] at hcommand
  exact hplain command hcommand

/-! ## Texts that look like options -/

/-- A reply of a table is listed there, or says that the revision is not known.

**Proof sketch.** The cases are those of the look-up: there is no entry, a reply of its own, or the
last one. -/
lemma reply_mem (table : ReplyTable) (past : List Command) (command : Command) :
    table.git past command = unknownReply ∨
      ∃ entry ∈ table, table.git past command ∈ entry.2 := by
  unfold ReplyTable.git
  cases hentry : table.find? fun entry => entry.1 == commandText command with
  | none => exact .inl rfl
  | some entry =>
    dsimp only
    have hmem := List.mem_of_find?_eq_some hentry
    cases hreply : entry.2[past.countP fun c => commandText c == commandText command]? with
    | some reply => exact .inr ⟨entry, hmem, List.mem_of_getElem? hreply⟩
    | none =>
      rw [Option.none_or]
      cases hlast : entry.2.getLast? with
      | none => exact .inl rfl
      | some reply => exact .inr ⟨entry, hmem, List.mem_of_getLast? hlast⟩

/-- A table whose replies do not begin with a dash prints ids.

**Proof sketch.** A reply of the table is one of those that are listed, or the reply to an unknown
revision, which is no success. -/
lemma printsIds_of_table {table : ReplyTable}
    (h : ∀ entry ∈ table, ∀ reply ∈ entry.2, (Utf8.decode reply.out).trim.head? ≠ some '-') :
    table.git.PrintsIds := by
  intro past revision a ha hstatus
  unfold ask at ha
  split at ha
  · cases ha
  cases ha
  rcases reply_mem table past (idCommand revision) with hunknown | ⟨entry, hentry, hreply⟩
  · have hfails : (table.git past (idCommand revision)).status ≠ 0 := by
      rw [hunknown]
      decide
    exact absurd hstatus hfails
  · exact h entry hentry _ hreply

/-- A repository with a patch whose name and commit look like options. -/
def dashes : ReplyTable :=
  [("symbolic-ref --quiet --short HEAD".toList, prints "main\n"),
    ("cat-file -p refs/stacks/main:stack.json".toList,
      prints ("\x7b\"version\": 5, \"head\": \"c0\", \"unapplied\": [\"-n\"], " ++
        "\"patches\": \x7b\"-n\": \x7b\"oid\": \"--all\"\x7d\x7d\x7d")),
    ("rev-parse --verify c0^\x7bcommit\x7d".toList, prints "c0\n"),
    ("log -1 --format=%s c0".toList, prints "first\n")]

/-- A revision that is spelled like an option, and is the name of a patch. -/
def dashRevision : RevisionSpec :=
  .single (.patchOrGit ⟨⟨.name ⟨"-n".toList, by decide⟩, .empty⟩, []⟩ "-n".toList)

/-- Questions for what is spelled like an option. -/
def dashCalls : List Call :=
  [.resolve dashRevision none .all, .request (.lookup "--exec".toList),
    .request (.lookup "c0".toList), .branchName (some "--force".toList)]

/-- Only plain commands are run for texts that look like options. -/
theorem commands_plain_dashes :
    dashes.git.PrintsIds ∧
      (dashes.git.sessionAfter dashCalls).calls.map (fun command => (commandText command).str) =
        ["symbolic-ref --quiet --short HEAD", "cat-file -p refs/stacks/main:stack.json",
          "rev-parse --verify c0^\x7bcommit\x7d", "rev-parse --verify c0^\x7bcommit\x7d",
          "log -1 --format=%s c0", "rev-parse --verify --quiet refs/heads/--force"] ∧
      ∀ command ∈ (dashes.git.sessionAfter dashCalls).calls, IsPlain command := by
  have hids : dashes.git.PrintsIds := printsIds_of_table (by decide +kernel)
  exact ⟨hids, by decide +kernel, commands_plain hids dashCalls⟩

end Git

end PatchStack
