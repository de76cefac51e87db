import PatchStack.Proofs.Sessions

set_option autoImplicit false

/-!
# One stack for each branch

All that a session sees of a branch is one stack: the first one that could be read for it. The
stacks remembered are those found by the requests so far, whatever git replies to them and however
the branch was spelt.

## Main definitions

* `PatchStack.Git.Finds`, `PatchStack.Git.HasFound` — a stack is found, or was found, for a branch.
* `PatchStack.Git.FindsStacksOnce` — how a session finds stacks.

## Main results

* `PatchStack.Git.stack?_serve_eq_some_iff` — what one request adds to the stacks remembered.
* `PatchStack.Git.stack?_session_eq_some_iff` — the stacks remembered are the stacks found.
* `PatchStack.Git.one_stack_per_branch` — a branch has one stack in a session.
-/

namespace PatchStack

namespace Git

variable (git : Git)

/-! ## One request -/

/-- Looking for a commit does not touch the stacks. -/
lemma branchStacks_lookup (revision : Text) (st : Session) :
    ((git.lookup revision).run.run st).2.branchStacks = st.branchStacks := by
  have hrun := git.lookupRun st revision
  generalize (git.lookup revision).run.run st = r at hrun ⊢
  cases hrun <;> rfl

variable {git}

/-- A stack that was just read is remembered for its branch, and no other one is. -/
lemma stack?_remember {st st' : Session} {name : Text} {s : Stack}
    (h : st'.branchStacks = (name, s) :: st.branchStacks) (hnone : st.stack? name = none)
    (name' : Text) (s' : Stack) :
    st'.stack? name' = some s' ↔ st.stack? name' = some s' ∨ (name' = name ∧ s' = s) := by
  unfold Session.stack?
  rw [h]
  exact find?_map_cons_eq_some_iff hnone name' s'

/-- A stack is remembered as in a session that remembers the same ones. -/
lemma stack?_congr {st st' : Session} (h : st'.branchStacks = st.branchStacks) (name : Text) :
    st'.stack? name = st.stack? name := by
  simp [Session.stack?, h]

/-- Looking for the stack of a branch: what is remembered afterwards was remembered before, or was
found for the branch that is meant.

**Proof sketch.** There is one case for each way in which looking for a stack may go. Only where a
stack is read is one remembered that was not. -/
lemma stack?_stackOf_eq_some_iff (branch : Option Text) (st : Session) (name : Text) (s : Stack) :
    ((git.stackOf branch).run.run st).2.stack? name = some s ↔
      st.stack? name = some s ∨
        (git.branchAt st branch = .ok name ∧ ((git.stackOf branch).run.run st).1 = .ok s) := by
  have hrun := git.stackRun st branch
  generalize (git.stackOf branch).run.run st = r at hrun ⊢
  cases hrun with
  | unnamed h => simp
  | @remembered name' s' h hs =>
    constructor
    · exact .inl
    · rintro (hkept | ⟨hname, hfound⟩)
      · exact hkept
      · cases h.symm.trans hname
        cases hfound
        exact hs
  | @unreadable name' e calls h hs hread =>
    have hkept : { st with calls := calls }.stack? name = st.stack? name := rfl
    simp [hkept]
  | @read name' s' calls h hs hread =>
    rw [stack?_remember rfl hs, h]
    simp [eq_comm]

variable (git) in
/-- The request finds the stack for the branch of the name, however that is spelt. -/
def Finds (st : Session) (r : Request) (name : Text) (s : Stack) : Prop :=
  ∃ branch, r = .stack branch ∧ git.branchAt st branch = .ok name ∧
    ((git.stackOf branch).run.run st).1 = .ok s

/-- What one request adds to the stacks remembered. -/
theorem stack?_serve_eq_some_iff (r : Request) (st : Session) (name : Text) (s : Stack) :
    (git.serve st r).stack? name = some s ↔ st.stack? name = some s ∨ git.Finds st r name s := by
  cases r with
  | stack branch => simp [Finds, serve, stack?_stackOf_eq_some_iff]
  | lookup revision => simp [Finds, serve, stack?_congr (git.branchStacks_lookup revision st)]
  | suffix c text => simp [Finds, serve, applySuffix, stack?_congr (git.branchStacks_lookup _ st)]

/-! ## All requests -/

variable (git) in
/-- One of the requests found the stack for the branch of the name. -/
def HasFound (requests : List Request) (name : Text) (s : Stack) : Prop :=
  git.Occurs (fun st r => git.Finds st r name s) requests

/-- The stacks remembered are the stacks found. -/
theorem stack?_session_eq_some_iff (requests : List Request) (name : Text) (s : Stack) :
    (git.session requests).stack? name = some s ↔ git.HasFound requests name s := by
  induction requests using List.reverseRecOn with
  | nil => simp [HasFound, Session.fresh, Session.stack?, not_occurs_nil]
  | append_singleton requests r ih =>
    rw [session_concat, stack?_serve_eq_some_iff, ih, HasFound, HasFound, occurs_concat]

variable (git) in
/-- How a session finds stacks after a list of requests. -/
structure FindsStacksOnce (requests : List Request) : Prop where
  /-- Stacks that were found for one branch are equal. -/
  unique : ∀ name s s', git.HasFound requests name s → git.HasFound requests name s' → s = s'
  /-- A stack that was found for a branch is found again, and the one command that is run for it
  tells which branch is meant. -/
  found_again : ∀ name s branch, git.HasFound requests name s →
    git.branchAt (git.session requests) branch = .ok name →
    (git.stackOf branch).run.run (git.session requests) =
      (.ok s, (git.session requests).asked (branchCommand branch))
  /-- As long as no stack was found for a branch, it is read afresh. -/
  read_afresh : ∀ name branch, (∀ s, ¬ git.HasFound requests name s) →
    git.branchAt (git.session requests) branch = .ok name →
    (git.stackOf branch).run.run (git.session requests) =
      match (git.readStack name).run.run
          ((git.session requests).calls ++ [branchCommand branch]) with
      | (.ok s, calls) =>
        (.ok s, { git.session requests with
          calls := calls, branchStacks := (name, s) :: (git.session requests).branchStacks })
      | (.error e, calls) => (.error e, { git.session requests with calls := calls })
  /-- A failure leaves the stacks that are remembered as they were. -/
  kept_by_failure : ∀ branch e st',
    (git.stackOf branch).run.run (git.session requests) = (.error e, st') →
    st'.branchStacks = (git.session requests).branchStacks

/-- **One stack for each branch.** After any requests, whatever git replied to them and whichever
of them failed, a session finds one stack for each branch, however the branch is spelt.

**Proof sketch.** By induction on the requests, the stacks that are remembered are those that were
found: a request adds the stack that it found for the branch that was meant, and only if there was
none. So looking for a stack goes on from what was found before. -/
theorem one_stack_per_branch (git : Git) (requests : List Request) :
    git.FindsStacksOnce requests := by
  constructor
  case unique =>
    intro name s s' h h'
    rw [← stack?_session_eq_some_iff] at h h'
    exact Option.some.inj (h.symm.trans h')
  case found_again =>
    intro name s branch h hb
    exact run_stackOf_of_remembered hb ((stack?_session_eq_some_iff ..).2 h)
  case read_afresh =>
    intro name branch h hb
    have hnone : (git.session requests).stack? name = none :=
      Option.eq_none_iff_forall_not_mem.2 fun s hs => h s ((stack?_session_eq_some_iff ..).1 hs)
    exact run_stackOf_of_unread hb hnone
  case kept_by_failure => exact fun branch e st' h => branchStacks_of_failure h

/-- A repository with an empty stack on its only branch. -/
def mainOnly : ReplyTable :=
  [("symbolic-ref --quiet --short HEAD".toList, prints "main\n"),
    ("rev-parse --verify --quiet refs/heads/main".toList, prints "c0\n"),
    ("cat-file -p refs/stacks/main:stack.json".toList,
      prints "\x7b\"version\": 5, \"head\": \"c0\"\x7d"),
    ("rev-parse --verify c0^\x7bcommit\x7d".toList, prints "c0\n")]

/-- The stack of the current branch is found again under the branch's name. -/
theorem one_stack_per_branch_mainOnly :
    ∃ s, mainOnly.git.HasFound [.stack none] "main".toList s ∧
      (mainOnly.git.stackOf (some "main".toList)).run.run (mainOnly.git.session [.stack none]) =
        (.ok s,
          (mainOnly.git.session [.stack none]).asked (branchCommand (some "main".toList))) := by
  have hread : ((mainOnly.git.stackOf none).run.run .fresh).1.toBool = true := by decide +kernel
  cases hs : ((mainOnly.git.stackOf none).run.run .fresh).1 with
  | error e =>
    rw [hs] at hread
    cases hread
  | ok s =>
    have hbranch : mainOnly.git.branchAt .fresh none = .ok "main".toList := by rfl
    have hfound : mainOnly.git.HasFound [.stack none] "main".toList s :=
      ⟨[], .stack none, [], rfl, none, rfl, hbranch, hs⟩
    exact ⟨s, hfound, (one_stack_per_branch mainOnly.git [.stack none]).found_again _ s _ hfound
      (by decide +kernel)⟩

end Git

end PatchStack
