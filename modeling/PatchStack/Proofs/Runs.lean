import Mathlib.Tactic.Common
import PatchStack.Git.Session

set_option autoImplicit false

/-!
# Runs step by step

A computation that can fail is known by what it does in each state: how it ends there and which
state it leaves. This file says so for each way of putting computations together, and follows
the failures that they can end with. Those of git's services for commits are the three that a
look-up is expected to have and the breakdown of a command that is not started. A stack is not
found for one of these or for want of a branch.

## Main definitions

* `PatchStack.Run.FailsOnly` — a computation fails with nothing but the given errors.
* `PatchStack.Run.LeadsFrom` — a computation leads from a state to a related one.
* `PatchStack.Error.isLookup` — the failures of looking for a commit.
* `PatchStack.Services.LooksUp` — services that fail to find commits in these ways only.
* `PatchStack.Services.FindsStacks` — services that do not fail to find a stack as a locator fails
  to find a patch.

## Main results

* `PatchStack.Run.run_bind`, `PatchStack.Run.run_outcome` — computations in steps.
* `PatchStack.Git.services_looksUp`, `PatchStack.Git.services_findsStacks` — the services of git
  are such services.
-/

namespace PatchStack

namespace Run

variable {σ τ α β : Type}

/-! ## What computations do in a state -/

/-- Computations are equal if they do the same in every state. -/
theorem ext {m m' : Run σ α} (h : ∀ st, m.run.run st = m'.run.run st) : m = m' :=
  funext h

/-- A computation that is done succeeds and leaves the state. -/
@[simp]
lemma run_pure (a : α) (st : σ) : (pure a : Run σ α).run.run st = (.ok a, st) := rfl

/-- A computation that fails leaves the state. -/
@[simp]
lemma run_throw (e : Error) (st : σ) : (throw e : Run σ α).run.run st = (.error e, st) := rfl

/-- An outcome that is known leaves the state. -/
@[simp]
lemma run_ofExcept (x : Except Error α) (st : σ) : (ofExcept x).run.run st = (x, st) := rfl

/-- Two steps: the second begins in the state in which the first succeeded. -/
theorem run_bind (m : Run σ α) (f : α → Run σ β) (st : σ) :
    (m >>= f).run.run st =
      match m.run.run st with
      | (.ok a, st') => (f a).run.run st'
      | (.error e, st') => (.error e, st') := by
  show StateT.run (ExceptT.run (m >>= f)) st = _
  simp only [ExceptT.run_bind, StateT.run_bind]
  rcases m.run.run st with ⟨_ | _, _⟩ <;> rfl

/-- Two steps succeed if both do, one after the other. -/
theorem run_bind_eq_ok_iff {m : Run σ α} {f : α → Run σ β} {b : β} {st st' : σ} :
    (m >>= f).run.run st = (.ok b, st') ↔
      ∃ a st₁, m.run.run st = (.ok a, st₁) ∧ (f a).run.run st₁ = (.ok b, st') := by
  rw [run_bind]
  constructor
  · intro h
    rcases hr : m.run.run st with ⟨e | a, st₁⟩
    · rw [hr] at h
      cases h
    · rw [hr] at h
      exact ⟨a, st₁, rfl, h⟩
  · rintro ⟨a, st₁, hm, hf⟩
    rw [hm]
    exact hf

/-- Looking at the outcome of a computation never fails. -/
@[simp]
theorem run_outcome (m : Run σ α) (st : σ) :
    m.outcome.run.run st = (.ok (m.run.run st).1, (m.run.run st).2) := rfl

/-! ## Failures -/

/-- The computation fails with no other errors than these. -/
def FailsOnly (p : Error → Prop) (m : Run σ α) : Prop :=
  ∀ st st' e, m.run.run st = (.error e, st') → p e

namespace FailsOnly

variable {p : Error → Prop} {m : Run σ α}

/-- What is done does not fail. -/
lemma pure (a : α) : FailsOnly p (pure a : Run σ α) := by
  intro st st' e h
  cases h

/-- What fails with one of the errors fails with no others. -/
lemma throw {e : Error} (h : p e) : FailsOnly p (throw e : Run σ α) := by
  intro st st' e' h'
  cases h'
  exact h

/-- Looking at the state does not fail. -/
lemma get : FailsOnly p (get : Run σ σ) := by
  intro st st' e h
  cases h

/-- Setting the state does not fail. -/
lemma set (s : σ) : FailsOnly p (set s : Run σ PUnit) := by
  intro st st' e h
  cases h

/-- Changing the state does not fail. -/
lemma modify (f : σ → σ) : FailsOnly p (modify f : Run σ PUnit) := by
  intro st st' e h
  cases h

/-- Two steps fail as one of them does. -/
lemma bind {f : α → Run σ β} (hm : FailsOnly p m) (hf : ∀ a, FailsOnly p (f a)) :
    FailsOnly p (m >>= f) := by
  intro st st' e h
  rw [run_bind] at h
  rcases hr : m.run.run st with ⟨e' | a, st₁⟩
  · rw [hr] at h
    cases h
    exact hm st _ e hr
  · rw [hr] at h
    exact hf a st₁ st' e h

/-- An outcome fails with the error that it holds. -/
lemma ofExcept {x : Except Error α} (h : ∀ e, x = .error e → p e) :
    FailsOnly p (ofExcept x : Run σ α) := by
  intro st st' e he
  exact h e (congrArg Prod.fst he)

/-- A computation that fails with these errors only fails with no others than more errors. -/
lemma mono {q : Error → Prop} (h : FailsOnly p m) (hpq : ∀ e, p e → q e) : FailsOnly q m :=
  fun st st' e he => hpq e (h st st' e he)

/-- Over a larger state a computation fails as it does by itself. -/
lemma zoom {n : Run τ α} {get : σ → τ} {set : τ → σ → σ} (h : FailsOnly p n) :
    FailsOnly p (n.zoom get set) := by
  intro st st' e he
  have hfst : (n.run.run (get st)).1 = .error e := congrArg Prod.fst he
  exact h (get st) _ e (Prod.ext hfst rfl)

end FailsOnly

/-! ## Where computations lead -/

/-- From the state, the computation leads to a related one, whether or not it fails, and what it
results in fits the state that it leaves. -/
def LeadsFrom (m : Run σ α) (st : σ) (R : σ → σ → Prop) (Q : α → σ → Prop) : Prop :=
  R st (m.run.run st).2 ∧ ∀ a, (m.run.run st).1 = .ok a → Q a (m.run.run st).2

namespace LeadsFrom

variable {m : Run σ α} {st : σ} {R : σ → σ → Prop} {Q : α → σ → Prop}

/-- An outcome leads nowhere else, and what it holds is what results. -/
lemma ofExcept {x : Except Error α} (h : R st st) :
    (ofExcept x).LeadsFrom st R fun a _ => x = .ok a :=
  ⟨h, fun _ hx => hx⟩

/-- What is done leads nowhere else. -/
lemma pure {a : α} (h : R st st) (ha : Q a st) : (pure a : Run σ α).LeadsFrom st R Q := by
  refine ⟨h, fun a' ha' => ?_⟩
  cases ha'
  exact ha

/-- What fails leads nowhere else. -/
lemma throw {e : Error} (h : R st st) : (throw e : Run σ α).LeadsFrom st R Q :=
  ⟨h, fun _ ha => nomatch ha⟩

/-- Looking at an outcome leads where the computation does. -/
lemma outcome (h : m.LeadsFrom st R Q) :
    m.outcome.LeadsFrom st R fun x st' => ∀ a, x = .ok a → Q a st' := by
  refine ⟨h.1, fun x hx a ha => h.2 a ?_⟩
  cases hx
  exact ha

/-- Two steps lead where the second does, from wherever the first succeeds. -/
lemma bind {f : α → Run σ β} {Q' : β → σ → Prop} (htrans : ∀ a b c, R a b → R b c → R a c)
    (hm : m.LeadsFrom st R Q) (hf : ∀ a st', R st st' → Q a st' → (f a).LeadsFrom st' R Q') :
    (m >>= f).LeadsFrom st R Q' := by
  obtain ⟨hR, hQ⟩ := hm
  unfold LeadsFrom
  rw [run_bind]
  rcases hr : m.run.run st with ⟨e | a, st'⟩
  · rw [hr] at hR
    exact ⟨hR, fun _ hb => nomatch hb⟩
  · rw [hr] at hR hQ
    obtain ⟨hR', hQ'⟩ := hf a st' hR (hQ a rfl)
    exact ⟨htrans _ _ _ hR hR', hQ'⟩

end LeadsFrom

end Run

/-! ## Looking for commits -/

/-- The failures of looking for a commit: there is none, there are several, the repository cannot
be used, or the computation breaks down on a number or on a command that is not started. -/
def Error.isLookup : Error → Bool
  | .unknownCommit _ | .ambiguousPrefix .. | .git _ => true
  | .breakdown (.numeral _) | .breakdown (.launch _) => true
  | _ => false

/-- Services that fail to find a commit only as is expected of them. Nothing is asked of the
stacks of branches. -/
structure Services.LooksUp {σ : Type} (v : Services σ) : Prop where
  /-- Looking for the commit of a revision fails as a look-up does. -/
  lookup : ∀ revision, (v.lookup revision).FailsOnly fun e => e.isLookup = true
  /-- So does selecting a commit by a suffix. -/
  applySuffix : ∀ commit suffix, (v.applySuffix commit suffix).FailsOnly fun e => e.isLookup = true

/-! ## Looking for stacks -/

/-- The failures of looking for a stack: there is no such branch or it has no stack, or a commit
of the stack cannot be looked up. -/
def Error.isStackLookup : Error → Bool
  | .unknownBranch .. => true
  | e => e.isLookup

/-- A stack may be missing because a commit is. -/
lemma Error.isStackLookup_of_isLookup {e : Error} (h : e.isLookup = true) :
    e.isStackLookup = true := by
  cases e <;> first | exact h | cases h

/-- The failures of looking for a patch in a stack that is there: no patch has the name, or the
index is outside. -/
def Error.isMissingPatch : Error → Bool
  | .unknownPatch .. | .outOfRange .. => true
  | _ => false

/-- Where a stack is missing, no patch is missing in it. -/
lemma Error.isMissingPatch_of_isStackLookup {e : Error} (h : e.isStackLookup = true) :
    e.isMissingPatch = false := by
  cases e <;> first | rfl | cases h

/-- Services that fail to find a stack in ways of their own: where no stack is found, no patch is
missing in it. -/
structure Services.FindsStacks {σ : Type} (v : Services σ) : Prop where
  /-- Looking for a stack fails in no way in which looking for a patch does. -/
  stackOf : ∀ branch, (v.stackOf branch).FailsOnly fun e => e.isMissingPatch = false

/-! ## The services of git -/

namespace Git

variable (git : Git)

/-- A command fails only if it is not started. -/
lemma run_failsOnly {p : Error → Prop} (hp : ∀ fault, p (.breakdown (.launch fault)))
    (command : Command) : (git.run command).FailsOnly p := by
  refine .bind .get fun _ => .bind (.set _) fun _ => ?_
  split
  · exact .throw (hp _)
  · exact .pure _

/-- What a revision names is not found, or several commits are.

**Proof sketch.** A revision with a dash in front is refused without a command, and each answer to
the command is a success or one of the two failures. -/
lemma revParse_failsOnly (revision : Text) :
    (git.revParse revision).FailsOnly fun e => e.isLookup = true := by
  have hanswer (answer : Answer) : Run.FailsOnly (fun e => e.isLookup = true)
      (if answer.status = 0 then pure answer.out.trim
        else if speaksOfAmbiguity answer.err then
          throw (.ambiguousPrefix revision (hints answer.err))
        else throw (.unknownCommit revision) : Shell Text) := by
    split_ifs
    · exact .pure _
    · exact .throw rfl
    · exact .throw rfl
  unfold revParse
  split_ifs
  · exact .bind (.throw rfl) fun _ => .bind (git.run_failsOnly (fun _ => rfl) _) hanswer
  · exact .bind (git.run_failsOnly (fun _ => rfl) _) hanswer

/-- The name of a branch is missing only if there is no such branch.

**Proof sketch.** Asking fails only at a command that is not started, and what follows fails only
for want of a branch. -/
lemma branchName_failsOnly (branch : Option Text) :
    (git.branchName branch).FailsOnly fun e => e.isStackLookup = true := by
  have hask {α : Type} (command : Command) (f : Answer → α) :
      (git.run command >>= fun answer => Pure.pure (f answer)).FailsOnly
        fun e => e.isStackLookup = true :=
    .bind (git.run_failsOnly (fun _ => rfl) command) fun _ => .pure _
  unfold branchName
  split
  · refine .bind (hask _ _) fun name => ?_
    split
    · exact .pure _
    · exact .throw rfl
  · split_ifs
    · refine .bind (hask _ _) fun name => ?_
      split
      · exact .pure _
      · exact .throw rfl
    · refine .bind (hask _ _) fun found => ?_
      split_ifs
      · exact .pure _
      · exact .throw rfl

/-- A stored document is missing only if the branch has none or it cannot be read. -/
lemma readMetadata_failsOnly (branch : Text) :
    (git.readMetadata branch).FailsOnly fun e => e.isStackLookup = true := by
  refine .bind (.bind (git.run_failsOnly (fun _ => rfl) _) fun _ => .pure _) fun document => ?_
  split
  · exact .throw rfl
  · split
    · exact .pure _
    · exact .throw rfl

/-- The stack of a branch is missing only if the branch has none, the stored document cannot be
used, or its base cannot be looked up.

**Proof sketch.** One bound for each step: the branch, the document, its base and what it is checked
against. What is remembered cannot fail. -/
theorem stackOf_failsOnly (branch : Option Text) :
    (git.stackOf branch).FailsOnly fun e => e.isStackLookup = true := by
  have hread (name : Text) : (git.readStack name).FailsOnly fun e => e.isStackLookup = true := by
    refine .bind (git.readMetadata_failsOnly name) fun m => .bind ?_ fun base => ?_
    · exact (git.revParse_failsOnly _).mono fun _ => Error.isStackLookup_of_isLookup
    · split
      · exact .pure _
      · exact .throw rfl
  refine .bind (.zoom (git.branchName_failsOnly branch)) fun name => .bind .get fun session => ?_
  split
  · exact .pure _
  · exact .bind (.zoom (hread name)) fun s => .bind (.modify _) fun _ => .pure _

/-- The services of git do not fail to find a stack as a locator fails, whatever git replies. -/
theorem services_findsStacks : git.services.FindsStacks where
  stackOf branch :=
    (git.stackOf_failsOnly branch).mono fun _ => Error.isMissingPatch_of_isStackLookup

end Git

end PatchStack
