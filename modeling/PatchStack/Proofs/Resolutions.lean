import PatchStack.Proofs.Runs

set_option autoImplicit false

/-!
# What resolving does to the state

Resolving a revision is put together from three services, so it changes the state only as they do,
and its commits are commits that they found. Where every service leads on to a related state and
every commit found still fits the states after it, so does every boundary.

## Main definitions

* `PatchStack.Services.Leads` — services that lead on to related states, with fitting commits.
* `PatchStack.Boundary.Fits` — both ends of a boundary fit the state.

## Main results

* `PatchStack.Services.Leads.resolveSpec` — resolving leads where the services lead.
-/

namespace PatchStack

variable {σ : Type}

/-- Every service leads on to a related state, and a commit that was found fits that state and all
the related ones after it. -/
structure Services.Leads (v : Services σ) (R : σ → σ → Prop) (Q : Commit → σ → Prop) : Prop where
  /-- Where nothing is done, the state is related to itself. -/
  refl : ∀ st, R st st
  /-- What leads on and on leads on. -/
  trans : ∀ st st' st'', R st st' → R st' st'' → R st st''
  /-- A commit fits the states after one that it fits. -/
  kept : ∀ {c st st'}, R st st' → Q c st → Q c st'
  /-- Looking for a stack leads on. -/
  stackOf : ∀ branch st, (v.stackOf branch).LeadsFrom st R fun _ _ => True
  /-- Looking for a commit leads on. -/
  lookup : ∀ revision st, (v.lookup revision).LeadsFrom st R Q
  /-- Selecting a commit by a suffix leads on. -/
  applySuffix : ∀ commit suffix st, (v.applySuffix commit suffix).LeadsFrom st R Q

/-- The commits at both ends fit the state. -/
def Boundary.Fits (Q : Commit → σ → Prop) (b : Boundary) (st : σ) : Prop :=
  Q b.first.commit st ∧ Q b.last.commit st

namespace Services.Leads

variable {v : Services σ} {R : σ → σ → Prop} {Q : Commit → σ → Prop}

variable (h : v.Leads R Q) (s : Stack) (current : Option Stack)
include h

/-- What is at a position is looked up. -/
lemma revisionAt (index : Int) (st : σ) :
    (revisionAt v s index).LeadsFrom st R fun r => Q r.commit := by
  unfold PatchStack.revisionAt
  split_ifs
  · refine .bind h.trans (.ofExcept (h.refl st)) fun n st' _ _ => ?_
    exact .bind h.trans (h.lookup _ st') fun c st'' _ hc => .pure (h.refl st'') hc
  · refine .bind h.trans (.ofExcept (h.refl st)) fun revision st' _ _ => ?_
    exact .bind h.trans (h.lookup _ st') fun c st'' _ hc => .pure (h.refl st'') hc

/-- A locator with its suffix is looked up. -/
lemma resolvePatchLike (p : PatchLike) (st : σ) :
    (resolvePatchLike v p s).LeadsFrom st R fun r => Q r.commit := by
  refine .bind h.trans (.ofExcept (h.refl st)) fun index st₁ _ _ => ?_
  refine .bind h.trans (h.revisionAt s index st₁) fun found st₂ _ hfound => ?_
  split_ifs
  · exact .pure (h.refl st₂) hfound
  · exact .bind h.trans (h.applySuffix _ _ st₂) fun c st₃ _ hc => .pure (h.refl st₃) hc

/-- A revision of git is looked up. -/
lemma resolveGit (whole : Text) (st : σ) :
    (resolveGit v whole).LeadsFrom st R fun r => Q r.commit :=
  .bind h.trans (h.lookup whole st) fun _ st' _ hc => .pure (h.refl st') hc

/-- The current stack is given or looked for. -/
lemma currentStack (st : σ) : (currentStack v current).LeadsFrom st R fun _ _ => True := by
  cases current with
  | some s => exact .pure (h.refl st) trivial
  | none => exact h.stackOf none st

/-- However a patch was looked for: git is asked, or the search ends with an error or with a
commit that was found.

**Proof sketch.** Each step leads on from the state in which the one before has ended, and the cases
are those of the computation. -/
lemma resolvePatchOrGit (p : PatchLike) (whole : Text) (st : σ) :
    (resolvePatchOrGit v p whole current).LeadsFrom st R fun r => Q r.commit := by
  refine .bind h.trans (h.currentStack current st).outcome fun stack st₁ _ _ => ?_
  cases stack with
  | error e =>
    refine .bind h.trans (.pure (Q := fun x _ => x = .error e) (h.refl st₁) rfl)
      fun found st₂ _ hfound => ?_
    subst hfound
    cases e with
    | unknownPatch | unknownBranch => exact h.resolveGit whole st₂
    | _ => exact .throw (h.refl st₂)
  | ok s =>
    refine .bind h.trans (h.resolvePatchLike s p st₁).outcome fun found st₂ _ hfound => ?_
    dsimp only
    split
    · exact .pure (h.refl st₂) (hfound _ rfl)
    · exact h.resolveGit whole st₂
    · exact h.resolveGit whole st₂
    · split_ifs
      · refine .bind h.trans (h.resolveGit whole st₂).outcome fun again st₃ _ hagain => ?_
        split
        · exact .throw (h.refl st₃)
        · exact .throw (h.refl st₃)
        · exact .pure (h.refl st₃) (hagain _ rfl)
      · exact .throw (h.refl st₂)
    · exact .throw (h.refl st₂)
    · exact .throw (h.refl st₂)

/-- A single revision is resolved in one of these ways. -/
lemma resolveRevision (r : Revision) (st : σ) :
    (resolveRevision v r current).LeadsFrom st R fun r => Q r.commit := by
  cases r with
  | git whole => exact h.resolveGit whole st
  | onBranch branch p =>
    exact .bind h.trans (h.stackOf _ st) fun s st' _ _ => h.resolvePatchLike s p st'
  | patchOrGit p whole => exact h.resolvePatchOrGit current p whole st
  | patch p =>
    exact .bind h.trans (h.currentStack current st) fun s st' _ _ => h.resolvePatchLike s p st'

/-- Both ends of a range are looked up. -/
lemma resolveBounds (b : Bounds) (c : RangeConstraint) (st : σ) :
    (resolveBounds v b s c).LeadsFrom st R (Boundary.Fits Q) := by
  refine .bind h.trans (.ofExcept (h.refl st)) fun names st₁ _ _ => ?_
  split
  · exact .throw (h.refl st₁)
  · refine .bind h.trans (h.lookup _ st₁) fun begins st₂ _ hbegins => ?_
    dsimp only
    split_ifs
    · exact .pure (h.refl st₂) ⟨hbegins, hbegins⟩
    · refine .bind h.trans (h.lookup _ st₂) fun ends st₃ hR hends => ?_
      exact .pure (h.refl st₃) ⟨h.kept hR hbegins, hends⟩

/-- **Resolving leads where the services lead.** Whatever the revision is, and whether or not it
resolves, the state afterwards is one that the services lead to, and the commits at both ends fit
it. -/
theorem resolveSpec (spec : RevisionSpec) (c : RangeConstraint) (st : σ) :
    (resolveSpec v spec current c).LeadsFrom st R (Boundary.Fits Q) := by
  cases spec with
  | branchRange branch b =>
    exact .bind h.trans (h.stackOf _ st) fun s st' _ _ => h.resolveBounds s b c st'
  | range b =>
    exact .bind h.trans (h.currentStack current st) fun s st' _ _ => h.resolveBounds s b c st'
  | single r =>
    refine .bind h.trans (h.resolveRevision current r st) fun r st' _ hr => ?_
    exact .pure (h.refl st') ⟨hr, hr⟩

end Services.Leads

end PatchStack
