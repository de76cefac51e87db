import PatchStack.Proofs.OwnName
import PatchStack.Proofs.RevisionForms
import PatchStack.Proofs.Runs

set_option autoImplicit false

/-!
# Patches as revisions

Revisions are read and resolved by ways of their own, on which there may be suffixes, branches
and git, and a position may be below the stack. A text that spells a patch or a range of patches
without them takes none of these: as a revision it is the same patch or the same range, with
the commits that are looked up for it.

## Main definitions

* `PatchStack.Services.patch`, `PatchStack.Services.ends` — a patch and two patches with their
  commits.

## Main results

* `PatchStack.resolvePatchLike_failsOnly` — where there is a position, only look-ups can fail.
* `PatchStack.resolvePatchLike_of_resolve`, `PatchStack.resolvePatchOrGit_of_resolve` — a locator
  that resolves is that patch as a revision, and git is not asked instead.
* `PatchStack.resolveBounds_of_select` — the ends of a range are the first and the last patch
  that it selects.
* `PatchStack.RevisionSpec.extends_patches` — both from the text on, with and without a branch.
-/

namespace PatchStack

variable {σ : Type}

/-- A patch as a revision: its name and the commit that is looked up for it. -/
def Services.patch (v : Services σ) (s : Stack) (n : PatchName) : Run σ ResolvedRevision := do
  return ⟨some n, ← v.lookup (patchRevision s n)⟩

/-- Two patches as the ends of a range. One patch at both ends is looked up once. -/
def Services.ends (v : Services σ) (s : Stack) (first last : PatchName) : Run σ Boundary := do
  let begins ← v.lookup (patchRevision s first)
  let ends ← if last = first then pure begins else v.lookup (patchRevision s last)
  return .ends ⟨some first, begins⟩ ⟨some last, ends⟩

variable {v : Services σ} {s : Stack} {p : PatchLike}

/-! ## Single patches -/

/-- What is at a position of the stack is the patch there. -/
lemma revisionAt_of_getElem? {i : Nat} {n : PatchName} (h : s.patches[i]? = some n) :
    revisionAt v s (i : Int) = v.patch s n := by
  have hat : s.patchAt (i : Int) = .ok n := Stack.patchAt_eq_ok_iff.2 ⟨i, rfl, h⟩
  rw [revisionAt, if_pos (Int.natCast_nonneg i), hat]
  rfl

/-- Without a suffix, what is at the position of a locator is all there is to resolve. -/
lemma resolvePatchLike_of_position {l : Locator} {i : Int} (h : l.position .ancestors s = .ok i) :
    resolvePatchLike v ⟨l, []⟩ s = revisionAt v s i := by
  rw [resolvePatchLike, h]
  exact bind_pure (revisionAt v s i)

/-- A locator that resolves, under whatever constraint, is its patch as a revision. -/
theorem resolvePatchLike_of_resolve {l : Locator} {c : LocationConstraint} {n : PatchName}
    (h : l.resolve s c = .ok n) : resolvePatchLike v ⟨l, []⟩ s = v.patch s n := by
  obtain ⟨i, g, hpos, hget, -, -⟩ := Locator.resolve_eq_ok_iff.1 h
  rw [resolvePatchLike_of_position (Locator.position_ancestors hpos), revisionAt_of_getElem? hget]

/-- The commit of a patch is missing only if it cannot be looked up. -/
lemma Services.LooksUp.patch (hv : v.LooksUp) (n : PatchName) :
    (v.patch s n).FailsOnly fun e => e.isLookup = true :=
  .bind (hv.lookup _) fun _ => .pure _

/-- What is at a position of the stack or below it is missing only if it cannot be looked up. How
far it is below may be a number too long to be written. -/
lemma revisionAt_failsOnly (hv : v.LooksUp) {i : Int} (hi : i < s.total) :
    (revisionAt v s i).FailsOnly fun e => e.isLookup = true := by
  by_cases hneg : 0 ≤ i
  · obtain ⟨k, rfl⟩ := Int.eq_ofNat_of_zero_le hneg
    have hlt : k < s.patches.length := by rw [← Stack.total_eq]; omega
    rw [revisionAt_of_getElem? (List.getElem?_eq_getElem hlt)]
    exact hv.patch _
  · rw [revisionAt, if_neg hneg]
    refine .bind (.ofExcept fun e he => ?_) fun _ => .bind (hv.lookup _) fun _ => .pure _
    obtain ⟨fault, -, rfl⟩ := mapError_eq_error_iff.1 he
    rfl

/-- Where a locator has a position, the revision is missing only if a commit cannot be looked
up. -/
theorem resolvePatchLike_failsOnly (hv : v.LooksUp) {i : Int}
    (h : p.locator.position .ancestors s = .ok i) :
    (resolvePatchLike v p s).FailsOnly fun e => e.isLookup = true := by
  have hi := (Floor.admits_iff.1 (Locator.admits_of_position h)).1
  rw [resolvePatchLike, h, show Run.ofExcept (.ok i) = (pure i : Run σ Int) from rfl, pure_bind]
  refine .bind (revisionAt_failsOnly hv hi) fun found => ?_
  split_ifs
  · exact .pure _
  · exact .bind (hv.applySuffix _ _) fun _ => .pure _

/-- Git is not asked in place of a patch that is found, or whose commit cannot be looked up.

**Proof sketch.** The stack is found. The handler is left at once for a result and for every error
that is final. -/
lemma run_resolvePatchOrGit_of_final {whole : Text} {current : Option Stack} {st st' : σ}
    (hs : (currentStack v current).run.run st = (.ok s, st'))
    (hfinal : ∀ e st'', (resolvePatchLike v p s).run.run st' = (.error e, st'') →
      e.isLookup = true) :
    (resolvePatchOrGit v p whole current).run.run st = (resolvePatchLike v p s).run.run st' := by
  rw [resolvePatchOrGit, Run.run_bind, Run.run_outcome, hs]
  dsimp only
  rw [Run.run_bind, Run.run_outcome]
  rcases hr : (resolvePatchLike v p s).run.run st' with ⟨e | found, st''⟩
  · -- No failure of a look-up is one that git is asked after.
    have he := hfinal e st'' hr
    cases e <;> first | rfl | cases he
  · rfl

/-- Git is not asked where there is a position, even if its commit is not found. -/
theorem run_resolvePatchOrGit_of_position (hv : v.LooksUp) {whole : Text} {current : Option Stack}
    {st st' : σ} {i : Int} (hs : (currentStack v current).run.run st = (.ok s, st'))
    (hp : p.locator.position .ancestors s = .ok i) :
    (resolvePatchOrGit v p whole current).run.run st = (resolvePatchLike v p s).run.run st' :=
  run_resolvePatchOrGit_of_final hs fun e st'' => resolvePatchLike_failsOnly hv hp st' st'' e

/-- Git is not asked in place of a patch that a locator resolves to. -/
theorem resolvePatchOrGit_of_resolve (hv : v.LooksUp) {l : Locator} {c : LocationConstraint}
    {n : PatchName} (whole : Text) (h : l.resolve s c = .ok n) :
    resolvePatchOrGit v ⟨l, []⟩ whole (some s) = v.patch s n := by
  obtain ⟨i, g, hpos, -, -, -⟩ := Locator.resolve_eq_ok_iff.1 h
  apply Run.ext
  intro st
  rw [← resolvePatchLike_of_resolve h]
  exact run_resolvePatchOrGit_of_position hv rfl (Locator.position_ancestors hpos)

/-- A text that is read as a locator is read as a revision without a branch, which resolves to the
patch that the locator resolves to. -/
theorem resolveRevision_of_resolve (hv : v.LooksUp) {t : Text} {l : Locator}
    {c : LocationConstraint} {n : PatchName} (hl : Locator.ofText t = .ok l)
    (h : l.resolve s c = .ok n) :
    ∃ r, Revision.ofUnqualified t = .ok r ∧ resolveRevision v r (some s) = v.patch s n := by
  rcases Revision.ofUnqualified_of_locator hl with hr | hr
  · exact ⟨_, hr, resolvePatchOrGit_of_resolve hv t h⟩
  · refine ⟨_, hr, ?_⟩
    rw [resolveRevision, currentStack, pure_bind]
    exact resolvePatchLike_of_resolve h

/-! ## Ranges -/

/-- The ends of a range are the first and the last patch that it selects. -/
theorem resolveBounds_of_select {b : Bounds} {c : RangeConstraint} {names : List PatchName}
    (hne : names ≠ []) (h : b.select s c = .ok names) :
    resolveBounds v b s c = v.ends s (names.head hne) (names.getLast hne) := by
  cases names with
  | nil => exact absurd rfl hne
  | cons first rest =>
    have hlast : (first :: rest).getLast hne = rest.getLastD first := List.getLast_eq_getLastD ..
    rw [resolveBounds, h, hlast]
    rfl

/-! ## From the text on -/

/-- What is done with the stack of a branch is done from the state in which it is found. -/
lemma run_stackOf_bind {α : Type} {branch : Option Text} {st st' : σ}
    (h : (v.stackOf branch).run.run st = (.ok s, st')) (f : Stack → Run σ α) :
    (v.stackOf branch >>= f).run.run st = (f s).run.run st' := by
  rw [Run.run_bind, h]

/-- Read as a revision, `t` resolves over the stack `s` as `m` does, whether `s` is the current
stack or the one that is found for the branch before the colon. -/
structure ResolvesAs (v : Services σ) (s : Stack) (branch t : Text) (c : RangeConstraint)
    (m : Run σ Boundary) : Prop where
  /-- The text by itself, with the current stack. -/
  unqualified : ∃ spec, RevisionSpec.ofText t = .ok spec ∧ resolveSpec v spec (some s) c = m
  /-- The text behind the branch, whatever the current stack is. -/
  qualified : ∃ spec, RevisionSpec.ofText (branch ++ ':' :: t) = .ok spec ∧
    ∀ current st st', (v.stackOf (some branch)).run.run st = (.ok s, st') →
      (resolveSpec v spec current c).run.run st = m.run.run st'

section Text

variable {t branch : Text}

/-- A text that is read as a locator resolves to the patch that the locator resolves to. -/
theorem ResolvesAs.of_locator (hv : v.LooksUp) (hb : isBranchName branch = true) {l : Locator}
    {n : PatchName} (hl : Locator.ofText t = .ok l) (h : l.resolve s .all = .ok n)
    (c : RangeConstraint) : ResolvesAs v s branch t c (Boundary.single <$> v.patch s n) := by
  constructor
  · obtain ⟨r, hr, hresolve⟩ := resolveRevision_of_resolve hv hl h
    refine ⟨_, RevisionSpec.ofText_of_locator hl hr, ?_⟩
    rw [resolveSpec, hresolve, map_eq_pure_bind]
  · refine ⟨_, RevisionSpec.ofText_of_locator_on hb hl, fun current st st' hs => ?_⟩
    rw [resolveSpec, resolveRevision, bind_assoc, run_stackOf_bind hs,
      resolvePatchLike_of_resolve h, map_eq_pure_bind]

/-- A text that is read as bounds resolves to the ends of what the bounds select. -/
theorem ResolvesAs.of_bounds (hb : isBranchName branch = true) {b : Bounds} {c : RangeConstraint}
    {names : List PatchName} (ht : Range.ofText t = .ok (.between b)) (hne : names ≠ [])
    (h : b.select s c = .ok names) :
    ResolvesAs v s branch t c (v.ends s (names.head hne) (names.getLast hne)) := by
  constructor
  · refine ⟨_, RevisionSpec.ofText_of_bounds ht, ?_⟩
    rw [resolveSpec, currentStack, pure_bind, resolveBounds_of_select hne h]
  · refine ⟨_, RevisionSpec.ofText_of_bounds_on hb ht, fun current st st' hs => ?_⟩
    rw [resolveSpec, run_stackOf_bind hs, resolveBounds_of_select hne h]

end Text

/-- Both ends of a range carry the names of their patches. -/
lemma Services.patch_of_ends {first last : PatchName} {st st' : σ} {r : Boundary}
    (h : (v.ends s first last).run.run st = (.ok r, st')) :
    r.first.patch = some first ∧ r.last.patch = some last := by
  obtain ⟨begins, st₁, -, h⟩ := Run.run_bind_eq_ok_iff.1 h
  dsimp only at h
  split_ifs at h
  · cases h
    exact ⟨rfl, rfl⟩
  · obtain ⟨ends, st₂, -, h⟩ := Run.run_bind_eq_ok_iff.1 h
    cases h
    exact ⟨rfl, rfl⟩

/-- **Revisions extend patches and ranges of patches.** What is read as a locator and resolves to
a patch is that patch as a revision, with the commit that is looked up for it, or the failure to
look it up. What is read as bounds is a range as a revision, and its ends are the first and the
last patch that the bounds select, whatever the constraint. Both hold behind a branch as well, in
the stack that is found for it.

**Proof sketch.** Neither a locator nor a branch holds a colon or two dots, so that the text is cut
right behind the branch, and a locator leaves nothing for a suffix. A position of a patch is the
same whether or not ancestors of the base are allowed. Git takes over only from failures that
come before the look-up, of which there are none. -/
theorem RevisionSpec.extends_patches (hv : v.LooksUp) {branch : Text}
    (hb : isBranchName branch = true) (t : Text) (s : Stack) :
    (∀ l n, Locator.ofText t = .ok l → l.resolve s .all = .ok n →
      ∀ c, ResolvesAs v s branch t c (Boundary.single <$> v.patch s n)) ∧
    (∀ b, Range.ofText t = .ok (.between b) →
      RevisionSpec.ofText t = .ok (.range b) ∧
      RevisionSpec.ofText (branch ++ ':' :: t) = .ok (.branchRange branch b) ∧
      ∀ c names (hne : names ≠ []), b.select s c = .ok names →
        ResolvesAs v s branch t c (v.ends s (names.head hne) (names.getLast hne)) ∧
        ∀ st st' r, (v.ends s (names.head hne) (names.getLast hne)).run.run st = (.ok r, st') →
          r.first.patch = some (names.head hne) ∧ r.last.patch = some (names.getLast hne)) := by
  refine ⟨fun l n hl h c => .of_locator hv hb hl h c, fun b ht => ?_⟩
  refine ⟨ofText_of_bounds ht, ofText_of_bounds_on hb ht, fun c names hne h => ?_⟩
  exact ⟨.of_bounds hb ht hne h, fun st st' r hr => Services.patch_of_ends hr⟩

/-! ## Services with one stack -/

/-- Services that know one stack, and a commit for each of its patches. -/
def oneStack (s : Stack) : Services Unit where
  stackOf _ := pure s
  lookup revision :=
    if s.contains revision then pure ⟨revision, [], 0⟩ else throw (.unknownCommit revision)
  applySuffix _ suffix := throw (.unknownCommit suffix)

/-- They fail to know a commit as a look-up does. -/
lemma oneStack_looksUp (s : Stack) : (oneStack s).LooksUp where
  lookup revision := by
    show Run.FailsOnly _ (ite _ _ _)
    split_ifs
    · exact .pure _
    · exact .throw rfl
  applySuffix _ _ := .throw rfl

/-- A patch and a range in a stack whose patches have names like indices. -/
theorem extends_patches_oneStack :
    (oneStack indexLikeStack).LooksUp ∧ isBranchName ['m'] = true ∧
      ResolvesAs (oneStack indexLikeStack) indexLikeStack ['m'] ['b'] .all
        (Boundary.single <$> (oneStack indexLikeStack).patch indexLikeStack ordinary) ∧
      ResolvesAs (oneStack indexLikeStack) indexLikeStack ['m'] ['0', '.', '.', 'b'] .all
        ((oneStack indexLikeStack).ends indexLikeStack indexAlone ordinary) := by
  have hv := oneStack_looksUp indexLikeStack
  have hb : isBranchName ['m'] = true := by decide
  refine ⟨hv, hb, ?_, ?_⟩
  · have hl : Locator.ofText ['b'] = .ok (.ofName ordinary) := rfl
    have hr : (Locator.ofName ordinary).resolve indexLikeStack .all = .ok ordinary := rfl
    exact (RevisionSpec.extends_patches hv hb _ _).1 _ _ hl hr .all
  · have ht : Range.ofText ['0', '.', '.', 'b'] =
        .ok (.between ⟨some (.ofName indexAlone), some (.ofName ordinary)⟩) := rfl
    have hs : Bounds.select ⟨some (.ofName indexAlone), some (.ofName ordinary)⟩ indexLikeStack
        .all = .ok [indexAlone, ordinary] := rfl
    exact (((RevisionSpec.extends_patches hv hb _ _).2 _ ht).2.2 _ _ (by simp) hs).1

end PatchStack
