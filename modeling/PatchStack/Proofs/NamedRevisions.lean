import PatchStack.Proofs.FirstParents
import PatchStack.Proofs.GitFallback
import PatchStack.Proofs.RecordedRequests

set_option autoImplicit false

/-!
# When a revision is a patch

A resolved revision may carry the name of a patch, and it is shown under this name. It does so only
where its commit is the one that was looked up for this very patch: not below the stack, not behind
a suffix, and not where git was asked for the whole text. A suffix changes nothing about what comes
before it; it is one more request, for the commit that is there without it.

## Main definitions

* `PatchStack.Stack.LookedUpAs` — the revision under which the commit of a patch is looked up.
* `PatchStack.Revision.asPatch` — a revision resolved as a patch, never by git.
* `PatchStack.Revision.ReadsPatch` — what resolving as a patch comes to.

## Main results

* `PatchStack.resolvePatchLike_of_base`, `PatchStack.resolvePatchLike_of_ancestor`,
  `PatchStack.resolvePatchLike_of_depth` — without a suffix there is one look-up, or none so far
  below the base that the depth cannot be written.
* `PatchStack.resolvePatchLike_suffix` — a suffix is applied to what is there without it.
* `PatchStack.resolveRevision_names_patch` — names of patches and where they come from.
-/

namespace PatchStack

variable {σ : Type}

/-! ## What is looked up for a patch -/

namespace Stack

variable {s : Stack} {n : PatchName} {revision : Text}

/-- The commit of a patch is looked up as this revision. -/
inductive LookedUpAs (s : Stack) (n : PatchName) : Text → Prop where
  /-- The id that is recorded for the patch, if it is not empty. -/
  | recorded {id : Text} (h : s.commitOf n.text = some id) (hne : id ≠ []) : LookedUpAs s n id
  /-- The name itself, if no other id is recorded than an empty one. -/
  | unrecorded (h : ∀ id, s.commitOf n.text = some id → id = []) : LookedUpAs s n n.text

/-- There is one such revision for every patch.

**Proof sketch.** A commit is recorded and not empty, or there is none or an empty one, in which
case the name is looked up. -/
theorem lookedUpAs_iff : s.LookedUpAs n revision ↔ revision = patchRevision s n := by
  constructor
  · rintro (⟨h, hne⟩ | h)
    · obtain ⟨c, id, rfl⟩ := List.exists_cons_of_ne_nil hne
      rw [patchRevision, h]
    · unfold patchRevision
      split
      · rename_i c id hid
        exact absurd (h _ hid) (List.cons_ne_nil c id)
      · rfl
  · rintro rfl
    unfold patchRevision
    split
    · rename_i c id hid
      exact .recorded hid (List.cons_ne_nil c id)
    · rename_i hother
      refine .unrecorded fun id hid => ?_
      cases id with
      | nil => rfl
      | cons c id => exact absurd hid (hother c id)

end Stack

/-! ## Locators without a suffix -/

section Locators

variable (v : Services σ) {l : Locator} {s : Stack}

/-- Where there is no position nothing is asked for. -/
lemma resolvePatchLike_of_error {p : PatchLike} {e : Error}
    (h : p.locator.position .ancestors s = .error e) : resolvePatchLike v p s = throw e :=
  Run.ext fun st => run_resolvePatchLike_of_error h st

/-- One below the bottommost patch there is the base. -/
theorem resolvePatchLike_of_base (h : l.position .ancestors s = .ok (-1)) :
    resolvePatchLike v ⟨l, []⟩ s = do return ⟨none, ← v.lookup s.base⟩ :=
  resolvePatchLike_of_position h

/-- Below the base there are its ancestors. -/
theorem resolvePatchLike_of_ancestor {depth : Nat} (hpos : 0 < depth)
    (hcount : Text.digitCount depth ≤ digitLimit) (h : l.position .ancestors s = .ok (-1 - depth)) :
    resolvePatchLike v ⟨l, []⟩ s = do
      return ⟨none, ← v.lookup (s.base ++ '~' :: Text.ofInt depth)⟩ := by
  have hdepth : (-1 - (-1 - (depth : Int))).toNat = depth := by omega
  rw [resolvePatchLike_of_position h, revisionAt, if_neg (by omega), hdepth, belowBase,
    if_neg (Nat.ne_of_gt hpos), Text.writeInt_eq_ok_iff.2 ⟨hcount, rfl⟩]
  rfl

/-- So far below the base that the depth has too many digits, there is nothing to be asked for. -/
theorem resolvePatchLike_of_depth {depth : Nat} (hcount : digitLimit < Text.digitCount depth)
    (h : l.position .ancestors s = .ok (-1 - depth)) :
    resolvePatchLike v ⟨l, []⟩ s = throw (.breakdown (.numeral .unwritable)) := by
  have hdepth : (-1 - (-1 - (depth : Int))).toNat = depth := by omega
  have hpos : depth ≠ 0 := by
    rintro rfl
    exact absurd hcount (by decide)
  rw [resolvePatchLike_of_position h, revisionAt, if_neg (by omega), hdepth, belowBase,
    if_neg hpos, Text.writeInt_eq_error_iff.2 ⟨hcount, rfl⟩]
  rfl

/-- Where something with a name is found, it is the patch at the position, and its commit is the
one that is looked up for it.

**Proof sketch.** Below the patches nothing has a name. At a patch, the patch is read off the
position, and one commit is looked up. -/
lemma exists_of_run_revisionAt {i : Int} {st st' : σ} {found : ResolvedRevision} {n : PatchName}
    (h : (revisionAt v s i).run.run st = (.ok found, st')) (hn : found.patch = some n) :
    ∃ k : Nat, i = k ∧ s.patches[k]? = some n ∧
      (v.lookup (patchRevision s n)).run.run st = (.ok found.commit, st') := by
  unfold revisionAt at h
  split_ifs at h
  · obtain ⟨m, st₁, hm, hrest⟩ := Run.run_bind_eq_ok_iff.1 h
    obtain ⟨hat, rfl⟩ := Prod.mk.inj hm
    obtain ⟨k, hk, hget⟩ := Stack.patchAt_eq_ok_iff.1 hat
    obtain ⟨commit, st₂, hcommit, hlast⟩ := Run.run_bind_eq_ok_iff.1 hrest
    cases hlast
    cases hn
    exact ⟨k, hk, hget, hcommit⟩
  · obtain ⟨revision, st₁, -, h⟩ := Run.run_bind_eq_ok_iff.1 h
    obtain ⟨commit, st₂, -, h⟩ := Run.run_bind_eq_ok_iff.1 h
    cases h
    cases hn

end Locators

/-! ## Suffixes -/

section Suffixes

variable (v : Services σ) (p : PatchLike) (s : Stack)

/-- A suffix is applied to the commit that is there without it, and what it selects has no name.

**Proof sketch.** Up to the suffix both are the same computation. -/
theorem resolvePatchLike_suffix (hne : p.suffix ≠ []) :
    resolvePatchLike v p s = do
      let found ← resolvePatchLike v ⟨p.locator, []⟩ s
      return ⟨none, ← v.applySuffix found.commit p.suffix⟩ := by
  cases h : p.locator.position .ancestors s with
  | error e =>
    rw [resolvePatchLike_of_error v h, resolvePatchLike_of_error (p := ⟨p.locator, []⟩) v h]
    rfl
  | ok i =>
    rw [resolvePatchLike_of_position h, resolvePatchLike, h]
    simp only [if_neg hne]
    rfl

end Suffixes

/-! ## Git -/

section Git

variable {v : Services σ} {current : Option Stack} {p : PatchLike} {whole : Text} {st st' : σ}
  {found : ResolvedRevision}

/-- What git is asked for has no name. -/
lemma patch_of_run_resolveGit (h : (resolveGit v whole).run.run st = (.ok found, st')) :
    found.patch = none := by
  obtain ⟨commit, st₁, -, hlast⟩ := Run.run_bind_eq_ok_iff.1 h
  cases hlast
  rfl

/-- What is found although there is no such patch has no name, since git is asked for it.

**Proof sketch.** The cases are those of the error. What succeeds is a revision of git, which has no
name. -/
lemma patch_of_run_resolvePatchOrGit {s : Stack} {e : Error} {st₁ st₂ : σ}
    (hs : (currentStack v current).run.run st = (.ok s, st₁))
    (he : (resolvePatchLike v p s).run.run st₁ = (.error e, st₂))
    (h : (resolvePatchOrGit v p whole current).run.run st = (.ok found, st')) :
    found.patch = none := by
  rw [resolvePatchOrGit, Run.run_bind, Run.run_outcome, hs] at h
  dsimp only at h
  rw [Run.run_bind, Run.run_outcome, he] at h
  cases e with
  | unknownPatch | unknownBranch => exact patch_of_run_resolveGit h
  | outOfRange l i total =>
    dsimp only at h
    split_ifs at h
    · rw [Run.run_bind, Run.run_outcome] at h
      rcases hagain : (resolveGit v whole).run.run st₂ with ⟨e | revision, st₃⟩
      · rw [hagain] at h
        cases e <;> cases h
      · rw [hagain] at h
        cases h
        exact patch_of_run_resolveGit hagain
    · cases h
  | _ => cases h

/-- What is found as a patch is not left to git. -/
lemma run_resolvePatchOrGit_of_ok
    (h : (do resolvePatchLike v p (← currentStack v current) : Run σ _).run.run st =
      (.ok found, st')) :
    (resolvePatchOrGit v p whole current).run.run st = (.ok found, st') := by
  obtain ⟨s, st₁, hs, hfound⟩ := Run.run_bind_eq_ok_iff.1 h
  rw [run_resolvePatchOrGit_of_final hs, hfound]
  intro e st'' he
  cases hfound.symm.trans he

/-- What may be a patch or a revision of git is found with a name only as a patch.

**Proof sketch.** Without a stack or a patch, what is found has no name. With both the computation
ends with the patch. -/
theorem run_of_resolvePatchOrGit_named {n : PatchName} (hn : found.patch = some n)
    (h : (resolvePatchOrGit v p whole current).run.run st = (.ok found, st')) :
    (do resolvePatchLike v p (← currentStack v current) : Run σ _).run.run st =
      (.ok found, st') := by
  rcases hs : (currentStack v current).run.run st with ⟨e | s, st₁⟩
  · rw [run_resolvePatchOrGit_of_no_stack hs] at h
    cases e with
    | unknownPatch | unknownBranch =>
      rw [patch_of_run_resolveGit h] at hn
      cases hn
    | _ => cases h
  · rw [Run.run_bind, hs]
    rcases hp : (resolvePatchLike v p s).run.run st₁ with ⟨e | r, st₂⟩
    · rw [patch_of_run_resolvePatchOrGit hs hp h] at hn
      cases hn
    · have hfinal : (resolvePatchOrGit v p whole current).run.run st = (.ok r, st₂) := by
        refine run_resolvePatchOrGit_of_ok ?_
        rw [Run.run_bind, hs]
        exact hp
      exact hp.trans (hfinal.symm.trans h)

end Git

/-! ## Names -/

namespace Revision

/-- The patch that a revision may be. -/
def patchLike? : Revision → Option PatchLike
  | .onBranch _ p => some p
  | .patchOrGit p _ => some p
  | .patch p => some p
  | .git _ => none

/-- Resolves the revision as the patch `p` in its stack. -/
def asPatch (v : Services σ) (current : Option Stack) (r : Revision) (p : PatchLike) :
    Run σ ResolvedRevision := do
  resolvePatchLike v p (← r.stack v current)

end Revision

/-- What becomes of a run with a record by a suffix: the commit that it found is asked for with the
suffix, and what this selects has no name. A failure stays what it is. -/
def Services.withSuffix (v : Services σ) (suffix : Text) :
    Except Error ResolvedRevision × σ × List Request →
      Except Error ResolvedRevision × σ × List Request
  | (.error e, st, asked) => (.error e, st, asked)
  | (.ok found, st, asked) =>
    let answer := (v.applySuffix found.commit suffix).run.run st
    (answer.1.map fun commit => ⟨none, commit⟩, answer.2, asked ++ [.suffix found.commit suffix])

/-- How the revision resolves as the patch `p`, in the stack that is found for it. -/
structure Revision.ReadsPatch (v : Services σ) (current : Option Stack) (r : Revision)
    (p : PatchLike) : Prop where
  /-- With a name there is no suffix, the name is that of the patch at the position, and the commit
  is the one that is found as the revision for this patch. -/
  named : ∀ st st' found n, (r.asPatch v current p).run.run st = (.ok found, st') →
    found.patch = some n →
      p.suffix = [] ∧ ∃ (s : Stack) (st₁ : σ) (i : Nat) (revision : Text),
        (r.stack v current).run.run st = (.ok s, st₁) ∧
        p.locator.position .ancestors s = .ok (i : Int) ∧ s.patches[i]? = some n ∧
        s.LookedUpAs n revision ∧ (v.lookup revision).run.run st₁ = (.ok found.commit, st')
  /-- Right below the patches, without a suffix, it is the base without a name. -/
  base : p.suffix = [] → ∀ st s st₁, (r.stack v current).run.run st = (.ok s, st₁) →
    p.locator.position .ancestors s = .ok (-1) →
      (r.asPatch v current p).run.run st =
        (do return ⟨none, ← v.lookup s.base⟩ : Run σ ResolvedRevision).run.run st₁
  /-- Further down, without a suffix, it is the ancestor of the base in this depth. -/
  ancestor : p.suffix = [] → ∀ st s st₁ (depth : Nat),
    (r.stack v current).run.run st = (.ok s, st₁) → 0 < depth →
    Text.digitCount depth ≤ digitLimit → p.locator.position .ancestors s = .ok (-1 - depth) →
      (r.asPatch v current p).run.run st =
        (do return ⟨none, ← v.lookup (s.base ++ '~' :: Text.ofInt depth)⟩ :
          Run σ ResolvedRevision).run.run st₁
  /-- A depth of too many digits breaks it down, with nothing asked for. -/
  depth : p.suffix = [] → ∀ st s st₁ (depth : Nat),
    (r.stack v current).run.run st = (.ok s, st₁) → digitLimit < Text.digitCount depth →
    p.locator.position .ancestors s = .ok (-1 - depth) →
      (r.asPatch v current p).run.run st = (.error (.breakdown (.numeral .unwritable)), st₁)
  /-- With a suffix it is resolved without it first, and then the suffix is applied. -/
  suffixed : p.suffix ≠ [] → r.asPatch v current p = do
    let found ← r.asPatch v current ⟨p.locator, []⟩
    return ⟨none, ← v.applySuffix found.commit p.suffix⟩
  /-- What is asked for is the same as without the suffix, and then the suffix of the commit. -/
  asked : p.suffix ≠ [] → ∀ st requests,
    (r.asPatch v.recorded current p).run.run (st, requests) =
      v.withSuffix p.suffix
        ((r.asPatch v.recorded current ⟨p.locator, []⟩).run.run (st, requests))

namespace Revision

variable (v : Services σ) (current : Option Stack) (r : Revision) (p : PatchLike)

/-- A suffix is one more step behind everything else. -/
lemma asPatch_suffix (hne : p.suffix ≠ []) :
    r.asPatch v current p = do
      let found ← r.asPatch v current ⟨p.locator, []⟩
      return ⟨none, ← v.applySuffix found.commit p.suffix⟩ := by
  rw [asPatch, asPatch, bind_assoc]
  congr 1
  funext s
  exact resolvePatchLike_suffix v p s hne

/-- In its stack a revision is resolved from the state in which the stack was found. -/
lemma run_asPatch {s : Stack} {st st₁ : σ} (h : (r.stack v current).run.run st = (.ok s, st₁)) :
    (r.asPatch v current p).run.run st = (resolvePatchLike v p s).run.run st₁ := by
  rw [asPatch, Run.run_bind, h]

/-- A suffix is recorded behind what is recorded without it. -/
lemma run_asPatch_recorded (hne : p.suffix ≠ []) (st : σ) (requests : List Request) :
    (r.asPatch v.recorded current p).run.run (st, requests) =
      v.withSuffix p.suffix
        ((r.asPatch v.recorded current ⟨p.locator, []⟩).run.run (st, requests)) := by
  rw [asPatch_suffix v.recorded current r p hne, Run.run_bind]
  rcases (r.asPatch v.recorded current ⟨p.locator, []⟩).run.run (st, requests) with
    ⟨e | found, st₁, asked⟩
  · rfl
  · dsimp only [Services.withSuffix]
    rw [Run.run_bind, Services.run_recorded_applySuffix]
    rcases (v.applySuffix found.commit p.suffix).run.run st₁ with ⟨e | commit, st₂⟩
    · rfl
    · rfl

/-- As a patch, a revision resolves in this way.

**Proof sketch.** The stack is found first. A patch has a name only without a suffix, and then the
lemmas about positions of patches, of the base, and of ancestors apply. What a suffix adds, and what
is asked, are lemmas about all patches. -/
theorem readsPatch : r.ReadsPatch v current p where
  named st st' found n h hn := by
    obtain ⟨s, st₁, hstack, hfound⟩ := Run.run_bind_eq_ok_iff.1 h
    have hsuffix : p.suffix = [] := by
      by_contra hne
      rw [resolvePatchLike_suffix v p s hne] at hfound
      obtain ⟨whole, st₂, -, hlast⟩ := Run.run_bind_eq_ok_iff.1 hfound
      obtain ⟨commit, st₃, -, hlast⟩ := Run.run_bind_eq_ok_iff.1 hlast
      cases hlast
      cases hn
    obtain ⟨l, suffix⟩ := p
    cases hsuffix
    cases hp : l.position .ancestors s with
    | error e =>
      rw [resolvePatchLike_of_error (p := ⟨l, []⟩) v hp] at hfound
      cases hfound
    | ok i =>
      rw [resolvePatchLike_of_position hp] at hfound
      obtain ⟨k, rfl, hget, hcommit⟩ := exists_of_run_revisionAt v hfound hn
      exact ⟨rfl, s, st₁, k, _, hstack, hp, hget, Stack.lookedUpAs_iff.2 rfl, hcommit⟩
  base hsuffix st s st₁ hstack hp := by
    obtain ⟨l, suffix⟩ := p
    cases hsuffix
    rw [run_asPatch v current r _ hstack, resolvePatchLike_of_base v hp]
  ancestor hsuffix st s st₁ depth hstack hpos hcount hp := by
    obtain ⟨l, suffix⟩ := p
    cases hsuffix
    rw [run_asPatch v current r _ hstack, resolvePatchLike_of_ancestor v hpos hcount hp]
  depth hsuffix st s st₁ depth hstack hcount hp := by
    obtain ⟨l, suffix⟩ := p
    cases hsuffix
    rw [run_asPatch v current r _ hstack, resolvePatchLike_of_depth v hcount hp, Run.run_throw]
  suffixed hne := r.asPatch_suffix v current p hne
  asked hne st requests := r.run_asPatch_recorded v current p hne st requests

end Revision

/-- **A name is that of the patch whose commit was looked up.** Whatever the services answer, a
revision resolves to what it is found to be as a patch, and to something with a name only as a
patch. As a patch it has a name only without a suffix; then the name is that of the patch at the
position of the locator, and the commit is what is found as the id recorded for the patch, or as its
name if no id is recorded. Below the patches there is no name, and the commit is the base or its
ancestor, unless the ancestor is so far down that its depth cannot be written. A suffix makes one
more request, with the commit that is found without it, and what it selects has no name.

**Proof sketch.** Git is asked for commits only, so that a name comes from a position. Without a
suffix one look-up is made there. The suffix comes after it, and the position does not depend on
it. -/
theorem resolveRevision_names_patch (v : Services σ) (current : Option Stack) (r : Revision) :
    (∀ p st st' found, r.patchLike? = some p →
      (r.asPatch v current p).run.run st = (.ok found, st') →
        (resolveRevision v r current).run.run st = (.ok found, st')) ∧
    (∀ st st' found n, (resolveRevision v r current).run.run st = (.ok found, st') →
      found.patch = some n →
        ∃ p, r.patchLike? = some p ∧ (r.asPatch v current p).run.run st = (.ok found, st')) ∧
    ∀ p, r.ReadsPatch v current p := by
  refine ⟨fun p st st' found hp h => ?_, fun st st' found n h hn => ?_, r.readsPatch v current⟩
  · cases r with
    | git whole => cases hp
    | patchOrGit q whole =>
      cases hp
      exact run_resolvePatchOrGit_of_ok h
    | onBranch branch q =>
      cases hp
      exact h
    | patch q =>
      cases hp
      exact h
  · cases r with
    | git whole =>
      rw [patch_of_run_resolveGit h] at hn
      cases hn
    | patchOrGit p whole => exact ⟨p, rfl, run_of_resolvePatchOrGit_named hn h⟩
    | onBranch branch p => exact ⟨p, rfl, h⟩
    | patch p => exact ⟨p, rfl, h⟩

end PatchStack
