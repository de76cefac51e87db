import PatchStack.Proofs.PatchRevisions

set_option autoImplicit false

/-!
# When git is asked instead

A revision that begins with a name may be a patch or something that git knows. It is a patch if it
can be, and this file says what becomes of it otherwise: when git is asked for the whole text,
what is reported if git does not know it either, and which failures are final.

What git is asked after comes before the look-up of any commit, so that it is asked with nothing
else having been looked up. Once there is a position the revision is the patch there, or the
ancestor of the base, even if its commit cannot be looked up.

## Main definitions

* `PatchStack.insteadOfUnknown` — one error in place of an unknown commit.
* `PatchStack.FallsBack` — how a revision that may be a patch or a revision of git resolves.

## Main results

* `PatchStack.resolvePatchOrGit_fallsBack` — git is asked instead exactly as it is said there.
* `PatchStack.Git.final_of_no_stack` — for git itself no failure to find the stack is left out.
-/

namespace PatchStack

variable {σ : Type} {v : Services σ} {s : Stack} {p : PatchLike}

/-! ## Failures before a position -/

/-- Where a locator has no position, nothing is looked up. -/
lemma run_resolvePatchLike_of_error {e : Error} (h : p.locator.position .ancestors s = .error e)
    (st : σ) : (resolvePatchLike v p s).run.run st = (.error e, st) := by
  rw [resolvePatchLike, h]
  rfl

/-! ## The text that git is given -/

/-- What may be a patch or a revision of git begins with a name, and git is given all of it.

**Proof sketch.** Such a revision comes from a text without a branch that is read as a locator with
the anchor of a name. All other ways to read a text give another kind of revision. -/
theorem Revision.eq_of_patchOrGit {t whole : Text}
    (h : Revision.ofText t = .ok (.patchOrGit p whole)) :
    whole = t ∧ ∃ n, p.locator.anchor = .name n := by
  obtain ⟨-, -, ⟨_, _, _, -, -, h⟩ | ⟨-, h⟩⟩ := Revision.ofText_eq_ok_iff.1 h
  · cases h
  · unfold Revision.ofUnqualified at h
    obtain ⟨p?, -, h⟩ := bind_eq_ok_iff.1 h
    cases p? with
    | none => cases h
    | some p' =>
      dsimp only at h
      split at h
      · rename_i hanchor
        cases h
        exact ⟨rfl, _, hanchor⟩
      · cases h

/-! ## Falling back -/

/-- The error in place of an unknown commit. -/
def insteadOfUnknown {α : Type} (e : Error) : Except Error α → Except Error α
  | .error (.unknownCommit _) => .error e
  | outcome => outcome

/-- How the computation `m` resolves `t`, which is read as `p` but may be a revision of git. The
first thing to be found is the stack, and everything else is done from the state in which it was
found or not. -/
structure FallsBack (v : Services σ) (p : PatchLike) (t : Text) (current : Option Stack)
    (m : Run σ ResolvedRevision) : Prop where
  /-- Git is asked where there is no stack. -/
  no_stack : ∀ st st' branch reason,
    (currentStack v current).run.run st = (.error (.unknownBranch branch reason), st') →
      m.run.run st = (resolveGit v t).run.run st'
  /-- Other failures to find the stack are final, but for those that a patch is missing with. -/
  stack_failed : ∀ st st' e, (currentStack v current).run.run st = (.error e, st') →
    (∀ branch reason, e ≠ .unknownBranch branch reason) → e.isMissingPatch = false →
      m.run.run st = (.error e, st')
  /-- Git is asked where no patch has the name and it has no other reading. -/
  unknown : ∀ st st' s name similar, (currentStack v current).run.run st = (.ok s, st') →
    p.locator.disambiguate s = .error (.unknownPatch name similar) →
      m.run.run st = (resolveGit v t).run.run st'
  /-- Git is asked where the name is read as an index and the position is outside of the stack;
  should git not know it, the position is reported. -/
  outside : ∀ st st' s locator i total k offsets,
    (currentStack v current).run.run st = (.ok s, st') →
      p.locator.position .ancestors s = .error (.outOfRange locator i total) →
      p.locator.disambiguate s = .ok ⟨.belowTop (some k), offsets⟩ →
      m.run.run st = Prod.map (insteadOfUnknown (.outOfRange locator i total)) id
        ((resolveGit v t).run.run st')
  /-- Other failures to have a position are final. -/
  no_position : ∀ st st' s e, (currentStack v current).run.run st = (.ok s, st') →
    p.locator.position .ancestors s = .error e →
    (∀ name similar, p.locator.disambiguate s ≠ .error (.unknownPatch name similar)) →
    (∀ locator i total k offsets, e = .outOfRange locator i total →
      p.locator.disambiguate s ≠ .ok ⟨.belowTop (some k), offsets⟩) →
      m.run.run st = (.error e, st')
  /-- Where there is a position the patch is meant, or the ancestor of the base, even if its
  commit is not found. -/
  found : ∀ st st' s i, (currentStack v current).run.run st = (.ok s, st') →
    p.locator.position .ancestors s = .ok i →
      m.run.run st = (resolvePatchLike v p s).run.run st'

section Fallback

variable {t : Text} {current : Option Stack} {st st' : σ}

/-- Without a stack, git is asked or the failure to find it is final, unless it is that an index is
outside of a stack, for then there is none to look into. -/
lemma run_resolvePatchOrGit_of_no_stack {e : Error} :
    (currentStack v current).run.run st = (.error e, st') →
      (resolvePatchOrGit v p t current).run.run st =
        match e with
        | .unknownPatch .. | .unknownBranch .. => (resolveGit v t).run.run st'
        | .outOfRange .. => (.error (.breakdown .missingStack), st')
        | e => (.error e, st') := by
  intro h
  rw [resolvePatchOrGit, Run.run_bind, Run.run_outcome, h]
  cases e <;> rfl

/-- A failure to find the stack is final if it is none of those. -/
lemma run_resolvePatchOrGit_of_stack_failed {e : Error}
    (h : (currentStack v current).run.run st = (.error e, st'))
    (hne : ∀ branch reason, e ≠ .unknownBranch branch reason)
    (hmissing : e.isMissingPatch = false) :
    (resolvePatchOrGit v p t current).run.run st = (.error e, st') := by
  rw [run_resolvePatchOrGit_of_no_stack h]
  cases e with
  | unknownPatch name similar => cases hmissing
  | outOfRange locator index total => cases hmissing
  | unknownBranch branch reason => exact absurd rfl (hne branch reason)
  | _ => rfl

/-- With a stack but without a position, git is asked or the failure to have one is final.

**Proof sketch.** The computation is opened once. Without a position nothing is looked up, so that
the state is the one in which the stack was found, and the cases are those of the error. -/
lemma run_resolvePatchOrGit_of_no_position {e : Error} :
    (currentStack v current).run.run st = (.ok s, st') →
    p.locator.position .ancestors s = .error e →
      (resolvePatchOrGit v p t current).run.run st =
        match e with
        | .unknownPatch .. | .unknownBranch .. => (resolveGit v t).run.run st'
        | .outOfRange l i total =>
          if readsAsIndex p.locator s = true then
            Prod.map (insteadOfUnknown (.outOfRange l i total)) id ((resolveGit v t).run.run st')
          else (.error (.outOfRange l i total), st')
        | e => (.error e, st') := by
  intro h hp
  rw [resolvePatchOrGit, Run.run_bind, Run.run_outcome, h]
  dsimp only
  rw [Run.run_bind, Run.run_outcome, run_resolvePatchLike_of_error hp]
  cases e with
  | outOfRange l i total =>
    dsimp only
    split_ifs
    · rw [Run.run_bind, Run.run_outcome]
      rcases (resolveGit v t).run.run st' with ⟨e | revision, st''⟩
      · cases e <;> rfl
      · rfl
    · rfl
  | _ => rfl

/-- A name that is not read has no position, for the reason that it is not read. -/
lemma position_of_unread {n : PatchName} (ha : p.locator.anchor = .name n) {e : Error}
    (hd : p.locator.disambiguate s = .error e) : p.locator.position .ancestors s = .error e := by
  have hw : p.locator.write = .ok p.locator.text := by
    rw [Locator.write_eq_ok_iff, ha]
    rfl
  simp only [Locator.position, hw, hd, mapError_ok, bind, Except.bind]

/-- A name that is read as an index is one whose anchor is an index. -/
lemma readsAsIndex_iff {l : Locator} {n : PatchName} (ha : l.anchor = .name n) :
    readsAsIndex l s = true ↔
      ∃ k offsets, l.disambiguate s = .ok ⟨.belowTop (some k), offsets⟩ := by
  unfold readsAsIndex
  rw [ha]
  rcases l.disambiguate s with e | ⟨anchor, offsets⟩
  · simp
  · cases anchor with
    | belowTop index => cases index <;> simp
    | _ => simp

/-- **A revision that may be a patch or a revision of git resolves to the patch if it can.** Git is
asked for the whole text where there is no stack, where the name is unknown and where it is an
index outside of the stack, in which case git may not know it either. All other failures are final,
and so is a position whose commit is not found. Nothing is said of services that fail to find a
stack as a locator fails to find a patch in it; those of git do not, by
`PatchStack.Git.services_findsStacks`.

**Proof sketch.** The stack is looked for first. The position is found or not without anything
being looked up, so that git is asked from the state in which the stack was found. After a position
only look-ups can fail, and these are no failures that git is asked after. -/
theorem resolvePatchOrGit_fallsBack (hv : v.LooksUp) {whole : Text}
    (ht : Revision.ofText t = .ok (.patchOrGit p whole)) (current : Option Stack) :
    FallsBack v p t current (resolveRevision v (.patchOrGit p whole) current) := by
  obtain ⟨rfl, n, ha⟩ := Revision.eq_of_patchOrGit ht
  rw [resolveRevision]
  constructor
  · intro st st' branch reason h
    exact run_resolvePatchOrGit_of_no_stack h
  · exact fun st st' e h hne hmissing => run_resolvePatchOrGit_of_stack_failed h hne hmissing
  · intro st st' s name similar h hd
    exact run_resolvePatchOrGit_of_no_position h (position_of_unread ha hd)
  · intro st st' s locator i total k offsets h hp hd
    rw [run_resolvePatchOrGit_of_no_position h hp]
    exact if_pos ((readsAsIndex_iff ha).2 ⟨k, offsets, hd⟩)
  · intro st st' s e h hp hunknown hindex
    rw [run_resolvePatchOrGit_of_no_position h hp]
    cases Locator.positionFailure_of_position hp with
    | reading hd hr =>
      cases hr with
      | unknown c ha hc hstem => exact absurd hd (hunknown _ _)
      | ambiguous c ha hc hstem hseveral => rfl
      | overlong => rfl
    | outside i hi hcount =>
      refine if_neg fun hreads => ?_
      obtain ⟨k, offsets, hd⟩ := (readsAsIndex_iff ha).1 hreads
      exact hindex _ _ _ k offsets rfl hd
    | staysBelow hfloor ha hnet => cases hfloor
    | unwritten | tooFar | uncounted => rfl
  · intro st st' s i h hp
    exact run_resolvePatchOrGit_of_position hv h hp

/-- With the services of git every failure to find the stack is final, but for the want of one:
the stack is not missing as a patch is. -/
theorem Git.final_of_no_stack (git : Git) {session session' : Session} {e : Error}
    (h : (git.stackOf none).run.run session = (.error e, session'))
    (hne : ∀ branch reason, e ≠ .unknownBranch branch reason) :
    (resolvePatchOrGit git.services p t none).run.run session = (.error e, session') := by
  have hstack : (currentStack git.services none).run.run session = (.error e, session') := h
  exact run_resolvePatchOrGit_of_stack_failed hstack hne
    (git.services_findsStacks.stackOf none session session' e h)

end Fallback

/-! ## A record of what git is asked -/

section Record

/-- Services with one stack that keep a record of the revisions looked up. They know none. -/
def recording (s : Stack) : Services (List Text) where
  stackOf _ := pure s
  lookup revision := do
    modify (· ++ [revision])
    throw (.unknownCommit revision)
  applySuffix _ suffix := throw (.unknownCommit suffix)

/-- They fail to know a commit as a look-up does. -/
lemma recording_looksUp (s : Stack) : (recording s).LooksUp where
  lookup _ := .bind (.modify _) fun _ => .throw rfl
  applySuffix _ _ := .throw rfl

/-- The name `7`. -/
def seven : PatchName := ⟨['7'], by decide⟩

/-- Git is asked for an index outside of the stack, and for nothing else. It does not know it, so
that the index is reported. -/
theorem fallsBack_seven :
    (recording indexLikeStack).LooksUp ∧
      Revision.ofText ['7'] = .ok (.patchOrGit ⟨.ofName seven, []⟩ ['7']) ∧
      (resolveRevision (recording indexLikeStack) (.patchOrGit ⟨.ofName seven, []⟩ ['7'])
        none).run.run [] = (.error (.outOfRange ['7'] 7 3), [['7']]) := by
  have hv := recording_looksUp indexLikeStack
  have ht : Revision.ofText ['7'] = .ok (.patchOrGit ⟨.ofName seven, []⟩ ['7']) := rfl
  refine ⟨hv, ht, ?_⟩
  rw [(resolvePatchOrGit_fallsBack hv ht none).outside [] [] indexLikeStack ['7'] 7 3 7 .empty
    rfl rfl rfl]
  rfl

end Record

/-! ## Stacks that are missing as a patch is -/

section Stackless

/-- Services that know every commit, and fail with one error to find a stack. -/
def stackless (e : Error) : Services Unit where
  stackOf _ := throw e
  lookup revision := pure ⟨revision, [], 0⟩
  applySuffix commit suffix := pure ⟨commit.id ++ suffix, [], 0⟩

/-- They do not fail to find a commit. -/
lemma stackless_looksUp (e : Error) : (stackless e).LooksUp where
  lookup _ := .pure _
  applySuffix _ _ := .pure _

/-- Not every failure to find the stack is final. If a patch is missing there, git is asked for the
whole text; if an index is outside of a stack, the computation breaks down. -/
theorem not_final_of_missing_patch :
    (∀ e, (stackless e).LooksUp) ∧
      Revision.ofText ['7'] = .ok (.patchOrGit ⟨.ofName seven, []⟩ ['7']) ∧
      (resolveRevision (stackless (.unknownPatch ['q'] [])) (.patchOrGit ⟨.ofName seven, []⟩ ['7'])
        none).run.run () = (.ok ⟨none, ⟨['7'], [], 0⟩⟩, ()) ∧
      (resolveRevision (stackless (.outOfRange ['q'] 9 3)) (.patchOrGit ⟨.ofName seven, []⟩ ['7'])
        none).run.run () = (.error (.breakdown .missingStack), ()) :=
  ⟨stackless_looksUp, rfl, rfl, rfl⟩

end Stackless

end PatchStack
