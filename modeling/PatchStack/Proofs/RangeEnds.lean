import PatchStack.Proofs.NamedRevisions
import PatchStack.Proofs.Selections

set_option autoImplicit false

/-!
# Both ends of a range

A range of patches resolves to its two ends, which are the first and the last patch that it selects.
Whichever bounds are left out and whatever the constraint is, nothing is looked up where nothing is
selected, one commit where one patch is, and two commits otherwise. Where a bound is written down,
the end is the patch that the bound is by itself, looked up as the same revision, although the one
is found in a selection and the other by its position alone.

## Main definitions

* `PatchStack.RevisionSpec.between` — a range of patches, possibly in the stack of a branch.
* `PatchStack.BoundsRun` — the ways in which resolving the ends can go.
* `PatchStack.Locator.IsAlone` — what a locator resolves to by itself.
* `PatchStack.ResolvesEnds` — how the ends of a range resolve.

## Main results

* `PatchStack.Bounds.isAlone_of_start`, `PatchStack.Bounds.isAlone_of_stop` — an end is the patch
  that its bound is by itself.
* `PatchStack.boundsRun` — the ends resolve in one of the ways.
* `PatchStack.resolveSpec_finds_ends` — ranges, their requests and their ends.
-/

namespace PatchStack

variable {σ : Type}

/-! ## Ranges in a stack -/

/-- A range of patches, in the stack of the branch if there is one. -/
def RevisionSpec.between (branch : Option Text) (b : Bounds) : RevisionSpec :=
  match branch with
  | some branch => .branchRange branch b
  | none => .range b

/-- The stack that a range is resolved against. -/
def Services.rangeStack (v : Services σ) (branch : Option Text) (current : Option Stack) :
    Run σ Stack :=
  match branch with
  | some branch => v.stackOf (some branch)
  | none => currentStack v current

/-- A range of patches is resolved in its stack. -/
lemma resolveSpec_between (v : Services σ) (branch : Option Text) (b : Bounds)
    (current : Option Stack) (c : RangeConstraint) :
    resolveSpec v (.between branch b) current c =
      v.rangeStack branch current >>= fun s => resolveBounds v b s c := by
  cases branch <;> rfl

/-! ## Ends that are written down -/

section Alone

variable {v : Services σ} {s : Stack} {b : Bounds} {c : RangeConstraint} {l : Locator}
  {n : PatchName}

/-- By itself the locator is the patch: as a revision without a suffix, of whatever kind and
wherever the stack comes from, it resolves to the patch with the commit that is looked up for it,
and nothing else is asked for. Git could only be asked if the look-up failed in a way of its own. -/
def Locator.IsAlone (l : Locator) (v : Services σ) (s : Stack) (n : PatchName) : Prop :=
  ∀ (r : Revision) current st asked st₁ asked₁, r.Names l →
    (r.stack v.recorded current).run.run (st, asked) = (.ok s, st₁, asked₁) →
    (∀ e, ((v.lookup (patchRevision s n)).run.run st₁).1 = .error e → e.isLookup = true) →
      (resolveRevision v.recorded r current).run.run (st, asked) =
        (((v.lookup (patchRevision s n)).run.run st₁).1.map fun commit => ⟨some n, commit⟩,
          ((v.lookup (patchRevision s n)).run.run st₁).2,
          asked₁ ++ [.lookup (patchRevision s n)])

/-- The request for the commit of a patch, and what becomes of the answer. -/
lemma run_patch_recorded (st : σ) (asked : List Request) :
    (v.recorded.patch s n).run.run (st, asked) =
      (((v.lookup (patchRevision s n)).run.run st).1.map fun commit => ⟨some n, commit⟩,
        ((v.lookup (patchRevision s n)).run.run st).2,
        asked ++ [.lookup (patchRevision s n)]) := by
  rw [Services.patch, Run.run_bind, Services.run_recorded_lookup]
  rcases (v.lookup (patchRevision s n)).run.run st with ⟨e | commit, st'⟩
  · rfl
  · rfl

/-- A locator that resolves under a constraint is its patch by itself, without the constraint. -/
theorem Locator.isAlone_of_resolve {c : LocationConstraint} (h : l.resolve s c = .ok n) :
    l.IsAlone v s n := by
  intro r current st asked st₁ asked₁ hr hstack hfinal
  have hlike := resolvePatchLike_of_resolve (v := v.recorded) h
  rw [← run_patch_recorded, ← hlike]
  refine hr.run_resolveRevision hstack fun e st₂ he => hfinal e ?_
  rw [hlike, run_patch_recorded] at he
  exact map_eq_error_iff.1 (congrArg Prod.fst he)

/-- What the begin leads to is the first of what is selected. -/
theorem Bounds.isAlone_of_start {rest : List PatchName} (hl : b.start = some l)
    (h : b.select s c = .ok (n :: rest)) : l.IsAlone v s n := by
  rcases select_eq_ok_iff.1 h with ⟨-, -, -, hnil⟩ | ⟨i, j, hb, -, hij, hwindow⟩
  · cases hnil
  · have hn : s.patches[i]? = some n := by rw [← Stack.head?_window hij, ← hwindow, List.head?_cons]
    obtain ⟨hp, g, hg, -⟩ := (beginsAt_iff_of_start hl).1 hb
    exact Locator.isAlone_of_resolve (c := .all)
      (Locator.resolve_eq_ok_iff.2 ⟨i, g, hp, hn, hg, rfl⟩)

/-- What the end leads to is the last of what is selected. -/
theorem Bounds.isAlone_of_stop {front : List PatchName} (hl : b.stop = some l)
    (h : b.select s c = .ok (front ++ [n])) : l.IsAlone v s n := by
  rcases select_eq_ok_iff.1 h with ⟨-, -, -, hnil⟩ | ⟨i, j, -, he, hij, hwindow⟩
  · exact absurd hnil (List.append_ne_nil_of_right_ne_nil front (List.cons_ne_nil n []))
  · have hn : s.patches[j]? = some n := by
      rw [← Stack.getLast?_window hij he.allowedIndex.lt_total, ← hwindow, List.getLast?_concat]
    obtain ⟨hp, g, hg, -⟩ := (endsAt_iff_of_stop hl).1 he
    exact Locator.isAlone_of_resolve (c := .all)
      (Locator.resolve_eq_ok_iff.2 ⟨j, g, hp, hn, hg, rfl⟩)

end Alone

/-! ## Both ends -/

section Ends

variable (v : Services σ) (s : Stack) (b : Bounds) (c : RangeConstraint)

/-- The ways in which resolving the ends of a range can go, from a state and the requests before,
each with how it ends and the state and the requests after it. -/
inductive BoundsRun (st : σ) (asked : List Request) :
    Except Error Boundary × σ × List Request → Prop where
  /-- The bounds do not select anything that has ends. -/
  | refused {e : Error} (h : b.select s c = .error e) : BoundsRun st asked (.error e, st, asked)
  /-- Nothing is selected. -/
  | empty (h : b.select s c = .ok []) :
    BoundsRun st asked (.error (.emptyRange b.text), st, asked)
  /-- The commit of the first patch is not found. -/
  | noFirst {first : PatchName} {rest : List PatchName} {e : Error} {st₁ : σ}
    (h : b.select s c = .ok (first :: rest))
    (hfirst : (v.lookup (patchRevision s first)).run.run st = (.error e, st₁)) :
    BoundsRun st asked (.error e, st₁, asked ++ [.lookup (patchRevision s first)])
  /-- One patch is selected, and its commit is at both ends. -/
  | one {n : PatchName} {commit : Commit} {st₁ : σ} (h : b.select s c = .ok [n])
    (hn : (v.lookup (patchRevision s n)).run.run st = (.ok commit, st₁)) :
    BoundsRun st asked (.ok (.ends ⟨some n, commit⟩ ⟨some n, commit⟩), st₁,
      asked ++ [.lookup (patchRevision s n)])
  /-- The commit of the last patch is not found. -/
  | noLast {first last : PatchName} {middle : List PatchName} {begins : Commit} {e : Error}
    {st₁ st₂ : σ} (h : b.select s c = .ok (first :: (middle ++ [last])))
    (hfirst : (v.lookup (patchRevision s first)).run.run st = (.ok begins, st₁))
    (hlast : (v.lookup (patchRevision s last)).run.run st₁ = (.error e, st₂)) :
    BoundsRun st asked (.error e, st₂,
      asked ++ [.lookup (patchRevision s first), .lookup (patchRevision s last)])
  /-- More than one patch is selected, and the commits of the first and the last are found. -/
  | two {first last : PatchName} {middle : List PatchName} {begins ends : Commit}
    {st₁ st₂ : σ} (h : b.select s c = .ok (first :: (middle ++ [last])))
    (hfirst : (v.lookup (patchRevision s first)).run.run st = (.ok begins, st₁))
    (hlast : (v.lookup (patchRevision s last)).run.run st₁ = (.ok ends, st₂)) :
    BoundsRun st asked (.ok (.ends ⟨some first, begins⟩ ⟨some last, ends⟩), st₂,
      asked ++ [.lookup (patchRevision s first), .lookup (patchRevision s last)])

variable {v s b c} {st : σ} {asked : List Request}

/-- One patch is looked up once, and its commit is at both ends. -/
lemma Services.ends_self (n : PatchName) :
    v.ends s n n = do
      let commit ← v.lookup (patchRevision s n)
      return .ends ⟨some n, commit⟩ ⟨some n, commit⟩ := by
  unfold Services.ends
  congr 1
  funext commit
  dsimp only
  rw [if_pos rfl, pure_bind]

/-- Two patches are looked up one after the other. -/
lemma Services.ends_of_ne {first last : PatchName} (hne : last ≠ first) :
    v.ends s first last = do
      let begins ← v.lookup (patchRevision s first)
      let ends ← v.lookup (patchRevision s last)
      return .ends ⟨some first, begins⟩ ⟨some last, ends⟩ := by
  unfold Services.ends
  congr 1
  funext begins
  exact if_neg hne

/-- One patch that is selected is at both ends. -/
lemma boundsRun_one {n : PatchName} (h : b.select s c = .ok [n]) :
    BoundsRun v s b c st asked ((resolveBounds v.recorded b s c).run.run (st, asked)) := by
  rw [resolveBounds_of_select (List.cons_ne_nil n []) h, List.head_cons, List.getLast_singleton,
    Services.ends_self, Run.run_bind, Services.run_recorded_lookup]
  rcases hn : (v.lookup (patchRevision s n)).run.run st with ⟨e | commit, st₁⟩
  · exact .noFirst h hn
  · exact .one h hn

/-- The patches that are selected are different, so that both ends are looked up.

**Proof sketch.** What is selected has no patch twice, so that its ends are two. Their commits are
looked up one after the other, and each look-up may fail. -/
lemma boundsRun_two {first last : PatchName} {middle : List PatchName}
    (h : b.select s c = .ok (first :: (middle ++ [last]))) :
    BoundsRun v s b c st asked ((resolveBounds v.recorded b s c).run.run (st, asked)) := by
  have hnodup : (first :: (middle ++ [last])).Nodup :=
    s.nodup.sublist (Range.sublist_of_select (r := .between b) h)
  have hne : last ≠ first := by
    rintro rfl
    exact (List.nodup_cons.1 hnodup).1 (by simp)
  have hlast : (first :: (middle ++ [last])).getLast (List.cons_ne_nil _ _) = last := by simp
  rw [resolveBounds_of_select (List.cons_ne_nil _ _) h, List.head_cons, hlast,
    Services.ends_of_ne hne, Run.run_bind, Services.run_recorded_lookup]
  rcases hbegins : (v.lookup (patchRevision s first)).run.run st with ⟨e | begins, st₁⟩
  · exact .noFirst h hbegins
  · dsimp only
    rw [Run.run_bind, Services.run_recorded_lookup, List.append_assoc]
    rcases hends : (v.lookup (patchRevision s last)).run.run st₁ with ⟨e | ends, st₂⟩
    · exact .noLast h hbegins hends
    · exact .two h hbegins hends

variable (v s b c st asked) in
/-- The ends of a range resolve in one of these ways.

**Proof sketch.** One case for what the bounds select: an error, nothing, one patch, or several with
a first and a last one. -/
theorem boundsRun :
    BoundsRun v s b c st asked ((resolveBounds v.recorded b s c).run.run (st, asked)) := by
  cases h : b.select s c with
  | error e =>
    rw [resolveBounds, h]
    exact .refused h
  | ok names =>
    cases names with
    | nil =>
      rw [resolveBounds, h]
      exact .empty h
    | cons first rest =>
      rcases List.eq_nil_or_concat' rest with rfl | ⟨middle, last, rfl⟩
      · exact boundsRun_one h
      · exact boundsRun_two h

/-! ## Names of the ends -/

variable {out : Except Error Boundary × σ × List Request} {boundary : Boundary} {n : PatchName}

/-- The end at the front is named by the first patch that is selected. -/
lemma BoundsRun.patch_first {rest : List PatchName} (h : BoundsRun v s b c st asked out)
    (hsel : b.select s c = .ok (n :: rest)) (hout : out.1 = .ok boundary) :
    boundary.first.patch = some n := by
  cases h with
  | refused | empty | noFirst | noLast => cases hout
  | one h | two h =>
    cases hout
    cases h.symm.trans hsel
    rfl

/-- The end at the back is named by the last patch that is selected.

**Proof sketch.** In the cases that succeed, the end at the back is looked up for the last patch of
the selection. -/
lemma BoundsRun.patch_last {front : List PatchName} (h : BoundsRun v s b c st asked out)
    (hsel : b.select s c = .ok (front ++ [n])) (hout : out.1 = .ok boundary) :
    boundary.last.patch = some n := by
  cases h with
  | refused | empty | noFirst | noLast => cases hout
  | one h =>
    cases hout
    have hlast := congrArg List.getLast? (Except.ok.inj (h.symm.trans hsel))
    rwa [List.getLast?_singleton, List.getLast?_concat] at hlast
  | two h =>
    cases hout
    have hlast := congrArg List.getLast? (Except.ok.inj (h.symm.trans hsel))
    rwa [← List.cons_append, List.getLast?_concat, List.getLast?_concat] at hlast

/-! ## Empty ranges -/

/-- No bounds are refused for being empty. -/
lemma Bounds.select_ne_emptyRange (text : Text) : b.select s c ≠ .error (.emptyRange text) := by
  intro h
  rcases select_cases b s c with ⟨l, e, -, he, h'⟩ | ⟨-, -, -, h'⟩ | ⟨i, j, -, -, -, h'⟩ |
    ⟨i, j, first, last, -, -, -, -, -, h'⟩ <;> rw [h'] at h <;> cases h
  cases Locator.resolutionFailure_of_resolve he with
  | position hp => cases hp with | reading hd hr => cases hr

/-- A range is empty, with nothing asked for, exactly if it selects nothing.

**Proof sketch.** No selection fails with the error for an empty range, so that this error has no
other cause. -/
theorem BoundsRun.empty_iff (h : BoundsRun v s b c st asked out) :
    (∃ text, out = (.error (.emptyRange text), st, asked)) ↔ b.select s c = .ok [] := by
  constructor
  · rintro ⟨text, hout⟩
    cases h with
    | refused he =>
      cases hout
      exact absurd he (Bounds.select_ne_emptyRange text)
    | empty hnil => exact hnil
    | noFirst | one | noLast | two => simp at hout
  · intro hnil
    cases h with
    | empty => exact ⟨b.text, rfl⟩
    | refused h | noFirst h | one h | noLast h | two h => cases hnil.symm.trans h

/-- If look-ups do not fail as empty ranges do, a range is empty exactly if it selects nothing.

**Proof sketch.** Selecting never fails with this error and look-ups do not by assumption, so that
it comes from an empty selection. -/
theorem BoundsRun.fst_empty_iff (h : BoundsRun v s b c st asked out)
    (hv : ∀ revision, (v.lookup revision).FailsOnly fun e => ∀ text, e ≠ .emptyRange text) :
    (∃ text, out.1 = .error (.emptyRange text)) ↔ b.select s c = .ok [] := by
  constructor
  · rintro ⟨text, hout⟩
    cases h with
    | refused he =>
      cases hout
      exact absurd he (Bounds.select_ne_emptyRange text)
    | empty hnil => exact hnil
    | noFirst hsel hfirst =>
      cases hout
      exact absurd rfl (hv _ _ _ _ hfirst text)
    | noLast hsel hfirst hlast =>
      cases hout
      exact absurd rfl (hv _ _ _ _ hlast text)
    | one | two => cases hout
  · intro hnil
    obtain ⟨text, rfl⟩ := h.empty_iff.2 hnil
    exact ⟨text, rfl⟩

end Ends

/-! ## Ranges -/

/-- How the ends of a range resolve in a stack, from a state and the requests before. -/
structure ResolvesEnds (v : Services σ) (s : Stack) (b : Bounds) (c : RangeConstraint) (st : σ)
    (asked : List Request) (out : Except Error Boundary × σ × List Request) : Prop where
  /-- It goes in one of the ways. -/
  run : BoundsRun v s b c st asked out
  /-- The range is empty, with nothing asked for, exactly if nothing is selected. -/
  empty_iff : (∃ text, out = (.error (.emptyRange text), st, asked)) ↔ b.select s c = .ok []
  /-- If a look-up does not fail as an empty range does, this is the only way to be empty. -/
  fst_empty_iff :
    (∀ revision, (v.lookup revision).FailsOnly fun e => ∀ text, e ≠ .emptyRange text) →
      ((∃ text, out.1 = .error (.emptyRange text)) ↔ b.select s c = .ok [])
  /-- With a begin, the first end is named by the patch that the begin is by itself. -/
  start : ∀ l n rest, b.start = some l → b.select s c = .ok (n :: rest) →
    l.IsAlone v s n ∧ ∀ boundary, out.1 = .ok boundary → boundary.first.patch = some n
  /-- With an end, the last end is named by the patch that the end is by itself. -/
  stop : ∀ l front n, b.stop = some l → b.select s c = .ok (front ++ [n]) →
    l.IsAlone v s n ∧ ∀ boundary, out.1 = .ok boundary → boundary.last.patch = some n

/-- **A range resolves to the first and the last patch that it selects.** If nothing is selected it
is an empty range, and if the bounds are refused it fails as they do, both without a request. If
one patch is selected its commit is asked for once and is at both ends, however the services make
their commits; of several patches, the first and the last are asked for in this order. An end that
is written down is the patch that its locator is by itself, and is asked for as the same revision.
The record changes nothing.

**Proof sketch.** What is selected is part of a stack, in which no name is there twice, so that the
first and the last patch are different if there are two. A written bound has the position of its
locator, which is the same if ancestors of the base are allowed, and its patch does not depend on
the constraint. -/
theorem resolveSpec_finds_ends (v : Services σ) (current : Option Stack) (branch : Option Text)
    (b : Bounds) (c : RangeConstraint) :
    (resolveSpec v.recorded (.between branch b) current c).Records
      (resolveSpec v (.between branch b) current c) ∧
    (∀ st e st', (v.recorded.rangeStack branch current).run.run st = (.error e, st') →
      (resolveSpec v.recorded (.between branch b) current c).run.run st = (.error e, st')) ∧
    ∀ st s st₁ asked, (v.recorded.rangeStack branch current).run.run st = (.ok s, st₁, asked) →
      ResolvesEnds v s b c st₁ asked
        ((resolveSpec v.recorded (.between branch b) current c).run.run st) := by
  refine ⟨v.resolveSpec_records current _ c, fun st e st' h => ?_, fun st s st₁ asked h => ?_⟩
  · rw [resolveSpec_between, Run.run_bind, h]
  · rw [resolveSpec_between, Run.run_bind, h]
    have hrun := boundsRun v s b c st₁ asked
    exact ⟨hrun, hrun.empty_iff, hrun.fst_empty_iff,
      fun l n rest hl hsel => ⟨Bounds.isAlone_of_start hl hsel, fun _ => hrun.patch_first hsel⟩,
      fun l front n hl hsel => ⟨Bounds.isAlone_of_stop hl hsel, fun _ => hrun.patch_last hsel⟩⟩

/-! ## Services that make new commits -/

section Counting

/-- Services with one stack that make a new commit for every look-up. -/
def counting : Services Nat where
  stackOf _ := pure indexLikeStack
  lookup revision := do
    let made ← get
    set (made + 1)
    return ⟨revision, [], made⟩
  applySuffix commit _ := pure commit

/-- The bounds from one named patch to another. -/
def fromTo (first last : PatchName) : Bounds := ⟨some (.ofName first), some (.ofName last)⟩

example : (resolveSpec counting.recorded (.between none (fromTo ordinary ordinary)) none
    .all).run.run (0, []) =
      (.ok (.ends ⟨some ordinary, ⟨['b'], [], 0⟩⟩ ⟨some ordinary, ⟨['b'], [], 0⟩⟩),
        1, [.stack none, .lookup ['b']]) := rfl

example : (resolveSpec counting.recorded (.between none (fromTo indexAlone ordinary)) none
    .all).run.run (0, []) =
      (.ok (.ends ⟨some indexAlone, ⟨['0'], [], 0⟩⟩ ⟨some ordinary, ⟨['b'], [], 1⟩⟩),
        2, [.stack none, .lookup ['0'], .lookup ['b']]) := rfl

end Counting

end PatchStack
