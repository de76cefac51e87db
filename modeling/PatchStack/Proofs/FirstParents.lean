import PatchStack.Proofs.MovedLocators
import PatchStack.Proofs.PatchRevisions

set_option autoImplicit false

/-!
# Patches as a line of first parents

In a repository the commit of each applied patch has that of the patch below as its first parent,
and the bottommost one has the base. A tilde behind a locator leads to the patch below, from the
bottommost patch to the base, and from there to the ancestors of the base, so that it leads from
every commit to its first parent, as it does in revisions of git.

## Main definitions

* `PatchStack.History` — commits and their first parents.
* `PatchStack.History.Carries` — the applied patches of a stack are a line of first parents.
* `PatchStack.History.Serves` — services that know the commits of the history.
* `PatchStack.Revision.Names` — a revision is a locator without a suffix.

## Main results

* `PatchStack.History.commitAt_pred` — one position further down is the first parent.
* `PatchStack.History.run_resolveRevision_of_names` — what a revision without a suffix resolves to.
* `PatchStack.History.tilde_leads_to_parent` — a tilde behind a locator leads to the first parent.
-/

namespace PatchStack

/-! ## Histories -/

/-- Commits, given by their ids, with their first parents. -/
structure History where
  /-- Is the text the id of a commit? -/
  IsCommit : Text → Prop
  /-- The first parent of a commit. There is none for a root. -/
  parent : Text → Option Text
  /-- An id is not empty. -/
  ne_nil : ∀ id, IsCommit id → id ≠ []

namespace History

/-- The ancestor so many first parents away. -/
def ancestor (h : History) (id : Text) : Nat → Option Text
  | 0 => some id
  | depth + 1 => (h.ancestor id depth).bind h.parent

variable (h : History)

/-- The stack lies in the history: the commits recorded for its applied patches are a line of
first parents that ends in the base. What is below the base is a history that has a beginning: it
is not as long as the longest one whose length can be written. -/
structure Carries (s : Stack) : Prop where
  /-- The base is a commit. -/
  isCommit_base : h.IsCommit s.base
  /-- The generations below the base can be counted, and one more. -/
  countable : ∀ depth : Nat, h.ancestor s.base depth ≠ none →
    Text.digitCount (depth + 1) ≤ digitLimit
  /-- The base is the first parent of the bottommost applied patch. -/
  bottom : ∀ n, s.applied[0]? = some n →
    ∃ id, h.IsCommit id ∧ s.commitOf n.text = some id ∧ h.parent id = some s.base
  /-- Every applied patch is the first parent of the one above it. -/
  above : ∀ (i : Nat) n n', s.applied[i]? = some n → s.applied[i + 1]? = some n' →
    ∃ id id', h.IsCommit id' ∧ s.commitOf n.text = some id ∧ s.commitOf n'.text = some id' ∧
      h.parent id' = some id

/-- The services find the commits of the history, by their ids and as ancestors of others. -/
structure Serves {σ : Type} (v : Services σ) : Prop where
  /-- The commit of an id has that id. -/
  lookup : ∀ id, h.IsCommit id → ∀ st, ∃ commit st',
    (v.lookup id).run.run st = (.ok commit, st') ∧ commit.id = id
  /-- An ancestor is found by an id and its depth. -/
  ancestor : ∀ id, h.IsCommit id → ∀ (depth : Nat) a, h.ancestor id depth = some a →
    ∀ st, ∃ commit st',
      (v.lookup (id ++ '~' :: Text.ofInt depth)).run.run st = (.ok commit, st') ∧ commit.id = a
  /-- Where there is no ancestor none is found. -/
  no_ancestor : ∀ id, h.IsCommit id → ∀ depth : Nat, h.ancestor id depth = none → ∀ st, ∃ st',
    (v.lookup (id ++ '~' :: Text.ofInt depth)).run.run st =
      (.error (.unknownCommit (id ++ '~' :: Text.ofInt depth)), st')

/-! ## The commit at a position -/

/-- The commit at a position: that of an applied patch, the base or one of its ancestors. -/
def commitAt (s : Stack) : Int → Option Text
  | .ofNat i => s.applied[i]?.bind fun n => s.commitOf n.text
  | .negSucc depth => h.ancestor s.base depth

variable {h} {s : Stack}

/-- An applied patch has a recorded commit.

**Proof sketch.** The bottommost patch has its own field in the hypothesis, the others have their
commits from the patch below. -/
lemma Carries.exists_commit (hs : h.Carries s) {i : Nat} {n : PatchName}
    (hn : s.applied[i]? = some n) : ∃ id, h.IsCommit id ∧ s.commitOf n.text = some id := by
  cases i with
  | zero =>
    obtain ⟨id, hid, hcommit, -⟩ := hs.bottom n hn
    exact ⟨id, hid, hcommit⟩
  | succ i =>
    have hlt : i < s.applied.length := by
      have := (List.getElem?_eq_some_iff.1 hn).1
      omega
    obtain ⟨-, id, hid, -, hcommit, -⟩ := hs.above i _ n (List.getElem?_eq_getElem hlt) hn
    exact ⟨id, hid, hcommit⟩

/-- **One position further down** is the first parent, within the applied patches, from the
bottommost of them to the base, and below the base.

**Proof sketch.** The position is that of a patch above another one, of the bottommost patch, or of
the base or an ancestor. The history carries the stack, so that the first two have the commit below
as their first parent, and the last is how ancestors are defined. -/
theorem commitAt_pred (hs : h.Carries s) {j : Int} (hj : j < s.applied.length) :
    h.commitAt s (j - 1) = (h.commitAt s j).bind h.parent := by
  match j with
  | .ofNat 0 =>
    have hlt : 0 < s.applied.length := by simpa using hj
    have hn := List.getElem?_eq_getElem hlt
    obtain ⟨id, -, hcommit, hparent⟩ := hs.bottom _ hn
    have hat : h.commitAt s (.ofNat 0) = some id := by
      rw [commitAt, hn]
      exact hcommit
    rw [hat]
    exact hparent.symm
  | .ofNat (i + 1) =>
    have hlt : i + 1 < s.applied.length := by
      have : ((i + 1 : Nat) : Int) < s.applied.length := hj
      omega
    have hn := List.getElem?_eq_getElem (Nat.lt_of_succ_lt hlt)
    have hn' := List.getElem?_eq_getElem hlt
    obtain ⟨id, id', -, hcommit, hcommit', hparent⟩ := hs.above i _ _ hn hn'
    have hat : h.commitAt s (.ofNat (i + 1)) = some id' := by
      rw [commitAt, hn']
      exact hcommit'
    have hbelow : h.commitAt s (.ofNat i) = some id := by
      rw [commitAt, hn]
      exact hcommit
    have hpred : Int.ofNat (i + 1) - 1 = .ofNat i := by simp
    rw [hpred, hat, hbelow]
    exact hparent.symm
  | .negSucc depth =>
    have hpred : Int.negSucc depth - 1 = .negSucc (depth + 1) := rfl
    rw [hpred]
    rfl

/-! ## What is looked up -/

/-- The end of a resolution that finds the commit of this id, or that there is none. -/
inductive FindsCommit : Option Text → Except Error ResolvedRevision → Prop where
  /-- The commit is found. -/
  | found (r : ResolvedRevision) : FindsCommit (some r.commit.id) (.ok r)
  /-- There is no such commit. -/
  | missing (revision : Text) : FindsCommit none (.error (.unknownCommit revision))

/-- What is found is the commit of the id. -/
lemma FindsCommit.eq_some {id? : Option Text} {r : ResolvedRevision}
    (hf : FindsCommit id? (.ok r)) : id? = some r.commit.id := by
  cases hf
  rfl

/-- What is not found is missing as after a look-up. -/
lemma FindsCommit.isLookup {id? : Option Text} {e : Error} (hf : FindsCommit id? (.error e)) :
    e.isLookup = true := by
  cases hf
  rfl

section Services

variable {σ : Type} {v : Services σ}

/-- The commit of an id is found. -/
lemma Serves.run_lookup (hv : h.Serves v) {id : Text} (hid : h.IsCommit id)
    (patch : Option PatchName) (st : σ) :
    FindsCommit (some id)
      ((do return ⟨patch, ← v.lookup id⟩ : Run σ ResolvedRevision).run.run st).1 := by
  obtain ⟨commit, st', hrun, rfl⟩ := hv.lookup id hid st
  rw [Run.run_bind, hrun]
  exact .found ⟨patch, commit⟩

/-- What is so far below the base can be spelled as a revision. -/
def Spelled (j : Int) : Prop :=
  ∀ depth : Nat, j = .negSucc depth → Text.digitCount depth ≤ digitLimit

/-- The ancestors of a commit are found at every depth that can be written, also at none.

**Proof sketch.** At depth zero the base itself is looked up. At other depths the depth is written
behind a tilde, and the services know the ancestor, or know that there is none. -/
lemma Serves.run_belowBase (hv : h.Serves v) (hbase : h.IsCommit s.base) {depth : Nat}
    (hdepth : Text.digitCount depth ≤ digitLimit) (st : σ) :
    FindsCommit (h.ancestor s.base depth)
      ((do
        let revision ← Run.ofExcept ((belowBase s depth).mapError Error.ofNumeral)
        return ⟨none, ← v.lookup revision⟩ : Run σ ResolvedRevision).run.run st).1 := by
  unfold belowBase
  split_ifs with hzero
  · subst hzero
    exact hv.run_lookup hbase none st
  · rw [Text.writeInt_eq_ok_iff.2 ⟨hdepth, rfl⟩]
    show FindsCommit _ ((do return ⟨none, ← v.lookup (s.base ++ '~' :: Text.ofInt depth)⟩ :
      Run σ ResolvedRevision).run.run st).1
    cases ha : h.ancestor s.base depth with
    | some a =>
      obtain ⟨commit, st', hrun, rfl⟩ := hv.ancestor _ hbase depth a ha st
      rw [Run.run_bind, hrun]
      exact .found ⟨none, commit⟩
    | none =>
      obtain ⟨st', hrun⟩ := hv.no_ancestor _ hbase depth ha st
      rw [Run.run_bind, hrun]
      exact .missing _

/-- What is too far below the base to be spelled is not looked up. -/
lemma revisionAt_of_not_spelled {j : Int} (hj : ¬ Spelled j) :
    revisionAt v s j = Run.ofExcept (.error (.ofNumeral .unwritable)) := by
  obtain ⟨depth, rfl, hdepth⟩ : ∃ depth : Nat, j = .negSucc depth ∧
      digitLimit < Text.digitCount depth := by simpa [Spelled] using hj
  have hzero : depth ≠ 0 := by
    rintro rfl
    exact absurd hdepth (by decide)
  have hsub : (-1 - Int.negSucc depth).toNat = depth := by omega
  rw [revisionAt, if_neg (by omega), hsub, belowBase, if_neg hzero,
    Text.writeInt_eq_error_iff.2 ⟨hdepth, rfl⟩]
  rfl

/-- At a position of the applied patches or below them the commit there is found.

**Proof sketch.** At a patch, its commit is recorded and not empty, and it is looked up. Below the
patches the base or an ancestor is looked up (`Serves.run_belowBase`). -/
theorem findsCommit_of_revisionAt (hv : h.Serves v) (hs : h.Carries s) {j : Int}
    (hj : j < s.applied.length) (hspelled : Spelled j) (st : σ) :
    FindsCommit (h.commitAt s j) ((revisionAt v s j).run.run st).1 := by
  cases j with
  | ofNat i =>
    have hlt : i < s.applied.length := by simpa using hj
    have hn := List.getElem?_eq_getElem hlt
    obtain ⟨id, hid, hcommit⟩ := hs.exists_commit hn
    have hrevision : patchRevision s s.applied[i] = id := by
      cases hcons : id with
      | nil => exact absurd hcons (h.ne_nil id hid)
      | cons c id' => rw [patchRevision, hcommit, hcons]
    have hpatch : s.patches[i]? = some s.applied[i] := by
      rw [Stack.patches_eq, List.append_assoc, List.getElem?_append_left hlt, hn]
    have hat : h.commitAt s (.ofNat i) = some id := by
      rw [commitAt, hn]
      exact hcommit
    show FindsCommit _ ((revisionAt v s (i : Int)).run.run st).1
    rw [hat, revisionAt_of_getElem? hpatch, Services.patch, hrevision]
    exact hv.run_lookup hid _ st
  | negSucc depth =>
    have hdepth : (-1 - Int.negSucc depth).toNat = depth := by omega
    rw [revisionAt, if_neg (by omega), hdepth]
    exact hv.run_belowBase hs.isCommit_base (hspelled depth rfl) st

/-- One position below a commit that is found, the revision can be spelled: the history does not go
on for so long that it could not. -/
lemma Carries.spelled_pred (hs : h.Carries s) {j : Int} (hfound : h.commitAt s j ≠ none) :
    Spelled (j - 1) := by
  rintro depth hdepth
  cases j with
  | ofNat i =>
    obtain rfl : depth = 0 := by
      simp only [Int.ofNat_eq_natCast] at hdepth
      omega
    decide
  | negSucc k =>
    obtain rfl : depth = k + 1 := by omega
    exact hs.countable k hfound

end Services

end History

/-! ## Revisions without a suffix -/

/-- The revision is the locator without a suffix: as a patch, as what may be a revision of git as
well, or in the stack of a branch. -/
inductive Revision.Names (l : Locator) : Revision → Prop where
  /-- A patch that cannot be anything else. -/
  | patch : Names l (.patch ⟨l, []⟩)
  /-- A patch that may be a revision of git. -/
  | patchOrGit (whole : Text) : Names l (.patchOrGit ⟨l, []⟩ whole)
  /-- A patch in the stack of a branch. -/
  | onBranch (branch : Text) : Names l (.onBranch branch ⟨l, []⟩)

/-- The stack that a revision is resolved against. -/
def Revision.stack {σ : Type} (v : Services σ) (current : Option Stack) : Revision → Run σ Stack
  | .onBranch branch _ => v.stackOf (some branch)
  | _ => currentStack v current

/-- A revision without a suffix is resolved as the locator, in the stack that is found for it and
from the state in which the stack is found. Git is not asked after a look-up that failed.

**Proof sketch.** One case for each kind of revision. Where git might be asked as well, it is not,
because a failed look-up is final. -/
lemma Revision.Names.run_resolveRevision {σ : Type} {v : Services σ} {l : Locator} {s : Stack}
    {r : Revision} (hr : r.Names l) {current : Option Stack} {st st' : σ}
    (hstack : (r.stack v current).run.run st = (.ok s, st'))
    (hfinal : ∀ e st'', (resolvePatchLike v ⟨l, []⟩ s).run.run st' = (.error e, st'') →
      e.isLookup = true) :
    (resolveRevision v r current).run.run st = (resolvePatchLike v ⟨l, []⟩ s).run.run st' := by
  cases hr with
  | patch =>
    rw [resolveRevision, Run.run_bind, show (currentStack v current).run.run st = _ from hstack]
  | onBranch branch =>
    rw [resolveRevision, Run.run_bind, show (v.stackOf (some branch)).run.run st = _ from hstack]
  | patchOrGit whole => exact run_resolvePatchOrGit_of_final hstack hfinal

/-- The text is read as the locator without a suffix, by itself and behind every branch. -/
structure Revision.Spells (t : Text) (l : Locator) : Prop where
  /-- The text by itself. -/
  unqualified : ∃ r, RevisionSpec.ofText t = .ok (.single r) ∧ r.Names l
  /-- The text behind a branch. -/
  qualified : ∀ branch, isBranchName branch = true →
    ∃ r, RevisionSpec.ofText (branch ++ ':' :: t) = .ok (.single r) ∧ r.Names l

/-- A text that is read as a locator leaves nothing for a suffix as a revision. -/
lemma Revision.Spells.of_locator {t : Text} {l : Locator} (h : Locator.ofText t = .ok l) :
    Revision.Spells t l where
  unqualified := by
    rcases Revision.ofUnqualified_of_locator h with hr | hr
    · exact ⟨_, RevisionSpec.ofText_of_locator h hr, .patchOrGit t⟩
    · exact ⟨_, RevisionSpec.ofText_of_locator h hr, .patch⟩
  qualified branch hb := ⟨_, RevisionSpec.ofText_of_locator_on hb h, .onBranch branch⟩

/-- The offset to the patch below. -/
def OffsetChain.tilde : OffsetChain := ⟨['~'], .cons .down [] [] (by simp) .nil⟩

/-- A tilde leads one position further down. -/
lemma Locator.position_tilde {l : Locator} {s : Stack} {j : Int}
    (h : l.position .ancestors s = .ok j) :
    (l.moved .tilde).position .ancestors s = .ok (j - 1) := by
  have hlt := (Floor.admits_iff.1 (Locator.admits_of_position h)).1
  have hsteps : OffsetChain.tilde.steps = [⟨.down, []⟩] := rfl
  have hread : OffsetStep.read ⟨.down, []⟩ = .ok ⟨.down, none⟩ := rfl
  have hadm : Floor.ancestors.admits s.total (j + -1) = true :=
    Floor.admits_iff.2 ⟨by omega, .inl rfl⟩
  rw [Locator.position_moved h, hsteps, walk_cons hread]
  exact if_pos hadm

namespace History

variable {h : History} {σ : Type} {v : Services σ} {s : Stack} {l : Locator} {j : Int}

/-- A revision without a suffix resolves as what is at its position.

**Proof sketch.** The position is that of a patch or an ancestor, and what may fail is the look-up
of its commit or the writing of its depth. Neither lets git be asked for the whole text. -/
theorem run_resolveRevision_of_names (hv : h.Serves v) (hs : h.Carries s)
    (hp : l.position .ancestors s = .ok j) (hj : j < s.applied.length) {r : Revision}
    (hr : r.Names l) {current : Option Stack} {st st' : σ}
    (hstack : (r.stack v current).run.run st = (.ok s, st')) :
    (resolveRevision v r current).run.run st = (revisionAt v s j).run.run st' := by
  rw [← resolvePatchLike_of_position hp]
  refine Revision.Names.run_resolveRevision hr hstack fun e st'' he => ?_
  -- What may fail is the look-up of a commit, so that git is not asked for the whole text.
  rw [resolvePatchLike_of_position hp] at he
  by_cases hspelled : Spelled j
  · have hfinds := findsCommit_of_revisionAt hv hs hj hspelled st'
    rw [he] at hfinds
    exact hfinds.isLookup
  · rw [revisionAt_of_not_spelled hspelled] at he
    cases he
    rfl

/-- **A tilde behind a locator leads to the first parent**, within the applied patches and below
them. If the locator as a revision, by itself or in the stack of a branch, resolves to a commit,
then the locator with one more tilde resolves to the first parent of that commit, and is unknown
exactly if the commit has none. The tilde can be written behind the text of the locator.

**Proof sketch.** A tilde is one more step of the offsets, whatever the anchor is read as, so that
the position is one less. The patch there has the first parent recorded for it; the base is that
of the bottommost patch; and one more generation below the base is what one position less asks
for. -/
theorem tilde_leads_to_parent (hv : h.Serves v) (hs : h.Carries s)
    (hp : l.position .ancestors s = .ok j) (hj : j < s.applied.length) :
    (∀ r r' current current' st st₁ st₂ st' st₁' found, r.Names l → r'.Names (l.moved .tilde) →
      (r.stack v current).run.run st = (.ok s, st₁) →
      (resolveRevision v r current).run.run st = (.ok found, st₂) →
      (r'.stack v current').run.run st' = (.ok s, st₁') →
        FindsCommit (h.parent found.commit.id) ((resolveRevision v r' current').run.run st').1) ∧
    ∀ t, Locator.ofText t = .ok l →
      Revision.Spells t l ∧ Revision.Spells (t ++ ['~']) (l.moved .tilde) := by
  constructor
  · intro r r' current current' st st₁ st₂ st' st₁' found hr hr' hstack hfound hstack'
    have hp' := Locator.position_tilde hp
    have hj' : j - 1 < s.applied.length := by omega
    rw [run_resolveRevision_of_names hv hs hp hj hr hstack] at hfound
    rw [run_resolveRevision_of_names hv hs hp' hj' hr' hstack']
    have hspelled : Spelled j := by
      by_contra hlong
      rw [revisionAt_of_not_spelled hlong] at hfound
      cases hfound
    have hat := findsCommit_of_revisionAt hv hs hj hspelled st₁
    rw [hfound] at hat
    have hbelow := findsCommit_of_revisionAt hv hs hj'
      (hs.spelled_pred (by rw [hat.eq_some]; nofun)) st₁'
    rw [commitAt_pred hs hj, hat.eq_some] at hbelow
    exact hbelow
  · intro t ht
    exact ⟨.of_locator ht, .of_locator (Locator.ofText_append (o := .tilde) ht rfl)⟩

/-! ## A short history -/

section ThreeCommits

/-- A history of three commits in a line, the last one with the id `c`. -/
def threeCommits : History where
  IsCommit id := id ∈ [['a'], ['b'], ['c']]
  parent id := if id = ['c'] then some ['b'] else if id = ['b'] then some ['a'] else none
  ne_nil := by
    rintro id hid rfl
    simp at hid

/-- A stack with one patch applied on the second of the three commits. -/
def onePatchStack : Stack :=
  ⟨⟨[ordinary], [], [], ['b'], ['c'], [(ordinary, ['c'])]⟩, by decide, by decide⟩

/-- Services that know the three commits and their ancestors. -/
def threeCommitServices : Services Unit where
  stackOf _ := pure onePatchStack
  lookup revision :=
    match revision.cut? '~' with
    | none =>
      if revision ∈ [['a'], ['b'], ['c']] then pure ⟨revision, [], 0⟩
      else throw (.unknownCommit revision)
    | some (id, depth) =>
      match threeCommits.ancestor id (Text.digitsValue depth) with
      | some a => pure ⟨a, [], 0⟩
      | none => throw (.unknownCommit revision)
  applySuffix _ suffix := throw (.unknownCommit suffix)

/-- There is only one generation below the base. -/
lemma ancestor_threeCommits (depth : Nat) : threeCommits.ancestor ['b'] (depth + 2) = none := by
  induction depth with
  | zero => rfl
  | succ depth ih => rw [ancestor, ih, Option.bind_none]

/-- The stack with one patch lies in the history of three commits. -/
lemma threeCommits_carries : threeCommits.Carries onePatchStack where
  isCommit_base := by simp [threeCommits, onePatchStack]
  countable
    | 0, _ => by decide
    | 1, _ => by decide
    | depth + 2, hdepth => absurd (ancestor_threeCommits depth) hdepth
  bottom := by
    intro n hn
    obtain rfl : ordinary = n := Option.some.inj hn
    exact ⟨['c'], by simp [threeCommits], rfl, rfl⟩
  above := by
    intro i n n' _ hn'
    simp [onePatchStack] at hn'

/-- The services know the commits of the history.

**Proof sketch.** The commits of the history are three, so that each of them is looked up by itself.
An ancestor is asked for with its depth behind a tilde, where the text is cut and the depth is read.
-/
lemma threeCommits_serves : threeCommits.Serves threeCommitServices := by
  have hcut (id : Text) (hid : threeCommits.IsCommit id) (depth : Nat) :
      (id ++ '~' :: Text.ofInt depth).cut? '~' = some (id, Text.ofInt depth) := by
    refine Text.cut?_eq_some_iff.2 ⟨?_, rfl⟩
    simp only [threeCommits, List.mem_cons, List.not_mem_nil, or_false] at hid
    rcases hid with rfl | rfl | rfl <;> decide
  have hvalue (depth : Nat) : Text.digitsValue (Text.ofInt depth) = depth :=
    Nat.ofDigitChars_ten_toDigits
  constructor
  · intro id hid st
    refine ⟨⟨id, [], 0⟩, st, ?_, rfl⟩
    simp only [threeCommits, List.mem_cons, List.not_mem_nil, or_false] at hid
    rcases hid with rfl | rfl | rfl <;> rfl
  · intro id hid depth a ha st
    refine ⟨⟨a, [], 0⟩, st, ?_, rfl⟩
    simp only [threeCommitServices]
    rw [hcut id hid]
    dsimp only
    rw [hvalue, ha]
    rfl
  · intro id hid depth ha st
    refine ⟨st, ?_⟩
    simp only [threeCommitServices]
    rw [hcut id hid]
    dsimp only
    rw [hvalue, ha]
    rfl

/-- The topmost applied patch. -/
def atTop : Locator := ⟨.top, .empty⟩

/-- Two positions below the topmost applied patch. -/
def twoBelowTop : Locator := ⟨.top, ⟨['~', '~'], by decide⟩⟩

/-- A tilde leads from the patch to the base, and from the root to no commit. -/
theorem tilde_leads_to_parent_threeCommits :
    threeCommits.Serves threeCommitServices ∧ threeCommits.Carries onePatchStack ∧
      atTop.position .ancestors onePatchStack = .ok 0 ∧
      FindsCommit (some ['b']) ((resolveRevision threeCommitServices
        (.patch ⟨atTop.moved .tilde, []⟩) none).run.run ()).1 ∧
      twoBelowTop.position .ancestors onePatchStack = .ok (-2) ∧
      FindsCommit none ((resolveRevision threeCommitServices
        (.patch ⟨twoBelowTop.moved .tilde, []⟩) none).run.run ()).1 := by
  have hv := threeCommits_serves
  have hs := threeCommits_carries
  have htop : atTop.position .ancestors onePatchStack = .ok 0 := rfl
  have hroot : twoBelowTop.position .ancestors onePatchStack = .ok (-2) := rfl
  refine ⟨hv, hs, htop, ?_, hroot, ?_⟩
  · exact (tilde_leads_to_parent hv hs htop (by decide)).1 (.patch ⟨atTop, []⟩) _ none none () ()
      () () () ⟨some ordinary, ⟨['c'], [], 0⟩⟩ .patch .patch rfl rfl rfl
  · exact (tilde_leads_to_parent hv hs hroot (by decide)).1 (.patch ⟨twoBelowTop, []⟩) _ none none
      () () () () () ⟨none, ⟨['a'], [], 0⟩⟩ .patch .patch rfl rfl rfl

end ThreeCommits

end History

end PatchStack
