import PatchStack.Proofs.Separators

set_option autoImplicit false

/-!
# What texts are read as

A range is a locator or bounds, and a revision may be both of them and more: with a branch in
front, with a suffix behind, or nothing but a revision of git. This file says which texts are read
as what, one statement for each form, so that nothing else has to follow the order in which the
forms are tried.

## Main results

* `PatchStack.Bounds.ofText_eq_ok_iff`, `PatchStack.Range.ofText_eq_between_iff`,
  `PatchStack.Range.ofText_eq_single_iff` — ranges.
* `PatchStack.Revision.ofText_eq_ok_iff`, `PatchStack.RevisionSpec.ofText_eq_single_iff` — single
  revisions, alone and where a range could stand.
* `PatchStack.RevisionSpec.ofText_of_undotted`, `PatchStack.RevisionSpec.ofText_of_dotted`,
  `PatchStack.RevisionSpec.ofText_of_dotted_on` — which way a revision is read.
* `PatchStack.RevisionSpec.ofText_of_locator`, `PatchStack.RevisionSpec.ofText_of_bounds` — what
  is a locator or a range by itself is one as a revision, with and without a branch.
-/

namespace PatchStack

/-! ## Ranges -/

section Ranges

variable {t : Text}

/-- No locator is empty. -/
lemma ne_nil_of_ofText {l : Locator} (h : Locator.ofText t = .ok l) : t ≠ [] := by
  rintro rfl
  cases h

/-- A range is cut at the first two dots, if there are no others behind them.

**Proof sketch.** The cases are those of the definition. -/
lemma splitRange_eq_some_iff {before after : Text} :
    splitRange t = .ok (some (before, after)) ↔
      t.cutDots? = some (before, after) ∧ after.cutDots? = none := by
  unfold splitRange
  split
  · rename_i hcut
    simp [hcut]
  · rename_i x y hcut
    rw [hcut]
    split_ifs with h
    · have hne : y.cutDots? ≠ none := Option.isSome_iff_ne_none.1 h
      simp only [Option.some.injEq, Prod.mk.injEq, false_iff, not_and]
      rintro ⟨-, rfl⟩
      exact hne
    · have hnone : y.cutDots? = none := Option.not_isSome_iff_eq_none.1 h
      simp only [Except.ok.injEq, Option.some.injEq, Prod.mk.injEq, iff_self_and]
      rintro ⟨-, rfl⟩
      exact hnone

/-- No range is found exactly where there are no two dots. -/
lemma splitRange_eq_none_iff : splitRange t = .ok none ↔ t.cutDots? = none := by
  unfold splitRange
  split
  · rename_i hcut
    simp [hcut]
  · rename_i hcut
    rw [hcut]
    split_ifs <;> simp

/-- A bound is missing, or it is read as a locator. -/
lemma readBound_eq_ok_iff {whole : Text} {l : Option Locator} :
    readBound whole t = .ok l ↔
      (t = [] ∧ l = none) ∨ ∃ l', Locator.ofText t = .ok l' ∧ l = some l' := by
  unfold readBound
  by_cases hnil : t = []
  · subst hnil
    simp [Locator.ofText, eq_comm]
  · rw [if_neg hnil]
    cases Locator.ofText t with
    | ok l' => simp [hnil, eq_comm]
    | error fault => cases fault <;> simp [hnil]

/-- Bounds are what is read on both sides of the only two dots.

**Proof sketch.** The computation is a chain of three steps. -/
theorem Bounds.ofText_eq_ok_iff {b : Bounds} :
    Bounds.ofText t = .ok b ↔
      ∃ before after, splitRange t = .ok (some (before, after)) ∧
        readBound t before = .ok b.start ∧ readBound t after = .ok b.stop := by
  constructor
  · intro h
    obtain ⟨cut, hcut, h⟩ := bind_eq_ok_iff.1 h
    cases cut with
    | none => cases h
    | some p =>
      obtain ⟨start, hstart, h⟩ := bind_eq_ok_iff.1 h
      obtain ⟨stop, hstop, h⟩ := bind_eq_ok_iff.1 h
      cases h
      exact ⟨p.1, p.2, hcut, hstart, hstop⟩
  · rintro ⟨before, after, hcut, hstart, hstop⟩
    simp [Bounds.ofText, hcut, hstart, hstop, bind, Except.bind, pure, Except.pure]

/-- A bound has no colon. -/
lemma not_colon_mem_of_readBound {whole : Text} {l : Option Locator}
    (h : readBound whole t = .ok l) : ':' ∉ t := by
  rcases readBound_eq_ok_iff.1 h with ⟨rfl, -⟩ | ⟨l', hl, -⟩
  · simp
  · exact (undivided_of_ofText hl).no_colon

/-- Bounds have no colon. -/
lemma Bounds.not_colon_mem {b : Bounds} (h : Bounds.ofText t = .ok b) : ':' ∉ t := by
  obtain ⟨before, after, hrange, hstart, hstop⟩ := Bounds.ofText_eq_ok_iff.1 h
  rw [Text.eq_of_cutDots? (splitRange_eq_some_iff.1 hrange).1]
  simp [not_colon_mem_of_readBound hstart, not_colon_mem_of_readBound hstop]

/-- Bounds are cut at two dots. -/
lemma Bounds.isSome_cutDots? {b : Bounds} (h : Bounds.ofText t = .ok b) :
    t.cutDots?.isSome = true := by
  obtain ⟨before, after, hrange, -, -⟩ := Bounds.ofText_eq_ok_iff.1 h
  rw [(splitRange_eq_some_iff.1 hrange).1]
  rfl

/-- What is read as a range with two bounds is what is read as bounds.

**Proof sketch.** Bounds have two dots, and with two dots nothing else is read. -/
theorem Range.ofText_eq_between_iff {b : Bounds} :
    Range.ofText t = .ok (.between b) ↔ Bounds.ofText t = .ok b := by
  constructor
  · intro h
    unfold Range.ofText at h
    split_ifs at h with hnil hcut
    · cases hb : Bounds.ofText t with
      | error e => rw [hb] at h; cases h
      | ok b' => rw [hb] at h; cases h; rfl
    · cases hl : Locator.ofText t with
      | error e => rw [hl] at h; cases h
      | ok l => rw [hl] at h; cases h
  · intro h
    have hcut := Bounds.isSome_cutDots? h
    have hne : t ≠ [] := by rintro rfl; cases hcut
    rw [Range.ofText, if_neg hne, if_pos hcut, h]
    rfl

/-- What is read as a range of a single locator is what is read as a locator.

**Proof sketch.** A locator has no two dots (`undivided_of_ofText`), and without them nothing else
is read. -/
theorem Range.ofText_eq_single_iff {l : Locator} :
    Range.ofText t = .ok (.single l) ↔ Locator.ofText t = .ok l := by
  constructor
  · intro h
    unfold Range.ofText at h
    split_ifs at h with hnil hcut
    · cases hb : Bounds.ofText t with
      | error e => rw [hb] at h; cases h
      | ok b => rw [hb] at h; cases h
    · cases hl : Locator.ofText t with
      | error e => rw [hl] at h; cases h
      | ok l' => rw [hl] at h; cases h; rfl
  · intro h
    have hcut := Text.cutDots?_eq_none_iff.2 (undivided_of_ofText h).no_dots
    rw [Range.ofText, if_neg (ne_nil_of_ofText h), hcut, h]
    rfl

end Ranges

/-! ## Revisions -/

section Revisions

variable {t branch rest : Text}

/-- Single revisions: a locator with a suffix behind a branch, or a text without a branch.

**Proof sketch.** The tests are made in their order: for nothing, for two dots, and for a branch. -/
theorem Revision.ofText_eq_ok_iff {r : Revision} :
    Revision.ofText t = .ok r ↔
      t ≠ [] ∧ t.cutDots? = none ∧
        ((∃ branch rest p, splitBranch? t = some (branch, rest) ∧
            PatchLike.ofText? rest = .ok (some p) ∧ r = .onBranch branch p) ∨
          (splitBranch? t = none ∧ Revision.ofUnqualified t = .ok r)) := by
  unfold Revision.ofText
  by_cases hnil : t = []
  · simp [hnil]
  rw [if_neg hnil]
  cases hcut : t.cutDots? with
  | some p => simp
  | none =>
    cases hbranch : splitBranch? t with
    | none => simp [hnil, mapError_eq_ok_iff]
    | some p =>
      obtain ⟨branch, rest⟩ := p
      rcases hp : PatchLike.ofText? rest with fault | (_ | p) <;> simp [hnil, hp, eq_comm]

/-- Behind a branch there are two dots only if there are in the whole text. -/
lemma cutDots?_of_splitBranch? (h : splitBranch? t = some (branch, rest)) :
    t.cutDots? = none ↔ rest.cutDots? = none := by
  obtain ⟨hb, rfl⟩ := eq_of_splitBranch? h
  rw [Text.cutDots?_eq_none_iff, Text.cutDots?_eq_none_iff]
  constructor
  · intro hd h'
    exact hd (h'.trans (((List.suffix_cons ':' rest).trans (List.suffix_append _ _)).isInfix))
  · exact fun hd => no_dots_append_cons (undivided_of_isBranchName hb).no_dots hd (by decide)

/-- A text without two dots is read as where no range is expected. -/
theorem RevisionSpec.ofText_of_undotted (h : t.cutDots? = none) :
    RevisionSpec.ofText t = (Revision.ofText t).map .single := by
  have hplain : RevisionSpec.ofPlain t = (Revision.ofText t).map .single := by
    simp [RevisionSpec.ofPlain, h]
  rcases eq_or_ne t [] with rfl | hne
  · rfl
  cases hbranch : splitBranch? t with
  | none => simp [RevisionSpec.ofText, hne, hbranch, hplain]
  | some p =>
    have hrest := splitRange_eq_none_iff.2 ((cutDots?_of_splitBranch? hbranch).1 h)
    simp [RevisionSpec.ofText, hne, hbranch, hrest, hplain, bind, Except.bind]

/-- A text with two dots and without a branch is read as bounds. -/
theorem RevisionSpec.ofText_of_dotted (h : t.cutDots?.isSome = true) (hb : splitBranch? t = none) :
    RevisionSpec.ofText t = (Bounds.ofText t).map .range := by
  have hne : t ≠ [] := by rintro rfl; cases h
  simp [RevisionSpec.ofText, RevisionSpec.ofPlain, hne, hb, h]

/-- A text with two dots and a branch is read as bounds behind the branch.

**Proof sketch.** The dots are behind the branch, so that the text behind it is cut there as well.
-/
theorem RevisionSpec.ofText_of_dotted_on (h : t.cutDots?.isSome = true)
    (hb : splitBranch? t = some (branch, rest)) :
    RevisionSpec.ofText t = (Bounds.ofText rest).map (.branchRange branch) := by
  have hne : t ≠ [] := by rintro rfl; cases h
  have hdots : rest.cutDots? ≠ none := by
    rw [ne_eq, ← cutDots?_of_splitBranch? hb]
    exact Option.isSome_iff_ne_none.1 h
  cases hrange : splitRange rest with
  | error e =>
    simp [RevisionSpec.ofText, Bounds.ofText, hne, hb, hrange, bind, Except.bind, Except.map]
  | ok cut =>
    cases cut with
    | none => exact absurd (splitRange_eq_none_iff.1 hrange) hdots
    | some p =>
      simp only [RevisionSpec.ofText, hne, hb, hrange, if_false, bind, Except.bind]
      cases Bounds.ofText rest <;> rfl

/-- The three things that a text can be read as: a single revision, a range in the current stack
and a range in the stack of a branch.

**Proof sketch.** The text has two dots or not, and a branch or not, and for each of these ways to
read it there is an equation. -/
theorem RevisionSpec.ofText_cases {spec : RevisionSpec} (h : RevisionSpec.ofText t = .ok spec) :
    (∃ r, Revision.ofText t = .ok r ∧ spec = .single r) ∨
    (∃ b, Bounds.ofText t = .ok b ∧ spec = .range b) ∨
    (∃ branch rest b, isBranchName branch = true ∧ t = branch ++ ':' :: rest ∧
      Bounds.ofText rest = .ok b ∧ spec = .branchRange branch b) := by
  cases hcut : t.cutDots? with
  | none =>
    rw [RevisionSpec.ofText_of_undotted hcut] at h
    cases hr : Revision.ofText t with
    | error e => rw [hr] at h; cases h
    | ok r => rw [hr] at h; cases h; exact .inl ⟨r, rfl, rfl⟩
  | some p =>
    have hdots : t.cutDots?.isSome = true := by rw [hcut]; rfl
    cases hbranch : splitBranch? t with
    | none =>
      rw [RevisionSpec.ofText_of_dotted hdots hbranch] at h
      cases hb : Bounds.ofText t with
      | error e => rw [hb] at h; cases h
      | ok b => rw [hb] at h; cases h; exact .inr (.inl ⟨b, rfl, rfl⟩)
    | some q =>
      obtain ⟨branch, rest⟩ := q
      rw [RevisionSpec.ofText_of_dotted_on hdots hbranch] at h
      obtain ⟨hname, ht⟩ := eq_of_splitBranch? hbranch
      cases hb : Bounds.ofText rest with
      | error e => rw [hb] at h; cases h
      | ok b => rw [hb] at h; cases h; exact .inr (.inr ⟨branch, rest, b, hname, ht, hb, rfl⟩)

/-- What is read as a single revision where a range could stand is what is read as one alone. -/
theorem RevisionSpec.ofText_eq_single_iff {r : Revision} :
    RevisionSpec.ofText t = .ok (.single r) ↔ Revision.ofText t = .ok r := by
  constructor
  · intro h
    rcases RevisionSpec.ofText_cases h with ⟨r', hr, heq⟩ | ⟨b, -, heq⟩ | ⟨_, _, b, -, -, -, heq⟩
    · cases heq; exact hr
    · cases heq
    · cases heq
  · intro h
    rw [RevisionSpec.ofText_of_undotted (Revision.ofText_eq_ok_iff.1 h).2.1, h]
    rfl

end Revisions

/-! ## Locators and ranges as revisions -/

section Embedding

variable {t branch : Text} {l : Locator} {b : Bounds}

/-- What is read as a locator leaves nothing for a suffix. -/
theorem PatchLike.ofText?_of_locator (h : Locator.ofText t = .ok l) :
    PatchLike.ofText? t = .ok (some ⟨l, []⟩) := by
  obtain ⟨d, rfl, rfl, hd⟩ := exists_derivation_of_ofText h
  rw [PatchLike.ofText?, Derivation.scanLocator_text hd]
  simp

/-- What is read as a locator is a patch, which git may be asked for only if it begins with a
name. -/
theorem Revision.ofUnqualified_of_locator (h : Locator.ofText t = .ok l) :
    Revision.ofUnqualified t = .ok (.patchOrGit ⟨l, []⟩ t) ∨
      Revision.ofUnqualified t = .ok (.patch ⟨l, []⟩) := by
  rw [Revision.ofUnqualified, PatchLike.ofText?_of_locator h]
  simp only [bind, Except.bind]
  split
  · exact .inl rfl
  · exact .inr rfl

/-- A locator by itself is a revision without a branch. -/
theorem RevisionSpec.ofText_of_locator {r : Revision} (h : Locator.ofText t = .ok l)
    (hr : Revision.ofUnqualified t = .ok r) : RevisionSpec.ofText t = .ok (.single r) := by
  have hu := undivided_of_ofText h
  exact RevisionSpec.ofText_eq_single_iff.2 (Revision.ofText_eq_ok_iff.2
    ⟨ne_nil_of_ofText h, Text.cutDots?_eq_none_iff.2 hu.no_dots,
      .inr ⟨splitBranch?_eq_none hu.no_colon, hr⟩⟩)

/-- A locator with a suffix, behind a branch, is a revision in the stack of the branch. -/
theorem RevisionSpec.ofText_of_patchLike_on {p : PatchLike} (hb : isBranchName branch = true)
    (hp : PatchLike.ofText? t = .ok (some p)) (hcut : t.cutDots? = none) :
    RevisionSpec.ofText (branch ++ ':' :: t) = .ok (.single (.onBranch branch p)) := by
  have hbranch := splitBranch?_append hb t
  exact RevisionSpec.ofText_eq_single_iff.2 (Revision.ofText_eq_ok_iff.2
    ⟨by simp, (cutDots?_of_splitBranch? hbranch).2 hcut, .inl ⟨branch, t, p, hbranch, hp, rfl⟩⟩)

/-- A locator behind a branch is a revision in the stack of the branch. -/
theorem RevisionSpec.ofText_of_locator_on (hb : isBranchName branch = true)
    (h : Locator.ofText t = .ok l) :
    RevisionSpec.ofText (branch ++ ':' :: t) = .ok (.single (.onBranch branch ⟨l, []⟩)) :=
  RevisionSpec.ofText_of_patchLike_on hb (PatchLike.ofText?_of_locator h)
    (Text.cutDots?_eq_none_iff.2 (undivided_of_ofText h).no_dots)

/-- Bounds by themselves are a range in the current stack. -/
theorem RevisionSpec.ofText_of_bounds (h : Range.ofText t = .ok (.between b)) :
    RevisionSpec.ofText t = .ok (.range b) := by
  have hb := Range.ofText_eq_between_iff.1 h
  rw [RevisionSpec.ofText_of_dotted (Bounds.isSome_cutDots? hb)
    (splitBranch?_eq_none (Bounds.not_colon_mem hb)), hb]
  rfl

/-- Bounds behind a branch are a range in the stack of the branch. -/
theorem RevisionSpec.ofText_of_bounds_on (hb : isBranchName branch = true)
    (h : Range.ofText t = .ok (.between b)) :
    RevisionSpec.ofText (branch ++ ':' :: t) = .ok (.branchRange branch b) := by
  have hbounds := Range.ofText_eq_between_iff.1 h
  have hbranch := splitBranch?_append hb t
  have hdots : (branch ++ ':' :: t).cutDots?.isSome = true := by
    rw [Option.isSome_iff_ne_none, ne_eq, cutDots?_of_splitBranch? hbranch, ← ne_eq,
      ← Option.isSome_iff_ne_none]
    exact Bounds.isSome_cutDots? hbounds
  rw [RevisionSpec.ofText_of_dotted_on hdots hbranch, hbounds]
  rfl

end Embedding

end PatchStack
