import PatchStack.Proofs.RangeGrammar

set_option autoImplicit false

/-!
# The grammar of revisions

Whether a revision has a branch and whether it has two dots next to each other are two questions,
and what a text is read as depends on both answers. They do not get into each other's way: a branch
has no two dots, and so those of a text with a branch are behind it. With two dots it is a matter of
ranges, and without them of locators with suffixes. Only where there is neither a branch nor two
dots does nothing have to be understood, because git may understand it. A number of too many digits
breaks the reading down in each of these cases.

## Main definitions

* `PatchStack.Qualifies` — a branch, a colon and what stands behind it.
* `PatchStack.RevisionSpec.ReadsAs` — what a text is read as.
* `PatchStack.RevisionSpec.IsRefused`, `PatchStack.RevisionSpec.BreaksDown` — the texts that are not
  read.

## Main results

* `PatchStack.Qualifies.dots_iff` — the two dots of a text with a branch are behind the branch.
* `PatchStack.RevisionSpec.outcome_cases` — every text is read, refused or breaks the reading down.
* `PatchStack.RevisionSpec.ofText_classified` — what each text comes to.
-/

namespace PatchStack

/-! ## Texts with and without a branch -/

section Branches

variable {t branch rest branch' rest' : Text}

/-- The text before the first colon of `t` is a branch, and `rest` is what follows the colon. -/
structure Qualifies (t branch rest : Text) : Prop where
  /-- There is a colon between the two. -/
  eq : t = branch ++ ':' :: rest
  /-- It is the first one. -/
  no_colon : ':' ∉ branch
  /-- What stands before it can be a branch. -/
  name : isBranchName branch = true

/-- The text has no colon, or what stands before the first one is not a branch. -/
def Unqualified (t : Text) : Prop := ∀ branch rest, ¬ Qualifies t branch rest

/-- The branch that is split off is that of the rules. -/
lemma splitBranch?_eq_some_iff :
    splitBranch? t = some (branch, rest) ↔ Qualifies t branch rest := by
  constructor
  · intro h
    obtain ⟨hname, ht⟩ := eq_of_splitBranch? h
    exact ⟨ht, (undivided_of_isBranchName hname).no_colon, hname⟩
  · rintro ⟨rfl, -, hname⟩
    exact splitBranch?_append hname rest

/-- No branch is split off exactly if the rules have none. -/
lemma splitBranch?_eq_none_iff : splitBranch? t = none ↔ Unqualified t := by
  rw [Option.eq_none_iff_forall_ne_some, Prod.forall]
  exact forall₂_congr fun branch rest => not_congr splitBranch?_eq_some_iff

/-- A text has one branch at most. -/
lemma Qualifies.unique (h : Qualifies t branch rest) (h' : Qualifies t branch' rest') :
    branch = branch' ∧ rest = rest' := by
  rw [← splitBranch?_eq_some_iff] at h h'
  exact Prod.mk.inj (Option.some.inj (h.symm.trans h'))

/-- There are two dots next to each other in a text with a branch exactly if they are behind the
branch. -/
theorem Qualifies.dots_iff (h : Qualifies t branch rest) :
    rangeSeparator <:+: t ↔ rangeSeparator <:+: rest := by
  have hcut := cutDots?_of_splitBranch? (splitBranch?_eq_some_iff.2 h)
  rw [Text.cutDots?_eq_none_iff, Text.cutDots?_eq_none_iff] at hcut
  exact not_iff_not.1 hcut

end Branches

/-! ## The four ways to read a text -/

section Ways

variable {t branch rest : Text}

/-- Dots are found exactly if two of them are next to each other. -/
lemma isSome_cutDots?_iff : t.cutDots?.isSome = true ↔ rangeSeparator <:+: t := by
  rw [Option.isSome_iff_ne_none, ne_eq, Text.cutDots?_eq_none_iff, not_not]
  rfl

/-- With a branch and two dots, what stands behind the branch is read as bounds. -/
lemma Qualifies.ofText_of_dots (h : Qualifies t branch rest) (hdots : rangeSeparator <:+: rest) :
    RevisionSpec.ofText t = (Bounds.ofText rest).map (.branchRange branch) :=
  RevisionSpec.ofText_of_dotted_on (isSome_cutDots?_iff.2 (h.dots_iff.2 hdots))
    (splitBranch?_eq_some_iff.2 h)

/-- With a branch only, what stands behind it is read as a locator with a suffix.

**Proof sketch.** The text has two dots next to each other only if what stands behind the branch
has. So it is no range, and the split at the colon is the only one. -/
lemma Qualifies.ofText_of_no_dots (h : Qualifies t branch rest)
    (hdots : ¬ rangeSeparator <:+: rest) :
    RevisionSpec.ofText t =
      match PatchLike.ofText? rest with
      | .ok (some p) => .ok (.single (.onBranch branch p))
      | .ok none => .error (.malformed ⟨revisionKind, t, .noLocatorAfter branch⟩)
      | .error fault => .error (.numeral fault) := by
  have hcut : t.cutDots? = none := Text.cutDots?_eq_none_iff.2 (mt h.dots_iff.1 hdots)
  have hne : t ≠ [] := by
    rw [h.eq]
    simp
  have hbranch := splitBranch?_eq_some_iff.2 h
  rw [RevisionSpec.ofText_of_undotted hcut]
  rcases hp : PatchLike.ofText? rest with fault | (_ | p) <;>
    simp [Revision.ofText, hne, hcut, hbranch, hp, Except.map]

/-- With two dots only, the whole text is read as bounds. -/
lemma Unqualified.ofText_of_dots (h : Unqualified t) (hdots : rangeSeparator <:+: t) :
    RevisionSpec.ofText t = (Bounds.ofText t).map .range :=
  RevisionSpec.ofText_of_dotted (isSome_cutDots?_iff.2 hdots) (splitBranch?_eq_none_iff.2 h)

/-- With neither of them, a text is read as a revision of some kind. -/
lemma Unqualified.ofText_of_no_dots (h : Unqualified t) (hdots : ¬ rangeSeparator <:+: t)
    (hne : t ≠ []) :
    RevisionSpec.ofText t = ((Revision.ofUnqualified t).mapError .numeral).map .single := by
  have hcut : t.cutDots? = none := Text.cutDots?_eq_none_iff.2 hdots
  rw [RevisionSpec.ofText_of_undotted hcut, Revision.ofText, if_neg hne, hcut,
    splitBranch?_eq_none_iff.2 h]
  rfl

end Ways

/-! ## What is read and what is refused -/

section Parts

variable {t : Text}

/-- There is something in front of which a suffix could stand. -/
lemma PatchLike.ne_nil_of_ofText? {p : PatchLike} (h : PatchLike.ofText? t = .ok (some p)) :
    t ≠ [] := by
  rintro rfl
  cases h

/-- What is read as bounds has two dots next to each other. -/
lemma Range.dots_of_ofText {b : Bounds} (h : Range.ofText t = .ok (.between b)) :
    rangeSeparator <:+: t :=
  isSome_cutDots?_iff.1 (Bounds.isSome_cutDots? (Range.ofText_eq_between_iff.1 h))

/-- A text with two dots next to each other comes as a range to what it comes to as bounds. -/
lemma Range.ofText_of_dots (hdots : rangeSeparator <:+: t) :
    Range.ofText t = (Bounds.ofText t).map .between := by
  have hcut := isSome_cutDots?_iff.2 hdots
  have hne : t ≠ [] := by
    rintro rfl
    cases hcut
  rw [Range.ofText, if_neg hne, if_pos hcut]

/-- Where bounds are not read, there is no range, for the same reason. -/
lemma Range.ofText_eq_error_iff {f : ReadingFault SyntaxError} (hdots : rangeSeparator <:+: t) :
    Range.ofText t = .error f ↔ Bounds.ofText t = .error f := by
  rw [Range.ofText_of_dots hdots]
  cases Bounds.ofText t <;> simp [Except.map]

end Parts

namespace RevisionSpec

variable {t : Text} {spec : RevisionSpec}

/-- What a text is read as. -/
inductive ReadsAs (t : Text) : RevisionSpec → Prop where
  /-- A range behind a branch. -/
  | branchRange {branch rest : Text} {b : Bounds} (hq : Qualifies t branch rest)
      (hb : Range.ofText rest = .ok (.between b)) : ReadsAs t (.branchRange branch b)
  /-- A locator with a suffix behind a branch. -/
  | onBranch {branch rest : Text} {p : PatchLike} (hq : Qualifies t branch rest)
      (hdots : ¬ rangeSeparator <:+: rest) (hp : PatchLike.ofText? rest = .ok (some p)) :
      ReadsAs t (.single (.onBranch branch p))
  /-- A range without a branch. -/
  | range {b : Bounds} (hq : Unqualified t) (hb : Range.ofText t = .ok (.between b)) :
      ReadsAs t (.range b)
  /-- A text that only git may understand. -/
  | git (hne : t ≠ []) (hq : Unqualified t) (hdots : ¬ rangeSeparator <:+: t)
      (hp : PatchLike.ofText? t = .ok none) : ReadsAs t (.single (.git t))
  /-- A locator with a suffix that begins with a name, which git may understand too. -/
  | patchOrGit {p : PatchLike} (hq : Unqualified t) (hdots : ¬ rangeSeparator <:+: t)
      (hp : PatchLike.ofText? t = .ok (some p)) (hname : ∃ n, p.locator.anchor = .name n) :
      ReadsAs t (.single (.patchOrGit p t))
  /-- Any other locator with a suffix. -/
  | patch {p : PatchLike} (hq : Unqualified t) (hdots : ¬ rangeSeparator <:+: t)
      (hp : PatchLike.ofText? t = .ok (some p)) (hname : ∀ n, p.locator.anchor ≠ .name n) :
      ReadsAs t (.single (.patch p))

/-- The texts that are refused as malformed. -/
inductive IsRefused (t : Text) : Prop where
  /-- Nothing at all. -/
  | empty (h : t = [])
  /-- A branch, and behind it two dots but no range. -/
  | branchRange {branch rest : Text} (hq : Qualifies t branch rest)
      (hdots : rangeSeparator <:+: rest) (e : SyntaxError)
      (hr : Range.ofText rest = .error (.malformed e))
  /-- A branch, and behind it neither two dots nor a locator with a suffix. -/
  | onBranch {branch rest : Text} (hq : Qualifies t branch rest)
      (hdots : ¬ rangeSeparator <:+: rest) (hp : PatchLike.ofText? rest = .ok none)
  /-- No branch, and two dots but no range. -/
  | range (hq : Unqualified t) (hdots : rangeSeparator <:+: t) (e : SyntaxError)
      (hr : Range.ofText t = .error (.malformed e))

/-- The texts with a number of too many digits. -/
inductive BreaksDown (t : Text) (fault : NumeralFault) : Prop where
  /-- In the range behind a branch. -/
  | branchRange {branch rest : Text} (hq : Qualifies t branch rest)
      (hdots : rangeSeparator <:+: rest) (hr : Range.ofText rest = .error (.numeral fault))
  /-- In the locator behind a branch. -/
  | onBranch {branch rest : Text} (hq : Qualifies t branch rest)
      (hdots : ¬ rangeSeparator <:+: rest) (hp : PatchLike.ofText? rest = .error fault)
  /-- In a range without a branch. -/
  | range (hq : Unqualified t) (hdots : rangeSeparator <:+: t)
      (hr : Range.ofText t = .error (.numeral fault))
  /-- In a locator without a branch. -/
  | unqualified (hq : Unqualified t) (hdots : ¬ rangeSeparator <:+: t)
      (hp : PatchLike.ofText? t = .error fault)

/-! ## Every text -/

/-- A text without a branch and without two dots is left to git, unless it is a locator with a
suffix.

**Proof sketch.** What is no locator with a suffix is left to git, and the anchor of a locator tells
whether git may understand it too. -/
lemma readsAs_of_ofUnqualified {r : Revision} (hne : t ≠ []) (hq : Unqualified t)
    (hdots : ¬ rangeSeparator <:+: t) (h : Revision.ofUnqualified t = .ok r) :
    ReadsAs t (.single r) := by
  obtain ⟨found, hp, h⟩ := bind_eq_ok_iff.1 h
  cases found with
  | none =>
    cases h
    exact .git hne hq hdots hp
  | some p =>
    cases hname : p.locator.anchor with
    | name n =>
      simp only [hname] at h
      cases h
      exact .patchOrGit hq hdots hp ⟨n, hname⟩
    | _ =>
      simp only [hname] at h
      cases h
      exact .patch hq hdots hp (by simp [hname])

/-- Such a text breaks the reading down exactly if reading it as a locator does.

**Proof sketch.** Reading as a locator is all in it that can break down. -/
lemma ofUnqualified_eq_error_iff {fault : NumeralFault} :
    Revision.ofUnqualified t = .error fault ↔ PatchLike.ofText? t = .error fault := by
  constructor
  · intro h
    rcases bind_eq_error_iff.1 h with h | ⟨found, -, h⟩
    · exact h
    · cases found with
      | none => cases h
      | some p =>
        dsimp only at h
        split at h <;> cases h
  · intro h
    rw [Revision.ofUnqualified, h]
    rfl

/-- Every text is read, or it is refused, or it has a number of too many digits.

**Proof sketch.** The text is empty, or it has a branch or not, and two dots behind it or not. For
each of these four ways to read it there is an equation, whose right-hand side has the three
outcomes. -/
theorem outcome_cases (t : Text) :
    (∃ spec, RevisionSpec.ofText t = .ok spec ∧ ReadsAs t spec) ∨
    (∃ e, RevisionSpec.ofText t = .error (.malformed e)) ∧ IsRefused t ∨
    ∃ fault, RevisionSpec.ofText t = .error (.numeral fault) ∧ BreaksDown t fault := by
  by_cases hne : t = []
  · subst hne
    exact .inr (.inl ⟨⟨_, rfl⟩, .empty rfl⟩)
  by_cases hq : Unqualified t
  · by_cases hdots : rangeSeparator <:+: t
    · rw [hq.ofText_of_dots hdots]
      rcases hb : Bounds.ofText t with (e | fault) | b
      · exact .inr (.inl ⟨⟨e, rfl⟩, .range hq hdots e ((Range.ofText_eq_error_iff hdots).2 hb)⟩)
      · exact .inr (.inr ⟨fault, rfl, .range hq hdots ((Range.ofText_eq_error_iff hdots).2 hb)⟩)
      · exact .inl ⟨_, rfl, .range hq (Range.ofText_eq_between_iff.2 hb)⟩
    · rw [hq.ofText_of_no_dots hdots hne]
      cases hr : Revision.ofUnqualified t with
      | ok r => exact .inl ⟨_, rfl, readsAs_of_ofUnqualified hne hq hdots hr⟩
      | error fault =>
        exact .inr (.inr ⟨fault, rfl, .unqualified hq hdots (ofUnqualified_eq_error_iff.1 hr)⟩)
  · obtain ⟨branch, rest, hq⟩ : ∃ branch rest, Qualifies t branch rest := by
      simpa [Unqualified] using hq
    by_cases hdots : rangeSeparator <:+: rest
    · rw [hq.ofText_of_dots hdots]
      rcases hb : Bounds.ofText rest with (e | fault) | b
      · exact .inr (.inl ⟨⟨e, rfl⟩,
          .branchRange hq hdots e ((Range.ofText_eq_error_iff hdots).2 hb)⟩)
      · exact .inr (.inr ⟨fault, rfl,
          .branchRange hq hdots ((Range.ofText_eq_error_iff hdots).2 hb)⟩)
      · exact .inl ⟨_, rfl, .branchRange hq (Range.ofText_eq_between_iff.2 hb)⟩
    · rw [hq.ofText_of_no_dots hdots]
      rcases hp : PatchLike.ofText? rest with fault | (_ | p)
      · exact .inr (.inr ⟨fault, rfl, .onBranch hq hdots hp⟩)
      · exact .inr (.inl ⟨⟨_, rfl⟩, .onBranch hq hdots hp⟩)
      · exact .inl ⟨_, rfl, .onBranch hq hdots hp⟩

/-- A text is read as what the rules say.

**Proof sketch.** There is one case for each rule, and in each of them the equation for this way to
read the text applies. -/
theorem ReadsAs.ofText_eq_ok (h : ReadsAs t spec) : RevisionSpec.ofText t = .ok spec := by
  cases h with
  | branchRange hq hb =>
    have hbounds := Range.ofText_eq_between_iff.1 hb
    rw [hq.ofText_of_dots (Range.dots_of_ofText hb), hbounds]
    rfl
  | onBranch hq hdots hp => rw [hq.ofText_of_no_dots hdots, hp]
  | range hq hb =>
    have hbounds := Range.ofText_eq_between_iff.1 hb
    rw [hq.ofText_of_dots (Range.dots_of_ofText hb), hbounds]
    rfl
  | git hne hq hdots hp =>
    rw [hq.ofText_of_no_dots hdots hne, Revision.ofUnqualified, hp]
    rfl
  | patchOrGit hq hdots hp hname =>
    obtain ⟨n, hname⟩ := hname
    have hne : t ≠ [] := PatchLike.ne_nil_of_ofText? hp
    rw [hq.ofText_of_no_dots hdots hne, Revision.ofUnqualified, hp]
    simp only [hname, bind, Except.bind]
    rfl
  | @patch p hq hdots hp hname =>
    have hne : t ≠ [] := PatchLike.ne_nil_of_ofText? hp
    rw [hq.ofText_of_no_dots hdots hne, Revision.ofUnqualified, hp]
    cases ha : p.locator.anchor with
    | name n => exact absurd ha (hname n)
    | _ =>
      simp only [ha, bind, Except.bind]
      rfl

/-- A text that the rules refuse is malformed.

**Proof sketch.** One case for each rule, by the equation for such texts. -/
theorem IsRefused.exists_malformed (h : IsRefused t) :
    ∃ e, RevisionSpec.ofText t = .error (.malformed e) := by
  cases h with
  | empty h =>
    subst h
    exact ⟨_, rfl⟩
  | branchRange hq hdots e hr =>
    rw [hq.ofText_of_dots hdots, (Range.ofText_eq_error_iff hdots).1 hr]
    exact ⟨e, rfl⟩
  | onBranch hq hdots hp =>
    rw [hq.ofText_of_no_dots hdots, hp]
    exact ⟨_, rfl⟩
  | range hq hdots e hr =>
    rw [hq.ofText_of_dots hdots, (Range.ofText_eq_error_iff hdots).1 hr]
    exact ⟨e, rfl⟩

/-- A text with a number of too many digits breaks the reading down.

**Proof sketch.** There is one case for each rule, and in each of them the equation for this way to
read the text applies. -/
theorem BreaksDown.ofText_eq_error {fault : NumeralFault} (h : BreaksDown t fault) :
    RevisionSpec.ofText t = .error (.numeral fault) := by
  cases h with
  | branchRange hq hdots hr =>
    rw [hq.ofText_of_dots hdots, (Range.ofText_eq_error_iff hdots).1 hr]
    rfl
  | onBranch hq hdots hp => rw [hq.ofText_of_no_dots hdots, hp]
  | range hq hdots hr =>
    rw [hq.ofText_of_dots hdots, (Range.ofText_eq_error_iff hdots).1 hr]
    rfl
  | unqualified hq hdots hp =>
    have hne : t ≠ [] := by
      rintro rfl
      cases hp
    rw [hq.ofText_of_no_dots hdots hne, ofUnqualified_eq_error_iff.2 hp]
    rfl

/-- The number at fault in a locator is at fault in the revision of the same text. -/
lemma ofText_of_fault {d : Derivation} {fault : NumeralFault} (h : d.fault? = some fault) :
    RevisionSpec.ofText d.text = .error (.numeral fault) := by
  have hunqualified : Unqualified d.text := by
    rintro branch rest ⟨heq, -⟩
    apply d.undivided.no_colon
    rw [heq]
    simp
  refine BreaksDown.ofText_eq_error (.unqualified hunqualified d.undivided.no_dots ?_)
  rw [PatchLike.ofText?, Derivation.scanLocator_of_fault h]
end RevisionSpec

/-! ## The grammar -/

/-- **Every text is read in one way or not read for one reason.** What it is read as, and whether it
is refused, depends on whether it has a branch and whether it has two dots next to each other. These
two do not get into each other's way: a text has one branch at most, and its two dots are behind the
branch. So a range comes only from a text with two dots, and a text with neither a branch nor two
dots is always read. What is neither read nor refused has a number of too many digits behind a
caret, which breaks the reading down.

**Proof sketch.** A branch has no two dots next to each other, and there is a colon between it and
the rest, so looking for them in the rest and in the whole text comes to the same
(`Qualifies.dots_iff`). With both questions answered there is one equation for each of the four ways
to read a text, and the cases of the rules are the outcomes on the right of these equations. -/
theorem RevisionSpec.ofText_classified (t : Text) :
    (∀ spec, RevisionSpec.ofText t = .ok spec ↔ ReadsAs t spec) ∧
    ((∃ e, RevisionSpec.ofText t = .error (.malformed e)) ↔ IsRefused t) ∧
    (∀ fault, RevisionSpec.ofText t = .error (.numeral fault) ↔ BreaksDown t fault) ∧
    (∀ branch rest branch' rest', Qualifies t branch rest → Qualifies t branch' rest' →
      branch = branch' ∧ rest = rest') ∧
    (∀ branch rest, Qualifies t branch rest → (rangeSeparator <:+: t ↔ rangeSeparator <:+: rest)) ∧
    (∀ spec, RevisionSpec.ofText t = .ok spec →
      (∃ b, spec = .range b) ∨ (∃ branch b, spec = .branchRange branch b) →
      rangeSeparator <:+: t) ∧
    (t ≠ [] → Unqualified t → ¬ rangeSeparator <:+: t →
      (∃ r, RevisionSpec.ofText t = .ok (.single r)) ∨
        ∃ fault, RevisionSpec.ofText t = .error (.numeral fault) ∧ OverlongCount t fault) := by
  have hread (spec : RevisionSpec) (h : RevisionSpec.ofText t = .ok spec) : ReadsAs t spec := by
    rcases outcome_cases t with ⟨spec', h', hreads⟩ | ⟨⟨e, he⟩, -⟩ | ⟨fault, he, -⟩
    · rwa [Except.ok.inj (h.symm.trans h')]
    · rw [h] at he
      cases he
    · rw [h] at he
      cases he
  refine ⟨fun spec => ⟨hread spec, ReadsAs.ofText_eq_ok⟩, ⟨?_, IsRefused.exists_malformed⟩,
    fun fault => ⟨?_, BreaksDown.ofText_eq_error⟩,
    fun branch rest branch' rest' => Qualifies.unique,
    fun branch rest => Qualifies.dots_iff, ?_, ?_⟩
  · rintro ⟨e, he⟩
    rcases outcome_cases t with ⟨spec, h, -⟩ | ⟨-, hrefused⟩ | ⟨fault, h, -⟩
    · rw [he] at h
      cases h
    · exact hrefused
    · rw [he] at h
      cases h
  · intro he
    rcases outcome_cases t with ⟨spec, h, -⟩ | ⟨⟨e, h⟩, -⟩ | ⟨fault', h, hbreaks⟩ <;> rw [he] at h
    · cases h
    · cases h
    · cases h
      exact hbreaks
  · intro spec h hrange
    cases hread spec h with
    | branchRange hq hb => exact hq.dots_iff.2 (Range.dots_of_ofText hb)
    | range hq hb => exact Range.dots_of_ofText hb
    | _ => simp at hrange
  · intro hne hq hdots
    rw [hq.ofText_of_no_dots hdots hne]
    cases hr : Revision.ofUnqualified t with
    | ok r => exact .inl ⟨r, rfl⟩
    | error fault =>
      exact .inr ⟨fault, rfl, overlongCount_of_patchLike (ofUnqualified_eq_error_iff.1 hr)⟩

/-- The locator of too many digits is no revision either. -/
theorem RevisionSpec.ofText_overlongCount :
    RevisionSpec.ofText (Derivation.overlong false).text =
      .error (.numeral (.unreadable (digitLimit + 1))) :=
  ofText_of_fault (Derivation.fault?_overlong false)

/-- What stands before this colon is no branch, because of its two dots, and the whole text is no
range, because of its colon. -/
example : (RevisionSpec.ofText "a..b:c".toList).toOption = none := by decide

end PatchStack
