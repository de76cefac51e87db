import PatchStack.Proofs.RevisionForms
import PatchStack.Proofs.Selections

set_option autoImplicit false

/-!
# How reading and selecting can fail

Each step adds its own failures to those of the steps that it takes: a locator has to be read
against the stack, then it has to have a position, then a patch that is allowed; bounds have to be
in order, ranges have to be disjoint, and an unbroken selection must not have gaps. Other errors
do not come up, because what one step has found the next one can rely on. A name that was read is
in the stack, a position that was checked has a patch and a group, and a patch that was selected
has an index.

## Main definitions

* `PatchStack.SyntaxError.Reports`, `PatchStack.OverlongCount`, `PatchStack.ReadingFault.Reports` —
  an error is about a given text, or a number in it has too many digits.
* `PatchStack.Range.SelectionFailure`, `PatchStack.SelectionsFailure`,
  `PatchStack.ContiguityFailure` — how ranges can fail to select patches.

## Main results

* `PatchStack.Range.selectionFailure_of_select`, `PatchStack.selectionsFailure_of_selectAll`,
  `PatchStack.contiguityFailure_of_selectContiguous` — they fail in no other way.
* `PatchStack.failures_listed` — all the ways to fail, from reading to selecting.
-/

namespace PatchStack

/-! ## Reading -/

section Reading

variable {t : Text} {e : SyntaxError} {f : ReadingFault SyntaxError} {fault : NumeralFault}

/-- The error is about `t`, read as one of the given kinds. -/
structure SyntaxError.Reports (e : SyntaxError) (kinds : List String) (t : Text) : Prop where
  /-- It says what was being read. -/
  kind : e.kind ∈ kinds
  /-- It holds the whole text. -/
  text : e.text = t

/-- Somewhere in `t` a caret stands before a number of too many digits. -/
def OverlongCount (t : Text) (fault : NumeralFault) : Prop :=
  ∃ (before : Text) (m : Numeral) (behind : Text), (∀ c ∈ behind.head?, c.isDigit = false) ∧
    t = before ++ (lastToken ++ m.text) ++ behind ∧ m.fault? = some fault

/-- Reading fails with an error about `t`, read as one of the given kinds, or breaks down on a
number behind a caret. -/
def ReadingFault.Reports (kinds : List String) (t : Text) : ReadingFault SyntaxError → Prop
  | .malformed e => e.Reports kinds t
  | .numeral fault => OverlongCount t fault

namespace OverlongCount

/-- A text has the numbers of what ends it. -/
lemma append_left (h : OverlongCount t fault) (front : Text) :
    OverlongCount (front ++ t) fault := by
  obtain ⟨before, m, behind, hb, rfl, hm⟩ := h
  exact ⟨front ++ before, m, behind, hb, by simp only [List.append_assoc], hm⟩

/-- A text has the numbers of what begins it, unless a digit follows. -/
lemma append_right (h : OverlongCount t fault) {rest : Text}
    (hrest : ∀ c ∈ rest.head?, c.isDigit = false) : OverlongCount (t ++ rest) fault := by
  obtain ⟨before, m, behind, hb, rfl, hm⟩ := h
  refine ⟨before, m, behind ++ rest, ?_, by simp only [List.append_assoc], hm⟩
  cases behind with
  | nil => exact hrest
  | cons c behind => exact hb

end OverlongCount

namespace ReadingFault.Reports

/-- An error about the text itself, of the only kind. -/
lemma self (kind : String) (t : Text) (fault : SyntaxFault) :
    Reports [kind] t (.malformed ⟨kind, t, fault⟩) :=
  ⟨List.mem_singleton_self kind, rfl⟩

/-- More kinds may be given. -/
lemma mono {kinds kinds' : List String} (h : f.Reports kinds t) (hsub : kinds ⊆ kinds') :
    f.Reports kinds' t := by
  cases f with
  | malformed e => exact ⟨hsub h.kind, h.text⟩
  | numeral fault => exact h

end ReadingFault.Reports

/-- Reading a locator fails with an error about the text, or on the number at its front. -/
theorem Locator.reports_of_ofText (h : Locator.ofText t = .error f) :
    f.Reports [locatorKind] t := by
  cases f with
  | malformed e =>
    obtain ⟨hkind, htext⟩ := Locator.ofText_error h
    exact ⟨List.mem_singleton.2 hkind, htext⟩
  | numeral fault =>
    obtain ⟨m, rest, hrest, rfl, hm⟩ := Locator.ofText_eq_numeral_iff.1 h
    exact ⟨[], m, rest, hrest, rfl, hm⟩

/-- A malformed bound is an error about the range around it. A number in it has too many digits by
itself.

**Proof sketch.** A bound fails as its locator does; only an error of syntax is put into the text
around it. -/
lemma reports_of_readBound {whole : Text} (h : readBound whole t = .error f) :
    (∃ e, f = .malformed e ∧ e.Reports [rangeKind] whole) ∨
      ∃ fault, f = .numeral fault ∧ OverlongCount t fault := by
  unfold readBound at h
  split_ifs at h
  cases hl : Locator.ofText t with
  | ok l => rw [hl] at h; cases h
  | error f' =>
    rw [hl] at h
    cases f' with
    | malformed e =>
      cases h
      exact .inl ⟨_, rfl, List.mem_singleton_self _, rfl⟩
    | numeral fault =>
      cases h
      exact .inr ⟨fault, rfl, Locator.reports_of_ofText hl⟩

/-- Texts that are refused as bounds are reported as they were given, whichever of the two bounds
is malformed.

**Proof sketch.** The steps are taken in their order: cutting the text, reading the first side and
reading the second one. The first two report the whole text, and a number that is at fault in a side
is at fault in the text. -/
theorem Bounds.reports_of_ofText (h : Bounds.ofText t = .error f) : f.Reports [rangeKind] t := by
  rcases bind_eq_error_iff.1 h with hcut | ⟨cut, hcut, h⟩
  · unfold splitRange at hcut
    split at hcut
    · cases hcut
    · split_ifs at hcut
      cases hcut
      exact .self ..
  · cases cut with
    | none => cases h; exact .self ..
    | some p =>
      have ht := Text.eq_of_cutDots? (splitRange_eq_some_iff.1 hcut).1
      rcases bind_eq_error_iff.1 h with hstart | ⟨start, -, h⟩
      · rcases reports_of_readBound hstart with ⟨e, rfl, he⟩ | ⟨fault, rfl, hcount⟩
        · exact he
        · rw [ht]
          exact hcount.append_right (by simp)
      · rcases bind_eq_error_iff.1 h with hstop | ⟨stop, -, h⟩
        · rcases reports_of_readBound hstop with ⟨e, rfl, he⟩ | ⟨fault, rfl, hcount⟩
          · exact he
          · rw [ht]
            exact (hcount.append_left ['.', '.']).append_left p.1
        · cases h

/-- A range fails as bounds do, or as a single locator does. -/
theorem Range.reports_of_ofText (h : Range.ofText t = .error f) :
    f.Reports [locatorKind, rangeKind] t := by
  unfold Range.ofText at h
  split_ifs at h with hnil hcut
  · cases h
    exact (ReadingFault.Reports.self ..).mono (by simp)
  · exact (Bounds.reports_of_ofText (map_eq_error_iff.1 h)).mono (by simp)
  · exact (Locator.reports_of_ofText (map_eq_error_iff.1 h)).mono (by simp)

/-- Reading a locator with a suffix fails only on the number at the front of the text. -/
lemma overlongCount_of_patchLike (h : PatchLike.ofText? t = .error fault) :
    OverlongCount t fault := by
  unfold PatchLike.ofText? at h
  split at h
  · cases h
  · cases h
  · next fault' hs =>
    cases h
    obtain ⟨m, rest, hrest, rfl, hm⟩ := exists_numeral_of_scanLocator hs
    exact ⟨[], m, rest, hrest, rfl, hm⟩

/-- A single revision fails with an error about the text, or on a number in it.

**Proof sketch.** The text is empty, has two dots, has a branch, or is read without one. In the last
two cases a number that is at fault in a part is at fault in the text. -/
theorem Revision.reports_of_ofText (h : Revision.ofText t = .error f) :
    f.Reports [revisionKind] t := by
  unfold Revision.ofText at h
  split_ifs at h
  · cases h; exact .self ..
  · cases h; exact .self ..
  · split at h
    · next branch rest hbranch =>
      split at h
      · cases h
      · cases h; exact .self ..
      · next fault hp =>
        cases h
        rw [(eq_of_splitBranch? hbranch).2]
        exact ((overlongCount_of_patchLike hp).append_left [':']).append_left branch
    · obtain ⟨fault, hr, rfl⟩ := mapError_eq_error_iff.1 h
      rcases bind_eq_error_iff.1 hr with hp | ⟨found, -, hr⟩
      · exact overlongCount_of_patchLike hp
      · cases found with
        | none => cases hr
        | some p =>
          dsimp only at hr
          split at hr <;> cases hr

/-- A revision is reported as it was given, or without its branch if what stands behind that is
no range.

**Proof sketch.** The text has two dots or not, and a branch or not, and for each way to read it
there is an equation. -/
theorem RevisionSpec.reports_of_ofText (h : RevisionSpec.ofText t = .error f) :
    f.Reports [revisionKind, rangeKind] t ∨
      ∃ branch rest, isBranchName branch = true ∧ t = branch ++ ':' :: rest ∧
        f.Reports [rangeKind] rest := by
  cases hcut : t.cutDots? with
  | none =>
    rw [RevisionSpec.ofText_of_undotted hcut] at h
    exact .inl ((Revision.reports_of_ofText (map_eq_error_iff.1 h)).mono (by simp))
  | some p =>
    have hdots : t.cutDots?.isSome = true := by rw [hcut]; rfl
    cases hbranch : splitBranch? t with
    | none =>
      rw [RevisionSpec.ofText_of_dotted hdots hbranch] at h
      exact .inl ((Bounds.reports_of_ofText (map_eq_error_iff.1 h)).mono (by simp))
    | some q =>
      rw [RevisionSpec.ofText_of_dotted_on hdots hbranch] at h
      obtain ⟨hname, ht⟩ := eq_of_splitBranch? hbranch
      exact .inr ⟨q.1, q.2, hname, ht, Bounds.reports_of_ofText (map_eq_error_iff.1 h)⟩

end Reading

/-! ## Parts that are put together -/

section Parts

variable {s : Stack} {stem : Text}

/-- A stem that the stack holds keeps the rules of naming, and is read as the name. -/
theorem exists_name_of_contains (h : s.contains stem = true) (name : Text) :
    ∃ n, PatchName.ofText stem = .ok n ∧ readStem s name stem = .ok (.name n) := by
  obtain ⟨n, hn, rfl⟩ := Stack.contains_iff.1 h
  refine ⟨n, PatchName.ofText_eq_ok_iff.2 rfl, ?_⟩
  rw [readStem, if_neg n.rules.nonempty, Stack.find?_of_mem hn]

/-- A stem that is an index is never negative, and is read as the anchor of the index if its digits
are few enough.

**Proof sketch.** A stem of digits is not empty, and it is no patch, so that it is read as a number
next. -/
theorem exists_anchor_of_isIndex (hi : isIndex stem = true) (h : s.contains stem = false)
    (name : Text) :
    ∃ a, Anchor.ofIndex? (some (Text.digitsValue stem)) = some a ∧
      (stem.length ≤ digitLimit → readStem s name stem = .ok a) ∧
      (digitLimit < stem.length →
        readStem s name stem = .error (.ofNumeral (.unreadable stem.length))) := by
  have hne : stem ≠ [] := by rintro rfl; cases hi
  have hfind : s.find? stem = none := by
    cases hf : s.find? stem with
    | none => rfl
    | some n =>
      have := Stack.contains_iff.2 ⟨n, Stack.mem_of_find? hf⟩
      rw [h] at this
      cases this
  have hread : readStem s name stem =
      (fun i => .belowTop (some i)) <$> (Text.readNat stem).mapError Error.ofNumeral := by
    rw [readStem, if_neg hne, hfind]
    exact if_pos hi
  refine ⟨.belowTop (some (Text.digitsValue stem)), rfl, fun hlength => ?_, fun hlength => ?_⟩
  · rw [hread, Text.readNat_eq_ok_iff.2 ⟨hlength, rfl⟩]
    rfl
  · rw [hread, Text.readNat_eq_error_iff.2 ⟨hlength, rfl⟩]
    rfl

end Parts

/-! ## Selecting -/

section Selecting

variable {s : Stack} {c : RangeConstraint} {e : Error}

/-- The locators that a range is made of. -/
def Range.locators : Range → List Locator
  | .single l => [l]
  | .between b => b.start.toList ++ b.stop.toList

/-- How a range can fail to select patches. -/
inductive Range.SelectionFailure (r : Range) (s : Stack) (c : RangeConstraint) : Error → Prop where
  /-- One of its locators does not resolve. -/
  | bound {e : Error} (l : Locator) (hl : l ∈ r.locators)
      (h : l.ResolutionFailure s c.asLocation e) : SelectionFailure r s c e
  /-- Its begin comes after its end. -/
  | inverted (i j : Nat) (first last : PatchName) (hfirst : s.patches[i]? = some first)
      (hlast : s.patches[j]? = some last) (hji : j < i) :
      SelectionFailure r s c (.invertedRange first.text last.text)

/-- A range fails to select patches in no other way: the patches between its bounds are never
refused.

**Proof sketch.** A single locator fails as it resolves. For bounds, one of them fails or the end
comes before the beginning; in the two other cases of `Bounds.select_cases` something is selected.
-/
theorem Range.selectionFailure_of_select {r : Range} (h : r.select s c = .error e) :
    r.SelectionFailure s c e := by
  cases r with
  | single l =>
    exact .bound l (List.mem_singleton_self l)
      (Locator.resolutionFailure_of_resolve (map_eq_error_iff.1 h))
  | between b =>
    change b.select s c = .error e at h
    rcases Bounds.select_cases b s c with ⟨l, e', hl, he, h'⟩ | ⟨-, -, -, h'⟩ |
      ⟨i, j, -, -, -, h'⟩ | ⟨i, j, first, last, -, -, hji, hfirst, hlast, h'⟩ <;>
      rw [h'] at h <;> cases h
    · refine .bound l ?_ (Locator.resolutionFailure_of_resolve he)
      simpa [Range.locators] using hl
    · exact .inverted i j first last hfirst hlast hji

/-- How several ranges can fail to select patches. -/
inductive SelectionsFailure (ranges : List Range) (s : Stack) (c : RangeConstraint) :
    Error → Prop where
  /-- One of them fails. -/
  | range {e : Error} (r : Range) (hr : r ∈ ranges) (h : r.SelectionFailure s c e) :
      SelectionsFailure ranges s c e
  /-- One of them selects a patch that was selected by those before it. -/
  | again (earlier later : List Range) (r : Range) (names more : List PatchName) (n : PatchName)
      (hranges : ranges = earlier ++ r :: later) (hnames : selectAll earlier s c = .ok names)
      (hmore : r.select s c = .ok more) (hn : n ∈ names) (hagain : n ∈ more) :
      SelectionsFailure ranges s c (.duplicatePatch n.text)

/-- A patch that a range selects again is one that was selected before, since it does not select one
twice by itself. -/
lemma Range.mem_of_repeat {r : Range} {names more : List PatchName} {n : PatchName}
    (hmore : r.select s c = .ok more) (hn : firstRepeatAfter? names more = some n) :
    n ∈ names ∧ n ∈ more := by
  obtain ⟨before, after, hsplit, -, -, hrepeat⟩ := firstRepeatAfter?_eq_some_iff.1 hn
  have hnodup := s.nodup.sublist (Range.sublist_of_select hmore)
  rw [hsplit] at hnodup ⊢
  have hfresh : n ∉ before := fun hb =>
    (List.nodup_append.1 hnodup).2.2 n hb n List.mem_cons_self rfl
  exact ⟨hrepeat.resolve_right hfresh, by simp⟩

/-- Several ranges fail to select patches in no other way. -/
theorem selectionsFailure_of_selectAll {ranges : List Range}
    (h : selectAll ranges s c = .error e) : SelectionsFailure ranges s c e := by
  obtain ⟨earlier, later, r, names, hranges, hnames, hfails⟩ := selectAll_eq_error_iff.1 h
  rcases hfails with hr | ⟨more, n, hmore, hrepeat, rfl⟩
  · exact .range r (by simp [hranges]) (Range.selectionFailure_of_select hr)
  · obtain ⟨hn, hagain⟩ := Range.mem_of_repeat hmore hrepeat
    exact .again earlier later r names more n hranges hnames hmore hn hagain

/-- How several ranges can fail to select patches without a gap. -/
inductive ContiguityFailure (ranges : List Range) (s : Stack) (c : RangeConstraint) :
    Error → Prop where
  /-- They fail to select patches. -/
  | selection {e : Error} (h : SelectionsFailure ranges s c e) : ContiguityFailure ranges s c e
  /-- There is a gap between two of the patches that they select. -/
  | gap (names : List PatchName) (i j : Nat) (a b : PatchName)
      (hnames : selectAll ranges s c = .ok names) (ha : a ∈ names) (hb : b ∈ names)
      (hi : s.patches[i]? = some a) (hj : s.patches[j]? = some b) (hij : i + 1 < j) :
      ContiguityFailure ranges s c (.nonContiguous a.text b.text)

/-- An unbroken selection fails in no other way: every patch that is selected has an index.

**Proof sketch.** The ranges fail to select, or there is a first gap. Where there is one, what is
selected tells the indices of both of its sides. -/
theorem contiguityFailure_of_selectContiguous {ranges : List Range}
    (h : selectContiguous ranges s c = .error e) : ContiguityFailure ranges s c e := by
  cases hnames : selectAll ranges s c with
  | error e' =>
    rw [selectContiguous, hnames] at h
    cases h
    exact .selection (selectionsFailure_of_selectAll hnames)
  | ok names =>
    rw [selectContiguous_eq hnames] at h
    split at h
    · rename_i a b hgap
      cases h
      obtain ⟨first, i, j, hfirst, hij, hi, hj, htaken⟩ :=
        (isSelection_selectAll hnames).isFirstGap hgap
      have ha : s.TakenAt names i := (htaken i (by omega)).2 (.inl ⟨hfirst, Nat.le_refl i⟩)
      have hb : s.TakenAt names j := (htaken j (Nat.le_refl j)).2 (.inr rfl)
      rw [Stack.takenAt_iff_mem hi] at ha
      rw [Stack.takenAt_iff_mem hj] at hb
      exact .gap names i j a b hnames ha hb hi hj hij
    · cases h

end Selecting

/-! ## All failures -/

/-- **Reading and selecting fail in the listed ways only.** A text that is refused is reported as a
malformed locator, range or revision. A locator fails to be read against a stack, to have a
position or to resolve, ranges fail to select patches, each in its own ways and in those of the
steps before. There is no failure of looking up a name or an index that is not in the stack.

Among the ways are those for which there is no error, each of them on a number of too many digits: a
number behind a caret, an index in place of a name, the count of an offset, or an index outside of
the stack that an error would have to show.

The parts that are put together on the way pass the checks that they would be put to by themselves:
what is cut off a text as offsets and what is joined are chains, a stem that is held by the stack
is a name, and an index has an anchor.

**Proof sketch.** Each part is a lemma about one step, which opens the definition of the step once
and cites the lemma of the step before. -/
theorem failures_listed (t : Text) (s : Stack) (e : Error) :
    (∀ f, Locator.ofText t = .error f → f.Reports [locatorKind] t) ∧
    (∀ f, Range.ofText t = .error f → f.Reports [locatorKind, rangeKind] t) ∧
    (∀ f, Revision.ofText t = .error f → f.Reports [revisionKind] t) ∧
    (∀ f, RevisionSpec.ofText t = .error f → f.Reports [revisionKind, rangeKind] t ∨
      ∃ branch rest, isBranchName branch = true ∧ t = branch ++ ':' :: rest ∧
        f.Reports [rangeKind] rest) ∧
    (∀ l, Locator.disambiguate l s = .error e → l.ReadingFailure s e) ∧
    (∀ floor l, Locator.position floor l s = .error e → l.PositionFailure floor s e) ∧
    (∀ c l, Locator.resolve l s c = .error e → l.ResolutionFailure s c e) ∧
    (∀ c r, Range.select r s c = .error e → r.SelectionFailure s c e) ∧
    (∀ c ranges, selectAll ranges s c = .error e → SelectionsFailure ranges s c e) ∧
    (∀ c ranges, selectContiguous ranges s c = .error e → ContiguityFailure ranges s c e) ∧
    (OffsetChain.ofText (leadingChain t) = .ok (.leading t) ∧
      OffsetChain.ofText (trailingChain t) = .ok (.trailing t)) ∧
    (∀ a b : OffsetChain, OffsetChain.ofText (a.text ++ b.text) = .ok (a ++ b)) ∧
    (∀ name stem, s.contains stem = true →
      ∃ n, PatchName.ofText stem = .ok n ∧ readStem s name stem = .ok (.name n)) ∧
    ∀ name stem, isIndex stem = true → s.contains stem = false →
      ∃ a, Anchor.ofIndex? (some (Text.digitsValue stem)) = some a ∧
        (stem.length ≤ digitLimit → readStem s name stem = .ok a) ∧
        (digitLimit < stem.length →
          readStem s name stem = .error (.ofNumeral (.unreadable stem.length))) := by
  exact ⟨fun f => Locator.reports_of_ofText, fun f => Range.reports_of_ofText,
    fun f => Revision.reports_of_ofText, fun f => RevisionSpec.reports_of_ofText,
    fun l => Locator.readingFailure_of_disambiguate,
    fun floor l => Locator.positionFailure_of_position,
    fun c l => Locator.resolutionFailure_of_resolve,
    fun c r => Range.selectionFailure_of_select,
    fun c ranges => selectionsFailure_of_selectAll,
    fun c ranges => contiguityFailure_of_selectContiguous,
    ⟨OffsetChain.ofText_eq_ok_iff.2 rfl, OffsetChain.ofText_eq_ok_iff.2 rfl⟩,
    fun a b => OffsetChain.ofText_eq_ok_iff.2 rfl,
    fun name stem h => exists_name_of_contains h name,
    fun name stem hi h => exists_anchor_of_isIndex hi h name⟩

/-- There is no error for a negative number of too many digits behind a caret. -/
theorem ofText_ne_malformed_of_overlong :
    ¬ ∃ e, Locator.ofText (Derivation.overlong true).text = .error (.malformed e) := by
  rintro ⟨e, h⟩
  rw [Derivation.ofText_of_fault (Derivation.fault?_overlong true)] at h
  cases h

end PatchStack
