import PatchStack.Proofs.Failures
import PatchStack.Proofs.Spelling

set_option autoImplicit false

/-!
# The grammar of ranges

A range is a locator, or two dots with a locator or nothing on either side. A locator has no two
dots next to each other and does not end with a dot. So there is one way at most to divide a text
into the sides of a range, and it is the one that cuts the text at its first two dots, however many
dots there are and wherever they stand.

## Main definitions

* `PatchStack.IsBound` — a side of a range: nothing, or a locator.
* `PatchStack.Delimits` — a text divided into the two sides of a range.

## Main results

* `PatchStack.Delimits.cutDots?` — a text can be divided at its first two dots only.
* `PatchStack.Range.ofText_eq_between_iff_delimits` — what is read as bounds is a divided text.
* `PatchStack.range_grammar` — what is read as a range, and what is refused.
-/

namespace PatchStack

/-! ## The two sides of a range -/

section Sides

variable {t x y x' y' : Text} {b b' : Bounds}

/-- A side of a range: a missing bound, or a text that is read as a locator by itself. -/
inductive IsBound : Text → Option Locator → Prop where
  /-- Nothing stands for a missing bound. -/
  | missing : IsBound [] none
  /-- Anything else has to be a locator. -/
  | locator {t : Text} {l : Locator} (h : Locator.ofText t = .ok l) : IsBound t (some l)

/-- The text `t` is `x` and `y` with two dots between them, which are the bounds `b`. -/
structure Delimits (t x y : Text) (b : Bounds) : Prop where
  /-- The two dots are between the sides. -/
  eq : t = x ++ rangeSeparator ++ y
  /-- The first side is where the range begins. -/
  start : IsBound x b.start
  /-- The second side is where it ends. -/
  stop : IsBound y b.stop

/-- A side of a range is what is read as a bound, in whatever range it stands. -/
lemma isBound_iff {l : Option Locator} (whole : Text) :
    IsBound t l ↔ readBound whole t = .ok l := by
  rw [readBound_eq_ok_iff]
  constructor
  · intro h
    cases h with
    | missing => exact .inl ⟨rfl, rfl⟩
    | locator hl => exact .inr ⟨_, hl, rfl⟩
  · rintro (⟨rfl, rfl⟩ | ⟨l', hl, rfl⟩)
    · exact .missing
    · exact .locator hl

/-- A side of a range is one bound only. -/
lemma IsBound.unique {l l' : Option Locator} (h : IsBound t l) (h' : IsBound t l') : l = l' := by
  rw [isBound_iff t] at h h'
  exact Except.ok.inj (h.symm.trans h')

/-- A text is divided at its first two dots: the first side has no two dots next to each other, and
it does not end with a dot. -/
lemma Delimits.cutDots? (h : Delimits t x y b) : t.cutDots? = some (x, y) := by
  obtain ⟨hdots, hlast⟩ := dots_of_readBound ((isBound_iff t).1 h.start)
  rw [h.eq, rangeSeparator, List.append_assoc]
  exact Text.cutDots?_append hdots hlast

/-- A text can be divided in one way only. -/
theorem Delimits.unique (h : Delimits t x y b) (h' : Delimits t x' y' b') :
    x = x' ∧ y = y' ∧ b = b' := by
  have hsides := Option.some.inj (h.cutDots?.symm.trans h'.cutDots?)
  obtain ⟨rfl, rfl⟩ := Prod.mk.inj hsides
  have hstart := h.start.unique h'.start
  have hstop := h.stop.unique h'.stop
  cases b
  cases b'
  simp_all

end Sides

/-! ## Reading -/

section Reading

variable {t : Text} {b : Bounds}

/-- What is read as bounds is what can be divided into them. -/
theorem Range.ofText_eq_between_iff_delimits :
    Range.ofText t = .ok (.between b) ↔ ∃ x y, Delimits t x y b := by
  rw [Range.ofText_eq_between_iff]
  constructor
  · intro h
    obtain ⟨x, y, hcut, hstart, hstop⟩ := Bounds.ofText_eq_ok_iff.1 h
    have ht := Text.eq_of_cutDots? (splitRange_eq_some_iff.1 hcut).1
    refine ⟨x, y, ?_, (isBound_iff t).2 hstart, (isBound_iff t).2 hstop⟩
    simp [ht, rangeSeparator]
  · rintro ⟨x, y, rfl, hstart, hstop⟩
    exact Bounds.ofText_append ((isBound_iff x).1 hstart) ((isBound_iff x).1 hstop)

/-- What can be divided has two dots next to each other. -/
lemma Delimits.dots {x y : Text} (h : Delimits t x y b) : rangeSeparator <:+: t :=
  ⟨x, y, h.eq.symm⟩

/-- A text with two dots next to each other is read as bounds, if it is read at all. -/
lemma Range.exists_bounds_of_dots (hdots : rangeSeparator <:+: t) {r : Range}
    (h : Range.ofText t = .ok r) : ∃ b, r = .between b := by
  cases r with
  | single l =>
    have hl := Range.ofText_eq_single_iff.1 h
    exact absurd hdots (undivided_of_ofText hl).no_dots
  | between b => exact ⟨b, rfl⟩

/-- A text without two dots next to each other is read as a locator, if it is read at all. -/
lemma Range.ofText_eq_ok_iff_of_undotted (hdots : ¬ rangeSeparator <:+: t) {r : Range} :
    Range.ofText t = .ok r ↔ ∃ l, Locator.ofText t = .ok l ∧ r = .single l := by
  constructor
  · intro h
    cases r with
    | single l => exact ⟨l, Range.ofText_eq_single_iff.1 h, rfl⟩
    | between b =>
      obtain ⟨x, y, hxy⟩ := Range.ofText_eq_between_iff_delimits.1 h
      exact absurd hxy.dots hdots
  · rintro ⟨l, hl, rfl⟩
    exact Range.ofText_eq_single_iff.2 hl

/-- Where a text without two dots next to each other is refused, it is so as a locator. Only the
empty text is not: it is called an empty range. -/
lemma Range.ofText_of_undotted (hdots : ¬ rangeSeparator <:+: t) (hne : t ≠ []) :
    Range.ofText t = (Locator.ofText t).map .single := by
  rw [Range.ofText, if_neg hne, Text.cutDots?_eq_none_iff.2 hdots]
  rfl

/-- The number at fault in a locator is at fault in the range that begins with it.

**Proof sketch.** The locator has no two dots next to each other and does not end with one, so that
the text is cut behind it. Its number is met when the first bound is read. -/
lemma Range.ofText_of_fault {d : Derivation} {fault : NumeralFault} (h : d.fault? = some fault) :
    Range.ofText (d.text ++ rangeSeparator) = .error (.numeral fault) := by
  have hcut : (d.text ++ rangeSeparator).cutDots? = some (d.text, []) :=
    Text.cutDots?_append d.undivided.no_dots d.getLast?_ne_dot
  have hsplit : splitRange (d.text ++ rangeSeparator) = .ok (some (d.text, [])) :=
    splitRange_eq_some_iff.2 ⟨hcut, rfl⟩
  have hbound : readBound (d.text ++ rangeSeparator) d.text = .error (.numeral fault) := by
    rw [readBound, if_neg d.text_ne_nil, Derivation.ofText_of_fault h]
  have hbounds : Bounds.ofText (d.text ++ rangeSeparator) = .error (.numeral fault) := by
    rw [Bounds.ofText, hsplit]
    exact bind_eq_error_iff.2 (.inr ⟨_, rfl, bind_eq_error_iff.2 (.inl hbound)⟩)
  have hne : d.text ++ rangeSeparator ≠ [] := by simp [rangeSeparator]
  rw [Range.ofText, if_neg hne, hcut, hbounds]
  rfl

end Reading

/-! ## The grammar -/

/-- **A text is read as a range exactly if the grammar has it.** Bounds are read from those texts
that can be divided into two sides with two dots between them, where each side is nothing or a
locator, and what is read are the bounds on the two sides. No text can be divided in two ways, so
that two locators with the two dots between them are read as just these two. A text with two dots
next to each other is never read as a locator. One without them comes to what it comes to as a
locator, but for the name of the empty range. Whatever is refused is reported as a whole, not with
the side that is to blame, unless a number in it has too many digits.

**Proof sketch.** A locator has no two dots next to each other and does not end with a dot
(`dots_of_readBound`), so that the first two dots of a divided text are those between its sides.
There are no others in the second side, which is what is checked before the sides are read. -/
theorem range_grammar (t : Text) :
    (∀ b, Range.ofText t = .ok (.between b) ↔ ∃ x y, Delimits t x y b) ∧
    (∀ x y b x' y' b', Delimits t x y b → Delimits t x' y' b' → x = x' ∧ y = y' ∧ b = b') ∧
    (∀ x y l m, Locator.ofText x = .ok l → Locator.ofText y = .ok m →
      t = x ++ rangeSeparator ++ y → Range.ofText t = .ok (.between ⟨some l, some m⟩)) ∧
    (rangeSeparator <:+: t → ∀ r, Range.ofText t = .ok r → ∃ b, r = .between b) ∧
    (¬ rangeSeparator <:+: t →
      (∀ r, Range.ofText t = .ok r ↔ ∃ l, Locator.ofText t = .ok l ∧ r = .single l) ∧
      (t ≠ [] → Range.ofText t = (Locator.ofText t).map .single)) ∧
    ∀ f, Range.ofText t = .error f → f.Reports [locatorKind, rangeKind] t := by
  refine ⟨fun b => Range.ofText_eq_between_iff_delimits,
    fun x y b x' y' b' => Delimits.unique, ?_,
    fun hdots r => Range.exists_bounds_of_dots hdots, ?_, fun f => Range.reports_of_ofText⟩
  · intro x y l m hl hm ht
    apply Range.ofText_eq_between_iff_delimits.2
    exact ⟨x, y, ht, .locator hl, .locator hm⟩
  · intro hdots
    exact ⟨fun r => Range.ofText_eq_ok_iff_of_undotted hdots, Range.ofText_of_undotted hdots⟩

/-- The range that begins with the locator of too many digits is not reported as a whole. -/
theorem Range.ofText_overlongStart :
    Range.ofText ((Derivation.overlong false).text ++ rangeSeparator) =
      .error (.numeral (.unreadable (digitLimit + 1))) :=
  ofText_of_fault (Derivation.fault?_overlong false)

/-- Three dots in a row are cut behind the second one, and no locator begins with the third. -/
example : (Range.ofText "a...b".toList).toOption = none := by decide

end PatchStack
