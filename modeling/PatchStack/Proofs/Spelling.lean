import PatchStack.Proofs.Decimals
import PatchStack.Proofs.RevisionForms

set_option autoImplicit false

/-!
# Spelling what was read

Whatever is read can be spelled again, and its spelling is read as the same thing. The spelling is
the text that was read but for one detail: the number behind a caret is an integer once it is read,
and is spelled in its canonical form, without zeros in front and without a minus sign at zero.

No part of a spelling runs into the next one, because the number keeps what stands behind it, which
is not a digit, and no locator ends in a dot.

## Main definitions

* `PatchStack.Numeral.IsCanonical`, `PatchStack.Numeral.ofInt` — canonical numbers.
* `PatchStack.Respelled` — two texts that differ in the numbers behind carets at most.
* `PatchStack.ReadsBack` — what is read is read again from its spelling, which is respelled only.

## Main results

* `PatchStack.scanLocator_text_append` — the spelling of a locator is scanned as the locator,
  whatever stands behind it.
* `PatchStack.Bounds.ofText_text`, `PatchStack.PatchLike.ofText?_text` — the spelling of bounds and
  of a locator with a suffix.
* `PatchStack.spelling_reads_back` — locators, ranges and revisions are spelled as they were read.
-/

namespace PatchStack

/-! ## Canonical numbers -/

namespace Numeral

/-- No zero stands in front of other digits, and zero has no sign. -/
def IsCanonical (m : Numeral) : Prop :=
  (m.negative = false ∧ m.digits = ['0']) ∨ m.digits.head? ≠ some '0'

/-- The decimal digits of a number, behind a minus sign or not. -/
def ofNat (negative : Bool) (n : Nat) : Numeral :=
  ⟨negative, Nat.toDigits 10 n, Nat.toDigits_ne_nil,
    fun _ => Nat.isDigit_of_mem_toDigits (by decide) (by decide)⟩

/-- The canonical spelling of an integer. -/
def ofInt : Int → Numeral
  | .ofNat n => ofNat false n
  | .negSucc n => ofNat true (n + 1)

/-- A number is spelled as it is written. -/
lemma text_ofInt (k : Int) : (ofInt k).text = Text.ofInt k := by
  cases k <;> rfl

/-- Its spelling means the number. -/
lemma value_ofInt (k : Int) : (ofInt k).value = k := by
  cases k with
  | ofNat n => simp [ofInt, ofNat, value, Text.digitsValue, Nat.ofDigitChars_ten_toDigits]
  | negSucc n =>
    simp only [ofInt, ofNat, value, Text.digitsValue, Nat.ofDigitChars_ten_toDigits, if_true]
    exact (Int.negSucc_eq n).symm

/-- Its spelling is the canonical one. -/
lemma isCanonical_ofInt (k : Int) : (ofInt k).IsCanonical := by
  cases k with
  | ofNat n =>
    rcases Nat.eq_zero_or_pos n with rfl | hn
    · exact .inl ⟨rfl, rfl⟩
    · exact .inr (head?_toDigits hn)
  | negSucc n => exact .inr (head?_toDigits (Nat.succ_pos n))

/-- A number with few enough digits can be written. -/
lemma digitCount_value_le {m : Numeral} (h : m.fault? = none) :
    Text.digitCount m.value ≤ digitLimit := by
  unfold fault? at h
  split_ifs at h with hlength
  have hvalue := Text.digitCount_digitsValue_le m.all_isDigit hlength
  unfold value
  split_ifs
  · rwa [Text.digitCount_neg]
  · exact hvalue

/-- Nothing is wrong with the canonical spelling of a number of few enough digits. -/
lemma fault?_ofInt {k : Int} (h : Text.digitCount k ≤ digitLimit) : (ofInt k).fault? = none := by
  unfold fault?
  rw [if_pos]
  cases k with
  | ofNat n | negSucc n => exact h

end Numeral

/-! ## Texts with other numbers -/

/-- Two texts are the same but for numbers behind carets: that at the front of a locator, of each
bound of a range, or of what stands behind a branch. In the second text these numbers are
canonical. -/
inductive Respelled : Text → Text → Prop where
  /-- The same text. -/
  | same (t : Text) : Respelled t t
  /-- A number, as long as it can be, and its canonical form. -/
  | count (m m' : Numeral) (behind : Text) (hb : ∀ c ∈ behind.head?, c.isDigit = false)
      (hv : m'.value = m.value) (hc : m'.IsCanonical) :
      Respelled (lastToken ++ m.text ++ behind) (lastToken ++ m'.text ++ behind)
  /-- Two bounds. -/
  | bounds {a a' b b' : Text} (ha : Respelled a a') (hb : Respelled b b') :
      Respelled (a ++ rangeSeparator ++ b) (a' ++ rangeSeparator ++ b')
  /-- What stands behind a branch. -/
  | behindBranch {t t' : Text} (branch : Text) (hb : isBranchName branch = true)
      (ht : Respelled t t') : Respelled (branch ++ ':' :: t) (branch ++ ':' :: t')

/-! ## Locators -/

section Locator

variable {t rest : Text} {l : Locator}

/-- A number behind a caret is scanned whatever stands behind it, unless that is a digit. -/
theorem scanLocator_count {m : Numeral} (hm : m.fault? = none) {behind : Text}
    (hb : ∀ c ∈ behind.head?, c.isDigit = false) :
    scanLocator (lastToken ++ m.text ++ behind) =
      .ok (⟨.belowLast (some m.value), .leading behind⟩, afterChain behind) := by
  have hint : scanInt? (m.text ++ behind) = some (m.read, behind) :=
    scanInt?_eq_some_iff.2 ⟨m, hb, rfl, rfl⟩
  show scanLocator ('^' :: (m.text ++ behind)) = _
  simp only [scanLocator, scanAnchor_caret, scanLastAnchor, hint, Numeral.read_of_fault?_eq_none hm]
  rfl

/-- What is scanned is spelled as it was, or it began with a caret and a number.

**Proof sketch.** What is scanned has a derivation, and only that of a caret with a number is
spelled in more than one way. There the scanner has seen a number, which tells its spelling and what
stands behind it. -/
theorem scanLocator_cases (h : scanLocator t = .ok (l, rest)) :
    l.text ++ rest = t ∨
      ∃ (m : Numeral) (behind : Text), m.fault? = none ∧ (∀ c ∈ behind.head?, c.isDigit = false) ∧
        t = lastToken ++ m.text ++ behind ∧ rest = afterChain behind ∧
        l = ⟨.belowLast (some m.value), .leading behind⟩ := by
  obtain ⟨d, rfl, ht, hd⟩ := exists_derivation_of_scanLocator h
  cases d with
  | base o => exact .inl ht.symm
  | top o => exact .inl ht.symm
  | unanchored o hne => exact .inl ht.symm
  | name n hn o ho => exact .inl ht.symm
  | last count o =>
    cases count with
    | none => exact .inl ht.symm
    | some m =>
      right
      -- The scanner has seen a number here, which ends before `behind`.
      obtain ⟨r, rfl⟩ : ∃ r, t = '^' :: r := ⟨_, ht⟩
      rw [scanLocator, scanAnchor_caret, scanLastAnchor] at h
      cases hint : scanInt? r with
      | none => rw [hint] at h; cases h
      | some p =>
        obtain ⟨k, behind⟩ := p
        obtain ⟨m', hb, rfl, rfl⟩ := scanInt?_eq_some_iff.1 hint
        rw [hint] at h
        cases hm : m'.fault? with
        | some fault =>
          rw [Numeral.read_of_fault?_eq_some hm] at h
          cases h
        | none =>
          rw [Numeral.read_of_fault?_eq_none hm] at h
          obtain ⟨hl, hrest⟩ := Prod.mk.inj (Except.ok.inj h)
          exact ⟨m', behind, hm, hb, rfl, hrest.symm, hl.symm⟩

/-- The spelling of a locator with a number behind a caret, and of what follows it. -/
lemma text_count_append (m : Numeral) (behind : Text) :
    Locator.text ⟨.belowLast (some m.value), .leading behind⟩ ++ afterChain behind =
      lastToken ++ (Numeral.ofInt m.value).text ++ behind := by
  have hsplit : (OffsetChain.leading behind).text ++ afterChain behind = behind :=
    leadingChain_append_afterChain behind
  rw [Locator.text, Anchor.text, Numeral.text_ofInt, List.append_assoc, hsplit]

/-- The spelling of a locator is scanned as the locator, and what stood behind it is left. -/
theorem scanLocator_text_append (h : scanLocator t = .ok (l, rest)) :
    scanLocator (l.text ++ rest) = .ok (l, rest) := by
  rcases scanLocator_cases h with ht | ⟨m, behind, hm, hb, -, rfl, rfl⟩
  · rwa [ht]
  · have hread := Numeral.fault?_ofInt (Numeral.digitCount_value_le hm)
    rw [text_count_append, scanLocator_count hread hb, Numeral.value_ofInt]

/-- What is scanned is spelled as it was but for a number behind a caret. -/
theorem Respelled.of_scanLocator (h : scanLocator t = .ok (l, rest)) :
    Respelled t (l.text ++ rest) := by
  rcases scanLocator_cases h with ht | ⟨m, behind, -, hb, rfl, rfl, rfl⟩
  · rw [ht]
    exact .same t
  · rw [text_count_append]
    exact .count m _ behind hb (Numeral.value_ofInt _) (Numeral.isCanonical_ofInt _)

/-- The spelling of what is scanned is cut at two dots only if the text was. -/
lemma no_dots_of_scanLocator (h : scanLocator t = .ok (l, rest)) (hd : ¬ ['.', '.'] <:+: t) :
    ¬ ['.', '.'] <:+: l.text ++ rest := by
  rcases scanLocator_cases h with ht | ⟨m, behind, -, hb, rfl, rfl, rfl⟩
  · rwa [ht]
  · have hdot (m : Numeral) : '.' ∉ lastToken ++ m.text := by
      intro hmem
      rcases List.mem_append.1 hmem with hmem | hmem
      · exact absurd hmem (by decide)
      · exact (m.ne_of_mem hmem).2 rfl
    rw [dots_infix_append_iff (hdot m)] at hd
    rwa [text_count_append, dots_infix_append_iff (hdot _)]

/-- The spelling of what is scanned has a branch only if the text has. -/
lemma splitBranch?_of_scanLocator (h : scanLocator t = .ok (l, rest))
    (hb : splitBranch? t = none) : splitBranch? (l.text ++ rest) = none := by
  rcases scanLocator_cases h with ht | ⟨m, behind, -, -, rfl, rfl, rfl⟩
  · rwa [ht]
  · rw [text_count_append]
    exact splitBranch?_caret _

/-- What is scanned can be written, since its number has few enough digits.

**Proof sketch.** Only an anchor with a number can fail to be written, and the number of what is
scanned is not at fault. -/
theorem write_of_scanLocator (h : scanLocator t = .ok (l, rest)) : l.write = .ok l.text := by
  suffices ha : l.anchor.write = .ok l.anchor.text by
    rw [Locator.write, ha]
    rfl
  obtain ⟨d, rfl, -, hd⟩ := exists_derivation_of_scanLocator h
  cases d with
  | last count o =>
    cases count with
    | none => rfl
    | some m =>
      have hm := Text.writeInt_eq_ok_iff.2 ⟨Numeral.digitCount_value_le hd, rfl⟩
      show (lastToken ++ ·) <$> Text.writeInt m.value = .ok (lastToken ++ Text.ofInt m.value)
      rw [hm]
      rfl
  | base | top | unanchored | name => rfl

/-- A text that is scanned is not empty. -/
lemma ne_nil_of_scanLocator (h : scanLocator t = .ok (l, rest)) : t ≠ [] := by
  rintro rfl
  cases h

/-- A locator is what is scanned of a text to its end. -/
theorem Locator.ofText_eq_ok_iff : Locator.ofText t = .ok l ↔ scanLocator t = .ok (l, []) := by
  constructor
  · intro h
    obtain ⟨d, rfl, rfl, hd⟩ := exists_derivation_of_ofText h
    exact Derivation.scanLocator_text hd
  · intro h
    rw [Locator.ofText, if_neg (ne_nil_of_scanLocator h), h]
    exact if_pos rfl

end Locator

namespace Locator

variable {t : Text} {l : Locator}

/-- The spelling of a locator is read as the locator. -/
theorem ofText_text (h : Locator.ofText t = .ok l) : Locator.ofText l.text = .ok l := by
  have := scanLocator_text_append (Locator.ofText_eq_ok_iff.1 h)
  rw [List.append_nil] at this
  exact Locator.ofText_eq_ok_iff.2 this

/-- A locator is spelled as it was read but for a number behind a caret. -/
lemma respelled (h : Locator.ofText t = .ok l) : Respelled t l.text := by
  have := Respelled.of_scanLocator (Locator.ofText_eq_ok_iff.1 h)
  rwa [List.append_nil] at this

end Locator

/-! ## Bounds -/

section Bounds

variable {t whole : Text} {b : Bounds}

/-- The spelling of a bound, which is empty if the bound is missing. -/
def boundText (l : Option Locator) : Text := (l.map Locator.text).getD []

/-- The spelling of a bound is read as the bound, whatever the range around it. -/
lemma readBound_boundText {l : Option Locator} (h : readBound whole t = .ok l) (whole' : Text) :
    readBound whole' (boundText l) = .ok l := by
  rcases readBound_eq_ok_iff.1 h with ⟨-, rfl⟩ | ⟨l', hl, rfl⟩
  · exact readBound_eq_ok_iff.2 (.inl ⟨rfl, rfl⟩)
  · exact readBound_eq_ok_iff.2 (.inr ⟨l', l'.ofText_text hl, rfl⟩)

/-- A bound is spelled again as it was, but for the spelling of its number. -/
lemma respelled_of_readBound {l : Option Locator} (h : readBound whole t = .ok l) :
    Respelled t (boundText l) := by
  rcases readBound_eq_ok_iff.1 h with ⟨rfl, rfl⟩ | ⟨l', hl, rfl⟩
  · exact .same []
  · exact l'.respelled hl

/-- Neither does a bound hold two dots nor does it end in one, so that a range is cut right behind
its first bound. -/
lemma dots_of_readBound {l : Option Locator} (h : readBound whole t = .ok l) :
    ¬ ['.', '.'] <:+: t ∧ t.getLast? ≠ some '.' := by
  rcases readBound_eq_ok_iff.1 h with ⟨rfl, -⟩ | ⟨l', hl, -⟩
  · exact ⟨by simp, by simp⟩
  · obtain ⟨d, rfl, -⟩ := exists_derivation_of_ofText hl
    exact ⟨d.undivided.no_dots, d.getLast?_ne_dot⟩

namespace Bounds

/-- What is read as bounds by itself is so on both sides of the separator.

**Proof sketch.** The first side has no two dots next to each other and does not end with one, so
that the cut is between the sides. The second side has no two dots either. -/
theorem ofText_append {before after whole' : Text} {start stop : Option Locator}
    (hstart : readBound whole before = .ok start) (hstop : readBound whole' after = .ok stop) :
    Bounds.ofText (before ++ rangeSeparator ++ after) = .ok ⟨start, stop⟩ := by
  have htext : before ++ rangeSeparator ++ after = before ++ '.' :: '.' :: after := by
    simp [rangeSeparator]
  have hcut : (before ++ '.' :: '.' :: after).cutDots? = some (before, after) :=
    Text.cutDots?_append (dots_of_readBound hstart).1 (dots_of_readBound hstart).2
  have hrange : splitRange (before ++ '.' :: '.' :: after) = .ok (some (before, after)) :=
    splitRange_eq_some_iff.2 ⟨hcut, Text.cutDots?_eq_none_iff.2 (dots_of_readBound hstop).1⟩
  rw [htext]
  -- The range around a bound matters for errors only.
  exact Bounds.ofText_eq_ok_iff.2 ⟨before, after, hrange,
    readBound_eq_ok_iff.2 (readBound_eq_ok_iff.1 hstart),
    readBound_eq_ok_iff.2 (readBound_eq_ok_iff.1 hstop)⟩

/-- The spelling of bounds is read as the bounds. -/
theorem ofText_text (h : Bounds.ofText t = .ok b) : Bounds.ofText b.text = .ok b := by
  obtain ⟨before, after, -, hstart, hstop⟩ := Bounds.ofText_eq_ok_iff.1 h
  exact ofText_append (readBound_boundText hstart b.text) (readBound_boundText hstop b.text)

/-- Bounds are spelled as they were read but for numbers behind carets. -/
lemma respelled (h : Bounds.ofText t = .ok b) : Respelled t b.text := by
  obtain ⟨before, after, hrange, hstart, hstop⟩ := Bounds.ofText_eq_ok_iff.1 h
  have ht : t = before ++ rangeSeparator ++ after := by
    rw [Text.eq_of_cutDots? (splitRange_eq_some_iff.1 hrange).1]
    simp [rangeSeparator]
  rw [ht]
  exact .bounds (respelled_of_readBound hstart) (respelled_of_readBound hstop)

end Bounds

end Bounds

/-! ## Locators with suffixes -/

section PatchLike

variable {t : Text} {p : PatchLike}

/-- A locator with a suffix is what is scanned, with the rest as its suffix.

**Proof sketch.** What is scanned is kept exactly if nothing follows it or what follows is a suffix.
-/
lemma PatchLike.ofText?_eq_some_iff :
    PatchLike.ofText? t = .ok (some p) ↔
      scanLocator t = .ok (p.locator, p.suffix) ∧ (p.suffix = [] ∨ isSuffix p.suffix = true) := by
  unfold PatchLike.ofText?
  cases hs : scanLocator t with
  | error fault => cases fault <;> simp
  | ok q =>
    obtain ⟨l, rest⟩ := q
    simp only [Except.ok.injEq, Prod.mk.injEq]
    split_ifs with hrest
    · constructor
      · intro h
        cases h
        exact ⟨⟨rfl, rfl⟩, hrest⟩
      · rintro ⟨⟨rfl, rfl⟩, -⟩
        rfl
    · constructor
      · intro h
        cases h
      · rintro ⟨⟨rfl, rfl⟩, h⟩
        exact absurd h hrest

/-- The spelling of a locator with a suffix is read as the locator with its suffix. -/
theorem PatchLike.ofText?_text (h : PatchLike.ofText? t = .ok (some p)) :
    PatchLike.ofText? p.text = .ok (some p) := by
  obtain ⟨hs, hsuffix⟩ := PatchLike.ofText?_eq_some_iff.1 h
  exact PatchLike.ofText?_eq_some_iff.2 ⟨scanLocator_text_append hs, hsuffix⟩

end PatchLike

/-! ## Ranges and revisions -/

section Revisions

variable {t : Text}

/-- What a reader reads, it reads again from its spelling, which is the text but for the numbers
behind carets. -/
def ReadsBack {ε α : Type} (read : Text → Except ε α) (spell : α → Text) : Prop :=
  ∀ t a, read t = .ok a → read (spell a) = .ok a ∧ Respelled t (spell a)

/-- The spelling of a locator is read as the locator. -/
theorem Locator.readsBack : ReadsBack Locator.ofText Locator.text :=
  fun _ l h => ⟨l.ofText_text h, l.respelled h⟩

/-- The spelling of bounds is read as the bounds. -/
theorem Bounds.readsBack : ReadsBack Bounds.ofText Bounds.text :=
  fun _ b h => ⟨b.ofText_text h, b.respelled h⟩

/-- The spelling of a range is read as the range. -/
theorem Range.readsBack : ReadsBack Range.ofText Range.text := by
  intro t r h
  cases r with
  | single l =>
    obtain ⟨hread, hspelled⟩ := Locator.readsBack t l (Range.ofText_eq_single_iff.1 h)
    exact ⟨Range.ofText_eq_single_iff.2 hread, hspelled⟩
  | between b =>
    obtain ⟨hread, hspelled⟩ := Bounds.readsBack t b (Range.ofText_eq_between_iff.1 h)
    exact ⟨Range.ofText_eq_between_iff.2 hread, hspelled⟩

/-- A text without a branch is spelled as it was read, or it is surely a locator, as are the
other texts that are read as the same locator.

**Proof sketch.** The cases are those of the definition: what git may understand is kept as it is.
-/
lemma Revision.text_of_ofUnqualified {r : Revision} (h : Revision.ofUnqualified t = .ok r) :
    r.text = t ∨ ∃ p, PatchLike.ofText? t = .ok (some p) ∧ r = .patch p ∧
      ∀ t', PatchLike.ofText? t' = .ok (some p) → Revision.ofUnqualified t' = .ok (.patch p) := by
  obtain ⟨found, hp, h⟩ := bind_eq_ok_iff.1 h
  cases found with
  | none =>
    cases h
    exact .inl rfl
  | some p =>
    cases hanchor : p.locator.anchor with
    | name n =>
      simp only [hanchor] at h
      cases h
      exact .inl rfl
    | _ =>
      simp only [hanchor] at h
      cases h
      refine .inr ⟨p, hp, rfl, fun t' h => ?_⟩
      simp [Revision.ofUnqualified, h, hanchor, bind, Except.bind, pure, Except.pure]

/-- A locator with a suffix is spelled as it was read but for a number behind a caret. -/
lemma PatchLike.respelled {p : PatchLike} (h : PatchLike.ofText? t = .ok (some p)) :
    Respelled t p.text :=
  Respelled.of_scanLocator (PatchLike.ofText?_eq_some_iff.1 h).1

/-- The spelling of a locator with a suffix is cut at two dots only if the text was. -/
lemma PatchLike.cutDots?_text {p : PatchLike} (h : PatchLike.ofText? t = .ok (some p))
    (hcut : t.cutDots? = none) : p.text.cutDots? = none :=
  Text.cutDots?_eq_none_iff.2 (no_dots_of_scanLocator (PatchLike.ofText?_eq_some_iff.1 h).1
    (Text.cutDots?_eq_none_iff.1 hcut))

/-- The spelling of a revision is read as the revision.

**Proof sketch.** A revision behind a branch has the same branch and a locator that is spelled
again. Without a branch it is the text itself, or surely a locator, whose spelling gets no branch by
a new number. -/
theorem Revision.readsBack : ReadsBack Revision.ofText Revision.text := by
  intro t r h
  obtain ⟨-, hcut, hform⟩ := Revision.ofText_eq_ok_iff.1 h
  rcases hform with ⟨branch, rest, p, hbranch, hp, rfl⟩ | ⟨hbranch, hr⟩
  · obtain ⟨hname, rfl⟩ := eq_of_splitBranch? hbranch
    have hrest := p.cutDots?_text hp ((cutDots?_of_splitBranch? hbranch).1 hcut)
    have hbranch' := splitBranch?_append hname p.text
    refine ⟨Revision.ofText_eq_ok_iff.2 ⟨by simp [Revision.text], ?_, .inl ?_⟩,
      .behindBranch branch hname (p.respelled hp)⟩
    · exact (cutDots?_of_splitBranch? hbranch').2 hrest
    · exact ⟨branch, p.text, p, hbranch', p.ofText?_text hp, rfl⟩
  · rcases Revision.text_of_ofUnqualified hr with ht | ⟨p, hp, rfl, hpatch⟩
    · rw [ht]
      exact ⟨h, .same t⟩
    · have hscan := (PatchLike.ofText?_eq_some_iff.1 hp).1
      refine ⟨Revision.ofText_eq_ok_iff.2 ⟨?_, p.cutDots?_text hp hcut, .inr ⟨?_, ?_⟩⟩,
        p.respelled hp⟩
      · exact ne_nil_of_scanLocator (scanLocator_text_append hscan)
      · exact splitBranch?_of_scanLocator hscan hbranch
      · exact hpatch p.text (p.ofText?_text hp)

/-- The spelling of a revision or range is read as what it spells. -/
theorem RevisionSpec.readsBack : ReadsBack RevisionSpec.ofText RevisionSpec.text := by
  intro t spec h
  rcases RevisionSpec.ofText_cases h with
    ⟨r, hr, rfl⟩ | ⟨b, hb, rfl⟩ | ⟨branch, rest, b, hname, rfl, hb, rfl⟩
  · obtain ⟨hread, hspelled⟩ := Revision.readsBack t r hr
    exact ⟨RevisionSpec.ofText_eq_single_iff.2 hread, hspelled⟩
  · obtain ⟨hread, hspelled⟩ := Bounds.readsBack t b hb
    exact ⟨RevisionSpec.ofText_of_bounds (Range.ofText_eq_between_iff.2 hread), hspelled⟩
  · obtain ⟨hread, hspelled⟩ := Bounds.readsBack rest b hb
    exact ⟨RevisionSpec.ofText_of_bounds_on hname (Range.ofText_eq_between_iff.2 hread),
      .behindBranch branch hname hspelled⟩

/-- **What is read is spelled as it was read**, and is read again from its spelling: locators,
ranges and revisions. The spelling differs from the text in the numbers behind carets at most,
which are spelled in their canonical form; no such number is too long to be written.

Proof sketch. A locator is scanned from the front of a text, and its spelling differs from what
was scanned only in a number. The number is scanned again whatever stands behind it, since that
does not begin with a digit (`scanLocator_text_append`). Bounds neither hold two dots nor end in
one, so that their spelling is cut between them, and what is behind a branch or what is cut at a
colon does not depend on the number. -/
theorem spelling_reads_back :
    ReadsBack Locator.ofText Locator.text ∧ ReadsBack Range.ofText Range.text ∧
    ReadsBack RevisionSpec.ofText RevisionSpec.text ∧
    (∀ t l, Locator.ofText t = .ok l → l.write = .ok l.text) ∧
    ∀ count, ∃ m : Numeral, m.IsCanonical ∧ m.value = count ∧
      (Anchor.belowLast (some count)).text = lastToken ++ m.text := by
  refine ⟨Locator.readsBack, Range.readsBack, RevisionSpec.readsBack,
    fun t l h => write_of_scanLocator (Locator.ofText_eq_ok_iff.1 h), fun count => ?_⟩
  refine ⟨.ofInt count, Numeral.isCanonical_ofInt count, Numeral.value_ofInt count, ?_⟩
  rw [Anchor.text, Numeral.text_ofInt]

example : (Locator.ofText ['^', '-', '0', '0', '~', '0', '1']).map Locator.text =
    .ok ['^', '0', '~', '0', '1'] := by decide

end Revisions

end PatchStack
