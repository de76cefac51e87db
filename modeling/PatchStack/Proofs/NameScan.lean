import Mathlib.Data.List.Basic
import Mathlib.Tactic.Common
import PatchStack.Locator.Parser

set_option autoImplicit false

/-!
# Names as the scanner sees them

The rules of naming are written twice: once for a whole text, in the order in which faults are
reported, and once for the scanner, which looks at one character and the one after it. This
file states the rules of a whole text as a structure and says where the scanner stops: the front
that it takes keeps the rules for characters and for pairs of characters, also with the next
character behind it. So it takes a name as a whole and stops right behind it.

## Main definitions

* `PatchStack.NameRules` — the rules of naming, without an order.
* `PatchStack.isCountChar` — is the character a digit or a plus sign?
* `PatchStack.EndsName` — what can follow a name: nothing, or a character that ends it.
* `PatchStack.IsNameSplit` — a place of a text where a name can end.

## Main results

* `PatchStack.pair_infix_append_iff` — where a pair of characters lies in a concatenation.
* `PatchStack.nameFault?_eq_none_iff` — no fault is found exactly if the rules are kept.
* `PatchStack.NameRules.append_of_isCountChar` — digits and plus signs behind a name are part of it.
* `PatchStack.isNameSplit_scanName`, `PatchStack.IsNameSplit.scanName_eq` — the scanner stops where
  a name can end, and there is one such place.
* `PatchStack.PatchName.scanName_text_append` — a name is passed by the scanner.
* `PatchStack.scanName_name_append` — a name before anything that ends it is scanned as it is.
* `PatchStack.scanNameAnchor_eq_ok_iff` — what the scanner accepts as a name.
-/

namespace PatchStack

/-! ## Pairs of characters -/

/-- A pair begins a text if its characters are the first one and the next one. -/
lemma pair_prefix_cons_iff {a b c : Char} {t : Text} :
    [a, b] <+: c :: t ↔ a = c ∧ t.head? = some b := by
  rw [List.cons_prefix_cons]
  cases t with
  | nil => simp
  | cons d t => simp [eq_comm]

/-- A pair in a concatenation lies in one of the two parts or on both sides of the seam.

**Proof sketch.** By induction on the first part, whose first character may begin the pair. -/
theorem pair_infix_append_iff {a b : Char} {t w : Text} :
    [a, b] <:+: t ++ w ↔
      [a, b] <:+: t ∨ [a, b] <:+: w ∨ t.getLast? = some a ∧ w.head? = some b := by
  induction t with
  | nil => simp
  | cons c t ih =>
    have hfront : [a, b] <+: c :: (t ++ w) ↔
        [a, b] <+: c :: t ∨ t = [] ∧ a = c ∧ w.head? = some b := by
      rw [pair_prefix_cons_iff, pair_prefix_cons_iff]
      cases t <;> simp
    have hlast : (c :: t).getLast? = some a ↔ t.getLast? = some a ∨ t = [] ∧ a = c := by
      cases t with
      | nil => simp [eq_comm]
      | cons d t => simp
    rw [List.cons_append, List.infix_cons_iff, List.infix_cons_iff, ih, hfront, hlast]
    simp only [or_and_right, and_assoc, or_assoc, or_left_comm, or_comm]

/-! ## The rules of naming -/

/-- The rules that a text has to keep to be a name. -/
structure NameRules (t : Text) : Prop where
  /-- There is a text at all. -/
  nonempty : t ≠ []
  /-- It is not the token for the top. -/
  ne_top : t ≠ topToken
  /-- It is not the token for the base. -/
  ne_base : t ≠ baseToken
  /-- It has no slash. -/
  no_slash : '/' ∉ t
  /-- None of its characters is a fault by itself. -/
  chars : ∀ c ∈ t, charFault? c = none
  /-- It has no two dots in a row. -/
  no_dots : ¬ ['.', '.'] <:+: t
  /-- It has no at sign before an opening brace. -/
  no_atBrace : ¬ ['@', '{'] <:+: t
  /-- It does not begin with a dot. -/
  head_ne_dot : t.head? ≠ some '.'
  /-- It does not end with a dot. -/
  getLast_ne_dot : t.getLast? ≠ some '.'
  /-- It does not end like a lock file. -/
  no_lock : ¬ ['.', 'l', 'o', 'c', 'k'] <:+ t

/-- A test that reports a fault finds none if it fails and nothing is found behind it. -/
lemma ite_some_eq_none_iff {p : Prop} [Decidable p] {fault : NameFault} {later : Option NameFault} :
    (if p then some fault else later) = none ↔ ¬ p ∧ later = none := by
  by_cases h : p <;> simp [h]

/-- No fault is found in a text exactly if it keeps the rules.

**Proof sketch.** Each rule is one test, and none of them finds a fault if all are kept. -/
theorem nameFault?_eq_none_iff {t : Text} : nameFault? t = none ↔ NameRules t := by
  have hdots : t.includes ['.', '.'] = true ↔ ['.', '.'] <:+: t := Text.includes_iff
  have hbrace : t.includes ['@', '{'] = true ↔ ['@', '{'] <:+: t := Text.includes_iff
  have hlock : ['.', 'l', 'o', 'c', 'k'].isSuffixOf t = true ↔ ['.', 'l', 'o', 'c', 'k'] <:+ t :=
    List.isSuffixOf_iff_suffix
  unfold nameFault?
  cases hchars : t.findSome? charFault? with
  | some fault =>
    simp only [ite_some_eq_none_iff, reduceCtorEq, and_false, false_iff]
    intro h
    rw [List.findSome?_eq_none_iff.2 h.chars] at hchars
    cases hchars
  | none =>
    simp only [ite_some_eq_none_iff, hdots, hbrace, hlock, not_or, and_true]
    constructor
    · rintro ⟨hne, ⟨htop, hbase⟩, hslash, hdots, hbrace, hhead, hlast, hlock⟩
      exact ⟨hne, htop, hbase, hslash, List.findSome?_eq_none_iff.1 hchars, hdots, hbrace, hhead,
        hlast, hlock⟩
    · intro h
      exact ⟨h.nonempty, ⟨h.ne_top, h.ne_base⟩, h.no_slash, h.no_dots, h.no_atBrace, h.head_ne_dot,
        h.getLast_ne_dot, h.no_lock⟩

/-- A name keeps the rules. -/
theorem PatchName.rules (n : PatchName) : NameRules n.text := nameFault?_eq_none_iff.1 n.valid

/-- A character is no fault exactly if it is no control character, no blank and not reserved. -/
theorem charFault?_eq_none_iff {c : Char} :
    charFault? c = none ↔
      Text.isControl c = false ∧ Text.isBlank c = false ∧ isReservedChar c = false := by
  unfold charFault?
  split_ifs <;> simp_all

/-- A character is forbidden in names for one of three reasons. -/
lemma charFault?_ne_none_iff {c : Char} :
    charFault? c ≠ none ↔
      Text.isControl c = true ∨ Text.isBlank c = true ∨ isReservedChar c = true := by
  rw [ne_eq, charFault?_eq_none_iff, not_and_or, not_and_or, Bool.not_eq_false, Bool.not_eq_false,
    Bool.not_eq_false]

/-- A reserved character stands in no name. -/
lemma PatchName.not_mem_of_isReservedChar (n : PatchName) {c : Char}
    (hc : isReservedChar c = true) : c ∉ n.text := by
  intro h
  have := (charFault?_eq_none_iff.1 (n.rules.chars c h)).2.2
  rw [hc] at this
  cases this

/-! ## Digits and plus signs in names -/

/-- Is the character a digit or a plus sign? These can stand anywhere in a name. -/
def isCountChar (c : Char) : Bool := c == '+' || c.isDigit

/-- A digit or a plus sign is no fault by itself.

**Proof sketch.** The codes of digits are neither those of blanks nor those of control characters,
and of the reserved characters none is a digit. -/
lemma charFault?_of_isCountChar {c : Char} (h : isCountChar c = true) : charFault? c = none := by
  rcases Bool.or_eq_true_iff.1 h with hplus | hdigit
  · obtain rfl : c = '+' := by simpa using hplus
    decide
  · obtain ⟨hlow, hhigh⟩ := Char.isDigit_iff_toNat.1 hdigit
    have hlow : 48 ≤ c.toNat := hlow
    have hhigh : c.toNat ≤ 57 := hhigh
    refine charFault?_eq_none_iff.2 ⟨?_, ?_, ?_⟩
    · simp only [Text.isControl, Bool.or_eq_false_iff, decide_eq_false_iff_not,
        beq_eq_false_iff_ne]
      omega
    · simp [Text.isBlank]
      omega
    · rw [← Bool.not_eq_true]
      intro hreserved
      have hmem : c ∈ ['~', '^', ':', '?', '*', '[', '\\'] := by
        simpa [isReservedChar] using hreserved
      simp only [List.mem_cons, List.not_mem_nil, or_false] at hmem
      rcases hmem with rfl | rfl | rfl | rfl | rfl | rfl | rfl <;> exact absurd hdigit (by decide)

/-- A digit or a plus sign is none of the characters that the rules for pairs, beginnings and ends
are about. -/
lemma not_isCountChar_of_mem {c : Char} (h : c ∈ ['/', '.', '@', '{', '}', 'k']) :
    isCountChar c = false := by
  simp only [List.mem_cons, List.not_mem_nil, or_false] at h
  rcases h with rfl | rfl | rfl | rfl | rfl | rfl <;> decide

/-- A pair whose second character does not occur behind a text occurs in the text. -/
lemma pair_infix_of_append {a b : Char} {t w : Text} (hb : b ∉ w) (h : [a, b] <:+: t ++ w) :
    [a, b] <:+: t := by
  rcases pair_infix_append_iff.1 h with h | h | ⟨-, h⟩
  · exact h
  · exact absurd (h.subset (by simp)) hb
  · exact absurd (List.mem_of_head? h) hb

/-- Digits and plus signs are names by themselves, and behind a name they are part of it.

**Proof sketch.** Of the characters in the rules none is a digit or a plus sign. So what ends the
text does not end it wrongly, a forbidden pair would be in the name already, and so would a
forbidden character or a dot in front. -/
theorem NameRules.append_of_isCountChar {t w : Text} (ht : t ≠ [] → NameRules t)
    (hne : t ++ w ≠ []) (hw : ∀ c ∈ w, isCountChar c = true) : NameRules (t ++ w) := by
  by_cases hempty : w = []
  · rw [hempty, List.append_nil] at hne ⊢
    exact ht hne
  have hnot {c : Char} (hc : c ∈ ['/', '.', '@', '{', '}', 'k']) : c ∉ w := fun hcw => by
    have := not_isCountChar_of_mem hc
    rw [hw c hcw] at this
    cases this
  have hlast {c : Char} (hc : c ∈ ['/', '.', '@', '{', '}', 'k']) :
      (t ++ w).getLast? ≠ some c := fun h => by
    rw [List.getLast?_append_of_ne_nil t hempty] at h
    exact hnot hc (List.mem_of_getLast? h)
  have hmem {c : Char} (hc : c ∈ t) : NameRules t := ht (List.ne_nil_of_mem hc)
  refine
    { nonempty := hne
      ne_top := fun h => hlast (c := '@') (by decide) (by rw [h]; rfl)
      ne_base := fun h => hlast (c := '}') (by decide) (by rw [h]; rfl)
      no_slash := fun h => ?_
      chars := fun c hc => ?_
      no_dots := fun h => ?_
      no_atBrace := fun h => ?_
      head_ne_dot := fun h => ?_
      getLast_ne_dot := hlast (by decide)
      no_lock := fun h => ?_ }
  · rcases List.mem_append.1 h with h | h
    · exact (hmem h).no_slash h
    · exact hnot (by decide) h
  · rcases List.mem_append.1 hc with h | h
    · exact (hmem h).chars c h
    · exact charFault?_of_isCountChar (hw c h)
  · have hpair := pair_infix_of_append (hnot (by decide)) h
    exact (hmem (hpair.subset List.mem_cons_self)).no_dots hpair
  · have hpair := pair_infix_of_append (hnot (by decide)) h
    exact (hmem (hpair.subset List.mem_cons_self)).no_atBrace hpair
  · rcases List.mem_append.1 (List.mem_of_head? h) with hdot | hdot
    · rw [List.head?_append_of_ne_nil t (List.ne_nil_of_mem hdot)] at h
      exact (hmem hdot).head_ne_dot h
    · exact hnot (by decide) hdot
  · obtain ⟨r, hr⟩ := h
    refine hlast (c := 'k') (by decide) ?_
    rw [← hr, List.getLast?_append_of_ne_nil r (by simp)]
    rfl

/-! ## What the scanner takes -/

/-- The scanner's list of characters says the same as that of the rules of naming. -/
lemma isStopChar_eq_isReservedChar (c : Char) : isStopChar c = isReservedChar c := rfl

/-- A name ends before a character that is a fault by itself and before the two pairs. -/
theorem isNameEnd_iff {c : Char} {rest : Text} :
    isNameEnd c rest = true ↔
      charFault? c ≠ none ∨ ['.', '.'] <+: c :: rest ∨ ['@', '{'] <+: c :: rest := by
  rw [charFault?_ne_none_iff, ← isStopChar_eq_isReservedChar, pair_prefix_cons_iff,
    pair_prefix_cons_iff]
  simp only [isNameEnd, Bool.or_eq_true, Bool.and_eq_true, beq_iff_eq, @eq_comm _ '.' c,
    @eq_comm _ '@' c, or_assoc, or_left_comm, or_comm]

/-- Can the text follow a name: is it empty, or does a character begin it that ends names? -/
def EndsName : Text → Prop
  | [] => True
  | c :: rest => isNameEnd c rest = true

/-- The front of a text can be scanned as a name and ends there. It keeps the rules for characters
and for pairs of characters, the latter also with the first character behind it. -/
structure IsNameSplit (front rest : Text) : Prop where
  /-- No character is a fault by itself. -/
  chars : ∀ c ∈ front, charFault? c = none
  /-- There are no two dots in a row, the second one behind the front or not. -/
  no_dots : ¬ ['.', '.'] <:+: front ++ rest.take 1
  /-- There is no at sign before an opening brace, which may stand behind the front. -/
  no_atBrace : ¬ ['@', '{'] <:+: front ++ rest.take 1
  /-- What is behind the front ends a name. -/
  ends : EndsName rest

/-- The first character of a concatenation does not depend on what is behind the next one. -/
lemma head?_append_take_one (a b : Text) : (a ++ b.take 1).head? = (a ++ b).head? := by
  cases a <;> simp [List.head?_take]

/-- No name is split off where a name ends. -/
lemma isNameSplit_nil_iff {rest : Text} : IsNameSplit [] rest ↔ EndsName rest := by
  have hshort {a b : Char} : ¬ [a, b] <:+: [] ++ rest.take 1 := by
    intro h
    have hlength := h.length_le
    simp only [List.nil_append, List.length_take, List.length_cons, List.length_nil] at hlength
    omega
  exact ⟨fun h => h.ends, fun h => ⟨by simp, hshort, hshort, h⟩⟩

/-- One more character stands in front of a split if no name ends before it.

**Proof sketch.** A pair in the longer front begins with the new character or lies in the rest. No
name ends before the new character exactly if it is no fault and begins no pair. -/
lemma isNameSplit_cons_iff {c : Char} {front rest : Text} :
    IsNameSplit (c :: front) rest ↔
      isNameEnd c (front ++ rest) = false ∧ IsNameSplit front rest := by
  have hpair {a b : Char} : [a, b] <:+: (c :: front) ++ rest.take 1 ↔
      [a, b] <+: c :: (front ++ rest) ∨ [a, b] <:+: front ++ rest.take 1 := by
    rw [List.cons_append, List.infix_cons_iff, pair_prefix_cons_iff, pair_prefix_cons_iff,
      head?_append_take_one]
  have hend : isNameEnd c (front ++ rest) = false ↔ charFault? c = none ∧
      ¬ ['.', '.'] <+: c :: (front ++ rest) ∧ ¬ ['@', '{'] <+: c :: (front ++ rest) := by
    rw [← Bool.not_eq_true, isNameEnd_iff, not_or, not_or, not_not]
  rw [hend]
  constructor
  · intro h
    obtain ⟨hc, hchars⟩ := List.forall_mem_cons.1 h.chars
    obtain ⟨hdots, hdots'⟩ := not_or.1 (mt hpair.2 h.no_dots)
    obtain ⟨hbrace, hbrace'⟩ := not_or.1 (mt hpair.2 h.no_atBrace)
    exact ⟨⟨hc, hdots, hbrace⟩, ⟨hchars, hdots', hbrace', h.ends⟩⟩
  · rintro ⟨⟨hc, hdots, hbrace⟩, h⟩
    exact ⟨List.forall_mem_cons.2 ⟨hc, h.chars⟩, mt hpair.1 (not_or.2 ⟨hdots, h.no_dots⟩),
      mt hpair.1 (not_or.2 ⟨hbrace, h.no_atBrace⟩), h.ends⟩

/-- What the scanner takes and what it leaves are the whole text. -/
theorem scanName_append (t : Text) : (scanName t).1 ++ (scanName t).2 = t := by
  induction t with
  | nil => rfl
  | cons c rest ih =>
    unfold scanName
    split <;> simp [ih]

/-- The scanner stops where a name can end. -/
theorem isNameSplit_scanName (t : Text) : IsNameSplit (scanName t).1 (scanName t).2 := by
  induction t with
  | nil => exact isNameSplit_nil_iff.2 trivial
  | cons c t ih =>
    rw [scanName]
    split_ifs with hend
    · exact isNameSplit_nil_iff.2 hend
    · refine isNameSplit_cons_iff.2 ⟨?_, ih⟩
      rw [scanName_append]
      exact Bool.not_eq_true _ ▸ hend

/-- Nothing is scanned where a name ends. -/
lemma scanName_of_endsName {t : Text} (h : EndsName t) : scanName t = ([], t) := by
  cases t with
  | nil => rfl
  | cons c rest =>
    have hend : isNameEnd c rest = true := h
    rw [scanName, if_pos hend]

/-- The scanner stops no earlier and no later. -/
theorem IsNameSplit.scanName_eq {front rest : Text} (h : IsNameSplit front rest) :
    scanName (front ++ rest) = (front, rest) := by
  induction front with
  | nil => exact scanName_of_endsName h.ends
  | cons c front ih =>
    obtain ⟨hgo, hsplit⟩ := isNameSplit_cons_iff.1 h
    rw [List.cons_append, scanName, hgo, ih hsplit]
    rfl

/-- The scanner leaves nothing that could go on with a name. -/
theorem endsName_scanName (t : Text) : EndsName (scanName t).2 := (isNameSplit_scanName t).ends

/-- A text that keeps the rules for characters and pairs of characters can stand in front of a
split, unless a pair would come together where the two meet.

**Proof sketch.** A pair that is in the longer text is in one of its parts or where the two meet
(`pair_infix_append_iff`). -/
lemma IsNameSplit.append {t front rest : Text} (hchars : ∀ c ∈ t, charFault? c = none)
    (hdots : ¬ ['.', '.'] <:+: t) (hbrace : ¬ ['@', '{'] <:+: t)
    (hdot : ¬ (t.getLast? = some '.' ∧ (front ++ rest).head? = some '.'))
    (hat : ¬ (t.getLast? = some '@' ∧ (front ++ rest).head? = some '{'))
    (h : IsNameSplit front rest) : IsNameSplit (t ++ front) rest := by
  refine ⟨List.forall_mem_append.2 ⟨hchars, h.chars⟩, fun hpair => ?_, fun hpair => ?_, h.ends⟩
  · rw [List.append_assoc, pair_infix_append_iff, head?_append_take_one] at hpair
    rcases hpair with hpair | hpair | hpair
    · exact hdots hpair
    · exact h.no_dots hpair
    · exact hdot hpair
  · rw [List.append_assoc, pair_infix_append_iff, head?_append_take_one] at hpair
    rcases hpair with hpair | hpair | hpair
    · exact hbrace hpair
    · exact h.no_atBrace hpair
    · exact hat hpair

/-- Do the last character of a name and the first one behind it make up the pair that no name
holds? -/
def PatchName.MeetsBrace (n : PatchName) (rest : Text) : Prop :=
  n.text.getLast? = some '@' ∧ rest.head? = some '{'

/-- A brace does not end a name. -/
lemma PatchName.not_meetsBrace_of_endsName (n : PatchName) {rest : Text} (hr : EndsName rest) :
    ¬ n.MeetsBrace rest := by
  rintro ⟨-, hhead⟩
  obtain ⟨r, rfl⟩ := List.head?_eq_some_iff.1 hhead
  have hend : isNameEnd '{' r = true := hr
  simp [isNameEnd, isStopChar, Text.isBlank, Text.isControl] at hend

/-- **Behind a name the scanner goes on as if it began there**, if no at sign meets a brace. Two
dots cannot come together where the two meet, since no name ends with one. -/
theorem PatchName.scanName_text_append (n : PatchName) {rest : Text} (h : ¬ n.MeetsBrace rest) :
    scanName (n.text ++ rest) = (n.text ++ (scanName rest).1, (scanName rest).2) := by
  have hrest := scanName_append rest
  have hsplit : IsNameSplit (n.text ++ (scanName rest).1) (scanName rest).2 := by
    refine (isNameSplit_scanName rest).append n.rules.chars n.rules.no_dots n.rules.no_atBrace
      (fun hdot => n.rules.getLast_ne_dot hdot.1) ?_
    rw [hrest]
    exact h
  have hscan := hsplit.scanName_eq
  rwa [List.append_assoc, hrest] at hscan

/-- A name before anything that ends it is scanned as it is. -/
theorem scanName_name_append (n : PatchName) {rest : Text} (hr : EndsName rest) :
    scanName (n.text ++ rest) = (n.text, rest) := by
  rw [n.scanName_text_append (n.not_meetsBrace_of_endsName hr), scanName_of_endsName hr,
    List.append_nil]

/-- The scanner accepts a name at the front of a text, followed by what ends it, and nothing
else.

**Proof sketch.** What is scanned is a name or refused. A name is scanned as far as it goes before
what ends names (`scanName_name_append`). -/
theorem scanNameAnchor_eq_ok_iff {t rest : Text} {a : Anchor} :
    scanNameAnchor t = .ok (a, rest) ↔
      ∃ n : PatchName, a = .name n ∧ t = n.text ++ rest ∧ EndsName rest := by
  constructor
  · intro h
    unfold scanNameAnchor at h
    split_ifs at h with hne
    split at h
    · rename_i n hn
      simp only [Except.ok.injEq, Prod.mk.injEq] at h
      obtain ⟨rfl, rfl⟩ := h
      refine ⟨n, rfl, ?_, endsName_scanName t⟩
      rw [PatchName.ofText_eq_ok_iff.1 hn, scanName_append]
    · cases h
  · rintro ⟨n, rfl, rfl, hr⟩
    unfold scanNameAnchor
    rw [scanName_name_append n hr, if_neg n.rules.nonempty, PatchName.ofText_eq_ok_iff.2 rfl]

end PatchStack
