import PatchStack.Proofs.LocatorGrammar
import PatchStack.Proofs.StackOrder
import PatchStack.Revision.Parser

set_option autoImplicit false

/-!
# Colons and dots

A revision is cut at its first colon and a range at two dots. Neither locators nor branches
hold any of the two, so that a text that is put together from them is cut where it was put
together.

## Main definitions

* `PatchStack.Undivided` — a text without a colon and without two dots in a row.

## Main results

* `PatchStack.Text.cutDots?_append` — a text is cut at the first two dots.
* `PatchStack.Derivation.undivided`, `PatchStack.undivided_of_isBranchName` — locators and
  branches are undivided.
* `PatchStack.splitBranch?_append`, `PatchStack.eq_of_splitBranch?` — the branch of a qualified
  text is found, and what is found is a branch.
-/

namespace PatchStack

/-! ## Undivided texts -/

/-- No dots are found exactly if there are none next to each other.

**Proof sketch.** By the recursion of the search. Two dots begin the text, or they are in its rest.
-/
theorem Text.cutDots?_eq_none_iff {t : Text} :
    t.cutDots? = none ↔ ¬ ['.', '.'] <:+: t := by
  fun_induction Text.cutDots? t with
  | case1 => simp
  | case2 rest =>
    simp only [reduceCtorEq, false_iff, not_not]
    exact ⟨[], rest, rfl⟩
  | case3 c rest hne ih =>
    have hfront : ¬ ['.', '.'] <+: c :: rest := by
      rintro ⟨u, hu⟩
      simp only [List.cons_append, List.nil_append, List.cons.injEq] at hu
      obtain ⟨rfl, rfl⟩ := hu
      exact hne u rfl rfl
    rw [Option.map_eq_none_iff, ih, List.infix_cons_iff]
    simp only [hfront, false_or]

/-- No two dots come together around another character. -/
lemma no_dots_append_cons {a b : Text} {c : Char} (ha : ¬ ['.', '.'] <:+: a)
    (hb : ¬ ['.', '.'] <:+: b) (hc : c ≠ '.') : ¬ ['.', '.'] <:+: a ++ c :: b := by
  intro h
  rcases pair_infix_append_iff.1 h with h | h | ⟨-, h⟩
  · exact ha h
  · rcases List.infix_cons_iff.1 h with h | h
    · exact hc (pair_prefix_cons_iff.1 h).1.symm
    · exact hb h
  · exact hc (by simpa using h)

/-- What stands before two dots matters to whether there are two only if it has a dot itself. -/
lemma dots_infix_append_iff {a b : Text} (ha : '.' ∉ a) :
    ['.', '.'] <:+: a ++ b ↔ ['.', '.'] <:+: b := by
  rw [pair_infix_append_iff]
  constructor
  · rintro (h | h | ⟨h, -⟩)
    · exact absurd (h.subset List.mem_cons_self) ha
    · exact h
    · exact absurd (List.mem_of_getLast? h) ha
  · exact fun h => .inr (.inl h)

/-- A text is cut at the first two dots, which are not those at the end of what precedes them.

**Proof sketch.** By induction on what precedes the dots. Its first character does not begin two
dots, neither in it nor with the dots behind it. -/
theorem Text.cutDots?_append {a b : Text} (ha : ¬ ['.', '.'] <:+: a)
    (hl : a.getLast? ≠ some '.') : Text.cutDots? (a ++ '.' :: '.' :: b) = some (a, b) := by
  induction a with
  | nil => rfl
  | cons c a ih =>
    have hne : ∀ r, c = '.' → a ++ '.' :: '.' :: b = '.' :: r → False := by
      rintro r rfl hr
      cases a with
      | nil => exact hl rfl
      | cons d a =>
        obtain rfl : d = '.' := (List.cons.inj hr).1
        exact ha ⟨[], a, rfl⟩
    have hrest : Text.cutDots? (a ++ '.' :: '.' :: b) = some (a, b) := by
      refine ih (fun h => ha (h.trans (List.suffix_cons c a).isInfix)) ?_
      cases a with
      | nil => simp
      | cons d a => simpa [List.getLast?_cons_cons] using hl
    rw [List.cons_append, Text.cutDots?.eq_3 _ _ hne, hrest]
    rfl

/-- A text that is cut neither as a revision with a branch nor as a range. -/
structure Undivided (t : Text) : Prop where
  /-- There is no colon. -/
  no_colon : ':' ∉ t
  /-- There are no two dots in a row. -/
  no_dots : ¬ ['.', '.'] <:+: t

instance (t : Text) : Decidable (Undivided t) :=
  decidable_of_iff (':' ∉ t ∧ t.cutDots? = none)
    ⟨fun h => ⟨h.1, Text.cutDots?_eq_none_iff.1 h.2⟩,
      fun h => ⟨h.no_colon, Text.cutDots?_eq_none_iff.2 h.no_dots⟩⟩

namespace Undivided

/-- A text without colons and dots is undivided. -/
lemma of_forall_mem {t : Text} (h : ∀ c ∈ t, c ≠ ':' ∧ c ≠ '.') : Undivided t := by
  refine ⟨fun hc => (h ':' hc).1 rfl, fun hd => ?_⟩
  exact (h '.' (hd.subset (by simp))).2 rfl

/-- Two undivided texts stay undivided with a character between them that is neither a colon nor
a dot. -/
lemma append_cons {a b : Text} {c : Char} (ha : Undivided a) (hb : Undivided b) (hcolon : c ≠ ':')
    (hdot : c ≠ '.') : Undivided (a ++ c :: b) := by
  refine ⟨?_, no_dots_append_cons ha.no_dots hb.no_dots hdot⟩
  simp only [List.mem_append, List.mem_cons, not_or]
  exact ⟨ha.no_colon, hcolon.symm, hb.no_colon⟩

/-- An undivided text stays so with a text behind it that has neither colons nor dots. -/
lemma append {a b : Text} (ha : Undivided a) (hb : ∀ c ∈ b, c ≠ ':' ∧ c ≠ '.') :
    Undivided (a ++ b) := by
  cases b with
  | nil => rwa [List.append_nil]
  | cons c b =>
    obtain ⟨hcolon, hdot⟩ := hb c (by simp)
    exact ha.append_cons (of_forall_mem fun d hd => hb d (by simp [hd])) hcolon hdot

end Undivided

/-! ## Locators -/

/-- A name is undivided. -/
lemma PatchName.undivided (n : PatchName) : Undivided n.text :=
  ⟨n.not_mem_of_isReservedChar (by decide), n.rules.no_dots⟩

/-- A digit is neither a colon nor a dot. -/
lemma ne_of_isDigit {c : Char} (h : c.isDigit = true) : c ≠ ':' ∧ c ≠ '.' := by
  constructor
  · rintro rfl; exact absurd h (by decide)
  · rintro rfl; exact absurd h (by decide)

/-- An offset chain has neither colons nor dots. -/
lemma OffsetChain.ne_of_mem (o : OffsetChain) {c : Char} (h : c ∈ o.text) : c ≠ ':' ∧ c ≠ '.' := by
  have hoff := o.isChain.all c h
  rcases Bool.or_eq_true_iff.1 hoff with hsign | hdigit
  · obtain ⟨d, rfl⟩ := exists_sign_of_isSign hsign
    cases d <;> decide
  · exact ne_of_isDigit hdigit

/-- A number has neither colons nor dots. -/
lemma Numeral.ne_of_mem (m : Numeral) {c : Char} (h : c ∈ m.text) : c ≠ ':' ∧ c ≠ '.' := by
  have hd := m.all_isDigit c
  unfold Numeral.text at h
  split_ifs at h
  · rcases List.mem_cons.1 h with rfl | h
    · decide
    · exact ne_of_isDigit (hd h)
  · exact ne_of_isDigit (hd h)

/-- The text of a locator is undivided.

**Proof sketch.** One case for each form: what its anchor is spelled with has no separator, and
neither has a chain. -/
theorem Derivation.undivided (d : Derivation) : Undivided d.text := by
  suffices h : Undivided d.anchorText from h.append fun c hc => d.offsets.ne_of_mem hc
  cases d with
  | base o => exact (by decide : Undivided baseToken)
  | top o => exact (by decide : Undivided topToken)
  | last count o =>
    apply Undivided.append (by decide : Undivided lastToken)
    intro c hc
    cases count with
    | none => cases hc
    | some m => exact m.ne_of_mem hc
  | unanchored o hne => exact (by decide : Undivided [])
  | name n hn o ho => exact n.undivided

/-- No locator ends in a dot.

**Proof sketch.** The chain at the end has no dot, so that it is left to look at the anchor, form by
form. -/
lemma Derivation.getLast?_ne_dot (d : Derivation) : d.text.getLast? ≠ some '.' := by
  have happend {a b : Text} (ha : a.getLast? ≠ some '.') (hb : ∀ c ∈ b, c ≠ ':' ∧ c ≠ '.') :
      (a ++ b).getLast? ≠ some '.' := by
    intro h
    rcases List.eq_nil_or_concat b with rfl | ⟨b, c, rfl⟩
    · rw [List.append_nil] at h
      exact ha h
    · rw [List.concat_eq_append, ← List.append_assoc, List.getLast?_concat] at h
      exact (hb c (by simp)).2 (Option.some.inj h)
  suffices h : d.anchorText.getLast? ≠ some '.' from happend h fun c hc => d.offsets.ne_of_mem hc
  cases d with
  | base o => exact (by decide : baseToken.getLast? ≠ some '.')
  | top o => exact (by decide : topToken.getLast? ≠ some '.')
  | last count o =>
    apply happend (by decide : lastToken.getLast? ≠ some '.')
    intro c hc
    cases count with
    | none => cases hc
    | some m => exact m.ne_of_mem hc
  | unanchored o hne => exact (by decide : ([] : Text).getLast? ≠ some '.')
  | name n hn o ho => exact n.rules.getLast_ne_dot

/-- What is read as a locator is undivided. -/
lemma undivided_of_ofText {t : Text} {l : Locator} (h : Locator.ofText t = .ok l) :
    Undivided t := by
  obtain ⟨d, rfl, -⟩ := exists_derivation_of_ofText h
  exact d.undivided

/-! ## Branches -/

/-- Names with slashes between them are undivided.

**Proof sketch.** By induction on the parts. Each part is a name, and a slash is neither a dot nor a
colon. -/
lemma undivided_intercalate {parts : List Text}
    (h : ∀ p ∈ parts, PatchName.isValid p = true) : Undivided (['/'].intercalate parts) := by
  induction parts with
  | nil => exact (by decide : Undivided [])
  | cons p parts ih =>
    have hp : Undivided p :=
      PatchName.undivided ⟨p, by simpa [PatchName.isValid] using h p (by simp)⟩
    cases parts with
    | nil => rwa [List.intercalate_singleton]
    | cons q parts =>
      have hrest := ih fun p' hp' => h p' (by simp [hp'])
      rw [List.intercalate_cons_cons, List.append_assoc]
      exact hp.append_cons hrest (by decide) (by decide)

/-- A branch is undivided.

**Proof sketch.** A branch left before is a number in braces behind an at sign. Any other branch is
names with slashes between them. -/
theorem undivided_of_isBranchName {t : Text} (h : isBranchName t = true) : Undivided t := by
  rcases Bool.or_eq_true_iff.1 h with h | h
  · -- A branch left before: digits stand between the front and the closing brace.
    simp only [isPreviousBranch, isPreviousBranch.isDigits, Bool.and_eq_true,
      List.isPrefixOf_iff_prefix, beq_iff_eq, List.all_eq_true] at h
    obtain ⟨⟨⟨r, rfl⟩, hlast⟩, -, hdigits⟩ := h
    apply Undivided.append (by decide : Undivided ['@', '{', '-'])
    intro c hc
    have hne : r ≠ [] := List.ne_nil_of_mem hc
    rw [List.getLast?_append_of_ne_nil _ hne, List.getLast?_eq_some_getLast hne] at hlast
    rw [← List.dropLast_append_getLast hne, List.mem_append, List.mem_singleton] at hc
    rcases hc with hc | rfl
    · exact ne_of_isDigit (hdigits c hc)
    · rw [Option.some.inj hlast]
      decide
  · have hu := undivided_intercalate (List.all_eq_true.1 h)
    rwa [List.intercalate_splitOn] at hu

/-- Names with slashes between them do not begin with a reserved character.

**Proof sketch.** The first character is that of the first name, which is not empty. -/
lemma head?_intercalate_ne {c : Char} (hc : isReservedChar c = true) {parts : List Text}
    (h : ∀ p ∈ parts, PatchName.isValid p = true) :
    (['/'].intercalate parts).head? ≠ some c := by
  cases parts with
  | nil => simp
  | cons p parts =>
    let n : PatchName := ⟨p, by simpa [PatchName.isValid] using h p (by simp)⟩
    obtain ⟨d, r, hp⟩ : ∃ d r, p = d :: r := List.exists_cons_of_ne_nil n.rules.nonempty
    obtain ⟨behind, hfront⟩ : ∃ behind, ['/'].intercalate (p :: parts) = p ++ behind := by
      cases parts with
      | nil => exact ⟨[], by rw [List.intercalate_singleton, List.append_nil]⟩
      | cons q parts =>
        exact ⟨_, by rw [List.intercalate_cons_cons, List.append_assoc]⟩
    rw [hfront, hp, List.cons_append, List.head?_cons, ne_eq, Option.some.injEq]
    rintro rfl
    exact n.not_mem_of_isReservedChar hc (by rw [show n.text = d :: r from hp]; simp)

/-- No branch begins with a caret. -/
lemma head?_ne_caret_of_isBranchName {t : Text} (h : isBranchName t = true) :
    t.head? ≠ some '^' := by
  rcases Bool.or_eq_true_iff.1 h with h | h
  · simp only [isPreviousBranch, Bool.and_eq_true, List.isPrefixOf_iff_prefix] at h
    obtain ⟨⟨⟨r, rfl⟩, -⟩, -⟩ := h
    simp
  · have hhead := head?_intercalate_ne (c := '^') (by decide) (List.all_eq_true.1 h)
    rwa [List.intercalate_splitOn] at hhead

/-- The branch of a qualified text is what stands before the first colon. -/
theorem splitBranch?_append {branch : Text} (h : isBranchName branch = true) (rest : Text) :
    splitBranch? (branch ++ ':' :: rest) = some (branch, rest) := by
  have hcut : (branch ++ ':' :: rest).cut? ':' = some (branch, rest) :=
    Text.cut?_eq_some_iff.2 ⟨(undivided_of_isBranchName h).no_colon, rfl⟩
  rw [splitBranch?, hcut]
  simp only [h, if_true]

/-- What is split at a colon is a branch and what stands behind the colon. -/
theorem eq_of_splitBranch? {t branch rest : Text} (h : splitBranch? t = some (branch, rest)) :
    isBranchName branch = true ∧ t = branch ++ ':' :: rest := by
  unfold splitBranch? at h
  split at h
  · rename_i front behind hcut
    split_ifs at h with hb
    cases h
    exact ⟨hb, (Text.cut?_eq_some_iff.1 hcut).2⟩
  · cases h

/-- A text without a colon has no branch. -/
lemma splitBranch?_eq_none {t : Text} (h : ':' ∉ t) : splitBranch? t = none := by
  rw [splitBranch?, Text.cut?_eq_none_iff.2 h]

/-- A text that begins with a caret has no branch.

**Proof sketch.** The name of a branch does not begin with a caret, and an empty text is no such
name. -/
lemma splitBranch?_caret (t : Text) : splitBranch? ('^' :: t) = none := by
  cases h : splitBranch? ('^' :: t) with
  | none => rfl
  | some p =>
    obtain ⟨hb, ht⟩ := eq_of_splitBranch? h
    have hhead := head?_ne_caret_of_isBranchName hb
    cases hp : p.1 with
    | nil =>
      rw [hp] at ht
      cases ht
    | cons c branch =>
      rw [hp, List.cons_append] at ht
      obtain rfl := (List.cons.inj ht).1
      exact absurd (by rw [hp]; rfl) hhead

end PatchStack
