import PatchStack.Proofs.NameScan

set_option autoImplicit false

/-!
# The grammar of locators

A locator is one of five forms, each of which ends in an offset chain. A derivation is a value
that can only be built along the grammar; its text is what is derived, and its locator is what
the text means. The scanner, which tries one token after the other and looks ahead, accepts
the texts of derivations and no others, and no text has two derivations. Only where the number of a
derivation has too many digits there is neither a locator nor an error of syntax: the reading
breaks down.

## Main definitions

* `PatchStack.Numeral` — a signed decimal number as it is spelled.
* `PatchStack.BeginsLikeToken` — does a text begin like something that is no name?
* `PatchStack.Derivation` — the five forms of a locator.
* `PatchStack.Derivation.fault?` — what is wrong with the number in a derived text.
* `PatchStack.Derivation.overlong` — a derivation whose number has one digit too many.

## Main results

* `PatchStack.exists_derivation_of_scanLocator` — what is scanned has a derivation.
* `PatchStack.Derivation.ofText_text`, `PatchStack.Derivation.ofText_of_fault` — the text of a
  derivation is read as its locator, or breaks down on its number.
* `PatchStack.Derivation.text_injective` — no text has two derivations.
* `PatchStack.Locator.ofText_grammar` — all of it about reading, with what is refused.
-/

namespace PatchStack

/-! ## Chains -/

/-- Nothing follows the longest chain of a text exactly if the text is a chain. -/
lemma afterChain_eq_nil_iff {t : Text} : afterChain t = [] ↔ IsChain t := by
  have h := leadingChain_append_afterChain t
  rw [isChain_iff]
  constructor
  · intro hn
    rwa [hn, List.append_nil] at h
  · intro hl
    rw [hl] at h
    exact List.append_right_eq_self.1 h

/-- A chain is its own leading chain. -/
@[simp]
lemma OffsetChain.leading_text (a : OffsetChain) : OffsetChain.leading a.text = a :=
  OffsetChain.ext (isChain_iff.1 a.isChain)

/-- Nothing follows a chain in its own text. -/
@[simp]
lemma OffsetChain.afterChain_text (a : OffsetChain) : afterChain a.text = [] :=
  afterChain_eq_nil_iff.2 a.isChain

/-- The character that begins a chain is a sign. -/
lemma IsChain.isSign_of_cons {c : Char} {r : Text} (h : IsChain (c :: r)) : isSign c = true := by
  simpa using h.head

/-- A digit does not begin a chain. -/
lemma not_isChain_of_isDigit {c : Char} {r : Text} (hc : c.isDigit = true) :
    ¬ IsChain (c :: r) := by
  intro h
  obtain ⟨d, rfl⟩ := exists_sign_of_isSign h.isSign_of_cons
  rw [isDigit_sign] at hc
  cases hc

/-! ## Numbers -/

/-- A decimal number with an optional minus sign, as it is spelled. -/
structure Numeral where
  /-- Is there a minus sign? -/
  negative : Bool
  /-- The digits. -/
  digits : Text
  /-- There is a digit at least. -/
  nonempty : digits ≠ []
  /-- The digits are ASCII digits. -/
  all_isDigit : ∀ c ∈ digits, c.isDigit = true
  deriving DecidableEq

namespace Numeral

/-- The spelling of the number. -/
def text (m : Numeral) : Text := if m.negative then '-' :: m.digits else m.digits

/-- The number. -/
def value (m : Numeral) : Int :=
  if m.negative then -(Text.digitsValue m.digits : Int) else (Text.digitsValue m.digits : Int)

/-- Reads the number. -/
def read (m : Numeral) : Except NumeralFault Int :=
  (fun n => if m.negative then -(n : Int) else (n : Int)) <$> Text.readNat m.digits

/-- What is wrong with the number, if it has too many digits. -/
def fault? (m : Numeral) : Option NumeralFault :=
  if m.digits.length ≤ digitLimit then none else some (.unreadable m.digits.length)

/-- A number is read if nothing is wrong with it. -/
lemma read_of_fault?_eq_none {m : Numeral} (h : m.fault? = none) : m.read = .ok m.value := by
  obtain ⟨negative, digits, hne, hd⟩ := m
  unfold fault? at h
  split_ifs at h with hlength
  simp only [read, Text.readNat_eq_ok_iff.2 ⟨hlength, rfl⟩]
  rfl

/-- A number with something wrong is not read. -/
lemma read_of_fault?_eq_some {m : Numeral} {fault : NumeralFault} (h : m.fault? = some fault) :
    m.read = .error fault := by
  obtain ⟨negative, digits, hne, hd⟩ := m
  unfold fault? at h
  split_ifs at h with hlength
  cases h
  simp only [read, Text.readNat_eq_error_iff.2 ⟨Nat.not_le.1 hlength, rfl⟩]
  rfl

/-- No number is spelled like another. -/
theorem text_injective : Function.Injective text := by
  have hminus : ∀ m : Numeral, ∀ t : Text, m.digits ≠ '-' :: t := by
    intro m t h
    exact absurd (m.all_isDigit '-' (by simp [h])) (by decide)
  rintro ⟨n₁, d₁, h₁, ha₁⟩ ⟨n₂, d₂, h₂, ha₂⟩ h
  cases n₁ <;> cases n₂ <;> simp only [text, if_true, Bool.false_eq_true, if_false] at h
  · subst h; rfl
  · exact absurd h (hminus ⟨false, d₁, h₁, ha₁⟩ d₂)
  · exact absurd h.symm (hminus ⟨false, d₂, h₂, ha₂⟩ d₁)
  · cases h; rfl

end Numeral

/-- Digits are scanned as far as they go.

**Proof sketch.** What is taken are the digits up to the first other character, and what is left
begins with that one. -/
theorem scanNat?_eq_some_iff {t rest : Text} {x : Except NumeralFault Nat} :
    scanNat? t = some (x, rest) ↔
      ∃ digits : Text, digits ≠ [] ∧ (∀ c ∈ digits, c.isDigit = true) ∧
        (∀ c ∈ rest.head?, c.isDigit = false) ∧ t = digits ++ rest ∧
          x = Text.readNat digits := by
  unfold scanNat?
  constructor
  · intro h
    split_ifs at h with hne
    simp only [Option.some.injEq, Prod.mk.injEq] at h
    obtain ⟨rfl, rfl⟩ := h
    refine ⟨t.takeWhile Char.isDigit, hne, ?_, ?_, (List.takeWhile_append_dropWhile).symm, rfl⟩
    · exact List.all_eq_true.1 List.all_takeWhile
    · intro c hc
      have := List.head?_dropWhile_not Char.isDigit t
      rw [Option.mem_def.1 hc] at this
      simpa using this
  · rintro ⟨digits, hne, hd, hr, rfl, rfl⟩
    have ht : (digits ++ rest).takeWhile Char.isDigit = digits := by
      rw [List.takeWhile_append_of_pos hd]
      cases rest with
      | nil => simp
      | cons c r => simp [hr c rfl]
    have hw : (digits ++ rest).dropWhile Char.isDigit = rest := by
      rw [List.dropWhile_append_of_pos hd]
      cases rest with
      | nil => rfl
      | cons c r => simp [hr c rfl]
    rw [ht, hw, if_neg hne]

/-- A number is scanned with its sign, and as far as its digits go.

**Proof sketch.** The minus sign decides which of the two equations of the scanner applies; a
numeral without one begins with a digit, which is no minus sign. -/
theorem scanInt?_eq_some_iff {t rest : Text} {x : Except NumeralFault Int} :
    scanInt? t = some (x, rest) ↔
      ∃ m : Numeral, (∀ c ∈ rest.head?, c.isDigit = false) ∧ t = m.text ++ rest ∧ x = m.read := by
  constructor
  · intro h
    unfold scanInt? at h
    split at h
    · obtain ⟨⟨v, r⟩, hv, hk⟩ := Option.map_eq_some_iff.1 h
      simp only [Prod.mk.injEq] at hk
      obtain ⟨rfl, rfl⟩ := hk
      obtain ⟨digits, hne, hd, hr, rfl, rfl⟩ := scanNat?_eq_some_iff.1 hv
      exact ⟨⟨true, digits, hne, hd⟩, hr, rfl, rfl⟩
    · obtain ⟨⟨v, r⟩, hv, hk⟩ := Option.map_eq_some_iff.1 h
      simp only [Prod.mk.injEq] at hk
      obtain ⟨rfl, rfl⟩ := hk
      obtain ⟨digits, hne, hd, hr, rfl, rfl⟩ := scanNat?_eq_some_iff.1 hv
      exact ⟨⟨false, digits, hne, hd⟩, hr, rfl, rfl⟩
  · rintro ⟨⟨negative, digits, hne, hd⟩, hr, rfl, rfl⟩
    have hv := scanNat?_eq_some_iff.2 ⟨digits, hne, hd, hr, rfl, rfl⟩
    cases negative with
    | true => exact Option.map_eq_some_iff.2 ⟨_, hv, rfl⟩
    | false =>
      have hminus : ∀ r, digits ++ rest = '-' :: r → False := by
        intro r h
        cases digits with
        | nil => exact hne rfl
        | cons c ds =>
          obtain rfl : c = '-' := by simpa using (List.cons.inj h).1
          exact absurd (hd '-' (by simp)) (by decide)
      simp only [Numeral.text, Bool.false_eq_true, if_false]
      rw [scanInt?.eq_2 _ hminus]
      exact Option.map_eq_some_iff.2 ⟨_, hv, rfl⟩

/-- A chain does not begin with a number.

**Proof sketch.** A number begins with a minus sign or a digit, a chain with one of its own signs.
-/
lemma scanInt?_of_isChain {t : Text} (h : IsChain t) : scanInt? t = none := by
  cases hs : scanInt? t with
  | none => rfl
  | some p =>
    obtain ⟨m, -, rfl, -⟩ := scanInt?_eq_some_iff.1 hs
    obtain ⟨negative, digits, hne, hd⟩ := m
    cases negative with
    | true => exact absurd h.isSign_of_cons (by decide)
    | false =>
      cases digits with
      | nil => exact absurd rfl hne
      | cons c ds => exact absurd h (not_isChain_of_isDigit (hd c (by simp)))

/-! ## The five forms -/

/-- Does the text begin like an offset, like the base, or like the top with an offset behind it?
Such a text is no name for the scanner. -/
def BeginsLikeToken (t : Text) : Prop := ['+'] <+: t ∨ baseToken <+: t ∨ ['@', '+'] <+: t

instance (t : Text) : Decidable (BeginsLikeToken t) := by unfold BeginsLikeToken; infer_instance

/-- A derivation of a locator: one of the five forms. -/
inductive Derivation where
  /-- The base token and a chain. -/
  | base (offsets : OffsetChain)
  /-- The token for the top and a chain. -/
  | top (offsets : OffsetChain)
  /-- The token for the last visible patch, a number if there is one, and a chain. -/
  | last (count : Option Numeral) (offsets : OffsetChain)
  /-- A chain alone. -/
  | unanchored (offsets : OffsetChain) (nonempty : offsets.text ≠ [])
  /-- A name, alone or with a chain that begins downwards: a plus sign would be part of it. -/
  | name (n : PatchName) (begins : ¬ BeginsLikeToken n.text) (offsets : OffsetChain)
      (follows : offsets.text = [] ∨ offsets.text.head? = some '~')

namespace Derivation

/-- The anchor of the derived locator. -/
def anchor : Derivation → Anchor
  | base _ => .base
  | top _ => .top
  | last count _ => .belowLast (count.map Numeral.value)
  | unanchored _ _ => .belowTop none
  | name n _ _ _ => .name n

/-- The offsets of the derived locator. -/
def offsets : Derivation → OffsetChain
  | base o | top o | last _ o | unanchored o _ | name _ _ o _ => o

/-- What the derived text means. -/
def locator (d : Derivation) : Locator := ⟨d.anchor, d.offsets⟩

/-- The spelling of the anchor. -/
def anchorText : Derivation → Text
  | base _ => baseToken
  | top _ => topToken
  | last count _ => lastToken ++ (count.map Numeral.text).getD []
  | unanchored _ _ => []
  | name n _ _ _ => n.text

/-- The derived text. -/
def text (d : Derivation) : Text := d.anchorText ++ d.offsets.text

/-- What is wrong with the number in the derived text, if there is one and it has too many
digits. -/
def fault? : Derivation → Option NumeralFault
  | last count _ => count.bind Numeral.fault?
  | _ => none

end Derivation

/-! ## What is scanned has a derivation -/

/-- What follows a name and begins like a chain begins downwards. -/
lemma EndsName.head?_of_isSign {t : Text} (h : EndsName t) (hs : t.head?.any isSign = true) :
    t.head? = some '~' := by
  cases t with
  | nil => simp at hs
  | cons c r =>
    obtain ⟨d, rfl⟩ := exists_sign_of_isSign (c := c) (by simpa using hs)
    cases d with
    | down => rfl
    | up =>
      have hend : isNameEnd '+' r = true := h
      simp [isNameEnd, isStopChar, Text.isBlank, Text.isControl] at hend

/-- The chain that follows a name is empty or begins downwards.

**Proof sketch.** A sign that ends a name is a tilde, and the chain begins with it. Without a sign
there is no chain. -/
lemma EndsName.leading {t : Text} (h : EndsName t) :
    (OffsetChain.leading t).text = [] ∨ (OffsetChain.leading t).text.head? = some '~' := by
  by_cases hs : t.head?.any isSign = true
  · right
    have ht := h.head?_of_isSign hs
    cases t with
    | nil => simp at ht
    | cons c r =>
      obtain rfl : c = '~' := by simpa using ht
      have hoff : isOffsetChar '~' = true := by decide
      simp [OffsetChain.leading, leadingChain, isSign, hoff]
  · left
    simp only [OffsetChain.leading, leadingChain]
    rw [if_neg hs]

/-- A chain that begins a text with a sign in front is not empty. -/
lemma OffsetChain.leading_ne_nil {c : Char} {r : Text} (h : isSign c = true) :
    (OffsetChain.leading (c :: r)).text ≠ [] := by
  have hoff : isOffsetChar c = true := by simp [isOffsetChar, h]
  simp [OffsetChain.leading, leadingChain, h, hoff]

/-- Behind a caret stands a number with few enough digits, or nothing.

**Proof sketch.** A number is scanned or none, and a number is read only if nothing is wrong with
it. -/
lemma exists_count_of_scanLastAnchor {r behind : Text} {a : Anchor}
    (h : scanLastAnchor r = .ok (a, behind)) :
    ∃ count : Option Numeral, a = .belowLast (count.map Numeral.value) ∧
      r = (count.map Numeral.text).getD [] ++ behind ∧ count.bind Numeral.fault? = none := by
  unfold scanLastAnchor at h
  split at h
  · next x rest hint =>
    obtain ⟨m, -, rfl, rfl⟩ := scanInt?_eq_some_iff.1 hint
    cases hm : m.fault? with
    | none =>
      rw [Numeral.read_of_fault?_eq_none hm] at h
      cases h
      exact ⟨some m, rfl, rfl, hm⟩
    | some fault =>
      rw [Numeral.read_of_fault?_eq_some hm] at h
      cases h
  · cases h
    exact ⟨none, rfl, rfl, rfl⟩

/-- An anchor that is scanned is that of a derivation, with the chain that stands behind it.

**Proof sketch.** The cases are the tokens in the order in which the scanner tries them. Where it
comes to a name, no token begins the text, so that the name begins like none. -/
lemma exists_derivation_of_scanAnchor {t behind : Text} {a : Anchor}
    (h : scanAnchor t = .ok (a, behind)) :
    ∃ d : Derivation, d.anchor = a ∧ d.offsets = OffsetChain.leading behind ∧
      t = d.anchorText ++ behind ∧ d.fault? = none := by
  unfold scanAnchor at h
  split_ifs at h with hbase
  · cases h
    obtain ⟨r, rfl⟩ := List.isPrefixOf_iff_prefix.1 hbase
    exact ⟨.base (.leading _), rfl, rfl, by rw [List.drop_left]; rfl, rfl⟩
  · cases t with
    | nil => cases h
    | cons c r =>
      dsimp only at h
      split_ifs at h with htop hlast hsign
      · cases h
        obtain ⟨rfl, -⟩ := htop
        exact ⟨.top (.leading _), rfl, rfl, rfl, rfl⟩
      · subst hlast
        obtain ⟨count, rfl, rfl, hcount⟩ :=
          exists_count_of_scanLastAnchor (mapError_eq_ok_iff.1 h)
        exact ⟨.last count (.leading behind), rfl, rfl, rfl, hcount⟩
      · cases h
        exact ⟨.unanchored (.leading _) (OffsetChain.leading_ne_nil hsign), rfl, rfl, rfl, rfl⟩
      · obtain ⟨n, rfl, hn, hend⟩ := scanNameAnchor_eq_ok_iff.1 (mapError_eq_ok_iff.1 h)
        have hfront : n.text <+: c :: r := ⟨behind, hn.symm⟩
        refine ⟨.name n ?_ (.leading behind) hend.leading, rfl, rfl, hn, rfl⟩
        rintro (hplus | htoken | hat)
        · obtain rfl : '+' = c := (List.cons_prefix_cons.1 (hplus.trans hfront)).1
          exact hsign (by decide)
        · exact hbase (List.isPrefixOf_iff_prefix.2 (htoken.trans hfront))
        · obtain ⟨rfl, r', rfl⟩ := List.cons_prefix_cons.1 (hat.trans hfront)
          exact htop ⟨rfl, rfl⟩

/-- What is scanned has a derivation, and the rest is left as it is.

**Proof sketch.** The anchor has a derivation without offsets, and the longest chain behind it
becomes its offsets. -/
theorem exists_derivation_of_scanLocator {t rest : Text} {l : Locator}
    (h : scanLocator t = .ok (l, rest)) :
    ∃ d : Derivation, d.locator = l ∧ t = d.text ++ rest ∧ d.fault? = none := by
  unfold scanLocator at h
  split at h
  · next a behind ha =>
    cases h
    obtain ⟨d, rfl, ho, rfl, hd⟩ := exists_derivation_of_scanAnchor ha
    have hsplit := leadingChain_append_afterChain behind
    refine ⟨d, by rw [Derivation.locator, ho], ?_, hd⟩
    rw [Derivation.text, ho, List.append_assoc]
    exact congrArg _ hsplit.symm
  · cases h

/-- Reading what follows a caret breaks down only on a number of too many digits.

**Proof sketch.** Only a number that is scanned can fail to be read, and only for its digits. -/
lemma exists_numeral_of_scanLastAnchor {r : Text} {fault : NumeralFault}
    (h : scanLastAnchor r = .error fault) :
    ∃ (m : Numeral) (rest : Text), (∀ c ∈ rest.head?, c.isDigit = false) ∧
      r = m.text ++ rest ∧ m.fault? = some fault := by
  unfold scanLastAnchor at h
  split at h
  · next x rest hint =>
    obtain ⟨m, hrest, rfl, rfl⟩ := scanInt?_eq_some_iff.1 hint
    refine ⟨m, rest, hrest, rfl, ?_⟩
    cases hm : m.fault? with
    | none =>
      rw [Numeral.read_of_fault?_eq_none hm] at h
      cases h
    | some fault' =>
      rw [Numeral.read_of_fault?_eq_some hm] at h
      cases h
      rfl
  · cases h

/-- Scanning breaks down only on the number behind a caret.

**Proof sketch.** The tokens are tried in their order, and of what they come to only the caret
breaks down. -/
theorem exists_numeral_of_scanLocator {t : Text} {fault : NumeralFault}
    (h : scanLocator t = .error (.numeral fault)) :
    ∃ (m : Numeral) (rest : Text), (∀ c ∈ rest.head?, c.isDigit = false) ∧
      t = lastToken ++ m.text ++ rest ∧ m.fault? = some fault := by
  unfold scanLocator at h
  split at h
  · cases h
  · next fault' ha =>
    cases h
    unfold scanAnchor at ha
    split_ifs at ha
    cases t with
    | nil => cases ha
    | cons c r =>
      dsimp only at ha
      split_ifs at ha with _ hlast
      · subst hlast
        obtain ⟨fault', hr, hfault⟩ := mapError_eq_error_iff.1 ha
        cases hfault
        obtain ⟨m, rest, hrest, rfl, hm⟩ := exists_numeral_of_scanLastAnchor hr
        exact ⟨m, rest, hrest, rfl, hm⟩
      · obtain ⟨_, -, hfault⟩ := mapError_eq_error_iff.1 ha
        cases hfault

/-! ## What is derived is scanned -/

/-- The at sign is a token before nothing, before two dots and before these characters. -/
lemma isTopEnd_iff {t : Text} :
    isTopEnd t = true ↔
      t = [] ∨ ['.', '.'] <+: t ∨ ∃ c ∈ t.head?, c ∈ ['+', '~', '^', ':', '{'] := by
  unfold isTopEnd
  split
  · simp
  · simp
  · rename_i c r hne
    have hdots : ¬ ['.', '.'] <+: c :: r := by
      rintro ⟨u, hu⟩
      simp only [List.cons_append, List.nil_append, List.cons.injEq] at hu
      obtain ⟨rfl, rfl⟩ := hu
      exact hne u rfl rfl
    simp [hdots]

/-- The token for the top may stand before a chain. -/
lemma IsChain.isTopEnd {t : Text} (h : IsChain t) : isTopEnd t = true := by
  rw [isTopEnd_iff]
  cases t with
  | nil => exact .inl rfl
  | cons c r =>
    obtain ⟨d, rfl⟩ := exists_sign_of_isSign h.isSign_of_cons
    exact .inr (.inr ⟨d.sign, rfl, by cases d <;> decide⟩)

/-- A name that begins with an at sign does not begin with the token for the top, unless a plus
sign follows.

**Proof sketch.** The token ends before nothing, before two dots, or before one of five characters.
A name is not the token itself, it has no two dots, no brace behind an at sign, and of the other
characters only the plus sign, which is excluded. -/
lemma PatchName.isTopEnd_eq_false (n : PatchName) {r o : Text} (hn : n.text = '@' :: r)
    (hplus : ¬ ['@', '+'] <+: n.text) : isTopEnd (r ++ o) = false := by
  rw [← Bool.not_eq_true, isTopEnd_iff]
  have hrules := n.rules
  rw [hn] at hrules hplus
  cases r with
  | nil => exact absurd rfl hrules.ne_top
  | cons d r =>
    rintro (h | h | ⟨c, hc, hmem⟩)
    · cases h
    · obtain ⟨rfl, hdot⟩ := List.cons_prefix_cons.1 h
      cases r with
      | nil => exact hrules.getLast_ne_dot rfl
      | cons e r =>
        obtain rfl : '.' = e := (List.cons_prefix_cons.1 hdot).1
        exact hrules.no_dots ⟨['@'], r, rfl⟩
    · obtain rfl : d = c := by simpa using hc
      have hd := (charFault?_eq_none_iff.1 (hrules.chars d (by simp))).2.2
      simp only [List.mem_cons, List.not_mem_nil, or_false] at hmem
      rcases hmem with rfl | rfl | rfl | rfl | rfl
      · exact hplus ⟨r, rfl⟩
      · exact absurd hd (by decide)
      · exact absurd hd (by decide)
      · exact absurd hd (by decide)
      · exact hrules.no_atBrace ⟨[], r, rfl⟩

/-- A text that the base token does not begin stays so with a chain behind it.

**Proof sketch.** Otherwise the token would reach into the chain, and a sign would be one of its
characters. -/
lemma not_baseToken_prefix_append {t o : Text} (ht : ¬ baseToken <+: t) (ho : IsChain o) :
    ¬ baseToken <+: t ++ o := by
  intro hbase
  rcases List.prefix_or_prefix_of_prefix hbase (List.prefix_append t o) with h | ⟨u, hu⟩
  · exact ht h
  · rw [← hu, List.prefix_append_right_inj] at hbase
    cases u with
    | nil => exact ht ⟨[], by rw [← hu, List.append_nil, List.append_nil]⟩
    | cons c u =>
      -- What is left of the token would have to begin with a sign.
      have hc : c ∈ baseToken := by rw [← hu]; simp
      obtain ⟨r, rfl⟩ := hbase
      obtain ⟨d, rfl⟩ := exists_sign_of_isSign (c := c) ho.isSign_of_cons
      exact absurd hc (by cases d <;> decide)

/-- The base token is scanned whatever follows it. -/
lemma scanAnchor_base (r : Text) : scanAnchor (baseToken ++ r) = .ok (.base, r) := by
  have hpre : baseToken.isPrefixOf (baseToken ++ r) = true :=
    List.isPrefixOf_iff_prefix.2 (List.prefix_append _ _)
  simp only [scanAnchor]
  rw [if_pos hpre, List.drop_left]

/-- The at sign is scanned as a token if what follows says so. -/
lemma scanAnchor_top {r : Text} (h : isTopEnd r = true) :
    scanAnchor ('@' :: r) = .ok (.top, r) := by
  simp [scanAnchor, baseToken, h]

/-- A caret is scanned with the number behind it. -/
lemma scanAnchor_caret (r : Text) :
    scanAnchor ('^' :: r) = (scanLastAnchor r).mapError .numeral := by
  simp [scanAnchor, baseToken]

/-- A sign is not scanned: it belongs to the offsets of no anchor. -/
lemma scanAnchor_sign (d : Direction) (r : Text) :
    scanAnchor (d.sign :: r) = .ok (.belowTop none, d.sign :: r) := by
  cases d <;> simp [scanAnchor, baseToken, Direction.sign, isSign]

/-- A text that begins like none of the tokens is scanned for a name. -/
lemma scanAnchor_of_no_token {c : Char} {r : Text} (hbase : ¬ baseToken <+: c :: r)
    (htop : ¬ (c = '@' ∧ isTopEnd r = true)) (hcaret : c ≠ '^') (hsign : isSign c = false) :
    scanAnchor (c :: r) = (scanNameAnchor (c :: r)).mapError .malformed := by
  have hpre : ¬ baseToken.isPrefixOf (c :: r) = true := mt List.isPrefixOf_iff_prefix.1 hbase
  simp only [scanAnchor]
  rw [if_neg hpre, if_neg htop, if_neg hcaret, if_neg (Bool.eq_false_iff.1 hsign)]

/-- A digit does not begin what stands behind the number of a locator. -/
lemma IsChain.head?_not_isDigit {o : Text} (ho : IsChain o) : ∀ c ∈ o.head?, c.isDigit = false := by
  intro c hc
  obtain ⟨r, rfl⟩ := List.head?_eq_some_iff.1 hc
  exact Bool.eq_false_iff.2 fun hdigit => not_isChain_of_isDigit hdigit ho

/-- The number behind a caret is scanned, and the chain behind it is left.

**Proof sketch.** A chain begins neither with a digit nor like a number, so that the number ends in
front of it. -/
lemma scanLastAnchor_append {count : Option Numeral} (hc : count.bind Numeral.fault? = none)
    {o : Text} (ho : IsChain o) :
    scanLastAnchor ((count.map Numeral.text).getD [] ++ o) =
      .ok (.belowLast (count.map Numeral.value), o) := by
  unfold scanLastAnchor
  cases count with
  | none => simp [scanInt?_of_isChain ho]
  | some m =>
    have hint : scanInt? (m.text ++ o) = some (m.read, o) :=
      scanInt?_eq_some_iff.2 ⟨m, ho.head?_not_isDigit, rfl, rfl⟩
    simp only [Option.map_some, Option.getD_some, hint]
    rw [Numeral.read_of_fault?_eq_none hc]
    rfl

/-- A number behind a caret that has too many digits is not read, whatever stands behind it. -/
lemma scanLastAnchor_of_fault {m : Numeral} {fault : NumeralFault} (hm : m.fault? = some fault)
    {rest : Text} (hrest : ∀ c ∈ rest.head?, c.isDigit = false) :
    scanLastAnchor (m.text ++ rest) = .error fault := by
  have hint : scanInt? (m.text ++ rest) = some (m.read, rest) :=
    scanInt?_eq_some_iff.2 ⟨m, hrest, rfl, rfl⟩
  rw [scanLastAnchor, hint, Numeral.read_of_fault?_eq_some hm]
  rfl

/-- Scanning breaks down on such a number. -/
lemma scanLocator_of_fault {m : Numeral} {fault : NumeralFault} (hm : m.fault? = some fault)
    {rest : Text} (hrest : ∀ c ∈ rest.head?, c.isDigit = false) :
    scanLocator (lastToken ++ m.text ++ rest) = .error (.numeral fault) := by
  have hanchor : scanAnchor (lastToken ++ m.text ++ rest) = .error (.numeral fault) := by
    show scanAnchor ('^' :: (m.text ++ rest)) = _
    rw [scanAnchor_caret, scanLastAnchor_of_fault hm hrest]
    rfl
  rw [scanLocator, hanchor]

/-- A name that does not begin like a token is scanned as an anchor, and the chain behind it is
left.

**Proof sketch.** The name does not begin like the base token or the one for the top, and its first
character, which may stand in names, is neither a caret nor a sign. So no token is found, and the
name is scanned as far as it goes. -/
lemma PatchName.scanAnchor_append (n : PatchName) (hn : ¬ BeginsLikeToken n.text) {o : Text}
    (ho : IsChain o) (hends : EndsName o) : scanAnchor (n.text ++ o) = .ok (.name n, o) := by
  have hrules := n.rules
  obtain ⟨hplus, hbase, hat⟩ := not_or.1 hn |>.imp_right not_or.1
  have hpre : ¬ baseToken <+: n.text ++ o := not_baseToken_prefix_append hbase ho
  have hname := scanNameAnchor_eq_ok_iff.2 ⟨n, rfl, rfl, hends⟩
  cases ht : n.text with
  | nil => exact absurd ht hrules.nonempty
  | cons c r =>
    rw [ht] at hpre hname
    have hfault := (charFault?_eq_none_iff.1 (hrules.chars c (by simp [ht]))).2.2
    have htop : ¬ (c = '@' ∧ isTopEnd (r ++ o) = true) := by
      rintro ⟨rfl, h⟩
      rw [n.isTopEnd_eq_false ht hat] at h
      cases h
    have hcaret : c ≠ '^' := by rintro rfl; exact absurd hfault (by decide)
    have hsign : isSign c = false := by
      rw [← Bool.not_eq_true]
      intro h
      obtain ⟨d, rfl⟩ := exists_sign_of_isSign h
      cases d with
      | up => exact hplus (by rw [ht]; exact ⟨r, rfl⟩)
      | down => exact absurd hfault (by decide)
    rw [List.cons_append] at hpre hname ⊢
    rw [scanAnchor_of_no_token hpre htop hcaret hsign, hname]
    rfl

namespace Derivation

/-- The anchor of a derivation is scanned, and its chain is left.

**Proof sketch.** There is one case for each form of a derivation. Only a name takes work: what
stands behind it is nothing or begins downwards, so that the scanner stops there. -/
theorem scanAnchor_text {d : Derivation} (hd : d.fault? = none) :
    scanAnchor d.text = .ok (d.anchor, d.offsets.text) := by
  cases d with
  | base o => exact scanAnchor_base o.text
  | top o => exact scanAnchor_top o.isChain.isTopEnd
  | last count o =>
    show scanAnchor ('^' :: ((count.map Numeral.text).getD [] ++ o.text)) = _
    rw [scanAnchor_caret, scanLastAnchor_append hd o.isChain]
    rfl
  | unanchored o hne =>
    obtain ⟨c, r, ht⟩ := List.exists_cons_of_ne_nil hne
    have hchain := o.isChain
    rw [ht] at hchain
    obtain ⟨d, rfl⟩ := exists_sign_of_isSign hchain.isSign_of_cons
    show scanAnchor o.text = .ok (.belowTop none, o.text)
    rw [ht, scanAnchor_sign]
  | name n hn o ho =>
    have hends : EndsName o.text := by
      rcases ho with ho | ho
      · rw [ho]; trivial
      · obtain ⟨r, hr⟩ := List.head?_eq_some_iff.1 ho
        rw [hr]
        show isNameEnd '~' r = true
        simp [isNameEnd, isStopChar]
    exact n.scanAnchor_append hn o.isChain hends

/-- A derived text is scanned to its end. -/
theorem scanLocator_text {d : Derivation} (hd : d.fault? = none) :
    scanLocator d.text = .ok (d.locator, []) := by
  simp [scanLocator, scanAnchor_text hd, locator]

/-- A derivation with something wrong is one with a number, which has too many digits. -/
lemma exists_numeral_of_fault {d : Derivation} {fault : NumeralFault} (h : d.fault? = some fault) :
    ∃ m o, d = last (some m) o ∧ m.fault? = some fault := by
  cases d with
  | last count o =>
    cases count with
    | none => cases h
    | some m => exact ⟨m, o, rfl, h⟩
  | base | top | unanchored | name => cases h

/-- Scanning a derived text breaks down on its number. -/
theorem scanLocator_of_fault {d : Derivation} {fault : NumeralFault} (h : d.fault? = some fault) :
    scanLocator d.text = .error (.numeral fault) := by
  obtain ⟨m, o, rfl, hm⟩ := exists_numeral_of_fault h
  exact PatchStack.scanLocator_of_fault hm o.isChain.head?_not_isDigit

/-- No derived text is empty. -/
theorem text_ne_nil (d : Derivation) : d.text ≠ [] := by
  cases d with
  | base o => simp [text, anchorText, baseToken]
  | top o => simp [text, anchorText, topToken]
  | last count o => simp [text, anchorText, lastToken]
  | unanchored o hne => simpa [text, anchorText, offsets] using hne
  | name n _ o _ => simp [text, anchorText, n.rules.nonempty]

/-- A derived text is read as its locator. -/
theorem ofText_text {d : Derivation} (hd : d.fault? = none) :
    Locator.ofText d.text = .ok d.locator := by
  simp [Locator.ofText, d.text_ne_nil, scanLocator_text hd]

/-- Reading a derived text breaks down on its number. -/
theorem ofText_of_fault {d : Derivation} {fault : NumeralFault} (h : d.fault? = some fault) :
    Locator.ofText d.text = .error (.numeral fault) := by
  simp [Locator.ofText, d.text_ne_nil, scanLocator_of_fault h, ReadingFault.about]

/-- A number and the chain behind it are told apart by where the digits end. -/
lemma eq_of_append_eq {m m' : Numeral} {o o' : OffsetChain}
    (h : m.text ++ o.text = m'.text ++ o'.text) : m = m' ∧ o = o' := by
  have hscan (m : Numeral) (o : OffsetChain) :
      scanInt? (m.text ++ o.text) = some (m.read, o.text) :=
    scanInt?_eq_some_iff.2 ⟨m, o.isChain.head?_not_isDigit, rfl, rfl⟩
  have hrest := hscan m o
  rw [h, hscan m' o', Option.some.injEq, Prod.mk.injEq] at hrest
  have ho : o = o' := OffsetChain.ext hrest.2.symm
  subst ho
  exact ⟨Numeral.text_injective (List.append_cancel_right h), rfl⟩

/-- No text has two derivations.

**Proof sketch.** The scanner tells the forms and their parts apart. Only the spelling of a number
is not seen in the locator: it is what stands before the chain. -/
theorem text_injective : Function.Injective text := by
  intro d d' h
  have hlast {m m' : Numeral} {o o' : OffsetChain}
      (h : text (last (some m) o) = text (last (some m') o')) :
      last (some m) o = last (some m') o' := by
    have hparts : m.text ++ o.text = m'.text ++ o'.text := by
      simpa [text, anchorText, offsets] using h
    obtain ⟨rfl, rfl⟩ := eq_of_append_eq hparts
    rfl
  cases hd : d.fault? with
  | some fault =>
    obtain ⟨m, o, rfl, -⟩ := exists_numeral_of_fault hd
    cases hd' : d'.fault? with
    | some fault' =>
      obtain ⟨m', o', rfl, -⟩ := exists_numeral_of_fault hd'
      exact hlast h
    | none =>
      have hread := ofText_of_fault hd
      rw [h, ofText_text hd'] at hread
      cases hread
  | none =>
    cases hd' : d'.fault? with
    | some fault' =>
      have hread := ofText_of_fault hd'
      rw [← h, ofText_text hd] at hread
      cases hread
    | none =>
      have hl : d.locator = d'.locator := by
        have := ofText_text hd
        rw [h, ofText_text hd'] at this
        simpa using this.symm
      obtain ⟨ha, ho⟩ := Locator.mk.inj hl
      cases d <;> cases d' <;> simp only [anchor, reduceCtorEq, Anchor.name.injEq] at ha <;>
        simp only [offsets] at ho <;> subst ho
      case last.last count o count' =>
        cases count <;> cases count' <;> simp only [Option.map_none, Option.map_some, reduceCtorEq,
          Anchor.belowLast.injEq] at ha
        · rfl
        · exact hlast h
      all_goals first | rfl | (subst ha; rfl)

end Derivation

/-- What is read as a locator has a derivation, and nothing is wrong with its number.

**Proof sketch.** What is read is scanned up to the end of the text, and what is scanned has a
derivation. -/
theorem exists_derivation_of_ofText {t : Text} {l : Locator} (h : Locator.ofText t = .ok l) :
    ∃ d : Derivation, d.text = t ∧ d.locator = l ∧ d.fault? = none := by
  unfold Locator.ofText at h
  split_ifs at h
  cases hs : scanLocator t with
  | error fault => rw [hs] at h; cases h
  | ok p =>
    obtain ⟨l', rest⟩ := p
    rw [hs] at h
    dsimp only at h
    split_ifs at h with hrest
    cases h
    obtain ⟨d, rfl, rfl, hd⟩ := exists_derivation_of_scanLocator hs
    exact ⟨d, by rw [hrest, List.append_nil], rfl, hd⟩

/-- A text that is refused is reported as it was given.

**Proof sketch.** Every place that refuses a text puts in the text and the kind that it was called
with. -/
theorem Locator.ofText_error {t : Text} {e : SyntaxError}
    (h : Locator.ofText t = .error (.malformed e)) : e.kind = locatorKind ∧ e.text = t := by
  unfold Locator.ofText at h
  split_ifs at h
  · cases h; exact ⟨rfl, rfl⟩
  · split at h
    · split_ifs at h
      cases h
      exact ⟨rfl, rfl⟩
    · next fault _ =>
      cases fault with
      | malformed => cases h; exact ⟨rfl, rfl⟩
      | numeral => cases h

/-- Reading a text as a locator breaks down exactly if it begins with a caret and a number of too
many digits.

**Proof sketch.** What is not empty is scanned, and scanning is what breaks down. A rest that is
left over is malformed instead. -/
theorem Locator.ofText_eq_numeral_iff {t : Text} {fault : NumeralFault} :
    Locator.ofText t = .error (.numeral fault) ↔
      ∃ (m : Numeral) (rest : Text), (∀ c ∈ rest.head?, c.isDigit = false) ∧
        t = lastToken ++ m.text ++ rest ∧ m.fault? = some fault := by
  constructor
  · intro h
    unfold Locator.ofText at h
    split_ifs at h
    · cases h
    split at h
    · split_ifs at h
      cases h
    · next fault' hs =>
      cases fault' with
      | malformed => cases h
      | numeral =>
        cases h
        exact exists_numeral_of_scanLocator hs
  · rintro ⟨m, rest, hrest, rfl, hm⟩
    have hne : lastToken ++ m.text ++ rest ≠ [] := by simp [lastToken]
    rw [Locator.ofText, if_neg hne, scanLocator_of_fault hm hrest]
    rfl

/-- **The grammar of locators.** A text is read as a locator exactly if it has a derivation with a
number of few enough digits, and a derivation of a text is its only one. Reading breaks down exactly
if the text begins with a caret and a number of more digits, and on such a derived text. Any other
text without a derivation is reported as a whole.

**Proof sketch.** What is read was scanned, and what is scanned has a derivation
(`exists_derivation_of_scanLocator`); a derived text is scanned as its locator or breaks down on its
number (`Derivation.ofText_text`, `Derivation.ofText_of_fault`). That there is one derivation only
is `Derivation.text_injective`. A text without a derivation is not read, and what is left to happen
to it are the two errors. -/
theorem Locator.ofText_grammar (t : Text) :
    (∀ l, Locator.ofText t = .ok l ↔
      ∃ d : Derivation, d.text = t ∧ d.locator = l ∧ d.fault? = none) ∧
    (∀ d d' : Derivation, d.text = t → d'.text = t → d = d') ∧
    (∀ fault, Locator.ofText t = .error (.numeral fault) ↔
      ∃ (m : Numeral) (rest : Text), (∀ c ∈ rest.head?, c.isDigit = false) ∧
        t = lastToken ++ m.text ++ rest ∧ m.fault? = some fault) ∧
    (∀ d : Derivation, d.text = t → ∀ fault, d.fault? = some fault →
      Locator.ofText t = .error (.numeral fault)) ∧
    ((∃ fault, Locator.ofText t = .error (.malformed ⟨locatorKind, t, fault⟩)) ↔
      (∀ d : Derivation, d.text ≠ t) ∧ ∀ fault, Locator.ofText t ≠ .error (.numeral fault)) := by
  refine ⟨fun l => ⟨exists_derivation_of_ofText, ?_⟩, ?_,
    fun fault => Locator.ofText_eq_numeral_iff, ?_, ?_, ?_⟩
  · rintro ⟨d, rfl, rfl, hd⟩
    exact Derivation.ofText_text hd
  · rintro d d' h h'
    exact Derivation.text_injective (h.trans h'.symm)
  · rintro d rfl fault hd
    exact Derivation.ofText_of_fault hd
  · rintro ⟨fault, h⟩
    refine ⟨?_, fun fault' h' => ?_⟩
    · rintro d rfl
      cases hd : d.fault? with
      | none =>
        rw [Derivation.ofText_text hd] at h
        cases h
      | some fault' =>
        rw [Derivation.ofText_of_fault hd] at h
        cases h
    · rw [h] at h'
      cases h'
  · rintro ⟨hd, hnumeral⟩
    cases hl : Locator.ofText t with
    | ok l =>
      obtain ⟨d, ht, -⟩ := exists_derivation_of_ofText hl
      exact absurd ht (hd d)
    | error fault =>
      cases fault with
      | malformed e =>
        obtain ⟨hk, ht⟩ := Locator.ofText_error hl
        exact ⟨e.fault, by rw [← hk, ← ht]⟩
      | numeral fault => exact absurd hl (hnumeral fault)

/-! ## Too many digits -/

/-- Zero, spelled with one digit too many. -/
def Numeral.overlongZero (negative : Bool) : Numeral where
  negative := negative
  digits := List.replicate (digitLimit + 1) '0'
  nonempty := List.replicate_succ_ne_nil
  all_isDigit := fun c hc => by
    rw [List.eq_of_mem_replicate hc]
    rfl

/-- The zeros in front are digits too. -/
lemma Numeral.fault?_overlongZero (negative : Bool) :
    (overlongZero negative).fault? = some (.unreadable (digitLimit + 1)) := by
  rw [fault?, overlongZero, List.length_replicate]
  exact if_neg (Nat.not_succ_le_self digitLimit)

/-- The last patch but zero, if that were spelled with one digit less. -/
def Derivation.overlong (negative : Bool) : Derivation :=
  .last (some (.overlongZero negative)) .empty

/-- It is the number that is at fault. -/
lemma Derivation.fault?_overlong (negative : Bool) :
    (overlong negative).fault? = some (.unreadable (digitLimit + 1)) := by
  rw [overlong, fault?, Option.bind_some, Numeral.fault?_overlongZero]

/-- This derived text is neither read as its locator nor malformed. -/
theorem Locator.ofText_overlong :
    Locator.ofText (Derivation.overlong false).text =
      .error (.numeral (.unreadable (digitLimit + 1))) :=
  Derivation.ofText_of_fault (Derivation.fault?_overlong false)

end PatchStack
