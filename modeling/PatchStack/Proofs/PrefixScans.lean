import PatchStack.Proofs.ChainEnds
import PatchStack.Proofs.Spelling

set_option autoImplicit false

/-!
# Locators inside a text

A scanner that starts at a position looks one or two characters ahead and at the end of the text.
Nothing of this depends on what stands before the position. What it finds ends with the characters
that it has taken: cut off there, they are the same locator by themselves. So a locator with a
suffix is the only split of its text into a locator and a suffix that goes on with no offset.

## Main definitions

* `PatchStack.Splits` — a split of a text into a locator and a suffix.

## Main results

* `PatchStack.scanLocator_drop` — scanning at a position is scanning what stands behind it.
* `PatchStack.scanLocatorAt_spec` — where a locator that begins at a position ends.
* `PatchStack.Splits.unique` — a text has one split into a locator and a suffix.
* `PatchStack.scan_stable` — all of it about locators inside a text.
-/

namespace PatchStack

variable {t : Text} {position : Nat}

/-! ## Looking ahead -/

/-- A part stands at a position if the rest of the text begins with it. -/
lemma standsAt_iff {part : Text} : standsAt part t position = true ↔ part <+: t.drop position :=
  List.isPrefixOf_iff_prefix

/-- Whether an at sign stays the token for the top depends on what stands behind it.

**Proof sketch.** Both are the same three tests: nothing is left, two dots are next, or one of the
characters is. -/
lemma isTopEndAt_eq (h : position ≤ t.length) :
    isTopEndAt t position = isTopEnd (t.drop position) := by
  have hlength : position = t.length ↔ t.drop position = [] := by
    rw [List.drop_eq_nil_iff]
    omega
  have hhead : t[position]?.any ['+', '~', '^', ':', '{'].contains = true ↔
      ∃ c ∈ (t.drop position).head?, c ∈ ['+', '~', '^', ':', '{'] := by
    rw [List.head?_drop]
    cases t[position]? <;> simp
  rw [Bool.eq_iff_iff, isTopEnd_iff, isTopEndAt, Bool.or_eq_true, Bool.or_eq_true, beq_iff_eq,
    hlength, hhead, standsAt_iff, or_assoc]
  exact or_congr_right or_comm

/-- Two characters stand at a position if they are the one there and the next one. -/
lemma standsAt_pair_iff (h : position < t.length) {a b : Char} :
    standsAt [a, b] t position = true ↔
      t[position] = a ∧ (t.drop (position + 1)).head? = some b := by
  rw [standsAt_iff, List.drop_eq_getElem_cons h, pair_prefix_cons_iff, @eq_comm _ a]

/-- The scanner stops at a position exactly if a name ends there. -/
lemma isNameEnd_drop (h : position < t.length) :
    isNameEnd t[position] (t.drop (position + 1)) = true ↔
      (isStopChar t[position] || Text.isBlank t[position] ||
          Text.isControl t[position]) = true ∨
        (standsAt ['.', '.'] t position || standsAt ['@', '{'] t position) = true := by
  simp only [isNameEnd, Bool.or_eq_true, Bool.and_eq_true, beq_iff_eq, standsAt_pair_iff h,
    or_assoc]

/-- A name is scanned from a position up to where it ends.

**Proof sketch.** By the recursion that looks for the end: at each character both scanners make the
same two tests, and they stop or go on together. -/
theorem scanName_drop (t : Text) (position : Nat) :
    position ≤ nameEnd t position ∧ scanName (t.drop position) =
      (t.extract position (nameEnd t position), t.drop (nameEnd t position)) := by
  fun_induction nameEnd t position with
  | case1 position h hstop =>
    have hend := (isNameEnd_drop h).2 (.inl hstop)
    rw [List.drop_eq_getElem_cons h, scanName, if_pos hend]
    simp
  | case2 position h hstop hpair =>
    have hend := (isNameEnd_drop h).2 (.inr hpair)
    rw [List.drop_eq_getElem_cons h, scanName, if_pos hend]
    simp
  | case3 position h hstop hpair ih =>
    obtain ⟨hle, hscan⟩ := ih
    have hend := mt (isNameEnd_drop h).1 (not_or.2 ⟨hstop, hpair⟩)
    have hlength : nameEnd t (position + 1) - position =
        nameEnd t (position + 1) - (position + 1) + 1 := by omega
    refine ⟨by omega, ?_⟩
    rw [List.drop_eq_getElem_cons h, scanName, if_neg hend, hscan]
    simp only [List.extract_eq_take_drop, List.drop_eq_getElem_cons h, hlength, List.take_succ_cons]
  | case4 position h =>
    have hnil : t.drop position = [] := List.drop_eq_nil_iff.2 (by omega)
    simp [hnil, scanName]

/-- A name ends within its text. -/
lemma nameEnd_le (h : position ≤ t.length) : nameEnd t position ≤ t.length := by
  fun_induction nameEnd t position with
  | case1 => exact h
  | case2 => exact h
  | case3 position hlt hstop hpair ih => exact ih hlt
  | case4 => exact h

/-! ## Anchors -/

/-- What is found at a position, with what stands behind it in place of the position after it. -/
def restAt {α : Type} (t : Text) (found : α × Nat) : α × Text := (found.1, t.drop found.2)

/-- The name at a position is that of the text behind it. -/
lemma scanNameAnchor_drop (t : Text) (position : Nat) :
    scanNameAnchor (t.drop position) = (scanNameAnchorAt t position).map (restAt t) := by
  rw [scanNameAnchor, scanNameAnchorAt, (scanName_drop t position).2]
  dsimp only
  split
  · rfl
  · cases PatchName.ofText (t.extract position (nameEnd t position)) <;> rfl

/-- The count behind a caret is taken as far as it goes.

**Proof sketch.** The number that is scanned in the rest of the text is scanned at the position, and
what is left behind it ends the text. -/
lemma scanLastAnchor_drop (t : Text) (position : Nat) :
    scanLastAnchor (t.drop position) = (scanLastAnchorAt t position).map (restAt t) := by
  rw [scanLastAnchor, scanLastAnchorAt]
  cases hint : scanInt? (t.drop position) with
  | none => rfl
  | some p =>
    obtain ⟨count, rest⟩ := p
    obtain ⟨m, -, ht, -⟩ := scanInt?_eq_some_iff.1 hint
    have hsuffix : rest <:+ t := (List.suffix_append m.text rest).trans (ht ▸ List.drop_suffix _ _)
    have hrest : t.drop (t.length - rest.length) = rest :=
      (List.suffix_iff_eq_drop.1 hsuffix).symm
    cases count with
    | error fault => rfl
    | ok k => exact congrArg (fun r => Except.ok (Anchor.belowLast (some k), r)) hrest.symm

/-- It ends within the text. -/
lemma le_of_scanLastAnchorAt (h : position ≤ t.length) {anchor : Anchor} {start : Nat}
    (hs : scanLastAnchorAt t position = .ok (anchor, start)) : start ≤ t.length := by
  rw [scanLastAnchorAt] at hs
  split at hs
  · obtain ⟨k, -, hk⟩ := map_eq_ok_iff.1 hs
    cases hk
    exact Nat.sub_le _ _
  · cases hs
    exact h

/-- The tests for tokens at a position inside the text, one after the other.

**Proof sketch.** A token of one character stands at the position exactly if it is the character
there. -/
lemma scanAnchorAt_of_lt (h : position < t.length) :
    scanAnchorAt t position =
      if standsAt baseToken t position then .ok (.base, position + baseToken.length)
      else if t[position] = '@' ∧ isTopEnd (t.drop (position + 1)) then .ok (.top, position + 1)
      else if t[position] = '^' then (scanLastAnchorAt t (position + 1)).mapError .numeral
      else if isSign t[position] then .ok (.belowTop none, position)
      else (scanNameAnchorAt t position).mapError .malformed := by
  have htoken {c : Char} : standsAt [c] t position = true ↔ t[position] = c := by
    rw [standsAt_iff, List.drop_eq_getElem_cons h, List.cons_prefix_cons, eq_comm]
    simp
  have hsign : t[position]?.any isSign = isSign t[position] := by
    rw [List.getElem?_eq_getElem h, Option.any_some]
  simp only [scanAnchorAt, topToken, lastToken, htoken, hsign,
    isTopEndAt_eq (Nat.succ_le_of_lt h)]

/-- Behind the end of the text there is no anchor. -/
lemma scanAnchorAt_of_le (h : t.length ≤ position) :
    scanAnchorAt t position = .error (.malformed .noAnchor) := by
  have hnil : t.drop position = [] := List.drop_eq_nil_iff.2 h
  have hraw : t.extract position (nameEnd t position) = [] := by simp [hnil]
  have hnone : t[position]? = none := List.getElem?_eq_none h
  simp [scanAnchorAt, scanNameAnchorAt, standsAt, hnil, hnone, hraw, baseToken, topToken, lastToken]

/-- **The anchor at a position is that of the text behind it**, and what follows the one follows the
other.

**Proof sketch.** Where there is a character, both scanners make the same tests in the same order,
and each test on the text behind the position is one on the text at the position. At the end of the
text both find nothing. -/
theorem scanAnchor_drop (t : Text) (position : Nat) :
    scanAnchor (t.drop position) = (scanAnchorAt t position).map (restAt t) := by
  by_cases h : position < t.length
  · have htests : scanAnchor (t.drop position) =
        if standsAt baseToken t position then
          .ok (.base, (t.drop position).drop baseToken.length)
        else if t[position] = '@' ∧ isTopEnd (t.drop (position + 1)) then
          .ok (.top, t.drop (position + 1))
        else if t[position] = '^' then
          (scanLastAnchor (t.drop (position + 1))).mapError .numeral
        else if isSign t[position] then .ok (.belowTop none, t.drop position)
        else (scanNameAnchor (t.drop position)).mapError .malformed := by
      rw [standsAt, List.drop_eq_getElem_cons h]
      rfl
    rw [htests, scanAnchorAt_of_lt h]
    split_ifs
    · rw [List.drop_drop]
      rfl
    · rfl
    · rw [scanLastAnchor_drop, mapError_map]
    · rfl
    · rw [scanNameAnchor_drop, mapError_map]
  · have hle : t.length ≤ position := by omega
    rw [scanAnchorAt_of_le hle, List.drop_eq_nil_iff.2 hle]
    rfl

/-- An anchor ends within the text.

**Proof sketch.** There is one case for each token. A token that stands in the text ends within it,
and so does a name. -/
lemma le_of_scanAnchorAt {anchor : Anchor} {start : Nat}
    (h : scanAnchorAt t position = .ok (anchor, start)) : start ≤ t.length := by
  by_cases hp : position < t.length
  · rw [scanAnchorAt_of_lt hp] at h
    split_ifs at h with hbase
    · have hlength := (standsAt_iff.1 hbase).length_le
      rw [List.length_drop] at hlength
      cases h
      omega
    · cases h
      omega
    · exact le_of_scanLastAnchorAt (Nat.succ_le_of_lt hp) (mapError_eq_ok_iff.1 h)
    · cases h
      omega
    · replace h := mapError_eq_ok_iff.1 h
      rw [scanNameAnchorAt] at h
      split_ifs at h
      split at h
      · cases h
        exact nameEnd_le hp.le
      · cases h
  · rw [scanAnchorAt_of_le (by omega)] at h
    cases h

/-! ## Locators -/

/-- The characters of the longest chain from a position on are read as that chain. -/
lemma ofText_extract_chainEnd (t : Text) (start : Nat) :
    OffsetChain.ofText (t.extract start (chainEnd t start)) =
      .ok (OffsetChain.leading (t.drop start)) := by
  rw [OffsetChain.ofText_eq_ok_iff, extract_chainEnd]
  rfl

/-- What is wrong, without the text around it. -/
def ReadingFault.cause : ReadingFault SyntaxError → ReadingFault SyntaxFault
  | .malformed e => .malformed e.fault
  | .numeral fault => .numeral fault

/-- What is wrong stays so as an error about a text. -/
lemma ReadingFault.cause_about (kind : String) (t : Text) (f : ReadingFault SyntaxFault) :
    (f.about kind t).cause = f := by
  cases f <;> rfl

/-- **The locator at a position is that of the text behind it.** What follows the one follows the
other, and where there is none, it is for the same fault. -/
theorem scanLocator_drop (kind : String) (t : Text) (position : Nat) :
    scanLocator (t.drop position) =
      ((scanLocatorAt kind t position).map (restAt t)).mapError ReadingFault.cause := by
  rw [scanLocator, scanLocatorAt, scanAnchor_drop]
  cases scanAnchorAt t position with
  | error fault => exact congrArg Except.error (fault.cause_about kind t).symm
  | ok found =>
    obtain ⟨anchor, start⟩ := found
    simp only [Except.map, restAt, ofText_extract_chainEnd, ← drop_chainEnd]
    rfl

/-- A scan that fails is reported with the whole text and what was being read. -/
lemma eq_of_scanLocatorAt_error {kind : String} {f : ReadingFault SyntaxError}
    (h : scanLocatorAt kind t position = .error f) : f = f.cause.about kind t := by
  rw [scanLocatorAt] at h
  split at h
  · next anchor start ha =>
    rw [ofText_extract_chainEnd] at h
    cases h
  · next fault ha =>
    cases h
    rw [ReadingFault.cause_about]

section Locators

variable {kind : String} {l : Locator} {stop : Nat}

/-- A locator ends within the text. -/
lemma le_of_scanLocatorAt (h : scanLocatorAt kind t position = .ok (l, stop)) :
    stop ≤ t.length := by
  rw [scanLocatorAt] at h
  split at h
  · next anchor start ha =>
    split at h
    · cases h
      exact chainEnd_le (le_of_scanAnchorAt ha)
    · cases h
  · cases h

/-- What is found at a position is told from what stands behind it alone.

**Proof sketch.** Both scanners find the same locator, and leave texts of which one is dropped from
the other. Two positions within the text that leave the same text are the same. -/
theorem scanLocatorAt_eq_ok_iff :
    scanLocatorAt kind t position = .ok (l, stop) ↔
      stop ≤ t.length ∧ scanLocator (t.drop position) = .ok (l, t.drop stop) := by
  rw [scanLocator_drop kind]
  constructor
  · intro h
    rw [h]
    exact ⟨le_of_scanLocatorAt h, rfl⟩
  · rintro ⟨hle, h⟩
    cases hs : scanLocatorAt kind t position with
    | error e => rw [hs] at h; cases h
    | ok found =>
      obtain ⟨l', stop'⟩ := found
      have hle' := le_of_scanLocatorAt hs
      rw [hs] at h
      have hfound : (l', t.drop stop') = (l, t.drop stop) := Except.ok.inj h
      obtain ⟨rfl, hdrop⟩ := Prod.mk.inj hfound
      have hlength := congrArg List.length hdrop
      rw [List.length_drop, List.length_drop] at hlength
      obtain rfl : stop' = stop := by omega
      rfl

/-- Where none is found at a position, there is none in what stands behind it, for the same
reason.

**Proof sketch.** What is scanned at a position is what is scanned in the rest of the text. An error
about the whole text keeps its cause and nothing else of the rest. -/
theorem scanLocatorAt_eq_error_iff {f : ReadingFault SyntaxFault} :
    scanLocatorAt kind t position = .error (f.about kind t) ↔
      scanLocator (t.drop position) = .error f := by
  rw [scanLocator_drop kind]
  cases hs : scanLocatorAt kind t position with
  | ok found => simp [Except.map]
  | error f' =>
    show Except.error f' = _ ↔ Except.error f'.cause = _
    rw [Except.error.injEq, Except.error.injEq]
    constructor
    · rintro rfl
      exact f.cause_about kind t
    · rintro rfl
      exact eq_of_scanLocatorAt_error hs

/-- **A locator that is found at a position ends behind it and within the text**, is read by itself
from the characters between the two, and is found at the front of what stands behind the
position.

**Proof sketch.** What is scanned is the text of a derivation with the rest behind it, so that it
has the characters between both positions, which are at least one, and is read by itself. -/
theorem scanLocatorAt_spec (h : scanLocatorAt kind t position = .ok (l, stop)) :
    position < stop ∧ stop ≤ t.length ∧ Locator.ofText (t.extract position stop) = .ok l ∧
      scanLocatorAt kind (t.drop position) 0 = .ok (l, stop - position) := by
  obtain ⟨hle, hscan⟩ := scanLocatorAt_eq_ok_iff.1 h
  obtain ⟨d, rfl, ht, hd⟩ := exists_derivation_of_scanLocator hscan
  have hlength := congrArg List.length ht
  rw [List.length_append, List.length_drop, List.length_drop] at hlength
  have hpos : 0 < d.text.length := List.length_pos_iff.2 d.text_ne_nil
  have hlt : position < stop := by omega
  have hstop : position + (stop - position) = stop := by omega
  have htext : t.extract position stop = d.text := by
    rw [List.extract_eq_take_drop, ht, List.take_left' (by omega)]
  refine ⟨hlt, hle, ?_, ?_⟩
  · rw [htext]
    exact Derivation.ofText_text hd
  · rw [scanLocatorAt_eq_ok_iff, List.length_drop, List.drop_zero, List.drop_drop, hstop]
    exact ⟨by omega, hscan⟩

end Locators

/-! ## Locators with suffixes -/

/-- A suffix begins with a caret, with a tilde or with a brace behind an at sign.

**Proof sketch.** Any other character, and an at sign without a brace, ends the test at once. -/
lemma head_of_isSuffix {v : Text} (h : isSuffix v = true) :
    v.head? = some '^' ∨ v.head? = some '~' ∨ ['@', '{'] <+: v := by
  cases v with
  | nil => cases h
  | cons c r =>
    by_cases hcaret : c = '^'
    · exact .inl (by rw [hcaret]; rfl)
    by_cases htilde : c = '~'
    · exact .inr (.inl (by rw [htilde]; rfl))
    by_cases hat : c = '@'
    · subst hat
      cases r with
      | nil => cases h
      | cons d r =>
        by_cases hbrace : d = '{'
        · subst hbrace
          exact .inr (.inr ⟨r, rfl⟩)
        · have hfail : isSuffix ('@' :: d :: r) = false := by
            simp [isSuffix, isSuffixFrom, SuffixState.next?, SuffixState.begin?, hbrace]
          rw [hfail] at h
          cases h
    · have hfail : isSuffix (c :: r) = false := by
        simp [isSuffix, isSuffixFrom, SuffixState.next?, SuffixState.begin?, hcaret, htilde, hat]
      rw [hfail] at h
      cases h

/-- Chains hold signs and digits only. -/
lemma OffsetChain.notMem (o : OffsetChain) {c : Char} (hc : isOffsetChar c = false) :
    c ∉ o.text := by
  intro h
  rw [o.isChain.all c h] at hc
  cases hc

/-- Numbers hold digits only, behind a minus sign or not. -/
lemma Numeral.notMem (m : Numeral) {c : Char} (hc : c.isDigit = false) (hminus : c ≠ '-') :
    c ∉ m.text := by
  have hdigits : c ∉ m.digits := by
    intro h
    rw [m.all_isDigit c h] at hc
    cases hc
  rw [Numeral.text]
  split
  · simp [hminus, hdigits]
  · exact hdigits

namespace Derivation

/-- Nothing but the first character of a locator is a caret.

**Proof sketch.** There is one case for each form. Neither chains nor numbers nor names have a
caret. -/
lemma caret_notMem_tail (d : Derivation) : '^' ∉ d.text.tail := by
  have ho : '^' ∉ d.offsets.text := d.offsets.notMem (by decide)
  cases d with
  | base o =>
    show '^' ∉ ['b', 'a', 's', 'e', '}'] ++ o.text
    exact List.not_mem_append (by decide) ho
  | top o => exact ho
  | last count o =>
    show '^' ∉ (count.map Numeral.text).getD [] ++ o.text
    refine List.not_mem_append ?_ ho
    cases count with
    | none => exact List.not_mem_nil
    | some m => exact m.notMem (by decide) (by decide)
  | unanchored o hne => exact fun h => ho (List.mem_of_mem_tail h)
  | name n hn o hfollows =>
    intro h
    exact List.not_mem_append (n.not_mem_of_isReservedChar (by decide)) ho (List.mem_of_mem_tail h)

/-- No locator has an at sign before an opening brace.

**Proof sketch.** The pair would be in the anchor, since chains have no brace. No token has it, and
by the rules no name does. -/
lemma no_atBrace (d : Derivation) : ¬ ['@', '{'] <:+: d.text := by
  intro h
  have hanchor : ['@', '{'] <:+: d.anchorText :=
    pair_infix_of_append (d.offsets.notMem (by decide)) h
  cases d with
  | base o => exact absurd hanchor (by decide : ¬ ['@', '{'] <:+: baseToken)
  | top o => exact absurd hanchor (by decide : ¬ ['@', '{'] <:+: topToken)
  | last count o =>
    have hcaret : '@' ∉ lastToken ++ (count.map Numeral.text).getD [] := by
      refine List.not_mem_append (by decide) ?_
      cases count with
      | none => exact List.not_mem_nil
      | some m => exact m.notMem (by decide) (by decide)
    exact hcaret (hanchor.subset List.mem_cons_self)
  | unanchored o hne => exact absurd hanchor (by decide : ¬ ['@', '{'] <:+: ([] : Text))
  | name n hn o hfollows => exact n.rules.no_atBrace hanchor

/-- No part of a locator behind its beginning goes on as a suffix, unless it is the beginning of an
offset.

**Proof sketch.** A suffix begins with a caret, a tilde, or an at sign before a brace
(`head_of_isSuffix`). In a locator a caret stands in front only, and there is no brace behind an at
sign, not even where the locator ends, for no suffix begins with a brace. -/
lemma eq_nil_of_isSuffix {d : Derivation} {u w v : Text} (hd : d.text = u ++ w) (hu : u ≠ [])
    (hwv : isSuffix (w ++ v) = true) (htilde : (w ++ v).head? ≠ some '~')
    (hv : v = [] ∨ isSuffix v = true) : w = [] := by
  cases w with
  | nil => rfl
  | cons c w =>
    exfalso
    rcases head_of_isSuffix hwv with hcaret | htilde' | hbrace
    · obtain rfl : c = '^' := by simpa using hcaret
      apply d.caret_notMem_tail
      rw [hd, List.tail_append_of_ne_nil hu]
      simp
    · exact htilde htilde'
    · obtain ⟨rfl, hrest⟩ := List.cons_prefix_cons.1 hbrace
      cases w with
      | nil =>
        -- The brace would begin what stands behind the locator, and no suffix begins so.
        obtain ⟨r, hr⟩ := hrest
        have hv' : v = '{' :: r := by simpa using hr.symm
        rcases hv with hnil | hsuffix
        · rw [hnil] at hv'
          cases hv'
        · rw [hv'] at hsuffix
          cases hsuffix
      | cons e w =>
        obtain ⟨rfl, -⟩ := List.cons_prefix_cons.1 hrest
        apply d.no_atBrace
        rw [hd]
        exact ⟨u, w, by simp⟩

end Derivation

/-- The two parts of a text are a locator and a suffix, which is empty or goes on with no offset. -/
structure Splits (t u v : Text) (l : Locator) : Prop where
  /-- Nothing stands between the parts or is left over. -/
  eq : t = u ++ v
  /-- The first part is the locator. -/
  locator : Locator.ofText u = .ok l
  /-- The second part is a suffix, if there is one. -/
  suffix : v = [] ∨ isSuffix v = true
  /-- It goes on with no offset. -/
  no_offset : v.head? ≠ some '+' ∧ v.head? ≠ some '~'

namespace Splits

variable {u v u' v' : Text} {l l' : Locator}

/-- The first part of a split is not longer than that of another one.

**Proof sketch.** Were the first part longer, what it has more would be the beginning of the other
suffix and a part of its own locator. By `Derivation.eq_nil_of_isSuffix` there is no such part. -/
lemma length_le (h : Splits t u v l) (h' : Splits t u' v' l') : u.length ≤ u'.length := by
  by_contra hlt
  have hu : u <+: t := ⟨v, h.eq.symm⟩
  have hu' : u' <+: t := ⟨v', h'.eq.symm⟩
  -- What the first locator has more than the other one would begin the other suffix.
  obtain ⟨w, hw⟩ := List.prefix_of_prefix_length_le hu' hu (by omega)
  have hv' : v' = w ++ v := by
    have heq : u' ++ v' = u' ++ (w ++ v) := by
      rw [← h'.eq, h.eq, ← hw, List.append_assoc]
    exact List.append_cancel_left heq
  obtain ⟨d, hd, -⟩ := exists_derivation_of_ofText h.locator
  obtain ⟨d', hd', -⟩ := exists_derivation_of_ofText h'.locator
  have hne : w ≠ [] := by
    intro hnil
    rw [hnil, List.append_nil] at hw
    rw [hw] at hlt
    omega
  apply hne
  rcases h'.suffix with hnil | hsuffix
  · rw [hv'] at hnil
    exact (List.append_eq_nil_iff.1 hnil).1
  · rw [hv'] at hsuffix
    refine Derivation.eq_nil_of_isSuffix (hd.trans hw.symm) ?_ hsuffix ?_ h.suffix
    · rw [← hd']
      exact d'.text_ne_nil
    · rw [← hv']
      exact h'.no_offset.2

/-- **A text has one split** into a locator and a suffix. -/
theorem unique (h : Splits t u v l) (h' : Splits t u' v' l') : u = u' ∧ v = v' ∧ l = l' := by
  have hlength : u.length = u'.length := Nat.le_antisymm (h.length_le h') (h'.length_le h)
  have heq : u ++ v = u' ++ v' := h.eq.symm.trans h'.eq
  obtain ⟨rfl, rfl⟩ := List.append_inj heq hlength
  have hl : Except.ok l = Except.ok l' := h.locator.symm.trans h'.locator
  exact ⟨rfl, rfl, Except.ok.inj hl⟩

end Splits

/-- What follows a locator that is scanned does not go on with an offset. -/
lemma isSign_of_scanLocator {rest : Text} {l : Locator} (h : scanLocator t = .ok (l, rest))
    {c : Char} (hc : c ∈ rest.head?) : isSign c = false := by
  rw [scanLocator] at h
  split at h
  · cases h
    exact isSign_of_mem_afterChain hc
  · cases h

/-- What is read as a locator with a suffix is split into the two. -/
theorem PatchLike.exists_splits {p : PatchLike} (h : PatchLike.ofText? t = .ok (some p)) :
    ∃ u, Splits t u p.suffix p.locator := by
  obtain ⟨hscan, hsuffix⟩ := PatchLike.ofText?_eq_some_iff.1 h
  obtain ⟨d, hd, ht, hfault⟩ := exists_derivation_of_scanLocator hscan
  have hoffset {c : Char} (hc : isSign c = true) : p.suffix.head? ≠ some c := by
    intro hhead
    rw [isSign_of_scanLocator hscan hhead] at hc
    cases hc
  exact ⟨d.text, ht, hd ▸ Derivation.ofText_text hfault, hsuffix, hoffset (by decide),
    hoffset (by decide)⟩

/-! ## Stability -/

/-- **Locators are scanned in the same way wherever they stand.** A locator that is found at a
position ends behind it and within the text. It is what the characters between the two are read as
by themselves, and what is found at the front if all before the position is cut off. Where there is
none, there is none then either, for the same fault, or because of the same number of too many
digits.

So a text that is read as a locator with a suffix is split into the two where the locator at its
front ends, and there is no other split into a locator and a suffix that goes on with no offset.

**Proof sketch.** The tests of the scanner at a position, those that look ahead among them, come to
the same as the tests on what stands behind the position (`scanLocator_drop`). What is scanned there
is a derivation and a rest, and the text of a derivation is read to its end. A longer locator would
have a character in it that begins a suffix, which is a caret or an at sign before a brace, and
these stand in no locator behind its first character. -/
theorem scan_stable (kind : String) (t : Text) :
    (∀ position l stop, scanLocatorAt kind t position = .ok (l, stop) →
      position < stop ∧ stop ≤ t.length ∧ Locator.ofText (t.extract position stop) = .ok l ∧
        scanLocatorAt kind (t.drop position) 0 = .ok (l, stop - position)) ∧
    (∀ position, (∃ e, scanLocatorAt kind t position = .error e) ↔
      ∃ e, scanLocatorAt kind (t.drop position) 0 = .error e) ∧
    (∀ position fault, scanLocatorAt kind t position = .error (.malformed ⟨kind, t, fault⟩) ↔
      scanLocatorAt kind (t.drop position) 0 =
        .error (.malformed ⟨kind, t.drop position, fault⟩)) ∧
    (∀ position fault, scanLocatorAt kind t position = .error (.numeral fault) ↔
      scanLocatorAt kind (t.drop position) 0 = .error (.numeral fault)) ∧
    ∀ p, PatchLike.ofText? t = .ok (some p) →
      ∃ u, Splits t u p.suffix p.locator ∧ scanLocatorAt kind t 0 = .ok (p.locator, u.length) ∧
        ∀ u' v' l', Splits t u' v' l' → u' = u ∧ v' = p.suffix ∧ l' = p.locator := by
  have hfault (position : Nat) (f : ReadingFault SyntaxFault) :
      scanLocatorAt kind t position = .error (f.about kind t) ↔
        scanLocatorAt kind (t.drop position) 0 = .error (f.about kind (t.drop position)) := by
    rw [scanLocatorAt_eq_error_iff, scanLocatorAt_eq_error_iff, List.drop_zero]
  refine ⟨fun position l stop h => scanLocatorAt_spec h, fun position => ⟨?_, ?_⟩,
    fun position fault => hfault position (.malformed fault),
    fun position fault => hfault position (.numeral fault), ?_⟩
  · rintro ⟨f, h⟩
    rw [eq_of_scanLocatorAt_error h] at h
    exact ⟨_, (hfault position f.cause).1 h⟩
  · rintro ⟨f, h⟩
    rw [eq_of_scanLocatorAt_error h] at h
    exact ⟨_, (hfault position f.cause).2 h⟩
  · intro p h
    obtain ⟨u, hu⟩ := PatchLike.exists_splits h
    have hbehind : t.drop u.length = p.suffix := by rw [hu.eq, List.drop_left]
    refine ⟨u, hu, scanLocatorAt_eq_ok_iff.2 ⟨?_, ?_⟩, fun u' v' l' h' => h'.unique hu⟩
    · rw [hu.eq, List.length_append]
      omega
    · rw [hbehind]
      exact (PatchLike.ofText?_eq_some_iff.1 h).1

end PatchStack
