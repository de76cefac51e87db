import Mathlib.Tactic.IntervalCases
import PatchStack.Text.Numeral

set_option autoImplicit false

/-!
# Decimals

A number is spelled without zeros in front of other digits, so that its spelling is the shortest of
the texts that spell it. What was read from few enough digits can therefore be written again.

## Main results

* `PatchStack.toDigits_digitsValue` — digits without zeros in front are the decimal of their value.
* `PatchStack.length_toDigits_digitsValue_le` — the decimal of a number is its shortest spelling.
* `PatchStack.Text.writeInt_of_readNat` — a number that was read can be written.
-/

namespace PatchStack

/-- The decimal digits of a number are digits. -/
lemma isDigit_of_mem_toDigits {k : Nat} {c : Char} (h : c ∈ Nat.toDigits 10 k) :
    c.isDigit = true :=
  Nat.isDigit_of_mem_toDigits (by decide) (by decide) h

/-- The decimal digits of a number spell it. -/
lemma digitsValue_toDigits (k : Nat) : Text.digitsValue (Nat.toDigits 10 k) = k := by
  rw [Text.digitsValue, Nat.ofDigitChars_ten_toDigits]

/-- A digit is that of a number below ten. -/
lemma exists_digitChar {c : Char} (h : c.isDigit = true) : ∃ k < 10, c = Nat.digitChar k := by
  obtain ⟨hlow, hhigh⟩ : 48 ≤ c.toNat ∧ c.toNat ≤ 57 := Char.isDigit_iff_toNat.1 h
  refine ⟨c.toNat - 48, by omega, ?_⟩
  rw [← Char.ofNat_toNat c]
  generalize c.toNat = k at hlow hhigh
  interval_cases k <;> decide

/-- The decimal digits of a positive number do not begin with a zero.

**Proof sketch.** By strong induction: a number from ten on has the digits of its tenth in front. -/
lemma head?_toDigits {n : Nat} (h : 0 < n) : (Nat.toDigits 10 n).head? ≠ some '0' := by
  induction n using Nat.strongRecOn with
  | ind n ih =>
    by_cases hlt : n < 10
    · rw [Nat.toDigits_of_lt_base hlt]
      interval_cases n <;> decide
    · have hfront := ih (n / 10) (by omega) (by omega)
      obtain ⟨c, r, hcr⟩ := List.exists_cons_of_ne_nil (Nat.toDigits_ne_nil (n := n / 10) (b := 10))
      rw [hcr] at hfront
      rw [Nat.toDigits_of_base_le (by decide) (Nat.not_lt.1 hlt), hcr]
      simpa using hfront

/-! ## Digits and their decimals -/

/-- Digits behind the decimal of a positive number go on with it.

**Proof sketch.** By induction on the digits: one digit behind the decimal of `n` is the decimal of
ten times `n` and the digit, and this is positive again. -/
lemma toDigits_append_digits {digits : Text} (h : ∀ c ∈ digits, c.isDigit = true) {n : Nat}
    (hn : 0 < n) :
    Nat.toDigits 10 n ++ digits = Nat.toDigits 10 (Nat.ofDigitChars 10 digits n) := by
  induction digits generalizing n with
  | nil => rw [List.append_nil, Nat.ofDigitChars_nil]
  | cons c digits ih =>
    obtain ⟨hc, hdigits⟩ := List.forall_mem_cons.1 h
    obtain ⟨k, hk, rfl⟩ := exists_digitChar hc
    rw [Nat.ofDigitChars_cons_digitChar_of_lt_ten hk, ← ih hdigits (by omega),
      ← Nat.toDigits_append_toDigits (by decide) hn hk, Nat.toDigits_of_lt_base hk,
      List.append_assoc]
    rfl

/-- Digits are the decimal of their value if no zero stands in front of others. -/
lemma toDigits_digitsValue {c : Char} {digits : Text} (h : ∀ d ∈ c :: digits, d.isDigit = true)
    (hc : c = '0' → digits = []) :
    Nat.toDigits 10 (Text.digitsValue (c :: digits)) = c :: digits := by
  obtain ⟨hdigit, hdigits⟩ := List.forall_mem_cons.1 h
  obtain ⟨k, hk, rfl⟩ := exists_digitChar hdigit
  have hfirst : Nat.toDigits 10 k = [Nat.digitChar k] := Nat.toDigits_of_lt_base hk
  rw [Text.digitsValue, Nat.ofDigitChars_cons_digitChar_of_lt_ten hk, Nat.mul_zero, Nat.zero_add]
  rcases Nat.eq_zero_or_pos k with rfl | hpos
  · rw [hc rfl, Nat.ofDigitChars_nil, hfirst]
  · rw [← toDigits_append_digits hdigits hpos, hfirst]
    rfl

/-- No text of digits is shorter than the decimal of its value.

**Proof sketch.** By induction on the text, whose front is a zero that changes nothing or begins the
decimal. -/
lemma length_toDigits_digitsValue_le {digits : Text} (h : ∀ c ∈ digits, c.isDigit = true)
    (hne : digits ≠ []) : (Nat.toDigits 10 (Text.digitsValue digits)).length ≤ digits.length := by
  induction digits with
  | nil => exact absurd rfl hne
  | cons c digits ih =>
    by_cases hdrop : c = '0' ∧ digits ≠ []
    · obtain ⟨rfl, hmore⟩ := hdrop
      have hvalue : Text.digitsValue ('0' :: digits) = Text.digitsValue digits := rfl
      rw [hvalue]
      exact (ih (fun d hd => h d (List.mem_cons_of_mem _ hd)) hmore).trans (Nat.le_succ _)
    · rw [toDigits_digitsValue h fun hzero => by_contra fun hmore => hdrop ⟨hzero, hmore⟩]

/-! ## Reading and writing -/

namespace Text

/-- A minus sign is not counted among the digits. -/
lemma digitCount_neg (n : Int) : digitCount (-n) = digitCount n := by
  rw [digitCount, digitCount, Int.natAbs_neg]

/-- A number has few enough digits exactly if it is small enough. -/
lemma digitCount_le_iff {n : Int} : digitCount n ≤ digitLimit ↔ n.natAbs < 10 ^ digitLimit :=
  Nat.length_toDigits_le_iff (by decide) (by decide)

/-- The value of few enough digits has few enough itself. -/
lemma digitCount_digitsValue_le {digits : Text} (hd : ∀ c ∈ digits, c.isDigit = true)
    (h : digits.length ≤ digitLimit) : digitCount (digitsValue digits) ≤ digitLimit := by
  rcases eq_or_ne digits [] with rfl | hne
  · exact (by decide : digitCount (digitsValue []) ≤ digitLimit)
  · exact (length_toDigits_digitsValue_le hd hne).trans h

/-- A number that was read from digits can be written. -/
theorem writeInt_of_readNat {digits : Text} {n : Nat} (hd : ∀ c ∈ digits, c.isDigit = true)
    (h : readNat digits = .ok n) : writeInt n = .ok (ofInt n) := by
  obtain ⟨hlength, rfl⟩ := readNat_eq_ok_iff.1 h
  exact writeInt_eq_ok_iff.2 ⟨digitCount_digitsValue_le hd hlength, rfl⟩

end Text

end PatchStack
