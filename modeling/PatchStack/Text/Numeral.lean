import PatchStack.Text.Basic

set_option autoImplicit false

/-!
# Numbers in texts

A number is spelled by its decimal digits, with a minus sign before them if it is negative. It is
read from digits and written in digits up to a limit only: a text of more digits is not read, zeros
in front counted, and a number of more digits is not written. `Text.digitsValue` and `Text.ofInt`
say what digits mean, `Text.readNat` and `Text.writeInt` what is done with them.

## Main definitions

* `PatchStack.digitLimit` — how many digits a number may have.
* `PatchStack.NumeralFault` — why a number is not read or not written.
* `PatchStack.Text.readNat`, `PatchStack.Text.writeInt` — reading and writing.

## Main results

* `PatchStack.Text.readNat_eq_ok_iff`, `PatchStack.Text.writeInt_eq_ok_iff` — when they succeed.
* `PatchStack.Text.writeInt_cases` — a number is written as it is spelled, or not at all.
-/

namespace PatchStack

/-- How many digits a number may have where it is read or written. -/
def digitLimit : Nat := 4300

/-- Why a number is not read or not written. -/
inductive NumeralFault where
  /-- A text of this many digits is too long to be read. -/
  | unreadable (digits : Nat)
  /-- A number has too many digits to be written. -/
  | unwritable
  deriving DecidableEq, Repr

/-- The fault in words. -/
def NumeralFault.message : NumeralFault → String
  | .unreadable digits => "a number of " ++ toString digits ++ " digits is too long to be read"
  | .unwritable => "a number has too many digits to be written"

namespace Text

/-- The decimal spelling of an integer, however many digits it has. -/
def ofInt : Int → Text
  | .ofNat n => Nat.toDigits 10 n
  | .negSucc n => '-' :: Nat.toDigits 10 (n + 1)

/-- The number that ASCII digits spell, however many there are. -/
def digitsValue (digits : Text) : Nat := Nat.ofDigitChars 10 digits 0

/-- Reads the number that ASCII digits spell. -/
def readNat (digits : Text) : Except NumeralFault Nat :=
  if digits.length ≤ digitLimit then .ok (digitsValue digits)
  else .error (.unreadable digits.length)

/-- How many digits an integer is spelled with. -/
def digitCount (n : Int) : Nat := (Nat.toDigits 10 n.natAbs).length

/-- Writes an integer. -/
def writeInt (n : Int) : Except NumeralFault Text :=
  if digitCount n ≤ digitLimit then .ok (ofInt n) else .error .unwritable

/-- A number is read exactly from as many digits as a number may have. -/
theorem readNat_eq_ok_iff {digits : Text} {n : Nat} :
    readNat digits = .ok n ↔ digits.length ≤ digitLimit ∧ digitsValue digits = n := by
  by_cases h : digits.length ≤ digitLimit <;> simp [readNat, h]

/-- Reading fails only with the number of digits, if that is too large. -/
theorem readNat_eq_error_iff {digits : Text} {fault : NumeralFault} :
    readNat digits = .error fault ↔
      digitLimit < digits.length ∧ fault = .unreadable digits.length := by
  by_cases h : digits.length ≤ digitLimit
  · simp [readNat, h, Nat.not_lt.2 h]
  · simp [readNat, h, Nat.not_le.1 h, eq_comm]

/-- A number is written exactly if it has as many digits as a number may have. -/
theorem writeInt_eq_ok_iff {n : Int} {t : Text} :
    writeInt n = .ok t ↔ digitCount n ≤ digitLimit ∧ ofInt n = t := by
  by_cases h : digitCount n ≤ digitLimit <;> simp [writeInt, h]

/-- Writing fails in one way only. -/
theorem writeInt_eq_error_iff {n : Int} {fault : NumeralFault} :
    writeInt n = .error fault ↔ digitLimit < digitCount n ∧ fault = .unwritable := by
  by_cases h : digitCount n ≤ digitLimit
  · simp [writeInt, h, Nat.not_lt.2 h]
  · simp [writeInt, h, Nat.not_le.1 h, eq_comm]

/-- A number is written as it is spelled, or not at all. -/
theorem writeInt_cases (n : Int) :
    writeInt n = .ok (ofInt n) ∨ writeInt n = .error .unwritable := by
  by_cases h : digitCount n ≤ digitLimit
  · exact .inl (writeInt_eq_ok_iff.2 ⟨h, rfl⟩)
  · exact .inr (writeInt_eq_error_iff.2 ⟨Nat.not_le.1 h, rfl⟩)

end Text

end PatchStack
