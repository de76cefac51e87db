import PatchStack.Text.Basic

set_option autoImplicit false

/-!
# Binary numbers of double precision

A finite number of this format is an integer of at most fifty-three bits times a power of two.
Decimal numbers are rounded to the nearest one, and of two equally near ones to that with the
even integer; all of it in exact arithmetic.

## Main definitions

* `PatchStack.Binary64` — the numbers of the format.
* `PatchStack.Binary64.ofDecimal` — the number nearest to a decimal one.
* `PatchStack.Binary64.toInt?` — the integer that a number is, if it is one.
* `PatchStack.Binary64.shortest` — the digits and the position of the point.
* `PatchStack.Binary64.text` — the number as text: positional for exponents from minus four to
  fifteen, with a power of ten beyond, and never without a point or a power.
-/

namespace PatchStack

/-- A binary number of double precision. -/
inductive Binary64 where
  /-- The number `mantissa * 2 ^ exponent` with its sign. -/
  | finite (negative : Bool) (mantissa : Nat) (exponent : Int)
  /-- Infinity with its sign. -/
  | infinite (negative : Bool)
  /-- No number. -/
  | nan
  deriving DecidableEq, Repr

namespace Binary64

/-- The number of bits of a full mantissa. -/
def precision : Nat := 53

/-- The least exponent. -/
def minExponent : Int := -1074

/-- The greatest exponent. -/
def maxExponent : Int := 971

/-- The quotient rounded to the nearest integer, a half to the even one. -/
def roundDiv (num den : Nat) : Nat :=
  let q := num / den
  let r := num % den
  if 2 * r < den then q else if den < 2 * r then q + 1 else q + q % 2

/-- The numerator and denominator of `num / den / 2 ^ e`. -/
def scaled (num den : Nat) (e : Int) : Nat × Nat :=
  if 0 ≤ e then (num, den * Nat.pow 2 e.toNat) else (num * Nat.pow 2 (-e).toNat, den)

/-- The exponent with which the positive quotient has a full mantissa. -/
def fullExponent (num den : Nat) : Int :=
  let e : Int := (Nat.log2 num : Int) - Nat.log2 den - precision
  let (n, d) := scaled num den e
  if n / d < Nat.pow 2 precision then e else e + 1

/-- The number nearest to the quotient, with the given sign. -/
def ofQuotient (negative : Bool) (num den : Nat) : Binary64 :=
  if num = 0 then .finite negative 0 minExponent
  else
    let e := max minExponent (fullExponent num den)
    let (n, d) := scaled num den e
    let m := roundDiv n d
    let (m, e) := if m = Nat.pow 2 precision then (Nat.pow 2 (precision - 1), e + 1) else (m, e)
    if maxExponent < e then .infinite negative else .finite negative m e

/-- The number nearest to `digits * 10 ^ exponent`, with the given sign. Exponents far out of
the range of the format are not worked out. -/
def ofDecimal (negative : Bool) (digits : Nat) (exponent : Int) : Binary64 :=
  let size : Int := (Nat.toDigits 10 digits).length + exponent
  if digits = 0 then .finite negative 0 minExponent
  else if 400 < size then .infinite negative
  else if size < -400 then .finite negative 0 minExponent
  else if 0 ≤ exponent then ofQuotient negative (digits * Nat.pow 10 exponent.toNat) 1
  else ofQuotient negative digits (Nat.pow 10 (-exponent).toNat)

/-- The integer that a finite number is, if it has no fraction. -/
def toInt? : Binary64 → Option Int
  | .finite negative m e =>
    let size? : Option Nat :=
      if 0 ≤ e then some (m * Nat.pow 2 e.toNat)
      else if m % Nat.pow 2 (-e).toNat = 0 then some (m / Nat.pow 2 (-e).toNat) else none
    size?.map fun n => if negative then -(n : Int) else n
  | _ => none

/-- Is the number zero? -/
def isZero : Binary64 → Bool
  | .finite _ m _ => m == 0
  | _ => false

/-! ## The shortest decimal

A binary number stands for every real number that rounds to it. It is written with the fewest
digits that still lie in this interval, and with the nearest such digits. -/

/-- Four times a positive number, the ends of the interval of what rounds to it, and whether
the ends belong to it, as integers over one denominator. -/
structure Interval where
  /-- The lower end. -/
  low : Nat
  /-- The number. -/
  mid : Nat
  /-- The upper end. -/
  high : Nat
  /-- The denominator. -/
  den : Nat
  /-- Do the ends round to the number? -/
  closed : Bool

/-- The interval of the number `m * 2 ^ e`. Below a power of two the grid is twice as fine. -/
def interval (m : Nat) (e : Int) : Interval :=
  let finer := m == Nat.pow 2 (precision - 1) && minExponent < e
  let unit := if 0 ≤ e then Nat.pow 2 e.toNat else 1
  let den := if 0 ≤ e then 4 else 4 * Nat.pow 2 (-e).toNat
  ⟨(4 * m - if finer then 1 else 2) * unit, 4 * m * unit, (4 * m + 2) * unit, den, m % 2 == 0⟩

/-- Is `n * 10 ^ p` in the interval? -/
def Interval.has (i : Interval) (n : Nat) (p : Int) : Bool :=
  let (x, d) :=
    if 0 ≤ p then (n * Nat.pow 10 p.toNat * i.den, 1) else (n * i.den, Nat.pow 10 (-p).toNat)
  if i.closed then i.low * d ≤ x && x ≤ i.high * d else i.low * d < x && x < i.high * d

/-- The neighbours of the number on the grid of multiples of `10 ^ p`, the nearer one first. -/
def Interval.neighbours (i : Interval) (p : Int) : List Nat :=
  let (n, d) :=
    if 0 ≤ p then (i.mid, i.den * Nat.pow 10 p.toNat)
    else (i.mid * Nat.pow 10 (-p).toNat, i.den)
  let q := n / d
  if roundDiv n d = q then [q, q + 1] else [q + 1, q]

/-- The first hit on the grids from `10 ^ p` downwards, at most `rounds` of them. -/
def Interval.search (i : Interval) : Nat → Int → Option (Nat × Int)
  | 0, _ => none
  | rounds + 1, p =>
    match (i.neighbours p).find? fun n => 0 < n && i.has n p with
    | some n => some (n, p)
    | none => i.search rounds (p - 1)

/-- The position of the leading digit of the number. -/
def Interval.leading (i : Interval) : Int :=
  let whole := i.mid / i.den
  if 0 < whole then ((Nat.toDigits 10 whole).length : Int) - 1
  else -(((Nat.toDigits 10 (i.den / i.mid)).length : Int))

/-- The digits without trailing zeros of a number, and the power of ten behind them. -/
def stripZeros : Nat → Nat → Int → Nat × Int
  | 0, n, p => (n, p)
  | rounds + 1, n, p => if n % 10 = 0 ∧ n ≠ 0 then stripZeros rounds (n / 10) (p + 1) else (n, p)

/-- The digits of the shortest decimal for `m * 2 ^ e`, and the power of ten behind them. -/
def shortest (m : Nat) (e : Int) : Nat × Int :=
  let i := interval m e
  match i.search 20 (i.leading + 1) with
  | some (n, p) => stripZeros 20 n p
  | none => (0, 0)

/-- Digits with the point `point` places after the front. -/
def positional (digits : Text) (point : Int) : Text :=
  if point ≤ 0 then '0' :: '.' :: List.replicate (-point).toNat '0' ++ digits
  else if (digits.length : Int) ≤ point then
    digits ++ List.replicate (point.toNat - digits.length) '0' ++ ['.', '0']
  else digits.take point.toNat ++ '.' :: digits.drop point.toNat

/-- The exponent after a power sign: signed, of two digits or more. -/
def exponentText (x : Int) : Text :=
  let digits := Nat.toDigits 10 x.natAbs
  (if x < 0 then '-' else '+') :: (if digits.length < 2 then '0' :: digits else digits)

/-- Digits with one place before the point, and a power of ten. -/
def scientific (digits : Text) (point : Int) : Text :=
  (match digits with
    | [] => []
    | [d] => [d]
    | d :: rest => d :: '.' :: rest) ++ 'e' :: exponentText (point - 1)

/-- The number as text. -/
def text : Binary64 → Text
  | .nan => ['n', 'a', 'n']
  | .infinite negative => (if negative then ['-'] else []) ++ ['i', 'n', 'f']
  | .finite negative m e =>
    let sign := if negative then ['-'] else []
    if m = 0 then sign ++ ['0', '.', '0']
    else
      let (n, p) := shortest m e
      let digits := Nat.toDigits 10 n
      let point := (digits.length : Int) + p
      sign ++ if -4 < point && point ≤ 16 then positional digits point else scientific digits point

end Binary64

end PatchStack
