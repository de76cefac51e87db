import PatchStack.Offset.Basic
import PatchStack.Error

set_option autoImplicit false

/-!
# Chains as values

An `OffsetChain` is a text of the grammar, kept as it was spelled: a list of steps, each a sign with
digits. Its meaning is the list of its atoms, and through them the list of the lengths of its
steps. They are read off the text whenever they are asked for, which fails for a count of too many
digits.

## Main definitions

* `PatchStack.OffsetStep` — one step as it is spelled.
* `PatchStack.OffsetAtom` — one step as it is meant: a direction and an optional count.
* `PatchStack.OffsetChain` — a chain with its spelling.
* `PatchStack.OffsetChain.steps` — its steps, and `PatchStack.OffsetChain.atoms`,
  `PatchStack.OffsetChain.deltas`, `PatchStack.OffsetChain.net` — its atoms, the signed length of
  each, and their sum.
* `PatchStack.OffsetChain.ofText`, `PatchStack.OffsetChain.ofAtoms` — reading and writing.

## Main results

* `PatchStack.OffsetChain.ofText_eq_ok_iff` — a text is read as the chain that spells it.
-/

namespace PatchStack

/-- One step of a chain. The count is an integer because atoms can be made by hand; one read
from a text is never negative. -/
structure OffsetAtom where
  /-- Where the step leads. -/
  direction : Direction
  /-- How far, if that is spelled out. -/
  count : Option Int
  deriving DecidableEq, Repr

namespace OffsetAtom

/-- How far the step leads: by one unless a count is spelled out. -/
def magnitude (a : OffsetAtom) : Int := a.count.getD 1

/-- The signed length of the step, positive towards later patches. -/
def delta (a : OffsetAtom) : Int :=
  match a.direction with
  | .up => a.magnitude
  | .down => -a.magnitude

/-- The spelling of the step: its sign and, if there is one, its count in decimal. -/
def text (a : OffsetAtom) : Text :=
  a.direction.sign :: (a.count.map Text.ofInt).getD []

/-- Writes the step. -/
def write (a : OffsetAtom) : Except NumeralFault Text :=
  match a.count with
  | none => .ok a.text
  | some count => (fun digits => a.direction.sign :: digits) <$> Text.writeInt count

end OffsetAtom

/-- One step of a chain as it is spelled: its sign with the digits behind it. -/
structure OffsetStep where
  /-- The direction that the sign spells. -/
  direction : Direction
  /-- The digits, if there are any. -/
  digits : Text
  deriving DecidableEq, Repr

/-- The count that the digits after a sign spell: none without digits. -/
def countOf (digits : Text) : Except NumeralFault (Option Int) :=
  if digits = [] then .ok none else (fun n => some (Int.ofNat n)) <$> Text.readNat digits

/-- Reads the step. -/
def OffsetStep.read (x : OffsetStep) : Except NumeralFault OffsetAtom :=
  (fun count => ⟨x.direction, count⟩) <$> countOf x.digits

/-- The digits that begin a chain's text, still waiting for a sign, and the steps after them. -/
def splitSteps : Text → Text × List OffsetStep
  | [] => ([], [])
  | c :: r =>
    match Direction.ofSign? c with
    | some d => ([], ⟨d, (splitSteps r).1⟩ :: (splitSteps r).2)
    | none => (c :: (splitSteps r).1, (splitSteps r).2)

/-- An offset chain, kept in its exact spelling. -/
structure OffsetChain where
  /-- The spelling. -/
  text : Text
  /-- The spelling follows the grammar. -/
  isChain : IsChain text
  deriving DecidableEq

namespace OffsetChain

/-- Chains are equal if they are spelled the same. -/
@[ext]
theorem ext {a b : OffsetChain} (h : a.text = b.text) : a = b := by
  cases a; cases b; simp_all

/-- The chain without a step. -/
def empty : OffsetChain := ⟨[], .nil⟩

instance : Inhabited OffsetChain := ⟨empty⟩

/-- One chain followed by another. -/
def append (a b : OffsetChain) : OffsetChain := ⟨a.text ++ b.text, a.isChain.append b.isChain⟩

instance : Append OffsetChain := ⟨append⟩

/-- Chains are put together as they are spelled. -/
@[simp]
theorem text_append (a b : OffsetChain) : (a ++ b).text = a.text ++ b.text := rfl

/-- The chain without a step is spelled by nothing. -/
@[simp]
theorem text_empty : empty.text = [] := rfl

/-- The longest chain that begins `t`. -/
def leading (t : Text) : OffsetChain := ⟨leadingChain t, isChain_leadingChain t⟩

/-- The longest chain that ends `t`. -/
def trailing (t : Text) : OffsetChain := ⟨trailingChain t, isChain_trailingChain t⟩

/-- Has the chain no step? -/
def isEmpty (a : OffsetChain) : Bool := a.text.isEmpty

/-- The steps of the chain, from left to right. -/
def steps (a : OffsetChain) : List OffsetStep := (splitSteps a.text).2

/-- The atoms of the chain, from left to right. -/
def atoms (a : OffsetChain) : Except NumeralFault (List OffsetAtom) := a.steps.mapM OffsetStep.read

/-- The signed lengths of its steps, from left to right. -/
def deltas (a : OffsetChain) : Except NumeralFault (List Int) :=
  (fun as => as.map OffsetAtom.delta) <$> a.atoms

/-- How far the chain leads as a whole. -/
def net (a : OffsetChain) : Except NumeralFault Int :=
  (fun ds => ds.foldr (· + ·) 0) <$> a.deltas

/-- Reads `t` as a chain; what is left over after its leading chain is unexpected. -/
def ofText (t : Text) : Except SyntaxError OffsetChain :=
  if h : IsChain t then .ok ⟨t, h⟩
  else .error ⟨"patch offsets", t, .unexpected (afterChain t)⟩

/-- The chain of the given atoms. An atom made by hand with a negative count spells no chain. -/
def ofAtoms (as : List OffsetAtom) : Reading OffsetChain := do
  let texts ← (as.mapM OffsetAtom.write).mapError .numeral
  (ofText texts.flatten).mapError .malformed

/-- A text is read as the chain that spells it. -/
theorem ofText_eq_ok_iff {t : Text} {a : OffsetChain} : ofText t = .ok a ↔ a.text = t := by
  unfold ofText
  split
  · simp only [Except.ok.injEq]
    exact ⟨fun h => h ▸ rfl, fun h => ext h.symm⟩
  · rename_i h
    simp only [reduceCtorEq, false_iff]
    rintro rfl
    exact h a.isChain

end OffsetChain

/-! ## Positions -/

/-- The position after the digits that begin at a position of `t`. -/
def digitsEnd (t : Text) (position : Nat) : Nat :=
  position + ((t.drop position).takeWhile Char.isDigit).length

/-- The position after the atom that begins at a position of `t`: a sign with its digits. -/
def atomEnd? (t : Text) (position : Nat) : Option Nat :=
  if t[position]?.any isSign then some (digitsEnd t (position + 1)) else none

/-- An atom ends behind its beginning and within the text.

**Proof sketch.** The digits behind the sign are a prefix of what is left of the text, and the sign
itself is one character. -/
theorem lt_of_atomEnd? {t : Text} {position next : Nat} (h : atomEnd? t position = some next) :
    position < next ∧ next ≤ t.length := by
  unfold atomEnd? at h
  cases ht : t[position]? with
  | none => simp [ht] at h
  | some c =>
    have hlt : position < t.length := (List.getElem?_eq_some_iff.1 ht).1
    have hdigits := (List.takeWhile_prefix Char.isDigit (l := t.drop (position + 1))).length_le
    rw [List.length_drop] at hdigits
    split at h
    · cases h
      rw [digitsEnd]
      omega
    · cases h

/-- The position after the atoms that follow each other from position `start` of `t` on. -/
def chainEnd (t : Text) (start : Nat) : Nat :=
  match _ : atomEnd? t start with
  | some next => chainEnd t next
  | none => start
termination_by t.length - start
decreasing_by
  have := lt_of_atomEnd? ‹_›
  omega

/-- The position at which the longest chain that ends `t` begins. -/
def trailingStart (t : Text) : Nat := (beforeTrailingChain t).length

end PatchStack
