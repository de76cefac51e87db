import PatchStack.Proofs.LocatorGrammar
import PatchStack.Proofs.Positions

set_option autoImplicit false

/-!
# Locators with more offsets

Offsets behind a locator lead on from where the locator leads. They are neither merged with the
offsets before them nor do they change what the anchor is read as, so that a locator with more
offsets has the position to which these lead from the position of the locator.

## Main definitions

* `PatchStack.Error.withLocator` — an error with another locator in it.

## Main results

* `PatchStack.OffsetChain.steps_append` — the steps of two chains, one behind the other.
* `PatchStack.walk_withLocator` — the text of a locator matters for errors only.
* `PatchStack.Locator.disambiguate_moved` — what a locator with more offsets is read as.
* `PatchStack.Locator.position_moved` — where it leads.
* `PatchStack.Locator.ofText_append` — how it is spelled.
-/

namespace PatchStack

/-! ## Steps of two chains -/

/-- A chain begins with a sign, so that no digits are left over in front of it. -/
lemma IsChain.fst_splitSteps {t : Text} (h : IsChain t) : (splitSteps t).1 = [] := by
  cases h with
  | nil => rfl
  | cons d digits rest =>
    rw [splitSteps, Direction.ofSign?_eq_some_iff.2 rfl]

/-- A chain behind a text adds its steps behind those of the text. -/
lemma splitSteps_append {t o : Text} (ho : IsChain o) :
    splitSteps (t ++ o) = ((splitSteps t).1, (splitSteps t).2 ++ (splitSteps o).2) := by
  induction t with
  | nil => exact Prod.ext ho.fst_splitSteps rfl
  | cons c t ih =>
    rw [List.cons_append, splitSteps, splitSteps, ih]
    cases Direction.ofSign? c <;> rfl

namespace OffsetChain

/-- No step of one chain is merged with the beginning of the next. -/
@[simp]
theorem steps_append (a b : OffsetChain) : (a ++ b).steps = a.steps ++ b.steps := by
  rw [steps, text_append, splitSteps_append b.isChain]
  rfl

/-- One chain behind another and a third is the first behind the other two. -/
lemma append_assoc (a b c : OffsetChain) : a ++ b ++ c = a ++ (b ++ c) :=
  ext (List.append_assoc a.text b.text c.text)

end OffsetChain

/-! ## Walks -/

/-- The error with another locator in it; errors that are about no locator stay as they are. -/
def Error.withLocator (t : Text) : Error → Error
  | .invalidOffset _ fault => .invalidOffset t fault
  | .outOfRange _ index total => .outOfRange t index total
  | e => e

/-- The index that an error is about does not depend on the locator. -/
lemma Error.withLocator_outside (t t' : Text) (index : Int) (total : Nat) :
    (Error.outside t index total).withLocator t' = .outside t' index total := by
  unfold outside
  cases Text.writeInt index <;> rfl

section Walk

variable {floor : Floor} {t : Text} {total : Nat} {start i : Int}

/-- A walk is taken in two parts.

**Proof sketch.** By induction on the first steps, each of which is not read, leads outside, or
leads to a start for the others. -/
theorem walk_append (first second : List OffsetStep) :
    walk floor t total start (first ++ second) =
      (walk floor t total start first >>= fun i => walk floor t total i second) := by
  induction first generalizing start with
  | nil => rfl
  | cons x first ih =>
    rw [List.cons_append]
    cases hx : x.read with
    | error fault =>
      rw [walk_cons_of_error hx, walk_cons_of_error hx]
      rfl
    | ok atom =>
      rw [walk_cons hx, walk_cons hx]
      split
      · exact ih
      · rfl

/-- The text of the locator is for errors only.

**Proof sketch.** By induction on the steps. They are the same, and the first one that fails names
the text that it is given. -/
theorem walk_withLocator (t t' : Text) (start : Int) (steps : List OffsetStep) :
    walk floor t' total start steps =
      (walk floor t total start steps).mapError (Error.withLocator t') := by
  induction steps generalizing start with
  | nil => rfl
  | cons x steps ih =>
    cases hx : x.read with
    | error fault =>
      rw [walk_cons_of_error hx, walk_cons_of_error hx]
      rfl
    | ok atom =>
      rw [walk_cons hx, walk_cons hx]
      split
      · exact ih (start + atom.delta)
      · rw [mapError_error, Error.withLocator_outside]

/-- A walk that arrives does so with any text. -/
lemma walk_of_walk {steps : List OffsetStep} (t' : Text)
    (h : walk floor t total start steps = .ok i) : walk floor t' total start steps = .ok i := by
  rw [walk_withLocator t t', h]
  rfl

end Walk

/-! ## Locators -/

namespace Locator

variable {l l' : Locator} {s : Stack} {o : OffsetChain} {i : Int}

/-- More offsets stay behind whatever the locator is read as. -/
theorem disambiguate_moved (l : Locator) (s : Stack) (o : OffsetChain) :
    (l.moved o).disambiguate s = (l.disambiguate s).map (·.moved o) := by
  obtain ⟨anchor, own⟩ := l
  cases anchor with
  | name n =>
    simp only [disambiguate, moved]
    split_ifs
    · rfl
    · cases readStem s n.text (beforeTrailingChain n.text) with
      | error e => rfl
      | ok anchor => simp only [Except.map, OffsetChain.append_assoc]
  | _ => rfl

/-- Where ancestors of the base can be reached, more offsets lead on from the position.

**Proof sketch.** The longer locator is read as the same anchor with the same offsets and more
behind them. Its walk goes on where that of the shorter one ends. -/
theorem position_moved (h : l.position .ancestors s = .ok i) (o : OffsetChain) :
    (l.moved o).position .ancestors s =
      walk .ancestors (l.moved o).text s.total i o.steps := by
  obtain ⟨hw, l', start, hd, ha, hadm, -, hwalk⟩ := position_eq_ok_iff.1 h
  have hd' : (l.moved o).disambiguate s = .ok (l'.moved o) := by
    rw [disambiguate_moved, hd]
    rfl
  have hsteps : (l'.moved o).offsets.steps = l'.offsets.steps ++ o.steps :=
    OffsetChain.steps_append _ _
  rw [position_eq_walk (write_moved hw o) hd' ha hadm nofun, hsteps, walk_append,
    walk_of_walk _ hwalk]
  rfl

end Locator

/-! ## Spelling -/

/-- The derivation with more offsets, which begin downwards: a plus sign could be part of a
name. -/
def Derivation.moved (o : OffsetChain) (ho : o.text.head? = some '~') : Derivation → Derivation
  | base own => .base (own ++ o)
  | top own => .top (own ++ o)
  | last count own => .last count (own ++ o)
  | unanchored own nonempty => .unanchored (own ++ o) (by simp [nonempty])
  | name n begins own follows => .name n begins (own ++ o) (by
      rcases follows with h | h
      · exact .inr (by rw [OffsetChain.text_append, h]; exact ho)
      · exact .inr (by rw [OffsetChain.text_append, List.head?_append, h]; rfl))

/-- Offsets that begin downwards are spelled behind a locator to be its last ones. -/
theorem Locator.ofText_append {t : Text} {l : Locator} {o : OffsetChain}
    (h : Locator.ofText t = .ok l) (ho : o.text.head? = some '~') :
    Locator.ofText (t ++ o.text) = .ok (l.moved o) := by
  obtain ⟨d, rfl, rfl, hd⟩ := exists_derivation_of_ofText h
  have htext : (d.moved o ho).text = d.text ++ o.text := by
    cases d <;> exact (List.append_assoc _ _ _).symm
  have hlocator : (d.moved o ho).locator = d.locator.moved o := by cases d <;> rfl
  have hfault : (d.moved o ho).fault? = none := by cases d <;> exact hd
  rw [← htext, ← hlocator]
  exact Derivation.ofText_text hfault

end PatchStack
