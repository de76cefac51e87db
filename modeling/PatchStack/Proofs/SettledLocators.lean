import PatchStack.Proofs.CommitPrefixes
import PatchStack.Proofs.MovedLocators

set_option autoImplicit false

/-!
# Locators that stand for themselves

Reading a locator against a stack settles what its anchor stands for: afterwards a name in it is one
of the stack, and reading it again changes nothing, whatever the name looks like. The meaning stays.
The locator that was read leads to the same position as the one that was given, or fails for the
same reason; only the text that an error shows is another one.

## Main definitions

* `PatchStack.Locator.IsSettled` — a name in the anchor is one of the stack.

## Main results

* `PatchStack.Locator.isSettled_iff` — the settled locators are those that are read as themselves.
* `PatchStack.Locator.position_of_reading` — what is read alike leads to the same position.
* `PatchStack.Locator.disambiguate_settles` — what becomes of a locator that is read.
-/

namespace PatchStack

namespace Locator

variable {l l' m : Locator} {s : Stack}

/-! ## Settled locators -/

/-- A name in the anchor is one of the stack, so that nothing is left to decide. -/
def IsSettled (l : Locator) (s : Stack) : Prop := ∀ n, l.anchor = .name n → n ∈ s.patches

/-- The settled locators are those that are read as themselves. -/
theorem isSettled_iff : l.IsSettled s ↔ l.disambiguate s = .ok l := by
  refine ⟨fun h => ?_, fun h n ha => mem_patches_of_disambiguate h ha⟩
  cases ha : l.anchor with
  | name n => exact disambiguate_of_mem ha (h n ha)
  | _ => simp only [disambiguate, ha]

/-- Whatever a locator is read as is settled. -/
lemma isSettled_of_disambiguate (hd : l.disambiguate s = .ok l') : l'.IsSettled s :=
  fun _ => mem_patches_of_disambiguate hd

/-- The offsets that are split off a name come before the locator's own.

**Proof sketch.** Whatever is read, the offsets are kept, and more are put in front only where some
were split off. -/
lemma exists_offsets_of_disambiguate (hd : l.disambiguate s = .ok l') :
    ∃ o, l'.offsets = o ++ l.offsets := by
  have hkept : ∃ o, l.offsets = o ++ l.offsets := ⟨.empty, rfl⟩
  unfold disambiguate at hd
  split at hd
  · split_ifs at hd with hc
    · cases hd
      exact hkept
    · split at hd
      · cases hd
        exact ⟨_, rfl⟩
      · cases hd
  · cases hd
    exact hkept

/-! ## Positions -/

/-- Locators that are read alike lead to the same position, or fail alike but for their texts.

**Proof sketch.** Both locators are written or neither is. The steps to a position look at what is
read only, but for the text in their errors, and a walk reports this text with nothing else
depending on it (`walk_withLocator`). -/
theorem position_of_reading (hd : l.disambiguate s = .ok m) (hd' : l'.disambiguate s = .ok m)
    (floor : Floor) :
    l'.position floor s = (l.position floor s).mapError (Error.withLocator l'.text) := by
  obtain ⟨start, ha⟩ := exists_anchorIndex hd
  have hboth : l'.write = .ok l'.text ↔ l.write = .ok l.text :=
    (write_iff_of_disambiguate hd').symm.trans (write_iff_of_disambiguate hd)
  rcases l.write_cases with hw | hw
  · have hwalk : walk floor l'.text s.total start m.offsets.steps =
        (walk floor l.text s.total start m.offsets.steps).mapError (Error.withLocator l'.text) :=
      walk_withLocator l.text l'.text start m.offsets.steps
    simp only [position, hw, hboth.2 hw, hd, hd', ha, mapError_ok, bind, Except.bind]
    split_ifs
    · rw [mapError_error, Error.withLocator_outside]
    · cases m.offsets.net with
      | error fault => rfl
      | ok net =>
        simp only [mapError_ok]
        split_ifs
        · rfl
        · exact hwalk
    · exact hwalk
  · have hw' : l'.write = .error .unwritable :=
      l'.write_cases.resolve_left fun h => by rw [hboth.1 h] at hw; cases hw
    rw [position_of_unwritten hw, position_of_unwritten hw']
    rfl

/-- **Reading a locator settles it and keeps its meaning.** A name in what is read is one of the
stack, and reading it again changes nothing. It ends in the locator's own offsets. Above the base
and below, it leads to the same position as the locator, or fails with the same error but for the
text that is shown. More offsets may be added before reading or after it.

**Proof sketch.** What is read has the name of a patch or another anchor, and both are read as
themselves. So both locators are read alike, and a position depends on the reading only; the text of
the locator is carried along for errors. -/
theorem disambiguate_settles (hd : l.disambiguate s = .ok l') :
    (∀ n, l'.anchor = .name n → n ∈ s.patches) ∧
    l'.disambiguate s = .ok l' ∧
    (∃ o, l'.offsets = o ++ l.offsets) ∧
    (∀ floor, l'.position floor s = (l.position floor s).mapError (Error.withLocator l'.text)) ∧
    ∀ o, (l.moved o).disambiguate s = .ok (l'.moved o) := by
  have hsettled := isSettled_of_disambiguate hd
  have hagain := isSettled_iff.1 hsettled
  refine ⟨hsettled, hagain, exists_offsets_of_disambiguate hd, position_of_reading hd hagain,
    fun o => ?_⟩
  rw [disambiguate_moved, hd]
  rfl

/-- Digits of a commit id with a step upwards, and three steps downwards behind it. -/
def belowCommit : Locator := ⟨.name fiveDigits, ⟨['~', '3'], by decide⟩⟩

/-- What this is read as: a patch whose name looks like an index with an offset. -/
def belowIndexLike : Locator := ⟨.name indexLike, ⟨['+', '~', '3'], by decide⟩⟩

/-- The patch is kept although its name could be read as an index, and both locators lead out of the
stack at the same place. -/
theorem disambiguate_settles_belowCommit :
    belowCommit.disambiguate similarCommits = .ok belowIndexLike ∧
      belowIndexLike.disambiguate similarCommits = .ok belowIndexLike ∧
      belowCommit.position .base similarCommits =
        .error (.outOfRange "Beef1+~3".toList (-2) 3) ∧
      belowIndexLike.position .base similarCommits =
        .error (.outOfRange "0+1+~3".toList (-2) 3) := by
  have hd : belowCommit.disambiguate similarCommits = .ok belowIndexLike := rfl
  obtain ⟨-, hagain, -, hposition, -⟩ := disambiguate_settles hd
  have hout : belowCommit.position .base similarCommits =
      .error (.outOfRange "Beef1+~3".toList (-2) 3) := rfl
  exact ⟨hd, hagain, hout, by rw [hposition, hout]; rfl⟩

end Locator

end PatchStack
