import PatchStack.Proofs.Positions

set_option autoImplicit false

/-!
# Stacks with other group boundaries

Pushing, popping and hiding patches moves the boundaries between the groups of a stack and leaves
the order of the patches as it is. A locator sees the boundaries only through the topmost applied
patch and the last visible one: anchored anywhere else it leads to the same place, and anchored at
one of these it moves with it.

## Main definitions

* `PatchStack.Stack.Regroups` — two stacks differ in their group boundaries only.
* `PatchStack.Anchor.shift` — how far an anchor moves with the boundaries.

## Main results

* `PatchStack.Stack.Regroups.disambiguate_eq` — a locator is read alike in both stacks.
* `PatchStack.Stack.Regroups.position_eq` — an anchor that stays leads to the same position.
* `PatchStack.Stack.Regroups.position_sub` — positions move as far as the anchor does.
* `PatchStack.Stack.Regroups.locator_follows_anchor` — all that a locator leads to in both stacks.
-/

namespace PatchStack

/-- The stacks hold the same patches in the same order, with the same commits. Their groups may end
in different places, and the base and the top may be different commits. -/
structure Stack.Regroups (s s' : Stack) : Prop where
  /-- The patches are the same, in the same order. -/
  patches : s.patches = s'.patches
  /-- The same commits are recorded for them. -/
  commitOf : ∀ n ∈ s.patches, s.commitOf n.text = s'.commitOf n.text

/-- How far the index of an anchor is moved from the first stack to the second. -/
def Anchor.shift (s s' : Stack) : Anchor → Int
  | .name _ | .base | .belowTop (some _) => 0
  | .top | .belowTop none => (s'.applied.length : Int) - s.applied.length
  | .belowLast _ => (s'.visible.length : Int) - s.visible.length

/-- Without a constraint the group of the patch does not matter.

**Proof sketch.** A position that is not below zero has a group, and without a constraint every
group is allowed. -/
theorem Locator.resolve_all (l : Locator) (s : Stack) :
    l.resolve s .all = (do
      let i ← l.position .base s
      if i < 0 then .error (.invalidOffset l.text .reachesBase) else s.patchAt i) := by
  unfold Locator.resolve
  cases hp : l.position .base s with
  | error e => rfl
  | ok i =>
    simp only [bind, Except.bind]
    split_ifs with hneg
    · rfl
    · obtain ⟨k, rfl⟩ := Int.eq_ofNat_of_zero_le (Int.not_lt.1 hneg)
      have hlt : k < s.total := Int.ofNat_lt.1 (Floor.admits_iff.1 (admits_of_position hp)).1
      obtain ⟨g, hg⟩ := Stack.exists_groupAt hlt
      rw [hg]
      cases s.patchAt (k : Int) <;> rfl

namespace Stack.Regroups

variable {s s' : Stack} (h : s.Regroups s')
include h

/-! ## What does not see the boundaries -/

/-- The stacks have as many patches. -/
lemma total_eq : s.total = s'.total := by
  rw [Stack.total_eq, Stack.total_eq, h.patches]

/-- They have patches of the same names. -/
lemma contains_eq (name : Text) : s.contains name = s'.contains name := by
  rw [Bool.eq_iff_iff, Stack.contains_iff, Stack.contains_iff, h.patches]

/-- A name has the same index in both. -/
lemma indexOf_eq (name : Text) : s.indexOf name = s'.indexOf name := by
  rw [Stack.indexOf, Stack.indexOf, h.patches]

/-- The same patch is at an index. -/
lemma patchAt_eq (i : Int) : s.patchAt i = s'.patchAt i := by
  rw [Stack.patchAt, Stack.patchAt, h.patches]

/-- The same patches have a commit that begins in one way. -/
lemma withCommitPrefix_eq (start : Text) :
    s.withCommitPrefix start = s'.withCommitPrefix start := by
  unfold Stack.withCommitPrefix
  rw [← h.patches]
  refine List.filter_congr fun n hn => ?_
  rw [h.commitOf n hn]

/-- A stem has the same reading. -/
lemma readStem_eq (name stem : Text) : readStem s name stem = readStem s' name stem := by
  simp only [readStem, Stack.find?, Stack.suggestions, h.patches, h.withCommitPrefix_eq]

/-- A locator is read alike in both stacks, and where it cannot be read, it fails alike. -/
theorem disambiguate_eq (l : Locator) : l.disambiguate s = l.disambiguate s' := by
  unfold Locator.disambiguate
  split
  · rw [h.contains_eq, h.readStem_eq]
  · rfl

/-! ## What moves with the boundaries -/

/-- The index of an anchor moves by its shift.

**Proof sketch.** An anchor with a name or an index is found at the same index, since the order of
the patches is the same. The others are counted from the top or from the last visible patch. -/
lemma anchorIndex_eq (a : Anchor) :
    Locator.anchorIndex a s' = (Locator.anchorIndex a s).map (· + a.shift s s') := by
  cases a with
  | name n =>
    rw [Locator.anchorIndex, Locator.anchorIndex, h.indexOf_eq]
    cases s'.indexOf n.text with
    | error e => rfl
    | ok i => exact congrArg Except.ok (Int.add_zero _).symm
  | base => rfl
  | top => exact congrArg Except.ok (by simp only [Stack.topIndex, Anchor.shift]; omega)
  | belowLast count => exact congrArg Except.ok (by simp only [Anchor.shift]; omega)
  | belowTop index =>
    cases index with
    | none => exact congrArg Except.ok (by simp only [Stack.topIndex, Anchor.shift]; omega)
    | some index => exact congrArg Except.ok (Int.add_zero _).symm

variable {l l' : Locator} (hd : l.disambiguate s = .ok l')
include hd

/-- A locator whose anchor stays leads to the same position, and where there is none, it fails
alike. -/
theorem position_eq (hstays : l'.anchor.shift s s' = 0) (floor : Floor) :
    l.position floor s = l.position floor s' := by
  have hanchor : Locator.anchorIndex l'.anchor s' = Locator.anchorIndex l'.anchor s := by
    rw [h.anchorIndex_eq, hstays]
    cases Locator.anchorIndex l'.anchor s with
    | error e => rfl
    | ok i => exact congrArg Except.ok (Int.add_zero i)
  simp only [Locator.position, ← h.disambiguate_eq, hd, h.total_eq, bind, Except.bind, hanchor]

/-- A locator whose anchor stays leads to the same patch. -/
theorem resolve_eq (hstays : l'.anchor.shift s s' = 0) : l.resolve s .all = l.resolve s' .all := by
  simp only [Locator.resolve_all, h.position_eq hd hstays, h.patchAt_eq]

/-- Positions move as far as the anchor that they are counted from.

**Proof sketch.** The locator is read as the same one in both stacks. The walks begin as far apart
as the anchor is moved, and have the same steps. -/
theorem position_sub {floor : Floor} {i i' : Int} (hi : l.position floor s = .ok i)
    (hi' : l.position floor s' = .ok i') : i' - i = l'.anchor.shift s s' := by
  obtain ⟨-, l₁, start, hd₁, hstart, -, -, hwalk⟩ := Locator.position_eq_ok_iff.1 hi
  obtain ⟨-, l₂, start', hd₂, hstart', -, -, hwalk'⟩ := Locator.position_eq_ok_iff.1 hi'
  rw [← h.disambiguate_eq] at hd₂
  cases hd.symm.trans hd₁
  cases hd.symm.trans hd₂
  have hmoved : start' = start + l'.anchor.shift s s' := by
    rw [h.anchorIndex_eq, hstart] at hstart'
    exact (Except.ok.inj hstart').symm
  -- The steps are the same, and lead as far from either anchor.
  obtain ⟨ds, hds, rfl⟩ := exists_deltas_of_walk hwalk
  obtain ⟨ds', hds', rfl⟩ := exists_deltas_of_walk hwalk'
  obtain rfl : ds = ds' := (Prod.mk.inj (hds.symm.trans hds')).1
  omega

omit hd in
/-- **A locator sees the boundaries between the groups only through its anchor.** It is read alike
in both stacks. If it starts from a patch, from the base or from an index, it leads to the same
position and to the same patch, or fails alike. If it starts from the topmost applied patch or from
the last visible one, its positions are as far apart as the anchors are.

**Proof sketch.** Reading looks at the order of the patches and at their commits, and the steps of a
walk are checked against the number of patches alone. So only the index of the anchor can differ,
and it does by the shift of the anchor, which is zero for the anchors that stay. -/
theorem locator_follows_anchor (l : Locator) :
    l.disambiguate s = l.disambiguate s' ∧
      ∀ l', l.disambiguate s = .ok l' →
        ((∃ n, l'.anchor = .name n) ∨ l'.anchor = .base ∨ (∃ i, l'.anchor = .belowTop (some i)) →
          (∀ floor, l.position floor s = l.position floor s') ∧
            l.resolve s .all = l.resolve s' .all) ∧
        (l'.anchor = .top ∨ l'.anchor = .belowTop none →
          ∀ floor i i', l.position floor s = .ok i → l.position floor s' = .ok i' →
            i' - i = (s'.applied.length : Int) - s.applied.length) ∧
        (∀ count, l'.anchor = .belowLast count →
          ∀ floor i i', l.position floor s = .ok i → l.position floor s' = .ok i' →
            i' - i = (s'.visible.length : Int) - s.visible.length) := by
  refine ⟨h.disambiguate_eq l, fun l' hd => ⟨fun hanchor => ?_, fun hanchor => ?_, ?_⟩⟩
  · have hstays : l'.anchor.shift s s' = 0 := by
      rcases hanchor with ⟨n, ha⟩ | ha | ⟨i, ha⟩ <;> rw [ha] <;> rfl
    exact ⟨h.position_eq hd hstays, h.resolve_eq hd hstays⟩
  · intro floor i i' hi hi'
    rw [h.position_sub hd hi hi']
    rcases hanchor with ha | ha <;> rw [ha] <;> rfl
  · intro count ha floor i i' hi hi'
    rw [h.position_sub hd hi hi', ha]
    rfl

end Stack.Regroups

/-! ## A patch that is hidden -/

section Hidden

/-- The bottommost patch. -/
def lowerPatch : PatchName := ⟨['p'], by decide⟩

/-- The patch that is popped and hidden. -/
def upperPatch : PatchName := ⟨['q'], by decide⟩

/-- Both patches are applied. -/
def bothApplied : Stack :=
  ⟨⟨[lowerPatch, upperPatch], [], [], ['c'], ['d'], [(upperPatch, "beef1".toList)]⟩,
    by decide, by decide⟩

/-- The upper patch is hidden. -/
def upperHidden : Stack :=
  ⟨⟨[lowerPatch], [], [upperPatch], ['c'], ['e'], [(upperPatch, "beef1".toList)]⟩,
    by decide, by decide⟩

/-- The patch before the one with this beginning of a commit id. -/
def beforeCommit : Locator := ⟨.name ⟨"BEEF".toList, by decide⟩, ⟨['~'], by decide⟩⟩

/-- The topmost applied patch. -/
def topLocator : Locator := ⟨.top, .empty⟩

/-- The commit id leads to the same patch before and after, and the top moves down by one. -/
theorem locator_follows_anchor_upperHidden :
    bothApplied.Regroups upperHidden ∧
      beforeCommit.resolve bothApplied .all = .ok lowerPatch ∧
      beforeCommit.resolve bothApplied .all = beforeCommit.resolve upperHidden .all ∧
      ∃ i i', topLocator.position .base bothApplied = .ok i ∧
        topLocator.position .base upperHidden = .ok i' ∧ i' - i = -1 := by
  have h : bothApplied.Regroups upperHidden := ⟨rfl, fun _ _ => rfl⟩
  have hread : beforeCommit.disambiguate bothApplied =
      .ok ⟨.name upperPatch, ⟨['~'], by decide⟩⟩ := rfl
  have hkept := ((h.locator_follows_anchor beforeCommit).2 _ hread).1 (.inl ⟨upperPatch, rfl⟩)
  have hmoved := ((h.locator_follows_anchor topLocator).2 _ rfl).2.1 (.inl rfl)
  exact ⟨h, rfl, hkept.2, 1, 0, rfl, rfl, hmoved .base 1 0 rfl rfl⟩

end Hidden

end PatchStack
