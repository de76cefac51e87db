import PatchStack.Proofs.Selection

set_option autoImplicit false

/-!
# Constraints as filters

A constraint says no to what it does not allow, and nothing else: what it lets through is what is
selected without it. For a locator this is the patch itself, for a range from one bound to another
it is every member, and since the allowed groups lie next to each other, the first and the last
member are enough to know.

## Main definitions

* `PatchStack.Stack.Allows` — a patch is in one of the groups that are allowed.

## Main results

* `PatchStack.Locator.resolve_cases` — what a locator leads to under all constraints at once.
* `PatchStack.Bounds.select_both_iff` — what is selected between two bounds.
* `PatchStack.Stack.forall_allows_window_iff` — a window is allowed if its ends are.
* `PatchStack.Range.select_single` — a single locator is the range from it to itself.
* `PatchStack.constraints_filter` — all that constraints do.
-/

namespace PatchStack

/-! ## Allowed patches -/

/-- The patch is in one of the groups that are allowed. -/
def Stack.Allows (s : Stack) (allows : Group → Bool) (n : PatchName) : Prop :=
  ∃ g, n ∈ s.patchesIn g ∧ allows g = true

namespace LocationConstraint

variable {c : LocationConstraint}

/-- The groups of a constraint are those that it allows. -/
lemma mem_groups {g : Group} : g ∈ c.groups ↔ c.allows g = true := by
  cases g <;> simp [groups, Group.inOrder]

/-- The groups of a constraint are in stack order. -/
lemma groups_sublist : c.groups.Sublist Group.inOrder := List.filter_sublist

end LocationConstraint

namespace Stack

variable {s : Stack} {c : RangeConstraint} {i j : Nat} {n : PatchName}

/-- A patch is allowed if its group is. -/
lemma allows_iff {allows : Group → Bool} {g : Group} (hg : n ∈ s.patchesIn g) :
    s.Allows allows n ↔ allows g = true := by
  constructor
  · rintro ⟨g', hg', ha⟩
    rwa [group_unique hg hg']
  · exact fun ha => ⟨g, hg, ha⟩

/-- An index is allowed if the group of its patch is. -/
lemma allowedIndex_iff_allows (hn : s.patches[i]? = some n) :
    s.AllowedIndex c i ↔ s.Allows c.allows n := by
  simp only [AllowedIndex, Allows, groupAt_eq_ok_iff_mem hn]

/-- Without a constraint every index of the stack is allowed. -/
lemma allowedIndex_all_iff : s.AllowedIndex .all i ↔ i < s.total := by
  refine ⟨AllowedIndex.lt_total, fun hi => ?_⟩
  obtain ⟨g, hg⟩ := exists_groupAt hi
  exact ⟨g, hg, rfl⟩

/-- A window is allowed exactly if its two ends are.

**Proof sketch.** The indices that a constraint allows are a segment, since its groups stand next to
each other. -/
theorem forall_allows_window_iff {first last : PatchName} (hij : i ≤ j)
    (hi : s.patches[i]? = some first) (hj : s.patches[j]? = some last) :
    (∀ n ∈ s.window i j, s.Allows c.allows n) ↔
      s.Allows c.allows first ∧ s.Allows c.allows last := by
  constructor
  · intro hall
    exact ⟨hall first (mem_window_iff.2 ⟨i, Nat.le_refl i, hij, hi⟩),
      hall last (mem_window_iff.2 ⟨j, hij, Nat.le_refl j, hj⟩)⟩
  · rintro ⟨hfirst, hlast⟩ n hn
    obtain ⟨k, hik, hkj, hk⟩ := mem_window_iff.1 hn
    rw [← allowedIndex_iff_allows hi] at hfirst
    rw [← allowedIndex_iff_allows hj] at hlast
    exact (allowedIndex_iff_allows hk).1 (hfirst.of_between hlast hik hkj)

end Stack

/-! ## Locators -/

namespace Locator

/-- A locator fails alike under every constraint, or it leads to one patch, and what is left to a
constraint is to refuse its group.

**Proof sketch.** The position does not depend on the constraint. If it fails or is the base, so
does the locator; otherwise there are a patch and a group at the index, and the constraint is asked
for the group only. -/
theorem resolve_cases (l : Locator) (s : Stack) :
    (∃ e, ∀ c, l.resolve s c = .error e) ∨
    ∃ n g, n ∈ s.patchesIn g ∧ l.resolve s .all = .ok n ∧ ∀ c : LocationConstraint,
      l.resolve s c =
        if c.allows g then .ok n else .error (.constraintViolation n.text g c.groups) := by
  cases hp : l.position .base s with
  | error e => exact .inl ⟨e, fun c => by rw [resolve, hp]; rfl⟩
  | ok index =>
    by_cases hneg : index < 0
    · refine .inl ⟨.invalidOffset l.text .reachesBase, fun c => ?_⟩
      simp only [resolve, hp, bind, Except.bind, if_pos hneg]
    · obtain ⟨i, rfl⟩ := Int.eq_ofNat_of_zero_le (Int.not_lt.1 hneg)
      have hi : i < s.total := Int.ofNat_lt.1 (Floor.admits_iff.1 (admits_of_position hp)).1
      obtain ⟨n, hn⟩ := Stack.lt_total_iff.1 hi
      obtain ⟨g, hg⟩ := Stack.exists_groupAt hi
      have hchecked (c : LocationConstraint) : l.resolve s c =
          if c.allows g then .ok n else .error (.constraintViolation n.text g c.groups) := by
        simp only [resolve, hp, bind, Except.bind, if_neg hneg, hg,
          Stack.patchAt_eq_ok_iff.2 ⟨i, rfl, hn⟩]
      exact .inr ⟨n, g, (Stack.groupAt_eq_ok_iff_mem hn).1 hg, hchecked .all, hchecked⟩

variable {l : Locator} {s : Stack} {c : LocationConstraint} {n : PatchName}

/-- A locator leads to a patch exactly if it does without a constraint and the patch is allowed.

**Proof sketch.** Up to the check of the group both runs are the same, and without a constraint
every group passes. -/
theorem resolve_eq_ok_iff_all :
    l.resolve s c = .ok n ↔ l.resolve s .all = .ok n ∧ s.Allows c.allows n := by
  rcases l.resolve_cases s with ⟨e, he⟩ | ⟨m, g, hg, hall, hchecked⟩
  · simp only [he, reduceCtorEq, false_and]
  · rw [hchecked c, hall]
    constructor
    · intro h
      split_ifs at h with ha
      cases h
      exact ⟨rfl, (Stack.allows_iff hg).2 ha⟩
    · rintro ⟨⟨⟩, hallows⟩
      rw [if_pos ((Stack.allows_iff hg).1 hallows)]

/-- A patch of another group is refused with the allowed groups. -/
theorem resolve_eq_violation {g : Group} (h : l.resolve s .all = .ok n) (hg : n ∈ s.patchesIn g)
    (ha : c.allows g = false) :
    l.resolve s c = .error (.constraintViolation n.text g c.groups) := by
  rcases l.resolve_cases s with ⟨e, he⟩ | ⟨m, g', hg', hall, hchecked⟩
  · rw [he] at h
    cases h
  · rw [hall] at h
    cases h
    obtain rfl := Stack.group_unique hg hg'
    rw [hchecked c, ha]
    rfl

/-- A locator that leads to no patch does so under every constraint. -/
theorem resolve_eq_error_of_all {e : Error} (h : l.resolve s .all = .error e) :
    l.resolve s c = .error e := by
  rcases l.resolve_cases s with ⟨e', he⟩ | ⟨m, g, -, hall, -⟩
  · rw [he] at h ⊢
    exact h
  · rw [hall] at h
    cases h

end Locator

/-! ## Ranges -/

section Ranges

variable {l m : Locator} {s : Stack} {c : RangeConstraint} {ns : List PatchName}

/-- Between two bounds a window is selected, if its ends are allowed. -/
theorem Bounds.select_both_iff :
    Bounds.select ⟨some l, some m⟩ s c = .ok ns ↔
      ∃ i j : Nat, l.position .base s = .ok (i : Int) ∧ m.position .base s = .ok (j : Int) ∧
        s.AllowedIndex c i ∧ s.AllowedIndex c j ∧ i ≤ j ∧ ns = s.window i j := by
  rw [Bounds.select_eq_ok_iff]
  constructor
  · rintro (⟨hstart, -⟩ | ⟨i, j, ⟨hl, hi⟩, ⟨hm, hj⟩, hij, rfl⟩)
    · cases hstart
    · exact ⟨i, j, hl, hm, hi, hj, hij, rfl⟩
  · rintro ⟨i, j, hl, hm, hi, hj, hij, rfl⟩
    exact .inr ⟨i, j, ⟨hl, hi⟩, ⟨hm, hj⟩, hij, rfl⟩

/-- The ends of a selection between two bounds decide whether all of it is allowed. -/
theorem Bounds.exists_ends (h : Bounds.select ⟨some l, some m⟩ s .all = .ok ns)
    (c : RangeConstraint) :
    ∃ first last, ns.head? = some first ∧ ns.getLast? = some last ∧
      ((∀ n ∈ ns, s.Allows c.allows n) ↔ s.Allows c.allows first ∧ s.Allows c.allows last) := by
  obtain ⟨i, j, -, -, hi, hj, hij, rfl⟩ := Bounds.select_both_iff.1 h
  obtain ⟨first, hfirst⟩ := Stack.lt_total_iff.1 hi.lt_total
  obtain ⟨last, hlast⟩ := Stack.lt_total_iff.1 hj.lt_total
  refine ⟨first, last, ?_, ?_, Stack.forall_allows_window_iff hij hfirst hlast⟩
  · rw [Stack.head?_window hij, hfirst]
  · rw [Stack.getLast?_window hij hj.lt_total, hlast]

/-- What is selected between two bounds is what is selected without a constraint, if all of it is
allowed.

**Proof sketch.** Both select the window between the two positions. Its ends are allowed exactly if
all of it is, since the groups of a constraint follow each other in the stack. -/
theorem Bounds.select_eq_ok_iff_all :
    Bounds.select ⟨some l, some m⟩ s c = .ok ns ↔
      Bounds.select ⟨some l, some m⟩ s .all = .ok ns ∧ ∀ n ∈ ns, s.Allows c.allows n := by
  constructor
  · intro h
    obtain ⟨i, j, hl, hm, hi, hj, hij, rfl⟩ := Bounds.select_both_iff.1 h
    refine ⟨Bounds.select_both_iff.2 ⟨i, j, hl, hm, Stack.allowedIndex_all_iff.2 hi.lt_total,
      Stack.allowedIndex_all_iff.2 hj.lt_total, hij, rfl⟩, fun n hn => ?_⟩
    obtain ⟨k, hik, hkj, hk⟩ := Stack.mem_window_iff.1 hn
    exact (Stack.allowedIndex_iff_allows hk).1 (hi.of_between hj hik hkj)
  · rintro ⟨h, hallows⟩
    obtain ⟨i, j, hl, hm, hi, hj, hij, rfl⟩ := Bounds.select_both_iff.1 h
    obtain ⟨first, hfirst⟩ := Stack.lt_total_iff.1 hi.lt_total
    obtain ⟨last, hlast⟩ := Stack.lt_total_iff.1 hj.lt_total
    obtain ⟨hfirsta, hlasta⟩ := (Stack.forall_allows_window_iff hij hfirst hlast).1 hallows
    exact Bounds.select_both_iff.2 ⟨i, j, hl, hm, (Stack.allowedIndex_iff_allows hfirst).2 hfirsta,
      (Stack.allowedIndex_iff_allows hlast).2 hlasta, hij, rfl⟩

/-- A single locator is the range from it to itself.

**Proof sketch.** If the locator does not resolve, the begin of the bounds does not either. If it
does, the window from its index to itself has the one patch. -/
theorem Range.select_single (l : Locator) (s : Stack) (c : RangeConstraint) :
    (Range.single l).select s c = (Range.between ⟨some l, some l⟩).select s c := by
  simp only [Range.select]
  cases hl : l.resolve s c.asLocation with
  | error e =>
    have hstart : Bounds.startIndex ⟨some l, some l⟩ s c = .error e :=
      Bounds.startIndex_eq_error_iff.2 ⟨l, rfl, hl⟩
    rw [Bounds.select, hstart]
    rfl
  | ok n =>
    obtain ⟨i, g, hp, hn, hg, ha⟩ := Locator.resolve_eq_ok_iff.1 hl
    rw [RangeConstraint.allows_asLocation] at ha
    have hi : s.AllowedIndex c i := ⟨g, hg, ha⟩
    have halone : s.window i i = [n] := by
      rw [Stack.window, Nat.add_sub_cancel_left, List.take_one, List.head?_drop, hn]
      rfl
    rw [Bounds.select_both_iff.2 ⟨i, i, hp, hp, hi, hi, Nat.le_refl i, halone.symm⟩]
    rfl

end Ranges

/-! ## Filters -/

/-- **A constraint is a filter.** A locator leads to a patch exactly if it does so without a
constraint and the group of the patch is allowed; a patch of another group is refused with just the
allowed groups in stack order, and where there is no patch, the failure is the same. What is
selected between two bounds is what is selected without a constraint, if all of its members are
allowed, for which it is enough that the first and the last one are. A single locator selects what
the range from it to itself selects.

**Proof sketch.** A locator takes the same steps under every constraint up to the group of its
patch. Two bounds are checked by their groups, and so is every patch between them; but a group
between two allowed ones is allowed, whichever groups are empty, so that the second check never says
no where the first said yes. -/
theorem constraints_filter (s : Stack) :
    (∀ (l : Locator) (c : LocationConstraint),
      (∀ n, l.resolve s c = .ok n ↔ l.resolve s .all = .ok n ∧ s.Allows c.allows n) ∧
      (∀ n g, l.resolve s .all = .ok n → n ∈ s.patchesIn g → c.allows g = false →
        ∃ gs, gs.Sublist Group.inOrder ∧ (∀ g', g' ∈ gs ↔ c.allows g' = true) ∧
          l.resolve s c = .error (.constraintViolation n.text g gs)) ∧
      ∀ e, l.resolve s .all = .error e → l.resolve s c = .error e) ∧
    (∀ (l m : Locator) (c : RangeConstraint) (ns : List PatchName),
      (Bounds.select ⟨some l, some m⟩ s c = .ok ns ↔
        Bounds.select ⟨some l, some m⟩ s .all = .ok ns ∧ ∀ n ∈ ns, s.Allows c.allows n) ∧
      (Bounds.select ⟨some l, some m⟩ s .all = .ok ns →
        ∃ first last, ns.head? = some first ∧ ns.getLast? = some last ∧
          ((∀ n ∈ ns, s.Allows c.allows n) ↔
            s.Allows c.allows first ∧ s.Allows c.allows last))) ∧
    ∀ (l : Locator) (c : RangeConstraint),
      (Range.single l).select s c = (Range.between ⟨some l, some l⟩).select s c := by
  refine ⟨fun l c => ⟨fun n => Locator.resolve_eq_ok_iff_all, fun n g h hg ha => ?_,
      fun e => Locator.resolve_eq_error_of_all⟩,
    fun l m c ns => ⟨Bounds.select_eq_ok_iff_all, fun h => Bounds.exists_ends h c⟩,
    fun l c => Range.select_single l s c⟩
  exact ⟨c.groups, LocationConstraint.groups_sublist, fun g' => LocationConstraint.mem_groups,
    Locator.resolve_eq_violation h hg ha⟩

end PatchStack
