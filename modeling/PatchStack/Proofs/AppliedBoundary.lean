import PatchStack.Proofs.Selection

set_option autoImplicit false

/-!
# The applied boundary

Two of the constraints for ranges stop a range without an end at the last applied patch, if it
begins with an applied one. They allow the same groups as their plain counterparts, begin at the
same patches and fail for the same reasons, so that all that they can do is to cut off the patches
behind the boundary. A range that begins with an applied patch keeps at least this one.

## Main definitions

* `PatchStack.RangeConstraint.plain` — the constraint with the same groups and no boundary.
* `PatchStack.Range.MeetsBoundary` — a range without an end begins with an applied patch, and the
  constraint stops it at the last one.

## Main results

* `PatchStack.Stack.filter_applied_window` — the applied patches of a window are its front.
* `PatchStack.Bounds.select_plain` — where the boundary is of no consequence.
* `PatchStack.Bounds.select_below_boundary` — how far bounds go with the boundary and without it.
* `PatchStack.Range.boundary_cases` — nothing changes, or the applied patches are what is left.
* `PatchStack.Range.boundary_cuts` — all that an applied boundary does.
-/

namespace PatchStack

/-! ## Constraints without a boundary -/

namespace RangeConstraint

variable (c : RangeConstraint)

/-- The constraint that allows the same groups and does not stop at the applied boundary. -/
def plain : RangeConstraint → RangeConstraint
  | .allWithAppliedBoundary => .all
  | .visibleWithAppliedBoundary => .visible
  | c => c

/-- Without the boundary, a constraint allows the same groups. -/
@[simp]
lemma allows_plain : c.plain.allows = c.allows := by cases c <;> rfl

/-- It has the same groups. -/
@[simp]
lemma groups_plain : c.plain.groups = c.groups := by rw [groups, groups, allows_plain]

/-- It is the same constraint for single locators. -/
@[simp]
lemma asLocation_plain : c.plain.asLocation = c.asLocation := by cases c <;> rfl

/-- The program sees that the boundary is gone. -/
@[simp]
lemma appliedBoundary_plain : c.plain.appliedBoundary = false := by cases c <;> rfl

/-- It is none of the two constraints that stop at the last applied patch. -/
lemma not_stopsAtApplied_plain : ¬ c.plain.StopsAtApplied := by cases c <;> decide

end RangeConstraint

/-! ## Windows and the boundary -/

namespace Stack

variable {s : Stack} {c : RangeConstraint} {i j k : Nat} {n : PatchName}

/-- What ends earlier is a beginning of what ends later. -/
lemma window_prefix (hjk : j ≤ k) : s.window i j <+: s.window i k :=
  List.take_prefix_take_left (by omega)

/-- Below the boundary there are the applied patches, and above it there are the other ones. -/
lemma window_eq_applied_append (hi : i < s.applied.length) (hj : s.applied.length ≤ j + 1) :
    s.window i j =
      s.applied.drop i ++ (s.unapplied ++ s.hidden).take (j + 1 - s.applied.length) := by
  rw [window, patches_eq, List.append_assoc, List.drop_append_of_le_length (by omega),
    List.take_append, List.take_of_length_le (by rw [List.length_drop]; omega), List.length_drop]
  congr 2
  omega

/-- The applied patches of a window that begins with one are its front, up to the boundary.

**Proof sketch.** The window is the rest of the applied patches and a part of the others. The former
are kept, and of the latter none, as no patch is in two groups. -/
theorem filter_applied_window (hi : i < s.applied.length) (hj : s.applied.length ≤ j + 1) :
    (s.window i j).filter (· ∈ s.applied) = s.window i (s.applied.length - 1) := by
  have hfront : s.window i (s.applied.length - 1) = s.applied.drop i := by
    rw [window_eq_applied_append hi (by omega), Nat.sub_add_cancel (by omega), Nat.sub_self,
      List.take_zero, List.append_nil]
  have hkept : (s.applied.drop i).filter (· ∈ s.applied) = s.applied.drop i :=
    List.filter_eq_self.2 fun n hn => decide_eq_true (List.mem_of_mem_drop hn)
  have hcut : ((s.unapplied ++ s.hidden).take (j + 1 - s.applied.length)).filter
      (· ∈ s.applied) = [] := by
    refine List.filter_eq_nil_iff.2 fun n hn happlied => ?_
    have happlied : n ∈ s.patchesIn .applied := of_decide_eq_true happlied
    -- A patch behind the boundary is in another group, and no patch is in two.
    rcases List.mem_append.1 (List.mem_of_mem_take hn) with hn | hn
    · cases group_unique (g := .unapplied) hn happlied
    · cases group_unique (g := .hidden) hn happlied
  rw [window_eq_applied_append hi hj, List.filter_append, hkept, hcut, List.append_nil, hfront]

/-- The patches below the boundary are the applied ones. -/
lemma lt_length_applied_iff (hn : s.patches[i]? = some n) :
    i < s.applied.length ↔ n ∈ s.applied := by
  rw [← groupAt_eq_applied_iff, groupAt_eq_ok_iff_mem hn]
  rfl

/-- The same indices are allowed without the boundary. -/
lemma allowedIndex_plain : s.AllowedIndex c.plain i ↔ s.AllowedIndex c i := by
  rw [AllowedIndex, AllowedIndex, RangeConstraint.allows_plain]

/-- From one index to another the same patches are selected. -/
lemma between_plain (start stop : Option Nat) :
    s.between c.plain start stop = s.between c start stop := by
  have hslice : s.slice c.plain = s.slice c := by
    funext i j
    have hallowed : s.allowedAt c.plain = s.allowedAt c := by
      funext k
      rw [allowedAt, allowedAt, RangeConstraint.allows_plain, RangeConstraint.groups_plain]
    rw [slice, slice, hallowed]
  unfold between
  rw [hslice]

end Stack

namespace Bounds

variable {b : Bounds} {s : Stack} {c : RangeConstraint} {i : Nat}

/-! ## Bounds and the boundary -/

/-- Bounds begin at the same index. -/
lemma startIndex_plain : b.startIndex s c.plain = b.startIndex s c := by
  unfold startIndex
  simp only [Stack.boundIndex, RangeConstraint.asLocation_plain, RangeConstraint.groups_plain]

/-- Bounds begin at the same index as far as the rules go. -/
lemma beginsAt_plain : b.BeginsAt s c.plain i ↔ b.BeginsAt s c i := by
  rw [← startIndex_eq_some_iff, startIndex_plain, startIndex_eq_some_iff]

/-- Bounds end in another place only if they have no end and begin below the boundary.

**Proof sketch.** Only an open end looks at the boundary. There the hypothesis says that the
beginning is not below it, so that the test for the cut comes out the same without the boundary. -/
lemma stopIndex_plain {start : Option Nat}
    (h : c.StopsAtApplied → b.stop = none → ∀ i ∈ start, s.applied.length ≤ i) :
    b.stopIndex s c.plain start = b.stopIndex s c start := by
  unfold stopIndex
  cases hstop : b.stop with
  | some l => simp only [Stack.boundIndex, RangeConstraint.asLocation_plain]
  | none =>
    have hbeyond : (c.appliedBoundary && start.any (· < s.applied.length)) = false := by
      rw [Bool.and_eq_false_imp]
      intro hboundary
      refine (Option.any_eq_false _ _).2 fun i hi => decide_eq_false (Nat.not_lt.2 ?_)
      exact h (RangeConstraint.appliedBoundary_eq_true_iff.1 hboundary) hstop i hi
    simp only [Stack.openEnd?, RangeConstraint.appliedBoundary_plain, Bool.false_and, hbeyond,
      RangeConstraint.groups_plain]

/-- Unless bounds without an end begin below the boundary, the boundary is of no consequence.

**Proof sketch.** The beginning does not depend on the boundary. The end depends on it only if the
beginning is below it. -/
theorem select_plain (h : c.StopsAtApplied → b.stop = none →
    ∀ i, b.BeginsAt s c i → s.applied.length ≤ i) : b.select s c.plain = b.select s c := by
  unfold select
  rw [startIndex_plain]
  cases hstart : b.startIndex s c with
  | error e => rfl
  | ok start =>
    have hstop : b.stopIndex s c.plain start = b.stopIndex s c start := by
      refine stopIndex_plain fun hboundary hnone i hi => ?_
      rw [Option.mem_def.1 hi] at hstart
      exact h hboundary hnone i (startIndex_eq_some_iff.1 hstart)
    simp only [bind, Except.bind, hstop, Stack.between_plain]

/-- Bounds without an end that begin below the boundary go up to it, and without it they go at
least as far.

**Proof sketch.** Both selections have windows from the same index. With the boundary the window
ends at the last applied patch, which is allowed, so that without it the window ends there or later.
-/
theorem select_below_boundary (hboundary : c.StopsAtApplied) (hstop : b.stop = none)
    (hb : b.BeginsAt s c i) (hi : i < s.applied.length) :
    ∃ j, s.applied.length ≤ j + 1 ∧ b.select s c.plain = .ok (s.window i j) ∧
      b.select s c = .ok (s.window i (s.applied.length - 1)) := by
  have hlast := Stack.isGreatest_applied hi
  obtain ⟨j, he, -, hplain⟩ := exists_window_of_no_stop (beginsAt_plain.2 hb) hstop
  obtain ⟨k, hk, -, hcut⟩ := exists_window_of_no_stop hb hstop
  have hj : s.applied.length - 1 ≤ j := by
    rw [endsAt_iff_of_no_stop hstop,
      if_neg (mt And.left c.not_stopsAtApplied_plain)] at he
    -- The last applied patch is allowed, and without the boundary the last allowed one is the end.
    exact he.2 (Stack.allowedIndex_plain.2
      ⟨.applied, hlast.1, allows_applied_of_stopsAtApplied hboundary⟩)
  have hkeq : k = s.applied.length - 1 := by
    rw [endsAt_iff_of_no_stop hstop,
      if_pos ⟨hboundary, Stack.groupAt_eq_applied_iff.2 hi⟩] at hk
    exact hk.unique hlast
  exact ⟨j, by omega, hplain, hkeq ▸ hcut⟩

end Bounds

/-! ## Ranges and the boundary -/

/-- The range has no end, the constraint is one of the two with an applied boundary, and what is
selected without the boundary begins with an applied patch. -/
structure Range.MeetsBoundary (r : Range) (s : Stack) (c : RangeConstraint)
    (names : List PatchName) : Prop where
  /-- The constraint has an applied boundary. -/
  stopsAtApplied : c.StopsAtApplied
  /-- The range has no end. -/
  noEnd : ∃ b, r = .between b ∧ b.stop = none
  /-- The first patch that is selected is applied. -/
  first : ∃ n ∈ s.applied, names.head? = some n

/-- The boundary is of no consequence, or the applied patches of what is selected without it are
selected, and they are its front.

**Proof sketch.** A single locator has no open end. Bounds may stop at the boundary if the
constraint says so, the end is missing and they begin below it. Then the window without the boundary
reaches at least to the last applied patch, and what is cut off it are the patches that are not
applied (`Stack.filter_applied_window`). In all other cases both selections are the same, and a
window that begins with an applied patch would begin below the boundary. -/
theorem Range.boundary_cases (r : Range) (s : Stack) (c : RangeConstraint) :
    (r.select s c = r.select s c.plain ∧
      ∀ names, r.select s c.plain = .ok names → ¬ r.MeetsBoundary s c names) ∨
    ∃ names, r.select s c.plain = .ok names ∧ r.MeetsBoundary s c names ∧
      r.select s c = .ok (names.filter (· ∈ s.applied)) ∧
      names.filter (· ∈ s.applied) <+: names := by
  cases r with
  | single l =>
    refine .inl ⟨by simp only [select, RangeConstraint.asLocation_plain], ?_⟩
    intro names _ hmeets
    obtain ⟨b, hr, -⟩ := hmeets.noEnd
    cases hr
  | between b =>
    by_cases hbelow : c.StopsAtApplied ∧ b.stop = none ∧
        ∃ i, b.BeginsAt s c i ∧ i < s.applied.length
    · obtain ⟨hboundary, hstop, i, hb, hi⟩ := hbelow
      obtain ⟨j, hj, hplain, hcut⟩ := Bounds.select_below_boundary hboundary hstop hb hi
      obtain ⟨n, hn⟩ := Stack.lt_total_iff.1 hb.allowedIndex.lt_total
      have hfirst : (s.window i j).head? = some n := by rw [Stack.head?_window (by omega), hn]
      have hkept := Stack.filter_applied_window hi hj
      have hmeets : (Range.between b).MeetsBoundary s c (s.window i j) :=
        ⟨hboundary, ⟨b, rfl, hstop⟩, n, (Stack.lt_length_applied_iff hn).1 hi, hfirst⟩
      refine .inr ⟨s.window i j, hplain, hmeets, ?_, ?_⟩
      · rw [hkept]
        exact hcut
      · rw [hkept]
        exact Stack.window_prefix (by omega)
    · have hbeyond : c.StopsAtApplied → b.stop = none →
          ∀ i, b.BeginsAt s c i → s.applied.length ≤ i := fun hboundary hstop i hb =>
        Nat.not_lt.1 fun hi => hbelow ⟨hboundary, hstop, i, hb, hi⟩
      refine .inl ⟨(Bounds.select_plain hbeyond).symm, fun names hnames hmeets => ?_⟩
      obtain ⟨hboundary, ⟨b', hr, hstop⟩, n, happlied, hfirst⟩ := hmeets
      cases hr
      rcases Bounds.select_eq_ok_iff.1 hnames with ⟨-, -, -, rfl⟩ | ⟨i, j, hb, he, hij, rfl⟩
      · cases hfirst
      · -- A window that begins with an applied patch begins below the boundary.
        rw [Stack.head?_window hij] at hfirst
        have hge := hbeyond hboundary hstop i (Bounds.beginsAt_plain.1 hb)
        exact absurd ((Stack.lt_length_applied_iff hfirst).2 happlied) (Nat.not_lt.2 hge)

/-- **An applied boundary cuts off what is not applied, and does nothing else.** A constraint with
an applied boundary fails where its plain counterpart fails, with the same error. Where something is
selected, it selects the same patches, unless the range has no end and the first of them is applied:
then it selects the applied ones among them, in their order. So it always selects a beginning of
what is selected without the boundary, and nothing only if that is nothing.

**Proof sketch.** Both constraints allow the same groups, so that a range begins at the same index
and has the same end, if it has one. A range without an end that begins below the boundary goes up
to the last applied patch, and without the boundary to the last allowed patch, which comes not
before it. Since the applied patches are the front of the stack, what is cut off are just the
patches of the other groups. -/
theorem Range.boundary_cuts (r : Range) (s : Stack) (c : RangeConstraint) :
    (∀ e, r.select s c = .error e ↔ r.select s c.plain = .error e) ∧
    ∀ names, r.select s c.plain = .ok names →
      (r.MeetsBoundary s c names → r.select s c = .ok (names.filter (· ∈ s.applied))) ∧
      (¬ r.MeetsBoundary s c names → r.select s c = .ok names) ∧
      ∃ kept, r.select s c = .ok kept ∧ kept <+: names ∧ (kept = [] → names = []) := by
  rcases r.boundary_cases s c with ⟨hsame, hnever⟩ | ⟨names, hplain, hmeets, hcut, hfront⟩
  · rw [hsame]
    exact ⟨fun e => Iff.rfl, fun names hnames =>
      ⟨fun hmeets => absurd hmeets (hnever names hnames), fun _ => hnames,
        names, hnames, List.prefix_rfl, id⟩⟩
  · rw [hplain, hcut]
    refine ⟨fun e => by simp only [reduceCtorEq], ?_⟩
    rintro _ ⟨⟩
    refine ⟨fun _ => rfl, fun hnot => absurd hmeets hnot, _, rfl, hfront, fun hnil => ?_⟩
    obtain ⟨n, happlied, hfirst⟩ := hmeets.first
    have hkept : n ∈ names.filter (· ∈ s.applied) :=
      List.mem_filter.2 ⟨List.mem_of_mem_head? hfirst, decide_eq_true happlied⟩
    rw [hnil] at hkept
    cases hkept

end PatchStack
