import Mathlib.Data.List.Perm.Basic
import PatchStack.Proofs.ArgumentOrder

set_option autoImplicit false

/-!
# Unbroken selections

An unbroken selection is a slice of the stack: the indices of what several ranges select follow one
another, and the patches come back in the order of the stack, not in that of the ranges. So the
ranges may be given in any order. What they select are the same patches in another order, with the
same indices, and so the same slice or the same first gap.

## Main results

* `PatchStack.Stack.Unbroken.map_placed` — patches at consecutive indices are a slice of the stack.
* `PatchStack.selectContiguous_eq_ok_iff`, `PatchStack.selectContiguous_eq_nonContiguous_iff` — what
  an unbroken selection comes to if the ranges select something.
* `PatchStack.selectAll_perm` — ranges in another order select the same patches.
* `PatchStack.selectContiguous_unbroken` — all about unbroken selections.
-/

namespace PatchStack

variable {s : Stack} {c : RangeConstraint}

/-! ## Slices of the stack -/

section Slices

variable {names : List PatchName} {i j : Nat}

/-- The members of a slice stand at its indices. -/
lemma Stack.mem_extract_iff {n : PatchName} :
    n ∈ s.patches.extract i j ↔ ∃ k, i ≤ k ∧ k < j ∧ s.patches[k]? = some n := by
  cases j with
  | zero => simp [List.extract_eq_take_drop]
  | succ j =>
    rw [← Stack.window_eq_extract, Stack.mem_window_iff]
    simp only [Nat.lt_succ_iff]

/-- The patches of a stack stand at increasing indices. -/
lemma Stack.pairwise_patches (s : Stack) :
    s.patches.Pairwise fun a b => s.patches.idxOf a < s.patches.idxOf b := by
  apply List.pairwise_iff_getElem.2
  intro i j hi hj hij
  have hnodup : s.patches.Nodup := s.nodup
  rwa [hnodup.idxOf_getElem, hnodup.idxOf_getElem]

/-- Different patches at consecutive indices are those of a slice.

**Proof sketch.** Both lists have no patch twice, so that it is enough to compare their members, by
the index of each. -/
lemma Stack.Unbroken.perm_extract (h : s.Unbroken names i j) (hs : s.IsSelection names) :
    names.Perm (s.patches.extract i j) := by
  apply (List.perm_ext_iff_of_nodup hs.nodup (s.nodup.sublist (s.extract_sublist i j))).2
  intro n
  rw [Stack.mem_extract_iff]
  constructor
  · intro hn
    have hk := Stack.getElem?_idxOf (hs.mem n hn)
    obtain ⟨hik, hkj⟩ := (h _).1 ⟨n, hn, hk⟩
    exact ⟨_, hik, hkj, hk⟩
  · rintro ⟨k, hik, hkj, hk⟩
    exact (Stack.takenAt_iff_mem hk).1 ((h k).2 ⟨hik, hkj⟩)

/-- The patches that are placed are those that were given. -/
lemma Stack.map_placed_perm (s : Stack) (names : List PatchName) :
    ((s.placed names).map (·.2)).Perm names := by
  have hperm := (List.mergeSort_perm (names.map fun n => (s.patches.idxOf n, n))
    fun a b => decide (a.1 ≤ b.1)).map (·.2)
  rwa [List.map_map, show (fun p : Nat × PatchName => p.2) ∘ (fun n => (s.patches.idxOf n, n)) = id
    from rfl, List.map_id] at hperm

/-- Patches at consecutive indices, in stack order, are a slice of the stack.

**Proof sketch.** The patches in order have the members of the slice. Both lists are increasing in
the stack, so that they are the same. -/
theorem Stack.Unbroken.map_placed (h : s.Unbroken names i j) (hs : s.IsSelection names) :
    (s.placed names).map (·.2) = s.patches.extract i j := by
  have hplaced : ((s.placed names).map (·.2)).Pairwise
      fun a b => s.patches.idxOf a < s.patches.idxOf b := by
    apply List.pairwise_map.2
    refine hs.pairwise_placed.imp_of_mem ?_
    rintro ⟨k, a⟩ ⟨k', b⟩ ha hb hlt
    obtain ⟨hma, hka⟩ := hs.getElem?_of_mem_placed ha
    obtain ⟨hmb, hkb⟩ := hs.getElem?_of_mem_placed hb
    rwa [Stack.index_unique hka (Stack.getElem?_idxOf (hs.mem a hma)),
      Stack.index_unique hkb (Stack.getElem?_idxOf (hs.mem b hmb))] at hlt
  have hslice := s.pairwise_patches.sublist (s.extract_sublist i j)
  have hperm := (s.map_placed_perm names).trans (h.perm_extract hs)
  -- Two lists with the same members that increase in the same way are the same.
  refine hperm.eq_of_pairwise ?_ hplaced hslice
  intro a b _ _ hab hba
  exact absurd hab (Nat.lt_asymm hba)

end Slices

/-! ## Gaps -/

section Gaps

variable {names names' : List PatchName} {a b a' b' : PatchName}

/-- There is no gap between patches at consecutive indices. -/
lemma Stack.IsFirstGap.not_unbroken (h : s.IsFirstGap names a b) (i j : Nat) :
    ¬ s.Unbroken names i j := by
  obtain ⟨first, k, k', hfirst, hkk', -, -, htaken⟩ := h
  intro hrun
  have hk := (hrun k).1 ((htaken k (by omega)).2 (.inl ⟨hfirst, Nat.le_refl k⟩))
  have hk' := (hrun k').1 ((htaken k' (Nat.le_refl k')).2 (.inr rfl))
  have hbetween := (htaken (k + 1) (by omega)).1 ((hrun (k + 1)).2 ⟨by omega, by omega⟩)
  omega

/-- There is one first gap at most.

**Proof sketch.** Up to the end of a gap, what is taken is a run without a gap and that end. If one
of two gaps ended before the other, its end would be in the run of the other, but then so would be
what is between. -/
lemma Stack.IsFirstGap.unique (h : s.IsFirstGap names a b) (h' : s.IsFirstGap names a' b') :
    a = a' ∧ b = b' := by
  obtain ⟨first, i, j, hfirst, hij, hi, hj, htaken⟩ := h
  obtain ⟨first', i', j', hfirst', hij', hi', hj', htaken'⟩ := h'
  have hboth (k : Nat) (hk : k ≤ j) (hk' : k ≤ j') :
      ((first ≤ k ∧ k ≤ i) ∨ k = j) ↔ ((first' ≤ k ∧ k ≤ i') ∨ k = j') :=
    (htaken k hk).symm.trans (htaken' k hk')
  -- If one of the gaps ended before the other, it would lie inside of an unbroken run.
  obtain rfl : j = j' := by
    rcases Nat.lt_trichotomy j j' with hlt | heq | hlt
    · have hstop := hboth j (Nat.le_refl j) (by omega)
      have hlast := hboth i (by omega) (by omega)
      have hnext := hboth (i + 1) (by omega) (by omega)
      omega
    · exact heq
    · have hstop := hboth j' (by omega) (Nat.le_refl j')
      have hlast := hboth i' (by omega) (by omega)
      have hnext := hboth (i' + 1) (by omega) (by omega)
      omega
  obtain rfl : i = i' := by
    have hlast := hboth i (by omega) (by omega)
    have hlast' := hboth i' (by omega) (by omega)
    omega
  exact ⟨Option.some.inj (hi.symm.trans hi'), Option.some.inj (hj.symm.trans hj')⟩

/-- The order of names does not matter for what is taken. -/
lemma Stack.takenAt_congr (h : names.Perm names') {k : Nat} :
    s.TakenAt names k ↔ s.TakenAt names' k := by
  simp only [Stack.TakenAt, h.mem_iff]

/-- Names are without a gap in any order. -/
lemma Stack.Unbroken.perm {i j : Nat} (hrun : s.Unbroken names i j) (h : names.Perm names') :
    s.Unbroken names' i j :=
  fun k => (Stack.takenAt_congr h).symm.trans (hrun k)

/-- Names have the same first gap in any order. -/
lemma Stack.IsFirstGap.perm (hgap : s.IsFirstGap names a b) (h : names.Perm names') :
    s.IsFirstGap names' a b := by
  obtain ⟨first, i, j, hfirst, hij, hi, hj, htaken⟩ := hgap
  exact ⟨first, i, j, hfirst, hij, hi, hj,
    fun k hk => (Stack.takenAt_congr h).symm.trans (htaken k hk)⟩

end Gaps

/-! ## Selecting without a gap -/

section Selecting

variable {ranges : List Range} {names selected : List PatchName}

/-- Different patches are an unbroken run, or there is a first gap between them. -/
lemma Stack.IsSelection.unbroken_or_isFirstGap (hs : s.IsSelection selected) :
    (∃ i j, s.Unbroken selected i j) ∨ ∃ a b, s.IsFirstGap selected a b := by
  cases hgap : firstGap? (s.placed selected) with
  | none => exact .inl (hs.exists_unbroken hgap)
  | some p => exact .inr ⟨p.1, p.2, hs.isFirstGap hgap⟩

/-- Ranges that fail to select patches fail to do so without a gap. -/
lemma selectContiguous_of_error {e : Error} (h : selectAll ranges s c = .error e) :
    selectContiguous ranges s c = .error e := by
  rw [selectContiguous, h]
  rfl

/-- Where the selected patches are an unbroken run, it is the slice at their indices. -/
lemma selectContiguous_of_unbroken {i j : Nat} (h : selectAll ranges s c = .ok selected)
    (hrun : s.Unbroken selected i j) :
    selectContiguous ranges s c = .ok (s.patches.extract i j) := by
  have hs := isSelection_selectAll h
  rw [selectContiguous_eq h, hrun.map_placed hs]
  cases hgap : firstGap? (s.placed selected) with
  | none => rfl
  | some p => exact absurd hrun ((hs.isFirstGap hgap).not_unbroken i j)

/-- Where there is a gap between the selected patches, the first one is reported.

**Proof sketch.** The search finds a gap, since the selection is no slice, and the first gap is
unique. -/
lemma selectContiguous_of_isFirstGap {a b : PatchName} (h : selectAll ranges s c = .ok selected)
    (hfirst : s.IsFirstGap selected a b) :
    selectContiguous ranges s c = .error (.nonContiguous a.text b.text) := by
  have hs := isSelection_selectAll h
  rw [selectContiguous_eq h]
  cases hgap : firstGap? (s.placed selected) with
  | none =>
    obtain ⟨i, j, hrun⟩ := hs.exists_unbroken hgap
    exact absurd hrun (hfirst.not_unbroken i j)
  | some p =>
    obtain ⟨rfl, rfl⟩ := (hs.isFirstGap hgap).unique hfirst
    rfl

/-- An unbroken selection is made only of an unbroken run.

**Proof sketch.** The ranges fail to select, or what they select is unbroken or has a first gap. -/
theorem selectContiguous_eq_ok_iff :
    selectContiguous ranges s c = .ok names ↔
      ∃ selected i j, selectAll ranges s c = .ok selected ∧ s.Unbroken selected i j ∧
        names = s.patches.extract i j := by
  constructor
  · intro h
    cases hselected : selectAll ranges s c with
    | error e =>
      rw [selectContiguous_of_error hselected] at h
      cases h
    | ok selected =>
      rcases (isSelection_selectAll hselected).unbroken_or_isFirstGap with
        ⟨i, j, hrun⟩ | ⟨a, b, hfirst⟩
      · rw [selectContiguous_of_unbroken hselected hrun] at h
        exact ⟨selected, i, j, rfl, hrun, (Except.ok.inj h).symm⟩
      · rw [selectContiguous_of_isFirstGap hselected hfirst] at h
        cases h
  · rintro ⟨selected, i, j, hselected, hrun, rfl⟩
    exact selectContiguous_of_unbroken hselected hrun

/-- A gap is reported only where there is one: no range fails because of a gap.

**Proof sketch.** The ranges fail to select, for which this is no reason, or what they select is
unbroken or has a first gap. -/
theorem selectContiguous_eq_nonContiguous_iff {x y : Text} :
    selectContiguous ranges s c = .error (.nonContiguous x y) ↔
      ∃ selected a b, selectAll ranges s c = .ok selected ∧ s.IsFirstGap selected a b ∧
        x = a.text ∧ y = b.text := by
  constructor
  · intro h
    cases hselected : selectAll ranges s c with
    | error e =>
      rw [selectContiguous_of_error hselected] at h
      obtain rfl := Except.error.inj h
      exact absurd rfl ((firstError_of_selectAll hselected).ne_nonContiguous x y)
    | ok selected =>
      rcases (isSelection_selectAll hselected).unbroken_or_isFirstGap with
        ⟨i, j, hrun⟩ | ⟨a, b, hfirst⟩
      · rw [selectContiguous_of_unbroken hselected hrun] at h
        cases h
      · rw [selectContiguous_of_isFirstGap hselected hfirst] at h
        cases h
        exact ⟨selected, a, b, rfl, hfirst, rfl, rfl⟩
  · rintro ⟨selected, a, b, hselected, hfirst, rfl, rfl⟩
    exact selectContiguous_of_isFirstGap hselected hfirst

end Selecting

/-! ## The order of the ranges -/

section Order

variable {ranges ranges' : List Range} {names : List PatchName}

/-- Ranges in another order select the same patches, in the order of these ranges. -/
theorem selectAll_perm (h : ranges.Perm ranges') (hnames : selectAll ranges s c = .ok names) :
    ∃ names', selectAll ranges' s c = .ok names' ∧ names.Perm names' := by
  obtain ⟨lists, hlists, hnodup, rfl⟩ := selectAll_eq_ok_iff.1 hnames
  obtain ⟨lists', hlists', hperm⟩ := List.perm_comp_forall₂ h.symm hlists
  have hflatten := hperm.symm.flatten
  exact ⟨lists'.flatten,
    selectAll_eq_ok_iff.2 ⟨lists', hlists', hflatten.nodup_iff.1 hnodup, rfl⟩, hflatten⟩

/-- Ranges select the same patches in any order. -/
lemma selectContiguous_perm (h : ranges.Perm ranges')
    (hnames : selectContiguous ranges s c = .ok names) :
    selectContiguous ranges' s c = .ok names := by
  obtain ⟨selected, i, j, hselected, hrun, hslice⟩ := selectContiguous_eq_ok_iff.1 hnames
  obtain ⟨selected', hselected', hperm⟩ := selectAll_perm h hselected
  exact selectContiguous_eq_ok_iff.2 ⟨selected', i, j, hselected', hrun.perm hperm, hslice⟩

/-- Ranges have the same first gap in any order. -/
lemma selectContiguous_nonContiguous_perm {x y : Text} (h : ranges.Perm ranges')
    (hgap : selectContiguous ranges s c = .error (.nonContiguous x y)) :
    selectContiguous ranges' s c = .error (.nonContiguous x y) := by
  obtain ⟨selected, a, b, hselected, hfirst, hx, hy⟩ :=
    selectContiguous_eq_nonContiguous_iff.1 hgap
  obtain ⟨selected', hselected', hperm⟩ := selectAll_perm h hselected
  exact selectContiguous_eq_nonContiguous_iff.2
    ⟨selected', a, b, hselected', hfirst.perm hperm, hx, hy⟩

end Order

/-! ## All about unbroken selections -/

/-- **An unbroken selection is a slice of the stack, whatever the order of the ranges.** It is made
exactly if the ranges select patches at consecutive indices, which may be none at all, and then it
is the slice of the stack at these indices, with the patches that the ranges select. If there is a
gap between the selected patches, the two patches around the first one in stack order are reported,
and if the ranges do not select patches, so is what they fail with. Ranges in another order lead to
the same slice and to the same gap.

**Proof sketch.** The selected patches are different patches of the stack, and so they are placed at
increasing indices. Without a gap these are consecutive, and the patches are those of a slice; both
lists have the same members and increase in the same way. A first gap is a matter of which indices
are taken, and ranges in another order take the same ones (`selectAll_perm`). -/
theorem selectContiguous_unbroken (ranges : List Range) (s : Stack) (c : RangeConstraint) :
    (∀ names, selectContiguous ranges s c = .ok names ↔
      ∃ selected i j, selectAll ranges s c = .ok selected ∧ s.Unbroken selected i j ∧
        names = s.patches.extract i j) ∧
    (∀ names selected, selectContiguous ranges s c = .ok names →
      selectAll ranges s c = .ok selected → names.Perm selected) ∧
    (∀ selected, selectAll ranges s c = .ok selected → (¬ ∃ i j, s.Unbroken selected i j) →
      ∃ a b, s.IsFirstGap selected a b ∧
        selectContiguous ranges s c = .error (.nonContiguous a.text b.text)) ∧
    (∀ x y, selectContiguous ranges s c = .error (.nonContiguous x y) ↔
      ∃ selected a b, selectAll ranges s c = .ok selected ∧ s.IsFirstGap selected a b ∧
        x = a.text ∧ y = b.text) ∧
    (∀ e, selectAll ranges s c = .error e → selectContiguous ranges s c = .error e) ∧
    ∀ ranges', ranges.Perm ranges' →
      (∀ names, selectContiguous ranges s c = .ok names ↔
        selectContiguous ranges' s c = .ok names) ∧
      ∀ x y, selectContiguous ranges s c = .error (.nonContiguous x y) ↔
        selectContiguous ranges' s c = .error (.nonContiguous x y) := by
  refine ⟨fun names => selectContiguous_eq_ok_iff, ?_, ?_,
    fun x y => selectContiguous_eq_nonContiguous_iff, fun e => selectContiguous_of_error, ?_⟩
  · intro names selected hnames hselected
    obtain ⟨selected', i, j, hselected', hrun, rfl⟩ := selectContiguous_eq_ok_iff.1 hnames
    obtain rfl := Except.ok.inj (hselected.symm.trans hselected')
    exact (hrun.perm_extract (isSelection_selectAll hselected)).symm
  · intro selected hselected hbroken
    rcases (isSelection_selectAll hselected).unbroken_or_isFirstGap with hrun | ⟨a, b, hfirst⟩
    · exact absurd hrun hbroken
    · exact ⟨a, b, hfirst, selectContiguous_of_isFirstGap hselected hfirst⟩
  · intro ranges' h
    exact ⟨fun names => ⟨selectContiguous_perm h, selectContiguous_perm h.symm⟩,
      fun x y => ⟨selectContiguous_nonContiguous_perm h,
        selectContiguous_nonContiguous_perm h.symm⟩⟩

end PatchStack
