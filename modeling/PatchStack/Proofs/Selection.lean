import Mathlib.Data.List.Induction
import Mathlib.Order.Bounds.Basic
import PatchStack.Proofs.Positions

set_option autoImplicit false

/-!
# What bounds select

The groups that a constraint allows lie next to each other in the order of a stack. From this
it follows that what lies between two allowed indices is allowed, and that a missing bound
never comes on the wrong side of the other one, whichever of the groups are empty.

## Main definitions

* `PatchStack.Group.rank` — the place of a group in the order of a stack.
* `PatchStack.RangeConstraint.StopsAtApplied` — the two constraints with an applied boundary.
* `PatchStack.Stack.AllowedIndex` — is the patch at an index allowed?
* `PatchStack.Stack.window` — the patches from one index to another.
* `PatchStack.Bounds.BeginsAt`, `PatchStack.Bounds.EndsAt` — where bounds begin and end, said
  without the order in which the groups are searched.

## Main results

* `PatchStack.Stack.AllowedIndex.of_between` — the allowed indices are convex.
* `PatchStack.Stack.isLeast_firstIndex?`, `PatchStack.Stack.isGreatest_lastIndex?` — the search
  through the groups finds the first and the last index of them all.
* `PatchStack.Stack.slice_eq_window` — between two allowed indices nothing is refused.
* `PatchStack.Bounds.select_cases` — the four outcomes of a selection.
* `PatchStack.Bounds.select_spec` — what is selected, and when nothing is or bounds are refused.
-/

namespace PatchStack

/-- The place of a group in the order of a stack. -/
def Group.rank : Group → Nat
  | .applied => 0
  | .unapplied => 1
  | .hidden => 2

namespace RangeConstraint

variable {c : RangeConstraint}

/-- The constraint is one of the two with an applied boundary. -/
def StopsAtApplied (c : RangeConstraint) : Prop :=
  c = .allWithAppliedBoundary ∨ c = .visibleWithAppliedBoundary

instance : Decidable c.StopsAtApplied := inferInstanceAs (Decidable (_ ∨ _))

/-- These two are the constraints under which open ranges are stopped. -/
lemma appliedBoundary_eq_true_iff : c.appliedBoundary = true ↔ c.StopsAtApplied := by
  cases c <;> decide

/-- The groups of a constraint are those that it allows. -/
@[simp]
lemma mem_groups {g : Group} : g ∈ c.groups ↔ c.allows g = true := by
  cases g <;> simp [groups, Group.inOrder]

/-- The allowed groups are listed in the order of a stack. -/
lemma pairwise_groups : c.groups.Pairwise fun g g' => g.rank < g'.rank :=
  List.Pairwise.filter _ (by decide)

/-- A group between two allowed groups is allowed. -/
lemma allows_of_between {g g' h : Group} (hg : c.allows g = true) (hg' : c.allows g' = true)
    (hle : g.rank ≤ h.rank) (hge : h.rank ≤ g'.rank) : c.allows h = true := by
  by_cases hfirst : h = g
  · rwa [hfirst]
  by_cases hlast : h = g'
  · rwa [hlast]
  -- Only the unapplied patches have a group on either side.
  obtain ⟨rfl, rfl, rfl⟩ : g = .applied ∧ h = .unapplied ∧ g' = .hidden := by
    cases g <;> cases h <;> cases g' <;> simp_all [Group.rank]
  cases c <;> simp_all [allows]

end RangeConstraint

namespace Stack

variable {s : Stack} {c : RangeConstraint}

/-! ## Allowed indices -/

/-- Is there a patch at the index, in a group that the constraint allows? -/
def AllowedIndex (s : Stack) (c : RangeConstraint) (i : Nat) : Prop :=
  ∃ g, s.groupAt i = .ok g ∧ c.allows g = true

/-- A group ends before the later groups begin. -/
lemma groupStart_add_length_le_groupStart {g g' : Group} (h : g.rank < g'.rank) :
    s.groupStart g + (s.patchesIn g).length ≤ s.groupStart g' := by
  cases g <;> cases g' <;> simp only [Group.rank] at h <;>
    simp only [groupStart, patchesIn] <;> omega

/-- The groups of a stack come in their order. -/
theorem rank_le_of_groupAt {i j : Nat} {g g' : Group} (hij : i ≤ j) (hi : s.groupAt i = .ok g)
    (hj : s.groupAt j = .ok g') : g.rank ≤ g'.rank := by
  rw [groupAt_eq_ok_iff] at hi hj
  by_contra hlt
  have := s.groupStart_add_length_le_groupStart (Nat.not_le.1 hlt)
  omega

/-- An allowed index is one of the stack. -/
lemma AllowedIndex.lt_total {i : Nat} (h : s.AllowedIndex c i) : i < s.total := by
  obtain ⟨g, hg, -⟩ := h
  exact lt_total_of_groupAt hg

/-- What lies between two allowed indices is allowed. -/
theorem AllowedIndex.of_between {i j k : Nat} (hi : s.AllowedIndex c i) (hj : s.AllowedIndex c j)
    (hik : i ≤ k) (hkj : k ≤ j) : s.AllowedIndex c k := by
  have hk : k < s.total := Nat.lt_of_le_of_lt hkj hj.lt_total
  obtain ⟨g, hg, ha⟩ := hi
  obtain ⟨g', hg', ha'⟩ := hj
  obtain ⟨h, hh⟩ := exists_groupAt hk
  exact ⟨h, hh, RangeConstraint.allows_of_between ha ha' (rank_le_of_groupAt hik hg hh)
    (rank_le_of_groupAt hkj hh hg')⟩

/-- An index is allowed if its group is one of the groups of the constraint. -/
lemma allowedIndex_iff_mem_groups {i : Nat} :
    s.AllowedIndex c i ↔ ∃ g ∈ c.groups, s.groupAt i = .ok g := by
  constructor
  · rintro ⟨g, hg, ha⟩
    exact ⟨g, RangeConstraint.mem_groups.2 ha, hg⟩
  · rintro ⟨g, ha, hg⟩
    exact ⟨g, hg, RangeConstraint.mem_groups.1 ha⟩

/-- An allowed patch exists exactly if one of the allowed groups has a patch. -/
lemma exists_allowedIndex_iff :
    (∃ i, s.AllowedIndex c i) ↔ ∃ g, c.allows g = true ∧ s.patchesIn g ≠ [] := by
  constructor
  · rintro ⟨i, g, hg, ha⟩
    refine ⟨g, ha, fun hnil => ?_⟩
    rw [groupAt_eq_ok_iff, hnil, List.length_nil] at hg
    omega
  · rintro ⟨g, ha, hne⟩
    have := List.length_pos_iff.2 hne
    exact ⟨s.groupStart g, g, groupAt_eq_ok_iff.2 ⟨by omega, by omega⟩, ha⟩

/-- No index is allowed exactly if the allowed groups are empty. -/
lemma not_exists_allowedIndex_iff :
    (¬ ∃ i, s.AllowedIndex c i) ↔ ∀ g, c.allows g = true → s.patchesIn g = [] := by
  rw [exists_allowedIndex_iff]
  simp

/-! ## Missing bounds -/

/-- The first index is that of the first group, unless it is empty. -/
lemma firstIndex?_cons {g : Group} {gs : List Group} :
    s.firstIndex? (g :: gs) =
      if s.patchesIn g = [] then s.firstIndex? gs else some (s.groupStart g) := by
  cases h : s.patchesIn g <;> simp [firstIndex?, h]

/-- The last index is that of the last group, unless it is empty. -/
lemma lastIndex?_concat {g : Group} {gs : List Group} :
    s.lastIndex? (gs ++ [g]) =
      if s.patchesIn g = [] then s.lastIndex? gs
      else some (s.groupStart g + (s.patchesIn g).length - 1) := by
  cases h : s.patchesIn g <;> simp [lastIndex?, h]

/-- No index belongs to a group without patches. -/
lemma groupAt_ne_of_nil {g : Group} (h : s.patchesIn g = []) {i : Nat} :
    s.groupAt i ≠ .ok g := by
  intro hg
  rw [groupAt_eq_ok_iff, h, List.length_nil] at hg
  omega

/-- The first group that has a patch begins at the first index of all the groups.

**Proof sketch.** By induction on the groups. If the first one is empty it has no index; if not, it
begins before all groups behind it, since these come later in the stack. -/
theorem isLeast_firstIndex? {gs : List Group} {i : Nat}
    (hgs : gs.Pairwise fun g g' => g.rank < g'.rank) (h : s.firstIndex? gs = some i) :
    IsLeast {k : Nat | ∃ g ∈ gs, s.groupAt k = .ok g} i := by
  induction gs with
  | nil => cases h
  | cons g gs ih =>
    obtain ⟨hlater, hgs⟩ := List.pairwise_cons.1 hgs
    rw [firstIndex?_cons] at h
    split_ifs at h with hnil
    · obtain ⟨⟨g', hg', hi⟩, hleast⟩ := ih hgs h
      refine ⟨⟨g', List.mem_cons_of_mem g hg', hi⟩, ?_⟩
      rintro k ⟨g'', hg'', hk⟩
      rcases List.mem_cons.1 hg'' with rfl | hmem
      · exact absurd hk (groupAt_ne_of_nil hnil)
      · exact hleast ⟨g'', hmem, hk⟩
    · cases h
      have := List.length_pos_iff.2 hnil
      refine ⟨⟨g, List.mem_cons_self, groupAt_eq_ok_iff.2 ⟨by omega, by omega⟩⟩, ?_⟩
      rintro k ⟨g', hg', hk⟩
      rw [groupAt_eq_ok_iff] at hk
      rcases List.mem_cons.1 hg' with rfl | hmem
      · omega
      · have := s.groupStart_add_length_le_groupStart (hlater g' hmem)
        omega

/-- The last group that has a patch ends at the last index of all the groups.

**Proof sketch.** By induction from the last group. If it is empty it has no index; if not, it ends
behind all groups before it, since these come earlier in the stack. -/
theorem isGreatest_lastIndex? {gs : List Group} {i : Nat}
    (hgs : gs.Pairwise fun g g' => g.rank < g'.rank) (h : s.lastIndex? gs = some i) :
    IsGreatest {k : Nat | ∃ g ∈ gs, s.groupAt k = .ok g} i := by
  induction gs using List.reverseRecOn with
  | nil => cases h
  | append_singleton gs g ih =>
    obtain ⟨hgs, -, hearlier⟩ := List.pairwise_append.1 hgs
    rw [lastIndex?_concat] at h
    split_ifs at h with hnil
    · obtain ⟨⟨g', hg', hi⟩, hgreatest⟩ := ih hgs h
      refine ⟨⟨g', List.mem_append_left _ hg', hi⟩, ?_⟩
      rintro k ⟨g'', hg'', hk⟩
      rcases List.mem_append.1 hg'' with hmem | hmem
      · exact hgreatest ⟨g'', hmem, hk⟩
      · obtain rfl := List.mem_singleton.1 hmem
        exact absurd hk (groupAt_ne_of_nil hnil)
    · cases h
      have := List.length_pos_iff.2 hnil
      refine ⟨⟨g, by simp, groupAt_eq_ok_iff.2 ⟨by omega, by omega⟩⟩, ?_⟩
      rintro k ⟨g', hg', hk⟩
      rw [groupAt_eq_ok_iff] at hk
      rcases List.mem_append.1 hg' with hmem | hmem
      · have := s.groupStart_add_length_le_groupStart (hearlier g' hmem g (by simp))
        omega
      · obtain rfl := List.mem_singleton.1 hmem
        omega

/-- The search from the front finds the first allowed index, if there is one.

**Proof sketch.** What the search finds is the least index. Where it finds nothing, every group it
looks at is empty, and no index is allowed. -/
theorem firstIndex?_eq_some_iff {i : Nat} :
    s.firstIndex? c.groups = some i ↔ IsLeast {k | s.AllowedIndex c k} i := by
  have hfound {k : Nat} (h : s.firstIndex? c.groups = some k) :
      IsLeast {k | s.AllowedIndex c k} k := by
    simpa only [allowedIndex_iff_mem_groups] using
      isLeast_firstIndex? RangeConstraint.pairwise_groups h
  refine ⟨hfound, fun h => ?_⟩
  cases hf : s.firstIndex? c.groups with
  | some k => rw [(hfound hf).unique h]
  | none =>
    obtain ⟨g, hg, hi⟩ := allowedIndex_iff_mem_groups.1 h.1
    have hnil : ∀ g ∈ c.groups, s.patchesIn g = [] := by simpa [firstIndex?] using hf
    exact absurd hi (groupAt_ne_of_nil (hnil g hg))

/-- The search from the back finds the last allowed index, if there is one.

**Proof sketch.** What the search finds is the greatest index. Where it finds nothing, every group
it looks at is empty, and no index is allowed. -/
theorem lastIndex?_eq_some_iff {i : Nat} :
    s.lastIndex? c.groups = some i ↔ IsGreatest {k | s.AllowedIndex c k} i := by
  have hfound {k : Nat} (h : s.lastIndex? c.groups = some k) :
      IsGreatest {k | s.AllowedIndex c k} k := by
    simpa only [allowedIndex_iff_mem_groups] using
      isGreatest_lastIndex? RangeConstraint.pairwise_groups h
  refine ⟨hfound, fun h => ?_⟩
  cases hf : s.lastIndex? c.groups with
  | some k => rw [(hfound hf).unique h]
  | none =>
    obtain ⟨g, hg, hi⟩ := allowedIndex_iff_mem_groups.1 h.1
    have hnil : ∀ g ∈ c.groups, s.patchesIn g = [] := by simpa [lastIndex?] using hf
    exact absurd hi (groupAt_ne_of_nil (hnil g hg))

/-- There is no first index if no index is allowed. -/
lemma firstIndex?_eq_none_iff : s.firstIndex? c.groups = none ↔ ¬ ∃ i, s.AllowedIndex c i := by
  rw [exists_allowedIndex_iff]
  simp [firstIndex?]

/-- There is no last index if no index is allowed. -/
lemma lastIndex?_eq_none_iff : s.lastIndex? c.groups = none ↔ ¬ ∃ i, s.AllowedIndex c i := by
  rw [exists_allowedIndex_iff]
  simp [lastIndex?]

/-- An index is applied if it comes before the end of the applied patches. -/
lemma groupAt_eq_applied_iff {i : Nat} : s.groupAt i = .ok .applied ↔ i < s.applied.length := by
  rw [groupAt_eq_ok_iff]
  simp only [groupStart, patchesIn]
  omega

/-- The last applied index, if there is an applied one. -/
lemma isGreatest_applied {i : Nat} (hi : i < s.applied.length) :
    IsGreatest {k : Nat | s.groupAt k = .ok .applied} (s.applied.length - 1) := by
  simp only [groupAt_eq_applied_iff]
  exact ⟨by simp; omega, fun k hk => by simp at hk; omega⟩

/-- Where a range without an end stops that begins at `i`: at the last applied patch if the
constraint has an applied boundary and the patch at `i` is applied, else at the last allowed one.

**Proof sketch.** A patch is applied exactly if its index is below the number of applied patches,
and then the last of these is the greatest such index. -/
theorem openEnd?_eq_some_iff {i j : Nat} :
    s.openEnd? c (some i) = some j ↔
      if c.StopsAtApplied ∧ s.groupAt i = .ok .applied then
        IsGreatest {k : Nat | s.groupAt k = .ok .applied} j
      else IsGreatest {k | s.AllowedIndex c k} j := by
  by_cases hboundary : c.StopsAtApplied ∧ s.groupAt i = .ok .applied
  · have hi := groupAt_eq_applied_iff.1 hboundary.2
    have hlast := isGreatest_applied hi
    have hend : s.openEnd? c (some i) = some (s.applied.length - 1) := by
      simp [openEnd?, RangeConstraint.appliedBoundary_eq_true_iff.2 hboundary.1, hi]
    rw [if_pos hboundary, hend, Option.some.injEq]
    exact ⟨fun h => h ▸ hlast, fun h => hlast.unique h⟩
  · have hend : s.openEnd? c (some i) = s.lastIndex? c.groups := by
      rw [groupAt_eq_applied_iff, ← RangeConstraint.appliedBoundary_eq_true_iff] at hboundary
      simp [openEnd?, hboundary]
    rw [if_neg hboundary, hend, lastIndex?_eq_some_iff]

/-! ## Slices -/

/-- The patches from one index to another, both included. -/
def window (s : Stack) (i j : Nat) : List PatchName := (s.patches.drop i).take (j + 1 - i)

/-- A window that begins before it ends has a patch. -/
lemma window_ne_nil {i j : Nat} (hij : i ≤ j) (hj : j < s.total) : s.window i j ≠ [] := by
  intro h
  have := congrArg List.length h
  rw [window, List.length_take, List.length_drop, ← total_eq, List.length_nil] at this
  omega

/-- A window begins with the patch at its first index. -/
lemma head?_window {i j : Nat} (hij : i ≤ j) : (s.window i j).head? = s.patches[i]? := by
  rw [window, List.head?_take, if_neg (by omega), List.head?_drop]

/-- A window ends with the patch at its last index. -/
lemma getLast?_window {i j : Nat} (hij : i ≤ j) (hj : j < s.total) :
    (s.window i j).getLast? = s.patches[j]? := by
  have hlength : (s.window i j).length = j + 1 - i := by
    rw [window, List.length_take, List.length_drop, ← total_eq]
    omega
  rw [List.getLast?_eq_getElem?, hlength, window, List.getElem?_take_of_lt (by omega),
    List.getElem?_drop]
  congr 1
  omega

/-- The members of a window stand at its indices.

**Proof sketch.** The window drops what is in front of the first index and takes what is up to the
last one. -/
lemma mem_window_iff {i j : Nat} {n : PatchName} :
    n ∈ s.window i j ↔ ∃ k, i ≤ k ∧ k ≤ j ∧ s.patches[k]? = some n := by
  rw [window, List.mem_iff_getElem?]
  constructor
  · rintro ⟨k, hk⟩
    have hlt : k < j + 1 - i := by
      by_contra hge
      rw [List.getElem?_eq_none (by rw [List.length_take]; omega)] at hk
      cases hk
    rw [List.getElem?_take_of_lt hlt, List.getElem?_drop] at hk
    exact ⟨i + k, by omega, by omega, hk⟩
  · rintro ⟨k, hik, hkj, hk⟩
    refine ⟨k - i, ?_⟩
    rw [List.getElem?_take_of_lt (by omega), List.getElem?_drop, Nat.add_sub_cancel' hik, hk]

/-- At an allowed index the patch is given out. -/
lemma allowedAt_eq_ok {i : Nat} {n : PatchName} (hn : s.patches[i]? = some n)
    (ha : s.AllowedIndex c i) : s.allowedAt c i = .ok n := by
  obtain ⟨g, hg, hc⟩ := ha
  rw [allowedAt, hg, patchAt_eq_ok_iff.2 ⟨i, rfl, hn⟩]
  exact if_pos hc

/-- A run of allowed indices is answered with the patches there.

**Proof sketch.** By induction on the length, from the front. -/
lemma mapM_allowedAt {len : Nat} : ∀ {i : Nat},
    (∀ k, i ≤ k → k < i + len → s.AllowedIndex c k) →
      (List.range' i len).mapM (s.allowedAt c) = .ok ((s.patches.drop i).take len) := by
  induction len with
  | zero => intro i _; simp [pure, Except.pure]
  | succ len ih =>
    intro i h
    have hi := h i (by omega) (by omega)
    have hlt : i < s.patches.length := by rw [← total_eq]; exact hi.lt_total
    have hfirst := allowedAt_eq_ok (List.getElem?_eq_getElem hlt) hi
    have hrest := ih (i := i + 1) fun k hk hlt => h k (by omega) (by omega)
    rw [List.range'_succ, List.mapM_cons, hfirst, hrest, List.drop_eq_getElem_cons hlt]
    rfl

/-- Between two allowed indices no patch is refused. -/
theorem slice_eq_window {i j : Nat} (hi : s.AllowedIndex c i) (hj : s.AllowedIndex c j)
    (hij : i ≤ j) : s.slice c i j = .ok (s.window i j) :=
  mapM_allowedAt fun _ hk hlt => hi.of_between hj hk (by omega)

/-- Between two allowed indices lies a window, unless they are in the wrong order.

**Proof sketch.** The patches at both indices exist. If they are in order, all indices between them
are allowed, so that the slice is the window. -/
lemma between_cases {i j : Nat} (hi : s.AllowedIndex c i) (hj : s.AllowedIndex c j) :
    (i ≤ j ∧ s.between c (some i) (some j) = .ok (s.window i j)) ∨
      ∃ first last, j < i ∧ s.patches[i]? = some first ∧ s.patches[j]? = some last ∧
        s.between c (some i) (some j) = .error (.invertedRange first.text last.text) := by
  simp only [between]
  by_cases hlt : j < i
  · have hpi : i < s.patches.length := by
      rw [← total_eq]
      exact hi.lt_total
    have hpj : j < s.patches.length := by omega
    have hfirst := List.getElem?_eq_getElem hpi
    have hlast := List.getElem?_eq_getElem hpj
    refine .inr ⟨_, _, hlt, hfirst, hlast, ?_⟩
    rw [if_pos hlt, patchAt_eq_ok_iff.2 ⟨i, rfl, hfirst⟩, patchAt_eq_ok_iff.2 ⟨j, rfl, hlast⟩]
    rfl
  · have hij : i ≤ j := Nat.not_lt.1 hlt
    rw [if_neg hlt]
    exact .inl ⟨hij, slice_eq_window hi hj hij⟩

/-! ## Bounds of their own -/

/-- A bound has the index of the position of its locator, if the patch there is allowed.

**Proof sketch.** The patch that the locator resolves to is looked up again, and is found where it
stands, since no patch stands at two places. -/
theorem boundIndex_eq_ok_iff {l : Locator} {i : Nat} :
    s.boundIndex c l = .ok i ↔ l.position .base s = .ok (i : Int) ∧ s.AllowedIndex c i := by
  simp only [boundIndex, bind_eq_ok_iff, Locator.resolve_eq_ok_iff,
    RangeConstraint.allows_asLocation]
  constructor
  · rintro ⟨n, ⟨k, g, hp, hn, hg, ha⟩, hi⟩
    rw [indexOf_text hn] at hi
    cases hi
    exact ⟨hp, g, hg, ha⟩
  · rintro ⟨hp, g, hg, ha⟩
    have hlt : i < s.patches.length := by rw [← total_eq]; exact lt_total_of_groupAt hg
    have hn := List.getElem?_eq_getElem hlt
    exact ⟨_, ⟨i, g, hp, hn, hg, ha⟩, indexOf_text hn⟩

/-- A bound has no index only if its locator does not resolve. -/
theorem boundIndex_eq_error_iff {l : Locator} {e : Error} :
    s.boundIndex c l = .error e ↔ l.resolve s c.asLocation = .error e := by
  simp only [boundIndex, bind_eq_error_iff, or_iff_left_iff_imp]
  rintro ⟨n, hn, hi⟩
  obtain ⟨i, g, -, hat, -⟩ := Locator.resolve_eq_ok_iff.1 hn
  rw [indexOf_text hat] at hi
  cases hi

end Stack

namespace Bounds

variable {b : Bounds} {s : Stack} {c : RangeConstraint} {i j : Nat}

/-! ## Where bounds begin and end -/

/-- Bounds begin at the position of their begin, where an allowed patch has to be, or without a
begin at the first allowed index. -/
def BeginsAt (b : Bounds) (s : Stack) (c : RangeConstraint) (i : Nat) : Prop :=
  match b.start with
  | some l => l.position .base s = .ok (i : Int) ∧ s.AllowedIndex c i
  | none => IsLeast {k | s.AllowedIndex c k} i

/-- Bounds that begin at `i` end at the position of their end, where an allowed patch has to be.
Without an end they end at the last allowed index, or at the last applied one if the constraint is
one of the two with an applied boundary and the patch at `i` is applied. -/
def EndsAt (b : Bounds) (s : Stack) (c : RangeConstraint) (i j : Nat) : Prop :=
  match b.stop with
  | some l => l.position .base s = .ok (j : Int) ∧ s.AllowedIndex c j
  | none =>
    if c.StopsAtApplied ∧ s.groupAt i = .ok .applied then
      IsGreatest {k : Nat | s.groupAt k = .ok .applied} j
    else IsGreatest {k | s.AllowedIndex c k} j

/-- Bounds with a begin begin at its position, if that is allowed. -/
lemma beginsAt_iff_of_start {l : Locator} (h : b.start = some l) :
    b.BeginsAt s c i ↔ l.position .base s = .ok (i : Int) ∧ s.AllowedIndex c i := by
  unfold BeginsAt
  rw [h]

/-- Bounds with an end end at its position, if that is allowed. -/
lemma endsAt_iff_of_stop {l : Locator} (h : b.stop = some l) :
    b.EndsAt s c i j ↔ l.position .base s = .ok (j : Int) ∧ s.AllowedIndex c j := by
  unfold EndsAt
  rw [h]

/-- Bounds without an end stop at the last applied patch or at the last allowed one. -/
lemma endsAt_iff_of_no_stop (h : b.stop = none) :
    b.EndsAt s c i j ↔
      if c.StopsAtApplied ∧ s.groupAt i = .ok .applied then
        IsGreatest {k : Nat | s.groupAt k = .ok .applied} j
      else IsGreatest {k | s.AllowedIndex c k} j := by
  unfold EndsAt
  rw [h]

/-- Bounds begin at an allowed index. -/
lemma BeginsAt.allowedIndex (h : b.BeginsAt s c i) : s.AllowedIndex c i := by
  unfold BeginsAt at h
  split at h
  · exact h.2
  · exact h.1

/-- A constraint with an applied boundary allows applied patches. -/
lemma allows_applied_of_stopsAtApplied (h : c.StopsAtApplied) : c.allows .applied = true := by
  rcases h with rfl | rfl <;> rfl

/-- Bounds end at an allowed index. -/
lemma EndsAt.allowedIndex (h : b.EndsAt s c i j) : s.AllowedIndex c j := by
  unfold EndsAt at h
  split at h
  · exact h.2
  · split_ifs at h with hboundary
    · exact ⟨.applied, h.1, allows_applied_of_stopsAtApplied hboundary.1⟩
    · exact h.1

/-- Bounds have one beginning. -/
lemma BeginsAt.unique {i' : Nat} (h : b.BeginsAt s c i) (h' : b.BeginsAt s c i') : i = i' := by
  unfold BeginsAt at h h'
  cases hb : b.start with
  | some l =>
    rw [hb] at h h'
    exact Int.natCast_inj.1 (Except.ok.inj (h.1.symm.trans h'.1))
  | none =>
    rw [hb] at h h'
    exact IsLeast.unique h h'

/-- Bounds that begin at an index have one end.

**Proof sketch.** A position is a value of a function, and an open end is the greatest element of a
set. -/
lemma EndsAt.unique {j' : Nat} (h : b.EndsAt s c i j) (h' : b.EndsAt s c i j') : j = j' := by
  unfold EndsAt at h h'
  cases hb : b.stop with
  | some l =>
    rw [hb] at h h'
    exact Int.natCast_inj.1 (Except.ok.inj (h.1.symm.trans h'.1))
  | none =>
    rw [hb] at h h'
    dsimp only at h h'
    split_ifs at h h'
    · exact h.unique h'
    · exact h.unique h'

/-- Unless both bounds are there, the end does not come before the beginning.

**Proof sketch.** A missing bound is the least index that is allowed, or the greatest one, and the
other bound is allowed too. -/
theorem le_of_missing (hb : b.BeginsAt s c i) (he : b.EndsAt s c i j)
    (hmissing : b.start = none ∨ b.stop = none) : i ≤ j := by
  have hi := hb.allowedIndex
  have hj := he.allowedIndex
  rcases hmissing with hstart | hstop
  · unfold BeginsAt at hb
    rw [hstart] at hb
    exact hb.2 hj
  · rw [endsAt_iff_of_no_stop hstop] at he
    split_ifs at he with hboundary
    · exact he.2 hboundary.2
    · exact he.2 hi

/-! ## The outcomes of a selection -/

/-- The index that is found for the begin is where the bounds begin. -/
lemma startIndex_eq_some_iff : b.startIndex s c = .ok (some i) ↔ b.BeginsAt s c i := by
  unfold startIndex BeginsAt
  cases b.start with
  | some l => simp [map_eq_ok_iff, Stack.boundIndex_eq_ok_iff]
  | none => simp only [Except.ok.injEq, Stack.firstIndex?_eq_some_iff]

/-- No index is found for the begin if there is no begin and nothing is allowed. -/
lemma startIndex_eq_none_iff :
    b.startIndex s c = .ok none ↔ b.start = none ∧ ¬ ∃ i, s.AllowedIndex c i := by
  unfold startIndex
  cases b.start with
  | some l => simp [map_eq_ok_iff]
  | none => simp only [Except.ok.injEq, Stack.firstIndex?_eq_none_iff, true_and]

/-- Finding the begin fails as its locator fails to resolve. -/
lemma startIndex_eq_error_iff {e : Error} :
    b.startIndex s c = .error e ↔ ∃ l, b.start = some l ∧ l.resolve s c.asLocation = .error e := by
  unfold startIndex
  cases b.start <;> simp [map_eq_error_iff, Stack.boundIndex_eq_error_iff]

/-- The index that is found for the end is where the bounds end. -/
lemma stopIndex_eq_some_iff : b.stopIndex s c (some i) = .ok (some j) ↔ b.EndsAt s c i j := by
  unfold stopIndex EndsAt
  cases b.stop with
  | some l => simp [map_eq_ok_iff, Stack.boundIndex_eq_ok_iff]
  | none => simp only [Except.ok.injEq, Stack.openEnd?_eq_some_iff]

/-- Finding the end fails as its locator fails to resolve. -/
lemma stopIndex_eq_error_iff {start : Option Nat} {e : Error} :
    b.stopIndex s c start = .error e ↔
      ∃ l, b.stop = some l ∧ l.resolve s c.asLocation = .error e := by
  unfold stopIndex
  cases b.stop <;> simp [map_eq_error_iff, Stack.boundIndex_eq_error_iff]

/-- Bounds that begin somewhere end somewhere, unless the end does not resolve.

**Proof sketch.** An open end is missing only if no index is allowed, but the beginning is. -/
lemma stopIndex_ne_none (hi : s.AllowedIndex c i) : b.stopIndex s c (some i) ≠ .ok none := by
  intro h
  unfold stopIndex at h
  cases hstop : b.stop with
  | some l =>
    rw [hstop] at h
    simp [map_eq_ok_iff] at h
  | none =>
    rw [hstop] at h
    simp only [Except.ok.injEq, Stack.openEnd?] at h
    split_ifs at h
    exact Stack.lastIndex?_eq_none_iff.1 h ⟨i, hi⟩

/-- Where no patch is allowed no end resolves. -/
lemma stop_eq_none_of_not_allowed {start stop : Option Nat} (hempty : ¬ ∃ i, s.AllowedIndex c i)
    (h : b.stopIndex s c start = .ok stop) : b.stop = none := by
  cases hb : b.stop with
  | none => rfl
  | some l =>
    unfold stopIndex at h
    rw [hb] at h
    obtain ⟨j, hj, -⟩ := map_eq_ok_iff.1 h
    exact absurd ⟨j, (Stack.boundIndex_eq_ok_iff.1 hj).2⟩ hempty

/-- The four outcomes of a selection: a bound that does not resolve, nothing at all, a window,
and bounds in the wrong order.

**Proof sketch.** The begin is found, then the end, and both are indices that are allowed or
missing. A missing begin means that nothing is allowed, and then there is no end either. Two indices
are in order or inverted. -/
theorem select_cases (b : Bounds) (s : Stack) (c : RangeConstraint) :
    (∃ l e, (b.start = some l ∨ b.stop = some l) ∧ l.resolve s c.asLocation = .error e ∧
      b.select s c = .error e) ∨
    (b.start = none ∧ b.stop = none ∧ (¬ ∃ i, s.AllowedIndex c i) ∧ b.select s c = .ok []) ∨
    (∃ i j, b.BeginsAt s c i ∧ b.EndsAt s c i j ∧ i ≤ j ∧ b.select s c = .ok (s.window i j)) ∨
    (∃ i j first last, b.BeginsAt s c i ∧ b.EndsAt s c i j ∧ j < i ∧
      s.patches[i]? = some first ∧ s.patches[j]? = some last ∧
      b.select s c = .error (.invertedRange first.text last.text)) := by
  cases hstart : b.startIndex s c with
  | error e =>
    obtain ⟨l, hl, he⟩ := startIndex_eq_error_iff.1 hstart
    exact .inl ⟨l, e, .inl hl, he, by rw [select, hstart]; rfl⟩
  | ok start =>
    cases hstop : b.stopIndex s c start with
    | error e =>
      obtain ⟨l, hl, he⟩ := stopIndex_eq_error_iff.1 hstop
      refine .inl ⟨l, e, .inr hl, he, ?_⟩
      simp only [select, hstart, bind, Except.bind, hstop]
    | ok stop =>
      have hselect : b.select s c = s.between c start stop := by
        simp only [select, hstart, bind, Except.bind, hstop]
      cases start with
      | none =>
        obtain ⟨hnone, hempty⟩ := startIndex_eq_none_iff.1 hstart
        have hstop' := stop_eq_none_of_not_allowed hempty hstop
        exact .inr (.inl ⟨hnone, hstop', hempty, by rw [hselect]; rfl⟩)
      | some i =>
        have hi := startIndex_eq_some_iff.1 hstart
        cases stop with
        | none => exact absurd hstop (stopIndex_ne_none hi.allowedIndex)
        | some j =>
          have hj := stopIndex_eq_some_iff.1 hstop
          rcases Stack.between_cases hi.allowedIndex hj.allowedIndex with
            ⟨hij, hwindow⟩ | ⟨first, last, hlt, hfirst, hlast, hinverted⟩
          · exact .inr (.inr (.inl ⟨i, j, hi, hj, hij, hselect.trans hwindow⟩))
          · exact .inr (.inr (.inr ⟨i, j, first, last, hi, hj, hlt, hfirst, hlast,
              hselect.trans hinverted⟩))

/-- Bounds in the right order select what lies between them. -/
lemma select_eq_window (hb : b.BeginsAt s c i) (he : b.EndsAt s c i j) (hij : i ≤ j) :
    b.select s c = .ok (s.window i j) := by
  have hslice := Stack.slice_eq_window hb.allowedIndex he.allowedIndex hij
  simp only [select, startIndex_eq_some_iff.2 hb, stopIndex_eq_some_iff.2 he, bind, Except.bind,
    Stack.between]
  rw [if_neg (Nat.not_lt.2 hij), hslice]

/-- Without bounds and without an allowed patch nothing is selected. -/
lemma select_eq_nil (hstart : b.start = none) (hstop : b.stop = none)
    (hempty : ¬ ∃ i, s.AllowedIndex c i) : b.select s c = .ok [] := by
  have hend : b.stopIndex s c none = .ok (s.openEnd? c none) := by
    unfold stopIndex
    rw [hstop]
  simp only [select, startIndex_eq_none_iff.2 ⟨hstart, hempty⟩, hend, bind, Except.bind,
    Stack.between]

/-- Bounds in the wrong order are reported with the patches at both ends. -/
lemma select_eq_inverted {first last : PatchName} (hb : b.BeginsAt s c i) (he : b.EndsAt s c i j)
    (hji : j < i) (hfirst : s.patches[i]? = some first) (hlast : s.patches[j]? = some last) :
    b.select s c = .error (.invertedRange first.text last.text) := by
  simp only [select, startIndex_eq_some_iff.2 hb, stopIndex_eq_some_iff.2 he, bind, Except.bind,
    Stack.between]
  rw [if_pos hji, Stack.patchAt_eq_ok_iff.2 ⟨i, rfl, hfirst⟩,
    Stack.patchAt_eq_ok_iff.2 ⟨j, rfl, hlast⟩]

/-- What bounds select is nothing at all or a window.

**Proof sketch.** Two of the four ways that `select_cases` lists are successes, and each of them has
its own lemma for the other direction. -/
lemma select_eq_ok_iff {ns : List PatchName} :
    b.select s c = .ok ns ↔
      (b.start = none ∧ b.stop = none ∧ (¬ ∃ i, s.AllowedIndex c i) ∧ ns = []) ∨
      ∃ i j, b.BeginsAt s c i ∧ b.EndsAt s c i j ∧ i ≤ j ∧ ns = s.window i j := by
  constructor
  · intro h
    rcases select_cases b s c with ⟨l, e, -, -, h'⟩ | ⟨hstart, hstop, hempty, h'⟩ |
      ⟨i, j, hb, he, hij, h'⟩ | ⟨i, j, first, last, -, -, -, -, -, h'⟩ <;> rw [h'] at h <;> cases h
    · exact .inl ⟨hstart, hstop, hempty, rfl⟩
    · exact .inr ⟨i, j, hb, he, hij, rfl⟩
  · rintro (⟨hstart, hstop, hempty, rfl⟩ | ⟨i, j, hb, he, hij, rfl⟩)
    · exact select_eq_nil hstart hstop hempty
    · exact select_eq_window hb he hij

/-- Everything between two allowed indices is in an allowed group. -/
lemma exists_group_of_mem_window (hb : b.BeginsAt s c i) (he : b.EndsAt s c i j) {n : PatchName}
    (hn : n ∈ s.window i j) : ∃ g, c.allows g = true ∧ n ∈ s.patchesIn g := by
  obtain ⟨k, hik, hkj, hk⟩ := Stack.mem_window_iff.1 hn
  obtain ⟨g, hg, ha⟩ := hb.allowedIndex.of_between he.allowedIndex hik hkj
  exact ⟨g, ha, (Stack.groupAt_eq_ok_iff_mem hk).1 hg⟩

/-- Without an end, bounds that begin somewhere select what lies from there to where they end. -/
lemma exists_window_of_no_stop (hb : b.BeginsAt s c i) (hstop : b.stop = none) :
    ∃ j, b.EndsAt s c i j ∧ i ≤ j ∧ b.select s c = .ok (s.window i j) := by
  have hopen : b.stopIndex s c (some i) = .ok (s.openEnd? c (some i)) := by
    rw [stopIndex, hstop]
  cases hend : s.openEnd? c (some i) with
  | none => exact absurd (hopen.trans (congrArg _ hend)) (stopIndex_ne_none hb.allowedIndex)
  | some j =>
    have he := stopIndex_eq_some_iff.1 (hopen.trans (congrArg _ hend))
    have hij := le_of_missing hb he (.inr hstop)
    exact ⟨j, he, hij, select_eq_window hb he hij⟩

/-- Bounds are inverted exactly if both are there, lead to allowed patches, and the patch of the
begin comes after that of the end.

**Proof sketch.** Of the four outcomes only one is this error, and a bound that does not resolve
does not fail with it. A missing bound is never out of order: a missing begin is the first allowed
patch and a missing end the last one (`le_of_missing`). -/
theorem select_eq_inverted_iff {x y : Text} :
    b.select s c = .error (.invertedRange x y) ↔
      ∃ (l m : Locator) (i j : Nat) (first last : PatchName), b.start = some l ∧ b.stop = some m ∧
        l.position .base s = .ok (i : Int) ∧ m.position .base s = .ok (j : Int) ∧
        s.AllowedIndex c i ∧ s.AllowedIndex c j ∧ j < i ∧
        s.patches[i]? = some first ∧ s.patches[j]? = some last ∧
        x = first.text ∧ y = last.text := by
  constructor
  · intro h
    rcases select_cases b s c with ⟨l, e, -, he, h'⟩ | ⟨-, -, -, h'⟩ | ⟨i, j, -, -, -, h'⟩ |
      ⟨i, j, first, last, hb, he, hji, hfirst, hlast, h'⟩ <;> rw [h'] at h <;> cases h
    · -- No locator fails to resolve because of an order.
      cases Locator.resolutionFailure_of_resolve he with
      | position hp => cases hp with | reading hd hr => cases hr
    · cases hstart : b.start with
      | none => exact absurd (le_of_missing hb he (.inl hstart)) (Nat.not_le.2 hji)
      | some l =>
        cases hstop : b.stop with
        | none => exact absurd (le_of_missing hb he (.inr hstop)) (Nat.not_le.2 hji)
        | some m =>
          obtain ⟨hi, hia⟩ := (beginsAt_iff_of_start hstart).1 hb
          obtain ⟨hj, hja⟩ := (endsAt_iff_of_stop hstop).1 he
          exact ⟨l, m, i, j, first, last, rfl, rfl, hi, hj, hia, hja, hji, hfirst, hlast, rfl, rfl⟩
  · rintro ⟨l, m, i, j, first, last, hstart, hstop, hi, hj, hia, hja, hji, hfirst, hlast, rfl, rfl⟩
    exact select_eq_inverted ((beginsAt_iff_of_start hstart).2 ⟨hi, hia⟩)
      ((endsAt_iff_of_stop hstop).2 ⟨hj, hja⟩) hji hfirst hlast

/-- A patch is refused for its group only if one of the bounds leads to it.

**Proof sketch.** The patches between the bounds are never refused, so that the error comes from a
bound, and its resolution fails with it in one way only. -/
theorem exists_bound_of_violation {x : Text} {g : Group} {gs : List Group}
    (h : b.select s c = .error (.constraintViolation x g gs)) :
    ∃ (l : Locator) (i : Nat) (n : PatchName), (b.start = some l ∨ b.stop = some l) ∧
      l.position .base s = .ok (i : Int) ∧ s.patches[i]? = some n ∧ x = n.text ∧
      s.groupAt i = .ok g ∧ c.allows g = false := by
  rcases select_cases b s c with ⟨l, e, hl, he, h'⟩ | ⟨-, -, -, h'⟩ | ⟨i, j, -, -, -, h'⟩ |
    ⟨i, j, first, last, -, -, -, -, -, h'⟩ <;> rw [h'] at h <;> cases h
  cases Locator.resolutionFailure_of_resolve he with
  | position hp => cases hp with | reading hd hr => cases hr
  | notAllowed i n g hp hn hg ha =>
    rw [RangeConstraint.allows_asLocation] at ha
    exact ⟨l, i, n, hl, hp, hn, rfl, hg, ha⟩

/-- Bounds select the window from where they begin to where they end.

A selection is empty only without bounds and without an allowed patch. Bounds are refused as
inverted only if both of them are there and their positions are in the wrong order. A patch is
refused only if one of the bounds leads to it: between the two indices nothing is refused.

**Proof sketch.** All parts are read off the four outcomes of a selection (`select_cases`). What is
in a window is in an allowed group, since the groups between two allowed indices are allowed. -/
theorem select_spec (b : Bounds) (s : Stack) (c : RangeConstraint) :
    (∀ ns, b.select s c = .ok ns ↔
      (b.start = none ∧ b.stop = none ∧ (∀ g, c.allows g = true → s.patchesIn g = []) ∧ ns = []) ∨
      ∃ i j, b.BeginsAt s c i ∧ b.EndsAt s c i j ∧ i ≤ j ∧ ns = s.window i j) ∧
    (∀ ns, b.select s c = .ok ns → ∀ n ∈ ns, ∃ g, c.allows g = true ∧ n ∈ s.patchesIn g) ∧
    (b.select s c = .ok [] ↔
      b.start = none ∧ b.stop = none ∧ ∀ g, c.allows g = true → s.patchesIn g = []) ∧
    (∀ x y, b.select s c = .error (.invertedRange x y) ↔
      ∃ (l m : Locator) (i j : Nat) (first last : PatchName), b.start = some l ∧ b.stop = some m ∧
        l.position .base s = .ok (i : Int) ∧ m.position .base s = .ok (j : Int) ∧
        s.AllowedIndex c i ∧ s.AllowedIndex c j ∧ j < i ∧
        s.patches[i]? = some first ∧ s.patches[j]? = some last ∧
        x = first.text ∧ y = last.text) ∧
    (∀ x g gs, b.select s c = .error (.constraintViolation x g gs) →
      ∃ (l : Locator) (i : Nat) (n : PatchName), (b.start = some l ∨ b.stop = some l) ∧
        l.position .base s = .ok (i : Int) ∧ s.patches[i]? = some n ∧ x = n.text ∧
        s.groupAt i = .ok g ∧ c.allows g = false) ∧
    (∀ i j, b.startIndex s c = .ok (some i) → b.stopIndex s c (some i) = .ok (some j) → i ≤ j →
      s.slice c i j = .ok (s.window i j)) := by
  rw [← Stack.not_exists_allowedIndex_iff]
  refine ⟨fun ns => select_eq_ok_iff, fun ns h n hn => ?_, ?_, fun x y => select_eq_inverted_iff,
    fun x g gs => exists_bound_of_violation, fun i j hi hj hij => ?_⟩
  · rcases select_eq_ok_iff.1 h with ⟨-, -, -, rfl⟩ | ⟨i, j, hb, he, -, rfl⟩
    · cases hn
    · exact exists_group_of_mem_window hb he hn
  · constructor
    · intro h
      rcases select_eq_ok_iff.1 h with ⟨hstart, hstop, hempty, -⟩ | ⟨i, j, -, he, hij, hnil⟩
      · exact ⟨hstart, hstop, hempty⟩
      · exact absurd hnil.symm (Stack.window_ne_nil hij he.allowedIndex.lt_total)
    · rintro ⟨hstart, hstop, hempty⟩
      exact select_eq_nil hstart hstop hempty
  · exact Stack.slice_eq_window (startIndex_eq_some_iff.1 hi).allowedIndex
      (stopIndex_eq_some_iff.1 hj).allowedIndex hij

end Bounds

end PatchStack
