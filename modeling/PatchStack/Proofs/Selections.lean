import Mathlib.Data.List.Nodup
import PatchStack.Proofs.Selection

set_option autoImplicit false

/-!
# What several ranges select

Ranges are resolved one after the other, and no patch may be selected twice. So the patches that
are selected so far are patches of the stack and all of them different: one range keeps it so, and
hence does any number of them. For an unbroken selection they are then placed by their indices,
and compared with their neighbours.

## Main definitions

* `PatchStack.Stack.IsSelection` — different patches of the stack.
* `PatchStack.Stack.placed` — patches with their indices, in stack order.
* `PatchStack.Stack.Unbroken` — all patches from one index up to another.
* `PatchStack.Stack.IsFirstGap` — the first gap in stack order.

## Main results

* `PatchStack.selectAfter_append` — ranges are resolved one after the other.
* `PatchStack.selectAll_eq_error_iff` — several ranges fail at the first one that fails or selects
  a patch again.
* `PatchStack.isSelection_selectAll` — what is selected is different patches of the stack.
* `PatchStack.selectContiguous_eq` — the selected patches can all be placed.
* `PatchStack.Stack.IsSelection.exists_unbroken`, `PatchStack.Stack.IsSelection.isFirstGap` — what
  it means that no gap is found, and that one is.
-/

namespace PatchStack

variable {s : Stack} {c : RangeConstraint}

/-! ## One range -/

section OneRange

variable {r : Range} {names : List PatchName}

/-- A window with its last index included is a slice. -/
lemma Stack.window_eq_extract (s : Stack) (i j : Nat) :
    s.window i j = s.patches.extract i (j + 1) :=
  List.extract_eq_take_drop.symm

/-- A slice is a part of the stack. -/
lemma Stack.extract_sublist (s : Stack) (i j : Nat) :
    (s.patches.extract i j).Sublist s.patches := by
  rw [List.extract_eq_take_drop]
  exact (List.take_sublist _ _).trans (List.drop_sublist _ _)

/-- What a range selects are patches of the stack, in stack order. -/
theorem Range.sublist_of_select (h : r.select s c = .ok names) : names.Sublist s.patches := by
  cases r with
  | single l =>
    obtain ⟨n, hn, rfl⟩ := map_eq_ok_iff.1 h
    obtain ⟨i, -, -, hi, -⟩ := Locator.resolve_eq_ok_iff.1 hn
    exact List.singleton_sublist.2 (List.mem_of_getElem? hi)
  | between b =>
    rcases Bounds.select_eq_ok_iff.1 h with ⟨-, -, -, rfl⟩ | ⟨i, j, -, -, -, rfl⟩
    · exact List.nil_sublist _
    · rw [s.window_eq_extract]
      exact s.extract_sublist i (j + 1)

end OneRange

/-! ## Ranges one after the other -/

section Ranges

variable {r : Range} {ranges : List Range} {selected more names : List PatchName}

/-- The first range selects something else than what was selected before, and so do the others. -/
lemma selectAfter_cons_eq_ok_iff :
    selectAfter s c selected (r :: ranges) = .ok names ↔
      ∃ more, r.select s c = .ok more ∧ firstRepeatAfter? selected more = none ∧
        selectAfter s c (selected ++ more) ranges = .ok names := by
  rw [selectAfter, bind_eq_ok_iff]
  refine exists_congr fun more => and_congr_right fun _ => ?_
  cases firstRepeatAfter? selected more <;> simp

/-- The first range fails, or it selects a patch that was selected before, or the others fail. -/
lemma selectAfter_cons_eq_error_iff {e : Error} :
    selectAfter s c selected (r :: ranges) = .error e ↔
      r.select s c = .error e ∨ ∃ more, r.select s c = .ok more ∧
        ((∃ n, firstRepeatAfter? selected more = some n ∧ e = .duplicatePatch n.text) ∨
          firstRepeatAfter? selected more = none ∧
            selectAfter s c (selected ++ more) ranges = .error e) := by
  rw [selectAfter, bind_eq_error_iff]
  refine or_congr_right (exists_congr fun more => and_congr_right fun _ => ?_)
  cases firstRepeatAfter? selected more <;> simp [eq_comm]

/-- Ranges behind others are resolved after them.

**Proof sketch.** By induction on the ranges in front, which can fail at each step. -/
theorem selectAfter_append (earlier later : List Range) (selected : List PatchName) :
    selectAfter s c selected (earlier ++ later) =
      (selectAfter s c selected earlier).bind fun names => selectAfter s c names later := by
  induction earlier generalizing selected with
  | nil => rfl
  | cons r earlier ih =>
    simp only [List.cons_append, selectAfter]
    cases r.select s c with
    | error e => rfl
    | ok more =>
      simp only [bind, Except.bind]
      cases firstRepeatAfter? selected more with
      | some n => rfl
      | none => exact ih _

/-- Several ranges fail at one of them, behind others that select patches: it fails itself, or it
selects a patch that was selected before.

**Proof sketch.** By induction from the last range: the error comes from the ranges in front of it,
or they select patches and it comes from the last one. -/
theorem selectAll_eq_error_iff {e : Error} :
    selectAll ranges s c = .error e ↔
      ∃ earlier later r names, ranges = earlier ++ r :: later ∧ selectAll earlier s c = .ok names ∧
        (r.select s c = .error e ∨ ∃ more n, r.select s c = .ok more ∧
          firstRepeatAfter? names more = some n ∧ e = .duplicatePatch n.text) := by
  have hstep (earlier later : List Range) : selectAll (earlier ++ later) s c =
      (selectAll earlier s c).bind fun names => selectAfter s c names later :=
    selectAfter_append earlier later []
  constructor
  · intro h
    -- By induction from the last range: the error comes from it or from the ranges in front of it.
    induction ranges using List.reverseRecOn with
    | nil => cases h
    | append_singleton ranges r ih =>
      rw [hstep] at h
      cases hnames : selectAll ranges s c with
      | error e' =>
        rw [hnames] at h
        cases h
        obtain ⟨earlier, later, r', names, rfl, hfails⟩ := ih hnames
        exact ⟨earlier, later ++ [r], r', names, by simp, hfails⟩
      | ok names =>
        rw [hnames] at h
        refine ⟨ranges, [], r, names, rfl, hnames, ?_⟩
        rcases selectAfter_cons_eq_error_iff.1 h with h | ⟨more, hmore, ⟨n, hn, he⟩ | ⟨-, h⟩⟩
        · exact .inl h
        · exact .inr ⟨more, n, hmore, hn, he⟩
        · cases h
  · rintro ⟨earlier, later, r, names, rfl, hnames, hfails⟩
    rw [hstep, hnames]
    apply selectAfter_cons_eq_error_iff.2
    rcases hfails with hr | ⟨more, n, hmore, hn, he⟩
    · exact .inl hr
    · exact .inr ⟨more, hmore, .inl ⟨n, hn, he⟩⟩

/-- Ranges that fail do so whatever ranges follow. -/
lemma selectAll_append_of_error {earlier : List Range} {e : Error}
    (h : selectAll earlier s c = .error e) (later : List Range) :
    selectAll (earlier ++ later) s c = .error e := by
  obtain ⟨front, behind, r, names, rfl, hnames, hfails⟩ := selectAll_eq_error_iff.1 h
  exact selectAll_eq_error_iff.2 ⟨front, behind ++ later, r, names, by simp, hnames, hfails⟩

/-- Different patches of the stack. -/
structure Stack.IsSelection (s : Stack) (names : List PatchName) : Prop where
  /-- No patch occurs twice. -/
  nodup : names.Nodup
  /-- All of them are patches of the stack. -/
  mem : ∀ n ∈ names, n ∈ s.patches

/-- A selection stays one with what the next range selects, if that is different. -/
lemma Stack.IsSelection.append (hs : s.IsSelection selected) (hmore : r.select s c = .ok more)
    (hfresh : firstRepeatAfter? selected more = none) : s.IsSelection (selected ++ more) := by
  rw [firstRepeatAfter?_eq_firstRepeat?_append hs.nodup] at hfresh
  have hsub := Range.sublist_of_select hmore
  refine ⟨firstRepeat?_eq_none_iff.1 hfresh, fun n hn => ?_⟩
  exact (List.mem_append.1 hn).elim (hs.mem n) fun hn => hsub.subset hn

/-- What is selected after a selection is one as well, if it goes well. -/
lemma isSelection_selectAfter (hs : s.IsSelection selected)
    (h : selectAfter s c selected ranges = .ok names) : s.IsSelection names := by
  induction ranges generalizing selected with
  | nil => cases h; exact hs
  | cons r ranges ih =>
    obtain ⟨more, hmore, hfresh, h⟩ := selectAfter_cons_eq_ok_iff.1 h
    exact ih (hs.append hmore hfresh) h

/-- No patch is selected twice, and none that is not in the stack. -/
theorem isSelection_selectAll (h : selectAll ranges s c = .ok names) : s.IsSelection names :=
  isSelection_selectAfter ⟨List.nodup_nil, by simp⟩ h

end Ranges

/-! ## Neighbours in stack order -/

section Neighbours

variable {names : List PatchName}

/-- The patches with their indices, in stack order. -/
def Stack.placed (s : Stack) (names : List PatchName) : List (Nat × PatchName) :=
  (names.map fun n => (s.patches.idxOf n, n)).mergeSort fun a b => decide (a.1 ≤ b.1)

/-- A patch of the stack stands at its index. -/
lemma Stack.getElem?_idxOf {n : PatchName} (hn : n ∈ s.patches) :
    s.patches[s.patches.idxOf n]? = some n := by
  rw [List.getElem?_eq_getElem (List.idxOf_lt_length_of_mem hn), List.getElem_idxOf]

/-- Every patch of the stack can be placed. -/
lemma mapM_indexOf (h : ∀ n ∈ names, n ∈ s.patches) :
    (names.mapM fun n => (fun i => (i, n)) <$> s.indexOf n.text) =
      .ok (names.map fun n => (s.patches.idxOf n, n)) := by
  induction names with
  | nil => rfl
  | cons n names ih =>
    have hn := Stack.indexOf_text (Stack.getElem?_idxOf (h n List.mem_cons_self))
    rw [List.mapM_cons, hn, ih fun m hm => h m (List.mem_cons_of_mem n hm)]
    rfl

/-- An unbroken selection is what several ranges select, in stack order and without a gap. -/
theorem selectContiguous_eq {ranges : List Range} (h : selectAll ranges s c = .ok names) :
    selectContiguous ranges s c =
      match firstGap? (s.placed names) with
      | some (a, b) => .error (.nonContiguous a.text b.text)
      | none => .ok ((s.placed names).map (·.2)) := by
  simp only [selectContiguous, h, mapM_indexOf (isSelection_selectAll h).mem, bind, Except.bind]
  rfl

/-- Neighbours without a gap stand at consecutive indices, from that of the first one on.

**Proof sketch.** By the recursion that looks for a gap. -/
lemma indices_of_firstGap?_eq_none {l : List (Nat × PatchName)} (h : firstGap? l = none) {i : Nat}
    {a : PatchName} (hl : l.head? = some (i, a)) :
    l.map (fun p => p.1) = List.range' i l.length := by
  fun_induction firstGap? l generalizing i a with
  | case1 i' a' b rest ih =>
    cases hl
    rw [List.map_cons, ih h rfl]
    rfl
  | case2 => cases h
  | case3 l hne =>
    cases l with
    | nil => cases hl
    | cons p rest =>
      cases rest with
      | nil => cases hl; rfl
      | cons q rest => exact absurd rfl (hne _ _ _ _ rest)

/-- Neighbours without a gap begin as many indices before the last of them as there are others. -/
lemma exists_first_of_firstGap?_eq_none {before : List (Nat × PatchName)} {i : Nat} {a : PatchName}
    (h : firstGap? (before ++ [(i, a)]) = none) :
    ∃ k, i = k + before.length ∧ before.map (fun p => p.1) = List.range' k before.length := by
  obtain ⟨⟨k, n⟩, hhead⟩ : ∃ p, (before ++ [(i, a)]).head? = some p :=
    Option.isSome_iff_exists.1 (by simp)
  have hrun := indices_of_firstGap?_eq_none h hhead
  rw [List.map_append, List.length_append, List.length_singleton, List.range'_1_concat] at hrun
  obtain ⟨hfront, hlast⟩ := List.append_inj' hrun rfl
  exact ⟨k, by simpa using hlast, hfront⟩

/-- The first gap is between two neighbours, and there is none in front of them.

**Proof sketch.** By the recursion of the search: two neighbours without a gap are passed, and the
first two with one are the answer. -/
lemma exists_of_firstGap? {l : List (Nat × PatchName)} {a b : PatchName}
    (h : firstGap? l = some (a, b)) :
    ∃ before after i j, l = before ++ (i, a) :: (j, b) :: after ∧ j ≠ i + 1 ∧
      firstGap? (before ++ [(i, a)]) = none := by
  fun_induction firstGap? l with
  | case1 i a' b' rest ih =>
    obtain ⟨before, after, i', j', hl, hne, hfront⟩ := ih h
    refine ⟨(i, a') :: before, after, i', j', by rw [hl]; rfl, hne, ?_⟩
    cases before with
    | nil => cases hl; simp [firstGap?]
    | cons p before => cases hl; simpa [firstGap?] using hfront
  | case2 i a' j b' rest hne =>
    cases h
    exact ⟨[], rest, i, j, rfl, hne, rfl⟩
  | case3 => cases h

/-- Patches that are placed stand at their indices. -/
lemma Stack.IsSelection.getElem?_of_mem_placed (hs : s.IsSelection names) {i : Nat} {n : PatchName}
    (h : (i, n) ∈ s.placed names) : n ∈ names ∧ s.patches[i]? = some n := by
  obtain ⟨m, hm, heq⟩ := List.mem_map.1 (List.mem_mergeSort.1 h)
  cases heq
  exact ⟨hm, Stack.getElem?_idxOf (hs.mem n hm)⟩

/-- Different patches are placed at increasing indices.

**Proof sketch.** Sorting leaves indices that do not decrease and pairs that are different. Two
patches at one index would be the same pair. -/
theorem Stack.IsSelection.pairwise_placed (hs : s.IsSelection names) :
    (s.placed names).Pairwise fun a b => a.1 < b.1 := by
  have hle : (s.placed names).Pairwise fun a b => a.1 ≤ b.1 := by
    refine (List.pairwise_mergeSort ?_ ?_ _).imp fun h => of_decide_eq_true h
    · intro a b c hab hbc
      exact decide_eq_true ((of_decide_eq_true hab).trans (of_decide_eq_true hbc))
    · intro a b
      simpa using Nat.le_total a.1 b.1
  have hne : (s.placed names).Nodup :=
    (List.mergeSort_perm _ _).nodup_iff.2 (hs.nodup.map fun a b h => (Prod.mk.inj h).2)
  refine (hle.and hne).imp_of_mem ?_
  rintro ⟨i, a⟩ ⟨j, b⟩ ha hb ⟨hij, hab⟩
  -- Two patches at one index would be the same.
  refine lt_of_le_of_ne hij fun (heq : i = j) => hab ?_
  subst heq
  have hia := (hs.getElem?_of_mem_placed ha).2
  have hib := (hs.getElem?_of_mem_placed hb).2
  rw [Option.some.inj (hia.symm.trans hib)]

/-- Is the patch at an index one of these? -/
def Stack.TakenAt (s : Stack) (names : List PatchName) (k : Nat) : Prop :=
  ∃ n ∈ names, s.patches[k]? = some n

/-- The patches are those from one index up to another, which is not included. -/
def Stack.Unbroken (s : Stack) (names : List PatchName) (i j : Nat) : Prop :=
  ∀ k, s.TakenAt names k ↔ i ≤ k ∧ k < j

/-- The first gap between the patches, in stack order, is the one between `a` and `b`: up to `b`
they are an unbroken run that ends with `a`, then patches that are none of them, and `b`. -/
def Stack.IsFirstGap (s : Stack) (names : List PatchName) (a b : PatchName) : Prop :=
  ∃ first i j, first ≤ i ∧ i + 1 < j ∧ s.patches[i]? = some a ∧ s.patches[j]? = some b ∧
    ∀ k ≤ j, s.TakenAt names k ↔ (first ≤ k ∧ k ≤ i) ∨ k = j

/-- An index is taken if its patch is among the names. -/
lemma Stack.takenAt_iff_mem {k : Nat} {n : PatchName} (hn : s.patches[k]? = some n) :
    s.TakenAt names k ↔ n ∈ names := by
  constructor
  · rintro ⟨m, hm, hk⟩
    rwa [Option.some.inj (hn.symm.trans hk)]
  · exact fun hmem => ⟨n, hmem, hn⟩

/-- The indices of patches are those at which they are placed. -/
lemma Stack.IsSelection.takenAt_iff (hs : s.IsSelection names) {k : Nat} :
    s.TakenAt names k ↔ k ∈ (s.placed names).map (fun p => p.1) := by
  constructor
  · rintro ⟨n, hn, hk⟩
    obtain rfl := Stack.index_unique hk (Stack.getElem?_idxOf (hs.mem n hn))
    exact List.mem_map.2 ⟨_, List.mem_mergeSort.2 (List.mem_map.2 ⟨n, hn, rfl⟩), rfl⟩
  · intro hk
    obtain ⟨⟨k, n⟩, hmem, rfl⟩ := List.mem_map.1 hk
    exact ⟨n, hs.getElem?_of_mem_placed hmem⟩

/-- Where no gap is found, the selected patches are an unbroken run. -/
theorem Stack.IsSelection.exists_unbroken (hs : s.IsSelection names)
    (h : firstGap? (s.placed names) = none) : ∃ i j, s.Unbroken names i j := by
  cases hplaced : s.placed names with
  | nil =>
    refine ⟨0, 0, fun k => ?_⟩
    rw [hs.takenAt_iff, hplaced]
    simp
  | cons p rest =>
    have hindices := indices_of_firstGap?_eq_none h (i := p.1) (a := p.2) (by rw [hplaced]; rfl)
    refine ⟨p.1, p.1 + (s.placed names).length, fun k => ?_⟩
    rw [hs.takenAt_iff, hindices, List.mem_range'_1]

/-- The gap that is found is the first one in stack order.

**Proof sketch.** The pairs in front of the gap are neighbours without one, so that their indices
are consecutive. The patches are placed at increasing indices, so that those behind the gap are
further up. -/
theorem Stack.IsSelection.isFirstGap (hs : s.IsSelection names) {a b : PatchName}
    (h : firstGap? (s.placed names) = some (a, b)) : s.IsFirstGap names a b := by
  obtain ⟨before, after, i, j, hplaced, hne, hfront⟩ := exists_of_firstGap? h
  have hsorted := hs.pairwise_placed
  rw [hplaced] at hsorted
  obtain ⟨-, hbehind, -⟩ := List.pairwise_append.1 hsorted
  obtain ⟨hafter, hbehind⟩ := List.pairwise_cons.1 hbehind
  have hij : i < j := hafter _ List.mem_cons_self
  have hlater : ∀ p ∈ after, j < p.1 := (List.pairwise_cons.1 hbehind).1
  have hat {k : Nat} {n : PatchName} (hn : (k, n) ∈ before ++ (i, a) :: (j, b) :: after) :
      s.patches[k]? = some n := (hs.getElem?_of_mem_placed (hplaced ▸ hn)).2
  obtain ⟨k, rfl, hrun⟩ := exists_first_of_firstGap?_eq_none hfront
  refine ⟨k, k + before.length, j, by omega, by omega, hat (by simp), hat (by simp), ?_⟩
  intro k' hk'
  have hnot : k' ∉ after.map fun p => p.1 := by
    intro hmem
    obtain ⟨p, hp, rfl⟩ := List.mem_map.1 hmem
    exact absurd (hlater p hp) (Nat.not_lt.2 hk')
  rw [hs.takenAt_iff, hplaced, List.map_append, List.map_cons, List.map_cons, hrun, List.mem_append,
    List.mem_cons, List.mem_cons, List.mem_range'_1]
  simp only [hnot, or_false]
  omega

end Neighbours

end PatchStack
