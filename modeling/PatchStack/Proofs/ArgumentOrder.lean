import Mathlib.Data.List.Forall2
import PatchStack.Proofs.Failures

set_option autoImplicit false

/-!
# Several ranges in their order

Several ranges are resolved one after the other, and every patch is compared with all the patches
that were selected before it. So what they select is the concatenation of what each of them selects,
as long as none of them fails and no patch occurs twice. Otherwise the first thing that goes wrong
in this order is reported: a range that fails, or a patch that occurred before.

## Main definitions

* `PatchStack.SelectEach` — what each of several ranges selects.
* `PatchStack.IsFirstRepeat` — the first patch that occurred before.
* `PatchStack.FirstError` — the first thing that goes wrong.

## Main results

* `PatchStack.selectAll_eq_ok_iff` — the concatenation is selected, if no patch occurs twice.
* `PatchStack.FirstError.selectAll_eq_error`, `PatchStack.firstError_of_selectAll` — what goes wrong
  first is reported, and what is reported went wrong first.
* `PatchStack.selectAll_in_order` — all that several ranges can come to.
-/

namespace PatchStack

variable {s : Stack} {c : RangeConstraint}

/-! ## Each of the ranges -/

section Each

variable {ranges earlier later : List Range} {lists lists' : List (List PatchName)}

/-- The lists are what the ranges select, one list for each range. -/
def SelectEach (s : Stack) (c : RangeConstraint) (ranges : List Range)
    (lists : List (List PatchName)) : Prop :=
  List.Forall₂ (fun r names => r.select s c = .ok names) ranges lists

/-- Each range selects one list of patches. -/
lemma SelectEach.unique (h : SelectEach s c ranges lists) (h' : SelectEach s c ranges lists') :
    lists = lists' := by
  refine List.right_unique_forall₂' ?_ h h'
  intro r names names' hr hr'
  exact Except.ok.inj (hr.symm.trans hr')

/-- Ranges behind others select each on their own.

**Proof sketch.** The lists are split where the ranges are, by induction on the ranges in front. -/
lemma selectEach_append_iff :
    SelectEach s c (earlier ++ later) lists ↔
      ∃ front behind, lists = front ++ behind ∧ SelectEach s c earlier front ∧
        SelectEach s c later behind := by
  constructor
  · intro h
    induction earlier generalizing lists with
    | nil => exact ⟨[], lists, rfl, .nil, h⟩
    | cons r earlier ih =>
      obtain ⟨names, rest, hr, hrest, rfl⟩ := List.forall₂_cons_left_iff.1 h
      obtain ⟨front, behind, rfl, hfront, hbehind⟩ := ih hrest
      exact ⟨names :: front, behind, rfl, .cons hr hfront, hbehind⟩
  · rintro ⟨front, behind, rfl, hfront, hbehind⟩
    exact List.rel_append hfront hbehind

end Each

/-! ## The concatenation -/

section Concatenation

variable {ranges : List Range} {selected names : List PatchName}

/-- Behind different patches, several ranges select the concatenation of what each of them selects,
if all patches are different.

**Proof sketch.** By induction on the ranges, with what has been selected in front. What the first
range selects is fresh exactly if it can be put behind that without a repetition. -/
theorem selectAfter_eq_ok_iff (hselected : selected.Nodup) :
    selectAfter s c selected ranges = .ok names ↔
      ∃ lists, SelectEach s c ranges lists ∧ (selected ++ lists.flatten).Nodup ∧
        names = selected ++ lists.flatten := by
  induction ranges generalizing selected with
  | nil =>
    simp only [selectAfter, SelectEach, List.forall₂_nil_left_iff]
    simp [hselected, eq_comm]
  | cons r ranges ih =>
    rw [selectAfter_cons_eq_ok_iff]
    constructor
    · rintro ⟨more, hmore, hfresh, h⟩
      rw [firstRepeatAfter?_eq_firstRepeat?_append hselected, firstRepeat?_eq_none_iff] at hfresh
      obtain ⟨lists, hlists, hnodup, rfl⟩ := (ih hfresh).1 h
      exact ⟨more :: lists, .cons hmore hlists, by simpa using hnodup, by simp⟩
    · rintro ⟨lists, hlists, hnodup, rfl⟩
      obtain ⟨more, rest, hmore, hrest, rfl⟩ := List.forall₂_cons_left_iff.1 hlists
      rw [List.flatten_cons, ← List.append_assoc] at hnodup
      have hfresh : (selected ++ more).Nodup := hnodup.of_append_left
      refine ⟨more, hmore, ?_, (ih hfresh).2 ⟨rest, hrest, hnodup, by simp⟩⟩
      rw [firstRepeatAfter?_eq_firstRepeat?_append hselected, firstRepeat?_eq_none_iff]
      exact hfresh

/-- Several ranges select the concatenation of what each of them selects, if no patch occurs
twice. -/
theorem selectAll_eq_ok_iff :
    selectAll ranges s c = .ok names ↔
      ∃ lists, SelectEach s c ranges lists ∧ lists.flatten.Nodup ∧ names = lists.flatten :=
  selectAfter_eq_ok_iff List.nodup_nil

end Concatenation

/-! ## The first thing that goes wrong -/

section FirstError

variable {ranges : List Range} {names : List PatchName} {n : PatchName} {e : Error}

/-- The first patch that occurred before: those in front of it are different, and it is one of
them. -/
def IsFirstRepeat (names : List PatchName) (n : PatchName) : Prop :=
  ∃ before after, names = before ++ n :: after ∧ before.Nodup ∧ n ∈ before

/-- What goes wrong first when several ranges are resolved in their order. -/
inductive FirstError (s : Stack) (c : RangeConstraint) : List Range → Error → Prop where
  /-- A range fails, and those in front of it select different patches. -/
  | failure (earlier later : List Range) (r : Range) (lists : List (List PatchName)) (e : Error)
      (hlists : SelectEach s c earlier lists) (hnodup : lists.flatten.Nodup)
      (hr : r.select s c = .error e) : FirstError s c (earlier ++ r :: later) e
  /-- The ranges up to some point select a patch twice. -/
  | repetition (earlier later : List Range) (lists : List (List PatchName)) (n : PatchName)
      (hlists : SelectEach s c earlier lists) (hn : IsFirstRepeat lists.flatten n) :
      FirstError s c (earlier ++ later) (.duplicatePatch n.text)

/-- The first repeated name is what is searched for. -/
lemma isFirstRepeat_iff : IsFirstRepeat names n ↔ firstRepeat? names = some n :=
  firstRepeat?_eq_some_iff.symm

/-- What is behind the first repeated name does not matter. -/
lemma IsFirstRepeat.append (h : IsFirstRepeat names n) (more : List PatchName) :
    IsFirstRepeat (names ++ more) n := by
  obtain ⟨before, after, rfl, hnodup, hn⟩ := h
  exact ⟨before, after ++ more, by simp, hnodup, hn⟩

/-- There is one first repeated name. -/
lemma IsFirstRepeat.unique {n' : PatchName} (h : IsFirstRepeat names n)
    (h' : IsFirstRepeat names n') : n = n' := by
  rw [isFirstRepeat_iff] at h h'
  exact Option.some.inj (h.symm.trans h')

/-- A list with a repeated name has a repetition. -/
lemma IsFirstRepeat.not_nodup (h : IsFirstRepeat names n) : ¬ names.Nodup := by
  rw [isFirstRepeat_iff] at h
  intro hnodup
  rw [firstRepeat?_eq_none_iff.2 hnodup] at h
  cases h

/-- What several ranges fail with is what goes wrong first.

**Proof sketch.** Up to the range at fault everything is selected without a repetition. Then the
range fails, or the first patch of it that was selected before is the first that is repeated in all
of them. -/
theorem firstError_of_selectAll (h : selectAll ranges s c = .error e) :
    FirstError s c ranges e := by
  obtain ⟨earlier, later, r, names, rfl, hnames, hfails⟩ := selectAll_eq_error_iff.1 h
  obtain ⟨lists, hlists, hnodup, rfl⟩ := selectAll_eq_ok_iff.1 hnames
  rcases hfails with hr | ⟨more, n, hmore, hn, rfl⟩
  · exact .failure earlier later r lists e hlists hnodup hr
  · rw [firstRepeatAfter?_eq_firstRepeat?_append hnodup] at hn
    have hlists' : SelectEach s c (earlier ++ [r]) (lists ++ [more]) :=
      selectEach_append_iff.2 ⟨lists, [more], rfl, hlists, .cons hmore .nil⟩
    have hstep := FirstError.repetition (earlier ++ [r]) later (lists ++ [more]) n hlists'
      (isFirstRepeat_iff.2 (by simpa using hn))
    rwa [List.append_assoc] at hstep

/-- Where no range fails, what goes wrong first is the first patch that occurred before.

**Proof sketch.** A range that fails would have selected nothing. So a repetition is what is left,
and the lists in front of it are the given ones. -/
lemma FirstError.exists_repeat {lists : List (List PatchName)} (h : FirstError s c ranges e)
    (hlists : SelectEach s c ranges lists) :
    ∃ n, IsFirstRepeat lists.flatten n ∧ e = .duplicatePatch n.text := by
  cases h with
  | failure earlier later r _ _ _ _ hr =>
    obtain ⟨-, behind, -, -, hbehind⟩ := selectEach_append_iff.1 hlists
    obtain ⟨names, -, hnames, -, -⟩ := List.forall₂_cons_left_iff.1 hbehind
    rw [hnames] at hr
    cases hr
  | repetition earlier later lists' n hlists' hn =>
    obtain ⟨front, behind, rfl, hfront, -⟩ := selectEach_append_iff.1 hlists
    obtain rfl := hfront.unique hlists'
    rw [List.flatten_append]
    exact ⟨n, hn.append _, rfl⟩

/-- Several ranges fail with what goes wrong first.

**Proof sketch.** A failure comes behind ranges that select different patches, so that it is
reached. A repetition makes the ranges up to it fail, and they fail with the first repeated name. -/
theorem FirstError.selectAll_eq_error (h : FirstError s c ranges e) :
    selectAll ranges s c = .error e := by
  cases h with
  | failure earlier later r lists _ hlists hnodup hr =>
    have hnames := selectAll_eq_ok_iff.2 ⟨lists, hlists, hnodup, rfl⟩
    exact selectAll_eq_error_iff.2 ⟨earlier, later, r, lists.flatten, rfl, hnames, .inl hr⟩
  | repetition earlier later lists n hlists hn =>
    apply selectAll_append_of_error
    cases hnames : selectAll earlier s c with
    | ok names =>
      obtain ⟨lists', hlists', hnodup, -⟩ := selectAll_eq_ok_iff.1 hnames
      rw [hlists'.unique hlists] at hnodup
      exact absurd hnodup hn.not_nodup
    | error e =>
      obtain ⟨n', hn', rfl⟩ := (firstError_of_selectAll hnames).exists_repeat hlists
      rw [hn'.unique hn]

/-- A single range fails neither because of a patch that occurred before nor because of a gap. -/
lemma Range.ne_of_select_eq_error {r : Range} (h : r.select s c = .error e) :
    (∀ x, e ≠ .duplicatePatch x) ∧ ∀ x y, e ≠ .nonContiguous x y := by
  cases Range.selectionFailure_of_select h with
  | bound l hl hfails =>
    cases hfails with
    | position hp =>
      cases hp with
      | reading hd hr => cases hr <;> simp [Error.ofNumeral]
      | _ => simp [Error.ofNumeral]
    | _ => simp
  | _ => simp

/-- Nothing goes wrong because of a gap as long as the ranges are only resolved. -/
lemma FirstError.ne_nonContiguous (h : FirstError s c ranges e) (x y : Text) :
    e ≠ .nonContiguous x y := by
  cases h with
  | failure earlier later r lists _ hlists hnodup hr => exact (Range.ne_of_select_eq_error hr).2 x y
  | repetition => simp

end FirstError

/-! ## What several ranges come to -/

/-- **Several ranges are resolved in their order.** They select the concatenation of what each of
them selects, exactly if each of them selects something and no patch occurs twice. Otherwise the
first thing that goes wrong is reported: the failure of the first range that fails, if the patches
selected by those in front of it are different, or else the first patch in the concatenation that
occurred before it. A patch is reported for no other reason.

**Proof sketch.** By induction on the ranges, what was selected before is the concatenation so far
and has no repetition. A range that fails or repeats a patch ends the resolution at once
(`selectAll_eq_error_iff`). The first repetition of a concatenation is that of any part of it which
has one, so that it does not matter up to which range the concatenation goes. -/
theorem selectAll_in_order (ranges : List Range) (s : Stack) (c : RangeConstraint) :
    (∀ names, selectAll ranges s c = .ok names ↔
      ∃ lists, SelectEach s c ranges lists ∧ lists.flatten.Nodup ∧ names = lists.flatten) ∧
    (∀ e, selectAll ranges s c = .error e ↔ FirstError s c ranges e) ∧
    ∀ x, selectAll ranges s c = .error (.duplicatePatch x) ↔
      ∃ earlier later lists n, ranges = earlier ++ later ∧ SelectEach s c earlier lists ∧
        IsFirstRepeat lists.flatten n ∧ x = n.text := by
  refine ⟨fun names => selectAll_eq_ok_iff,
    fun e => ⟨firstError_of_selectAll, FirstError.selectAll_eq_error⟩, fun x => ⟨fun h => ?_, ?_⟩⟩
  · generalize he : Error.duplicatePatch x = e at h
    cases firstError_of_selectAll h with
    | failure earlier later r lists _ hlists hnodup hr =>
      subst he
      exact absurd rfl ((Range.ne_of_select_eq_error hr).1 x)
    | repetition earlier later lists n hlists hn =>
      cases he
      exact ⟨earlier, later, lists, n, rfl, hlists, hn, rfl⟩
  · rintro ⟨earlier, later, lists, n, rfl, hlists, hn, rfl⟩
    exact (FirstError.repetition earlier later lists n hlists hn).selectAll_eq_error

end PatchStack
