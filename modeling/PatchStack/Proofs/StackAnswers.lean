import PatchStack.Proofs.ArgumentOrder
import PatchStack.Proofs.StoredStacks

set_option autoImplicit false

/-!
# What a stack answers

A stack can be asked for the index of a name, for the patch at an index, whether it holds a name,
and for the group of a name or of an index. Each answer is found in a way of its own: by a search
through all patches or through one group, or from the lengths of the groups. That they agree rests
on what is checked when a stack is made, that no patch occurs twice.

## Main definitions

* `PatchStack.Stack.AnswersAgree` — all the answers of a stack agree.

## Main results

* `PatchStack.Stack.exists_ofData_iff` — which parts are accepted.
* `PatchStack.Stack.ofData_eq_repeated_iff`, `PatchStack.Stack.mem_of_ofData_eq_unlisted` — what is
  reported of the others.
* `PatchStack.Stack.ofJson_of_readData` — parts of a document are accepted as parts by themselves.
* `PatchStack.Stack.answersAgree` — the answers of every stack agree.
* `PatchStack.Stack.accepted_parts_agree` — both together, also for parts that are read from a
  document.
-/

namespace PatchStack

namespace Stack

/-! ## Accepted parts -/

section Parts

variable {d : StackData} {n : PatchName}

/-- Parts are accepted exactly if no patch occurs twice and commits are recorded for patches
only. -/
theorem exists_ofData_iff :
    (∃ s, ofData d = .ok s) ↔ d.patches.Nodup ∧ ∀ entry ∈ d.commits, entry.1 ∈ d.patches := by
  constructor
  · rintro ⟨s, h⟩
    obtain rfl := ofData_eq_ok_iff.1 h
    exact ⟨s.nodup, s.commits_listed⟩
  · rintro ⟨hnodup, hlisted⟩
    exact ⟨⟨d, hnodup, hlisted⟩, ofData_eq_ok_iff.2 rfl⟩

/-- The patch that is reported is the first one that occurred before. -/
theorem ofData_eq_repeated_iff : ofData d = .error (.repeated n) ↔ IsFirstRepeat d.patches n := by
  rw [ofData_eq_error_iff, isFirstRepeat_iff]
  constructor
  · rintro (⟨m, hm, heq⟩ | ⟨-, -, heq⟩)
    · cases heq
      exact hm
    · cases heq
  · exact fun h => .inl ⟨n, h, rfl⟩

/-- The names that are reported are those outside of the stack for which a commit is recorded, and
no patch occurs twice then. -/
theorem mem_of_ofData_eq_unlisted {names : List Text} (h : ofData d = .error (.unlisted names)) :
    d.patches.Nodup ∧
      ∀ name, name ∈ names ↔ ∃ entry ∈ d.commits, entry.1 ∉ d.patches ∧ entry.1.text = name := by
  obtain ⟨n, -, heq⟩ | ⟨hnodup, -, heq⟩ := ofData_eq_error_iff.1 h
  · cases heq
  · cases heq
    refine ⟨hnodup, fun name => ?_⟩
    simp [StackData.unlisted, and_assoc]

/-- Well-typed parts in a document are accepted or reported as the parts are. -/
lemma ofJson_of_readData {fields : List (Text × Json)} (h : readData fields = .ok (.ok d)) :
    ofJson (.record fields) =
      (ofData d).mapError fun fault => .issues (faultReport fault) := by
  simp only [ofJson, h, bind, Except.bind, Checked.finish, Checked.ok]
  cases ofData d <;> rfl

end Parts

/-! ## Answers -/

section Answers

variable {s : Stack} {name : Text} {i j : Int} {g g' : Group} {e : Error}

/-- The name has an index exactly if the stack holds it. -/
theorem contains_iff_indexOf : s.contains name = true ↔ ∃ i, s.indexOf name = .ok i := by
  simp only [contains_iff, indexOf_eq_ok_iff]
  constructor
  · rintro ⟨n, hn, rfl⟩
    obtain ⟨i, hi⟩ := List.getElem?_of_mem hn
    exact ⟨i, n, hi, rfl⟩
  · rintro ⟨i, n, hi, rfl⟩
    exact ⟨n, List.mem_of_getElem? hi, rfl⟩

/-- A name that the stack does not hold is reported. -/
lemma indexOf_eq_notInStack_iff :
    s.indexOf name = .error e ↔ s.contains name = false ∧ e = .notInStack name := by
  rw [indexOf_eq_error_iff, ← Bool.not_eq_true, contains_iff]
  simp

/-- An index has no group exactly if it is outside of the stack. -/
theorem groupAt_eq_error_iff :
    s.groupAt i = .error e ↔ (i < 0 ∨ (s.total : Int) ≤ i) ∧ e = .noSuchIndex i := by
  unfold groupAt
  split_ifs with hout
  all_goals simp [hout, eq_comm]

/-- The groups of a stack come in their order, whatever the indices are. -/
theorem rank_le_of_le (hij : i ≤ j) (hi : s.groupAt i = .ok g) (hj : s.groupAt j = .ok g') :
    g.rank ≤ g'.rank := by
  have hnonneg : 0 ≤ i := by
    have := groupAt_eq_ok_iff.1 hi
    omega
  obtain ⟨i, rfl⟩ := Int.eq_ofNat_of_zero_le hnonneg
  obtain ⟨j, rfl⟩ := Int.eq_ofNat_of_zero_le (hnonneg.trans hij)
  exact rank_le_of_groupAt (Int.ofNat_le.1 hij) hi hj

/-- The group of a name is the one that holds the patch of that name. -/
theorem groupOf_eq_ok_iff : s.groupOf name = .ok g ↔ ∃ n ∈ s.patchesIn g, n.text = name := by
  simp only [groupOf, bind_eq_ok_iff, indexOf_eq_ok_iff]
  constructor
  · rintro ⟨i, ⟨n, hi, rfl⟩, hg⟩
    exact ⟨n, (groupAt_eq_ok_iff_mem hi).1 hg, rfl⟩
  · rintro ⟨n, hn, rfl⟩
    obtain ⟨i, hi, hg⟩ := exists_getElem?_of_mem_patchesIn hn
    exact ⟨i, ⟨n, hi, rfl⟩, hg⟩

/-- A name has no group only if the stack does not hold it: an index that is found has a group. -/
theorem groupOf_eq_error_iff :
    s.groupOf name = .error e ↔ s.contains name = false ∧ e = .notInStack name := by
  rw [← indexOf_eq_notInStack_iff, groupOf, bind_eq_error_iff, or_iff_left_iff_imp]
  rintro ⟨i, hi, hg⟩
  obtain ⟨n, hn, -⟩ := indexOf_eq_ok_iff.1 hi
  obtain ⟨g, hg'⟩ := exists_groupAt (lt_total_iff.2 ⟨n, hn⟩)
  cases hg.symm.trans hg'

end Answers

/-- The answers of a stack agree with each other, and there are no others. -/
structure AnswersAgree (s : Stack) : Prop where
  /-- Every patch has an index, and stands there. -/
  index_of_patch : ∀ n ∈ s.patches, ∃ i < s.total, s.indexOf n.text = .ok i ∧ s.patches[i]? = some n
  /-- At every index stands a patch, which has this index. -/
  patch_of_index : ∀ i < s.total, ∃ n ∈ s.patches, s.patches[i]? = some n ∧ s.indexOf n.text = .ok i
  /-- A name is held exactly if it has an index. -/
  contains_index : ∀ name, s.contains name = true ↔ ∃ i, s.indexOf name = .ok i
  /-- Other names are reported. -/
  missing_name : ∀ name e,
    s.indexOf name = .error e ↔ s.contains name = false ∧ e = .notInStack name
  /-- The group of a name is the one that holds the patch. -/
  group_of_name : ∀ name g, s.groupOf name = .ok g ↔ ∃ n ∈ s.patchesIn g, n.text = name
  /-- Names without a group are reported as those without an index. -/
  missing_group : ∀ name e,
    s.groupOf name = .error e ↔ s.contains name = false ∧ e = .notInStack name
  /-- The group of an index is the one that holds the patch there. -/
  group_of_index : ∀ (i : Nat) n g, s.patches[i]? = some n →
    (s.groupAt i = .ok g ↔ n ∈ s.patchesIn g)
  /-- Groups come in their order. -/
  groups_in_order : ∀ i j g g', i ≤ j → s.groupAt i = .ok g → s.groupAt j = .ok g' →
    g.rank ≤ g'.rank
  /-- There are groups at the indices of the stack only. -/
  outside : ∀ i e, s.groupAt i = .error e ↔ (i < 0 ∨ (s.total : Int) ≤ i) ∧ e = .noSuchIndex i

/-- The answers of every stack agree. -/
theorem answersAgree (s : Stack) : s.AnswersAgree where
  index_of_patch n hn := by
    obtain ⟨i, hi⟩ := List.getElem?_of_mem hn
    exact ⟨i, lt_total_iff.2 ⟨n, hi⟩, indexOf_text hi, hi⟩
  patch_of_index i hi := by
    obtain ⟨n, hn⟩ := lt_total_iff.1 hi
    exact ⟨n, List.mem_of_getElem? hn, hn, indexOf_text hn⟩
  contains_index _ := contains_iff_indexOf
  missing_name _ _ := indexOf_eq_notInStack_iff
  group_of_name _ _ := groupOf_eq_ok_iff
  missing_group _ _ := groupOf_eq_error_iff
  group_of_index _ _ _ := groupAt_eq_ok_iff_mem
  groups_in_order _ _ _ _ := rank_le_of_le
  outside _ _ := groupAt_eq_error_iff

/-- **Parts that are accepted make a stack whose answers agree.** Parts are accepted exactly if no
patch occurs twice and commits are recorded for patches only, as parts by themselves and as those of
a document. Of others the first patch that occurred before is reported, or else the names that are
no patches. Where parts are accepted, the index of a name and the patch at an index are inverse to
each other between the patches and the indices below their number; a name is held exactly if it has
an index; its group is the one that holds it; and from the first index to the last one the groups
come in their order.

**Proof sketch.** The search for an index finds the first patch of the name, which is the only one,
since no patch occurs twice. The indices of a group are an interval, and these intervals follow each
other, so that the lengths of the groups say which group holds the patch at an index. -/
theorem accepted_parts_agree (d : StackData) :
    ((∃ s, ofData d = .ok s) ↔ d.patches.Nodup ∧ ∀ entry ∈ d.commits, entry.1 ∈ d.patches) ∧
    (∀ n, ofData d = .error (.repeated n) ↔ IsFirstRepeat d.patches n) ∧
    (∀ names, ofData d = .error (.unlisted names) → d.patches.Nodup ∧
      ∀ name, name ∈ names ↔ ∃ entry ∈ d.commits, entry.1 ∉ d.patches ∧ entry.1.text = name) ∧
    (∀ fields, readData fields = .ok (.ok d) → ofJson (.record fields) =
      (ofData d).mapError fun fault => .issues (faultReport fault)) ∧
    ∀ s, ofData d = .ok s → s.toStackData = d ∧ s.AnswersAgree := by
  refine ⟨exists_ofData_iff, fun n => ofData_eq_repeated_iff,
    fun names => mem_of_ofData_eq_unlisted, fun fields => ofJson_of_readData, fun s h => ?_⟩
  exact ⟨ofData_eq_ok_iff.1 h, s.answersAgree⟩

end Stack

end PatchStack
