import Mathlib.Data.List.Nodup
import Mathlib.Tactic.Common
import PatchStack.Range

set_option autoImplicit false

/-!
# The order of a stack

A stack can be asked for the index of a name, for the patch at an index, and for the group of
an index, and it answers each question in a way of its own: by a search, by a look-up, by the
lengths of its groups. This file shows that the answers agree, and what a group is in terms of
indices: an interval that begins where the groups before it end.

## Main results

* `PatchStack.Stack.indexOf_eq_ok_iff` — the index of a name is where the patch stands.
* `PatchStack.Stack.groupAt_eq_ok_iff` — the indices of a group are an interval.
* `PatchStack.Stack.groupAt_eq_ok_iff_mem` — the group of an index is the one that holds the
  patch there.
* `PatchStack.Stack.group_unique` — no patch is in two groups.
-/

namespace PatchStack

/-! ## Outcomes -/

section Outcome

variable {α β ε : Type}

/-- A computation in two steps succeeds if both steps do. -/
lemma bind_eq_ok_iff {x : Except ε α} {f : α → Except ε β} {b : β} :
    x >>= f = .ok b ↔ ∃ a, x = .ok a ∧ f a = .ok b := by
  cases x <;> simp [bind, Except.bind]

/-- A computation in two steps fails if one of them does. -/
lemma bind_eq_error_iff {x : Except ε α} {f : α → Except ε β} {e : ε} :
    x >>= f = .error e ↔ x = .error e ∨ ∃ a, x = .ok a ∧ f a = .error e := by
  cases x <;> simp [bind, Except.bind]

/-- What a result is mapped to succeeds if the result does. -/
lemma map_eq_ok_iff {x : Except ε α} {f : α → β} {b : β} :
    f <$> x = .ok b ↔ ∃ a, x = .ok a ∧ f a = b := by
  cases x <;> simp [Functor.map, Except.map]

/-- What a result is mapped to fails as the result does. -/
lemma map_eq_error_iff {x : Except ε α} {f : α → β} {e : ε} :
    f <$> x = .error e ↔ x = .error e := by
  cases x <;> simp [Functor.map, Except.map]

/-- Where a step succeeds under a condition, it does so on a list if all items meet the
condition.

**Proof sketch.** By induction on the list. -/
lemma mapM_eq_ok_iff {f : α → Except ε β} {p : α → Prop} {g : α → β}
    (hf : ∀ a b, f a = .ok b ↔ p a ∧ g a = b) {as : List α} {bs : List β} :
    as.mapM f = .ok bs ↔ (∀ a ∈ as, p a) ∧ as.map g = bs := by
  induction as generalizing bs with
  | nil => simp [pure, Except.pure]
  | cons a as ih =>
    rw [List.mapM_cons, List.forall_mem_cons, List.map_cons]
    simp only [bind_eq_ok_iff, hf, ih, pure, Except.pure, Except.ok.injEq]
    constructor
    · rintro ⟨b, ⟨ha, rfl⟩, bs', ⟨has, rfl⟩, rfl⟩
      exact ⟨⟨ha, has⟩, rfl⟩
    · rintro ⟨⟨ha, has⟩, rfl⟩
      exact ⟨_, ⟨ha, rfl⟩, _, ⟨has, rfl⟩, rfl⟩

/-- A step fails on a list for the reason of the first item on which it fails.

**Proof sketch.** By induction on the list: the front item fails, or it succeeds and the others
fail. -/
lemma mapM_eq_error_iff {f : α → Except ε β} {e : ε} {as : List α} :
    as.mapM f = .error e ↔
      ∃ before a after bs, as = before ++ a :: after ∧ before.mapM f = .ok bs ∧ f a = .error e := by
  induction as with
  | nil => simp [pure, Except.pure]
  | cons x as ih =>
    rw [List.mapM_cons]
    constructor
    · intro h
      rcases bind_eq_error_iff.1 h with hx | ⟨b, hx, h⟩
      · exact ⟨[], x, as, [], rfl, rfl, hx⟩
      · rcases bind_eq_error_iff.1 h with has | ⟨bs, -, h⟩
        · obtain ⟨before, a, after, bs, rfl, hbefore, ha⟩ := ih.1 has
          refine ⟨x :: before, a, after, b :: bs, rfl, ?_, ha⟩
          rw [List.mapM_cons, hx, hbefore]
          rfl
        · cases h
    · rintro ⟨before, a, after, bs, hsplit, hbefore, ha⟩
      cases before with
      | nil =>
        cases hsplit
        rw [ha]
        rfl
      | cons y before =>
        cases hsplit
        rw [List.mapM_cons] at hbefore
        obtain ⟨b, hx, hbefore⟩ := bind_eq_ok_iff.1 hbefore
        obtain ⟨bs', hbefore, -⟩ := bind_eq_ok_iff.1 hbefore
        have has := ih.2 ⟨before, a, after, bs', rfl, hbefore, ha⟩
        rw [hx, has]
        rfl

end Outcome

namespace Stack

variable {s : Stack}

/-! ## Patches and indices -/

/-- The applied patches come first and the hidden ones last. -/
theorem patches_eq : s.patches = s.applied ++ s.unapplied ++ s.hidden := rfl

/-- The stack has as many patches as there are in its three groups. -/
theorem total_eq : s.total = s.patches.length := by
  simp only [total, patches_eq, List.length_append]

/-- A stack holds the names of its patches. -/
theorem contains_iff {name : Text} : s.contains name = true ↔ ∃ n ∈ s.patches, n.text = name := by
  simp only [contains, patches_eq, List.mem_append, Bool.or_eq_true, List.any_eq_true, beq_iff_eq]
  constructor
  · rintro ((⟨n, hn, h⟩ | ⟨n, hn, h⟩) | ⟨n, hn, h⟩)
    · exact ⟨n, .inl (.inl hn), h⟩
    · exact ⟨n, .inl (.inr hn), h⟩
    · exact ⟨n, .inr hn, h⟩
  · rintro ⟨n, (hn | hn) | hn, h⟩
    · exact .inl (.inl ⟨n, hn, h⟩)
    · exact .inl (.inr ⟨n, hn, h⟩)
    · exact .inr ⟨n, hn, h⟩

/-- A name is held by the stack only as one of its patches. -/
lemma contains_text_iff {n : PatchName} : s.contains n.text = true ↔ n ∈ s.patches := by
  rw [contains_iff]
  constructor
  · rintro ⟨m, hm, h⟩
    rwa [← PatchName.ext h]
  · exact fun hn => ⟨n, hn, rfl⟩

/-- The indices of a stack are those at which a patch stands. -/
lemma lt_total_iff {i : Nat} : i < s.total ↔ ∃ n, s.patches[i]? = some n := by
  rw [total_eq, ← Option.isSome_iff_exists, isSome_getElem?]

/-- A patch stands at one index only. -/
lemma index_unique {i j : Nat} {n : PatchName} (hi : s.patches[i]? = some n)
    (hj : s.patches[j]? = some n) : i = j := by
  obtain ⟨hil, hin⟩ := List.getElem?_eq_some_iff.1 hi
  obtain ⟨hjl, hjn⟩ := List.getElem?_eq_some_iff.1 hj
  exact (List.Nodup.getElem_inj_iff s.nodup).1 (hin.trans hjn.symm)

/-- The index of a name is the one at which the patch of that name stands.

**Proof sketch.** The index is the first one with this name, and there is no other one, since no two
patches have the same name. -/
theorem indexOf_eq_ok_iff {name : Text} {i : Nat} :
    s.indexOf name = .ok i ↔ ∃ n, s.patches[i]? = some n ∧ n.text = name := by
  unfold indexOf
  constructor
  · intro h
    split at h
    · rename_i k hk
      cases h
      obtain ⟨hlt, hp, -⟩ := List.findIdx?_eq_some_iff_getElem.1 hk
      exact ⟨s.patches[i], List.getElem?_eq_getElem hlt, by simpa using hp⟩
    · cases h
  · rintro ⟨n, hn, rfl⟩
    obtain ⟨hlt, hget⟩ := List.getElem?_eq_some_iff.1 hn
    have hfind : (s.patches.findIdx? fun m => m.text == n.text) = some i := by
      refine List.findIdx?_eq_some_iff_getElem.2 ⟨hlt, by simp [hget], fun j hj => ?_⟩
      -- An earlier patch of the same name would be the same patch at another index.
      intro hp
      have hjn : s.patches[j] = n := PatchName.ext (by simpa using hp)
      have := index_unique (List.getElem?_eq_some_iff.2 ⟨by omega, hjn⟩) hn
      omega
    rw [hfind]

/-- A name has no index only if the stack does not hold it.

**Proof sketch.** The search finds a patch with the name exactly if there is one. -/
theorem indexOf_eq_error_iff {name : Text} {e : Error} :
    s.indexOf name = .error e ↔ (∀ n ∈ s.patches, n.text ≠ name) ∧ e = .notInStack name := by
  unfold indexOf
  cases h : s.patches.findIdx? fun n => n.text == name with
  | some i =>
    obtain ⟨hlt, hp, -⟩ := List.findIdx?_eq_some_iff_getElem.1 h
    simp only [reduceCtorEq, false_iff, not_and]
    intro hall
    exact absurd (by simpa using hp) (hall _ (List.getElem_mem hlt))
  | none =>
    have hall : ∀ n ∈ s.patches, n.text ≠ name := by simpa using h
    simp only [Except.error.injEq]
    exact ⟨fun he => ⟨hall, he.symm⟩, fun he => he.2.symm⟩

/-- A patch has the index at which it stands. -/
theorem indexOf_text {i : Nat} {n : PatchName} (h : s.patches[i]? = some n) :
    s.indexOf n.text = .ok i := indexOf_eq_ok_iff.2 ⟨n, h, rfl⟩

/-- The patch at an index is the one that stands there. -/
theorem patchAt_eq_ok_iff {i : Int} {n : PatchName} :
    s.patchAt i = .ok n ↔ ∃ k : Nat, i = k ∧ s.patches[k]? = some n := by
  unfold patchAt
  split
  · rename_i hneg
    simp only [reduceCtorEq, false_iff]
    rintro ⟨k, rfl, -⟩
    omega
  · rename_i hnonneg
    obtain ⟨k, rfl⟩ := Int.eq_ofNat_of_zero_le (Int.not_lt.1 hnonneg)
    simp only [Int.toNat_natCast, Int.natCast_inj, exists_eq_left']
    cases s.patches[k]? <;> simp

/-! ## Groups as intervals -/

/-- A group ends within the stack. -/
lemma groupStart_add_length_le (g : Group) :
    s.groupStart g + (s.patchesIn g).length ≤ s.total := by
  cases g <;> simp only [groupStart, patchesIn, total] <;> omega

/-- The indices of a group are those from where it begins to where it ends. -/
theorem groupAt_eq_ok_iff {i : Int} {g : Group} :
    s.groupAt i = .ok g ↔
      (s.groupStart g : Int) ≤ i ∧ i < s.groupStart g + (s.patchesIn g).length := by
  unfold groupAt
  cases g <;> split_ifs with hout happlied hunapplied <;>
    simp only [reduceCtorEq, false_iff, true_iff, Except.ok.injEq] <;>
    simp only [groupStart, patchesIn, total] at * <;> omega

/-- Every index of the stack has a group. -/
theorem exists_groupAt {i : Nat} (h : i < s.total) : ∃ g, s.groupAt i = .ok g := by
  unfold groupAt
  split_ifs
  · omega
  · exact ⟨_, rfl⟩
  · exact ⟨_, rfl⟩
  · exact ⟨_, rfl⟩

/-- Nothing outside of the stack has a group. -/
lemma lt_total_of_groupAt {i : Nat} {g : Group} (h : s.groupAt i = .ok g) : i < s.total := by
  have := groupAt_eq_ok_iff.1 h
  have := s.groupStart_add_length_le g
  omega

/-- The patches of a group stand one after the other from where the group begins.

**Proof sketch.** One case for each group: it is the first, second or third part of the order of
patches. -/
lemma getElem?_groupStart_add {g : Group} {k : Nat} (h : k < (s.patchesIn g).length) :
    s.patches[s.groupStart g + k]? = (s.patchesIn g)[k]? := by
  cases g with
  | applied =>
    simp only [groupStart, patchesIn] at h ⊢
    rw [Nat.zero_add, patches_eq, List.append_assoc, List.getElem?_append_left h]
  | unapplied =>
    simp only [groupStart, patchesIn] at h ⊢
    rw [patches_eq, List.append_assoc, List.getElem?_append_right (by omega),
      Nat.add_sub_cancel_left, List.getElem?_append_left h]
  | hidden =>
    simp only [groupStart, patchesIn] at h ⊢
    rw [patches_eq, List.getElem?_append_right (by simp), List.length_append,
      Nat.add_sub_cancel_left]

/-- Every patch of a group stands somewhere in the stack. -/
lemma exists_getElem?_of_mem_patchesIn {n : PatchName} {g : Group} (hn : n ∈ s.patchesIn g) :
    ∃ i : Nat, s.patches[i]? = some n ∧ s.groupAt i = .ok g := by
  obtain ⟨k, hk, hget⟩ := List.getElem_of_mem hn
  refine ⟨s.groupStart g + k, ?_, groupAt_eq_ok_iff.2 ⟨by omega, by omega⟩⟩
  rw [getElem?_groupStart_add hk, List.getElem?_eq_getElem hk, hget]

/-- The group of an index is the one that holds the patch there.

**Proof sketch.** A group is a segment of indices. The patch at an index of the segment is one of
the group, and a patch stands at one index only. -/
theorem groupAt_eq_ok_iff_mem {i : Nat} {n : PatchName} {g : Group} (h : s.patches[i]? = some n) :
    s.groupAt i = .ok g ↔ n ∈ s.patchesIn g := by
  rw [groupAt_eq_ok_iff]
  constructor
  · rintro ⟨hle, hlt⟩
    obtain ⟨k, rfl⟩ : ∃ k, i = s.groupStart g + k := ⟨i - s.groupStart g, by omega⟩
    rw [getElem?_groupStart_add (by omega)] at h
    exact List.mem_of_getElem? h
  · intro hn
    obtain ⟨k, hat, hg⟩ := exists_getElem?_of_mem_patchesIn hn
    obtain rfl := index_unique h hat
    exact groupAt_eq_ok_iff.1 hg

/-- A patch is in one group only. -/
lemma group_unique {n : PatchName} {g g' : Group} (hg : n ∈ s.patchesIn g)
    (hg' : n ∈ s.patchesIn g') : g = g' := by
  obtain ⟨i, hi, hat⟩ := exists_getElem?_of_mem_patchesIn hg
  exact Except.ok.inj (hat.symm.trans ((groupAt_eq_ok_iff_mem hi).2 hg'))

end Stack

end PatchStack
