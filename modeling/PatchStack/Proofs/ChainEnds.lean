import Mathlib.Data.List.Basic
import Mathlib.Order.Bounds.Basic
import PatchStack.Proofs.NameReadings

set_option autoImplicit false

/-!
# Where chains begin and end

A chain inside a text is found by its positions. From a given position on it is followed atom by
atom, which leads to the last position that a chain can reach. Backwards it is searched for: of all
positions from which a chain goes on to the end of the text, the first one counts.

## Main definitions

* `PatchStack.opensTrailing` — does a chain from a position on go on to the end of the text?

## Main results

* `PatchStack.chainEnd_eq` — following atoms leads to the end of the longest chain.
* `PatchStack.isGreatest_chainEnd`, `PatchStack.isLeast_trailingStart` — the last end and the first
  beginning.
* `PatchStack.trailingStart_eq_find?` — the search for the beginning.
* `PatchStack.chain_positions` — all of it, with the split of a text that it gives.
-/

namespace PatchStack

variable {t : Text} {start : Nat}

/-! ## The longest chain at the front -/

/-- The longest chain that begins a text begins it. -/
lemma leadingChain_isPrefix (t : Text) : leadingChain t <+: t :=
  ⟨afterChain t, leadingChain_append_afterChain t⟩

/-- What follows the leading chain does not go on with a sign. -/
lemma isSign_of_mem_afterChain {c : Char} (h : c ∈ (afterChain t).head?) : isSign c = false := by
  rw [afterChain] at h
  split at h
  · have hhead := List.head?_dropWhile_not isOffsetChar t
    rw [Option.mem_def.1 h] at hhead
    have hoff : isOffsetChar c = false := by simpa using hhead
    exact (Bool.or_eq_false_iff.1 hoff).1
  · next hsign =>
    rw [Option.mem_def.1 h] at hsign
    simpa using hsign

/-- Every chain that begins a text begins its leading chain. -/
theorem IsChain.prefix_leadingChain {a : Text} (ha : IsChain a) (h : a <+: t) :
    a <+: leadingChain t := by
  obtain ⟨r, rfl⟩ := h
  cases a with
  | nil => exact List.nil_prefix
  | cons c a =>
    have hsign : ((c :: a) ++ r).head?.any isSign = true := by simpa using ha.head
    rw [leadingChain, if_pos hsign, List.takeWhile_append_of_pos ha.all]
    exact List.prefix_append _ _

/-- Behind a sign the leading chain has the digits that follow, and then goes on as a chain.

**Proof sketch.** The digits behind the sign can stand in a chain. What is behind them begins with
no digit, so that it goes on as a chain exactly if it begins with a sign. -/
lemma leadingChain_cons {c : Char} (hc : isSign c = true) (r : Text) :
    leadingChain (c :: r) =
      c :: (r.takeWhile Char.isDigit ++ leadingChain (r.dropWhile Char.isDigit)) := by
  have hdigits : ∀ d ∈ r.takeWhile Char.isDigit, isOffsetChar d = true := by
    intro d hd
    have hdigit : d.isDigit = true := List.all_eq_true.1 List.all_takeWhile d hd
    simp [isOffsetChar, hdigit]
  have hrest : leadingChain (r.dropWhile Char.isDigit) =
      (r.dropWhile Char.isDigit).takeWhile isOffsetChar := by
    have hhead := List.head?_dropWhile_not Char.isDigit r
    rw [leadingChain]
    cases hr : r.dropWhile Char.isDigit with
    | nil => simp
    | cons d r' =>
      rw [hr] at hhead
      have hd : d.isDigit = false := by simpa using hhead
      by_cases hs : isSign d = true <;> simp [hs, hd, isOffsetChar]
  have hoff : isOffsetChar c = true := by simp [isOffsetChar, hc]
  calc leadingChain (c :: r)
      = c :: r.takeWhile isOffsetChar := by simp [leadingChain, hc, hoff]
    _ = c :: (r.takeWhile Char.isDigit ++ r.dropWhile Char.isDigit).takeWhile isOffsetChar := by
        rw [List.takeWhile_append_dropWhile]
    _ = _ := by rw [List.takeWhile_append_of_pos hdigits, hrest]

/-! ## Following atoms -/

/-- At a position with a sign there is an atom, and nowhere else. -/
lemma atomEnd?_of_drop {c : Char} {r : Text} (h : t.drop start = c :: r) :
    atomEnd? t start =
      if isSign c then some (start + 1 + (r.takeWhile Char.isDigit).length) else none := by
  have hc : t[start]? = some c := by
    rw [← List.head?_drop, h]
    rfl
  have hr : t.drop (start + 1) = r := by
    rw [← List.drop_drop, h]
    rfl
  simp [atomEnd?, digitsEnd, hc, hr]

/-- **Following atoms leads to the end of the longest chain** that begins where they do.

**Proof sketch.** Each step takes the sign and the digits that are the front of the leading chain
as well, and what is left of this chain is the leading chain of what is left of the text. -/
theorem chainEnd_eq (t : Text) (start : Nat) :
    chainEnd t start = start + (leadingChain (t.drop start)).length := by
  fun_induction chainEnd t start with
  | case1 start next hnext ih =>
    cases hd : t.drop start with
    | nil =>
      have hlt := lt_of_atomEnd? hnext
      have := List.drop_eq_nil_iff.1 hd
      omega
    | cons c r =>
      rw [atomEnd?_of_drop hd] at hnext
      split at hnext
      · next hc =>
        have hnext' : start + 1 + (r.takeWhile Char.isDigit).length = next := by simpa using hnext
        have hrest : t.drop next = r.dropWhile Char.isDigit := by
          have hdrop : (r.takeWhile Char.isDigit ++ r.dropWhile Char.isDigit).drop
              (r.takeWhile Char.isDigit).length = r.dropWhile Char.isDigit := List.drop_left
          rw [List.takeWhile_append_dropWhile] at hdrop
          rw [← hnext', ← List.drop_drop, ← List.drop_drop, hd]
          exact hdrop
        rw [ih, hrest, leadingChain_cons hc]
        simp only [List.length_cons, List.length_append]
        omega
      · cases hnext
  | case2 start hnone =>
    cases hd : t.drop start with
    | nil => rfl
    | cons c r =>
      rw [atomEnd?_of_drop hd] at hnone
      have hc : isSign c = false := by simpa using hnone
      simp [leadingChain, hc]

/-- A chain ends within its text. -/
lemma chainEnd_le (h : start ≤ t.length) : chainEnd t start ≤ t.length := by
  have hlength := (leadingChain_isPrefix (t.drop start)).length_le
  rw [List.length_drop] at hlength
  rw [chainEnd_eq]
  omega

/-- What lies between the beginning and the end is the leading chain. -/
lemma extract_chainEnd (t : Text) (start : Nat) :
    t.extract start (chainEnd t start) = leadingChain (t.drop start) := by
  rw [List.extract_eq_take_drop, chainEnd_eq, Nat.add_sub_cancel_left]
  exact (List.prefix_iff_eq_take.1 (leadingChain_isPrefix _)).symm

/-- What stands behind the end is what follows the leading chain. -/
lemma drop_chainEnd (t : Text) (start : Nat) :
    t.drop (chainEnd t start) = afterChain (t.drop start) := by
  have h : (leadingChain (t.drop start) ++ afterChain (t.drop start)).drop
      (leadingChain (t.drop start)).length = afterChain (t.drop start) := List.drop_left
  rwa [leadingChain_append_afterChain, List.drop_drop, ← chainEnd_eq] at h

/-- **No chain from a position on ends later** than the one that is found by following atoms.

**Proof sketch.** What is found is the longest chain that begins the rest of the text. A chain up to
another end begins the rest too, so that it is a beginning of that one. -/
theorem isGreatest_chainEnd (h : start ≤ t.length) :
    IsGreatest {stop | stop ≤ t.length ∧ IsChain (t.extract start stop)} (chainEnd t start) := by
  refine ⟨⟨chainEnd_le h, ?_⟩, ?_⟩
  · rw [extract_chainEnd]
    exact isChain_leadingChain _
  · intro stop hstop
    obtain ⟨hle, hchain⟩ := hstop
    have hprefix : t.extract start stop <+: t.drop start := by
      rw [List.extract_eq_take_drop]
      exact List.take_prefix _ _
    have hlength := (hchain.prefix_leadingChain hprefix).length_le
    rw [List.extract_eq_take_drop, List.length_take, List.length_drop] at hlength
    rw [chainEnd_eq]
    omega

/-! ## The chain at the end -/

/-- What is in front of the chain at the end precedes it. -/
lemma take_trailingStart (t : Text) : t.take (trailingStart t) = beforeTrailingChain t := by
  have h : (beforeTrailingChain t ++ trailingChain t).take (beforeTrailingChain t).length =
      beforeTrailingChain t := List.take_left
  rwa [beforeTrailingChain_append] at h

/-- The chain at the end is what stands from its beginning on. -/
lemma drop_trailingStart (t : Text) : t.drop (trailingStart t) = trailingChain t := by
  have h : (beforeTrailingChain t ++ trailingChain t).drop (beforeTrailingChain t).length =
      trailingChain t := List.drop_left
  rwa [beforeTrailingChain_append] at h

/-- The chain at the end begins within the text. -/
lemma trailingStart_le (t : Text) : trailingStart t ≤ t.length := by
  have h := congrArg List.length (beforeTrailingChain_append t)
  rw [List.length_append] at h
  rw [trailingStart]
  omega

/-- **No chain that goes on to the end of the text begins earlier** than the one that is split
off.

**Proof sketch.** A chain that goes on to the end leaves the front of the text alone, so that the
chain at the end begins in front of it or with it. -/
theorem isLeast_trailingStart (t : Text) :
    IsLeast {i | IsChain (t.drop i)} (trailingStart t) := by
  constructor
  · show IsChain (t.drop (trailingStart t))
    rw [drop_trailingStart]
    exact isChain_trailingChain t
  · intro i hi
    -- The chain behind the position leaves the front alone, which is then no longer than that.
    have hfront : beforeTrailingChain t = beforeTrailingChain (t.take i) := by
      have h := beforeTrailingChain_append_of_isChain (t := t.take i) hi
      rwa [List.take_append_drop] at h
    have hle := trailingStart_le (t.take i)
    rw [List.length_take] at hle
    show (beforeTrailingChain t).length ≤ i
    rw [hfront]
    show trailingStart (t.take i) ≤ i
    omega

/-- Every chain that ends a text is the end of the one that is split off. -/
theorem suffix_trailingChain {a o : Text} (h : t = a ++ o) (ho : IsChain o) :
    o <:+ trailingChain t := by
  rw [h, trailingChain_append_of_isChain ho]
  exact List.suffix_append _ _

/-- No chain ends what stands before the chain that is split off. -/
theorem eq_nil_of_beforeTrailingChain {a o : Text} (h : beforeTrailingChain t = a ++ o)
    (ho : IsChain o) : o = [] := by
  have hchain : IsChain (o ++ trailingChain t) := ho.append (isChain_trailingChain t)
  have hsplit : t = a ++ (o ++ trailingChain t) := by
    rw [← List.append_assoc, ← h, beforeTrailingChain_append]
  have hlength := (suffix_trailingChain hsplit hchain).length_le
  rw [List.length_append] at hlength
  exact List.length_eq_zero_iff.1 (by omega)

/-! ## The search for the beginning -/

/-- Does a chain that begins at the position go on to the end of the text? -/
def opensTrailing (t : Text) (position : Nat) : Bool :=
  t[position]?.any isSign && chainEnd t position == t.length

/-- A chain at the end begins where the rest of the text is a chain.

**Proof sketch.** A chain that begins at a position reaches the end of the text exactly if the rest
of the text is its own leading chain. There is a character at the position, which is then a sign. -/
lemma opensTrailing_iff {i : Nat} (hi : i < t.length) :
    opensTrailing t i = true ↔ IsChain (t.drop i) := by
  have hhead : t[i]? = (t.drop i).head? := List.head?_drop.symm
  have hend : chainEnd t i = t.length ↔ leadingChain (t.drop i) = t.drop i := by
    rw [chainEnd_eq]
    have hlength : (t.drop i).length = t.length - i := List.length_drop
    constructor
    · intro h
      exact (leadingChain_isPrefix _).eq_of_length (by omega)
    · intro h
      rw [h]
      omega
  rw [opensTrailing, Bool.and_eq_true, beq_iff_eq, hend, ← isChain_iff, hhead]
  constructor
  · exact fun h => h.2
  · intro h
    refine ⟨?_, h⟩
    rcases h.head with hnil | hsign
    · have := List.drop_eq_nil_iff.1 hnil
      omega
    · exact hsign

/-- The beginning of the chain at the end is found by trying one position after the other.

**Proof sketch.** The chain at the end begins at the least position from which the text is a chain,
and the search is for that. Without one the chain is empty and begins at the end. -/
theorem trailingStart_eq_find? (t : Text) :
    trailingStart t = ((List.range t.length).find? (opensTrailing t)).getD t.length := by
  obtain ⟨hchain, hleast⟩ := isLeast_trailingStart t
  cases hfind : (List.range t.length).find? (opensTrailing t) with
  | none =>
    have hnone := List.find?_range_eq_none.1 hfind
    show trailingStart t = t.length
    by_contra hne
    have hlt : trailingStart t < t.length := by
      have := trailingStart_le t
      omega
    have := hnone _ hlt
    simp [(opensTrailing_iff hlt).2 hchain] at this
  | some i =>
    obtain ⟨hopens, hmem, hbefore⟩ := List.find?_range_eq_some.1 hfind
    have hi : i < t.length := List.mem_range.1 hmem
    have hle : trailingStart t ≤ i := hleast ((opensTrailing_iff hi).1 hopens)
    show trailingStart t = i
    by_contra hne
    have hlt : trailingStart t < i := by omega
    have := hbefore _ hlt
    simp [(opensTrailing_iff (hlt.trans hi)).2 hchain] at this

/-- **Chains are found as far as they go.** From a position on, following atoms leads to the last
position up to which the text is a chain. The chain at the end of a text begins at the first
position from which the text is a chain; that is the first one, from left to right, at which the
search succeeds. So a text is split there into a front that no chain ends and the longest chain that
ends the text.

**Proof sketch.** Both directions are characterised by an extreme position each
(`isGreatest_chainEnd`, `isLeast_trailingStart`), and the search by the latter. -/
theorem chain_positions (t : Text) :
    (∀ start ≤ t.length,
      IsGreatest {stop | stop ≤ t.length ∧ IsChain (t.extract start stop)} (chainEnd t start)) ∧
    IsLeast {i | IsChain (t.drop i)} (trailingStart t) ∧
    trailingStart t = ((List.range t.length).find? (opensTrailing t)).getD t.length ∧
    beforeTrailingChain t = t.take (trailingStart t) ∧
    trailingChain t = t.drop (trailingStart t) ∧
    (∀ a o, t.take (trailingStart t) = a ++ o → IsChain o → o = []) ∧
    ∀ a o, t = a ++ o → IsChain o → o <:+ t.drop (trailingStart t) := by
  refine ⟨fun start h => isGreatest_chainEnd h, isLeast_trailingStart t, trailingStart_eq_find? t,
    (take_trailingStart t).symm, (drop_trailingStart t).symm, ?_, ?_⟩
  · intro a o h ho
    rw [take_trailingStart] at h
    exact eq_nil_of_beforeTrailingChain h ho
  · intro a o h ho
    rw [drop_trailingStart]
    exact suffix_trailingChain h ho

end PatchStack
