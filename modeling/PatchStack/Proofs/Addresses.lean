import PatchStack.Proofs.ChainAtoms
import PatchStack.Proofs.NameReadings
import PatchStack.Proofs.ReportedErrors
import PatchStack.Proofs.Selection
import PatchStack.Proofs.Spelling
import PatchStack.Proofs.Stops

set_option autoImplicit false

/-!
# Addresses of patches

Every patch of a stack can be reached without its name: from the base, from the last visible patch,
from the topmost applied one, and by its index as it is printed. What the patches are called matters
for the index only, which may be the name of a patch itself.

## Main definitions

* `PatchStack.Stack.LeadsTo` — a text is a locator that leads to a patch.
* `PatchStack.Stack.Address` — the texts that address the patch at an index.
* `PatchStack.Stack.IsAddressed` — there are such texts in each of the notations.

## Main results

* `PatchStack.Stack.isAddressed` — the numbers in addresses can be written.
* `PatchStack.Stack.leadsTo_of_address` — every address of a patch leads to it.
* `PatchStack.Stack.exists_row` — the listing of a stack shows the index of every patch.
* `PatchStack.Stack.addresses_reach` — both together, and ranges from one address to another.
-/

namespace PatchStack

/-- The chain of a single step that is written has this step. -/
lemma OffsetChain.exists_of_write {a : OffsetAtom} {t : Text} (ha : a.IsSpellable)
    (ht : a.write = .ok t) : ∃ o : OffsetChain, o.text = t ∧ o.deltas = .ok [a.delta] := by
  obtain ⟨hwritable, rfl⟩ := (a.write_eq_ok_iff t).1 ht
  obtain ⟨o, ho⟩ := exists_ofAtoms_eq_ok_iff.2 (List.forall_mem_singleton.2 ⟨ha, hwritable⟩)
  refine ⟨o, ?_, ?_⟩
  · rw [(ofAtoms_eq_ok_iff.1 ho).2, List.flatMap_singleton]
  · rw [deltas, atoms_of_ofAtoms ho]
    rfl

/-! ## Addresses -/

namespace Stack

/-- The text is a locator that leads to the patch. -/
def LeadsTo (s : Stack) (t : Text) (n : PatchName) : Prop :=
  ∃ l, Locator.ofText t = .ok l ∧ l.resolve s .all = .ok n

/-- The step leads from the topmost applied patch to the index, and says how far. -/
structure StepsFromTop (s : Stack) (i : Nat) (a : OffsetAtom) : Prop where
  /-- The count is the distance. -/
  count : a.count = some (((i : Int) - s.topIndex).natAbs : Int)
  /-- The direction is the right one. -/
  delta : a.delta = i - s.topIndex

/-- The step that leads from the base to an index. -/
def stepFromBase (i : Nat) : OffsetAtom := ⟨.up, some (i + 1 : Nat)⟩

/-- The texts that address the patch at an index, in each of the notations of an anchor. -/
inductive Address (s : Stack) (i : Nat) : Text → Prop where
  /-- So many patches above the base. -/
  | fromBase {t : Text} (ht : (stepFromBase i).write = .ok t) : Address s i (baseToken ++ t)
  /-- So many patches before the last visible one, or behind it if the number is negative. -/
  | fromLast {t : Text} (ht : Text.writeInt ((s.visible.length : Int) - 1 - i) = .ok t) :
      Address s i (lastToken ++ t)
  /-- So many patches away from the topmost applied one. -/
  | fromTop (a : OffsetAtom) (ha : s.StepsFromTop i a) {t : Text} (ht : a.write = .ok t) :
      Address s i (topToken ++ t)
  /-- The same without the token for the topmost applied one. -/
  | unanchored (a : OffsetAtom) (ha : s.StepsFromTop i a) {t : Text} (ht : a.write = .ok t) :
      Address s i t
  /-- The index itself, unless a patch is called so. -/
  | index {t : Text} (ht : Text.writeInt i = .ok t) (hfree : ∀ m ∈ s.patches, m.text ≠ t) :
      Address s i t

/-- The numbers in the addresses of the index can be written, so that it has one in each of the
notations. -/
structure IsAddressed (s : Stack) (i : Nat) : Prop where
  /-- How far the base is away. -/
  fromBase : ∃ t, (stepFromBase i).write = .ok t
  /-- How far the last visible patch is away. -/
  fromLast : ∃ t, Text.writeInt ((s.visible.length : Int) - 1 - i) = .ok t
  /-- How far the topmost applied patch is away. -/
  fromTop : ∃ a t, s.StepsFromTop i a ∧ a.write = .ok t
  /-- The index. -/
  index : ∃ t, Text.writeInt i = .ok t

variable {s : Stack} {i : Nat} {n : PatchName}

/-- The topmost applied patch is a place to start from, and so is the base if there is none. -/
lemma topIndex_mem_positions (s : Stack) : s.topIndex ∈ Floor.base.positions s.total := by
  constructor
  · rw [topIndex]
    omega
  · rw [topIndex, total]
    omega

/-- One of the two directions is the right one. -/
lemma exists_stepsFromTop (s : Stack) (i : Nat) : ∃ a, s.StepsFromTop i a := by
  by_cases h : s.topIndex ≤ i
  · refine ⟨⟨.up, _⟩, rfl, ?_⟩
    show (((i : Int) - s.topIndex).natAbs : Int) = _
    omega
  · refine ⟨⟨.down, _⟩, rfl, ?_⟩
    show -(((i : Int) - s.topIndex).natAbs : Int) = _
    omega

/-- The numbers in addresses are not larger than the number of patches, so that they can be
written if this one can.

**Proof sketch.** The number of patches bounds the numbers in all four addresses, and what is not
larger has no more digits. -/
theorem isAddressed (hs : s.total < 10 ^ digitLimit) (hi : i < s.total) : s.IsAddressed i := by
  have hwrite {k : Int} (hk : k.natAbs ≤ s.total) : ∃ t, Text.writeInt k = .ok t :=
    ⟨_, Text.writeInt_eq_ok_iff.2 ⟨Text.digitCount_le_iff.2 (hk.trans_lt hs), rfl⟩⟩
  have hstep (d : Direction) {k : Int} (hk : k.natAbs ≤ s.total) :
      ∃ t, (OffsetAtom.mk d (some k)).write = .ok t := by
    obtain ⟨t, ht⟩ := hwrite hk
    exact ⟨_, map_eq_ok_iff.2 ⟨t, ht, rfl⟩⟩
  have hvisible : s.visible.length ≤ s.total := by
    rw [visible, total, List.length_append]
    omega
  obtain ⟨hlow, hhigh⟩ : -1 ≤ s.topIndex ∧ s.topIndex < s.total := s.topIndex_mem_positions
  refine ⟨hstep .up (by omega), hwrite (by omega), ?_, hwrite (by omega)⟩
  obtain ⟨⟨d, count⟩, ha⟩ := exists_stepsFromTop s i
  obtain rfl : count = _ := ha.count
  obtain ⟨t, ht⟩ := hstep d (k := ((i : Int) - s.topIndex).natAbs) (by
    rw [Int.natAbs_natCast]
    omega)
  exact ⟨_, t, ha, ht⟩

/-- The step is spelled as a chain. -/
lemma StepsFromTop.exists_chain {a : OffsetAtom} (ha : s.StepsFromTop i a) {t : Text}
    (ht : a.write = .ok t) :
    ∃ o : OffsetChain, o.text = t ∧ o.deltas = .ok [(i : Int) - s.topIndex] := by
  have hspellable : a.IsSpellable := by
    intro k hk
    rw [ha.count] at hk
    cases hk
    exact Int.natCast_nonneg _
  obtain ⟨o, ho, hdeltas⟩ := OffsetChain.exists_of_write hspellable ht
  exact ⟨o, ho, by rw [hdeltas, ha.delta]⟩

end Stack

/-! ## Where addresses lead -/

namespace Locator

variable {l l' : Locator} {s : Stack} {start : Int} {i : Nat}

/-- Without offsets a locator stays at its anchor. -/
lemma position_of_anchor (hw : l.write = .ok l.text) (hd : l.disambiguate s = .ok l')
    (ha : anchorIndex l'.anchor s = .ok (i : Int)) (hi : i < s.total) (hbase : l'.anchor ≠ .base)
    (hsteps : l'.offsets.deltas = .ok []) : l.position .base s = .ok (i : Int) := by
  refine (position_eq_ok_iff_stops hd ha).2
    ⟨hw, [], hsteps, ?_, fun _ h => absurd h hbase, (Int.add_zero _).symm⟩
  rw [stops_nil, List.forall_mem_singleton]
  exact ⟨by omega, by omega⟩

/-- With one step from a place to start from, a locator leads where the step does. -/
lemma position_of_step (hw : l.write = .ok l.text) (hd : l.disambiguate s = .ok l')
    (ha : anchorIndex l'.anchor s = .ok start) (hstart : start ∈ Floor.base.positions s.total)
    (hi : i < s.total) (hrises : l'.anchor ≠ .base ∨ start < i)
    (hsteps : l'.offsets.deltas = .ok [i - start]) : l.position .base s = .ok (i : Int) := by
  have hsum : [(i : Int) - start].sum = i - start := by rw [List.sum_singleton]
  refine (position_eq_ok_iff_stops hd ha).2 ⟨hw, _, hsteps, ?_, fun _ hbase => ?_, by omega⟩
  · rw [stops_cons, stops_nil, List.forall_mem_cons, List.forall_mem_singleton]
    exact ⟨hstart, by omega, by omega⟩
  · have hlt := hrises.resolve_left fun hne => hne hbase
    omega

/-- So many steps above the base there is the patch of the index. -/
lemma position_fromBase {o : OffsetChain} (ho : o.deltas = .ok [((i + 1 : Nat) : Int)])
    (hi : i < s.total) : (⟨.base, o⟩ : Locator).position .base s = .ok (i : Int) := by
  have hstart : (-1 : Int) ∈ Floor.base.positions s.total := ⟨Int.le_refl _, by omega⟩
  refine position_of_step rfl rfl rfl hstart hi (.inr (by omega)) ?_
  rw [ho, Int.sub_neg, Int.natCast_succ]

/-- A number behind the token for the last visible patch is read as it was printed. -/
lemma ofText_belowLast {k : Int} {t : Text} (ht : Text.writeInt k = .ok t) :
    ofText (lastToken ++ t) = .ok ⟨.belowLast (some k), .empty⟩ := by
  obtain ⟨hcount, rfl⟩ := Text.writeInt_eq_ok_iff.1 ht
  have hread : Numeral.fault? (.ofInt k) = none := Numeral.fault?_ofInt hcount
  have h : ofText (lastToken ++ (Numeral.ofInt k).text ++ []) =
      .ok ⟨.belowLast (some (Numeral.ofInt k).value), .empty⟩ :=
    (Derivation.ofText_text (d := .last (some (.ofInt k)) .empty) hread)
  rwa [List.append_nil, Numeral.text_ofInt, Numeral.value_ofInt] at h

end Locator

/-! ## Indices -/

/-- No chain ends a text of digits. -/
lemma trailingChain_of_isDigit {t : Text} (h : ∀ c ∈ t, c.isDigit = true) :
    trailingChain t = [] :=
  trailingChain_of_no_sign fun c hc => isSign_of_isDigit (h c hc)

/-- A text of digits does not begin like a token. -/
lemma not_beginsLikeToken_of_isDigit {t : Text} (h : ∀ c ∈ t, c.isDigit = true) :
    ¬ BeginsLikeToken t := by
  rintro (hplus | hbase | hat)
  · exact absurd (h '+' (hplus.subset List.mem_cons_self)) (by decide)
  · exact absurd (h '{' (hbase.subset List.mem_cons_self)) (by decide)
  · exact absurd (h '@' (hat.subset List.mem_cons_self)) (by decide)

/-- The decimal of an index, which keeps the rules of naming. -/
def PatchName.ofIndex (i : Nat) : PatchName :=
  ⟨Text.ofInt i, nameFault?_eq_none_iff.2 <|
    .append_of_isCountChar (t := []) nofun Nat.toDigits_ne_nil
      fun _ hc => Bool.or_eq_true_iff.2 (.inr (isDigit_of_mem_toDigits hc))⟩

/-- The name is read as the index if no patch has it and the index can be read.

**Proof sketch.** The digits of the index end with no chain, so that all of them are the stem, and
no patch is called so. The stem is read as what its digits mean. -/
lemma Locator.disambiguate_ofIndex {s : Stack} {i : Nat} (hi : PatchName.ofIndex i ∉ s.patches)
    (hcount : Text.digitCount i ≤ digitLimit) :
    (Locator.ofName (.ofIndex i)).disambiguate s = .ok ⟨.belowTop (some i), .empty⟩ := by
  have hdigits : ∀ c ∈ (PatchName.ofIndex i).text, c.isDigit = true :=
    fun _ => isDigit_of_mem_toDigits
  have hend : trailingChain (PatchName.ofIndex i).text = [] := trailingChain_of_isDigit hdigits
  have hoffsets : OffsetChain.trailing (PatchName.ofIndex i).text ++ .empty = .empty :=
    OffsetChain.ext (by
      show trailingChain (PatchName.ofIndex i).text ++ [] = []
      rw [hend, List.append_nil])
  have hindex : isIndex (PatchName.ofIndex i).text = true := by
    rw [isIndex, Bool.and_eq_true, List.all_eq_true]
    exact ⟨by simp [(PatchName.ofIndex i).rules.nonempty], hdigits⟩
  have hfree : s.contains (PatchName.ofIndex i).text = false :=
    Bool.not_eq_true _ ▸ mt Stack.contains_text_iff.1 hi
  have hvalue : Text.digitsValue (PatchName.ofIndex i).text = i := digitsValue_toDigits i
  obtain ⟨a, ha, hread, -⟩ := exists_anchor_of_isIndex hindex hfree (PatchName.ofIndex i).text
  rw [ofName, disambiguate_of_not_mem hi, beforeTrailingChain_of_trailingChain hend, hread hcount,
    hoffsets]
  rw [hvalue] at ha
  cases ha
  rfl

/-! ## Listings -/

/-- A list that is mapped has the images of its items at their places.

**Proof sketch.** By induction on the list, together with the place. -/
lemma getElem?_of_mapM {α β ε : Type} {f : α → Except ε β} {l : List α} {bs : List β}
    (h : l.mapM f = .ok bs) {k : Nat} {a : α} (ha : l[k]? = some a) :
    ∃ b, f a = .ok b ∧ bs[k]? = some b := by
  induction l generalizing bs k with
  | nil => cases ha
  | cons a' l ih =>
    rw [List.mapM_cons] at h
    obtain ⟨b, hb, h⟩ := bind_eq_ok_iff.1 h
    obtain ⟨bs', hbs, h⟩ := bind_eq_ok_iff.1 h
    cases h
    cases k with
    | zero =>
      obtain rfl : a' = a := by simpa using ha
      exact ⟨b, hb, rfl⟩
    | succ k => exact ih hbs ha

namespace Stack

variable {s : Stack} {i : Nat} {n : PatchName}

/-- The listing of a stack shows every patch in a line behind that of the base, with its index, a
mark and its name. -/
theorem exists_row (hn : s.patches[i]? = some n) :
    ∃ lines mark, stackLines s = .ok lines ∧
      lines[i + 1]? = some (padLeft 3 (Text.ofInt i) ++ ' ' :: mark :: ' ' :: n.text) := by
  obtain ⟨lines, hlines⟩ := exists_stackLines s
  obtain ⟨rows, hrows, hcons⟩ := bind_eq_ok_iff.1 hlines
  cases hcons
  have hentry : s.patches.zipIdx[i]? = some (n, i) := by
    rw [List.getElem?_zipIdx, hn, Option.map_some, Nat.zero_add]
  obtain ⟨row, hrow, hat⟩ := getElem?_of_mapM hrows hentry
  obtain ⟨g, -, rfl⟩ := map_eq_ok_iff.1 hrow
  exact ⟨_, _, hlines, hat⟩

/-- What leads to a patch is a locator that has its index as position. -/
lemma leadsTo_iff {t : Text} (hn : s.patches[i]? = some n) :
    s.LeadsTo t n ↔ ∃ l, Locator.ofText t = .ok l ∧ l.position .base s = .ok (i : Int) := by
  constructor
  · rintro ⟨l, hl, hres⟩
    obtain ⟨k, g, hp, hk, -, -⟩ := Locator.resolve_eq_ok_iff.1 hres
    obtain rfl : k = i := index_unique hk hn
    exact ⟨l, hl, hp⟩
  · rintro ⟨l, hl, hp⟩
    obtain ⟨g, hg⟩ := exists_groupAt (lt_total_iff.2 ⟨n, hn⟩)
    exact ⟨l, hl, Locator.resolve_eq_ok_iff.2 ⟨i, g, hp, hn, hg, rfl⟩⟩

/-- Every address of a patch leads to it, whatever the patches of the stack are called.

**Proof sketch.** There is one case for each notation. In each of them the text is the spelling of a
locator, so that it is read as that locator, and its position is computed from the anchor and from
the one step behind it. Only an index by itself is scanned as a name; it is read against the stack,
where no patch has it as its name. -/
theorem leadsTo_of_address {t : Text} (ht : s.Address i t) (hn : s.patches[i]? = some n) :
    s.LeadsTo t n := by
  have hi : i < s.total := lt_total_iff.2 ⟨n, hn⟩
  rw [leadsTo_iff hn]
  cases ht with
  | fromBase ht =>
    have hspellable : (stepFromBase i).IsSpellable := fun k hk => by
      cases hk
      exact Int.natCast_nonneg _
    obtain ⟨o, rfl, hsteps⟩ := OffsetChain.exists_of_write hspellable ht
    have hread : Locator.ofText (baseToken ++ o.text) = .ok ⟨.base, o⟩ :=
      Derivation.ofText_text (d := .base o) rfl
    exact ⟨_, hread, Locator.position_fromBase hsteps hi⟩
  | fromLast ht =>
    have hstart : Locator.anchorIndex (.belowLast (some ((s.visible.length : Int) - 1 - i))) s =
        .ok (i : Int) := by
      rw [Locator.anchorIndex, Option.getD_some, Int.sub_sub_self]
    have hread := Locator.ofText_belowLast ht
    have hwrite := write_of_scanLocator (Locator.ofText_eq_ok_iff.1 hread)
    exact ⟨_, hread, Locator.position_of_anchor hwrite rfl hstart hi (by simp) rfl⟩
  | fromTop a ha ht =>
    obtain ⟨o, rfl, hsteps⟩ := ha.exists_chain ht
    have hread : Locator.ofText (topToken ++ o.text) = .ok ⟨.top, o⟩ :=
      Derivation.ofText_text (d := .top o) rfl
    exact ⟨_, hread,
      Locator.position_of_step rfl rfl rfl s.topIndex_mem_positions hi (.inl (by simp)) hsteps⟩
  | unanchored a ha ht =>
    obtain ⟨o, rfl, hsteps⟩ := ha.exists_chain ht
    have hne : o.text ≠ [] := by
      rw [← ((a.write_eq_ok_iff o.text).1 ht).2]
      exact List.cons_ne_nil _ _
    have hread : Locator.ofText o.text = .ok ⟨.belowTop none, o⟩ :=
      Derivation.ofText_text (d := .unanchored o hne) rfl
    exact ⟨_, hread,
      Locator.position_of_step rfl rfl rfl s.topIndex_mem_positions hi (.inl (by simp)) hsteps⟩
  | index ht hfree =>
    -- The scanner takes digits for a name, and only the stack tells that they are an index.
    obtain ⟨hcount, rfl⟩ := Text.writeInt_eq_ok_iff.1 ht
    have hplain : ¬ BeginsLikeToken (PatchName.ofIndex i).text :=
      not_beginsLikeToken_of_isDigit fun _ => isDigit_of_mem_toDigits
    have hread := Locator.disambiguate_ofIndex (fun h => hfree _ h rfl) hcount
    exact ⟨_, ofText_name hplain, Locator.position_of_anchor rfl hread rfl hi (by simp) rfl⟩

/-- Two addresses in stack order are the bounds of a range that selects what lies between them.

**Proof sketch.** Each address is a locator with its patch as position, so that both with two dots
between them are read as bounds, and these select the window between the positions. -/
theorem exists_range_of_addresses {j : Nat} {t t' : Text} (ht : s.Address i t)
    (ht' : s.Address j t') (hij : i ≤ j) (hj : j < s.total) :
    ∃ r, Range.ofText (t ++ rangeSeparator ++ t') = .ok r ∧
      r.select s .all = .ok (s.window i j) := by
  have hallowed {k : Nat} (hk : k < s.total) : s.AllowedIndex .all k := by
    obtain ⟨g, hg⟩ := exists_groupAt hk
    exact ⟨g, hg, rfl⟩
  have hi : i < s.total := by omega
  obtain ⟨n, hn⟩ := lt_total_iff.1 hi
  obtain ⟨m, hm⟩ := lt_total_iff.1 hj
  obtain ⟨l, hl, hp⟩ := (leadsTo_iff hn).1 (leadsTo_of_address ht hn)
  obtain ⟨l', hl', hp'⟩ := (leadsTo_iff hm).1 (leadsTo_of_address ht' hm)
  have hstart : readBound t t = .ok (some l) := readBound_eq_ok_iff.2 (.inr ⟨l, hl, rfl⟩)
  have hstop : readBound t' t' = .ok (some l') := readBound_eq_ok_iff.2 (.inr ⟨l', hl', rfl⟩)
  refine ⟨.between ⟨some l, some l'⟩,
    Range.ofText_eq_between_iff.2 (Bounds.ofText_append hstart hstop), ?_⟩
  exact Bounds.select_eq_window ⟨hp, hallowed hi⟩ ⟨hp', hallowed hj⟩ hij

/-- **Every patch can be reached without its name**: all addresses of its index lead to it, and the
index is shown in its line of the listing. In each notation it has an address, whatever the patches
are called; only the index is none if a patch has it as its name. Two addresses in stack order are
the bounds of a range from one patch to the other.

Addresses are texts that are written, and so the numbers in them have few enough digits. There is
one in each notation unless there are more patches than can be counted with so many digits.

**Proof sketch.** A decimal number is read as the number that was printed. The anchor of an address
is a place to start from, and at most one step leads from there to the index. A text of digits is
read as a name first, but no chain ends it, so that as a whole it is an index where no patch has
this name. -/
theorem addresses_reach (hi : i < s.total) :
    ∃ n, s.patches[i]? = some n ∧ (∀ t, s.Address i t → s.LeadsTo t n) ∧
      (∃ a, s.StepsFromTop i a) ∧ (s.total < 10 ^ digitLimit → s.IsAddressed i) ∧
      (∃ lines mark, stackLines s = .ok lines ∧
        lines[i + 1]? = some (padLeft 3 (Text.ofInt i) ++ ' ' :: mark :: ' ' :: n.text)) ∧
      ∀ j, i ≤ j → j < s.total → ∀ t t', s.Address i t → s.Address j t' →
        ∃ r, Range.ofText (t ++ rangeSeparator ++ t') = .ok r ∧
          r.select s .all = .ok (s.window i j) := by
  obtain ⟨n, hn⟩ := lt_total_iff.1 hi
  exact ⟨n, hn, fun t ht => leadsTo_of_address ht hn, exists_stepsFromTop s i,
    fun hs => isAddressed hs hi, exists_row hn,
    fun j hij hj t t' ht ht' => exists_range_of_addresses ht ht' hij hj⟩

/-- A hidden patch is reached from the last visible one, from the topmost applied one and by its
index, and is the end of a range that begins with the bottommost patch. -/
theorem addresses_reach_indexLike :
    2 < indexLikeStack.total ∧ indexLikeStack.LeadsTo ['^', '-', '1'] indexLike ∧
      indexLikeStack.LeadsTo ['@', '+', '1'] indexLike ∧
      indexLikeStack.LeadsTo ['2'] indexLike ∧
      ∃ r, Range.ofText (baseToken ++ ['+', '1', '.', '.', '^', '-', '1']) = .ok r ∧
        r.select indexLikeStack .all = .ok [indexAlone, ordinary, indexLike] := by
  have hi : 2 < indexLikeStack.total := by decide
  have hbottom : 0 < indexLikeStack.total := by decide
  obtain ⟨n, hn, haddress, -⟩ := addresses_reach hi
  obtain rfl : indexLike = n := Option.some.inj hn
  obtain ⟨-, -, -, -, -, -, hrange⟩ := addresses_reach hbottom
  exact ⟨hi, haddress _ (.fromLast rfl), haddress _ (.fromTop ⟨.up, some 1⟩ ⟨rfl, rfl⟩ rfl),
    haddress _ (.index rfl (by decide)),
    hrange 2 (by decide) hi _ _ (.fromBase rfl) (.fromLast rfl)⟩

end Stack

end PatchStack
