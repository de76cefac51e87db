import PatchStack.Proofs.LocatorGrammar
import PatchStack.Proofs.Positions

set_option autoImplicit false

/-!
# Patches by their own names

The shortest way to name a patch is its name. It works for every name that the scanner does
not take for a token first, whatever else the name looks like and whatever other patches there
are: a name of the stack is never read as an index, as a commit id or as another name with
offsets. A name that begins like a token is out of reach of this: the token is what is read.

## Main results

* `PatchStack.ofText_name` — a name that does not begin like a token is read as itself.
* `PatchStack.Locator.resolve_name` — a name of the stack resolves to its patch.
* `PatchStack.resolve_own_name` — both together, and why the exception is needed.
-/

namespace PatchStack

/-- The locator of a name alone. -/
def Locator.ofName (n : PatchName) : Locator := ⟨.name n, .empty⟩

/-- A name that does not begin like a token is read as itself. -/
theorem ofText_name {n : PatchName} (hn : ¬ BeginsLikeToken n.text) :
    Locator.ofText n.text = .ok (.ofName n) := by
  have h : Locator.ofText (n.text ++ []) = .ok (.ofName n) :=
    Derivation.ofText_text (d := .name n hn .empty (.inl rfl)) rfl
  rwa [List.append_nil] at h

/-- A name that begins like a token is not read as a name.

**Proof sketch.** In the grammar only the last form has a name for its anchor, and that name does
not begin like a token. -/
theorem anchor_ne_name_of_beginsLikeToken {n m : PatchName} {l : Locator}
    (hn : BeginsLikeToken n.text) (h : Locator.ofText n.text = .ok l) : l.anchor ≠ .name m := by
  obtain ⟨d, hd, rfl, -⟩ := exists_derivation_of_ofText h
  cases d with
  | base o => simp [Derivation.locator, Derivation.anchor]
  | top o => simp [Derivation.locator, Derivation.anchor]
  | last count o => simp [Derivation.locator, Derivation.anchor]
  | unanchored o hne => simp [Derivation.locator, Derivation.anchor]
  | name k hk o ho =>
    change k.text ++ o.text = n.text at hd
    rcases ho with ho | ho
    · rw [ho, List.append_nil] at hd
      exact absurd (hd ▸ hn) hk
    · -- A chain behind a name begins with a tilde, which no name holds.
      obtain ⟨r, hr⟩ := List.head?_eq_some_iff.1 ho
      exact absurd (by rw [← hd, hr]; simp) (n.not_mem_of_isReservedChar (c := '~') (by decide))

/-- A name of the stack resolves to its patch, if the constraint allows its group. -/
theorem Locator.resolve_name {s : Stack} {c : LocationConstraint} {n : PatchName} {g : Group}
    (hn : n ∈ s.patchesIn g) (hc : c.allows g = true) : (Locator.ofName n).resolve s c = .ok n := by
  obtain ⟨i, hat, hg⟩ := Stack.exists_getElem?_of_mem_patchesIn hn
  have hlt : i < s.total := Stack.lt_total_of_groupAt hg
  have hpos : (Locator.ofName n).position .base s = .ok (i : Int) := by
    refine Locator.position_eq_ok_iff.2 ⟨rfl, .ofName n, _,
      Locator.disambiguate_of_mem rfl (List.mem_of_getElem? hat), ?_,
      Floor.admits_iff.2 ⟨Int.ofNat_lt.2 hlt, .inr (by omega)⟩, nofun, rfl⟩
    rw [Locator.ofName, Locator.anchorIndex, Stack.indexOf_text hat]
    rfl
  exact Locator.resolve_eq_ok_iff.2 ⟨i, g, hpos, hat, hg, hc⟩

/-- A patch is addressed by its own name, unless the name begins like a token; such a name is
never read as a name at all. -/
theorem resolve_own_name {s : Stack} {n : PatchName} (hn : n ∈ s.patches) :
    (¬ BeginsLikeToken n.text →
      ∃ l, Locator.ofText n.text = .ok l ∧ l.resolve s .all = .ok n) ∧
    (BeginsLikeToken n.text → ∀ l, Locator.ofText n.text = .ok l → ∀ m, l.anchor ≠ .name m) := by
  refine ⟨fun hplain => ?_, fun htoken l hl m => anchor_ne_name_of_beginsLikeToken htoken hl⟩
  obtain ⟨k, hk⟩ := List.getElem?_of_mem hn
  have hlt : k < s.total := by
    rw [Stack.total_eq]
    exact (List.getElem?_eq_some_iff.1 hk).1
  obtain ⟨g, hg⟩ := Stack.exists_groupAt hlt
  exact ⟨_, ofText_name hplain,
    Locator.resolve_name ((Stack.groupAt_eq_ok_iff_mem hk).1 hg) rfl⟩

/-! ## Names that look like something else -/

section Lookalike

/-- A name that looks like an index with an offset. -/
def indexLike : PatchName := ⟨['0', '+', '1'], by decide⟩

/-- A name that looks like an index. -/
def indexAlone : PatchName := ⟨['0'], by decide⟩

/-- A name that looks like an offset. -/
def offsetLike : PatchName := ⟨['+', '1'], by decide⟩

/-- A name that looks like nothing else. -/
def ordinary : PatchName := ⟨['b'], by decide⟩

/-- A stack in which a text is a name, an index with an offset, and another name with one. -/
def indexLikeStack : Stack :=
  ⟨⟨[indexAlone, ordinary], [], [indexLike], ['c'], ['d'], []⟩, by decide, by simp⟩

/-- The hidden patch is found by its name, not the one above the patch or the index before the
plus sign. -/
theorem resolve_own_name_indexLike :
    indexLike ∈ indexLikeStack.patches ∧ ¬ BeginsLikeToken indexLike.text ∧
      ∃ l, Locator.ofText indexLike.text = .ok l ∧ l.resolve indexLikeStack .all = .ok indexLike :=
  have hmem : indexLike ∈ indexLikeStack.patches := by decide
  have hplain : ¬ BeginsLikeToken indexLike.text := by decide
  ⟨hmem, hplain, (resolve_own_name hmem).1 hplain⟩

/-- A stack whose applied patch is called like the offset to the next one. -/
def offsetLikeStack : Stack :=
  ⟨⟨[offsetLike], [ordinary], [], ['c'], ['d'], []⟩, by decide, by simp⟩

/-- The name of the applied patch leads to the patch after it. -/
theorem offsetLike_leads_elsewhere :
    offsetLike ∈ offsetLikeStack.patches ∧
      ∃ l, Locator.ofText offsetLike.text = .ok l ∧
        l.resolve offsetLikeStack .all = .ok ordinary ∧ ordinary ≠ offsetLike :=
  ⟨by decide, ⟨.belowTop none, ⟨['+', '1'], by decide⟩⟩, rfl, rfl, by decide⟩

end Lookalike

end PatchStack
