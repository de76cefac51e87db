import PatchStack.Proofs.NameReadings
import PatchStack.Proofs.OwnName

set_option autoImplicit false

/-!
# Patches moved by offsets

Offsets behind a name move the patch of that name, although a plus sign may stand in a name. What
is read as a name goes on up to the first step downwards, so that it holds the steps upwards in
front of it. A stack then gives these back to the offsets, unless one of its patches has the longer
name.

## Main definitions

* `PatchStack.OffsetChain.rise`, `PatchStack.OffsetChain.afterRise` — a chain up to its first step
  downwards, and what follows.
* `PatchStack.PatchName.withRise` — a name with the beginning of a chain as part of it.

## Main results

* `PatchStack.Locator.ofText_name_append` — how a name with offsets behind it is read.
* `PatchStack.Locator.offsets_move_patch` — where it leads.
-/

namespace PatchStack

/-! ## Chains up to their first step downwards -/

namespace OffsetChain

/-- The chain up to its first step downwards. Its characters can stand in a name. -/
def rise (o : OffsetChain) : OffsetChain :=
  ⟨o.text.takeWhile (· != '~'), IsChain.of_append
    (b := o.text.dropWhile (· != '~')) (by rw [List.takeWhile_append_dropWhile]; exact o.isChain)⟩

/-- What follows from the first tilde is empty or begins with it. -/
lemma head?_dropWhile_tilde (t : Text) :
    t.dropWhile (· != '~') = [] ∨ (t.dropWhile (· != '~')).head? = some '~' := by
  cases hdrop : t.dropWhile (· != '~') with
  | nil => exact .inl rfl
  | cons c r =>
    have h := List.head?_dropWhile_not (· != '~') t
    rw [hdrop] at h
    exact .inr (by simpa using h)

/-- The chain from its first step downwards on. -/
def afterRise (o : OffsetChain) : OffsetChain :=
  ⟨o.text.dropWhile (· != '~'), isChain_iff_head_all.2
    ⟨(head?_dropWhile_tilde o.text).imp_right fun h => by rw [h]; rfl,
      fun c hc => o.isChain.all c ((List.dropWhile_suffix _).subset hc)⟩⟩

/-- The rise of a chain and the rest are the chain. -/
@[simp]
lemma rise_append_afterRise (o : OffsetChain) : o.rise ++ o.afterRise = o :=
  ext List.takeWhile_append_dropWhile

/-- They are spelled as the chain is. -/
lemma text_rise_append_text_afterRise (o : OffsetChain) :
    o.rise.text ++ o.afterRise.text = o.text :=
  congrArg text o.rise_append_afterRise

/-- What comes after the rise leads downwards, if there is anything. -/
lemma afterRise_follows (o : OffsetChain) :
    o.afterRise.text = [] ∨ o.afterRise.text.head? = some '~' :=
  head?_dropWhile_tilde o.text

/-- Without a tilde there are plus signs and digits only. -/
lemma isCountChar_of_mem_rise {o : OffsetChain} {c : Char} (hc : c ∈ o.rise.text) :
    isCountChar c = true := by
  have hoff := o.rise.isChain.all c hc
  have htilde : (c != '~') = true := List.all_eq_true.1 List.all_takeWhile c hc
  rcases Bool.or_eq_true_iff.1 hoff with hsign | hdigit
  · obtain ⟨d, rfl⟩ := exists_sign_of_isSign hsign
    cases d with
    | up => decide
    | down => exact absurd htilde (by decide)
  · exact Bool.or_eq_true_iff.2 (.inr hdigit)

end OffsetChain

/-! ## Names that take offsets with them -/

/-- The name with the beginning of a chain behind it as part of it. -/
def PatchName.withRise (n : PatchName) (o : OffsetChain) : PatchName :=
  ⟨n.text ++ o.rise.text, nameFault?_eq_none_iff.2 <|
    .append_of_isCountChar (fun _ => n.rules)
      (List.append_ne_nil_of_left_ne_nil n.rules.nonempty _)
      fun _ => OffsetChain.isCountChar_of_mem_rise⟩

/-- The rise stands behind the name. -/
@[simp]
lemma PatchName.text_withRise (n : PatchName) (o : OffsetChain) :
    (n.withRise o).text = n.text ++ o.rise.text := rfl

/-- A name does not begin like a token because of a chain behind it.

**Proof sketch.** The name is not empty, so that the first character is its own. The base token does
not come about with a chain, and an at sign alone is no name, so that the second character is its
own, too. -/
lemma PatchName.not_beginsLikeToken_append {n : PatchName} {w : Text}
    (hn : ¬ BeginsLikeToken n.text) (hw : IsChain w) : ¬ BeginsLikeToken (n.text ++ w) := by
  obtain ⟨hplus, hbase, hat⟩ := not_or.1 hn |>.imp_right not_or.1
  have hrules := n.rules
  rintro (h | h | h)
  · cases ht : n.text with
    | nil => exact hrules.nonempty ht
    | cons c r =>
      rw [ht] at h hplus
      exact hplus (List.cons_prefix_cons.2 ⟨(List.cons_prefix_cons.1 h).1, List.nil_prefix⟩)
  · exact not_baseToken_prefix_append hbase hw h
  · cases ht : n.text with
    | nil => exact hrules.nonempty ht
    | cons c r =>
      rw [ht] at h hat
      obtain ⟨rfl, hr⟩ := List.cons_prefix_cons.1 h
      cases r with
      | nil => exact hrules.ne_top ht
      | cons d r =>
        obtain ⟨rfl, -⟩ := List.cons_prefix_cons.1 hr
        exact hat ⟨r, rfl⟩

/-- No chain ends the name exactly if the chain at its end begins behind the name. -/
lemma PatchName.endsPlain_iff {n : PatchName} :
    n.EndsPlain ↔ trailingStart n.text = n.text.length := by
  have hlength : trailingStart n.text + (trailingChain n.text).length = n.text.length := by
    rw [trailingStart, ← List.length_append, beforeTrailingChain_append]
  rw [PatchName.EndsPlain, ← List.length_eq_zero_iff]
  omega

/-! ## Locators -/

namespace Locator

variable {s : Stack} {n : PatchName}

/-- What a locator leads to, and how it fails, depends only on what it is read as and on what is
written of it. -/
lemma position_congr {l l' : Locator} (hd : l.disambiguate s = l'.disambiguate s)
    (hw : l.write = l'.write) (floor : Floor) : l.position floor s = l'.position floor s := by
  rw [position, position, hd, hw]

/-- A name with offsets behind it is read as a longer name with the rest of them. -/
theorem ofText_name_append (hn : ¬ BeginsLikeToken n.text) (o : OffsetChain) :
    ofText (n.text ++ o.text) = .ok ⟨.name (n.withRise o), o.afterRise⟩ := by
  have hbegins : ¬ BeginsLikeToken (n.withRise o).text :=
    PatchName.not_beginsLikeToken_append hn o.rise.isChain
  have h := Derivation.ofText_text
    (d := .name (n.withRise o) hbegins o.afterRise o.afterRise_follows) rfl
  have htext : (n.withRise o).text ++ o.afterRise.text = n.text ++ o.text := by
    rw [PatchName.text_withRise, List.append_assoc, o.text_rise_append_text_afterRise]
  rw [← htext]
  exact h

/-- The steps upwards go back to the offsets, unless the longer name is a patch.

**Proof sketch.** If the longer name is no patch, its longest chain at the end is the rise, and what
stands before it is the patch. -/
lemma disambiguate_withRise (hn : n ∈ s.patches) (hend : n.EndsPlain) {o : OffsetChain}
    (hc : o.rise.text = [] ∨ n.withRise o ∉ s.patches) :
    disambiguate ⟨.name (n.withRise o), o.afterRise⟩ s = .ok ⟨.name n, o⟩ := by
  rcases hc with hrise | hc
  · -- The name stands alone, and is a patch.
    have hname : n.withRise o = n :=
      PatchName.ext (by rw [PatchName.text_withRise, hrise, List.append_nil])
    have hafter : o.afterRise = o :=
      OffsetChain.ext (by rw [← o.text_rise_append_text_afterRise, hrise, List.nil_append])
    rw [hname, hafter, disambiguate_of_mem rfl hn]
  · rw [disambiguate_of_reads hc ⟨hn, PatchName.text_withRise n o⟩ hend,
      OffsetChain.rise_append_afterRise]

/-- **Offsets behind the name of a patch move the patch**, if neither the name begins like a token
nor a chain ends it. This goes for every chain and whether or not ancestors of the base are
positions, and where the offsets lead out of the stack, the errors are those of the patch with its
offsets. If a patch has the name together with the steps upwards in front, it is this patch that
the other offsets move.

**Proof sketch.** The scanner takes the steps upwards in front for a part of the name. Since no
chain ends the name, the stack splits just these steps off again, and puts them back in front of
the other ones. Neither changes the text that errors show. -/
theorem offsets_move_patch (hn : n ∈ s.patches) (hplain : ¬ BeginsLikeToken n.text)
    (hend : trailingStart n.text = n.text.length) (o : OffsetChain) :
    ∃ l, ofText (n.text ++ o.text) = .ok l ∧
      (o.rise.text = [] ∨ n.withRise o ∉ s.patches → ∀ floor,
        l.position floor s = (⟨.name n, o⟩ : Locator).position floor s) ∧
      (n.withRise o ∈ s.patches → ∀ floor,
        l.position floor s = (⟨.name (n.withRise o), o.afterRise⟩ : Locator).position floor s) := by
  refine ⟨_, ofText_name_append hplain o, fun hc floor => ?_, fun _ _ => rfl⟩
  have hmoved := disambiguate_withRise hn (PatchName.endsPlain_iff.2 hend) hc
  have hsame : disambiguate ⟨.name n, o⟩ s = .ok ⟨.name n, o⟩ := disambiguate_of_mem rfl hn
  have htext : (⟨.name (n.withRise o), o.afterRise⟩ : Locator).text =
      (⟨.name n, o⟩ : Locator).text := by
    show n.text ++ o.rise.text ++ o.afterRise.text = n.text ++ o.text
    rw [List.append_assoc, o.text_rise_append_text_afterRise]
  exact position_congr (hmoved.trans hsame.symm) (congrArg Except.ok htext) floor

/-- In a stack that has a patch with a plus sign in its name, offsets behind the name in front of
the sign move either patch: the offsets `+~` that of the shorter name, and `+1~` that of the longer
one. -/
theorem offsets_move_patch_indexLike :
    indexAlone ∈ indexLikeStack.patches ∧ ¬ BeginsLikeToken indexAlone.text ∧
      trailingStart indexAlone.text = indexAlone.text.length ∧
      (∃ l, ofText ['0', '+', '~'] = .ok l ∧ l.position .base indexLikeStack = .ok 0) ∧
      ∃ l, ofText ['0', '+', '1', '~'] = .ok l ∧ l.position .base indexLikeStack = .ok 1 := by
  have hmem : indexAlone ∈ indexLikeStack.patches := by decide
  have hplain : ¬ BeginsLikeToken indexAlone.text := by decide
  have hend : trailingStart indexAlone.text = indexAlone.text.length := by decide
  refine ⟨hmem, hplain, hend, ?_, ?_⟩
  · obtain ⟨l, hl, hshort, -⟩ := offsets_move_patch hmem hplain hend ⟨['+', '~'], by decide⟩
    exact ⟨l, hl, (hshort (.inr (by decide)) .base).trans rfl⟩
  · obtain ⟨l, hl, -, hlong⟩ := offsets_move_patch hmem hplain hend ⟨['+', '1', '~'], by decide⟩
    exact ⟨l, hl, (hlong (by decide) .base).trans rfl⟩

end Locator

end PatchStack
