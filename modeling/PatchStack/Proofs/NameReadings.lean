import PatchStack.Proofs.NameScan
import PatchStack.Proofs.Positions

set_option autoImplicit false

/-!
# Names with offsets behind them

A plus sign can be part of a name or begin an offset, so that one text may be read as a patch with
offsets in several ways. Two of them are tried: the whole text as a name, and what stands before
the longest chain that ends it. The other readings are those in which the name itself ends in an
offset, and a text that has no reading but these is not read as a patch.

## Main definitions

* `PatchStack.Stack.Reads` — a text is a patch of the stack with a chain behind it.
* `PatchStack.PatchName.EndsPlain` — no chain ends the name.

## Main results

* `PatchStack.trailingChain_append_of_isChain` — what a chain adds to the chain at the end.
* `PatchStack.Locator.disambiguate_of_reads` — the reading that is tried second.
* `PatchStack.Locator.disambiguate_reading` — when a name candidate is read as a patch with the
  offsets behind its name.
-/

namespace PatchStack

/-! ## Chains behind a text -/

/-- What begins a chain is a chain. -/
lemma IsChain.of_append {a b : Text} (h : IsChain (a ++ b)) : IsChain a := by
  refine isChain_iff_head_all.2 ⟨?_, fun c hc => h.all c (List.mem_append_left b hc)⟩
  cases a with
  | nil => exact .inl rfl
  | cons c a => exact .inr (by simpa using h.head)

/-- What stands before a chain is a chain if both together are one. -/
lemma isChain_append_iff {a o : Text} (ho : IsChain o) : IsChain (a ++ o) ↔ IsChain a :=
  ⟨IsChain.of_append, fun ha => ha.append ho⟩

/-- A chain is its own chain at the end. -/
lemma trailingChain_of_isChain {o : Text} (ho : IsChain o) : trailingChain o = o := by
  cases o with
  | nil => rfl
  | cons c o => rw [trailingChain, if_pos ho]

/-- A chain behind a text makes the chain at its end longer by just that chain. -/
theorem trailingChain_append_of_isChain {t o : Text} (ho : IsChain o) :
    trailingChain (t ++ o) = trailingChain t ++ o := by
  induction t with
  | nil => exact trailingChain_of_isChain ho
  | cons c t ih =>
    have hiff : IsChain (c :: (t ++ o)) ↔ IsChain (c :: t) := isChain_append_iff (a := c :: t) ho
    rw [List.cons_append, trailingChain, trailingChain]
    simp only [hiff, ih]
    split <;> rfl

/-- A chain behind a text leaves alone what stands before the chain at its end. -/
theorem beforeTrailingChain_append_of_isChain {t o : Text} (ho : IsChain o) :
    beforeTrailingChain (t ++ o) = beforeTrailingChain t := by
  have h : beforeTrailingChain (t ++ o) ++ (trailingChain t ++ o) =
      beforeTrailingChain t ++ (trailingChain t ++ o) := by
    rw [← trailingChain_append_of_isChain ho, beforeTrailingChain_append,
      trailingChain_append_of_isChain ho, ← List.append_assoc, beforeTrailingChain_append]
  exact List.append_cancel_right h

/-- Without a chain at the end, all of the text precedes it. -/
lemma beforeTrailingChain_of_trailingChain {t : Text} (h : trailingChain t = []) :
    beforeTrailingChain t = t := by
  have := beforeTrailingChain_append t
  rwa [h, List.append_nil] at this

/-- What stands before a chain is found again if no chain ends it. -/
lemma beforeTrailingChain_append_of_plain {t o : Text} (h : trailingChain t = [])
    (ho : IsChain o) : beforeTrailingChain (t ++ o) = t := by
  rw [beforeTrailingChain_append_of_isChain ho, beforeTrailingChain_of_trailingChain h]

/-- So is the chain. -/
lemma OffsetChain.trailing_append_of_plain {t : Text} (h : trailingChain t = [])
    (o : OffsetChain) : trailing (t ++ o.text) = o := by
  apply ext
  show trailingChain (t ++ o.text) = o.text
  rw [trailingChain_append_of_isChain o.isChain, h, List.nil_append]

/-- No chain ends a text without signs. -/
lemma trailingChain_of_no_sign {t : Text} (h : ∀ c ∈ t, isSign c = false) :
    trailingChain t = [] := by
  induction t with
  | nil => rfl
  | cons c t ih =>
    have hc : ¬ IsChain (c :: t) := fun hchain => by
      have hsign : isSign c = true := by simpa using hchain.head
      rw [h c List.mem_cons_self] at hsign
      cases hsign
    rw [trailingChain, if_neg hc]
    exact ih fun d hd => h d (List.mem_cons_of_mem c hd)

/-! ## Readings -/

/-- The text is a patch of the stack with a chain behind its name. -/
structure Stack.Reads (s : Stack) (t : Text) (n : PatchName) (o : OffsetChain) : Prop where
  /-- The name is one of the stack. -/
  mem : n ∈ s.patches
  /-- The name and the chain are the whole text. -/
  text_eq : t = n.text ++ o.text

/-- No chain ends the name, so that a chain behind it is the longest that ends the whole. -/
def PatchName.EndsPlain (n : PatchName) : Prop := trailingChain n.text = []

namespace Locator

variable {s : Stack} {c n : PatchName} {o own : OffsetChain}

/-- A candidate that is no patch is read by what stands before the chain that ends it. -/
lemma disambiguate_of_not_mem (hc : c ∉ s.patches) :
    disambiguate ⟨.name c, own⟩ s =
      (readStem s c.text (beforeTrailingChain c.text)).map fun anchor =>
        ⟨anchor, OffsetChain.trailing c.text ++ own⟩ := by
  have hcontains : ¬ s.contains c.text = true := mt Stack.contains_text_iff.1 hc
  simp only [disambiguate]
  rw [if_neg hcontains]
  cases readStem s c.text (beforeTrailingChain c.text) <;> rfl

/-- A candidate that is no patch is read as the patch before the longest chain that ends it, if
there is one: neither an index nor the prefix of a commit id comes before it. -/
theorem disambiguate_of_reads (hc : c ∉ s.patches) (hr : s.Reads c.text n o) (hn : n.EndsPlain) :
    disambiguate ⟨.name c, own⟩ s = .ok ⟨.name n, o ++ own⟩ := by
  have hstem : beforeTrailingChain c.text = n.text := by
    rw [hr.text_eq, beforeTrailingChain_append_of_plain hn o.isChain]
  have htrailing : OffsetChain.trailing c.text = o := by
    rw [hr.text_eq, OffsetChain.trailing_append_of_plain hn]
  have hread : readStem s c.text n.text = .ok (.name n) := by
    rw [readStem, if_neg n.rules.nonempty, Stack.find?_of_mem hr.mem]
  rw [disambiguate_of_not_mem hc, hstem, hread, htrailing]
  rfl

/-- What is read as a patch with the offsets behind its name is the whole candidate, or no chain
ends the name.

**Proof sketch.** The chain at the end of the candidate is that of the name with the one behind it.
Had the name a chain at its end, that would be among the offsets. -/
theorem endsPlain_of_disambiguate (hr : s.Reads c.text n o)
    (h : disambiguate ⟨.name c, own⟩ s = .ok ⟨.name n, o ++ own⟩) :
    c ∈ s.patches ∨ n.EndsPlain := by
  by_cases hc : c ∈ s.patches
  · exact .inl hc
  right
  rw [disambiguate_of_not_mem hc] at h
  cases hstem : readStem s c.text (beforeTrailingChain c.text) with
  | error e => rw [hstem] at h; cases h
  | ok anchor =>
    rw [hstem] at h
    have hoffsets : OffsetChain.trailing c.text ++ own = o ++ own :=
      (Locator.mk.inj (Except.ok.inj h)).2
    have htext : trailingChain n.text ++ o.text ++ own.text = o.text ++ own.text := by
      rw [← trailingChain_append_of_isChain o.isChain, ← hr.text_eq]
      exact congrArg OffsetChain.text hoffsets
    exact List.append_left_eq_self.1 (List.append_cancel_right htext)

/-- **A candidate is read as a patch with the offsets behind its name** exactly if one of its
readings is the whole candidate as a name, or has a name that no chain ends. The whole candidate
wins over the other one.

In particular it is then neither unknown nor ambiguous, nor read as an index or as the prefix of
a commit id. A reading in which a chain ends the shorter name is not tried: the chain at the end
of the candidate is split off as a whole.

**Proof sketch.** The whole candidate is tried first. After that the chain at its end is split off,
so that a reading is found exactly if no chain ends its name (`endsPlain_of_disambiguate`). -/
theorem disambiguate_reading (s : Stack) (c : PatchName) (own : OffsetChain) :
    ((∃ n o, s.Reads c.text n o ∧ (o = .empty ∨ n.EndsPlain)) ↔
      ∃ n o, s.Reads c.text n o ∧
        disambiguate ⟨.name c, own⟩ s = .ok ⟨.name n, o ++ own⟩) ∧
    (c ∈ s.patches → disambiguate ⟨.name c, own⟩ s = .ok ⟨.name c, own⟩) ∧
    (c ∉ s.patches → ∀ n o, s.Reads c.text n o → n.EndsPlain →
      disambiguate ⟨.name c, own⟩ s = .ok ⟨.name n, o ++ own⟩) := by
  have hwhole : c ∈ s.patches → s.Reads c.text c .empty := fun hc =>
    ⟨hc, by rw [OffsetChain.text_empty, List.append_nil]⟩
  have hkept : c ∈ s.patches → disambiguate ⟨.name c, own⟩ s = .ok ⟨.name c, own⟩ := fun hc =>
    disambiguate_of_mem rfl hc
  refine ⟨⟨?_, ?_⟩, hkept, fun hc n o hr hn => disambiguate_of_reads hc hr hn⟩
  · rintro ⟨n, o, hr, htried⟩
    by_cases hc : c ∈ s.patches
    · exact ⟨c, .empty, hwhole hc, hkept hc⟩
    · rcases htried with rfl | hn
      · -- Without a chain behind it the name is the whole candidate.
        have hcn : c = n := PatchName.ext (by simpa using hr.text_eq)
        exact absurd (hcn ▸ hr.mem) hc
      · exact ⟨n, o, hr, disambiguate_of_reads hc hr hn⟩
  · rintro ⟨n, o, hr, h⟩
    rcases endsPlain_of_disambiguate hr h with hc | hn
    · exact ⟨c, .empty, hwhole hc, .inl rfl⟩
    · exact ⟨n, o, hr, .inr hn⟩

end Locator

/-! ## A reading that is not tried -/

section Untried

/-- A name that a chain ends. -/
def endsInOffset : PatchName := ⟨['a', '+', '1'], by decide⟩

/-- The same name with an offset behind it. -/
def endsInOffsets : PatchName := ⟨['a', '+', '1', '+', '1'], by decide⟩

/-- A stack with two patches, the name of one of which ends in an offset. -/
def endsInOffsetStack : Stack :=
  ⟨⟨[endsInOffset, ⟨['b'], rfl⟩], [], [], ['c'], ['d'], []⟩, by decide, by simp⟩

/-- A patch whose name a chain ends, with an offset behind the name, is unknown. -/
theorem endsInOffsets_unknown :
    endsInOffsetStack.Reads endsInOffsets.text endsInOffset ⟨['+', '1'], by decide⟩ ∧
      ∃ similar, Locator.disambiguate ⟨.name endsInOffsets, .empty⟩ endsInOffsetStack =
        .error (.unknownPatch endsInOffsets.text similar) :=
  ⟨⟨by decide, rfl⟩, _, rfl⟩

end Untried

end PatchStack
