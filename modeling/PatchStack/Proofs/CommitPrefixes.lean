import PatchStack.Proofs.NameReadings
import PatchStack.Proofs.OwnName

set_option autoImplicit false

/-!
# Patches by the beginning of a commit id

A few hexadecimal digits that are no name of a patch stand for the patch whose recorded commit id
begins with them. The patch has to be the only one: several patches make the digits ambiguous, and
all of them are reported. More digits of the same id can only leave fewer patches, so that what was
unique stays so; fewer digits leave the patch among those that they could stand for.

## Main definitions

* `PatchStack.Text.BeginsWith` — a text begins with another one, whatever the case of the letters.
* `PatchStack.IsShortId` — four to forty hexadecimal digits that are no index.
* `PatchStack.Stack.HasCommit` — the commit recorded for a patch begins with given digits.
* `PatchStack.Stack.IsListing` — all patches with such a commit, in stack order.
* `PatchStack.Stack.Unnamed` — a candidate with given digits in front that is no name.

## Main results

* `PatchStack.Stack.isListing_withCommitPrefix` — what is searched for is found, and nothing else.
* `PatchStack.Locator.disambiguate_of_unnamed` — what such a candidate is read as.
* `PatchStack.Locator.shortId_selects` — the patch that a short commit id stands for, and how this
  depends on the number of its digits.
-/

namespace PatchStack

/-! ## Beginnings, whatever the case -/

namespace Text

variable {t start longer : Text}

/-- The text begins with `start`, whatever the case of the letters in both. -/
def BeginsWith (t start : Text) : Prop :=
  ∃ front rest, t = front ++ rest ∧ front.lower = start.lower

/-- No letter is lost or added in lower case. -/
lemma length_lower (t : Text) : t.lower.length = t.length := List.length_map _

/-- In lower case this is a beginning like any other. -/
theorem beginsWith_iff : t.BeginsWith start ↔ start.lower <+: t.lower := by
  constructor
  · rintro ⟨front, rest, rfl, hfront⟩
    exact ⟨rest.lower, by rw [← hfront, lower, lower, lower, List.map_append]⟩
  · intro h
    refine ⟨t.take start.length, t.drop start.length, (List.take_append_drop _ t).symm, ?_⟩
    rw [List.prefix_iff_eq_take, length_lower] at h
    rw [h, lower, lower, List.map_take]

/-- A text begins with what it begins with letter by letter. -/
lemma beginsWith_of_prefix (h : start <+: t) : t.BeginsWith start := by
  obtain ⟨rest, rfl⟩ := h
  exact ⟨start, rest, rfl, rfl⟩

/-- A text begins with the beginnings of its beginnings. -/
lemma BeginsWith.trans (h : t.BeginsWith longer) (h' : longer.BeginsWith start) :
    t.BeginsWith start :=
  beginsWith_iff.2 ((beginsWith_iff.1 h').trans (beginsWith_iff.1 h))

/-- Of two beginnings of a text, the longer one begins with the shorter one. -/
lemma BeginsWith.of_length_le (h : t.BeginsWith start) (h' : t.BeginsWith longer)
    (hle : start.length ≤ longer.length) : longer.BeginsWith start := by
  refine beginsWith_iff.2 (List.prefix_of_prefix_length_le (beginsWith_iff.1 h)
    (beginsWith_iff.1 h') ?_)
  rwa [length_lower, length_lower]

end Text

/-! ## Hexadecimal digits -/

/-- Hexadecimal digits are ASCII characters up to the letter `f`. -/
lemma toNat_lt_of_isHexDigit {c : Char} (h : isHexDigit c = true) : c.toNat < 103 := by
  simp only [isHexDigit, Bool.or_eq_true, Bool.and_eq_true, decide_eq_true_eq] at h
  rcases h with (hdigit | hlower) | hupper
  · exact Nat.lt_of_le_of_lt (Char.isDigit_iff_toNat.1 hdigit).2 (by decide)
  · exact Nat.lt_of_le_of_lt (UInt32.le_iff_toNat_le.1 hlower.2) (by decide)
  · exact Nat.lt_of_le_of_lt (UInt32.le_iff_toNat_le.1 hupper.2) (by decide)

/-- What holds of the hexadecimal digits one by one holds of all of them. -/
theorem forall_isHexDigit {P : Char → Prop}
    (h : ∀ n < 103, isHexDigit (Char.ofNat n) = true → P (Char.ofNat n)) {c : Char}
    (hc : isHexDigit c = true) : P c := by
  have hP := h c.toNat (toNat_lt_of_isHexDigit hc)
  rw [Char.ofNat_toNat] at hP
  exact hP hc

/-- A hexadecimal digit is no sign. -/
lemma isSign_of_isHexDigit {c : Char} (h : isHexDigit c = true) : isSign c = false :=
  forall_isHexDigit (P := fun c => isSign c = false) (by decide) h

/-- A hexadecimal digit can stand in a name. -/
lemma charFault?_of_isHexDigit {c : Char} (h : isHexDigit c = true) : charFault? c = none :=
  forall_isHexDigit (P := fun c => charFault? c = none) (by decide) h

/-- A letter stays a letter in the other case. -/
lemma isDigit_toLower_of_isHexDigit {c : Char} (h : isHexDigit c = true) :
    c.toLower.isDigit = c.isDigit :=
  forall_isHexDigit (P := fun c => c.toLower.isDigit = c.isDigit) (by decide) h

/-- The text can be the beginning of a commit id and is no index: four to forty hexadecimal digits,
one of which is a letter. -/
structure IsShortId (t : Text) : Prop where
  /-- There are at least four digits. -/
  four_le : 4 ≤ t.length
  /-- There are no more than a commit id has. -/
  le_forty : t.length ≤ 40
  /-- All of them are hexadecimal. -/
  isHexDigit : ∀ c ∈ t, isHexDigit c = true
  /-- Not all of them are decimal. -/
  exists_letter : ∃ c ∈ t, c.isDigit = false

namespace IsShortId

variable {t t' : Text}

/-- A short id can be read as one. -/
lemma isCommitPrefix (h : IsShortId t) : isCommitPrefix t = true := by
  simp only [PatchStack.isCommitPrefix, Bool.and_eq_true, decide_eq_true_eq, List.all_eq_true]
  exact ⟨⟨h.four_le, h.le_forty⟩, h.isHexDigit⟩

/-- The search among the commit ids takes the text, and one of its digits is a letter. -/
lemma iff_isCommitPrefix :
    IsShortId t ↔ PatchStack.isCommitPrefix t = true ∧ t.any (fun c => !c.isDigit) = true := by
  constructor
  · intro h
    obtain ⟨c, hc, hletter⟩ := h.exists_letter
    exact ⟨h.isCommitPrefix, List.any_eq_true.2 ⟨c, hc, by simp [hletter]⟩⟩
  · rintro ⟨htaken, hany⟩
    simp only [PatchStack.isCommitPrefix, Bool.and_eq_true, decide_eq_true_eq,
      List.all_eq_true] at htaken
    obtain ⟨c, hc, hletter⟩ := List.any_eq_true.1 hany
    exact ⟨htaken.1.1, htaken.1.2, htaken.2, c, hc, by simpa using hletter⟩

instance : Decidable (IsShortId t) := decidable_of_iff' _ iff_isCommitPrefix

/-- A short id is no index. -/
lemma isIndex_eq_false (h : IsShortId t) : isIndex t = false := by
  obtain ⟨c, hc, hletter⟩ := h.exists_letter
  rw [isIndex, Bool.and_eq_false_iff, List.all_eq_false]
  exact .inr ⟨c, hc, by simp [hletter]⟩

/-- A short id is not empty. -/
lemma ne_nil (h : IsShortId t) : t ≠ [] := fun hnil => by
  have := h.four_le
  rw [hnil, List.length_nil] at this
  omega

/-- No chain ends the digits. -/
lemma trailingChain_eq_nil (h : IsShortId t) : trailingChain t = [] :=
  trailingChain_of_no_sign fun c hc => isSign_of_isHexDigit (h.isHexDigit c hc)

/-- A longer text of hexadecimal digits that begins with a short id has its letter as well. -/
lemma of_beginsWith (h : IsShortId t) (ht : t'.BeginsWith t)
    (hhex : ∀ c ∈ t', PatchStack.isHexDigit c = true) (hle : t'.length ≤ 40) : IsShortId t' := by
  have hlower := Text.beginsWith_iff.1 ht
  have hlength := hlower.length_le
  rw [Text.length_lower, Text.length_lower] at hlength
  refine ⟨Nat.le_trans h.four_le hlength, hle, hhex, ?_⟩
  obtain ⟨c, hc, hletter⟩ := h.exists_letter
  obtain ⟨d, hd, hdc⟩ := List.mem_map.1 (hlower.subset (List.mem_map_of_mem hc))
  refine ⟨d, hd, ?_⟩
  rw [← isDigit_toLower_of_isHexDigit (hhex d hd), hdc,
    isDigit_toLower_of_isHexDigit (h.isHexDigit c hc), hletter]

/-- There are only hexadecimal digits in a short id. -/
lemma notMem (h : IsShortId t) {c : Char} (hc : PatchStack.isHexDigit c = false) : c ∉ t :=
  fun hmem => by
    rw [h.isHexDigit c hmem] at hc
    cases hc

/-- The digits keep the rules of naming. -/
lemma rules (h : IsShortId t) : NameRules t where
  nonempty := h.ne_nil
  ne_top := fun he => h.notMem (c := '@') (by decide) (he ▸ by decide)
  ne_base := fun he => h.notMem (c := '{') (by decide) (he ▸ by decide)
  no_slash := h.notMem (by decide)
  chars := fun c hc => charFault?_of_isHexDigit (h.isHexDigit c hc)
  no_dots := fun he => h.notMem (c := '.') (by decide) (he.subset (by simp))
  no_atBrace := fun he => h.notMem (c := '@') (by decide) (he.subset (by simp))
  head_ne_dot := fun he => h.notMem (c := '.') (by decide) (List.mem_of_head? he)
  getLast_ne_dot := fun he => h.notMem (c := '.') (by decide) (List.mem_of_getLast? he)
  no_lock := fun he => h.notMem (c := '.') (by decide) (he.subset (by simp))

/-- The digits are read as a candidate for a name. -/
theorem exists_candidate (h : IsShortId t) :
    ∃ n : PatchName, n.text = t ∧ Locator.ofText t = .ok (.ofName n) := by
  have hplain : ¬ BeginsLikeToken t := by
    rintro (hplus | hbase | hat)
    · exact h.notMem (c := '+') (by decide) (hplus.subset (by simp))
    · exact h.notMem (c := '{') (by decide) (hbase.subset (by decide))
    · exact h.notMem (c := '@') (by decide) (hat.subset (by simp))
  let n : PatchName := ⟨t, nameFault?_eq_none_iff.2 h.rules⟩
  exact ⟨n, rfl, ofText_name (n := n) hplain⟩

end IsShortId

/-! ## Patches with a commit -/

namespace Stack

variable {s : Stack} {h h' : Text} {n : PatchName}

/-- The patch is one of the stack, and the id of the commit recorded for it begins with the
digits. -/
structure HasCommit (s : Stack) (h : Text) (n : PatchName) : Prop where
  /-- The patch is one of the stack. -/
  mem : n ∈ s.patches
  /-- A commit is recorded for it whose id begins with the digits. -/
  exists_id : ∃ id, s.commitOf n.text = some id ∧ id.BeginsWith h

/-- A commit whose id has a longer beginning has the shorter one. -/
lemma HasCommit.of_beginsWith (hn : s.HasCommit h' n) (hh : h'.BeginsWith h) : s.HasCommit h n := by
  obtain ⟨id, hid, hbegins⟩ := hn.exists_id
  exact ⟨hn.mem, id, hid, hbegins.trans hh⟩

/-- Of two beginnings of the id of a patch, the longer one begins with the shorter one. -/
lemma HasCommit.beginsWith (hn : s.HasCommit h n) (hn' : s.HasCommit h' n)
    (hle : h.length ≤ h'.length) : h'.BeginsWith h := by
  obtain ⟨id, hid, hbegins⟩ := hn.exists_id
  obtain ⟨id', hid', hbegins'⟩ := hn'.exists_id
  obtain rfl : id = id' := Option.some.inj (hid.symm.trans hid')
  exact hbegins.of_length_le hbegins' hle

/-- The patches are all those with such a commit, in stack order. -/
structure IsListing (s : Stack) (h : Text) (ns : List PatchName) : Prop where
  /-- They are in stack order, none of them twice. -/
  sublist : ns.Sublist s.patches
  /-- No such patch is missing, and there is no other. -/
  mem_iff : ∀ n, n ∈ ns ↔ s.HasCommit h n

/-- The patch is the only one with such a commit. -/
structure IsOnly (s : Stack) (h : Text) (n : PatchName) : Prop where
  /-- It has such a commit. -/
  hasCommit : s.HasCommit h n
  /-- No other patch has one. -/
  unique : ∀ m, s.HasCommit h m → m = n

/-- The search through the stack finds the patches with such a commit. A patch without a commit is
found only if there are no digits to search for.

**Proof sketch.** The search is a filter, whose test compares digits without regard to case. For a
patch without a commit it compares with no digits at all. -/
theorem isListing_withCommitPrefix (hne : h ≠ []) : s.IsListing h (s.withCommitPrefix h) := by
  refine ⟨List.filter_sublist, fun n => ?_⟩
  rw [withCommitPrefix, List.mem_filter, List.isPrefixOf_iff_prefix, ← Text.beginsWith_iff]
  constructor
  · rintro ⟨hn, hbegins⟩
    refine ⟨hn, ?_⟩
    cases hid : s.commitOf n.text with
    | some id => exact ⟨id, rfl, by rwa [hid] at hbegins⟩
    | none =>
      rw [hid, Text.beginsWith_iff] at hbegins
      have hnil : h.lower = [] := List.prefix_nil.1 hbegins
      exact absurd (List.map_eq_nil_iff.1 hnil) hne
  · rintro ⟨hn, id, hid, hbegins⟩
    exact ⟨hn, by rwa [hid]⟩

/-- A patch is the only one with such a commit exactly if it is all that there is to list. -/
lemma IsListing.isOnly_iff {ns : List PatchName} (hns : s.IsListing h ns) :
    s.IsOnly h n ↔ ns = [n] := by
  constructor
  · intro honly
    by_contra hne
    rcases ((s.nodup.sublist hns.sublist).ne_singleton_iff n).1 hne with hnil | ⟨m, hm, hmn⟩
    · exact absurd ((hns.mem_iff n).2 honly.hasCommit) (by simp [hnil])
    · exact hmn (honly.unique m ((hns.mem_iff m).1 hm))
  · rintro rfl
    exact ⟨(hns.mem_iff n).1 (by simp), fun m hm => by simpa using (hns.mem_iff m).2 hm⟩

end Stack

/-! ## Candidates -/

/-- The candidate is a text with offsets behind it, and neither the text nor the candidate as a
whole is the name of a patch. -/
structure Stack.Unnamed (s : Stack) (c : PatchName) (h : Text) (o : OffsetChain) : Prop where
  /-- The text and the offsets are the whole candidate. -/
  text_eq : c.text = h ++ o.text
  /-- No patch is called like the candidate. -/
  notMem : c ∉ s.patches
  /-- No patch is called like the text in front of the offsets. -/
  free : ∀ n ∈ s.patches, n.text ≠ h

namespace Locator

variable {s : Stack} {h : Text} {c p : PatchName} {o : OffsetChain}

/-- A short id that is no name is decided by the patches with such a commit.

**Proof sketch.** What precedes the chain is the short id, which is neither empty, nor a name, nor
an index. What is left of the readings of a stem are those of a commit prefix. -/
theorem disambiguate_of_unnamed (hh : IsShortId h) (hc : s.Unnamed c h o) (own : OffsetChain) :
    (∃ p, s.withCommitPrefix h = [p] ∧
      disambiguate ⟨.name c, own⟩ s = .ok ⟨.name p, o ++ own⟩) ∨
    (1 < (s.withCommitPrefix h).length ∧ disambiguate ⟨.name c, own⟩ s =
      .error (.ambiguousPrefix h ((s.withCommitPrefix h).map (·.text)))) ∨
    (s.withCommitPrefix h = [] ∧ disambiguate ⟨.name c, own⟩ s =
      .error (.unknownPatch c.text (s.suggestions c.text suggestionLimit))) := by
  have hplain := hh.trailingChain_eq_nil
  have hfree : s.find? h = none := by
    cases hfind : s.find? h with
    | none => rfl
    | some n => exact absurd (Stack.mem_of_find? hfind).2 (hc.free n (Stack.mem_of_find? hfind).1)
  rw [disambiguate_of_not_mem hc.notMem, hc.text_eq, OffsetChain.trailing_append_of_plain hplain,
    beforeTrailingChain_append_of_plain hplain o.isChain]
  rcases readStem_cases s (h ++ o.text) h with ⟨hnil, -⟩ | ⟨-, n, hn, -⟩ | ⟨-, -, ⟨hindex, -⟩ |
    ⟨-, -, p, hp, hread⟩ | ⟨-, -, hseveral, hread⟩ | ⟨-, hnone, hread⟩⟩
  · exact absurd hnil hh.ne_nil
  · rw [hfree] at hn
    cases hn
  · rw [hh.isIndex_eq_false] at hindex
    cases hindex
  · exact .inl ⟨p, hp, by rw [hread]; rfl⟩
  · exact .inr (.inl ⟨hseveral, by rw [hread]; rfl⟩)
  · exact .inr (.inr ⟨hnone hh.isCommitPrefix, by rw [hread]; rfl⟩)

/-- It is read as a patch exactly if this is the only one with such a commit.

**Proof sketch.** In each of the three cases both sides are known: there is one such patch, or
several, or none. -/
lemma disambiguate_eq_ok_iff_of_unnamed (hh : IsShortId h) (hc : s.Unnamed c h o)
    (own : OffsetChain) {l : Locator} :
    disambiguate ⟨.name c, own⟩ s = .ok l ↔ ∃ p, s.IsOnly h p ∧ l = ⟨.name p, o ++ own⟩ := by
  have hlisting := s.isListing_withCommitPrefix hh.ne_nil
  simp only [hlisting.isOnly_iff]
  rcases disambiguate_of_unnamed hh hc own with ⟨p, hp, hread⟩ | ⟨hseveral, hread⟩ |
    ⟨hnone, hread⟩ <;> rw [hread]
  · constructor
    · rintro ⟨⟩
      exact ⟨p, hp, rfl⟩
    · rintro ⟨q, hq, rfl⟩
      obtain rfl : p = q := List.singleton_inj.1 (hp.symm.trans hq)
      rfl
  · refine ⟨nofun, ?_⟩
    rintro ⟨q, hq, -⟩
    rw [hq, List.length_singleton] at hseveral
    omega
  · refine ⟨nofun, ?_⟩
    rintro ⟨q, hq, -⟩
    rw [hnone] at hq
    cases hq

/-- It is ambiguous if several patches have such a commit, and all of them are reported.

**Proof sketch.** Of the three ways to read such a stem, one needs a single patch with the commit,
and one needs none. -/
lemma exists_listing_of_ne (hh : IsShortId h) (hc : s.Unnamed c h o) (own : OffsetChain)
    {q : PatchName} (hp : s.HasCommit h p) (hq : s.HasCommit h q) (hne : p ≠ q) :
    ∃ ns, s.IsListing h ns ∧
      disambiguate ⟨.name c, own⟩ s = .error (.ambiguousPrefix h (ns.map (·.text))) := by
  have hlisting := s.isListing_withCommitPrefix hh.ne_nil
  have hmem := (hlisting.mem_iff p).2 hp
  rcases disambiguate_of_unnamed hh hc own with ⟨n, hn, -⟩ | ⟨-, hread⟩ | ⟨hnone, -⟩
  · have honly := hlisting.isOnly_iff.2 hn
    exact absurd ((honly.unique p hp).trans (honly.unique q hq).symm) hne
  · exact ⟨_, hlisting, hread⟩
  · rw [hnone] at hmem
    cases hmem

/-- It is unknown if no patch has such a commit.

**Proof sketch.** The search finds nothing, and of the three ways to read such a stem one is left.
-/
lemma disambiguate_of_no_commit (hh : IsShortId h) (hc : s.Unnamed c h o) (own : OffsetChain)
    (hnone : ∀ p, ¬ s.HasCommit h p) : disambiguate ⟨.name c, own⟩ s =
      .error (.unknownPatch c.text (s.suggestions c.text suggestionLimit)) := by
  have hlisting := s.isListing_withCommitPrefix hh.ne_nil
  have hnil : s.withCommitPrefix h = [] :=
    List.eq_nil_iff_forall_not_mem.2 fun p hp => hnone p ((hlisting.mem_iff p).1 hp)
  rcases disambiguate_of_unnamed hh hc own with ⟨n, hn, -⟩ | ⟨hseveral, -⟩ | ⟨-, hread⟩
  · rw [hnil] at hn
    cases hn
  · rw [hnil] at hseveral
    cases hseveral
  · exact hread

/-- **A short commit id stands for a patch** exactly if this is the only patch with such a commit.
It is ambiguous if there are several, all of which are reported in stack order, and unknown if there
is none. If it stands for a patch, then so does every longer beginning of the same id, and a shorter
one stands for the same patch or is ambiguous.

**Proof sketch.** Neither the digits nor the whole candidate are a name, no chain ends the digits,
and one of them is a letter, so that the search for commits is the only reading left. The patches
that it finds for more digits are among those that it finds for fewer. -/
theorem shortId_selects (hh : IsShortId h) (hc : s.Unnamed c h o) (own : OffsetChain) :
    (∃ n : PatchName, n.text = h ∧ ofText h = .ok (.ofName n)) ∧
    (∀ l, disambiguate ⟨.name c, own⟩ s = .ok l ↔ ∃ p, s.IsOnly h p ∧ l = ⟨.name p, o ++ own⟩) ∧
    (∀ p q, s.HasCommit h p → s.HasCommit h q → p ≠ q → ∃ ns, s.IsListing h ns ∧
      disambiguate ⟨.name c, own⟩ s = .error (.ambiguousPrefix h (ns.map (·.text)))) ∧
    ((∀ p, ¬ s.HasCommit h p) → disambiguate ⟨.name c, own⟩ s =
      .error (.unknownPatch c.text (s.suggestions c.text suggestionLimit))) ∧
    ∀ p, disambiguate ⟨.name c, own⟩ s = .ok ⟨.name p, o ++ own⟩ →
      (∀ h' c' o' own', s.HasCommit h' p → h.length ≤ h'.length → h'.length ≤ 40 →
        (∀ x ∈ h', isHexDigit x = true) → s.Unnamed c' h' o' →
          disambiguate ⟨.name c', own'⟩ s = .ok ⟨.name p, o' ++ own'⟩) ∧
      ∀ h' c' o' own', h' <+: h → IsShortId h' → s.Unnamed c' h' o' →
        disambiguate ⟨.name c', own'⟩ s = .ok ⟨.name p, o' ++ own'⟩ ∨
          ∃ ns, p ∈ ns ∧ s.IsListing h' ns ∧
            disambiguate ⟨.name c', own'⟩ s = .error (.ambiguousPrefix h' (ns.map (·.text))) := by
  refine ⟨hh.exists_candidate, fun l => disambiguate_eq_ok_iff_of_unnamed hh hc own,
    fun p q => exists_listing_of_ne hh hc own, disambiguate_of_no_commit hh hc own, fun p hp => ?_⟩
  obtain ⟨p', honly, heq⟩ := (disambiguate_eq_ok_iff_of_unnamed hh hc own).1 hp
  obtain rfl : p = p' := by simpa using heq
  refine ⟨fun h' c' o' own' hp' hle hforty hhex hc' => ?_, fun h' c' o' own' hh' hshort hc' => ?_⟩
  · have hbegins := honly.hasCommit.beginsWith hp' hle
    have hshort := hh.of_beginsWith hbegins hhex hforty
    refine (disambiguate_eq_ok_iff_of_unnamed hshort hc' own').2 ⟨p, ⟨hp', fun q hq => ?_⟩, rfl⟩
    exact honly.unique q (hq.of_beginsWith hbegins)
  · have hp' := honly.hasCommit.of_beginsWith (Text.beginsWith_of_prefix hh')
    by_cases halone : ∀ q, s.HasCommit h' q → q = p
    · exact .inl ((disambiguate_eq_ok_iff_of_unnamed hshort hc' own').2 ⟨p, ⟨hp', halone⟩, rfl⟩)
    · simp only [not_forall] at halone
      obtain ⟨q, hq, hne⟩ := halone
      obtain ⟨ns, hns, hread⟩ := exists_listing_of_ne hshort hc' own' hp' hq (Ne.symm hne)
      exact .inr ⟨ns, (hns.mem_iff p).2 hp', hns, hread⟩

/-! ## Two patches with similar commits -/

section Similar

/-- Two applied patches with commits whose ids have the first four digits in common, and one
without a commit. -/
def similarCommits : Stack :=
  ⟨⟨[indexLike, ordinary], [offsetLike], [], ['c'], ['d'],
    [(indexLike, "BEEF1234".toList), (ordinary, "beef5678".toList)]⟩, by decide, by decide⟩

/-- Five digits of a commit id with a step upwards. -/
def fiveDigits : PatchName := ⟨"Beef1+".toList, by decide⟩

/-- Six digits of the same id. -/
def sixDigits : PatchName := ⟨"bEEf12".toList, by decide⟩

/-- The four digits that both ids begin with. -/
def fourDigits : PatchName := ⟨"Beef".toList, by decide⟩

/-- Five digits stand for the first patch, and so do six. Four are not enough. -/
theorem shortId_selects_five :
    IsShortId "Beef1".toList ∧
      similarCommits.Unnamed fiveDigits "Beef1".toList ⟨['+'], by decide⟩ ∧
      disambiguate ⟨.name fiveDigits, .empty⟩ similarCommits =
        .ok ⟨.name indexLike, ⟨['+'], by decide⟩⟩ ∧
      disambiguate ⟨.name sixDigits, .empty⟩ similarCommits = .ok ⟨.name indexLike, .empty⟩ ∧
      ∃ ns : List PatchName, indexLike ∈ ns ∧
        disambiguate ⟨.name fourDigits, .empty⟩ similarCommits =
          .error (.ambiguousPrefix "Beef".toList (ns.map (·.text))) := by
  have hh : IsShortId "Beef1".toList := by decide
  have hc : similarCommits.Unnamed fiveDigits "Beef1".toList ⟨['+'], by decide⟩ :=
    ⟨by decide, by decide, by decide⟩
  obtain ⟨-, -, -, -, hsame⟩ := shortId_selects hh hc .empty
  have hfive : disambiguate ⟨.name fiveDigits, .empty⟩ similarCommits =
      .ok ⟨.name indexLike, ⟨['+'], by decide⟩⟩ := rfl
  obtain ⟨hlonger, hshorter⟩ := hsame indexLike hfive
  have hcommit : similarCommits.HasCommit "bEEf12".toList indexLike :=
    ⟨by decide, "BEEF1234".toList, rfl, "BEEF12".toList, "34".toList, rfl, rfl⟩
  have hhex : ∀ c ∈ "bEEf12".toList, isHexDigit c = true := List.all_eq_true.1 (by decide)
  have hsix := hlonger "bEEf12".toList sixDigits .empty .empty hcommit (by decide) (by decide)
    hhex ⟨by decide, by decide, by decide⟩
  refine ⟨hh, hc, hfive, hsix, ?_⟩
  rcases hshorter "Beef".toList fourDigits .empty .empty (by decide)
    (by decide) ⟨by decide, by decide, by decide⟩ with
    hfour | ⟨ns, hmem, -, hread⟩
  · exact absurd hfour (by decide)
  · exact ⟨ns, hmem, hread⟩

end Similar

end Locator

end PatchStack
