import PatchStack.Proofs.PrefixScans

set_option autoImplicit false

/-!
# The scanner and the rules of naming

Where a name ends is decided twice. The scanner looks at one character and the next one and stops
before what cannot go on; the rules of naming look at a text as a whole. The two agree: of what the
scanner takes, the rules have nothing to say about characters but slashes and nothing about pairs
of characters, and a name that stands in front of something that ends names is taken as it is.

The seam is the one place where they could part. No name ends with a dot, so two dots never come
together behind a name. A name may end with an at sign, and before a brace it loses it.

## Main definitions

* `PatchStack.IsForbidden` — a character that stands in no name.
* `PatchStack.WholeFault` — the faults of a text that only shows as a whole.
* `PatchStack.StopsName` — what a name ends before.
* `PatchStack.FitsNaming` — what the rules of naming have to say about a text of the scanner.

## Main results

* `PatchStack.isForbidden_iff` — which characters these are.
* `PatchStack.PatchName.nameEnd_eq` — where the scanner stops when it begins with a name.
* `PatchStack.scanner_agrees_with_naming` — the scanner and the rules of naming agree.
-/

namespace PatchStack

variable {c : Char} {raw rest : Text}

/-! ## Forbidden characters -/

/-- Does the character stand in no name at all? -/
def IsForbidden (c : Char) : Prop := ∀ n : PatchName, c ∉ n.text

/-- Between two letters any character makes a name that is no slash and no fault by itself. -/
lemma nameRules_between_letters (hc : charFault? c = none) (hslash : c ≠ '/') :
    NameRules ['a', c, 'a'] where
  nonempty := by simp
  ne_top := by simp [topToken]
  ne_base := by simp [baseToken]
  no_slash := by simp [hslash.symm]
  chars := by
    have ha : charFault? 'a' = none := by decide
    simp [hc, ha]
  no_dots := by simp [List.infix_cons_iff]
  no_atBrace := by simp [List.infix_cons_iff]
  head_ne_dot := by simp
  getLast_ne_dot := by simp
  no_lock := by
    intro h
    have hlength := h.length_le
    simp at hlength

/-- **The forbidden characters** are the slash, the control characters, the blanks and those with a
meaning in revisions.

**Proof sketch.** A character between two letters makes a name unless it is a slash or at fault by
itself, and in a name there is no such character. -/
theorem isForbidden_iff :
    IsForbidden c ↔
      c = '/' ∨ Text.isControl c = true ∨ Text.isBlank c = true ∨ isReservedChar c = true := by
  rw [← charFault?_ne_none_iff]
  constructor
  · intro h
    by_contra hnot
    obtain ⟨hslash, hc⟩ := not_or.1 hnot
    have hrules := nameRules_between_letters (not_not.1 hc) hslash
    exact h ⟨['a', c, 'a'], nameFault?_eq_none_iff.2 hrules⟩ (by simp)
  · rintro (rfl | hc) n hmem
    · exact n.rules.no_slash hmem
    · exact hc (n.rules.chars c hmem)

/-! ## Faults of the whole -/

/-- The faults of a text that the scanner cannot see: those of the text as a whole and of its two
ends, and slashes, which it takes. -/
inductive WholeFault (raw : Text) : NameFault → Prop
  /-- There is nothing. -/
  | empty (h : raw = []) : WholeFault raw .empty
  /-- The text is a reserved token. -/
  | reserved (h : raw = topToken ∨ raw = baseToken) : WholeFault raw (.reserved raw)
  /-- There is a slash. -/
  | slash (h : '/' ∈ raw) : WholeFault raw .slash
  /-- The text begins with a dot. -/
  | leadingDot (h : raw.head? = some '.') : WholeFault raw .leadingDot
  /-- The text ends with a dot. -/
  | trailingDot (h : raw.getLast? = some '.') : WholeFault raw .trailingDot
  /-- The text ends like a lock file. -/
  | lockEnding (h : ['.', 'l', 'o', 'c', 'k'] <:+ raw) : WholeFault raw .lockEnding

/-- A name has none of these faults. -/
lemma PatchName.not_wholeFault (n : PatchName) (fault : NameFault) : ¬ WholeFault n.text fault := by
  intro h
  cases h with
  | empty h => exact n.rules.nonempty h
  | reserved h => exact h.elim n.rules.ne_top n.rules.ne_base
  | slash h => exact n.rules.no_slash h
  | leadingDot h => exact n.rules.head_ne_dot h
  | trailingDot h => exact n.rules.getLast_ne_dot h
  | lockEnding h => exact n.rules.no_lock h

/-- A text whose characters and pairs of characters are faultless is refused for one of these
faults, which it has.

**Proof sketch.** The tests for characters and pairs find nothing, and each of the others is one of
the faults. -/
lemma wholeFault_of_nameFault? {fault : NameFault} (hchars : ∀ c ∈ raw, charFault? c = none)
    (hdots : ¬ ['.', '.'] <:+: raw) (hbrace : ¬ ['@', '{'] <:+: raw)
    (h : nameFault? raw = some fault) : WholeFault raw fault := by
  have hnone : raw.findSome? charFault? = none := List.findSome?_eq_none_iff.2 hchars
  have hdots' : ¬ raw.includes ['.', '.'] = true := mt Text.includes_iff.1 hdots
  have hbrace' : ¬ raw.includes ['@', '{'] = true := mt Text.includes_iff.1 hbrace
  rw [nameFault?, hnone] at h
  dsimp only at h
  rw [if_neg hdots', if_neg hbrace'] at h
  split_ifs at h with hempty hreserved hslash hhead hlast hlock
  · cases h
    exact .empty hempty
  · cases h
    exact .reserved hreserved
  · cases h
    exact .slash hslash
  · cases h
    exact .leadingDot hhead
  · cases h
    exact .trailingDot hlast
  · cases h
    exact .lockEnding (List.isSuffixOf_iff_suffix.1 hlock)

/-- What the rules of naming have to say about a text that the scanner takes. -/
structure FitsNaming (raw : Text) : Prop where
  /-- Of the characters that stand in no name, it has slashes at most. -/
  chars : ∀ c ∈ raw, IsForbidden c → c = '/'
  /-- It has no two dots in a row. -/
  no_dots : ¬ ['.', '.'] <:+: raw
  /-- It has no at sign before an opening brace. -/
  no_atBrace : ¬ ['@', '{'] <:+: raw
  /-- If it is refused as a name, then for a fault that it has as a whole. -/
  fault : ∀ fault, PatchName.ofText raw = .error fault → WholeFault raw fault
  /-- It is refused if it has such a fault. -/
  refused : (∃ fault, WholeFault raw fault) → ∃ fault, PatchName.ofText raw = .error fault

/-- What can be split off as a name fits the rules of naming.

**Proof sketch.** Each rule for a name is a field of the split, or it is one about the text as a
whole, which is what makes it a fault. -/
lemma IsNameSplit.fitsNaming (h : IsNameSplit raw rest) : FitsNaming raw := by
  have hfront : raw <:+: raw ++ rest.take 1 := (List.prefix_append _ _).isInfix
  have hdots : ¬ ['.', '.'] <:+: raw := fun hpair => h.no_dots (hpair.trans hfront)
  have hbrace : ¬ ['@', '{'] <:+: raw := fun hpair => h.no_atBrace (hpair.trans hfront)
  refine ⟨fun c hc hforbidden => ?_, hdots, hbrace, fun fault hfault => ?_, ?_⟩
  · refine (isForbidden_iff.1 hforbidden).resolve_right fun hfault => ?_
    exact charFault?_ne_none_iff.2 hfault (h.chars c hc)
  · exact wholeFault_of_nameFault? h.chars hdots hbrace (PatchName.ofText_eq_error_iff.1 hfault)
  · rintro ⟨fault, hfault⟩
    cases hn : PatchName.ofText raw with
    | error e => exact ⟨e, rfl⟩
    | ok n =>
      obtain rfl := PatchName.ofText_eq_ok_iff.1 hn
      exact absurd hfault (n.not_wholeFault fault)

/-! ## Where a name ends -/

/-- What a name ends before. -/
inductive StopsName : Text → Prop
  /-- Nothing follows. -/
  | nothing : StopsName []
  /-- A character with a meaning in revisions follows. -/
  | stopChar (c : Char) (rest : Text) (h : c ∈ ['~', '^', ':', '?', '*', '[', '\\']) :
    StopsName (c :: rest)
  /-- A blank follows. -/
  | blank (c : Char) (rest : Text) (h : Text.isBlank c = true) : StopsName (c :: rest)
  /-- A control character follows. -/
  | control (c : Char) (rest : Text) (h : Text.isControl c = true) : StopsName (c :: rest)
  /-- Two dots follow. -/
  | dots (rest : Text) : StopsName ('.' :: '.' :: rest)
  /-- An at sign and an opening brace follow. -/
  | atBrace (rest : Text) : StopsName ('@' :: '{' :: rest)

/-- The scanner stops before just that.

**Proof sketch.** The scanner tests the first character and the pair that it begins, and the cases
are those of these tests. -/
theorem endsName_iff_stopsName : EndsName rest ↔ StopsName rest := by
  constructor
  · intro h
    cases rest with
    | nil => exact .nothing
    | cons c rest =>
      have hend : isNameEnd c rest = true := h
      rcases isNameEnd_iff.1 hend with hfault | ⟨u, hu⟩ | ⟨u, hu⟩
      · rcases charFault?_ne_none_iff.1 hfault with hcontrol | hblank | hreserved
        · exact .control c rest hcontrol
        · exact .blank c rest hblank
        · exact .stopChar c rest (List.contains_iff_mem.1 hreserved)
      · rw [← hu]
        exact .dots u
      · rw [← hu]
        exact .atBrace u
  · intro h
    cases h with
    | nothing => trivial
    | stopChar c rest h =>
      have hstop : isStopChar c = true := List.contains_iff_mem.2 h
      simp [EndsName, isNameEnd, hstop]
    | blank c rest h => simp [EndsName, isNameEnd, h]
    | control c rest h => simp [EndsName, isNameEnd, h]
    | dots rest => simp [EndsName, isNameEnd]
    | atBrace rest => simp [EndsName, isNameEnd]

/-- At the front of a text, the scanner stops behind what it takes. -/
lemma nameEnd_zero (t : Text) : nameEnd t 0 = (scanName t).1.length := by
  have hscan := (scanName_drop t 0).2
  have hle : nameEnd t 0 ≤ t.length := nameEnd_le (Nat.zero_le _)
  rw [List.drop_zero] at hscan
  rw [hscan, List.extract_eq_take_drop, List.drop_zero, List.length_take]
  omega

/-- **Where the scanner stops when it begins with a name.** It goes on behind the name as if it
began there, but for an at sign that the name loses to a brace.

**Proof sketch.** If no at sign meets a brace, the scanner passes the name (`scanName_text_append`).
If one does, what precedes it is a split of its own. -/
theorem PatchName.nameEnd_eq (n : PatchName) (rest : Text) :
    (¬ n.MeetsBrace rest → nameEnd (n.text ++ rest) 0 = n.text.length + nameEnd rest 0) ∧
      (n.MeetsBrace rest → nameEnd (n.text ++ rest) 0 + 1 = n.text.length) := by
  constructor
  · intro h
    rw [nameEnd_zero, nameEnd_zero, n.scanName_text_append h, List.length_append]
  · rintro ⟨hlast, hhead⟩
    obtain ⟨front, hn⟩ := List.getLast?_eq_some_iff.1 hlast
    obtain ⟨behind, rfl⟩ := List.head?_eq_some_iff.1 hhead
    have hrules := n.rules
    rw [hn] at hrules
    have hsplit : IsNameSplit front ('@' :: '{' :: behind) :=
      ⟨fun c hc => hrules.chars c (List.mem_append_left _ hc), hrules.no_dots, hrules.no_atBrace,
        endsName_iff_stopsName.2 (.atBrace behind)⟩
    have hscan := hsplit.scanName_eq
    rw [nameEnd_zero, hn, List.append_assoc, List.singleton_append, hscan, List.length_append]
    rfl

/-- The at sign at the end of a name goes with the brace behind it. -/
example : PatchName.isValid ['a', '@'] = true ∧ nameEnd ['a', '@', '{', 'b'] 0 = 1 := by
  refine ⟨by decide, ?_⟩
  cbv

/-- A scan that begins with a name ends with it exactly before what ends names.

**Proof sketch.** The scanner goes on behind the name as if it began there, so that it ends with the
name exactly if it would stop at once. A name that loses its at sign ends earlier. -/
theorem PatchName.nameEnd_eq_length_iff (n : PatchName) :
    nameEnd (n.text ++ rest) 0 = n.text.length ↔ StopsName rest := by
  rw [← endsName_iff_stopsName]
  constructor
  · intro h
    -- The scanner passes the name and stops at once behind it, so it would stop there anyway.
    have hmeets : ¬ n.MeetsBrace rest := by
      intro hmeets
      have hcut := (n.nameEnd_eq rest).2 hmeets
      omega
    have hzero : nameEnd rest 0 = 0 := by
      have hon := (n.nameEnd_eq rest).1 hmeets
      omega
    rw [nameEnd_zero, List.length_eq_zero_iff] at hzero
    have hrest := scanName_append rest
    rw [hzero, List.nil_append] at hrest
    rw [← hrest]
    exact endsName_scanName rest
  · intro h
    rw [nameEnd_zero, scanName_name_append n h]

/-! ## Agreement -/

/-- **The scanner and the rules of naming agree on every text.** What the scanner takes, from any
position of any text, holds no forbidden character but slashes, no two dots in a row and no at sign
before a brace. So it is refused as a name only for being empty or a reserved token, for a slash,
for a dot at one of its ends or for ending like a lock file, and it is refused for each of these.

A name with something behind it is scanned as it is exactly if what is behind it is nothing, one of
seven characters, a blank, a control character, two dots or an at sign before a brace.

**Proof sketch.** What the scanner takes and what it leaves is a split of the text in which no pair
reaches over the seam (`isNameSplit_scanName`), which leaves only the faults of the whole. Where the
scanner stops when it begins with a name is known for anything that follows
(`PatchName.nameEnd_eq`). It stops right behind the name if it would stop at once by itself, and
what it stops at is told by the character and the pair that follow. -/
theorem scanner_agrees_with_naming :
    (∀ (t : Text) (position : Nat), FitsNaming (t.extract position (nameEnd t position))) ∧
      ∀ (n : PatchName) (rest : Text),
        nameEnd (n.text ++ rest) 0 = n.text.length ↔ StopsName rest := by
  refine ⟨fun t position => ?_, fun n rest => n.nameEnd_eq_length_iff⟩
  have hsplit := isNameSplit_scanName (t.drop position)
  rw [(scanName_drop t position).2] at hsplit
  exact hsplit.fitsNaming

end PatchStack
