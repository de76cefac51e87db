import PatchStack.Proofs.MovedLocators

set_option autoImplicit false

/-!
# Chains and their atoms

A chain is kept as a text and taken apart whenever its atoms are asked for. Chains can be put one
behind the other without a loss: a chain begins with a sign, so that the digits in front of it stay
where they are. Atoms are spelled in decimal, so that the chain of the atoms of a chain is the same
chain but for zeros that stand in front of other digits. Counts of too many digits are neither read
nor written.

## Main definitions

* `PatchStack.OffsetStep.atom`, `PatchStack.OffsetAtom.step` — what a step means, and how it is
  spelled.
* `PatchStack.OffsetAtom.IsSpellable`, `PatchStack.OffsetAtom.IsWritable` — there is no count, or
  none below zero, or none of too many digits.
* `PatchStack.trimZeros`, `PatchStack.OffsetChain.trimmed` — a chain without zeros in front.
* `PatchStack.HasLeadingZero` — a zero stands behind a sign and in front of another digit.
* `PatchStack.OffsetChain.overlong` — a chain whose count has one digit too many.

## Main results

* `PatchStack.isChain_flatMap_text_iff`, `PatchStack.splitSteps_flatMap_text` — which atoms spell a
  chain, and that they are found again in it.
* `PatchStack.flatMap_text_splitSteps` — how the steps of a chain are spelled.
* `PatchStack.OffsetChain.atoms_eq_ok_iff`, `PatchStack.OffsetChain.ofAtoms_eq_ok_iff` — when atoms
  are read and written.
* `PatchStack.trimZeros_eq_self_iff` — when nothing is dropped.
* `PatchStack.chain_atoms` — chains as a monoid, and the way to atoms and back.
-/

namespace PatchStack

/-! ## Atoms of chains -/

/-- A digit is the sign of no direction. -/
lemma Direction.ofSign?_of_isDigit {c : Char} (h : c.isDigit = true) :
    Direction.ofSign? c = none := by
  cases hd : Direction.ofSign? c with
  | none => rfl
  | some d =>
    rw [Direction.ofSign?_eq_some_iff.1 hd, isDigit_sign] at h
    cases h

/-- Digits by themselves wait for a sign. -/
lemma splitSteps_of_isDigit {t : Text} (h : ∀ c ∈ t, c.isDigit = true) :
    splitSteps t = (t, []) := by
  induction t with
  | nil => rfl
  | cons c t ih =>
    rw [splitSteps, Direction.ofSign?_of_isDigit (h c List.mem_cons_self),
      ih fun d hd => h d (List.mem_cons_of_mem c hd)]

/-- The digits behind a sign are those of its step, and no others are. -/
lemma splitSteps_cons {digits rest : Text} (d : Direction) (h : ∀ c ∈ digits, c.isDigit = true)
    (hrest : IsChain rest) :
    splitSteps (d.sign :: (digits ++ rest)) = ([], ⟨d, digits⟩ :: (splitSteps rest).2) := by
  rw [splitSteps, Direction.ofSign?_eq_some_iff.2 rfl, splitSteps_append hrest,
    splitSteps_of_isDigit h]
  rfl

namespace OffsetStep

/-- What the step means, however many digits it has. -/
def atom (x : OffsetStep) : OffsetAtom :=
  ⟨x.direction, if x.digits = [] then none else some (Text.digitsValue x.digits)⟩

/-- A step is read as what it means, if its digits are few enough. -/
theorem read_eq_ok_iff (x : OffsetStep) (a : OffsetAtom) :
    x.read = .ok a ↔ x.digits.length ≤ digitLimit ∧ x.atom = a := by
  obtain ⟨d, digits⟩ := x
  rcases eq_or_ne digits [] with rfl | hne
  · simp [read, countOf, atom, Functor.map, Except.map]
  · simp only [read, countOf, atom, if_neg hne, map_eq_ok_iff, Text.readNat_eq_ok_iff]
    constructor
    · rintro ⟨_, ⟨n, ⟨hlength, rfl⟩, rfl⟩, rfl⟩
      exact ⟨hlength, rfl⟩
    · rintro ⟨hlength, rfl⟩
      exact ⟨_, ⟨_, ⟨hlength, rfl⟩, rfl⟩, rfl⟩

/-- A step of more digits is not read. -/
theorem read_eq_error_iff (x : OffsetStep) (fault : NumeralFault) :
    x.read = .error fault ↔
      digitLimit < x.digits.length ∧ fault = .unreadable x.digits.length := by
  obtain ⟨d, digits⟩ := x
  rcases eq_or_ne digits [] with rfl | hne
  · simp [read, countOf, Functor.map, Except.map]
  · simp only [read, countOf, if_neg hne, map_eq_error_iff, Text.readNat_eq_error_iff]

end OffsetStep

/-! ## Chains of atoms -/

namespace OffsetAtom

/-- The step can be spelled: it has no count, or one that is not negative. -/
def IsSpellable (x : OffsetAtom) : Prop := ∀ k ∈ x.count, 0 ≤ k

/-- The step can be written: it has no count, or one of few enough digits. -/
def IsWritable (x : OffsetAtom) : Prop := ∀ k ∈ x.count, Text.digitCount k ≤ digitLimit

/-- A step is written as it is spelled, if it can be written. -/
theorem write_eq_ok_iff (x : OffsetAtom) (t : Text) :
    x.write = .ok t ↔ x.IsWritable ∧ x.text = t := by
  obtain ⟨d, count⟩ := x
  cases count with
  | none => simp [write, IsWritable]
  | some k =>
    simp only [write, IsWritable, text, map_eq_ok_iff, Text.writeInt_eq_ok_iff, Option.mem_def,
      Option.some.injEq, forall_eq', Option.map_some, Option.getD_some]
    constructor
    · rintro ⟨_, ⟨hcount, rfl⟩, rfl⟩
      exact ⟨hcount, rfl⟩
    · rintro ⟨hcount, rfl⟩
      exact ⟨_, ⟨hcount, rfl⟩, rfl⟩

/-- The step as it is spelled. -/
def step (x : OffsetAtom) : OffsetStep := ⟨x.direction, (x.count.map Text.ofInt).getD []⟩

/-- The spelling of a step is its sign with its digits. -/
lemma text_eq (x : OffsetAtom) : x.text = x.direction.sign :: x.step.digits := rfl

/-- A step that can be spelled has digits behind its sign, which mean the step. If it can be
written, they are few enough. -/
lemma IsSpellable.step_eq {x : OffsetAtom} (h : x.IsSpellable) :
    (∀ c ∈ x.step.digits, c.isDigit = true) ∧ x.step.atom = x ∧
      (x.IsWritable → x.step.digits.length ≤ digitLimit) := by
  obtain ⟨d, count⟩ := x
  cases count with
  | none => exact ⟨nofun, rfl, fun _ => Nat.zero_le _⟩
  | some k =>
    obtain ⟨n, rfl⟩ := Int.eq_ofNat_of_zero_le (h k rfl)
    have hdigits : step ⟨d, some (n : Int)⟩ = ⟨d, Nat.toDigits 10 n⟩ := rfl
    refine ⟨fun _ => isDigit_of_mem_toDigits, ?_, fun hw => hw n rfl⟩
    simp only [hdigits, OffsetStep.atom, if_neg Nat.toDigits_ne_nil, digitsValue_toDigits]

end OffsetAtom

/-- A negative count is spelled with a minus sign, which stands in no chain. -/
lemma OffsetAtom.isSpellable_of_isOffsetChar {x : OffsetAtom}
    (h : ∀ c ∈ x.text, isOffsetChar c = true) : x.IsSpellable := by
  intro k hk
  by_contra hneg
  obtain ⟨n, rfl⟩ := Int.eq_negSucc_of_lt_zero (Int.not_le.1 hneg)
  have hminus : '-' ∈ x.text := by
    rw [text, Option.mem_def.1 hk]
    exact List.mem_cons_of_mem _ List.mem_cons_self
  exact absurd (h '-' hminus) (by decide)

/-- Atoms spell a chain exactly if each of them can be spelled.

**Proof sketch.** Every character of an atom in a chain is a sign or a digit, which a minus sign is
not. The other way by induction on the atoms, each of which is a sign with digits. -/
theorem isChain_flatMap_text_iff {as : List OffsetAtom} :
    IsChain (as.flatMap OffsetAtom.text) ↔ ∀ x ∈ as, x.IsSpellable := by
  constructor
  · intro h x hx
    exact OffsetAtom.isSpellable_of_isOffsetChar fun c hc =>
      h.all c (List.mem_flatMap.2 ⟨x, hx, hc⟩)
  · intro h
    induction as with
    | nil => exact .nil
    | cons x as ih =>
      obtain ⟨hx, has⟩ := List.forall_mem_cons.1 h
      rw [List.flatMap_cons, x.text_eq, List.cons_append]
      exact .cons x.direction x.step.digits _ hx.step_eq.1 (ih has)

/-- The steps that were spelled are found again. -/
theorem splitSteps_flatMap_text {as : List OffsetAtom} (h : ∀ x ∈ as, x.IsSpellable) :
    (splitSteps (as.flatMap OffsetAtom.text)).2 = as.map OffsetAtom.step := by
  induction as with
  | nil => rfl
  | cons x as ih =>
    obtain ⟨hx, has⟩ := List.forall_mem_cons.1 h
    rw [List.flatMap_cons, x.text_eq, List.cons_append,
      splitSteps_cons x.direction hx.step_eq.1 (isChain_flatMap_text_iff.2 has), ih has]
    rfl

/-- What a step means can be spelled. -/
lemma OffsetStep.isSpellable_atom (x : OffsetStep) : x.atom.IsSpellable := by
  intro k hk
  simp only [atom] at hk
  split at hk
  · cases hk
  · cases hk
    exact Int.natCast_nonneg _

/-- The steps of a text have digits behind their signs, and nothing else. -/
lemma isDigit_of_mem_splitSteps {t : Text} (h : IsChain t) {x : OffsetStep}
    (hx : x ∈ (splitSteps t).2) : ∀ c ∈ x.digits, c.isDigit = true := by
  induction h with
  | nil => cases hx
  | cons d digits rest hdigits hrest ih =>
    rw [splitSteps_cons d hdigits hrest] at hx
    rcases List.mem_cons.1 hx with rfl | hx
    · exact hdigits
    · exact ih hx

/-- What few enough digits mean can be written. -/
lemma OffsetStep.isWritable_atom {x : OffsetStep} (hd : ∀ c ∈ x.digits, c.isDigit = true)
    (hlength : x.digits.length ≤ digitLimit) : x.atom.IsWritable := by
  intro k hk
  simp only [atom] at hk
  split at hk
  · cases hk
  · cases hk
    exact Text.digitCount_digitsValue_le hd hlength

/-! ## Zeros in front -/

/-- The text without the zeros that stand between a sign and another digit. The flag says whether
nothing but such zeros stands between a sign and the text. -/
def trimZeros : Bool → Text → Text
  | _, [] => []
  | front, c :: r =>
    if front && c == '0' && r.head?.any Char.isDigit then trimZeros true r
    else c :: trimZeros (isSign c) r

/-- A zero stands behind a sign and in front of another digit. -/
def HasLeadingZero (t : Text) : Prop :=
  ∃ (d : Direction) (c : Char), c.isDigit = true ∧ [d.sign, '0', c] <:+: t

/-- A digit is no sign. -/
lemma isSign_of_isDigit {c : Char} (h : c.isDigit = true) : isSign c = false := by
  by_contra hsign
  obtain ⟨d, rfl⟩ := exists_sign_of_isSign (Bool.not_eq_false _ ▸ hsign)
  rw [isDigit_sign] at h
  cases h

/-- No digit begins a chain. -/
lemma IsChain.any_head?_isDigit {t : Text} (h : IsChain t) : t.head?.any Char.isDigit = false := by
  cases h with
  | nil => rfl
  | cons d => exact isDigit_sign d

/-- A sign is kept, and zeros may stand in front behind it. -/
lemma trimZeros_sign (front : Bool) (d : Direction) (r : Text) :
    trimZeros front (d.sign :: r) = d.sign :: trimZeros true r := by
  have hzero : (d.sign == '0') = false := by cases d <;> decide
  rw [trimZeros, hzero, isSign_sign]
  simp

/-- What stands in front of a chain does not matter. -/
lemma IsChain.trimZeros_eq {t : Text} (h : IsChain t) (front : Bool) :
    trimZeros front t = trimZeros false t := by
  cases h with
  | nil => rfl
  | cons d => rw [trimZeros_sign, trimZeros_sign]

/-- Digits are kept behind a digit that is kept. -/
lemma trimZeros_false_append {digits : Text} (h : ∀ c ∈ digits, c.isDigit = true) (rest : Text) :
    trimZeros false (digits ++ rest) = digits ++ trimZeros false rest := by
  induction digits with
  | nil => rfl
  | cons c digits ih =>
    obtain ⟨hc, hdigits⟩ := List.forall_mem_cons.1 h
    rw [List.cons_append, trimZeros, isSign_of_isDigit hc, ih hdigits]
    rfl

/-- Of the digits behind a sign there remain those of the decimal of their value.

**Proof sketch.** By induction on the digits. A zero with a digit behind it is dropped, which leaves
the value; any other digit is kept with all that follow it, and these are a decimal then. -/
lemma trimZeros_true_append {digits rest : Text} (h : ∀ c ∈ digits, c.isDigit = true)
    (hne : digits ≠ []) (hrest : IsChain rest) :
    trimZeros true (digits ++ rest) =
      Nat.toDigits 10 (Text.digitsValue digits) ++ trimZeros false rest := by
  induction digits with
  | nil => exact absurd rfl hne
  | cons c digits ih =>
    obtain ⟨hc, hdigits⟩ := List.forall_mem_cons.1 h
    have hnext : (digits ++ rest).head?.any Char.isDigit = true ↔ digits ≠ [] := by
      cases digits with
      | nil => simp [hrest.any_head?_isDigit]
      | cons d digits => simp [hdigits d List.mem_cons_self]
    rw [List.cons_append, trimZeros]
    by_cases hdrop : c = '0' ∧ digits ≠ []
    · obtain ⟨rfl, hmore⟩ := hdrop
      rw [hnext.2 hmore, ih hdigits hmore]
      rfl
    · -- The zero is the only digit, or there is none.
      have hkeep : (true && c == '0' && (digits ++ rest).head?.any Char.isDigit) = false := by
        rw [Bool.true_and, ← Bool.not_eq_true, Bool.and_eq_true, beq_iff_eq, hnext]
        exact hdrop
      rw [hkeep, isSign_of_isDigit hc, trimZeros_false_append hdigits,
        toDigits_digitsValue h fun hzero => by_contra fun hmore => hdrop ⟨hzero, hmore⟩]
      rfl

/-- **The steps of a chain are spelled as the chain was**, without the zeros in front of other
digits. -/
theorem flatMap_text_splitSteps {t : Text} (h : IsChain t) :
    ((splitSteps t).2.map OffsetStep.atom).flatMap OffsetAtom.text = trimZeros false t := by
  induction h with
  | nil => rfl
  | cons d digits rest hdigits hrest ih =>
    rw [splitSteps_cons d hdigits hrest, List.map_cons, List.flatMap_cons, ih, trimZeros_sign]
    by_cases hne : digits = []
    · rw [hne, List.nil_append, hrest.trimZeros_eq true]
      rfl
    · rw [trimZeros_true_append hdigits hne hrest, OffsetStep.atom, if_neg hne]
      rfl

/-- A zero is kept if it is the only digit. -/
example : trimZeros false ['+', '0', '0', '7', '~', '0'] = ['+', '7', '~', '0'] := by decide

/-- Nothing is added where zeros are dropped. -/
lemma length_trimZeros_le (front : Bool) (t : Text) : (trimZeros front t).length ≤ t.length := by
  fun_induction trimZeros front t with
  | case1 => simp
  | case2 front c r hdrop ih =>
    rw [List.length_cons]
    omega
  | case3 front c r hkeep ih =>
    rw [List.length_cons, List.length_cons]
    omega

/-- A zero stands at the front of the text, and another digit behind it. -/
def BeginsWithZero (t : Text) : Prop := ∃ c : Char, c.isDigit = true ∧ ['0', c] <+: t

/-- A zero stands in front of another digit if it is the first character and a digit the next one.
-/
lemma beginsWithZero_cons_iff {c : Char} {r : Text} :
    BeginsWithZero (c :: r) ↔ c = '0' ∧ r.head?.any Char.isDigit = true := by
  cases r with
  | nil => simp [BeginsWithZero]
  | cons d r =>
    simp only [BeginsWithZero, List.cons_prefix_cons, List.nil_prefix, and_true, List.head?_cons,
      Option.any_some]
    constructor
    · rintro ⟨_, hd, rfl, rfl⟩
      exact ⟨rfl, hd⟩
    · rintro ⟨rfl, hd⟩
      exact ⟨d, hd, rfl, rfl⟩

/-- A leading zero stands behind the first sign or further behind.

**Proof sketch.** Two neighbours of a longer text are its first two characters, or they are further
behind. -/
lemma hasLeadingZero_cons_iff {c : Char} {r : Text} :
    HasLeadingZero (c :: r) ↔ (isSign c = true ∧ BeginsWithZero r) ∨ HasLeadingZero r := by
  constructor
  · rintro ⟨d, c', hc', hinfix⟩
    rcases List.infix_cons_iff.1 hinfix with hprefix | hinfix
    · obtain ⟨rfl, hrest⟩ := List.cons_prefix_cons.1 hprefix
      exact .inl ⟨isSign_sign d, c', hc', hrest⟩
    · exact .inr ⟨d, c', hc', hinfix⟩
  · rintro (⟨hsign, c', hc', hprefix⟩ | ⟨d, c', hc', hinfix⟩)
    · obtain ⟨d, rfl⟩ := exists_sign_of_isSign hsign
      exact ⟨d, c', hc', (List.cons_prefix_cons.2 ⟨rfl, hprefix⟩).isInfix⟩
    · exact ⟨d, c', hc', hinfix.trans (List.suffix_cons c r).isInfix⟩

/-- Nothing is dropped exactly if there is no zero to drop.

**Proof sketch.** By the recursion of the definition. Where a zero is dropped, what is left is
shorter; where a character is kept, the rest has to be kept as well. -/
theorem trimZeros_eq_self_iff (front : Bool) (t : Text) :
    trimZeros front t = t ↔ ¬ (front = true ∧ BeginsWithZero t) ∧ ¬ HasLeadingZero t := by
  fun_induction trimZeros front t with
  | case1 front =>
    have hbegins : ¬ BeginsWithZero [] := fun ⟨_, _, h⟩ => by simpa using h.length_le
    have hno : ¬ HasLeadingZero [] := fun ⟨_, _, _, h⟩ => by simpa using h.length_le
    simp [hbegins, hno]
  | case2 front c r hdrop ih =>
    -- What is left is too short.
    have hlength := length_trimZeros_le true r
    have hne : trimZeros true r ≠ c :: r := by
      intro h
      rw [h, List.length_cons] at hlength
      omega
    have hbegins : front = true ∧ BeginsWithZero (c :: r) := by
      rw [beginsWithZero_cons_iff]
      simpa [and_assoc] using hdrop
    simp [hne, hbegins]
  | case3 front c r hkeep ih =>
    have hbegins : ¬ (front = true ∧ BeginsWithZero (c :: r)) := by
      rw [beginsWithZero_cons_iff]
      simpa [and_assoc] using hkeep
    rw [List.cons_inj_right, ih, hasLeadingZero_cons_iff, not_or]
    simp only [hbegins, not_false_iff, true_and]

/-! ## Both ways -/

namespace OffsetChain

/-- Has every count of the chain few enough digits to be read? -/
def IsReadable (a : OffsetChain) : Prop := ∀ x ∈ a.steps, x.digits.length ≤ digitLimit

/-- The atoms of a chain are what its steps mean, if every count has few enough digits. -/
theorem atoms_eq_ok_iff {a : OffsetChain} {as : List OffsetAtom} :
    a.atoms = .ok as ↔ a.IsReadable ∧ a.steps.map OffsetStep.atom = as :=
  mapM_eq_ok_iff OffsetStep.read_eq_ok_iff

/-- The atoms of two chains, one behind the other, are those of both. -/
theorem atoms_append (a b : OffsetChain) :
    (a ++ b).atoms = do
      let as ← a.atoms
      let bs ← b.atoms
      return as ++ bs := by
  rw [atoms, steps_append, List.mapM_append]
  rfl

/-- So are their steps. -/
theorem deltas_append (a b : OffsetChain) :
    (a ++ b).deltas = do
      let ds ← a.deltas
      let es ← b.deltas
      return ds ++ es := by
  rw [deltas, atoms_append, deltas, deltas]
  cases a.atoms with
  | error fault => rfl
  | ok as =>
    cases b.atoms with
    | error fault => rfl
    | ok bs => exact congrArg Except.ok List.map_append

/-- Together they lead as far as both. -/
theorem net_append (a b : OffsetChain) :
    (a ++ b).net = do
      let m ← a.net
      let n ← b.net
      return m + n := by
  rw [net, deltas_append, net, net]
  cases a.deltas with
  | error fault => rfl
  | ok ds =>
    cases b.deltas with
    | error fault => rfl
    | ok es => exact congrArg Except.ok List.sum_append

/-- The chain without the zeros in front of other digits of a count. -/
def trimmed (a : OffsetChain) : OffsetChain :=
  ⟨trimZeros false a.text, by
    rw [← flatMap_text_splitSteps a.isChain, isChain_flatMap_text_iff]
    intro x hx
    obtain ⟨y, -, rfl⟩ := List.mem_map.1 hx
    exact y.isSpellable_atom⟩

/-- Atoms are written as they are spelled, if all of them can be written. -/
theorem ofAtoms_eq_ok_iff {as : List OffsetAtom} {a : OffsetChain} :
    ofAtoms as = .ok a ↔ (∀ x ∈ as, x.IsWritable) ∧ a.text = as.flatMap OffsetAtom.text := by
  simp only [ofAtoms, bind_eq_ok_iff, mapError_eq_ok_iff,
    mapM_eq_ok_iff OffsetAtom.write_eq_ok_iff, ofText_eq_ok_iff, List.flatMap_def]
  constructor
  · rintro ⟨_, ⟨hwritable, rfl⟩, ha⟩
    exact ⟨hwritable, ha⟩
  · rintro ⟨hwritable, ha⟩
    exact ⟨_, ⟨hwritable, rfl⟩, ha⟩

/-- A chain is made of atoms exactly if all of them can be spelled and written. -/
theorem exists_ofAtoms_eq_ok_iff {as : List OffsetAtom} :
    (∃ a, ofAtoms as = .ok a) ↔ ∀ x ∈ as, x.IsSpellable ∧ x.IsWritable := by
  simp only [ofAtoms_eq_ok_iff]
  constructor
  · rintro ⟨a, hwritable, ha⟩ x hx
    exact ⟨isChain_flatMap_text_iff.1 (ha ▸ a.isChain) x hx, hwritable x hx⟩
  · intro h
    exact ⟨⟨_, isChain_flatMap_text_iff.2 fun x hx => (h x hx).1⟩, fun x hx => (h x hx).2, rfl⟩

/-- An atom that cannot be written is why there is no error for atoms that make no chain.

**Proof sketch.** If all atoms are written, what can still go wrong is the text. If not, the first
one that is not written is the reason, and writing fails in one way only. -/
theorem ofAtoms_eq_numeral_iff {as : List OffsetAtom} :
    ofAtoms as = .error (.numeral .unwritable) ↔ ∃ x ∈ as, ¬ x.IsWritable := by
  cases hwrite : as.mapM OffsetAtom.write with
  | ok texts =>
    have hwritable := ((mapM_eq_ok_iff OffsetAtom.write_eq_ok_iff).1 hwrite).1
    simp only [ofAtoms, hwrite, mapError_ok, bind, Except.bind]
    constructor
    · intro h
      cases htext : ofText texts.flatten <;> rw [htext] at h <;> cases h
    · rintro ⟨x, hx, hno⟩
      exact absurd (hwritable x hx) hno
  | error fault =>
    obtain ⟨before, x, after, texts, rfl, -, hx⟩ := mapM_eq_error_iff.1 hwrite
    have hno : ¬ x.IsWritable := fun h => by
      rw [(x.write_eq_ok_iff _).2 ⟨h, rfl⟩] at hx
      cases hx
    obtain rfl : fault = .unwritable := by
      obtain ⟨d, count⟩ := x
      cases count with
      | none => cases hx
      | some k => exact (Text.writeInt_eq_error_iff.1 (map_eq_error_iff.1 hx)).2
    simp only [ofAtoms, hwrite, mapError_error, bind, Except.bind, true_iff]
    exact ⟨x, by simp, hno⟩

/-- The atoms that a chain is made of are its atoms. -/
theorem atoms_of_ofAtoms {as : List OffsetAtom} {a : OffsetChain} (h : ofAtoms as = .ok a) :
    a.atoms = .ok as := by
  have hall := exists_ofAtoms_eq_ok_iff.1 ⟨a, h⟩
  have hsteps : a.steps = as.map OffsetAtom.step := by
    rw [steps, (ofAtoms_eq_ok_iff.1 h).2, splitSteps_flatMap_text fun x hx => (hall x hx).1]
  rw [atoms_eq_ok_iff, IsReadable, hsteps, List.forall_mem_map, List.map_map]
  refine ⟨fun x hx => (hall x hx).1.step_eq.2.2 (hall x hx).2, ?_⟩
  exact (List.map_congr_left fun x hx => (hall x hx).1.step_eq.2.1).trans as.map_id

/-- The atoms are spelled by the chain without zeros in front. -/
theorem ofAtoms_of_atoms {as : List OffsetAtom} {a : OffsetChain} (h : a.atoms = .ok as) :
    ofAtoms as = .ok a.trimmed := by
  obtain ⟨hreadable, rfl⟩ := atoms_eq_ok_iff.1 h
  refine ofAtoms_eq_ok_iff.2 ⟨List.forall_mem_map.2 fun x hx => ?_, ?_⟩
  · exact OffsetStep.isWritable_atom (isDigit_of_mem_splitSteps a.isChain hx) (hreadable x hx)
  · exact (flatMap_text_splitSteps a.isChain).symm

/-- A chain is as it is without such zeros exactly if it has none. -/
theorem trimmed_eq_self_iff {a : OffsetChain} : a.trimmed = a ↔ ¬ HasLeadingZero a.text := by
  have h := trimZeros_eq_self_iff false a.text
  simpa [OffsetChain.ext_iff, trimmed] using h

/-- One step of zero length, spelled with one digit too many. -/
def overlong (d : Direction) : OffsetChain where
  text := d.sign :: ((Numeral.overlongZero false).digits ++ [])
  isChain := .cons d _ [] (Numeral.overlongZero false).all_isDigit .nil

/-- It is the only step of its chain. -/
lemma steps_overlong (d : Direction) :
    (overlong d).steps = [⟨d, (Numeral.overlongZero false).digits⟩] := by
  rw [steps, overlong, splitSteps_cons d (Numeral.overlongZero false).all_isDigit .nil]
  rfl

/-- The step is not read. -/
lemma read_overlong (d : Direction) :
    OffsetStep.read ⟨d, (Numeral.overlongZero false).digits⟩ =
      .error (.unreadable (digitLimit + 1)) := by
  have hlength : (Numeral.overlongZero false).digits.length = digitLimit + 1 :=
    List.length_replicate
  rw [OffsetStep.read_eq_error_iff, hlength]
  exact ⟨Nat.lt_succ_self digitLimit, rfl⟩

end OffsetChain

open OffsetChain in
/-- **Chains can be put together and taken apart.** One chain behind another is a chain, whose text,
atoms, steps and net length are those of the two, so that chains are a monoid that all of these
respect. The atoms of a chain are known exactly if every count has few enough digits to be read.
Atoms spell a chain exactly if none of them has a negative count or one of too many digits, and they
are its atoms. The atoms of a chain spell the chain without the zeros that stand in front of other
digits of a count: it has the same atoms and steps, it has no such zeros, and it is the same chain
exactly if that had none.

**Proof sketch.** A chain begins with a sign, and digits belong to the sign in front of them. Digits
behind a sign are the decimal of their value but for zeros in front, digit by digit from the left. A
minus sign stands in no chain. -/
theorem chain_atoms (a b : OffsetChain) (as : List OffsetAtom) :
    (ofText (a.text ++ b.text) = .ok (a ++ b) ∧ (a ++ b).text = a.text ++ b.text ∧
      ((a ++ b).atoms = do
        let as ← a.atoms
        let bs ← b.atoms
        return as ++ bs) ∧
      ((a ++ b).deltas = do
        let ds ← a.deltas
        let es ← b.deltas
        return ds ++ es) ∧
      (a ++ b).net = do
        let m ← a.net
        let n ← b.net
        return m + n) ∧
    (∀ c : OffsetChain, a ++ b ++ c = a ++ (b ++ c)) ∧
    (empty ++ a = a ∧ a ++ empty = a) ∧
    (empty.atoms = .ok [] ∧ empty.deltas = .ok [] ∧ empty.net = .ok 0) ∧
    ((∃ as, a.atoms = .ok as) ↔ ∀ x ∈ a.steps, x.digits.length ≤ digitLimit) ∧
    (((∃ a, ofAtoms as = .ok a) ↔
        ∀ x ∈ as, ∀ k ∈ x.count, 0 ≤ k ∧ Text.digitCount k ≤ digitLimit) ∧
      (ofAtoms as = .error (.numeral .unwritable) ↔
        ∃ x ∈ as, ∃ k ∈ x.count, digitLimit < Text.digitCount k) ∧
      ∀ a, ofAtoms as = .ok a → a.atoms = .ok as) ∧
    (a.atoms = .ok as →
      ofAtoms as = .ok a.trimmed ∧ a.trimmed.atoms = .ok as ∧
        a.trimmed.deltas = a.deltas ∧ ¬ HasLeadingZero a.trimmed.text ∧
        (ofAtoms as = .ok a ↔ ¬ HasLeadingZero a.text)) := by
  refine ⟨⟨ofText_eq_ok_iff.2 rfl, rfl, atoms_append a b, deltas_append a b, net_append a b⟩,
    append_assoc a b, ⟨rfl, ext (List.append_nil a.text)⟩, ⟨rfl, rfl, rfl⟩,
    ?_, ⟨?_, ?_, fun a => atoms_of_ofAtoms⟩, fun h => ?_⟩
  · simp only [atoms_eq_ok_iff, exists_and_left, exists_eq', and_true]
    rfl
  · rw [exists_ofAtoms_eq_ok_iff]
    exact forall₂_congr fun x _ => forall₂_and.symm
  · rw [ofAtoms_eq_numeral_iff]
    simp only [OffsetAtom.IsWritable, not_forall, Nat.not_le, exists_prop]
  · have htrimmed := ofAtoms_of_atoms h
    have hagain := atoms_of_ofAtoms htrimmed
    have hdeltas : a.trimmed.deltas = a.deltas := by
      rw [deltas, deltas, h, hagain]
    have htwice : a.trimmed.trimmed = a.trimmed :=
      Except.ok.inj ((ofAtoms_of_atoms hagain).symm.trans htrimmed)
    refine ⟨htrimmed, hagain, hdeltas, trimmed_eq_self_iff.1 htwice, ?_⟩
    rw [htrimmed, Except.ok.injEq, trimmed_eq_self_iff]

/-- This chain has no atoms that it could be put together from. -/
theorem OffsetChain.no_atoms_overlong :
    ¬ ∃ as, (overlong .down).atoms = .ok as ∧ ofAtoms as = .ok (overlong .down).trimmed := by
  rintro ⟨as, h, -⟩
  rw [atoms, steps_overlong, List.mapM_cons, read_overlong] at h
  cases h

end PatchStack
