import PatchStack.Proofs.Decimals
import PatchStack.Proofs.StackOrder

set_option autoImplicit false

/-!
# Positions of locators

What can be said of every position that a locator leads to: it is one of the stack, the name
it starts from is a patch of the stack, and lowering the floor keeps it. The few failures that
a locator can have are listed here as well, each with its reason.

## Main definitions

* `PatchStack.Locator.ReadingFailure`, `PatchStack.Locator.PositionFailure`,
  `PatchStack.Locator.ResolutionFailure` — how a locator can fail to be read against a stack, to
  have a position, and to lead to a patch.

## Main results

* `PatchStack.Locator.mem_patches_of_disambiguate` — a name that is read is one of the stack.
* `PatchStack.Locator.position_eq_ok_iff` — the steps to a position.
* `PatchStack.Locator.position_ancestors` — a position above the base is found below it too.
* `PatchStack.Locator.resolve_eq_ok_iff` — what a locator resolves to.
* `PatchStack.Locator.readingFailure_of_disambiguate`,
  `PatchStack.Locator.positionFailure_of_position`,
  `PatchStack.Locator.resolutionFailure_of_resolve` — there are no failures but the listed ones.
-/

namespace PatchStack

/-! ## Steps -/

/-- A floor admits what is below the end of the stack and not below the floor. -/
@[simp]
lemma Floor.admits_iff {floor : Floor} {total : Nat} {i : Int} :
    floor.admits total i = true ↔ i < total ∧ (floor = .ancestors ∨ -1 ≤ i) := by
  simp [Floor.admits]

/-- The lengths of the steps in front of the first one that is not read, and why that one is
not. -/
def readSteps : List OffsetStep → List Int × Option NumeralFault
  | [] => ([], none)
  | x :: xs =>
    match x.read with
    | .ok atom => (atom.delta :: (readSteps xs).1, (readSteps xs).2)
    | .error fault => ([], some fault)

section ReadSteps

variable {x : OffsetStep} {xs : List OffsetStep} {atom : OffsetAtom} {fault : NumeralFault}
  {ds : List Int}

/-- A step that is read has a length. -/
lemma readSteps_cons (h : x.read = .ok atom) :
    readSteps (x :: xs) = (atom.delta :: (readSteps xs).1, (readSteps xs).2) := by
  rw [readSteps, h]

/-- A step that is not read ends the reading. -/
lemma readSteps_cons_of_error (h : x.read = .error fault) :
    readSteps (x :: xs) = ([], some fault) := by
  rw [readSteps, h]

/-- The lengths of steps are known if every step is read.

**Proof sketch.** By induction on the steps. If the front one is read, both sides come to the same
for the others; if it is not, neither side has a list. -/
lemma deltas_mapM_eq_ok_iff :
    (fun as => as.map OffsetAtom.delta) <$> xs.mapM OffsetStep.read = .ok ds ↔
      readSteps xs = (ds, none) := by
  induction xs generalizing ds with
  | nil => simp [readSteps, pure, Except.pure, Functor.map, Except.map]
  | cons x xs ih =>
    rw [List.mapM_cons]
    cases hx : x.read with
    | error fault =>
      rw [readSteps_cons_of_error hx]
      simp [bind, Except.bind, Functor.map, Except.map]
    | ok atom =>
      rw [readSteps_cons hx]
      cases hxs : xs.mapM OffsetStep.read with
      | error fault =>
        -- No list of lengths is that of the other steps.
        have hnone (ds : List Int) : readSteps xs ≠ (ds, none) := by
          rw [ne_eq, ← ih, hxs]
          nofun
        have hne : (readSteps xs).2 ≠ none := fun h => hnone _ (Prod.ext rfl h)
        simp [bind, Except.bind, Functor.map, Except.map, hne]
      | ok as =>
        have htail : readSteps xs = (as.map OffsetAtom.delta, none) := by
          rw [← ih, hxs]
          rfl
        simp [bind, Except.bind, pure, Except.pure, Functor.map, Except.map, htail]

/-- Otherwise the first step that is not read says why they are not.

**Proof sketch.** By induction on the steps, with what reading the first of them comes to. -/
lemma deltas_mapM_eq_error_iff :
    (fun as => as.map OffsetAtom.delta) <$> xs.mapM OffsetStep.read = .error fault ↔
      (readSteps xs).2 = some fault := by
  induction xs with
  | nil => simp [readSteps, pure, Except.pure, Functor.map, Except.map]
  | cons x xs ih =>
    rw [List.mapM_cons]
    cases hx : x.read with
    | error fault' =>
      rw [readSteps_cons_of_error hx]
      simp [bind, Except.bind, Functor.map, Except.map]
    | ok atom =>
      rw [readSteps_cons hx, ← ih]
      cases xs.mapM OffsetStep.read <;>
        simp [bind, Except.bind, pure, Except.pure, Functor.map, Except.map]

end ReadSteps

namespace OffsetChain

variable {a : OffsetChain} {ds : List Int} {fault : NumeralFault}

/-- The lengths of a chain are those of its steps, if all of them are read. -/
lemma deltas_eq_ok_iff : a.deltas = .ok ds ↔ readSteps a.steps = (ds, none) :=
  deltas_mapM_eq_ok_iff

/-- The lengths of a chain are not known exactly if a step is not read. -/
lemma deltas_eq_error_iff : a.deltas = .error fault ↔ (readSteps a.steps).2 = some fault :=
  deltas_mapM_eq_error_iff

/-- A chain leads as far as its steps together. -/
lemma net_eq_ok_iff {n : Int} : a.net = .ok n ↔ ∃ ds, a.deltas = .ok ds ∧ ds.sum = n :=
  map_eq_ok_iff

/-- How far a chain leads is not known exactly if the lengths of its steps are not. -/
lemma net_eq_error_iff : a.net = .error fault ↔ a.deltas = .error fault := by
  cases h : a.deltas <;> simp [net, h, Functor.map, Except.map]

end OffsetChain

/-- An index outside of a stack is reported, unless it has too many digits. -/
lemma Error.outside_cases (t : Text) (i : Int) (total : Nat) :
    (Text.digitCount i ≤ digitLimit ∧ Error.outside t i total = .outOfRange t i total) ∨
      (digitLimit < Text.digitCount i ∧ Error.outside t i total = .ofNumeral .unwritable) := by
  rcases Text.writeInt_cases i with h | h
  · exact .inl ⟨(Text.writeInt_eq_ok_iff.1 h).1, by rw [outside, h]⟩
  · exact .inr ⟨(Text.writeInt_eq_error_iff.1 h).1, by rw [outside, h]⟩

section Walk

variable {floor : Floor} {t : Text} {total : Nat} {start i : Int} {x : OffsetStep}
  {steps : List OffsetStep}

/-- A step that is read is taken if it stays inside of the stack. -/
lemma walk_cons {atom : OffsetAtom} (h : x.read = .ok atom) :
    walk floor t total start (x :: steps) =
      if floor.admits total (start + atom.delta) then
        walk floor t total (start + atom.delta) steps
      else .error (.outside t (start + atom.delta) total) := by
  simp only [walk, h, mapError_ok, bind, Except.bind]

/-- A step that is not read ends the walk. -/
lemma walk_cons_of_error {fault : NumeralFault} (h : x.read = .error fault) :
    walk floor t total start (x :: steps) = .error (.ofNumeral fault) := by
  simp only [walk, h, mapError_error, bind, Except.bind]

/-- A walk that begins inside of the stack ends inside of it.

**Proof sketch.** By induction on the steps; every step is checked before the next one is taken. -/
lemma admits_of_walk (hs : floor.admits total start = true)
    (h : walk floor t total start steps = .ok i) : floor.admits total i = true := by
  induction steps generalizing start with
  | nil => cases h; exact hs
  | cons x steps ih =>
    cases hx : x.read with
    | error fault =>
      rw [walk_cons_of_error hx] at h
      cases h
    | ok atom =>
      rw [walk_cons hx] at h
      split_ifs at h with hstep
      exact ih hstep h

/-- A walk above the base can be taken with a lower floor.

**Proof sketch.** By induction on the steps. A position that is admitted above the base is so with
the lower floor. -/
lemma walk_ancestors (h : walk .base t total start steps = .ok i) :
    walk .ancestors t total start steps = .ok i := by
  induction steps generalizing start with
  | nil => exact h
  | cons x steps ih =>
    cases hx : x.read with
    | error fault =>
      rw [walk_cons_of_error hx] at h
      cases h
    | ok atom =>
      rw [walk_cons hx] at h ⊢
      split_ifs at h with hstep
      rw [if_pos (Floor.admits_iff.2 ⟨(Floor.admits_iff.1 hstep).1, .inl rfl⟩)]
      exact ih h

/-- A walk reads all of its steps, and leads as far as they do together.

**Proof sketch.** By induction on the steps. -/
lemma exists_deltas_of_walk (h : walk floor t total start steps = .ok i) :
    ∃ ds, readSteps steps = (ds, none) ∧ i = start + ds.sum := by
  induction steps generalizing start with
  | nil =>
    cases h
    exact ⟨[], rfl, (Int.add_zero _).symm⟩
  | cons x steps ih =>
    cases hx : x.read with
    | error fault =>
      rw [walk_cons_of_error hx] at h
      cases h
    | ok atom =>
      rw [walk_cons hx] at h
      split_ifs at h
      obtain ⟨ds, hds, rfl⟩ := ih h
      exact ⟨atom.delta :: ds, by rw [readSteps_cons hx, hds], by rw [List.sum_cons, Int.add_assoc]⟩

/-- A walk fails where it leads outside, or at the first step that is not read.

**Proof sketch.** By induction on the steps, of which the front one is not read, leads outside, or
leaves it to the others to fail. -/
lemma walk_eq_error {e : Error} (h : walk floor t total start steps = .error e) :
    (∃ i, floor.admits total i = false ∧ e = .outside t i total) ∨
      ∃ fault, (readSteps steps).2 = some fault ∧ e = .ofNumeral fault := by
  induction steps generalizing start with
  | nil => cases h
  | cons x steps ih =>
    cases hx : x.read with
    | error fault =>
      rw [walk_cons_of_error hx] at h
      cases h
      exact .inr ⟨fault, by rw [readSteps_cons_of_error hx], rfl⟩
    | ok atom =>
      rw [walk_cons hx] at h
      rw [readSteps_cons hx]
      split_ifs at h with hstep
      · exact ih h
      · cases h
        exact .inl ⟨_, Bool.not_eq_true _ ▸ hstep, rfl⟩

end Walk

/-! ## Writing a locator -/

/-- An anchor can be written unless it has a number of too many digits.

**Proof sketch.** Only two anchors have a number, which is written or not. -/
lemma Anchor.write_cases (a : Anchor) :
    a.write = .ok a.text ∨ a.write = .error .unwritable := by
  cases a with
  | belowLast count =>
    cases count with
    | none => exact .inl rfl
    | some n =>
      rcases Text.writeInt_cases n with h | h <;>
        simp only [write, text, h, Functor.map, Except.map, true_or, or_true]
  | belowTop index =>
    cases index with
    | none => exact .inl rfl
    | some i =>
      simp only [write, text]
      exact Text.writeInt_cases i
  | name | base | top => exact .inl rfl

/-- A locator can be written exactly if its anchor can. -/
lemma Locator.write_eq_ok_iff {l : Locator} :
    l.write = .ok l.text ↔ l.anchor.write = .ok l.anchor.text := by
  rcases l.anchor.write_cases with h | h <;>
    simp [Locator.write, Locator.text, h, Functor.map, Except.map]

/-- What is written of a locator is its spelling, unless its anchor has a number of too many
digits. -/
lemma Locator.write_cases (l : Locator) :
    l.write = .ok l.text ∨ l.write = .error .unwritable := by
  rcases l.anchor.write_cases with h | h
  · exact .inl (Locator.write_eq_ok_iff.2 h)
  · exact .inr (by rw [Locator.write, h]; rfl)

/-- A locator that is anchored at a name can be written. -/
lemma Locator.write_name (n : PatchName) (o : OffsetChain) :
    Locator.write ⟨.name n, o⟩ = .ok (Locator.text ⟨.name n, o⟩) := rfl

/-- A locator can be written with any offsets behind it if it can be written. -/
lemma Locator.write_moved {l : Locator} (h : l.write = .ok l.text) (o : OffsetChain) :
    (l.moved o).write = .ok (l.moved o).text :=
  Locator.write_eq_ok_iff.2 (Locator.write_eq_ok_iff (l := l).1 h)

/-! ## Readings of a name -/

/-- What is found by a name is a patch of that name. -/
lemma Stack.mem_of_find? {s : Stack} {name : Text} {n : PatchName} (h : s.find? name = some n) :
    n ∈ s.patches ∧ n.text = name :=
  ⟨List.mem_of_find?_eq_some h, by simpa using List.find?_some h⟩

/-- A patch is found by its name. -/
lemma Stack.find?_of_mem {s : Stack} {n : PatchName} (hn : n ∈ s.patches) :
    s.find? n.text = some n := by
  cases h : s.find? n.text with
  | some m => rw [PatchName.ext (mem_of_find? h).2]
  | none =>
    have hall : ∀ m ∈ s.patches, ¬ (m.text == n.text) = true := List.find?_eq_none.1 h
    exact absurd (by simp) (hall n hn)

/-- What a stem can be read as, in the order in which it is tried: nothing but offsets, a patch,
an index, the only patch with this commit prefix; or else one of two failures. An index of too many
digits is not read at all.

**Proof sketch.** The stem is tried as nothing, as a name, as an index and as a commit prefix, in
this order, and a prefix has no patch, one or several. -/
theorem readStem_cases (s : Stack) (name stem : Text) :
    (stem = [] ∧ readStem s name stem = .ok (.belowTop none)) ∨
    (stem ≠ [] ∧ ∃ n, s.find? stem = some n ∧ readStem s name stem = .ok (.name n)) ∨
    (stem ≠ [] ∧ s.find? stem = none ∧
      ((isIndex stem = true ∧
          readStem s name stem =
            (fun i => .belowTop (some i)) <$> (Text.readNat stem).mapError Error.ofNumeral) ∨
        (isIndex stem = false ∧ isCommitPrefix stem = true ∧
          ∃ n, s.withCommitPrefix stem = [n] ∧ readStem s name stem = .ok (.name n)) ∨
        (isIndex stem = false ∧ isCommitPrefix stem = true ∧
          1 < (s.withCommitPrefix stem).length ∧ readStem s name stem =
            .error (.ambiguousPrefix stem ((s.withCommitPrefix stem).map (·.text)))) ∨
        (isIndex stem = false ∧ (isCommitPrefix stem = true → s.withCommitPrefix stem = []) ∧
          readStem s name stem =
            .error (.unknownPatch name (s.suggestions name suggestionLimit))))) := by
  unfold readStem
  by_cases hstem : stem = []
  · exact .inl ⟨hstem, if_pos hstem⟩
  rw [if_neg hstem]
  refine .inr ?_
  cases hfind : s.find? stem with
  | some n => exact .inl ⟨hstem, n, rfl, rfl⟩
  | none =>
    refine .inr ⟨hstem, rfl, ?_⟩
    cases hindex : isIndex stem with
    | true => exact .inl ⟨rfl, rfl⟩
    | false =>
      refine .inr ?_
      cases hprefix : isCommitPrefix stem with
      | false => exact .inr (.inr ⟨rfl, by simp, rfl⟩)
      | true =>
        match hfound : s.withCommitPrefix stem with
        | [] => exact .inr (.inr ⟨rfl, fun _ => rfl, rfl⟩)
        | [n] => exact .inl ⟨rfl, rfl, n, rfl, rfl⟩
        | n :: m :: rest => exact .inr (.inl ⟨rfl, rfl, by simp, rfl⟩)

/-- An anchor that is read as an index has few enough digits. -/
lemma readNat_map_eq_ok_iff {stem : Text} {a : Anchor} :
    (fun i => Anchor.belowTop (some i)) <$> (Text.readNat stem).mapError Error.ofNumeral = .ok a ↔
      ∃ i, Text.readNat stem = .ok i ∧ a = .belowTop (some i) := by
  cases Text.readNat stem <;> simp [Functor.map, Except.map, eq_comm]

/-- An index is not read if it has too many digits. -/
lemma readNat_map_eq_error_iff {stem : Text} {e : Error} :
    (fun i => Anchor.belowTop (some i)) <$> (Text.readNat stem).mapError Error.ofNumeral =
        .error e ↔
      ∃ fault, Text.readNat stem = .error fault ∧ e = .ofNumeral fault := by
  cases Text.readNat stem <;> simp [Functor.map, Except.map, eq_comm]

/-- A stem is read as a name only if the name is one of the stack.

**Proof sketch.** In the two ways to a name, it was looked up in the stack, or it is among the
patches with such a commit. -/
lemma mem_patches_of_readStem {s : Stack} {name stem : Text} {n : PatchName}
    (h : readStem s name stem = .ok (.name n)) : n ∈ s.patches := by
  rcases readStem_cases s name stem with ⟨-, h'⟩ | ⟨-, m, hm, h'⟩ | ⟨-, -, ⟨-, h'⟩ |
    ⟨-, -, m, hm, h'⟩ | ⟨-, -, -, h'⟩ | ⟨-, -, h'⟩⟩ <;> rw [h'] at h
  · cases h
  · cases h
    exact (Stack.mem_of_find? hm).1
  · obtain ⟨i, -, hi⟩ := readNat_map_eq_ok_iff.1 h
    cases hi
  · cases h
    exact List.mem_of_mem_filter (hm ▸ List.mem_singleton_self n)
  · cases h
  · cases h

/-- No stem is read as the base. -/
lemma readStem_ne_base (s : Stack) (name stem : Text) : readStem s name stem ≠ .ok .base := by
  intro h
  rcases readStem_cases s name stem with ⟨-, h'⟩ | ⟨-, m, -, h'⟩ | ⟨-, -, ⟨-, h'⟩ |
    ⟨-, -, m, -, h'⟩ | ⟨-, -, -, h'⟩ | ⟨-, -, h'⟩⟩ <;> rw [h'] at h
  · cases h
  · cases h
  · obtain ⟨i, -, hi⟩ := readNat_map_eq_ok_iff.1 h
    cases hi
  · cases h
  · cases h
  · cases h

/-- Whatever a stem is read as can be written: the digits of an index are few enough.

**Proof sketch.** A name is written as it is, and an index has come from as many digits as the stem
has. -/
lemma write_of_readStem {s : Stack} {name stem : Text} {a : Anchor}
    (h : readStem s name stem = .ok a) : a.write = .ok a.text := by
  rcases readStem_cases s name stem with ⟨-, h'⟩ | ⟨-, m, -, h'⟩ | ⟨-, -, ⟨hindex, h'⟩ |
    ⟨-, -, m, -, h'⟩ | ⟨-, -, -, h'⟩ | ⟨-, -, h'⟩⟩ <;> rw [h'] at h
  · cases h
    rfl
  · cases h
    rfl
  · obtain ⟨i, hi, rfl⟩ := readNat_map_eq_ok_iff.1 h
    exact Text.writeInt_of_readNat (List.all_eq_true.1 (Bool.and_eq_true_iff.1 hindex).2) hi
  · cases h
    rfl
  · cases h
  · cases h

namespace Locator

variable {s : Stack} {l l' : Locator} {floor : Floor}

/-- A name of the stack is read as itself. -/
lemma disambiguate_of_mem {n : PatchName} (ha : l.anchor = .name n) (hn : n ∈ s.patches) :
    l.disambiguate s = .ok l := by
  unfold disambiguate
  rw [ha]
  dsimp only
  rw [if_pos (Stack.contains_text_iff.2 hn)]

/-- Whatever a locator is read as, a name in it is one of the stack.

**Proof sketch.** The name was kept because the stack has it, or it is what the stem was read as, or
it was not read at all. -/
theorem mem_patches_of_disambiguate {n : PatchName} (h : l.disambiguate s = .ok l')
    (ha : l'.anchor = .name n) : n ∈ s.patches := by
  unfold disambiguate at h
  split at h
  · rename_i m hm
    split_ifs at h with hc
    · cases h
      obtain ⟨k, hk, hkm⟩ := Stack.contains_iff.1 hc
      obtain rfl : m = n := by simpa [hm] using ha
      rwa [← PatchName.ext hkm]
    · split at h
      · rename_i a hstem
        cases h
        obtain rfl : a = .name n := ha
        exact mem_patches_of_readStem hstem
      · cases h
  · rename_i hno
    cases h
    exact absurd ha (hno n)

/-- How a locator can fail to be read against a stack: it has a name that is no patch, and what
stands before the offsets that end the name is no patch either. -/
inductive ReadingFailure (l : Locator) (s : Stack) : Error → Prop where
  /-- The name has no other reading. -/
  | unknown (c : PatchName) (ha : l.anchor = .name c) (hc : c ∉ s.patches)
      (hstem : s.find? (beforeTrailingChain c.text) = none) :
      ReadingFailure l s (.unknownPatch c.text (s.suggestions c.text suggestionLimit))
  /-- What stands before the offsets begins the commit ids of several patches. -/
  | ambiguous (c : PatchName) (ha : l.anchor = .name c) (hc : c ∉ s.patches)
      (hstem : s.find? (beforeTrailingChain c.text) = none)
      (hseveral : 1 < (s.withCommitPrefix (beforeTrailingChain c.text)).length) :
      ReadingFailure l s (.ambiguousPrefix (beforeTrailingChain c.text)
        ((s.withCommitPrefix (beforeTrailingChain c.text)).map (·.text)))
  /-- What stands before the offsets is an index of too many digits. There is no error for this. -/
  | overlong (c : PatchName) (ha : l.anchor = .name c) (hc : c ∉ s.patches)
      (hstem : s.find? (beforeTrailingChain c.text) = none)
      (hindex : isIndex (beforeTrailingChain c.text) = true) (fault : NumeralFault)
      (hfault : Text.readNat (beforeTrailingChain c.text) = .error fault) :
      ReadingFailure l s (.ofNumeral fault)

/-- Reading a locator against a stack fails in no other way.

**Proof sketch.** Only a name that is not a patch can fail to be read, and it does so as its stem
does (`readStem_cases`). -/
theorem readingFailure_of_disambiguate {e : Error} (h : l.disambiguate s = .error e) :
    l.ReadingFailure s e := by
  unfold disambiguate at h
  split at h
  · rename_i c ha
    split_ifs at h with hcontains
    have hc : c ∉ s.patches := mt Stack.contains_text_iff.2 hcontains
    split at h
    · cases h
    rename_i e' hread
    cases h
    rcases readStem_cases s c.text (beforeTrailingChain c.text) with ⟨-, h'⟩ | ⟨-, m, -, h'⟩ |
      ⟨-, hstem, ⟨hindex, h'⟩ | ⟨-, -, m, -, h'⟩ | ⟨-, -, hseveral, h'⟩ | ⟨-, -, h'⟩⟩ <;>
      rw [h'] at hread
    · cases hread
    · cases hread
    · obtain ⟨fault, hfault, rfl⟩ := readNat_map_eq_error_iff.1 hread
      exact .overlong c ha hc hstem hindex fault hfault
    · cases hread
    · cases hread
      exact .ambiguous c ha hc hstem hseveral
    · cases hread
      exact .unknown c ha hc hstem
  · cases h

/-- Nothing but the base is read as the base.

**Proof sketch.** An anchor that is no name is kept, and a stem is never read as the base. -/
lemma eq_of_disambiguate_base (h : l.disambiguate s = .ok l') (ha : l'.anchor = .base) :
    l' = l := by
  unfold disambiguate at h
  split at h
  · split_ifs at h with hc
    · exact (Except.ok.inj h).symm
    · rename_i m _
      split at h
      · rename_i a hread
        cases h
        obtain rfl : a = .base := ha
        exact absurd hread (readStem_ne_base s m.text (beforeTrailingChain m.text))
      · cases h
  · exact (Except.ok.inj h).symm

/-- The anchor of a locator that has been read has an index. -/
lemma exists_anchorIndex (h : l.disambiguate s = .ok l') :
    ∃ i, anchorIndex l'.anchor s = .ok i := by
  cases ha : l'.anchor with
  | name n =>
    obtain ⟨k, hk⟩ := List.getElem?_of_mem (mem_patches_of_disambiguate h ha)
    exact ⟨k, by rw [anchorIndex, Stack.indexOf_text hk]; rfl⟩
  | base => exact ⟨_, rfl⟩
  | top => exact ⟨_, rfl⟩
  | belowLast count => exact ⟨_, rfl⟩
  | belowTop index => cases index <;> exact ⟨_, rfl⟩

/-! ## Positions -/

/-- A locator that can be written can be so after it was read, and only then.

**Proof sketch.** A name can be written, and so can what it is read as. All other locators are read
as themselves. -/
lemma write_iff_of_disambiguate (h : l.disambiguate s = .ok l') :
    l'.write = .ok l'.text ↔ l.write = .ok l.text := by
  unfold disambiguate at h
  split at h
  · rename_i n hn
    have hl : l.write = .ok l.text := by
      obtain ⟨anchor, offsets⟩ := l
      obtain rfl : anchor = .name n := hn
      exact write_name n offsets
    split_ifs at h with hc
    · cases h
      exact Iff.rfl
    · split at h
      · rename_i a hread
        cases h
        exact ⟨fun _ => hl, fun _ => write_eq_ok_iff.2 (write_of_readStem hread)⟩
      · cases h
  · cases h
    exact Iff.rfl

/-- The steps to a position: the locator is written and read, the index of its anchor has to be a
place to start from, and a walk is taken.

**Proof sketch.** The computation is a chain of steps, each of which has to succeed, with two tests
between them. -/
theorem position_eq_ok_iff {i : Int} :
    l.position floor s = .ok i ↔
      l.write = .ok l.text ∧ ∃ l' start, l.disambiguate s = .ok l' ∧
        anchorIndex l'.anchor s = .ok start ∧ floor.admits s.total start = true ∧
        (l'.anchor = .base → floor = .base → ∃ net, l'.offsets.net = .ok net ∧ 0 < net) ∧
        walk floor l.text s.total start l'.offsets.steps = .ok i := by
  rcases l.write_cases with hw | hw
  · simp only [position, bind_eq_ok_iff, mapError_eq_ok_iff, hw, Except.ok.injEq, true_and,
      exists_eq_left']
    constructor
    · rintro ⟨l', hd, start, ha, h⟩
      split_ifs at h with hadm hbase
      · obtain ⟨net, hnet, h⟩ := bind_eq_ok_iff.1 h
        split_ifs at h with hle
        exact ⟨l', start, hd, ha, by simpa using hadm,
          fun _ _ => ⟨net, mapError_eq_ok_iff.1 hnet, Int.not_le.1 hle⟩, h⟩
      · exact ⟨l', start, hd, ha, by simpa using hadm,
          fun hb hf => absurd ⟨hb, hf⟩ hbase, h⟩
    · rintro ⟨l', start, hd, ha, hadm, hrises, h⟩
      refine ⟨l', hd, start, ha, ?_⟩
      rw [if_neg (by simpa using hadm)]
      split_ifs with hbase
      · obtain ⟨net, hnet, hpos⟩ := hrises hbase.1 hbase.2
        exact bind_eq_ok_iff.2 ⟨net, mapError_eq_ok_iff.2 hnet, by
          rw [if_neg (Int.not_le.2 hpos)]
          exact h⟩
      · exact h
  · simp [position, hw, bind, Except.bind]

/-- A locator that cannot be written has no position. -/
lemma position_of_unwritten {fault : NumeralFault} (h : l.write = .error fault) :
    l.position floor s = .error (.ofNumeral fault) := by
  simp only [position, h, mapError_error, bind, Except.bind]

/-- From an anchor that is a place to start from, a locator leads as far as the walk does. -/
lemma position_eq_walk {start : Int} (hw : l.write = .ok l.text) (hd : l.disambiguate s = .ok l')
    (ha : anchorIndex l'.anchor s = .ok start) (hstart : floor.admits s.total start = true)
    (hrises : l'.anchor = .base → floor = .base → ∃ net, l'.offsets.net = .ok net ∧ 0 < net) :
    l.position floor s = walk floor l.text s.total start l'.offsets.steps := by
  simp only [position, hw, hd, ha, mapError_ok, bind, Except.bind]
  rw [hstart, if_neg (by decide)]
  split_ifs with hbase
  · obtain ⟨net, hnet, hpos⟩ := hrises hbase.1 hbase.2
    rw [hnet]
    exact if_neg (Int.not_le.2 hpos)
  · rfl

/-- A position is one of the stack. -/
theorem admits_of_position {i : Int} (h : l.position floor s = .ok i) :
    floor.admits s.total i = true := by
  obtain ⟨-, l', start, -, -, hadm, -, hwalk⟩ := position_eq_ok_iff.1 h
  exact admits_of_walk hadm hwalk

/-- A position that is found above the base is found as well if ancestors are allowed. -/
theorem position_ancestors {i : Int} (h : l.position .base s = .ok i) :
    l.position .ancestors s = .ok i := by
  obtain ⟨hw, l', start, hd, ha, hadm, -, hwalk⟩ := position_eq_ok_iff.1 h
  refine position_eq_ok_iff.2 ⟨hw, l', start, hd, ha, ?_, nofun, walk_ancestors hwalk⟩
  exact Floor.admits_iff.2 ⟨(Floor.admits_iff.1 hadm).1, .inl rfl⟩

/-- How a locator can fail to have a position. -/
inductive PositionFailure (floor : Floor) (l : Locator) (s : Stack) : Error → Prop where
  /-- It cannot be written. There is no error for this. -/
  | unwritten (fault : NumeralFault) (hw : l.write = .error fault) :
      PositionFailure floor l s (.ofNumeral fault)
  /-- It cannot be read. -/
  | reading {e : Error} (hd : l.disambiguate s = .error e) (h : l.ReadingFailure s e) :
      PositionFailure floor l s e
  /-- It leads to an index outside of the stack. -/
  | outside (i : Int) (hi : floor.admits s.total i = false)
      (hcount : Text.digitCount i ≤ digitLimit) :
      PositionFailure floor l s (.outOfRange l.text i s.total)
  /-- It leads to an index outside of the stack that has too many digits. There is no error for
  this. -/
  | tooFar (i : Int) (hi : floor.admits s.total i = false)
      (hcount : digitLimit < Text.digitCount i) : PositionFailure floor l s (.ofNumeral .unwritable)
  /-- It stays at the base or below, where the base is the lowest position. -/
  | staysBelow (hfloor : floor = .base) (ha : l.anchor = .base) (net : Int)
      (hnet : l.offsets.net = .ok net) (hle : net ≤ 0) :
      PositionFailure floor l s (.invalidOffset l.text .baseWithoutOffset)
  /-- A step is not read. There is no error for this. -/
  | uncounted (l' : Locator) (hd : l.disambiguate s = .ok l') (fault : NumeralFault)
      (hfault : l'.offsets.deltas = .error fault) : PositionFailure floor l s (.ofNumeral fault)

/-- Outside of the stack, the number of digits decides which of the two failures it is. -/
lemma PositionFailure.of_outside {i : Int} (hi : floor.admits s.total i = false) :
    l.PositionFailure floor s (.outside l.text i s.total) := by
  rcases Error.outside_cases l.text i s.total with ⟨hcount, he⟩ | ⟨hcount, he⟩ <;> rw [he]
  · exact .outside i hi hcount
  · exact .tooFar i hi hcount

/-- A locator has a position unless it fails in one of the listed ways; that the index of its
anchor is unknown is not among them.

**Proof sketch.** The steps are taken in their order, and each failure is one of the list. The index
of an anchor is known because the locator was read against the stack (`exists_anchorIndex`). -/
theorem positionFailure_of_position {e : Error} (h : l.position floor s = .error e) :
    l.PositionFailure floor s e := by
  rcases l.write_cases with hw | hw
  swap
  · rw [position_of_unwritten hw] at h
    cases h
    exact .unwritten _ hw
  simp only [position, hw, mapError_ok, bind, Except.bind] at h
  cases hd : l.disambiguate s with
  | error e' =>
    rw [hd] at h
    cases h
    exact .reading hd (readingFailure_of_disambiguate hd)
  | ok l' =>
    obtain ⟨start, ha⟩ := exists_anchorIndex hd
    have hwalk (h : walk floor l.text s.total start l'.offsets.steps = .error e) :
        l.PositionFailure floor s e := by
      rcases walk_eq_error h with ⟨i, hi, rfl⟩ | ⟨fault, hfault, rfl⟩
      · exact .of_outside hi
      · exact .uncounted l' hd fault (OffsetChain.deltas_eq_error_iff.2 hfault)
    simp only [hd, ha] at h
    split_ifs at h with hadm hbase
    · cases h
      exact .of_outside (by simpa using hadm)
    · cases hnet : l'.offsets.net with
      | error fault =>
        rw [hnet] at h
        cases h
        exact .uncounted l' hd fault (OffsetChain.net_eq_error_iff.1 hnet)
      | ok net =>
        simp only [hnet, mapError_ok] at h
        split_ifs at h with hle
        · cases h
          obtain rfl : l' = l := eq_of_disambiguate_base hd hbase.1
          exact .staysBelow hbase.2 hbase.1 net hnet hle
        · exact hwalk h
    · exact hwalk h

/-! ## Patches -/

/-- A locator resolves to the patch at its position, if the constraint allows its group.

**Proof sketch.** The computation is a chain of steps, each of which has to succeed, with two tests
between them. -/
theorem resolve_eq_ok_iff {c : LocationConstraint} {n : PatchName} :
    l.resolve s c = .ok n ↔
      ∃ (i : Nat) (g : Group), l.position .base s = .ok (i : Int) ∧ s.patches[i]? = some n ∧
        s.groupAt i = .ok g ∧ c.allows g = true := by
  simp only [resolve, bind_eq_ok_iff]
  constructor
  · rintro ⟨index, hp, h⟩
    split_ifs at h
    simp only [bind_eq_ok_iff] at h
    obtain ⟨m, hm, g, hg, h⟩ := h
    split_ifs at h with hc
    cases h
    obtain ⟨i, rfl, hi⟩ := Stack.patchAt_eq_ok_iff.1 hm
    exact ⟨i, g, hp, hi, hg, hc⟩
  · rintro ⟨i, g, hp, hi, hg, hc⟩
    refine ⟨i, hp, ?_⟩
    rw [if_neg (by omega)]
    simp only [bind_eq_ok_iff]
    exact ⟨n, Stack.patchAt_eq_ok_iff.2 ⟨i, rfl, hi⟩, g, hg, by rw [if_pos hc]⟩

/-- How a locator can fail to lead to a patch that the constraint allows. -/
inductive ResolutionFailure (l : Locator) (s : Stack) (c : LocationConstraint) : Error → Prop where
  /-- It has no position. -/
  | position {e : Error} (h : l.PositionFailure .base s e) : ResolutionFailure l s c e
  /-- It leads to the base. -/
  | atBase (hp : l.position .base s = .ok (-1)) :
      ResolutionFailure l s c (.invalidOffset l.text .reachesBase)
  /-- It leads to a patch of a group that is not allowed. -/
  | notAllowed (i : Nat) (n : PatchName) (g : Group) (hp : l.position .base s = .ok (i : Int))
      (hn : s.patches[i]? = some n) (hg : s.groupAt i = .ok g) (ha : c.allows g = false) :
      ResolutionFailure l s c (.constraintViolation n.text g c.groups)

/-- A locator that does not resolve fails in one of the listed ways; that there is no patch at its
position, or that the position has no group, is not among them.

**Proof sketch.** The steps are taken in their order. A position that is not below zero is one of
the stack, so that there are a patch and a group. -/
theorem resolutionFailure_of_resolve {c : LocationConstraint} {e : Error}
    (h : l.resolve s c = .error e) : l.ResolutionFailure s c e := by
  simp only [resolve, bind_eq_error_iff] at h
  rcases h with h | ⟨index, hp, h⟩
  · exact .position (positionFailure_of_position h)
  · obtain ⟨htop, hfloor⟩ := Floor.admits_iff.1 (admits_of_position hp)
    split_ifs at h with hneg
    · cases h
      obtain rfl : index = -1 := by simp at hfloor; omega
      exact .atBase hp
    obtain ⟨i, rfl⟩ := Int.eq_ofNat_of_zero_le (Int.not_lt.1 hneg)
    have hlt : i < s.total := by omega
    obtain ⟨n, hn⟩ := Stack.lt_total_iff.1 hlt
    obtain ⟨g, hg⟩ := Stack.exists_groupAt hlt
    rw [Stack.patchAt_eq_ok_iff.2 ⟨i, rfl, hn⟩, hg] at h
    change (if c.allows g = true then Except.ok n else _) = _ at h
    split_ifs at h with hc
    cases h
    exact .notAllowed i n g hp hn hg (by simpa using hc)

end Locator

end PatchStack
