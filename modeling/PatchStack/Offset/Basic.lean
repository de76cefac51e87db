import PatchStack.Text.Basic

set_option autoImplicit false

/-!
# Offset chains

An offset chain is a text such as `~3+` or `+1+1`: any number of signs, each followed by any
number of ASCII digits. A plus sign moves towards later patches and a tilde towards earlier
ones; a sign without digits moves by one. The spelling of a chain is kept, so that it can be
shown again as it was typed.

## Main definitions

* `PatchStack.IsChain` — the grammar of chains.
* `PatchStack.leadingChain`, `PatchStack.afterChain` — the longest chain that begins a text,
  and what follows it.
* `PatchStack.beforeTrailingChain`, `PatchStack.trailingChain` — the longest chain that ends
  a text, and what precedes it.

## Main results

* `PatchStack.leadingChain_append_afterChain`, `PatchStack.beforeTrailingChain_append` — no
  character is lost.
* `PatchStack.isChain_leadingChain`, `PatchStack.isChain_trailingChain` — both are chains.
* `PatchStack.isChain_iff` — a text is a chain exactly if it is its own leading chain.
-/

namespace PatchStack

/-- The direction of one step. -/
inductive Direction where
  /-- Towards later patches. -/
  | up
  /-- Towards earlier patches. -/
  | down
  deriving DecidableEq, Repr

/-- The sign that spells a direction. -/
def Direction.sign : Direction → Char
  | .up => '+'
  | .down => '~'

/-- The direction that a sign spells. -/
def Direction.ofSign? (c : Char) : Option Direction :=
  if c = '+' then some .up else if c = '~' then some .down else none

/-- A direction is spelled by its sign and by no other character. -/
theorem Direction.ofSign?_eq_some_iff {c : Char} {d : Direction} :
    Direction.ofSign? c = some d ↔ c = d.sign := by
  unfold Direction.ofSign?
  split
  · subst c; cases d <;> decide
  · split
    · subst c; cases d <;> decide
    · cases d <;> simp_all [Direction.sign]

/-- Is the character a sign? -/
def isSign (c : Char) : Bool := c == '+' || c == '~'

/-- Can the character stand in a chain? -/
def isOffsetChar (c : Char) : Bool := isSign c || c.isDigit

/-- The grammar of offset chains: signs, each followed by any number of digits. -/
inductive IsChain : Text → Prop
  /-- The empty text is a chain. -/
  | nil : IsChain []
  /-- A sign with its digits may stand before a chain. -/
  | cons (d : Direction) (digits rest : Text) (digits_isDigit : ∀ c ∈ digits, c.isDigit = true)
      (rest_isChain : IsChain rest) : IsChain (d.sign :: (digits ++ rest))

/-- The longest chain that begins `t`: nothing unless the first character is a sign, else
the longest run of signs and digits. -/
def leadingChain (t : Text) : Text :=
  if t.head?.any isSign then t.takeWhile isOffsetChar else []

/-- What follows the longest chain that begins `t`. -/
def afterChain (t : Text) : Text :=
  if t.head?.any isSign then t.dropWhile isOffsetChar else t

/-- The longest chain that begins a text and what follows it are the text. -/
theorem leadingChain_append_afterChain (t : Text) : leadingChain t ++ afterChain t = t := by
  unfold leadingChain afterChain
  split <;> simp

/-! ## The grammar, character by character -/

/-- The sign of a direction is a sign. -/
theorem isSign_sign (d : Direction) : isSign d.sign = true := by cases d <;> decide

/-- The sign of a direction can stand in a chain. -/
theorem isOffsetChar_sign (d : Direction) : isOffsetChar d.sign = true := by cases d <;> decide

/-- Every sign is the sign of a direction. -/
theorem exists_sign_of_isSign {c : Char} (h : isSign c = true) : ∃ d : Direction, c = d.sign := by
  simp only [isSign, Bool.or_eq_true, beq_iff_eq] at h
  rcases h with rfl | rfl
  · exact ⟨.up, rfl⟩
  · exact ⟨.down, rfl⟩

/-- No sign is a digit. -/
theorem isDigit_sign (d : Direction) : d.sign.isDigit = false := by cases d <;> decide

/-- A chain is empty or begins with a sign. -/
theorem IsChain.head {t : Text} (h : IsChain t) : t = [] ∨ t.head?.any isSign = true := by
  cases h with
  | nil => exact .inl rfl
  | cons d => simp [isSign_sign]

/-- A chain holds signs and digits only. -/
theorem IsChain.all {t : Text} (h : IsChain t) : ∀ c ∈ t, isOffsetChar c = true := by
  induction h with
  | nil => simp
  | cons d digits rest hd _ ih =>
    intro c hc
    simp only [List.mem_cons, List.mem_append] at hc
    rcases hc with rfl | hc | hc
    · exact isOffsetChar_sign d
    · simp [isOffsetChar, hd c hc]
    · exact ih c hc

/-- Signs and digits that begin with digits are digits before a chain.

**Proof sketch.** By induction on the text. A sign takes the digits that wait and begins a chain
with them, a digit waits for a sign. -/
theorem exists_digits_append_chain {t : Text} (h : ∀ c ∈ t, isOffsetChar c = true) :
    ∃ digits rest, t = digits ++ rest ∧ (∀ c ∈ digits, c.isDigit = true) ∧ IsChain rest := by
  induction t with
  | nil => exact ⟨[], [], rfl, by simp, .nil⟩
  | cons c r ih =>
    obtain ⟨digits, rest, rfl, hd, hr⟩ := ih fun c hc => h c (by simp [hc])
    have hc := h c (by simp)
    simp only [isOffsetChar, Bool.or_eq_true] at hc
    rcases hc with hs | hc
    · obtain ⟨d, rfl⟩ := exists_sign_of_isSign hs
      exact ⟨[], d.sign :: (digits ++ rest), rfl, by simp, .cons d digits rest hd hr⟩
    · refine ⟨c :: digits, rest, rfl, ?_, hr⟩
      simpa [hc] using hd

/-- The texts of signs and digits that are empty or begin with a sign are the chains. -/
theorem isChain_iff_head_all {t : Text} :
    IsChain t ↔ (t = [] ∨ t.head?.any isSign = true) ∧ ∀ c ∈ t, isOffsetChar c = true := by
  refine ⟨fun h => ⟨h.head, h.all⟩, fun ⟨h, ha⟩ => ?_⟩
  cases t with
  | nil => exact .nil
  | cons c r =>
    obtain ⟨d, rfl⟩ := exists_sign_of_isSign (c := c) (by simpa using h)
    obtain ⟨digits, rest, rfl, hd, hr⟩ :=
      exists_digits_append_chain (t := r) fun c hc => ha c (by simp [hc])
    exact .cons d digits rest hd hr

/-- The longest chain that begins a text is a chain.

**Proof sketch.** It begins with a sign, and all of it are signs and digits. -/
theorem isChain_leadingChain (t : Text) : IsChain (leadingChain t) := by
  unfold leadingChain
  split
  · rename_i h
    refine isChain_iff_head_all.2 ⟨?_, ?_⟩
    · cases t with
      | nil => simp
      | cons c r =>
        have hc : isSign c = true := by simpa using h
        simp [isOffsetChar, hc]
    · exact List.all_eq_true.1 List.all_takeWhile
  · exact .nil

/-- A text is a chain exactly if it is its own leading chain. -/
theorem isChain_iff {t : Text} : IsChain t ↔ leadingChain t = t := by
  refine ⟨fun h => ?_, fun h => h ▸ isChain_leadingChain t⟩
  unfold leadingChain
  split
  · have h' : (t ++ []).takeWhile isOffsetChar = t ++ [].takeWhile isOffsetChar :=
      List.takeWhile_append_of_pos h.all
    simpa using h'
  · cases t with
    | nil => rfl
    | cons c r => have := h.head; simp_all

instance (t : Text) : Decidable (IsChain t) := decidable_of_iff _ isChain_iff.symm

/-- Chains stand one after the other. -/
theorem IsChain.append {a b : Text} (ha : IsChain a) (hb : IsChain b) : IsChain (a ++ b) := by
  induction ha with
  | nil => exact hb
  | cons d digits rest hd _ ih =>
    rw [List.cons_append, List.append_assoc]
    exact .cons d digits (rest ++ b) hd ih

/-! ## Chains at the end of a text -/

/-- What precedes the longest chain that ends `t`. -/
def beforeTrailingChain : Text → Text
  | [] => []
  | c :: r => if IsChain (c :: r) then [] else c :: beforeTrailingChain r

/-- The longest chain that ends `t`. -/
def trailingChain : Text → Text
  | [] => []
  | c :: r => if IsChain (c :: r) then c :: r else trailingChain r

/-- The longest chain that ends a text and what precedes it are the text. -/
theorem beforeTrailingChain_append (t : Text) : beforeTrailingChain t ++ trailingChain t = t := by
  induction t with
  | nil => rfl
  | cons c r ih =>
    unfold beforeTrailingChain trailingChain
    split <;> simp [ih]

/-- The longest chain that ends a text is a chain. -/
theorem isChain_trailingChain (t : Text) : IsChain (trailingChain t) := by
  induction t with
  | nil => exact .nil
  | cons c r ih =>
    unfold trailingChain
    split
    · assumption
    · exact ih

end PatchStack
