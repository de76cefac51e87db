set_option autoImplicit false

/-!
# Text

Everything a user types, every patch name and every commit id is a list of characters.
This file fixes that choice and holds the few ways of cutting text apart that the rest of
the library shares. Blank characters can neither stand in a name nor survive at the ends of a
trimmed text.

## Main definitions

* `PatchStack.Text` — text; lengths and positions count code points.
* `PatchStack.Text.includes` — does one text occur in another?
* `PatchStack.Text.cut?` — the two sides of the first occurrence of a character.
* `PatchStack.Text.cutDots?` — the two sides of the first `..`.
* `PatchStack.Text.isBlank`, `PatchStack.Text.isControl` — blank and control characters.
* `PatchStack.Text.trim` — text without the blanks at its two ends.

## Main results

* `PatchStack.Text.includes_iff` — it does exactly if it is an infix.
* `PatchStack.Text.cut?_eq_some_iff` — a cut is at the first occurrence and loses nothing.
* `PatchStack.Text.eq_of_cutDots?` — a cut at `..` loses nothing.
-/

namespace PatchStack

/-- Text is a list of characters, so lengths and positions count code points. -/
abbrev Text := List Char

namespace Text

/-- The text as a string, for output. -/
def str (t : Text) : String := String.ofList t

/-- The text between backquotes, as messages show what they are about. -/
def quoted (t : Text) : String := "`" ++ t.str ++ "`"

/-- The ASCII letters in lower case, every other character as it is. -/
def lower (t : Text) : Text := t.map Char.toLower

/-- The texts one after the other with `separator` between neighbours. -/
def join (separator : Text) (parts : List Text) : Text := (parts.intersperse separator).flatten

/-- Does `part` occur in `t`, its characters next to each other? -/
def includes : Text → Text → Bool
  | [], part => part.isEmpty
  | c :: rest, part => part.isPrefixOf (c :: rest) || includes rest part

/-- Does `a` come before `b`, or are they equal, in the order of code points? -/
def precedes : Text → Text → Bool
  | [], _ => true
  | _ :: _, [] => false
  | c :: a, d :: b => c < d || (c == d && precedes a b)

/-- The text before and after the first `c`, if there is one. -/
def cut? (c : Char) : Text → Option (Text × Text)
  | [] => none
  | d :: rest => if d = c then some ([], rest) else (cut? c rest).map fun p => (d :: p.1, p.2)

/-- The text before and after the first `..`, if there is one. -/
def cutDots? : Text → Option (Text × Text)
  | [] => none
  | '.' :: '.' :: rest => some ([], rest)
  | c :: rest => (cutDots? rest).map fun p => (c :: p.1, p.2)

/-! ## Blanks and control characters

Blank characters are those of the Unicode standard whose bidirectional class is a space or a
separator, or whose category is a space separator: twenty-nine characters, listed here in full. -/

/-- The blank characters of Unicode. -/
def isBlank (c : Char) : Bool :=
  let n := c.toNat
  (0x09 ≤ n && n ≤ 0x0D) || (0x1C ≤ n && n ≤ 0x20) || n == 0x85 || n == 0xA0 || n == 0x1680 ||
    (0x2000 ≤ n && n ≤ 0x200A) || n == 0x2028 || n == 0x2029 || n == 0x202F || n == 0x205F ||
    n == 0x3000

/-- The control characters of ASCII. -/
def isControl (c : Char) : Bool := c.toNat < 0x20 || c.toNat == 0x7F

/-- `t` without the characters of `p` at its front and at its back. -/
def trimBy (p : Char → Bool) (t : Text) : Text :=
  ((t.dropWhile p).reverse.dropWhile p).reverse

/-- `t` without the blanks at its front and at its back. -/
def trim (t : Text) : Text := trimBy isBlank t

/-! ## Parts of a text -/

/-- A text occurs in another one exactly if it is an infix of it. -/
theorem includes_iff {t part : Text} : includes t part = true ↔ part <:+: t := by
  induction t with
  | nil => simp [includes]
  | cons c r ih => simp [includes, ih, List.infix_cons_iff]

/-- A cut is at the first occurrence: what stands before it is free of the character, and the
two sides with the character between them are the whole text.

**Proof sketch.** By induction on the text, whose first character is the one sought or belongs to
what precedes it. -/
theorem cut?_eq_some_iff {c : Char} {t a b : Text} :
    cut? c t = some (a, b) ↔ c ∉ a ∧ t = a ++ c :: b := by
  induction t generalizing a b with
  | nil => simp [cut?]
  | cons d r ih =>
    by_cases h : d = c
    · subst h
      cases a <;> simp +contextual [cut?, eq_comm]
    · simp only [cut?, h, if_false, Option.map_eq_some_iff, Prod.exists, ih, Prod.mk.injEq]
      constructor
      · rintro ⟨a', b', ⟨hc, rfl⟩, rfl, rfl⟩
        exact ⟨by simp [hc, Ne.symm h], rfl⟩
      · rintro ⟨hc, ht⟩
        cases a with
        | nil => simp_all
        | cons e a' => simp_all

/-- No cut is found only where the character does not occur. -/
theorem cut?_eq_none_iff {c : Char} {t : Text} : cut? c t = none ↔ c ∉ t := by
  induction t with
  | nil => simp [cut?]
  | cons d r ih =>
    by_cases h : d = c
    · simp [cut?, h]
    · simp [cut?, h, ih, Ne.symm h]

/-- The two sides of a cut at `..`, with the dots between them, are the whole text. -/
theorem eq_of_cutDots? {t a b : Text} (h : cutDots? t = some (a, b)) :
    t = a ++ '.' :: '.' :: b := by
  fun_induction cutDots? t generalizing a b with
  | case1 => simp at h
  | case2 rest => simp_all
  | case3 c rest _ ih =>
    obtain ⟨⟨a', b'⟩, h', h''⟩ := Option.map_eq_some_iff.1 h
    simp only [Prod.mk.injEq] at h''
    obtain ⟨rfl, rfl⟩ := h''
    simp [ih h']

end Text

end PatchStack
