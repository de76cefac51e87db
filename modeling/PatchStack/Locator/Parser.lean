import PatchStack.Offset.Chain

set_option autoImplicit false

/-!
# Locators and how they are read

A locator names a place in a stack: an anchor, and offsets from it. The usual anchor is a
patch name; the base, the topmost applied patch and the last visible patch have tokens of
their own, and a locator of offsets alone is anchored at the topmost applied patch.

A locator is read from the front of a text. The tokens are tried first, then names; a name
goes on until a character that cannot stand in one, and is then checked against the rules of
naming as a whole. The offsets after the anchor are as long as they can be.

## Main definitions

* `PatchStack.Anchor` — the five kinds of anchor.
* `PatchStack.Locator` — an anchor with offsets.
* `PatchStack.Anchor.text`, `PatchStack.Locator.text` — their spelling.
* `PatchStack.scanName` — the longest beginning of a text that could be a name.
* `PatchStack.scanAnchor`, `PatchStack.scanLocator` — what begins a text, and what follows.
* `PatchStack.Locator.ofText` — a text read as one locator.
* `PatchStack.scanAnchorAt`, `PatchStack.scanLocatorAt` — what stands at a position of a text, and
  where it ends.
-/

namespace PatchStack

/-! ## Anchors and locators -/

/-- The token for the last visible patch. -/
def lastToken : Text := ['^']

/-- What a locator starts from. -/
inductive Anchor where
  /-- The patch of this name, or what else the text can be read as. -/
  | name (n : PatchName)
  /-- The commit below the bottommost patch. -/
  | base
  /-- The topmost applied patch. -/
  | top
  /-- The last visible patch, or the one so many patches before it. -/
  | belowLast (count : Option Int)
  /-- The patch of this index; without one the topmost applied patch, left unsaid. -/
  | belowTop (index : Option Nat)
  deriving DecidableEq

namespace Anchor

/-- The anchor of a patch index; there is none for a negative one. -/
def ofIndex? : Option Int → Option Anchor
  | none => some (.belowTop none)
  | some (.ofNat i) => some (.belowTop (some i))
  | some (.negSucc _) => none

/-- The spelling of an anchor. -/
def text : Anchor → Text
  | .name n => n.text
  | .base => baseToken
  | .top => topToken
  | .belowLast none => lastToken
  | .belowLast (some count) => lastToken ++ Text.ofInt count
  | .belowTop none => []
  | .belowTop (some index) => Text.ofInt index

/-- Writes an anchor. -/
def write : Anchor → Except NumeralFault Text
  | .belowLast (some count) => (lastToken ++ ·) <$> Text.writeInt count
  | .belowTop (some index) => Text.writeInt index
  | a => .ok a.text

end Anchor

/-- A place in a stack: an anchor with offsets. -/
structure Locator where
  /-- What the locator starts from. -/
  anchor : Anchor
  /-- Where it goes from there. -/
  offsets : OffsetChain
  deriving DecidableEq

namespace Locator

/-- The spelling of a locator. -/
def text (l : Locator) : Text := l.anchor.text ++ l.offsets.text

/-- Writes a locator. -/
def write (l : Locator) : Except NumeralFault Text := (· ++ l.offsets.text) <$> l.anchor.write

/-- The locator with more offsets behind its own. -/
def moved (l : Locator) (offsets : OffsetChain) : Locator := ⟨l.anchor, l.offsets ++ offsets⟩

end Locator


/-! ## Reading from the front -/

/-- After `@` comes nothing, two dots or a character that keeps the sign the token for the top
instead of the beginning of a name. -/
def isTopEnd : Text → Bool
  | [] => true
  | '.' :: '.' :: _ => true
  | c :: _ => ['+', '~', '^', ':', '{'].contains c

/-- The characters that the scanner takes into no name. It keeps a list of its own and does not ask
the rules of naming. -/
def isStopChar (c : Char) : Bool := ['~', '^', ':', '?', '*', '[', '\\'].contains c

/-- Does a name end before the character `c` with `rest` after it? -/
def isNameEnd (c : Char) (rest : Text) : Bool :=
  isStopChar c || Text.isBlank c || Text.isControl c ||
    (c == '.' && rest.head? == some '.') || (c == '@' && rest.head? == some '{')

/-- The longest beginning of a text that could be a name, and what follows it. -/
def scanName : Text → Text × Text
  | [] => ([], [])
  | c :: rest =>
    if isNameEnd c rest then ([], c :: rest)
    else (c :: (scanName rest).1, (scanName rest).2)

/-- The digits that begin `t`, read as a number, and what follows them. -/
def scanNat? (t : Text) : Option (Except NumeralFault Nat × Text) :=
  if t.takeWhile Char.isDigit = [] then none
  else some (Text.readNat (t.takeWhile Char.isDigit), t.dropWhile Char.isDigit)

/-- The number with an optional minus sign that begins `t`, and what follows it. -/
def scanInt? : Text → Option (Except NumeralFault Int × Text)
  | '-' :: t => (scanNat? t).map fun p => ((fun n => -(n : Int)) <$> p.1, p.2)
  | t => (scanNat? t).map fun p => ((fun n => (n : Int)) <$> p.1, p.2)

/-- The name that begins `t`, as an anchor, and what follows it. -/
def scanNameAnchor (t : Text) : Except SyntaxFault (Anchor × Text) :=
  if (scanName t).1 = [] then .error .noAnchor
  else match PatchName.ofText (scanName t).1 with
    | .ok n => .ok (.name n, (scanName t).2)
    | .error fault => .error (.name fault)

/-- The anchor after `^`: its count, if there is one. -/
def scanLastAnchor (t : Text) : Except NumeralFault (Anchor × Text) :=
  match scanInt? t with
  | some (count, rest) => (fun k => (.belowLast (some k), rest)) <$> count
  | none => .ok (.belowLast none, t)

/-- The anchor that begins `t`, and what follows it. Offsets alone have an anchor that is left
unsaid. -/
def scanAnchor (t : Text) : Except (ReadingFault SyntaxFault) (Anchor × Text) :=
  if baseToken.isPrefixOf t then .ok (.base, t.drop baseToken.length)
  else match t with
    | [] => .error (.malformed .noAnchor)
    | c :: rest =>
      if c = '@' ∧ isTopEnd rest then .ok (.top, rest)
      else if c = '^' then (scanLastAnchor rest).mapError .numeral
      else if isSign c then .ok (.belowTop none, t)
      else (scanNameAnchor t).mapError .malformed

/-- The locator that begins `t`, and what follows it. -/
def scanLocator (t : Text) : Except (ReadingFault SyntaxFault) (Locator × Text) :=
  match scanAnchor t with
  | .ok (anchor, rest) => .ok (⟨anchor, OffsetChain.leading rest⟩, afterChain rest)
  | .error fault => .error fault

/-- What is wrong with a text, as an error about the whole text that was read. -/
def ReadingFault.about (kind : String) (t : Text) :
    ReadingFault SyntaxFault → ReadingFault SyntaxError
  | .malformed fault => .malformed ⟨kind, t, fault⟩
  | .numeral fault => .numeral fault

/-- What a locator is called in errors. -/
def locatorKind : String := "patch locator"

/-- Reads `t` as one locator, without asking any stack. -/
def Locator.ofText (t : Text) : Reading Locator :=
  if t = [] then .error (.malformed ⟨locatorKind, t, .empty "locator"⟩)
  else match scanLocator t with
    | .ok (l, rest) =>
      if rest = [] then .ok l else .error (.malformed ⟨locatorKind, t, .unexpected rest⟩)
    | .error fault => .error (fault.about locatorKind t)

/-! ## Positions

A locator can also begin inside a text. The scanner then looks at the characters from a position on
and at the length of the text, and cuts nothing off before it knows where the parts end. -/

/-- Does `part` stand at a position of `t`? -/
def standsAt (part t : Text) (position : Nat) : Bool := part.isPrefixOf (t.drop position)

/-- Does the `@` before position `following` of `t` stay the token for the top? -/
def isTopEndAt (t : Text) (following : Nat) : Bool :=
  following == t.length || t[following]?.any ['+', '~', '^', ':', '{'].contains ||
    standsAt ['.', '.'] t following

/-- The position after the longest text from a position of `t` on that could be a name. -/
def nameEnd (t : Text) (position : Nat) : Nat :=
  if h : position < t.length then
    if isStopChar t[position] || Text.isBlank t[position] || Text.isControl t[position] then
      position
    else if standsAt ['.', '.'] t position || standsAt ['@', '{'] t position then position
    else nameEnd t (position + 1)
  else position
termination_by t.length - position

/-- The name that begins at a position of `t`, as an anchor, and the position after it. -/
def scanNameAnchorAt (t : Text) (position : Nat) : Except SyntaxFault (Anchor × Nat) :=
  let raw := t.extract position (nameEnd t position)
  if raw = [] then .error .noAnchor
  else match PatchName.ofText raw with
    | .ok n => .ok (.name n, nameEnd t position)
    | .error fault => .error (.name fault)

/-- The anchor whose `^` stands before a position of `t`, and the position after its count. -/
def scanLastAnchorAt (t : Text) (position : Nat) : Except NumeralFault (Anchor × Nat) :=
  match scanInt? (t.drop position) with
  | some (count, rest) => (fun k => (.belowLast (some k), t.length - rest.length)) <$> count
  | none => .ok (.belowLast none, position)

/-- The anchor that begins at a position of `t`, and the position after it. -/
def scanAnchorAt (t : Text) (position : Nat) :
    Except (ReadingFault SyntaxFault) (Anchor × Nat) :=
  if standsAt baseToken t position then .ok (.base, position + baseToken.length)
  else if standsAt topToken t position ∧ isTopEndAt t (position + 1) then .ok (.top, position + 1)
  else if standsAt lastToken t position then
    (scanLastAnchorAt t (position + 1)).mapError .numeral
  else if t[position]?.any isSign then .ok (.belowTop none, position)
  else (scanNameAnchorAt t position).mapError .malformed

/-- The locator that begins at a position of `t`, and the position after it. -/
def scanLocatorAt (kind : String) (t : Text) (position : Nat) : Reading (Locator × Nat) :=
  match scanAnchorAt t position with
  | .ok (anchor, start) =>
    match OffsetChain.ofText (t.extract start (chainEnd t start)) with
    | .ok offsets => .ok (⟨anchor, offsets⟩, chainEnd t start)
    | .error e => .error (.malformed e)
  | .error fault => .error (fault.about kind t)

end PatchStack
