import PatchStack.Locator.Parser
import PatchStack.Stack.Basic
import PatchStack.Text.Similarity

set_option autoImplicit false

/-!
# Where a locator leads

An index, an abbreviated commit id and a name followed by plus offsets all look like names.
What a name stands for is therefore decided by a stack. If a patch has the name, it is that
patch. Otherwise the offsets that end the text are split off, and the stem before them is
tried as a patch name, as an index and as the beginning of a commit id, in this order.

A position is an index into the patches of a stack. Minus one is the base, and what lies
below it are the ancestors of the base commit, which only revisions can ask for. Every step of
a locator's offsets has to stay inside the stack, so that a chain cannot leave it and come
back.

## Main definitions

* `PatchStack.Stack.suggestions` — the names most similar to one that does not exist.
* `PatchStack.Stack.withCommitPrefix` — the patches whose commit ids begin with given digits.
* `PatchStack.Locator.disambiguate` — a locator whose anchor no longer depends on a reading.
* `PatchStack.Locator.anchorIndex` — the index of a locator's anchor.
* `PatchStack.walk` — the steps of a chain, each of them checked.
* `PatchStack.Locator.position` — the index that a locator leads to.
* `PatchStack.Locator.resolve` — the patch that a locator leads to, under a constraint.
-/

namespace PatchStack

/-! ## Reading a name against a stack -/

/-- How many names a message suggests. -/
def suggestionLimit : Nat := 3

namespace Stack

variable (s : Stack)

/-- At most `limit` names of the stack that are similar to `name`, the most similar first. -/
def suggestions (name : Text) (limit : Nat) : List Text :=
  Text.closest name (s.patches.map (·.text)) limit

/-- The patches, in stack order, whose recorded commit ids begin with `start`, whatever the
case of its letters. -/
def withCommitPrefix (start : Text) : List PatchName :=
  s.patches.filter fun n => start.lower.isPrefixOf ((s.commitOf n.text).getD []).lower

end Stack

/-- Is the text an index: one digit or more? -/
def isIndex (t : Text) : Bool := !t.isEmpty && t.all Char.isDigit

/-- Is the character a hexadecimal digit? -/
def isHexDigit (c : Char) : Bool :=
  c.isDigit || ('a' ≤ c && c ≤ 'f') || ('A' ≤ c && c ≤ 'F')

/-- Can the text abbreviate a commit id: four to forty hexadecimal digits? -/
def isCommitPrefix (t : Text) : Bool := 4 ≤ t.length && t.length ≤ 40 && t.all isHexDigit

/-- The anchor that `stem`, the part of `name` before its offsets, stands for in a stack. -/
def readStem (s : Stack) (name stem : Text) : Except Error Anchor :=
  if stem = [] then .ok (.belowTop none)
  else match s.find? stem with
    | some n => .ok (.name n)
    | none =>
      if isIndex stem then
        (fun i => .belowTop (some i)) <$> (Text.readNat stem).mapError Error.ofNumeral
      else match if isCommitPrefix stem then s.withCommitPrefix stem else [] with
        | [] => .error (.unknownPatch name (s.suggestions name suggestionLimit))
        | [n] => .ok (.name n)
        | several => .error (.ambiguousPrefix stem (several.map (·.text)))

namespace Locator

/-- An equivalent locator whose anchor stands for itself. A name of the stack is kept, and all
anchors other than names; the offsets split off a name come before the locator's own. -/
def disambiguate (l : Locator) (s : Stack) : Except Error Locator :=
  match l.anchor with
  | .name n =>
    if s.contains n.text then .ok l
    else match readStem s n.text (beforeTrailingChain n.text) with
      | .ok anchor => .ok ⟨anchor, OffsetChain.trailing n.text ++ l.offsets⟩
      | .error e => .error e
  | _ => .ok l

end Locator


/-! ## Positions -/

/-- May a position below the base be reached? -/
inductive Floor where
  /-- The base is the lowest position. -/
  | base
  /-- Every ancestor of the base is a position. -/
  | ancestors
  deriving DecidableEq, Repr

/-- Is `i` a position of a stack with `total` patches? -/
def Floor.admits (floor : Floor) (total : Nat) (i : Int) : Bool :=
  decide (i < total) && (floor == .ancestors || decide (-1 ≤ i))

/-- Takes the steps of a chain from `start` one by one, each read only when it is taken. The first
position outside of the stack is an error, reported with the text of the locator. -/
def walk (floor : Floor) (locator : Text) (total : Nat) (start : Int) :
    List OffsetStep → Except Error Int
  | [] => .ok start
  | step :: steps => do
    let atom ← step.read.mapError Error.ofNumeral
    if floor.admits total (start + atom.delta) then
      walk floor locator total (start + atom.delta) steps
    else .error (.outside locator (start + atom.delta) total)

namespace Locator

/-- The index of an anchor. A name has to be one of the stack. -/
def anchorIndex (a : Anchor) (s : Stack) : Except Error Int :=
  match a with
  | .name n => (s.indexOf n.text).map Int.ofNat
  | .base => .ok (-1)
  | .top => .ok s.topIndex
  | .belowLast count => .ok ((s.visible.length : Int) - 1 - count.getD 0)
  | .belowTop none => .ok s.topIndex
  | .belowTop (some index) => .ok (index : Int)

/-- The index that the locator leads to. Above the floor of the base, the base itself is no
place to stay: its offsets have to lead upwards. Errors show the locator as it was given, and it is
written before anything else is done. -/
def position (floor : Floor) (l : Locator) (s : Stack) : Except Error Int := do
  let text ← l.write.mapError Error.ofNumeral
  let located ← l.disambiguate s
  let start ← anchorIndex located.anchor s
  if !floor.admits s.total start then
    .error (.outside text start s.total)
  else if located.anchor = .base ∧ floor = .base then do
    let net ← located.offsets.net.mapError Error.ofNumeral
    if net ≤ 0 then .error (.invalidOffset text .baseWithoutOffset)
    else walk floor text s.total start located.offsets.steps
  else
    walk floor text s.total start located.offsets.steps

/-- The patch that the locator leads to, if the constraint allows its group. -/
def resolve (l : Locator) (s : Stack) (c : LocationConstraint) : Except Error PatchName := do
  let index ← l.position .base s
  if index < 0 then .error (.invalidOffset l.text .reachesBase)
  else do
    let n ← s.patchAt index
    let group ← s.groupAt index
    if c.allows group then .ok n else .error (.constraintViolation n.text group c.groups)

end Locator


end PatchStack
