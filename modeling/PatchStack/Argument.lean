import PatchStack.Json.Basic
import PatchStack.Locator.Position

set_option autoImplicit false

/-!
# Arguments of another kind

What is built by hand rather than read from a text can be given an argument of the wrong kind:
a word that is not in a vocabulary, a negative index, a value that is no text, a limit that
leaves nothing. These mistakes are not errors of resolution, so they have a type of their own.

## Main definitions

* `PatchStack.ArgumentError` — the mistakes, and `PatchStack.ArgumentError.message` their words.
* `PatchStack.Vocabulary` — what a word can be looked up in.
* `PatchStack.known` — a word looked up in a vocabulary.
-/

namespace PatchStack

/-- What a word can be looked up in. -/
inductive Vocabulary where
  /-- The signs of offsets. -/
  | direction
  /-- The groups of a stack. -/
  | group
  /-- The constraints for single patches. -/
  | locationConstraint
  /-- The constraints for ranges. -/
  | rangeConstraint
  deriving DecidableEq, Repr

/-- The word for a vocabulary. -/
def Vocabulary.word : Vocabulary → String
  | .direction => "OffsetKind"
  | .group => "LocationGroup"
  | .locationConstraint => "LocationConstraint"
  | .rangeConstraint => "RangeConstraint"

/-- A mistake in an argument. -/
inductive ArgumentError where
  /-- A word is not in a vocabulary. -/
  | unknownWord (word : Text) (vocabulary : Vocabulary)
  /-- An index is negative. -/
  | negativeIndex
  /-- A value that should be a name is no text but something called `kind`. -/
  | notText (kind : String)
  /-- A limit leaves nothing. -/
  | badLimit (limit : Int)
  deriving DecidableEq, Repr

/-- The mistake in words. -/
def ArgumentError.message : ArgumentError → String
  | .unknownWord word vocabulary => word.inQuotes.str ++ " is not a valid " ++ vocabulary.word
  | .negativeIndex => "absolute patch index may not be negative"
  | .notText kind => "patch name must be a string, not " ++ kind
  | .badLimit limit => "n must be > 0: " ++ (Text.ofInt limit).str

/-- What kind of value it is, in a word. -/
def Json.kind : Json → String
  | .null => "NoneType"
  | .bool _ => "bool"
  | .int _ => "int"
  | .float _ => "float"
  | .text _ => "str"
  | .list _ => "list"
  | .record _ => "dict"

/-- The text that a value is. -/
def Json.asName : Json → Except ArgumentError Text
  | .text t => .ok t
  | j => .error (.notText j.kind)

/-- What `ofWord?` makes of a word, which has to be in the vocabulary. -/
def known {α : Type} (vocabulary : Vocabulary) (ofWord? : String → Option α) (word : Text) :
    Except ArgumentError α :=
  match ofWord? word.str with
  | some a => .ok a
  | none => .error (.unknownWord word vocabulary)

/-- The direction that a word spells. -/
def Direction.ofWord? (w : String) : Option Direction :=
  match w.toList with
  | [c] => Direction.ofSign? c
  | _ => none

/-- The anchor of a patch index. -/
def Anchor.ofIndex (index : Option Int) : Except ArgumentError Anchor :=
  match Anchor.ofIndex? index with
  | some a => .ok a
  | none => .error .negativeIndex

/-- At most `limit` names of the stack that are similar to `name`. -/
def Stack.similarNames (s : Stack) (name : Text) (limit : Int) :
    Except ArgumentError (List Text) :=
  if limit ≤ 0 then .error (.badLimit limit) else .ok (s.suggestions name limit.toNat)

end PatchStack
