import PatchStack.Text.Basic

set_option autoImplicit false

/-!
# Patch names

A patch name is one component of a reference name: free of blanks, control characters,
slashes and the characters that revisions give a meaning to. Two spellings stay reserved for
the stack itself, `@` for its top and the bracketed base token for the commit below it.

## Main definitions

* `PatchStack.NameFault` — the rules a text can break, in the order they are checked.
* `PatchStack.nameFault?` — the first rule that a text breaks.
* `PatchStack.PatchName` — a text that breaks none.

## Main results

* `PatchStack.PatchName.ofText_eq_ok_iff` — a text is read as the name that spells it.
* `PatchStack.PatchName.ofText_eq_error_iff` — it is refused for the first rule it breaks.
-/

namespace PatchStack

/-- The token for the commit below the bottommost patch. -/
def baseToken : Text := ['{', 'b', 'a', 's', 'e', '}']

/-- The token for the topmost applied patch. -/
def topToken : Text := ['@']

/-- A rule of naming that a text breaks. -/
inductive NameFault where
  /-- The text is empty. -/
  | empty
  /-- The text is one of the two reserved tokens. -/
  | reserved (token : Text)
  /-- It contains a slash. -/
  | slash
  /-- It contains a control character. -/
  | control
  /-- It contains a blank. -/
  | blank
  /-- It contains a character with a meaning in revisions. -/
  | forbidden (c : Char)
  /-- It contains two dots in a row. -/
  | dots
  /-- It contains an at sign before an opening brace. -/
  | atBrace
  /-- It begins with a dot. -/
  | leadingDot
  /-- It ends with a dot. -/
  | trailingDot
  /-- It ends like a lock file. -/
  | lockEnding
  deriving DecidableEq, Repr

/-- The rule in words. -/
def NameFault.message : NameFault → String
  | .empty => "patch name may not be empty"
  | .reserved token => token.quoted ++ " is reserved"
  | .slash => "patch name may not contain '/'"
  | .control => "patch name may not contain control characters"
  | .blank => "patch name may not contain whitespace"
  | .forbidden c => "patch name may not contain '" ++ c.toString ++ "'"
  | .dots => "patch name may not contain '..'"
  | .atBrace => "patch name may not contain '@\x7b'"
  | .leadingDot => "patch name may not begin with '.'"
  | .trailingDot => "patch name may not end with '.'"
  | .lockEnding => "patch name may not end with '.lock'"

/-- The characters that revisions give a meaning to. -/
def isReservedChar (c : Char) : Bool := ['~', '^', ':', '?', '*', '[', '\\'].contains c

/-- The rule that a single character breaks. -/
def charFault? (c : Char) : Option NameFault :=
  if Text.isControl c then some .control
  else if Text.isBlank c then some .blank
  else if isReservedChar c then some (.forbidden c)
  else none

/-- The first rule that `raw` breaks. Slashes come before all other characters, those in the
order of the text, and what pairs of characters or the two ends break comes last. -/
def nameFault? (raw : Text) : Option NameFault :=
  if raw = [] then some .empty
  else if raw = topToken ∨ raw = baseToken then some (.reserved raw)
  else if '/' ∈ raw then some .slash
  else match raw.findSome? charFault? with
    | some fault => some fault
    | none =>
      if raw.includes ['.', '.'] then some .dots
      else if raw.includes ['@', '{'] then some .atBrace
      else if raw.head? = some '.' then some .leadingDot
      else if raw.getLast? = some '.' then some .trailingDot
      else if ['.', 'l', 'o', 'c', 'k'].isSuffixOf raw then some .lockEnding
      else none

/-- A patch name: a text that breaks no rule of naming. -/
structure PatchName where
  /-- The spelling of the name. -/
  text : Text
  /-- No rule is broken. -/
  valid : nameFault? text = none
  deriving DecidableEq

namespace PatchName

/-- `raw` as a name, or the first rule that it breaks. -/
def ofText (raw : Text) : Except NameFault PatchName :=
  match h : nameFault? raw with
  | none => .ok ⟨raw, h⟩
  | some fault => .error fault

/-- Is `raw` a name? -/
def isValid (raw : Text) : Bool := (nameFault? raw).isNone

/-- Names are equal if their texts are. -/
@[ext]
theorem ext {a b : PatchName} (h : a.text = b.text) : a = b := by
  cases a; cases b; simp_all

/-- A text is read as the name that spells it, and only if it breaks no rule. -/
theorem ofText_eq_ok_iff {raw : Text} {n : PatchName} : ofText raw = .ok n ↔ n.text = raw := by
  unfold ofText
  split
  · simp only [Except.ok.injEq]
    exact ⟨fun h => h ▸ rfl, fun h => PatchName.ext h.symm⟩
  · rename_i fault h
    simp only [reduceCtorEq, false_iff]
    rintro rfl
    simp [n.valid] at h

/-- A text is refused with the first rule that it breaks. -/
theorem ofText_eq_error_iff {raw : Text} {fault : NameFault} :
    ofText raw = .error fault ↔ nameFault? raw = some fault := by
  unfold ofText
  split <;> simp_all

end PatchName

end PatchStack
