import PatchStack.Json.Basic

set_option autoImplicit false

/-!
# Reading JSON

Text is cut into punctuation, texts and other atoms. Besides the numbers of the standard,
`NaN` and the two infinities are read. Control characters cannot stand in a text, and an
escaped surrogate only in a pair. A value is put together from tokens, one by one, with the
containers that are still open kept in a list. Bounds on how deep containers may be nested and on
how many digits an integer may have are part of the format.

## Main definitions

* `PatchStack.Json.Token`, `PatchStack.Json.tokens?` — the tokens of a text.
* `PatchStack.Json.Reader` — how far a value has been read.
* `PatchStack.Json.Reader.step?` — one token more.
* `PatchStack.Json.ofText?` — the value that a text spells.
-/

namespace PatchStack.Json

/-! ## Tokens -/

/-- A token of JSON. -/
inductive Token where
  /-- An opening bracket. -/
  | openList
  /-- A closing bracket. -/
  | closeList
  /-- An opening brace. -/
  | openRecord
  /-- A closing brace. -/
  | closeRecord
  /-- A colon. -/
  | colon
  /-- A comma. -/
  | comma
  /-- A text. -/
  | text (t : Text)
  /-- Any other value that is no container. -/
  | atom (value : Json)

/-- The blanks between tokens. -/
def isBlank (c : Char) : Bool := c == ' ' || c == '\t' || c == '\n' || c == '\r'

/-- The token of a character of punctuation. -/
def punctuation? (c : Char) : Option Token :=
  match c with
  | '[' => some .openList
  | ']' => some .closeList
  | '{' => some .openRecord
  | '}' => some .closeRecord
  | ':' => some .colon
  | ',' => some .comma
  | _ => none

/-! ## Texts -/

/-- The value of a hexadecimal digit. -/
def hexValue? (c : Char) : Option Nat :=
  if c.isDigit then some (c.toNat - 48)
  else if 'a' ≤ c && c ≤ 'f' then some (c.toNat - 87)
  else if 'A' ≤ c && c ≤ 'F' then some (c.toNat - 55)
  else none

/-- The value of four hexadecimal digits, and what follows them. -/
def scanHex? : Text → Option (Nat × Text)
  | a :: b :: c :: d :: rest => do
    let a ← hexValue? a
    let b ← hexValue? b
    let c ← hexValue? c
    let d ← hexValue? d
    return (((a * 16 + b) * 16 + c) * 16 + d, rest)
  | _ => none

/-- The character of an escaped code, and what follows it. The first half of a surrogate pair
needs the second one behind it. -/
def scanCode? (t : Text) : Option (Char × Text) := do
  let (n, rest) ← scanHex? t
  if 0xD800 ≤ n ∧ n ≤ 0xDBFF then
    match rest with
    | '\\' :: 'u' :: rest => do
      let (m, rest) ← scanHex? rest
      if 0xDC00 ≤ m ∧ m ≤ 0xDFFF then
        return (Char.ofNat (0x10000 + (n - 0xD800) * 0x400 + (m - 0xDC00)), rest)
      else none
    | _ => none
  else if 0xDC00 ≤ n ∧ n ≤ 0xDFFF then none
  else return (Char.ofNat n, rest)

/-- The character that an escape stands for, after its backslash, and what follows it. -/
def scanEscape? : Text → Option (Char × Text)
  | '"' :: rest => some ('"', rest)
  | '\\' :: rest => some ('\\', rest)
  | '/' :: rest => some ('/', rest)
  | 'b' :: rest => some ('\x08', rest)
  | 'f' :: rest => some ('\x0c', rest)
  | 'n' :: rest => some ('\n', rest)
  | 'r' :: rest => some ('\r', rest)
  | 't' :: rest => some ('\t', rest)
  | 'u' :: rest => scanCode? rest
  | _ => none

/-- The rest of a text after its opening quote, and what follows the closing one. Each round
reads a character, so the length of the text is enough of them. -/
def scanText? : Nat → Text → Option (Text × Text)
  | 0, _ => none
  | _ + 1, [] => none
  | rounds + 1, c :: rest =>
    if c = '"' then some ([], rest)
    else if c = '\\' then do
      let (d, rest) ← scanEscape? rest
      let (t, rest) ← scanText? rounds rest
      return (d :: t, rest)
    else if c.toNat < 0x20 then none
    else do
      let (t, rest) ← scanText? rounds rest
      return (c :: t, rest)

/-! ## Numbers and words -/

/-- The integer part of a number, and what follows it: a zero stands alone. -/
def scanWhole? (t : Text) : Option (Text × Text) :=
  match t with
  | '0' :: rest => some (['0'], rest)
  | _ =>
    let digits := t.takeWhile Char.isDigit
    if digits.isEmpty then none else some (digits, t.dropWhile Char.isDigit)

/-- The digits after a point, none without a point, and what follows them. -/
def scanFraction? (t : Text) : Option (Option Text × Text) :=
  match t with
  | '.' :: rest =>
    let digits := rest.takeWhile Char.isDigit
    if digits.isEmpty then none else some (some digits, rest.dropWhile Char.isDigit)
  | _ => some (none, t)

/-- The exponent after a power sign, none without one, and what follows it. -/
def scanPower? (t : Text) : Option (Option Int × Text) :=
  match t with
  | c :: rest =>
    if c = 'e' ∨ c = 'E' then
      let (negative, rest) := match rest with
        | '-' :: r => (true, r)
        | '+' :: r => (false, r)
        | r => (false, r)
      let digits := rest.takeWhile Char.isDigit
      if digits.isEmpty then none
      else
        let size : Int := Text.digitsValue digits
        some (some (if negative then -size else size), rest.dropWhile Char.isDigit)
    else some (none, t)
  | [] => some (none, [])

/-- The number after an optional minus sign, and what follows it. -/
def scanUnsigned? (negative : Bool) (t : Text) : Option (Json × Text) := do
  let (whole, rest) ← scanWhole? t
  let (fraction, rest) ← scanFraction? rest
  let (power, rest) ← scanPower? rest
  if fraction.isNone ∧ power.isNone then
    let n : Int := Text.digitsValue whole
    return (int (if negative then -n else n), rest)
  else
    let fraction := fraction.getD []
    let digits := Text.digitsValue (whole ++ fraction)
    return (float (.ofDecimal negative digits (power.getD 0 - fraction.length)), rest)

/-- The words for values, and the values. -/
def words : List (Text × Json) :=
  [(['n', 'u', 'l', 'l'], null),
    (['t', 'r', 'u', 'e'], bool true),
    (['f', 'a', 'l', 's', 'e'], bool false),
    (['N', 'a', 'N'], float .nan),
    (['I', 'n', 'f', 'i', 'n', 'i', 't', 'y'], float (.infinite false)),
    (['-', 'I', 'n', 'f', 'i', 'n', 'i', 't', 'y'], float (.infinite true))]

/-- The word or number that begins a text, and what follows it. -/
def scanAtom? (t : Text) : Option (Json × Text) :=
  match words.find? fun w => w.1.isPrefixOf t with
  | some (w, value) => some (value, t.drop w.length)
  | none =>
    match t with
    | '-' :: rest => scanUnsigned? true rest
    | _ => scanUnsigned? false t

/-- The tokens of a text. Each round reads a character at least. -/
def tokensIn? : Nat → Text → Option (List Token)
  | _, [] => some []
  | 0, _ => none
  | rounds + 1, c :: rest =>
    if isBlank c then tokensIn? rounds rest
    else match punctuation? c with
      | some token => (token :: ·) <$> tokensIn? rounds rest
      | none =>
        if c = '"' then do
          let (t, rest) ← scanText? (rest.length + 1) rest
          (.text t :: ·) <$> tokensIn? rounds rest
        else do
          let (value, rest) ← scanAtom? (c :: rest)
          (.atom value :: ·) <$> tokensIn? rounds rest

/-- The tokens of a text, if it consists of tokens. -/
def tokens? (t : Text) : Option (List Token) := tokensIn? t.length t

/-- Does the token, if it is an integer, have at most so many digits? -/
def Token.isShort (digits : Nat) : Token → Bool
  | .atom (.int n) => Text.digitCount n ≤ digits
  | _ => true

/-! ## Values -/

/-- A container that is still open, with what has been read of it, the latest first. -/
inductive Frame where
  /-- A list. -/
  | list (items : List Json)
  /-- A record, and the key whose value is being read. -/
  | record (fields : List (Text × Json)) (key : Text)

/-- What may come next. -/
inductive Expected where
  /-- A value. -/
  | value
  /-- A value or the end of the list, right after its beginning. -/
  | firstItem
  /-- A key or the end of the record, right after its beginning. -/
  | firstKey
  /-- A key, after a comma. -/
  | key
  /-- A colon, after a key. -/
  | colon
  /-- A comma or the end of the container. -/
  | separator
  /-- Nothing: the value is complete. -/
  | nothing (value : Json)

/-- How far a value has been read: the open containers, innermost first, and what comes next. -/
structure Reader where
  /-- The open containers. -/
  frames : List Frame
  /-- What may come next. -/
  expected : Expected

namespace Reader

/-- The reader after a complete value. -/
def push (frames : List Frame) (value : Json) : Reader :=
  match frames with
  | [] => ⟨[], .nothing value⟩
  | .list items :: outer => ⟨.list (value :: items) :: outer, .separator⟩
  | .record fields key :: outer => ⟨.record ((key, value) :: fields) [] :: outer, .separator⟩

/-- The reader after a token that begins a value. -/
def beginValue? (frames : List Frame) : Token → Option Reader
  | .text t => some (push frames (.text t))
  | .atom value => some (push frames value)
  | .openList => some ⟨.list [] :: frames, .firstItem⟩
  | .openRecord => some ⟨.record [] [] :: frames, .firstKey⟩
  | _ => none

/-- The reader after a token where a key has to come. -/
def readKey? (frames : List Frame) : Token → Option Reader
  | .text key =>
    match frames with
    | .record fields _ :: outer => some ⟨.record fields key :: outer, .colon⟩
    | _ => none
  | _ => none

/-- The reader after a token where the innermost container may go on or end. -/
def readSeparator? (frames : List Frame) (token : Token) : Option Reader :=
  match frames, token with
  | .list _ :: _, .comma => some ⟨frames, .value⟩
  | .list items :: outer, .closeList => some (push outer (.list items.reverse))
  | .record _ _ :: _, .comma => some ⟨frames, .key⟩
  | .record fields _ :: outer, .closeRecord => some (push outer (.record fields.reverse))
  | _, _ => none

/-- One token more. Nothing can be put into containers nested deeper than `depth`. -/
def step? (depth : Nat) (r : Reader) (token : Token) : Option Reader :=
  let inner := if depth < r.frames.length then none else some r.frames
  match r.expected, token with
  | .firstItem, .closeList | .firstKey, .closeRecord => readSeparator? r.frames token
  | .value, _ | .firstItem, _ => inner.bind fun frames => beginValue? frames token
  | .key, _ | .firstKey, _ => inner.bind fun frames => readKey? frames token
  | .colon, .colon => some ⟨r.frames, .value⟩
  | .colon, _ => none
  | .separator, _ => readSeparator? r.frames token
  | .nothing _, _ => none

end Reader

/-- The value that a text spells, with containers nested at most `depth` deep and integers of at
most so many digits. -/
def ofText? (depth digits : Nat) (t : Text) : Option Json := do
  let tokens ← tokens? t
  guard (tokens.all (Token.isShort digits))
  let r ← tokens.foldlM (Reader.step? depth) ⟨[], .value⟩
  match r.expected with
  | .nothing value => some value
  | _ => none

end PatchStack.Json
