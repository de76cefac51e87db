import PatchStack.Number.Binary64
import PatchStack.Text.Numeral
import PatchStack.Text.Quoted

set_option autoImplicit false

/-!
# JSON values

Documents and configurations are JSON values. Integers are unbounded and are kept apart from
other numbers. The fields of a record keep their order, and a repeated key is kept too: which
of its values counts is for the reader of the record to say, and nearly always it is the last.

## Main definitions

* `PatchStack.Json` — JSON values.
* `PatchStack.Json.field?` — the value of a key, the last one if the key is repeated.
* `PatchStack.Json.isTruthy` — does a value count as present?
* `PatchStack.Json.shown`, `PatchStack.Json.display` — a value inside of another one, and a value
  on its own.
-/

namespace PatchStack

/-- A JSON value. -/
inductive Json where
  /-- No value. -/
  | null
  /-- A truth value. -/
  | bool (b : Bool)
  /-- A number written without fraction and power. -/
  | int (n : Int)
  /-- Any other number. -/
  | float (x : Binary64)
  /-- A text. -/
  | text (t : Text)
  /-- A list. -/
  | list (items : List Json)
  /-- A record: keys with their values. -/
  | record (fields : List (Text × Json))
  deriving Repr

namespace Json

/-- The value of a key among fields: that of its last occurrence. -/
def lookup (fields : List (Text × Json)) (key : Text) : Option Json :=
  (fields.reverse.find? fun f => f.1 == key).map (·.2)

/-- The value of a key of a record. -/
def field? (j : Json) (key : Text) : Option Json :=
  match j with
  | record fields => lookup fields key
  | _ => none

/-- Does the value count as present: is it none of nothing, false, zero and empty? -/
def isTruthy : Json → Bool
  | null => false
  | bool b => b
  | int n => n != 0
  | float x => !x.isZero
  | text t => !t.isEmpty
  | list items => !items.isEmpty
  | record fields => !fields.isEmpty

/-- The fields with a key set to a value: in its place if the key is there, else at the end. -/
def setField (fields : List (Text × Json)) (key : Text) (value : Json) : List (Text × Json) :=
  if fields.any (·.1 == key) then
    fields.map fun f => if f.1 == key then (key, value) else f
  else fields ++ [(key, value)]

/-! ## Showing values

How a value of a configuration is spelled in a message and compared with the words that an option
knows. A text on its own is spelled as it is; inside of a list or a record it is quoted. An integer
of too many digits cannot be shown, and no value that holds one. -/

mutual

/-- A value inside of another one. -/
def shown : Json → Except NumeralFault Text
  | null => .ok "None".toList
  | bool true => .ok "True".toList
  | bool false => .ok "False".toList
  | int n => Text.writeInt n
  | float x => .ok x.text
  | text t => .ok t.inQuotes
  | list items => do return '[' :: (← shownItems items) ++ [']']
  | record fields => do return '{' :: (← shownFields fields) ++ ['}']

/-- The items of a list, with commas between them. -/
def shownItems : List Json → Except NumeralFault Text
  | [] => .ok []
  | [item] => shown item
  | item :: rest => do return (← shown item) ++ ',' :: ' ' :: (← shownItems rest)

/-- The fields of a record, with commas between them. -/
def shownFields : List (Text × Json) → Except NumeralFault Text
  | [] => .ok []
  | [(key, value)] => do return key.inQuotes ++ ':' :: ' ' :: (← shown value)
  | (key, value) :: rest => do
    return key.inQuotes ++ ':' :: ' ' :: (← shown value) ++ ',' :: ' ' :: (← shownFields rest)

end

/-- A value on its own. -/
def display : Json → Except NumeralFault Text
  | text t => .ok t
  | value => shown value

end Json

end PatchStack
