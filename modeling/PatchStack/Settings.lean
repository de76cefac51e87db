import PatchStack.Error
import PatchStack.Json.Basic

set_option autoImplicit false

/-!
# Settings

A configuration is a record of sections. It is laid over the defaults section by section: the
fields of a section that is a record replace the default ones key by key, and a section that is
none replaces the whole of it. Only then the sections are looked at, each where it is needed,
so a broken section harms nobody who does not need it.

## Main definitions

* `PatchStack.Settings` — the sections with their fields.
* `PatchStack.Settings.ofDocument` — the settings that a document gives.
* `PatchStack.Settings.constraint`, `PatchStack.Settings.rangeConstraint` — the constraints.
* `PatchStack.Settings.level` — how much is logged.
-/

namespace PatchStack

/-- The sections of a configuration. -/
abbrev Settings := List (Text × Json)

/-- The contents of a configuration file. -/
inductive ConfigDocument where
  /-- A value. -/
  | data (value : Json)
  /-- A text that spells no value. -/
  | malformed

/-- Why a configuration cannot be used. -/
inductive SettingsFault where
  /-- The file does not exist. -/
  | absent
  /-- The file spells no value. -/
  | malformed
  /-- The value is no record of sections. -/
  | notMapping
  /-- What a key in the section of constraints gives is no constraint. -/
  | badConstraint (key word : Text)
  /-- There is no error for what is wrong: a section is neither a record nor empty, or a value
  cannot be shown. -/
  | breakdown (cause : Breakdown)
  deriving Repr

namespace Settings

/-- The section of constraints. -/
def resolveSection : Text := "resolve".toList

/-- The section of logging. -/
def loggingSection : Text := "logging".toList

/-- The key of the constraint for single patches. -/
def constraintKey : Text := "constraint".toList

/-- The key of the constraint for ranges. -/
def rangeConstraintKey : Text := "range_constraint".toList

/-- The key of the level of logging. -/
def levelKey : Text := "level".toList

/-- The level of logging without a configuration. -/
def defaultLevel : Text := "warning".toList

/-- The settings without a configuration: nothing is restricted. -/
def defaults : Settings :=
  [(resolveSection, .record
      [(constraintKey, .text LocationConstraint.all.word.toList),
        (rangeConstraintKey, .text RangeConstraint.all.word.toList)]),
    (loggingSection, .record [(levelKey, .text defaultLevel)])]

/-- The settings with one section of a configuration laid over them. -/
def overlay (s : Settings) (entry : Text × Json) : Settings :=
  match entry.2, Json.lookup s entry.1 with
  | .record fields, some (.record old) =>
    Json.setField s entry.1
      (.record (fields.foldl (fun fs f => Json.setField fs f.1 f.2) old))
  | value, _ => Json.setField s entry.1 value

/-- The settings that a document gives. An empty one gives the defaults. -/
def ofDocument : ConfigDocument → Except SettingsFault Settings
  | .malformed => .error .malformed
  | .data value =>
    if !value.isTruthy then .ok defaults
    else match value with
      | .record sections => .ok (sections.foldl overlay defaults)
      | _ => .error .notMapping

variable (s : Settings)

/-- The fields of a section; an absent or empty section has none. -/
def fields (name : Text) : Except SettingsFault (List (Text × Json)) :=
  match Json.lookup s name with
  | none => .ok []
  | some (.record fs) => .ok fs
  | some value => if value.isTruthy then .error (.breakdown .badSection) else .ok []

/-- The word by which a value is known. -/
def wordOf (value : Json) : Except SettingsFault Text :=
  value.display.mapError fun fault => .breakdown (.numeral fault)

/-- The constraint that a key of the section of constraints gives, read by `ofWord?`. -/
def constraintAt {α : Type} (ofWord? : String → Option α) (key : Text) :
    Except SettingsFault α := do
  let fs ← s.fields resolveSection
  let word ← wordOf ((Json.lookup fs key).getD .null)
  match ofWord? word.str with
  | some c => .ok c
  | none => .error (.badConstraint key word)

/-- The constraint for single patches. -/
def constraint : Except SettingsFault LocationConstraint :=
  s.constraintAt LocationConstraint.ofWord? constraintKey

/-- The constraint for ranges. -/
def rangeConstraint : Except SettingsFault RangeConstraint :=
  s.constraintAt RangeConstraint.ofWord? rangeConstraintKey

/-! ## Logging -/

/-- The upper case of a letter, as far as it can matter to the name of a level. -/
def levelUpper (c : Char) : Char :=
  if c = '\u0131' then 'I' else if c = '\u017F' then 'S' else c.toUpper

/-- The names of the levels of logging. -/
def levelNames : List (String × Nat) :=
  [("CRITICAL", 50), ("FATAL", 50), ("ERROR", 40), ("WARNING", 30), ("WARN", 30), ("INFO", 20),
    ("DEBUG", 10), ("NOTSET", 0)]

/-- The level of a name. -/
def levelOfName? (name : Text) : Option Nat :=
  (levelNames.find? fun l => l.1.toList == name.map levelUpper).map (·.2)

/-- The level that is used for a name that is not known. -/
def fallbackLevel : Nat := 30

/-- The name of the level that the settings ask for. -/
def levelName (verbose : Bool) : Except SettingsFault Text :=
  if verbose then .ok "debug".toList
  else do
    let fs ← s.fields loggingSection
    match Json.lookup fs levelKey with
    | some value => wordOf value
    | none => .ok defaultLevel

/-- The level that the settings ask for, and the name that is not known, if it is not. -/
def level (verbose : Bool) : Except SettingsFault (Nat × Option Text) := do
  let name ← s.levelName verbose
  match levelOfName? name with
  | some n => return (n, none)
  | none => return (fallbackLevel, some name)

end Settings

end PatchStack
