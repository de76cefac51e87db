import PatchStack.Proofs.ArgumentReading
import PatchStack.Proofs.Endings

set_option autoImplicit false

/-!
# Constraints by option

A command that is given a constraint by an option does not look at the section of constraints.
Whatever a configuration says there, the run is the same, and it is the run that there would be
without the option if the section gave that constraint.

## Main definitions

* `PatchStack.Settings.AgreeOutside` — two lists of sections differ in that of constraints only.
* `PatchStack.Surroundings.AgreesWith` — so do all configuration files.
* `PatchStack.CommandName.Takes` — the constraints that a command takes, with the key for them.
* `PatchStack.GivesConstraint`, `PatchStack.OmitsConstraint` — arguments that are read with the
  option, and the same ones without it.
* `PatchStack.InsertsConstraint` — the option among the other arguments of a command.
* `PatchStack.Invocation.Constrains` — a command with a constraint, and the same one without it.
* `PatchStack.Surroundings.SetsConstraint` — a configuration that sets the constraint.

## Main results

* `PatchStack.Surroundings.AgreesWith.settings_cases` — the settings of both runs differ in the
  section of constraints only.
* `PatchStack.InsertsConstraint.gives_and_omits` — an option that is inserted is read as such.
* `PatchStack.Invocation.ofArguments?_without`, `PatchStack.Invocation.Constrains.run_eq` — the
  command without the option, and its run.
* `PatchStack.constraint_option_overrides` — both together.
-/

namespace PatchStack

open Settings

/-! ## Configurations that agree -/

/-- The sections are the same, but for that of constraints. -/
def Settings.AgreeOutside (sections sections' : List (Text × Json)) : Prop :=
  ∀ name ≠ resolveSection, sections.filter (·.1 == name) = sections'.filter (·.1 == name)

/-- The documents are the same, or records that are the same but for the section of constraints. -/
inductive ConfigDocument.AgreesWith : ConfigDocument → ConfigDocument → Prop where
  /-- They are the same. -/
  | same (d : ConfigDocument) : AgreesWith d d
  /-- They are such records. -/
  | sections {sections sections' : List (Text × Json)} (h : AgreeOutside sections sections') :
      AgreesWith (.data (.record sections)) (.data (.record sections'))

/-- The surroundings are the same, but for the section of constraints in configuration files. -/
structure Surroundings.AgreesWith (w w' : Surroundings) : Prop where
  /-- The directories are the same. -/
  tree : w.tree = w'.tree
  /-- Paths are seen from the same directory. -/
  directory : w.directory = w'.directory
  /-- The file of a repository has the same name. -/
  configName : w.configName = w'.configName
  /-- Every file is there in both or in none, with contents that agree. -/
  documents : ∀ p, Option.Rel ConfigDocument.AgreesWith (w.document? p) (w'.document? p)
  /-- Git replies the same. -/
  git : w.git = w'.git

namespace Surroundings.AgreesWith

/-- Surroundings agree with themselves. -/
lemma refl (w : Surroundings) : w.AgreesWith w where
  tree := rfl
  directory := rfl
  configName := rfl
  documents p := by
    cases w.document? p with
    | none => exact .none
    | some d => exact .some (.same d)
  git := rfl

variable {w w' : Surroundings} (h : w.AgreesWith w')

include h

/-- Both runs start from the same directory. -/
lemma start_eq (g : GlobalOptions) : w.start g = w'.start g := by
  rw [start, start, h.directory]

/-- A run finds configurations that agree, or none.

**Proof sketch.** The file is the one that is asked for, or it is looked for in the tree, which is
the same for both. -/
lemma configuration? (g : GlobalOptions) :
    Option.Rel ConfigDocument.AgreesWith (w.configuration? g) (w'.configuration? g) := by
  have hdirectory (p : Path) : w.configDirectory p = w'.configDirectory p := by
    rw [configDirectory, configDirectory, h.tree]
  unfold Surroundings.configuration?
  cases g.config with
  | some file =>
    dsimp only
    rw [h.directory]
    exact h.documents _
  | none =>
    dsimp only
    rw [h.start_eq, hdirectory, h.configName]
    exact h.documents _

/-- The settings of both runs cannot be had for the same reason, or they differ in the section of
constraints only.

**Proof sketch.** The documents of both are missing, the same, or records that agree in the other
sections. Records are laid over the defaults section by section, so that the other sections agree
then, too. -/
theorem settings_cases (g : GlobalOptions) :
    (∃ fault, w.settings g = .error fault ∧ w'.settings g = .error fault) ∨
      ∃ s s', w.settings g = .ok s ∧ w'.settings g = .ok s' ∧
        ∀ name ≠ resolveSection, Json.lookup s name = Json.lookup s' name := by
  have hsame (x : Except SettingsFault Settings) :
      (∃ fault, x = .error fault ∧ x = .error fault) ∨ ∃ s s', x = .ok s ∧ x = .ok s' ∧
        ∀ name ≠ resolveSection, Json.lookup s name = Json.lookup s' name := by
    cases x with
    | error fault => exact .inl ⟨fault, rfl, rfl⟩
    | ok s => exact .inr ⟨s, s, rfl, rfl, fun _ _ => rfl⟩
  have hrel := h.configuration? g
  rw [settings_eq, settings_eq]
  generalize w.configuration? g = d, w'.configuration? g = d' at hrel ⊢
  cases hrel with
  | none => exact hsame _
  | some hd =>
    cases hd with
    | same d => exact hsame _
    | sections hsections =>
      dsimp only
      rw [ofDocument_record, ofDocument_record]
      refine .inr ⟨_, _, rfl, rfl, fun name hname => ?_⟩
      rw [lookup_foldl_overlay, lookup_foldl_overlay, hsections name hname]

end Surroundings.AgreesWith

/-- How much is logged does not depend on constraints. -/
lemma Settings.level_congr {s s' : Settings} (verbose : Bool)
    (h : ∀ name ≠ resolveSection, Json.lookup s name = Json.lookup s' name) :
    s.level verbose = s'.level verbose := by
  have hlogging := h loggingSection (by decide)
  rw [level, level, levelName, levelName, fields, fields, hlogging]

/-! ## Arguments with the option -/

/-- The command takes the constraint with the word, for which settings have the key. -/
inductive CommandName.Takes : CommandName → Text → Text → Prop where
  /-- The patch at a locator. -/
  | locate (c : LocationConstraint) : Takes .locate constraintKey c.word.toList
  /-- The patches of ranges. -/
  | range (c : RangeConstraint) : Takes .range rangeConstraintKey c.word.toList
  /-- The commits of revisions. -/
  | rev (c : RangeConstraint) : Takes .rev rangeConstraintKey c.word.toList

/-- What is given without an option. -/
def Arguments.without (a : Arguments) (o : OptionName) : Arguments :=
  ⟨a.options.filter fun given => given.name != o, a.words⟩

/-- The arguments run the command, and if they can be read, its constraint is given as the word. -/
def GivesConstraint (g : GlobalOptions) (command : CommandName) (word : Text)
    (arguments : List Text) : Prop :=
  ∃ rest, GlobalOptions.ofArguments? arguments = some (g, command, rest) ∧
    ∀ a, readArguments? command.options true rest = some a → a.value? .constraint = some word

/-- The second list of arguments is the first without the option for the constraint. -/
def OmitsConstraint (arguments plain : List Text) : Prop :=
  ∃ g command rest rest', GlobalOptions.ofArguments? arguments = some (g, command, rest) ∧
    GlobalOptions.ofArguments? plain = some (g, command, rest') ∧
    readArguments? command.options true rest' =
      (readArguments? command.options true rest).map (·.without .constraint)

/-- The option for the constraint, with its word. -/
inductive SpellsConstraint (word : Text) : List Text → Prop where
  /-- The word is the next argument. -/
  | apart : SpellsConstraint word ["--constraint".toList, word]
  /-- The word is attached. -/
  | attached : SpellsConstraint word ["--constraint=".toList ++ word]

/-- The first list of arguments has the option among those of the command, and the second one is the
first without it. The arguments in front of the option are read by themselves, and there is no other
option for the constraint. -/
inductive InsertsConstraint (g : GlobalOptions) (command : CommandName) (word : Text) :
    List Text → List Text → Prop where
  /-- The option stands between the arguments `left` and `right` of the command. -/
  | intro (before left option right : List Text) {a : Arguments}
      (hcommand : GlobalOptions.ofArguments? (before ++ command.word :: (left ++ right)) =
        some (g, command, left ++ right))
      (htakes : .constraint ∈ command.options) (hoption : SpellsConstraint word option)
      (hleft : Reads command.options true left a) (hdashes : ['-', '-'] ∉ left)
      (hnot : a.has .constraint = false)
      (hnot' : ∀ b, readArguments? command.options true right = some b →
        b.has .constraint = false) :
      InsertsConstraint g command word (before ++ command.word :: (left ++ (option ++ right)))
        (before ++ command.word :: (left ++ right))

namespace Arguments

variable {a : Arguments} {o o' : OptionName}

/-- An option that is left out has no value. -/
lemma value?_without_self (a : Arguments) (o : OptionName) : (a.without o).value? o = none := by
  simp [value?, without]

/-- Other options are not left out. -/
lemma kept_of_ne (h : o' ≠ o) (given : GivenOption) :
    (given.name != o && given.name == o') = (given.name == o') := by
  by_cases hname : given.name = o' <;> simp [hname, h]

/-- Other options keep their values. -/
lemma value?_without (h : o' ≠ o) : (a.without o).value? o' = a.value? o' := by
  simp only [value?, without, ← List.filter_reverse, List.find?_filter, Bool.decide_and,
    Bool.decide_eq_true, kept_of_ne h]

/-- Other options are given or not as they were. -/
lemma has_without (h : o' ≠ o) : (a.without o).has o' = a.has o' := by
  simp only [has, without, List.any_filter, kept_of_ne h]

/-- Nothing is left out if the option is not given. -/
lemma filter_of_not_has (h : a.has o = false) :
    a.options.filter (fun given => given.name != o) = a.options := by
  refine List.filter_eq_self.2 fun given hgiven => ?_
  simpa using List.any_eq_false.1 h given hgiven

/-- An option in front of others that are of another kind has its value. -/
lemma value?_inserted {b : Arguments} (h : b.has o = false) (value : Text)
    (options : List GivenOption) (words : List Text) :
    (Arguments.mk (options ++ ⟨o, value⟩ :: b.options) words).value? o = some value := by
  have hnone : b.options.reverse.find? (fun given => given.name == o) = none := by
    refine List.find?_eq_none.2 fun given hgiven => ?_
    exact List.any_eq_false.1 h given (List.mem_reverse.1 hgiven)
  simp [value?, List.find?_append, hnone]

/-- Without an option that stands between others there are just these. -/
lemma without_inserted {b : Arguments} (h : a.has o = false) (h' : b.has o = false) (value : Text)
    (words : List Text) :
    (Arguments.mk (a.options ++ ⟨o, value⟩ :: b.options) words).without o =
      ⟨a.options ++ b.options, words⟩ := by
  simp [without, filter_of_not_has h, filter_of_not_has h']

end Arguments

/-! ## Commands with a constraint -/

namespace Invocation

/-- The first command has a constraint, and the second one is the same without it. The word spells
the constraint, and settings have the key for it. -/
inductive Constrains : Text → Text → Invocation → Invocation → Prop where
  /-- The patch at a locator. -/
  | locate (locator : Text) (branch : Option Text) (c : LocationConstraint) :
      Constrains constraintKey c.word.toList (.locate locator branch (some c))
        (.locate locator branch none)
  /-- The patches of ranges. -/
  | range (ranges : List Text) (branch : Option Text) (c : RangeConstraint) (contiguous : Bool) :
      Constrains rangeConstraintKey c.word.toList (.range ranges branch (some c) contiguous)
        (.range ranges branch none contiguous)
  /-- The commits of revisions. -/
  | rev (specs : List Text) (c : RangeConstraint) :
      Constrains rangeConstraintKey c.word.toList (.rev specs (some c)) (.rev specs none)

/-- Configuration files matter for the settings only.

**Proof sketch.** Only the command for revisions recurs; there by induction on the revisions. No
command looks at the files. -/
lemma run_with_documents (i : Invocation) (w : Surroundings) (start : Path) (s : Settings)
    (documents : List (Path × ConfigDocument)) :
    i.run { w with documents := documents } start s = i.run w start s := by
  have hlines (c : RangeConstraint) (specs : List RevisionSpec) (st : Session) :
      Surroundings.revLines { w with documents := documents } c specs st =
        w.revLines c specs st := by
    induction specs generalizing st with
    | nil => rfl
    | cons spec specs ih => simp only [Surroundings.revLines, ih]
  cases i with
  | rev specs c =>
    unfold run Surroundings.rev
    simp only [hlines]
  | _ => rfl

/-- A command that has its constraint does not look at the settings. -/
lemma run_congr {i : Invocation} (h : i.constraintKey? = none) (w : Surroundings) (start : Path)
    (s s' : Settings) : i.run w start s = i.run w start s' := by
  cases i with
  | stack branch => rfl
  | locate _ _ c | range _ _ c _ | rev _ c =>
    cases c with
    | none => cases h
    | some c => rfl

end Invocation

/-- The word of a constraint for single patches is read as the constraint. -/
lemma LocationConstraint.ofWord?_word (c : LocationConstraint) :
    LocationConstraint.ofWord? (Text.str c.word.toList) = some c := by
  cases c <;> decide

/-- The word of a constraint for ranges is read as the constraint. -/
lemma RangeConstraint.ofWord?_word (c : RangeConstraint) :
    RangeConstraint.ofWord? (Text.str c.word.toList) = some c := by
  cases c <;> decide

/-- The word of a constraint in the settings is read as the constraint. -/
lemma Settings.constraintAt_of_word {α : Type} {ofWord? : String → Option α} {c : α} {s : Settings}
    {fields : List (Text × Json)} {key word : Text} (hword : ofWord? (Text.str word) = some c)
    (hsection : Json.lookup s resolveSection = some (.record fields))
    (hkey : Json.lookup fields key = some (.text word)) :
    s.constraintAt ofWord? key = .ok c := by
  have hfields : s.fields resolveSection = .ok fields := by rw [Settings.fields, hsection]
  have hshown : wordOf ((Json.lookup fields key).getD .null) = .ok word := by
    rw [hkey]
    rfl
  simp only [constraintAt, hfields, bind, Except.bind, hshown, hword]

namespace Invocation

/-- A command runs as it does without its constraint if the settings give the same one.

**Proof sketch.** The command without its constraint takes the one of the settings, which is found
in their section and is read as the same. -/
theorem Constrains.run_eq {key word : Text} {i i' : Invocation} (h : Constrains key word i i')
    {s : Settings} {fields : List (Text × Json)}
    (hsection : Json.lookup s resolveSection = some (.record fields))
    (hkey : Json.lookup fields key = some (.text word)) (w : Surroundings) (start : Path) :
    i.run w start s = i'.run w start s := by
  cases h with
  | locate locator branch c =>
    have hc : s.constraint = .ok c := constraintAt_of_word c.ofWord?_word hsection hkey
    simp only [run, chosen, hc]
  | range ranges branch c contiguous =>
    have hc : s.rangeConstraint = .ok c := constraintAt_of_word c.ofWord?_word hsection hkey
    simp only [run, chosen, hc]
  | rev specs c =>
    have hc : s.rangeConstraint = .ok c := constraintAt_of_word c.ofWord?_word hsection hkey
    simp only [run, chosen, hc]

end Invocation

/-! ## Reading commands -/

/-- The option with the word of a constraint gives the constraint. -/
lemma constraintOption?_of_word {α : Type} {ofWord? : String → Option α} {word : Text} {c : α}
    (h : ofWord? (Text.str word) = some c) :
    constraintOption? ofWord? (some word) = some (some c) := by
  rw [constraintOption?, h]
  rfl

/-- An option that is given and can be read gives a constraint. -/
lemma exists_of_constraintOption? {α : Type} {ofWord? : String → Option α} {word : Text}
    {c : Option α} (h : constraintOption? ofWord? (some word) = some c) : ∃ c', c = some c' := by
  obtain ⟨c', -, rfl⟩ := Option.map_eq_some_iff.1 h
  exact ⟨c', rfl⟩

namespace Invocation

variable {command : CommandName} {key word : Text} {rest rest' : List Text}

/-- A command that is given a constraint does not take one from the settings.

**Proof sketch.** Each command with such an option makes it its constraint; the others have no key.
-/
lemma constraintKey?_of_given {i : Invocation} (hi : ofArguments? command rest = some i)
    (hword : ∀ a, readArguments? command.options true rest = some a →
      a.value? .constraint = some word) : i.constraintKey? = none := by
  obtain ⟨a, ha, hi⟩ := Option.bind_eq_some_iff.1 hi
  rw [hword a ha] at hi
  split at hi
  case h_1 | h_2 | h_3 =>
    obtain ⟨c, hc, hi⟩ := Option.bind_eq_some_iff.1 hi
    obtain ⟨c', rfl⟩ := exists_of_constraintOption? hc
    cases hi
    rfl
  case h_4 =>
    cases hi
    rfl
  case h_5 => cases hi

/-- Without the option there is the same command without the constraint, or none as well.

**Proof sketch.** What is left when the option is left out are the same words and the same values
of all other options. Each command is made of these and of its constraint, of which the word can
be read, so only the number of words decides whether there is a command. -/
theorem ofArguments?_without (htakes : command.Takes key word)
    (hword : ∀ a, readArguments? command.options true rest = some a →
      a.value? .constraint = some word)
    (hrest : readArguments? command.options true rest' =
      (readArguments? command.options true rest).map (·.without .constraint)) :
    (ofArguments? command rest = none ∧ ofArguments? command rest' = none) ∨
      ∃ i i', ofArguments? command rest = some i ∧ ofArguments? command rest' = some i' ∧
        Constrains key word i i' := by
  unfold ofArguments?
  rw [hrest]
  cases ha : readArguments? command.options true rest with
  | none => exact .inl ⟨rfl, rfl⟩
  | some a =>
    have hgiven := hword a ha
    have hplain := Arguments.value?_without_self a .constraint
    have hbranch : (a.without .constraint).value? .branch = a.value? .branch :=
      Arguments.value?_without (by decide)
    have hcontiguous : (a.without .constraint).has .contiguous = a.has .contiguous :=
      Arguments.has_without (by decide)
    have hwords : (a.without .constraint).words = a.words := rfl
    simp only [Option.bind_eq_bind, Option.bind_some, Option.map_some]
    rw [hwords, hgiven, hplain, hbranch, hcontiguous]
    cases htakes with
    | locate c =>
      rw [constraintOption?_of_word c.ofWord?_word]
      match a.words with
      | [] => exact .inl ⟨rfl, rfl⟩
      | [locator] => exact .inr ⟨_, _, rfl, rfl, .locate locator _ c⟩
      | _ :: _ :: _ => exact .inl ⟨rfl, rfl⟩
    | range c =>
      rw [constraintOption?_of_word c.ofWord?_word]
      match a.words with
      | [] => exact .inl ⟨rfl, rfl⟩
      | r :: ranges => exact .inr ⟨_, _, rfl, rfl, .range (r :: ranges) _ c _⟩
    | rev c =>
      rw [constraintOption?_of_word c.ofWord?_word]
      match a.words with
      | [] => exact .inl ⟨rfl, rfl⟩
      | spec :: specs => exact .inr ⟨_, _, rfl, rfl, .rev (spec :: specs) c⟩

end Invocation

/-- The option is read in front of the other arguments of a command.

**Proof sketch.** The argument of the option is no pair of dashes and gives this option. If the word
stands apart, it takes that and nothing else. -/
lemma SpellsConstraint.readArguments? {command : CommandName} {word : Text} {option : List Text}
    (h : SpellsConstraint word option) (htakes : .constraint ∈ command.options) (rest : List Text) :
    PatchStack.readArguments? command.options true (option ++ rest) =
      (PatchStack.readArguments? command.options true rest).map fun a =>
        ⟨⟨.constraint, word⟩ :: a.options, a.words⟩ := by
  obtain ⟨argument, behind, rfl, hne, hread⟩ : ∃ argument behind, option = argument :: behind ∧
      argument ≠ ['-', '-'] ∧ readOption? command.options argument (behind ++ rest) =
        some (some ([⟨.constraint, word⟩], rest)) := by
    cases h with
    | apart =>
      refine ⟨_, _, rfl, by decide, ?_⟩
      cases command with
      | stack => exact absurd htakes (by decide)
      | _ => rfl
    | attached =>
      refine ⟨_, _, rfl, fun hdashes => ?_, ?_⟩
      · have hlength := congrArg List.length hdashes
        simp at hlength
      · cases command with
        | stack => exact absurd htakes (by decide)
        | _ => rfl
  rw [List.cons_append, readArguments?_cons, if_neg hne, hread]
  show (PatchStack.readArguments? command.options true rest).bind _ = _
  cases PatchStack.readArguments? command.options true rest <;> rfl

/-- An option that is inserted is read as the constraint, and without it all else is read as it
was.

**Proof sketch.** What stands in front is read by itself, then the option, then the rest. With the
option taken out the rest is read behind the same options, and the option was not given before. -/
theorem InsertsConstraint.gives_and_omits {g : GlobalOptions} {command : CommandName} {word : Text}
    {arguments plain : List Text} (h : InsertsConstraint g command word arguments plain) :
    GivesConstraint g command word arguments ∧ OmitsConstraint arguments plain := by
  obtain ⟨before, left, option, right, hcommand, htakes, hoption, hleft, hdashes, hnot, hnot'⟩ := h
  have hgiven := GlobalOptions.ofArguments?_replace hcommand (left ++ (option ++ right))
  have hread := hleft.readArguments?_append hdashes (option ++ right)
  rw [hoption.readArguments? htakes, Option.map_map] at hread
  have hread' := hleft.readArguments?_append hdashes right
  refine ⟨⟨_, hgiven, fun b hb => ?_⟩, g, command, _, _, hgiven, hcommand, ?_⟩
  · rw [hread] at hb
    obtain ⟨others, hothers, rfl⟩ := Option.map_eq_some_iff.1 hb
    exact Arguments.value?_inserted (hnot' others hothers) word _ _
  · rw [hread, hread', Option.map_map]
    refine Option.map_congr fun b hb => ?_
    exact (Arguments.without_inserted hnot (hnot' b hb) word _).symm

/-! ## Runs -/

section Runs

variable {w w' : Surroundings} {g : GlobalOptions} {command : CommandName} {key word : Text}
  {arguments plain rest rest' : List Text}

/-- The configuration of a run sets the key in a record for the section of constraints. -/
def Surroundings.SetsConstraint (w : Surroundings) (g : GlobalOptions) (key word : Text) : Prop :=
  ∃ sections fields, w.configuration? g = some (.data (.record sections)) ∧
    Json.lookup sections resolveSection = some (.record fields) ∧
    Json.lookup fields key = some (.text word)

/-- The key is set in the settings. -/
lemma Surroundings.SetsConstraint.exists_fields (h : w.SetsConstraint g key word) {s : Settings}
    (hs : w.settings g = .ok s) :
    ∃ fs, Json.lookup s resolveSection = some (.record fs) ∧
      Json.lookup fs key = some (.text word) := by
  obtain ⟨sections, fields, hconfiguration, hsection, hkey⟩ := h
  rw [settings_eq, hconfiguration] at hs
  dsimp only at hs
  rw [ofDocument_record] at hs
  cases hs
  exact exists_fields_of_overlay hsection hkey

/-- Two runs with agreeing configurations are the same if their commands are.

**Proof sketch.** The settings fail alike, or both runs have some that agree in what is looked at
for the level of logging. After that the runs are the same as far as the words of the command are
read, and for the rest by assumption. -/
lemma runCommandLine_congr (h : w.AgreesWith w')
    (harguments : GlobalOptions.ofArguments? arguments = some (g, command, rest))
    (hplain : GlobalOptions.ofArguments? plain = some (g, command, rest'))
    (hrun : ∀ s s', w.settings g = .ok s → w'.settings g = .ok s' →
      (Invocation.ofArguments? command rest).map (fun i => i.run w (w.start g) s) =
        (Invocation.ofArguments? command rest').map fun i => i.run w' (w'.start g) s') :
    runCommandLine w arguments = runCommandLine w' plain := by
  simp only [runCommandLine, harguments, hplain]
  rcases h.settings_cases g with ⟨fault, hs, hs'⟩ | ⟨s, s', hs, hs', hsame⟩
  · rw [hs, hs']
  · rw [hs, hs']
    dsimp only
    rw [level_congr g.verbose hsame]
    cases s'.level g.verbose with
    | error fault => rfl
    | ok l =>
      dsimp only
      have hcommand := hrun s s' hs hs'
      cases hi : Invocation.ofArguments? command rest with
      | none =>
        rw [hi, Option.map_none, eq_comm, Option.map_eq_none_iff] at hcommand
        rw [hcommand]
      | some i =>
        rw [hi, Option.map_some, eq_comm, Option.map_eq_some_iff] at hcommand
        obtain ⟨i', hi', hcommand⟩ := hcommand
        rw [hi']
        dsimp only
        rw [hcommand]

/-- A command runs the same if only configurations differ. -/
lemma Surroundings.AgreesWith.run_eq (h : w.AgreesWith w') (i : Invocation) (start : Path)
    (s : Settings) : i.run w start s = i.run w' start s := by
  obtain ⟨documents, rfl⟩ : ∃ documents, w' = { w with documents := documents } := by
    obtain ⟨tree, directory, configName, documents, git⟩ := w'
    obtain ⟨rfl, rfl, rfl, -, rfl⟩ := h
    exact ⟨documents, rfl⟩
  exact (i.run_with_documents w start s documents).symm

/-- With the option, runs with agreeing configurations are the same. -/
theorem runCommandLine_given (h : w.AgreesWith w')
    (hgiven : GivesConstraint g command word arguments) :
    runCommandLine w arguments = runCommandLine w' arguments := by
  obtain ⟨rest, harguments, hword⟩ := hgiven
  refine runCommandLine_congr h harguments harguments fun s s' _ _ => ?_
  refine Option.map_congr fun i hi => ?_
  have hkey := Invocation.constraintKey?_of_given hi hword
  rw [h.run_eq, h.start_eq, Invocation.run_congr hkey w' (w'.start g) s s']

/-- Without the option, the run is the same if the configuration sets its word.

**Proof sketch.** With the option the run does not depend on the section of constraints, so that
both may be compared under the configuration that sets the word. There the constraint of the command
is the word either way. -/
theorem runCommandLine_omitted (h : w.AgreesWith w')
    (hgiven : GivesConstraint g command word arguments) (homits : OmitsConstraint arguments plain)
    (htakes : command.Takes key word) (hsets : w'.SetsConstraint g key word) :
    runCommandLine w arguments = runCommandLine w' plain := by
  rw [runCommandLine_given h hgiven]
  obtain ⟨rest, harguments, hword⟩ := hgiven
  obtain ⟨g', command', rest₁, rest', harguments', hplain, hrest⟩ := homits
  rw [harguments] at harguments'
  cases harguments'
  refine runCommandLine_congr (.refl w') harguments hplain fun s s' hs hs' => ?_
  obtain rfl : s = s' := Except.ok.inj (hs.symm.trans hs')
  obtain ⟨fields, hsection, hkey⟩ := hsets.exists_fields hs
  rcases Invocation.ofArguments?_without htakes hword hrest with
    ⟨hnone, hnone'⟩ | ⟨i, i', hi, hi', hconstrains⟩
  · rw [hnone, hnone']
  · rw [hi, hi', Option.map_some, Option.map_some,
      hconstrains.run_eq hsection hkey w' (w'.start g)]

/-- **A constraint that is given by an option overrides the configuration.** Two configurations that
are the same but for the section of constraints, whatever it holds in either of them, lead to the
same run: to the same exit status, the same output and the same commands of git. It is the run that
there is without the option if that section is a record which sets the constraint.

The option can stand anywhere behind the command, for instance in front of all other arguments.

**Proof sketch.** Sections are laid over the defaults one by one, so that what the others become
does not depend on the section of constraints. The level of logging is read from another section,
and a command that has its constraint looks at none. A key that a record sets is set in the
settings, and its text is the word of the constraint. -/
theorem constraint_option_overrides (h : w.AgreesWith w') :
    (∀ g command word arguments, GivesConstraint g command word arguments →
      runCommandLine w arguments = runCommandLine w' arguments) ∧
    (∀ g command key word arguments plain, GivesConstraint g command word arguments →
      OmitsConstraint arguments plain → command.Takes key word → w'.SetsConstraint g key word →
      runCommandLine w arguments = runCommandLine w' plain) ∧
    ∀ g command word arguments plain, InsertsConstraint g command word arguments plain →
      GivesConstraint g command word arguments ∧ OmitsConstraint arguments plain :=
  ⟨fun _ _ _ _ => runCommandLine_given h, fun _ _ _ _ _ _ => runCommandLine_omitted h,
    fun _ _ _ _ _ => InsertsConstraint.gives_and_omits⟩

end Runs

/-- A repository whose configuration holds the value for the section of constraints, and nothing
else. -/
def oneSection (value : Json) : Surroundings where
  tree := ⟨[], [[]]⟩
  directory := []
  configName := ".stackloc.yaml".toList
  documents := [([".stackloc.yaml".toList], .data (.record [(resolveSection, value)]))]
  git := ReplyTable.git []

/-- Two such repositories differ in the section of constraints only. -/
lemma agreesWith_oneSection (value value' : Json) :
    (oneSection value).AgreesWith (oneSection value') where
  tree := rfl
  directory := rfl
  configName := rfl
  documents p := by
    by_cases hp : [".stackloc.yaml".toList] = p
    · subst hp
      refine .some (.sections fun name hname => ?_)
      simp [hname.symm]
    · have hpath : ([".stackloc.yaml".toList] == p) = false := beq_eq_false_iff_ne.2 hp
      have hnone (value : Json) : (oneSection value).document? p = none := by
        simp only [Surroundings.document?, oneSection, List.find?_cons, hpath, List.find?_nil,
          Option.map_none]
      rw [hnone, hnone]
      exact .none
  git := rfl

/-- A text in place of the section of constraints does not matter if there is the option, here
behind the word: the run is the one under a record that sets the constraint, although without the
option it breaks down. -/
theorem constraint_option_overrides_textSection :
    runCommandLine (oneSection (.text "all".toList))
        ["range".toList, "p".toList, "--constraint".toList, "hidden".toList] =
      runCommandLine (oneSection (.record [(rangeConstraintKey, .text "hidden".toList)]))
        ["range".toList, "p".toList] ∧
    (runCommandLine (oneSection (.text "all".toList)) ["range".toList, "p".toList]).ending =
      .breakdown .badSection := by
  have hagree := agreesWith_oneSection (.text "all".toList)
    (.record [(rangeConstraintKey, .text "hidden".toList)])
  obtain ⟨-, homitted, hinserted⟩ := constraint_option_overrides hagree
  have hleft : Reads CommandName.range.options true ["p".toList] ⟨[], ["p".toList]⟩ :=
    .word rfl (by decide) rfl .nil
  have hinserts : InsertsConstraint ⟨none, none, false⟩ .range "hidden".toList
      ["range".toList, "p".toList, "--constraint".toList, "hidden".toList]
      ["range".toList, "p".toList] :=
    .intro [] ["p".toList] _ [] rfl (by decide) .apart hleft (by decide) rfl (by decide)
  obtain ⟨hgives, homits⟩ := hinserted _ _ _ _ _ hinserts
  have hsets : (oneSection (.record [(rangeConstraintKey, .text "hidden".toList)])).SetsConstraint
      ⟨none, none, false⟩ rangeConstraintKey "hidden".toList := ⟨_, _, rfl, rfl, rfl⟩
  refine ⟨homitted _ _ _ _ _ _ hgives homits (.range .hidden) hsets, ?_⟩
  decide +kernel

end PatchStack
