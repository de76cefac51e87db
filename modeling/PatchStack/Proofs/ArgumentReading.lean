import Mathlib.Tactic.Common
import Mathlib.Tactic.SplitIfs
import PatchStack.CommandLine.Arguments

set_option autoImplicit false

/-!
# Reading arguments

Arguments are read in rounds, and each round takes the options that one argument gives. An option
takes its value from what is attached to it or from the next argument, and whatever stands behind
that is left as it is. So arguments can be read one after the other, and what stands behind the
command does not change how the command is found.

## Main definitions

* `PatchStack.TakesFront` — a reader that leaves the arguments behind an option as they are.
* `PatchStack.Reads` — arguments with the options and words that they give.

## Main results

* `PatchStack.readOption?_cases` — an argument gives options or it does not, whatever follows.
* `PatchStack.readArguments?_cons`, `PatchStack.readArguments?_eq_some_iff` — arguments are read one
  after the other.
* `PatchStack.Reads.readArguments?_append` — arguments behind others are read by themselves.
* `PatchStack.Reads.replace`, `PatchStack.GlobalOptions.ofArguments?_replace` — other arguments
  behind the first word, and behind the command.
-/

namespace PatchStack

/-! ## Readers of options -/

/-- The reader takes some of the arguments and leaves the others as they are, whatever they are. -/
def TakesFront (reader : List Text → OptionReader) : Prop :=
  ∀ rest options left, reader rest = some (options, left) →
    ∃ taken, rest = taken ++ left ∧ ∀ tail, reader (taken ++ tail) = some (options, tail)

namespace TakesFront

variable {reader : List Text → OptionReader}

/-- Nothing is taken where everything is refused. -/
lemma refuse : TakesFront fun _ => none := nofun

/-- Options that are complete by themselves take nothing. -/
lemma give (options : List GivenOption) : TakesFront fun rest => some (options, rest) := by
  intro rest options' left h
  cases h
  exact ⟨[], rfl, fun _ => rfl⟩

/-- A value is attached, or it is the next argument. -/
lemma value (o : OptionName) (attached : Option Text) :
    TakesFront fun rest => do
      let (value, rest) ← optionValue? attached rest
      return ([⟨o, value⟩], rest) := by
  intro rest options left h
  cases attached with
  | some value =>
    cases h
    exact ⟨[], rfl, fun _ => rfl⟩
  | none =>
    cases rest with
    | nil => cases h
    | cons value rest =>
      cases h
      exact ⟨[value], rfl, fun _ => rfl⟩

/-- Options in front do not change what is taken. -/
lemma map (h : TakesFront reader) (f : List GivenOption → List GivenOption) :
    TakesFront fun rest => do
      let (options, rest) ← reader rest
      return (f options, rest) := by
  intro rest options left hread
  obtain ⟨⟨others, left'⟩, hothers, hread⟩ := Option.bind_eq_some_iff.1 hread
  cases hread
  obtain ⟨taken, htaken, htail⟩ := h rest others left hothers
  refine ⟨taken, htaken, fun tail => ?_⟩
  show (reader (taken ++ tail)).bind _ = _
  rw [htail]
  rfl

variable (known : List OptionName)

/-- A long option takes what is in front at most. -/
lemma readLong? (t : Text) : TakesFront fun rest => readLong? known t rest := by
  cases hcut : t.cut? '=' <;> simp only [PatchStack.readLong?, hcut]
  all_goals
    generalize known.find? _ = found
    cases found with
    | none => exact refuse
    | some o =>
      dsimp only
      split_ifs
      · exact value o _
      · exact refuse
      · exact give [⟨o, []⟩]

/-- Short options take what is in front at most.

**Proof sketch.** By induction on the letters. Each is a flag, in front of more letters, or an
option with a value. -/
lemma readShort? (letters : Text) : TakesFront fun rest => readShort? known letters rest := by
  induction letters with
  | nil => exact give []
  | cons c letters ih =>
    unfold PatchStack.readShort?
    cases known.find? fun o => o.short? == some c with
    | none => exact refuse
    | some o =>
      dsimp only
      split_ifs
      · exact value o _
      · exact value o _
      · exact ih.map _

end TakesFront

variable {known : List OptionName} {mixed : Bool}

/-- Whether an argument gives options does not depend on those behind it, and if it does, its
options take some of these.

**Proof sketch.** The first two characters decide: no dash, or nothing behind it, is no option, two
dashes begin a long one, and one dash begins short ones. -/
lemma readOption?_cases (known : List OptionName) (argument : Text) :
    (∀ rest, readOption? known argument rest = none) ∨
      ∃ reader, TakesFront reader ∧
        ∀ rest, readOption? known argument rest = some (reader rest) := by
  match argument with
  | [] => exact .inl fun _ => rfl
  | [c] => exact .inl fun _ => by simp [readOption?]
  | c :: d :: t =>
    by_cases hc : c = '-'
    · subst hc
      right
      by_cases hd : d = '-'
      · subst hd
        exact ⟨_, .readLong? known t, fun _ => rfl⟩
      · exact ⟨_, .readShort? known (d :: t), fun rest => by simp [readOption?]⟩
    · exact .inl fun _ => by simp [readOption?, hc]

/-- What is no option is none before other arguments either. -/
lemma readOption?_eq_none {argument : Text} {rest : List Text}
    (h : readOption? known argument rest = none) (rest' : List Text) :
    readOption? known argument rest' = none := by
  rcases readOption?_cases known argument with hnone | ⟨reader, -, hsome⟩
  · exact hnone rest'
  · rw [hsome] at h
    cases h

/-- The options of an argument take some of those behind it and leave the others. -/
lemma exists_taken_of_readOption? {argument : Text} {rest left : List Text}
    {options : List GivenOption}
    (h : readOption? known argument rest = some (some (options, left))) :
    ∃ taken, rest = taken ++ left ∧
      ∀ tail, readOption? known argument (taken ++ tail) = some (some (options, tail)) := by
  rcases readOption?_cases known argument with hnone | ⟨reader, hreader, hsome⟩
  · rw [hnone] at h
    cases h
  · rw [hsome] at h
    obtain ⟨taken, htaken, htail⟩ := hreader rest options left (Option.some.inj h)
    refine ⟨taken, htaken, fun tail => ?_⟩
    rw [hsome, htail]

/-! ## Rounds -/

/-- More rounds than there are arguments change nothing.

**Proof sketch.** By induction on the rounds. Each round takes one argument at least, so that the
rounds that are left are enough for the arguments that are left. -/
lemma readArgumentsIn?_congr {rounds rounds' : Nat} {arguments : List Text}
    (h : arguments.length ≤ rounds) (h' : arguments.length ≤ rounds') :
    readArgumentsIn? known mixed rounds arguments =
      readArgumentsIn? known mixed rounds' arguments := by
  induction rounds generalizing rounds' arguments with
  | zero =>
    obtain rfl := List.length_eq_zero_iff.1 (Nat.le_zero.1 h)
    cases rounds' <;> rfl
  | succ rounds ih =>
    cases arguments with
    | nil => cases rounds' <;> rfl
    | cons argument rest =>
      obtain ⟨rounds', rfl⟩ := Nat.exists_eq_succ_of_ne_zero (Nat.ne_of_gt (Nat.zero_lt_of_lt h'))
      have hrest : rest.length ≤ rounds := Nat.le_of_succ_le_succ h
      have hrest' : rest.length ≤ rounds' := Nat.le_of_succ_le_succ h'
      rw [readArgumentsIn?, readArgumentsIn?, ih hrest hrest']
      rcases readOption?_cases known argument with hnone | ⟨reader, hreader, hsome⟩
      · rw [hnone]
      · rw [hsome]
        dsimp only
        cases hread : reader rest with
        | none => rfl
        | some p =>
          obtain ⟨options, left⟩ := p
          obtain ⟨taken, rfl, -⟩ := hreader rest options left hread
          rw [List.length_append] at hrest hrest'
          have hleft : left.length ≤ rounds := by omega
          have hleft' : left.length ≤ rounds' := by omega
          simp only [Option.bind_eq_bind, Option.bind_some, ih hleft hleft']

/-- Two dashes end the options. Any other argument gives options, and reading goes on behind what
these take, or it is a word.

**Proof sketch.** One round is taken as it is defined. What an option leaves is not longer than what
it was given, so that the other rounds are enough for it. -/
theorem readArguments?_cons (argument : Text) (rest : List Text) :
    readArguments? known mixed (argument :: rest) =
      if argument = ['-', '-'] then some ⟨[], rest⟩
      else match readOption? known argument rest with
        | some reader => do
          let (options, rest) ← reader
          let others ← readArguments? known mixed rest
          return ⟨options ++ others.options, others.words⟩
        | none =>
          if mixed then do
            let others ← readArguments? known mixed rest
            return ⟨others.options, argument :: others.words⟩
          else some ⟨[], argument :: rest⟩ := by
  rw [readArguments?, List.length_cons, readArgumentsIn?]
  rcases readOption?_cases known argument with hnone | ⟨reader, hreader, hsome⟩
  · rw [hnone]
    rfl
  · rw [hsome]
    dsimp only
    cases hread : reader rest with
    | none => rfl
    | some p =>
      obtain ⟨options, left⟩ := p
      obtain ⟨taken, rfl, -⟩ := hreader rest options left hread
      have hleft : left.length ≤ (taken ++ left).length := by
        rw [List.length_append]
        omega
      have hrounds : readArgumentsIn? known mixed (taken ++ left).length left =
          readArguments? known mixed left := readArgumentsIn?_congr hleft (Nat.le_refl _)
      simp only [Option.bind_eq_bind, Option.bind_some, hrounds]

/-! ## What is read -/

/-- The arguments give these options and words. -/
inductive Reads (known : List OptionName) (mixed : Bool) : List Text → Arguments → Prop where
  /-- There are no arguments. -/
  | nil : Reads known mixed [] ⟨[], []⟩
  /-- Two dashes end the options. -/
  | dashes (rest : List Text) : Reads known mixed (['-', '-'] :: rest) ⟨[], rest⟩
  /-- The first argument gives options. -/
  | options {argument : Text} {rest left : List Text} {options : List GivenOption} {a : Arguments}
      (hne : argument ≠ ['-', '-'])
      (hread : readOption? known argument rest = some (some (options, left)))
      (ha : Reads known mixed left a) :
      Reads known mixed (argument :: rest) ⟨options ++ a.options, a.words⟩
  /-- It is a word, and options may follow. -/
  | word {argument : Text} {rest : List Text} {a : Arguments} (hmixed : mixed = true)
      (hne : argument ≠ ['-', '-']) (hread : readOption? known argument rest = none)
      (ha : Reads known mixed rest a) :
      Reads known mixed (argument :: rest) ⟨a.options, argument :: a.words⟩
  /-- It is a word, which ends the options. -/
  | stop {argument : Text} (rest : List Text) (hmixed : mixed = false)
      (hne : argument ≠ ['-', '-']) (hread : readOption? known argument rest = none) :
      Reads known mixed (argument :: rest) ⟨[], argument :: rest⟩

/-- Arguments that follow the rules are read as the rules say.

**Proof sketch.** By induction on how the arguments are read, where each rule is one case of
`readArguments?_cons`. -/
lemma Reads.readArguments? {arguments : List Text} {a : Arguments}
    (h : Reads known mixed arguments a) : readArguments? known mixed arguments = some a := by
  induction h with
  | nil => rfl
  | dashes rest => rw [readArguments?_cons, if_pos rfl]
  | options hne hread _ ih =>
    rw [readArguments?_cons, if_neg hne, hread]
    show (PatchStack.readArguments? known mixed _).bind _ = _
    rw [ih]
    rfl
  | word hmixed hne hread _ ih =>
    rw [readArguments?_cons, if_neg hne, hread]
    dsimp only
    rw [if_pos hmixed, ih]
    rfl
  | stop rest hmixed hne hread =>
    rw [readArguments?_cons, if_neg hne, hread]
    dsimp only
    rw [if_neg (hmixed ▸ Bool.false_ne_true)]

/-- **What is read are the arguments that follow the rules**, and they are read as these say.

**Proof sketch.** By strong induction on the number of arguments, because an option may take
arguments with it. The cases are those of the first argument: two dashes, an option, or a word,
behind which options may or may not be given. -/
theorem readArguments?_eq_some_iff {arguments : List Text} {a : Arguments} :
    readArguments? known mixed arguments = some a ↔ Reads known mixed arguments a := by
  refine ⟨fun h => ?_, Reads.readArguments?⟩
  -- The options of one argument can take others with them.
  induction hlength : arguments.length using Nat.strongRecOn generalizing arguments a with
  | ind n ih =>
    subst hlength
    cases arguments with
    | nil => cases h; exact .nil
    | cons argument rest =>
      rw [readArguments?_cons] at h
      by_cases hdashes : argument = ['-', '-']
      · rw [if_pos hdashes] at h
        cases h
        rw [hdashes]
        exact .dashes rest
      · rw [if_neg hdashes] at h
        cases hread : readOption? known argument rest with
        | none =>
          rw [hread] at h
          cases mixed with
          | false =>
            cases h
            exact .stop rest rfl hdashes hread
          | true =>
            obtain ⟨others, hothers, h⟩ := Option.bind_eq_some_iff.1 h
            cases h
            exact .word rfl hdashes hread (ih _ (Nat.lt_succ_self _) hothers rfl)
        | some reader =>
          rw [hread] at h
          simp only [Option.bind_eq_bind, Option.bind_eq_some_iff] at h
          obtain ⟨⟨options, left⟩, rfl, others, hothers, h⟩ := h
          cases h
          obtain ⟨taken, rfl, -⟩ := exists_taken_of_readOption? hread
          have hleft : left.length < (argument :: (taken ++ left)).length := by
            rw [List.length_cons, List.length_append]
            omega
          exact .options hdashes hread (ih _ hleft hothers rfl)

/-- Arguments behind others are read by themselves, unless two dashes stand in front of them.

**Proof sketch.** By induction on how the arguments are read. No rule stops at a word here, and an
option in front takes the same arguments, whatever stands behind them. -/
theorem Reads.readArguments?_append {left : List Text} {a : Arguments}
    (h : Reads known true left a) (hdashes : ['-', '-'] ∉ left) (right : List Text) :
    PatchStack.readArguments? known true (left ++ right) =
      (PatchStack.readArguments? known true right).map fun b =>
        ⟨a.options ++ b.options, a.words ++ b.words⟩ := by
  induction h with
  | nil => exact Option.map_id'.symm
  | dashes => exact absurd List.mem_cons_self hdashes
  | options hne hread _ ih =>
    obtain ⟨taken, rfl, htail⟩ := exists_taken_of_readOption? hread
    have hleft := fun hmem => hdashes (List.mem_cons_of_mem _ (List.mem_append_right taken hmem))
    rw [List.cons_append, List.append_assoc, readArguments?_cons, if_neg hne, htail]
    show (PatchStack.readArguments? known true _).bind _ = _
    rw [ih hleft]
    cases PatchStack.readArguments? known true right with
    | none => rfl
    | some b => simp
  | word _ hne hread _ ih =>
    have hrest := fun hmem => hdashes (List.mem_cons_of_mem _ hmem)
    rw [List.cons_append, readArguments?_cons, if_neg hne, readOption?_eq_none hread]
    show (PatchStack.readArguments? known true _).bind _ = _
    rw [ih hrest]
    cases PatchStack.readArguments? known true right <;> rfl
  | stop _ hmixed => cases hmixed

/-! ## Behind the first word -/

/-- There are no more words than arguments. -/
lemma Reads.length_words_le {arguments : List Text} {a : Arguments}
    (h : Reads known mixed arguments a) : a.words.length ≤ arguments.length := by
  induction h with
  | nil => exact Nat.le_refl _
  | dashes rest => exact Nat.le_succ _
  | @options argument rest left options a hne hread ha ih =>
    obtain ⟨taken, rfl, -⟩ := exists_taken_of_readOption? hread
    simp only [List.length_cons, List.length_append]
    omega
  | word hmixed hne hread ha ih => exact Nat.succ_le_succ ih
  | stop => exact Nat.le_refl _

/-- A word that ends the options does so whatever stands behind it.

**Proof sketch.** By induction on how the arguments are read. Where words end the options, they are
a suffix of the arguments, and their number tells where it begins. An option in front takes the same
arguments, whatever stands behind them. -/
lemma Reads.replace {before rest : List Text} {w : Text} {a : Arguments}
    (h : Reads known false (before ++ w :: rest) a) (hwords : a.words = w :: rest)
    (rest' : List Text) : Reads known false (before ++ w :: rest') ⟨a.options, w :: rest'⟩ := by
  generalize harguments : before ++ w :: rest = arguments at h
  -- The words are a suffix of the arguments, and their number tells where it begins.
  induction h generalizing before with
  | nil => cases hwords
  | dashes behind =>
    obtain rfl : behind = w :: rest := hwords
    obtain rfl : before = [['-', '-']] := List.append_cancel_right harguments
    exact .dashes (w :: rest')
  | @options argument behind left options a hne hread ha ih =>
    have hlong := ha.length_words_le
    rw [show a.words = w :: rest from hwords, List.length_cons] at hlong
    obtain ⟨taken, rfl, htail⟩ := exists_taken_of_readOption? hread
    -- What is left begins in front of the word or with it.
    obtain ⟨between, hleft⟩ : w :: rest <:+ left :=
      List.suffix_of_suffix_length_le ⟨before, harguments⟩
        (List.suffix_append (argument :: taken) left) hlong
    have hbefore : before ++ w :: rest = argument :: (taken ++ between) ++ w :: rest := by
      rw [harguments, ← hleft, List.cons_append, List.append_assoc]
    obtain rfl : before = argument :: (taken ++ between) := List.append_cancel_right hbefore
    have hread' := htail (between ++ w :: rest')
    rw [← List.append_assoc] at hread'
    exact .options hne hread' (ih hwords hleft)
  | word hmixed => cases hmixed
  | @stop argument behind hmixed hne hread =>
    obtain ⟨rfl, rfl⟩ := List.cons.inj (show argument :: behind = w :: rest from hwords)
    obtain rfl : before = [] := List.append_cancel_right harguments
    exact .stop rest' rfl hne (readOption?_eq_none hread rest')

/-! ## Commands -/

/-- A command is asked for by its own word. -/
lemma CommandName.eq_word_of_ofWord? {w : Text} {command : CommandName}
    (h : CommandName.ofWord? w = some command) : w = command.word := by
  have hword := List.find?_some h
  exact (beq_iff_eq.1 hword).symm

/-- The command is found where it was, whatever stands behind it.

**Proof sketch.** The word of the command is the first one that is read, and it ends the options. So
the words behind it may be replaced (`Reads.replace`), and the command is looked up by its word
again. -/
theorem GlobalOptions.ofArguments?_replace {before rest : List Text} {command : CommandName}
    {g : GlobalOptions}
    (h : GlobalOptions.ofArguments? (before ++ command.word :: rest) = some (g, command, rest))
    (rest' : List Text) :
    GlobalOptions.ofArguments? (before ++ command.word :: rest') = some (g, command, rest') := by
  unfold GlobalOptions.ofArguments? at h ⊢
  obtain ⟨a, ha, h⟩ := Option.bind_eq_some_iff.1 h
  have hwords : a.words = command.word :: rest := by
    cases hw : a.words with
    | nil =>
      rw [hw] at h
      cases h
    | cons w words =>
      rw [hw] at h
      obtain ⟨command', hcommand, h⟩ := Option.bind_eq_some_iff.1 h
      cases h
      rw [CommandName.eq_word_of_ofWord? hcommand]
  rw [hwords] at h
  obtain ⟨command', hcommand, h⟩ := Option.bind_eq_some_iff.1 h
  cases h
  have hreads := (readArguments?_eq_some_iff.1 ha).replace hwords rest'
  rw [hreads.readArguments?]
  show (CommandName.ofWord? command.word).bind _ = _
  rw [hcommand]
  rfl

end PatchStack
