import PatchStack.Proofs.Sessions

set_option autoImplicit false

/-!
# Services with a record

What resolving a revision asks of the services can be seen from a record of the requests. Services
that keep one answer as they do without it, so that everything that is resolved with them comes out
as before, in the same state; the record only grows, request by request.

## Main definitions

* `PatchStack.Run.recorded` — a computation that is recorded as a request.
* `PatchStack.Services.recorded` — services that record every request.
* `PatchStack.Run.Records` — a computation does the same as another one, and keeps a record.

## Main results

* `PatchStack.Run.run_recorded` — a request and its answer.
* `PatchStack.Services.resolveSpec_records` — resolving is the same with a record.
-/

namespace PatchStack

variable {σ α β : Type}

/-! ## Requests -/

/-- The computation as an answer to a request. The request is recorded whether or not it fails. -/
def Run.recorded (m : Run σ α) (request : Request) : Run (σ × List Request) α :=
  ExceptT.mk fun st => ((m.run.run st.1).1, (m.run.run st.1).2, st.2 ++ [request])

/-- The services, with a record of what they are asked for behind their state. -/
def Services.recorded (v : Services σ) : Services (σ × List Request) where
  stackOf branch := (v.stackOf branch).recorded (.stack branch)
  lookup revision := (v.lookup revision).recorded (.lookup revision)
  applySuffix commit suffix := (v.applySuffix commit suffix).recorded (.suffix commit suffix)

/-- A request is answered as without the record, and is the last one of it from then on. -/
theorem Run.run_recorded (m : Run σ α) (request : Request) (st : σ) (asked : List Request) :
    (m.recorded request).run.run (st, asked) =
      ((m.run.run st).1, (m.run.run st).2, asked ++ [request]) := rfl

section Requests

variable (v : Services σ) (st : σ) (asked : List Request)

/-- Looking for a commit is recorded. -/
lemma Services.run_recorded_lookup (revision : Text) :
    (v.recorded.lookup revision).run.run (st, asked) =
      (((v.lookup revision).run.run st).1, ((v.lookup revision).run.run st).2,
        asked ++ [.lookup revision]) :=
  Run.run_recorded _ _ st asked

/-- Selecting a commit by a suffix is recorded. -/
lemma Services.run_recorded_applySuffix (commit : Commit) (suffix : Text) :
    (v.recorded.applySuffix commit suffix).run.run (st, asked) =
      (((v.applySuffix commit suffix).run.run st).1, ((v.applySuffix commit suffix).run.run st).2,
        asked ++ [.suffix commit suffix]) :=
  Run.run_recorded _ _ st asked

end Requests

/-! ## The same computation with a record -/

namespace Run

/-- From every state the first computation ends as the second, and adds something to the record. -/
def Records (n : Run (σ × List Request) α) (m : Run σ α) : Prop :=
  ∀ st asked, ∃ more,
    n.run.run (st, asked) = ((m.run.run st).1, (m.run.run st).2, asked ++ more)

namespace Records

variable {n : Run (σ × List Request) α} {m : Run σ α}

/-- A recorded computation adds its request. -/
lemma recorded (m : Run σ α) (request : Request) : (m.recorded request).Records m :=
  fun _ _ => ⟨[request], rfl⟩

/-- What ends at once asks for nothing. -/
lemma ofExcept (x : Except Error α) : (ofExcept x : Run _ α).Records (ofExcept x : Run σ α) :=
  fun _ _ => ⟨[], by simp⟩

/-- What is done asks for nothing. -/
lemma pure (a : α) : (pure a : Run _ α).Records (pure a : Run σ α) := ofExcept (.ok a)

/-- What fails asks for nothing. -/
lemma throw (e : Error) : (throw e : Run _ α).Records (throw e : Run σ α) := ofExcept (.error e)

/-- The second of two steps adds to the record of the first one. -/
lemma bind {f : α → Run (σ × List Request) β} {g : α → Run σ β} (h : n.Records m)
    (hf : ∀ a, (f a).Records (g a)) : (n >>= f).Records (m >>= g) := by
  intro st asked
  obtain ⟨more, hmore⟩ := h st asked
  rw [run_bind, run_bind, hmore]
  rcases m.run.run st with ⟨e | a, st'⟩
  · exact ⟨more, rfl⟩
  · obtain ⟨rest, hrest⟩ := hf a st' (asked ++ more)
    exact ⟨more ++ rest, by simpa using hrest⟩

/-- Looking at an outcome asks for what the computation does. -/
lemma outcome (h : n.Records m) : n.outcome.Records m.outcome := by
  intro st asked
  obtain ⟨more, hmore⟩ := h st asked
  refine ⟨more, ?_⟩
  rw [run_outcome, run_outcome, hmore]

end Records

end Run

/-! ## Resolving with a record -/

namespace Services

variable (v : Services σ) (s : Stack) (current : Option Stack)

/-- What is at a position is the same with a record. -/
lemma revisionAt_records (index : Int) :
    (revisionAt v.recorded s index).Records (revisionAt v s index) := by
  unfold revisionAt
  split_ifs
  · exact .bind (.ofExcept _) fun _ => .bind (.recorded _ _) fun _ => .pure _
  · exact .bind (.ofExcept _) fun _ => .bind (.recorded _ _) fun _ => .pure _

/-- A locator with its suffix is resolved in the same way with a record. -/
lemma resolvePatchLike_records (p : PatchLike) :
    (resolvePatchLike v.recorded p s).Records (resolvePatchLike v p s) := by
  refine .bind (.ofExcept _) fun index => .bind (v.revisionAt_records s index) fun found => ?_
  split_ifs
  · exact .pure _
  · exact .bind (.recorded _ _) fun _ => .pure _

/-- A revision of git is the same with a record. -/
lemma resolveGit_records (whole : Text) :
    (resolveGit v.recorded whole).Records (resolveGit v whole) :=
  .bind (.recorded _ _) fun _ => .pure _

/-- The current stack is the same with a record. -/
lemma currentStack_records :
    (currentStack v.recorded current).Records (currentStack v current) := by
  cases current with
  | some s => exact .pure s
  | none => exact .recorded _ _

/-- Git is asked instead in the same way with a record.

**Proof sketch.** Each step is recorded by itself, and which one comes next depends on results only,
which the record does not change. -/
lemma resolvePatchOrGit_records (p : PatchLike) (whole : Text) :
    (resolvePatchOrGit v.recorded p whole current).Records
      (resolvePatchOrGit v p whole current) := by
  refine .bind (v.currentStack_records current).outcome fun stack => ?_
  cases stack with
  | error e =>
    dsimp only
    rw [pure_bind, pure_bind]
    cases e with
    | unknownPatch | unknownBranch => exact v.resolveGit_records whole
    | _ => exact .throw _
  | ok s =>
    refine .bind (v.resolvePatchLike_records s p).outcome fun found => ?_
    dsimp only
    split
    · exact .pure _
    · exact v.resolveGit_records whole
    · exact v.resolveGit_records whole
    · split_ifs
      · refine .bind (v.resolveGit_records whole).outcome fun again => ?_
        split
        · exact .throw _
        · exact .throw _
        · exact .pure _
      · exact .throw _
    · exact .throw _
    · exact .throw _

/-- A single revision is the same with a record. -/
lemma resolveRevision_records (r : Revision) :
    (resolveRevision v.recorded r current).Records (resolveRevision v r current) := by
  cases r with
  | git whole => exact v.resolveGit_records whole
  | onBranch branch p => exact .bind (.recorded _ _) fun s => v.resolvePatchLike_records s p
  | patchOrGit p whole => exact v.resolvePatchOrGit_records current p whole
  | patch p => exact .bind (v.currentStack_records current) fun s => v.resolvePatchLike_records s p

/-- Both ends of a range are the same with a record. -/
lemma resolveBounds_records (b : Bounds) (c : RangeConstraint) :
    (resolveBounds v.recorded b s c).Records (resolveBounds v b s c) := by
  refine .bind (.ofExcept _) fun names => ?_
  split
  · exact .throw _
  · refine .bind (.recorded _ _) fun begins => ?_
    dsimp only
    split_ifs
    · exact .bind (.pure _) fun _ => .pure _
    · exact .bind (.recorded _ _) fun _ => .pure _

/-- **Resolving is the same with a record.** Whatever is resolved ends as without it and leaves the
same state, and the record that there was is the beginning of the record afterwards. -/
theorem resolveSpec_records (spec : RevisionSpec) (c : RangeConstraint) :
    (resolveSpec v.recorded spec current c).Records (resolveSpec v spec current c) := by
  cases spec with
  | branchRange branch b => exact .bind (.recorded _ _) fun s => v.resolveBounds_records s b c
  | range b => exact .bind (v.currentStack_records current) fun s => v.resolveBounds_records s b c
  | single r => exact .bind (v.resolveRevision_records current r) fun _ => .pure _

end Services

end PatchStack
