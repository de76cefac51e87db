import PatchStack.CommandLine.Run
import PatchStack.Proofs.Resolutions
import PatchStack.Proofs.Sessions

set_option autoImplicit false

/-!
# One commit for each id

A session makes one commit for each id that git answers, and finds it again whenever git answers
the id again, for whichever revision. So commits can be compared by their ids, and the message of
a commit is fetched once. Resolving revisions is a list of such requests: all that one command
resolves is compared in this way too.

## Main definitions

* `PatchStack.Git.Answers`, `PatchStack.Git.HasAnswered` — a commit is found, or was found.
* `PatchStack.Git.FetchedAfter` — when the message of a commit was fetched.
* `PatchStack.Session.Coherent` — the commits remembered and the messages fetched fit together.
* `PatchStack.Git.boundaries` — what revisions resolve to, one after the other.
* `PatchStack.Git.FindsCommitsOnce` — how a session finds commits.

## Main results

* `PatchStack.Session.Coherent.serve`, `PatchStack.Git.coherent_session` — sessions are coherent.
* `PatchStack.Git.commit?_session_eq_some_iff` — the commits remembered are the commits found.
* `PatchStack.Git.one_commit_per_id` — an id has one commit in a session.
-/

namespace PatchStack

namespace Git

variable (git : Git)

/-! ## Fetched messages -/

/-- After the commands `past` the message of the commit was fetched. -/
def FetchedAfter (past calls : List Command) (id : Text) : Prop :=
  (∃ behind, calls = past ++ summaryCommand id :: behind) ∧
    ∃ summary, git.summaryAfter past id = .ok summary

variable {git} {past calls calls' : List Command} {command : Command} {id : Text}

/-- Without commands no message was fetched. -/
lemma not_fetchedAfter_nil : ¬ git.FetchedAfter past [] id := by
  rintro ⟨⟨behind, h⟩, -⟩
  exact absurd h (by simp)

/-- A message was fetched by the last command or by one before it.

**Proof sketch.** The last command is the one that fetches, or it comes behind that one. -/
lemma fetchedAfter_concat :
    git.FetchedAfter past (calls ++ [command]) id ↔
      git.FetchedAfter past calls id ∨
        (past = calls ∧ command = summaryCommand id ∧
          ∃ summary, git.summaryAfter calls id = .ok summary) := by
  constructor
  · rintro ⟨⟨behind, h⟩, hread⟩
    obtain ⟨-, rfl, rfl⟩ | ⟨behind, rfl, rfl⟩ := append_singleton_eq_append_cons_iff.1 h
    · exact .inr ⟨rfl, rfl, hread⟩
    · exact .inl ⟨⟨behind, rfl⟩, hread⟩
  · rintro (⟨⟨behind, rfl⟩, hread⟩ | ⟨rfl, rfl, hread⟩)
    · exact ⟨⟨behind ++ [command], by simp⟩, hread⟩
    · exact ⟨⟨[], rfl⟩, hread⟩

/-- Other commands fetch no message. -/
lemma fetchedAfter_of_adds
    (h : Adds (fun command => ∀ id, command ≠ summaryCommand id) calls calls') :
    git.FetchedAfter past calls' id ↔ git.FetchedAfter past calls id := by
  obtain ⟨new, rfl, hnew⟩ := h
  induction new using List.reverseRecOn with
  | nil => rw [List.append_nil]
  | append_singleton new command ih =>
    rw [List.forall_mem_append] at hnew
    have hother : command ≠ summaryCommand id := hnew.2 command (List.mem_singleton_self _) id
    rw [← List.append_assoc, fetchedAfter_concat, ih hnew.1]
    simp [hother]

/-- To ask for an id fetches no message. -/
lemma idCommand_ne_summaryCommand (revision id : Text) :
    idCommand revision ≠ summaryCommand id := by
  simp [idCommand, summaryCommand]

/-- To ask for a document fetches no message. -/
lemma documentCommand_ne_summaryCommand (name id : Text) :
    documentCommand name ≠ summaryCommand id := by
  simp [documentCommand, summaryCommand]

/-- To ask for a branch fetches no message. -/
lemma branchCommand_ne_summaryCommand (branch : Option Text) (id : Text) :
    branchCommand branch ≠ summaryCommand id := by
  unfold branchCommand summaryCommand
  split
  · simp
  · split_ifs <;> simp

end Git

/-! ## Coherent sessions -/

/-- The commits that a session remembers and the messages that it fetched fit together. -/
structure Session.Coherent (git : Git) (st : Session) : Prop where
  /-- A commit is remembered for its own id. -/
  id_eq : ∀ {id c}, st.commit? id = some c → c.id = id
  /-- It was made before the next one. -/
  serial_lt : ∀ {id c}, st.commit? id = some c → c.serial < st.made
  /-- The commits of different ids were made one after the other. -/
  id_eq_of_serial : ∀ {id id' c c'}, st.commit? id = some c → st.commit? id' = some c' →
    c.serial = c'.serial → id = id'
  /-- A commit whose message was fetched is remembered. -/
  remembered : ∀ {past id}, git.FetchedAfter past st.calls id → ∃ c, st.commit? id = some c
  /-- Its message was fetched once. -/
  once : ∀ {past past' id}, git.FetchedAfter past st.calls id →
    git.FetchedAfter past' st.calls id → past = past'

namespace Session.Coherent

variable {git : Git} {st st' : Session}

/-- A new session is coherent. -/
lemma fresh : Session.Coherent git .fresh where
  id_eq h := nomatch h
  serial_lt h := nomatch h
  id_eq_of_serial h := nomatch h
  remembered h := absurd h Git.not_fetchedAfter_nil
  once h := absurd h Git.not_fetchedAfter_nil

/-- A session stays coherent as long as no commit is made and no message is fetched.

**Proof sketch.** The five properties are about the commits remembered, their number and the
messages fetched, all of which are as before. -/
lemma of_frame (h : st.Coherent git) (hcommits : st'.commits = st.commits)
    (hmade : st'.made = st.made)
    (hcalls : ∀ {past id}, git.FetchedAfter past st'.calls id → git.FetchedAfter past st.calls id) :
    st'.Coherent git := by
  have hcommit (id : Text) : st'.commit? id = st.commit? id := by simp [commit?, hcommits]
  constructor
  · intro id c hc
    exact h.id_eq ((hcommit id).symm.trans hc)
  · intro id c hc
    rw [hmade]
    exact h.serial_lt ((hcommit id).symm.trans hc)
  · intro id id' c c' hc hc'
    exact h.id_eq_of_serial ((hcommit id).symm.trans hc) ((hcommit id').symm.trans hc')
  · intro past id hfetched
    rw [hcommit]
    exact h.remembered (hcalls hfetched)
  · intro past past' id hfetched hfetched'
    exact h.once (hcalls hfetched) (hcalls hfetched')

/-- A command that fetches no message keeps a session coherent. -/
lemma asked (h : st.Coherent git) {command : Command}
    (hother : ∀ id, command ≠ Git.summaryCommand id) : (st.asked command).Coherent git :=
  h.of_frame rfl rfl (Git.fetchedAfter_of_adds (.concat hother st.calls)).1

/-- Where the message of a commit cannot be read, nothing was fetched. -/
lemma asked_summary (h : st.Coherent git) {id : Text} {e : Error}
    (hs : git.summaryAfter st.calls id = .error e) :
    (st.asked (Git.summaryCommand id)).Coherent git := by
  refine h.of_frame rfl rfl fun {past id'} hfetched => ?_
  rcases Git.fetchedAfter_concat.1 hfetched with hbefore | ⟨-, hcommand, summary, hread⟩
  · exact hbefore
  · obtain rfl : id = id' := by simpa [Git.summaryCommand] using hcommand
    cases hs.symm.trans hread

/-- A session stays coherent if the commit of a new id is made as soon as its message is fetched.

**Proof sketch.** What is remembered is what was, and the new commit; what has been fetched is what
was, and its message. Its number is the next one and its id is new, so that the five properties hold
between the old and the new as well. -/
lemma make (h : st.Coherent git) {id summary : Text} (hnone : st.commit? id = none) :
    Session.Coherent git { st.asked (Git.summaryCommand id) with
      commits := (id, ⟨id, summary, st.made⟩) :: st.commits, made := st.made + 1 } := by
  -- what is remembered: all that was, and the new commit
  have hcommit {id' : Text} {c : Commit} :
      Session.commit? { st.asked (Git.summaryCommand id) with
        commits := (id, ⟨id, summary, st.made⟩) :: st.commits, made := st.made + 1 } id' = some c ↔
      st.commit? id' = some c ∨ (id' = id ∧ c = ⟨id, summary, st.made⟩) :=
    find?_map_cons_eq_some_iff hnone id' c
  -- what is fetched: all that was, and the message of the new commit, for the first time
  have hunfetched {past : List Command} : ¬ git.FetchedAfter past st.calls id := fun hfetched => by
    obtain ⟨c, hc⟩ := h.remembered hfetched
    cases hnone.symm.trans hc
  constructor
  · intro id' c hc
    rcases hcommit.1 hc with hc | ⟨rfl, rfl⟩
    · exact h.id_eq hc
    · rfl
  · intro id' c hc
    rcases hcommit.1 hc with hc | ⟨rfl, rfl⟩
    · exact Nat.lt_succ_of_lt (h.serial_lt hc)
    · exact Nat.lt_succ_self _
  · intro id₁ id₂ c₁ c₂ hc₁ hc₂ hserial
    rcases hcommit.1 hc₁ with hold₁ | ⟨rfl, rfl⟩ <;>
      rcases hcommit.1 hc₂ with hold₂ | ⟨rfl, rfl⟩
    · exact h.id_eq_of_serial hold₁ hold₂ hserial
    · exact absurd hserial (Nat.ne_of_lt (h.serial_lt hold₁))
    · exact absurd hserial (Nat.ne_of_gt (h.serial_lt hold₂))
    · rfl
  · intro past id' hfetched
    rcases Git.fetchedAfter_concat.1 hfetched with hbefore | ⟨-, hcommand, -⟩
    · obtain ⟨c, hc⟩ := h.remembered hbefore
      exact ⟨c, hcommit.2 (.inl hc)⟩
    · obtain rfl : id = id' := by simpa [Git.summaryCommand] using hcommand
      exact ⟨_, hcommit.2 (.inr ⟨rfl, rfl⟩)⟩
  · intro past past' id' hfetched hfetched'
    rcases Git.fetchedAfter_concat.1 hfetched with hbefore | ⟨rfl, hcommand, -⟩ <;>
      rcases Git.fetchedAfter_concat.1 hfetched' with hbefore' | ⟨rfl, hcommand', -⟩
    · exact h.once hbefore hbefore'
    · obtain rfl : id = id' := by simpa [Git.summaryCommand] using hcommand'
      exact absurd hbefore hunfetched
    · obtain rfl : id = id' := by simpa [Git.summaryCommand] using hcommand
      exact absurd hbefore' hunfetched
    · rfl

/-- Looking for a commit keeps a session coherent, however it goes. -/
lemma lookup (h : st.Coherent git) (revision : Text) :
    ((git.lookup revision).run.run st).2.Coherent git := by
  have hasked := h.asked (Git.idCommand_ne_summaryCommand revision)
  have hrun := git.lookupRun st revision
  generalize (git.lookup revision).run.run st = r at hrun ⊢
  cases hrun with
  | refused => exact h
  | unidentified | remembered => exact hasked
  | unreadable ha hid hc hs => exact hasked.asked_summary hs
  | made ha hid hc hs => exact hasked.make hc

/-- **One more request keeps a session coherent**, whether or not it fails. -/
theorem serve (h : st.Coherent git) (r : Request) : (git.serve st r).Coherent git := by
  cases r with
  | stack branch =>
    obtain ⟨calls, branchStacks, hst, hadds⟩ := Git.exists_state_of_stackOf
      (p := fun command => ∀ id, command ≠ Git.summaryCommand id) branch st
      (Git.branchCommand_ne_summaryCommand branch)
      (fun name _ => Git.documentCommand_ne_summaryCommand name)
      (fun revision _ => Git.idCommand_ne_summaryCommand revision)
    rw [Git.serve, hst]
    exact h.of_frame rfl rfl (Git.fetchedAfter_of_adds hadds).1
  | lookup revision => exact h.lookup revision
  | suffix c text => exact h.lookup (c.id ++ text)

end Session.Coherent

namespace Git

variable {git : Git} {st : Session} {id : Text} {c : Commit}

variable (git) in
/-- All sessions are coherent. -/
theorem coherent_session (requests : List Request) : (git.session requests).Coherent git := by
  induction requests using List.reverseRecOn with
  | nil => exact .fresh
  | append_singleton requests r ih =>
    rw [session_concat]
    exact ih.serve r

/-! ## Commits found -/

variable (git st) in
/-- Looking for a stack does not touch the commits. -/
lemma commits_stackOf (branch : Option Text) :
    ((git.stackOf branch).run.run st).2.commits = st.commits := by
  have hrun := git.stackRun st branch
  generalize (git.stackOf branch).run.run st = r at hrun ⊢
  cases hrun <;> rfl

/-- A commit stays remembered.

**Proof sketch.** A stack leaves the commits as they are. A look-up adds one at most, for an id that
none was remembered for. -/
lemma commit?_serve_of_eq_some (r : Request) (h : st.commit? id = some c) :
    (git.serve st r).commit? id = some c := by
  have hlookup (revision : Text) : ((git.lookup revision).run.run st).2.commit? id = some c := by
    have hrun := git.lookupRun st revision
    generalize (git.lookup revision).run.run st = r at hrun ⊢
    cases hrun with
    | made ha hid hc hs => exact (find?_map_cons_eq_some_iff hc id c).2 (.inl h)
    | _ => exact h
  cases r with
  | stack branch => rwa [serve, Session.commit?, commits_stackOf]
  | lookup revision => exact hlookup revision
  | suffix c text => exact hlookup (c.id ++ text)

/-- A commit that was looked up successfully is remembered.

**Proof sketch.** It was remembered before, or it was just made and is in front of all others. -/
lemma exists_commit?_of_lookup {revision : Text}
    (h : ((git.lookup revision).run.run st).1 = .ok c) :
    ∃ id, ((git.lookup revision).run.run st).2.commit? id = some c := by
  have hrun := git.lookupRun st revision
  generalize (git.lookup revision).run.run st = r at hrun h ⊢
  cases hrun with
  | @remembered id c' ha hid hc =>
    cases h
    exact ⟨id, hc⟩
  | @made id summary ha hid hc hs =>
    cases h
    exact ⟨id, (find?_map_cons_eq_some_iff hc id _).2 (.inr ⟨rfl, rfl⟩)⟩
  | _ => cases h

variable (git st) in
/-- The request finds the commit. -/
def Answers : Request → Commit → Prop
  | .stack _, _ => False
  | .lookup revision, c => ((git.lookup revision).run.run st).1 = .ok c
  | .suffix commit text, c => ((git.applySuffix commit text).run.run st).1 = .ok c

/-- A commit is found by looking for a revision, whichever way the request names it. -/
lemma answers_iff {r : Request} :
    git.Answers st r c ↔
      ∃ revision, r.revision? = some revision ∧ ((git.lookup revision).run.run st).1 = .ok c := by
  cases r <;> simp [Answers, Request.revision?, applySuffix]

/-- A commit that is found is the one of the id that git answers.

**Proof sketch.** A commit is remembered under the id that git answers, or it is made with it. -/
lemma idAt_of_lookup (hst : st.Coherent git) {revision : Text}
    (h : ((git.lookup revision).run.run st).1 = .ok c) :
    IsAskable revision ∧ git.idAt st revision = .ok c.id := by
  have hrun := git.lookupRun st revision
  generalize (git.lookup revision).run.run st = r at hrun h
  cases hrun with
  | remembered ha hid hc =>
    cases h
    rw [hst.id_eq hc]
    exact ⟨ha, hid⟩
  | made ha hid hc hs =>
    cases h
    exact ⟨ha, hid⟩
  | _ => cases h

/-- What is remembered after looking for a commit was remembered before, or was found. -/
lemma commit?_of_lookup {revision : Text}
    (h : ((git.lookup revision).run.run st).2.commit? id = some c) :
    st.commit? id = some c ∨ (((git.lookup revision).run.run st).1 = .ok c ∧ c.id = id) := by
  have hrun := git.lookupRun st revision
  generalize (git.lookup revision).run.run st = r at hrun h ⊢
  cases hrun with
  | made ha hid hc hs =>
    rcases (find?_map_cons_eq_some_iff hc id c).1 h with hbefore | ⟨rfl, rfl⟩
    · exact .inl hbefore
    · exact .inr ⟨rfl, rfl⟩
  | _ => exact .inl h

/-- What one request adds to the commits remembered.

**Proof sketch.** There is one case for each request. A commit that a look-up gives out is
remembered under its id, and nothing is forgotten. -/
theorem commit?_serve_eq_some_iff (hst : st.Coherent git) (r : Request) :
    (git.serve st r).commit? id = some c ↔
      st.commit? id = some c ∨ (git.Answers st r c ∧ c.id = id) := by
  constructor
  · intro h
    cases r with
    | stack branch =>
      rw [serve, Session.commit?, commits_stackOf] at h
      exact .inl h
    | lookup revision => exact commit?_of_lookup h
    | suffix commit text => exact commit?_of_lookup h
  · rintro (h | ⟨h, rfl⟩)
    · exact commit?_serve_of_eq_some r h
    · obtain ⟨revision, hr, hfound⟩ := answers_iff.1 h
      obtain ⟨id, hc⟩ := exists_commit?_of_lookup hfound
      rw [git.serve_of_revision hr, (hst.lookup revision).id_eq hc]
      exact hc

variable (git) in
/-- One of the requests found the commit. -/
def HasAnswered (requests : List Request) (c : Commit) : Prop :=
  git.Occurs (fun st r => git.Answers st r c) requests

/-- The commits remembered are the commits found, each for its id. -/
theorem commit?_session_eq_some_iff (requests : List Request) (id : Text) (c : Commit) :
    (git.session requests).commit? id = some c ↔ git.HasAnswered requests c ∧ c.id = id := by
  induction requests using List.reverseRecOn with
  | nil => simp [HasAnswered, Session.fresh, Session.commit?, not_occurs_nil]
  | append_singleton requests r ih =>
    rw [session_concat, commit?_serve_eq_some_iff (git.coherent_session requests), ih, HasAnswered,
      HasAnswered, occurs_concat, or_and_right]

/-! ## Revisions one after the other -/

variable (git) in
/-- The second session comes about from the first one by requests. -/
def Reaches (st st' : Session) : Prop :=
  ∃ requests : List Request, st' = requests.foldl git.serve st

/-- One request leads on. -/
lemma Reaches.serve (st : Session) (r : Request) : git.Reaches st (git.serve st r) := ⟨[r], rfl⟩

/-- Requests after requests lead on. -/
lemma Reaches.trans {st₁ st₂ st₃ : Session} (h : git.Reaches st₁ st₂) (h' : git.Reaches st₂ st₃) :
    git.Reaches st₁ st₃ := by
  obtain ⟨requests, rfl⟩ := h
  obtain ⟨requests', rfl⟩ := h'
  exact ⟨requests ++ requests', (List.foldl_append ..).symm⟩

/-- A commit stays remembered over any requests. -/
lemma Reaches.commit?_eq_some {st st' : Session} (h : git.Reaches st st')
    (hc : st.commit? id = some c) : st'.commit? id = some c := by
  obtain ⟨requests, rfl⟩ := h
  induction requests generalizing st with
  | nil => exact hc
  | cons r requests ih => exact ih (commit?_serve_of_eq_some r hc)

/-- What is reached from a session is a session. -/
lemma Reaches.exists_session {requests : List Request}
    (h : git.Reaches (git.session requests) st) : ∃ more, st = git.session (requests ++ more) := by
  obtain ⟨more, rfl⟩ := h
  exact ⟨more, (List.foldl_append ..).symm⟩

/-- The commit is remembered. -/
def Holds (c : Commit) (st : Session) : Prop := ∃ id, st.commit? id = some c

variable (git) in
/-- The services of git are requests, and what they find is remembered. -/
theorem services_leads : git.services.Leads git.Reaches Holds where
  refl _ := ⟨[], rfl⟩
  trans _ _ _ h h' := h.trans h'
  kept h hc := hc.imp fun _ => h.commit?_eq_some
  stackOf branch st := ⟨.serve st (.stack branch), fun _ _ => trivial⟩
  lookup revision st := ⟨.serve st (.lookup revision), fun _ h => exists_commit?_of_lookup h⟩
  applySuffix commit text st :=
    ⟨.serve st (.suffix commit text), fun _ h => exists_commit?_of_lookup h⟩

variable (git) in
/-- What revisions resolve to, one after the other, up to the first one that does not resolve. -/
def boundaries (current : Option Stack) (constraint : RangeConstraint) :
    List RevisionSpec → Session → List Boundary
  | [], _ => []
  | spec :: rest, st =>
    match (resolveSpec git.services spec current constraint).run.run st with
    | (.ok b, st') => b :: boundaries current constraint rest st'
    | (.error _, _) => []

/-- The lines that a command prints for revisions are those of what they resolve to. -/
theorem lines_revLines (w : Surroundings) (constraint : RangeConstraint)
    (specs : List RevisionSpec) (st : Session) :
    (w.revLines constraint specs st).1.lines =
      (w.git.boundaries none constraint specs st).flatMap boundaryLines := by
  induction specs generalizing st with
  | nil => rfl
  | cons spec rest ih =>
    unfold Surroundings.revLines boundaries
    rcases (resolveSpec w.git.services spec none constraint).run.run st with ⟨e | b, st'⟩
    · rfl
    · rw [List.flatMap_cons, ← ih]

/-- All commits of revisions are remembered together.

**Proof sketch.** By induction on the revisions. What one of them resolves to is kept while the
others are resolved. -/
lemma exists_holds_boundaries (current : Option Stack) (constraint : RangeConstraint)
    (specs : List RevisionSpec) (st : Session) :
    ∃ st', git.Reaches st st' ∧
      ∀ b ∈ git.boundaries current constraint specs st, b.Fits Holds st' := by
  induction specs generalizing st with
  | nil => exact ⟨st, ⟨[], rfl⟩, by simp [boundaries]⟩
  | cons spec rest ih =>
    have hleads := git.services_leads.resolveSpec current spec constraint st
    unfold boundaries
    rcases hr : (resolveSpec git.services spec current constraint).run.run st with ⟨e | b, st₁⟩
    · exact ⟨st, ⟨[], rfl⟩, by simp⟩
    · rw [Run.LeadsFrom, hr] at hleads
      obtain ⟨hfirst, hlast⟩ := hleads.2 b rfl
      obtain ⟨st₂, hst₂, hrest⟩ := ih st₁
      refine ⟨st₂, hleads.1.trans hst₂, List.forall_mem_cons.2 ⟨?_, hrest⟩⟩
      exact ⟨git.services_leads.kept hst₂ hfirst, git.services_leads.kept hst₂ hlast⟩

/-! ## One commit for each id -/

/-- The commits are the very same, made at once, exactly if their ids are the same. -/
def SameIffId (c c' : Commit) : Prop :=
  (c = c' ↔ c.id = c'.id) ∧ (c.serial = c'.serial ↔ c.id = c'.id)

/-- In a coherent session commits can be compared by their ids. -/
lemma sameIffId_of_holds (hst : st.Coherent git) {c c' : Commit} (hc : Holds c st)
    (hc' : Holds c' st) : SameIffId c c' := by
  obtain ⟨id, hid⟩ := hc
  obtain ⟨id', hid'⟩ := hc'
  obtain rfl := hst.id_eq hid
  obtain rfl := hst.id_eq hid'
  have hsame (h : c.id = c'.id) : c = c' := by
    rw [h] at hid
    exact Option.some.inj (hid.symm.trans hid')
  exact ⟨⟨congrArg _, hsame⟩, hst.id_eq_of_serial hid hid', fun h => congrArg _ (hsame h)⟩

/-- Looking for a commit asks git for its id once, and then at most for its message. -/
lemma exists_calls_of_lookup {revision : Text} (ha : IsAskable revision) (st : Session) :
    ∃ rest, ((git.lookup revision).run.run st).2.calls = st.calls ++ idCommand revision :: rest ∧
      (rest = [] ∨ ∃ id, git.idAt st revision = .ok id ∧ rest = [summaryCommand id]) := by
  have hrun := git.lookupRun st revision
  generalize (git.lookup revision).run.run st = r at hrun ⊢
  cases hrun with
  | refused h => exact absurd ha h
  | unidentified | remembered => exact ⟨[], rfl, .inl rfl⟩
  | unreadable ha hid | made ha hid => exact ⟨_, List.append_assoc .., .inr ⟨_, hid, rfl⟩⟩

/-- A failure leaves the commits that are remembered as they were. -/
lemma commits_of_failure {revision : Text}
    (h : ∀ c, ((git.lookup revision).run.run st).1 ≠ .ok c) :
    ((git.lookup revision).run.run st).2.commits = st.commits := by
  have hrun := git.lookupRun st revision
  generalize (git.lookup revision).run.run st = r at hrun h ⊢
  cases hrun with
  | made => exact absurd rfl (h _)
  | _ => rfl

/-- The commits that revisions resolve to can be compared by their ids.

**Proof sketch.** There is one session that remembers all commits of all revisions
(`exists_holds_boundaries`), and it can be reached by requests. -/
lemma sameIffId_of_mem_boundaries {requests : List Request} {current : Option Stack}
    {constraint : RangeConstraint} {specs : List RevisionSpec} {b b' : Boundary}
    (hb : b ∈ git.boundaries current constraint specs (git.session requests))
    (hb' : b' ∈ git.boundaries current constraint specs (git.session requests)) {c c' : Commit}
    (hc : c ∈ [b.first.commit, b.last.commit]) (hc' : c' ∈ [b'.first.commit, b'.last.commit]) :
    SameIffId c c' := by
  obtain ⟨st, hreach, hfits⟩ := git.exists_holds_boundaries current constraint specs
    (git.session requests)
  obtain ⟨more, rfl⟩ := hreach.exists_session
  have hholds {b : Boundary} (hfit : b.Fits Holds (git.session (requests ++ more))) {c : Commit}
      (hc : c ∈ [b.first.commit, b.last.commit]) : Holds c (git.session (requests ++ more)) := by
    simp only [List.mem_cons, List.not_mem_nil, or_false] at hc
    rcases hc with rfl | rfl
    · exact hfit.1
    · exact hfit.2
  exact sameIffId_of_holds (git.coherent_session _) (hholds (hfits b hb) hc)
    (hholds (hfits b' hb') hc')

variable (git) in
/-- How a session finds commits after a list of requests. -/
structure FindsCommitsOnce (requests : List Request) : Prop where
  /-- Commits that were found can be compared by their ids. -/
  same_iff_id : ∀ c c', git.HasAnswered requests c → git.HasAnswered requests c' → SameIffId c c'
  /-- A commit is found for the id that git answers this time. -/
  id_answered : ∀ r c, git.Answers (git.session requests) r c →
    ∃ revision, r.revision? = some revision ∧ git.idAt (git.session requests) revision = .ok c.id
  /-- Nothing is run for what could be taken for an option. -/
  refused : ∀ r revision, r.revision? = some revision → ¬ IsAskable revision →
    git.serve (git.session requests) r = git.session requests ∧
      ∀ c, ¬ git.Answers (git.session requests) r c
  /-- Otherwise git is asked for the id once, and then at most for the message. -/
  asked_once : ∀ r revision, r.revision? = some revision → IsAskable revision →
    ∃ rest, (git.serve (git.session requests) r).calls =
        (git.session requests).calls ++ idCommand revision :: rest ∧
      (rest = [] ∨
        ∃ id, git.idAt (git.session requests) revision = .ok id ∧ rest = [summaryCommand id])
  /-- The message of a commit is fetched once. -/
  fetched_once : ∀ id past past', git.FetchedAfter past (git.session requests).calls id →
    git.FetchedAfter past' (git.session requests).calls id → past = past'
  /-- A request that finds no commit leaves those remembered as they were. -/
  kept_by_failure : ∀ r, (∀ c, ¬ git.Answers (git.session requests) r c) →
    (git.serve (git.session requests) r).commits = (git.session requests).commits
  /-- The commits at the ends of all that revisions resolve to can be compared by their ids. -/
  boundaries : ∀ current constraint specs,
    ∀ b ∈ git.boundaries current constraint specs (git.session requests),
    ∀ b' ∈ git.boundaries current constraint specs (git.session requests),
    ∀ c ∈ [b.first.commit, b.last.commit], ∀ c' ∈ [b'.first.commit, b'.last.commit], SameIffId c c'

/-- **One commit for each id.** After any requests, whatever git replied to them, a session finds
the very same commit for one id and different ones for different ids.

**Proof sketch.** Each request keeps the session coherent: a commit is made only for an id that
none is remembered for, right after its message was fetched, and gets a number that no other one
has. By induction on the requests all sessions are coherent and remember what was found. Resolving
revisions is a list of requests as well, so all their commits are remembered in one session. -/
theorem one_commit_per_id (git : Git) (requests : List Request) :
    git.FindsCommitsOnce requests := by
  have hst := git.coherent_session requests
  constructor
  case same_iff_id =>
    intro c c' hc hc'
    exact sameIffId_of_holds hst ⟨c.id, (commit?_session_eq_some_iff ..).2 ⟨hc, rfl⟩⟩
      ⟨c'.id, (commit?_session_eq_some_iff ..).2 ⟨hc', rfl⟩⟩
  case id_answered =>
    intro r c hc
    obtain ⟨revision, hr, hfound⟩ := answers_iff.1 hc
    exact ⟨revision, hr, (idAt_of_lookup hst hfound).2⟩
  case refused =>
    intro r revision hr ha
    rw [git.serve_of_revision hr, run_lookup_of_not_askable ha]
    refine ⟨rfl, fun c hc => ?_⟩
    obtain ⟨revision', hr', hfound⟩ := answers_iff.1 hc
    obtain rfl := Option.some.inj (hr.symm.trans hr')
    exact ha (idAt_of_lookup hst hfound).1
  case asked_once =>
    intro r revision hr ha
    rw [git.serve_of_revision hr]
    exact exists_calls_of_lookup ha _
  case fetched_once => exact fun id past past' h h' => hst.once h h'
  case kept_by_failure =>
    intro r hr
    cases hrevision : r.revision? with
    | none =>
      cases r with
      | stack branch => exact git.commits_stackOf _ branch
      | lookup | suffix => cases hrevision
    | some revision =>
      rw [git.serve_of_revision hrevision]
      exact commits_of_failure fun c hc => hr c (answers_iff.2 ⟨revision, hrevision, hc⟩)
  case boundaries =>
    intro current constraint specs b hb b' hb' c hc c' hc'
    exact sameIffId_of_mem_boundaries hb hb' hc hc'

/-- A repository in which two revisions name one commit. -/
def twoNames : ReplyTable :=
  [("rev-parse --verify HEAD^\x7bcommit\x7d".toList, prints "c0\n"),
    ("rev-parse --verify main^\x7bcommit\x7d".toList, prints "c0\n"),
    ("log -1 --format=%s c0".toList, prints "first\n")]

/-- Two revisions find one commit. -/
theorem one_commit_per_id_twoNames :
    ∃ c c', twoNames.git.Answers .fresh (.lookup "HEAD".toList) c ∧
      twoNames.git.Answers (twoNames.git.session [.lookup "HEAD".toList])
        (.lookup "main".toList) c' ∧
      c.id = c'.id ∧ c = c' := by
  let c : Commit := ⟨"c0".toList, "first".toList, 0⟩
  have h : twoNames.git.Answers .fresh (.lookup "HEAD".toList) c := by
    show _ = _
    decide +kernel
  have h' : twoNames.git.Answers (twoNames.git.session [.lookup "HEAD".toList])
      (.lookup "main".toList) c := by
    show _ = _
    decide +kernel
  have hsame := (one_commit_per_id twoNames.git
    [.lookup "HEAD".toList, .lookup "main".toList]).same_iff_id c c
    ⟨[], _, _, rfl, h⟩ ⟨[_], _, [], rfl, h'⟩
  exact ⟨c, c, h, h', rfl, hsame.1.2 rfl⟩

end Git

end PatchStack
