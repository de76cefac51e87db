import PatchStack.Proofs.StackOrder
import PatchStack.Stack.Metadata

set_option autoImplicit false

/-!
# Stacks made from stored documents

A stored document records a commit for every patch that it lists. So the one thing that can keep
it from becoming a stack is a patch that is listed twice, and the stack made from it has a commit
for each of its patches: the one that the document records, and no other.

## Main definitions

* `PatchStack.Metadata.CarriedOver` — a stack has what a document lists and records, and no more.

## Main results

* `PatchStack.Stack.ofData_eq_ok_iff`, `PatchStack.Stack.ofData_eq_error_iff` — when parts become a
  stack.
* `PatchStack.Metadata.toStack_eq_ok_iff`, `PatchStack.Metadata.toStack_eq_error_iff` — when a
  document becomes a stack, and which one.
* `PatchStack.Metadata.exists_commitOf?` — every listed patch has a recorded commit.
* `PatchStack.Metadata.commitOf_of_toStack` — the stack has the commits of the document.
* `PatchStack.Metadata.toStack_carries_over` — what becomes of every document.
-/

namespace PatchStack

/-! ## Checked parts -/

namespace Stack

variable {d : StackData} {s : Stack}

/-- Parts become the stack that has them, if they become one at all.

**Proof sketch.** The two tests are the fields of a stack that are proofs, so that they come out
well for the parts of a stack. -/
theorem ofData_eq_ok_iff : ofData d = .ok s ↔ s.toStackData = d := by
  unfold ofData
  constructor
  · intro h
    split at h
    · cases h
    · split_ifs at h
      cases h
      rfl
  · rintro rfl
    split
    · rename_i patch hrepeat
      rw [firstRepeat?_eq_none_iff.2 s.nodup] at hrepeat
      cases hrepeat
    · rw [dif_pos s.commits_listed]

/-- Parts become no stack if a patch is repeated or else if a commit is recorded for a patch outside
of the stack.

**Proof sketch.** Repetitions are looked for first, and entries without a patch are looked for only
if there are none. -/
theorem ofData_eq_error_iff {fault : StackFault} :
    ofData d = .error fault ↔
      (∃ n, firstRepeat? d.patches = some n ∧ fault = .repeated n) ∨
        (d.patches.Nodup ∧ (¬ ∀ entry ∈ d.commits, entry.1 ∈ d.patches) ∧
          fault = .unlisted d.unlisted) := by
  unfold ofData
  split
  · rename_i n hrepeat
    have hnot : ¬ d.patches.Nodup := fun h => by
      rw [firstRepeat?_eq_none_iff.2 h] at hrepeat
      cases hrepeat
    simp [hrepeat, hnot, eq_comm]
  · rename_i hnone
    split_ifs with hlisted
    · constructor
      · exact fun h => nomatch h
      · rintro (⟨n, h, -⟩ | ⟨-, hnot, -⟩)
        · cases hnone.symm.trans h
        · exact absurd hlisted hnot
    · constructor
      · intro h
        cases h
        exact .inr ⟨firstRepeat?_eq_none_iff.1 hnone, hlisted, rfl⟩
      · rintro (⟨n, h, -⟩ | ⟨-, -, rfl⟩)
        · cases hnone.symm.trans h
        · rfl

end Stack

/-! ## Stored documents -/

namespace Metadata

variable {m : Metadata} {base : Text} {s : Stack} {n : PatchName}

/-- No commit is left of those recorded for other patches. -/
lemma mem_listed_of_mem_commits {entry : PatchName × Text}
    (h : entry ∈ (m.toStackData base).commits) : entry.1 ∈ m.listed :=
  List.contains_iff_mem.1 (List.mem_filter.1 h).2

/-- A document becomes the stack of its parts, if it becomes one at all. -/
theorem toStack_eq_ok_iff : m.toStack base = .ok s ↔ s.toStackData = m.toStackData base := by
  rw [← Stack.ofData_eq_ok_iff, toStack]
  cases Stack.ofData (m.toStackData base) <;> simp

/-- A document becomes no stack exactly if it lists a patch twice, which is reported.

**Proof sketch.** The entries of commits are kept only for patches that are listed, so that of the
two faults of parts there remains the repetition. -/
theorem toStack_eq_error_iff {report : Report} :
    m.toStack base = .error report ↔
      ∃ n, firstRepeat? m.listed = some n ∧ report = Stack.faultReport (.repeated n) := by
  have hlisted : ∀ entry ∈ (m.toStackData base).commits, entry.1 ∈ (m.toStackData base).patches :=
    fun _ => mem_listed_of_mem_commits
  have hdata (fault : StackFault) : Stack.ofData (m.toStackData base) = .error fault ↔
      ∃ n, firstRepeat? m.listed = some n ∧ fault = .repeated n := by
    rw [Stack.ofData_eq_error_iff]
    exact or_iff_left fun h => h.2.1 hlisted
  unfold toStack
  cases h : Stack.ofData (m.toStackData base) with
  | ok s =>
    constructor
    · exact fun hfalse => nomatch hfalse
    · rintro ⟨n, hn, -⟩
      cases h.symm.trans ((hdata _).2 ⟨n, hn, rfl⟩)
  | error fault =>
    obtain ⟨n, hn, rfl⟩ := (hdata fault).1 h
    simp [hn, eq_comm]

/-- Every listed patch has a recorded commit. -/
theorem exists_commitOf? (m : Metadata) (h : n ∈ m.listed) : ∃ id, m.commitOf? n = some id := by
  rw [← Option.isSome_iff_exists]
  by_contra hnone
  have hmem : n ∈ m.unrecorded := List.mem_filter.2 ⟨h, by simpa using hnone⟩
  rw [m.complete] at hmem
  exact List.not_mem_nil hmem

/-- The stack has the commits that the document records.

**Proof sketch.** The entry with the name of a listed patch is the one for this patch, since no two
patches have the same name. -/
theorem commitOf_of_toStack (h : m.toStack base = .ok s) (hn : n ∈ m.listed) :
    s.commitOf n.text = m.commitOf? n := by
  have hcommits : s.commits = m.recorded.filter fun entry => m.listed.contains entry.1 :=
    congrArg StackData.commits (toStack_eq_ok_iff.1 h)
  unfold Stack.commitOf MetadataParts.commitOf?
  rw [hcommits, List.find?_filter]
  -- an entry has the name of a listed patch only if it is for this patch
  have hsame (entry : PatchName × Text) :
      decide (m.listed.contains entry.1 = true ∧ (entry.1.text == n.text) = true) =
        (entry.1 == n) := by
    rw [Bool.eq_iff_iff, decide_eq_true_iff, List.contains_iff_mem, beq_iff_eq, beq_iff_eq]
    constructor
    · exact fun h => PatchName.ext h.2
    · rintro rfl
      exact ⟨hn, rfl⟩
  simp only [hsame]

/-! ## What is carried over -/

/-- The stack has what the document lists and records, above the given base, and nothing else. -/
structure CarriedOver (m : Metadata) (base : Text) (s : Stack) : Prop where
  /-- The applied patches are the same, in the same order, -/
  applied : s.applied = m.applied
  /-- and so are the unapplied ones -/
  unapplied : s.unapplied = m.unapplied
  /-- and the hidden ones. -/
  hidden : s.hidden = m.hidden
  /-- The base is the given one. -/
  above : s.base = base
  /-- The top is the commit of the last applied patch, which is recorded. -/
  top_last : ∀ n, m.applied.getLast? = some n → m.commitOf? n = some s.top
  /-- Without applied patches, it is the base. -/
  top_base : m.applied = [] → s.top = base
  /-- The names with a commit are those listed, and the commit is the one that is recorded. -/
  commits : ∀ name id, s.commitOf name = some id ↔
    ∃ n ∈ m.listed, n.text = name ∧ m.commitOf? n = some id
  /-- Every patch has a commit. -/
  complete : ∀ n ∈ s.patches, ∃ id, s.commitOf n.text = some id
  /-- No entry is left of those for other patches, and none is new. -/
  entries : ∀ entry, entry ∈ s.commits ↔ entry ∈ m.recorded ∧ entry.1 ∈ m.listed

/-- The top of the stack is recorded for the last applied patch. -/
lemma commitOf?_getLast_applied (hn : m.applied.getLast? = some n) :
    m.commitOf? n = some (m.lastCommit.getD base) := by
  have hlisted : n ∈ m.listed := by
    simp [MetadataParts.listed, List.mem_of_getLast? hn]
  obtain ⟨id, hid⟩ := m.exists_commitOf? hlisted
  rw [lastCommit, hn, Option.bind_some, hid]
  rfl

/-- The stack of a document has what the document lists and records.

**Proof sketch.** The stack has the parts that the document was turned into. The top is the commit
of the last applied patch, which is recorded since the document is complete; the commits are those
entries that name a listed patch. -/
theorem carriedOver_of_toStack (h : m.toStack base = .ok s) : m.CarriedOver base s := by
  have hdata : s.toStackData = m.toStackData base := toStack_eq_ok_iff.1 h
  have hpatches : s.patches = m.listed := congrArg StackData.patches hdata
  have hcommits : s.commits = (m.toStackData base).commits := congrArg StackData.commits hdata
  have htop : s.top = m.lastCommit.getD base := congrArg StackData.top hdata
  constructor
  case applied => exact congrArg StackData.applied hdata
  case unapplied => exact congrArg StackData.unapplied hdata
  case hidden => exact congrArg StackData.hidden hdata
  case above => exact congrArg StackData.base hdata
  case top_last =>
    intro n hn
    rw [htop]
    exact commitOf?_getLast_applied hn
  case top_base =>
    intro hnil
    rw [htop, lastCommit, hnil]
    rfl
  case commits =>
    intro name id
    constructor
    · intro hid
      obtain ⟨entry, hfind, -⟩ := Option.map_eq_some_iff.1 hid
      have hlisted : entry.1 ∈ m.listed :=
        mem_listed_of_mem_commits (hcommits ▸ List.mem_of_find?_eq_some hfind)
      have hname : entry.1.text = name := by simpa using List.find?_some hfind
      refine ⟨entry.1, hlisted, hname, ?_⟩
      rw [← commitOf_of_toStack h hlisted, hname, hid]
    · rintro ⟨n, hn, rfl, hid⟩
      rw [commitOf_of_toStack h hn, hid]
  case complete =>
    intro n hn
    rw [hpatches] at hn
    obtain ⟨id, hid⟩ := m.exists_commitOf? hn
    exact ⟨id, (commitOf_of_toStack h hn).trans hid⟩
  case entries =>
    intro entry
    rw [hcommits, toStackData, List.mem_filter, List.contains_iff_mem]

/-- **A document becomes the stack of what it lists and records, unless it lists a patch twice.**
In that case the patch is reported; that a commit is missing is never the reason. Otherwise the
stack has the three lists as they are, the given base, the commit recorded for the last applied
patch as its top, and a commit for each of its patches, namely the recorded one. Entries for other
patches are dropped.

**Proof sketch.** A document has a commit for each listed patch, so that the top is recorded if any
patch is applied. The entries that are kept are those for listed patches; hence no commit is
recorded for a patch outside of the stack, and the one thing left to check is that no patch is
listed twice. -/
theorem toStack_carries_over (m : Metadata) (base : Text) :
    (∀ n ∈ m.listed, ∃ id, m.commitOf? n = some id) ∧
    ((∃ report, m.toStack base = .error report) ↔ ∃ n, 2 ≤ m.listed.count n) ∧
    (∀ report, m.toStack base = .error report →
      ∃ n, 2 ≤ m.listed.count n ∧ report = Stack.faultReport (.repeated n)) ∧
    ((∀ n, m.listed.count n ≤ 1) → ∃ s, m.toStack base = .ok s ∧ m.CarriedOver base s) := by
  have htwice {n : PatchName} (hn : firstRepeat? m.listed = some n) : 2 ≤ m.listed.count n := by
    obtain ⟨before, after, hlist, -, hmem⟩ := firstRepeat?_eq_some_iff.1 hn
    have := List.count_pos_iff.2 hmem
    rw [hlist, List.count_append, List.count_cons_self]
    omega
  have hreport {report : Report} (h : m.toStack base = .error report) :
      ∃ n, 2 ≤ m.listed.count n ∧ report = Stack.faultReport (.repeated n) := by
    obtain ⟨n, hn, hfault⟩ := toStack_eq_error_iff.1 h
    exact ⟨n, htwice hn, hfault⟩
  refine ⟨fun n => m.exists_commitOf?, ⟨?_, ?_⟩, fun report => hreport, fun honce => ?_⟩
  · rintro ⟨report, h⟩
    obtain ⟨n, hn, -⟩ := hreport h
    exact ⟨n, hn⟩
  · rintro ⟨n, hn⟩
    cases hrepeat : firstRepeat? m.listed with
    | some n => exact ⟨_, toStack_eq_error_iff.2 ⟨n, hrepeat, rfl⟩⟩
    | none =>
      have := List.nodup_iff_count_le_one.1 (firstRepeat?_eq_none_iff.1 hrepeat) n
      omega
  · cases h : m.toStack base with
    | ok s => exact ⟨s, rfl, carriedOver_of_toStack h⟩
    | error report =>
      obtain ⟨n, hn, -⟩ := hreport h
      have := honce n
      omega

end Metadata

end PatchStack
