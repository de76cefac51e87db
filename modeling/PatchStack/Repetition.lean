set_option autoImplicit false

/-!
# Repetition in a list

The first element of a list that already occurred before it. A stack refuses repeated patch
names by it, and a selection refuses patches selected twice.

## Main definitions

* `PatchStack.firstRepeat?` — the first repeated element.

## Main results

* `PatchStack.firstRepeat?_eq_none_iff` — there is none exactly if all elements are distinct.
* `PatchStack.firstRepeat?_eq_some_iff` — it is the element right after the longest part of
  the list that is free of repetition.
* `PatchStack.firstRepeatAfter?_eq_firstRepeat?_append` — the search in a list that is put
  together from two.
-/

namespace PatchStack

variable {α : Type} [DecidableEq α]

/-- The first element of the list that occurs in `seen` or earlier in the list. -/
def firstRepeatAfter? (seen : List α) : List α → Option α
  | [] => none
  | a :: rest => if a ∈ seen then some a else firstRepeatAfter? (a :: seen) rest

/-- The first element that occurred before. -/
def firstRepeat? (l : List α) : Option α := firstRepeatAfter? [] l

/-- No element is repeated exactly if none was seen before and none is there twice.

**Proof sketch.** By induction on the list, for whatever was seen. An element that is passed is seen
from then on. -/
theorem firstRepeatAfter?_eq_none_iff {seen l : List α} :
    firstRepeatAfter? seen l = none ↔ (∀ a ∈ l, a ∉ seen) ∧ l.Nodup := by
  induction l generalizing seen with
  | nil => simp [firstRepeatAfter?]
  | cons a r ih =>
    by_cases h : a ∈ seen
    · simp [firstRepeatAfter?, h]
    · simp only [firstRepeatAfter?, h, if_false, ih, List.mem_cons, not_or, List.nodup_cons,
        forall_eq_or_imp, not_false_eq_true, true_and]
      constructor
      · rintro ⟨hs, hn⟩
        exact ⟨fun b hb => (hs b hb).2, fun ha => (hs a ha).1 rfl, hn⟩
      · rintro ⟨hs, ha, hn⟩
        exact ⟨fun b hb => ⟨fun e => ha (e ▸ hb), hs b hb⟩, hn⟩

/-- No element is repeated exactly if all are distinct. -/
theorem firstRepeat?_eq_none_iff {l : List α} : firstRepeat? l = none ↔ l.Nodup := by
  simp [firstRepeat?, firstRepeatAfter?_eq_none_iff]

/-- The first repeated element has been seen before or stands further in front, and in front of it
nothing is repeated.

**Proof sketch.** By induction on the list. An element that was seen before is the first repeated
one, with nothing in front of it; any other element is seen from then on. -/
theorem firstRepeatAfter?_eq_some_iff {seen l : List α} {a : α} :
    firstRepeatAfter? seen l = some a ↔
      ∃ before after, l = before ++ a :: after ∧ (∀ b ∈ before, b ∉ seen) ∧ before.Nodup ∧
        (a ∈ seen ∨ a ∈ before) := by
  induction l generalizing seen with
  | nil => simp [firstRepeatAfter?]
  | cons b r ih =>
    by_cases h : b ∈ seen
    · simp only [firstRepeatAfter?, h, if_true, Option.some.injEq]
      constructor
      · rintro rfl
        exact ⟨[], r, rfl, by simp, by simp, .inl h⟩
      · rintro ⟨before, after, hl, hs, -, -⟩
        cases before with
        | nil => simp_all
        | cons c before =>
          simp only [List.cons_append, List.cons.injEq] at hl
          exact absurd (hl.1 ▸ h) (hs c (by simp))
    · simp only [firstRepeatAfter?, h, if_false, ih]
      constructor
      · rintro ⟨before, after, rfl, hs, hn, ha⟩
        refine ⟨b :: before, after, rfl, ?_, ?_, ?_⟩
        · intro c hc
          rcases List.mem_cons.1 hc with rfl | hc
          · exact h
          · exact fun hcs => hs c hc (by simp [hcs])
        · exact List.nodup_cons.2 ⟨fun hb => hs b hb (by simp), hn⟩
        · simp only [List.mem_cons] at ha ⊢
          grind
      · rintro ⟨before, after, hl, hs, hn, ha⟩
        cases before with
        | nil =>
          simp only [List.nil_append, List.cons.injEq] at hl
          obtain ⟨rfl, rfl⟩ := hl
          simp_all
        | cons c before =>
          simp only [List.cons_append, List.cons.injEq] at hl
          obtain ⟨rfl, rfl⟩ := hl
          obtain ⟨hb, hn⟩ := List.nodup_cons.1 hn
          refine ⟨before, after, rfl, ?_, hn, ?_⟩
          · intro d hd hds
            rcases List.mem_cons.1 hds with rfl | hds
            · exact hb hd
            · exact hs d (by simp [hd]) hds
          · simp only [List.mem_cons] at ha ⊢
            grind

/-- The first repeated element stands right after distinct elements, and is one of them. -/
theorem firstRepeat?_eq_some_iff {l : List α} {a : α} :
    firstRepeat? l = some a ↔
      ∃ before after, l = before ++ a :: after ∧ before.Nodup ∧ a ∈ before := by
  simp [firstRepeat?, firstRepeatAfter?_eq_some_iff]

/-- Behind distinct elements the search goes on as if it had begun in front of them.

**Proof sketch.** Both searches are characterised by what precedes the element that they find, and
in front of it the distinct elements add nothing. -/
theorem firstRepeatAfter?_eq_firstRepeat?_append {seen l : List α} (h : seen.Nodup) :
    firstRepeatAfter? seen l = firstRepeat? (seen ++ l) := by
  cases hl : firstRepeatAfter? seen l with
  | none =>
    obtain ⟨hnew, hn⟩ := firstRepeatAfter?_eq_none_iff.1 hl
    symm
    apply firstRepeat?_eq_none_iff.2
    refine List.nodup_append.2 ⟨h, hn, ?_⟩
    rintro a ha b hb rfl
    exact hnew a hb ha
  | some a =>
    obtain ⟨before, after, rfl, hnew, hn, ha⟩ := firstRepeatAfter?_eq_some_iff.1 hl
    symm
    apply firstRepeat?_eq_some_iff.2
    refine ⟨seen ++ before, after, by simp, List.nodup_append.2 ⟨h, hn, ?_⟩, by simpa using ha⟩
    rintro b hb c hc rfl
    exact hnew b hc hb

end PatchStack
