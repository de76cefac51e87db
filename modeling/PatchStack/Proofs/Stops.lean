import Mathlib.Data.Set.Defs
import PatchStack.Proofs.ChainAtoms
import PatchStack.Proofs.OwnName

set_option autoImplicit false

/-!
# The stops of a locator

A locator goes from its anchor step by step, and every stop on the way has to be a position. Its
last stop is where the offsets lead together, so that nothing is cut off at the ends of a stack:
either the locator has just that position, or it has none. The first stop outside of the stack is
what an error reports. A count of too many digits ends the way with a breakdown, if it is reached.

The base is the lowest position for some callers and not for others. Their answers differ only for
locators that go below the base, or that stay at the base by their own anchor.

## Main definitions

* `PatchStack.stops` — where a walk starts, and where each of its steps leads.
* `PatchStack.FirstOutside` — the first stop that is outside of a set.
* `PatchStack.Floor.positions` — the positions of a stack above a floor.

## Main results

* `PatchStack.walk_cases` — a walk has all of its stops inside or leaves at the first one outside.
* `PatchStack.Locator.position_eq_ok_iff_stops` — when a locator has a position, in terms of stops.
* `PatchStack.Locator.position_follows_stops` — positions above the base in terms of stops.
* `PatchStack.Locator.position_floors_agree` — positions with and without ancestors of the base.
-/

namespace PatchStack

/-! ## Stops -/

/-- The stops of a walk: where it starts, and where each of its steps leads. -/
def stops (start : Int) (steps : List Int) : List Int := steps.scanl (· + ·) start

/-- Without steps, a walk stops where it starts. -/
@[simp]
lemma stops_nil (start : Int) : stops start [] = [start] := List.scanl_nil

/-- The other stops are those of the walk from where the first step leads. -/
@[simp]
lemma stops_cons (start step : Int) (steps : List Int) :
    stops start (step :: steps) = start :: stops (start + step) steps := List.scanl_cons

/-- A walk stops where it starts. -/
lemma start_mem_stops (start : Int) (steps : List Int) : start ∈ stops start steps := by
  cases steps <;> simp

/-- `k` is the first of the stops `l` outside of the set `S`. -/
structure FirstOutside (S : Set Int) (l : List Int) (k : Int) : Prop where
  /-- It is outside. -/
  notMem : k ∉ S
  /-- All stops before it are inside. -/
  first : ∃ before after, l = before ++ k :: after ∧ ∀ i ∈ before, i ∈ S

namespace FirstOutside

variable {S : Set Int} {l : List Int} {i k : Int}

/-- The front is the first one if it is outside. -/
lemma head (h : i ∉ S) : FirstOutside S (i :: l) i := ⟨h, [], l, rfl, by simp⟩

/-- The first one stays so behind a stop inside. -/
lemma cons (hi : i ∈ S) (h : FirstOutside S l k) : FirstOutside S (i :: l) k := by
  obtain ⟨before, after, rfl, hbefore⟩ := h.first
  refine ⟨h.notMem, i :: before, after, rfl, fun j hj => ?_⟩
  rcases List.mem_cons.1 hj with rfl | hj
  · exact hi
  · exact hbefore j hj

/-- The first stop outside is one of the stops. -/
lemma mem (h : FirstOutside S l k) : k ∈ l := by
  obtain ⟨before, after, rfl, -⟩ := h.first
  simp

/-- There is one first stop outside.

**Proof sketch.** Of two such splits of the list one has the longer part in front. If it is longer,
that part holds the other stop, which is outside. -/
lemma unique {k' : Int} (h : FirstOutside S l k) (h' : FirstOutside S l k') : k = k' := by
  obtain ⟨before, after, rfl, hbefore⟩ := h.first
  obtain ⟨before', after', heq, hbefore'⟩ := h'.first
  rcases List.append_eq_append_iff.1 heq with ⟨u, rfl, hu⟩ | ⟨u, rfl, hu⟩
  · cases u with
    | nil => exact (List.cons.inj hu).1
    | cons x u =>
      obtain rfl : k = x := (List.cons.inj hu).1
      exact absurd (hbefore' k (by simp)) h.notMem
  · cases u with
    | nil => exact (List.cons.inj hu).1.symm
    | cons x u =>
      obtain rfl : k' = x := (List.cons.inj hu).1
      exact absurd (hbefore k' (by simp)) h'.notMem

end FirstOutside

/-! ## Walks -/

/-- The positions of a stack with `total` patches: from the base on, or from the first commit
on. -/
def Floor.positions (floor : Floor) (total : Nat) : Set Int :=
  match floor with
  | .base => {i | -1 ≤ i ∧ i < total}
  | .ancestors => {i | i < total}

/-- What a floor admits are its positions. -/
lemma Floor.admits_iff_mem {floor : Floor} {total : Nat} {i : Int} :
    floor.admits total i = true ↔ i ∈ floor.positions total := by
  rw [admits_iff]
  cases floor with
  | base => exact ⟨fun h => ⟨h.2.resolve_left nofun, h.1⟩, fun h => ⟨h.2, .inr h.1⟩⟩
  | ancestors => exact ⟨And.left, fun h => ⟨h, .inl rfl⟩⟩

/-- What a floor does not admit is no position. -/
lemma Floor.admits_eq_false_iff {floor : Floor} {total : Nat} {i : Int} :
    floor.admits total i = false ↔ i ∉ floor.positions total := by
  rw [← Bool.not_eq_true, admits_iff_mem]

/-- A walk that starts inside ends where its steps lead together, or at the first step that is not
read, with all of its stops inside until then, or it leaves at the first stop outside.

**Proof sketch.** By induction on the steps, whose front one is not read, or leads outside, or leads
to a start inside for the others. -/
theorem walk_cases {floor : Floor} {total : Nat} {start : Int} (t : Text) (steps : List OffsetStep)
    (hs : start ∈ floor.positions total) :
    ((∀ i ∈ stops start (readSteps steps).1, i ∈ floor.positions total) ∧
      (readSteps steps).2 = none ∧
      walk floor t total start steps = .ok (start + (readSteps steps).1.sum)) ∨
    ((∀ i ∈ stops start (readSteps steps).1, i ∈ floor.positions total) ∧
      ∃ fault, (readSteps steps).2 = some fault ∧
        walk floor t total start steps = .error (.ofNumeral fault)) ∨
    ∃ k, FirstOutside (floor.positions total) (stops start (readSteps steps).1) k ∧
      walk floor t total start steps = .error (.outside t k total) := by
  induction steps generalizing start with
  | nil =>
    refine .inl ⟨by simpa [readSteps] using hs, rfl, ?_⟩
    rw [walk, readSteps, List.sum_nil, Int.add_zero]
  | cons x steps ih =>
    cases hx : x.read with
    | error fault =>
      rw [readSteps_cons_of_error hx, walk_cons_of_error hx]
      exact .inr (.inl ⟨by simpa using hs, fault, rfl, rfl⟩)
    | ok atom =>
      rw [readSteps_cons hx, walk_cons hx, stops_cons]
      by_cases hstep : start + atom.delta ∈ floor.positions total
      · rw [if_pos (Floor.admits_iff_mem.2 hstep)]
        rcases ih hstep with ⟨hall, hnone, hwalk⟩ | ⟨hall, hfault⟩ | ⟨k, hk, hwalk⟩
        · refine .inl ⟨List.forall_mem_cons.2 ⟨hs, hall⟩, hnone, ?_⟩
          rw [hwalk, List.sum_cons, Int.add_assoc]
        · exact .inr (.inl ⟨List.forall_mem_cons.2 ⟨hs, hall⟩, hfault⟩)
        · exact .inr (.inr ⟨k, .cons hs hk, hwalk⟩)
      · rw [if_neg (mt Floor.admits_iff_mem.1 hstep)]
        refine .inr (.inr ⟨start + atom.delta, .cons hs ?_, rfl⟩)
        cases (readSteps steps).1 <;> simp only [stops_nil, stops_cons] <;> exact .head hstep

section Walk

variable {floor : Floor} {t : Text} {total : Nat} {start : Int} {steps : List OffsetStep}
  (hs : start ∈ floor.positions total)
include hs

/-- A walk that starts inside arrives exactly if all of its steps are read and all of its stops are
inside, and it arrives where its steps lead together.

**Proof sketch.** In each of the three cases of a walk both sides are known (`walk_cases`). -/
theorem walk_eq_ok_iff {i : Int} :
    walk floor t total start steps = .ok i ↔
      ∃ ds, readSteps steps = (ds, none) ∧ (∀ k ∈ stops start ds, k ∈ floor.positions total) ∧
        i = start + ds.sum := by
  rcases walk_cases t steps hs with ⟨hall, hnone, hwalk⟩ | ⟨-, fault, hfault, hwalk⟩ |
    ⟨k, hk, hwalk⟩
  · rw [hwalk, Except.ok.injEq]
    constructor
    · rintro rfl
      exact ⟨_, Prod.ext rfl hnone, hall, rfl⟩
    · rintro ⟨ds, hds, -, rfl⟩
      rw [hds]
  · rw [hwalk]
    refine ⟨nofun, ?_⟩
    rintro ⟨ds, hds, -⟩
    rw [hds] at hfault
    cases hfault
  · rw [hwalk]
    refine ⟨nofun, ?_⟩
    rintro ⟨ds, hds, hall, -⟩
    rw [hds] at hk
    exact absurd (hall k hk.mem) hk.notMem

/-- A walk that starts inside reports the first stop outside. -/
theorem walk_of_firstOutside {k : Int}
    (hk : FirstOutside (floor.positions total) (stops start (readSteps steps).1) k) :
    walk floor t total start steps = .error (.outside t k total) := by
  rcases walk_cases t steps hs with ⟨hall, -⟩ | ⟨hall, -⟩ | ⟨k', hk', hwalk⟩
  · exact absurd (hall k hk.mem) hk.notMem
  · exact absurd (hall k hk.mem) hk.notMem
  · rw [hwalk, hk.unique hk']

/-- A walk whose stops are inside breaks down at the first step that is not read. -/
theorem walk_of_fault {fault : NumeralFault} (hfault : (readSteps steps).2 = some fault)
    (hall : ∀ k ∈ stops start (readSteps steps).1, k ∈ floor.positions total) :
    walk floor t total start steps = .error (.ofNumeral fault) := by
  rcases walk_cases t steps hs with ⟨-, hnone, -⟩ | ⟨-, fault', hfault', hwalk⟩ | ⟨k, hk, -⟩
  · rw [hnone] at hfault
    cases hfault
  · rw [hwalk, Option.some.inj (hfault.symm.trans hfault')]
  · exact absurd (hall k hk.mem) hk.notMem

end Walk

/-! ## Locators -/

namespace Locator

variable {l l' : Locator} {s : Stack} {floor : Floor} {start : Int}

/-- The locator is anchored at the base, and its offsets do not lead upwards. -/
def StaysAtBase (l : Locator) : Prop :=
  l.anchor = .base ∧ ∃ net, l.offsets.net = .ok net ∧ net ≤ 0

/-- The base stands right below the bottommost patch. -/
lemma start_eq_of_base (ha : anchorIndex l'.anchor s = .ok start) (hbase : l'.anchor = .base) :
    start = -1 := by
  rw [hbase] at ha
  exact (Except.ok.inj ha).symm

/-- The base is a position. -/
lemma start_mem_of_base (ha : anchorIndex l'.anchor s = .ok start) (hbase : l'.anchor = .base) :
    start ∈ Floor.base.positions s.total := by
  rw [start_eq_of_base ha hbase]
  exact ⟨Int.le_refl _, by omega⟩

section Written

variable (hw : l.write = .ok l.text) (hd : l.disambiguate s = .ok l')
  (ha : anchorIndex l'.anchor s = .ok start)
include hw hd ha

/-- An anchor outside of the stack is reported by itself, wherever the offsets may lead. -/
lemma position_of_start_outside (hout : start ∉ floor.positions s.total) :
    l.position floor s = .error (.outside l.text start s.total) := by
  simp only [position, hw, hd, ha, mapError_ok, bind, Except.bind]
  rw [Floor.admits_eq_false_iff.2 hout, if_pos (by decide)]

/-- Above the base, a locator that stays at the base is refused for this, wherever its steps may
lead. -/
lemma position_of_staysAtBase (hstays : l'.StaysAtBase) :
    l.position .base s = .error (.invalidOffset l.text .baseWithoutOffset) := by
  obtain ⟨hbase, net, hnet, hle⟩ := hstays
  simp only [position, hw, hd, ha, hnet, mapError_ok, bind, Except.bind]
  rw [Floor.admits_iff_mem.2 (start_mem_of_base ha hbase), if_neg (by decide),
    if_pos ⟨hbase, trivial⟩, if_pos hle]

/-- Above the base, how far a locator leads from the base has to be known before it is followed. -/
lemma position_of_uncounted (hbase : l'.anchor = .base) {fault : NumeralFault}
    (hnet : l'.offsets.net = .error fault) :
    l.position .base s = .error (.ofNumeral fault) := by
  simp only [position, hw, hd, ha, hnet, mapError_ok, mapError_error, bind, Except.bind]
  rw [Floor.admits_iff_mem.2 (start_mem_of_base ha hbase), if_neg (by decide),
    if_pos ⟨hbase, trivial⟩]

end Written

/-- A locator arrives exactly if it can be written, all of its steps are read, all of its stops are
inside and nothing keeps it at the base.

**Proof sketch.** The steps to a position end with a walk from the index of the anchor, and where a
walk arrives is told by its stops (`walk_eq_ok_iff`). -/
theorem position_eq_ok_iff_stops (hd : l.disambiguate s = .ok l')
    (ha : anchorIndex l'.anchor s = .ok start) {i : Int} :
    l.position floor s = .ok i ↔
      l.write = .ok l.text ∧ ∃ ds, l'.offsets.deltas = .ok ds ∧
        (∀ k ∈ stops start ds, k ∈ floor.positions s.total) ∧
        (floor = .base → l'.anchor = .base → 0 < ds.sum) ∧ i = start + ds.sum := by
  constructor
  · intro h
    obtain ⟨hw, l'', start', hd', ha', hadm, hrises, hwalk⟩ := position_eq_ok_iff.1 h
    obtain rfl : l' = l'' := Except.ok.inj (hd.symm.trans hd')
    obtain rfl : start = start' := Except.ok.inj (ha.symm.trans ha')
    obtain ⟨ds, hds, hall, hi⟩ := (walk_eq_ok_iff (Floor.admits_iff_mem.1 hadm)).1 hwalk
    have hdeltas := OffsetChain.deltas_eq_ok_iff.2 hds
    refine ⟨hw, ds, hdeltas, hall, fun hfloor hbase => ?_, hi⟩
    obtain ⟨net, hnet, hpos⟩ := hrises hbase hfloor
    rwa [Except.ok.inj (hnet.symm.trans (OffsetChain.net_eq_ok_iff.2 ⟨ds, hdeltas, rfl⟩))] at hpos
  · rintro ⟨hw, ds, hdeltas, hall, hrises, rfl⟩
    have hin := hall start (start_mem_stops _ _)
    rw [position_eq_walk hw hd ha (Floor.admits_iff_mem.2 hin) fun hbase hfloor =>
      ⟨ds.sum, OffsetChain.net_eq_ok_iff.2 ⟨ds, hdeltas, rfl⟩, hrises hfloor hbase⟩]
    exact (walk_eq_ok_iff hin).2 ⟨ds, OffsetChain.deltas_eq_ok_iff.1 hdeltas, hall, rfl⟩

/-- Whatever else stands in the way of a locator whose steps are read is one of its stops.

**Proof sketch.** The start is outside, and is the first stop, or a walk is taken, which reports a
stop (`walk_cases`). -/
lemma exists_stop_of_position_eq_error (hw : l.write = .ok l.text)
    (hd : l.disambiguate s = .ok l') (ha : anchorIndex l'.anchor s = .ok start) {ds : List Int}
    (hdeltas : l'.offsets.deltas = .ok ds) (hrises : floor = .base → l'.anchor = .base → 0 < ds.sum)
    {e : Error} (h : l.position floor s = .error e) :
    ∃ k ∈ stops start ds, k ∉ floor.positions s.total ∧ e = .outside l.text k s.total := by
  have hsteps := OffsetChain.deltas_eq_ok_iff.1 hdeltas
  by_cases hin : start ∈ floor.positions s.total
  · rw [position_eq_walk hw hd ha (Floor.admits_iff_mem.2 hin) fun hbase hfloor =>
      ⟨ds.sum, OffsetChain.net_eq_ok_iff.2 ⟨ds, hdeltas, rfl⟩, hrises hfloor hbase⟩] at h
    have hcases := walk_cases l.text l'.offsets.steps hin
    rw [hsteps] at hcases
    rcases hcases with ⟨-, -, hwalk⟩ | ⟨-, fault, hfault, -⟩ | ⟨k, hk, hwalk⟩
    · rw [hwalk] at h
      cases h
    · cases hfault
    · rw [hwalk] at h
      exact ⟨k, hk.mem, hk.notMem, (Except.error.inj h).symm⟩
  · rw [position_of_start_outside hw hd ha hin] at h
    exact ⟨start, start_mem_stops _ _, hin, (Except.error.inj h).symm⟩

/-- **Above the base a locator has the position of its last stop** if it can be written, all of its
steps are read, all of its stops are inside of the stack, and offsets from the base itself lead
upwards; it has no other position. Otherwise the reason is, in this order: the locator cannot be
written, the anchor is outside, how far it leads from the base is not known, the locator stays at
the base, or the first stop outside or step that is not read, whichever comes first. A position at
the base belongs to no patch.

**Proof sketch.** A walk is taken by induction on its steps: it reports the first of its stops
outside, of which there is one only, or its last stop, which is where the steps lead together. The
checks in front of the walk are made in the order of the reasons. -/
theorem position_follows_stops (hd : l.disambiguate s = .ok l') :
    ∃ start, anchorIndex l'.anchor s = .ok start ∧ (l'.anchor = .base → start = -1) ∧
      (∀ i, l.position .base s = .ok i ↔
        l.write = .ok l.text ∧ ∃ ds, l'.offsets.deltas = .ok ds ∧
          (∀ k ∈ stops start ds, k ∈ Floor.base.positions s.total) ∧
          (l'.anchor ≠ .base ∨ 0 < ds.sum) ∧ i = start + ds.sum) ∧
      (∀ fault, l.write = .error fault → l.position .base s = .error (.ofNumeral fault)) ∧
      (l.write = .ok l.text →
        (start ∉ Floor.base.positions s.total →
          l.position .base s = .error (.outside l.text start s.total)) ∧
        (l'.anchor = .base → ∀ fault, l'.offsets.net = .error fault →
          l.position .base s = .error (.ofNumeral fault)) ∧
        (l'.anchor = .base → ∀ net, l'.offsets.net = .ok net → net ≤ 0 →
          l.position .base s = .error (.invalidOffset l.text .baseWithoutOffset)) ∧
        (start ∈ Floor.base.positions s.total →
          (l'.anchor ≠ .base ∨ ∃ net, l'.offsets.net = .ok net ∧ 0 < net) →
          (∀ k, FirstOutside (Floor.base.positions s.total)
              (stops start (readSteps l'.offsets.steps).1) k →
            l.position .base s = .error (.outside l.text k s.total)) ∧
          ((∀ k ∈ stops start (readSteps l'.offsets.steps).1, k ∈ Floor.base.positions s.total) →
            ∀ fault, l'.offsets.deltas = .error fault →
              l.position .base s = .error (.ofNumeral fault)))) ∧
      ∀ c, l.position .base s = .ok (-1) →
        l.resolve s c = .error (.invalidOffset l.text .reachesBase) := by
  obtain ⟨start, ha⟩ := exists_anchorIndex hd
  refine ⟨start, ha, start_eq_of_base ha, fun i => ?_, fun fault => position_of_unwritten,
    fun hw => ⟨position_of_start_outside hw hd ha,
      fun hbase fault hnet => position_of_uncounted hw hd ha hbase hnet,
      fun hbase net hnet hle => position_of_staysAtBase hw hd ha ⟨hbase, net, hnet, hle⟩,
      fun hin hrises => ?_⟩, fun c hp => ?_⟩
  · rw [position_eq_ok_iff_stops hd ha]
    simp only [forall_const, imp_iff_not_or]
  · have hwalk : l.position .base s = walk .base l.text s.total start l'.offsets.steps :=
      position_eq_walk hw hd ha (Floor.admits_iff_mem.2 hin) fun hbase _ =>
        hrises.resolve_left fun hne => hne hbase
    rw [hwalk]
    exact ⟨fun k => walk_of_firstOutside hin, fun hall fault hfault =>
      walk_of_fault hin (OffsetChain.deltas_eq_error_iff.1 hfault) hall⟩
  · rw [resolve, hp]
    rfl

/-- A locator that is anchored at the patch behind the last visible one, and goes up and down again
from there. -/
def upAndDown : Locator := ⟨.belowLast (some (-1)), ⟨['+', '~'], by decide⟩⟩

/-- From the last patch of the stack this leads out of it, and coming back does not help. -/
theorem position_follows_stops_upAndDown :
    upAndDown.disambiguate indexLikeStack = .ok upAndDown ∧
      upAndDown.position .base indexLikeStack = .error (.outOfRange upAndDown.text 3 3) := by
  have hd : upAndDown.disambiguate indexLikeStack = .ok upAndDown := rfl
  obtain ⟨start, ha, -, -, -, hwritten, -⟩ := position_follows_stops hd
  obtain rfl : start = 2 := (Except.ok.inj ha).symm
  obtain ⟨-, -, -, hinside⟩ := hwritten rfl
  have hin : (2 : Int) ∈ Floor.base.positions indexLikeStack.total := ⟨by decide, by decide⟩
  have hout : (3 : Int) ∉ Floor.base.positions indexLikeStack.total := fun h =>
    absurd h.2 (by decide)
  exact ⟨hd, (hinside hin (.inl (by decide))).1 3 (.cons hin (.head hout))⟩

/-- A step of zero length with too many digits leads nowhere, not even to where it starts. -/
theorem position_overlong :
    position .base ⟨.top, .overlong .up⟩ indexLikeStack =
      .error (.ofNumeral (.unreadable (digitLimit + 1))) := by
  have hstart : Floor.base.admits indexLikeStack.total 1 = true := by decide
  have hbase : Anchor.top ≠ .base := by decide
  rw [position_eq_walk rfl rfl rfl hstart fun h => absurd h hbase, OffsetChain.steps_overlong,
    walk_cons_of_error (OffsetChain.read_overlong .up)]

/-- **The two floors agree** on every position above the base that is found with it as the lowest
one. With ancestors of the base as positions, more locators have a position at the base or above:
the base token alone or with offsets that lead back to it, and locators that go below the base on
their way. Ancestors are never refused, so that what is left to refuse is above the stack, and is
refused with the base as the lowest position as well.

**Proof sketch.** All stops of a locator that arrives with ancestors are below the end of the stack,
so that a stop outside is one below the base. -/
theorem position_floors_agree (l : Locator) (s : Stack) :
    (∀ i, l.position .base s = .ok i → l.position .ancestors s = .ok i) ∧
    (∀ i e, l.position .ancestors s = .ok i → -1 ≤ i → l.position .base s = .error e →
      ∃ l' start ds, l.disambiguate s = .ok l' ∧ anchorIndex l'.anchor s = .ok start ∧
        l'.offsets.deltas = .ok ds ∧
        ((l'.anchor = .base ∧ ds.sum = 0 ∧ i = -1 ∧
            e = .invalidOffset l.text .baseWithoutOffset) ∨
          ((∃ k ∈ stops start ds, k < -1) ∧
            (l'.anchor = .base ∧ ds.sum ≤ 0 → e = .invalidOffset l.text .baseWithoutOffset) ∧
            (¬ (l'.anchor = .base ∧ ds.sum ≤ 0) →
              ∃ k < -1, e = .outside l.text k s.total)))) ∧
    (∀ t fault, l.position .ancestors s ≠ .error (.invalidOffset t fault)) ∧
    (∀ t k total, l.position .ancestors s = .error (.outOfRange t k total) →
      t = l.text ∧ total = s.total ∧ (s.total : Int) ≤ k ∧ ∃ e, l.position .base s = .error e) := by
  refine ⟨fun i => position_ancestors, fun i e hp hi he => ?_, fun t fault h => ?_,
    fun t k total h => ?_⟩
  · obtain ⟨hw, l', start, hd, ha, -⟩ := position_eq_ok_iff.1 hp
    obtain ⟨-, ds, hdeltas, hall, -, rfl⟩ := (position_eq_ok_iff_stops hd ha).1 hp
    refine ⟨l', start, ds, hd, ha, hdeltas, ?_⟩
    by_cases hstays : l'.anchor = .base ∧ ds.sum ≤ 0
    · left
      have hstart := start_eq_of_base ha hstays.1
      have hle := hstays.2
      rw [position_of_staysAtBase hw hd ha
        ⟨hstays.1, ds.sum, OffsetChain.net_eq_ok_iff.2 ⟨ds, hdeltas, rfl⟩, hle⟩] at he
      exact ⟨hstays.1, by omega, by omega, (Except.error.inj he).symm⟩
    · right
      have hrises : Floor.base = .base → l'.anchor = .base → 0 < ds.sum := fun _ hbase =>
        Int.not_le.1 fun hle => hstays ⟨hbase, hle⟩
      obtain ⟨k, hk, hout, rfl⟩ := exists_stop_of_position_eq_error hw hd ha hdeltas hrises he
      have htop : k < s.total := hall k hk
      have hlt : k < -1 := Int.not_le.1 fun hle => hout ⟨hle, htop⟩
      exact ⟨⟨k, hk, hlt⟩, fun h => absurd h hstays, fun _ => ⟨k, hlt, rfl⟩⟩
  · cases positionFailure_of_position h with
    | reading hd hr => cases hr
    | staysBelow hfloor => cases hfloor
  · cases positionFailure_of_position h with
    | reading hd hr => cases hr
    | outside _ hk =>
      refine ⟨rfl, rfl, Int.not_lt.1 (Floor.admits_eq_false_iff.1 hk), ?_⟩
      cases hbase : l.position .base s with
      | ok i => rw [position_ancestors hbase] at h; cases h
      | error e => exact ⟨e, rfl⟩

end Locator

end PatchStack
