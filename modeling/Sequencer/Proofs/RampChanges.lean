import Mathlib.Order.Bounds.Basic
import Sequencer.Proofs.Ramps

/-! The changes of a monotone ramp. What the ramp announces at a tick is the least later tick of the
clock at which it changes; unrolled from its start, it announces every change once, in order, and
then none. -/
namespace Sequencer.Ramp

/-- The ticks of the clock after `tick` at which a message of the ramp is due. -/
def changesAfter (ramp : Ramp) (tick : Nat) : Set Nat :=
  {later | tick < later ∧ later ≤ Tick.last ∧ ramp.changesAt later = true}

/-- The list is all that the ramp announces from a tick on: each change announces the one behind it,
and the last one announces none. -/
inductive Unrolls (ramp : Ramp) : Nat → List (Nat × Nat) → Prop
  | last {tick : Nat} (ended : ramp.nextChange tick = none) :
      Unrolls ramp tick [(tick, ramp.valueAt tick)]
  | more {tick next : Nat} {rest : List (Nat × Nat)} (announced : ramp.nextChange tick = some next)
      (unrolls : Unrolls ramp next rest) : Unrolls ramp tick ((tick, ramp.valueAt tick) :: rest)

variable {ramp : Ramp} {value same moved tick : Nat} {changes : List (Nat × Nat)}

/-- Bisection ends at a tick of another value than that it has started with. -/
theorem valueAt_bisect (lt : same < moved) (changed : ramp.valueAt moved ≠ value) :
    ramp.valueAt (ramp.bisect value same moved) ≠ value := by
  fun_induction ramp.bisect value same moved with
  | case1 same moved apart middle kept ih => exact ih (by omega) changed
  | case2 same moved apart middle other ih => exact ih (by omega) other
  | case3 => exact changed

theorem changesAt_start (ramp : Ramp) : ramp.changesAt ramp.start = true := by
  simp [changesAt, contains, stop]

theorem changesAt_bisect (late : ramp.start ≤ tick) (going : tick < ramp.lastTick)
    (moves : ramp.valueAt ramp.lastTick ≠ ramp.valueAt tick) :
    ramp.changesAt (ramp.bisect (ramp.valueAt tick) tick ramp.lastTick) = true := by
  have after := ramp.lt_bisect (ramp.valueAt tick) tick ramp.lastTick going
  have within : ramp.bisect (ramp.valueAt tick) tick ramp.lastTick ≤ ramp.stop :=
    Nat.le_trans (ramp.bisect_le _ _ _ going) (Nat.min_le_left _ _)
  have before : ramp.valueAt (ramp.bisect (ramp.valueAt tick) tick ramp.lastTick - 1) =
      ramp.valueAt tick := valueAt_before_bisect going rfl
  have here := valueAt_bisect going moves
  have contained := Nat.le_trans late (Nat.le_of_lt after)
  unfold changesAt contains
  simp [contained, within, before, here]

/-- What a ramp announces is a change on the clock. -/
theorem nextChange_changes {next : Nat} (clocked : ramp.start ≤ Tick.last)
    (announced : ramp.nextChange tick = some next) : next ∈ ramp.changesAfter tick := by
  unfold nextChange at announced
  split at announced
  · rename_i early
    cases announced
    exact ⟨early, clocked, ramp.changesAt_start⟩
  · rename_i started
    split at announced
    · cases announced
    · rename_i unfinished
      have going := Nat.lt_of_not_le unfinished
      dsimp only at announced
      split at announced
      · cases announced
      · rename_i moves
        cases announced
        refine ⟨ramp.lt_bisect _ _ _ going, ?_,
          changesAt_bisect (Nat.le_of_not_lt started) going moves⟩
        exact Nat.le_trans (ramp.bisect_le _ _ _ going) (Nat.min_le_right _ _)

/-- Once a ramp announces no change, there is none. -/
theorem IsMonotone.changesAfter_eq_empty (monotone : ramp.IsMonotone)
    (ended : ramp.nextChange tick = none) : ramp.changesAfter tick = ∅ := by
  refine Set.eq_empty_iff_forall_notMem.mpr fun later ⟨after, clock, changes⟩ => ?_
  have idle := monotone.idle after clock (by simp [ended])
  exact Bool.eq_false_iff.mp idle changes

theorem IsMonotone.nextChange_isLeast {next : Nat} (monotone : ramp.IsMonotone)
    (clocked : ramp.start ≤ Tick.last) (announced : ramp.nextChange tick = some next) :
    IsLeast (ramp.changesAfter tick) next := by
  refine ⟨nextChange_changes clocked announced, fun later ⟨after, clock, changes⟩ => ?_⟩
  by_contra earlier
  have before : ∀ other ∈ ramp.nextChange tick, later < other := by
    rw [announced]
    rintro _ ⟨⟩
    exact Nat.lt_of_not_le earlier
  exact Bool.eq_false_iff.mp (monotone.idle after clock before) changes

theorem IsMonotone.nextChange_eq_some_iff (monotone : ramp.IsMonotone)
    (clocked : ramp.start ≤ Tick.last) (tick next : Nat) :
    ramp.nextChange tick = some next ↔ IsLeast (ramp.changesAfter tick) next := by
  refine ⟨monotone.nextChange_isLeast clocked, fun least => ?_⟩
  cases announced : ramp.nextChange tick with
  | none =>
    have member := least.1
    rw [monotone.changesAfter_eq_empty announced] at member
    exact member.elim
  | some other =>
    exact congrArg some ((monotone.nextChange_isLeast clocked announced).unique least)

theorem IsMonotone.nextChange_eq_none_iff (monotone : ramp.IsMonotone)
    (clocked : ramp.start ≤ Tick.last) (tick : Nat) :
    ramp.nextChange tick = none ↔ ramp.changesAfter tick = ∅ := by
  refine ⟨monotone.changesAfter_eq_empty, fun none => ?_⟩
  refine Option.eq_none_iff_forall_ne_some.mpr fun next announced => ?_
  have member := nextChange_changes clocked announced
  rw [none] at member
  exact member

/-- Changes that are enough for the ticks that are left are all of them. -/
theorem changesFrom_unrolls {limit : Nat} (late : ramp.start ≤ tick) (early : tick ≤ ramp.stop)
    (enough : ramp.stop - tick < limit) : ramp.Unrolls tick (ramp.changesFrom limit tick) := by
  induction limit generalizing tick with
  | zero => exact absurd enough (Nat.not_lt_zero _)
  | succ limit ih =>
    rw [changesFrom]
    cases announced : ramp.nextChange tick with
    | none => exact .last announced
    | some next =>
      obtain ⟨after, within⟩ := nextChange_bounds late announced
      exact .more announced (ih (by omega) within (by omega))

theorem changes_unrolls (ramp : Ramp) : ramp.Unrolls ramp.start ramp.changes := by
  refine changesFrom_unrolls (Nat.le_refl _) (Nat.le_add_right _ _) ?_
  unfold stop
  omega

/-- The changes from a tick on are that tick and the later ones at which the ramp changes. -/
theorem Unrolls.mem_iff (monotone : ramp.IsMonotone) (clocked : ramp.start ≤ Tick.last)
    (unrolls : ramp.Unrolls tick changes) (later value : Nat) : (later, value) ∈ changes ↔
      (later = tick ∨ later ∈ ramp.changesAfter tick) ∧ value = ramp.valueAt later := by
  induction unrolls with
  | @last tick ended =>
    rw [monotone.changesAfter_eq_empty ended, List.mem_singleton, Prod.mk.injEq]
    constructor
    · rintro ⟨rfl, rfl⟩
      exact ⟨.inl rfl, rfl⟩
    · rintro ⟨rfl | none, rfl⟩
      · exact ⟨rfl, rfl⟩
      · exact none.elim
  | @more tick next rest announced _ ih =>
    obtain ⟨⟨after, clock, changes⟩, least⟩ := monotone.nextChange_isLeast clocked announced
    -- Behind the tick there is the next change, or what is later than that.
    have further : later ∈ ramp.changesAfter tick ↔
        later = next ∨ later ∈ ramp.changesAfter next := by
      constructor
      · intro member
        rcases Nat.eq_or_lt_of_le (least member) with rfl | beyond
        · exact .inl rfl
        · exact .inr ⟨beyond, member.2⟩
      · rintro (rfl | ⟨beyond, onClock⟩)
        · exact ⟨after, clock, changes⟩
        · exact ⟨Nat.lt_trans after beyond, onClock⟩
    rw [List.mem_cons, ih, further, Prod.mk.injEq]
    constructor
    · rintro (⟨rfl, rfl⟩ | ⟨member, same⟩)
      · exact ⟨.inl rfl, rfl⟩
      · exact ⟨.inr member, same⟩
    · rintro ⟨rfl | member, rfl⟩
      · exact .inl ⟨rfl, rfl⟩
      · exact .inr ⟨member, rfl⟩

theorem Unrolls.ascending (monotone : ramp.IsMonotone) (clocked : ramp.start ≤ Tick.last)
    (unrolls : ramp.Unrolls tick changes) : (changes.map Prod.fst).Pairwise (· < ·) := by
  induction unrolls with
  | last => exact List.pairwise_singleton _ _
  | @more tick next rest announced unrolls ih =>
    obtain ⟨after, _⟩ := (monotone.nextChange_isLeast clocked announced).1
    refine List.pairwise_cons.mpr ⟨fun later member => ?_, ih⟩
    obtain ⟨⟨_, value⟩, there, rfl⟩ := List.mem_map.mp member
    obtain ⟨rfl | ⟨beyond, _⟩, _⟩ := (unrolls.mem_iff monotone clocked _ value).mp there
    · exact after
    · exact Nat.lt_trans after beyond

/-- The changes of a ramp are at the ticks of the clock at which a message of it is due. -/
theorem mem_changes_iff (monotone : ramp.IsMonotone) (clocked : ramp.start ≤ Tick.last)
    (tick value : Nat) : (tick, value) ∈ ramp.changes ↔
      (tick ≤ Tick.last ∧ ramp.changesAt tick = true) ∧ value = ramp.valueAt tick := by
  rw [ramp.changes_unrolls.mem_iff monotone clocked]
  refine and_congr_left fun _ => ⟨?_, fun ⟨clock, changes⟩ => ?_⟩
  · rintro (rfl | ⟨_, here⟩)
    · exact ⟨clocked, ramp.changesAt_start⟩
    · exact here
  · have contained := contains_of_changesAt changes
    have late : ramp.start ≤ tick := of_decide_eq_true (Bool.and_eq_true_iff.mp contained).1
    exact (Nat.eq_or_lt_of_le late).imp Eq.symm fun after => ⟨after, clock, changes⟩

/-- A ramp whose values only rise or only fall announces at every tick the next change on the clock.
Its changes come to an end, and are just the ticks of the clock at which it changes, in order and
with its values there. -/
theorem tells_changes (ramp : Ramp) (clocked : ramp.start ≤ Tick.last)
    (monotone : ramp.IsMonotone) :
    (∀ tick, (∀ next, ramp.nextChange tick = some next ↔
        IsLeast (ramp.changesAfter tick) next) ∧
      (ramp.nextChange tick = none ↔ ramp.changesAfter tick = ∅)) ∧
    ramp.Unrolls ramp.start ramp.changes ∧ (ramp.changes.map Prod.fst).Pairwise (· < ·) ∧
    ∀ tick value, (tick, value) ∈ ramp.changes ↔
      (tick ≤ Tick.last ∧ ramp.changesAt tick = true) ∧ value = ramp.valueAt tick :=
  ⟨fun tick => ⟨monotone.nextChange_eq_some_iff clocked tick,
      monotone.nextChange_eq_none_iff clocked tick⟩,
    ramp.changes_unrolls, ramp.changes_unrolls.ascending monotone clocked,
    mem_changes_iff monotone clocked⟩

/-- A ramp of eight ticks that begins four ticks before the end of the clock. Of its values only 0
and 1 are reached, and each of them lasts for more than a tick. -/
def cutOff : Ramp := .between .level 4294967291 8 0 2

theorem cutOff_rises : cutOff.IsMonotone := by
  have values : ∀ i < 5, ∀ j < 5, i ≤ j →
      cutOff.valueAt (4294967291 + i) ≤ cutOff.valueAt (4294967291 + j) := by
    decide +kernel
  refine .inl fun tick tick' late ordered early => ?_
  have last : cutOff.lastTick = 4294967295 := by decide
  have first : cutOff.start = 4294967291 := rfl
  have rises := values (tick - 4294967291) (by omega) (tick' - 4294967291) (by omega) (by omega)
  rwa [Nat.add_sub_cancel' (by omega), Nat.add_sub_cancel' (by omega)] at rises

theorem tells_changes_cutOff : cutOff.start ≤ Tick.last ∧ cutOff.IsMonotone ∧
    cutOff.changes = [(4294967291, 0), (4294967293, 1)] ∧
    (∀ tick, (∀ next, cutOff.nextChange tick = some next ↔
        IsLeast (cutOff.changesAfter tick) next) ∧
      (cutOff.nextChange tick = none ↔ cutOff.changesAfter tick = ∅)) ∧
    cutOff.Unrolls cutOff.start cutOff.changes ∧ (cutOff.changes.map Prod.fst).Pairwise (· < ·) ∧
    ∀ tick value, (tick, value) ∈ cutOff.changes ↔
      (tick ≤ Tick.last ∧ cutOff.changesAt tick = true) ∧ value = cutOff.valueAt tick :=
  have clocked : cutOff.start ≤ Tick.last := by decide
  ⟨clocked, cutOff_rises, by decide +kernel, tells_changes cutOff clocked cutOff_rises⟩

end Sequencer.Ramp
