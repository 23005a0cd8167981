import Sequencer.Track
import Sequencer.RefSeq.Instruction

/-! The free run of a track: what it decodes if every transfer that its stacks permit is taken.
Where a free run goes does not depend on the clock, so that it never ends once it comes back
to a junction. -/
namespace Sequencer

/-- The tick at which a track decodes on after an instruction. -/
def EventKind.tickAfter (tick : Nat) : EventKind → Nat
  | .rest ticks | .hold ticks => Tick.later tick ticks
  | _ => tick

/-- Where a track stands in its flow of control, and when. -/
structure Position where
  junction : Junction
  tick : Nat
deriving DecidableEq

/-- How a track leaves an instruction. -/
inductive Departure
  | stop
  | onward (next : Position)
  | transfer (next : Position)
deriving DecidableEq

namespace Departure

def next? : Departure → Option Position
  | .stop => none
  | .onward next | .transfer next => some next

def ofTurn (tick : Nat) : Turn → Departure
  | .halt => .stop
  | .onward cursor => .onward ⟨cursor.junction cursor.offset, tick⟩
  | .transfer cursor destination => .transfer ⟨cursor.junction destination, tick⟩

end Departure

/-- A cursor that has read up to `stop` with the calls and loops of the junction. -/
def Junction.readTo (junction : Junction) (stop : Nat) : Cursor :=
  { offset := stop, calls := junction.calls, loops := junction.loops }

namespace Position

/-- How a track leaves the instruction at a position, with at most `depth` calls and at most
as many loops open at once. -/
def depart (source : Source) (depth : Nat) (position : Position) : Departure :=
  match RefSeq.instruction source position.junction.destination with
  | (.error _, _) | (.ok (.unknown _), _) => .stop
  | (.ok (.event kind), stop) =>
    .ofTurn (kind.tickAfter position.tick) ((position.junction.readTo stop).turn depth kind)
  | (.ok (.octaveNote ..), stop) | (.ok .cut, stop) =>
    .ofTurn position.tick (.onward (position.junction.readTo stop))

/-- The position after one instruction, if the run does not end there. -/
def next? (source : Source) (depth : Nat) (position : Position) : Option Position :=
  (position.depart source depth).next?

/-- The position after `count` instructions, if the run comes that far. -/
def after (source : Source) (depth : Nat) (start : Position) : (count : Nat) → Option Position
  | 0 => some start
  | count + 1 => (after source depth start count).bind (next? source depth)

def visit (position : Position) : Nat × Nat := (position.junction.destination, position.tick)

/-- The first `count` instructions of a free run, or all of them if there are fewer. -/
def freeRun (source : Source) (depth : Nat) (start : Position) (count : Nat) :
    List (Nat × Nat) :=
  (List.range count).filterMap fun n => (start.after source depth n).map visit

/-- The free run never ends. -/
def Endless (source : Source) (depth : Nat) (start : Position) : Prop :=
  ∀ count, (start.freeRun source depth count).length = count

variable {source : Source} {depth : Nat} {start position : Position}

theorem after_succ (count : Nat) : start.after source depth (count + 1) =
    (start.after source depth count).bind (next? source depth) := rfl

theorem after_none {count : Nat} (ended : start.after source depth count = none) (more : Nat) :
    start.after source depth (count + more) = none := by
  induction more with
  | zero => exact ended
  | succ more ih => rw [← Nat.add_assoc, after_succ, ih, Option.bind_none]

theorem after_some {count earlier : Nat} {position : Position}
    (reached : start.after source depth count = some position) (le : earlier ≤ count) :
    ∃ before, start.after source depth earlier = some before := by
  cases found : start.after source depth earlier with
  | some before => exact ⟨before, rfl⟩
  | none =>
    have ended := after_none found (count - earlier)
    rw [Nat.add_sub_cancel' le, reached] at ended
    cases ended

theorem freeRun_succ {count : Nat} (reached : start.after source depth count = some position) :
    start.freeRun source depth (count + 1) =
      start.freeRun source depth count ++ [position.visit] := by
  simp [freeRun, List.range_succ, reached]

theorem length_freeRun {count : Nat}
    (reached : ∀ n < count, (start.after source depth n).isSome) :
    (start.freeRun source depth count).length = count := by
  induction count with
  | zero => rfl
  | succ count ih =>
    obtain ⟨position, found⟩ := Option.isSome_iff_exists.mp (reached count (Nat.lt_succ_self _))
    rw [freeRun_succ found, List.length_append, ih fun n lt => reached n (Nat.lt_succ_of_lt lt)]
    rfl

theorem endless_of_after (endless : ∀ count, (start.after source depth count).isSome) :
    start.Endless source depth :=
  fun _ => length_freeRun fun n _ => endless n

/-- A run comes no further than to an instruction that ends it. -/
theorem le_of_final {count n : Nat} {last : Position}
    (reached : start.after source depth count = some last)
    (final : last.next? source depth = none)
    (there : start.after source depth n = some position) : n ≤ count := by
  have ended : start.after source depth (count + 1) = none := by
    rw [after_succ, reached]
    exact final
  rcases Nat.lt_or_ge count n with beyond | within
  · have none := after_none ended (n - (count + 1))
    rw [Nat.add_sub_cancel' beyond, there] at none
    cases none
  · exact within

theorem Endless.reaches (endless : start.Endless source depth) (count : Nat) :
    ∃ position, start.after source depth count = some position := by
  have all := endless (count + 1)
  have reaches := List.filterMap_length_eq_length.mp (all.trans List.length_range.symm) count
    (List.mem_range.mpr (Nat.lt_succ_self _))
  rw [Option.isSome_map] at reaches
  exact Option.isSome_iff_exists.mp reaches

theorem not_endless_of_final {count : Nat} {last : Position}
    (reached : start.after source depth count = some last)
    (final : last.next? source depth = none) : ¬ start.Endless source depth := by
  intro endless
  obtain ⟨position, there⟩ := endless.reaches (count + 1)
  exact Nat.not_succ_le_self count (le_of_final reached final there)

theorem depart_at (source : Source) (depth : Nat) (junction : Junction) (tick tick' : Nat) :
    (∀ next, depart source depth ⟨junction, tick⟩ = .onward next →
      ∃ later, depart source depth ⟨junction, tick'⟩ = .onward ⟨next.junction, later⟩) ∧
    (∀ next, depart source depth ⟨junction, tick⟩ = .transfer next →
      ∃ later, depart source depth ⟨junction, tick'⟩ = .transfer ⟨next.junction, later⟩) := by
  have turn (t t' : Nat) (turn : Turn) :
      (∀ next, Departure.ofTurn t turn = .onward next →
        ∃ later, Departure.ofTurn t' turn = .onward ⟨next.junction, later⟩) ∧
      (∀ next, Departure.ofTurn t turn = .transfer next →
        ∃ later, Departure.ofTurn t' turn = .transfer ⟨next.junction, later⟩) := by
    cases turn <;> simp [Departure.ofTurn]
  unfold depart
  dsimp only
  split
  · simp
  · simp
  · exact turn _ _ _
  · exact turn _ _ _
  · exact turn _ _ _

theorem next_at {junction : Junction} {tick : Nat} {next : Position}
    (goes : next? source depth ⟨junction, tick⟩ = some next) (tick' : Nat) :
    ∃ later, next? source depth ⟨junction, tick'⟩ = some ⟨next.junction, later⟩ := by
  have same := depart_at source depth junction tick tick'
  unfold next? at goes ⊢
  cases departs : depart source depth ⟨junction, tick⟩ with
  | stop => rw [departs] at goes; cases goes
  | onward target =>
    rw [departs] at goes
    cases goes
    obtain ⟨later, departs⟩ := same.1 next departs
    exact ⟨later, by rw [departs]; rfl⟩
  | transfer target =>
    rw [departs] at goes
    cases goes
    obtain ⟨later, departs⟩ := same.2 next departs
    exact ⟨later, by rw [departs]; rfl⟩

/-- From one junction the run always goes on the same way. -/
theorem after_same_junction {m n : Nat} {first second : Position}
    (reached : start.after source depth m = some first)
    (again : start.after source depth n = some second)
    (same : second.junction = first.junction) (more : Nat) {position : Position}
    (further : start.after source depth (m + more) = some position) :
    ∃ tick, start.after source depth (n + more) = some ⟨position.junction, tick⟩ := by
  induction more generalizing position with
  | zero =>
    cases reached.symm.trans further
    exact ⟨second.tick, by rw [← same]; exact again⟩
  | succ more ih =>
    rw [← Nat.add_assoc, after_succ] at further
    obtain ⟨⟨junction, earlier⟩, found, goes⟩ := Option.bind_eq_some_iff.mp further
    obtain ⟨tick, there⟩ := ih found
    obtain ⟨later, goes⟩ := next_at goes tick
    exact ⟨later, by rw [← Nat.add_assoc, after_succ, there]; exact goes⟩

/-- A run that comes back to a junction goes round for ever. -/
theorem endless_of_repeat {m n : Nat} {first second : Position} (lt : m < n)
    (reached : start.after source depth m = some first)
    (again : start.after source depth n = some second)
    (same : second.junction = first.junction) : start.Endless source depth := by
  refine endless_of_after fun count => ?_
  induction count using Nat.strongRecOn with
  | ind count ih =>
    by_cases within : count ≤ n
    · obtain ⟨position, found⟩ := after_some again within
      exact Option.isSome_iff_exists.mpr ⟨position, found⟩
    · -- The same stretch of the cycle was run before.
      have shift : m + (count - n) < count := by omega
      obtain ⟨position, found⟩ := Option.isSome_iff_exists.mp (ih _ shift)
      obtain ⟨tick, there⟩ := after_same_junction reached again same (count - n) found
      rw [Nat.add_sub_cancel' (Nat.le_of_not_le within)] at there
      exact Option.isSome_iff_exists.mpr ⟨_, there⟩

theorem tickAfter_bounds {tick : Nat} (within : tick ≤ Tick.last) (kind : EventKind) :
    tick ≤ kind.tickAfter tick ∧ kind.tickAfter tick ≤ Tick.last := by
  cases kind with
  | rest ticks => exact ⟨Tick.le_later within _, Tick.later_le_last _ _⟩
  | hold ticks => exact ⟨Tick.le_later within _, Tick.later_le_last _ _⟩
  | _ => exact ⟨Nat.le_refl _, within⟩

theorem next_tick {next : Position} (within : position.tick ≤ Tick.last)
    (goes : position.next? source depth = some next) :
    position.tick ≤ next.tick ∧ next.tick ≤ Tick.last := by
  have turn {tick : Nat} {turn : Turn} (goes : (Departure.ofTurn tick turn).next? = some next) :
      next.tick = tick := by
    cases turn <;> cases goes <;> rfl
  unfold next? depart at goes
  split at goes
  · cases goes
  · cases goes
  · rw [turn goes]
    exact tickAfter_bounds within _
  · rw [turn goes]
    exact ⟨Nat.le_refl _, within⟩
  · rw [turn goes]
    exact ⟨Nat.le_refl _, within⟩

theorem tick_le_last {count : Nat} (within : start.tick ≤ Tick.last)
    (reached : start.after source depth count = some position) : position.tick ≤ Tick.last := by
  induction count generalizing position with
  | zero =>
    cases reached
    exact within
  | succ count ih =>
    obtain ⟨before, found, goes⟩ := Option.bind_eq_some_iff.mp reached
    exact (next_tick (ih found) goes).2

theorem tick_mono {m n : Nat} {first second : Position} (within : start.tick ≤ Tick.last)
    (le : m ≤ n) (reached : start.after source depth m = some first)
    (later : start.after source depth n = some second) : first.tick ≤ second.tick := by
  induction n generalizing second with
  | zero =>
    cases Nat.le_zero.mp le
    cases reached.symm.trans later
    exact Nat.le_refl _
  | succ n ih =>
    rcases Nat.lt_or_eq_of_le le with lt | rfl
    · obtain ⟨before, found, goes⟩ := Option.bind_eq_some_iff.mp later
      exact Nat.le_trans (ih (Nat.le_of_lt_succ lt) found)
        (next_tick (tick_le_last within found) goes).1
    · cases reached.symm.trans later
      exact Nat.le_refl _

theorem freeRun_ascending (within : start.tick ≤ Tick.last) (count : Nat) :
    (start.freeRun source depth count).Pairwise fun first second => first.2 ≤ second.2 := by
  refine List.pairwise_lt_range.filterMap _ fun m n lt first here second there => ?_
  obtain ⟨position, reached, rfl⟩ := Option.map_eq_some_iff.mp here
  obtain ⟨position', reached', rfl⟩ := Option.map_eq_some_iff.mp there
  exact tick_mono within (Nat.le_of_lt lt) reached reached'

theorem after_same {m n : Nat} {position : Position}
    (reached : start.after source depth m = some position)
    (again : start.after source depth n = some position) (more : Nat) :
    start.after source depth (n + more) = start.after source depth (m + more) := by
  induction more with
  | zero => exact again.trans reached.symm
  | succ more ih => rw [← Nat.add_assoc, ← Nat.add_assoc, after_succ, after_succ, ih]

/-- The clock stands still once a cycle has taken no time. -/
theorem tick_of_repeat {m n : Nat} {position later : Position} (within : start.tick ≤ Tick.last)
    (lt : m < n) (reached : start.after source depth m = some position)
    (again : start.after source depth n = some position) (more : Nat)
    (further : start.after source depth (n + more) = some later) : later.tick = position.tick := by
  induction more using Nat.strongRecOn generalizing later with
  | ind more ih =>
    rw [after_same reached again] at further
    by_cases short : m + more ≤ n
    · exact Nat.le_antisymm (tick_mono within short further again)
        (tick_mono within (Nat.le_add_right m more) reached further)
    · refine ih (m + more - n) (by omega) ?_
      rw [Nat.add_sub_cancel' (Nat.le_of_not_le short)]
      exact further

end Position
end Sequencer
