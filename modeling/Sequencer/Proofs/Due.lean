import Sequencer.Proofs.FreeRun

/-! When the instructions of a free run are due. The clock of a track stops at its last tick; here
is the clock that does not, and that tracks wait for which play together. -/
namespace Sequencer

/-- The tick at which a track decodes on after the instruction at an offset. -/
def RefSeq.tickAfter (source : Source) (offset tick : Nat) : Nat :=
  match RefSeq.instruction source offset with
  | (.ok (.event kind), _) => kind.tickAfter tick
  | _ => tick

theorem EventKind.tickAfter_later (kind : EventKind) (tick ticks : Nat) :
    kind.tickAfter (Tick.later tick ticks) = Tick.later tick (kind.tickAfter ticks) := by
  cases kind with
  | rest more | hold more =>
    simp only [tickAfter, Tick.later]
    omega
  | _ => rfl

theorem RefSeq.tickAfter_later (source : Source) (offset tick ticks : Nat) :
    tickAfter source offset (Tick.later tick ticks) =
      Tick.later tick (tickAfter source offset ticks) := by
  unfold tickAfter
  split
  · exact EventKind.tickAfter_later ..
  · rfl

namespace Position

/-- The tick at which an instruction of the free run is due on a clock that has no last tick. -/
def due (source : Source) (depth : Nat) (start : Position) : (count : Nat) → Nat
  | 0 => start.tick
  | count + 1 => due source depth start count +
    (start.after source depth count).elim 0 fun position =>
      RefSeq.tickAfter source position.junction.destination 0

variable {source : Source} {depth count : Nat} {start position next : Position}

theorem due_succ (reached : start.after source depth count = some position) :
    start.due source depth (count + 1) = start.due source depth count +
      RefSeq.tickAfter source position.junction.destination 0 := by
  rw [due, reached, Option.elim_some]

theorem due_mono {m n : Nat} (le : m ≤ n) :
    start.due source depth m ≤ start.due source depth n := by
  induction le with
  | refl => exact Nat.le_refl _
  | step _ ih => exact Nat.le_trans ih (Nat.le_add_right ..)

theorem next_tick_eq (goes : position.next? source depth = some next) :
    next.tick = RefSeq.tickAfter source position.junction.destination position.tick := by
  have turn {tick : Nat} {turn : Turn} (goes : (Departure.ofTurn tick turn).next? = some next) :
      next.tick = tick := by
    cases turn <;> cases goes <;> rfl
  unfold next? depart at goes
  unfold RefSeq.tickAfter
  split at goes
  · cases goes
  · cases goes
  · rename_i read
    rw [turn goes, read]
  · rename_i read
    rw [turn goes, read]
  · rename_i read
    rw [turn goes, read]

/-- The clock of the track shows when its instruction is due, unless it has stopped. -/
theorem tick_eq_due (within : start.tick ≤ Tick.last)
    (reached : start.after source depth count = some position) :
    position.tick = min (start.due source depth count) Tick.last := by
  induction count generalizing position with
  | zero =>
    cases reached
    exact (Nat.min_eq_left within).symm
  | succ count ih =>
    obtain ⟨before, found, goes⟩ := Option.bind_eq_some_iff.mp reached
    have shows : before.tick = Tick.later (start.due source depth count) 0 := ih found
    rw [next_tick_eq goes, shows, RefSeq.tickAfter_later, due_succ found]
    rfl

theorem tick_eq_last (within : start.tick ≤ Tick.last)
    (reached : start.after source depth count = some position)
    (late : Tick.last < start.due source depth count) : position.tick = Tick.last := by
  rw [tick_eq_due within reached]
  omega

end Position
end Sequencer
