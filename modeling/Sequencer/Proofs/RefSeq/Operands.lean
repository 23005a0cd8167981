import Mathlib.Algebra.Group.Nat.Defs
import Sequencer.Proofs.FreeRun

/-! Operands are numbers of two bytes at most, so that an instruction takes no more than 65535
ticks. A clock that starts at zero does not come to its last tick in fewer than 65537
instructions. -/
namespace Sequencer

theorem littleEndian_lt (bytes : List UInt8) : littleEndian bytes < 256 ^ bytes.length := by
  induction bytes with
  | nil => decide
  | cons b rest ih =>
    have byte : b.toNat < 256 := b.toNat_lt
    rw [littleEndian, List.length_cons, Nat.pow_succ]
    omega

theorem Source.littleEndianAt_lt {source : Source} {offset width value : Nat}
    (read : source.littleEndianAt offset width = .ok value) : value < 256 ^ width := by
  unfold littleEndianAt bytesAt at read
  split at read
  · rename_i within
    cases read
    have length : (source.extract offset (offset + width)).toList.length = width := by
      rw [Array.length_toList, Array.size_extract, Nat.min_eq_left within]
      omega
    have bound := littleEndian_lt (source.extract offset (offset + width)).toList
    rwa [length] at bound
  · cases read

namespace RefSeq

/-- The longest that one instruction can take. -/
def longest : Nat := 65535

/-- The ticks that an instruction names: how long a note sounds, or a rest lasts. -/
def Instruction.ticks : Instruction → Nat
  | .event kind => kind.duration
  | .octaveNote _ _ duration => duration
  | .cut | .unknown _ => 0

namespace Reader

variable {α β : Type} {reader : Reader α} {next : α → Reader β} {known : α → Prop}
  {result : β → Prop}

/-- What is read has a property. -/
def Reads (known : α → Prop) (reader : Reader α) : Prop :=
  ∀ source offset value stop, reader source offset = (.ok value, stop) → known value

theorem Reads.bind (first : reader.Reads known) (rest : ∀ value, known value →
    (next value).Reads result) : (reader >>= next).Reads result := by
  intro source offset value stop read
  change Reader.bind reader next source offset = _ at read
  unfold Reader.bind at read
  split at read
  · rename_i found
    exact rest _ (first _ _ _ _ found) _ _ _ _ read
  · cases read

theorem reads_any (reader : Reader α) : reader.Reads fun _ => True :=
  fun _ _ _ _ _ => trivial

theorem reads_pure {value : β} (holds : result value) : (Pure.pure value : Reader β).Reads result := by
  intro source offset other stop read
  cases read
  exact holds

theorem reads_ite {condition : Prop} [Decidable condition] {first second : Reader α}
    (here : first.Reads known) (there : second.Reads known) :
    (if condition then first else second).Reads known := by
  split
  · exact here
  · exact there

theorem short_reads : short.Reads (· ≤ longest) := by
  intro source offset value stop read
  unfold short ofWidth at read
  split at read
  · rename_i found
    cases read
    exact Nat.le_of_lt_succ (Source.littleEndianAt_lt found)
  · cases read

end Reader

open Reader

theorem slideOperands_reads : slideOperands.Reads (·.1 ≤ longest) := by
  refine short_reads.bind fun duration bound => ?_
  exact (reads_any byte).bind fun target _ => reads_pure bound

theorem operands_reads (opcode : UInt8) :
    (operands opcode).Reads fun instruction => instruction.ticks ≤ longest := by
  have none {α : Type} (reader : Reader α) {next : α → Reader Instruction}
      (rest : ∀ value, (next value).Reads fun instruction => instruction.ticks ≤ longest) :
      (reader >>= next).Reads fun instruction => instruction.ticks ≤ longest :=
    (reads_any reader).bind fun value _ => rest value
  unfold operands
  -- Three instructions name how long they take; all others take no time, or slide.
  repeat' refine reads_ite ?_ ?_
  all_goals first
    | exact reads_pure (Nat.zero_le _)
    | exact none _ fun _ => reads_pure (Nat.zero_le _)
    | exact none _ fun _ => none _ fun _ => reads_pure (Nat.zero_le _)
    | exact short_reads.bind fun _ bound => reads_pure bound
    | exact none _ fun _ => none _ fun _ => short_reads.bind fun _ bound => reads_pure bound
    | exact slideOperands_reads.bind fun _ bound => reads_pure bound
    | exact short_reads.bind fun _ bound => none _ fun _ => reads_pure bound
    | exact none _ fun _ => none _ fun _ => none _ fun _ => reads_pure (Nat.zero_le _)

theorem ticks_le {source : Source} {offset stop : Nat} {found : Instruction}
    (read : instruction source offset = (.ok found, stop)) : found.ticks ≤ longest :=
  (reads_any byte).bind (fun opcode _ => operands_reads opcode) source offset found stop read

end RefSeq

open RefSeq (longest)

theorem EventKind.tickAfter_le (kind : EventKind) (tick : Nat) :
    kind.tickAfter tick ≤ tick + kind.duration := by
  cases kind with
  | rest ticks | hold ticks => exact Nat.min_le_left ..
  | _ => exact Nat.le_add_right ..

theorem Departure.tick_of_turn {tick : Nat} {turn : Turn} {next : Position}
    (departs : (Departure.ofTurn tick turn).next? = some next) : next.tick = tick := by
  cases turn with
  | halt => cases departs
  | onward cursor =>
    cases departs
    rfl
  | transfer cursor destination =>
    cases departs
    rfl

namespace Position

variable {source : Source} {depth : Nat} {start position next : Position}

theorem next_tick_le (departs : position.next? source depth = some next) :
    next.tick ≤ position.tick + longest := by
  unfold next? depart at departs
  split at departs
  · cases departs
  · cases departs
  · rename_i kind stop read
    rw [Departure.tick_of_turn departs]
    have bound : kind.duration ≤ longest := RefSeq.ticks_le read
    exact Nat.le_trans (kind.tickAfter_le position.tick) (Nat.add_le_add_left bound _)
  · rw [Departure.tick_of_turn departs]
    exact Nat.le_add_right ..
  · rw [Departure.tick_of_turn departs]
    exact Nat.le_add_right ..

/-- Every instruction takes the clock on by no more than the longest one can. -/
theorem after_tick_le {count : Nat} (reached : start.after source depth count = some position) :
    position.tick ≤ start.tick + longest * count := by
  induction count generalizing position with
  | zero =>
    cases reached
    exact Nat.le_add_right ..
  | succ count ih =>
    obtain ⟨before, earlier, departs⟩ := Option.bind_eq_some_iff.mp reached
    have bound := next_tick_le departs
    have past := ih earlier
    rw [Nat.mul_succ]
    omega

end Position
end Sequencer
