import Sequencer.Tick
import Sequencer.Number.Binary64

/-! Linear ramps of controller values. A ramp holds no state: it says what its value is at a
tick and whether that differs from the tick before. A ramp is monotonic, so the ticks at
which the rounded value moves are found by bisection. -/
namespace Sequencer

/-- The tempo's time of a quarter note in microseconds has to fit into 24 bits. -/
def maxMicros : Nat := 16777215

/-- Microseconds per quarter note. What is no usable tempo counts as the slowest one. -/
def microsOfBpm (bpm : Float) : Nat :=
  if bpm ≤ 0.0 || !bpm.isFinite then maxMicros
  else max 1 (Number.Binary64.nearest maxMicros (.ofFloat (60000000.0 / bpm)))

def bpmOfMicros (micros : Nat) : Float := 60000000.0 / Float.ofNat (max micros 1)

/-- How an interpolated value is turned into a controller's value. -/
inductive Scale
  | level
  | tempo
deriving DecidableEq, Repr

namespace Scale

def resolve : Scale → Float → Nat
  | .level, x => Number.Binary64.nearest 127 (.ofFloat x)
  | .tempo, x => microsOfBpm x

def toFloat : Scale → Nat → Float
  | .level, value => Float.ofNat value
  | .tempo, micros => bpmOfMicros micros

end Scale

structure Ramp where
  scale : Scale
  start : Nat
  duration : Nat
  initial : Float
  target : Float

namespace Ramp

def between (scale : Scale) (start : Nat) (duration initial target : Nat) : Ramp :=
  ⟨scale, start, duration, scale.toFloat initial, scale.toFloat target⟩

/-- The last tick of the ramp. It may lie beyond the clock. -/
def stop (ramp : Ramp) : Nat := ramp.start + ramp.duration

def contains (ramp : Ramp) (tick : Nat) : Bool := ramp.start ≤ tick && tick ≤ ramp.stop

def get (ramp : Ramp) (tick : Nat) : Float :=
  if ramp.contains tick then
    if ramp.duration = 0 || tick = ramp.stop then ramp.target
    else
      let part := Float.ofNat (tick - ramp.start) / Float.ofNat ramp.duration
      ramp.initial + (ramp.target - ramp.initial) * part
  else 0.0

def valueAt (ramp : Ramp) (tick : Nat) : Nat := ramp.scale.resolve (ramp.get tick)

/-- Whether a message is due: at the first tick, and whenever the value moves. -/
def changesAt (ramp : Ramp) (tick : Nat) : Bool :=
  ramp.contains tick && (tick = ramp.start || ramp.valueAt tick ≠ ramp.valueAt (tick - 1))

def lastTick (ramp : Ramp) : Nat := min ramp.stop Tick.last

/-- Halves the stretch between a tick with the value `value` and one with another value,
and returns the first tick of the other value. -/
def bisect (ramp : Ramp) (value : Nat) (same moved : Nat) : Nat :=
  if moved - same > 1 then
    let middle := same + (moved - same) / 2
    if ramp.valueAt middle = value then bisect ramp value middle moved
    else bisect ramp value same middle
  else moved
termination_by moved - same
decreasing_by all_goals omega

theorem lt_bisect (ramp : Ramp) (value : Nat) (same moved : Nat) (h : same < moved) :
    same < ramp.bisect value same moved := by
  fun_induction ramp.bisect value same moved with
  | case1 same moved apart middle _ ih =>
    have := ih (by omega)
    omega
  | case2 same moved apart middle _ ih => exact ih (by omega)
  | case3 => exact h

theorem bisect_le (ramp : Ramp) (value : Nat) (same moved : Nat) (h : same < moved) :
    ramp.bisect value same moved ≤ moved := by
  fun_induction ramp.bisect value same moved with
  | case1 same moved apart middle _ ih => exact ih (by omega)
  | case2 same moved apart middle _ ih =>
    have := ih (by omega)
    omega
  | case3 => exact Nat.le_refl _

def nextChange (ramp : Ramp) (tick : Nat) : Option Nat :=
  if tick < ramp.start then some ramp.start
  else if tick ≥ ramp.lastTick then none
  else
    let value := ramp.valueAt tick
    if ramp.valueAt ramp.lastTick = value then none
    else some (ramp.bisect value tick ramp.lastTick)

/-- The changes from a tick on, that tick first, at most `limit` of them. -/
def changesFrom (ramp : Ramp) : (limit : Nat) → Nat → List (Nat × Nat)
  | 0, _ => []
  | limit + 1, tick =>
    (tick, ramp.valueAt tick) ::
      match ramp.nextChange tick with
      | none => []
      | some next => changesFrom ramp limit next

def firstChanges (ramp : Ramp) (limit : Nat) : List (Nat × Nat) :=
  ramp.changesFrom limit ramp.start

/-- All changes. A ramp has no more changes than ticks. -/
def changes (ramp : Ramp) : List (Nat × Nat) := ramp.firstChanges (ramp.duration + 1)

end Ramp
end Sequencer
