import Sequencer.Timeline
import Sequencer.Timeline.Active

/-! A sweep over a settled timeline. It remembers how far it has come in the order of
starts and in the order of ends, so that moving on by a few ticks costs no more than the
entries that begin or end on the way. Moving back starts again from the beginning. -/
namespace Sequencer

structure Sweep where
  /-- How many of the entries, by start, have begun. -/
  begun : Nat := 0
  /-- How many of the entries, by end, have ended. -/
  ended : Nat := 0
  tick : Option Nat := none
  active : Active := {}

namespace Sweep

/-- Takes up the entries that begin at or before `tick`, unless they end by then. -/
def begin (timeline : Timeline) (tick : Nat) (sweep : Sweep) : Sweep :=
  if h : sweep.begun < timeline.byStart.size then
    let index := timeline.byStart[sweep.begun]
    if timeline.startOf index ≤ tick then
      begin timeline tick { sweep with
        begun := sweep.begun + 1
        active := if tick < timeline.stopOf index then sweep.active.insert index else sweep.active }
    else sweep
  else sweep
termination_by timeline.byStart.size - sweep.begun

def finish (timeline : Timeline) (tick : Nat) (sweep : Sweep) : Sweep :=
  if h : sweep.ended < timeline.byStop.size then
    let index := timeline.byStop[sweep.ended]
    if timeline.stopOf index ≤ tick then
      finish timeline tick { sweep with
        ended := sweep.ended + 1
        active := sweep.active.erase index }
    else sweep
  else sweep
termination_by timeline.byStop.size - sweep.ended

def reset (_ : Sweep) : Sweep := {}

/-- Moves to a tick, forwards from where the sweep stands or else from the beginning. -/
def advance (timeline : Timeline) (tick : Nat) (sweep : Sweep) : Sweep :=
  let sweep := match sweep.tick with
    | some current => if tick < current then sweep.reset else sweep
    | none => sweep
  { finish timeline tick (begin timeline tick sweep) with tick := some tick }

/-- The entries that sound, in ascending order. -/
def sounding (sweep : Sweep) : List Nat := sweep.active.sorted

/-- Moves to a tick and tells what sounds there. -/
def seek (timeline : Timeline) (tick : Nat) (sweep : Sweep) : List Nat × Sweep :=
  let sweep := sweep.advance timeline tick
  (sweep.sounding, sweep)

def isSounding (sweep : Sweep) (index : Nat) : Bool := sweep.active.contains index

end Sweep

namespace Timeline

def sweep (timeline : Timeline) : Except Fault Sweep := do
  timeline.requireSettled
  return {}

def soundingAt (timeline : Timeline) (tick : Nat) : Except Fault (List Nat) := do
  let sweep ← timeline.sweep
  return (sweep.seek timeline tick).1

/-- The entries that sound at some tick from `first` on and before `past`, in ascending
order: those of the first tick, and those that begin later. -/
def soundingWithin (timeline : Timeline) (first past : Nat) : Except Fault (List Nat) := do
  if past ≤ first then return []
  let sweep ← timeline.sweep
  let (sounding, sweep) := sweep.seek timeline first
  let later := (timeline.byStart.toList.drop sweep.begun).takeWhile fun index =>
    timeline.startOf index < past
  return (sounding ++ later).mergeSort

end Timeline
end Sequencer
