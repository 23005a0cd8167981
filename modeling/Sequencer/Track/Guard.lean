import Std.Data.TreeSet
import Sequencer.Fault
import Sequencer.Tick
import Sequencer.Track.Flow

/-! The loop guard. A transfer of control arrives at a junction: its destination together
with the calls and loops that are open then. From one junction a track always goes on the
same way, so that a junction reached twice in a pass means that the track runs in a cycle.
The first such junction becomes the anchor of the cycle, and each later arrival there counts
one trip around it. -/
namespace Sequencer

namespace Frame

def order : Frame → Frame → Ordering :=
  compareLex (compareOn Frame.start) (compareOn Frame.remaining)

instance : Ord Frame := ⟨order⟩

instance : Std.TransOrd Frame :=
  inferInstanceAs (Std.TransCmp (compareLex (compareOn Frame.start) (compareOn Frame.remaining)))

instance : Std.LawfulEqOrd Frame where
  eq_of_compare {a b} h := by
    change order a b = .eq at h
    simp only [order, compareLex, compareOn, Ordering.then_eq_eq, Nat.compare_eq_eq] at h
    cases a
    cases b
    simp_all

end Frame

structure Junction where
  destination : Nat
  calls : List Nat
  loops : List Frame
deriving DecidableEq, Repr

namespace Junction

def order : Junction → Junction → Ordering :=
  compareLex (compareOn Junction.destination)
    (compareLex (compareOn Junction.calls) (compareOn Junction.loops))

instance : Std.TransCmp order :=
  inferInstanceAs (Std.TransCmp (compareLex (compareOn Junction.destination)
    (compareLex (compareOn Junction.calls) (compareOn Junction.loops))))

instance : Std.LawfulEqCmp order where
  eq_of_compare {a b} h := by
    simp only [order, compareLex, compareOn, Ordering.then_eq_eq, Std.compare_eq_iff_eq] at h
    cases a
    cases b
    simp_all

end Junction

/-- Where a cursor arrives when it is sent to the destination. -/
def Cursor.junction (cursor : Cursor) (destination : Nat) : Junction :=
  ⟨destination, cursor.calls, cursor.loops⟩

inductive LoopRule
  /-- Until the first junction that is reached again. -/
  | once
  /-- For this many trips around its anchor. -/
  | trips (count : Nat)
  /-- As long as every trip takes time. -/
  | progress
deriving DecidableEq, Repr

structure Guard where
  visited : Std.TreeSet Junction Junction.order := {}
  anchor : Option Junction := none
  trips : Nat := 0
  lastTrip : Option Nat := none

namespace Guard

/-- Whether the track may go on from its anchor, after `trips` trips, at tick `now`. -/
def mayRepeat (rule : LoopRule) (trips now : Nat) (lastTrip : Option Nat) : Bool :=
  match rule with
  | .once => false
  | .trips count => trips ≤ count
  | .progress => now ≠ 0 && lastTrip ≠ some now

/-- Counts a trip around the anchor and decides whether the track goes on. -/
def countTrip (rule : LoopRule) (now : Nat) (guard : Guard) : Except Fault (Bool × Guard) :=
  let trips := guard.trips + 1
  if trips > Tick.last then .error .counter
  else .ok (mayRepeat rule trips now guard.lastTrip, { guard with trips, lastTrip := some now })

/-- A track arrives at a junction: may it go on? In a cycle, junctions other than the
anchor are passed freely unless a cycle is not to be played at all. -/
def arrive (rule : LoopRule) (junction : Junction) (now : Nat) (guard : Guard) :
    Except Fault (Bool × Guard) :=
  if guard.visited.contains junction then
    match guard.anchor with
    | none => countTrip rule now { guard with anchor := some junction }
    | some anchor =>
      if anchor = junction then countTrip rule now guard
      else .ok (rule ≠ .once, guard)
  else .ok (true, { guard with visited := guard.visited.insert junction })

end Guard
end Sequencer
