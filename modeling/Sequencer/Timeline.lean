import Sequencer.Event.Arena
import Sequencer.Fault

/-! The timeline of a pass: events with a start and a duration, kept in the order in which
they were played. Durations may still change after an entry was made. Once `settle` has
sorted the entries by start and by end, `Sequencer.Timeline.Sweep` answers which of them
sound at a tick. -/
namespace Sequencer

structure Entry where
  start : Nat
  duration : Nat
  event : Nat
deriving DecidableEq, Repr, Inhabited

namespace Entry

/-- The first tick after the entry. An entry without length still takes up its start. -/
def stop (entry : Entry) : Nat := entry.start + max entry.duration 1

def soundsAt (entry : Entry) (tick : Nat) : Bool :=
  entry.start ≤ tick && tick < entry.stop

end Entry

structure Timeline where
  entries : Array Entry := #[]
  byStart : Array Nat := #[]
  byStop : Array Nat := #[]
  settled : Bool := false

namespace Timeline

def size (timeline : Timeline) : Nat := timeline.entries.size

abbrev nextIndex (timeline : Timeline) : Nat := timeline.size

def add (timeline : Timeline) (entry : Entry) : Timeline :=
  { timeline with entries := timeline.entries.push entry, settled := false }

def get (timeline : Timeline) (index : Nat) : Except Fault Entry :=
  match timeline.entries[index]? with
  | some entry => .ok entry
  | none => .error (.entry index timeline.size)

/-- Changes a duration. Only a real change unsettles the order. -/
def setDuration (timeline : Timeline) (index duration : Nat) : Except Fault Timeline :=
  if h : index < timeline.entries.size then
    if timeline.entries[index].duration = duration then .ok timeline
    else
      .ok { timeline with
        entries := timeline.entries.modify index fun entry => { entry with duration }
        settled := false }
  else .error (.entry index timeline.size)

/-- The indices below `size`, sorted by a key; equal keys keep their order. -/
def sortedIndices (size : Nat) (key : Nat → Nat) : Array Nat :=
  ((List.range size).mergeSort fun i j => key i ≤ key j).toArray

def startOf (timeline : Timeline) (index : Nat) : Nat :=
  (timeline.entries[index]?).elim 0 Entry.start

def stopOf (timeline : Timeline) (index : Nat) : Nat :=
  (timeline.entries[index]?).elim 0 Entry.stop

/-- Sorts the entries by start and by end. Entries of one tick keep their order. -/
def settle (timeline : Timeline) : Timeline :=
  { timeline with
    byStart := sortedIndices timeline.size timeline.startOf
    byStop := sortedIndices timeline.size timeline.stopOf
    settled := true }

def requireSettled (timeline : Timeline) : Except Fault Unit :=
  if timeline.settled then .ok () else .error (.unsettled timeline.size)

def clear (_ : Timeline) : Timeline := {}

def startOrder (timeline : Timeline) : Except Fault (Array Nat) := do
  timeline.requireSettled
  return timeline.byStart

end Timeline
end Sequencer
