import Std.Data.TreeMap
import Sequencer.Event

/-! The store of all events of a sequence. An event is stored once for each place in the
data, a track and an offset: playing the same bytes again finds the event of the first
time. Events are known by their position in the store, which never changes. -/
namespace Sequencer

/-- Where in the data an instruction stands, and for which track it was decoded. -/
structure Place where
  track : Nat
  offset : Nat
deriving DecidableEq, Repr

namespace Place

def order : Place → Place → Ordering :=
  compareLex (compareOn Place.track) (compareOn Place.offset)

instance : Std.TransCmp order :=
  inferInstanceAs (Std.TransCmp (compareLex (compareOn Place.track) (compareOn Place.offset)))

instance : Std.LawfulEqCmp order where
  eq_of_compare {a b} h := by
    simp only [order, compareLex, compareOn, Ordering.then_eq_eq, Nat.compare_eq_eq] at h
    cases a
    cases b
    simp_all

end Place

def Event.place (event : Event) : Place := ⟨event.track, event.offset⟩

structure Arena where
  events : Array Event := #[]
  index : Std.TreeMap Place Nat Place.order := {}

namespace Arena

def find? (arena : Arena) (place : Place) : Option Nat := arena.index[place]?

def isUsed (arena : Arena) (place : Place) : Bool := arena.index.contains place

/-- Stores the event unless its place has one, and returns the place's event and whether it
is new. -/
def insert (arena : Arena) (event : Event) : (Nat × Bool) × Arena :=
  match arena.find? event.place with
  | some id => ((id, false), arena)
  | none =>
    let id := arena.events.size
    ((id, true), ⟨arena.events.push event, arena.index.insert event.place id⟩)

def get? (arena : Arena) (id : Nat) : Option Event := arena.events[id]?

def size (arena : Arena) : Nat := arena.events.size

def clear (_ : Arena) : Arena := {}

def toList (arena : Arena) : List (Nat × Event) :=
  (List.range arena.size).filterMap fun id => (arena.get? id).map (id, ·)

def ofTrack (arena : Arena) (track : Nat) : List (Nat × Event) :=
  (arena.toList.filter fun entry => entry.2.track = track).mergeSort
    fun a b => a.2.offset ≤ b.2.offset

end Arena
end Sequencer
