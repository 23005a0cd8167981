import Sequencer.Timeline

/-! The transposes of a pass. One walk over the settled timeline collects the changes that
apply to all tracks, the changes of each track, and for every entry the transpose of its
own track when it started. -/
namespace Sequencer

/-- A transpose that holds from a tick on. -/
structure TransposeChange where
  tick : Nat
  semitones : Int
deriving DecidableEq, Repr

/-- The number of changes in `low ≤ i < high` and before that take effect by `tick`. -/
def changesUntil (changes : Array TransposeChange) (tick : Nat) (low high : Nat) : Nat :=
  if low < high then
    let middle := (low + high) / 2
    match changes[middle]? with
    | none => low
    | some change =>
      if change.tick ≤ tick then changesUntil changes tick (middle + 1) high
      else changesUntil changes tick low middle
  else low
termination_by high - low

def transposeAt (changes : Array TransposeChange) (tick : Nat) : Int :=
  match changesUntil changes tick 0 changes.size with
  | 0 => 0
  | i + 1 => (changes[i]?).elim 0 TransposeChange.semitones

structure Transposes where
  ofAll : Array TransposeChange := #[]
  ofTrack : Array (Array TransposeChange) := #[]
  /-- For each timeline entry, the transpose of its track. -/
  ofEntry : Array Int := #[]

namespace Transposes

def current (transposes : Transposes) (track : Nat) : Int :=
  match transposes.ofTrack[track]? with
  | none => 0
  | some changes => (changes.back?).elim 0 TransposeChange.semitones

def withTrack (transposes : Transposes) (track : Nat) : Transposes :=
  let missing := track + 1 - transposes.ofTrack.size
  { transposes with ofTrack := transposes.ofTrack ++ Array.replicate missing #[] }

def collect (transposes : Transposes) (index : Nat) (entry : Entry) (event : Event) :
    Transposes :=
  let transposes := transposes.withTrack event.track
  let transposes := match event.kind with
    | .transpose .all semitones =>
      { transposes with ofAll := transposes.ofAll.push ⟨entry.start, semitones.toInt⟩ }
    | .transpose .own semitones =>
      { transposes with
        ofTrack := transposes.ofTrack.modify event.track
          fun changes => changes.push ⟨entry.start, semitones.toInt⟩ }
    | _ => transposes
  { transposes with
    ofEntry := transposes.ofEntry.setIfInBounds index (transposes.current event.track) }

def collectAll (timeline : Timeline) (arena : Arena) (indices : List Nat)
    (transposes : Transposes) : Except Fault Transposes :=
  match indices with
  | [] => .ok transposes
  | index :: rest => do
    let entry ← timeline.get index
    match arena.get? entry.event with
    | none => .error .outOfBounds
    | some event => collectAll timeline arena rest (transposes.collect index entry event)

/-- The transposes of a settled timeline whose events the arena holds. -/
def ofTimeline (timeline : Timeline) (arena : Arena) : Except Fault Transposes := do
  let order ← timeline.startOrder
  collectAll timeline arena order.toList { ofEntry := Array.replicate timeline.size 0 }

def changesOf (transposes : Transposes) (track : Nat) : Array TransposeChange :=
  (transposes.ofTrack[track]?).getD #[]

def allAt (transposes : Transposes) (tick : Nat) : Int := transposeAt transposes.ofAll tick

def trackAt (transposes : Transposes) (track : Nat) (tick : Nat) : Int :=
  transposeAt (transposes.changesOf track) tick

def totalAt (transposes : Transposes) (track : Nat) (tick : Nat) : Int :=
  transposes.allAt tick + transposes.trackAt track tick

/-- The transpose of an entry's own track when the entry started. -/
def entryTranspose (transposes : Transposes) (index : Nat) : Except Fault Int :=
  match transposes.ofEntry[index]? with
  | some semitones => .ok semitones
  | none => .error (.transposeEntry index transposes.ofEntry.size)

end Transposes
end Sequencer
