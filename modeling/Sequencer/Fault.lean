import Sequencer.Text.Quoted

/-! Breaches of contract: calls that a careful caller never makes. They are kept apart from
errors in the data, which end a track or refuse a file. -/
namespace Sequencer

inductive Fault
  | outOfBounds
  | entry (index size : Nat)
  /-- A query of a timeline whose order is not settled. -/
  | unsettled (size : Nat)
  | transposeEntry (index size : Nat)
  | noTranspose
  | counter
  | labelTwice (name : String)
  | labelUndefined (name : String)
  | markerLength (size : Nat)
  | sequenceSize
deriving DecidableEq, Repr

def Fault.message : Fault → String
  | .outOfBounds => "index out of bounds"
  | .entry index size => s!"timeline index {index} out of range (len {size})"
  | .unsettled size => s!"timeline index used before finalize() ({size} entries)"
  | .transposeEntry index size =>
    s!"timeline index {index} out of range for transpose timeline (len {size})"
  | .noTranspose => "transpose timeline queried before any pass built it"
  | .counter => "counter out of range"
  | .labelTwice name => "label " ++ Text.quoted name ++ " defined twice"
  | .labelUndefined name => "undefined label " ++ Text.quoted name
  | .markerLength size => s!"marker text longer than 255 bytes: {size}"
  | .sequenceSize => "sequence exceeds 64 KiB"

end Sequencer
