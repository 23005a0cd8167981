import Sequencer.Player.Perform

/-! Sequence formats. A format reads a file's header and its table of tracks, and decodes one
instruction at a time into operations of the player. -/
namespace Sequencer

/-- What a decoder does with one instruction: it carries out operations, and after each may
look at the player and at whether the track goes on before it decides on the next. A routine
has no other way to act on the player. -/
inductive Routine (α : Type)
  | done (result : α)
  | order (operation : Operation) (next : Bool → Player → Routine α)

namespace Routine

def map {α β : Type} (f : α → β) : Routine α → Routine β
  | .done result => .done (f result)
  | .order operation next => .order operation fun more player => (next more player).map f

def run {α : Type} (player : Player) : Routine α → Except Fault (α × Player)
  | .done result => .ok (result, player)
  | .order operation next => do
    let (more, player) ← player.apply operation
    run player (next more player)

end Routine

structure TrackPointer where
  offset : Nat
  channel : UInt8
deriving DecidableEq, Repr

/-- A sequence format. Its decoder keeps a memory of type `σ`, which all tracks share. -/
structure Format (σ : Type) where
  name : String
  header : Source → Except ReadError Header
  pointers : Source → Except ReadError (List TrackPointer)
  /-- Decodes the instruction at the cursor of the player's track. The result says whether
  the track goes on, or why the data make no sense. -/
  decode : σ → Player → Routine (Except ReadError Bool × σ)

end Sequencer
