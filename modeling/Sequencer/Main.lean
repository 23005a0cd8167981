import Sequencer.Tool

/-! The command line tool on real files and streams. -/
namespace Sequencer.Tool

def FileError.ofIO : IO.Error → FileError
  | .noFileOrDirectory .. => .missing
  | .inappropriateType _ 20 _ => .notFolder
  | .inappropriateType _ 21 _ => .isFolder
  | .invalidArgument _ 36 _ => .longName
  | error => .other (toString error)

def attempt {α : Type} (action : IO α) : IO (Except FileError α) := do
  match ← action.toBaseIO with
  | .ok result => return .ok result
  | .error error => return .error (.ofIO error)

partial def readInput (stream : IO.FS.Stream) (bytes : ByteArray) : IO ByteArray := do
  let more ← stream.read 65536
  if more.isEmpty then return bytes else readInput stream (bytes ++ more)

def Place.ofSystem : Place IO where
  input := return (← readInput (← IO.getStdin) .empty).data
  read name := attempt do return (← IO.FS.readBinFile name).data
  write name bytes := attempt (IO.FS.writeBinFile name ⟨bytes⟩)

end Sequencer.Tool

open Sequencer Tool in
def main (arguments : List String) : IO UInt32 := do
  let outcome ← run Place.ofSystem arguments
  let output ← IO.getStdout
  output.write ⟨outcome.output⟩
  output.flush
  IO.eprint outcome.problem
  return outcome.status.toUInt32
