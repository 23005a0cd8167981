/-! Bits in bytes. The bits of a byte are read from the lowest up, and numbers have their
lowest bit first. -/
namespace Sequencer.Gzip

inductive GzipError
  | truncated
  | incomplete
  | badHeader
  | longField
  | corrupt
  | mismatch
deriving DecidableEq, Repr

def GzipError.message : GzipError → String
  | .truncated => "unexpected end of file"
  | .incomplete => "incomplete deflate stream"
  | .badHeader => "invalid gzip header"
  | .longField => "gzip header field too long"
  | .corrupt => "corrupt deflate stream"
  | .mismatch => "corrupt gzip stream does not have a matching checksum"

/-- Reading from a bit position on, which moves past what is read. -/
abbrev BitReader := ReaderT (Array UInt8) (StateT Nat (Except GzipError))

namespace BitReader

def mapError {α : Type} (f : GzipError → GzipError) (reader : BitReader α) : BitReader α :=
  fun bytes position => (reader bytes position).mapError f

def bit : BitReader Nat := do
  let position ← get
  match (← read)[position / 8]? with
  | none => throw .truncated
  | some b =>
    set (position + 1)
    return b.toNat / Nat.pow 2 (position % 8) % 2

def number : (width : Nat) → BitReader Nat
  | 0 => return 0
  | width + 1 => do
    let low ← bit
    let high ← number width
    return low + 2 * high

def align : BitReader Unit := modify fun position => (position + 7) / 8 * 8

/-- The next byte. The position has to be aligned. -/
def byte : BitReader UInt8 := do
  let position ← get
  match (← read)[position / 8]? with
  | none => throw .truncated
  | some b =>
    set (position + 8)
    return b

/-- A number of `width` bytes, the least significant first. -/
def word : (width : Nat) → BitReader Nat
  | 0 => return 0
  | width + 1 => do
    let low ← byte
    let high ← word width
    return low.toNat + 256 * high

end BitReader
end Sequencer.Gzip
