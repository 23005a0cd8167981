import Sequencer.Gzip.Checksum
import Sequencer.Gzip.Inflate

/-! Compressed files: a header, the compressed data, and the checksum and size of what they
decompress to. What follows the first such member of a file is ignored. -/
namespace Sequencer.Gzip

def magic : List UInt8 := [0x1F, 0x8B]

def isCompressed (bytes : Array UInt8) : Bool := (bytes.extract 0 2).toList = magic

structure Flags where
  checksum : Bool
  extra : Bool
  name : Bool
  comment : Bool
  reserved : Bool

def Flags.ofByte (b : UInt8) : Flags where
  checksum := b &&& 0x02 ≠ 0
  extra := b &&& 0x04 ≠ 0
  name := b &&& 0x08 ≠ 0
  comment := b &&& 0x10 ≠ 0
  reserved := b &&& 0xE0 ≠ 0

/-- The longest name or comment, in bytes. -/
def maxText : Nat := 65535

/-- Skips a text and the zero byte after it. `room` is how long the text may still be. -/
def skipText : (room : Nat) → BitReader Unit
  | 0 => do if (← BitReader.byte) ≠ 0 then throw .longField
  | room + 1 => do if (← BitReader.byte) ≠ 0 then skipText room

def skipBytes : (count : Nat) → BitReader Unit
  | 0 => return
  | count + 1 => do
    let _ ← BitReader.byte
    skipBytes count

/-- Compares the 16 bits that follow with the checksum of all bytes before them. -/
def checkHeader : BitReader Unit := do
  let before := (← read).extract 0 ((← get) / 8)
  let stored ← BitReader.word 2
  if stored ≠ (checksum before).toNat % 65536 then throw .mismatch

def readHeader : BitReader Unit := do
  let first ← BitReader.byte
  let second ← BitReader.byte
  let method ← BitReader.byte
  let flags := Flags.ofByte (← BitReader.byte)
  skipBytes 6
  if [first, second] ≠ magic ∨ method ≠ 8 ∨ flags.reserved then throw .badHeader
  if flags.extra then skipBytes (← BitReader.word 2)
  if flags.name then skipText maxText
  if flags.comment then skipText maxText
  if flags.checksum then checkHeader

def readMember : BitReader Output := do
  readHeader
  let out ← inflate
  let sum ← BitReader.word 4
  let size ← BitReader.word 4
  if sum ≠ (checksum out).toNat ∨ size ≠ out.size % Nat.pow 2 32 then throw .mismatch
  return out

def decompress (bytes : Array UInt8) : Except GzipError (Array UInt8) := do
  let (out, _) ← (readMember.run bytes).run 0
  return out

end Sequencer.Gzip
