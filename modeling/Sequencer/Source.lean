import Sequencer.Number.Digits

/-! The bytes of a sequence file, and bounds-checked reading from them. Offsets are natural numbers.
Those of 32 bits are the same in every file of less than 4 GiB. -/
namespace Sequencer

abbrev Source := Array UInt8

inductive ReadError
  /-- A read past the end. `context` says what was being read, if that is known. -/
  | outOfRange (offset needed available : Nat) (context : Option String)
  | badIdent (ident : List UInt8)
  | badVersion (version : UInt8)
  | shortHeader (detail : String)
  | unknownOpcode (opcode : UInt8) (offset : Nat)
  | other (text : String)
deriving DecidableEq, Repr

namespace ReadError

/-- Says what was being read when the data ended. Other errors stay as they are. -/
def withContext (label : String) : ReadError → ReadError
  | .outOfRange offset needed available _ => .outOfRange offset needed available (some label)
  | error => error

def message : ReadError → String
  | .outOfRange offset needed available context =>
    let place := context.elim "" (" at " ++ ·)
    s!"offset out of range{place}: {Number.hex 1 offset} " ++
      s!"(needed {needed} bytes, available {available})"
  | .badIdent ident =>
    "invalid ident: [" ++ ", ".intercalate (ident.map toString) ++ "]"
  | .badVersion version => s!"unsupported version: {version}"
  | .shortHeader detail => s!"header too short: {detail}"
  | .unknownOpcode opcode offset =>
    s!"unknown opcode {Number.hex 2 opcode.toNat} at offset {Number.hex 1 offset}"
  | .other text => text

end ReadError

/-- The value of bytes, the least significant first. -/
def littleEndian : List UInt8 → Nat
  | [] => 0
  | b :: rest => b.toNat + 256 * littleEndian rest

/-- The value of bytes, the most significant first. -/
def bigEndian (bytes : List UInt8) : Nat := littleEndian bytes.reverse

def toLittleEndian : (width : Nat) → Nat → List UInt8
  | 0, _ => []
  | width + 1, n => UInt8.ofNat n :: toLittleEndian width (n / 256)

def toBigEndian (width n : Nat) : List UInt8 := (toLittleEndian width n).reverse

namespace Source

def bytesAt (source : Source) (offset width : Nat) : Except ReadError (List UInt8) :=
  if offset + width ≤ source.size then .ok (source.extract offset (offset + width)).toList
  else .error (.outOfRange offset width source.size none)

def byteAt (source : Source) (offset : Nat) : Except ReadError UInt8 :=
  match source[offset]? with
  | some b => .ok b
  | none => .error (.outOfRange offset 1 source.size none)

def littleEndianAt (source : Source) (offset width : Nat) : Except ReadError Nat :=
  (source.bytesAt offset width).map littleEndian

def bigEndianAt (source : Source) (offset width : Nat) : Except ReadError Nat :=
  (source.bytesAt offset width).map bigEndian

/-- A stretch of bytes. A failure counts the bytes that are left from `offset` on. -/
def stretch (source : Source) (offset width : Nat) : Except ReadError (List UInt8) :=
  if offset + width ≤ source.size then .ok (source.extract offset (offset + width)).toList
  else .error (.outOfRange offset width (source.size - offset) (some "read_slice"))

end Source
end Sequencer
