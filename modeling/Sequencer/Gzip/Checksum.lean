/-! The 32-bit cyclic redundancy check of compressed files. -/
namespace Sequencer.Gzip

/-- The polynomial, its lowest coefficient in the highest bit. -/
def polynomial : UInt32 := 0xEDB88320

/-- Divides by the polynomial, `steps` bits further. -/
def divideBits : (steps : Nat) → UInt32 → UInt32
  | 0, remainder => remainder
  | steps + 1, remainder =>
    divideBits steps
      (if remainder &&& 1 = 1 then remainder >>> 1 ^^^ polynomial else remainder >>> 1)

def checksum (bytes : Array UInt8) : UInt32 :=
  let remainder := bytes.foldl
    (fun remainder b => divideBits 8 (remainder ^^^ b.toUInt32)) 0xFFFFFFFF
  remainder ^^^ 0xFFFFFFFF

end Sequencer.Gzip
