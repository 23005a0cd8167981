import Sequencer.Gzip.Prefix

/-! Decompression. Data are a list of blocks; a block holds bytes as they are, or literals and
copies of what came before, each written with a prefix code. -/
namespace Sequencer.Gzip

abbrev Output := Array UInt8

/-- Appends `length` bytes from `distance` back, which may overlap with what is appended.
Before the start there are zeros. -/
def Output.copy (distance : Nat) : (length : Nat) → Output → Output
  | 0, out => out
  | length + 1, out =>
    let next := if distance ≤ out.size then out.getD (out.size - distance) 0 else 0
    copy distance length (out.push next)

/-- A number is a base plus as many bits as the symbol says. -/
structure Ranged where
  base : Nat
  bits : Nat

def ranges : (base : Nat) → List Nat → List Ranged
  | _, [] => []
  | base, bits :: rest => ⟨base, bits⟩ :: ranges (base + Nat.pow 2 bits) rest

def repeatEach (times : Nat) (xs : List Nat) : List Nat := xs.flatMap (List.replicate times)

/-- Lengths of copies, from symbol 257 on. The longest length has a symbol of its own. -/
def lengthRanges : Array Ranged :=
  (ranges 3 (List.replicate 4 0 ++ repeatEach 4 (List.range 6))).toArray.push ⟨258, 0⟩

def distanceRanges : Array Ranged :=
  (ranges 1 (repeatEach 2 (0 :: List.range 14))).toArray

def readRanged (table : Array Ranged) (symbol : Nat) : BitReader Nat :=
  match table[symbol]? with
  | none => throw .corrupt
  | some ⟨base, bits⟩ => return base + (← BitReader.number bits)

structure BlockCodes where
  literals : PrefixCode
  distances : PrefixCode

/-- The symbol at the end of a block. Smaller ones are literals, greater ones lengths. -/
def endSymbol : Nat := 256

/-- Reads literals and copies up to the end of the block. `limit` bounds their number. -/
def readSymbols (codes : BlockCodes) : (limit : Nat) → Output → BitReader Output
  | 0, _ => throw .truncated
  | limit + 1, out => do
    let symbol ← codes.literals.read
    if symbol < endSymbol then readSymbols codes limit (out.push (UInt8.ofNat symbol))
    else if symbol = endSymbol then return out
    else
      let length ← readRanged lengthRanges (symbol - endSymbol - 1)
      let distance ← readRanged distanceRanges (← codes.distances.read)
      readSymbols codes limit (out.copy distance length)

def readBytes : (count : Nat) → Output → BitReader Output
  | 0, out => return out
  | count + 1, out => do
    let b ← BitReader.byte
    readBytes count (out.push b)

/-- A block of plain bytes. Its length is written twice, the second time inverted. -/
def readStored (out : Output) : BitReader Output := do
  BitReader.align
  let count ← BitReader.word 2
  let inverted ← BitReader.word 2
  if count + inverted ≠ 65535 then throw .corrupt
  readBytes count out

def fixedCodes : Except GzipError BlockCodes := do
  let literals ← PrefixCode.ofBlock?
    (List.replicate 144 8 ++ List.replicate 112 9 ++ List.replicate 24 7 ++ List.replicate 8 8)
  let distances ← PrefixCode.ofBlock? (List.replicate 32 5)
  return ⟨literals, distances⟩

/-- The order in which the lengths of the code for lengths are written. -/
def lengthOrder : List Nat := [16, 17, 18, 0, 8, 7, 9, 6, 10, 5, 11, 4, 12, 3, 13, 2, 14, 1, 15]

/-- Reads code lengths until there are at least `count`. `limit` bounds the symbols read. -/
def readLengths (code : PrefixCode) (count : Nat) :
    (limit : Nat) → Array Nat → BitReader (Array Nat)
  | 0, _ => throw .corrupt
  | limit + 1, lengths => do
    if count ≤ lengths.size then return lengths
    let symbol ← code.read
    let repeated (length times : Nat) := lengths ++ List.replicate times length
    if symbol < 16 then readLengths code count limit (lengths.push symbol)
    else if symbol = 16 then
      match lengths.back? with
      | none => throw .corrupt
      | some length => readLengths code count limit (repeated length (3 + (← BitReader.number 2)))
    else if symbol = 17 then
      readLengths code count limit (repeated 0 (3 + (← BitReader.number 3)))
    else readLengths code count limit (repeated 0 (11 + (← BitReader.number 7)))

def sortedLengths (written : List Nat) : List Nat :=
  (List.range lengthOrder.length).map fun symbol =>
    ((lengthOrder.zip written).lookup symbol).getD 0

def readNumbers (width : Nat) : (count : Nat) → BitReader (List Nat)
  | 0 => return []
  | count + 1 => do
    let first ← BitReader.number width
    let rest ← readNumbers width count
    return first :: rest

def readCodes : BitReader BlockCodes := do
  let literalCount := 257 + (← BitReader.number 5)
  let distanceCount := 1 + (← BitReader.number 5)
  let lengthCount := 4 + (← BitReader.number 4)
  if literalCount > 286 ∨ distanceCount > 30 then throw .corrupt
  let lengthCode ← PrefixCode.complete? (sortedLengths (← readNumbers 3 lengthCount))
  let count := literalCount + distanceCount
  let lengths ← readLengths lengthCode count (count + 1) #[]
  if lengths.size ≠ count then throw .corrupt
  let literals ← PrefixCode.ofBlock? (lengths.toList.take literalCount)
  let distances ← PrefixCode.ofBlock? (lengths.toList.drop literalCount)
  return ⟨literals, distances⟩

/-- Reads blocks up to the last one. Every symbol and every block takes at least one bit, so
the number of bits bounds their number. -/
def readBlocks (bitCount : Nat) : (limit : Nat) → Output → BitReader Output
  | 0, _ => throw .truncated
  | limit + 1, out => do
    let final ← BitReader.bit
    let out ← match ← BitReader.number 2 with
      | 0 => readStored out
      | 1 => readSymbols (← fixedCodes) (bitCount + 1) out
      | 2 => readSymbols (← readCodes) (bitCount + 1) out
      | _ => throw .corrupt
    if final = 1 then return out else readBlocks bitCount limit out

/-- What is missing at the end of the data is a part of a block. -/
def GzipError.ofBlock : GzipError → GzipError
  | .truncated => .incomplete
  | error => error

def inflate : BitReader Output := do
  let bitCount := 8 * (← read).size
  let out ← (readBlocks bitCount (bitCount + 1) #[]).mapError GzipError.ofBlock
  BitReader.align
  return out

end Sequencer.Gzip
