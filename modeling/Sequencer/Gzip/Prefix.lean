import Sequencer.Gzip.Bits

/-! Canonical prefix codes. A code is known by the lengths of its code words: words are
numbered by length, and words of one length by symbol. -/
namespace Sequencer.Gzip

def maxLength : Nat := 15

structure PrefixCode where
  /-- How many words each length has, from 1 up. -/
  counts : List Nat
  symbols : Array Nat
deriving DecidableEq, Repr

namespace PrefixCode

def symbolsOf (lengths : List Nat) (length : Nat) : List Nat :=
  (lengths.zipIdx.filter fun (own, _) => own = length).map Prod.snd

/-- The share of all words of the greatest length that begin with a word of the code, where
all of them are `2 ^ maxLength`. -/
def share (code : PrefixCode) : Nat :=
  (code.counts.mapIdx fun i count => count * Nat.pow 2 (maxLength - 1 - i)).foldl (· + ·) 0

/-- The code with the given lengths; 0 stands for symbols that do not occur. -/
def ofLengths (lengths : List Nat) : PrefixCode :=
  let groups := (List.range maxLength).map fun i => symbolsOf lengths (i + 1)
  ⟨groups.map List.length, groups.flatten.toArray⟩

/-- Whether every sequence of bits begins with a word, and with one only. -/
def isComplete (code : PrefixCode) : Bool := code.share = Nat.pow 2 maxLength

/-- Reads a word bit by bit. `word` is what has been read, `first` the first word of this
length, and `index` the number of shorter words. -/
def readFrom (code : PrefixCode) : (counts : List Nat) → (word first index : Nat) →
    BitReader Nat
  | [], _, _, _ => throw .corrupt
  | count :: longer, word, first, index => do
    let word := 2 * word + (← BitReader.bit)
    if word < first + count then
      match code.symbols[index + (word - first)]? with
      | some symbol => return symbol
      | none => throw .corrupt
    else code.readFrom longer word (2 * (first + count)) (index + count)

def read (code : PrefixCode) : BitReader Nat := code.readFrom code.counts 0 0 0

def complete? (lengths : List Nat) : Except GzipError PrefixCode :=
  let code := ofLengths lengths
  if code.isComplete then .ok code else .error .corrupt

/-- Whether the code has no word, or one of a single bit. -/
def isSparse (code : PrefixCode) : Bool :=
  code.symbols.size ≤ 1 && code.symbols.size = code.counts.headD 0

/-- The code of a block with the given lengths. It may be sparse, as there may be one distance
only, or no copies at all; a bit that begins no word is then an error. -/
def ofBlock? (lengths : List Nat) : Except GzipError PrefixCode :=
  let code := ofLengths lengths
  if code.isSparse then .ok { code with counts := code.counts.take 1 } else complete? lengths

end PrefixCode
end Sequencer.Gzip
