/-! UTF-8 text as bytes. Reading never fails: each longest run of bytes that begins a
character but does not complete one is read as a single replacement character. -/
namespace Sequencer.Text.Utf8

def encode (text : String) : List UInt8 :=
  text.toList.flatMap String.utf8EncodeChar

def replacement : Char := '\uFFFD'

/-- Where a reader stands: between two characters, or inside one, with the bits read so
far, the number of bytes to come, and the range that the next byte has to be in. -/
inductive State
  | between
  | inside (bits : Nat) (missing : Nat) (low high : UInt8)

/-- The first byte of a character. The second byte's range rules out encodings that are
too long, surrogates, and code points that are too large. -/
def lead (b : UInt8) : List Char × State :=
  if b < 0x80 then ([Char.ofNat b.toNat], .between)
  else if b < 0xC2 then ([replacement], .between)
  else if b < 0xE0 then ([], .inside (b.toNat - 0xC0) 1 0x80 0xBF)
  else if b = 0xE0 then ([], .inside 0 2 0xA0 0xBF)
  else if b = 0xED then ([], .inside 0xD 2 0x80 0x9F)
  else if b < 0xF0 then ([], .inside (b.toNat - 0xE0) 2 0x80 0xBF)
  else if b = 0xF0 then ([], .inside 0 3 0x90 0xBF)
  else if b < 0xF4 then ([], .inside (b.toNat - 0xF0) 3 0x80 0xBF)
  else if b = 0xF4 then ([], .inside 4 3 0x80 0x8F)
  else ([replacement], .between)

/-- The characters that the next byte completes, and where the reader stands after it. -/
def step (state : State) (b : UInt8) : List Char × State :=
  match state with
  | .between => lead b
  | .inside bits missing low high =>
    if low ≤ b ∧ b ≤ high then
      let bits := bits * 64 + b.toNat % 64
      if missing ≤ 1 then ([Char.ofNat bits], .between)
      else ([], .inside bits (missing - 1) 0x80 0xBF)
    else
      let (completed, next) := lead b
      (replacement :: completed, next)

def decodeFrom : State → List UInt8 → List Char
  | .between, [] => []
  | .inside .., [] => [replacement]
  | state, b :: rest =>
    let (completed, next) := step state b
    completed ++ decodeFrom next rest

def decode (bytes : List UInt8) : String :=
  String.ofList (decodeFrom .between bytes)

end Sequencer.Text.Utf8
