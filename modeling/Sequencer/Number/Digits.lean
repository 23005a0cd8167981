/-! Whole numbers as text: upper-case hexadecimal with leading zeros, numbers with a
mandatory sign, and columns filled up with blanks. -/
namespace Sequencer.Number

def hexDigit (d : Nat) : Char :=
  if d < 10 then Char.ofNat (48 + d) else Char.ofNat (55 + d)

def hexDigits (n : Nat) : List Char :=
  if n < 16 then [hexDigit n] else hexDigits (n / 16) ++ [hexDigit (n % 16)]
termination_by n

def padLeft (fill : Char) (width : Nat) (text : List Char) : List Char :=
  List.replicate (width - text.length) fill ++ text

/-- Hexadecimal with `0x` in front and at least `width` upper-case digits. -/
def hex (width : Nat) (n : Nat) : String :=
  "0x" ++ String.ofList (padLeft '0' width (hexDigits n))

/-- Decimal with a sign always written, `+0` included. -/
def signed (z : Int) : String :=
  if z < 0 then toString z else "+" ++ toString z

def alignRight (width : Nat) (text : String) : String :=
  String.ofList (padLeft ' ' width text.toList)

def alignLeft (width : Nat) (text : String) : String :=
  text ++ String.ofList (List.replicate (width - text.length) ' ')

end Sequencer.Number
