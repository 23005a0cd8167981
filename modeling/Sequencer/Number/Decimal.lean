import Sequencer.Number.Binary64

/-! Decimal text of 64-bit floating-point numbers: with a fixed number of places, and
with the fewest digits that read back as the same number. Both work on the exact value
of the number, in integer arithmetic. -/
namespace Sequencer.Number

def divideToEven (num den : Nat) : Nat :=
  let low := num / den
  let twice := 2 * (num % den)
  if twice < den then low
  else if twice = den then low + low % 2
  else low + 1

/-- Exactly `places` digits after the point, ties on the exact value to the even digit. -/
def fixedMagnitude (places : Nat) (num den : Nat) : String :=
  let scaled := divideToEven (num * Nat.pow 10 places) den
  let whole := scaled / Nat.pow 10 places
  let digits := toString (scaled % Nat.pow 10 places)
  let zeros := String.ofList (List.replicate (places - digits.length) '0')
  if places = 0 then toString whole else s!"{whole}.{zeros}{digits}"

def fixed (places : Nat) (x : Float) : String :=
  match Binary64.ofFloat x with
  | .nan => "NaN"
  | .infinite negative => if negative then "-inf" else "inf"
  | .finite negative significand exponent =>
    let (num, den) := Binary64.fraction significand exponent
    (if negative then "-" else "") ++ fixedMagnitude places num den

/-- A decimal `digits * 10 ^ scale`. -/
structure Decimal where
  digits : Nat
  scale : Int
deriving DecidableEq, Repr

/-- A number and the midpoints to its neighbours, in quarters of the distance to the next number.
The decimals between the midpoints stand for the number, and the midpoints themselves do when its
significand is even. -/
structure Interval where
  low : Nat
  value : Nat
  high : Nat
  closed : Bool

/-- The interval of a nonzero finite number, in units of `2 ^ (exponent - 2)`. Below a
power of two the neighbours lie half as far apart. -/
def Interval.of (significand : Nat) (exponent : Int) : Interval :=
  let narrow := significand = Binary64.fractionSize ∧ exponent > -1074
  { low := 4 * significand - if narrow then 1 else 2
    value := 4 * significand
    high := 4 * significand + 2
    closed := significand % 2 = 0 }

def Interval.contains (range : Interval) (num den : Nat) : Bool :=
  if range.closed then range.low * den ≤ num ∧ num ≤ range.high * den
  else range.low * den < num ∧ num < range.high * den

/-- The power `10 ^ scale` in units of `2 ^ unit`, as a fraction. -/
def powerFraction (scale unit : Int) : Nat × Nat :=
  (Nat.pow 10 scale.toNat * Nat.pow 2 (-unit).toNat,
    Nat.pow 10 (-scale).toNat * Nat.pow 2 unit.toNat)

/-- The decimal of the given scale that is nearest to the value, if one stands for it.
Of two equally near ones the greater one is taken. -/
def Interval.decimalAt (range : Interval) (unit scale : Int) : Option Decimal :=
  let (num, den) := powerFraction scale unit
  let below := range.value * den / num
  let above := below + 1
  let holds (d : Nat) : Bool := range.contains (d * num) den
  let gapBelow := range.value * den - below * num
  let gapAbove := above * num - range.value * den
  if holds below ∧ below ≠ 0 then
    if holds above ∧ gapAbove ≤ gapBelow then some ⟨above, scale⟩
    else some ⟨below, scale⟩
  else if holds above then some ⟨above, scale⟩
  else none

def leadingScale (significand : Nat) (exponent : Int) : Int :=
  ((Nat.log2 significand : Int) + exponent) * 30103 / 100000 + 1

/-- Tries scales from coarse to fine; `steps` bounds the search. -/
def Interval.search (range : Interval) (unit : Int) : (steps : Nat) → (scale : Int) → Decimal
  | 0, scale => ⟨0, scale⟩
  | steps + 1, scale =>
    match range.decimalAt unit scale with
    | some found => found
    | none => range.search unit steps (scale - 1)

def Decimal.trim (d : Decimal) : (steps : Nat) → Decimal
  | 0 => d
  | steps + 1 =>
    if d.digits ≠ 0 ∧ d.digits % 10 = 0 then trim ⟨d.digits / 10, d.scale + 1⟩ steps else d

/-- The decimal with the fewest digits that stands for a nonzero finite number. -/
def shortestDecimal (significand : Nat) (exponent : Int) : Decimal :=
  let range := Interval.of significand exponent
  (range.search (exponent - 2) 25 (leadingScale significand exponent)).trim 25

def Decimal.positional (d : Decimal) : String :=
  let text := (toString d.digits).toList
  let size : Int := text.length
  let point := size + d.scale
  if d.scale ≥ 0 then
    String.ofList (text ++ List.replicate d.scale.toNat '0') ++ ".0"
  else if point ≤ 0 then
    "0." ++ String.ofList (List.replicate (-point).toNat '0' ++ text)
  else
    String.ofList (text.take point.toNat) ++ "." ++ String.ofList (text.drop point.toNat)

/-- One digit before the point, then `e` and the exponent without a plus sign. -/
def Decimal.scientific (d : Decimal) : String :=
  let text := (toString d.digits).toList
  let exponent := d.scale + (text.length : Int) - 1
  let head := String.ofList (text.take 1)
  let tail := text.drop 1
  let point := if tail.isEmpty then "" else "." ++ String.ofList tail
  s!"{head}{point}e{exponent}"

/-- The fewest digits that read back. Below `1e-4` and from `1e16` on the notation is
scientific, otherwise positional. -/
def shortest (x : Float) : String :=
  match Binary64.ofFloat x with
  | .nan => "NaN"
  | .infinite negative => if negative then "-inf" else "inf"
  | .finite negative significand exponent =>
    let sign := if negative then "-" else ""
    if significand = 0 then sign ++ "0.0"
    else
      let d := shortestDecimal significand exponent
      let (num, den) := Binary64.fraction significand exponent
      if num * 10000 < den ∨ Nat.pow 10 16 * den ≤ num then sign ++ d.scientific
      else sign ++ d.positional

end Sequencer.Number
