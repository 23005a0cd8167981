/-! Binary floating-point numbers of 64 bits taken apart into exact integers, and
rounded to whole numbers without leaving integer arithmetic. -/
namespace Sequencer.Number

/-- What the 64 bits stand for: a finite number is `significand * 2 ^ exponent`, with
the sign kept apart so that a negative zero can be told from zero. -/
inductive Binary64
  | nan
  | infinite (negative : Bool)
  | finite (negative : Bool) (significand : Nat) (exponent : Int)
deriving DecidableEq, Repr

namespace Binary64

def fractionSize : Nat := Nat.pow 2 52

/-- The parts of an encoding: one sign bit, eleven exponent bits, 52 fraction bits. -/
def ofBits (bits : Nat) : Binary64 :=
  let negative := bits / Nat.pow 2 63 % 2 == 1
  let scale := bits / fractionSize % 2048
  let fraction := bits % fractionSize
  if scale = 2047 then
    if fraction = 0 then .infinite negative else .nan
  else if scale = 0 then .finite negative fraction (-1074)
  else .finite negative (fractionSize + fraction) ((scale : Int) - 1075)

def ofFloat (x : Float) : Binary64 := ofBits x.toBits.toNat

def fraction (significand : Nat) (exponent : Int) : Nat × Nat :=
  match exponent with
  | .ofNat e => (significand * Nat.pow 2 e, 1)
  | .negSucc e => (significand, Nat.pow 2 (e + 1))

/-- The nearest whole number, a half going away from zero, held between 0 and `top`.
What is not a number counts as 0. -/
def nearest (top : Nat) : Binary64 → Nat
  | .nan => 0
  | .infinite negative => if negative then 0 else top
  | .finite negative significand exponent =>
    if negative then 0
    else
      let (num, den) := fraction significand exponent
      min ((2 * num + den) / (2 * den)) top

theorem nearest_le (top : Nat) (x : Binary64) : nearest top x ≤ top := by
  cases x with
  | nan => exact Nat.zero_le _
  | infinite negative => cases negative <;> simp [nearest]
  | finite negative significand exponent =>
    cases negative
    · exact Nat.min_le_right _ _
    · exact Nat.zero_le _

end Binary64
end Sequencer.Number
