/-! Sets of code points, written as ranges. -/
namespace Sequencer.Text

/-- The first and the last code point of each range. They are sorted and do not overlap. -/
abbrev CodeRanges := Array (Nat × Nat)

namespace CodeRanges

/-- The number of ranges in `low ≤ i < high` that begin at or below `code`, as an index. -/
def index (ranges : CodeRanges) (code low high : Nat) : Nat :=
  if low < high then
    let middle := (low + high) / 2
    match ranges[middle]? with
    | none => low
    | some (first, _) =>
      if first ≤ code then index ranges code (middle + 1) high
      else index ranges code low middle
  else low
termination_by high - low

def holds (ranges : CodeRanges) (c : Char) : Bool :=
  match ranges.index c.toNat 0 ranges.size with
  | 0 => false
  | i + 1 => ranges[i]?.any fun (_, last) => c.toNat ≤ last

end CodeRanges
end Sequencer.Text
