/-! Ticks of the sequence clock, as natural numbers. The clock is 32 bits wide and
saturates: once it shows its last tick it stays there, so that a track's time never goes
back. -/
namespace Sequencer.Tick

def last : Nat := 4294967295

/-- The tick `n` ticks after `t`, or the last tick if the clock ends before. -/
def later (t n : Nat) : Nat := min (t + n) last

theorem later_le_last (t n : Nat) : later t n ≤ last := Nat.min_le_right _ _

theorem le_later {t : Nat} (h : t ≤ last) (n : Nat) : t ≤ later t n :=
  Nat.le_min.2 ⟨Nat.le_add_right _ _, h⟩

end Sequencer.Tick
