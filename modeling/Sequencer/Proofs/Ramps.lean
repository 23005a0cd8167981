import Sequencer.Ramp

/-! The changes of a ramp are at its ticks, and where a ramp may be left alone: if its rounded values
only rise or only fall, no message of it is due before the change that it announces. -/
namespace Sequencer.Ramp

/-- The values of the ramp are in order from its start to the last tick that it has on the clock. -/
def Ordered (ramp : Ramp) (before : Nat → Nat → Prop) : Prop :=
  ∀ tick tick', ramp.start ≤ tick → tick ≤ tick' → tick' ≤ ramp.lastTick →
    before (ramp.valueAt tick) (ramp.valueAt tick')

/-- The values only rise, or they only fall. -/
def IsMonotone (ramp : Ramp) : Prop := ramp.Ordered (· ≤ ·) ∨ ramp.Ordered (· ≥ ·)

variable {ramp : Ramp} {value same moved tick tick' middle : Nat}

theorem ordered_of_short {before : Nat → Nat → Prop} (refl : ∀ value, before value value)
    (short : ramp.duration ≤ 1)
    (first : before (ramp.valueAt ramp.start) (ramp.valueAt (ramp.start + 1))) :
    ramp.Ordered before := by
  intro tick tick' late ordered early
  have within : ramp.lastTick ≤ ramp.start + ramp.duration := Nat.min_le_left _ _
  rcases Nat.eq_or_lt_of_le ordered with rfl | lt
  · exact refl _
  · obtain rfl : tick = ramp.start := by omega
    obtain rfl : tick' = ramp.start + 1 := by omega
    exact first

/-- A ramp of one tick at most has no value between its first and its last. -/
theorem isMonotone_of_short (short : ramp.duration ≤ 1) : ramp.IsMonotone :=
  (Nat.le_total (ramp.valueAt ramp.start) (ramp.valueAt (ramp.start + 1))).imp
    (ordered_of_short Nat.le_refl short) (ordered_of_short Nat.le_refl short)

/-- Between two ticks of the same value there is no other. -/
theorem IsMonotone.between (monotone : ramp.IsMonotone) (late : ramp.start ≤ tick)
    (after : tick ≤ middle) (before : middle ≤ tick') (early : tick' ≤ ramp.lastTick)
    (equal : ramp.valueAt tick' = ramp.valueAt tick) :
    ramp.valueAt middle = ramp.valueAt tick := by
  have inside := Nat.le_trans before early
  have further := Nat.le_trans late after
  rcases monotone with rises | falls
  · exact Nat.le_antisymm (equal ▸ rises middle tick' further before early)
      (rises tick middle late after inside)
  · exact Nat.le_antisymm (falls tick middle late after inside)
      (equal ▸ falls middle tick' further before early)

/-- Bisection ends right after a tick of the value that it has started with. -/
theorem valueAt_before_bisect (lt : same < moved) (start : ramp.valueAt same = value) :
    ramp.valueAt (ramp.bisect value same moved - 1) = value := by
  fun_induction ramp.bisect value same moved with
  | case1 same moved apart middle kept ih => exact ih (by omega) kept
  | case2 same moved apart middle changed ih => exact ih (by omega) start
  | case3 same moved close =>
    have adjacent : moved - 1 = same := by omega
    rw [adjacent]
    exact start

/-- A change that the ramp announces is after the tick, and not after the end of the ramp. -/
theorem nextChange_bounds {next : Nat} (late : ramp.start ≤ tick)
    (announced : ramp.nextChange tick = some next) : tick < next ∧ next ≤ ramp.stop := by
  unfold nextChange at announced
  rw [if_neg (Nat.not_lt.mpr late)] at announced
  split at announced
  · cases announced
  · rename_i going
    have lt := Nat.lt_of_not_le going
    dsimp only at announced
    split at announced
    · cases announced
    · cases announced
      exact ⟨ramp.lt_bisect _ _ _ lt,
        Nat.le_trans (ramp.bisect_le _ _ _ lt) (Nat.min_le_left _ _)⟩

theorem mem_changesFrom {limit : Nat} {change : Nat × Nat} (late : ramp.start ≤ tick)
    (early : tick ≤ ramp.stop) (member : change ∈ ramp.changesFrom limit tick) :
    ramp.contains change.1 = true ∧ change.2 = ramp.valueAt change.1 := by
  induction limit generalizing tick with
  | zero => cases member
  | succ limit ih =>
    rw [changesFrom] at member
    rcases List.mem_cons.mp member with rfl | member
    · exact ⟨by simp [contains, late, early], rfl⟩
    · split at member
      · cases member
      · rename_i next announced
        obtain ⟨after, within⟩ := nextChange_bounds late announced
        exact ih (Nat.le_trans late (Nat.le_of_lt after)) within member

/-- All changes are at ticks of the ramp, and have its value there. -/
theorem mem_changes {change : Nat × Nat} (member : change ∈ ramp.changes) :
    ramp.contains change.1 = true ∧ change.2 = ramp.valueAt change.1 :=
  mem_changesFrom (Nat.le_refl _) (Nat.le_add_right _ _) member

theorem contains_of_changesAt (changes : ramp.changesAt tick = true) :
    ramp.contains tick = true := by
  unfold changesAt at changes
  exact (Bool.and_eq_true_iff.mp changes).1

theorem changesAt_outside (outside : tick < ramp.start ∨ ramp.stop < tick) :
    ramp.changesAt tick = false := by
  unfold changesAt contains
  rcases outside with early | late
  · simp [Nat.not_le_of_lt early]
  · simp [Nat.not_le_of_lt late]

theorem IsMonotone.constant (monotone : ramp.IsMonotone) (late : ramp.start ≤ tick)
    (after : tick < middle) (before : middle ≤ tick') (early : tick' ≤ ramp.lastTick)
    (equal : ramp.valueAt tick' = ramp.valueAt tick) : ramp.changesAt middle = false := by
  have here := monotone.between late (Nat.le_of_lt after) before early equal
  have earlier : ramp.valueAt (middle - 1) = ramp.valueAt tick :=
    monotone.between late (by omega) (by omega) early equal
  have started : middle ≠ ramp.start := by omega
  unfold changesAt
  simp [started, here, earlier]

/-- No message is due before the next change that a ramp announces, and none at all if it announces
no change. -/
theorem IsMonotone.idle (monotone : ramp.IsMonotone) (after : tick < middle)
    (clock : middle ≤ Tick.last) (before : ∀ next ∈ ramp.nextChange tick, middle < next) :
    ramp.changesAt middle = false := by
  unfold nextChange at before
  split at before
  · exact changesAt_outside (.inl (before _ rfl))
  · rename_i started
    have late := Nat.le_of_not_lt started
    split at before
    · rename_i past
      refine changesAt_outside (.inr ?_)
      have ended : min ramp.stop Tick.last ≤ tick := past
      omega
    · rename_i going
      have lt := Nat.lt_of_not_le going
      rcases Nat.lt_or_ge ramp.lastTick middle with beyond | inside
      · refine changesAt_outside (.inr ?_)
        have ended : min ramp.stop Tick.last < middle := beyond
        omega
      · dsimp only at before
        split at before
        · rename_i equal
          exact monotone.constant late after inside (Nat.le_refl _) equal
        · have announced := before _ rfl
          have bound := ramp.bisect_le (ramp.valueAt tick) tick ramp.lastTick lt
          exact monotone.constant late after (Nat.le_sub_one_of_lt announced)
            (Nat.le_trans (Nat.sub_le _ _) bound) (valueAt_before_bisect lt rfl)

end Sequencer.Ramp
