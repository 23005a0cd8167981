import Mathlib.Order.Preorder.Finite
import Sequencer.Proofs.Due
import Sequencer.Proofs.Junctions

/-! The cycle of a run without end. There are finitely many junctions, so that the run comes back to
one; from then on it goes round, and each traversal takes the same time. The first transfer to a
junction that the run was sent to before marks one place in the cycle, which every traversal passes
once. -/
namespace Sequencer

open RefSeq (longest)

/-- The junction that control is transferred to. -/
def Departure.target? : Departure → Option Junction
  | .transfer next => some next.junction
  | _ => none

namespace Position

/-- The junction at which the free run is after `count` instructions. -/
def junction? (source : Source) (depth : Nat) (start : Position) (count : Nat) : Option Junction :=
  (start.after source depth count).map Position.junction

/-- The junction to which the instruction after `count` others transfers control. -/
def target? (source : Source) (depth : Nat) (start : Position) (count : Nat) : Option Junction :=
  (start.after source depth count).bind fun position => (position.depart source depth).target?

/-- One traversal of the cycle: after `m` instructions the run is at a junction to which it comes
back, for the first time, after `n`. -/
structure Traversal (source : Source) (depth : Nat) (start : Position) (m n : Nat) : Prop where
  onward : m < n
  reached : (start.junction? source depth m).isSome
  returns : start.junction? source depth n = start.junction? source depth m
  first : ∀ k, m < k → k < n → start.junction? source depth k ≠ start.junction? source depth m

/-- The run has a cycle, and wherever in it a traversal begins, it takes so many ticks. -/
structure Circles (source : Source) (depth : Nat) (start : Position) (ticks : Nat) : Prop where
  traversed : ∃ m n, Traversal source depth start m n
  takes : ∀ m n, Traversal source depth start m n →
    start.due source depth n = start.due source depth m + ticks

/-- The instruction after `n` others is the first one to transfer control to a junction to which
another one did so earlier, the one after `m` others. -/
structure FirstReturn (source : Source) (depth : Nat) (start : Position) (m n : Nat)
    (anchor : Junction) : Prop where
  lt : m < n
  leaves : start.target? source depth m = some anchor
  again : start.target? source depth n = some anchor
  fresh : ∀ i j junction, i < j → j < n → start.target? source depth i = some junction →
    start.target? source depth j ≠ some junction

variable {source : Source} {depth limit m n m' n' : Nat} {start position : Position}
  {anchor junction : Junction}

theorem target_of_reached {count : Nat}
    (reached : start.after source depth count = some position) :
    start.target? source depth count = (position.depart source depth).target? := by
  rw [target?, reached, Option.bind_some]

theorem target_at (source : Source) (depth : Nat) (junction : Junction) (tick tick' : Nat) :
    (depart source depth ⟨junction, tick⟩).target? =
      (depart source depth ⟨junction, tick'⟩).target? := by
  have same := depart_at source depth junction tick tick'
  have back := depart_at source depth junction tick' tick
  cases departs : depart source depth ⟨junction, tick⟩ with
  | transfer next =>
    obtain ⟨later, departs'⟩ := same.2 next departs
    rw [departs']
    rfl
  | _ =>
    cases departs' : depart source depth ⟨junction, tick'⟩ with
    | transfer next =>
      obtain ⟨later, other⟩ := back.2 next departs'
      cases departs.symm.trans other
    | _ => rfl

theorem next_junction (source : Source) (depth : Nat) (junction : Junction) (tick tick' : Nat) :
    (next? source depth ⟨junction, tick⟩).map Position.junction =
      (next? source depth ⟨junction, tick'⟩).map Position.junction := by
  cases goes : next? source depth ⟨junction, tick⟩ with
  | some next =>
    obtain ⟨later, goes'⟩ := next_at goes tick'
    rw [goes']
    rfl
  | none =>
    cases goes' : next? source depth ⟨junction, tick'⟩ with
    | some next =>
      obtain ⟨later, other⟩ := next_at goes' tick
      cases goes.symm.trans other
    | none => rfl

/-- Two places of the run at one junction, or both past its end. -/
theorem of_junction_eq (same : start.junction? source depth m = start.junction? source depth n) :
    start.after source depth m = none ∧ start.after source depth n = none ∨
    ∃ junction tick tick', start.after source depth m = some ⟨junction, tick⟩ ∧
      start.after source depth n = some ⟨junction, tick'⟩ := by
  unfold junction? at same
  cases here : start.after source depth m with
  | none =>
    rw [here, Option.map_none] at same
    exact .inl ⟨rfl, Option.map_eq_none_iff.mp same.symm⟩
  | some position =>
    rw [here, Option.map_some] at same
    obtain ⟨there, found, alike⟩ := Option.map_eq_some_iff.mp same.symm
    exact .inr ⟨position.junction, position.tick, there.tick, rfl, by rw [← alike]; exact found⟩

theorem junction_add (same : start.junction? source depth m = start.junction? source depth n)
    (more : Nat) :
    start.junction? source depth (m + more) = start.junction? source depth (n + more) := by
  induction more with
  | zero => exact same
  | succ more ih =>
    unfold junction?
    rw [← Nat.add_assoc, ← Nat.add_assoc, after_succ, after_succ]
    rcases of_junction_eq ih with ⟨ended, ended'⟩ | ⟨junction, tick, tick', here, there⟩
    · rw [ended, ended']
    · rw [here, there]
      exact next_junction source depth junction tick tick'

theorem target_congr (same : start.junction? source depth m = start.junction? source depth n) :
    start.target? source depth m = start.target? source depth n := by
  unfold target?
  rcases of_junction_eq same with ⟨ended, ended'⟩ | ⟨junction, tick, tick', here, there⟩
  · rw [ended, ended']
  · rw [here, there]
    exact target_at source depth junction tick tick'

/-- From one junction on the same time passes. -/
theorem due_add (same : start.junction? source depth m = start.junction? source depth n)
    (more : Nat) : start.due source depth (m + more) + start.due source depth n =
      start.due source depth (n + more) + start.due source depth m := by
  induction more with
  | zero => exact Nat.add_comm ..
  | succ more ih =>
    rw [← Nat.add_assoc, ← Nat.add_assoc, due, due]
    rcases of_junction_eq (junction_add same more) with ⟨ended, ended'⟩ | ⟨_, _, _, here, there⟩
    · rw [ended, ended']
      omega
    · rw [here, there]
      simp only [Option.elim_some]
      omega

theorem junction_of_target {count : Nat}
    (sent : start.target? source depth count = some junction) :
    start.junction? source depth (count + 1) = some junction := by
  obtain ⟨position, reached, departs⟩ := Option.bind_eq_some_iff.mp sent
  rw [junction?, after_succ, reached, Option.bind_some, next?]
  cases leaves : position.depart source depth with
  | transfer next =>
    rw [leaves] at departs
    exact departs
  | _ =>
    rw [leaves] at departs
    cases departs

/-- Once the run is back at a junction it repeats itself. -/
theorem junction_rounds (returns : start.junction? source depth n = start.junction? source depth m)
    (le : m ≤ n) {k : Nat} (past : m ≤ k) (rounds : Nat) :
    start.junction? source depth (k + rounds * (n - m)) = start.junction? source depth k := by
  induction rounds with
  | zero => rw [Nat.zero_mul, Nat.add_zero]
  | succ rounds ih =>
    have same := junction_add returns (k - m + rounds * (n - m))
    rw [show n + (k - m + rounds * (n - m)) = k + (rounds + 1) * (n - m) by
        rw [Nat.succ_mul]; omega,
      show m + (k - m + rounds * (n - m)) = k + rounds * (n - m) by omega] at same
    exact same.trans ih

theorem due_rounds (returns : start.junction? source depth n = start.junction? source depth m)
    (le : m ≤ n) (rounds : Nat) :
    start.due source depth (n + rounds * (n - m)) = start.due source depth n +
      rounds * (start.due source depth n - start.due source depth m) := by
  induction rounds with
  | zero => rw [Nat.zero_mul, Nat.zero_mul, Nat.add_zero, Nat.add_zero]
  | succ rounds ih =>
    have later := junction_rounds returns le le rounds
    have stretch := due_add (later.trans returns) (n - m)
    have ordered : start.due source depth m ≤ start.due source depth n := due_mono le
    rw [Nat.add_assoc, ← Nat.add_one_mul, Nat.add_sub_cancel' le, ih] at stretch
    rw [Nat.add_one_mul rounds (start.due source depth n - start.due source depth m)]
    omega

/-- All traversals have the same number of instructions. -/
theorem Traversal.dvd (first : Traversal source depth start m n)
    (second : Traversal source depth start m' n') : n - m ∣ n' - m' := by
  have onward := first.onward
  have le := Nat.le_of_lt onward
  have positive : 0 < n - m := Nat.sub_pos_of_lt onward
  have inside := Nat.mod_lt (n' - m') positive
  -- Far enough on, the run is past the beginnings of both.
  have far : m' ≤ m + m' * (n - m) := by
    have scaled := Nat.le_mul_of_pos_right m' positive
    omega
  have again := junction_rounds second.returns (Nat.le_of_lt second.onward) far 1
  rw [junction_rounds first.returns le (Nat.le_refl m), Nat.one_mul] at again
  have split : m + m' * (n - m) + (n' - m') =
      m + (n' - m') % (n - m) + (m' + (n' - m') / (n - m)) * (n - m) := by
    rw [Nat.add_mul]
    have parts := Nat.mod_add_div' (n' - m') (n - m)
    omega
  rw [split, junction_rounds first.returns le (Nat.le_add_right ..)] at again
  refine Nat.dvd_of_mod_eq_zero ?_
  by_contra partly
  exact first.first _ (by omega) (by omega) again

theorem Traversal.due_eq_of_le (first : Traversal source depth start m n)
    (second : Traversal source depth start m' n') (le : m ≤ m') :
    start.due source depth n' + start.due source depth m =
      start.due source depth n + start.due source depth m' := by
  have lengths := Nat.dvd_antisymm (first.dvd second) (second.dvd first)
  have onward := first.onward
  have onward' := second.onward
  have stretch := due_add first.returns (m' - m)
  rw [show n + (m' - m) = n' by omega, show m + (m' - m) = m' by omega] at stretch
  omega

theorem Traversal.due_eq (first : Traversal source depth start m n)
    (second : Traversal source depth start m' n') :
    start.due source depth n' + start.due source depth m =
      start.due source depth n + start.due source depth m' := by
  rcases Nat.le_total m m' with le | le
  · exact first.due_eq_of_le second le
  · exact (second.due_eq_of_le first le).symm

theorem Traversal.circles (traversal : Traversal source depth start m n) :
    start.Circles source depth (start.due source depth n - start.due source depth m) := by
  refine ⟨⟨m, n, traversal⟩, fun m' n' other => ?_⟩
  have same := traversal.due_eq other
  have ordered : start.due source depth m ≤ start.due source depth n :=
    due_mono (Nat.le_of_lt traversal.onward)
  omega

namespace FirstReturn

variable (loop : FirstReturn source depth start m n anchor)
include loop

theorem returns :
    start.junction? source depth (n + 1) = start.junction? source depth (m + 1) :=
  (junction_of_target loop.again).trans (junction_of_target loop.leaves).symm

theorem rounds {k : Nat} (past : m < k) (rounds : Nat) :
    start.junction? source depth (k + rounds * (n - m)) = start.junction? source depth k := by
  have round := junction_rounds loop.returns (Nat.succ_le_succ (Nat.le_of_lt loop.lt)) past rounds
  rwa [Nat.add_sub_add_right] at round

/-- Every traversal transfers to the anchor at its end, -/
theorem target_anchor (rounds : Nat) :
    start.target? source depth (n + rounds * (n - m)) = some anchor :=
  (target_congr (loop.rounds loop.lt rounds)).trans loop.again

/-- and only there. -/
theorem target_iff {rounds count : Nat} (past : n + rounds * (n - m) < count)
    (within : count ≤ n + (rounds + 1) * (n - m)) :
    start.target? source depth count = some anchor ↔ count = n + (rounds + 1) * (n - m) := by
  constructor
  · intro sent
    have lt := loop.lt
    have further := Nat.add_one_mul rounds (n - m)
    refine Nat.le_antisymm within (Nat.le_of_not_lt fun short => ?_)
    -- The same place in the stretch that leads to the first return.
    obtain ⟨earlier, rfl⟩ := Nat.exists_eq_add_of_le'
      (show (rounds + 1) * (n - m) ≤ count by omega)
    rw [target_congr (loop.rounds (show m < earlier by omega) (rounds + 1))] at sent
    exact loop.fresh m earlier anchor (by omega) (by omega) loop.leaves sent
  · rintro rfl
    exact loop.target_anchor (rounds + 1)

theorem traversal : Traversal source depth start (m + 1) (n + 1) := by
  refine ⟨Nat.succ_lt_succ loop.lt, ?_, loop.returns, fun k after before sooner => ?_⟩
  · rw [junction_of_target loop.leaves]
    rfl
  -- A return after `stretch` instructions would be an earlier transfer to the anchor.
  obtain ⟨stretch, rfl⟩ := Nat.exists_eq_add_of_lt after
  have period : (m + 1 + stretch + 1) - (m + 1) = stretch + 1 := by omega
  have long : n + 1 - (m + 1) = n - m := by omega
  have lt := loop.lt
  have short := junction_rounds sooner (Nat.le_of_lt after) (Nat.succ_le_of_lt lt) (n - m + 1)
  have whole := loop.rounds (show m < m + (stretch + 1) by omega) (stretch + 2)
  rw [period] at short
  have meet : n + (n - m + 1) * (stretch + 1) =
      m + (stretch + 1) + (stretch + 2) * (n - m) := by
    simp only [Nat.add_mul, Nat.mul_add, Nat.mul_comm stretch]
    omega
  rw [meet] at short
  have same := target_congr (whole.symm.trans short)
  exact loop.fresh m (m + (stretch + 1)) anchor (by omega) (by omega) loop.leaves
    (same.trans loop.again)

end FirstReturn

theorem exists_repeat (within : start.junction.Within limit depth) (file : source.size ≤ limit)
    (far : longest ≤ limit) (endless : start.Endless source depth) :
    ∃ i j, i < j ∧ start.junction? source depth i = start.junction? source depth j := by
  have finite := (Junction.within_finite limit depth).image some
  refine finite.exists_lt_map_eq_of_forall_mem fun count => ?_
  obtain ⟨position, reached⟩ := endless.reaches count
  rw [junction?, reached]
  exact ⟨_, after_within within file far reached, rfl⟩

/-- Without a transfer a run reads on and on through the file. -/
theorem destination_add {count more : Nat} (within : start.junction.Within limit depth)
    (file : source.size ≤ limit) (far : longest ≤ limit) (endless : start.Endless source depth)
    (reached : start.after source depth count = some position)
    (untransferred : ∀ k, count ≤ k → k < count + more → start.target? source depth k = none) :
    ∃ later, start.after source depth (count + more) = some later ∧
      position.junction.destination + more ≤ later.junction.destination := by
  induction more with
  | zero => exact ⟨position, reached, Nat.le_refl _⟩
  | succ more ih =>
    obtain ⟨before, found, le⟩ := ih fun k past below =>
      untransferred k past (Nat.lt_succ_of_lt below)
    obtain ⟨next, further⟩ := endless.reaches (count + more + 1)
    have onward := depart_within (after_within within file far found) file far
    have stays := untransferred (count + more) (Nat.le_add_right ..) (Nat.lt_succ_self _)
    have goes := further
    rw [after_succ, found, Option.bind_some, next?] at goes
    rw [target_of_reached found] at stays
    cases leaves : before.depart source depth with
    | stop =>
      rw [leaves] at goes
      cases goes
    | onward target =>
      rw [leaves] at goes onward
      cases goes
      have ahead := onward.2
      exact ⟨next, further, by omega⟩
    | transfer target =>
      rw [leaves] at stays
      cases stays

/-- A run that comes back to a junction was transferred there, or on the way. -/
theorem exists_target {i j : Nat} (within : start.junction.Within limit depth)
    (file : source.size ≤ limit) (far : longest ≤ limit) (endless : start.Endless source depth)
    (lt : i < j) (same : start.junction? source depth i = start.junction? source depth j) :
    ∃ k junction, i ≤ k ∧ k < j ∧ start.target? source depth k = some junction := by
  by_contra never
  obtain ⟨position, reached⟩ := endless.reaches i
  have length := Nat.add_sub_cancel' (Nat.le_of_lt lt)
  have untransferred (k : Nat) (past : i ≤ k) (below : k < i + (j - i)) :
      start.target? source depth k = none :=
    Option.eq_none_iff_forall_ne_some.mpr fun junction sent =>
      never ⟨k, junction, past, by omega, sent⟩
  obtain ⟨later, there, further⟩ := destination_add within file far endless reached untransferred
  rw [length] at there
  rw [junction?, junction?, reached, there] at same
  have junctions : position.junction = later.junction := Option.some.inj same
  rw [junctions] at further
  omega

/-- Every endless run is transferred to some junction again. -/
theorem exists_firstReturn (within : start.junction.Within limit depth)
    (file : source.size ≤ limit) (far : longest ≤ limit) (endless : start.Endless source depth) :
    ∃ m n anchor, FirstReturn source depth start m n anchor := by
  classical
  let Repeats (n : Nat) : Prop := ∃ m junction, m < n ∧
    start.target? source depth m = some junction ∧ start.target? source depth n = some junction
  have repeats : ∃ n, Repeats n := by
    obtain ⟨i, j, lt, same⟩ := exists_repeat within file far endless
    obtain ⟨k, junction, past, below, sent⟩ := exists_target within file far endless lt same
    have round := junction_rounds same.symm (Nat.le_of_lt lt) past 1
    rw [Nat.one_mul] at round
    exact ⟨k + (j - i), k, junction, by omega, sent, (target_congr round).trans sent⟩
  obtain ⟨m, anchor, lt, leaves, again⟩ := Nat.find_spec repeats
  refine ⟨m, _, anchor, lt, leaves, again, fun i j junction sooner before sent also => ?_⟩
  exact Nat.find_min repeats before ⟨i, junction, sooner, sent, also⟩

end Position
end Sequencer
