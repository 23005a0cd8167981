import Sequencer.Proofs.FreeRun
import Sequencer.Proofs.Outcome

/-! The loop guard against the free run of its track. What the guard has seen are junctions that
the free run came to, so that a junction that is seen twice belongs to a run without end. -/
namespace Sequencer.Guard

/-- The guard that has counted a trip around the junction. -/
def trip (guard : Guard) (junction : Junction) (now : Nat) : Guard :=
  { guard with anchor := some junction, trips := guard.trips + 1, lastTrip := some now }

/-- The three ways to arrive: at a new junction, at a known one inside of a cycle, and at the
anchor of the cycle. -/
inductive Arrival (rule : LoopRule) (junction : Junction) (now : Nat) (guard : Guard) :
    Bool → Guard → Prop
  | fresh (new : junction ∉ guard.visited) :
      Arrival rule junction now guard true
        { guard with visited := guard.visited.insert junction }
  | passing {anchor : Junction} (known : junction ∈ guard.visited)
      (anchored : guard.anchor = some anchor) (elsewhere : anchor ≠ junction) :
      Arrival rule junction now guard (rule ≠ .once) guard
  | around (known : junction ∈ guard.visited)
      (anchored : ∀ anchor ∈ guard.anchor, anchor = junction) :
      Arrival rule junction now guard
        (mayRepeat rule (guard.trips + 1) now guard.lastTrip) (guard.trip junction now)

variable {rule : LoopRule} {junction : Junction} {now : Nat} {guard : Guard}

theorem arrive_yields (counts : guard.trips < Tick.last) :
    (guard.arrive rule junction now).Yields fun (allowed, next) =>
      Arrival rule junction now guard allowed next := by
  have counted : ¬ guard.trips + 1 > Tick.last := Nat.not_lt.mpr counts
  unfold arrive
  split
  · rename_i known
    split
    · rename_i unanchored
      unfold countTrip
      rw [if_neg counted]
      refine Except.yields_ok (.around known ?_)
      intro anchor anchored
      rw [unanchored] at anchored
      cases anchored
    · rename_i anchor anchored
      split
      · rename_i same
        subst same
        unfold countTrip
        rw [if_neg counted]
        have here : { guard with trips := guard.trips + 1, lastTrip := some now } =
            guard.trip anchor now := by
          rw [trip, ← anchored]
        rw [here]
        refine Except.yields_ok (.around known ?_)
        intro other also
        exact Option.some.inj (also.symm.trans anchored)
      · rename_i elsewhere
        exact Except.yields_ok (.passing known anchored elsewhere)
  · rename_i new
    exact Except.yields_ok (.fresh new)

/-- The trips of a track that has gone on from all of them are what its rule allows by the tick
`now`. A track that must make progress makes one trip a tick at most. -/
def Going (rule : LoopRule) (now : Nat) (guard : Guard) : Prop :=
  match rule with
  | .once => guard.trips = 0
  | .trips count => guard.trips ≤ count
  | .progress => guard.trips ≤ guard.lastTrip.getD 0 ∧ guard.lastTrip.getD 0 ≤ now

theorem going_initial (rule : LoopRule) (now : Nat) : Going rule now {} := by
  cases rule with
  | once => rfl
  | trips count => exact Nat.zero_le _
  | progress => exact ⟨Nat.zero_le _, Nat.zero_le _⟩

theorem Going.later {more : Nat} (going : guard.Going rule now) (le : now ≤ more) :
    guard.Going rule more := by
  cases rule with
  | progress => exact ⟨going.1, Nat.le_trans going.2 le⟩
  | _ => exact going

theorem Going.arrive {next : Guard} (going : guard.Going rule now)
    (arrival : Arrival rule junction now guard true next) : next.Going rule now := by
  generalize passes : true = allowed at arrival
  cases arrival with
  | fresh new => exact going
  | passing => exact going
  | around known anchored =>
    cases rule with
    | once => cases passes
    | trips count =>
      have short : guard.trips + 1 ≤ count := of_decide_eq_true passes.symm
      exact short
    | progress =>
      obtain ⟨trips, early⟩ := going
      have moved := passes.symm
      simp only [mayRepeat, Bool.and_eq_true, decide_eq_true_eq] at moved
      obtain ⟨started, apart⟩ := moved
      refine ⟨?_, Nat.le_refl _⟩
      change guard.trips + 1 ≤ now
      cases last : guard.lastTrip with
      | none =>
        rw [last, Option.getD_none] at trips
        omega
      | some tick =>
        rw [last, Option.getD_some] at trips early
        have moved : tick ≠ now := fun same => apart (same ▸ last)
        omega

/-- The free run has come to a junction within `count` instructions. -/
def Seen (source : Source) (depth : Nat) (start : Position) (count : Nat)
    (junction : Junction) (tick : Nat) : Prop :=
  ∃ n ≤ count, start.after source depth n = some ⟨junction, tick⟩

/-- The guard of a track that has decoded `count` instructions of its free run. -/
structure Witnessed (source : Source) (depth : Nat) (start : Position) (count : Nat)
    (guard : Guard) : Prop where
  visited : ∀ junction ∈ guard.visited, ∃ tick, Seen source depth start count junction tick
  lastTrip : ∀ tick ∈ guard.lastTrip, ∃ anchor ∈ guard.anchor,
    Seen source depth start count anchor tick
  trips : guard.trips ≤ count
  anchored : ∀ anchor ∈ guard.anchor, 0 < guard.trips
  endless : 0 < guard.trips → start.Endless source depth

variable {source : Source} {depth count : Nat} {start target : Position} {allowed : Bool}
  {next : Guard}

theorem Seen.mono {tick more : Nat} (seen : Seen source depth start count junction tick)
    (le : count ≤ more) : Seen source depth start more junction tick := by
  obtain ⟨n, within, reached⟩ := seen
  exact ⟨n, Nat.le_trans within le, reached⟩

theorem witnessed_initial : Witnessed source depth start count {} where
  visited := fun _ member => absurd member Std.TreeSet.not_mem_emptyc
  lastTrip := fun _ known => nomatch known
  trips := Nat.zero_le _
  anchored := fun _ known => nomatch known
  endless := fun positive => absurd positive (Nat.lt_irrefl 0)

theorem Witnessed.mono (witnessed : Witnessed source depth start count guard) {more : Nat}
    (le : count ≤ more) : Witnessed source depth start more guard where
  visited := fun junction member => by
    obtain ⟨tick, seen⟩ := witnessed.visited junction member
    exact ⟨tick, seen.mono le⟩
  lastTrip := fun tick known => by
    obtain ⟨anchor, anchored, seen⟩ := witnessed.lastTrip tick known
    exact ⟨anchor, anchored, seen.mono le⟩
  trips := Nat.le_trans witnessed.trips le
  anchored := witnessed.anchored
  endless := witnessed.endless

/-- A known junction is one that the free run comes back to. -/
theorem Witnessed.endless_of_known (witnessed : Witnessed source depth start count guard)
    (reached : start.after source depth (count + 1) = some target)
    (known : target.junction ∈ guard.visited) : start.Endless source depth := by
  obtain ⟨tick, n, within, earlier⟩ := witnessed.visited _ known
  exact Position.endless_of_repeat (Nat.lt_succ_of_le within) earlier reached rfl

theorem Witnessed.arrive (witnessed : Witnessed source depth start count guard)
    (reached : start.after source depth (count + 1) = some target)
    (arrival : Arrival rule target.junction target.tick guard allowed next) :
    Witnessed source depth start (count + 1) next := by
  have grown := witnessed.mono (Nat.le_succ count)
  have here : Seen source depth start (count + 1) target.junction target.tick :=
    ⟨count + 1, Nat.le_refl _, reached⟩
  cases arrival with
  | fresh new =>
    refine ⟨?_, grown.lastTrip, grown.trips, grown.anchored, grown.endless⟩
    intro junction member
    rcases Std.TreeSet.mem_insert.mp member with same | member
    · cases Std.LawfulEqCmp.compare_eq_iff_eq.mp same
      exact ⟨_, here⟩
    · exact grown.visited junction member
  | passing => exact grown
  | around known anchored =>
    refine ⟨grown.visited, ?_, Nat.succ_le_succ witnessed.trips, fun _ _ => Nat.succ_pos _,
      fun _ => witnessed.endless_of_known reached known⟩
    intro tick now
    cases now
    exact ⟨_, rfl, here⟩

/-- A refused transfer would have gone round a cycle. -/
theorem Witnessed.known_of_refused (witnessed : Witnessed source depth start count guard)
    (arrival : Arrival rule target.junction target.tick guard allowed next)
    (refused : allowed = false) :
    0 < next.trips ∧ ∃ tick, Seen source depth start count target.junction tick := by
  cases arrival with
  | fresh new => cases refused
  | passing known anchored => exact ⟨witnessed.anchored _ anchored, witnessed.visited _ known⟩
  | around known => exact ⟨Nat.succ_pos _, witnessed.visited _ known⟩

/-- Only a cycle that has taken no time is refused for want of progress. -/
theorem Witnessed.seen_of_refused (witnessed : Witnessed source depth start count guard)
    (within : start.tick ≤ Tick.last)
    (reached : start.after source depth (count + 1) = some target)
    (arrival : Arrival .progress target.junction target.tick guard allowed next)
    (refused : allowed = false) :
    Seen source depth start count target.junction target.tick := by
  cases arrival with
  | fresh new => cases refused
  | passing known => cases refused
  | around known anchored =>
    simp only [mayRepeat, Bool.and_eq_false_iff, decide_eq_false_iff_not, Decidable.not_not]
      at refused
    rcases refused with atStart | atTrip
    · obtain ⟨tick, n, le, earlier⟩ := witnessed.visited _ known
      have before := Position.tick_mono within (Nat.le_succ_of_le le) earlier reached
      have same : tick = target.tick := by
        simp only at before
        omega
      exact ⟨n, le, same ▸ earlier⟩
    · obtain ⟨anchor, known, seen⟩ := witnessed.lastTrip _ atTrip
      rw [← anchored anchor known]
      exact seen

end Sequencer.Guard
