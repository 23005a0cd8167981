import Sequencer.Proofs.Cycle
import Sequencer.Proofs.Listing

/-! How far a track gets that only its loop guard stops. Until it comes back to a junction, each
stretch between two junctions leads on through the file, and each junction is a new one; from
then on it goes round, and the guard counts its trips. -/
namespace Sequencer

open RefSeq (longest)

/-- The trips that a rule lets a track go on from. -/
def LoopRule.most (stopTime : Nat) : LoopRule → Nat
  | .once => 0
  | .trips count => count
  | .progress => stopTime

theorem Junction.few (limit depth : Nat) : ∃ number, ∀ seen : Finset Junction,
    (∀ junction ∈ seen, junction.Within limit depth) → seen.card ≤ number := by
  refine ⟨(Junction.within_finite limit depth).toFinset.card, fun seen within => ?_⟩
  refine Finset.card_le_card fun junction member => ?_
  exact (Set.Finite.mem_toFinset _).mpr (within junction member)

namespace Guard

variable {rule : LoopRule} {junction anchor : Junction} {now : Nat} {guard next : Guard}
  {allowed : Bool}

/-- In a cycle the guard keeps its anchor, and counts a trip each time that the track is there. -/
theorem Arrival.anchored (arrival : Arrival rule junction now guard allowed next)
    (anchored : guard.anchor = some anchor) (known : anchor ∈ guard.visited) :
    next.anchor = some anchor ∧ anchor ∈ next.visited ∧ guard.trips ≤ next.trips ∧
      (junction = anchor → next.trips = guard.trips + 1) := by
  cases arrival with
  | fresh new =>
    exact ⟨anchored, Std.TreeSet.mem_insert.mpr (.inr known), Nat.le_refl _,
      fun same => absurd (same ▸ known) new⟩
  | passing here also elsewhere =>
    cases also.symm.trans anchored
    exact ⟨anchored, known, Nat.le_refl _, fun same => absurd same.symm elsewhere⟩
  | around here same =>
    cases same anchor anchored
    exact ⟨rfl, known, Nat.le_succ _, fun _ => rfl⟩

/-- Out of cycles a track comes to a new junction, or to one that becomes the anchor. -/
theorem Arrival.unanchored (arrival : Arrival rule junction now guard allowed next)
    (unanchored : guard.anchor = none) :
    junction ∉ guard.visited ∧ next.anchor = none ∧
      (∀ other, other = junction ∨ other ∈ guard.visited → other ∈ next.visited) ∨
    junction ∈ guard.visited ∧ next.anchor = some junction ∧ junction ∈ next.visited ∧
      0 < next.trips := by
  cases arrival with
  | fresh new =>
    refine .inl ⟨new, unanchored, ?_⟩
    rintro other (rfl | known)
    · exact Std.TreeSet.mem_insert_self
    · exact Std.TreeSet.mem_insert.mpr (.inr known)
  | passing here also elsewhere =>
    rw [unanchored] at also
    cases also
  | around here same => exact .inr ⟨here, rfl, here, Nat.succ_pos _⟩

end Guard

namespace Player

/-- A cycle of the free run, from the instruction after `m` others round to that after `n`, which
transfers back to where the cycle begins. -/
structure Cycle (start : Player) (m n : Nat) (anchor : Junction) : Prop where
  le : m ≤ n
  begins : ∃ tick, start.track.position.after start.setting.source start.setting.maxDepth m =
    some ⟨anchor, tick⟩
  closes : ∃ before tick, start.track.position.after start.setting.source
    start.setting.maxDepth n = some before ∧
    before.depart start.setting.source start.setting.maxDepth = .transfer ⟨anchor, tick⟩

/-- How far a track has come that has decoded `count` instructions. Each of the junctions that it
has been at has led it on through the file; or it goes round a cycle that began early. -/
inductive Paced (limit reach : Nat) (start : Player) (count : Nat) (player : Player) : Prop
  | outward (unanchored : player.track.guard.anchor = none) (seen : Finset Junction)
      (known : ∀ junction ∈ seen, junction ∈ player.track.guard.visited)
      (within : ∀ junction ∈ seen, junction.Within limit start.setting.maxDepth)
      (paced : count ≤ seen.card * (limit + 2) + player.track.cursor.offset)
  | round {m n : Nat} {anchor : Junction} (cycle : start.Cycle m n anchor) (early : n ≤ reach)
      (anchored : player.track.guard.anchor = some anchor)
      (known : anchor ∈ player.track.guard.visited)
      (paced : count ≤ n + player.track.guard.trips * (n + 1 - m))

/-- What the junctions of its file say of how far a track can go: `limit` is the last offset
within reach, and after more than `reach` instructions a junction is reached again. -/
structure Confined (limit reach : Nat) (start : Player) : Prop where
  within : start.track.position.junction.Within limit start.setting.maxDepth
  file : start.setting.source.size ≤ limit
  far : longest ≤ limit
  few : ∀ seen : Finset Junction,
    (∀ junction ∈ seen, junction.Within limit start.setting.maxDepth) →
      seen.card * (limit + 2) + limit ≤ reach

variable {limits : Limits} {limit reach count m n : Nat} {start player next : Player}
  {visits : List Visit} {anchor : Junction}

theorem Confined.here (confined : start.Confined limit reach)
    (traces : start.Traces visits player) :
    player.track.position.junction.Within limit start.setting.maxDepth :=
  Position.after_within confined.within confined.file confined.far traces.reached

theorem Cycle.back (cycle : start.Cycle m n anchor) : ∃ tick,
    start.track.position.after start.setting.source start.setting.maxDepth (n + 1) =
      some ⟨anchor, tick⟩ := by
  obtain ⟨before, tick, found, departs⟩ := cycle.closes
  refine ⟨tick, ?_⟩
  rw [Position.after_succ, found]
  change (before.depart _ _).next? = _
  rw [departs]
  rfl

/-- At the end of each trip the track transfers to the anchor. -/
theorem Cycle.departs (cycle : start.Cycle m n anchor) (traces : start.Traces visits player)
    {trips : Nat} (around : visits.length = n + trips * (n + 1 - m)) :
    ∃ tick, player.departure = .transfer ⟨anchor, tick⟩ := by
  obtain ⟨tick, begins⟩ := cycle.begins
  obtain ⟨_, back⟩ := cycle.back
  obtain ⟨before, later, found, departs⟩ := cycle.closes
  have returns :
      start.track.position.junction? start.setting.source start.setting.maxDepth (n + 1) =
        start.track.position.junction? start.setting.source start.setting.maxDepth m := by
    rw [Position.junction?, Position.junction?, begins, back]
    rfl
  have again := Position.junction_rounds returns (Nat.le_succ_of_le cycle.le) cycle.le trips
  rw [← around, Position.junction?, Position.junction?, traces.reached, found] at again
  have junction := Option.some.inj again
  have same := (Position.depart_at start.setting.source start.setting.maxDepth before.junction
    before.tick player.track.time).2 _ departs
  obtain ⟨now, goes⟩ := same
  refine ⟨now, ?_⟩
  rw [departure, traces.setting]
  change player.track.position.junction = before.junction at junction
  rw [← junction] at goes
  exact goes

theorem Cycle.step (cycle : start.Cycle m n anchor) (early : n ≤ reach)
    (traces : start.Traces visits player) (anchored : player.track.guard.anchor = some anchor)
    (known : anchor ∈ player.track.guard.visited)
    (paced : visits.length ≤ n + player.track.guard.trips * (n + 1 - m))
    (advances : player.Advances true next) :
    Paced limit reach start (visits.length + 1) next := by
  have course := advances.course
  have kept {guard : Guard} (same : next.track.guard = guard)
      (anchored : guard.anchor = some anchor) (known : anchor ∈ guard.visited)
      (paced : visits.length + 1 ≤ n + guard.trips * (n + 1 - m)) :
      Paced limit reach start (visits.length + 1) next := by
    subst same
    exact .round cycle early anchored known paced
  rcases Nat.lt_or_eq_of_le paced with short | around
  · generalize player.departure = departure at course
    cases course with
    | onward there guard => exact kept guard anchored known short
    | transfer arrival =>
      obtain ⟨anchored, known, trips, _⟩ := arrival.anchored anchored known
      exact kept rfl anchored known (Nat.le_trans short
        (Nat.add_le_add_left (Nat.mul_le_mul_right _ trips) n))
  · -- The trip ends here, and the guard counts it.
    obtain ⟨tick, departs⟩ := cycle.departs traces around
    rw [departs] at course
    cases course with
    | transfer arrival =>
      obtain ⟨anchored, known, _, counts⟩ := arrival.anchored anchored known
      refine kept rfl anchored known ?_
      have le := cycle.le
      rw [counts rfl, Nat.succ_mul]
      omega

theorem Paced.step (paced : Paced limit reach start visits.length player)
    (traces : start.Traces visits player) (confined : start.Confined limit reach)
    (advances : player.Advances true next) :
    Paced limit reach start (visits.length + 1) next := by
  cases paced with
  | round cycle early anchored known paced =>
    exact cycle.step early traces anchored known paced advances
  | outward unanchored seen known within' paced =>
    have here := confined.here traces
    have onward := Position.depart_within here confined.file confined.far
    have inside : player.track.cursor.offset ≤ limit := here.destination
    rw [← traces.setting] at onward
    change player.departure.Within _ _ _ at onward
    have course := advances.course
    cases departs : player.departure with
    | stop =>
      rw [departs] at course
      cases course
    | onward target =>
      rw [departs] at course onward
      cases course with
      | onward there guard =>
        have offset : next.track.cursor.offset = target.junction.destination :=
          congrArg (fun position : Position => position.junction.destination) there
        have before : player.track.cursor.offset < target.junction.destination := onward.2
        refine .outward (guard ▸ unanchored) seen (guard ▸ known) within' ?_
        omega
    | transfer target =>
      rw [departs] at course onward
      rw [traces.setting] at onward
      cases course with
      | transfer arrival now time there =>
        rcases arrival.unanchored unanchored with ⟨new, out, visited⟩ | ⟨old, out, visited, trips⟩
        · have fresh : target.junction ∉ seen := fun member => new (known _ member)
          refine .outward out (insert target.junction seen) (fun junction member => ?_)
            (Finset.forall_mem_insert _ _ _ |>.mpr ⟨onward, within'⟩) ?_
          · exact visited _ ((Finset.mem_insert.mp member).imp_right (known _))
          · rw [Finset.card_insert_of_notMem fresh, Nat.succ_mul]
            omega
        · -- The first junction that is reached again: the cycle goes from there to here.
          obtain ⟨tick, m, le, begins⟩ := traces.guard.visited _ old
          have bound := confined.few seen within'
          refine .round ⟨le, ⟨tick, begins⟩, _, target.tick, traces.reached, ?_⟩ (by omega) out
            visited ?_
          · rw [← traces.setting]
            exact departs
          · have once := Nat.le_mul_of_pos_left (visits.length + 1 - m) trips
            omega

theorem Paced.retain (paced : Paced limit reach start count player)
    (sounds : player.Sounds id next) : Paced limit reach start count next := by
  have guard := sounds.retains.guard
  have offset : next.track.cursor.offset = player.track.cursor.offset := by
    have same := congrArg (fun track : Track => track.cursor.offset) sounds.retains.outline
    exact same
  cases paced with
  | outward unanchored seen known within paced =>
    exact .outward (guard ▸ unanchored) seen (guard ▸ known) within (offset ▸ paced)
  | round cycle early anchored known paced =>
    exact .round cycle early (guard ▸ anchored) (guard ▸ known) (guard ▸ paced)

/-- The trips of a track that is still going on. -/
theorem Runs.trips_le (fresh : start.Fresh)
    (limited : start.setting.loopRule.IsLimited limits.stopTime)
    (runs : Runs limits start visits player) :
    player.track.guard.trips ≤ start.setting.loopRule.most limits.stopTime := by
  have countable : limits.Countable start.setting.loopRule := .inr limited
  induction runs with
  | start =>
    rw [fresh.guard]
    exact Nat.zero_le _
  | @step visits player next runs may punctual advanced ih =>
    have traces := runs.traces fresh countable
    have further := (Runs.step runs may punctual advanced).traces fresh countable
    have going := further.going
    obtain ⟨_, done, advances, _⟩ := traces.advance_yields countable may
    cases done.symm.trans advanced
    cases rule : start.setting.loopRule with
    | once =>
      rw [rule] at going
      exact Nat.le_of_eq going
    | trips count =>
      rw [rule] at going
      exact going
    | progress =>
      rw [rule] at going limited ih
      have course := advances.course
      generalize player.departure = departure at course
      cases course with
      | onward there guard =>
        rw [guard]
        exact ih
      | transfer arrival now time there =>
        have early := may.early limited.1
        rw [← time] at early
        exact Nat.le_trans (Nat.le_trans going.1 going.2) (Nat.le_of_lt early)
  | @glide visits player runs together tick early ih =>
    have sounds := (runs.traces fresh countable).safe.moveDials_sounds tick
    rw [sounds.retains.guard]
    exact ih

/-- Whatever its budget is, a track decodes no more instructions than this. -/
def farthest (reach : Nat) (rule : LoopRule) (stopTime : Nat) : Nat :=
  reach + rule.most stopTime * (reach + 1) + 1

theorem Runs.paced (fresh : start.Fresh) (countable : limits.Countable start.setting.loopRule)
    (confined : start.Confined limit reach) (runs : Runs limits start visits player) :
    Paced limit reach start visits.length player := by
  induction runs with
  | start =>
    refine .outward ?_ ∅ ?_ ?_ (Nat.zero_le _)
    · rw [fresh.guard]
    · exact fun _ member => absurd member (Finset.notMem_empty _)
    · exact fun _ member => absurd member (Finset.notMem_empty _)
  | @step visits player next runs may punctual advanced ih =>
    have traces := runs.traces fresh countable
    obtain ⟨_, done, advances, _⟩ := traces.advance_yields countable may
    cases done.symm.trans advanced
    rw [List.length_append, List.length_singleton]
    exact ih.step traces confined advances
  | glide runs together tick early ih =>
    exact ih.retain ((runs.traces fresh countable).safe.moveDials_sounds tick)

theorem Runs.length_lt (fresh : start.Fresh)
    (limited : start.setting.loopRule.IsLimited limits.stopTime)
    (confined : start.Confined limit reach) (runs : Runs limits start visits player) :
    visits.length < farthest reach start.setting.loopRule limits.stopTime := by
  have countable : limits.Countable start.setting.loopRule := .inr limited
  have trips := runs.trips_le fresh limited
  have inside : player.track.cursor.offset ≤ limit :=
    (confined.here (runs.traces fresh countable)).destination
  unfold farthest
  cases runs.paced fresh countable confined with
  | outward unanchored seen known within paced =>
    have bound := confined.few seen within
    omega
  | @round m n anchor cycle early anchored known paced =>
    have stretch : n + 1 - m ≤ reach + 1 := by omega
    have rounds := Nat.mul_le_mul trips stretch
    omega

/-- The guard alone ends a track. -/
theorem Ends.length_le {last : Player} (fresh : start.Fresh)
    (limited : start.setting.loopRule.IsLimited limits.stopTime)
    (confined : start.Confined limit reach) (ends : Ends limits start visits last) :
    visits.length ≤ farthest reach start.setting.loopRule limits.stopTime := by
  cases ends with
  | refused runs may punctual advanced finished =>
    rw [List.length_append, List.length_singleton]
    exact runs.length_lt fresh limited confined
  | stopped runs stopped finished => exact Nat.le_of_lt (runs.length_lt fresh limited confined)

end Player

namespace Sequence

variable {source : Source} {sequence : Sequence Unit} {pass : Pass} {stopTime : Nat}

def withMaxSteps (sequence : Sequence Unit) (maxSteps : Nat) : Sequence Unit :=
  sequence.withOptions { sequence.options with maxSteps }

/-- The last offset within reach of a track. -/
def lastOffset (sequence : Sequence Unit) : Nat :=
  (sequence.tracks.map Track.startOffset).foldl max (max sequence.source.size longest)

theorem le_lastOffset (sequence : Sequence Unit) :
    max sequence.source.size longest ≤ sequence.lastOffset :=
  List.le_foldl_max (.inl (Nat.le_refl _))

theorem opening_within {track : Track} (member : track ∈ sequence.tracks) (depth : Nat) :
    track.opening.junction.Within sequence.lastOffset depth := by
  refine ⟨List.le_foldl_max (.inr (List.mem_map_of_mem member)), ⟨Nat.zero_le _, ?_⟩,
    ⟨Nat.zero_le _, ?_⟩⟩
  · exact fun _ member => absurd member List.not_mem_nil
  · exact fun _ member => absurd member List.not_mem_nil

theorem confined (sequence : Sequence Unit) (pass : Pass) : ∃ reach, ∀ start ∈ sequence.starts pass,
    start.Confined sequence.lastOffset reach := by
  obtain ⟨number, few⟩ := Junction.few sequence.lastOffset sequence.options.maxDepth
  refine ⟨number * (sequence.lastOffset + 2) + sequence.lastOffset, fun start member => ?_⟩
  obtain ⟨setting, opening, _⟩ := mem_starts member
  obtain ⟨before, there, same⟩ := origin_of_mem_starts member
  have bound := sequence.le_lastOffset
  constructor
  · rw [position_of_opening opening, opening_of_origin same]
    exact opening_within there _
  · rw [setting]
    exact Nat.le_trans (Nat.le_max_left ..) bound
  · exact Nat.le_trans (Nat.le_max_right ..) bound
  · rw [setting]
    exact fun seen within => Nat.add_le_add_right (Nat.mul_le_mul_right _ (few seen within)) _

/-- Every track ends after finitely many instructions, even if nothing limits their number. A pass
that writes MIDI needs a tick to stop at, since a track may go on and on. -/
theorem runPass_ends (reachable : Reachable source sequence) (pass : Pass) (stopTime : Nat)
    (limited : (sequence.setting pass).loopRule.IsLimited stopTime) :
    ∃ most, ∀ maxSteps, ∃ played,
      (sequence.withMaxSteps maxSteps).runPass pass stopTime = .ok played ∧
      ∀ track ∈ played.tracks, track.active = false ∧ track.steps ≤ most := by
  obtain ⟨reach, confined⟩ := sequence.confined pass
  refine ⟨Player.farthest reach (sequence.setting pass).loopRule stopTime, fun maxSteps => ?_⟩
  have intact := reachable.intact
  have whole : (sequence.withMaxSteps maxSteps).Whole source :=
    ⟨intact.format, intact.reads, intact.ascending, intact.sound, intact.faithful⟩
  have countable : ((sequence.withMaxSteps maxSteps).limits stopTime).Countable
      ((sequence.withMaxSteps maxSteps).setting pass).loopRule := .inr limited
  obtain ⟨stage, transposes, passes⟩ := whole.passes pass stopTime countable
  refine ⟨_, passes.run, fun track member => ?_⟩
  rw [conclude_tracks] at member
  obtain ⟨ended, known, rfl⟩ := List.mem_map.mp member
  obtain ⟨i, found⟩ := List.getElem?_of_mem known
  obtain ⟨before, start, solo, _, ending⟩ := passes.ended_of_countable countable found
  obtain ⟨setting, opening, _⟩ := mem_starts ending.began
  obtain ⟨stopped, steps⟩ := ending.stopped
  have short := ending.ends.length_le (Player.fresh_of_opening opening) (setting ▸ limited)
    (confined start ending.began)
  rw [setting, ← steps] at short
  cases pass <;> exact ⟨stopped, short⟩

/-- A track that goes back to its start without a rest, and one that rests in a loop. -/
def spinning : Source :=
  #[0x52, 0x53, 0x45, 0x51, 1, 0, 0, 0, 0, 0, 2, 0, 17, 0, 1, 20, 0,
    0x50, 17, 0, 0x01, 5, 0, 0x50, 20, 0]

theorem runPass_ends_spinning : ∃ sequence, ofSource RefSeq.format () spinning = .ok sequence ∧
    (sequence.setting .midi).loopRule.IsLimited 1000 ∧
    ∃ most, ∀ maxSteps, ∃ played,
      (sequence.withMaxSteps maxSteps).runPass .midi 1000 = .ok played ∧
      ∀ track ∈ played.tracks, track.active = false ∧ track.steps ≤ most :=
  have limited : (1000 : Nat) ≠ 0 ∧ 1000 ≤ Tick.last := by decide
  ⟨_, rfl, limited, runPass_ends
    (.opened (show ofSource RefSeq.format () spinning = .ok _ from rfl)) .midi 1000 limited⟩

end Sequence
end Sequencer
