import Sequencer.Proofs.Passes

/-! The loop guard of every track in every pass. What a track decodes is the beginning of its free
run, and trips around a cycle are counted only if the free run never ends. -/
namespace Sequencer.Sequence

/-- A track has followed its free run with its own visits, and its guard has cut none that ends. -/
structure FollowsFreeRun (source : Source) (sequence : Sequence Unit) (stopTime : Nat)
    (own : List Visit) (track : Track) : Prop where
  decoded : own.map (fun visit => (visit.offset, visit.tick)) =
    track.opening.freeRun source sequence.options.maxDepth own.length
  endless : 0 < track.guard.trips → track.opening.Endless source sequence.options.maxDepth
  whole : ¬ track.opening.Endless source sequence.options.maxDepth →
    track.opening.after source sequence.options.maxDepth own.length = none ∨
      sequence.options.maxSteps ≤ own.length ∨
      stopTime ≠ 0 ∧ stopTime ≤ track.totalTicks ∨
      sequence.header.tickSync = true ∧ track.totalTicks = Tick.last

variable {source : Source} {sequence : Sequence Unit} {pass : Pass} {stopTime : Nat}
  {track : Track}

theorem Follows.freeRun {own : List Visit} (follows : sequence.Follows pass stopTime own track)
    (reads : sequence.source = source) : FollowsFreeRun source sequence stopTime own track := by
  subst reads
  refine ⟨follows.decoded, follows.endless, fun ends => ?_⟩
  have ending := follows.ending
  have endless := follows.endless
  generalize own.length = count at ending ⊢
  generalize track.totalTicks = total at ending ⊢
  cases ending with
  | finished reached final within =>
    refine .inl ?_
    rw [Position.after_succ, reached]
    exact final
  | cut further within counted again stale => exact absurd (endless counted) ends
  | stopped reached within why =>
    exact .inr (why.imp_right (Or.imp_right fun ⟨together, late⟩ =>
      ⟨together, Position.tick_eq_last (Nat.zero_le _) reached late⟩))

/-- In every pass every track follows its free run. Its guard counts no trip unless that run is
endless: a free run that ends is played whole, if no limit stops the track before. -/
theorem runPass_followsFreeRun (reachable : Reachable source sequence) (pass : Pass)
    (stopTime : Nat) : ∃ played visits, sequence.runPass pass stopTime = .ok played ∧
      sequence.visits pass stopTime = .ok visits ∧
      played.tracks.map origin = sequence.tracks.map origin ∧
      ∀ track ∈ played.tracks,
        FollowsFreeRun source sequence stopTime (visitsOf visits track.index) track := by
  have intact := reachable.intact
  obtain ⟨stage, transposes, passes⟩ := intact.passes pass stopTime
  refine ⟨_, _, passes.run, passes.visits, ?_, ?_⟩
  · rw [conclude_tracks, List.map_map, ← passes.origins intact]
    exact List.map_congr_left fun track _ => origin_conclude pass track
  · intro track member
    rw [conclude_tracks] at member
    obtain ⟨track, known, rfl⟩ := List.mem_map.mp member
    obtain ⟨i, found⟩ := List.getElem?_of_mem known
    obtain ⟨before, start, solo, _, ended⟩ := passes.ended intact found
    have index : (track.conclude pass).index = track.index :=
      congrArg Prod.fst (origin_conclude pass track)
    rw [index]
    exact (follows_conclude ended.follows).freeRun intact.reads

/-- A track that rests and goes back to its start. -/
def resting : Source :=
  #[0x52, 0x53, 0x45, 0x51, 1, 0, 0, 0, 0, 0, 1, 0, 14, 0, 0x01, 1, 0, 0x50, 14, 0]

theorem runPass_followsFreeRun_resting : ∃ sequence,
    ofSource RefSeq.format () resting = .ok sequence ∧
    ∃ played visits, sequence.runPass .length 0 = .ok played ∧
      sequence.visits .length 0 = .ok visits ∧
      played.tracks.map origin = sequence.tracks.map origin ∧
      ∀ track ∈ played.tracks,
        FollowsFreeRun resting sequence 0 (visitsOf visits track.index) track :=
  ⟨_, rfl, runPass_followsFreeRun (.opened rfl) .length 0⟩

end Sequencer.Sequence
