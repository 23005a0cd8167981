import Sequencer.Proofs.Measure

/-! What the listing pass leaves to list: nothing. It stops a track at the first junction that is
reached again, and what the track would decode after that stands where it has been before. -/
namespace Sequencer

namespace Position

variable {source : Source} {depth count n : Nat} {start target position : Position}

/-- Once a junction has been reached again, the run comes to no junction that it has not been at. -/
theorem junction_of_repeat {tick : Nat}
    (further : start.after source depth (count + 1) = some target)
    (again : Guard.Seen source depth start count target.junction tick)
    (there : start.after source depth n = some position) :
    ∃ tick, Guard.Seen source depth start count position.junction tick := by
  obtain ⟨m, le, reached⟩ := again
  induction n using Nat.strongRecOn generalizing position with
  | ind n ih =>
    by_cases within : n ≤ count
    · exact ⟨position.tick, n, within, there⟩
    · -- The same junction was passed one trip around the cycle before.
      rw [← Nat.add_sub_of_le (Nat.lt_of_not_le within)] at there
      obtain ⟨earlier, before⟩ := after_same_junction further reached rfl _ there
      have seen := ih (m + (n - (count + 1))) (by omega) before
      exact seen

end Position

namespace Player

variable {maxSteps depth trips count total n : Nat} {rule : LoopRule} {together : Bool}
  {source : Source} {start position : Position}

/-- A track without a stop time has come to all junctions of its free run that any pass comes
to. -/
theorem Ending.covers
    (ending : Ending ⟨maxSteps, 0⟩ rule together source depth start trips count total)
    (there : start.after source depth n = some position) (budget : n < maxSteps)
    (punctual : together = true → start.due source depth n ≤ Tick.last) :
    ∃ m < count, ∃ seen, start.after source depth m = some seen ∧
      seen.junction = position.junction := by
  cases ending with
  | @finished count last reached final within =>
    refine ⟨n, Nat.lt_of_not_le fun after => ?_, position, there, rfl⟩
    have ended : start.after source depth (count + 1) = none := by
      rw [Position.after_succ, reached]
      exact final
    have none := Position.after_none ended (n - (count + 1))
    rw [Nat.add_sub_cancel' after, there] at none
    cases none
  | cut further within counted again stale =>
    obtain ⟨tick, again⟩ := again
    obtain ⟨tick, m, le, seen⟩ := Position.junction_of_repeat further again there
    exact ⟨m, Nat.lt_succ_of_le le, _, seen, rfl⟩
  | stopped reached within why =>
    refine ⟨n, Nat.lt_of_not_le fun after => ?_, position, there, rfl⟩
    rcases why with spent | ⟨limited, _⟩ | ⟨keeps, late⟩
    · exact Nat.lt_irrefl _ (Nat.lt_of_lt_of_le budget (Nat.le_trans spent after))
    · exact limited rfl
    · have due := punctual keeps
      have ordered : start.due source depth count ≤ start.due source depth n :=
        Position.due_mono after
      omega

end Player

namespace Sequence

variable {source : Source} {sequence other : Sequence Unit} {pass : Pass} {stopTime : Nat}
  {stage : Stage (Unit × List Visit)} {transposes : Transposes} {track : Track}

/-- The track has the budget for its instruction after `count` others, and the clock gets there. -/
structure Playable (sequence : Sequence Unit) (track : Track) (count : Nat) : Prop where
  budget : count < sequence.options.maxSteps
  punctual : sequence.header.tickSync = true →
    track.opening.due sequence.source sequence.options.maxDepth count ≤ Tick.last

/-- The store knows the place of every instruction that a pass can record. -/
def Listed (sequence : Sequence Unit) : Prop :=
  ∀ track ∈ sequence.tracks, ∀ count, sequence.Playable track count →
    ∀ position, track.opening.after sequence.source sequence.options.maxDepth count =
      some position → RefSeq.isRecorded sequence.source position.junction.destination = true →
        sequence.arena.Knows ⟨track.index, position.junction.destination⟩

/-- What a pass decodes is playable, at the position that the free run has then. -/
theorem Passes.playable (passes : sequence.Passes pass stopTime stage transposes)
    (intact : sequence.Intact source) : ∀ visit ∈ stage.memory.2, ∃ before ∈ sequence.tracks,
      ∃ count position, sequence.Playable before count ∧ before.opening.after sequence.source
        sequence.options.maxDepth count = some position ∧
        visit.place = ⟨before.index, position.junction.destination⟩ := by
  intro visit member
  obtain ⟨start, known, index⟩ := passes.played.inside visit member
  obtain ⟨_, solo, ⟨ends, _⟩, _, _⟩ := Voices.of_start passes.played.ensemble.voices known
  obtain ⟨setting, opening, _⟩ := mem_starts known
  obtain ⟨before, there, same⟩ := origin_of_mem_starts known
  have starts : start.track.position = before.opening :=
    (position_of_opening opening).trans (opening_of_origin same)
  have own : visit ∈ visitsOf stage.memory.2 start.track.index :=
    List.mem_filter.mpr ⟨member, decide_eq_true index⟩
  have closes := ends.closes (Player.fresh_of_opening opening) (.inl intact.bounded)
  have punctual := ends.punctual
  have decoded := closes.decoded
  have within := closes.ending.within
  rw [starts, setting] at decoded
  generalize visitsOf stage.memory.2 start.track.index = visits at own decoded within punctual
  have decodes := decoded ▸ List.mem_map_of_mem own
  obtain ⟨count, short, found⟩ := List.mem_filterMap.mp decodes
  obtain ⟨position, reached, shows⟩ := Option.map_eq_some_iff.mp found
  have short := List.mem_range.mp short
  refine ⟨before, there, count, position, ⟨Nat.lt_of_lt_of_le short within, fun together => ?_⟩,
    reached, ?_⟩
  · have due := punctual count short
    unfold Player.Punctual Player.dueAfter at due
    rw [starts, setting] at due
    exact due together
  · have offset : position.junction.destination = visit.offset := congrArg Prod.fst shows
    have indices : start.track.index = before.index := congrArg Prod.fst same
    rw [offset, ← indices, ← index]
    rfl

theorem mem_of_origins (origins : other.tracks.map origin = sequence.tracks.map origin)
    (member : track ∈ other.tracks) :
    ∃ before ∈ sequence.tracks, origin track = origin before := by
  have known : origin track ∈ sequence.tracks.map origin :=
    origins ▸ List.mem_map_of_mem member
  obtain ⟨before, there, same⟩ := List.mem_map.mp known
  exact ⟨before, there, same.symm⟩

theorem Listed.of_origins (listed : sequence.Listed)
    (origins : other.tracks.map origin = sequence.tracks.map origin)
    (arena : other.arena = sequence.arena) (reads : other.source = sequence.source)
    (maxSteps : other.options.maxSteps = sequence.options.maxSteps)
    (maxDepth : other.options.maxDepth = sequence.options.maxDepth)
    (tickSync : other.header.tickSync = sequence.header.tickSync) : other.Listed := by
  intro track member count playable position reached recorded
  obtain ⟨before, there, same⟩ := mem_of_origins origins member
  obtain ⟨budget, punctual⟩ := playable
  rw [reads, maxDepth, opening_of_origin same] at reached
  rw [maxSteps] at budget
  rw [tickSync, reads, maxDepth, opening_of_origin same] at punctual
  rw [reads] at recorded
  have index : track.index = before.index := congrArg Prod.fst same
  rw [arena, index]
  exact listed before there count ⟨budget, punctual⟩ position reached recorded

theorem Passes.arena_lists (passes : sequence.Passes pass stopTime stage transposes) :
    sequence.arena.Lists sequence.source stage.memory.2
      (sequence.conclude pass stage.unlogged transposes).arena := by
  have lists := passes.played.ensemble.lists
  rw [(openStage_shared sequence pass).1] at lists
  rw [conclude_arena]
  exact lists

/-- The listing pass lists all there is. -/
theorem Passes.listed (passes : sequence.Passes .listing 0 stage transposes)
    (intact : sequence.Intact source) :
    (sequence.conclude .listing stage.unlogged transposes).Listed := by
  intro track member count playable position reached recorded
  obtain ⟨i, found⟩ := List.getElem?_of_mem member
  obtain ⟨_, _, _, _, ended⟩ := passes.ended intact found
  have follows := ended.follows
  obtain ⟨m, short, seen, there, same⟩ := follows.ending.covers reached playable.budget
    playable.punctual
  have shown : seen.visit ∈ track.opening.freeRun sequence.source sequence.options.maxDepth
      (visitsOf stage.memory.2 track.index).length :=
    List.mem_filterMap.mpr ⟨m, List.mem_range.mpr short, by rw [there]; rfl⟩
  rw [← follows.decoded] at shown
  obtain ⟨visit, own, shows⟩ := List.mem_map.mp shown
  obtain ⟨visited, index⟩ := List.mem_filter.mp own
  have offset : visit.offset = position.junction.destination := by
    rw [← same]
    exact congrArg Prod.fst shows
  have place : visit.place = ⟨track.index, position.junction.destination⟩ := by
    rw [← offset, ← of_decide_eq_true index]
    rfl
  rw [← place]
  exact passes.arena_lists.listed visit visited (by rw [offset]; exact recorded)

/-- A pass has nothing to add to a store in which all is listed. -/
theorem Listed.arena_eq (listed : sequence.Listed) (intact : sequence.Intact source)
    (passes : sequence.Passes pass stopTime stage transposes) :
    (sequence.conclude pass stage.unlogged transposes).arena = sequence.arena := by
  refine passes.arena_lists.still fun visit member recorded => ?_
  obtain ⟨before, there, count, position, playable, reached, place⟩ :=
    passes.playable intact visit member
  have offset : visit.offset = position.junction.destination := congrArg Place.offset place
  rw [place]
  exact listed before there count playable position reached (offset ▸ recorded)

theorem Listed.conclude (listed : sequence.Listed) (intact : sequence.Intact source)
    (passes : sequence.Passes pass stopTime stage transposes) :
    (sequence.conclude pass stage.unlogged transposes).Listed := by
  obtain ⟨_, reads, options, header⟩ :=
    conclude_fixed sequence pass stage.unlogged transposes
  refine listed.of_origins (passes.conclude_origins intact) (listed.arena_eq intact passes) reads
    ?_ ?_ ?_
  · rw [options]
  · rw [options]
  · rw [header]

/-- A pass over a sequence, or a change of the settings that do not limit its tracks. -/
inductive Move
  | pass (pass : Pass) (stopTime : Nat)
  | configure (loopCount : Nat) (initialState : Bool)

def move (sequence : Sequence Unit) : Move → Except Fault (Sequence Unit)
  | .pass pass stopTime => sequence.runPass pass stopTime
  | .configure loopCount initialState =>
    .ok (sequence.withOptions { sequence.options with loopCount, initialState })

def moves (sequence : Sequence Unit) : List Move → Except Fault (Sequence Unit)
  | [] => .ok sequence
  | first :: rest => do (← sequence.move first).moves rest

/-- A move keeps what the listing pass has come to. -/
theorem Listed.move_yields (listed : sequence.Listed) (intact : sequence.Intact source)
    (move : Move) : (sequence.move move).Yields fun next =>
      next.Intact source ∧ next.Listed ∧ next.arena = sequence.arena := by
  cases move with
  | pass pass stopTime =>
    obtain ⟨stage, transposes, passes⟩ := intact.passes pass stopTime
    exact ⟨_, passes.run, passes.intact intact, listed.conclude intact passes,
      listed.arena_eq intact passes⟩
  | configure loopCount initialState =>
    refine Except.yields_ok ⟨?_, listed.of_origins rfl rfl rfl rfl rfl rfl, rfl⟩
    exact ⟨⟨intact.format, intact.reads, intact.ascending, intact.sound, intact.faithful⟩,
      intact.bounded⟩

theorem Listed.moves_yields (listed : sequence.Listed) (intact : sequence.Intact source)
    (moves : List Move) :
    (sequence.moves moves).Yields fun last => last.arena = sequence.arena := by
  induction moves generalizing sequence with
  | nil => exact Except.yields_ok rfl
  | cons first rest ih =>
    refine (listed.move_yields intact first).bind ?_
    rintro next ⟨intact, listed, same⟩
    exact (ih listed intact).mono fun last kept => kept.trans same

/-- After the listing pass no pass changes the store of events. -/
theorem moves_keepArena (reachable : Reachable source sequence) (moves : List Move) :
    ∃ listed last, sequence.runPass .listing 0 = .ok listed ∧ listed.moves moves = .ok last ∧
      last.arena = listed.arena := by
  have intact := reachable.intact
  obtain ⟨stage, transposes, passes⟩ := intact.passes .listing 0
  obtain ⟨last, moved, same⟩ :=
    (passes.listed intact).moves_yields (passes.intact intact) moves
  exact ⟨_, last, passes.run, moved, same⟩

/-- A track that calls a subroutine in a loop without end. -/
def calling : Source :=
  #[0x52, 0x53, 0x45, 0x51, 1, 0, 0, 0, 0, 0, 1, 0, 14, 0, 0x51, 20, 0, 0x50, 14, 0,
    0x01, 2, 0, 0x52]

theorem moves_keepArena_calling : ∃ sequence,
    ofSource RefSeq.format () calling = .ok sequence ∧
    ∃ listed last, sequence.runPass .listing 0 = .ok listed ∧
      listed.moves [.pass .length 0, .configure 3 false, .pass .midi 100] = .ok last ∧
      last.arena = listed.arena :=
  ⟨_, rfl, moves_keepArena (.opened (show ofSource RefSeq.format () calling = .ok _ from rfl)) _⟩

end Sequence
end Sequencer
