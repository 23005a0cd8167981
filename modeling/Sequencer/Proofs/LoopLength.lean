import Sequencer.Proofs.Cycle
import Sequencer.Proofs.Rounds

/-! The length of a track that goes round, against the number of its trips. The guard counts a trip
at the first return to a junction and whenever the track is back there, which is once for each
traversal of the cycle, however many transfers the cycle has. -/
namespace Sequencer

open Position (FirstReturn)

namespace Guard

/-- What the guard has counted after `count` instructions of a run: nothing up to its first return,
and then one trip each time that the run is sent to the anchor. -/
inductive Counts (source : Source) (depth : Nat) (start : Position) (m n : Nat)
    (anchor : Junction) (count : Nat) (guard : Guard) : Prop
  | outward (early : count ≤ n) (unanchored : guard.anchor = none) (none : guard.trips = 0)
      (known : ∀ junction, junction ∈ guard.visited ↔
        ∃ k < count, start.target? source depth k = some junction)
  | round {rounds : Nat} (past : n + rounds * (n - m) < count)
      (within : count ≤ n + (rounds + 1) * (n - m)) (anchored : guard.anchor = some anchor)
      (known : anchor ∈ guard.visited) (counted : guard.trips = rounds + 1)

variable {source : Source} {depth m n count most : Nat} {start : Position} {anchor : Junction}
  {rule : LoopRule} {junction : Junction} {now : Nat} {guard next : Guard} {allowed : Bool}

theorem counts_initial : Counts source depth start m n anchor 0 {} := by
  refine .outward (Nat.zero_le _) rfl rfl fun junction => ⟨?_, ?_⟩
  · exact fun member => absurd member Std.TreeSet.not_mem_emptyc
  · rintro ⟨k, lt, _⟩
    exact absurd lt (Nat.not_lt_zero k)

/-- The places within the first traversal are all different. -/
theorem Counts.first_of_known (loop : FirstReturn source depth start m n anchor)
    (early : count ≤ n) (sent : start.target? source depth count = some junction)
    (known : ∃ k < count, start.target? source depth k = some junction) :
    count = n ∧ junction = anchor := by
  obtain ⟨k, lt, before⟩ := known
  rcases Nat.lt_or_eq_of_le early with short | rfl
  · exact absurd sent (loop.fresh k count junction lt short before)
  · exact ⟨rfl, Option.some.inj (sent.symm.trans loop.again)⟩

theorem Counts.onward (loop : FirstReturn source depth start m n anchor)
    (counts : Counts source depth start m n anchor count guard)
    (stays : start.target? source depth count = none) :
    Counts source depth start m n anchor (count + 1) guard := by
  cases counts with
  | outward early unanchored none known =>
    have short : count ≠ n := by
      rintro rfl
      cases stays.symm.trans loop.again
    refine .outward (by omega) unanchored none fun junction => (known junction).trans ⟨?_, ?_⟩
    · rintro ⟨k, lt, sent⟩
      exact ⟨k, Nat.lt_succ_of_lt lt, sent⟩
    · rintro ⟨k, lt, sent⟩
      rcases Nat.lt_or_eq_of_le (Nat.le_of_lt_succ lt) with lt | rfl
      · exact ⟨k, lt, sent⟩
      · cases stays.symm.trans sent
  | @round rounds past within anchored known counted =>
    have short : count ≠ n + (rounds + 1) * (n - m) := by
      rintro rfl
      cases stays.symm.trans (loop.target_anchor (rounds + 1))
    exact .round (Nat.lt_succ_of_lt past) (by omega) anchored known counted

theorem Counts.arrive (loop : FirstReturn source depth start m n anchor)
    (counts : Counts source depth start m n anchor count guard)
    (sent : start.target? source depth count = some junction)
    (arrival : Arrival rule junction now guard allowed next) :
    Counts source depth start m n anchor (count + 1) next := by
  have lt := loop.lt
  cases counts with
  | outward early unanchored none known =>
    cases arrival with
    | fresh new =>
      have short : count ≠ n := by
        rintro rfl
        cases sent.symm.trans loop.again
        exact new ((known _).mpr ⟨m, lt, loop.leaves⟩)
      refine .outward (by omega) unanchored none fun other => ?_
      rw [Std.TreeSet.mem_insert, Std.LawfulEqCmp.compare_eq_iff_eq, known]
      constructor
      · rintro (rfl | ⟨k, lt, before⟩)
        · exact ⟨count, Nat.lt_succ_self _, sent⟩
        · exact ⟨k, Nat.lt_succ_of_lt lt, before⟩
      · rintro ⟨k, lt, before⟩
        rcases Nat.lt_or_eq_of_le (Nat.le_of_lt_succ lt) with lt | rfl
        · exact .inr ⟨k, lt, before⟩
        · exact .inl (Option.some.inj (sent.symm.trans before))
    | passing here anchored elsewhere => cases unanchored.symm.trans anchored
    | around here same =>
      obtain ⟨rfl, rfl⟩ := first_of_known loop early sent ((known _).mp here)
      refine .round (show count + 0 * (count - m) < count + 1 by omega) (by omega) rfl here ?_
      exact congrArg Nat.succ none
  | @round rounds past within anchored known counted =>
    have ends := loop.target_iff past within
    rw [sent, Option.some.injEq] at ends
    cases arrival with
    | fresh new =>
      have short : count ≠ n + (rounds + 1) * (n - m) :=
        fun same => new (ends.mpr same ▸ known)
      exact .round (Nat.lt_succ_of_lt past) (by omega) anchored
        (Std.TreeSet.mem_insert.mpr (.inr known)) counted
    | passing here also elsewhere =>
      cases also.symm.trans anchored
      have short : count ≠ n + (rounds + 1) * (n - m) :=
        fun same => elsewhere (ends.mpr same).symm
      exact .round (Nat.lt_succ_of_lt past) (by omega) anchored known counted
    | around here same =>
      cases same anchor anchored
      have whole := ends.mp rfl
      have further := Nat.add_one_mul (rounds + 1) (n - m)
      exact .round (show n + (rounds + 1) * (n - m) < count + 1 by omega) (by omega) rfl here
        (congrArg Nat.succ counted)

/-- A trip is refused once all that the rule allows are made. -/
theorem Counts.refused (loop : FirstReturn source depth start m n anchor)
    (counts : Counts source depth start m n anchor count guard)
    (going : guard.Going (.trips most) now)
    (sent : start.target? source depth count = some junction)
    (arrival : Arrival (.trips most) junction now guard false next) :
    count = n + most * (n - m) ∧ next.trips = most + 1 := by
  have made : guard.trips ≤ most := going
  generalize refuses : false = allowed at arrival
  cases arrival with
  | fresh new => cases refuses
  | passing here anchored elsewhere => cases refuses
  | around here same =>
    have spent : ¬ guard.trips + 1 ≤ most := of_decide_eq_false refuses.symm
    have all : guard.trips = most := by omega
    refine ⟨?_, congrArg Nat.succ all⟩
    cases counts with
    | outward early unanchored none known =>
      obtain ⟨rfl, _⟩ := first_of_known loop early sent ((known _).mp here)
      rw [← all, none, Nat.zero_mul, Nat.add_zero]
    | round past within anchored known counted =>
      rw [← all, counted]
      exact (loop.target_iff past within).mp (same anchor anchored ▸ sent)

/-- A run that has gone on from all its trips is not past the last one that the rule allows. -/
theorem Counts.le (counts : Counts source depth start m n anchor count guard)
    (going : guard.Going (.trips most) now) : count ≤ n + most * (n - m) := by
  have made : guard.trips ≤ most := going
  cases counts with
  | outward early unanchored none known => exact Nat.le_add_right_of_le early
  | round past within anchored known counted =>
    rw [counted] at made
    exact Nat.le_trans within (Nat.add_le_add_left (Nat.mul_le_mul_right _ made) n)

end Guard

namespace Player

variable {limits : Limits} {start player last : Player} {visits : List Visit} {m n most : Nat}
  {anchor : Junction}

/-- The cycle of the track's free run, at the first return to a junction. -/
def Loops (start : Player) (m n : Nat) (anchor : Junction) : Prop :=
  FirstReturn start.setting.source start.setting.maxDepth start.track.position m n anchor

theorem Traces.target_eq (traces : start.Traces visits player) :
    start.track.position.target? start.setting.source start.setting.maxDepth visits.length =
      player.departure.target? := by
  rw [Position.target_of_reached traces.reached, departure, traces.setting]

theorem Runs.counts (fresh : start.Fresh) (countable : limits.Countable start.setting.loopRule)
    (loops : start.Loops m n anchor) (runs : Runs limits start visits player) :
    player.track.guard.Counts start.setting.source start.setting.maxDepth start.track.position m n
      anchor visits.length := by
  induction runs with
  | start =>
    rw [fresh.guard]
    exact Guard.counts_initial
  | @step visits player next runs may punctual advanced ih =>
    have traces := runs.traces fresh countable
    obtain ⟨_, done, advances, _⟩ := traces.advance_yields countable may
    cases done.symm.trans advanced
    rw [List.length_append, List.length_singleton]
    have target := traces.target_eq
    have course := advances.course
    generalize player.departure = departure at course target
    cases course with
    | onward there guard =>
      rw [guard]
      exact ih.onward loops target
    | transfer arrival => exact ih.arrive loops target arrival
  | @glide visits player runs together tick early ih =>
    rw [((runs.traces fresh countable).safe.moveDials_sounds tick).retains.guard]
    exact ih

theorem Runs.length_le_rounds (fresh : start.Fresh)
    (countable : limits.Countable start.setting.loopRule) (loops : start.Loops m n anchor)
    (rule : start.setting.loopRule = .trips most) (runs : Runs limits start visits player) :
    visits.length ≤ n + most * (n - m) := by
  have going := (runs.traces fresh countable).going
  rw [rule] at going
  exact (runs.counts fresh countable loops).le going

/-- No track goes round more often than it may. -/
theorem Ends.length_le_rounds (fresh : start.Fresh)
    (countable : limits.Countable start.setting.loopRule) (loops : start.Loops m n anchor)
    (rule : start.setting.loopRule = .trips most) (ends : Ends limits start visits last) :
    visits.length ≤ n + most * (n - m) + 1 := by
  cases ends with
  | refused runs may punctual advanced finished =>
    rw [List.length_append, List.length_singleton]
    exact Nat.succ_le_succ (runs.length_le_rounds fresh countable loops rule)
  | stopped runs stopped finished =>
    exact Nat.le_succ_of_le (runs.length_le_rounds fresh countable loops rule)

/-- A track that nothing but its guard stops goes round as often as it may. -/
theorem Ends.rounds (fresh : start.Fresh) (countable : limits.Countable start.setting.loopRule)
    (loops : start.Loops m n anchor) (rule : start.setting.loopRule = .trips most)
    (endless : start.track.position.Endless start.setting.source start.setting.maxDepth)
    (ends : Ends limits start visits last) (short : visits.length < limits.maxSteps)
    (early : limits.stopTime = 0 ∨ last.track.totalTicks < limits.stopTime)
    (clock : start.dueAfter visits.length ≤ Tick.last) :
    visits.length = n + most * (n - m) + 1 ∧ last.track.guard.trips = most + 1 := by
  cases ends with
  | @refused visits player next last runs may punctual advanced finished =>
    have traces := runs.traces fresh countable
    obtain ⟨_, done, advances, safe⟩ := traces.advance_yields countable may
    cases done.symm.trans advanced
    rw [(safe.finished finished).guard, List.length_append, List.length_singleton]
    have target := traces.target_eq
    have further := traces.further
    have going := traces.going
    have course := advances.course
    rw [rule] at going
    cases departs : player.departure with
    | stop =>
      obtain ⟨position, reached⟩ := endless.reaches (visits.length + 1)
      rw [departs, reached] at further
      cases further
    | onward next =>
      rw [departs] at course
      cases course
    | transfer next =>
      rw [departs] at course target
      cases course with
      | transfer arrival =>
        rw [traces.setting, rule] at arrival
        obtain ⟨reached, trips⟩ :=
          (runs.counts fresh countable loops).refused loops going target arrival
        exact ⟨congrArg Nat.succ reached, trips⟩
  | @stopped visits player last runs stopped finished =>
    have traces := runs.traces fresh countable
    rw [(traces.safe.finished finished).total] at early
    rw [← traces.steps] at short
    rcases stopped with cannot | late
    · refine absurd ⟨?_, short⟩ cannot
      simp only [Track.timeIsUp, Bool.and_eq_false_iff, decide_eq_false_iff_not, not_not]
      exact early.imp_right Nat.not_le.mpr
    · exact absurd (fun _ => clock) late

/-- A track that never comes to an end of its own shows when its next instruction is due. -/
theorem Ending.total_eq {rule : LoopRule} {together : Bool} {source : Source}
    {depth trips count total : Nat} {start : Position} (within : start.tick ≤ Tick.last)
    (ending : Ending limits rule together source depth start trips count total)
    (endless : start.Endless source depth) :
    total = min (start.due source depth count) Tick.last := by
  cases ending with
  | finished reached final => exact absurd endless (Position.not_endless_of_final reached final)
  | cut further => exact Position.tick_eq_due within further
  | stopped reached => exact Position.tick_eq_due within reached

end Player

namespace Sequence

variable {source : Source} {sequence : Sequence Unit} {stopTime loopCount m n : Nat}
  {stage : Stage (Unit × List Visit)} {transposes : Transposes} {before track : Track}
  {start solo : Player} {anchor : Junction}

theorem exists_loop (sequence : Sequence Unit) (member : track ∈ sequence.tracks) {depth : Nat}
    (endless : track.opening.Endless sequence.source depth) :
    ∃ m n anchor, FirstReturn sequence.source depth track.opening m n anchor := by
  have bound := sequence.le_lastOffset
  exact Position.exists_firstReturn (opening_within member depth)
    (Nat.le_trans (Nat.le_max_left ..) bound) (Nat.le_trans (Nat.le_max_right ..) bound) endless

/-- Neither its budget nor the time nor the last tick of its clock has stopped the track. -/
structure Unhindered (sequence : Sequence Unit) (stopTime : Nat) (track : Track) : Prop where
  budget : track.steps < sequence.options.maxSteps
  time : stopTime = 0 ∨ track.totalTicks < stopTime
  clock : track.opening.due sequence.source sequence.options.maxDepth track.steps ≤ Tick.last

theorem Ended.loops (ended : sequence.Ended .length stopTime stage before track start solo) :
    start.Fresh ∧ start.setting.loopRule = .trips sequence.options.loopCount ∧
      start.setting.source = sequence.source ∧
      start.setting.maxDepth = sequence.options.maxDepth := by
  obtain ⟨setting, opening, _⟩ := mem_starts ended.began
  rw [setting]
  exact ⟨Player.fresh_of_opening opening, rfl, rfl, rfl⟩

theorem Ended.steps_le (intact : sequence.Intact source)
    (ended : sequence.Ended .length stopTime stage before track start solo)
    (loop : FirstReturn sequence.source sequence.options.maxDepth track.opening m n anchor) :
    track.steps ≤ n + sequence.options.loopCount * (n - m) + 1 := by
  obtain ⟨fresh, rule, reads, depth⟩ := ended.loops
  rw [← reads, ← depth, ← ended.position_eq] at loop
  rw [ended.stopped.2]
  exact ended.ends.length_le_rounds fresh (.inl intact.bounded) loop rule

theorem Ended.rounds (intact : sequence.Intact source)
    (ended : sequence.Ended .length stopTime stage before track start solo)
    (loop : FirstReturn sequence.source sequence.options.maxDepth track.opening m n anchor)
    (endless : track.opening.Endless sequence.source sequence.options.maxDepth)
    (unhindered : sequence.Unhindered stopTime track) :
    track.steps = n + sequence.options.loopCount * (n - m) + 1 ∧
      track.guard.trips = sequence.options.loopCount + 1 := by
  obtain ⟨fresh, rule, reads, depth⟩ := ended.loops
  obtain ⟨budget, time, clock⟩ := unhindered
  rw [← reads, ← depth, ← ended.position_eq] at loop endless clock
  rw [ended.stopped.2] at budget clock ⊢
  have ends := ended.ends
  obtain ⟨own, delay, rfl⟩ := ended.real_eq
  exact ends.rounds fresh (.inl intact.bounded) loop rule endless budget time clock

/-- The length of a track that only its guard has stopped: up to its first return, and once more
around for each trip that it may make. -/
theorem Ended.measures (intact : sequence.Intact source)
    (ended : sequence.Ended .length stopTime stage before track start solo)
    (loop : FirstReturn sequence.source sequence.options.maxDepth track.opening m n anchor)
    (endless : track.opening.Endless sequence.source sequence.options.maxDepth)
    (unhindered : sequence.Unhindered stopTime track) :
    track.totalTicks =
      track.opening.due sequence.source sequence.options.maxDepth (n + 1) +
        sequence.options.loopCount *
          (track.opening.due sequence.source sequence.options.maxDepth (n + 1) -
            track.opening.due sequence.source sequence.options.maxDepth (m + 1)) := by
  have total := ended.follows.ending.total_eq (Nat.zero_le _) endless
  obtain ⟨_, steps⟩ := ended.stopped
  rw [← ended.index_eq] at steps
  rw [← steps, Nat.min_eq_left unhindered.clock, (ended.rounds intact loop endless unhindered).1]
    at total
  have rounds := Position.due_rounds loop.returns (Nat.succ_le_succ (Nat.le_of_lt loop.lt))
    sequence.options.loopCount
  rw [Nat.add_sub_add_right, Nat.add_right_comm] at rounds
  exact total.trans rounds

/-- Measured lengths are affine in the number of loops. A track whose free run never ends makes one
trip more than its loops, and each of them takes the ticks of one traversal of its cycle. -/
theorem runPass_length_affine (reachable : Reachable source sequence) {i : Nat}
    (known : sequence.tracks[i]? = some track)
    (endless : track.opening.Endless source sequence.options.maxDepth) :
    ∃ lead round, track.opening.Circles source sequence.options.maxDepth round ∧
      ∀ loopCount stopTime, ∃ measured ended,
        (sequence.withLoopCount loopCount).runPass .length stopTime = .ok measured ∧
        measured.tracks[i]? = some ended ∧ origin ended = origin track ∧
        (sequence.Unhindered stopTime ended →
          ended.measuredTrips = loopCount + 1 ∧
          ended.measuredTicks = lead + loopCount * round) := by
  have reads := reachable.intact.reads
  rw [← reads] at endless ⊢
  obtain ⟨m, n, anchor, loop⟩ := sequence.exists_loop (List.mem_of_getElem? known) endless
  refine ⟨track.opening.due sequence.source sequence.options.maxDepth (n + 1), _,
    loop.traversal.circles, fun loopCount stopTime => ?_⟩
  have intact := (reachable.looped loopCount).intact
  obtain ⟨stage, transposes, passes⟩ := intact.passes .length stopTime
  obtain ⟨inside, _⟩ := List.getElem?_eq_some_iff.mp known
  have inside' : i < stage.tracks.length := Nat.lt_of_lt_of_eq inside passes.length_eq.symm
  have found : stage.tracks[i]? = some stage.tracks[i] := List.getElem?_eq_getElem inside'
  generalize stage.tracks[i] = played at found
  obtain ⟨before, start, solo, there, ended⟩ := passes.ended intact found
  cases there.symm.trans known
  have opening : played.opening = track.opening := opening_of_origin ended.origin_eq
  refine ⟨_, played.conclude .length, passes.run, ?_, ?_, fun unhindered => ?_⟩
  · rw [conclude_tracks, List.getElem?_map, show stage.unlogged.tracks[i]? = some played from found]
    rfl
  · exact (origin_conclude .length played).trans ended.origin_eq
  · rw [← opening] at loop endless ⊢
    have unhindered : (sequence.withLoopCount loopCount).Unhindered stopTime played :=
      ⟨unhindered.budget, unhindered.time, unhindered.clock⟩
    exact ⟨(ended.rounds intact loop endless unhindered).2,
      ended.measures intact loop endless unhindered⟩

/-- The guard alone bounds how much of an endless run the length pass decodes. -/
theorem runPass_length_steps_le (reachable : Reachable source sequence)
    {measured : Sequence Unit} (run : sequence.runPass .length stopTime = .ok measured) {i : Nat}
    (found : measured.tracks[i]? = some track)
    (loop : FirstReturn sequence.source sequence.options.maxDepth track.opening m n anchor) :
    track.steps ≤ n + sequence.options.loopCount * (n - m) + 1 := by
  have intact := reachable.intact
  obtain ⟨stage, transposes, passes⟩ := intact.passes .length stopTime
  cases passes.run.symm.trans run
  rw [conclude_tracks, List.getElem?_map] at found
  obtain ⟨played, there, rfl⟩ := Option.map_eq_some_iff.mp found
  obtain ⟨before, start, solo, _, ended⟩ := passes.ended intact there
  have steps : played.steps ≤ _ := ended.steps_le intact loop
  exact steps

/-- Two places, each of which rests and jumps to the other one. -/
def twoJumps : Source :=
  #[0x52, 0x53, 0x45, 0x51, 1, 0, 0, 0, 0, 0, 1, 0, 14, 0,
    0x01, 4, 0, 0x50, 20, 0, 0x01, 4, 0, 0x50, 14, 0]

theorem twoJumps_loop : FirstReturn twoJumps 64 ⟨⟨14, [], []⟩, 0⟩ 1 5 ⟨20, [], []⟩ := by
  refine ⟨by decide, by decide +kernel, by decide +kernel,
    fun i j junction lt before sent also => ?_⟩
  have apart : ∀ j < 5, ∀ i < j,
      Position.target? twoJumps 64 ⟨⟨14, [], []⟩, 0⟩ i = Position.target? twoJumps 64
        ⟨⟨14, [], []⟩, 0⟩ j → Position.target? twoJumps 64 ⟨⟨14, [], []⟩, 0⟩ i = none := by
    decide +kernel
  cases (apart j before i lt (sent.trans also.symm)).symm.trans sent

theorem runPass_length_affine_twoJumps : ∃ sequence track,
    ofSource RefSeq.format () twoJumps = .ok sequence ∧ sequence.tracks[0]? = some track ∧
    track.opening.Endless twoJumps sequence.options.maxDepth ∧
    ∃ lead round, track.opening.Circles twoJumps sequence.options.maxDepth round ∧
      ∃ measured ended, (sequence.withLoopCount 3).runPass .length 0 = .ok measured ∧
        measured.tracks[0]? = some ended ∧ sequence.Unhindered 0 ended ∧
        ended.measuredTrips = 4 ∧ ended.measuredTicks = lead + 3 * round := by
  have opened : ofSource RefSeq.format () twoJumps = .ok _ := rfl
  have reachable := Reachable.opened opened
  have endless : Position.Endless twoJumps 64 ⟨⟨14, [], []⟩, 0⟩ :=
    Position.endless_of_repeat (show 0 < 4 by decide) rfl
      (show _ = some (⟨⟨14, [], []⟩, 8⟩ : Position) by decide +kernel) rfl
  obtain ⟨lead, round, circles, affine⟩ := runPass_length_affine reachable
    (show (tracks _)[0]? = some (Track.starting 0 14 0) from rfl) endless
  obtain ⟨measured, ended, run, found, same, measures⟩ := affine 3 0
  have opening : ended.opening = ⟨⟨14, [], []⟩, 0⟩ := opening_of_origin same
  have steps : ended.steps ≤ 5 + 3 * (5 - 1) + 1 :=
    runPass_length_steps_le (reachable.looped 3) run found (opening ▸ twoJumps_loop)
  have clock : Position.due twoJumps 64 ⟨⟨14, [], []⟩, 0⟩ 18 ≤ Tick.last := by decide +kernel
  refine ⟨_, _, opened, rfl, endless, lead, round, circles, measured, ended, run, found,
    ?unhindered, measures ?unhindered⟩
  refine ⟨Nat.lt_of_le_of_lt steps (by decide), .inl rfl, ?_⟩
  rw [opening]
  exact Nat.le_trans (Position.due_mono steps) clock

end Sequence
end Sequencer
