import Sequencer.Proofs.RefSeq.Control
import Sequencer.Stage

/-! A track that is played on its own, up to its end. Its visits are the beginning of its free
run, no step fails, and its guard has seen nothing that the free run has not come to. -/
namespace Sequencer

/-- The rule ends each track before its trips are more than can be counted. -/
def LoopRule.IsLimited (stopTime : Nat) : LoopRule → Prop
  | .once => True
  | .trips count => count < Tick.last
  | .progress => stopTime ≠ 0 ∧ stopTime ≤ Tick.last

/-- The trips of a track can be counted, either for its budget or for the rule of its loops. -/
def Limits.Countable (limits : Limits) (rule : LoopRule) : Prop :=
  limits.maxSteps ≤ Tick.last ∨ rule.IsLimited limits.stopTime

namespace Player

/-- The limits let the track decode another instruction. -/
structure MayStep (limits : Limits) (player : Player) : Prop where
  time : player.track.timeIsUp limits.stopTime = false
  steps : player.track.steps < limits.maxSteps

/-- The tick at which the track's instruction after `count` others is due. -/
def dueAfter (start : Player) (count : Nat) : Nat :=
  start.track.position.due start.setting.source start.setting.maxDepth count

/-- Tracks that keep time together wait for the clock that they share. It stops at its last
tick. -/
def Punctual (start : Player) (count : Nat) : Prop :=
  start.setting.tickSync = true → start.dueAfter count ≤ Tick.last

/-- What the track has decoded since `start`, and its player while the track goes on. Tracks
that keep time together move their dials between instructions, up to the next one. -/
inductive Runs (limits : Limits) (start : Player) : List Visit → Player → Prop
  | start : Runs limits start [] start
  | step {visits : List Visit} {player next : Player} (runs : Runs limits start visits player)
      (may : player.MayStep limits) (punctual : start.Punctual visits.length)
      (advanced : player.advance = .ok (true, next)) :
      Runs limits start (visits ++ [player.track.visit]) next
  | glide {visits : List Visit} {player : Player} (runs : Runs limits start visits player)
      (together : player.setting.tickSync = true) (tick : Nat)
      (early : tick ≤ player.track.time) : Runs limits start visits (player.moveDials tick)

/-- The track is stopped before its next instruction. -/
def IsStopped (limits : Limits) (start : Player) (visits : List Visit) (player : Player) : Prop :=
  ¬ player.MayStep limits ∨ ¬ start.Punctual visits.length

/-- What the track has decoded up to its end, and its player then. -/
inductive Ends (limits : Limits) (start : Player) : List Visit → Player → Prop
  | refused {visits : List Visit} {player next last : Player}
      (runs : Runs limits start visits player) (may : player.MayStep limits)
      (punctual : start.Punctual visits.length)
      (advanced : player.advance = .ok (false, next)) (finished : next.finish = .ok last) :
      Ends limits start (visits ++ [player.track.visit]) last
  | stopped {visits : List Visit} {player last : Player}
      (runs : Runs limits start visits player) (stopped : IsStopped limits start visits player)
      (finished : player.finish = .ok last) : Ends limits start visits last

structure Fresh (player : Player) : Prop where
  safe : player.Safe
  steps : player.track.steps = 0
  guard : player.track.guard = {}
  time : player.track.time = 0
  active : player.track.active = true

/-- A run up to some step, against the free run of its track. -/
structure Traces (start : Player) (visits : List Visit) (player : Player) : Prop where
  setting : player.setting = start.setting
  identity : player.track.identity = start.track.identity
  safe : player.Safe
  steps : player.track.steps = visits.length
  index : ∀ visit ∈ visits, visit.track = start.track.index
  reached : start.track.position.after start.setting.source start.setting.maxDepth visits.length =
    some player.track.position
  decoded : visits.map (fun visit => (visit.offset, visit.tick)) =
    start.track.position.freeRun start.setting.source start.setting.maxDepth visits.length
  guard : player.track.guard.Witnessed start.setting.source start.setting.maxDepth
    start.track.position visits.length
  clock : player.track.time ≤ Tick.last
  going : player.track.guard.Going start.setting.loopRule player.track.time

variable {limits : Limits} {start player next : Player} {visits : List Visit}

theorem index_of_identity (same : player.track.identity = start.track.identity) :
    player.track.index = start.track.index := by
  have indices := congrArg Track.index same
  exact indices

theorem active_of_identity (same : player.track.identity = start.track.identity) :
    player.track.active = start.track.active := by
  have flags := congrArg Track.active same
  exact flags

theorem Fresh.traces (fresh : start.Fresh) : start.Traces [] start where
  setting := rfl
  identity := rfl
  safe := fresh.safe
  steps := fresh.steps
  index := fun _ member => absurd member List.not_mem_nil
  reached := rfl
  decoded := rfl
  guard := by
    rw [fresh.guard]
    exact Guard.witnessed_initial
  clock := by
    rw [fresh.time]
    exact Nat.zero_le _
  going := by
    rw [fresh.guard]
    exact Guard.going_initial ..

theorem Traces.visited (traces : start.Traces visits player) :
    (visits ++ [player.track.visit]).map (fun visit => (visit.offset, visit.tick)) =
      start.track.position.freeRun start.setting.source start.setting.maxDepth
        (visits.length + 1) := by
  rw [Position.freeRun_succ traces.reached, List.map_append, traces.decoded]
  rfl

theorem Traces.visited_index (traces : start.Traces visits player) :
    ∀ visit ∈ visits ++ [player.track.visit], visit.track = start.track.index :=
  List.forall_mem_append.mpr ⟨traces.index,
    List.forall_mem_singleton.mpr (index_of_identity traces.identity)⟩

theorem Traces.further (traces : start.Traces visits player) :
    start.track.position.after start.setting.source start.setting.maxDepth (visits.length + 1) =
      player.departure.next? := by
  rw [Position.after_succ, traces.reached, departure, traces.setting]
  rfl

theorem Traces.step (traces : start.Traces visits player) (advances : player.Advances true next)
    (safe : next.Safe) : start.Traces (visits ++ [player.track.visit]) next := by
  have further := traces.further
  have course := advances.course
  generalize player.departure = departure at further course
  have lengthened : (visits ++ [player.track.visit]).length = visits.length + 1 := by simp
  obtain ⟨reached, guard, clock, going⟩ :
      start.track.position.after start.setting.source start.setting.maxDepth
        (visits.length + 1) = some next.track.position ∧
      next.track.guard.Witnessed start.setting.source start.setting.maxDepth
        start.track.position (visits.length + 1) ∧ next.track.time ≤ Tick.last ∧
      next.track.guard.Going start.setting.loopRule next.track.time := by
    cases course with
    | onward there guard =>
      have reached := further.trans (congrArg some there.symm)
      have goes := reached
      rw [Position.after_succ, traces.reached] at goes
      obtain ⟨le, clock⟩ := Position.next_tick traces.clock goes
      refine ⟨reached, ?_, clock, ?_⟩
      · rw [guard]
        exact traces.guard.mono (Nat.le_succ _)
      · rw [guard]
        exact traces.going.later le
    | @transfer target _ _ arrival now time there =>
      refine ⟨further.trans (congrArg some (there rfl).symm), ?_, time ▸ traces.clock, ?_⟩
      · rw [← now] at arrival
        exact traces.guard.arrive further arrival
      · rw [time]
        rw [traces.setting] at arrival
        exact traces.going.arrive arrival
  exact {
    setting := advances.setting.trans traces.setting
    identity := advances.identity.trans traces.identity
    safe
    steps := by rw [advances.steps, traces.steps, lengthened]
    index := traces.visited_index
    reached := by rw [lengthened]; exact reached
    decoded := by rw [lengthened]; exact traces.visited
    guard := by rw [lengthened]; exact guard
    clock
    going }

theorem Traces.retain (traces : start.Traces visits player) (sounds : player.Sounds id next) :
    start.Traces visits next where
  setting := sounds.retains.setting.trans traces.setting
  identity := (congrArg Track.identity sounds.retains.outline).trans traces.identity
  safe := sounds.safe
  steps := (congrArg Track.steps sounds.retains.outline).trans traces.steps
  index := traces.index
  reached := traces.reached.trans
    (congrArg some (congrArg Track.position sounds.retains.outline).symm)
  decoded := traces.decoded
  guard := by
    have same := congrArg Track.guard sounds.retains.outline
    change next.track.guard = player.track.guard at same
    rw [same]
    exact traces.guard
  clock := by
    rw [sounds.retains.time]
    exact traces.clock
  going := by
    have same := congrArg Track.guard sounds.retains.outline
    change next.track.guard = player.track.guard at same
    rw [same, sounds.retains.time]
    exact traces.going

theorem MayStep.early (may : player.MayStep limits) (limited : limits.stopTime ≠ 0) :
    player.track.time < limits.stopTime := by
  have time := may.time
  simp only [Track.timeIsUp, Bool.and_eq_false_iff, decide_eq_false_iff_not] at time
  exact Nat.not_le.mp (time.resolve_left fun unlimited => unlimited limited)

theorem Traces.counts (traces : start.Traces visits player)
    (countable : limits.Countable start.setting.loopRule) (may : player.MayStep limits) :
    player.track.guard.trips < Tick.last := by
  rcases countable with budget | limited
  · have trips := traces.guard.trips
    have steps := may.steps
    rw [traces.steps] at steps
    omega
  · have going := traces.going
    cases rule : start.setting.loopRule with
    | once =>
      rw [rule] at going
      change player.track.guard.trips = 0 at going
      rw [going]
      decide
    | trips count =>
      rw [rule] at going limited
      exact Nat.lt_of_le_of_lt going limited
    | progress =>
      rw [rule] at going limited
      obtain ⟨ends, within⟩ := limited
      have early := may.early ends
      have trips : player.track.guard.trips ≤ player.track.time := Nat.le_trans going.1 going.2
      omega

theorem Traces.advance_yields (traces : start.Traces visits player)
    (countable : limits.Countable start.setting.loopRule) (may : player.MayStep limits) :
    player.advance.Yields fun (more, next) => player.Advances more next ∧ next.Safe :=
  traces.safe.advance_yields (traces.counts countable may)

theorem Runs.traces (fresh : start.Fresh) (countable : limits.Countable start.setting.loopRule)
    (runs : Runs limits start visits player) : start.Traces visits player := by
  induction runs with
  | start => exact fresh.traces
  | step runs may punctual advanced ih =>
    obtain ⟨⟨more, next⟩, done, advances, safe⟩ := ih.advance_yields countable may
    cases done.symm.trans advanced
    exact ih.step advances safe
  | glide runs together tick early ih => exact ih.retain (ih.safe.moveDials_sounds tick)

theorem Traces.time (traces : start.Traces visits player) (fresh : start.Fresh) :
    player.track.time = min (start.dueAfter visits.length) Tick.last := by
  refine Position.tick_eq_due ?_ traces.reached
  change start.track.time ≤ Tick.last
  rw [fresh.time]
  exact Nat.zero_le _

/-- How a track that follows a free run comes to its end, after `trips` trips around a cycle:
`count` instructions are decoded then, and the clock shows `total`. -/
inductive Ending (limits : Limits) (rule : LoopRule) (together : Bool) (source : Source)
    (depth : Nat) (start : Position) (trips : Nat) : (count total : Nat) → Prop
  | finished {count : Nat} {position : Position}
      (reached : start.after source depth count = some position)
      (final : position.next? source depth = none) (within : count < limits.maxSteps) :
      Ending limits rule together source depth start trips (count + 1) position.tick
  /-- The guard does not let the track go round a cycle. -/
  | cut {count : Nat} {target : Position}
      (further : start.after source depth (count + 1) = some target)
      (within : count < limits.maxSteps) (counted : 0 < trips)
      (again : ∃ tick, Guard.Seen source depth start count target.junction tick)
      (stale : rule = .progress →
        Guard.Seen source depth start count target.junction target.tick) :
      Ending limits rule together source depth start trips (count + 1) target.tick
  | stopped {count : Nat} {position : Position}
      (reached : start.after source depth count = some position)
      (within : count ≤ limits.maxSteps)
      (why : limits.maxSteps ≤ count ∨
        limits.stopTime ≠ 0 ∧ limits.stopTime ≤ position.tick ∨
        together = true ∧ Tick.last < start.due source depth count) :
      Ending limits rule together source depth start trips count position.tick

/-- The first `count` instructions of the free run come before the time is up. -/
def Early (limits : Limits) (start : Player) (count : Nat) : Prop :=
  ∀ n < count, ∀ position, start.track.position.after start.setting.source
    start.setting.maxDepth n = some position → limits.stopTime ≠ 0 →
      position.tick < limits.stopTime

/-- What an ended track says of its run. -/
structure Closes (limits : Limits) (start : Player) (visits : List Visit) (last : Player) :
    Prop where
  setting : last.setting = start.setting
  identity : last.track.identity =
    { start.track.identity with active := false, totalTicks := last.track.totalTicks }
  safe : last.Safe
  steps : last.track.steps = visits.length
  index : ∀ visit ∈ visits, visit.track = start.track.index
  decoded : visits.map (fun visit => (visit.offset, visit.tick)) =
    start.track.position.freeRun start.setting.source start.setting.maxDepth visits.length
  trips : last.track.guard.trips ≤ visits.length
  endless : 0 < last.track.guard.trips →
    start.track.position.Endless start.setting.source start.setting.maxDepth
  early : Early limits start visits.length
  ending : Ending limits start.setting.loopRule start.setting.tickSync start.setting.source
    start.setting.maxDepth start.track.position last.track.guard.trips visits.length
    last.track.totalTicks

theorem Traces.early_further (traces : start.Traces visits player) (may : player.MayStep limits)
    (early : Early limits start visits.length) : Early limits start (visits.length + 1) := by
  intro n lt position reached limited
  rcases Nat.lt_or_eq_of_le (Nat.le_of_lt_succ lt) with lt | rfl
  · exact early n lt position reached limited
  · cases reached.symm.trans traces.reached
    exact may.early limited

/-- No instruction is decoded once the time is up or the budget is spent. -/
theorem Runs.within (fresh : start.Fresh) (countable : limits.Countable start.setting.loopRule)
    (runs : Runs limits start visits player) :
    visits.length ≤ limits.maxSteps ∧ Early limits start visits.length := by
  induction runs with
  | start => exact ⟨Nat.zero_le _, fun _ lt => absurd lt (Nat.not_lt_zero _)⟩
  | @step visits player _ runs may punctual advanced ih =>
    have traces := runs.traces fresh countable
    have steps := may.steps
    rw [traces.steps] at steps
    have lengthened : (visits ++ [player.track.visit]).length = visits.length + 1 := by simp
    rw [lengthened]
    exact ⟨steps, traces.early_further may ih.2⟩
  | glide runs together tick early ih => exact ih

theorem Runs.early (runs : Runs limits start visits player) :
    ∀ visit ∈ visits, limits.stopTime ≠ 0 → visit.tick < limits.stopTime := by
  induction runs with
  | start => exact fun _ member => absurd member List.not_mem_nil
  | step runs may punctual advanced ih =>
    exact List.forall_mem_append.mpr ⟨ih, List.forall_mem_singleton.mpr may.early⟩
  | glide runs together tick early ih => exact ih

theorem Ends.early {last : Player} (ends : Ends limits start visits last) :
    ∀ visit ∈ visits, limits.stopTime ≠ 0 → visit.tick < limits.stopTime := by
  cases ends with
  | refused runs may punctual advanced finished =>
    exact List.forall_mem_append.mpr ⟨runs.early, List.forall_mem_singleton.mpr may.early⟩
  | stopped runs stopped finished => exact runs.early

theorem punctual_further {visit : Visit} (punctual : ∀ n < visits.length, start.Punctual n)
    (now : start.Punctual visits.length) : ∀ n < (visits ++ [visit]).length, start.Punctual n := by
  intro n lt
  rw [List.length_append, List.length_singleton] at lt
  rcases Nat.lt_or_eq_of_le (Nat.le_of_lt_succ lt) with lt | rfl
  · exact punctual n lt
  · exact now

theorem Runs.punctual (runs : Runs limits start visits player) :
    ∀ n < visits.length, start.Punctual n := by
  induction runs with
  | start => exact fun _ lt => absurd lt (Nat.not_lt_zero _)
  | step runs may punctual advanced ih => exact punctual_further ih punctual
  | glide runs together tick early ih => exact ih

/-- Every instruction is decoded when it is due. -/
theorem Ends.punctual {last : Player} (ends : Ends limits start visits last) :
    ∀ n < visits.length, start.Punctual n := by
  cases ends with
  | refused runs may punctual advanced finished => exact punctual_further runs.punctual punctual
  | stopped runs stopped finished => exact runs.punctual

/-- What finishing leaves of a track. -/
structure Finished (player last : Player) : Prop where
  setting : last.setting = player.setting
  identity : last.track.identity =
    { player.track.identity with active := false, totalTicks := player.track.time }
  steps : last.track.steps = player.track.steps
  guard : last.track.guard = player.track.guard
  total : last.track.totalTicks = player.track.time
  safe : last.Safe

theorem Safe.finished {last : Player} (safe : player.Safe)
    (finished : player.finish = .ok last) : player.Finished last := by
  obtain ⟨done, same, setting, outline, _, _, _, kept⟩ := safe.finish_yields
  cases same.symm.trans finished
  have identity := congrArg Track.identity outline
  have steps := congrArg Track.steps outline
  have guard := congrArg Track.guard outline
  have total := congrArg Track.totalTicks outline
  exact ⟨setting, identity, steps, guard, total, kept⟩

theorem Traces.stop {last : Player} (traces : start.Traces visits player)
    (short : visits.length ≤ limits.maxSteps)
    (early : Early limits start visits.length) (stopped : IsStopped limits start visits player)
    (finished : player.finish = .ok last) :
    Closes limits start visits last := by
  have finished := traces.safe.finished finished
  exact {
    setting := finished.setting.trans traces.setting
    identity := by rw [finished.total, ← traces.identity, finished.identity]
    safe := finished.safe
    steps := finished.steps.trans traces.steps
    index := traces.index
    decoded := traces.decoded
    trips := by rw [finished.guard]; exact traces.guard.trips
    endless := by rw [finished.guard]; exact traces.guard.endless
    early
    ending := by
      rw [finished.total]
      refine .stopped traces.reached short ?_
      rcases stopped with cannot | late
      · by_cases budget : limits.maxSteps ≤ visits.length
        · exact .inl budget
        · refine .inr (.inl ?_)
          rw [← traces.steps] at budget
          cases up : player.track.timeIsUp limits.stopTime with
          | false => exact absurd ⟨up, Nat.not_le.mp budget⟩ cannot
          | true =>
            simp only [Track.timeIsUp, Bool.and_eq_true, decide_eq_true_eq] at up
            exact up
      · obtain ⟨together, late⟩ := Classical.not_imp.mp late
        exact .inr (.inr ⟨together, Nat.not_le.mp late⟩) }

/-- A step that does not go on is the end of the free run, or a trip that the guard refuses. -/
theorem Traces.ending (traces : start.Traces visits player)
    (within : start.track.time ≤ Tick.last) (budget : visits.length < limits.maxSteps)
    (advances : player.Advances false next) :
    next.track.guard.Witnessed start.setting.source start.setting.maxDepth start.track.position
      (visits.length + 1) ∧
    Ending limits start.setting.loopRule start.setting.tickSync start.setting.source
      start.setting.maxDepth start.track.position next.track.guard.trips (visits.length + 1)
      next.track.time := by
  have further := traces.further
  have course := advances.course
  cases departs : player.departure with
  | stop =>
    rw [departs] at course further
    cases course with
    | stop time guard =>
      rw [guard, time]
      refine ⟨traces.guard.mono (Nat.le_succ _), .finished traces.reached ?_ budget⟩
      rw [Position.after_succ, traces.reached] at further
      exact further
  | onward target =>
    rw [departs] at course
    cases course
  | transfer target =>
    rw [departs] at course further
    cases course with
    | transfer arrival now time there =>
      rw [← now] at arrival
      obtain ⟨counted, again⟩ := traces.guard.known_of_refused arrival rfl
      refine ⟨traces.guard.arrive further arrival, ?_⟩
      rw [time, ← now]
      refine .cut further budget counted again ?_
      intro progress
      rw [traces.setting, progress] at arrival
      exact traces.guard.seen_of_refused within further arrival rfl

theorem Traces.refuse {last : Player} (traces : start.Traces visits player)
    (within : start.track.time ≤ Tick.last) (may : player.MayStep limits)
    (early : Early limits start visits.length)
    (advances : player.Advances false next) (safe : next.Safe)
    (finished : next.finish = .ok last) :
    Closes limits start (visits ++ [player.track.visit]) last := by
  have finished := safe.finished finished
  have lengthened : (visits ++ [player.track.visit]).length = visits.length + 1 := by simp
  have guarded := traces.ending within (traces.steps ▸ may.steps) advances
  exact {
    setting := finished.setting.trans (advances.setting.trans traces.setting)
    identity := by
      rw [finished.total, ← traces.identity, ← advances.identity, finished.identity]
    safe := finished.safe
    steps := by rw [finished.steps, advances.steps, traces.steps, lengthened]
    index := traces.visited_index
    decoded := by rw [lengthened]; exact traces.visited
    trips := by rw [finished.guard, lengthened]; exact guarded.1.trips
    endless := by rw [finished.guard]; exact guarded.1.endless
    early := by rw [lengthened]; exact traces.early_further may early
    ending := by rw [finished.guard, finished.total, lengthened]; exact guarded.2 }

theorem Ends.closes {last : Player} (fresh : start.Fresh)
    (countable : limits.Countable start.setting.loopRule)
    (ends : Ends limits start visits last) : Closes limits start visits last := by
  cases ends with
  | @refused _ player next _ runs may punctual advanced finished =>
    have traces := runs.traces fresh countable
    obtain ⟨⟨more, next⟩, done, advances, safe⟩ := traces.advance_yields countable may
    cases done.symm.trans advanced
    refine traces.refuse ?_ may (runs.within fresh countable).2 advances safe finished
    rw [fresh.time]
    exact Nat.zero_le _
  | stopped runs stopped finished =>
    obtain ⟨short, early⟩ := runs.within fresh countable
    exact (runs.traces fresh countable).stop short early stopped finished

end Player
end Sequencer
