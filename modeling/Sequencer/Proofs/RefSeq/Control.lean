import Sequencer.Proofs.Arena
import Sequencer.Proofs.Due
import Sequencer.Proofs.Guard
import Sequencer.Proofs.Player.Perform
import Sequencer.Proofs.RefSeq.Advance

/-! Where one step of a RefSeq track leads. The track departs as its free run does, unless the
loop guard refuses a transfer; one event at most is entered in the timeline, at the tick of
the step; and the step does not fail. -/
namespace Sequencer

def Track.position (track : Track) : Position :=
  ⟨track.cursor.junction track.cursor.offset, track.time⟩

/-- What a step leaves alone of a track. -/
def Track.identity (track : Track) : Track :=
  { index := track.index, startOffset := track.startOffset, startChannel := track.startChannel
    channel := track.channel, cursor := ⟨0, 0, [], []⟩, active := track.active
    totalTicks := track.totalTicks, measuredTrips := track.measuredTrips
    measuredTicks := track.measuredTicks }

/-- The kind that an instruction is recorded as. Only a cut leaves no record. -/
def RefSeq.Instruction.recorded? (track : Track) : RefSeq.Instruction → Option EventKind
  | .unknown opcode => some (.unknown ("opcode " ++ Number.hex 2 opcode.toNat))
  | instruction => instruction.kind? track

/-- What the tracks share after an event was entered. -/
def Shared.enter (shared : Shared) (tick : Nat) (event : Event) : Shared :=
  { shared with
    arena := shared.arena.store event
    timeline := shared.timeline.add ⟨tick, event.kind.duration, shared.arena.storedId event⟩ }

def Turn.delayed (delay : Nat) : Turn → Turn
  | .onward cursor => .onward { cursor with delay }
  | .transfer cursor destination => .transfer { cursor with delay } destination
  | .halt => .halt

theorem Cursor.turn_delay (depth delay : Nat) (cursor : Cursor) (kind : EventKind) :
    Cursor.turn depth { cursor with delay } kind = (cursor.turn depth kind).delayed delay := by
  obtain ⟨offset, _, calls, loops⟩ := cursor
  cases kind with
  | call destination returnTo =>
    simp only [Cursor.turn]
    split <;> rfl
  | ret => cases calls <;> rfl
  | loopStart count =>
    simp only [Cursor.turn]
    split <;> rfl
  | loopEnd =>
    cases loops with
    | nil => rfl
    | cons frame outer =>
      obtain ⟨start, remaining⟩ := frame
      match remaining with
      | 0 => rfl
      | 1 => rfl
      | remaining + 2 => rfl
  | _ => rfl

namespace Player

/-- The event that the next step enters. -/
def recording? (player : Player) : Option Event :=
  match player.reads with
  | (.error _, _) => none
  | (.ok instruction, stop) => (instruction.recorded? player.track).map fun kind =>
    ⟨kind, player.track.index, player.track.cursor.offset, stop - player.track.cursor.offset⟩

/-- What the tracks share once the next step has entered its event. -/
def entered (player : Player) : Shared :=
  player.recording?.elim player.shared (player.shared.enter player.track.time)

/-- The course that a track takes when it departs in the given way. -/
inductive Course (player : Player) : Departure → Bool → Track → Prop
  | stop {track : Track} (time : track.time = player.track.time)
      (guard : track.guard = player.track.guard) : Course player .stop false track
  | onward {target : Position} {track : Track} (there : track.position = target)
      (guard : track.guard = player.track.guard) : Course player (.onward target) true track
  | transfer {target : Position} {allowed : Bool} {track : Track}
      (arrival : Guard.Arrival player.setting.loopRule target.junction player.track.time
        player.track.guard allowed track.guard)
      (now : target.tick = player.track.time) (time : track.time = player.track.time)
      (there : allowed = true → track.position = target) :
      Course player (.transfer target) allowed track

/-- How the track departs from its instruction in its free run. -/
def departure (player : Player) : Departure :=
  player.track.position.depart player.setting.source player.setting.maxDepth

structure Advances (player : Player) (more : Bool) (next : Player) : Prop where
  setting : next.setting = player.setting
  identity : next.track.identity = player.track.identity
  steps : next.track.steps = player.track.steps + 1
  course : player.Course player.departure more next.track
  arena : next.shared.arena = player.entered.arena
  skeleton : next.shared.timeline.skeleton = player.entered.timeline.skeleton
  delay : next.track.cursor.delay = RefSeq.tickAfter player.setting.source
    player.track.cursor.offset player.track.cursor.delay

variable {player next : Player}

theorem entered_of_recording {event : Event} (recording : player.recording? = some event) :
    player.entered = player.shared.enter player.track.time event := by
  rw [entered, recording]
  rfl

theorem recording_of_read {instruction : RefSeq.Instruction} {stop : Nat} {kind : EventKind}
    (read : player.reads = (.ok instruction, stop))
    (recorded : instruction.recorded? player.track = some kind) : player.recording? = some
      ⟨kind, player.track.index, player.track.cursor.offset,
        stop - player.track.cursor.offset⟩ := by
  rw [recording?, read]
  simp only [recorded, Option.map_some]

/-- The player that has noted an instruction shares what the step has entered. -/
theorem noted_shared {instruction : RefSeq.Instruction} {stop : Nat} {kind : EventKind}
    (read : player.reads = (.ok instruction, stop))
    (recorded : instruction.recorded? player.track = some kind) :
    (player.noted stop kind).shared = player.entered := by
  rw [entered_of_recording (recording_of_read read recorded)]
  rfl

theorem Safe.readTo (safe : player.Safe) (stop : Nat) : (player.readTo stop).Safe :=
  ⟨safe.timed, safe.opened⟩

theorem Safe.noted (safe : player.Safe) (stop : Nat) (kind : EventKind) :
    (player.noted stop kind).Safe := by
  have grown : player.shared.timeline.size ≤ (player.noted stop kind).shared.timeline.size := by
    change player.shared.timeline.entries.size ≤ (player.shared.timeline.entries.push _).size
    simp
  constructor
  · intro note member
    have within := safe.timed note member
    exact ⟨fun index known => Nat.lt_of_lt_of_le (within.entry index known) grown,
      within.noteOff⟩
  · intro note member index known
    exact Nat.lt_of_lt_of_le (safe.opened note member index known) grown

theorem noted_entry (player : Player) (stop : Nat) (kind : EventKind) :
    ∀ index ∈ some player.shared.timeline.nextIndex,
      index < (player.noted stop kind).shared.timeline.size := by
  intro index known
  cases known
  change player.shared.timeline.entries.size < (player.shared.timeline.entries.push _).size
  simp

/-- A step whose sound is all that changes after the instruction was read goes onward. -/
theorem Retains.advances {reading : Player} {passed : Nat → Nat} {stop : Nat}
    (retains : reading.Retains passed next)
    (setting : reading.setting = player.setting)
    (track : reading.track = (player.readTo stop).track)
    (arena : reading.shared.arena = player.entered.arena)
    (skeleton : reading.shared.timeline.skeleton = player.entered.timeline.skeleton)
    (departs : player.departure = .ofTurn (passed player.track.time)
      (.onward (player.track.position.junction.readTo stop)))
    (waits : passed = RefSeq.tickAfter player.setting.source player.track.cursor.offset) :
    player.Advances true next where
  setting := retains.setting.trans setting
  identity := by
    have same := congrArg Track.identity retains.outline
    rw [track] at same
    exact same
  steps := by
    have same := congrArg Track.steps retains.outline
    rw [track] at same
    exact same
  course := by
    have same := congrArg Track.position retains.outline
    have guard := retains.guard
    rw [track] at same guard
    rw [departs]
    exact .onward same guard
  arena := retains.arena.trans arena
  skeleton := retains.skeleton.trans skeleton
  delay := by
    rw [retains.delay, track, waits]
    rfl

/-- What comes of a turn. -/
inductive Takes (player : Player) : Turn → Bool → Player → Prop
  | halt : Takes player .halt false player
  | onward {cursor : Cursor} :
      Takes player (.onward cursor) true (player.withTrack { player.track with cursor })
  | transfer {cursor : Cursor} {destination : Nat} {allowed : Bool} {guard : Guard}
      (arrival : Guard.Arrival player.setting.loopRule (cursor.junction destination)
        player.track.time player.track.guard allowed guard) :
      Takes player (.transfer cursor destination) allowed (player.withTrack { player.track with
        cursor := if allowed then { cursor with offset := destination } else cursor, guard })

theorem take_yields (counts : player.track.guard.trips < Tick.last) (turn : Turn) :
    (player.take turn).Yields fun (more, next) => player.Takes turn more next := by
  cases turn with
  | halt => exact Except.yields_ok .halt
  | onward cursor => exact Except.yields_ok .onward
  | transfer cursor destination =>
    refine (Guard.arrive_yields counts).bind ?_
    rintro ⟨allowed, guard⟩ arrival
    exact Except.yields_ok (.transfer arrival)

theorem ofTurn_delay (tick depth delay : Nat) (cursor : Cursor) (kind : EventKind) :
    Departure.ofTurn tick (Cursor.turn depth { cursor with delay } kind) =
      Departure.ofTurn tick (cursor.turn depth kind) := by
  rw [Cursor.turn_delay]
  cases cursor.turn depth kind <;> rfl

theorem tickAfter_of_isControlFlow {kind : EventKind} (directs : kind.isControlFlow = true)
    (tick : Nat) : kind.tickAfter tick = tick := by
  cases kind with
  | rest | hold => cases directs
  | _ => rfl

theorem turn_of_plain {kind : EventKind} (plain : kind.isControlFlow = false) (depth : Nat)
    (cursor : Cursor) : cursor.turn depth kind = .onward cursor := by
  cases kind with
  | jump | call | ret | loopStart | loopEnd | loopForever | trackEnd => cases plain
  | _ => rfl

theorem Cursor.turn_keeps_delay (depth : Nat) (cursor : Cursor) (kind : EventKind) :
    cursor.turn depth kind = (cursor.turn depth kind).delayed cursor.delay :=
  Cursor.turn_delay depth cursor.delay cursor kind

theorem Takes.course {reading : Player} {turn : Turn} {more : Bool}
    (takes : reading.Takes turn more next) (setting : reading.setting = player.setting)
    (time : reading.track.time = player.track.time)
    (guard : reading.track.guard = player.track.guard) :
    player.Course (.ofTurn player.track.time turn) more next.track := by
  cases takes with
  | halt => exact .stop time guard
  | @onward cursor =>
    refine .onward ?_ guard
    change (⟨cursor.junction cursor.offset, reading.track.time⟩ : Position) = _
    rw [time]
  | transfer arrival =>
    rw [setting, time, guard] at arrival
    refine .transfer arrival rfl time ?_
    rintro rfl
    change (⟨_, reading.track.time⟩ : Position) = _
    rw [time]
    rfl

theorem Takes.delay {turn : Turn} {more : Bool} (takes : player.Takes turn more next)
    (waits : turn = turn.delayed player.track.cursor.delay) :
    next.track.cursor.delay = player.track.cursor.delay := by
  cases takes with
  | halt => rfl
  | onward =>
    have delay := congrArg Cursor.delay (Turn.onward.inj waits)
    exact delay
  | transfer arrival =>
    have delay := congrArg Cursor.delay (Turn.transfer.inj waits).1
    cases more <;> exact delay

theorem Takes.advances {reading : Player} {turn : Turn} {more : Bool}
    (takes : reading.Takes turn more next) (waits : turn = turn.delayed reading.track.cursor.delay)
    (delay : reading.track.cursor.delay = RefSeq.tickAfter player.setting.source
      player.track.cursor.offset player.track.cursor.delay)
    (setting : reading.setting = player.setting)
    (identity : reading.track.identity = player.track.identity)
    (steps : reading.track.steps = player.track.steps + 1)
    (time : reading.track.time = player.track.time)
    (guard : reading.track.guard = player.track.guard)
    (shared : reading.shared = player.entered)
    (departs : player.departure = .ofTurn player.track.time turn) :
    player.Advances more next := by
  have course := takes.course setting time guard
  rw [← departs] at course
  have arena := congrArg Shared.arena shared
  have skeleton := congrArg (fun shared : Shared => shared.timeline.skeleton) shared
  have delay := (takes.delay waits).trans delay
  cases takes <;> exact ⟨setting, identity, steps, course, arena, skeleton, delay⟩

theorem Takes.safe {turn : Turn} {more : Bool} (takes : player.Takes turn more next)
    (safe : player.Safe) : next.Safe := by
  cases takes <;> exact ⟨safe.timed, safe.opened⟩

/-- How an instruction that is performed as an event passes the time. -/
theorem tickAfter_of_read {instruction : RefSeq.Instruction} {stop : Nat} {kind : EventKind}
    (read : player.reads = (.ok instruction, stop))
    (known : instruction.kind? player.track = some kind) :
    RefSeq.tickAfter player.setting.source player.track.cursor.offset = kind.tickAfter := by
  funext tick
  unfold RefSeq.tickAfter
  rw [show RefSeq.instruction player.setting.source player.track.cursor.offset = _ from read]
  cases instruction <;> cases known <;> rfl

theorem tickAfter_of_silent {result : Except ReadError RefSeq.Instruction} {stop : Nat}
    (read : player.reads = (result, stop)) (silent : ∀ kind, result ≠ .ok (.event kind))
    (tick : Nat) :
    RefSeq.tickAfter player.setting.source player.track.cursor.offset tick = tick := by
  unfold RefSeq.tickAfter
  rw [show RefSeq.instruction player.setting.source player.track.cursor.offset = _ from read]
  split
  · rename_i same
    exact absurd (congrArg Prod.fst same) (silent _)
  · rfl

theorem Safe.event_yields (safe : player.Safe) (counts : player.track.guard.trips < Tick.last)
    {instruction : RefSeq.Instruction} {stop : Nat} {kind : EventKind}
    (read : player.reads = (.ok instruction, stop))
    (known : instruction.kind? player.track = some kind)
    (departs : player.departure = .ofTurn (kind.tickAfter player.track.time)
      ((player.track.position.junction.readTo stop).turn player.setting.maxDepth kind)) :
    ((player.noted stop kind).perform kind (some player.shared.timeline.nextIndex)).Yields
      fun (more, next) => player.Advances more next ∧ next.Safe := by
  have recorded : instruction.recorded? player.track = some kind := by
    cases instruction <;> first | exact known | cases known
  have shared := noted_shared read recorded
  have noted := safe.noted stop kind
  have waits := tickAfter_of_read read known
  cases directs : kind.isControlFlow with
  | true =>
    rw [tickAfter_of_isControlFlow directs] at departs
    rw [perform_of_isControlFlow directs]
    have taken := take_yields (show (player.noted stop kind).track.guard.trips < Tick.last from
      counts) ((player.noted stop kind).track.cursor.turn player.setting.maxDepth kind)
    apply taken.mono
    rintro ⟨more, next⟩ takes
    refine ⟨takes.advances (Cursor.turn_keeps_delay ..) ?_ rfl rfl rfl rfl rfl shared ?_,
      takes.safe noted⟩
    · rw [waits]
      exact (tickAfter_of_isControlFlow directs _).symm
    · rw [departs]
      exact (ofTurn_delay _ _ _ _ _).symm
  | false =>
    refine (noted.perform_sounds directs (noted_entry player stop kind)).mono ?_
    rintro ⟨more, next⟩ ⟨rfl, retains, kept⟩
    refine ⟨retains.advances rfl rfl (by rw [shared]) (by rw [shared]) ?_ waits.symm, kept⟩
    rw [departs, turn_of_plain directs]

/-- A step succeeds, and takes the course that the free run departs on. -/
theorem Safe.advance_yields (safe : player.Safe)
    (counts : player.track.guard.trips < Tick.last) :
    player.advance.Yields fun (more, next) => player.Advances more next ∧ next.Safe := by
  have event {instruction : RefSeq.Instruction} {stop : Nat} {kind : EventKind}
      (read : player.reads = (.ok instruction, stop))
      (known : instruction.kind? player.track = some kind)
      (departs : player.departure = .ofTurn (kind.tickAfter player.track.time)
        ((player.track.position.junction.readTo stop).turn player.setting.maxDepth kind)) :
      player.advance.Yields fun (more, next) => player.Advances more next ∧ next.Safe := by
    obtain ⟨⟨more, next⟩, performed, holds⟩ := safe.event_yields counts read known departs
    exact ⟨_, advance_iff.mpr (.event read known performed), holds⟩
  have departs : player.departure = player.track.position.depart player.setting.source
    player.setting.maxDepth := rfl
  unfold Position.depart at departs
  cases read : player.reads with
  | mk result stop =>
    rw [show RefSeq.instruction player.setting.source player.track.position.junction.destination =
      (result, stop) from read] at departs
    cases result with
    | error error =>
      have entered : player.entered = player.shared := by
        rw [entered, recording?, read]
        rfl
      refine ⟨_, advance_iff.mpr (.unreadable read), ⟨rfl, rfl, rfl, ?_, ?_, ?_,
          by rw [tickAfter_of_silent read (by simp)]; rfl⟩,
        safe.readTo stop⟩
      · rw [departs]
        exact .stop rfl rfl
      · rw [entered]
        rfl
      · rw [entered]
        rfl
    | ok instruction =>
      cases instruction with
      | event kind => exact event read rfl departs
      | octaveNote semitone velocity duration => exact event read rfl departs
      | cut =>
        have entered : player.entered = player.shared := by
          rw [entered, recording?, read]
          rfl
        obtain ⟨next, limited, rescores, kept⟩ :=
          limitNotes_safe (safe.readTo stop) player.track.time
        refine ⟨_, advance_iff.mpr (.cut read limited), ?_, kept⟩
        exact rescores.retains.advances rfl rfl (by rw [entered]; rfl) (by rw [entered]; rfl) departs
          (funext (tickAfter_of_silent read (by simp))).symm
      | unknown opcode =>
        have recorded : (RefSeq.Instruction.unknown opcode).recorded? player.track =
          some (.unknown ("opcode " ++ Number.hex 2 opcode.toNat)) := rfl
        have shared := noted_shared read recorded
        refine ⟨_, advance_iff.mpr (.unknown read), ⟨rfl, rfl, rfl, ?_, ?_, ?_,
          by rw [tickAfter_of_silent read (by simp)]; rfl⟩,
          safe.noted stop _⟩
        · rw [departs]
          exact .stop rfl rfl
        · rw [shared]
        · rw [shared]

end Player
end Sequencer
