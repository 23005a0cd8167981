import Sequencer.Proofs.Schedule
import Sequencer.Proofs.Settled

/-! A pass over a RefSeq sequence. It does not fail, whatever the bytes are, and each track does in
it what it does on its own. -/
namespace Sequencer

open RefSeq (format)

namespace Sequence

variable {σ : Type}

/-- The sequence with its tracks playing together, or one after another. -/
def withTickSync (sequence : Sequence σ) (tickSync : Bool) : Sequence σ :=
  { sequence with header := { sequence.header with tickSync } }

/-- The sequence after a pass that has found the transposes. -/
def conclude (sequence : Sequence σ) (pass : Pass) (stage : Stage σ) (transposes : Transposes) :
    Sequence σ :=
  let stage :=
    { stage with shared := { stage.shared with timeline := stage.shared.timeline.settle } }
  let sequence := { sequence with transposes := some transposes, lastPass := some pass }
  match pass with
  | .listing => { sequence with stage }
  | .length =>
    { sequence with
      stage := measure stage
      length := ((measure stage).tracks.map Track.totalTicks).foldl max 0 }
  | .midi =>
    { sequence with
      stage := withoutMidi stage
      midi := some (midiOutput sequence.header transposes stage) }

theorem closePass_eq (sequence : Sequence σ) (pass : Pass) (stage : Stage σ) :
    sequence.closePass pass stage =
      (Transposes.ofTimeline stage.shared.timeline.settle stage.shared.arena).map
        (sequence.conclude pass stage) := by
  unfold closePass
  dsimp only
  cases Transposes.ofTimeline stage.shared.timeline.settle stage.shared.arena with
  | error fault => rfl
  | ok transposes => cases pass <;> rfl

/-- The players of the tracks at the start of a pass, each with an event store of its own. -/
def starts (sequence : Sequence σ) (pass : Pass) : List Player :=
  (sequence.openStage pass).tracks.map fun track =>
    ⟨sequence.setting pass, track, { (sequence.openStage pass).shared with arena := {} }⟩

/-- The messages of the conductor at the start of a pass. -/
def opening (sequence : Sequence σ) (pass : Pass) : List MidiEvent :=
  (sequence.openStage pass).shared.conductor.events.toList

def limits (sequence : Sequence σ) (stopTime : Nat) : Limits :=
  ⟨sequence.options.maxSteps, stopTime⟩

theorem logged_openStage (sequence : Sequence σ) (pass : Pass) :
    sequence.logged.openStage pass = (sequence.openStage pass).logged [] := by
  unfold openStage
  change (if (pass = .midi && sequence.options.initialState) = true then _ else _) = _
  dsimp only
  split <;> rfl

end Sequence

/-- What a pass keeps of a track that has ended. -/
def Track.conclude (pass : Pass) (track : Track) : Track :=
  match pass with
  | .listing => track
  | .length =>
    { track with measuredTrips := track.guard.trips, measuredTicks := track.totalTicks }
  | .midi => { track with midi := {} }

structure Track.Opening (track : Track) : Prop where
  cursor : track.cursor = ⟨track.startOffset, 0, [], []⟩
  time : track.time = 0
  steps : track.steps = 0
  guard : track.guard = {}
  active : track.active = true
  timedNotes : track.timedNotes = []
  openNotes : track.openNotes = []
  dials : track.dials.Still

namespace Sequence

/-- What is fixed about the tracks of a sequence. -/
def origin (track : Track) : Nat × Nat × UInt8 :=
  (track.index, track.startOffset, track.startChannel)

/-- What passes leave alone of a sequence that plays a RefSeq file. -/
structure Whole (source : Source) (sequence : Sequence Unit) : Prop where
  format : sequence.format = RefSeq.format
  reads : sequence.source = source
  ascending : sequence.tracks.Pairwise fun first second => first.index < second.index
  sound : sequence.arena.Sound
  faithful : sequence.arena.Faithful source

/-- The budget of the tracks is a number of 32 bits. -/
structure Intact (source : Source) (sequence : Sequence Unit) : Prop extends
    Whole source sequence where
  bounded : sequence.options.maxSteps ≤ Tick.last

/-- A pass and what it has come to. -/
structure Passes (sequence : Sequence Unit) (pass : Pass) (stopTime : Nat)
    (stage : Stage (Unit × List Visit)) (transposes : Transposes) : Prop where
  run : sequence.runPass pass stopTime =
    .ok (sequence.conclude pass stage.unlogged transposes)
  visits : sequence.visits pass stopTime = .ok stage.memory.2
  played : stage.Played (sequence.setting pass) (sequence.openStage pass).shared
    (sequence.limits stopTime) (sequence.starts pass)
  collected : Transposes.ofTimeline stage.shared.timeline.settle stage.shared.arena = .ok transposes
  changes : transposes.ofAll.toList =
    stage.shared.timeline.order.filterMap stage.shared.changeAt?

variable {source : Source} {sequence : Sequence Unit} {pass : Pass} {stopTime : Nat}
  {stage : Stage (Unit × List Visit)} {transposes : Transposes}

/-- A track at the start of a pass, which may write the levels of the header. -/
def openTrack (header : Header) (writes : Bool) (track : Track) : Track :=
  { track.reset header with
    midi := if writes then (initialMessages header).foldl
        (fun midi message => midi.push ⟨0, track.startChannel, message, none⟩) {}
      else {} }

theorem openStage_openTrack {σ : Type} (sequence : Sequence σ) (pass : Pass) :
    (sequence.openStage pass).tracks = sequence.tracks.map (openTrack sequence.header
      (pass = .midi && sequence.options.initialState)) := by
  unfold openStage openTrack
  cases (decide (pass = .midi) && sequence.options.initialState)
  · rfl
  · exact List.map_map ..

theorem opening_openTrack (header : Header) (writes : Bool) (track : Track) :
    (openTrack header writes track).Opening :=
  ⟨rfl, rfl, rfl, rfl, rfl, rfl, rfl, fun dial => by cases dial <;> rfl⟩

theorem mem_openTrack {header : Header} {writes : Bool} {track : Track} {event : MidiEvent}
    (member : event ∈ (openTrack header writes track).midi.events.toList) :
    ∃ message ∈ initialMessages header, event = ⟨0, track.startChannel, message, none⟩ := by
  have pushed (messages : List MidiMessage) (midi : MidiTrack) :
      (messages.foldl (fun (midi : MidiTrack) message =>
        midi.push ⟨0, track.startChannel, message, none⟩) midi).events.toList =
      midi.events.toList ++ messages.map fun message =>
        ⟨0, track.startChannel, message, none⟩ := by
    induction messages generalizing midi with
    | nil => simp
    | cons message rest ih =>
      rw [List.foldl_cons, ih]
      simp [MidiTrack.push]
  unfold openTrack at member
  cases writes with
  | false => exact absurd member List.not_mem_nil
  | true =>
    dsimp only at member
    rw [if_pos rfl, pushed] at member
    obtain ⟨message, there, rfl⟩ := List.mem_map.mp member
    exact ⟨message, there, rfl⟩

theorem openStage_tracks (sequence : Sequence Unit) (pass : Pass) :
    ∃ change : Track → Track, (sequence.openStage pass).tracks = sequence.tracks.map change ∧
      ∀ track, (change track).Opening ∧ origin (change track) = origin track ∧
        (change track).channel = track.startChannel ∧
        (change track).measuredTrips = track.measuredTrips ∧
        (change track).measuredTicks = track.measuredTicks :=
  ⟨_, openStage_openTrack sequence pass, fun track => ⟨opening_openTrack _ _ track, rfl, rfl, rfl,
    rfl⟩⟩

theorem openStage_shared (sequence : Sequence Unit) (pass : Pass) :
    (sequence.openStage pass).shared.arena = sequence.arena ∧
      (sequence.openStage pass).shared.timeline = {} ∧
      (sequence.openStage pass).shared.masterRamp = none := by
  unfold openStage
  split <;> exact ⟨rfl, rfl, rfl⟩

end Sequence

namespace Player

theorem fresh_of_opening {player : Player} (opening : player.track.Opening) : player.Fresh where
  safe := by
    constructor
    · rw [opening.timedNotes]
      exact fun _ member => absurd member List.not_mem_nil
    · rw [opening.openNotes]
      exact fun _ member => absurd member List.not_mem_nil
  steps := opening.steps
  guard := opening.guard
  time := opening.time
  active := opening.active

theorem home_of_opening {setting : Setting} {track : Track} {shared : Shared}
    (opening : track.Opening) (sound : shared.arena.Sound) (empty : shared.timeline = {}) :
    Home ⟨setting, track, { shared with arena := {} }⟩ ⟨setting, track, shared⟩ := by
  have none (track : Nat) : shared.indicesOf track = [] := by
    simp [Shared.indicesOf, Shared.tags, Timeline.skeleton, empty]
  unfold Home
  dsimp only
  rw [none]
  refine ⟨⟨rfl, track.cursor.delay, ?_⟩, ⟨Arena.sound_empty, sound⟩, ⟨.nil, ?_, ?_⟩, .refl _ _,
    rfl⟩
  · unfold Track.relabel
    dsimp only
    rw [opening.timedNotes, opening.openNotes, List.map_nil, List.map_nil, ← opening.timedNotes,
      ← opening.openNotes]
  · dsimp only
    rw [empty]
    rfl
  · intro k index found
    simp at found

end Player

namespace Sequence

variable {source : Source} {sequence : Sequence Unit} {pass : Pass} {stopTime : Nat}
  {stage : Stage (Unit × List Visit)} {transposes : Transposes}

theorem mem_starts_openTrack {start : Player} (member : start ∈ sequence.starts pass) :
    ∃ track ∈ sequence.tracks, start = ⟨sequence.setting pass,
      openTrack sequence.header (pass = .midi && sequence.options.initialState) track,
      { (sequence.openStage pass).shared with arena := {} }⟩ := by
  obtain ⟨opened, known, rfl⟩ := List.mem_map.mp member
  rw [openStage_openTrack] at known
  obtain ⟨track, there, rfl⟩ := List.mem_map.mp known
  exact ⟨track, there, rfl⟩

theorem mem_starts {start : Player} (member : start ∈ sequence.starts pass) :
    start.setting = sequence.setting pass ∧ start.track.Opening ∧
      start.shared = { (sequence.openStage pass).shared with arena := {} } := by
  obtain ⟨track, _, rfl⟩ := mem_starts_openTrack member
  exact ⟨rfl, opening_openTrack _ _ track, rfl⟩

theorem origin_of_mem_starts {start : Player} (member : start ∈ sequence.starts pass) :
    ∃ track ∈ sequence.tracks, origin start.track = origin track := by
  obtain ⟨track, there, rfl⟩ := mem_starts_openTrack member
  exact ⟨track, there, rfl⟩

theorem Whole.starts_ascending (whole : sequence.Whole source) (pass : Pass) :
    (sequence.starts pass).Pairwise fun first second => first.track.index < second.track.index := by
  obtain ⟨change, tracks, opening⟩ := openStage_tracks sequence pass
  have index (track : Track) : (change track).index = track.index :=
    congrArg Prod.fst (opening track).2.1
  unfold starts
  rw [tracks, List.map_map]
  refine List.pairwise_map.mpr (whole.ascending.imp ?_)
  intro first second ordered
  change (change first).index < (change second).index
  rwa [index, index]

/-- All tracks at the start of a pass. -/
theorem Whole.ensemble (whole : sequence.Whole source) (pass : Pass) (stopTime : Nat)
    (countable : (sequence.limits stopTime).Countable (sequence.setting pass).loopRule) :
    Ensemble (sequence.setting pass) (sequence.openStage pass).shared
      (fun start visits solo track => Player.Underway (sequence.limits stopTime) start visits solo ∧
        Format.InTime start 0 visits track)
      (sequence.starts pass) [] (sequence.openStage pass).tracks
      (sequence.openStage pass).shared := by
  obtain ⟨arena, timeline, still⟩ := openStage_shared sequence pass
  obtain ⟨change, tracks, opening⟩ := openStage_tracks sequence pass
  have reads := whole.reads
  constructor
  · simp [Shared.tags, Timeline.skeleton, timeline]
  · rw [arena]
    exact whole.sound
  · rw [arena, show (sequence.setting pass).source = sequence.source from rfl, reads]
    exact whole.faithful
  · exact .refl _ _
  · exact fun _ => ⟨still, (List.append_nil _).symm⟩
  · have all : ∀ track ∈ (sequence.openStage pass).tracks, track.Opening := by
      rw [tracks]
      intro track member
      obtain ⟨earlier, _, rfl⟩ := List.mem_map.mp member
      exact (opening earlier).1
    have sound : (sequence.openStage pass).shared.arena.Sound := arena ▸ whole.sound
    unfold starts
    generalize (sequence.openStage pass).tracks = tracks at all
    induction tracks with
    | nil => exact .nil
    | cons track rest ih =>
      refine .cons ?_ (ih fun track member => all track (List.mem_cons_of_mem _ member))
      have opening := all track List.mem_cons_self
      refine ⟨_, ⟨⟨.start, Player.fresh_of_opening opening, countable⟩, ?_⟩, ⟨rfl, rfl⟩,
        Player.home_of_opening opening sound timeline⟩
      change track.time = 0 + track.cursor.delay
      rw [opening.time, opening.cursor, Nat.add_zero]

/-- Tracks whose trips can be counted are played without a failure. -/
theorem Whole.plays (whole : sequence.Whole source) (pass : Pass) (stopTime : Nat)
    (countable : (sequence.limits stopTime).Countable (sequence.setting pass).loopRule) :
    (((sequence.openStage pass).logged []).play RefSeq.format.logged (sequence.setting pass)
      (sequence.limits stopTime)).Yields (Stage.Played (sequence.setting pass)
        (sequence.openStage pass).shared (sequence.limits stopTime) (sequence.starts pass)) := by
  have alike : ∀ start ∈ sequence.starts pass, start.setting = sequence.setting pass :=
    fun start member => (mem_starts member).1
  exact Stage.play_played alike (whole.starts_ascending pass)
    (whole.ensemble pass stopTime countable)

/-- Once its tracks are played a pass comes to its end. -/
theorem Whole.passes_of_played (whole : sequence.Whole source)
    (done : ((sequence.openStage pass).logged []).play RefSeq.format.logged (sequence.setting pass)
      (sequence.limits stopTime) = .ok stage)
    (played : stage.Played (sequence.setting pass) (sequence.openStage pass).shared
      (sequence.limits stopTime) (sequence.starts pass)) :
    (Transposes.ofTimeline stage.shared.timeline.settle stage.shared.arena).Yields
      (sequence.Passes pass stopTime stage) := by
  obtain ⟨transposes, found, changes⟩ :=
    Transposes.ofTimeline_yields played.ensemble.resolved
  have logged : sequence.logged.runPass pass stopTime =
      .ok (sequence.logged.conclude pass stage transposes) := by
    unfold runPass
    rw [show sequence.logged.format = RefSeq.format.logged by rw [logged, whole.format],
      logged_openStage]
    refine Except.bind_eq_ok.mpr ⟨stage, done, ?_⟩
    rw [closePass_eq]
    exact Except.map_eq_ok.mpr ⟨transposes, found, rfl⟩
  refine ⟨transposes, found, ?_, ?_, played, found, changes⟩
  · have maps : sequence.logged.format.Maps Prod.fst sequence.format :=
      sequence.format.maps_unlogged
    have plain := withMemory_runPass maps pass stopTime
    rw [logged] at plain
    apply plain.symm.trans
    cases pass <;> rfl
  · rw [visits, logged]
    cases pass <;> rfl

/-- A pass does not fail whose trips can be counted. -/
theorem Whole.passes (whole : sequence.Whole source) (pass : Pass) (stopTime : Nat)
    (countable : (sequence.limits stopTime).Countable (sequence.setting pass).loopRule) :
    ∃ stage transposes, sequence.Passes pass stopTime stage transposes := by
  obtain ⟨stage, done, played⟩ := whole.plays pass stopTime countable
  obtain ⟨transposes, _, passes⟩ := whole.passes_of_played done played
  exact ⟨stage, transposes, passes⟩

/-- A pass does not fail. -/
theorem Intact.passes (intact : sequence.Intact source) (pass : Pass) (stopTime : Nat) :
    ∃ stage transposes, sequence.Passes pass stopTime stage transposes :=
  intact.toWhole.passes pass stopTime (.inl intact.bounded)

end Sequence

theorem Voices.get {holds : Player → List Visit → Player → Track → Prop} {log : List Visit}
    {shared : Shared} {starts : List Player} {tracks : List Track}
    (voices : Voices holds log shared starts tracks) {i : Nat} {track : Track}
    (found : tracks[i]? = some track) :
    ∃ start, starts[i]? = some start ∧ Voice (holds start) start log shared track := by
  induction voices generalizing i with
  | nil => simp at found
  | cons first rest ih =>
    cases i with
    | zero =>
      cases found
      exact ⟨_, rfl, first⟩
    | succ i => exact ih found

theorem Voices.length_eq {holds : Player → List Visit → Player → Track → Prop} {log : List Visit}
    {shared : Shared} {starts : List Player} {tracks : List Track}
    (voices : Voices holds log shared starts tracks) : tracks.length = starts.length := by
  induction voices with
  | nil => rfl
  | cons first rest ih => exact congrArg Nat.succ ih

/-- The position at which a track starts. -/
def Track.opening (track : Track) : Position := ⟨⟨track.startOffset, [], []⟩, 0⟩

namespace Sequence

/-- A track at the end of a pass. Its player, on its own, has ended with the same visits. -/
structure Ended (sequence : Sequence Unit) (pass : Pass) (stopTime : Nat)
    (stage : Stage (Unit × List Visit)) (before track : Track) (start solo : Player) : Prop where
  began : start ∈ sequence.starts pass
  origin : origin start.track = origin before
  measured : start.track.measuredTrips = before.measuredTrips ∧
    start.track.measuredTicks = before.measuredTicks
  ends : Player.Ends (sequence.limits stopTime) start
    (visitsOf stage.memory.2 start.track.index) solo
  closes : Player.Closes (sequence.limits stopTime) start
    (visitsOf stage.memory.2 start.track.index) solo
  home : solo.Home ⟨start.setting, track, stage.shared⟩

/-- A track has followed its free run up to its end, with its own visits. -/
structure Follows (sequence : Sequence Unit) (pass : Pass) (stopTime : Nat) (own : List Visit)
    (track : Track) : Prop where
  decoded : own.map (fun visit => (visit.offset, visit.tick)) =
    track.opening.freeRun sequence.source sequence.options.maxDepth own.length
  endless : 0 < track.guard.trips →
    track.opening.Endless sequence.source sequence.options.maxDepth
  early : ∀ n < own.length, ∀ position, track.opening.after sequence.source
    sequence.options.maxDepth n = some position → stopTime ≠ 0 → position.tick < stopTime
  ending : Player.Ending (sequence.limits stopTime) (sequence.setting pass).loopRule
    sequence.header.tickSync sequence.source sequence.options.maxDepth track.opening
    track.guard.trips own.length track.totalTicks

variable {source : Source} {sequence : Sequence Unit} {pass : Pass} {stopTime : Nat}
  {stage : Stage (Unit × List Visit)} {transposes : Transposes} {before track : Track}
  {start solo : Player}

theorem conclude_tracks (sequence : Sequence Unit) (pass : Pass) (stage : Stage Unit)
    (transposes : Transposes) : (sequence.conclude pass stage transposes).tracks =
      stage.tracks.map (Track.conclude pass) := by
  cases pass with
  | listing => exact (List.map_id _).symm
  | length => rfl
  | midi => rfl

theorem length_midiOutput (sequence : Sequence Unit) (stage : Stage Unit)
    (transposes : Transposes) :
    (midiOutput sequence.header transposes stage).tracks.length =
      (sequence.conclude .midi stage transposes).tracks.length := by
  rw [conclude_tracks, midiOutput, List.length_map, List.length_map]

/-- The finished MIDI of a track is that of the track as it has ended. -/
theorem midi_of_midiOutput {i : Nat} {midi : MidiTrack}
    (found : (sequence.conclude .midi stage.unlogged transposes).tracks[i]? = some track)
    (written : (midiOutput sequence.header transposes stage.unlogged).tracks[i]? = some midi) :
    ∃ played, stage.tracks[i]? = some played ∧ track = played.conclude .midi ∧
      midi = (played.midi.transpose transposes.allAt).finalize := by
  rw [conclude_tracks, List.getElem?_map] at found
  obtain ⟨played, there, same⟩ := Option.map_eq_some_iff.mp found
  rw [midiOutput, List.getElem?_map, there] at written
  exact ⟨played, there, same.symm, (Option.some.inj written).symm⟩

theorem conclude_arena (sequence : Sequence Unit) (pass : Pass) (stage : Stage Unit)
    (transposes : Transposes) :
    (sequence.conclude pass stage transposes).arena = stage.shared.arena := by
  cases pass <;> rfl

theorem conclude_fixed (sequence : Sequence Unit) (pass : Pass) (stage : Stage Unit)
    (transposes : Transposes) : (sequence.conclude pass stage transposes).format =
      sequence.format ∧ (sequence.conclude pass stage transposes).source = sequence.source ∧
      (sequence.conclude pass stage transposes).options = sequence.options ∧
      (sequence.conclude pass stage transposes).header = sequence.header := by
  cases pass <;> exact ⟨rfl, rfl, rfl, rfl⟩

theorem Ended.real_eq (ended : sequence.Ended pass stopTime stage before track start solo) :
    ∃ own delay, track = solo.track.relabel own delay :=
  ⟨_, ended.home.twins.track⟩

theorem Ended.origin_eq (ended : sequence.Ended pass stopTime stage before track start solo) :
    Sequence.origin track = Sequence.origin before := by
  obtain ⟨own, delay, rfl⟩ := ended.real_eq
  have same := congrArg Sequence.origin ended.closes.identity
  exact Eq.trans same ended.origin

theorem Ended.index_eq (ended : sequence.Ended pass stopTime stage before track start solo) :
    track.index = start.track.index := by
  obtain ⟨own, delay, rfl⟩ := ended.real_eq
  have index := congrArg Track.index ended.closes.identity
  exact index

theorem Ended.stopped (ended : sequence.Ended pass stopTime stage before track start solo) :
    track.active = false ∧
      track.steps = (visitsOf stage.memory.2 start.track.index).length := by
  obtain ⟨own, delay, rfl⟩ := ended.real_eq
  have active := congrArg Track.active ended.closes.identity
  have steps := ended.closes.steps
  exact ⟨active, steps⟩

theorem position_of_opening (opening : track.Opening) : track.position = track.opening := by
  unfold Track.position Track.opening
  rw [opening.cursor, opening.time]
  rfl

theorem Ended.position_eq (ended : sequence.Ended pass stopTime stage before track start solo) :
    start.track.position = track.opening := by
  obtain ⟨_, opening, _⟩ := mem_starts ended.began
  obtain ⟨own, delay, same⟩ := ended.real_eq
  have offset := congrArg Track.startOffset ended.closes.identity
  rw [position_of_opening opening, same]
  exact congrArg (fun offset : Nat => (⟨⟨offset, [], []⟩, 0⟩ : Position)) offset.symm

theorem Ended.follows (ended : sequence.Ended pass stopTime stage before track start solo) :
    sequence.Follows pass stopTime (visitsOf stage.memory.2 track.index) track := by
  obtain ⟨setting, _, _⟩ := mem_starts ended.began
  have closes := ended.closes
  have index := ended.index_eq
  have position := ended.position_eq
  obtain ⟨own, delay, same⟩ := ended.real_eq
  have guard : solo.track.guard = track.guard := by
    rw [same]
    rfl
  have total : solo.track.totalTicks = track.totalTicks := by
    rw [same]
    rfl
  have decoded := closes.decoded
  have endless := closes.endless
  have early := closes.early
  have ending := closes.ending
  unfold Player.Early at early
  rw [← index, position, setting] at decoded
  rw [position, setting, guard] at endless
  rw [← index, position, setting] at early
  rw [← index, position, setting, guard, total] at ending
  exact ⟨decoded, endless, early, ending⟩

/-- The clock of a track does not go back. -/
theorem Follows.ascending {own : List Visit}
    (follows : sequence.Follows pass stopTime own track) :
    own.Pairwise fun first second => first.tick ≤ second.tick := by
  have early : track.opening.tick ≤ Tick.last := Nat.zero_le _
  have ascending : (own.map fun visit => (visit.offset, visit.tick)).Pairwise
      fun first second => first.2 ≤ second.2 := by
    rw [follows.decoded]
    exact Position.freeRun_ascending early own.length
  have ordered := List.pairwise_map.mp ascending
  exact ordered

theorem follows_conclude {own : List Visit} (follows : sequence.Follows pass stopTime own track) :
    sequence.Follows pass stopTime own (track.conclude pass) := by
  obtain ⟨decoded, endless, early, ending⟩ := follows
  cases pass <;> exact ⟨decoded, endless, early, ending⟩

/-- All tracks have ended. -/
theorem Passes.ended_of_countable (passes : sequence.Passes pass stopTime stage transposes)
    (countable : (sequence.limits stopTime).Countable (sequence.setting pass).loopRule) {i : Nat}
    (found : stage.tracks[i]? = some track) : ∃ before start solo,
      sequence.tracks[i]? = some before ∧
      sequence.Ended pass stopTime stage before track start solo := by
  obtain ⟨start, known, solo, ⟨ends, _⟩, _, home⟩ := passes.played.ensemble.voices.get found
  obtain ⟨change, tracks, opening⟩ := openStage_tracks sequence pass
  have member := List.mem_of_getElem? known
  obtain ⟨setting, opened, _⟩ := mem_starts member
  rw [starts, tracks, List.map_map, List.getElem?_map] at known
  obtain ⟨before, there, rfl⟩ := Option.map_eq_some_iff.mp known
  obtain ⟨_, origin, _, measured⟩ := opening before
  exact ⟨before, _, solo, there, member, origin, measured, ends,
    ends.closes (Player.fresh_of_opening opened) (setting ▸ countable), home⟩

theorem Passes.ended (passes : sequence.Passes pass stopTime stage transposes)
    (intact : sequence.Intact source) {i : Nat} (found : stage.tracks[i]? = some track) :
    ∃ before start solo, sequence.tracks[i]? = some before ∧
      sequence.Ended pass stopTime stage before track start solo :=
  passes.ended_of_countable (.inl intact.bounded) found

theorem Passes.conductor_eq (passes : sequence.Passes pass stopTime stage transposes)
    (quiet : ∀ visit ∈ stage.memory.2,
      visit.isSlide (sequence.setting pass).source = false) :
    stage.shared.conductor.events.toList = sequence.opening pass ++
      stage.memory.2.filterMap (Visit.conducted? (sequence.setting pass)) :=
  (passes.played.ensemble.conducts quiet).2

theorem Passes.length_eq (passes : sequence.Passes pass stopTime stage transposes) :
    stage.tracks.length = sequence.tracks.length := by
  obtain ⟨change, tracks, _⟩ := openStage_tracks sequence pass
  rw [passes.played.ensemble.voices.length_eq, starts, tracks, List.length_map, List.length_map]

theorem Passes.origins (passes : sequence.Passes pass stopTime stage transposes)
    (intact : sequence.Intact source) :
    stage.tracks.map origin = sequence.tracks.map origin := by
  apply List.ext_getElem?
  intro i
  rw [List.getElem?_map, List.getElem?_map]
  cases found : stage.tracks[i]? with
  | none =>
    have outside := List.getElem?_eq_none_iff.mp found
    rw [passes.length_eq] at outside
    rw [List.getElem?_eq_none_iff.mpr outside]
  | some track =>
    obtain ⟨before, start, solo, there, ended⟩ := passes.ended intact found
    rw [there, Option.map_some, Option.map_some, ended.origin_eq]

/-- What the log has for a track are the visits of a track that has ended, or there are none. -/
theorem Passes.ended_of_visits (passes : sequence.Passes pass stopTime stage transposes)
    (intact : sequence.Intact source) {visit : Visit} (member : visit ∈ stage.memory.2) :
    ∃ (i : Nat) (before track : Track) (start solo : Player), stage.tracks[i]? = some track ∧
      track.index = visit.track ∧
      sequence.Ended pass stopTime stage before track start solo := by
  obtain ⟨start, began, owner⟩ := passes.played.inside visit member
  obtain ⟨before, there, same⟩ := origin_of_mem_starts began
  have known := List.mem_map_of_mem (f := origin) there
  rw [← passes.origins intact] at known
  obtain ⟨track, ended, alike⟩ := List.mem_map.mp known
  obtain ⟨i, found⟩ := List.getElem?_of_mem ended
  obtain ⟨before', start', solo, _, ending⟩ := passes.ended intact found
  refine ⟨i, before', track, start', solo, found, ?_, ending⟩
  rw [owner]
  exact congrArg Prod.fst (alike.trans same.symm)

theorem Passes.ascending (passes : sequence.Passes pass stopTime stage transposes)
    (intact : sequence.Intact source) (track : Nat) :
    (visitsOf stage.memory.2 track).Pairwise fun first second => first.tick ≤ second.tick := by
  cases own : visitsOf stage.memory.2 track with
  | nil => exact .nil
  | cons visit rest =>
    have member : visit ∈ visitsOf stage.memory.2 track := by simp [own]
    obtain ⟨there, named⟩ := List.mem_filter.mp member
    obtain ⟨i, before, track', start, solo, _, index, ended⟩ := passes.ended_of_visits intact there
    rw [← own, ← of_decide_eq_true named, ← index]
    exact ended.follows.ascending

theorem origin_conclude (pass : Pass) (track : Track) :
    origin (track.conclude pass) = origin track := by
  cases pass <;> rfl

theorem Passes.conclude_origins (passes : sequence.Passes pass stopTime stage transposes)
    (intact : sequence.Intact source) :
    (sequence.conclude pass stage.unlogged transposes).tracks.map origin =
      sequence.tracks.map origin := by
  rw [conclude_tracks, List.map_map, ← passes.origins intact]
  exact List.map_congr_left fun track _ => origin_conclude pass track

theorem Passes.intact (passes : sequence.Passes pass stopTime stage transposes)
    (intact : sequence.Intact source) :
    (sequence.conclude pass stage.unlogged transposes).Intact source := by
  obtain ⟨format, reads, options, _⟩ :=
    conclude_fixed sequence pass stage.unlogged transposes
  have origins := passes.conclude_origins intact
  refine ⟨⟨format.trans intact.format, reads.trans intact.reads, ?_, ?_, ?_⟩,
    options ▸ intact.bounded⟩
  · have ascending : (sequence.tracks.map origin).Pairwise fun first second =>
        first.1 < second.1 := List.pairwise_map.mpr intact.ascending
    rw [← origins] at ascending
    have ordered := List.pairwise_map.mp ascending
    exact ordered
  · rw [conclude_arena]
    exact passes.played.ensemble.sound
  · rw [conclude_arena]
    have faithful := passes.played.ensemble.faithful
    rw [show (sequence.setting pass).source = sequence.source from rfl, intact.reads] at faithful
    exact faithful

/-- A sequence that a file can come to: it is opened, configured and played any number of times.
The limit of instructions is a number of 32 bits. -/
inductive Reachable (source : Source) : Sequence Unit → Prop
  | opened {sequence : Sequence Unit} (accepted : ofSource RefSeq.format () source = .ok sequence) :
      Reachable source sequence
  | configured {sequence : Sequence Unit} (reachable : Reachable source sequence)
      (options : Options) (bounded : options.maxSteps ≤ Tick.last) :
      Reachable source (sequence.withOptions options)
  | looped {sequence : Sequence Unit} (reachable : Reachable source sequence) (loopCount : Nat) :
      Reachable source (sequence.withLoopCount loopCount)
  | synced {sequence : Sequence Unit} (reachable : Reachable source sequence) (tickSync : Bool) :
      Reachable source (sequence.withTickSync tickSync)
  | played {sequence next : Sequence Unit} (reachable : Reachable source sequence) (pass : Pass)
      (stopTime : Nat) (run : sequence.runPass pass stopTime = .ok next) : Reachable source next

/-- A sequence as it is opened. -/
def fresh {σ : Type} (format : Format σ) (memory : σ) (source : Source) (header : Header)
    (pointers : List TrackPointer) : Sequence σ where
  source := source
  format := format
  header := header
  options := {}
  stage := ⟨pointers.mapIdx fun index pointer =>
    Track.starting index pointer.offset pointer.channel, {}, memory⟩
  transposes := none
  length := 0
  midi := none
  lastPass := none

theorem fresh_of_accepted {σ : Type} {format : Format σ} {memory : σ} {sequence : Sequence σ}
    (accepted : ofSource format memory source = .ok sequence) : ∃ header pointers,
      format.header source = .ok header ∧ format.pointers source = .ok pointers ∧
      sequence = fresh format memory source header pointers := by
  simp only [ofSource] at accepted
  obtain ⟨header, read, accepted⟩ := Except.bind_eq_ok.mp accepted
  obtain ⟨pointers, listed, accepted⟩ := Except.bind_eq_ok.mp accepted
  have opened : sequence = fresh format memory source header pointers := by
    split at accepted
    · cases accepted
    · split at accepted
      · cases accepted
      · split at accepted
        · cases accepted
        · cases accepted
          rfl
  exact ⟨header, pointers, Except.mapError_eq_ok.mp read, Except.mapError_eq_ok.mp listed, opened⟩

theorem intact_fresh (source : Source) (header : Header) (pointers : List TrackPointer) :
    (fresh RefSeq.format () source header pointers).Intact source := by
  have bounded : (1048576 : Nat) ≤ Tick.last := by decide
  refine ⟨⟨rfl, rfl, ?_, Arena.sound_empty, Arena.faithful_empty source⟩, bounded⟩
  refine List.pairwise_iff_getElem.mpr fun i j inside inside' lt => ?_
  simpa [fresh, tracks, Track.starting] using lt

theorem intact_ofSource (accepted : ofSource RefSeq.format () source = .ok sequence) :
    sequence.Intact source := by
  obtain ⟨header, pointers, _, _, rfl⟩ := fresh_of_accepted accepted
  exact intact_fresh source header pointers

theorem Reachable.intact (reachable : Reachable source sequence) : sequence.Intact source := by
  induction reachable with
  | opened accepted => exact intact_ofSource accepted
  | configured _ options bounded ih =>
    exact ⟨⟨ih.format, ih.reads, ih.ascending, ih.sound, ih.faithful⟩, bounded⟩
  | looped _ loopCount ih =>
    exact ⟨⟨ih.format, ih.reads, ih.ascending, ih.sound, ih.faithful⟩, ih.bounded⟩
  | synced _ tickSync ih =>
    exact ⟨⟨ih.format, ih.reads, ih.ascending, ih.sound, ih.faithful⟩, ih.bounded⟩
  | played _ pass stopTime run ih =>
    obtain ⟨stage, transposes, passes⟩ := ih.passes pass stopTime
    cases passes.run.symm.trans run
    exact passes.intact ih

end Sequence
end Sequencer
