import Sequencer.Proofs.Charts
import Sequencer.Proofs.Player.Written

/-! What a track reads. In which key a note sounds depends on the registers that earlier instructions
have set, and so does for some notes which key they are. A reading is a visit together with the
registers that the track has then; the registers behind it are its own. -/
namespace Sequencer

/-- The key and the velocity of a note that starts. -/
def EventKind.struck? : EventKind → Option (UInt8 × UInt8)
  | .noteOn key velocity | .note key velocity _ => some (key, velocity)
  | _ => none

/-- Whether a message starts a note. -/
def MidiMessage.strikes : MidiMessage → Bool
  | .noteOn .. => true
  | _ => false

/-- The messages that start notes. -/
def MidiTrack.strikes (midi : MidiTrack) : List MidiEvent :=
  midi.events.toList.filter fun event => event.message.strikes

/-- The message that starts a note of a track that has these registers. -/
def Registers.strike (registers : Registers) (tick : Nat) (channel key velocity : UInt8) :
    MidiEvent :=
  let (midiKey, transposeTick) := registers.soundingKey tick key
  ⟨tick, channel, .noteOn midiKey velocity, transposeTick⟩

structure Reading where
  visit : Visit
  registers : Registers
deriving DecidableEq, Repr

namespace Reading

/-- The event that the track records, in its octave. -/
def event? (source : Source) (reading : Reading) : Option Event :=
  RefSeq.eventAt? source reading.visit.place reading.registers.octave

def kind? (source : Source) (reading : Reading) : Option EventKind :=
  (reading.event? source).map Event.kind

/-- The registers behind the instruction. -/
def after (source : Source) (reading : Reading) : Registers :=
  (reading.kind? source).elim reading.registers reading.registers.after

/-- The key and the velocity of the note that starts. -/
def struck? (source : Source) (reading : Reading) : Option (UInt8 × UInt8) :=
  (reading.kind? source).bind EventKind.struck?

/-- The message that starts the note. -/
def strike? (source : Source) (channel : UInt8) (reading : Reading) : Option MidiEvent :=
  (reading.struck? source).map fun (key, velocity) =>
    reading.registers.strike reading.visit.tick channel key velocity

end Reading

namespace RefSeq

/-- The readings of a track that has certain registers before the first one. -/
def readings (source : Source) (registers : Registers) : List Visit → List Reading
  | [] => []
  | visit :: rest =>
    ⟨visit, registers⟩ :: readings source (Reading.after source ⟨visit, registers⟩) rest

def registersAfter (source : Source) (registers : Registers) (visits : List Visit) : Registers :=
  visits.foldl (fun registers visit => Reading.after source ⟨visit, registers⟩) registers

variable {source : Source} {registers : Registers} {visits : List Visit}

theorem registersAfter_append (visits : List Visit) (visit : Visit) :
    registersAfter source registers (visits ++ [visit]) =
      Reading.after source ⟨visit, registersAfter source registers visits⟩ :=
  List.foldl_append

theorem readings_append (earlier later : List Visit) :
    readings source registers (earlier ++ later) = readings source registers earlier ++
      readings source (registersAfter source registers earlier) later := by
  induction earlier generalizing registers with
  | nil => rfl
  | cons visit rest ih => exact congrArg (_ :: ·) ih

theorem visits_readings (visits : List Visit) :
    (readings source registers visits).map Reading.visit = visits := by
  induction visits generalizing registers with
  | nil => rfl
  | cons visit rest ih => exact congrArg (visit :: ·) ih

/-- Most instructions are the same to all tracks. -/
theorem kind_of_kindAt {reading : Reading} {kind : EventKind}
    (known : kindAt? source reading.visit.offset = some kind) :
    reading.kind? source = some kind := by
  unfold kindAt? at known
  unfold Reading.kind? Reading.event? eventAt?
  rw [show reading.visit.place.offset = reading.visit.offset from rfl]
  revert known
  rcases instruction source reading.visit.offset with ⟨result, stop⟩
  intro known
  cases result with
  | error error => cases known
  | ok instruction =>
    cases instruction <;> cases known
    rfl

/-- Of the others only a note in the octave of the track does something. -/
theorem kind_of_kindAt_none {reading : Reading} {kind : EventKind}
    (other : kindAt? source reading.visit.offset = none)
    (recorded : reading.kind? source = some kind) :
    (∃ key velocity duration, kind = .note key velocity duration) ∨ ∃ text, kind = .unknown text := by
  unfold kindAt? at other
  unfold Reading.kind? Reading.event? eventAt? at recorded
  rw [show reading.visit.place.offset = reading.visit.offset from rfl] at recorded
  revert other recorded
  rcases instruction source reading.visit.offset with ⟨result, stop⟩
  intro other recorded
  cases result with
  | error error => cases recorded
  | ok instruction =>
    cases instruction with
    | event kind => cases other
    | octaveNote semitone velocity duration =>
      cases recorded
      exact .inl ⟨_, _, _, rfl⟩
    | cut => cases recorded
    | unknown opcode =>
      cases recorded
      exact .inr ⟨_, rfl⟩

/-- What an instruction makes of the registers, but for which key it strikes. -/
theorem after_eq (reading : Reading) : reading.after source =
    (kindAt? source reading.visit.offset).elim reading.registers reading.registers.after := by
  unfold Reading.after
  cases known : kindAt? source reading.visit.offset with
  | some kind => rw [kind_of_kindAt known]
  | none =>
    cases recorded : reading.kind? source with
    | none => rfl
    | some kind =>
      rcases kind_of_kindAt_none known recorded with ⟨_, _, _, rfl⟩ | ⟨_, rfl⟩ <;> rfl

theorem octave_after (reading : Reading) : (reading.after source).octave =
    octaveAfter source reading.visit.offset reading.registers.octave := by
  rw [after_eq, octaveAfter]
  cases kindAt? source reading.visit.offset with
  | none => rfl
  | some kind =>
    cases kind with
    | transpose scope semitones => cases scope <;> rfl
    | _ => rfl

theorem octave_registersAfter (visits : List Visit) :
    (registersAfter source registers visits).octave =
      (visits.map Visit.offset).foldl
        (fun octave offset => octaveAfter source offset octave) registers.octave := by
  induction visits generalizing registers with
  | nil => rfl
  | cons visit rest ih =>
    rw [registersAfter, List.foldl_cons]
    refine ih.trans ?_
    rw [octave_after]
    rfl

/-- A track of which nothing has been read is in the octave of its offsets. -/
theorem octave_eq_octaveOf (visits : List Visit) :
    (registersAfter source {} visits).octave = octaveOf source (visits.map Visit.offset) :=
  octave_registersAfter visits

end RefSeq

theorem MidiMessage.strikes_of_isNote {message : MidiMessage} (other : message.isNote = false) :
    message.strikes = false := by
  cases message <;> first | rfl | cases other

theorem MidiTrack.Extends.strikes {before after : MidiTrack} {new : List MidiEvent}
    (extends' : before.Extends new after) : after.strikes =
      before.strikes ++ new.filter fun event => event.message.strikes := by
  refine extends'.filter fun message strikes => ?_
  cases message <;> first | rfl | cases strikes

namespace Player

variable {player next last : Player} {more : Bool}

/-- What the next step reads. -/
def reading (player : Player) : Reading := ⟨player.track.visit, player.track.registers⟩

theorem kind_reading (player : Player) : player.reading.kind? player.setting.source =
    match player.reads with
    | (.error _, _) => none
    | (.ok instruction, _) => instruction.recorded? player.track := by
  have same : player.reading.event? player.setting.source = player.recording? :=
    player.recording_eq.symm
  rw [Reading.kind?, same, recording?]
  rcases player.reads with ⟨result, stop⟩
  cases result with
  | error error => rfl
  | ok instruction => exact (Option.map_map ..).trans (congrFun Option.map_id _)

/-- What a step makes of the registers and of the messages that stay. -/
structure Reads (player next : Player) : Prop where
  setting : next.setting = player.setting
  channel : next.track.channel = player.track.channel
  registers : next.track.registers = player.reading.after player.setting.source
  midi : player.track.midi.Extends
    ((player.reading.kind? player.setting.source).elim [] player.written) next.track.midi
  tied : next.Tied

theorem reads_of_adds (silent : (player.reading.kind? player.setting.source).elim []
      player.written = []) (same : player.reading.after player.setting.source =
      player.track.registers) (adds : player.Adds [] next) : player.Reads next :=
  ⟨adds.setting, adds.channel, adds.registers.trans same.symm, by rw [silent]; exact adds.midi,
    adds.tied⟩

theorem advance_reads (tied : player.Tied) (writes : player.writing = true)
    (advanced : player.advance = .ok (more, next)) : player.Reads next := by
  have still : player.Adds [] player := .refl tied
  cases advance_iff.mp advanced with
  | unreadable read =>
    have none := player.kind_reading
    rw [read] at none
    exact reads_of_adds (by rw [none]; rfl) (by rw [Reading.after, none]; rfl)
      (still.same rfl ⟨rfl, rfl, rfl, rfl, rfl⟩)
  | unknown read =>
    have unknown := player.kind_reading
    rw [read] at unknown
    exact reads_of_adds (by rw [unknown]; rfl) (by rw [Reading.after, unknown]; rfl)
      (still.same rfl ⟨rfl, rfl, rfl, rfl, rfl⟩)
  | @cut stop _ read limited =>
    have none := player.kind_reading
    rw [read] at none
    have reading : player.Adds [] (player.readTo stop) := still.same rfl ⟨rfl, rfl, rfl, rfl, rfl⟩
    exact reads_of_adds (by rw [none]; rfl) (by rw [Reading.after, none]; rfl)
      (reading.trans (limitNotes_adds reading.tied _ _ limited))
  | @event instruction stop kind _ _ read known performed =>
    have recorded : player.reading.kind? player.setting.source = some kind := by
      rw [kind_reading, read]
      cases instruction <;> first | exact known | cases known
    have noted : (player.noted stop kind).Tied := tied
    obtain ⟨setting, channel, registers, midi, tied⟩ :=
      perform_performs noted writes kind _ _ performed
    refine ⟨setting, channel, ?_, ?_, tied⟩
    · rw [Reading.after, recorded]
      exact registers
    · rw [recorded]
      exact midi

theorem strikes_written (kind : EventKind) :
    (player.written kind).filter (fun event => event.message.strikes) =
      (kind.struck?.map fun (key, velocity) => player.strike key velocity).toList := by
  cases kind with
  | noteOn | note => rfl
  | level => rfl
  | slide dial target duration =>
    unfold written
    dsimp only
    split
    · rfl
    · exact List.filter_eq_nil_iff.mpr fun event member => by
        obtain ⟨_, _, rfl⟩ := List.mem_map.mp member
        exact Bool.false_ne_true
  | _ =>
    refine List.filter_eq_nil_iff.mpr fun event member => ?_
    obtain ⟨message, there, rfl⟩ := List.mem_map.mp member
    have other := EventKind.isNote_of_mem_messages there
    exact Bool.eq_false_iff.mp (MidiMessage.strikes_of_isNote other)

theorem Reads.strikes (reads : player.Reads next) : next.track.midi.strikes =
    player.track.midi.strikes ++
      (player.reading.strike? player.setting.source player.track.channel).toList := by
  rw [reads.midi.strikes, Reading.strike?, Reading.struck?]
  cases player.reading.kind? player.setting.source with
  | none => rfl
  | some kind =>
    rw [Option.elim_some, strikes_written]
    rfl

/-- The track has the registers, and has started the notes, of its readings. -/
structure Registered (start : Player) (visits : List Visit) (player : Player) : Prop where
  setting : player.setting = start.setting
  channel : player.track.channel = start.track.channel
  registers : player.track.registers =
    RefSeq.registersAfter start.setting.source start.track.registers visits
  strikes : player.track.midi.strikes = start.track.midi.strikes ++
    (RefSeq.readings start.setting.source start.track.registers visits).filterMap
      (Reading.strike? start.setting.source start.track.channel)
  tied : player.Tied

variable {start : Player} {visits : List Visit} {limits : Limits}

theorem Registered.writes (registered : start.Registered visits player)
    (writes : start.writing = true) : player.writing = true := by
  unfold writing
  rw [registered.setting]
  exact writes

theorem Registered.advance (registered : start.Registered visits player)
    (writes : start.writing = true) (advanced : player.advance = .ok (more, next)) :
    start.Registered (visits ++ [player.track.visit]) next := by
  have reads := advance_reads registered.tied (registered.writes writes) advanced
  have reading : player.reading = ⟨player.track.visit,
      RefSeq.registersAfter start.setting.source start.track.registers visits⟩ :=
    congrArg (Reading.mk _) registered.registers
  refine ⟨reads.setting.trans registered.setting, reads.channel.trans registered.channel, ?_, ?_,
    reads.tied⟩
  · rw [reads.registers, reading, registered.setting, RefSeq.registersAfter_append]
  · rw [reads.strikes, reading, registered.setting, registered.channel, registered.strikes,
      RefSeq.readings_append, List.filterMap_append, List.append_assoc]
    congr 1

theorem Registered.adds {new : List MidiEvent} (registered : start.Registered visits player)
    (adds : player.Adds new next) (silent : new.filter (fun event => event.message.strikes) = []) :
    start.Registered visits next where
  setting := adds.setting.trans registered.setting
  channel := adds.channel.trans registered.channel
  registers := adds.registers.trans registered.registers
  strikes := by rw [adds.midi.strikes, silent, List.append_nil, registered.strikes]
  tied := adds.tied

theorem strikes_glided (player : Player) (tick : Nat) (dial : Dial) :
    (player.glided tick dial).filter (fun event => event.message.strikes) = [] := by
  unfold glided
  split
  · rfl
  · split <;> rfl

theorem Runs.registered (tied : start.Tied) (writes : start.writing = true)
    (runs : Runs limits start visits player) : start.Registered visits player := by
  induction runs with
  | start => exact ⟨rfl, rfl, rfl, (List.append_nil _).symm, tied⟩
  | step runs may punctual advanced ih => exact ih.advance writes advanced
  | glide runs together tick early ih =>
    refine ih.adds (moveDials_adds ih.tied (ih.writes writes) tick) ?_
    simp only [List.filter_append, strikes_glided, List.append_nil]

/-- A track that has ended has the registers, and has started the notes, of its readings. -/
theorem Ends.registered (tied : start.Tied) (writes : start.writing = true)
    (ends : Ends limits start visits last) : start.Registered visits last := by
  have finish {visits : List Visit} {player : Player} (registered : start.Registered visits player)
      (finished : player.finish = .ok last) : start.Registered visits last :=
    registered.adds (finish_adds registered.tied (registered.writes writes) last finished) rfl
  cases ends with
  | refused runs may punctual advanced finished =>
    exact finish ((runs.registered tied writes).advance writes advanced) finished
  | stopped runs stopped finished => exact finish (runs.registered tied writes) finished

end Player
end Sequencer
