import Sequencer.Proofs.Lists
import Sequencer.Proofs.Player.Sound
import Sequencer.Proofs.Spent

/-! What a player writes. The ends of notes are moved when their notes are revised. All other
messages stay where they are written, and each instruction adds its own behind those of the ones
before it: the start of its note, its level, or its slide if that is written ahead. -/
namespace Sequencer

/-- What decides, beside the instruction, on the key that a note sounds as. -/
structure Registers where
  octave : UInt8 := 4
  transpose : Int8 := 0
  keyCorrection : Int8 := 0
  drum : Option UInt8 := none
deriving DecidableEq, Repr

namespace Registers

def after (registers : Registers) : EventKind → Registers
  | .octave number => { registers with octave := number }
  | .transpose .own semitones => { registers with transpose := semitones }
  | .keyCorrection semitones => { registers with keyCorrection := semitones }
  | .drum key => { registers with drum := key }
  | _ => registers

/-- The key that a note sounds as before the transpose of all tracks, and the tick whose
transpose that is. -/
def soundingKey (registers : Registers) (tick : Nat) (key : UInt8) : UInt8 × Option Nat :=
  match registers.drum with
  | some drum => (min drum 127, none)
  | none =>
    (clampKey (key.toNat + registers.transpose.toInt + registers.keyCorrection.toInt), some tick)

end Registers

def Track.registers (track : Track) : Registers :=
  ⟨track.octave, track.transpose, track.keyCorrection, track.drum⟩

theorem Track.soundingKey_eq (track : Track) (key : UInt8) :
    track.soundingKey key = track.registers.soundingKey track.time key := rfl

def MidiMessage.endsNote : MidiMessage → Bool
  | .noteOff _ => true
  | _ => false

theorem MidiMessage.endsNote_of_isNote {message : MidiMessage} (other : message.isNote = false) :
    message.endsNote = false := by
  cases message <;> first | rfl | cases other

theorem EventKind.isNote_of_mem_messages {kind : EventKind} {message : MidiMessage}
    (member : message ∈ kind.messages) : message.isNote = false := by
  have others := kind.writesOnly_others
  cases kind with
  | level | slide => cases member
  | _ => exact others message member

namespace MidiTrack

/-- The messages that are never moved. -/
def lasting (midi : MidiTrack) : List MidiEvent :=
  midi.events.toList.filter fun event => !event.message.endsNote

def EndsNoteAt (midi : MidiTrack) (position : Nat) : Prop :=
  ∃ event, midi.events[position]? = some event ∧ event.message.endsNote = true

/-- Of the messages that stay only `new` ones are added, and each end of a note stays one. -/
structure Extends (before : MidiTrack) (new : List MidiEvent) (after : MidiTrack) : Prop where
  lasting : after.lasting = before.lasting ++ new
  ends : ∀ position, before.EndsNoteAt position → after.EndsNoteAt position

variable {midi first second third : MidiTrack} {new more : List MidiEvent} {event : MidiEvent}

/-- Messages of some kind, other than ends of notes, are never moved. -/
theorem filter_lasting {p : MidiMessage → Bool} (stays : ∀ message, p message = true →
    message.endsNote = false) (midi : MidiTrack) :
    midi.lasting.filter (fun event => p event.message) =
      midi.events.toList.filter fun event => p event.message := by
  rw [MidiTrack.lasting, List.filter_filter]
  refine List.filter_congr fun event _ => ?_
  cases chosen : p event.message with
  | false => rfl
  | true => simp [stays _ chosen]

theorem Extends.filter {p : MidiMessage → Bool} (stays : ∀ message, p message = true →
    message.endsNote = false) {before after : MidiTrack} {new : List MidiEvent}
    (extends' : before.Extends new after) :
    after.events.toList.filter (fun event => p event.message) =
      before.events.toList.filter (fun event => p event.message) ++
        new.filter fun event => p event.message := by
  rw [← filter_lasting stays, ← filter_lasting stays, extends'.lasting, List.filter_append]

theorem Extends.refl (midi : MidiTrack) : midi.Extends [] midi :=
  ⟨(List.append_nil _).symm, fun _ there => there⟩

theorem Extends.trans (left : first.Extends new second) (right : second.Extends more third) :
    first.Extends (new ++ more) third where
  lasting := by rw [right.lasting, left.lasting, List.append_assoc]
  ends := fun position there => right.ends position (left.ends position there)

theorem EndsNoteAt.push {position : Nat} (ends : midi.EndsNoteAt position) (event : MidiEvent) :
    (midi.push event).EndsNoteAt position := by
  obtain ⟨end', there, isEnd⟩ := ends
  obtain ⟨inside, same⟩ := Array.getElem?_eq_some_iff.mp there
  refine ⟨end', ?_, isEnd⟩
  exact (Array.getElem?_push_lt inside).trans (congrArg some same)

theorem lasting_push (midi : MidiTrack) (event : MidiEvent) : (midi.push event).lasting =
    midi.lasting ++ if event.message.endsNote then [] else [event] := by
  rw [lasting, push, Array.toList_push, List.filter_append, lasting]
  cases ends : event.message.endsNote <;> simp [ends]

theorem extends_push (other : event.message.endsNote = false) :
    midi.Extends [event] (midi.push event) := by
  refine ⟨?_, fun position there => there.push event⟩
  rw [lasting_push, other]
  rfl

theorem extends_pushEnd (ends : event.message.endsNote = true) :
    midi.Extends [] (midi.push event) := by
  refine ⟨?_, fun position there => there.push event⟩
  rw [lasting_push, ends]
  rfl

theorem endsNoteAt_push (ends : event.message.endsNote = true) :
    (midi.push event).EndsNoteAt midi.size :=
  ⟨event, Array.getElem?_push_size, ends⟩

theorem setTick_extends {position : Nat} (there : midi.EndsNoteAt position) (tick : Nat) :
    (midi.setTick position tick).Ensures fun next => midi.Extends [] next := by
  obtain ⟨event, found, ends⟩ := there
  unfold setTick
  split
  · refine Except.ensures_ok ⟨?_, ?_⟩
    · rw [List.append_nil, lasting, Array.toList_modify]
      refine List.filter_modify (by rw [ends]; rfl) (by rw [ends]; rfl) ?_
      rw [Array.getElem?_toList]
      exact found
    · rintro other ⟨event', found', ends'⟩
      unfold EndsNoteAt
      rw [Array.getElem?_modify, found']
      split
      · exact ⟨_, rfl, ends'⟩
      · exact ⟨_, rfl, ends'⟩
  · exact fun _ done => by cases done

end MidiTrack

/-- The note-off of the note is where the note knows it to be. -/
def TimedNote.Tied (midi : MidiTrack) (note : TimedNote) : Prop :=
  ∀ position ∈ note.noteOff, midi.EndsNoteAt position

theorem TimedNote.Tied.extend {before after : MidiTrack} {new : List MidiEvent} {note : TimedNote}
    (tied : note.Tied before) (extends' : before.Extends new after) : note.Tied after :=
  fun position known => extends'.ends position (tied position known)

theorem Sheet.setTick_extends {sheet : Sheet} {position : Option Nat}
    (there : ∀ index ∈ position, sheet.midi.EndsNoteAt index) (tick : Nat) :
    (sheet.setTick position tick).Ensures fun next => sheet.midi.Extends [] next.midi := by
  cases position with
  | none => exact Except.ensures_ok (.refl _)
  | some index =>
    refine (MidiTrack.setTick_extends (there index rfl) tick).bind ?_
    exact fun midi extended => Except.ensures_ok extended

theorem TimedNote.endAt_extends {note : TimedNote} {sheet : Sheet} (tied : note.Tied sheet.midi)
    (tick : Nat) : (note.endAt tick sheet).Ensures fun (note', sheet') =>
      sheet.midi.Extends [] sheet'.midi ∧ note'.Tied sheet'.midi := by
  unfold endAt
  refine (Sheet.setDuration_midi sheet note.entry _).bind fun timed same => ?_
  have tied : note.Tied timed.midi := same ▸ tied
  refine (Sheet.setTick_extends tied _).bind fun next extended => ?_
  exact Except.ensures_ok ⟨same ▸ extended, TimedNote.Tied.extend tied extended⟩

theorem TimedNote.endAll_extends (chosen : TimedNote → Bool) (tick : Nat) {sheet : Sheet}
    {notes : List TimedNote} (tied : ∀ note ∈ notes, note.Tied sheet.midi) :
    (endAll chosen tick sheet notes).Ensures fun (notes', sheet') =>
      sheet.midi.Extends [] sheet'.midi ∧ ∀ note ∈ notes', note.Tied sheet'.midi := by
  induction notes generalizing sheet with
  | nil => exact Except.ensures_ok ⟨.refl _, fun _ member => absurd member List.not_mem_nil⟩
  | cons note rest ih =>
    obtain ⟨first, others⟩ := List.forall_mem_cons.mp tied
    have ended : (note.endIf chosen tick sheet).Ensures fun (note', sheet') =>
        sheet.midi.Extends [] sheet'.midi ∧ note'.Tied sheet'.midi := by
      unfold endIf
      split
      · exact endAt_extends first tick
      · exact Except.ensures_ok ⟨.refl _, first⟩
    rw [endAll_cons]
    refine ended.bind ?_
    rintro ⟨note', middle⟩ ⟨extended, here⟩
    rintro ⟨_, _⟩ done
    obtain ⟨⟨rest', last⟩, rested, same⟩ := Except.map_eq_ok.mp done
    cases same
    obtain ⟨extended', there⟩ := ih (fun other member => (others other member).extend extended)
      _ rested
    exact ⟨extended.trans extended', List.forall_mem_cons.mpr ⟨here.extend extended', there⟩⟩

theorem OpenNote.closeAll_extends (writing : Bool) (channel : UInt8) (tick : Nat) (sheet : Sheet)
    (notes : List OpenNote) : (closeAll writing channel tick sheet notes).Ensures fun sheet' =>
      sheet.midi.Extends [] sheet'.midi := by
  induction notes generalizing sheet with
  | nil => exact Except.ensures_ok (.refl _)
  | cons note rest ih =>
    have closed : (note.close writing channel tick sheet).Ensures fun sheet' =>
        sheet.midi.Extends [] sheet'.midi := by
      unfold close
      refine (Sheet.setDuration_midi sheet note.entry _).bind ?_
      rintro ⟨timeline, midi⟩ rfl
      dsimp only
      split
      · exact Except.ensures_ok (MidiTrack.extends_pushEnd rfl)
      · exact Except.ensures_ok (.refl _)
    refine closed.bind fun middle extended => ?_
    exact (ih middle).mono fun last extended' => extended.trans extended'

namespace Player

/-- All timed notes have their note-offs where they know them to be. -/
def Tied (player : Player) : Prop :=
  ∀ note ∈ player.track.timedNotes, note.Tied player.track.midi

/-- The player has written `new` messages that stay, and no register has changed. -/
structure Adds (player : Player) (new : List MidiEvent) (next : Player) : Prop where
  setting : next.setting = player.setting
  channel : next.track.channel = player.track.channel
  time : next.track.time = player.track.time
  registers : next.track.registers = player.track.registers
  midi : player.track.midi.Extends new next.track.midi
  tied : next.Tied

variable {player next last : Player} {new more : List MidiEvent}

theorem Adds.refl (tied : player.Tied) : player.Adds [] player :=
  ⟨rfl, rfl, rfl, rfl, .refl _, tied⟩

theorem Adds.trans (left : player.Adds new next) (right : next.Adds more last) :
    player.Adds (new ++ more) last where
  setting := right.setting.trans left.setting
  channel := right.channel.trans left.channel
  time := right.time.trans left.time
  registers := right.registers.trans left.registers
  midi := left.midi.trans right.midi
  tied := right.tied

theorem Adds.writes (adds : player.Adds new next) (writes : player.writing = true) :
    next.writing = true := by
  unfold writing
  rw [adds.setting]
  exact writes

/-- The message that starts a note. -/
def strike (player : Player) (key velocity : UInt8) : MidiEvent :=
  let (midiKey, transposeTick) := player.track.soundingKey key
  ⟨player.track.time, player.track.channel, .noteOn midiKey velocity, transposeTick⟩

theorem Adds.strike_eq (adds : player.Adds new next) (key velocity : UInt8) :
    next.strike key velocity = player.strike key velocity := by
  unfold strike
  rw [Track.soundingKey_eq, Track.soundingKey_eq, adds.registers, adds.time, adds.channel]

theorem endNotes_adds (tied : player.Tied) (closing : List OpenNote) (chosen : TimedNote → Bool)
    (tick : Nat) : (player.endNotes closing chosen tick).Ensures (player.Adds []) := by
  unfold endNotes
  refine (OpenNote.closeAll_extends _ _ tick player.sheet closing).bind fun closed first => ?_
  refine (TimedNote.endAll_extends chosen tick fun note member =>
    (tied note member).extend first).bind ?_
  rintro ⟨notes, sheet⟩ ⟨second, ends⟩
  exact Except.ensures_ok ⟨rfl, rfl, rfl, rfl, first.trans second, ends⟩

theorem withOpen_adds (tied : player.Tied) (opened closing : List OpenNote)
    (chosen : TimedNote → Bool) (tick : Nat) :
    ((player.withOpen opened).endNotes closing chosen tick).Ensures (player.Adds []) := by
  have tied : Tied (player.withOpen opened) := tied
  rintro next done
  obtain ⟨setting, channel, time, registers, midi, tied⟩ := endNotes_adds tied _ _ _ next done
  exact ⟨setting, channel, time, registers, midi, tied⟩

theorem cutKey_adds (tied : player.Tied) (key : UInt8) :
    (player.cutKey key).Ensures (player.Adds []) := by
  rw [cutKey_eq]
  exact withOpen_adds tied _ _ _ _

theorem emit_adds (tied : player.Tied) (writes : player.writing = true) (tick : Nat)
    (message : MidiMessage) (other : message.endsNote = false) (transposeTick : Option Nat) :
    player.Adds [⟨tick, player.track.channel, message, transposeTick⟩]
      (player.emit tick message transposeTick) := by
  rw [emit, if_pos writes]
  refine ⟨rfl, rfl, rfl, rfl, MidiTrack.extends_push other, fun note member => ?_⟩
  exact (tied note member).extend (MidiTrack.extends_push other)

theorem sounding_adds (tied : player.Tied) (writes : player.writing = true) (key velocity : UInt8)
    (entry : Option Nat) : player.Adds [player.strike key velocity]
      (player.sounding key velocity entry) := by
  obtain ⟨setting, channel, time, registers, midi, tied⟩ := emit_adds tied writes
    player.track.time (.noteOn (player.track.soundingKey key).1 velocity) rfl
      (player.track.soundingKey key).2
  exact ⟨setting, channel, time, registers, midi, tied⟩

theorem soundingFor_adds (tied : player.Tied) (writes : player.writing = true)
    (key velocity : UInt8) (duration : Nat) (entry : Option Nat) :
    player.Adds [player.strike key velocity] (player.soundingFor key velocity duration entry) := by
  have on := emit_adds tied writes player.track.time
    (.noteOn (player.track.soundingKey key).1 velocity) rfl (player.track.soundingKey key).2
  unfold soundingFor
  dsimp only
  generalize player.emit player.track.time _ _ = begun at on ⊢
  have writes := on.writes writes
  rw [emit, if_pos writes, if_pos writes]
  have off : begun.track.midi.Extends [] (begun.track.midi.push ⟨Tick.later player.track.time duration,
      begun.track.channel, .noteOff (player.track.soundingKey key).1,
      (player.track.soundingKey key).2⟩) := MidiTrack.extends_pushEnd rfl
  refine ⟨on.setting, on.channel, on.time, on.registers, on.midi.trans off, fun note member => ?_⟩
  rcases List.mem_append.mp member with member | member
  · obtain ⟨earlier, known, _, _, noteOff⟩ := TimedNote.mem_of_mem_beforeNote member
    intro position there
    exact (on.tied earlier known).extend off position (noteOff ▸ there)
  · cases List.mem_singleton.mp member
    rintro position ⟨⟩
    exact MidiTrack.endsNoteAt_push rfl

theorem startNote_adds (tied : player.Tied) (writes : player.writing = true) (key velocity : UInt8)
    (entry : Option Nat) :
    (player.startNote key velocity entry).Ensures (player.Adds [player.strike key velocity]) := by
  rw [startNote_eq]
  rintro last done
  obtain ⟨cut, ended, rfl⟩ := Except.map_eq_ok.mp done
  have first := cutKey_adds tied key cut ended
  have second := sounding_adds first.tied (first.writes writes) key velocity entry
  rw [first.strike_eq] at second
  exact first.trans second

theorem startTimedNote_adds (tied : player.Tied) (writes : player.writing = true)
    (key velocity : UInt8) (duration : Nat) (entry : Option Nat) :
    (player.startTimedNote key velocity duration entry).Ensures
      (player.Adds [player.strike key velocity]) := by
  rw [startTimedNote_eq]
  rintro last done
  obtain ⟨cut, ended, rfl⟩ := Except.map_eq_ok.mp done
  have first := cutKey_adds tied key cut ended
  have second := soundingFor_adds first.tied (first.writes writes) key velocity duration entry
  rw [first.strike_eq] at second
  exact first.trans second

theorem endNote_adds (tied : player.Tied) (key : UInt8) :
    (player.endNote key).Ensures (player.Adds []) := by
  unfold endNote
  split
  · exact Except.ensures_ok (.refl tied)
  · exact withOpen_adds tied _ _ _ _

theorem limitNotes_adds (tied : player.Tied) (tick : Nat) :
    (player.limitNotes tick).Ensures (player.Adds []) := by
  rw [limitNotes_eq]
  rintro last done
  obtain ⟨ended, limited, rfl⟩ := Except.map_eq_ok.mp done
  obtain ⟨setting, channel, time, registers, midi, tied⟩ := endNotes_adds tied _ _ _ ended limited
  refine ⟨setting, channel, time, registers, midi, fun note member => ?_⟩
  obtain ⟨earlier, known, rfl⟩ := List.mem_map.mp member
  exact tied earlier known

/-- The end of the track is the last message that stays. -/
theorem finish_adds (tied : player.Tied) (writes : player.writing = true) :
    player.finish.Ensures
      (player.Adds [⟨player.track.time, player.track.channel, .endOfTrack, none⟩]) := by
  refine Except.Ensures.bind (withOpen_adds tied [] player.track.openNotes (fun _ => false)
    player.track.time) fun closed ended => ?_
  have last := emit_adds ended.tied (ended.writes writes) player.track.time .endOfTrack rfl none
  obtain ⟨setting, channel, time, registers, midi, tied⟩ := ended.trans last
  rw [ended.channel] at midi
  exact Except.ensures_ok ⟨setting, channel, time, registers, midi, tied⟩

/-- The messages that an instruction writes on the track, but for the ends of notes. -/
def written (player : Player) : EventKind → List MidiEvent
  | .noteOn key velocity | .note key velocity _ => [player.strike key velocity]
  | .level dial value =>
    [⟨player.now, player.track.channel, .control dial.controller value, none⟩]
  | .slide dial target duration =>
    if player.setting.tickSync then []
    else (player.levelRamp dial target duration).changes.map fun (tick, value) =>
      ⟨tick, player.track.channel, .control dial.controller (UInt8.ofNat value), none⟩
  | kind => kind.messages.map fun message =>
    ⟨player.now, player.track.channel, message, none⟩

/-- What an instruction writes. Only slides are written ahead, and only for a track on its own. -/
inductive Writes (player : Player) (kind : EventKind) (event : MidiEvent) : Prop
  | strike {key velocity : UInt8} (same : event = player.strike key velocity)
  | level {dial : Dial} {value : UInt8} (known : kind = .level dial value)
      (same : event = ⟨player.now, player.track.channel, .control dial.controller value, none⟩)
  | slide {dial : Dial} {target : UInt8} {duration : Nat} {change : Nat × Nat}
      (known : kind = .slide dial target duration) (alone : player.setting.tickSync = false)
      (along : change ∈ (player.levelRamp dial target duration).changes)
      (same : event = ⟨change.1, player.track.channel,
        .control dial.controller (UInt8.ofNat change.2), none⟩)
  | other {message : MidiMessage} (member : message ∈ kind.messages)
      (same : event = ⟨player.now, player.track.channel, message, none⟩)

theorem writes_of_mem {kind : EventKind} {event : MidiEvent}
    (member : event ∈ player.written kind) : player.Writes kind event := by
  have plain (member : event ∈ kind.messages.map fun message =>
      (⟨player.now, player.track.channel, message, none⟩ : MidiEvent)) :
      player.Writes kind event := by
    obtain ⟨message, there, rfl⟩ := List.mem_map.mp member
    exact .other there rfl
  cases kind with
  | noteOn | note => exact .strike (List.mem_singleton.mp member)
  | level dial value => exact .level rfl (List.mem_singleton.mp member)
  | slide dial target duration =>
    cases together : player.setting.tickSync with
    | true =>
      simp only [written, together, if_true] at member
      cases member
    | false =>
      simp only [written, together, Bool.false_eq_true, if_false] at member
      obtain ⟨change, along, same⟩ := List.mem_map.mp member
      exact .slide rfl together along same.symm
  | _ => exact plain member

/-- What an instruction makes of the registers and of the messages that stay. -/
structure Performs (player : Player) (kind : EventKind) (next : Player) : Prop where
  setting : next.setting = player.setting
  channel : next.track.channel = player.track.channel
  registers : next.track.registers = player.track.registers.after kind
  midi : player.track.midi.Extends (player.written kind) next.track.midi
  tied : next.Tied

theorem Adds.performs {kind : EventKind} (adds : player.Adds (player.written kind) next)
    (still : player.track.registers.after kind = player.track.registers) :
    player.Performs kind next :=
  ⟨adds.setting, adds.channel, adds.registers.trans still.symm, adds.midi, adds.tied⟩

/-- A player that is the same to those that listen. -/
theorem Adds.same (adds : player.Adds new next) (setting : last.setting = next.setting)
    (sound : last.track.channel = next.track.channel ∧ last.track.time = next.track.time ∧
      last.track.registers = next.track.registers ∧ last.track.midi = next.track.midi ∧
      last.track.timedNotes = next.track.timedNotes) : player.Adds new last := by
  obtain ⟨channel, time, registers, midi, timedNotes⟩ := sound
  refine ⟨setting.trans adds.setting, channel.trans adds.channel, time.trans adds.time,
    registers.trans adds.registers, midi ▸ adds.midi, ?_⟩
  unfold Tied
  rw [timedNotes, midi]
  exact adds.tied

theorem foldl_adds {α : Type} (act : Player → α → Player) (event : α → MidiEvent)
    (items : List α) (each : ∀ item ∈ items, ∀ next : Player, next.Tied → next.writing = true →
      next.track.channel = player.track.channel → next.track.time = player.track.time →
        next.Adds [event item] (act next item))
    {new : List MidiEvent} {next : Player} (adds : player.Adds new next)
    (writes : player.writing = true) :
    player.Adds (new ++ items.map event) (items.foldl act next) := by
  induction items generalizing new next with
  | nil => simpa using adds
  | cons item rest ih =>
    obtain ⟨first, others⟩ := List.forall_mem_cons.mp each
    have step := first next adds.tied (adds.writes writes) adds.channel adds.time
    have both := ih others (adds.trans step)
    rwa [List.append_assoc] at both

theorem emitAll_adds (tied : player.Tied) (writes : player.writing = true)
    (messages : List MidiMessage) (others : ∀ message ∈ messages, message.isNote = false) :
    player.Adds (messages.map fun message => ⟨player.now, player.track.channel, message, none⟩)
      (player.emitAll messages) := by
  refine foldl_adds (fun player message => player.emit player.now message none)
    (fun message => ⟨player.now, player.track.channel, message, none⟩) messages ?_
    (.refl tied) writes
  intro message member next tied writes channel time
  have other := MidiMessage.endsNote_of_isNote (others message member)
  have adds := emit_adds tied writes player.now message other none
  rw [channel] at adds
  rwa [show next.now = player.now from time]

theorem slideLevel_adds (tied : player.Tied) (writes : player.writing = true) (dial : Dial)
    (target : UInt8) (duration : Nat) : player.Adds (player.written (.slide dial target duration))
      (player.slideLevel dial target duration) := by
  have each (change : Nat × Nat) (next : Player) (tied : next.Tied) (writes : next.writing = true)
      (channel : next.track.channel = player.track.channel) :
      next.Adds [⟨change.1, player.track.channel,
        .control dial.controller (UInt8.ofNat change.2), none⟩]
        (next.emit change.1 (.control dial.controller (UInt8.ofNat change.2)) none) := by
    have adds := emit_adds tied writes change.1
      (.control dial.controller (UInt8.ofNat change.2)) rfl none
    rwa [channel] at adds
  have ahead := foldl_adds _ _ (player.levelRamp dial target duration).changes
    (fun change _ next tied writes channel _ => each change next tied writes channel)
    (.refl tied) writes
  unfold slideLevel
  rw [written]
  cases together : player.setting.tickSync with
  | true => exact (Adds.refl tied).same rfl ⟨rfl, rfl, rfl, rfl, rfl⟩
  | false =>
    simp only [writes, Bool.false_eq_true, if_false, if_true]
    exact ahead.same rfl ⟨rfl, rfl, rfl, rfl, rfl⟩

theorem setLevel_adds (tied : player.Tied) (writes : player.writing = true) (dial : Dial)
    (value : UInt8) :
    player.Adds (player.written (.level dial value)) (player.setLevel dial value) := by
  have set : player.Adds [] { player with
      track := { player.track with dials := player.track.dials.set dial ⟨value, none⟩ } } :=
    (Adds.refl tied).same rfl ⟨rfl, rfl, rfl, rfl, rfl⟩
  exact set.trans (emit_adds set.tied writes player.now (.control dial.controller value) rfl none)

/-- What the conductor is told makes no difference to the track. -/
theorem conduct_adds (adds : player.Adds new next) (tick : Nat) (message : MidiMessage) :
    player.Adds new (next.conduct tick message) := by
  unfold conduct
  split
  · exact adds.same rfl ⟨rfl, rfl, rfl, rfl, rfl⟩
  · exact adds

theorem conductAll_adds (tied : player.Tied) (message : Nat → MidiMessage)
    (changes : List (Nat × Nat)) : player.Adds [] (if player.writing then
      changes.foldl (fun player (change : Nat × Nat) =>
        player.conduct change.1 (message change.2)) player
      else player) := by
  have told {next : Player} (adds : player.Adds [] next) :
      player.Adds [] (changes.foldl (fun player (change : Nat × Nat) =>
        player.conduct change.1 (message change.2)) next) := by
    induction changes generalizing next with
    | nil => exact adds
    | cons change rest ih => exact ih (conduct_adds adds _ _)
  split
  · exact told (.refl tied)
  · exact .refl tied

theorem take_adds {turn : Turn} {goes : Bool} (tied : player.Tied)
    (taken : player.take turn = .ok (goes, next)) : player.Adds [] next := by
  cases turn with
  | halt =>
    cases taken
    exact .refl tied
  | onward cursor =>
    cases taken
    exact (Adds.refl tied).same rfl ⟨rfl, rfl, rfl, rfl, rfl⟩
  | transfer cursor destination =>
    obtain ⟨⟨allowed, guard⟩, _, done⟩ := Except.bind_eq_ok.mp taken
    cases done
    exact (Adds.refl tied).same rfl ⟨rfl, rfl, rfl, rfl, rfl⟩

theorem perform_performs (tied : player.Tied) (writes : player.writing = true) (kind : EventKind)
    (entry : Option Nat) : (player.perform kind entry).Ensures fun (_, next) =>
      player.Performs kind next := by
  have goes {x : Except Fault Player} (ensures : x.Ensures (player.Adds (player.written kind)))
      (still : player.track.registers.after kind = player.track.registers) :
      (x >>= goOn).Ensures fun (_, next) => player.Performs kind next :=
    ensures.bind fun _ adds => Except.ensures_ok (adds.performs still)
  have silent : player.Adds [] player := .refl tied
  cases kind with
  | noteOn key velocity => exact goes (startNote_adds tied writes key velocity entry) rfl
  | noteOff key => exact goes (endNote_adds tied key) rfl
  | note key velocity duration =>
    exact goes (startTimedNote_adds tied writes key velocity duration entry) rfl
  | rest ticks => exact Except.ensures_ok ⟨rfl, rfl, rfl, .refl _, tied⟩
  | hold ticks =>
    refine Except.Ensures.bind (endNotes_adds tied [] TimedNote.tracked _) fun held adds => ?_
    exact Except.ensures_ok ⟨adds.setting, adds.channel, adds.registers, adds.midi, adds.tied⟩
  | level dial value =>
    exact Except.ensures_ok ((setLevel_adds tied writes dial value).performs rfl)
  | slide dial target duration =>
    exact Except.ensures_ok ((slideLevel_adds tied writes dial target duration).performs rfl)
  | masterLevel value =>
    have set : player.Adds [] { player with
        shared := { player.shared with masterVolume := value, masterRamp := none } } :=
      silent.same rfl ⟨rfl, rfl, rfl, rfl, rfl⟩
    exact Except.ensures_ok ((conduct_adds set ..).performs rfl)
  | masterSlide target duration =>
    refine Except.ensures_ok (Adds.performs ?_ rfl)
    unfold slideMasterLevel
    cases player.setting.tickSync with
    | true => exact silent.same rfl ⟨rfl, rfl, rfl, rfl, rfl⟩
    | false =>
      exact (conductAll_adds tied (fun value => .masterVolume (masterVolume14 (UInt8.ofNat value)))
        _).same rfl ⟨rfl, rfl, rfl, rfl, rfl⟩
  | tempo bpm =>
    have set : player.Adds [] { player with shared := { player.shared with tempo := bpm } } :=
      silent.same rfl ⟨rfl, rfl, rfl, rfl, rfl⟩
    exact Except.ensures_ok ((conduct_adds set ..).performs rfl)
  | tempoSlide target duration =>
    refine Except.ensures_ok (Adds.performs ?_ rfl)
    exact (conductAll_adds tied (fun micros => .tempo micros) _).same rfl ⟨rfl, rfl, rfl, rfl, rfl⟩
  | timeSignature numerator denominator ticksPerQuarter =>
    exact Except.ensures_ok ((conduct_adds silent ..).performs rfl)
  | transpose scope semitones =>
    cases scope with
    | all =>
      refine Except.ensures_ok (Adds.performs ?_ rfl)
      exact emitAll_adds tied writes _ fun _ => EventKind.isNote_of_mem_messages
    | own => exact Except.ensures_ok ⟨rfl, rfl, rfl, .refl _, tied⟩
  | octave | keyCorrection | drum => exact Except.ensures_ok ⟨rfl, rfl, rfl, .refl _, tied⟩
  | jump | call | ret | loopStart | loopEnd | loopForever | trackEnd =>
    rintro ⟨more, next⟩ done
    rw [perform_of_isControlFlow rfl] at done
    exact (take_adds tied done).performs rfl
  | _ =>
    refine Except.ensures_ok (Adds.performs ?_ rfl)
    exact emitAll_adds tied writes _ fun _ => EventKind.isNote_of_mem_messages

/-- The message that the clock writes for a level at a tick. -/
def glided (player : Player) (tick : Nat) (dial : Dial) : List MidiEvent :=
  match player.track.ramps dial with
  | none => []
  | some ramp =>
    if ramp.changesAt tick then
      [⟨tick, player.track.channel, .control dial.controller (UInt8.ofNat (ramp.valueAt tick)),
        none⟩]
    else []

theorem moveDial_adds (tied : player.Tied) (writes : player.writing = true) (tick : Nat)
    (dial : Dial) : player.Adds (player.glided tick dial) (player.moveDial tick dial) := by
  unfold glided
  cases moves : player.track.ramps dial with
  | none =>
    rw [moveDial_of_none moves]
    exact .refl tied
  | some ramp =>
    rw [moveDial_of_some moves]
    dsimp only
    split
    · exact (emit_adds tied writes tick (.control dial.controller
        (UInt8.ofNat (ramp.valueAt tick))) rfl none).same rfl ⟨rfl, rfl, rfl, rfl, rfl⟩
    · exact (Adds.refl tied).same rfl ⟨rfl, rfl, rfl, rfl, rfl⟩

theorem glided_congr {dial : Dial} (ramps : next.track.ramps dial = player.track.ramps dial)
    (channel : next.track.channel = player.track.channel) (tick : Nat) :
    next.glided tick dial = player.glided tick dial := by
  unfold glided
  rw [ramps, channel]

theorem moveDials_adds (tied : player.Tied) (writes : player.writing = true) (tick : Nat) :
    player.Adds (player.glided tick .volume ++ player.glided tick .expression ++
      player.glided tick .pan) (player.moveDials tick) := by
  have volume := moveDial_adds tied writes tick .volume
  have expression := moveDial_adds volume.tied (volume.writes writes) tick .expression
  rw [glided_congr (moveDial_ramps player tick .volume .expression (by decide)) volume.channel]
    at expression
  have both := volume.trans expression
  have pan := moveDial_adds both.tied (both.writes writes) tick .pan
  rw [glided_congr ((moveDial_ramps _ tick .expression .pan (by decide)).trans
    (moveDial_ramps player tick .volume .pan (by decide))) both.channel] at pan
  exact both.trans pan

end Player
end Sequencer
