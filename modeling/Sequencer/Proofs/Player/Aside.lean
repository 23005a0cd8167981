import Sequencer.Player.Notes
import Sequencer.Proofs.Outcome

/-! Changes of a player that its notes have no part in. Messages are written and notes are started
and ended the same way before such a change and after it. -/
namespace Sequencer.Player

def withOpen (player : Player) (openNotes : List OpenNote) : Player :=
  { player with track := { player.track with openNotes } }

def withTimed (player : Player) (timedNotes : List TimedNote) : Player :=
  { player with track := { player.track with timedNotes } }

/-- The player with another note that sounds until it is ended. -/
def sounding (player : Player) (key velocity : UInt8) (entry : Option Nat) : Player :=
  let (midiKey, transposeTick) := player.track.soundingKey key
  let next := player.emit player.track.time (.noteOn midiKey velocity) transposeTick
  next.withOpen (next.track.openNotes ++ [⟨key, midiKey, player.track.time, entry, transposeTick⟩])

/-- The player with another note that ends by itself. -/
def soundingFor (player : Player) (key velocity : UInt8) (duration : Nat) (entry : Option Nat) :
    Player :=
  let now := player.track.time
  let stop := Tick.later now duration
  let (midiKey, transposeTick) := player.track.soundingKey key
  let begun := player.emit now (.noteOn midiKey velocity) transposeTick
  let noteOff := if begun.writing then some begun.track.midi.size else none
  let next := begun.emit stop (.noteOff midiKey) transposeTick
  next.withTimed (TimedNote.beforeNote now next.track.timedNotes ++
    [⟨key, now, stop, entry, noteOff, true⟩])

/-- The open notes of a key are taken away, and the others that sound are shortened. -/
theorem cutKey_eq (player : Player) (key : UInt8) : player.cutKey key =
    (player.withOpen (player.track.openNotes.filter fun note => !decide (note.key = key))).endNotes
      (player.track.openNotes.filter fun note => note.key = key)
      (fun note => note.key = key && note.start < player.track.time && player.track.time < note.stop)
      player.track.time := by
  unfold cutKey
  rw [List.partition_eq_filter_filter]
  rfl

theorem startNote_eq (player : Player) (key velocity : UInt8) (entry : Option Nat) :
    player.startNote key velocity entry =
      (player.cutKey key).map fun cut => cut.sounding key velocity entry := by
  unfold startNote
  cases player.cutKey key <;> rfl

theorem startTimedNote_eq (player : Player) (key velocity : UInt8) (duration : Nat)
    (entry : Option Nat) : player.startTimedNote key velocity duration entry =
      (player.cutKey key).map fun cut => cut.soundingFor key velocity duration entry := by
  unfold startTimedNote
  cases player.cutKey key <;> rfl

theorem limitNotes_eq (player : Player) (tick : Nat) : player.limitNotes tick =
    (player.endNotes [] (fun note => note.tracked && tick < note.stop) tick).map fun ended =>
      ended.withTimed (ended.track.timedNotes.map TimedNote.untrack) := by
  unfold limitNotes
  cases player.endNotes [] (fun note => note.tracked && tick < note.stop) tick <;> rfl

/-- A change that no note asks for, and that leaves notes and messages as they are. -/
structure Aside (alter : Player → Player) : Prop where
  writing : ∀ player, (alter player).writing = player.writing
  time : ∀ player, (alter player).track.time = player.track.time
  midi : ∀ player, (alter player).track.midi = player.track.midi
  openNotes : ∀ player, (alter player).track.openNotes = player.track.openNotes
  timedNotes : ∀ player, (alter player).track.timedNotes = player.track.timedNotes
  soundingKey : ∀ player key,
    (alter player).track.soundingKey key = player.track.soundingKey key
  withOpen : ∀ player notes, (alter player).withOpen notes = alter (player.withOpen notes)
  withTimed : ∀ player notes, (alter player).withTimed notes = alter (player.withTimed notes)
  emit : ∀ player tick message transposeTick,
    (alter player).emit tick message transposeTick =
      alter (player.emit tick message transposeTick)
  conduct : ∀ player tick message,
    (alter player).conduct tick message = alter (player.conduct tick message)
  endNotes : ∀ player closing chosen tick, (alter player).endNotes closing chosen tick =
    (player.endNotes closing chosen tick).map alter

namespace Aside

variable {alter : Player → Player} (aside : Aside alter) (player : Player)
include aside

omit aside in
theorem foldl {α : Type} {act : Player → α → Player}
    (each : ∀ player item, act (alter player) item = alter (act player item)) (items : List α) :
    items.foldl act (alter player) = alter (items.foldl act player) := by
  induction items generalizing player with
  | nil => rfl
  | cons item rest ih =>
    rw [List.foldl_cons, each]
    exact ih _

theorem emitAll (messages : List MidiMessage) :
    (alter player).emitAll messages = alter (player.emitAll messages) := by
  refine foldl player (fun player message => ?_) messages
  rw [now, aside.time, aside.emit]
  rfl

/-- Messages that are written ahead. -/
theorem ahead {α : Type} (act : Player → α → Player)
    (each : ∀ player item, act (alter player) item = alter (act player item))
    (items : List α) :
    (if (alter player).writing then items.foldl act (alter player) else alter player) =
      alter (if player.writing then items.foldl act player else player) := by
  rw [aside.writing]
  split
  · exact foldl player each items
  · rfl

theorem cutKey (key : UInt8) : (alter player).cutKey key = (player.cutKey key).map alter := by
  have ended := aside.endNotes
    (player.withOpen (player.track.openNotes.partition fun note => note.key = key).2)
    (player.track.openNotes.partition fun note => note.key = key).1
    (fun note => note.key = key && note.start < player.track.time && player.track.time < note.stop)
    player.track.time
  rw [← aside.withOpen] at ended
  unfold Player.cutKey
  rw [aside.time, aside.openNotes]
  exact ended

theorem sounding (key velocity : UInt8) (entry : Option Nat) :
    (alter player).sounding key velocity entry = alter (player.sounding key velocity entry) := by
  simp only [Player.sounding, aside.soundingKey, aside.time, aside.emit, aside.openNotes,
    aside.withOpen]

theorem soundingFor (key velocity : UInt8) (duration : Nat) (entry : Option Nat) :
    (alter player).soundingFor key velocity duration entry =
      alter (player.soundingFor key velocity duration entry) := by
  simp only [Player.soundingFor, aside.soundingKey, aside.time, aside.emit, aside.writing,
    aside.midi, aside.timedNotes, aside.withTimed]

theorem startNote (key velocity : UInt8) (entry : Option Nat) :
    (alter player).startNote key velocity entry =
      (player.startNote key velocity entry).map alter := by
  rw [startNote_eq, startNote_eq, aside.cutKey]
  cases player.cutKey key with
  | error fault => rfl
  | ok cut => exact congrArg Except.ok (aside.sounding cut key velocity entry)

theorem startTimedNote (key velocity : UInt8) (duration : Nat) (entry : Option Nat) :
    (alter player).startTimedNote key velocity duration entry =
      (player.startTimedNote key velocity duration entry).map alter := by
  rw [startTimedNote_eq, startTimedNote_eq, aside.cutKey]
  cases player.cutKey key with
  | error fault => rfl
  | ok cut => exact congrArg Except.ok (aside.soundingFor cut key velocity duration entry)

theorem endNote (key : UInt8) : (alter player).endNote key = (player.endNote key).map alter := by
  unfold Player.endNote
  rw [aside.openNotes]
  cases player.track.openNotes.find? fun note => note.key = key with
  | none => rfl
  | some note =>
    change ((alter player).withOpen (player.track.openNotes.eraseP fun note => note.key = key)).endNotes
      [note] (fun _ => false) (alter player).track.time = _
    rw [aside.withOpen, aside.time]
    exact aside.endNotes ..

theorem extendNotes (tick : Nat) :
    (alter player).extendNotes tick = (player.extendNotes tick).map alter :=
  aside.endNotes player [] TimedNote.tracked tick

theorem limitNotes (tick : Nat) :
    (alter player).limitNotes tick = (player.limitNotes tick).map alter := by
  rw [limitNotes_eq, limitNotes_eq, aside.endNotes]
  cases player.endNotes [] _ tick with
  | error fault => rfl
  | ok ended =>
    simp only [Except.map, aside.timedNotes, aside.withTimed]

end Aside
end Sequencer.Player
