import Sequencer.Proofs.Player.Guise

/-! Players that are alike: without their names nothing tells them apart. Neither which of the
tracks a player plays, nor what was measured before, nor which events are in the store has a part in
what it does. -/
namespace Sequencer

/-- A guise without a name, but for the octave. -/
def Guise.plain (octave : UInt8) : Guise := ⟨0, octave, 0, 0, {}, fun _ => 0⟩

def Track.nameless (track : Track) : Track := track.withGuise (.plain track.octave)

def Shared.nameless (shared : Shared) : Shared := shared.withGuise (.plain 0)

namespace Player

def nameless (player : Player) : Player :=
  ⟨player.setting, player.track.nameless, player.shared.nameless⟩

def Alike (player other : Player) : Prop := other.nameless = player.nameless

variable {player other next : Player} {more : Bool}

theorem nameless_eq (player : Player) :
    player.nameless = player.withGuise (.plain player.track.octave) := rfl

theorem Alike.symm (alike : player.Alike other) : other.Alike player := Eq.symm alike

theorem Alike.track (alike : player.Alike other) :
    other.track.nameless = player.track.nameless := congrArg Player.track alike

theorem Alike.shared (alike : player.Alike other) :
    other.shared.nameless = player.shared.nameless := congrArg Player.shared alike

theorem Alike.setting (alike : player.Alike other) : other.setting = player.setting := by
  have same := congrArg Player.setting alike
  exact same

/-- Nothing that is read of a track but its name differs. -/
theorem Alike.reads_track {α : Type} (alike : player.Alike other) (read : Track → α)
    (blind : ∀ track : Track, read track.nameless = read track) :
    read other.track = read player.track := by
  rw [← blind, alike.track, blind]

theorem Alike.octave (alike : player.Alike other) : other.track.octave = player.track.octave :=
  alike.reads_track Track.octave fun _ => rfl

theorem Alike.cursor (alike : player.Alike other) : other.track.cursor = player.track.cursor :=
  alike.reads_track Track.cursor fun _ => rfl

theorem Alike.time (alike : player.Alike other) : other.track.time = player.track.time :=
  alike.reads_track Track.time fun _ => rfl

theorem Alike.steps (alike : player.Alike other) : other.track.steps = player.track.steps :=
  alike.reads_track Track.steps fun _ => rfl

theorem Alike.active (alike : player.Alike other) : other.track.active = player.track.active :=
  alike.reads_track Track.active fun _ => rfl

theorem Alike.reads (alike : player.Alike other) : other.reads = player.reads := by
  unfold Player.reads
  rw [alike.setting, alike.cursor]

theorem Alike.kind? (alike : player.Alike other) (instruction : RefSeq.Instruction) :
    instruction.kind? other.track = instruction.kind? player.track :=
  alike.reads_track instruction.kind? fun track => by cases instruction <;> rfl

theorem Alike.nextIndex (alike : player.Alike other) :
    other.shared.timeline.nextIndex = player.shared.timeline.nextIndex := by
  have sizes := congrArg (fun shared : Shared => shared.timeline.size) alike.shared
  simpa [Shared.nameless, Shared.withGuise, Timeline.rename, Timeline.size] using sizes

/-- Both do the same to their track, which has no part in their names. -/
theorem Alike.register (alike : player.Alike other) (change : Track → Track)
    (blind : ∀ track : Track, (change track).nameless = change track.nameless) :
    (player.withTrack (change player.track)).Alike (other.withTrack (change other.track)) := by
  have tracks : (change other.track).nameless = (change player.track).nameless := by
    rw [blind, blind, alike.track]
  unfold Alike nameless withTrack
  rw [alike.setting, tracks, alike.shared]

theorem Alike.readTo (alike : player.Alike other) (stop : Nat) :
    (player.readTo stop).Alike (other.readTo stop) :=
  alike.register (fun track => { track with
    steps := track.steps + 1, cursor := { track.cursor with offset := stop } }) fun _ => rfl

theorem noted_nameless (player : Player) (stop : Nat) (kind : EventKind) :
    (player.noted stop kind).nameless =
      { (player.readTo stop).nameless with
        shared := { player.shared.nameless with
          timeline := player.shared.nameless.timeline.add
            ⟨player.track.time, kind.duration, 0⟩ } } := by
  simp [noted, record, nameless, Shared.nameless, Shared.withGuise, Timeline.rename, Timeline.add,
    Guise.plain, readTo, count, seek, withTrack]

theorem Alike.noted (alike : player.Alike other) (stop : Nat) (kind : EventKind) :
    (player.noted stop kind).Alike (other.noted stop kind) := by
  have reading := alike.readTo stop
  unfold Alike at reading ⊢
  rw [noted_nameless, noted_nameless, reading, alike.shared, alike.time]

theorem perform_nameless (player : Player) (kind : EventKind) (entry : Option Nat) :
    player.nameless.perform kind entry =
      (player.perform kind entry).map fun outcome => (outcome.1, outcome.2.nameless) := by
  rw [nameless_eq, perform_withGuise]
  cases performed : player.perform kind entry with
  | error fault => rfl
  | ok outcome =>
    have octave := (perform_guise performed).2.1
    simp only [Except.map, disguised, nameless_eq, octave]
    rfl

theorem SameGuise.nameless (same : player.SameGuise next) :
    next.withGuise (.plain player.track.octave) = next.nameless := by
  rw [nameless_eq, same.octave]

theorem limitNotes_nameless (player : Player) (tick : Nat) :
    player.nameless.limitNotes tick = (player.limitNotes tick).map nameless := by
  rw [nameless_eq, (aside_withGuise _).limitNotes]
  cases limited : player.limitNotes tick with
  | error fault => rfl
  | ok next => exact congrArg Except.ok (limitNotes_guise limited).nameless

theorem finish_nameless (player : Player) :
    player.nameless.finish = player.finish.map nameless := by
  rw [nameless_eq, finish_withGuise]
  cases finished : player.finish with
  | error fault => rfl
  | ok next => exact congrArg Except.ok (finish_guise finished).nameless

theorem moveDials_nameless (player : Player) (tick : Nat) :
    player.nameless.moveDials tick = (player.moveDials tick).nameless := by
  rw [nameless_eq, moveDials_withGuise]
  exact (moveDials_guise player tick).nameless

/-- What comes of two players that are alike. -/
def AlikeAfter (outcome outcome' : Bool × Player) : Prop :=
  outcome'.1 = outcome.1 ∧ outcome.2.Alike outcome'.2

theorem Alike.perform (alike : player.Alike other) (kind : EventKind) (entry : Option Nat) :
    (player.perform kind entry).Follows AlikeAfter (other.perform kind entry) := by
  have same := perform_nameless other kind entry
  rw [show other.nameless = player.nameless from alike, perform_nameless] at same
  exact (Except.follows_of_map same).mono fun _ _ equal => Prod.mk.inj equal

theorem Alike.limitNotes (alike : player.Alike other) (tick : Nat) :
    (player.limitNotes tick).Follows Alike (other.limitNotes tick) := by
  have same := limitNotes_nameless other tick
  rw [show other.nameless = player.nameless from alike, limitNotes_nameless] at same
  exact Except.follows_of_map same

theorem Alike.finish (alike : player.Alike other) :
    player.finish.Follows Alike other.finish := by
  have same := finish_nameless other
  rw [show other.nameless = player.nameless from alike, finish_nameless] at same
  exact Except.follows_of_map same

theorem Alike.moveDials (alike : player.Alike other) (tick : Nat) :
    (player.moveDials tick).Alike (other.moveDials tick) := by
  unfold Alike at alike ⊢
  rw [← moveDials_nameless, ← moveDials_nameless, alike]

theorem Alike.advance (alike : player.Alike other) :
    player.advance.Follows AlikeAfter other.advance := by
  rintro ⟨more, next⟩ advanced
  have reads := alike.reads
  cases step_of_advance advanced with
  | @unreadable error stop read =>
    exact ⟨_, advance_of_step (.unreadable (reads.trans read)), rfl, alike.readTo stop⟩
  | @unknown opcode stop read =>
    exact ⟨_, advance_of_step (.unknown (reads.trans read)), rfl, alike.noted stop _⟩
  | @cut stop _ read limited =>
    obtain ⟨next', limited', alike'⟩ := (alike.readTo stop).limitNotes _ _ limited
    rw [← alike.time] at limited'
    exact ⟨_, advance_of_step (.cut (reads.trans read) limited'), rfl, alike'⟩
  | @event instruction stop kind _ _ read known performed =>
    obtain ⟨⟨more', next'⟩, performed', rfl, alike'⟩ :=
      (alike.noted stop kind).perform _ _ _ performed
    rw [← alike.nextIndex] at performed'
    exact ⟨_, advance_of_step (.event (reads.trans read) ((alike.kind? _).trans known) performed'),
      rfl, alike'⟩

end Player
end Sequencer
