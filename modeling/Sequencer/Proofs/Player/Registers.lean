import Sequencer.Proofs.RefSeq.Readings

/-! The registers of a track in any pass. Whether messages are written or not, an instruction makes
of the registers what its kind says, and recording it is all that adds to the timeline. -/
namespace Sequencer

/-- How many entries the instruction at an offset adds. -/
def RefSeq.entriesAt (source : Source) (offset : Nat) : Nat :=
  if RefSeq.isRecorded source offset then 1 else 0

theorem Timeline.setDuration_size (timeline : Timeline) (index duration : Nat) :
    (timeline.setDuration index duration).Ensures fun next => next.size = timeline.size := by
  unfold setDuration
  split
  · split
    · exact Except.ensures_ok rfl
    · exact Except.ensures_ok (by simp [size])
  · rintro next ⟨⟩

theorem Sheet.setDuration_size (sheet : Sheet) (entry : Option Nat) (duration : Nat) :
    (sheet.setDuration entry duration).Ensures fun next =>
      next.timeline.size = sheet.timeline.size := by
  cases entry with
  | none => exact Except.ensures_ok rfl
  | some index =>
    exact (sheet.timeline.setDuration_size index duration).bind fun _ size => Except.ensures_ok size

theorem TimedNote.endAll_size (chosen : TimedNote → Bool) (tick : Nat) (sheet : Sheet)
    (notes : List TimedNote) : (endAll chosen tick sheet notes).Ensures fun ended =>
      ended.2.timeline.size = sheet.timeline.size := by
  induction notes generalizing sheet with
  | nil => exact Except.ensures_ok rfl
  | cons note rest ih =>
    have ended : (note.endIf chosen tick sheet).Ensures fun ended =>
        ended.2.timeline.size = sheet.timeline.size := by
      unfold endIf
      split
      · refine (sheet.setDuration_size note.entry _).bind fun timed size => ?_
        refine (timed.setTick_timeline note.noteOff _).bind fun moved same => ?_
        exact Except.ensures_ok ((congrArg Timeline.size same).trans size)
      · exact Except.ensures_ok rfl
    rw [endAll_cons]
    refine ended.bind ?_
    rintro ⟨_, middle⟩ size ⟨_, last⟩ done
    obtain ⟨⟨_, _⟩, rested, same⟩ := Except.map_eq_ok.mp done
    cases same
    exact (ih middle _ rested).trans size

theorem OpenNote.closeAll_size (writing : Bool) (channel : UInt8) (tick : Nat) (sheet : Sheet)
    (notes : List OpenNote) : (closeAll writing channel tick sheet notes).Ensures fun next =>
      next.timeline.size = sheet.timeline.size := by
  induction notes generalizing sheet with
  | nil => exact Except.ensures_ok rfl
  | cons note rest ih =>
    have closed : (note.close writing channel tick sheet).Ensures fun next =>
        next.timeline.size = sheet.timeline.size := by
      unfold close
      refine (sheet.setDuration_size note.entry _).bind fun timed size => ?_
      cases writing <;> exact Except.ensures_ok size
    refine closed.bind fun middle size => ?_
    exact (ih middle).mono fun last same => same.trans size

namespace Player

/-- Neither the registers of the track have changed nor how many entries the timeline has. -/
structure Calm (player next : Player) : Prop where
  setting : next.setting = player.setting
  index : next.track.index = player.track.index
  registers : next.track.registers = player.track.registers
  size : next.shared.timeline.size = player.shared.timeline.size

variable {player next last : Player} {more : Bool}

theorem Calm.refl (player : Player) : player.Calm player := ⟨rfl, rfl, rfl, rfl⟩

theorem Calm.trans (left : player.Calm next) (right : next.Calm last) : player.Calm last :=
  ⟨right.setting.trans left.setting, right.index.trans left.index,
    right.registers.trans left.registers, right.size.trans left.size⟩

theorem emit_calm (player : Player) (tick : Nat) (message : MidiMessage)
    (transposeTick : Option Nat) : player.Calm (player.emit tick message transposeTick) := by
  unfold emit
  split <;> exact ⟨rfl, rfl, rfl, rfl⟩

theorem conduct_calm (player : Player) (tick : Nat) (message : MidiMessage) :
    player.Calm (player.conduct tick message) := by
  unfold conduct
  split <;> exact ⟨rfl, rfl, rfl, rfl⟩

theorem foldl_calm {α : Type} (act : Player → α → Player)
    (each : ∀ (player : Player) (item : α), player.Calm (act player item)) (items : List α)
    (player : Player) : player.Calm (items.foldl act player) := by
  induction items generalizing player with
  | nil => exact .refl player
  | cons item rest ih => exact (each player item).trans (ih _)

theorem endNotes_calm (player : Player) (closing : List OpenNote) (chosen : TimedNote → Bool)
    (tick : Nat) : (player.endNotes closing chosen tick).Ensures player.Calm := by
  unfold endNotes
  refine (OpenNote.closeAll_size _ _ tick player.sheet closing).bind fun closed first => ?_
  refine (TimedNote.endAll_size chosen tick closed _).bind ?_
  rintro ⟨notes, sheet⟩ second
  exact Except.ensures_ok ⟨rfl, rfl, rfl, second.trans first⟩

theorem withOpen_calm (player : Player) (opened closing : List OpenNote)
    (chosen : TimedNote → Bool) (tick : Nat) :
    ((player.withOpen opened).endNotes closing chosen tick).Ensures player.Calm :=
  (endNotes_calm _ _ _ _).mono fun _ calm =>
    ⟨calm.setting, calm.index, calm.registers, calm.size⟩

theorem cutKey_calm (player : Player) (key : UInt8) :
    (player.cutKey key).Ensures player.Calm := by
  rw [cutKey_eq]
  exact withOpen_calm player _ _ _ _

theorem startNote_calm (player : Player) (key velocity : UInt8) (entry : Option Nat) :
    (player.startNote key velocity entry).Ensures player.Calm := by
  refine (cutKey_calm player key).bind fun cut calm => Except.ensures_ok ?_
  have begun := emit_calm cut cut.track.time (.noteOn (cut.track.soundingKey key).1 velocity)
    (cut.track.soundingKey key).2
  exact calm.trans ⟨begun.setting, begun.index, begun.registers, begun.size⟩

theorem startTimedNote_calm (player : Player) (key velocity : UInt8) (duration : Nat)
    (entry : Option Nat) :
    (player.startTimedNote key velocity duration entry).Ensures player.Calm := by
  refine (cutKey_calm player key).bind fun cut calm => Except.ensures_ok ?_
  have begun := emit_calm cut cut.track.time (.noteOn (cut.track.soundingKey key).1 velocity)
    (cut.track.soundingKey key).2
  have ended := begun.trans (emit_calm _ (Tick.later cut.track.time duration)
    (.noteOff (cut.track.soundingKey key).1) (cut.track.soundingKey key).2)
  exact calm.trans ⟨ended.setting, ended.index, ended.registers, ended.size⟩

theorem endNote_calm (player : Player) (key : UInt8) :
    (player.endNote key).Ensures player.Calm := by
  unfold endNote
  split
  · exact Except.ensures_ok (.refl player)
  · exact withOpen_calm player _ _ _ _

theorem limitNotes_calm (player : Player) (tick : Nat) :
    (player.limitNotes tick).Ensures player.Calm :=
  (endNotes_calm player _ _ _).bind fun _ calm =>
    Except.ensures_ok ⟨calm.setting, calm.index, calm.registers, calm.size⟩

theorem finish_calm (player : Player) : player.finish.Ensures player.Calm := by
  refine (withOpen_calm player [] player.track.openNotes _ player.track.time).bind
    fun ended calm => Except.ensures_ok ?_
  have last := calm.trans (emit_calm ended player.track.time .endOfTrack none)
  exact ⟨last.setting, last.index, last.registers, last.size⟩

theorem slideLevel_calm (player : Player) (dial : Dial) (target : UInt8) (duration : Nat) :
    player.Calm (player.slideLevel dial target duration) := by
  unfold slideLevel
  dsimp only
  split
  · exact ⟨rfl, rfl, rfl, rfl⟩
  · split
    · have written := foldl_calm
        (fun player change =>
          player.emit change.1 (.control dial.controller (UInt8.ofNat change.2)) none)
        (fun player _ => emit_calm player _ _ none) (player.levelRamp dial target duration).changes
        player
      exact ⟨written.setting, written.index, written.registers, written.size⟩
    · exact ⟨rfl, rfl, rfl, rfl⟩

theorem conductAll_calm (player : Player) (message : Nat → MidiMessage)
    (changes : List (Nat × Nat)) : player.Calm (if player.writing then
      changes.foldl (fun player (change : Nat × Nat) =>
        player.conduct change.1 (message change.2)) player
      else player) := by
  split
  · exact foldl_calm _ (fun player _ => conduct_calm player _ _) changes player
  · exact .refl player

theorem moveDial_calm (player : Player) (tick : Nat) (dial : Dial) :
    player.Calm (player.moveDial tick dial) := by
  unfold moveDial
  dsimp only
  split
  · exact .refl player
  · split
    · have moved := emit_calm player tick
        (.control dial.controller (UInt8.ofNat (Ramp.valueAt ‹_› tick))) none
      exact ⟨moved.setting, moved.index, moved.registers, moved.size⟩
    · exact ⟨rfl, rfl, rfl, rfl⟩

theorem moveDials_calm (player : Player) (tick : Nat) : player.Calm (player.moveDials tick) :=
  ((moveDial_calm player tick .volume).trans (moveDial_calm _ tick .expression)).trans
    (moveDial_calm _ tick .pan)

theorem take_calm {turn : Turn} (taken : player.take turn = .ok (more, next)) :
    player.Calm next := by
  cases turn with
  | halt =>
    cases taken
    exact .refl player
  | onward cursor =>
    cases taken
    exact ⟨rfl, rfl, rfl, rfl⟩
  | transfer cursor destination =>
    obtain ⟨⟨allowed, guard⟩, _, done⟩ := Except.bind_eq_ok.mp taken
    cases done
    exact ⟨rfl, rfl, rfl, rfl⟩

/-- An instruction was carried out: the registers are what it makes of them, and it has added
`entries` entries. -/
structure Heeds (player : Player) (registers : Registers) (entries : Nat) (next : Player) : Prop where
  setting : next.setting = player.setting
  index : next.track.index = player.track.index
  registers : next.track.registers = registers
  size : next.shared.timeline.size = player.shared.timeline.size + entries

theorem Calm.heeds {registers : Registers} (calm : player.Calm next)
    (same : registers = player.track.registers) : player.Heeds registers 0 next :=
  ⟨calm.setting, calm.index, calm.registers.trans same.symm, calm.size⟩

theorem perform_heeds (player : Player) (kind : EventKind) (entry : Option Nat) :
    (player.perform kind entry).Ensures fun (_, next) =>
      player.Heeds (player.track.registers.after kind) 0 next := by
  have goes {x : Except Fault Player} (ensures : x.Ensures player.Calm)
      (still : player.track.registers.after kind = player.track.registers) :
      (x >>= goOn).Ensures fun (_, next) =>
        player.Heeds (player.track.registers.after kind) 0 next :=
    ensures.bind fun _ calm => Except.ensures_ok (calm.heeds still)
  have told (messages : List MidiMessage) : player.Calm (player.emitAll messages) :=
    foldl_calm _ (fun player message => emit_calm player _ message none) messages player
  cases kind with
  | noteOn key velocity => exact goes (startNote_calm player key velocity entry) rfl
  | noteOff key => exact goes (endNote_calm player key) rfl
  | note key velocity duration =>
    exact goes (startTimedNote_calm player key velocity duration entry) rfl
  | rest ticks => exact Except.ensures_ok ⟨rfl, rfl, rfl, rfl⟩
  | hold ticks =>
    refine (endNotes_calm player [] TimedNote.tracked _).bind fun held calm => ?_
    exact Except.ensures_ok ⟨calm.setting, calm.index, calm.registers, calm.size⟩
  | level dial value =>
    have set : player.Calm { player with
        track := { player.track with dials := player.track.dials.set dial ⟨value, none⟩ } } :=
      ⟨rfl, rfl, rfl, rfl⟩
    exact Except.ensures_ok ((set.trans (emit_calm ..)).heeds rfl)
  | slide dial target duration =>
    exact Except.ensures_ok ((slideLevel_calm player dial target duration).heeds rfl)
  | masterLevel value =>
    have set : player.Calm { player with
        shared := { player.shared with masterVolume := value, masterRamp := none } } :=
      ⟨rfl, rfl, rfl, rfl⟩
    exact Except.ensures_ok ((set.trans (conduct_calm ..)).heeds rfl)
  | masterSlide target duration =>
    refine Except.ensures_ok ?_
    unfold slideMasterLevel
    cases player.setting.tickSync with
    | true => exact ⟨rfl, rfl, rfl, rfl⟩
    | false =>
      obtain ⟨setting, index, registers, size⟩ := conductAll_calm player
        (fun value => .masterVolume (masterVolume14 (UInt8.ofNat value))) _
      exact ⟨setting, index, registers, size⟩
  | tempo bpm =>
    have set : player.Calm { player with shared := { player.shared with tempo := bpm } } :=
      ⟨rfl, rfl, rfl, rfl⟩
    exact Except.ensures_ok ((set.trans (conduct_calm ..)).heeds rfl)
  | tempoSlide target duration =>
    obtain ⟨setting, index, registers, size⟩ := conductAll_calm player
      (fun micros => .tempo micros) _
    exact Except.ensures_ok ⟨setting, index, registers, size⟩
  | timeSignature numerator denominator ticksPerQuarter =>
    exact Except.ensures_ok ((conduct_calm ..).heeds rfl)
  | transpose scope semitones =>
    cases scope with
    | all => exact Except.ensures_ok ((told _).heeds rfl)
    | own => exact Except.ensures_ok ⟨rfl, rfl, rfl, rfl⟩
  | octave | keyCorrection | drum => exact Except.ensures_ok ⟨rfl, rfl, rfl, rfl⟩
  | jump | call | ret | loopStart | loopEnd | loopForever | trackEnd =>
    rintro ⟨more, next⟩ done
    rw [perform_of_isControlFlow rfl] at done
    exact (take_calm done).heeds rfl
  | _ => exact Except.ensures_ok ((told _).heeds rfl)

theorem noted_heeds (player : Player) (stop : Nat) (kind : EventKind) :
    player.Heeds player.track.registers 1 (player.noted stop kind) :=
  ⟨rfl, rfl, rfl, Array.size_push _⟩

/-- What a step makes of the registers, in any pass, and whether it adds an entry. -/
theorem advance_heeds (player : Player) : player.advance.Ensures fun (_, next) =>
    player.Heeds (player.reading.after player.setting.source)
      (RefSeq.entriesAt player.setting.source player.track.cursor.offset) next := by
  rintro ⟨more, next⟩ advanced
  have recorded := isRecorded_eq player
  have kind := player.kind_reading
  unfold recording? at recorded
  cases advance_iff.mp advanced with
  | unreadable read =>
    rw [read] at recorded kind
    refine ⟨rfl, rfl, by rw [Reading.after, kind]; rfl, ?_⟩
    rw [RefSeq.entriesAt, ← recorded]
    rfl
  | unknown read =>
    rw [read] at recorded kind
    obtain ⟨setting, index, registers, size⟩ := player.noted_heeds _ _
    refine ⟨setting, index, by rw [Reading.after, kind]; exact registers, ?_⟩
    rw [RefSeq.entriesAt, ← recorded]
    exact size
  | @cut stop _ read limited =>
    rw [read] at recorded kind
    obtain ⟨setting, index, registers, size⟩ := limitNotes_calm _ _ _ limited
    refine ⟨setting, index, by rw [Reading.after, kind]; exact registers, ?_⟩
    rw [RefSeq.entriesAt, ← recorded]
    exact size
  | @event instruction stop kind' _ _ read known performed =>
    rw [read] at recorded kind
    have named : instruction.recorded? player.track = some kind' := by
      cases instruction <;> first | exact known | cases known
    obtain ⟨setting, index, registers, size⟩ := perform_heeds _ kind' _ _ performed
    refine ⟨setting, index, ?_, ?_⟩
    · rw [Reading.after, kind]
      dsimp only
      rw [named]
      exact registers
    · have enters : RefSeq.isRecorded player.setting.source player.track.cursor.offset = true := by
        rw [← recorded]
        simp [named]
      rw [RefSeq.entriesAt, if_pos enters]
      exact size.trans (player.noted_heeds stop kind').size

end Player
end Sequencer
