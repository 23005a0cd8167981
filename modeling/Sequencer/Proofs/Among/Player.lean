import Sequencer.Proofs.Among.Shared

/-! A player among others. Its track is that of a player on its own, but for the indices of its
entries and the ticks that it waits. -/
namespace Sequencer

def Track.relabel (own : List Nat) (delay : Nat) (track : Track) : Track :=
  { track with
    cursor := { track.cursor with delay }
    timedNotes := track.timedNotes.map (TimedNote.relabel own)
    openNotes := track.openNotes.map (OpenNote.relabel own) }

theorem Track.relabel_append {own : List Nat} {sheet : Sheet} {track : Track}
    (size : own.length = sheet.timeline.size)
    (timed : ∀ note ∈ track.timedNotes, note.Within sheet)
    (opened : ∀ note ∈ track.openNotes, note.Within sheet) (new delay : Nat) :
    track.relabel (own ++ [new]) delay = track.relabel own delay := by
  have timedSame : track.timedNotes.map (TimedNote.relabel (own ++ [new])) =
      track.timedNotes.map (TimedNote.relabel own) :=
    List.map_congr_left fun note member =>
      TimedNote.relabel_append size (timed note member) _
  have openedSame : track.openNotes.map (OpenNote.relabel (own ++ [new])) =
      track.openNotes.map (OpenNote.relabel own) :=
    List.map_congr_left fun note member =>
      OpenNote.relabel_append size (opened note member) _
  unfold Track.relabel
  rw [timedSame, openedSame]

namespace Player

/-- Another player has the same track, among others. -/
structure Twins (own : List Nat) (solo real : Player) : Prop where
  setting : real.setting = solo.setting
  track : ∃ delay, real.track = solo.track.relabel own delay

structure Keeps (player next : Player) : Prop where
  timeline : next.shared.timeline = player.shared.timeline
  arena : next.shared.arena = player.shared.arena
  index : next.track.index = player.track.index

/-- What a player does among others, given what it does on its own: its own entries are the same,
and of what all tracks shared `before` nothing else has changed. -/
structure Mirrors (own : List Nat) (before : Shared) (solo real : Player) : Prop where
  twins : Twins own solo real
  arenas : solo.shared.arena.Sound ∧ real.shared.arena.Sound
  timeline : Timeline.Hosts (Arena.SamePlace solo.track.index solo.shared.arena
    real.shared.arena) own solo.shared.timeline real.shared.timeline
  spares : Timeline.Spares own before.timeline real.shared.timeline
  stored : real.shared.arena = before.arena

variable {own : List Nat} {before : Shared} {solo real solo' real' : Player}

theorem Keeps.refl (player : Player) : player.Keeps player := ⟨rfl, rfl, rfl⟩

theorem Mirrors.plain (mirrors : Mirrors own before solo real) (mine : solo.Keeps solo')
    (theirs : real.Keeps real') (twins : Twins own solo' real') :
    Mirrors own before solo' real' where
  twins := twins
  arenas := by rw [mine.arena, theirs.arena]; exact mirrors.arenas
  timeline := by
    rw [mine.index, mine.arena, theirs.arena, mine.timeline, theirs.timeline]
    exact mirrors.timeline
  spares := by rw [theirs.timeline]; exact mirrors.spares
  stored := by rw [theirs.arena]; exact mirrors.stored

theorem emit_keeps (player : Player) (tick : Nat) (message : MidiMessage)
    (transposeTick : Option Nat) : player.Keeps (player.emit tick message transposeTick) := by
  unfold emit
  split <;> exact ⟨rfl, rfl, rfl⟩

theorem Twins.emit (twins : Twins own solo real) (tick : Nat) (message : MidiMessage)
    (transposeTick : Option Nat) :
    Twins own (solo.emit tick message transposeTick) (real.emit tick message transposeTick) := by
  obtain ⟨setting, track, shared⟩ := real
  obtain ⟨rfl, delay, rfl⟩ := twins
  unfold Player.emit writing
  dsimp only
  split <;> exact ⟨rfl, delay, rfl⟩

theorem Mirrors.emit (mirrors : Mirrors own before solo real) (tick : Nat)
    (message : MidiMessage) (transposeTick : Option Nat) :
    Mirrors own before (solo.emit tick message transposeTick)
      (real.emit tick message transposeTick) :=
  mirrors.plain (emit_keeps ..) (emit_keeps ..) (mirrors.twins.emit ..)

theorem Mirrors.foldl {α : Type} {act : Player → α → Player}
    (each : ∀ (solo real : Player) (item : α), Mirrors own before solo real →
      Mirrors own before (act solo item) (act real item))
    (mirrors : Mirrors own before solo real) (items : List α) :
    Mirrors own before (items.foldl act solo) (items.foldl act real) := by
  induction items generalizing solo real with
  | nil => exact mirrors
  | cons item rest ih => exact ih (each solo real item mirrors)

theorem Mirrors.register (mirrors : Mirrors own before solo real) (change : Track → Track)
    (index : ∀ track, (change track).index = track.index)
    (blind : ∀ track delay, ∃ delay', change (track.relabel own delay) =
      (change track).relabel own delay') :
    Mirrors own before (solo.withTrack (change solo.track)) (real.withTrack (change real.track)) := by
  refine mirrors.plain ⟨rfl, rfl, index _⟩ ⟨rfl, rfl, index _⟩ ⟨mirrors.twins.setting, ?_⟩
  obtain ⟨delay, same⟩ := mirrors.twins.track
  obtain ⟨delay', changed⟩ := blind solo.track delay
  exact ⟨delay', by rw [same]; exact changed⟩

theorem Mirrors.setDial (mirrors : Mirrors own before solo real) (dial : Dial)
    (state : DialState) : Mirrors own before
      (solo.withTrack { solo.track with dials := solo.track.dials.set dial state })
      (real.withTrack { real.track with dials := real.track.dials.set dial state }) :=
  mirrors.register (fun track => { track with dials := track.dials.set dial state })
    (fun _ => rfl) fun _ delay => ⟨delay, rfl⟩

theorem Mirrors.wait (mirrors : Mirrors own before solo real) (ticks : Nat) :
    Mirrors own before (solo.wait ticks) (real.wait ticks) :=
  mirrors.register (fun track => { track with
    time := Tick.later track.time ticks
    cursor := { track.cursor with delay := Tick.later track.cursor.delay ticks } })
    (fun _ => rfl) fun _ delay => ⟨Tick.later delay ticks, rfl⟩

/-- What a player on its own and one among others have in common, spelled out. -/
theorem Mirrors.real_eq (mirrors : Mirrors own before solo real) :
    ∃ delay, real = ⟨solo.setting, solo.track.relabel own delay, real.shared⟩ := by
  obtain ⟨setting, track, shared⟩ := real
  obtain ⟨rfl, delay, rfl⟩ := mirrors.twins
  exact ⟨delay, rfl⟩

theorem Mirrors.emitAll (mirrors : Mirrors own before solo real) (messages : List MidiMessage) :
    Mirrors own before (solo.emitAll messages) (real.emitAll messages) := by
  refine mirrors.foldl (fun solo real message mirrors => ?_) messages
  obtain ⟨delay, same⟩ := mirrors.real_eq
  have emitted := mirrors.emit solo.now message none
  rw [same] at emitted ⊢
  exact emitted

theorem Mirrors.setLevel (mirrors : Mirrors own before solo real) (dial : Dial) (value : UInt8) :
    Mirrors own before (solo.setLevel dial value) (real.setLevel dial value) := by
  obtain ⟨delay, same⟩ := mirrors.real_eq
  have emitted := (mirrors.setDial dial ⟨value, none⟩).emit solo.now
    (.control dial.controller value) none
  rw [same] at emitted ⊢
  exact emitted

theorem Mirrors.slideLevel (mirrors : Mirrors own before solo real) (dial : Dial)
    (target : UInt8) (duration : Nat) : Mirrors own before (solo.slideLevel dial target duration)
      (real.slideLevel dial target duration) := by
  have ahead (ramp : Ramp) : Mirrors own before
      (if solo.writing then ramp.changes.foldl (fun player (change : Nat × Nat) =>
        player.emit change.1 (.control dial.controller (UInt8.ofNat change.2)) none) solo
      else solo)
      (if solo.writing then ramp.changes.foldl (fun player (change : Nat × Nat) =>
        player.emit change.1 (.control dial.controller (UInt8.ofNat change.2)) none) real
      else real) := by
    split
    · refine mirrors.foldl (fun _ _ change mirrors => ?_) _
      exact mirrors.emit change.1 (.control dial.controller (UInt8.ofNat change.2)) none
    · exact mirrors
  have begun (ramp : Ramp) := mirrors.setDial dial
    { solo.track.dials.get dial with ramp := some ramp }
  have ended (ramp : Ramp) := (ahead ramp).setDial dial
    { solo.track.dials.get dial with level := target }
  obtain ⟨delay, same⟩ := mirrors.real_eq
  rw [same] at begun ended ⊢
  unfold Player.slideLevel
  dsimp only [now, writing, Track.relabel] at begun ended ⊢
  split
  · exact begun _
  · exact ended _

theorem Mirrors.moveDial (mirrors : Mirrors own before solo real) (tick : Nat) (dial : Dial) :
    Mirrors own before (solo.moveDial tick dial) (real.moveDial tick dial) := by
  have emitted (message : MidiMessage) (state : DialState) :=
    (mirrors.emit tick message none).setDial dial state
  have moved (state : DialState) := mirrors.setDial dial state
  obtain ⟨delay, same⟩ := mirrors.real_eq
  rw [same] at mirrors emitted moved ⊢
  unfold Player.moveDial
  dsimp only [Track.relabel] at emitted moved ⊢
  cases (solo.track.dials.get dial).ramp with
  | none => exact mirrors
  | some ramp =>
    dsimp only
    split
    · exact emitted _ _
    · exact moved _

theorem Mirrors.moveDials (mirrors : Mirrors own before solo real) (tick : Nat) :
    Mirrors own before (solo.moveDials tick) (real.moveDials tick) :=
  ((mirrors.moveDial tick .volume).moveDial tick .expression).moveDial tick .pan

/-- The players share other levels, tempo and messages at most. -/
structure Still (player next : Player) : Prop where
  setting : next.setting = player.setting
  track : next.track = player.track
  timeline : next.shared.timeline = player.shared.timeline
  arena : next.shared.arena = player.shared.arena

theorem Still.refl (player : Player) : player.Still player := ⟨rfl, rfl, rfl, rfl⟩

theorem Still.trans {first second third : Player} (left : first.Still second)
    (right : second.Still third) : first.Still third :=
  ⟨right.setting.trans left.setting, right.track.trans left.track,
    right.timeline.trans left.timeline, right.arena.trans left.arena⟩

theorem Mirrors.still (mirrors : Mirrors own before solo real) (mine : solo.Still solo')
    (theirs : real.Still real') : Mirrors own before solo' real' := by
  refine mirrors.plain ⟨mine.timeline, mine.arena, congrArg Track.index mine.track⟩
    ⟨theirs.timeline, theirs.arena, congrArg Track.index theirs.track⟩ ⟨?_, ?_⟩
  · rw [theirs.setting, mine.setting]
    exact mirrors.twins.setting
  · rw [theirs.track, mine.track]
    exact mirrors.twins.track

theorem conduct_still (player : Player) (tick : Nat) (message : MidiMessage) :
    player.Still (player.conduct tick message) := by
  unfold conduct
  split <;> exact ⟨rfl, rfl, rfl, rfl⟩

theorem foldl_still {α : Type} {act : Player → α → Player}
    (each : ∀ (player : Player) (item : α), player.Still (act player item)) (player : Player)
    (items : List α) : player.Still (items.foldl act player) := by
  induction items generalizing player with
  | nil => exact .refl player
  | cons item rest ih => exact (each player item).trans (ih _)

theorem setMasterLevel_still (player : Player) (value : UInt8) :
    player.Still (player.setMasterLevel value) := by
  have conducted := conduct_still { player with
    shared := { player.shared with masterVolume := value, masterRamp := none } }
    player.now (.masterVolume (masterVolume14 value))
  exact ⟨conducted.setting, conducted.track, conducted.timeline, conducted.arena⟩

theorem slideMasterLevel_still (player : Player) (target : UInt8) (duration : Nat) :
    player.Still (player.slideMasterLevel target duration) := by
  unfold slideMasterLevel
  dsimp only
  split
  · exact ⟨rfl, rfl, rfl, rfl⟩
  · split
    · have ahead := foldl_still (fun player (change : Nat × Nat) => conduct_still player change.1
        (.masterVolume (masterVolume14 (UInt8.ofNat change.2)))) player (Ramp.between .level
          player.now duration player.shared.masterVolume.toNat target.toNat).changes
      exact ⟨ahead.setting, ahead.track, ahead.timeline, ahead.arena⟩
    · exact ⟨rfl, rfl, rfl, rfl⟩

theorem setTempo_still (player : Player) (bpm : Float) : player.Still (player.setTempo bpm) := by
  have conducted := conduct_still { player with
    shared := { player.shared with tempo := bpm } } player.now (.tempo (microsOfBpm bpm))
  exact ⟨conducted.setting, conducted.track, conducted.timeline, conducted.arena⟩

theorem slideTempo_still (player : Player) (target : Float) (duration : Nat) :
    player.Still (player.slideTempo target duration) := by
  unfold slideTempo
  dsimp only
  split
  · have ahead := foldl_still (fun player (change : Nat × Nat) => conduct_still player change.1
      (.tempo change.2)) player (Ramp.changes
        ⟨.tempo, player.now, duration, player.shared.tempo, target⟩)
    exact ⟨ahead.setting, ahead.track, ahead.timeline, ahead.arena⟩
  · exact ⟨rfl, rfl, rfl, rfl⟩

theorem Mirrors.sheet (mirrors : Mirrors own before solo real) :
    Sheet.Hosts (Arena.SamePlace solo.track.index solo.shared.arena real.shared.arena) own
      before.timeline solo.sheet real.sheet := by
  refine ⟨?_, mirrors.timeline, mirrors.spares⟩
  obtain ⟨delay, same⟩ := mirrors.twins.track
  change real.track.midi = solo.track.midi
  rw [same]
  rfl

theorem Mirrors.endNotes (mirrors : Mirrors own before solo real) (closing : List OpenNote)
    (chosen : TimedNote → Bool)
    (alike : ∀ note : TimedNote, chosen (note.relabel own) = chosen note) (tick : Nat) :
    (solo.endNotes closing chosen tick).Follows (Mirrors own before)
      (real.endNotes (closing.map (OpenNote.relabel own)) chosen tick) := by
  have hosts := mirrors.sheet
  obtain ⟨setting, track, shared⟩ := real
  obtain ⟨⟨rfl, delay, rfl⟩, arenas, _, _, stored⟩ := mirrors
  refine (OpenNote.closeAll_hosts solo.writing solo.track.channel tick hosts closing).bind ?_
  intro mine theirs hosts
  refine (TimedNote.endAll_hosts alike tick hosts solo.track.timedNotes).bind ?_
  rintro ⟨notes, mine, midi⟩ ⟨_, theirs, midi'⟩ ⟨rfl, messages, timeline, spares⟩
  have same : midi' = midi := messages
  subst same
  exact Except.follows_ok ⟨⟨rfl, delay, rfl⟩, arenas, timeline, spares, stored⟩

theorem Mirrors.time (mirrors : Mirrors own before solo real) :
    real.track.time = solo.track.time := by
  obtain ⟨delay, same⟩ := mirrors.twins.track
  rw [same]
  rfl

theorem Mirrors.openNotes (mirrors : Mirrors own before solo real) :
    real.track.openNotes = solo.track.openNotes.map (OpenNote.relabel own) := by
  obtain ⟨delay, same⟩ := mirrors.twins.track
  rw [same]
  rfl

theorem Mirrors.dropOpen (mirrors : Mirrors own before solo real) (notes : List OpenNote) :
    Mirrors own before (solo.withTrack { solo.track with openNotes := notes })
      (real.withTrack { real.track with openNotes := notes.map (OpenNote.relabel own) }) := by
  refine mirrors.plain ⟨rfl, rfl, rfl⟩ ⟨rfl, rfl, rfl⟩ ⟨mirrors.twins.setting, ?_⟩
  obtain ⟨delay, same⟩ := mirrors.twins.track
  exact ⟨delay, by rw [same]; rfl⟩

theorem Mirrors.setTimed (mirrors : Mirrors own before solo real) (notes : List TimedNote) :
    Mirrors own before (solo.withTrack { solo.track with timedNotes := notes })
      (real.withTrack { real.track with timedNotes := notes.map (TimedNote.relabel own) }) := by
  refine mirrors.plain ⟨rfl, rfl, rfl⟩ ⟨rfl, rfl, rfl⟩ ⟨mirrors.twins.setting, ?_⟩
  obtain ⟨delay, same⟩ := mirrors.twins.track
  exact ⟨delay, by rw [same]; rfl⟩

theorem Mirrors.cutKey (mirrors : Mirrors own before solo real) (key : UInt8) :
    (solo.cutKey key).Follows (Mirrors own before) (real.cutKey key) := by
  have parted : (solo.track.openNotes.map (OpenNote.relabel own)).partition
        (fun note => note.key = key) =
      ((solo.track.openNotes.partition fun note => note.key = key).1.map (OpenNote.relabel own),
        (solo.track.openNotes.partition fun note => note.key = key).2.map
          (OpenNote.relabel own)) := by
    rw [List.partition_eq_filter_filter, List.partition_eq_filter_filter, List.filter_map,
      List.filter_map]
    rfl
  unfold Player.cutKey
  rw [mirrors.openNotes, parted, mirrors.time]
  exact (mirrors.dropOpen _).endNotes _ _ (fun _ => rfl) solo.track.time

theorem Mirrors.startNote (mirrors : Mirrors own before solo real) (key velocity : UInt8)
    (entry : Option Nat) : (solo.startNote key velocity entry).Follows (Mirrors own before)
      (real.startNote key velocity (entry.map (relabel own))) := by
  refine (mirrors.cutKey key).bind ?_
  intro mine theirs cut
  have emitted := cut.emit mine.track.time
    (.noteOn (mine.track.soundingKey key).1 velocity) (mine.track.soundingKey key).2
  have opened := emitted.dropOpen ((mine.emit mine.track.time
    (.noteOn (mine.track.soundingKey key).1 velocity)
    (mine.track.soundingKey key).2).track.openNotes ++
      [⟨key, (mine.track.soundingKey key).1, mine.track.time, entry,
        (mine.track.soundingKey key).2⟩])
  rw [List.map_append, ← emitted.openNotes] at opened
  obtain ⟨delay, same⟩ := cut.real_eq
  rw [same] at opened ⊢
  exact Except.follows_ok opened

theorem find_relabel (own : List Nat) (key : UInt8) (notes : List OpenNote) :
    (notes.map (OpenNote.relabel own)).find? (fun note => note.key = key) =
      (notes.find? fun note => note.key = key).map (OpenNote.relabel own) := by
  rw [List.find?_map]
  rfl

theorem Mirrors.endNote (mirrors : Mirrors own before solo real) (key : UInt8) :
    (solo.endNote key).Follows (Mirrors own before) (real.endNote key) := by
  unfold Player.endNote
  rw [mirrors.openNotes, find_relabel]
  cases solo.track.openNotes.find? fun note => note.key = key with
  | none => exact Except.follows_ok mirrors
  | some note =>
    have erased : (solo.track.openNotes.map (OpenNote.relabel own)).eraseP
          (fun note => note.key = key) =
        (solo.track.openNotes.eraseP fun note => note.key = key).map (OpenNote.relabel own) := by
      rw [List.eraseP_map]
      rfl
    have follows := (mirrors.dropOpen
      (solo.track.openNotes.eraseP fun note => note.key = key)).endNotes [note]
        (fun _ => false) (fun _ => rfl) solo.track.time
    rw [← erased] at follows
    obtain ⟨delay, same⟩ := mirrors.real_eq
    rw [same] at follows ⊢
    exact follows

theorem TimedNote.relabel_beforeNote (own : List Nat) (now : Nat) (notes : List TimedNote) :
    TimedNote.beforeNote now (notes.map (TimedNote.relabel own)) =
      (TimedNote.beforeNote now notes).map (TimedNote.relabel own) := by
  have any : (notes.map (TimedNote.relabel own)).any
        (fun note => note.tracked && decide (note.start ≠ now)) =
      notes.any fun note => note.tracked && decide (note.start ≠ now) := by
    rw [List.any_map]
    rfl
  unfold TimedNote.beforeNote
  rw [any]
  dsimp only
  split
  · rw [List.map_map, List.filter_map, List.filter_map, List.map_map]
    rfl
  · rw [List.filter_map]
    rfl

theorem Mirrors.timedNotes (mirrors : Mirrors own before solo real) :
    real.track.timedNotes = solo.track.timedNotes.map (TimedNote.relabel own) := by
  obtain ⟨delay, same⟩ := mirrors.twins.track
  rw [same]
  rfl

theorem Mirrors.startTimedNote (mirrors : Mirrors own before solo real) (key velocity : UInt8)
    (duration : Nat) (entry : Option Nat) :
    (solo.startTimedNote key velocity duration entry).Follows (Mirrors own before)
      (real.startTimedNote key velocity duration (entry.map (relabel own))) := by
  refine (mirrors.cutKey key).bind ?_
  intro mine theirs cut
  obtain ⟨delay, same⟩ := cut.real_eq
  have time : theirs.track.time = mine.track.time := cut.time
  have sounds : theirs.track.soundingKey key = mine.track.soundingKey key := by
    rw [same]
    rfl
  dsimp only
  rw [time, sounds]
  have sounding := cut.emit mine.track.time
    (.noteOn (mine.track.soundingKey key).1 velocity) (mine.track.soundingKey key).2
  generalize (mine.emit mine.track.time (.noteOn (mine.track.soundingKey key).1 velocity)
    (mine.track.soundingKey key).2) = mine' at sounding ⊢
  generalize (theirs.emit mine.track.time (.noteOn (mine.track.soundingKey key).1 velocity)
    (mine.track.soundingKey key).2) = theirs' at sounding ⊢
  have ending := sounding.emit (Tick.later mine.track.time duration)
    (.noteOff (mine.track.soundingKey key).1) (mine.track.soundingKey key).2
  have writing : theirs'.writing = mine'.writing := by
    unfold Player.writing
    rw [sounding.twins.setting]
  have midi : theirs'.track.midi = mine'.track.midi := sounding.sheet.midi
  rw [writing, midi, ending.timedNotes, TimedNote.relabel_beforeNote]
  have noted := ending.setTimed (TimedNote.beforeNote mine.track.time
    (mine'.emit (Tick.later mine.track.time duration)
      (.noteOff (mine.track.soundingKey key).1)
      (mine.track.soundingKey key).2).track.timedNotes ++
    [⟨key, mine.track.time, Tick.later mine.track.time duration, entry,
      if mine'.writing then some mine'.track.midi.size else none, true⟩])
  rw [List.map_append] at noted
  exact Except.follows_ok noted

theorem Mirrors.extendNotes (mirrors : Mirrors own before solo real) (tick : Nat) :
    (solo.extendNotes tick).Follows (Mirrors own before) (real.extendNotes tick) :=
  mirrors.endNotes [] TimedNote.tracked (fun _ => rfl) tick

theorem Mirrors.limitNotes (mirrors : Mirrors own before solo real) (tick : Nat) :
    (solo.limitNotes tick).Follows (Mirrors own before) (real.limitNotes tick) := by
  refine (mirrors.endNotes [] _ (fun _ => rfl) tick).bind ?_
  intro mine theirs ended
  have untracked := ended.setTimed (mine.track.timedNotes.map TimedNote.untrack)
  have swapped : (mine.track.timedNotes.map TimedNote.untrack).map (TimedNote.relabel own) =
      (mine.track.timedNotes.map (TimedNote.relabel own)).map TimedNote.untrack := by
    rw [List.map_map, List.map_map]
    rfl
  rw [swapped, ← ended.timedNotes] at untracked
  exact Except.follows_ok untracked

theorem Mirrors.finish (mirrors : Mirrors own before solo real) :
    solo.finish.Follows (Mirrors own before) real.finish := by
  have closed := (mirrors.dropOpen []).endNotes solo.track.openNotes (fun _ => false)
    (fun _ => rfl) solo.track.time
  rw [← mirrors.openNotes] at closed
  unfold Player.finish
  rw [mirrors.time]
  apply closed.bind
  intro mine theirs silent
  have ended := silent.emit solo.track.time .endOfTrack none
  have rested := ended.register (fun track => { track with
    active := false
    totalTicks := solo.track.time
    dials := track.dials.rest }) (fun _ => rfl) fun _ delay => ⟨delay, rfl⟩
  exact Except.follows_ok rested

end Player
end Sequencer
