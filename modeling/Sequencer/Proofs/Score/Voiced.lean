import Sequencer.Proofs.Player.Aside
import Sequencer.Proofs.Score.Player
import Sequencer.Proofs.Score.Voicing
import Sequencer.Proofs.Upkeep

/-! The notes of a player that writes messages. Whatever a decoder orders, notes that have ended are
couples of messages. A couple is on one channel if the channel stays the same while notes sound. -/
namespace Sequencer

variable {alike : UInt8 → UInt8 → Prop} {sounding : List (OpenNote × Nat)} {labelled : Labelled}

/-- The messages of the track are the notes that have ended, and those that still sound. -/
structure Track.VoicedBy (alike : UInt8 → UInt8 → Prop) (track : Track)
    (sounding : List (OpenNote × Nat)) (labelled : Labelled) : Prop where
  voicing : Voicing alike track.channel track.time track.midi sounding labelled
  opened : sounding.map Prod.fst = track.openNotes
  timed : ∀ note ∈ track.timedNotes, note.Ends labelled

structure Track.Sings (alike : UInt8 → UInt8 → Prop) (track : Track) : Prop where
  active : track.active = true
  within : track.time ≤ Tick.last
  voiced : ∃ sounding labelled, track.VoicedBy alike sounding labelled

/-- The track has ended, and all its notes are couples of messages. -/
structure Track.Sung (alike : UInt8 → UInt8 → Prop) (track : Track) : Prop where
  stopped : track.active = false
  couples : ∃ labelled : Labelled, labelled.Couples alike track.midi.events.toList

/-- A player that writes messages, and whose track sings. -/
structure Player.Sings (alike : UInt8 → UInt8 → Prop) (setting : Setting) (player : Player) :
    Prop where
  same : player.setting = setting
  writing : setting.pass = .midi
  track : player.track.Sings alike

theorem Track.Sings.of_noteless {track next : Track} (sings : track.Sings alike)
    (same : next.noteless = track.noteless) (voiced : next.VoicedBy alike sounding labelled) :
    next.Sings alike where
  active := by
    have active := congrArg Track.active same
    exact Eq.trans active sings.active
  within := by
    have time := congrArg Track.time same
    exact Nat.le_trans (Nat.le_of_eq time) sings.within
  voiced := ⟨_, _, voiced⟩

namespace Player

variable {setting : Setting} {player next : Player} {key velocity : UInt8} {entry : Option Nat}

theorem Sings.writes (sings : player.Sings alike setting) : player.writing = true := by
  refine decide_eq_true ?_
  rw [sings.same]
  exact sings.writing

theorem endNotes_voiced (player : Player) (writes : player.writing = true)
    (closing : List (OpenNote × Nat)) (voicing : Voicing alike player.track.channel
      player.track.time player.track.midi (closing ++ sounding) labelled)
    (opened : sounding.map Prod.fst = player.track.openNotes)
    (timed : ∀ note ∈ player.track.timedNotes, note.Ends labelled) (chosen : TimedNote → Bool)
    {tick : Nat} (late : ∀ note ∈ closing, note.1.start ≤ tick) :
    (player.endNotes (closing.map Prod.fst) chosen tick).Ensures fun next =>
      next.setting = player.setting ∧ next.track.noteless = player.track.noteless ∧
        ∃ labelled', next.track.VoicedBy alike sounding labelled' := by
  unfold endNotes
  dsimp only
  rw [writes]
  refine (voicing.closeAll late).bind ?_
  rintro closed ⟨labelled', voicing', grows⟩
  refine (voicing'.endAll (fun note member => (timed note member).grow grows) chosen tick).bind ?_
  rintro ⟨notes, sheet⟩ ⟨labelled'', voicing'', _, ends⟩
  exact Except.ensures_ok ⟨rfl, rfl, labelled'', voicing'', opened, ends⟩

/-- Notes are ended, and others go on. -/
theorem Sings.endNotes (sings : player.Sings alike setting)
    (voiced : player.track.VoicedBy alike sounding labelled) (closing : List (OpenNote × Nat))
    {rest : List (OpenNote × Nat)} (perm : (closing ++ rest).Perm sounding)
    {opened : List OpenNote} (left : rest.map Prod.fst = opened) (chosen : TimedNote → Bool)
    {tick : Nat} (late : ∀ note ∈ closing, note.1.start ≤ tick) :
    ((player.withOpen opened).endNotes (closing.map Prod.fst) chosen tick).Ensures fun next =>
      next.Sings alike setting ∧ ∃ labelled', next.track.VoicedBy alike rest labelled' := by
  refine (endNotes_voiced (player.withOpen opened) sings.writes closing
    (voiced.voicing.perm perm) left voiced.timed chosen late).mono ?_
  rintro next ⟨same, noteless, labelled', voiced'⟩
  exact ⟨⟨same.trans sings.same, sings.writing, sings.track.of_noteless noteless voiced'⟩,
    labelled', voiced'⟩

/-- Notes that sound are ended now. -/
theorem Sings.endNow (sings : player.Sings alike setting)
    (voiced : player.track.VoicedBy alike sounding labelled) (closing : List (OpenNote × Nat))
    {rest : List (OpenNote × Nat)} (perm : (closing ++ rest).Perm sounding)
    {opened : List OpenNote} (left : rest.map Prod.fst = opened) (chosen : TimedNote → Bool) :
    ((player.withOpen opened).endNotes (closing.map Prod.fst) chosen player.track.time).Ensures
      fun next => next.Sings alike setting ∧ ∃ labelled', next.track.VoicedBy alike rest labelled' :=
  sings.endNotes voiced closing perm left chosen fun note member =>
    (voiced.voicing.sounds note (perm.mem_iff.mp (List.mem_append_left _ member))).2

theorem Sings.cutKey (sings : player.Sings alike setting) (key : UInt8) :
    (player.cutKey key).Ensures (Player.Sings alike setting) := by
  obtain ⟨sounding, labelled, voiced⟩ := sings.track.voiced
  have split (keeps : OpenNote → Bool) : (sounding.filter (keeps ∘ Prod.fst)).map Prod.fst =
      player.track.openNotes.filter keeps := by
    rw [← voiced.opened, List.filter_map]
  have ended := sings.endNow voiced _
    (List.filter_append_perm ((fun note : OpenNote => decide (note.key = key)) ∘ Prod.fst) sounding)
    (split fun note => !decide (note.key = key))
    (fun note => note.key = key && note.start < player.track.time && player.track.time < note.stop)
  rw [split] at ended
  rw [cutKey_eq]
  exact ended.mono fun _ => And.left

theorem Sings.endNote (sings : player.Sings alike setting) (key : UInt8) :
    (player.endNote key).Ensures (Player.Sings alike setting) := by
  unfold Player.endNote
  split
  · exact Except.ensures_ok sings
  · rename_i note found
    obtain ⟨sounding, labelled, voiced⟩ := sings.track.voiced
    obtain ⟨same, before, after, notes, others⟩ := List.find?_eq_some_iff_append.mp found
    have erased : player.track.openNotes.eraseP (fun note => decide (note.key = key)) =
        before ++ after := by
      rw [notes, List.eraseP_append_right _ (fun other member => by simpa using others other member),
        List.eraseP_cons, same, cond_true]
    obtain ⟨first, last, rfl, left, right⟩ :=
      List.map_eq_append_iff.mp (voiced.opened.trans notes)
    obtain ⟨single, rest, rfl, here, rfl⟩ := List.map_eq_cons_iff.mp right
    have kept : (first ++ rest).map Prod.fst =
        player.track.openNotes.eraseP fun note => decide (note.key = key) := by
      rw [List.map_append, left, erased]
    have middle : (first ++ single :: rest).Perm (single :: (first ++ rest)) := List.perm_middle
    have ended := sings.endNow voiced [single] middle.symm kept fun _ => false
    rw [List.map_singleton, here] at ended
    exact ended.mono fun _ => And.left

/-- The ends of timed notes are moved. -/
theorem Sings.endTimed (sings : player.Sings alike setting) (chosen : TimedNote → Bool)
    (tick : Nat) : (player.endNotes [] chosen tick).Ensures (Player.Sings alike setting) := by
  obtain ⟨sounding, labelled, voiced⟩ := sings.track.voiced
  refine Except.Ensures.mono (sings.endNotes voiced [] (.refl sounding) voiced.opened chosen ?_)
    fun _ => And.left
  exact fun _ member => absurd member List.not_mem_nil

theorem Sings.withTimed (sings : player.Sings alike setting) {notes : List TimedNote}
    (known : ∀ note ∈ notes, ∃ earlier ∈ player.track.timedNotes, note.start = earlier.start ∧
      note.noteOff = earlier.noteOff) : (player.withTimed notes).Sings alike setting := by
  obtain ⟨sounding, labelled, voiced⟩ := sings.track.voiced
  refine ⟨sings.same, sings.writing, sings.track.active, sings.track.within, sounding, labelled,
    voiced.voicing, voiced.opened, fun note member => ?_⟩
  obtain ⟨earlier, there, start, noteOff⟩ := known note member
  have ends := voiced.timed earlier there
  unfold TimedNote.Ends at ends ⊢
  rw [start, noteOff]
  exact ends

theorem Sings.limitNotes (sings : player.Sings alike setting) (tick : Nat) :
    (player.limitNotes tick).Ensures (Player.Sings alike setting) := by
  rw [limitNotes_eq]
  rintro last done
  obtain ⟨ended, limited, rfl⟩ := Except.map_eq_ok.mp done
  refine (sings.endTimed _ tick _ limited).withTimed fun note member => ?_
  obtain ⟨earlier, there, rfl⟩ := List.mem_map.mp member
  exact ⟨earlier, there, rfl, rfl⟩

theorem sings_sounding (refl : ∀ channel, alike channel channel)
    (sings : player.Sings alike setting) (key velocity : UInt8) (entry : Option Nat) :
    (player.sounding key velocity entry).Sings alike setting := by
  obtain ⟨sounding, labelled, voiced⟩ := sings.track.voiced
  unfold Player.sounding
  dsimp only
  generalize (player.track.soundingKey key).1 = midiKey
  generalize (player.track.soundingKey key).2 = transposeTick
  rw [emit_of_writing _ sings.writes]
  let on : MidiEvent :=
    ⟨player.track.time, player.track.channel, .noteOn midiKey velocity, transposeTick⟩
  let note : OpenNote := ⟨key, midiKey, player.track.time, entry, transposeTick⟩
  refine ⟨sings.same, sings.writing, sings.track.active, sings.track.within,
    sounding ++ [(note, labelled.length)], labelled ++ [(on, some labelled.length)], ?_, ?_, ?_⟩
  · exact voiced.voicing.push_start rfl rfl (Nat.le_refl _) rfl (refl _)
  · rw [List.map_append, voiced.opened]
    rfl
  · exact fun timed member => (voiced.timed timed member).grow (voiced.voicing.grows_start on)

/-- A note that ends by itself is written as one that is ended at once, at a later tick. -/
theorem sings_soundingFor (refl : ∀ channel, alike channel channel)
    (sings : player.Sings alike setting) (key velocity : UInt8) (duration : Nat)
    (entry : Option Nat) : (player.soundingFor key velocity duration entry).Sings alike setting := by
  obtain ⟨sounding, labelled, voiced⟩ := sings.track.voiced
  unfold Player.soundingFor
  dsimp only
  generalize (player.track.soundingKey key).1 = midiKey
  generalize (player.track.soundingKey key).2 = transposeTick
  rw [emit_of_writing player sings.writes]
  rw [emit_of_writing (player.withSheet _) sings.writes]
  let on : MidiEvent :=
    ⟨player.track.time, player.track.channel, .noteOn midiKey velocity, transposeTick⟩
  let off : MidiEvent := ⟨Tick.later player.track.time duration, player.track.channel,
    .noteOff midiKey, transposeTick⟩
  let note : OpenNote := ⟨key, midiKey, player.track.time, entry, transposeTick⟩
  have started : Voicing alike player.track.channel player.track.time (player.track.midi.push on)
      ((note, labelled.length) :: sounding) (labelled ++ [(on, some labelled.length)]) :=
    (voiced.voicing.push_start rfl rfl (Nat.le_refl _) rfl (refl _)).perm
      (List.perm_append_singleton ..).symm
  have grows := (voiced.voicing.grows_start on).trans (started.grows_close off)
  refine ⟨sings.same, sings.writing, sings.track.active, sings.track.within, sounding,
    labelled ++ [(on, some labelled.length)] ++ [(off, some labelled.length)],
    started.close (Tick.le_later sings.track.within duration), voiced.opened, ?_⟩
  intro timed member
  rcases List.mem_append.mp member with member | member
  · obtain ⟨earlier, kept, start, _, noteOff⟩ := TimedNote.mem_of_mem_beforeNote member
    have ends := (voiced.timed earlier kept).grow grows
    unfold TimedNote.Ends at ends ⊢
    rw [start, noteOff]
    exact ends
  · cases List.mem_singleton.mp member
    intro position known
    dsimp only at known
    rw [if_pos (show (player.withSheet _).writing = true from sings.writes)] at known
    refine ⟨off, labelled.length, midiKey, on, off, ?_, rfl, ?_, rfl⟩
    · have place : position = (labelled ++ [(on, some labelled.length)]).length := by
        rw [List.length_append, voiced.voicing.length_eq]
        exact (Option.some.inj known).symm.trans (Array.size_push ..)
      rw [place]
      exact List.getElem?_concat_length
    · rw [Labelled.voice_push_own, Labelled.voice_push_own, voiced.voicing.voice_of_placed]
      rfl

theorem Sings.wait (sings : player.Sings alike setting) (ticks : Nat) :
    (player.wait ticks).Sings alike setting := by
  obtain ⟨sounding, labelled, voiced⟩ := sings.track.voiced
  obtain ⟨messages, notes, placed, labels, sounds, apart⟩ := voiced.voicing
  have later := Tick.le_later sings.track.within ticks
  exact ⟨sings.same, sings.writing, sings.track.active, Tick.later_le_last .., sounding, labelled,
    ⟨messages, notes, placed, labels, fun note member =>
      (sounds note member).imp_right (Nat.le_trans · later), apart⟩, voiced.opened, voiced.timed⟩

theorem aboutSound_sings (alike : UInt8 → UInt8 → Prop) (setting : Setting) :
    AboutSound (fun message => message.isNote = false) (Player.Sings alike setting) where
  same := by
    intro player next sings sound
    obtain ⟨sounding, labelled, voicing, opened, timed⟩ := sings.track.voiced
    have midi : next.track.midi = player.track.midi := congrArg Sheet.midi sound.sheet
    refine ⟨sound.setting.trans sings.same, sings.writing, sound.active.trans sings.track.active,
      sound.time ▸ sings.track.within, sounding, labelled, ?_, ?_, ?_⟩
    · rw [sound.channel, sound.time, midi]
      exact voicing
    · rw [sound.openNotes]
      exact opened
    · rw [sound.timedNotes]
      exact timed
  emit := by
    intro player sings tick message other
    obtain ⟨sounding, labelled, voicing, opened, timed⟩ := sings.track.voiced
    rw [emit_of_writing _ sings.writes]
    refine ⟨sings.same, sings.writing, sings.track.active, sings.track.within, sounding, _,
      voicing.push_other other, opened, fun note member => (timed note member).grow ?_⟩
    exact Labelled.grows_append (List.forall_mem_singleton.mpr fun _ none => by cases none)

theorem Sings.useChannel (sings : player.Sings alike setting) {channel : UInt8}
    (stays : player.track.openNotes = [] ∨
      ∀ other, alike other player.track.channel → alike other channel) :
    Sings alike setting { player with track := { player.track with channel } } := by
  obtain ⟨sounding, labelled, voiced⟩ := sings.track.voiced
  obtain ⟨messages, notes, placed, labels, sounds, apart⟩ := voiced.voicing
  refine ⟨sings.same, sings.writing, sings.track.active, sings.track.within, sounding, labelled,
    ⟨messages, notes, placed, labels, fun note member => ?_, apart⟩, voiced.opened, voiced.timed⟩
  obtain ⟨⟨first, velocity, voice, starts, start, transposeTick, here⟩, early⟩ := sounds note member
  rcases stays with silent | stays
  · have none := voiced.opened.trans silent
    rw [List.map_eq_nil_iff.mp none] at member
    cases member
  · exact ⟨⟨first, velocity, voice, starts, start, transposeTick, stays _ here⟩, early⟩

theorem Sings.perform (refl : ∀ channel, alike channel channel)
    (sings : player.Sings alike setting) (kind : EventKind) (entry : Option Nat) :
    (player.perform kind entry).Ensures fun (_, next) => next.Sings alike setting := by
  have goes {x : Except Fault Player} (ensures : x.Ensures (Player.Sings alike setting)) :
      (x >>= goOn).Ensures fun (_, next) => next.Sings alike setting :=
    ensures.bind fun _ sings => Except.ensures_ok sings
  cases kind with
  | noteOn key velocity =>
    refine goes (x := player.startNote key velocity entry) ?_
    rw [startNote_eq]
    rintro last done
    obtain ⟨cut, ended, rfl⟩ := Except.map_eq_ok.mp done
    exact sings_sounding refl (sings.cutKey key _ ended) key velocity entry
  | noteOff key => exact goes (sings.endNote key)
  | note key velocity duration =>
    refine goes (x := player.startTimedNote key velocity duration entry) ?_
    rw [startTimedNote_eq]
    rintro last done
    obtain ⟨cut, ended, rfl⟩ := Except.map_eq_ok.mp done
    exact sings_soundingFor refl (sings.cutKey key _ ended) key velocity duration entry
  | rest ticks => exact Except.ensures_ok (sings.wait ticks)
  | hold ticks =>
    refine Except.Ensures.bind (sings.endTimed TimedNote.tracked _) fun held sings => ?_
    exact Except.ensures_ok (sings.wait ticks)
  | _ =>
    rintro ⟨more, next⟩ done
    exact (aboutSound_sings alike setting).messages.perform sings rfl (EventKind.writesOnly_others _)
      (EventKind.conductsOnly_any _) done

theorem Sings.finish (sings : player.Sings alike setting) :
    player.finish.Ensures fun last => last.track.Sung alike := by
  obtain ⟨sounding, labelled, voiced⟩ := sings.track.voiced
  have all : (sounding ++ []).Perm sounding := by rw [List.append_nil]
  have none : ([] : List (OpenNote × Nat)).map Prod.fst = [] := rfl
  have ended := sings.endNow voiced sounding all none fun _ => false
  rw [voiced.opened] at ended
  refine Except.Ensures.bind ended ?_
  rintro closed ⟨sings, labelled', voiced⟩
  rw [emit_of_writing _ sings.writes]
  let last : MidiEvent := ⟨player.track.time, closed.track.channel, .endOfTrack, .none⟩
  have voicing := voiced.voicing.push_other (show last.message.isNote = false from rfl)
  refine Except.ensures_ok ⟨rfl, _, voicing.messages, voicing.notes, fun item member id label => ?_⟩
  exact (voicing.labels item member id label).resolve_left List.not_mem_nil

variable {allowed : Player → Operation → Prop}

/-- A decoder may order what it likes, if changes of the channel are harmless. -/
theorem upkeep_sings (refl : ∀ channel, alike channel channel) (writing : setting.pass = .midi)
    (stays : ∀ player channel, allowed player (.useChannel channel) →
      player.track.openNotes = [] ∨
        ∀ other, alike other player.track.channel → alike other (channel &&& 0x0F)) :
    Upkeep setting allowed (Track.Sings alike) (Track.Sung alike) (fun _ => True) where
  live := Track.Sings.active
  rests := Track.Sung.stopped
  paced := fun steps delay sings => by
    obtain ⟨sounding, labelled, voiced⟩ := sings.voiced
    exact ⟨sings.active, sings.within, sounding, labelled, voiced.voicing, voiced.opened,
      voiced.timed⟩
  applies := by
    intro track shared operation sings _ permitted
    have sings : Sings alike setting ⟨setting, track, shared⟩ := ⟨rfl, writing, sings⟩
    have parts {x : Except Fault (Bool × Player)}
        (ensures : x.Ensures fun (_, next) => next.Sings alike setting) :
        x.Ensures fun (_, next) => next.setting = setting ∧ next.track.Sings alike ∧ True :=
      ensures.mono fun _ sings => ⟨sings.same, sings.track, trivial⟩
    refine parts ?_
    cases operation with
    | moveTo offset =>
      exact Except.ensures_ok ((aboutSound_sings alike setting).same sings
        ⟨rfl, rfl, rfl, rfl, rfl, rfl, rfl⟩)
    | useChannel channel => exact Except.ensures_ok (sings.useChannel (stays _ _ permitted))
    | record span kind =>
      have recorded : Sings alike setting (Player.record ⟨setting, track, shared⟩ span kind).2 :=
        ⟨rfl, writing, sings.track⟩
      exact recorded.perform refl kind _
    | play kind => exact sings.perform refl kind none
    | extendNotes tick =>
      exact (sings.endTimed TimedNote.tracked tick).bind fun _ sings => Except.ensures_ok sings
    | limitNotes tick => exact (sings.limitNotes tick).bind fun _ sings => Except.ensures_ok sings
  glides := fun tick sings _ => ⟨((aboutSound_sings alike setting).messages.moveDials
    ⟨rfl, writing, sings⟩ tick fun _ _ _ => rfl).track, trivial⟩
  finishes := fun sings _ =>
    (Sings.finish ⟨rfl, writing, sings⟩).mono fun _ sung => ⟨sung, trivial⟩
  master := fun _ _ _ => trivial

end Player
end Sequencer
