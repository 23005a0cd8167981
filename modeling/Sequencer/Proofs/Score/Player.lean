import Sequencer.Proofs.Player.Perform
import Sequencer.Proofs.Score.Notes

/-! The score of a player that writes messages. Every operation on notes keeps it, and a note that
starts adds its entry to it. -/
namespace Sequencer

theorem Score.perm {channel : UInt8} {now : Nat} {sheet : Sheet} {known : List Nat}
    {opened opened' : List OpenNote} {labelled : Labelled}
    (score : Score channel now sheet known opened labelled) (perm : opened'.Perm opened) :
    Score channel now sheet known opened' labelled where
  messages := score.messages
  notes := score.notes
  labels := score.labels
  voices := fun index member => (score.voices index member).imp_left
    fun ⟨note, there, label⟩ => ⟨note, perm.mem_iff.mpr there, label⟩
  begun := fun note member => score.begun note (perm.mem_iff.mp member)
  apart := (perm.pairwise_iff Ne.symm).mpr score.apart

namespace EventKind

def startsNote : EventKind → Bool
  | .noteOn .. | .note .. => true
  | _ => false

end EventKind

namespace Player

/-- The messages of a player that writes them, as the notes of the `known` entries. -/
structure Scored (known : List Nat) (player : Player) (labelled : Labelled) : Prop where
  writing : player.setting.pass = .midi
  score : Score player.track.channel player.track.time player.sheet known player.track.openNotes
    labelled
  timed : ∀ note ∈ player.track.timedNotes, note.Placed player.shared.timeline labelled

def Rescored (known : List Nat) (player : Player) (labelled : Labelled) (next : Player) : Prop :=
  ∃ labelled', next.Scored known labelled' ∧
    Score.Revised known player.sheet labelled next.sheet labelled'

variable {known : List Nat} {player next : Player} {labelled : Labelled} {index : Nat}

theorem Scored.writes (scored : player.Scored known labelled) : player.writing = true :=
  decide_eq_true scored.writing

theorem Scored.length (scored : player.Scored known labelled) :
    labelled.length = player.track.midi.size := by
  have same := congrArg List.length scored.score.messages
  rw [List.length_map, Array.length_toList] at same
  exact same

theorem Scored.safe (scored : player.Scored known labelled) : player.Safe := by
  constructor
  · intro note member
    obtain ⟨index, entry, position, event, key, own, found, _, noteOff, there, _⟩ :=
      scored.timed note member
    constructor
    · intro other same
      cases own.symm.trans same
      exact (Array.getElem?_eq_some_iff.mp found).1
    · intro other same
      cases noteOff.symm.trans same
      have inside := (List.getElem?_eq_some_iff.mp there).1
      rwa [scored.length] at inside
  · intro note member other same
    obtain ⟨⟨index, entry, velocity, own, found, _⟩, _⟩ := scored.score.begun note member
    cases own.symm.trans same
    exact (Array.getElem?_eq_some_iff.mp found).1

theorem Scored.plain (scored : player.Scored known labelled) (setting : next.setting = player.setting)
    (channel : next.track.channel = player.track.channel)
    (time : player.track.time ≤ next.track.time) (sheet : next.sheet = player.sheet)
    (opened : next.track.openNotes = player.track.openNotes)
    (timed : next.track.timedNotes = player.track.timedNotes) : next.Scored known labelled := by
  have timeline : next.shared.timeline = player.shared.timeline := congrArg Sheet.timeline sheet
  obtain ⟨messages, notes, labels, voices, begun, apart⟩ := scored.score
  refine ⟨by rw [setting]; exact scored.writing, ?_, ?_⟩
  · rw [channel, sheet, opened]
    refine ⟨messages, notes, labels, voices, fun note member => ?_, apart⟩
    obtain ⟨begun, early⟩ := begun note member
    exact ⟨begun, Nat.le_trans early time⟩
  · rw [timed, timeline]
    exact scored.timed

def Notated (known : List Nat) (player : Player) : Prop := ∃ labelled, player.Scored known labelled

theorem emit_of_writing (player : Player) (writes : player.writing = true) (tick : Nat)
    (message : MidiMessage) (transposeTick : Option Nat) : player.emit tick message transposeTick =
      player.withSheet ⟨player.shared.timeline, player.track.midi.push
        ⟨tick, player.track.channel, message, transposeTick⟩⟩ :=
  if_pos writes

theorem Scored.emit (scored : player.Scored known labelled) (tick : Nat) (message : MidiMessage)
    (other : message.isNote = false) (transposeTick : Option Nat) :
    (player.emit tick message transposeTick).Notated known := by
  rw [emit_of_writing _ scored.writes]
  refine ⟨_, scored.writing, scored.score.push_other other, ?_⟩
  exact fun note member => (scored.timed note member).append _

theorem endNotes_scored (player : Player) (writing : player.setting.pass = .midi)
    (closing : List OpenNote)
    (score : Score player.track.channel player.track.time player.sheet known
      (closing ++ player.track.openNotes) labelled)
    (timed : ∀ note ∈ player.track.timedNotes, note.Placed player.shared.timeline labelled)
    {tick : Nat} (late : ∀ note ∈ closing, note.start ≤ tick) (chosen : TimedNote → Bool) :
    (player.endNotes closing chosen tick).Yields fun next =>
      player.Rescored known labelled next ∧ next.track.openNotes = player.track.openNotes ∧
        next.setting = player.setting ∧ next.track.noteless = player.track.noteless := by
  have writes : player.writing = true := decide_eq_true writing
  unfold endNotes
  dsimp only
  rw [writes]
  refine (score.closeAll late).bind ?_
  rintro closed ⟨labelled', score', revised⟩
  refine (score'.endAll (fun note member => (timed note member).keep revised.keeps
    revised.starts) chosen tick).bind ?_
  rintro ⟨notes, sheet⟩ ⟨labelled'', score'', revised', placed⟩
  refine Except.yields_ok ⟨⟨labelled'', ⟨writing, score'', placed⟩, revised.trans revised'⟩,
    rfl, rfl, rfl⟩

theorem Scored.cutKey (scored : player.Scored known labelled) (key : UInt8) :
    (player.cutKey key).Yields fun next => player.Rescored known labelled next ∧
      next.setting = player.setting ∧ next.track.noteless = player.track.noteless := by
  unfold Player.cutKey
  rw [List.partition_eq_filter_filter]
  have perm := List.filter_append_perm (fun note : OpenNote => decide (note.key = key))
    player.track.openNotes
  have score := scored.score.perm perm
  refine (endNotes_scored { player with track := { player.track with
    openNotes := player.track.openNotes.filter fun note => !decide (note.key = key) } }
    scored.writing _ score scored.timed ?_ _).mono ?_
  · intro note member
    exact (scored.score.begun note (List.mem_filter.mp member).1).2
  · rintro next ⟨rescored, _, setting, track⟩
    exact ⟨rescored, setting, track⟩

/-- The entry of a note that starts is there when other notes of its key have been cut. -/
theorem Scored.cutKey_entry (scored : player.Scored known labelled) (key : UInt8) {entry : Entry}
    (unknown : index ∉ known) (found : player.shared.timeline.entries[index]? = some entry) :
    (player.cutKey key).Yields fun cut => (∃ labelled', cut.Scored known labelled') ∧
      cut.track.time = player.track.time ∧
      cut.shared.timeline.entries[index]? = some entry := by
  refine (scored.cutKey key).mono ?_
  rintro cut ⟨⟨labelled', scored', revised⟩, _, track⟩
  have time := congrArg Track.time track
  exact ⟨⟨labelled', scored'⟩, time, (revised.spares index unknown).trans found⟩

theorem Scored.startNote (scored : player.Scored known labelled) (key velocity : UInt8)
    {entry : Entry} (unknown : index ∉ known)
    (found : player.shared.timeline.entries[index]? = some entry)
    (start : entry.start = player.track.time) :
    (player.startNote key velocity (some index)).Yields (Notated (known ++ [index])) := by
  refine (scored.cutKey_entry key unknown found).bind ?_
  rintro cut ⟨⟨labelled', scored'⟩, time, there⟩
  dsimp only
  generalize (cut.track.soundingKey key).1 = midiKey
  generalize (cut.track.soundingKey key).2 = transposeTick
  rw [emit_of_writing _ scored'.writes]
  let on : MidiEvent :=
    ⟨cut.track.time, cut.track.channel, .noteOn midiKey velocity, transposeTick⟩
  let note : OpenNote := ⟨key, midiKey, cut.track.time, some index, transposeTick⟩
  have begun : note.Begun cut.track.channel cut.shared.timeline [(on, some index)] :=
    ⟨index, entry, velocity, rfl, there, start.trans time.symm, by simp [Labelled.voice, note, on]⟩
  have score := scored'.score.push_notes unknown [on] (by simp [MidiMessage.isNote, on]) [note]
    (.inl ⟨note, List.mem_append_right _ List.mem_cons_self, rfl⟩)
    (by simpa using ⟨rfl, begun, Nat.le_refl _⟩) (Nat.le_refl _)
  refine Except.yields_ok ⟨labelled' ++ [(on, some index)], scored'.writing, score, ?_⟩
  exact fun note member => (scored'.timed note member).append _

theorem Scored.endNote (scored : player.Scored known labelled) (key : UInt8) :
    (player.endNote key).Yields (Notated known) := by
  unfold Player.endNote
  split
  · exact Except.yields_ok ⟨labelled, scored⟩
  · rename_i note found
    obtain ⟨same, before, after, notes, others⟩ := List.find?_eq_some_iff_append.mp found
    have erased : player.track.openNotes.eraseP (fun note => decide (note.key = key)) =
        before ++ after := by
      rw [notes, List.eraseP_append_right _ (fun other member => by simpa using others other member),
        List.eraseP_cons, same, cond_true]
    have middle : (before ++ note :: after).Perm (note :: (before ++ after)) := List.perm_middle
    have perm : ([note] ++ player.track.openNotes.eraseP fun note => decide (note.key = key)).Perm
        player.track.openNotes := by
      rw [erased, notes]
      exact middle.symm
    have early := (scored.score.begun note (List.mem_of_find?_eq_some found)).2
    refine (endNotes_scored { player with track := { player.track with
      openNotes := player.track.openNotes.eraseP fun note => decide (note.key = key) } }
      scored.writing [note] (scored.score.perm perm) scored.timed ?_ _).mono ?_
    · intro other member
      cases List.mem_singleton.mp member
      exact early
    · rintro next ⟨⟨labelled', scored', _⟩, _⟩
      exact ⟨labelled', scored'⟩

/-- A note that ends by itself starts for an entry that is not known yet. The clock does not end
before the note. -/
theorem Scored.startTimedNote (scored : player.Scored known labelled) (key velocity : UInt8)
    {duration : Nat} {entry : Entry} (unknown : index ∉ known)
    (found : player.shared.timeline.entries[index]? = some entry)
    (start : entry.start = player.track.time) (lasts : entry.duration = duration)
    (within : player.track.time + duration ≤ Tick.last) :
    (player.startTimedNote key velocity duration (some index)).Yields
      (Notated (known ++ [index])) := by
  refine (scored.cutKey_entry key unknown found).bind ?_
  rintro cut ⟨⟨labelled', scored'⟩, time, there⟩
  have stop : Tick.later cut.track.time duration = entry.start + entry.duration := by
    rw [time, lasts, start]
    exact Nat.min_eq_left within
  dsimp only
  generalize (cut.track.soundingKey key).1 = midiKey
  generalize (cut.track.soundingKey key).2 = transposeTick
  let on : MidiEvent :=
    ⟨cut.track.time, cut.track.channel, .noteOn midiKey velocity, transposeTick⟩
  let off : MidiEvent :=
    ⟨Tick.later cut.track.time duration, cut.track.channel, .noteOff midiKey, transposeTick⟩
  have whole : Labelled.Whole [(on, some index), (off, some index)] cut.track.channel index
      entry := by
    refine ⟨midiKey, velocity, transposeTick, ?_⟩
    rw [← stop, start, ← time]
    simp [Labelled.voice, on, off]
  have score := scored'.score.push_notes unknown [on, off] (by simp [MidiMessage.isNote, on, off])
    [] (.inr ⟨entry, there, whole⟩) (fun _ member => absurd member List.not_mem_nil)
    (Nat.zero_le _)
  rw [List.append_nil] at score
  rw [emit_of_writing cut scored'.writes]
  rw [emit_of_writing (cut.withSheet _) scored'.writes]
  refine Except.yields_ok ⟨labelled' ++ [(on, some index), (off, some index)], scored'.writing,
    score, ?_⟩
  intro note member
  rcases List.mem_append.mp member with member | member
  · obtain ⟨earlier, kept, sameStart, sameEntry, sameOff⟩ :=
      TimedNote.mem_of_mem_beforeNote member
    exact ((scored'.timed earlier kept).append _).congr sameStart.symm sameEntry.symm sameOff.symm
  · cases List.mem_singleton.mp member
    refine ⟨index, entry, labelled'.length + 1, off, midiKey, rfl, there, start.trans time.symm,
      ?_, ?_, rfl⟩
    · dsimp only
      rw [if_pos (show (cut.withSheet _).writing = true from scored'.writes), scored'.length]
      exact congrArg some (Array.size_push ..)
    · rw [List.getElem?_append_right (Nat.le_succ _)]
      simp

theorem Scored.extendNotes (scored : player.Scored known labelled) (tick : Nat) :
    (player.extendNotes tick).Yields fun next => next.Notated known ∧
      next.track.time = player.track.time := by
  refine (endNotes_scored player scored.writing [] scored.score scored.timed
    (fun _ member => absurd member List.not_mem_nil) _).mono ?_
  rintro next ⟨⟨labelled', scored', _⟩, _, _, track⟩
  have time := congrArg Track.time track
  exact ⟨⟨labelled', scored'⟩, time⟩

theorem Scored.limitNotes (scored : player.Scored known labelled) (tick : Nat) :
    (player.limitNotes tick).Yields (Notated known) := by
  refine (endNotes_scored player scored.writing [] scored.score scored.timed
    (fun _ member => absurd member List.not_mem_nil) _).bind ?_
  rintro next ⟨⟨labelled', scored', _⟩, _⟩
  refine Except.yields_ok ⟨labelled', scored'.writing, scored'.score, ?_⟩
  intro note member
  obtain ⟨earlier, there, rfl⟩ := List.mem_map.mp member
  exact scored'.timed earlier there

theorem Scored.finish (scored : player.Scored known labelled) :
    player.finish.Yields fun next => next.Notated known ∧ next.track.openNotes = [] := by
  have score : Score player.track.channel player.track.time player.sheet known
      (player.track.openNotes ++ []) labelled := by
    rw [List.append_nil]
    exact scored.score
  refine (endNotes_scored { player with track := { player.track with openNotes := [] } }
    scored.writing player.track.openNotes score scored.timed
    (fun note member => (scored.score.begun note member).2) _).bind ?_
  rintro ended ⟨⟨labelled', scored', _⟩, opened, _⟩
  obtain ⟨labelled'', finished⟩ := scored'.emit player.track.time .endOfTrack rfl none
  refine Except.yields_ok ⟨⟨labelled'', finished.writing, finished.score, finished.timed⟩, ?_⟩
  exact (emit_openNotes ..).trans opened

end Player
end Sequencer
