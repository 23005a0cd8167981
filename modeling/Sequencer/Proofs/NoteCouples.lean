import Sequencer.Proofs.NotePairs
import Sequencer.Proofs.Score.Voiced
import Sequencer.Script

/-! Notes in any format. A decoder may order whatever it likes: each start of a note in the finished
MIDI has an end of its own, later and with its key. The end is on the channel that the track has by
then, which is the channel of the start if decoders change channels only while no note is open. -/
namespace Sequencer

variable {σ : Type} {allowed : Player → Operation → Prop}

/-- The decoder changes the channel of a track while none of its notes is open, or not at all. -/
def Format.Steady (format : Format σ) : Prop :=
  format.Orders fun player operation =>
    match operation with
    | .useChannel channel =>
      player.track.openNotes = [] ∨ channel &&& 0x0F = player.track.channel
    | _ => True

theorem Routine.Orders.map {α β : Type} {routine : Routine α} {player : Player}
    (orders : routine.Orders allowed player) (f : α → β) :
    (routine.map f).Orders allowed player := by
  induction routine generalizing player with
  | done => trivial
  | order operation next ih =>
    exact ⟨orders.1, fun more after done => ih more after (orders.2 more after done)⟩

/-- RefSeq moves on in the data, records an event or ends notes, and does nothing else. -/
theorem RefSeq.orders (moves : ∀ player offset, allowed player (.moveTo offset))
    (records : ∀ player span kind, allowed player (.record span kind))
    (limits : ∀ player tick, allowed player (.limitNotes tick)) : format.Orders allowed := by
  intro memory player
  refine Routine.Orders.map ?_ _
  refine ⟨moves _ _, fun _ after _ => ?_⟩
  dsimp only
  split
  · trivial
  · rename_i instruction _
    refine ⟨?_, fun more last _ => ?_⟩
    · cases instruction with
      | cut => exact limits _ _
      | _ => exact records _ _ _
    · split <;> trivial

theorem RefSeq.steady : format.Steady :=
  RefSeq.orders (fun _ _ => trivial) (fun _ _ _ => trivial) fun _ _ => trivial

namespace Sequence

variable {sequence played : Sequence σ} {stopTime : Nat}

theorem sings_openTrack (alike : UInt8 → UInt8 → Prop) (header : Header) (writes : Bool)
    (track : Track) :
    (openTrack header writes track).Sings alike := by
  have silent := @isNote_openTrack header writes track
  have opening := opening_openTrack header writes track
  refine ⟨rfl, Nat.zero_le _, [], (openTrack header writes track).midi.events.toList.map
    fun event => (event, none), ?_, rfl, fun _ member => absurd member List.not_mem_nil⟩
  constructor
  · simp [Function.comp_def]
  · intro item member
    obtain ⟨event, there, rfl⟩ := List.mem_map.mp member
    exact (silent event there).symm
  · intro item member id label
    obtain ⟨event, there, rfl⟩ := List.mem_map.mp member
    cases label
  · intro item member id label
    obtain ⟨event, there, rfl⟩ := List.mem_map.mp member
    cases label
  · exact fun _ member => absurd member List.not_mem_nil
  · exact .nil

/-- What a finished MIDI pass has written for each track are couples. -/
theorem couples_of_runPass (alike : UInt8 → UInt8 → Prop) (refl : ∀ channel, alike channel channel)
    (orders : sequence.format.Orders allowed)
    (stays : ∀ player channel, allowed player (.useChannel channel) →
      player.track.openNotes = [] ∨
        ∀ other, alike other player.track.channel → alike other (channel &&& 0x0F))
    (done : sequence.runPass .midi stopTime = .ok played) :
    ∃ output, played.midi = some output ∧ output.tracks.length = played.tracks.length ∧
      ∀ midi ∈ output.tracks, ∃ labelled : Labelled, labelled.Couples alike midi.events.toList := by
  obtain ⟨stage, played, closed⟩ := Except.bind_eq_ok.mp done
  rw [closePass_eq] at closed
  obtain ⟨transposes, _, rfl⟩ := Except.map_eq_ok.mp closed
  have sings : ∀ track ∈ (sequence.openStage .midi).tracks, track.Sings alike := by
    intro track member
    rw [openStage_openTrack] at member
    obtain ⟨earlier, _, rfl⟩ := List.mem_map.mp member
    exact sings_openTrack alike _ _ earlier
  have writing : (sequence.setting .midi).pass = .midi := rfl
  have ended := (Player.upkeep_sings refl writing stays).play orders (sequence.limits stopTime)
    sings trivial _ played
  refine ⟨_, rfl, ?_, fun midi member => ?_⟩
  · simp [midiOutput, tracks, conclude, withoutMidi]
  · obtain ⟨track, there, rfl⟩ := List.mem_map.mp member
    obtain ⟨labelled, couples⟩ := (ended.1 track there).couples
    have transposed := couples.transpose transposes.allAt
    rw [← Array.toList_map] at transposed
    exact transposed.finalize (track.midi.transpose transposes.allAt)

/-- A steady decoder ends notes on the channel that they have started on. -/
theorem couples_of_steady (steady : sequence.format.Steady)
    (done : sequence.runPass .midi stopTime = .ok played) :
    ∃ output, played.midi = some output ∧
      ∀ midi ∈ output.tracks, ∃ labelled : Labelled, labelled.Couples Eq midi.events.toList := by
  have stays : ∀ (player : Player) (channel : UInt8), (player.track.openNotes = [] ∨
      channel &&& 0x0F = player.track.channel) → player.track.openNotes = [] ∨
        ∀ other, other = player.track.channel → other = channel &&& 0x0F :=
    fun player channel => Or.imp_right fun same other here => here.trans same.symm
  obtain ⟨output, written, _, couples⟩ := couples_of_runPass Eq (fun _ => rfl) steady stays done
  exact ⟨output, written, couples⟩

/-- In the finished MIDI of any format the messages of notes are couples of a start and a later end
of one key, and of one channel as well if the decoder is steady. -/
theorem runPass_couplesNotes (done : sequence.runPass .midi stopTime = .ok played) :
    ∃ output, played.midi = some output ∧ output.tracks.length = played.tracks.length ∧
      ∀ midi ∈ output.tracks,
        (∃ labelled : Labelled, labelled.Couples (fun _ _ => True) midi.events.toList) ∧
        (sequence.format.Steady →
          ∃ labelled : Labelled, labelled.Couples Eq midi.events.toList) := by
  obtain ⟨output, written, length, couples⟩ := couples_of_runPass (fun _ _ => True)
    (fun _ => trivial) (fun memory player => Routine.orders_any _ player)
    (fun _ _ _ => .inr fun _ _ => trivial) done
  refine ⟨output, written, length, fun midi member => ⟨couples midi member, fun steady => ?_⟩⟩
  obtain ⟨output', written', couples'⟩ := couples_of_steady steady done
  cases written.symm.trans written'
  exact couples' midi member

theorem runPass_couplesNotes_tied : ∃ sequence played,
    ofSource RefSeq.format () tied = .ok sequence ∧ sequence.runPass .midi 0 = .ok played ∧
      sequence.format.Steady ∧
      ∃ output, played.midi = some output ∧ output.tracks.length = played.tracks.length ∧
        ∀ midi ∈ output.tracks,
          (∃ labelled : Labelled, labelled.Couples (fun _ _ => True) midi.events.toList) ∧
          (sequence.format.Steady →
            ∃ labelled : Labelled, labelled.Couples Eq midi.events.toList) := by
  have opened : ofSource RefSeq.format () tied = .ok _ := rfl
  obtain ⟨_, _, passes⟩ := (Reachable.opened opened).intact.passes .midi 0
  exact ⟨_, _, opened, passes.run, RefSeq.steady, runPass_couplesNotes passes.run⟩

/-- One instruction: a note starts, the track changes its channel, and the note is ended. -/
def wandering : Format Script.Log :=
  Script.format "Script" (.ok {}) (.ok [⟨0, 0⟩]) #[some [.event (.noteOn 60 100),
    .order (.useChannel 1), .event (.noteOff 60), .event .trackEnd]]

/-- The start of the note is on one channel, and its end on another one. -/
theorem notes_wandering : (((ofSource wandering #[] #[0]).toOption.bind fun sequence =>
    ((sequence.openStage .midi).play sequence.format (sequence.setting .midi)
      (sequence.limits 0)).toOption).any fun stage =>
        decide (stage.tracks.map (fun track => track.midi.events.toList.filter fun event =>
          event.message.isNote) =
            [[⟨0, 0, .noteOn 60 100, some 0⟩, ⟨0, 1, .noteOff 60, some 0⟩]]) &&
        stage.shared.tags.all fun tag => tag.2.isSome) = true := by
  decide +kernel

/-- A note that ends on another channel than it starts on is no couple on one channel, however it is
transposed. -/
theorem not_couples_of_notes {midi : MidiTrack}
    (notes : midi.events.toList.filter (fun event => event.message.isNote) =
      [⟨0, 0, .noteOn 60 100, some 0⟩, ⟨0, 1, .noteOff 60, some 0⟩]) (transposeAt : Nat → Int) :
    ¬ ∃ labelled : Labelled,
      labelled.Couples Eq (midi.transpose transposeAt).finalize.events.toList := by
  rintro ⟨labelled, couples⟩
  have within {event : MidiEvent} (note : event.message.isNote = true) :
      event ∈ midi.events.toList ↔
        event = ⟨0, 0, .noteOn 60 100, some 0⟩ ∨ event = ⟨0, 1, .noteOff 60, some 0⟩ := by
    have kept : event ∈ midi.events.toList.filter (fun event => event.message.isNote) ↔
        event ∈ midi.events.toList := List.mem_filter.trans (and_iff_left note)
    rw [← kept, notes]
    simp
  have finished {event : MidiEvent} (note : event.message.isNote = true) :
      event ∈ (midi.transpose transposeAt).finalize.events.toList ↔
        ∃ earlier ∈ midi.events.toList, earlier.transpose transposeAt = event := by
    rw [MidiTrack.mem_finalize (MidiTrack.isEnd_of_isNote note), MidiTrack.transpose,
      Array.toList_map, List.mem_map]
  obtain ⟨key, velocity, starts⟩ : ∃ key velocity, (MidiEvent.transpose transposeAt
      ⟨0, 0, .noteOn 60 100, some 0⟩).message = .noteOn key velocity := by
    rcases MidiEvent.transpose_eq transposeAt ⟨0, 0, .noteOn 60 100, some 0⟩ with
      same | ⟨_, _, same⟩ <;> exact ⟨_, _, congrArg MidiEvent.message same⟩
  have written := (finished (by rw [starts]; rfl)).mpr ⟨_, (within rfl).mpr (.inl rfl), rfl⟩
  obtain ⟨last, member, ends, same⟩ := couples.exists_end written starts
  have note : last.message.isNote = true := by
    rw [ends]
    rfl
  obtain ⟨event, there, rfl⟩ := (finished note).mp member
  rw [MidiEvent.isNote_transpose] at note
  rcases (within note).mp there with rfl | rfl
  · cases starts.symm.trans ends
  · rw [MidiEvent.channel_transpose, MidiEvent.channel_transpose] at same
    cases same

/-- The end of a note may be on another channel than its start. -/
theorem not_couples_wandering : ∃ sequence played output midi,
    ofSource wandering #[] #[0] = .ok sequence ∧ sequence.runPass .midi 0 = .ok played ∧
      played.midi = some output ∧ midi ∈ output.tracks ∧
      ¬ ∃ labelled : Labelled, labelled.Couples Eq midi.events.toList := by
  obtain ⟨stage, found, facts⟩ := (Option.any_eq_true ..).mp notes_wandering
  obtain ⟨sequence, opened, found⟩ := Option.bind_eq_some_iff.mp found
  have opened := Except.eq_ok_of_toOption opened
  have played := Except.eq_ok_of_toOption found
  rw [Bool.and_eq_true, decide_eq_true_eq, List.all_eq_true] at facts
  obtain ⟨transposes, known, _⟩ := Transposes.ofTimeline_yields facts.2
  obtain ⟨track, tracks, notes⟩ := List.map_eq_singleton_iff.mp facts.1
  have run : sequence.runPass .midi 0 = .ok (sequence.conclude .midi stage transposes) := by
    refine Except.bind_eq_ok.mpr ⟨stage, played, ?_⟩
    rw [closePass_eq]
    exact Except.map_eq_ok.mpr ⟨transposes, known, rfl⟩
  refine ⟨sequence, _, _, (track.midi.transpose transposes.allAt).finalize, opened, run, rfl,
    ?_, not_couples_of_notes notes _⟩
  rw [midiOutput, tracks]
  exact List.mem_singleton.mpr rfl

end Sequence
end Sequencer
