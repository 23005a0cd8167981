import Sequencer.Proofs.Player.Sound
import Sequencer.Proofs.Score.Spans

/-! How long the notes of a player last. Each instruction keeps them within what their readings
allow: a note that starts ends the notes of its key, and ties act on notes that have been kept. -/
namespace Sequencer

namespace Reading

variable {source : Source} {reading : Reading} {kind : EventKind}

/-- A cut is not recorded. -/
theorem isCut_of_kind (known : reading.kind? source = some kind) : reading.isCut source = false := by
  unfold isCut
  unfold kind? event? RefSeq.eventAt? at known
  rw [show reading.visit.place.offset = reading.visit.offset from rfl] at known
  revert known
  rcases RefSeq.instruction source reading.visit.offset with ⟨result, stop⟩
  intro known
  cases result with
  | error error => rfl
  | ok instruction =>
    cases instruction with
    | cut => cases known
    | event | octaveNote | unknown => rfl

theorem startsTimed_of_kind_none (none : reading.kind? source = none) :
    reading.startsTimed source = false := by
  rw [startsTimed, none]

/-- Only cuts and notes that end by themselves take ties from the notes before. -/
theorem releases_eq_false (calm : reading.isCut source = false)
    (untimed : reading.startsTimed source = false) (tick : Nat) :
    reading.releases source tick = false := by
  rw [releases, calm, untimed]
  rfl

theorem releases_of_kind (known : reading.kind? source = some kind)
    (untimed : ∀ key velocity duration, kind ≠ .note key velocity duration) (tick : Nat) :
    reading.releases source tick = false := by
  refine releases_eq_false (isCut_of_kind known) ?_ tick
  rw [startsTimed, known]
  cases kind with
  | note key velocity duration => exact absurd rfl (untimed key velocity duration)
  | _ => rfl

/-- A note in the tick of another one leaves its ties. -/
theorem releases_now (known : reading.kind? source = some kind) :
    reading.releases source reading.visit.tick = false := by
  rw [releases, isCut_of_kind known]
  simp

theorem struck_of_kind (known : reading.kind? source = some kind) :
    reading.struck? source = kind.struck? := by
  rw [struck?, known]
  rfl

end Reading

theorem TimedNote.beforeNote_tracked {now : Nat} {notes : List TimedNote} {note : TimedNote}
    (member : note ∈ beforeNote now notes) (tracked : note.tracked = true) : note.start = now := by
  unfold beforeNote at member
  have kept := (List.mem_filter.mp member).1
  split at kept
  · obtain ⟨earlier, _, rfl⟩ := List.mem_map.mp kept
    cases tracked
  · rename_i none
    by_contra other
    refine none (List.any_eq_true.mpr ⟨note, kept, ?_⟩)
    simp [tracked, other]

theorem TimedNote.exists_of_mem_beforeNote {now : Nat} {notes : List TimedNote} {note : TimedNote}
    (member : note ∈ beforeNote now notes) :
    ∃ earlier ∈ notes, note = earlier ∨ note = earlier.untrack := by
  unfold beforeNote at member
  have kept := (List.mem_filter.mp member).1
  split at kept
  · obtain ⟨earlier, known, rfl⟩ := List.mem_map.mp kept
    exact ⟨earlier, known, .inr rfl⟩
  · exact ⟨note, kept, .inl rfl⟩

/-- What a new note drops has stopped. -/
theorem TimedNote.stopped_or_mem_beforeNote {now : Nat} {notes : List TimedNote} {note : TimedNote}
    (member : note ∈ notes) : note.stop ≤ now ∨ ∃ left ∈ beforeNote now notes,
      left.entry = note.entry ∧ left.stop = note.stop := by
  refine or_iff_not_imp_left.mpr fun sounds => ?_
  have sounds : now < note.stop := Nat.not_le.mp sounds
  unfold beforeNote
  split
  · exact ⟨note.untrack, List.mem_filter.mpr ⟨List.mem_map_of_mem member, by
      simp [untrack, sounds]⟩, rfl, rfl⟩
  · exact ⟨note, List.mem_filter.mpr ⟨member, by simp [sounds]⟩, rfl, rfl⟩

namespace Player

/-- The notes of a player are those of what it has read. -/
def Holds (source : Source) (readings : List Reading) (player : Player) : Prop :=
  Held source readings player.track.time player.shared.timeline player.track.openNotes
    player.track.timedNotes

variable {source : Source} {readings : List Reading} {player next : Player} {new : Reading}

theorem aboutSound_holds (source : Source) (readings : List Reading) :
    AboutSound (fun message => message.isNote = false) (Holds source readings) where
  same := by
    intro player next holds sound
    unfold Holds
    rw [sound.time, sound.openNotes, sound.timedNotes,
      show next.shared.timeline = player.shared.timeline from congrArg Sheet.timeline sound.sheet]
    exact holds
  emit := by
    intro player holds tick message _
    unfold emit
    split <;> exact holds

theorem Holds.emit (holds : player.Holds source readings) (tick : Nat) (message : MidiMessage)
    (transposeTick : Option Nat) : (player.emit tick message transposeTick).Holds source readings := by
  unfold Player.emit
  split <;> exact holds

/-- An instruction is read that starts no note. -/
theorem Holds.read (holds : player.Holds source readings) (now : new.visit.tick = player.track.time)
    (silent : new.struck? source = none) (leaves : ∀ tick, new.releases source tick = false) :
    player.Holds source (readings ++ [new]) :=
  Held.read holds now silent fun _ _ _ => leaves _

theorem Holds.wait (holds : player.Holds source readings) (early : player.track.time ≤ Tick.last)
    (ticks : Nat) : (player.wait ticks).Holds source readings :=
  Held.later holds (Tick.le_later early ticks)

/-- The player has ended notes. -/
structure HasEnded (source : Source) (readings : List Reading) (chosen : TimedNote → Bool)
    (tick : Nat) (player next : Player) : Prop where
  holds : next.Holds source readings
  time : next.track.time = player.track.time
  openNotes : next.track.openNotes = player.track.openNotes
  timedNotes : next.track.timedNotes = player.track.timedNotes.map (TimedNote.ended chosen tick)
  same : Timeline.SameFrom (entriesOf source readings) player.shared.timeline next.shared.timeline

theorem endNotes_holds (player : Player) (closing : List OpenNote) {chosen : TimedNote → Bool}
    {tick : Nat}
    (held : Held source readings player.track.time player.shared.timeline
      (closing ++ player.track.openNotes) player.track.timedNotes)
    (now : ∀ note ∈ closing, tick = player.track.time)
    (apart : ∀ note ∈ player.track.timedNotes, chosen note = true → ∀ index ∈ note.entry,
      ∀ reading after, Stands source readings index reading after →
        reading.Apart source after (max tick note.start)) :
    (player.endNotes closing chosen tick).Ensures (HasEnded source readings chosen tick player) := by
  unfold endNotes
  refine (Held.closeAll player.writing player.track.channel player.sheet now held).bind ?_
  rintro closed ⟨held, same⟩
  refine (Held.endAll [] held apart).bind ?_
  rintro ⟨ended, sheet⟩ ⟨all, held, same'⟩
  exact Except.ensures_ok ⟨held, rfl, rfl, all, same.trans same'⟩

/-- No note of the key sounds any more. -/
structure HasCut (source : Source) (readings : List Reading) (key : UInt8) (player next : Player) :
    Prop where
  holds : next.Holds source readings
  time : next.track.time = player.track.time
  closed : ∀ note ∈ next.track.openNotes, note.key ≠ key
  ended : ∀ note ∈ next.track.timedNotes, note.key = key → note.start < next.track.time →
    note.stop ≤ next.track.time
  same : Timeline.SameFrom (entriesOf source readings) player.shared.timeline next.shared.timeline

theorem Holds.cutKey (holds : player.Holds source readings) (key : UInt8) :
    (player.cutKey key).Ensures (HasCut source readings key player) := by
  rw [cutKey_eq]
  let same := player.track.openNotes.filter fun note => note.key = key
  let others := player.track.openNotes.filter fun note => !decide (note.key = key)
  have all (note : OpenNote) : note ∈ same ++ others ↔ note ∈ player.track.openNotes := by
    simp only [same, others, List.mem_append, List.mem_filter]
    cases decide (note.key = key) <;> simp
  refine Except.Ensures.mono (endNotes_holds (player.withOpen others) same (Held.reopen holds all)
    (fun _ _ => rfl) ?_) ?_
  · intro note member chosen index own reading after stands
    simp only [Bool.and_eq_true, decide_eq_true_eq] at chosen
    have fits := (holds.timedNotes note member).fits index own reading after stands
    refine fits.apart.sooner (Nat.max_le.mpr ⟨Nat.le_of_lt chosen.2, ?_⟩)
    exact Nat.le_of_lt (Nat.lt_trans chosen.1.2 chosen.2)
  · rintro next ⟨held, time, openNotes, timedNotes, kept⟩
    refine ⟨held, time, ?_, ?_, kept⟩
    · rw [openNotes]
      intro note member
      simpa using (List.mem_filter.mp member).2
    · rw [timedNotes, time]
      intro note member own before
      obtain ⟨earlier, there, rfl⟩ := List.mem_map.mp member
      unfold TimedNote.ended at own before ⊢
      split
      · rename_i chosen
        simp only [chosen, if_true] at before
        exact Nat.max_le.mpr ⟨Nat.le_refl _, Nat.le_of_lt before⟩
      · rename_i other
        simp only [other, Bool.false_eq_true, if_false] at own before
        have before : earlier.start < player.track.time := before
        have passed : earlier.stop ≤ player.track.time := by simpa [own, before] using other
        exact passed

theorem holds_sounding {key velocity : UInt8} {entry : Option Nat}
    (held : ∀ midiKey transposeTick, Held source readings player.track.time player.shared.timeline
      (player.track.openNotes ++ [⟨key, midiKey, player.track.time, entry, transposeTick⟩])
      player.track.timedNotes) : (player.sounding key velocity entry).Holds source readings := by
  unfold sounding Player.emit
  dsimp only
  split <;> exact held ..

theorem holds_soundingFor {key velocity : UInt8} {duration : Nat} {entry : Option Nat}
    (held : ∀ noteOff, Held source readings player.track.time player.shared.timeline
      player.track.openNotes (TimedNote.beforeNote player.track.time player.track.timedNotes ++
        [⟨key, player.track.time, Tick.later player.track.time duration, entry, noteOff, true⟩])) :
    (player.soundingFor key velocity duration entry).Holds source readings := by
  unfold soundingFor Player.emit
  by_cases writes : player.writing = true
  · simp only [writes, if_true]
    split <;> exact held _
  · simp only [writes, Bool.false_eq_true, if_false]
    exact held _

theorem Holds.startNote (holds : player.Holds source readings) {key velocity : UInt8}
    (now : new.visit.tick = player.track.time)
    (kind : new.kind? source = some (.noteOn key velocity)) {entry : Entry}
    (found : player.shared.timeline.entries[entriesOf source readings]? = some entry)
    (start : entry.start = player.track.time) :
    (player.startNote key velocity (some (entriesOf source readings))).Ensures
      (Holds source (readings ++ [new])) := by
  have struck := Reading.struck_of_kind kind
  have own : new.key? source = some key := Reading.key_of_struck struck
  rw [startNote_eq]
  rintro next done
  obtain ⟨cut, ended, rfl⟩ := Except.map_eq_ok.mp done
  obtain ⟨held, time, closed, stopped, same⟩ := holds.cutKey key cut ended
  refine holds_sounding fun midiKey transposeTick => ?_
  have pushed := Held.push held (now.trans time.symm)
    [⟨key, midiKey, cut.track.time, some (entriesOf source readings), transposeTick⟩] []
    ?_ ?_ ?_ ?_ ?_ ?_ ?_
  · rwa [List.append_nil] at pushed
  · exact List.forall_mem_singleton.mpr ⟨rfl, own, rfl⟩
  · exact fun _ member => absurd member List.not_mem_nil
  · exact fun _ => ⟨entry, (same _ (Nat.le_refl _)).trans found, start.trans time.symm,
      .inl ⟨_, List.mem_singleton_self _⟩⟩
  · exact fun _ => Option.isSome_of_eq_some struck
  · intro other same note member
    cases own.symm.trans same
    exact closed note member
  · intro other same note member
    cases own.symm.trans same
    exact stopped note member
  · exact fun _ _ _ => Reading.releases_of_kind kind (by rintro _ _ _ ⟨⟩) _

theorem Holds.startTimedNote (holds : player.Holds source readings) {key velocity : UInt8}
    {duration : Nat} (now : new.visit.tick = player.track.time)
    (kind : new.kind? source = some (.note key velocity duration)) {entry : Entry}
    (found : player.shared.timeline.entries[entriesOf source readings]? = some entry)
    (start : entry.start = player.track.time) (lasts : entry.duration = duration) :
    (player.startTimedNote key velocity duration (some (entriesOf source readings))).Ensures
      (Holds source (readings ++ [new])) := by
  have struck := Reading.struck_of_kind kind
  have own : new.key? source = some key := Reading.key_of_struck struck
  rw [startTimedNote_eq]
  rintro next done
  obtain ⟨cut, ended, rfl⟩ := Except.map_eq_ok.mp done
  obtain ⟨held, time, closed, stopped, same⟩ := holds.cutKey key cut ended
  have left := Held.keep held (fun _ => TimedNote.exists_of_mem_beforeNote)
    fun _ => TimedNote.stopped_or_mem_beforeNote
  refine holds_soundingFor fun noteOff => ?_
  have pushed := Held.push left (now.trans time.symm) []
    [⟨key, cut.track.time, Tick.later cut.track.time duration, some (entriesOf source readings),
      noteOff, true⟩] ?_ ?_ ?_ ?_ ?_ ?_ ?_
  · rwa [List.append_nil] at pushed
  · exact fun _ member => absurd member List.not_mem_nil
  · refine List.forall_mem_singleton.mpr ⟨rfl, own, rfl, ?_⟩
    rw [Reading.startsTimed, kind]
  · refine fun _ => ⟨entry, (same _ (Nat.le_refl _)).trans found, start.trans time.symm,
      .inr ⟨_, List.mem_singleton_self _, ?_⟩⟩
    exact Nat.le_of_eq (by rw [Entry.within, start, lasts, time])
  · exact fun _ => Option.isSome_of_eq_some struck
  · intro other same note member
    cases own.symm.trans same
    exact closed note member
  · intro other same note member mine before
    cases own.symm.trans same
    obtain ⟨earlier, there, rfl | rfl⟩ := TimedNote.exists_of_mem_beforeNote member
    · exact stopped _ there mine before
    · exact stopped earlier there mine before
  · intro note member tracked
    rw [TimedNote.beforeNote_tracked member tracked, time, ← now]
    exact Reading.releases_now kind

theorem Holds.endNote (holds : player.Holds source readings) (key : UInt8) :
    (player.endNote key).Ensures (Holds source readings) := by
  unfold Player.endNote
  split
  · exact Except.ensures_ok holds
  · rename_i note found
    obtain ⟨same, before, after, notes, others⟩ := List.find?_eq_some_iff_append.mp found
    have erased : player.track.openNotes.eraseP (fun note => decide (note.key = key)) =
        before ++ after := by
      rw [notes, List.eraseP_append_right _ (fun other member => by simpa using others other member),
        List.eraseP_cons, same, cond_true]
    have all (other : OpenNote) : other ∈ [note] ++ (before ++ after) ↔
        other ∈ player.track.openNotes := by
      rw [notes, List.singleton_append]
      exact (List.Perm.symm List.perm_middle).mem_iff
    rw [erased]
    refine Except.Ensures.mono (endNotes_holds (player.withOpen (before ++ after)) [note]
      (Held.reopen holds all) (fun _ _ => rfl) fun _ _ chosen => ?_) fun _ => HasEnded.holds
    cases chosen

/-- A tie is read and moves the end of the notes that have been kept. -/
theorem Holds.extendNotes (holds : player.Holds source readings) {ticks : Nat}
    (now : new.visit.tick = player.track.time) (kind : new.kind? source = some (.hold ticks))
    (tick : Nat) : (player.extendNotes tick).Ensures fun next =>
      next.Holds source (readings ++ [new]) ∧ next.track.time = player.track.time := by
  have silent : new.struck? source = none := Reading.struck_of_kind kind
  have read := holds.read now silent
    fun tick => Reading.releases_of_kind kind (by rintro _ _ _ ⟨⟩) tick
  have ties : new.ties source = true := by rw [Reading.ties, kind]
  refine Except.Ensures.mono (endNotes_holds player [] read
    (fun _ member => absurd member List.not_mem_nil) ?_) fun next ended => ⟨ended.holds, ended.time⟩
  intro note member tracked index own reading after stands
  have known := (holds.timedNotes note member)
  rcases stands_push stands with ⟨rest, rfl, earlier⟩ | ⟨_, rfl, _⟩
  · have fits := known.fits index own reading rest earlier
    exact Reading.apart_of_tie stands.starts fits.timed (fits.tied tracked) ties _
  · have starts := stands.starts
    rw [silent] at starts
    cases starts

/-- A cut is read. All notes that ties still act on are ended, and are tied no more. -/
theorem Holds.limitNotes (holds : player.Holds source readings)
    (now : new.visit.tick = player.track.time) (silent : new.struck? source = none) :
    (player.limitNotes player.track.time).Ensures (Holds source (readings ++ [new])) := by
  rw [limitNotes_eq]
  rintro next done
  obtain ⟨limited, ended, rfl⟩ := Except.map_eq_ok.mp done
  have ends := endNotes_holds player [] holds
    (fun _ member => absurd member List.not_mem_nil) ?_ _ ended
  · have untracked : (limited.withTimed (limited.track.timedNotes.map TimedNote.untrack)).Holds source
        readings := by
      refine Held.keep ends.holds (fun note member => ?_) fun note member => ?_
      · obtain ⟨earlier, there, rfl⟩ := List.mem_map.mp member
        exact ⟨earlier, there, .inr rfl⟩
      · exact .inr ⟨_, List.mem_map_of_mem member, rfl, rfl⟩
    refine Held.read untracked (now.trans ends.time.symm) silent fun note member tracked => ?_
    obtain ⟨earlier, _, rfl⟩ := List.mem_map.mp member
    cases tracked
  · intro note member chosen index own reading after stands
    simp only [Bool.and_eq_true, decide_eq_true_eq] at chosen
    have fits := (holds.timedNotes note member).fits index own reading after stands
    refine fits.apart.sooner (Nat.max_le.mpr ⟨Nat.le_of_lt chosen.2, ?_⟩)
    rw [fits.start]
    exact Nat.le_trans (holds.early reading stands.mem) (Nat.le_of_lt chosen.2)

theorem Holds.finish (holds : player.Holds source readings) :
    player.finish.Ensures (Holds source readings) := by
  unfold Player.finish
  have all (note : OpenNote) : note ∈ player.track.openNotes ++ [] ↔
      note ∈ player.track.openNotes := by rw [List.append_nil]
  refine (endNotes_holds (player.withOpen []) player.track.openNotes (Held.reopen holds all)
    (fun _ _ => rfl) fun _ _ chosen => ?_).bind fun next ended => Except.ensures_ok ?_
  · cases chosen
  · have held := ended.holds.emit player.track.time .endOfTrack none
    exact held

/-- An instruction is carried out whose entry has been made. -/
theorem Holds.perform (holds : player.Holds source readings) {kind : EventKind} {more : Bool}
    {entry : Entry} (early : player.track.time ≤ Tick.last)
    (now : new.visit.tick = player.track.time) (known : new.kind? source = some kind)
    (found : player.shared.timeline.entries[entriesOf source readings]? = some entry)
    (start : entry.start = player.track.time) (lasts : entry.duration = kind.duration)
    (done : player.perform kind (some (entriesOf source readings)) = .ok (more, next)) :
    next.Holds source (readings ++ [new]) := by
  have goes {x : Except Fault Player} (ensures : x.Ensures (Holds source (readings ++ [new])))
      (done : (x >>= goOn) = .ok (more, next)) : next.Holds source (readings ++ [new]) := by
    obtain ⟨last, found, went⟩ := Except.bind_eq_ok.mp done
    cases went
    exact ensures _ found
  have read (silent : kind.struck? = none) : player.Holds source (readings ++ [new]) := by
    refine holds.read now ((Reading.struck_of_kind known).trans silent) fun tick => ?_
    refine Reading.releases_of_kind known (fun key velocity duration same => ?_) tick
    rw [same] at silent
    cases silent
  cases kind with
  | noteOn key velocity => exact goes (holds.startNote now known found start) done
  | noteOff key => exact goes ((read rfl).endNote key) done
  | note key velocity duration =>
    exact goes (holds.startTimedNote now known found start lasts) done
  | rest ticks =>
    cases done
    exact (read rfl).wait early ticks
  | hold ticks =>
    obtain ⟨extended, ended, went⟩ := Except.bind_eq_ok.mp done
    cases went
    obtain ⟨held, time⟩ := holds.extendNotes now known _ extended ended
    exact held.wait (time ▸ early) ticks
  | _ =>
    exact (aboutSound_holds source (readings ++ [new])).messages.perform (read rfl) rfl
      (EventKind.writesOnly_others _) (EventKind.conductsOnly_any _) done

/-- What the step of a track reads, whatever other registers it has. -/
theorem kind_of_octave (visit : new.visit = player.track.visit)
    (octave : new.registers.octave = player.track.octave) :
    new.kind? player.setting.source = player.reading.kind? player.setting.source := by
  unfold Reading.kind? Reading.event?
  rw [visit, octave]
  rfl

theorem isCut_of_unreadable (visit : new.visit = player.track.visit) {error : ReadError}
    {stop : Nat} (read : player.reads = (.error error, stop)) :
    new.isCut player.setting.source = false := by
  unfold Reading.isCut
  rw [visit, show RefSeq.instruction player.setting.source player.track.visit.offset =
    (.error error, stop) from read]

theorem Holds.noted (holds : player.Holds source readings) (stop : Nat) (kind : EventKind) :
    (player.noted stop kind).Holds source readings :=
  Held.add holds _

/-- A step reads one more instruction. -/
theorem Holds.advance {more : Bool} (holds : player.Holds player.setting.source readings)
    (early : player.track.time ≤ Tick.last) (visit : new.visit = player.track.visit)
    (octave : new.registers.octave = player.track.octave)
    (size : player.shared.timeline.size = entriesOf player.setting.source readings)
    (advanced : player.advance = .ok (more, next)) :
    next.Holds player.setting.source (readings ++ [new]) := by
  have now : new.visit.tick = player.track.time := by rw [visit]; rfl
  have kind := (kind_of_octave visit octave).trans player.kind_reading
  have silent (unrecorded : new.kind? player.setting.source = none) :
      new.struck? player.setting.source = none := by
    rw [Reading.struck?, unrecorded]
    rfl
  cases advance_iff.mp advanced with
  | @unreadable error stop read =>
    rw [read] at kind
    have read := holds.read now (silent kind) fun tick => Reading.releases_eq_false
      (isCut_of_unreadable visit read) (Reading.startsTimed_of_kind_none kind) tick
    exact read
  | @unknown opcode stop read =>
    rw [read] at kind
    exact (holds.noted stop _).read now (Reading.struck_of_kind kind)
      fun tick => Reading.releases_of_kind kind (by rintro _ _ _ ⟨⟩) tick
  | @cut stop _ read limited =>
    rw [read] at kind
    have reading : (player.readTo stop).Holds player.setting.source readings := holds
    exact reading.limitNotes now (silent kind) next limited
  | @event instruction stop kind' _ _ read known performed =>
    have recorded : new.kind? player.setting.source = some kind' := by
      rw [kind, read]
      cases instruction <;> first | exact known | cases known
    rw [show player.shared.timeline.nextIndex = entriesOf player.setting.source readings from size]
      at performed
    obtain ⟨entry, found, start, lasts⟩ : ∃ entry,
        (player.noted stop kind').shared.timeline.entries[entriesOf player.setting.source
          readings]? = some entry ∧ entry.start = player.track.time ∧
        entry.duration = kind'.duration := by
      rw [← size]
      exact ⟨_, Array.getElem?_push_size, rfl, rfl⟩
    exact (holds.noted stop kind').perform early now recorded found start lasts performed

end Player
end Sequencer
