import Sequencer.Proofs.Player.Places
import Sequencer.Proofs.Player.Spans
import Sequencer.Proofs.Score.Accounts

/-! The notes of a player are in order: ties act on notes of one tick, no key is held open twice, and
the sheet tells of each note where it begins and ends. A note that starts sees to the first two, since
it lets go of the notes of earlier ticks and ends those of its key. -/
namespace Sequencer

namespace Player

/-- What is known of the notes of a player, and of what is written for them. -/
structure Orderly (player : Player) : Prop where
  together : ∀ note ∈ player.track.timedNotes, ∀ other ∈ player.track.timedNotes,
    note.tracked = true → other.tracked = true → note.start = other.start
  keys : (player.track.openNotes.map OpenNote.key).Nodup
  timed : ∀ note ∈ player.track.timedNotes, note.Told player.writing player.sheet
  opened : ∀ note ∈ player.track.openNotes,
    player.shared.timeline.BeginsAt note.start note.entry

variable {player next : Player} {entry : Option Nat}

/-- Notes may be let go of, or dropped, while the sheet grows. -/
theorem Orderly.fewer (orderly : player.Orderly) (setting : next.setting = player.setting)
    (grown : player.sheet.Extends next.sheet)
    (timed : ∀ note ∈ next.track.timedNotes, ∃ earlier ∈ player.track.timedNotes,
      note = earlier ∨ note = earlier.untrack)
    (opened : next.track.openNotes.Sublist player.track.openNotes) : next.Orderly where
  together := by
    have held (note : TimedNote) (member : note ∈ next.track.timedNotes)
        (tracked : note.tracked = true) :
        ∃ earlier ∈ player.track.timedNotes, earlier.tracked = true ∧ note.start = earlier.start := by
      obtain ⟨earlier, there, rfl | rfl⟩ := timed note member
      · exact ⟨note, there, tracked, rfl⟩
      · cases tracked
    intro note here other there tracked tracked'
    obtain ⟨earlier, known, still, same⟩ := held note here tracked
    obtain ⟨earlier', known', still', same'⟩ := held other there tracked'
    rw [same, same']
    exact orderly.together earlier known earlier' known' still still'
  keys := orderly.keys.sublist (opened.map OpenNote.key)
  timed := by
    intro note member
    rw [Player.writing, setting]
    obtain ⟨earlier, there, rfl | rfl⟩ := timed note member
    · exact (orderly.timed note there).later grown
    · have told := (orderly.timed earlier there).later grown
      exact ⟨told.entry, told.noteOff⟩
  opened := by
    intro note member
    exact (orderly.opened note (opened.subset member)).later grown.entries

/-- The notes stay, while the sheet grows. -/
theorem Orderly.alike (orderly : player.Orderly) (setting : next.setting = player.setting)
    (grown : player.sheet.Extends next.sheet)
    (timed : next.track.timedNotes = player.track.timedNotes)
    (opened : next.track.openNotes = player.track.openNotes) : next.Orderly := by
  apply orderly.fewer setting grown
  · rw [timed]
    exact fun note member => ⟨note, member, .inl rfl⟩
  · rw [opened]

theorem Orderly.withOpen (orderly : player.Orderly) {notes : List OpenNote}
    (fewer : notes.Sublist player.track.openNotes) : (player.withOpen notes).Orderly :=
  orderly.fewer rfl (.refl _) (fun note member => ⟨note, member, .inl rfl⟩) fewer

theorem Orderly.withTimed (orderly : player.Orderly) {notes : List TimedNote}
    (kept : ∀ note ∈ notes, ∃ earlier ∈ player.track.timedNotes,
      note = earlier ∨ note = earlier.untrack) : (player.withTimed notes).Orderly :=
  orderly.fewer rfl (.refl _) kept (.refl _)

theorem emit_extends (player : Player) (tick : Nat) (message : MidiMessage)
    (transposeTick : Option Nat) :
    player.sheet.Extends (player.emit tick message transposeTick).sheet := by
  unfold Player.emit
  split
  · exact ⟨List.prefix_rfl, MidiTrack.prefix_push ..⟩
  · exact .refl _

theorem Orderly.emit (orderly : player.Orderly) (tick : Nat) (message : MidiMessage)
    (transposeTick : Option Nat) : (player.emit tick message transposeTick).Orderly := by
  apply orderly.alike
  · exact (emit_rescores ..).setting
  · exact emit_extends ..
  · exact emit_timedNotes ..
  · exact emit_openNotes ..

/-- The notes are in order whatever else the player sounds like. -/
theorem aboutSound_orderly : AboutSound (fun _ => True) Orderly where
  same := by
    intro player next orderly sound
    refine orderly.alike sound.setting ?_ sound.timedNotes sound.openNotes
    rw [sound.sheet]
    exact .refl _
  emit := fun orderly tick message _ => orderly.emit tick message none

theorem Orderly.endNotes (orderly : player.Orderly) (tidy : player.Tidy) {closing : List OpenNote}
    (inside : ∀ note ∈ closing, note.Within player.sheet) (chosen : TimedNote → Bool) (tick : Nat) :
    (player.endNotes closing chosen tick).Ensures Orderly := by
  obtain ⟨closed, done, revises⟩ :=
    OpenNote.closeAll_revises player.writing player.track.channel tick inside
  have unsettled := OpenNote.closeAll_unsettled _ _ tick tidy.unsettled closing closed done
  have within : ∀ note ∈ player.track.timedNotes, note.Within closed := fun note member =>
    (tidy.safe.timed note member).revise revises
  have grown : player.sheet.Extends closed :=
    ⟨revises.skeleton ▸ List.prefix_rfl, OpenNote.closeAll_messages _ _ tick _ closing closed done⟩
  rw [endNotes_of_closed done within unsettled chosen]
  apply Except.ensures_ok
  constructor
  · intro note here other there tracked tracked'
    obtain ⟨earlier, known, rfl⟩ := List.mem_map.mp here
    obtain ⟨earlier', known', rfl⟩ := List.mem_map.mp there
    rw [TimedNote.ended_eq] at tracked tracked' ⊢
    rw [TimedNote.ended_eq chosen tick earlier']
    exact orderly.together earlier known earlier' known' tracked tracked'
  · exact orderly.keys
  · intro note member
    obtain ⟨earlier, known, rfl⟩ := List.mem_map.mp member
    have told := (orderly.timed earlier known).later grown
    exact told.revise known tidy.track.noteOffs.nodup chosen tick
  · intro note member
    apply (orderly.opened note member).later
    change _ <+: (closed.revise _).timeline.skeleton
    rw [Sheet.revise_skeleton]
    exact grown.entries

/-- Some of the open notes are taken away and ended. -/
theorem Orderly.endOpen (orderly : player.Orderly) (tidy : player.Tidy)
    {closing others : List OpenNote} (subset : ∀ note ∈ closing, note ∈ player.track.openNotes)
    (fewer : others.Sublist player.track.openNotes) (chosen : TimedNote → Bool) (tick : Nat) :
    ((player.withOpen others).endNotes closing chosen tick).Ensures fun next =>
      next.Orderly ∧ next.track.openNotes = others := by
  have inside : ∀ note ∈ closing, note.Within (player.withOpen others).sheet :=
    fun note member => tidy.safe.opened note (subset note member)
  intro next done
  have ended := (orderly.withOpen fewer).endNotes (tidy.withOpen fewer).tidy inside chosen tick
  have left := (tidy.endOpen subset fewer chosen tick).ensures next done
  exact ⟨ended next done, left.2⟩

theorem Orderly.cutKey (orderly : player.Orderly) (tidy : player.Tidy) (key : UInt8) :
    (player.cutKey key).Ensures fun next =>
      next.Orderly ∧ ∀ note ∈ next.track.openNotes, note.key ≠ key := by
  rw [cutKey_eq]
  refine Except.Ensures.mono (orderly.endOpen tidy
    (fun note member => (List.mem_filter.mp member).1) List.filter_sublist _ _) ?_
  rintro next ⟨kept, left⟩
  constructor
  · exact kept
  · rw [left]
    intro note member
    simpa using (List.mem_filter.mp member).2

theorem Orderly.endNote (orderly : player.Orderly) (tidy : player.Tidy) (key : UInt8) :
    (player.endNote key).Ensures Orderly := by
  unfold Player.endNote
  split
  · exact Except.ensures_ok orderly
  · rename_i note found
    have subset : ∀ other ∈ [note], other ∈ player.track.openNotes :=
      List.forall_mem_singleton.mpr (List.mem_of_find?_eq_some found)
    exact Except.Ensures.mono (orderly.endOpen tidy subset List.eraseP_sublist _ player.track.time)
      fun _ => And.left

theorem Orderly.extendNotes (orderly : player.Orderly) (tidy : player.Tidy) (tick : Nat) :
    (player.extendNotes tick).Ensures Orderly :=
  orderly.endNotes tidy (fun _ member => absurd member List.not_mem_nil) _ tick

theorem Orderly.limitNotes (orderly : player.Orderly) (tidy : player.Tidy) (tick : Nat) :
    (player.limitNotes tick).Ensures Orderly := by
  rw [limitNotes_eq]
  rintro next done
  obtain ⟨ended, limited, rfl⟩ := Except.map_eq_ok.mp done
  have kept : ended.Orderly := orderly.endNotes tidy
    (fun _ member => absurd member List.not_mem_nil) _ tick ended limited
  apply kept.withTimed
  intro note member
  obtain ⟨earlier, known, rfl⟩ := List.mem_map.mp member
  exact ⟨earlier, known, .inr rfl⟩

theorem Orderly.addOpen (orderly : player.Orderly) {note : OpenNote}
    (begins : player.shared.timeline.BeginsAt note.start note.entry)
    (apart : ∀ other ∈ player.track.openNotes, other.key ≠ note.key) :
    (player.withOpen (player.track.openNotes ++ [note])).Orderly where
  together := orderly.together
  keys := by
    change ((player.track.openNotes ++ [note]).map OpenNote.key).Nodup
    rw [List.map_append, List.nodup_append]
    refine ⟨orderly.keys, List.nodup_singleton _, ?_⟩
    intro key member other single
    obtain ⟨earlier, there, rfl⟩ := List.mem_map.mp member
    cases List.mem_singleton.mp single
    exact apart earlier there
  timed := orderly.timed
  opened := List.forall_mem_append.mpr ⟨orderly.opened, List.forall_mem_singleton.mpr begins⟩

/-- A note that ends by itself and that ties act on. Earlier notes that they act on have begun in its
tick. -/
theorem Orderly.addTimed (orderly : player.Orderly) {note : TimedNote} (now : Nat)
    (start : note.start = now) (told : note.Told player.writing player.sheet) :
    (player.withTimed (TimedNote.beforeNote now player.track.timedNotes ++ [note])).Orderly := by
  have left : (player.withTimed (TimedNote.beforeNote now player.track.timedNotes)).Orderly :=
    orderly.withTimed fun _ => TimedNote.exists_of_mem_beforeNote
  have begun : ∀ other ∈ TimedNote.beforeNote now player.track.timedNotes ++ [note],
      other.tracked = true → other.start = now := by
    intro other member tracked
    rcases List.mem_append.mp member with earlier | new
    · exact TimedNote.beforeNote_tracked earlier tracked
    · cases List.mem_singleton.mp new
      exact start
  constructor
  · intro first here second there tracked tracked'
    exact (begun first here tracked).trans (begun second there tracked').symm
  · exact orderly.keys
  · exact List.forall_mem_append.mpr ⟨left.timed, List.forall_mem_singleton.mpr told⟩
  · exact orderly.opened

theorem Orderly.sounding (orderly : player.Orderly) (key velocity : UInt8)
    (begins : player.shared.timeline.BeginsAt player.track.time entry)
    (apart : ∀ note ∈ player.track.openNotes, note.key ≠ key) :
    (player.sounding key velocity entry).Orderly := by
  unfold Player.sounding
  dsimp only
  have begun := orderly.emit player.track.time
    (.noteOn (player.track.soundingKey key).1 velocity) (player.track.soundingKey key).2
  have grown := emit_extends player player.track.time
    (.noteOn (player.track.soundingKey key).1 velocity) (player.track.soundingKey key).2
  apply begun.addOpen
  · exact begins.later grown.entries
  · rw [emit_openNotes]
    exact apart

theorem Orderly.soundingFor (orderly : player.Orderly) (key velocity : UInt8) (duration : Nat)
    (begins : player.shared.timeline.BeginsAt player.track.time entry) :
    (player.soundingFor key velocity duration entry).Orderly := by
  unfold Player.soundingFor
  dsimp only
  have first := orderly.emit player.track.time
    (.noteOn (player.track.soundingKey key).1 velocity) (player.track.soundingKey key).2
  have grown := emit_extends player player.track.time
    (.noteOn (player.track.soundingKey key).1 velocity) (player.track.soundingKey key).2
  generalize player.emit player.track.time _ _ = begun at first grown ⊢
  have second := first.emit (Tick.later player.track.time duration)
    (.noteOff (player.track.soundingKey key).1) (player.track.soundingKey key).2
  have grown' := emit_extends begun (Tick.later player.track.time duration)
    (.noteOff (player.track.soundingKey key).1) (player.track.soundingKey key).2
  refine second.addTimed player.track.time rfl ⟨?_, ?_⟩
  · exact (begins.later grown.entries).later grown'.entries
  · intro writes
    have writing : begun.writing = true := by
      unfold Player.emit at writes
      split at writes
      · assumption
      · exact writes
    dsimp only
    rw [if_pos writing, Player.emit, if_pos writing]
    exact ⟨_, _, _, rfl, Array.getElem?_push_size, rfl, rfl⟩

theorem cutKey_begins (safe : player.Safe) {key : UInt8}
    (begins : player.shared.timeline.BeginsAt player.track.time entry) {cut : Player}
    (done : player.cutKey key = .ok cut) :
    cut.shared.timeline.BeginsAt cut.track.time entry := by
  obtain ⟨rescores, _⟩ := (cutKey_safe safe key).ensures cut done
  have time : cut.track.time = player.track.time := rescores.retains.time
  rw [time]
  exact begins.later (rescores.retains.skeleton.symm ▸ List.prefix_rfl)

theorem Orderly.perform (orderly : player.Orderly) (tidy : player.Tidy) (kind : EventKind)
    (begins : player.shared.timeline.BeginsAt player.track.time entry) :
    (player.perform kind entry).Ensures fun (_, next) => next.Orderly := by
  have goes {x : Except Fault Player} (ensures : x.Ensures Orderly) :
      (x >>= goOn).Ensures fun (_, next) => next.Orderly :=
    ensures.bind fun _ orderly => Except.ensures_ok orderly
  cases kind with
  | noteOn key velocity =>
    refine goes (x := player.startNote key velocity entry) ?_
    rw [startNote_eq]
    intro next done
    obtain ⟨cut, ended, rfl⟩ := Except.map_eq_ok.mp done
    obtain ⟨kept, apart⟩ := orderly.cutKey tidy key cut ended
    exact kept.sounding key velocity (cutKey_begins tidy.safe begins ended) apart
  | noteOff key => exact goes (orderly.endNote tidy key)
  | note key velocity duration =>
    refine goes (x := player.startTimedNote key velocity duration entry) ?_
    rw [startTimedNote_eq]
    intro next done
    obtain ⟨cut, ended, rfl⟩ := Except.map_eq_ok.mp done
    obtain ⟨kept, _⟩ := orderly.cutKey tidy key cut ended
    exact kept.soundingFor key velocity duration (cutKey_begins tidy.safe begins ended)
  | rest ticks => exact Except.ensures_ok (orderly.alike rfl (.refl _) rfl rfl)
  | hold ticks =>
    refine Except.Ensures.bind (orderly.extendNotes tidy _) fun held kept => ?_
    exact Except.ensures_ok (kept.alike rfl (.refl _) rfl rfl)
  | _ =>
    rintro ⟨more, next⟩ done
    exact aboutSound_orderly.messages.perform orderly rfl (EventKind.writesOnly_any _)
      (EventKind.conductsOnly_any _) done

theorem Orderly.record (orderly : player.Orderly) (span : Span) (kind : EventKind) :
    (player.record span kind).2.Orderly :=
  orderly.alike rfl ⟨Timeline.prefix_add .., List.prefix_rfl⟩ rfl rfl

/-- Whatever a player is ordered to do, its notes stay in order. -/
theorem Orderly.apply (orderly : player.Orderly) (tidy : player.Tidy) (operation : Operation) :
    (player.apply operation).Ensures fun (_, next) => next.Orderly := by
  have goes {x : Except Fault Player} (ensures : x.Ensures Orderly) :
      (x >>= goOn).Ensures fun (_, next) => next.Orderly :=
    ensures.bind fun _ orderly => Except.ensures_ok orderly
  cases operation with
  | moveTo offset | useChannel channel =>
    exact Except.ensures_ok (orderly.alike rfl (.refl _) rfl rfl)
  | record span kind =>
    have entered := orderly.record span kind
    exact entered.perform (tidy.record span kind).1.tidy kind (Timeline.beginsAt_add _ _)
  | play kind => exact orderly.perform tidy kind fun _ none => by cases none
  | extendNotes tick => exact goes (orderly.extendNotes tidy tick)
  | limitNotes tick => exact goes (orderly.limitNotes tidy tick)

theorem Orderly.finish (orderly : player.Orderly) (tidy : player.Tidy) :
    player.finish.Ensures Orderly := by
  have silent := orderly.endOpen tidy (fun _ member => member) (List.nil_sublist _) (fun _ => false)
    player.track.time
  refine Except.Ensures.bind silent fun closed ⟨kept, _⟩ => ?_
  have ended := kept.emit player.track.time .endOfTrack none
  exact Except.ensures_ok (ended.alike rfl (.refl _) rfl rfl)

theorem Orderly.moveDials (orderly : player.Orderly) (tick : Nat) :
    (player.moveDials tick).Orderly :=
  aboutSound_orderly.messages.moveDials orderly tick fun _ _ _ => trivial

end Player
end Sequencer
