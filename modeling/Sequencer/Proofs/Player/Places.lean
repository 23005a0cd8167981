import Sequencer.Proofs.Lists
import Sequencer.Proofs.Player.Revisions
import Sequencer.Proofs.Player.Sound

/-! Where the notes of a track are written. Each note has its own entry in the timeline, and each
that ends by itself its own note-off, because both are new when the note starts and a note that is
dropped gives its places to no other. Whatever a player is ordered to do keeps it so. -/
namespace Sequencer

/-- Places below a bound, each of them once. -/
structure Distinct (bound : Nat) (places : List Nat) : Prop where
  nodup : places.Nodup
  inside : ∀ place ∈ places, place < bound

section Distinct

variable {bound bound' : Nat} {places fewer xs ys : List Nat} {place : Option Nat}

theorem Distinct.sublist (distinct : Distinct bound places) (kept : fewer.Sublist places)
    (grown : bound ≤ bound') : Distinct bound' fewer where
  nodup := distinct.nodup.sublist kept
  inside := fun place member =>
    Nat.lt_of_lt_of_le (distinct.inside place (kept.subset member)) grown

/-- A place is added that was free. -/
theorem Distinct.insert (distinct : Distinct bound (xs ++ ys))
    (free : ∀ x ∈ place, x < bound ∧ x ∉ xs ++ ys) :
    Distinct bound (xs ++ place.toList ++ ys) := by
  cases place with
  | none => simpa using distinct
  | some x =>
    obtain ⟨inside, apart⟩ := free x rfl
    have moved : (xs ++ [x] ++ ys).Perm (x :: (xs ++ ys)) := by
      rw [List.append_assoc]
      exact List.perm_middle
    refine ⟨moved.nodup_iff.mpr (List.nodup_cons.mpr ⟨apart, distinct.nodup⟩), ?_⟩
    intro other member
    rcases List.mem_cons.mp (moved.mem_iff.mp member) with rfl | earlier
    · exact inside
    · exact distinct.inside other earlier

end Distinct

namespace TimedNote

variable (now : Nat) (notes : List TimedNote)

theorem filterMap_untrack {α : Type} {place : TimedNote → Option α}
    (same : ∀ note, place note.untrack = place note) :
    (notes.map untrack).filterMap place = notes.filterMap place := by
  rw [List.filterMap_map]
  exact congrArg (List.filterMap · notes) (funext same)

/-- A new note leaves earlier ones where they are written, or drops them. -/
theorem filterMap_beforeNote {α : Type} {place : TimedNote → Option α}
    (same : ∀ note, place note.untrack = place note) :
    ((beforeNote now notes).filterMap place).Sublist (notes.filterMap place) := by
  refine (List.filter_sublist.filterMap place).trans ?_
  split
  · rw [filterMap_untrack notes same]
  · exact .refl _

theorem ordered_beforeNote (ordered : ∀ note ∈ notes, note.start ≤ note.stop) :
    ∀ note ∈ beforeNote now notes, note.start ≤ note.stop := by
  intro note member
  have kept := (List.mem_filter.mp member).1
  split at kept
  · obtain ⟨earlier, known, rfl⟩ := List.mem_map.mp kept
    exact ordered earlier known
  · exact ordered note kept

theorem filterMap_ended {α : Type} {place : TimedNote → Option α}
    (same : ∀ note stop, place { note with stop } = place note) (chosen : TimedNote → Bool)
    (tick : Nat) : (notes.map (ended chosen tick)).filterMap place = notes.filterMap place := by
  rw [List.filterMap_map]
  refine congrArg (List.filterMap · notes) (funext fun note => ?_)
  rw [Function.comp_apply, ended_eq, same]

end TimedNote

theorem Timeline.setDuration_unsettled {timeline : Timeline} (unsettled : timeline.settled = false)
    (index duration : Nat) :
    (timeline.setDuration index duration).Ensures fun next => next.settled = false := by
  unfold setDuration
  split
  · split
    · exact Except.ensures_ok unsettled
    · exact Except.ensures_ok rfl
  · rintro next ⟨⟩

theorem OpenNote.closeAll_unsettled (writing : Bool) (channel : UInt8) (tick : Nat) {sheet : Sheet}
    (unsettled : sheet.timeline.settled = false) (notes : List OpenNote) :
    (closeAll writing channel tick sheet notes).Ensures fun next =>
      next.timeline.settled = false := by
  induction notes generalizing sheet with
  | nil => exact Except.ensures_ok unsettled
  | cons note rest ih =>
    have timed : (sheet.setDuration note.entry (tick - note.start)).Ensures fun next =>
        next.timeline.settled = false := by
      cases note.entry with
      | none => exact Except.ensures_ok unsettled
      | some index =>
        exact (Timeline.setDuration_unsettled unsettled index _).bind fun _ unsettled =>
          Except.ensures_ok unsettled
    refine Except.Ensures.bind (timed.bind fun next unsettled => ?_) fun _ unsettled => ih unsettled
    cases writing <;> exact Except.ensures_ok unsettled

namespace Track

def entries (track : Track) : List Nat :=
  track.timedNotes.filterMap TimedNote.entry ++ track.openNotes.filterMap OpenNote.entry

def noteOffs (track : Track) : List Nat := track.timedNotes.filterMap TimedNote.noteOff

/-- The notes are written at places of their own, in a timeline with `size` entries, and none ends
before it starts. -/
structure Tidy (size : Nat) (track : Track) : Prop where
  clock : track.time ≤ Tick.last
  ordered : ∀ note ∈ track.timedNotes, note.start ≤ note.stop
  entries : Distinct size track.entries
  noteOffs : Distinct track.midi.size track.noteOffs

variable {size size' : Nat} {track next : Track}

theorem Tidy.grow (tidy : track.Tidy size) (grown : size ≤ size') : track.Tidy size' :=
  { tidy with entries := tidy.entries.sublist (.refl _) grown }

/-- Notes may be dropped, and messages added. -/
theorem Tidy.fewer (tidy : track.Tidy size) (time : next.time = track.time)
    (ordered : ∀ note ∈ next.timedNotes, note.start ≤ note.stop)
    (entries : next.entries.Sublist track.entries) (noteOffs : next.noteOffs.Sublist track.noteOffs)
    (midi : track.midi.size ≤ next.midi.size) : next.Tidy size where
  clock := time ▸ tidy.clock
  ordered := ordered
  entries := tidy.entries.sublist entries (Nat.le_refl _)
  noteOffs := tidy.noteOffs.sublist noteOffs midi

end Track

namespace Player

/-- The notes of the player are written at places of their own in a timeline that is not settled. -/
structure Tidy (player : Player) : Prop where
  track : player.track.Tidy player.shared.timeline.size
  unsettled : player.shared.timeline.settled = false

/-- An entry of the timeline that no note of the player has. -/
def Vacant (player : Player) (entry : Option Nat) : Prop :=
  ∀ index ∈ entry, index < player.shared.timeline.size ∧ index ∉ player.track.entries

/-- What a player keeps that plays on. -/
structure Tends (player next : Player) : Prop where
  setting : next.setting = player.setting
  tidy : next.Tidy
  grown : player.shared.timeline.size ≤ next.shared.timeline.size

/-- The player has as many entries as before, and no note has one that was free. -/
structure Clears (player next : Player) : Prop extends Tends player next where
  time : next.track.time = player.track.time
  size : next.shared.timeline.size = player.shared.timeline.size
  entries : next.track.entries ⊆ player.track.entries

variable {player next last : Player} {entry : Option Nat}

theorem Tends.refl (tidy : player.Tidy) : player.Tends player := ⟨rfl, tidy, Nat.le_refl _⟩

theorem Tends.trans (left : player.Tends next) (right : next.Tends last) : player.Tends last :=
  ⟨right.setting.trans left.setting, right.tidy, Nat.le_trans left.grown right.grown⟩

theorem Clears.trans (left : player.Clears next) (right : next.Clears last) :
    player.Clears last where
  toTends := left.toTends.trans right.toTends
  time := right.time.trans left.time
  size := right.size.trans left.size
  entries := fun _ member => left.entries (right.entries member)

theorem Clears.vacant (clears : player.Clears next) (vacant : player.Vacant entry) :
    next.Vacant entry := by
  intro index known
  obtain ⟨inside, free⟩ := vacant index known
  exact ⟨clears.size ▸ inside, fun member => free (clears.entries member)⟩

theorem Tidy.safe (tidy : player.Tidy) : player.Safe where
  timed := fun note member => by
    constructor
    · intro index own
      exact tidy.track.entries.inside index
        (List.mem_append_left _ (List.mem_filterMap.mpr ⟨note, member, own⟩))
    · intro position own
      exact tidy.track.noteOffs.inside position (List.mem_filterMap.mpr ⟨note, member, own⟩)
  opened := fun note member index own => tidy.track.entries.inside index
    (List.mem_append_right _ (List.mem_filterMap.mpr ⟨note, member, own⟩))

/-- A sheet with as many entries, and all the messages there were. -/
theorem Tidy.withSheet (tidy : player.Tidy) {sheet : Sheet}
    (size : sheet.timeline.size = player.shared.timeline.size)
    (unsettled : sheet.timeline.settled = false) (midi : player.track.midi.size ≤ sheet.midi.size) :
    player.Clears (player.withSheet sheet) := by
  have track : (player.withSheet sheet).track.Tidy sheet.timeline.size :=
    size ▸ tidy.track.fewer rfl tidy.track.ordered (.refl _) (.refl _) midi
  exact ⟨⟨rfl, ⟨track, unsettled⟩, Nat.le_of_eq size.symm⟩, rfl, size, fun _ => id⟩

/-- Notes that end by themselves are revised, and written where they were. -/
theorem Tidy.withTimed (tidy : player.Tidy) {notes : List TimedNote}
    (entries : notes.filterMap TimedNote.entry = player.track.timedNotes.filterMap TimedNote.entry)
    (noteOffs : notes.filterMap TimedNote.noteOff = player.track.noteOffs)
    (ordered : ∀ note ∈ notes, note.start ≤ note.stop) :
    player.Clears (player.withTimed notes) := by
  have same : (player.withTimed notes).track.entries = player.track.entries :=
    congrArg (· ++ player.track.openNotes.filterMap OpenNote.entry) entries
  have sameOffs : (player.withTimed notes).track.noteOffs = player.track.noteOffs := noteOffs
  have track : (player.withTimed notes).track.Tidy player.shared.timeline.size :=
    tidy.track.fewer rfl ordered (same ▸ .refl _) (sameOffs ▸ .refl _) (Nat.le_refl _)
  exact ⟨⟨rfl, ⟨track, tidy.unsettled⟩, Nat.le_refl _⟩, rfl, rfl, fun _ member => same ▸ member⟩

theorem Tidy.endNotes (tidy : player.Tidy) {closing : List OpenNote}
    (inside : ∀ note ∈ closing, note.Within player.sheet) (chosen : TimedNote → Bool) (tick : Nat) :
    (player.endNotes closing chosen tick).Yields fun next =>
      player.Clears next ∧ next.track.openNotes = player.track.openNotes := by
  obtain ⟨closed, done, revises⟩ :=
    OpenNote.closeAll_revises player.writing player.track.channel tick inside
  have unsettled := OpenNote.closeAll_unsettled _ _ tick tidy.unsettled closing closed done
  have within : ∀ note ∈ player.track.timedNotes, note.Within closed := fun note member =>
    (tidy.safe.timed note member).revise revises
  let sheet := closed.revise ((player.track.timedNotes.filter chosen).map (TimedNote.endedAt tick))
  let notes := player.track.timedNotes.map (TimedNote.ended chosen tick)
  refine ⟨(player.withSheet sheet).withTimed notes, ?_, ?_, rfl⟩
  · exact endNotes_of_closed done within unsettled chosen
  have written : player.Clears (player.withSheet sheet) := by
    refine tidy.withSheet ((Sheet.revise_size ..).trans revises.size_eq) unsettled ?_
    exact Nat.le_trans revises.messages (Nat.le_of_eq (Sheet.revise_messages ..).symm)
  have ordered : ∀ note ∈ notes, note.start ≤ note.stop := by
    intro note member
    obtain ⟨earlier, known, rfl⟩ := List.mem_map.mp member
    unfold TimedNote.ended
    split
    · exact Nat.le_max_right ..
    · exact tidy.track.ordered earlier known
  exact written.trans (written.tidy.withTimed
    (TimedNote.filterMap_ended _ (fun _ _ => rfl) chosen tick)
    (TimedNote.filterMap_ended _ (fun _ _ => rfl) chosen tick) ordered)

/-- Open notes are taken away. -/
theorem Tidy.withOpen (tidy : player.Tidy) {notes : List OpenNote}
    (fewer : notes.Sublist player.track.openNotes) : player.Clears (player.withOpen notes) := by
  have entries : (player.withOpen notes).track.entries.Sublist player.track.entries :=
    (List.Sublist.refl _).append (fewer.filterMap _)
  exact ⟨⟨rfl, ⟨tidy.track.fewer rfl tidy.track.ordered entries (.refl _) (Nat.le_refl _),
    tidy.unsettled⟩, Nat.le_refl _⟩, rfl, rfl, entries.subset⟩

/-- Some of the open notes are taken away and ended. -/
theorem Tidy.endOpen (tidy : player.Tidy) {closing others : List OpenNote}
    (subset : ∀ note ∈ closing, note ∈ player.track.openNotes)
    (fewer : others.Sublist player.track.openNotes) (chosen : TimedNote → Bool) (tick : Nat) :
    ((player.withOpen others).endNotes closing chosen tick).Yields fun next =>
      player.Clears next ∧ next.track.openNotes = others := by
  have taken := tidy.withOpen fewer
  have inside : ∀ note ∈ closing, note.Within (player.withOpen others).sheet :=
    fun note member => tidy.safe.opened note (subset note member)
  exact (taken.tidy.endNotes inside chosen tick).mono fun _ ⟨clears, same⟩ =>
    ⟨taken.trans clears, same⟩

theorem Tidy.cutKey (tidy : player.Tidy) (key : UInt8) :
    (player.cutKey key).Yields player.Clears := by
  rw [cutKey_eq]
  exact (tidy.endOpen (fun _ member => (List.mem_filter.mp member).1) List.filter_sublist _
    player.track.time).mono fun _ => And.left

theorem Tidy.endNote (tidy : player.Tidy) (key : UInt8) :
    (player.endNote key).Yields player.Clears := by
  unfold Player.endNote
  split
  · exact Except.yields_ok ⟨.refl tidy, rfl, rfl, fun _ => id⟩
  · rename_i note found
    have subset : ∀ other ∈ [note], other ∈ player.track.openNotes :=
      List.forall_mem_singleton.mpr (List.mem_of_find?_eq_some found)
    exact (tidy.endOpen subset List.eraseP_sublist _ player.track.time).mono fun _ => And.left

theorem Tidy.extendNotes (tidy : player.Tidy) (tick : Nat) :
    (player.extendNotes tick).Yields player.Clears :=
  (tidy.endNotes (fun _ member => absurd member List.not_mem_nil) _ tick).mono fun _ => And.left

theorem Tidy.limitNotes (tidy : player.Tidy) (tick : Nat) :
    (player.limitNotes tick).Yields player.Clears := by
  rw [limitNotes_eq]
  refine Except.Yields.map (tidy.endNotes (fun _ member => absurd member List.not_mem_nil) _ tick)
    fun ended ⟨clears, _⟩ => ?_
  have ordered : ∀ note ∈ ended.track.timedNotes.map TimedNote.untrack,
      note.start ≤ note.stop := by
    intro note member
    obtain ⟨earlier, known, rfl⟩ := List.mem_map.mp member
    exact clears.tidy.track.ordered earlier known
  exact clears.trans (clears.tidy.withTimed (TimedNote.filterMap_untrack _ fun _ => rfl)
    (TimedNote.filterMap_untrack _ fun _ => rfl) ordered)

theorem Tidy.emit (tidy : player.Tidy) (tick : Nat) (message : MidiMessage)
    (transposeTick : Option Nat) : player.Clears (player.emit tick message transposeTick) := by
  unfold Player.emit
  split
  · have midi : player.track.midi.size ≤ (player.track.midi.push
        ⟨tick, player.track.channel, message, transposeTick⟩).size := by
      simp [MidiTrack.size, MidiTrack.push]
    exact ⟨⟨rfl, ⟨tidy.track.fewer rfl tidy.track.ordered (.refl _) (.refl _) midi,
      tidy.unsettled⟩, Nat.le_refl _⟩, rfl, rfl, fun _ => id⟩
  · exact ⟨.refl tidy, rfl, rfl, fun _ => id⟩

/-- A note that sounds until it is ended, with a new entry. -/
theorem Tidy.addOpen (tidy : player.Tidy) {note : OpenNote} (vacant : player.Vacant note.entry) :
    player.Tends (player.withOpen (player.track.openNotes ++ [note])) := by
  have entries : (player.withOpen (player.track.openNotes ++ [note])).track.entries =
      player.track.entries ++ note.entry.toList ++ [] := by
    change _ ++ (player.track.openNotes ++ [note]).filterMap OpenNote.entry = _
    rw [List.filterMap_push, ← List.append_assoc, List.append_nil]
    rfl
  refine ⟨rfl, ⟨⟨tidy.track.clock, tidy.track.ordered, ?_, tidy.track.noteOffs⟩, tidy.unsettled⟩,
    Nat.le_refl _⟩
  rw [entries]
  apply Distinct.insert <;> rw [List.append_nil]
  · exact tidy.track.entries
  · exact vacant

/-- A note that ends by itself, with a new entry and a new note-off. -/
theorem Tidy.addTimed (tidy : player.Tidy) {note : TimedNote} (now : Nat)
    (vacant : player.Vacant note.entry) (ordered : note.start ≤ note.stop)
    (written : ∀ position ∈ note.noteOff,
      position < player.track.midi.size ∧ position ∉ player.track.noteOffs) :
    player.Tends
      (player.withTimed (TimedNote.beforeNote now player.track.timedNotes ++ [note])) := by
  let earlier := TimedNote.beforeNote now player.track.timedNotes
  have fewer : (earlier.filterMap TimedNote.entry ++
      player.track.openNotes.filterMap OpenNote.entry).Sublist player.track.entries :=
    (TimedNote.filterMap_beforeNote now _ fun _ => rfl).append (.refl _)
  have fewerOffs : (earlier.filterMap TimedNote.noteOff ++ []).Sublist player.track.noteOffs := by
    rw [List.append_nil]
    exact TimedNote.filterMap_beforeNote now _ fun _ => rfl
  have entries : (player.withTimed (earlier ++ [note])).track.entries =
      earlier.filterMap TimedNote.entry ++ note.entry.toList ++
        player.track.openNotes.filterMap OpenNote.entry :=
    congrArg (· ++ _) (List.filterMap_push TimedNote.entry earlier note)
  have noteOffs : (player.withTimed (earlier ++ [note])).track.noteOffs =
      earlier.filterMap TimedNote.noteOff ++ note.noteOff.toList ++ [] :=
    (List.filterMap_push TimedNote.noteOff earlier note).trans (List.append_nil _).symm
  refine ⟨rfl, ⟨⟨tidy.track.clock, ?_, ?_, ?_⟩, tidy.unsettled⟩, Nat.le_refl _⟩
  · refine List.forall_mem_append.mpr ⟨?_, List.forall_mem_singleton.mpr ordered⟩
    exact TimedNote.ordered_beforeNote now _ tidy.track.ordered
  · rw [entries]
    refine (tidy.track.entries.sublist fewer (Nat.le_refl _)).insert fun index own => ?_
    exact (vacant index own).imp_right (mt fun member => fewer.subset member)
  · rw [noteOffs]
    refine (tidy.track.noteOffs.sublist fewerOffs (Nat.le_refl _)).insert fun position own => ?_
    exact (written position own).imp_right (mt fun member => fewerOffs.subset member)

theorem Tidy.sounding (tidy : player.Tidy) (key velocity : UInt8) (vacant : player.Vacant entry) :
    player.Tends (player.sounding key velocity entry) := by
  have begun := tidy.emit player.track.time
    (.noteOn (player.track.soundingKey key).1 velocity) (player.track.soundingKey key).2
  exact begun.toTends.trans (begun.tidy.addOpen (begun.vacant vacant))

theorem Tidy.soundingFor (tidy : player.Tidy) (key velocity : UInt8) (duration : Nat)
    (vacant : player.Vacant entry) :
    player.Tends (player.soundingFor key velocity duration entry) := by
  unfold Player.soundingFor
  dsimp only
  have first := tidy.emit player.track.time
    (.noteOn (player.track.soundingKey key).1 velocity) (player.track.soundingKey key).2
  generalize player.emit player.track.time _ _ = begun at first ⊢
  have second := first.tidy.emit (Tick.later player.track.time duration)
    (.noteOff (player.track.soundingKey key).1) (player.track.soundingKey key).2
  refine (first.trans second).toTends.trans (second.tidy.addTimed _
    (second.vacant (first.vacant vacant)) (Tick.le_later tidy.track.clock duration) ?_)
  intro position known
  dsimp only at known
  split at known
  · rename_i writes
    cases known
    have earlier (place : Nat) (member : place ∈ begun.track.noteOffs) :=
      first.tidy.track.noteOffs.inside place member
    rw [Player.emit, if_pos writes]
    refine ⟨?_, fun member => Nat.lt_irrefl _ (earlier _ member)⟩
    simp [MidiTrack.size, MidiTrack.push]
  · cases known

theorem Tidy.wait (tidy : player.Tidy) (ticks : Nat) : player.Tends (player.wait ticks) :=
  ⟨rfl, ⟨⟨Tick.later_le_last .., tidy.track.ordered, tidy.track.entries, tidy.track.noteOffs⟩,
    tidy.unsettled⟩, Nat.le_refl _⟩

/-- What a player tends to does not depend on how it sounds otherwise. -/
theorem aboutSound_tends (player : Player) : AboutSound (fun _ => True) player.Tends where
  same := fun {before after} tends sound => by
    have timeline : after.shared.timeline = before.shared.timeline :=
      congrArg Sheet.timeline sound.sheet
    have midi : after.track.midi = before.track.midi := congrArg Sheet.midi sound.sheet
    have entries : after.track.entries = before.track.entries := by
      rw [Track.entries, sound.timedNotes, sound.openNotes]
      rfl
    have noteOffs : after.track.noteOffs = before.track.noteOffs :=
      congrArg (List.filterMap _) sound.timedNotes
    obtain ⟨setting, ⟨track, unsettled⟩, grown⟩ := tends
    refine ⟨sound.setting.trans setting, ⟨?_, timeline ▸ unsettled⟩, timeline ▸ grown⟩
    rw [timeline]
    exact track.fewer sound.time (sound.timedNotes ▸ track.ordered) (entries ▸ .refl _)
      (noteOffs ▸ .refl _) (Nat.le_of_eq (congrArg MidiTrack.size midi.symm))
  emit := fun tends tick message _ => tends.trans (tends.tidy.emit tick message none).toTends

theorem Tidy.perform (tidy : player.Tidy) (kind : EventKind) (vacant : player.Vacant entry) :
    (player.perform kind entry).Ensures fun (_, next) => player.Tends next := by
  have goes {x : Except Fault Player} (yields : x.Yields player.Tends) :
      (x >>= goOn).Ensures fun (_, next) => player.Tends next :=
    yields.ensures.bind fun _ tends => Except.ensures_ok tends
  cases kind with
  | noteOn key velocity =>
    refine goes (x := player.startNote key velocity entry) ?_
    rw [startNote_eq]
    exact (tidy.cutKey key).map fun cut clears =>
      clears.toTends.trans (clears.tidy.sounding key velocity (clears.vacant vacant))
  | noteOff key => exact goes ((tidy.endNote key).mono fun _ => Clears.toTends)
  | note key velocity duration =>
    refine goes (x := player.startTimedNote key velocity duration entry) ?_
    rw [startTimedNote_eq]
    exact (tidy.cutKey key).map fun cut clears =>
      clears.toTends.trans (clears.tidy.soundingFor key velocity duration (clears.vacant vacant))
  | rest ticks => exact Except.ensures_ok (tidy.wait ticks)
  | hold ticks =>
    refine Except.Ensures.bind (tidy.extendNotes _).ensures fun held clears => ?_
    exact Except.ensures_ok (clears.toTends.trans (clears.tidy.wait ticks))
  | _ =>
    rintro ⟨more, next⟩ done
    exact (aboutSound_tends player).messages.perform (.refl tidy) rfl (EventKind.writesOnly_any _)
      (EventKind.conductsOnly_any _) done

/-- An event is entered, with an entry that no note has. -/
theorem Tidy.record (tidy : player.Tidy) (span : Span) (kind : EventKind) :
    player.Tends (player.record span kind).2 ∧
      (player.record span kind).2.Vacant (some (player.record span kind).1) := by
  have grown : player.shared.timeline.size < (player.record span kind).2.shared.timeline.size := by
    change player.shared.timeline.entries.size < (player.shared.timeline.entries.push _).size
    simp
  have tends : player.Tends (player.record span kind).2 :=
    ⟨rfl, ⟨tidy.track.grow (Nat.le_of_lt grown), rfl⟩, Nat.le_of_lt grown⟩
  refine ⟨tends, ?_⟩
  rintro index ⟨⟩
  exact ⟨grown, fun member => Nat.lt_irrefl _ (tidy.track.entries.inside _ member)⟩

/-- Whatever a player is ordered to do, its notes keep places of their own. -/
theorem Tidy.apply (tidy : player.Tidy) (operation : Operation) :
    (player.apply operation).Ensures fun (_, next) => player.Tends next := by
  have goes {x : Except Fault Player} (yields : x.Yields player.Clears) :
      (x >>= goOn).Ensures fun (_, next) => player.Tends next :=
    yields.ensures.bind fun _ clears => Except.ensures_ok clears.toTends
  cases operation with
  | moveTo offset | useChannel channel =>
    exact Except.ensures_ok ⟨rfl, ⟨⟨tidy.track.clock, tidy.track.ordered, tidy.track.entries,
      tidy.track.noteOffs⟩, tidy.unsettled⟩, Nat.le_refl _⟩
  | record span kind =>
    obtain ⟨tends, vacant⟩ := tidy.record span kind
    exact Except.Ensures.mono (tends.tidy.perform kind vacant) fun _ later => tends.trans later
  | play kind => exact tidy.perform kind fun _ none => by cases none
  | extendNotes tick => exact goes (tidy.extendNotes tick)
  | limitNotes tick => exact goes (tidy.limitNotes tick)

theorem Tidy.finish (tidy : player.Tidy) : player.finish.Ensures player.Tends := by
  have silent := tidy.endOpen (fun _ member => member) (List.nil_sublist _) (fun _ => false)
    player.track.time
  refine Except.Ensures.bind silent.ensures fun closed ⟨clears, _⟩ => ?_
  have ended := clears.tidy.emit player.track.time .endOfTrack none
  obtain ⟨setting, ⟨track, unsettled⟩, grown⟩ := clears.toTends.trans ended.toTends
  exact Except.ensures_ok ⟨setting, ⟨⟨track.clock, track.ordered, track.entries, track.noteOffs⟩,
    unsettled⟩, grown⟩

theorem Tidy.moveDials (tidy : player.Tidy) (tick : Nat) :
    player.Tends (player.moveDials tick) :=
  (aboutSound_tends player).messages.moveDials (.refl tidy) tick fun _ _ _ => trivial

/-- The notes of the player have entries among `places` only. -/
def Occupies (places : List Nat) (player : Player) : Prop := player.track.entries ⊆ places

variable {places : List Nat}

theorem Clears.occupies (clears : player.Clears next) (within : player.Occupies places) :
    next.Occupies places := List.Subset.trans clears.entries within

theorem emit_occupies (within : player.Occupies places) (tick : Nat) (message : MidiMessage)
    (transposeTick : Option Nat) : (player.emit tick message transposeTick).Occupies places := by
  rw [Occupies, Track.entries, emit_timedNotes, emit_openNotes]
  exact within

theorem aboutSound_occupies (places : List Nat) :
    AboutSound (fun _ => True) (Occupies places) where
  same := fun within sound => by
    rw [Occupies, Track.entries, sound.timedNotes, sound.openNotes]
    exact within
  emit := fun within tick message _ => emit_occupies within tick message none

theorem occupies_sounding (within : player.Occupies places) (own : ∀ index ∈ entry, index ∈ places)
    (key velocity : UInt8) : (player.sounding key velocity entry).Occupies places := by
  have begun := emit_occupies within player.track.time
    (.noteOn (player.track.soundingKey key).1 velocity) (player.track.soundingKey key).2
  obtain ⟨timed, opened⟩ := List.append_subset.mp begun
  apply List.append_subset.mpr
  constructor
  · exact timed
  · change (_ ++ [_]).filterMap OpenNote.entry ⊆ places
    rw [List.filterMap_push]
    exact List.append_subset.mpr ⟨opened, fun index member => own index (Option.mem_toList.mp member)⟩

theorem occupies_soundingFor (within : player.Occupies places)
    (own : ∀ index ∈ entry, index ∈ places) (key velocity : UInt8) (duration : Nat) :
    (player.soundingFor key velocity duration entry).Occupies places := by
  unfold Player.soundingFor
  dsimp only
  have first := emit_occupies within player.track.time
    (.noteOn (player.track.soundingKey key).1 velocity) (player.track.soundingKey key).2
  generalize player.emit player.track.time _ _ = begun at first ⊢
  have second := emit_occupies first (Tick.later player.track.time duration)
    (.noteOff (player.track.soundingKey key).1) (player.track.soundingKey key).2
  generalize begun.emit _ _ _ = ended at second ⊢
  obtain ⟨timed, opened⟩ := List.append_subset.mp second
  have kept : ((TimedNote.beforeNote player.track.time ended.track.timedNotes).filterMap
      TimedNote.entry).Sublist (ended.track.timedNotes.filterMap TimedNote.entry) :=
    TimedNote.filterMap_beforeNote _ _ fun _ => rfl
  apply List.append_subset.mpr
  constructor
  · change (_ ++ [_]).filterMap TimedNote.entry ⊆ places
    rw [List.filterMap_push]
    exact List.append_subset.mpr ⟨List.Subset.trans kept.subset timed,
      fun index member => own index (Option.mem_toList.mp member)⟩
  · exact opened

theorem Tidy.perform_occupies (tidy : player.Tidy) (within : player.Occupies places)
    (own : ∀ index ∈ entry, index ∈ places) (kind : EventKind) :
    (player.perform kind entry).Ensures fun (_, next) => next.Occupies places := by
  have goes {x : Except Fault Player} (ensures : x.Ensures (Occupies places)) :
      (x >>= goOn).Ensures fun (_, next) => next.Occupies places :=
    ensures.bind fun _ within => Except.ensures_ok within
  cases kind with
  | noteOn key velocity =>
    refine goes (x := player.startNote key velocity entry) ?_
    rw [startNote_eq]
    intro next done
    obtain ⟨cut, ended, rfl⟩ := Except.map_eq_ok.mp done
    have clears := (tidy.cutKey key).ensures cut ended
    exact occupies_sounding (clears.occupies within) own key velocity
  | noteOff key => exact goes fun next done => ((tidy.endNote key).ensures next done).occupies within
  | note key velocity duration =>
    refine goes (x := player.startTimedNote key velocity duration entry) ?_
    rw [startTimedNote_eq]
    intro next done
    obtain ⟨cut, ended, rfl⟩ := Except.map_eq_ok.mp done
    have clears := (tidy.cutKey key).ensures cut ended
    exact occupies_soundingFor (clears.occupies within) own key velocity duration
  | rest ticks => exact Except.ensures_ok within
  | hold ticks =>
    refine Except.Ensures.bind (tidy.extendNotes _).ensures fun held clears => ?_
    have kept : held.Occupies places := clears.occupies within
    exact Except.ensures_ok kept
  | _ =>
    rintro ⟨more, next⟩ done
    exact (aboutSound_occupies places).messages.perform within rfl (EventKind.writesOnly_any _)
      (EventKind.conductsOnly_any _) done

/-- Whatever a player is ordered to do, it takes up no entry that was there before. -/
theorem Tidy.apply_occupies (tidy : player.Tidy) (operation : Operation) :
    (player.apply operation).Ensures fun (_, next) =>
      next.Occupies (player.shared.timeline.size :: player.track.entries) := by
  have still : player.Occupies (player.shared.timeline.size :: player.track.entries) :=
    List.subset_cons_self ..
  have goes {x : Except Fault Player} (yields : x.Yields player.Clears) :
      (x >>= goOn).Ensures fun (_, next) =>
        next.Occupies (player.shared.timeline.size :: player.track.entries) :=
    yields.ensures.bind fun _ clears => Except.ensures_ok (clears.occupies still)
  cases operation with
  | moveTo offset | useChannel channel => exact Except.ensures_ok still
  | record span kind =>
    have entered : (player.record span kind).2.Occupies
        (player.shared.timeline.size :: player.track.entries) := still
    refine (tidy.record span kind).1.tidy.perform_occupies entered ?_ kind
    rintro index ⟨⟩
    exact List.mem_cons_self
  | play kind => exact tidy.perform_occupies still (fun _ none => by cases none) kind
  | extendNotes tick => exact goes (tidy.extendNotes tick)
  | limitNotes tick => exact goes (tidy.limitNotes tick)

theorem Tidy.finish_occupies (tidy : player.Tidy) (within : player.Occupies places) :
    player.finish.Ensures (Occupies places) := by
  have silent := tidy.endOpen (fun _ member => member) (List.nil_sublist _) (fun _ => false)
    player.track.time
  refine Except.Ensures.bind silent.ensures fun closed ⟨clears, _⟩ => ?_
  have ended := emit_occupies (clears.occupies within) player.track.time .endOfTrack none
  exact Except.ensures_ok ended

end Player
end Sequencer
