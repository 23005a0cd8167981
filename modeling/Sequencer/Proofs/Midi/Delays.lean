import Mathlib.Data.List.Forall2
import Mathlib.Data.List.Pairwise
import Mathlib.Data.Nat.ModEq
import Sequencer.Proofs.Midi.File
import Sequencer.Proofs.Stable

/-! The time of a file's events. A player adds up the delays. They are the gaps between the messages
of a track, less the bits above the lowest 28, so that all events are on time up to the first gap
that has more bits, and none is after it. -/
namespace Sequencer

/-- How far each tick is from the one before it. -/
def gaps (tick : Nat) : List Nat → List Nat
  | [] => []
  | next :: rest => (next - tick) :: gaps next rest

/-- The ticks at which a player comes to events with these delays. -/
def onsets (tick : Nat) : List Nat → List Nat
  | [] => []
  | delay :: rest => (tick + delay) :: onsets (tick + delay) rest

theorem length_gaps (tick : Nat) (ticks : List Nat) : (gaps tick ticks).length = ticks.length := by
  induction ticks generalizing tick with
  | nil => rfl
  | cons next rest ih => exact congrArg (· + 1) (ih next)

theorem onsets_gaps {tick : Nat} {ticks : List Nat} (ascending : (tick :: ticks).Pairwise (· ≤ ·)) :
    onsets tick (gaps tick ticks) = ticks := by
  induction ticks generalizing tick with
  | nil => rfl
  | cons next rest ih =>
    obtain ⟨least, ascending⟩ := List.pairwise_cons.mp ascending
    have reached : tick + (next - tick) = next := Nat.add_sub_cancel' (least next List.mem_cons_self)
    rw [gaps, onsets, reached, ih ascending]

section Masked

variable {bound : Nat}

theorem onsets_masked_modEq {early late : Nat} (same : early ≡ late [MOD bound])
    (delays : List Nat) :
    List.Forall₂ (· ≡ · [MOD bound]) (onsets early (delays.map (· % bound)))
      (onsets late delays) := by
  induction delays generalizing early late with
  | nil => exact .nil
  | cons delay rest ih =>
    have next : early + delay % bound ≡ late + delay [MOD bound] :=
      same.add (Nat.mod_modEq delay bound)
    exact .cons next (ih next)

/-- A player that is late, or has left out some bits of a delay, does not make up for it. -/
theorem onsets_masked_eq_iff {early late : Nat} (behind : early ≤ late) (positive : 0 < bound)
    {delays : List Nat} {index : Nat} (inside : index < delays.length) :
    (onsets early (delays.map (· % bound)))[index]? = (onsets late delays)[index]? ↔
      early = late ∧ ∀ delay ∈ delays.take (index + 1), delay < bound := by
  induction delays generalizing early late index with
  | nil => exact absurd inside (Nat.not_lt_zero _)
  | cons delay rest ih =>
    have less : delay % bound ≤ delay := Nat.mod_le delay bound
    have first : early + delay % bound = late + delay ↔ early = late ∧ delay < bound := by
      constructor
      · intro same
        have whole : delay % bound = delay := by omega
        exact ⟨by omega, whole ▸ Nat.mod_lt delay positive⟩
      · rintro ⟨same, short⟩
        rw [same, Nat.mod_eq_of_lt short]
    cases index with
    | zero => simp [onsets, first]
    | succ index =>
      have next : early + delay % bound ≤ late + delay := by omega
      simp only [List.map_cons, onsets, List.getElem?_cons_succ,
        ih next (Nat.lt_of_succ_lt_succ inside), first, List.take_succ_cons, List.forall_mem_cons,
        and_assoc]

end Masked

namespace MidiTrack

variable {midi : MidiTrack}

def ticks (midi : MidiTrack) : List Nat := midi.events.toList.map MidiEvent.tick

theorem delays_push (events : List MidiEvent) (delays : Delays)
    (all : delays.payload = .ofEvents events)
    (ascending : (delays.tick :: events.map MidiEvent.tick).Pairwise (· ≤ ·)) :
    (events.foldl Delays.push delays).events.toList.map DelayedEvent.delay =
      delays.events.toList.map DelayedEvent.delay ++
        (gaps delays.tick (events.map MidiEvent.tick)).map (· % delayBound) := by
  induction events generalizing delays with
  | nil => simp [gaps]
  | cons event rest ih =>
    obtain ⟨least, ascending⟩ := List.pairwise_cons.mp ascending
    have later : max delays.tick event.tick = event.tick :=
      Nat.max_eq_right (least event.tick List.mem_cons_self)
    rw [List.foldl_cons, push_ofEvents all, later,
      ih ⟨_, event.tick, .ofEvents rest⟩ rfl ascending]
    simp [gaps]

/-- A track that has its end, and is in order, is written with its gaps as delays. -/
theorem fileEvents_body (name : String) (ends : ∃ event ∈ midi.events.toList, isEnd event = true)
    (ascending : midi.ticks.Pairwise (· ≤ ·)) : ∃ body : List DelayedEvent,
    (midi.fileEvents name).toList = ⟨0, .trackName name⟩ :: body ∧
      body.map DelayedEvent.event = midi.events.toList.map MidiEvent.written ∧
      body.map DelayedEvent.delay = (gaps 0 midi.ticks).map (· % delayBound) := by
  have ended : midi.events.any isEnd = true := by
    rw [← Array.any_toList]
    exact List.any_eq_true.mpr ends
  have ascending : (0 :: midi.ticks).Pairwise (· ≤ ·) :=
    List.pairwise_cons.mpr ⟨fun tick _ => Nat.zero_le tick, ascending⟩
  have delays : (midi.fileEvents name).toList.map DelayedEvent.delay =
      0 :: (gaps 0 midi.ticks).map (· % delayBound) := by
    rw [fileEvents, ended, if_pos rfl, ← Array.foldl_toList, delays_push _ _ rfl ascending]
    rfl
  have events := fileEvents_eq name ends
  cases file : (midi.fileEvents name).toList with
  | nil =>
    rw [file] at events
    cases events
  | cons first body =>
    obtain ⟨delay, event⟩ := first
    rw [file, List.map_cons, List.cons_eq_cons] at events delays
    obtain ⟨rfl, events⟩ := events
    obtain ⟨rfl, delays⟩ := delays
    exact ⟨body, rfl, events, delays⟩

/-- A finished track has its messages in order, and its only end behind them. -/
theorem finalize_split (midi : MidiTrack) : ∃ (kept : List MidiEvent) (last : MidiEvent),
    midi.finalize.events.toList = kept ++ [last] ∧ last.message = .endOfTrack ∧
      (∀ event ∈ kept, event.message ≠ .endOfTrack ∧ event.tick ≤ last.tick) ∧
      kept.Pairwise fun a b => a.tick ≤ b.tick := by
  have sorted := List.ascending_mergeSort MidiEvent.tick
    (midi.events.toList.filter fun event => !isEnd event)
  have reflexive : Std.Refl fun a b : MidiEvent => a.tick ≤ b.tick := ⟨fun _ => Nat.le_refl _⟩
  refine ⟨_, _, rfl, rfl, fun event member => ⟨?_, ?_⟩, sorted⟩
  · simpa [isEnd] using (List.mem_filter.mp (List.mem_mergeSort.mp member)).2
  · have latest := sorted.rel_getLast member
    rw [List.getLast?_eq_some_getLast (List.ne_nil_of_mem member)]
    exact Nat.le_trans latest (Nat.le_max_right _ _)

theorem finalize_ascending (midi : MidiTrack) : midi.finalize.ticks.Pairwise (· ≤ ·) := by
  obtain ⟨kept, last, split, _, before, sorted⟩ := midi.finalize_split
  rw [ticks, split, List.pairwise_map, List.pairwise_append]
  refine ⟨sorted, List.pairwise_singleton _ _, fun event member other only => ?_⟩
  rw [List.mem_singleton.mp only]
  exact (before event member).2

theorem written_eq_endOfTrack_iff (event : MidiEvent) :
    event.written = .endOfTrack ↔ event.message = .endOfTrack := by
  obtain ⟨tick, channel, message, transposeTick⟩ := event
  cases message <;> simp [MidiEvent.written, FileEvent.ofMessage, FileEvent.toChannel,
    FileEvent.endOfTrack, FileEvent.masterVolume]

/-- A file has each message of a finished track, in order and with its own data, behind the name of
the track and with the end last. The time of an event is its tick, up to multiples of the largest
delay, and is exactly its tick if no gap before it is as long as that. -/
theorem fileEvents_finalize (midi : MidiTrack) (name : String) : ∃ body : List DelayedEvent,
    (midi.finalize.fileEvents name).toList = ⟨0, .trackName name⟩ :: body ∧
    body.map DelayedEvent.event = midi.finalize.events.toList.map MidiEvent.written ∧
    (∃ before, body.map DelayedEvent.event = before ++ [.endOfTrack] ∧ .endOfTrack ∉ before) ∧
    List.Forall₂ (· ≡ · [MOD delayBound]) (onsets 0 (body.map DelayedEvent.delay))
      midi.finalize.ticks ∧
    ∀ index < midi.finalize.ticks.length,
      (onsets 0 (body.map DelayedEvent.delay))[index]? = midi.finalize.ticks[index]? ↔
        ∀ gap ∈ (gaps 0 midi.finalize.ticks).take (index + 1), gap < delayBound := by
  obtain ⟨body, file, events, delays⟩ :=
    fileEvents_body name midi.exists_isEnd_finalize midi.finalize_ascending
  have whole := onsets_gaps (List.pairwise_cons.mpr
    ⟨fun tick _ => Nat.zero_le tick, midi.finalize_ascending⟩)
  refine ⟨body, file, events, ?_, ?_, fun index inside => ?_⟩
  · obtain ⟨kept, last, split, isLast, before, _⟩ := midi.finalize_split
    refine ⟨kept.map MidiEvent.written, ?_, fun member => ?_⟩
    · rw [events, split, List.map_append, List.map_singleton,
        (written_eq_endOfTrack_iff last).mpr isLast]
    · obtain ⟨event, member, written⟩ := List.mem_map.mp member
      exact (before event member).1 ((written_eq_endOfTrack_iff event).mp written)
  · have congruent := onsets_masked_modEq (Nat.ModEq.refl (n := delayBound) 0)
      (gaps 0 midi.finalize.ticks)
    rwa [← delays, whole] at congruent
  · rw [← length_gaps 0] at inside
    have onTime := onsets_masked_eq_iff (Nat.le_refl 0) (show 0 < delayBound by decide) inside
    rwa [← delays, whole, eq_self_iff_true, true_and] at onTime

/-- A note that is longer than all delays that a file has room for. -/
def longNote : MidiTrack :=
  ⟨#[⟨0, 0, .noteOn 60 100, none⟩, ⟨delayBound, 0, .noteOff 60, none⟩]⟩

theorem ticks_longNote : longNote.finalize.ticks = [0, delayBound, delayBound] := by
  simp [longNote, finalize, ticks, isEnd, List.mergeSort, List.MergeSort.Internal.splitInTwo]

/-- Its start is on time, and its end is not. -/
theorem fileEvents_longNote : ∃ body : List DelayedEvent,
    (longNote.finalize.fileEvents "").toList = ⟨0, .trackName ""⟩ :: body ∧
    (onsets 0 (body.map DelayedEvent.delay))[0]? = longNote.finalize.ticks[0]? ∧
    (onsets 0 (body.map DelayedEvent.delay))[1]? ≠ longNote.finalize.ticks[1]? := by
  obtain ⟨body, file, _, _, _, onTime⟩ := fileEvents_finalize longNote ""
  rw [ticks_longNote] at onTime ⊢
  refine ⟨body, file, (onTime 0 (by decide)).mpr (by decide), fun same => ?_⟩
  exact absurd ((onTime 1 (by decide)).mp same) (by decide)

/-- A player ends the note as soon as it starts. -/
theorem onsets_longNote :
    onsets 0 ((longNote.finalize.fileEvents "").toList.map DelayedEvent.delay) = [0, 0, 0, 0] ∧
      longNote.finalize.ticks = [0, delayBound, delayBound] := by
  obtain ⟨body, file, _, delays⟩ :=
    fileEvents_body "" longNote.exists_isEnd_finalize longNote.finalize_ascending
  refine ⟨?_, ticks_longNote⟩
  rw [file, List.map_cons, delays, ticks_longNote]
  decide

end MidiTrack
end Sequencer
