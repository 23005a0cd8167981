import Sequencer.Proofs.Lists
import Sequencer.Proofs.Midi.Delays
import Sequencer.Proofs.Score.Couples

/-! Finishing a track. It is a stable sort of the messages and one end behind them, where the first
end that was written stands or later. It can be done twice, and it does not matter whether keys are
transposed before or after it, as a transpose leaves ticks and ends as they are. -/
namespace Sequencer

namespace MidiTrack

variable {track : MidiTrack}

/-- The messages of a track in order of their ticks, without its ends. -/
def inOrder (track : MidiTrack) : List MidiEvent :=
  (track.events.toList.filter fun event => !isEnd event).mergeSort fun a b => a.tick ≤ b.tick

/-- The end of a finished track. -/
def finalEnd (track : MidiTrack) : MidiEvent :=
  let written := track.events.toList.find? isEnd
  let lastTick := track.inOrder.getLast?.elim 0 MidiEvent.tick
  ⟨max (written.elim lastTick MidiEvent.tick) lastTick, written.elim 0 MidiEvent.channel,
    .endOfTrack, none⟩

theorem finalize_eq (track : MidiTrack) :
    track.finalize = ⟨(track.inOrder ++ [track.finalEnd]).toArray⟩ := by
  unfold finalize finalEnd inOrder
  cases track.events.toList.find? isEnd <;> rfl

theorem isEnd_of_mem_inOrder {event : MidiEvent} (member : event ∈ track.inOrder) :
    isEnd event = false := by
  simpa using (List.mem_filter.mp (List.mem_mergeSort.mp member)).2

theorem inOrder_ascending (track : MidiTrack) :
    track.inOrder.Pairwise fun a b => a.tick ≤ b.tick :=
  List.ascending_mergeSort MidiEvent.tick _

theorem lastTick_le {event : MidiEvent} (member : event ∈ track.inOrder) :
    event.tick ≤ track.inOrder.getLast?.elim 0 MidiEvent.tick := by
  have reflexive : Std.Refl fun a b : MidiEvent => a.tick ≤ b.tick := ⟨fun _ => Nat.le_refl _⟩
  rw [List.getLast?_eq_some_getLast (List.ne_nil_of_mem member)]
  exact track.inOrder_ascending.rel_getLast member

theorem lastTick_reached (track : MidiTrack) :
    track.inOrder.getLast?.elim 0 MidiEvent.tick ∈ track.inOrder.map MidiEvent.tick ∨
      track.inOrder.getLast?.elim 0 MidiEvent.tick = 0 := by
  cases known : track.inOrder.getLast? with
  | none => exact .inr rfl
  | some event => exact .inl (List.mem_map_of_mem (List.mem_of_getLast? known))

/-- It is the latest of the first end and of all messages that are no end. -/
theorem tick_finalEnd (track : MidiTrack) :
    track.finalEnd.tick = (((track.events.toList.find? isEnd).toList ++
      track.events.toList.filter fun event => !isEnd event).map MidiEvent.tick).max?.getD 0 := by
  have same {tick : Nat} : tick ∈ track.inOrder.map MidiEvent.tick ↔
      tick ∈ (track.events.toList.filter fun event => !isEnd event).map MidiEvent.tick :=
    ((List.mergeSort_perm _ _).map MidiEvent.tick).mem_iff
  have upper {tick : Nat} (member : tick ∈ track.inOrder.map MidiEvent.tick) :
      tick ≤ track.inOrder.getLast?.elim 0 MidiEvent.tick := by
    obtain ⟨event, there, rfl⟩ := List.mem_map.mp member
    exact lastTick_le there
  have reached := track.lastTick_reached
  unfold finalEnd
  cases track.events.toList.find? isEnd with
  | none =>
    simp only [Option.elim_none, Nat.max_self, Option.toList_none, List.nil_append]
    refine (List.getD_max? (fun tick member => upper (same.mpr member)) ?_).symm
    exact reached.imp_left same.mp
  | some first =>
    simp only [Option.elim_some, Option.toList_some, List.cons_append, List.nil_append,
      List.map_cons]
    refine (List.getD_max? ?_ ?_).symm
    · rw [List.forall_mem_cons]
      refine ⟨Nat.le_max_left _ _, fun tick member => ?_⟩
      exact Nat.le_trans (upper (same.mpr member)) (Nat.le_max_right _ _)
    · rcases Nat.le_total first.tick (track.inOrder.getLast?.elim 0 MidiEvent.tick) with le | ge
      · rw [Nat.max_eq_right le]
        exact reached.imp_left fun there => List.mem_cons_of_mem _ (same.mp there)
      · rw [Nat.max_eq_left ge]
        exact .inl List.mem_cons_self

theorem find?_finalize (track : MidiTrack) :
    track.finalize.events.toList.find? isEnd = some track.finalEnd := by
  have none : track.inOrder.find? isEnd = none :=
    List.find?_eq_none.mpr fun event member => by simp [isEnd_of_mem_inOrder member]
  rw [finalize_eq, List.toList_toArray, List.find?_append, none]
  rfl

theorem inOrder_finalize (track : MidiTrack) : track.finalize.inOrder = track.inOrder := by
  have all : (track.inOrder.filter fun event => !isEnd event) = track.inOrder :=
    List.filter_eq_self.mpr fun event member => by simp [isEnd_of_mem_inOrder member]
  have only : ([track.finalEnd].filter fun event => !isEnd event) = [] := rfl
  rw [inOrder, finalize_eq, List.toList_toArray, List.filter_append, all, only, List.append_nil]
  exact List.mergeSort_of_pairwise (track.inOrder_ascending.imp decide_eq_true)

theorem finalEnd_finalize (track : MidiTrack) : track.finalize.finalEnd = track.finalEnd := by
  rw [finalEnd, find?_finalize, inOrder_finalize]
  simp [finalEnd]

variable (transposeAt : Nat → Int)

theorem isEnd_transpose (event : MidiEvent) :
    isEnd (event.transpose transposeAt) = isEnd event := by
  rcases event.transpose_eq transposeAt with same | ⟨_, _, same⟩
  · rw [same]
  · rw [same, isEnd, isEnd]
    cases event.message <;> simp [MidiMessage.shift]

theorem find?_transpose (track : MidiTrack) :
    (track.transpose transposeAt).events.toList.find? isEnd =
      (track.events.toList.find? isEnd).map (MidiEvent.transpose transposeAt) := by
  rw [transpose, Array.toList_map, List.find?_map]
  refine congrArg (Option.map _) (congrArg (List.find? · _) (funext fun event => ?_))
  exact isEnd_transpose transposeAt event

theorem inOrder_transpose (track : MidiTrack) :
    (track.transpose transposeAt).inOrder =
      track.inOrder.map (MidiEvent.transpose transposeAt) := by
  have kept : ((track.transpose transposeAt).events.toList.filter fun event => !isEnd event) =
      (track.events.toList.filter fun event => !isEnd event).map
        (MidiEvent.transpose transposeAt) := by
    rw [transpose, Array.toList_map, List.filter_map]
    refine congrArg (List.map _) (List.filter_congr fun event _ => ?_)
    rw [Function.comp_apply, isEnd_transpose]
  rw [inOrder, kept]
  refine (List.map_mergeSort fun a _ b _ => ?_).symm
  rw [MidiEvent.tick_transpose, MidiEvent.tick_transpose]

theorem finalEnd_transpose (track : MidiTrack) :
    (track.transpose transposeAt).finalEnd = track.finalEnd := by
  have ticks : MidiEvent.tick ∘ MidiEvent.transpose transposeAt = MidiEvent.tick :=
    funext fun event => event.tick_transpose transposeAt
  have channels : MidiEvent.channel ∘ MidiEvent.transpose transposeAt = MidiEvent.channel :=
    funext fun event => event.channel_transpose transposeAt
  simp only [finalEnd, find?_transpose, inOrder_transpose, List.getLast?_map, Option.elim_map,
    ticks, channels]

theorem finalize_idem (track : MidiTrack) : track.finalize.finalize = track.finalize := by
  rw [finalize_eq track.finalize, inOrder_finalize, finalEnd_finalize, ← finalize_eq]

theorem finalize_transpose (track : MidiTrack) :
    (track.transpose transposeAt).finalize = track.finalize.transpose transposeAt := by
  have still : track.finalEnd.transpose transposeAt = track.finalEnd := rfl
  rw [finalize_eq, inOrder_transpose, finalEnd_transpose, finalize_eq, transpose,
    List.map_toArray, List.map_append, List.map_singleton, still]

/-- What finishing does to any track: its messages other than ends, sorted by tick and in their
order where they have one tick, and one end behind them, as late as the first end and all messages.
It can be done twice, and before or after a transpose. -/
theorem finalize_sorts (track : MidiTrack) :
    (∃ kept last, track.finalize.events.toList = kept ++ [last] ∧
      kept.Perm (track.events.toList.filter fun event => event.message ≠ .endOfTrack) ∧
      kept.Pairwise (fun a b => a.tick ≤ b.tick) ∧
      (∀ tick, (kept.filter fun event => event.tick = tick) =
        (track.events.toList.filter fun event => event.message ≠ .endOfTrack).filter
          fun event => event.tick = tick) ∧
      last.message = .endOfTrack ∧
      last.tick = (((track.events.toList.find? fun event => event.message = .endOfTrack).toList ++
        track.events.toList.filter fun event => event.message ≠ .endOfTrack).map
          MidiEvent.tick).max?.getD 0) ∧
    track.finalize.finalize = track.finalize ∧
    ∀ transposeAt : Nat → Int,
      (track.transpose transposeAt).finalize = track.finalize.transpose transposeAt := by
  have others : (track.events.toList.filter fun event => event.message ≠ .endOfTrack) =
      track.events.toList.filter fun event => !isEnd event :=
    List.filter_congr fun event _ => by simp [isEnd]
  refine ⟨⟨track.inOrder, track.finalEnd, ?_, ?_, track.inOrder_ascending, ?_, rfl, ?_⟩,
    track.finalize_idem, fun transposeAt => track.finalize_transpose transposeAt⟩
  · rw [finalize_eq, List.toList_toArray]
  · rw [others]
    exact List.mergeSort_perm _ _
  · intro tick
    rw [others]
    exact List.filter_mergeSort_key MidiEvent.tick _ tick
  · rw [others]
    exact track.tick_finalEnd

end MidiTrack
end Sequencer
