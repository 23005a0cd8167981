import Mathlib.Data.Set.Finite.List
import Sequencer.Proofs.RefSeq.Extent

/-! The junctions that a file has. Calls and loops nest to a limited depth and lead to places within
reach, so that there are finitely many; and between two transfers a track reads on through the
file, which is finite as well. -/
namespace Sequencer

open RefSeq (longest)

/-- A junction within reach: the track can get there, and its calls and loops can be open. -/
structure Junction.Within (limit depth : Nat) (junction : Junction) : Prop where
  destination : junction.destination ≤ limit
  calls : junction.calls.length ≤ depth ∧
    ∀ returnTo ∈ junction.calls, returnTo ∈ {place | place ≤ limit}
  loops : junction.loops.length ≤ depth ∧
    ∀ frame ∈ junction.loops,
      frame ∈ Set.image2 Frame.mk {place | place ≤ limit} {rounds | rounds ≤ limit}

theorem lists_finite {α : Type} {known : Set α} (finite : known.Finite) (depth : Nat) :
    {list : List α | list.length ≤ depth ∧ ∀ item ∈ list, item ∈ known}.Finite := by
  have := finite.to_subtype
  refine ((List.finite_length_le known depth).image (List.map Subtype.val)).subset ?_
  rintro list ⟨short, all⟩
  exact ⟨list.attachWith (· ∈ known) all, by simpa using short, by simp⟩

namespace Junction

variable {limit depth : Nat} {junction : Junction}

theorem within_finite (limit depth : Nat) :
    {junction : Junction | junction.Within limit depth}.Finite := by
  have offsets : {place | place ≤ limit}.Finite := Set.finite_le_nat limit
  have calls := lists_finite offsets depth
  have loops := lists_finite (offsets.image2 Frame.mk offsets) depth
  refine ((offsets.prod (calls.prod loops)).image
    fun (destination, calls, loops) => ⟨destination, calls, loops⟩).subset ?_
  rintro ⟨destination, calls, loops⟩ within
  exact ⟨(destination, calls, loops), ⟨within.destination, within.calls, within.loops⟩, rfl⟩

theorem Within.move (within : junction.Within limit depth) {destination : Nat}
    (inside : destination ≤ limit) : (⟨destination, junction.calls, junction.loops⟩ :
      Junction).Within limit depth :=
  ⟨inside, within.calls, within.loops⟩

end Junction

/-- A departure to a junction within reach; onward means further on than `offset`. -/
def Departure.Within (limit depth offset : Nat) : Departure → Prop
  | .stop => True
  | .onward next => next.junction.Within limit depth ∧ offset < next.junction.destination
  | .transfer next => next.junction.Within limit depth

variable {limit depth offset : Nat}

theorem Cursor.turn_within {cursor : Cursor} {kind : EventKind}
    (within : (cursor.junction cursor.offset).Within limit depth) (far : longest ≤ limit)
    (before : offset < cursor.offset) (leads : (RefSeq.Instruction.event kind).Leads cursor.offset)
    (tick : Nat) : (Departure.ofTurn tick (cursor.turn depth kind)).Within limit depth offset := by
  have onward : (Departure.ofTurn tick (.onward cursor)).Within limit depth offset :=
    ⟨within, before⟩
  obtain ⟨inside, calls, loops⟩ := within
  cases kind with
  | jump destination | loopForever destination =>
    exact ⟨Nat.le_trans leads far, calls, loops⟩
  | call destination returnTo =>
    obtain ⟨bound, rfl⟩ := leads
    simp only [turn]
    split
    · trivial
    · rename_i shallow
      refine ⟨Nat.le_trans bound far, ⟨Nat.lt_of_not_le shallow, ?_⟩, loops⟩
      exact List.forall_mem_cons.mpr ⟨inside, calls.2⟩
  | ret =>
    simp only [turn]
    split
    · trivial
    · rename_i returnTo outer open_
      rw [Cursor.junction, open_] at calls
      obtain ⟨bound, rest⟩ := List.forall_mem_cons.mp calls.2
      exact ⟨bound, ⟨Nat.le_of_succ_le calls.1, rest⟩, loops⟩
  | loopStart count =>
    simp only [turn]
    split
    · trivial
    · rename_i shallow
      refine ⟨⟨inside, calls, Nat.lt_of_not_le shallow, ?_⟩, before⟩
      refine List.forall_mem_cons.mpr ⟨⟨_, inside, count, ?_, rfl⟩, loops.2⟩
      exact Nat.le_trans leads (Nat.le_trans (by decide) far)
  | loopEnd =>
    obtain ⟨offset, delay, open_, frames⟩ := cursor
    obtain ⟨shallow, all⟩ := loops
    cases frames with
    | nil => exact onward
    | cons frame outer =>
      obtain ⟨⟨start, bound, rounds, few, rfl⟩, rest⟩ := List.forall_mem_cons.mp all
      have fewer : outer.length ≤ depth := Nat.le_of_succ_le shallow
      match rounds, few with
      | 0, _ => exact ⟨bound, calls, shallow, all⟩
      | 1, _ => exact ⟨⟨inside, calls, fewer, rest⟩, before⟩
      | remaining + 2, few =>
        refine ⟨bound, calls, shallow, List.forall_mem_cons.mpr ⟨⟨start, bound, remaining + 1, ?_,
          rfl⟩, rest⟩⟩
        exact Nat.le_of_succ_le few
  | trackEnd => trivial
  | _ => exact onward

namespace Position

variable {source : Source} {start position : Position} {count : Nat}

theorem depart_within (within : position.junction.Within limit depth)
    (file : source.size ≤ limit) (far : longest ≤ limit) :
    (position.depart source depth).Within limit depth position.junction.destination := by
  unfold depart
  split
  · trivial
  · trivial
  · rename_i kind stop read
    obtain ⟨before, inside, leads⟩ := RefSeq.instruction_extent read
    exact Cursor.turn_within (within.move (Nat.le_trans inside file)) far before leads _
  · rename_i stop read
    obtain ⟨before, inside, _⟩ := RefSeq.instruction_extent read
    exact ⟨within.move (Nat.le_trans inside file), before⟩
  · rename_i stop read
    obtain ⟨before, inside, _⟩ := RefSeq.instruction_extent read
    exact ⟨within.move (Nat.le_trans inside file), before⟩

theorem after_within (within : start.junction.Within limit depth) (file : source.size ≤ limit)
    (far : longest ≤ limit) (reached : start.after source depth count = some position) :
    position.junction.Within limit depth := by
  induction count generalizing position with
  | zero =>
    cases reached
    exact within
  | succ count ih =>
    obtain ⟨before, found, goes⟩ := Option.bind_eq_some_iff.mp reached
    have departs := depart_within (ih found) file far
    unfold next? at goes
    cases leaves : before.depart source depth with
    | stop =>
      rw [leaves] at goes
      cases goes
    | onward next =>
      rw [leaves] at goes departs
      cases goes
      exact departs.1
    | transfer next =>
      rw [leaves] at goes departs
      cases goes
      exact departs

end Position
end Sequencer
