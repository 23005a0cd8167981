import Std.Data.TreeMap

/-! The set of indices that sound. It is kept as an array in no particular order, so that
adding and removing an index moves at most one other, with a table of the place of each
index in the array. -/
namespace Sequencer

theorem Active.nothing_linked (index place : Nat) : ({} : Std.TreeMap Nat Nat)[index]? = some place ↔
    (#[] : Array Nat)[place]? = some index := by
  simp

structure Active where
  members : Array Nat := #[]
  places : Std.TreeMap Nat Nat := {}
  /-- The table gives the place of each member, and of nothing else. -/
  linked : ∀ index place : Nat,
    places[index]? = some place ↔ members[place]? = some index := by exact Active.nothing_linked

namespace Active

def contains (active : Active) (index : Nat) : Bool := active.places.contains index

/-- The members in ascending order. -/
def sorted (active : Active) : List Nat := active.members.toList.mergeSort

theorem place_lt (active : Active) {index place : Nat}
    (found : active.places[index]? = some place) : place < active.members.size := by
  have member := (active.linked index place).mp found
  exact (Array.getElem?_eq_some_iff.mp member).1

theorem place_unique (active : Active) {index first second : Nat}
    (here : active.members[first]? = some index)
    (there : active.members[second]? = some index) : first = second := by
  rw [← active.linked] at here there
  exact Option.some.inj (here.symm.trans there)

/-- Adds an index at the end of the array, unless it is there. -/
def insert (active : Active) (index : Nat) : Active :=
  match absent : active.places[index]? with
  | some _ => active
  | none =>
    { members := active.members.push index
      places := active.places.insert index active.members.size
      linked := by
        intro other place
        have linked := active.linked other place
        rw [Std.TreeMap.getElem?_insert, Array.getElem?_push]
        grind [Active.place_lt] }

/-- The last element takes the place of the one that goes. -/
def swapRemove (members : Array Nat) (place : Nat) (inside : place < members.size) :
    Array Nat :=
  (members.swap place (members.size - 1)).pop

theorem getElem?_swapRemove (members : Array Nat) (place : Nat) (inside : place < members.size)
    (other : Nat) : (swapRemove members place inside)[other]? =
      if members.size - 1 ≤ other then none
      else if other = place then members[members.size - 1]? else members[other]? := by
  have last : members[members.size - 1]? = some members[members.size - 1] :=
    Array.getElem?_eq_getElem (by omega)
  rw [swapRemove, Array.getElem?_pop, Array.size_swap, Array.getElem?_swap]
  by_cases past : members.size - 1 ≤ other
  · simp [past, Nat.not_lt_of_le past]
  · have before : other < members.size - 1 := by omega
    have apart : members.size - 1 ≠ other := by omega
    rw [if_pos before, if_neg past, if_neg apart]
    by_cases here : other = place
    · simp [here, last]
    · simp [here, Ne.symm here]

/-- Which index stands where after one has gone. -/
theorem getElem?_swapRemove_iff (active : Active) {index place : Nat}
    (found : active.places[index]? = some place) (other spot : Nat) :
    (swapRemove active.members place (active.place_lt found))[spot]? = some other ↔
      index ≠ other ∧ if active.members[active.members.size - 1]? = some other then place = spot
        else active.members[spot]? = some other := by
  have member := (active.linked index place).mp found
  have inside := active.place_lt found
  rw [getElem?_swapRemove]
  constructor
  · intro there
    by_cases past : active.members.size - 1 ≤ spot
    · simp [past] at there
    rw [if_neg past] at there
    by_cases here : spot = place
    · rw [if_pos here] at there
      refine ⟨?_, by rw [if_pos there, here]⟩
      rintro rfl
      have := active.place_unique member there
      omega
    · rw [if_neg here] at there
      refine ⟨?_, ?_⟩
      · rintro rfl
        exact here (active.place_unique there member)
      · rw [if_neg, there]
        intro final
        have := active.place_unique there final
        omega
  · rintro ⟨different, there⟩
    split at there
    · rename_i final
      subst there
      have apart : ¬ active.members.size - 1 ≤ place := by
        intro past
        have last : active.members.size - 1 = place := by omega
        rw [last, member] at final
        exact different (Option.some.inj final)
      rw [if_neg apart, if_pos rfl, final]
    · rename_i final
      have within := (Array.getElem?_eq_some_iff.mp there).1
      have before : ¬ active.members.size - 1 ≤ spot := by
        intro past
        have last : active.members.size - 1 = spot := by omega
        exact final (last ▸ there)
      have apart : spot ≠ place := by
        rintro rfl
        exact different (Option.some.inj (member.symm.trans there))
      rw [if_neg before, if_neg apart, there]

/-- Takes an index out. The last member moves to its place. -/
def erase (active : Active) (index : Nat) : Active :=
  match found : active.places[index]? with
  | none => active
  | some place =>
    let members := swapRemove active.members place (active.place_lt found)
    let places := match members[place]? with
      | some moved => active.places.insert moved place
      | none => active.places
    { members, places := places.erase index
      linked := by
        intro other spot
        have last : active.members.size - 1 ≤ place ↔ active.members.size - 1 = place := by
          have inside := active.place_lt found
          omega
        simp only [members, places, Std.TreeMap.getElem?_erase,
          active.getElem?_swapRemove_iff found]
        simp only [getElem?_swapRemove, last]
        by_cases alone : active.members.size - 1 = place
        · have final := (active.linked index place).mp found
          by_cases here : index = other
          · simp [here]
          · simp [alone, here, final, active.linked other spot]
        · obtain ⟨moved, final⟩ : ∃ moved, active.members[active.members.size - 1]? = some moved :=
            ⟨_, Array.getElem?_eq_getElem (by have := active.place_lt found; omega)⟩
          by_cases here : index = other
          · simp [here]
          · by_cases same : moved = other
            · simp [alone, here, final, same]
            · simp [alone, here, final, same, Std.TreeMap.getElem?_insert, active.linked other spot] }

theorem contains_iff (active : Active) (index : Nat) :
    active.contains index = true ↔ index ∈ active.members := by
  simp only [contains, Std.TreeMap.contains_eq_isSome_getElem?, Option.isSome_iff_exists,
    active.linked, Array.mem_iff_getElem?]

theorem nodup (active : Active) : active.members.toList.Nodup := by
  apply List.pairwise_iff_getElem.mpr
  intro first second _ _ before same
  have here : active.members[first]? = some active.members.toList[first] := by simp
  have there : active.members[second]? = some active.members.toList[first] := by simp [same]
  have unique := active.place_unique here there
  omega

theorem ascending_of_nodup {indices : List Nat} (nodup : indices.Nodup) :
    indices.mergeSort.Pairwise (· < ·) := by
  have sorted : indices.mergeSort.Pairwise fun i j => decide (i ≤ j) :=
    List.pairwise_mergeSort (by intro i j k; simp; omega) (by intro i j; simp; omega) _
  have once := (List.mergeSort_perm indices fun i j => i ≤ j).nodup_iff.mpr nodup
  refine (sorted.and once).imp ?_
  intro i j both
  simp only [decide_eq_true_eq] at both
  omega

theorem mem_sorted (active : Active) (index : Nat) :
    index ∈ active.sorted ↔ index ∈ active.members := by
  rw [sorted, List.mem_mergeSort, Array.mem_toList_iff]

theorem sorted_ascending (active : Active) : active.sorted.Pairwise (· < ·) :=
  ascending_of_nodup active.nodup

theorem mem_insert (active : Active) (index other : Nat) :
    other ∈ (active.insert index).members ↔ other = index ∨ other ∈ active.members := by
  unfold insert
  split
  · rename_i place found
    have member := Array.mem_of_getElem? ((active.linked index place).mp found)
    grind
  · simp [or_comm]

theorem mem_erase (active : Active) (index other : Nat) :
    other ∈ (active.erase index).members ↔ other ≠ index ∧ other ∈ active.members := by
  unfold erase
  split
  · rename_i absent
    have free : index ∉ active.members := by
      simp [← contains_iff, contains, Std.TreeMap.contains_eq_isSome_getElem?, absent]
    grind
  · rename_i place found
    simp only [Array.mem_iff_getElem?, active.getElem?_swapRemove_iff found]
    constructor
    · rintro ⟨spot, different, there⟩
      refine ⟨Ne.symm different, ?_⟩
      split at there
      · exact ⟨_, ‹_›⟩
      · exact ⟨spot, there⟩
    · rintro ⟨different, spot, here⟩
      by_cases final : active.members[active.members.size - 1]? = some other
      · exact ⟨place, different.symm, by rw [if_pos final]⟩
      · exact ⟨spot, different.symm, by rw [if_neg final]; exact here⟩

end Active
end Sequencer
