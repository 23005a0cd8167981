import Sequencer.Timeline.Sweep
import Sequencer.Proofs.Lists
import Sequencer.Proofs.Outcome
import Sequencer.Proofs.Stable

/-! A sweep over a timeline answers at every tick what a look at all entries would. The two orders
of a settled timeline are walked by one index each. After a walk to a tick all that stands before
the index has its key up to the tick, and all that stands behind it has a later one, from which the
active set is known. A walk back starts again. -/
namespace Sequencer

namespace Timeline

/-- A change to a timeline. -/
inductive Edit where
  | add (entry : Entry)
  | setDuration (index duration : Nat)
  | settle
  | clear

def Edit.apply (timeline : Timeline) : Edit → Except Fault Timeline
  | .add entry => .ok (timeline.add entry)
  | .setDuration index duration => timeline.setDuration index duration
  | .settle => .ok timeline.settle
  | .clear => .ok timeline.clear

/-- The timeline that changes lead to from the empty one. -/
def edited (edits : List Edit) : Except Fault Timeline := edits.foldlM Edit.apply {}

/-- What a timeline counts as settled has its entries in order. -/
def Honest (timeline : Timeline) : Prop :=
  timeline.settled = true →
    timeline.byStart = sortedIndices timeline.size timeline.startOf ∧
      timeline.byStop = sortedIndices timeline.size timeline.stopOf

variable {timeline : Timeline}

theorem Honest.apply (honest : timeline.Honest) (edit : Edit) {next : Timeline}
    (done : edit.apply timeline = .ok next) : next.Honest := by
  intro settled
  cases edit with
  | add entry =>
    cases done
    cases settled
  | setDuration index duration =>
    simp only [Edit.apply, setDuration] at done
    split at done
    · split at done
      · cases done
        exact honest settled
      · cases done
        cases settled
    · cases done
  | settle =>
    cases done
    exact ⟨rfl, rfl⟩
  | clear =>
    cases done
    cases settled

theorem honest_of_edited {edits : List Edit} (done : edited edits = .ok timeline) :
    timeline.Honest := by
  suffices walk : ∀ (edits : List Edit) (first : Timeline), first.Honest →
      edits.foldlM Edit.apply first = .ok timeline → timeline.Honest from
    walk edits {} (by intro settled; cases settled) done
  intro edits
  induction edits with
  | nil =>
    intro first honest done
    cases done
    exact honest
  | cons edit edits ih =>
    intro first honest done
    rw [List.foldlM_cons] at done
    obtain ⟨next, applied, done⟩ := Except.bind_eq_ok.mp done
    exact ih next (honest.apply edit applied) done

theorem mem_sortedIndices {size : Nat} {key : Nat → Nat} {index : Nat} :
    index ∈ (sortedIndices size key).toList ↔ index < size := by
  rw [sortedIndices, List.mem_mergeSort, List.mem_range]

theorem sortedIndices_sorted (size : Nat) (key : Nat → Nat) :
    (sortedIndices size key).toList.Pairwise fun i j => key i ≤ key j :=
  List.ascending_mergeSort key _

/-- Both orders hold every index once and are sorted. -/
structure Ordered (timeline : Timeline) : Prop where
  starts_sorted : timeline.byStart.toList.Pairwise fun i j =>
    timeline.startOf i ≤ timeline.startOf j
  stops_sorted : timeline.byStop.toList.Pairwise fun i j => timeline.stopOf i ≤ timeline.stopOf j
  mem_starts : ∀ index, index ∈ timeline.byStart.toList ↔ index < timeline.size
  mem_stops : ∀ index, index ∈ timeline.byStop.toList ↔ index < timeline.size

theorem Honest.ordered (honest : timeline.Honest) (settled : timeline.settled = true) :
    timeline.Ordered := by
  obtain ⟨starts, stops⟩ := honest settled
  constructor
  · rw [starts]
    exact sortedIndices_sorted ..
  · rw [stops]
    exact sortedIndices_sorted ..
  · intro index
    rw [starts]
    exact mem_sortedIndices
  · intro index
    rw [stops]
    exact mem_sortedIndices

end Timeline

namespace Sweep

/-- The part of an order that a walk to a tick passes. -/
def passed (key : Nat → Nat) (order : Array Nat) (done tick : Nat) : List Nat :=
  (order.toList.drop done).takeWhile fun index => key index ≤ tick

/-- An index that has walked an order up to, and not including, a tick. -/
structure Walked (key : Nat → Nat) (order : Array Nat) (past done : Nat) : Prop where
  inside : done ≤ order.size
  before : ∀ index ∈ order.toList.take done, key index < past
  behind : ∀ index ∈ order.toList.drop done, past ≤ key index

variable {key : Nat → Nat} {order : Array Nat} {past done : Nat}

theorem walked_start (key : Nat → Nat) (order : Array Nat) : Walked key order 0 0 where
  inside := Nat.zero_le _
  before := by simp
  behind := by simp

theorem Walked.mem_passed (walked : Walked key order past done)
    (sorted : order.toList.Pairwise fun i j => key i ≤ key j) (tick index : Nat) :
    index ∈ passed key order done tick ↔
      index ∈ order.toList ∧ past ≤ key index ∧ key index ≤ tick := by
  rw [passed, List.takeWhile_eq_filter_le (sorted.sublist (List.drop_sublist ..))]
  simp only [List.mem_filter, decide_eq_true_eq]
  constructor
  · rintro ⟨member, low⟩
    exact ⟨List.mem_of_mem_drop member, walked.behind index member, low⟩
  · rintro ⟨member, high, low⟩
    rw [← List.take_append_drop done order.toList, List.mem_append] at member
    refine ⟨member.resolve_left fun early => ?_, low⟩
    have := walked.before index early
    omega

theorem Walked.walk (walked : Walked key order past done)
    (sorted : order.toList.Pairwise fun i j => key i ≤ key j) {tick : Nat}
    (later : past ≤ tick + 1) :
    Walked key order (tick + 1) (done + (passed key order done tick).length) := by
  have parts : passed key order done tick ++
      ((order.toList.drop done).filter fun index => tick < key index) = order.toList.drop done := by
    rw [← List.dropWhile_eq_filter_gt (sorted.sublist (List.drop_sublist ..))]
    exact List.takeWhile_append_dropWhile
  constructor
  · have sizes := congrArg List.length parts
    have inside := walked.inside
    simp only [List.length_append, List.length_drop, Array.length_toList] at sizes
    omega
  · intro index member
    rw [List.take_add, List.mem_append, ← parts, List.take_left] at member
    rcases member with early | passes
    · have := walked.before index early
      omega
    · have := (walked.mem_passed sorted tick index).mp passes
      omega
  · intro index member
    rw [← List.drop_drop, ← parts, List.drop_left] at member
    have := (List.mem_filter.mp member).2
    simp only [decide_eq_true_eq] at this
    omega

theorem passed_of_early {done tick : Nat} (inside : done < order.size)
    (early : key order[done] ≤ tick) :
    passed key order done tick = order[done] :: passed key order (done + 1) tick := by
  rw [passed, List.drop_eq_getElem_cons (by simpa using inside)]
  simp [passed, early]

theorem passed_of_late {done tick : Nat} (inside : done < order.size)
    (late : ¬ key order[done] ≤ tick) : passed key order done tick = [] := by
  rw [passed, List.drop_eq_getElem_cons (by simpa using inside)]
  simp [late]

theorem passed_of_outside {done tick : Nat} (outside : ¬ done < order.size) :
    passed key order done tick = [] := by
  rw [passed, List.drop_eq_nil_of_le (by simpa using outside)]
  rfl

theorem begin_walks (timeline : Timeline) (tick : Nat) (sweep : Sweep) :
    (begin timeline tick sweep).begun = sweep.begun +
        (passed timeline.startOf timeline.byStart sweep.begun tick).length ∧
      (begin timeline tick sweep).ended = sweep.ended ∧
      ∀ index, index ∈ (begin timeline tick sweep).active.members ↔
        index ∈ sweep.active.members ∨
          (index ∈ passed timeline.startOf timeline.byStart sweep.begun tick ∧
            tick < timeline.stopOf index) := by
  fun_induction begin timeline tick sweep with
  | case1 sweep inside first early ih =>
    simp only [dite_eq_ite] at ih
    obtain ⟨begun, ended, active⟩ := ih
    rw [passed_of_early inside early]
    refine ⟨by rw [begun, List.length_cons]; omega, ended, ?_⟩
    intro index
    rw [active]
    by_cases lasts : tick < timeline.stopOf first
    · simp only [lasts, if_true, Active.mem_insert, List.mem_cons]
      grind
    · simp only [lasts, if_false, List.mem_cons]
      grind
  | case2 sweep inside first late =>
    simp [passed_of_late inside late]
  | case3 sweep outside =>
    simp [passed_of_outside outside]

theorem finish_walks (timeline : Timeline) (tick : Nat) (sweep : Sweep) :
    (finish timeline tick sweep).ended = sweep.ended +
        (passed timeline.stopOf timeline.byStop sweep.ended tick).length ∧
      (finish timeline tick sweep).begun = sweep.begun ∧
      ∀ index, index ∈ (finish timeline tick sweep).active.members ↔
        index ∈ sweep.active.members ∧
          index ∉ passed timeline.stopOf timeline.byStop sweep.ended tick := by
  fun_induction finish timeline tick sweep with
  | case1 sweep inside first early ih =>
    simp only at ih
    obtain ⟨ended, begun, active⟩ := ih
    rw [passed_of_early inside early]
    refine ⟨by rw [ended, List.length_cons]; omega, begun, ?_⟩
    intro index
    rw [active, Active.mem_erase, List.mem_cons]
    grind
  | case2 sweep inside first late =>
    simp [passed_of_late inside late]
  | case3 sweep outside =>
    simp [passed_of_outside outside]

/-- A sweep that has come up to, and not including, a tick. -/
structure Reached (timeline : Timeline) (past : Nat) (sweep : Sweep) : Prop where
  begun : Walked timeline.startOf timeline.byStart past sweep.begun
  ended : Walked timeline.stopOf timeline.byStop past sweep.ended
  active : ∀ index, index ∈ sweep.active.members ↔
    index < timeline.size ∧ timeline.startOf index < past ∧ past ≤ timeline.stopOf index

variable {timeline : Timeline} {sweep : Sweep}

theorem reached_start (timeline : Timeline) : Reached timeline 0 {} where
  begun := walked_start ..
  ended := walked_start ..
  active := by simp

theorem Reached.walk (ordered : timeline.Ordered) {past tick : Nat}
    (reached : Reached timeline past sweep) (later : past ≤ tick + 1) :
    Reached timeline (tick + 1) (finish timeline tick (begin timeline tick sweep)) := by
  obtain ⟨begun, kept, began⟩ := begin_walks timeline tick sweep
  obtain ⟨ended, kept', stays⟩ := finish_walks timeline tick (begin timeline tick sweep)
  rw [kept] at ended stays
  constructor
  · rw [kept', begun]
    exact reached.begun.walk ordered.starts_sorted later
  · rw [ended]
    exact reached.ended.walk ordered.stops_sorted later
  · intro index
    rw [stays, began, reached.active, reached.begun.mem_passed ordered.starts_sorted,
      reached.ended.mem_passed ordered.stops_sorted, ordered.mem_starts, ordered.mem_stops]
    omega

/-- Where a sweep stands: behind its tick, or at the start. -/
def Stands (timeline : Timeline) (sweep : Sweep) : Prop :=
  Reached timeline (sweep.tick.elim 0 (· + 1)) sweep

theorem Stands.advance (ordered : timeline.Ordered) (stands : Stands timeline sweep) (tick : Nat) :
    Stands timeline (sweep.advance timeline tick) := by
  have again := (reached_start timeline).walk ordered (Nat.zero_le (tick + 1))
  unfold Sweep.advance
  cases stood : sweep.tick with
  | none =>
    have reached : Reached timeline 0 sweep := by simpa [Stands, stood] using stands
    have := reached.walk ordered (Nat.zero_le (tick + 1))
    exact ⟨this.begun, this.ended, this.active⟩
  | some current =>
    have reached : Reached timeline (current + 1) sweep := by simpa [Stands, stood] using stands
    by_cases back : tick < current
    · simp only [back, if_true, reset]
      exact ⟨again.begun, again.ended, again.active⟩
    · simp only [back, if_false]
      have ahead : current + 1 ≤ tick + 1 := by omega
      have := reached.walk ordered ahead
      exact ⟨this.begun, this.ended, this.active⟩

/-- A call to a sweep. -/
inductive Step where
  | seek (tick : Nat)
  | advance (tick : Nat)
  | reset

def Step.apply (timeline : Timeline) (sweep : Sweep) : Step → Sweep
  | .seek tick => (sweep.seek timeline tick).2
  | .advance tick => sweep.advance timeline tick
  | .reset => sweep.reset

def run (timeline : Timeline) (steps : List Step) (sweep : Sweep) : Sweep :=
  steps.foldl (Step.apply timeline) sweep

theorem Stands.run (ordered : timeline.Ordered) (stands : Stands timeline sweep)
    (steps : List Step) : Stands timeline (sweep.run timeline steps) := by
  induction steps generalizing sweep with
  | nil => exact stands
  | cons step steps ih =>
    apply ih
    cases step with
    | seek tick => exact stands.advance ordered tick
    | advance tick => exact stands.advance ordered tick
    | reset => exact reached_start timeline

/-- Every index that a sweep can read lies inside: those of the orders in the entries, the two that
it walks with in the orders, its members in the entries, and each place of its table in its
members. -/
structure InRange (timeline : Timeline) (sweep : Sweep) : Prop where
  starts : ∀ index ∈ timeline.byStart, index < timeline.size
  stops : ∀ index ∈ timeline.byStop, index < timeline.size
  begun : sweep.begun ≤ timeline.byStart.size
  ended : sweep.ended ≤ timeline.byStop.size
  members : ∀ index ∈ sweep.active.members, index < timeline.size
  places : ∀ index place : Nat, sweep.active.places[index]? = some place →
    index < timeline.size ∧ sweep.active.members[place]? = some index

/-- A sweep at a tick tells what a look at every entry would. -/
structure Tells (timeline : Timeline) (tick : Nat) (sweep : Sweep) : Prop where
  stood : sweep.tick = some tick
  nodup : sweep.active.members.toList.Nodup
  mem : ∀ index, index ∈ sweep.active.members ↔ ∃ entry, timeline.entries[index]? = some entry ∧
    entry.start ≤ tick ∧ tick < entry.start + max entry.duration 1
  isSounding : ∀ index, sweep.isSounding index = true ↔ index ∈ sweep.active.members
  ascending : sweep.sounding.Pairwise (· < ·)
  sounding : ∀ index, index ∈ sweep.sounding ↔ index ∈ sweep.active.members

theorem Stands.inRange (ordered : timeline.Ordered) (stands : Stands timeline sweep) :
    InRange timeline sweep where
  starts index member := (ordered.mem_starts index).mp (Array.mem_toList_iff.mpr member)
  stops index member := (ordered.mem_stops index).mp (Array.mem_toList_iff.mpr member)
  begun := stands.begun.inside
  ended := stands.ended.inside
  members index member := ((stands.active index).mp member).1
  places index place found := by
    have there := (sweep.active.linked index place).mp found
    exact ⟨((stands.active index).mp (Array.mem_of_getElem? there)).1, there⟩

theorem Stands.tells (stands : Stands timeline sweep) {tick : Nat} (stood : sweep.tick = some tick) :
    Tells timeline tick sweep where
  stood := stood
  nodup := sweep.active.nodup
  mem index := by
    have active := stands.active index
    simp only [stood, Option.elim_some] at active
    rw [active]
    by_cases inside : index < timeline.size
    · have found := Array.getElem?_eq_getElem inside
      simp only [Timeline.startOf, Timeline.stopOf, Entry.stop, found, Option.elim_some,
        inside, true_and, Option.some.injEq, exists_eq_left']
      omega
    · have outside : timeline.entries[index]? = none :=
        Array.getElem?_eq_none (Nat.le_of_not_lt inside)
      simp [inside, outside]
  isSounding index := sweep.active.contains_iff index
  ascending := sweep.active.sorted_ascending
  sounding index := sweep.active.mem_sorted index

end Sweep

/-- Whatever was added, revised, settled and cleared before: a timeline that counts as settled can
be swept, and wherever a sweep was moved before, at the next tick it tells what sounds there. -/
theorem Timeline.sweep_tells {edits : List Timeline.Edit} {timeline : Timeline}
    (made : Timeline.edited edits = .ok timeline) (settled : timeline.settled = true) :
    ∃ fresh, timeline.sweep = .ok fresh ∧ ∀ (steps : List Sweep.Step) (tick : Nat),
      let sweep := fresh.run timeline steps
      let moved := sweep.advance timeline tick
      sweep.InRange timeline ∧ moved.InRange timeline ∧ moved.Tells timeline tick ∧
        sweep.seek timeline tick = (moved.sounding, moved) := by
  have ordered := (Timeline.honest_of_edited made).ordered settled
  have checked : timeline.requireSettled = .ok () := if_pos settled
  refine ⟨{}, by rw [Timeline.sweep, checked]; rfl, ?_⟩
  intro steps tick
  have start : Sweep.Stands timeline {} := Sweep.reached_start timeline
  have stands := start.run ordered steps
  have moved := stands.advance ordered tick
  exact ⟨stands.inRange ordered, moved.inRange ordered, moved.tells rfl, rfl⟩

/-- Three entries, the first of them lengthened after a first settling, and a sweep that has gone
forwards, back and to the start. -/
theorem Timeline.sweep_tells_revised :
    let timeline := Timeline.settle { entries := #[⟨10, 8, 0⟩, ⟨0, 0, 1⟩, ⟨3, 20, 2⟩] }
    Timeline.edited [.add ⟨7, 7, 7⟩, .clear, .add ⟨10, 5, 0⟩, .add ⟨0, 0, 1⟩, .settle,
        .setDuration 0 8, .add ⟨3, 20, 2⟩, .settle] = .ok timeline ∧
      timeline.settled = true ∧ ∃ fresh, timeline.sweep = .ok fresh ∧
        ∀ index, index ∈ ((fresh.run timeline [.seek 12, .advance 1, .reset, .advance 3]).seek
          timeline 16).1 ↔ index = 0 ∨ index = 2 := by
  intro timeline
  have made : Timeline.edited [.add ⟨7, 7, 7⟩, .clear, .add ⟨10, 5, 0⟩, .add ⟨0, 0, 1⟩, .settle,
      .setDuration 0 8, .add ⟨3, 20, 2⟩, .settle] = .ok timeline := rfl
  obtain ⟨fresh, swept, answers⟩ := Timeline.sweep_tells made rfl
  refine ⟨made, rfl, fresh, swept, ?_⟩
  intro index
  obtain ⟨-, -, tells, -⟩ := answers [.seek 12, .advance 1, .reset, .advance 3] 16
  rw [show ∀ sweep : Sweep, (sweep.seek timeline 16).1 = (sweep.advance timeline 16).sounding from
    fun _ => rfl, tells.sounding, tells.mem]
  match index with
  | 0 => simp [timeline, Timeline.settle]
  | 1 => simp [timeline, Timeline.settle]
  | 2 => simp [timeline, Timeline.settle]
  | index + 3 => simp [timeline, Timeline.settle]

end Sequencer
