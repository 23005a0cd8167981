import Sequencer.Proofs.OwnTransposes
import Sequencer.Proofs.Sweep

/-! What is known of the transposes of a settled timeline. The walk meets the entries by their
starts, and those of one tick by their indices, so that each list of changes is sorted and its last
change by a tick is that of the last entry. The search by halves finds that change. -/
namespace Sequencer

/-- Changes that take effect by a tick stand before `low`, those that do later from `high` on. -/
structure Cuts (changes : Array TransposeChange) (tick low high : Nat) : Prop where
  ordered : low ≤ high
  inside : high ≤ changes.size
  before : ∀ i change, changes[i]? = some change → i < low → change.tick ≤ tick
  behind : ∀ i change, changes[i]? = some change → high ≤ i → tick < change.tick

section Search

variable {changes : Array TransposeChange} {tick low high : Nat}

theorem cuts_all (changes : Array TransposeChange) (tick : Nat) :
    Cuts changes tick 0 changes.size where
  ordered := Nat.zero_le _
  inside := Nat.le_refl _
  before _ _ _ below := absurd below (Nat.not_lt_zero _)
  behind i change found above := by
    have := (Array.getElem?_eq_some_iff.mp found).1
    omega

theorem tick_le_of_sorted (sorted : changes.toList.Pairwise fun a b => a.tick ≤ b.tick) {i j : Nat}
    {first second : TransposeChange} (le : i ≤ j) (found : changes[i]? = some first)
    (found' : changes[j]? = some second) : first.tick ≤ second.tick := by
  obtain ⟨inside, rfl⟩ := Array.getElem?_eq_some_iff.mp found
  obtain ⟨inside', rfl⟩ := Array.getElem?_eq_some_iff.mp found'
  rcases Nat.lt_or_eq_of_le le with lt | rfl
  · exact List.pairwise_iff_getElem.mp sorted i j inside inside' lt
  · exact Nat.le_refl _

/-- Each step of the search keeps the cut, and at its end nothing is left between. -/
theorem Cuts.search (sorted : changes.toList.Pairwise fun a b => a.tick ≤ b.tick)
    (cuts : Cuts changes tick low high) :
    Cuts changes tick (changesUntil changes tick low high)
      (changesUntil changes tick low high) := by
  fun_induction changesUntil changes tick low high with
  | case1 low high lt middle outside =>
    have := Array.getElem?_eq_none_iff.mp outside
    have := cuts.inside
    omega
  | case2 low high lt middle change found early ih =>
    refine ih ⟨by omega, cuts.inside, fun i other there below => ?_, cuts.behind⟩
    exact Nat.le_trans (tick_le_of_sorted sorted (by omega) there found) early
  | case3 low high lt middle change found late ih =>
    have inside := cuts.inside
    refine ih ⟨by omega, by omega, cuts.before, fun i other there above => ?_⟩
    have := tick_le_of_sorted sorted above found there
    omega
  | case4 low high done =>
    obtain rfl : low = high := by have := cuts.ordered; omega
    exact cuts

theorem Cuts.filter_eq_take (cuts : Cuts changes tick low low) :
    (changes.toList.filter fun change => change.tick ≤ tick) = changes.toList.take low := by
  have first : (changes.toList.take low).filter (fun change => change.tick ≤ tick) =
      changes.toList.take low := by
    refine List.filter_eq_self.mpr fun change member => ?_
    obtain ⟨i, found⟩ := List.getElem?_of_mem member
    rw [List.getElem?_take] at found
    split at found
    · rename_i below
      exact decide_eq_true (cuts.before i change (by simpa using found) below)
    · cases found
  have rest : (changes.toList.drop low).filter (fun change => change.tick ≤ tick) = [] := by
    refine List.filter_eq_nil_iff.mpr fun change member => ?_
    obtain ⟨i, found⟩ := List.getElem?_of_mem member
    rw [List.getElem?_drop] at found
    have := cuts.behind (low + i) change (by simpa using found) (Nat.le_add_right ..)
    simpa using this
  conv_lhs => rw [← List.take_append_drop low changes.toList]
  rw [List.filter_append, first, rest, List.append_nil]

/-- At a tick the last change that has taken effect holds. -/
theorem transposeAt_eq (sorted : changes.toList.Pairwise fun a b => a.tick ≤ b.tick) (tick : Nat) :
    transposeAt changes tick =
      ((changes.toList.filter fun change => change.tick ≤ tick).getLast?).elim 0
        TransposeChange.semitones := by
  have cuts := (cuts_all changes tick).search sorted
  have inside := cuts.inside
  rw [cuts.filter_eq_take, List.getLast?_take, transposeAt]
  generalize changesUntil changes tick 0 changes.size = count at inside ⊢
  cases count with
  | zero => rfl
  | succ count =>
    have found : changes[count]? = some changes[count] := Array.getElem?_eq_getElem inside
    simp [found]

end Search

namespace Timeline

variable {timeline : Timeline}

/-- An entry comes before another: it starts earlier, or at the same tick and was made earlier. -/
def Precedes (timeline : Timeline) (i j : Nat) : Prop :=
  timeline.startOf i < timeline.startOf j ∨ timeline.startOf i = timeline.startOf j ∧ i < j

/-- The value of the last entry, among some, that sets one. It is 0 if none of them does. -/
def Last (timeline : Timeline) (among : Nat → Prop) (set? : Nat → Option Int) (value : Int) :
    Prop :=
  (∃ last, among last ∧ set? last = some value ∧
    ∀ index, among index → (set? index).isSome → index ≠ last → timeline.Precedes index last) ∨
  (value = 0 ∧ ∀ index, among index → set? index = none)

instance {i j : Nat} : Decidable (timeline.Precedes i j) := inferInstanceAs (Decidable (_ ∨ _))

theorem Precedes.asymm {i j : Nat} (precedes : timeline.Precedes i j) :
    ¬ timeline.Precedes j i := by
  unfold Precedes at *
  omega

theorem Last.unique {among : Nat → Prop} {set? : Nat → Option Int} {value other : Int}
    (last : timeline.Last among set? value) (last' : timeline.Last among set? other) :
    value = other := by
  rcases last with ⟨i, within, sets, latest⟩ | ⟨rfl, none⟩
  · rcases last' with ⟨j, within', sets', latest'⟩ | ⟨-, none⟩
    · by_cases same : i = j
      · subst same
        exact Option.some.inj (sets.symm.trans sets')
      · have before := latest j within' (by rw [sets']; rfl) (Ne.symm same)
        have behind := latest' i within (by rw [sets]; rfl) same
        exact absurd before behind.asymm
    · rw [none i within] at sets
      cases sets
  · rcases last' with ⟨j, within', sets', -⟩ | ⟨rfl, -⟩
    · rw [none j within'] at sets'
      cases sets'
    · rfl

/-- Which entry is the last one that sets a value can be found among the entries there are. -/
theorem last_of_inside {among : Nat → Prop} {set? : Nat → Option Int} {value : Int}
    (inside : ∀ index, (set? index).isSome → index < timeline.size)
    (checked : (∃ last < timeline.size, among last ∧ set? last = some value ∧
        ∀ index < timeline.size, among index → (set? index).isSome → index ≠ last →
          timeline.Precedes index last) ∨
      (value = 0 ∧ ∀ index < timeline.size, among index → set? index = none)) :
    timeline.Last among set? value := by
  rcases checked with ⟨last, -, within, sets, latest⟩ | ⟨zero, none⟩
  · exact .inl ⟨last, within, sets, fun index near known =>
      latest index (inside index known) near known⟩
  · refine .inr ⟨zero, fun index near => ?_⟩
    cases sets : set? index with
    | none => rfl
    | some value => rw [← sets, none index (inside index (by rw [sets]; rfl)) near]

/-- The order of starts keeps entries of one tick as they were made. -/
theorem order_precedes (timeline : Timeline) : timeline.order.Pairwise timeline.Precedes := by
  have sorted : timeline.order.Pairwise fun i j => timeline.startOf i ≤ timeline.startOf j :=
    sortedIndices_sorted timeline.size timeline.startOf
  have ties (start : Nat) : timeline.order.Pairwise fun i j =>
      timeline.startOf i = start → timeline.startOf j = start → i < j := by
    have made := List.pairwise_lt_range (n := timeline.size)
    have kept : timeline.order.filter (fun i => timeline.startOf i = start) =
        (List.range timeline.size).filter fun i => timeline.startOf i = start := by
      refine filter_order (List.pairwise_filter.mpr ?_)
      refine List.pairwise_of_forall fun i j => ?_
      simp only [decide_eq_true_eq]
      omega
    have ascending := made.filter fun i => timeline.startOf i = start
    rw [← kept, List.pairwise_filter] at ascending
    simpa only [decide_eq_true_eq] using ascending
  refine List.pairwise_iff_getElem.mpr fun i j inside inside' lt => ?_
  have le := List.pairwise_iff_getElem.mp sorted i j inside inside' lt
  have tie := List.pairwise_iff_getElem.mp (ties (timeline.startOf timeline.order[i])) i j inside
    inside' lt rfl
  unfold Precedes
  omega

/-- A walk that meets the entries in their order sees last what the last of them sets. -/
theorem last_of_walk {among : Nat → Prop} {set? : Nat → Option Int} {walk : List Nat}
    (ordered : walk.Pairwise timeline.Precedes)
    (met : ∀ index, among index → (set? index).isSome → index ∈ walk)
    (within : ∀ index ∈ walk, among index) :
    timeline.Last among set? ((walk.filterMap set?).getLast?.getD 0) := by
  rw [List.getLast?_filterMap]
  cases found : walk.reverse.findSome? set? with
  | none =>
    refine .inr ⟨rfl, fun index inside => ?_⟩
    cases sets : set? index with
    | none => rfl
    | some value =>
      have member := met index inside (by rw [sets]; rfl)
      have none := List.findSome?_eq_none_iff.mp found index (List.mem_reverse.mpr member)
      rw [sets] at none
      cases none
  | some value =>
    obtain ⟨behind, last, before, split, sets, none⟩ := List.findSome?_eq_some_iff.mp found
    have split : walk = before.reverse ++ last :: behind.reverse := by
      rw [← List.reverse_reverse walk, split]
      simp
    rw [split] at ordered within met
    refine .inl ⟨last, within last (by simp), sets, fun index inside value other => ?_⟩
    rcases List.mem_append.mp (met index inside value) with early | late
    · exact (List.pairwise_append.mp ordered).2.2 index early last List.mem_cons_self
    · rcases List.mem_cons.mp late with same | late
      · exact absurd same other
      · rw [none index (List.mem_reverse.mp late)] at value
        cases value

section Sets

variable (timeline : Timeline) (arena : Arena) (track index : Nat)

/-- The event of an entry. -/
def event? : Option Event := (timeline.entries[index]?).bind fun entry => arena.get? entry.event

/-- The semitones that an entry sets for all tracks. -/
def allSet? : Option Int := (timeline.event? arena index).bind fun event =>
  match event.kind with
  | .transpose .all semitones => some semitones.toInt
  | _ => none

/-- The semitones that an entry sets for a track alone, if it is an entry of the track. -/
def ownSet? : Option Int := (timeline.event? arena index).bind fun event =>
  if event.track = track then event.kind.ownTranspose?.map Int8.toInt else none

/-- The change that an entry makes if it sets a value. -/
def change? (set? : Nat → Option Int) : Option TransposeChange :=
  (set? index).map (TransposeChange.mk (timeline.startOf index))

end Sets

theorem inside_of_event {arena : Arena} {index : Nat} {event : Event}
    (named : timeline.event? arena index = some event) : index < timeline.size := by
  obtain ⟨entry, found, -⟩ := Option.bind_eq_some_iff.mp named
  exact (Array.getElem?_eq_some_iff.mp found).1

theorem inside_of_allSet {arena : Arena} {index : Nat}
    (sets : (timeline.allSet? arena index).isSome) : index < timeline.size := by
  obtain ⟨value, sets⟩ := Option.isSome_iff_exists.mp sets
  obtain ⟨event, named, -⟩ := Option.bind_eq_some_iff.mp sets
  exact inside_of_event named

theorem inside_of_ownSet {arena : Arena} {track index : Nat}
    (sets : (timeline.ownSet? arena track index).isSome) : index < timeline.size := by
  obtain ⟨value, sets⟩ := Option.isSome_iff_exists.mp sets
  obtain ⟨event, named, -⟩ := Option.bind_eq_some_iff.mp sets
  exact inside_of_event named

/-- What the search finds among the changes of a walk is the value of the last entry that sets one
by the tick. -/
theorem last_of_changes {set? : Nat → Option Int}
    (inside : ∀ index, (set? index).isSome → index < timeline.size)
    {changes : Array TransposeChange}
    (walked : changes.toList = timeline.order.filterMap fun index => timeline.change? index set?)
    (tick : Nat) :
    timeline.Last (fun index => timeline.startOf index ≤ tick) set? (transposeAt changes tick) := by
  have sorted : changes.toList.Pairwise fun a b => a.tick ≤ b.tick := by
    rw [walked, List.pairwise_filterMap]
    refine timeline.order_precedes.imp fun {i j} precedes first made second made' => ?_
    obtain ⟨_, -, rfl⟩ := Option.map_eq_some_iff.mp made
    obtain ⟨_, -, rfl⟩ := Option.map_eq_some_iff.mp made'
    exact precedes.elim Nat.le_of_lt fun tie => Nat.le_of_eq tie.1
  have values : ((changes.toList.filter fun change => change.tick ≤ tick).map
      TransposeChange.semitones) =
      (timeline.order.filter fun index => timeline.startOf index ≤ tick).filterMap set? := by
    rw [walked, List.filter_filterMap, List.map_filterMap, List.filterMap_filter]
    refine congrArg (List.filterMap · timeline.order) (funext fun index => ?_)
    unfold change?
    cases set? index with
    | none => simp
    | some value =>
      by_cases early : timeline.startOf index ≤ tick
      · simp [Option.filter, early]
      · simp [Option.filter, early]
  have value : transposeAt changes tick =
      ((timeline.order.filter fun index => timeline.startOf index ≤ tick).filterMap
        set?).getLast?.getD 0 := by
    rw [transposeAt_eq sorted, ← values, List.getLast?_map]
    cases (changes.toList.filter fun change => change.tick ≤ tick).getLast? <;> rfl
  rw [value]
  refine last_of_walk (timeline.order_precedes.filter _) ?_ ?_
  · intro index early sets
    exact List.mem_filter.mpr ⟨mem_order.mpr (inside index sets), decide_eq_true early⟩
  · intro index member
    exact of_decide_eq_true (List.mem_filter.mp member).2

end Timeline

namespace Transposes

variable (transposes : Transposes) (index : Nat) (entry : Entry) (event : Event) (track : Nat)

theorem changesOf_withTrack (other : Nat) :
    (transposes.withTrack other).changesOf track = transposes.changesOf track := by
  unfold changesOf withTrack
  rw [Array.getElem?_append]
  split
  · rfl
  · rename_i outside
    rw [Array.getElem?_eq_none (Nat.le_of_not_lt outside), Array.getElem?_replicate]
    split <;> rfl

theorem changesOf_collect : ((transposes.collect index entry event).changesOf track).toList =
    (transposes.changesOf track).toList ++ (if event.track = track then
      event.kind.ownTranspose?.map fun semitones => ⟨entry.start, semitones.toInt⟩
      else none).toList := by
  rw [← transposes.changesOf_withTrack track event.track]
  have known := transposes.size_withTrack event.track
  unfold collect
  generalize transposes.withTrack event.track = opened at known ⊢
  have plain : (opened.changesOf track).toList = (opened.changesOf track).toList ++
      (if event.track = track then (none : Option TransposeChange) else none).toList := by simp
  cases event.kind with
  | transpose scope semitones =>
    cases scope with
    | all => exact plain
    | own =>
      change (changesOf { opened with ofTrack := opened.ofTrack.modify _ _ } track).toList = _
      unfold changesOf
      dsimp only
      rw [Array.getElem?_modify]
      split
      · rename_i own
        subst own
        rw [Array.getElem?_eq_getElem known]
        simp [EventKind.ownTranspose?]
      · simp
  | _ => exact plain

/-- The walk collects the changes of every track in the order in which it meets them. -/
theorem collectAll_changesOf {shared : Shared} (resolved : shared.Resolved) (timeline : Timeline)
    (entries : timeline.entries = shared.timeline.entries) {indices : List Nat}
    (inside : ∀ index ∈ indices, index < shared.timeline.size) (transposes : Transposes) :
    (collectAll timeline shared.arena indices transposes).Ensures fun all => ∀ track,
      (all.changesOf track).toList = (transposes.changesOf track).toList ++
        indices.filterMap fun index =>
          timeline.change? index (timeline.ownSet? shared.arena track) := by
  induction indices generalizing transposes with
  | nil => exact Except.ensures_ok fun track => by simp
  | cons index rest ih =>
    obtain ⟨entry, event, found, stored⟩ := resolved.event (inside index List.mem_cons_self)
    have here : timeline.entries[index]? = some entry := entries ▸ found
    have got : timeline.get index = .ok entry := by rw [Timeline.get, here]
    have known : shared.arena.get? entry.event = some event := stored
    have named : timeline.event? shared.arena index = some event := by
      rw [Timeline.event?, here]
      exact known
    have starts : timeline.startOf index = entry.start := by
      rw [Timeline.startOf, here]
      rfl
    rw [collectAll, got]
    simp only [Bind.bind, Except.bind, known]
    refine (ih (fun index member => inside index (List.mem_cons_of_mem _ member)) _).mono ?_
    intro all collected track
    rw [collected, changesOf_collect, List.append_assoc, List.filterMap_cons, Timeline.change?,
      Timeline.ownSet?, named, starts]
    simp only [Option.bind_some]
    split
    · cases event.kind.ownTranspose? <;> rfl
    · rfl

end Transposes

namespace Shared

variable {shared : Shared} {track : Nat}

theorem transposed_eq (semitones : Int) (index : Nat) : shared.transposed track semitones index =
    (shared.timeline.ownSet? shared.arena track index).getD semitones := by
  unfold transposed isOf Timeline.ownSet?
  rw [show shared.timeline.event? shared.arena index = shared.eventAt? index from rfl]
  cases shared.eventAt? index with
  | none => rfl
  | some event =>
    simp only [Option.any_some, decide_eq_true_eq, Option.bind_some]
    split <;> rfl

/-- What entries set one after another is what the last of them sets. -/
theorem foldl_transposed_eq (indices : List Nat) :
    indices.foldl (shared.transposed track) 0 =
      (indices.filterMap (shared.timeline.ownSet? shared.arena track)).getLast?.getD 0 := by
  induction indices using List.reverseRecOn with
  | nil => rfl
  | append_singleton indices index ih =>
    rw [List.foldl_append, List.foldl_cons, List.foldl_nil, transposed_eq, ih,
      List.filterMap_append, List.getLast?_append]
    cases sets : shared.timeline.ownSet? shared.arena track index <;> simp [sets]

theorem changeAt_eq (index : Nat) : shared.changeAt? index =
    shared.timeline.change? index (shared.timeline.allSet? shared.arena) := by
  unfold changeAt? Timeline.change? Timeline.allSet? Timeline.event? Timeline.startOf
  cases shared.timeline.entries[index]? with
  | none => rfl
  | some entry =>
    simp only [Option.bind_eq_bind, Option.bind_some, eventOf?, Option.elim_some]
    cases shared.arena.get? entry.event with
    | none => rfl
    | some event =>
      simp only [Option.bind_some, EventKind.changeAt?]
      cases event.kind with
      | transpose scope semitones => cases scope <;> rfl
      | _ => rfl

end Shared

/-- Transposes answer what a look at all entries would. -/
structure Transposes.Tells (timeline : Timeline) (arena : Arena) (transposes : Transposes) :
    Prop where
  all : ∀ tick, timeline.Last (fun index => timeline.startOf index ≤ tick) (timeline.allSet? arena)
    (transposes.allAt tick)
  track : ∀ track tick, timeline.Last (fun index => timeline.startOf index ≤ tick)
    (timeline.ownSet? arena track) (transposes.trackAt track tick)
  total : ∀ track tick,
    transposes.totalAt track tick = transposes.allAt tick + transposes.trackAt track tick
  entry : ∀ index event, timeline.event? arena index = some event → ∃ semitones,
    transposes.entryTranspose index = .ok semitones ∧
    timeline.Last (fun other => ¬ timeline.Precedes index other)
      (timeline.ownSet? arena event.track) semitones

/-- The entries that are not behind an entry are those that the walk has met with it. -/
theorem Timeline.last_of_order {timeline : Timeline} {set? : Nat → Option Int}
    (inside : ∀ index, (set? index).isSome → index < timeline.size) {earlier later : List Nat}
    {index : Nat} (split : timeline.order = earlier ++ index :: later) :
    timeline.Last (fun other => ¬ timeline.Precedes index other) set?
      (((earlier ++ [index]).filterMap set?).getLast?.getD 0) := by
  have ordered := timeline.order_precedes
  rw [split] at ordered
  obtain ⟨-, behind, before⟩ := List.pairwise_append.mp ordered
  refine last_of_walk (ordered.sublist (by simp)) ?_ ?_
  · intro other near sets
    have member := mem_order.mpr (inside other sets)
    rw [split] at member
    rcases List.mem_append.mp member with early | late
    · exact List.mem_append_left _ early
    · rcases List.mem_cons.mp late with same | late
      · exact List.mem_append_right _ (List.mem_singleton.mpr same)
      · exact absurd (List.rel_of_pairwise_cons behind late) near
  · intro other member
    rcases List.mem_append.mp member with early | here
    · exact (before other early index List.mem_cons_self).asymm
    · rw [List.mem_singleton.mp here]
      exact fun precedes => precedes.asymm precedes

/-- Whatever was added, revised, settled and cleared before: from a timeline that counts as settled,
and from any store that has its events, the transposes are found, and they tell at every tick, for
every track and for every entry what the last change before has set. -/
theorem Transposes.ofTimeline_tells {edits : List Timeline.Edit} {timeline : Timeline} {arena : Arena}
    (made : Timeline.edited edits = .ok timeline) (settled : timeline.settled = true)
    (held : ∀ index < timeline.size, (timeline.event? arena index).isSome) :
    ∃ transposes, ofTimeline timeline arena = .ok transposes ∧ transposes.Tells timeline arena := by
  let shared : Shared := { arena, timeline }
  have resolved : shared.Resolved := by
    intro tag member
    obtain ⟨index, found⟩ := List.getElem?_of_mem member
    simp only [Shared.tags, Timeline.skeleton, List.getElem?_map, Array.getElem?_toList,
      Option.map_map, Option.map_eq_some_iff] at found
    obtain ⟨entry, found, rfl⟩ := found
    have event := held index (Array.getElem?_eq_some_iff.mp found).1
    rw [Timeline.event?, found] at event
    simpa using event
  have starts : timeline.byStart.toList = timeline.order :=
    congrArg Array.toList ((Timeline.honest_of_edited made) settled).1
  have walked : ofTimeline timeline arena = collectAll timeline arena timeline.order
      { ofEntry := Array.replicate timeline.size 0 } := by
    rw [← starts, ofTimeline, Timeline.startOrder, Timeline.requireSettled, if_pos settled]
    rfl
  have inside : ∀ index ∈ timeline.order, index < timeline.size := fun _ => Timeline.mem_order.mp
  obtain ⟨transposes, collected, ofAll⟩ := collectAll_yields resolved timeline rfl timeline.order
    inside { ofEntry := Array.replicate timeline.size 0 }
  have ofTrack := collectAll_changesOf resolved timeline rfl inside _ transposes collected
  have ofEntry := (collectAll_own resolved timeline rfl timeline.nodup_order inside
    Array.size_replicate transposes collected).2
  refine ⟨transposes, walked.trans collected, ?_, ?_, fun _ _ => rfl, ?_⟩
  · refine Timeline.last_of_changes (fun _ => Timeline.inside_of_allSet) ?_
    rw [ofAll]
    exact congrArg (List.filterMap · timeline.order) (funext shared.changeAt_eq)
  · intro track
    exact Timeline.last_of_changes (fun _ => Timeline.inside_of_ownSet) (ofTrack track)
  · intro index event named
    have member := Timeline.mem_order.mpr (Timeline.inside_of_event named)
    obtain ⟨earlier, later, split⟩ := List.append_of_mem member
    obtain ⟨event', named', value⟩ := ofEntry earlier index later split
    cases named.symm.trans named'
    refine ⟨_, by rw [entryTranspose, value], ?_⟩
    have inside (index : Nat) (sets : (timeline.ownSet? arena event.track index).isSome) :=
      Timeline.inside_of_ownSet sets
    have last := Timeline.last_of_order inside split
    rw [← shared.foldl_transposed_eq] at last
    exact last

/-- Two changes of all tracks at one tick, entered behind a later change of a track, and one more
change of that track right behind them. -/
theorem Transposes.ofTimeline_tells_ties :
    let arena : Arena := { events := #[⟨.transpose .own 7, 1, 0, 2⟩, ⟨.transpose .all 3, 0, 2, 2⟩,
      ⟨.transpose .all 5, 1, 4, 2⟩, ⟨.transpose .own 2, 1, 6, 2⟩] }
    let timeline := Timeline.settle { entries := #[⟨9, 0, 0⟩, ⟨4, 0, 1⟩, ⟨4, 0, 2⟩, ⟨4, 0, 3⟩] }
    Timeline.edited [.add ⟨9, 0, 0⟩, .add ⟨4, 0, 1⟩, .add ⟨4, 0, 2⟩, .add ⟨4, 0, 3⟩, .settle] =
        .ok timeline ∧ timeline.settled = true ∧
      (∀ index < timeline.size, (timeline.event? arena index).isSome) ∧
      ∃ transposes, ofTimeline timeline arena = .ok transposes ∧ transposes.allAt 3 = 0 ∧
        transposes.allAt 4 = 5 ∧ transposes.totalAt 1 9 = 12 ∧
        transposes.entryTranspose 2 = .ok 0 := by
  intro arena timeline
  have held : ∀ index < timeline.size, (timeline.event? arena index).isSome := by decide
  have edited : Timeline.edited [.add ⟨9, 0, 0⟩, .add ⟨4, 0, 1⟩, .add ⟨4, 0, 2⟩, .add ⟨4, 0, 3⟩,
    .settle] = .ok timeline := rfl
  obtain ⟨transposes, found, tells⟩ := ofTimeline_tells edited rfl held
  have none : transposes.allAt 3 = 0 := (tells.all 3).unique
    (Timeline.last_of_inside (fun _ => Timeline.inside_of_allSet) (by decide))
  have tied : transposes.allAt 4 = 5 := (tells.all 4).unique
    (Timeline.last_of_inside (fun _ => Timeline.inside_of_allSet) (by decide))
  have all : transposes.allAt 9 = 5 := (tells.all 9).unique
    (Timeline.last_of_inside (fun _ => Timeline.inside_of_allSet) (by decide))
  have own : transposes.trackAt 1 9 = 7 := (tells.track 1 9).unique
    (Timeline.last_of_inside (fun _ => Timeline.inside_of_ownSet) (by decide))
  obtain ⟨semitones, entry, last⟩ := tells.entry 2 ⟨.transpose .all 5, 1, 4, 2⟩ rfl
  have unset : semitones = 0 := last.unique
    (Timeline.last_of_inside (fun _ => Timeline.inside_of_ownSet) (by decide))
  refine ⟨edited, rfl, held, transposes, found, none, tied, ?_, unset ▸ entry⟩
  rw [tells.total, all, own]
  rfl

end Sequencer
