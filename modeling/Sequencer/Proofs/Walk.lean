import Sequencer.Proofs.Outcome
import Sequencer.Stage

/-! What a pass keeps of its stage. Whether the tracks are played one after another or together, one
of them moves at a time: it takes a step, ends, glides along its ramps, or waits. What holds of the
stage and is kept by each of these moves, and by the ramp that all tracks share, holds at the end. A
step is a run of operations, since a decoder acts on a player in no other way. -/
namespace Sequencer

variable {σ : Type} {allowed : Player → Operation → Prop} {format : Format σ} {setting : Setting}
  {live : Setting → Track → Prop} {holds : Stage σ → Prop} {earlier later : List Track}
  {performer : Performer σ}

/-- Every operation that the routine orders is allowed to the player as it is by then. -/
def Routine.Orders {α : Type} (allowed : Player → Operation → Prop) (player : Player) :
    Routine α → Prop
  | .done _ => True
  | .order operation next => allowed player operation ∧ ∀ more after,
      player.apply operation = .ok (more, after) → (next more after).Orders allowed after

def Format.Orders (allowed : Player → Operation → Prop) (format : Format σ) : Prop :=
  ∀ memory player, (format.decode memory player).Orders allowed player

theorem Routine.orders_any {α : Type} (routine : Routine α) (player : Player) :
    routine.Orders (fun _ _ => True) player := by
  induction routine generalizing player with
  | done => trivial
  | order operation next ih => exact ⟨trivial, fun more after _ => ih more after after⟩

/-- What is kept by the operations that a routine orders, is kept by the routine. -/
theorem Routine.run_ensures {α : Type} {routine : Routine α} {player : Player}
    (kept : Player → Prop)
    (applies : ∀ {player operation}, kept player → allowed player operation →
      (player.apply operation).Ensures fun (_, next) => kept next)
    (orders : routine.Orders allowed player) (begins : kept player) :
    (routine.run player).Ensures fun (_, last) => kept last := by
  induction routine generalizing player with
  | done => exact Except.ensures_ok begins
  | order operation next ih =>
    rintro ⟨result, last⟩ done
    obtain ⟨⟨more, after⟩, applied, done⟩ := Except.bind_eq_ok.mp done
    exact ih more after (orders.2 more after applied) (applies begins orders.1 _ applied) _ done

theorem Format.step_ensures (kept : Player → Prop)
    (counts : ∀ {player}, kept player →
      kept (player.withTrack { player.track with steps := player.track.steps + 1 }))
    (applies : ∀ {player operation}, kept player → allowed player operation →
      (player.apply operation).Ensures fun (_, next) => kept next)
    (orders : format.Orders allowed) (begins : kept performer.player) :
    (format.step performer).Ensures fun (_, next) => kept next.player := by
  obtain ⟨player, memory⟩ := performer
  refine (Routine.run_ensures kept applies (orders memory _) (counts begins)).bind ?_
  exact fun _ kept => Except.ensures_ok kept

theorem Performer.finish_ensures (ends : Player → Prop)
    (finishes : performer.player.finish.Ensures ends) :
    performer.finish.Ensures fun last => ends last.player :=
  finishes.bind fun _ ends => Except.ensures_ok ends

/-- The stage on which a performer plays, between other tracks. -/
def Performer.amid (earlier later : List Track) (performer : Performer σ) : Stage σ :=
  ⟨earlier ++ performer.player.track :: later, performer.player.shared, performer.memory⟩

theorem Performer.forall_amid {property : Track → Prop} :
    (∀ track ∈ (performer.amid earlier later).tracks, property track) ↔
      (∀ track ∈ earlier, property track) ∧ property performer.player.track ∧
        ∀ track ∈ later, property track :=
  List.forall_mem_append.trans (and_congr_right fun _ => List.forall_mem_cons)

/-- A performer whose track plays, and what is kept of its stage. -/
structure Performer.Lives (live : Setting → Track → Prop) (holds : Stage σ → Prop)
    (earlier later : List Track) (performer : Performer σ) : Prop where
  live : live performer.player.setting performer.player.track
  holds : holds (performer.amid earlier later)

/-- What each move of one track keeps of the stage. Only tracks that play are moved. -/
structure Format.Keeps (format : Format σ) (setting : Setting) (live : Setting → Track → Prop)
    (holds : Stage σ → Prop) : Prop where
  wakes : ∀ {earlier later : List Track} {track : Track} {shared : Shared} {memory : σ},
    holds ⟨earlier ++ track :: later, shared, memory⟩ → track.active = true → live setting track
  steps : ∀ {earlier later : List Track} {performer : Performer σ},
    performer.Lives live holds earlier later →
    (format.step performer).Ensures fun (_, next) => next.Lives live holds earlier later
  finishes : ∀ {earlier later : List Track} {performer : Performer σ},
    performer.Lives live holds earlier later →
    performer.finish.Ensures fun last => holds (last.amid earlier later)
  glides : ∀ {earlier later : List Track} {player : Player} {memory : σ} (tick : Nat),
    Performer.Lives live holds earlier later ⟨player, memory⟩ →
    holds (Performer.amid earlier later ⟨player.moveDials tick, memory⟩)
  waits : ∀ {earlier later : List Track} {player : Player} {memory : σ} (delay : Nat),
    Performer.Lives live holds earlier later ⟨player, memory⟩ →
    Performer.Lives live holds earlier later ⟨player.withTrack
      { player.track with cursor := { player.track.cursor with delay } }, memory⟩
  leads : ∀ {stage : Stage σ} (tick : Nat), holds stage →
    holds { stage with shared := Stage.moveMaster (setting.pass = .midi) tick stage.shared }

theorem Performer.finish_inactive (performer : Performer σ) :
    performer.finish.Ensures fun last => last.player.track.active = false := by
  refine Performer.finish_ensures (fun player => player.track.active = false) ?_
  intro last done
  obtain ⟨ended, _, same⟩ := Except.bind_eq_ok.mp done
  cases same
  rfl

/-- What each step keeps is what a track ends with, unless it has something to wait for. -/
theorem Format.playDue_ensures (keeps ends : Performer σ → Prop) {stopTime budget : Nat}
    (steps : ∀ {performer}, keeps performer →
      (format.step performer).Ensures fun (_, next) => keeps next)
    (finishes : ∀ {performer}, keeps performer → performer.finish.Ensures ends)
    (rests : ∀ {performer}, keeps performer → performer.player.track.isDue = false →
      ends performer)
    (kept : keeps performer) : (format.playDue stopTime budget performer).Ensures ends := by
  induction budget generalizing performer with
  | zero =>
    unfold Format.playDue
    split
    · exact finishes kept
    · rename_i waits
      exact Except.ensures_ok (rests kept (Bool.eq_false_iff.mpr waits))
  | succ budget ih =>
    unfold Format.playDue
    split
    · split
      · exact finishes kept
      · refine (steps kept).bind ?_
        rintro ⟨more, next⟩ kept
        dsimp only
        split
        · exact ih kept
        · exact finishes kept
    · rename_i waits
      exact Except.ensures_ok (rests kept (Bool.eq_false_iff.mpr waits))

theorem Format.playDue_of_waiting (stopTime budget : Nat)
    (waits : performer.player.track.isDue = false) :
    format.playDue stopTime budget performer = .ok performer := by
  cases budget <;> simp [Format.playDue, waits]

/-- What a play makes of each track in its turn, it makes of all of them. -/
theorem Stage.eachTrack_ensures {play : Performer σ → Except Fault (Performer σ)}
    (before after : Track → Prop) (holds : Stage σ → Prop)
    (each : ∀ earlier track later shared memory, before track →
      holds ⟨earlier ++ track :: later, shared, memory⟩ →
      (play ⟨⟨setting, track, shared⟩, memory⟩).Ensures fun last =>
        after last.player.track ∧ holds (last.amid earlier later))
    {tracks : List Track} {shared : Shared} {memory : σ} (all : ∀ track ∈ tracks, before track)
    (kept : holds ⟨earlier ++ tracks, shared, memory⟩) :
    (eachTrack play setting tracks shared memory).Ensures fun stage =>
      (∀ track ∈ stage.tracks, after track) ∧
        holds ⟨earlier ++ stage.tracks, stage.shared, stage.memory⟩ := by
  induction tracks generalizing earlier shared memory with
  | nil => exact Except.ensures_ok ⟨fun _ member => absurd member List.not_mem_nil, kept⟩
  | cons track rest ih =>
    obtain ⟨ready, others⟩ := List.forall_mem_cons.mp all
    unfold eachTrack
    refine (each earlier track rest shared memory ready kept).bind ?_
    rintro ⟨⟨_, track, shared⟩, memory⟩ ⟨first, kept⟩
    unfold Performer.amid at kept
    rw [List.append_cons] at kept
    refine (ih others kept).bind ?_
    rintro ⟨rest, shared, memory⟩ ⟨last, kept⟩
    rw [← List.append_cons] at kept
    exact Except.ensures_ok ⟨List.forall_mem_cons.mpr ⟨first, last⟩, kept⟩

theorem Stage.forTracks_ensures {play : Performer σ → Except Fault (Performer σ)}
    (before after : Track → Prop) (holds : Stage σ → Prop)
    (each : ∀ earlier track later shared memory, before track →
      holds ⟨earlier ++ track :: later, shared, memory⟩ →
      (play ⟨⟨setting, track, shared⟩, memory⟩).Ensures fun last =>
        after last.player.track ∧ holds (last.amid earlier later))
    {stage : Stage σ} (all : ∀ track ∈ stage.tracks, before track) (kept : holds stage) :
    (stage.forTracks setting play).Ensures fun last =>
      (∀ track ∈ last.tracks, after track) ∧ holds last := by
  have kept : holds ⟨[] ++ stage.tracks, stage.shared, stage.memory⟩ := kept
  exact eachTrack_ensures before after holds each all kept

/-- What each play keeps of all tracks holds when all of them have played. -/
theorem Stage.forTracks_keeps {play : Performer σ → Except Fault (Performer σ)}
    (holds : Stage σ → Prop)
    (each : ∀ earlier track later shared memory,
      holds ⟨earlier ++ track :: later, shared, memory⟩ →
      (play ⟨⟨setting, track, shared⟩, memory⟩).Ensures fun last => holds (last.amid earlier later))
    {stage : Stage σ} (kept : holds stage) : (stage.forTracks setting play).Ensures holds := by
  refine (forTracks_ensures (fun _ => True) (fun _ => True) holds ?_ (fun _ _ => trivial) kept).mono
    fun _ kept => kept.2
  intro earlier track later shared memory _ kept
  exact (each earlier track later shared memory kept).mono fun _ kept => ⟨trivial, kept⟩

namespace Format.Keeps

variable {stage : Stage σ} {track : Track} {shared : Shared} {memory : σ}
variable (keeps : format.Keeps setting live holds)
include keeps

theorem wake (active : track.active = true)
    (kept : holds ⟨earlier ++ track :: later, shared, memory⟩) :
    Performer.Lives live holds earlier later ⟨⟨setting, track, shared⟩, memory⟩ :=
  ⟨keeps.wakes kept active, kept⟩

theorem finish (lives : performer.Lives live holds earlier later) :
    performer.finish.Ensures fun last =>
      last.player.track.active = false ∧ holds (last.amid earlier later) :=
  fun last done => ⟨performer.finish_inactive last done, keeps.finishes lives last done⟩

theorem playThrough (stopTime budget : Nat)
    (lives : performer.Lives live holds earlier later) :
    (format.playThrough stopTime budget performer).Ensures fun last =>
      last.player.track.active = false ∧ holds (last.amid earlier later) := by
  induction budget generalizing performer with
  | zero => exact keeps.finish lives
  | succ budget ih =>
    unfold Format.playThrough
    split
    · exact keeps.finish lives
    · refine (keeps.steps lives).bind ?_
      rintro ⟨more, next⟩ lives
      dsimp only
      split
      · exact ih (keeps.waits 0 lives)
      · exact keeps.finish lives

theorem playDue (stopTime budget : Nat)
    (kept : holds ⟨earlier ++ track :: later, shared, memory⟩) :
    (format.playDue stopTime budget ⟨⟨setting, track, shared⟩, memory⟩).Ensures fun last =>
      holds (last.amid earlier later) := by
  cases due : track.isDue with
  | false =>
    rw [Format.playDue_of_waiting _ _ due]
    exact Except.ensures_ok kept
  | true =>
    refine Format.playDue_ensures (Performer.Lives live holds earlier later) _ keeps.steps
      keeps.finishes (fun lives _ => lives.holds) ?_
    exact keeps.wake (Bool.and_eq_true_iff.mp due).1 kept

theorem glide (tick : Nat) (kept : holds ⟨earlier ++ track :: later, shared, memory⟩) :
    holds (Performer.amid earlier later ⟨if track.active then
      Player.moveDials ⟨setting, track, shared⟩ tick else ⟨setting, track, shared⟩, memory⟩) := by
  split
  · rename_i active
    exact keeps.glides tick (keeps.wake active kept)
  · exact kept

theorem playTick (limits : Limits) (tick : Nat) (kept : holds stage) :
    (stage.playTick format setting limits tick).Ensures holds := by
  unfold Stage.playTick
  refine (Stage.forTracks_keeps holds ?_ kept).bind fun due kept => ?_
  · intro earlier track later shared memory kept
    exact keeps.playDue _ _ kept
  refine (Stage.forTracks_keeps holds ?_ kept).bind fun moved kept => ?_
  · intro earlier track later shared memory kept
    exact Except.ensures_ok (keeps.glide tick kept)
  exact Except.ensures_ok (keeps.leads tick kept)

theorem wait (ticks : Nat) (kept : holds ⟨earlier ++ track :: later, shared, memory⟩) :
    holds ⟨earlier ++ (if track.active then { track with
      cursor := { track.cursor with delay := track.cursor.delay - ticks } } else track) :: later,
      shared, memory⟩ := by
  split
  · rename_i active
    exact (keeps.waits _ (keeps.wake active kept)).holds
  · exact kept

theorem waitAll {tracks : List Track} (ticks : Nat)
    (kept : holds ⟨earlier ++ tracks, shared, memory⟩) :
    holds ⟨earlier ++ (Stage.pass ticks ⟨tracks, shared, memory⟩).tracks, shared, memory⟩ := by
  induction tracks generalizing earlier with
  | nil => exact kept
  | cons track rest ih =>
    have first := keeps.wait ticks kept
    rw [List.append_cons] at first
    have others := ih first
    rw [← List.append_cons] at others
    exact others

theorem pass (ticks : Nat) (kept : holds stage) : holds (stage.pass ticks) := by
  have kept : holds ⟨[] ++ stage.tracks, stage.shared, stage.memory⟩ := kept
  exact keeps.waitAll ticks kept

theorem finishAll (kept : holds stage) :
    (stage.finishAll setting).Ensures fun last =>
      (∀ track ∈ last.tracks, track.active = false) ∧ holds last := by
  refine Stage.forTracks_ensures (fun _ => True) (fun track => track.active = false) holds ?_
    (fun _ _ => trivial) kept
  intro earlier track later shared memory _ kept
  dsimp only
  split
  · rename_i active
    exact keeps.finish (keeps.wake active kept)
  · rename_i rests
    exact Except.ensures_ok ⟨Bool.eq_false_iff.mpr rests, kept⟩

theorem playTogether (limits : Limits) (stride : Nat → Stage σ → Nat) (tick : Nat)
    (kept : holds stage) :
    (stage.playTogether format setting limits stride tick).Ensures fun last =>
      (∀ track ∈ last.tracks, track.active = false) ∧ holds last := by
  induction left : Tick.last - tick using Nat.strongRecOn generalizing tick stage with
  | ind left ih =>
    unfold Stage.playTogether
    refine (keeps.playTick limits tick kept).bind fun played kept => ?_
    split
    · dsimp only
      split
      · exact ih _ (by omega) _ (keeps.pass _ kept) rfl
      · exact keeps.finishAll kept
    · rename_i idle
      refine Except.ensures_ok ⟨fun track member => ?_, kept⟩
      refine Bool.eq_false_iff.mpr fun active => idle ?_
      exact List.any_eq_true.mpr ⟨track, member, active⟩

/-- What is kept holds at the end of a pass, when no track plays any more. -/
theorem play (limits : Limits) (all : ∀ track ∈ stage.tracks, live setting track)
    (kept : holds stage) :
    (stage.play format setting limits).Ensures fun last =>
      (∀ track ∈ last.tracks, track.active = false) ∧ holds last := by
  unfold Stage.play
  split
  · exact keeps.playTogether limits _ 0 kept
  · refine Stage.forTracks_ensures (live setting) (fun track => track.active = false) holds ?_ all
      kept
    intro earlier track later shared memory playing kept
    exact keeps.playThrough _ _ ⟨playing, kept⟩

end Format.Keeps
end Sequencer
