import Sequencer.Proofs.Player.Places
import Sequencer.Proofs.Walk
import Sequencer.Sequence

/-! Where a pass can be. Any operations may be ordered of its tracks, in any order, between what
the clock does to them, so that this takes in whatever a decoder makes of any bytes. Each state that
a pass goes through is one of these, and what all of them have in common holds of it. -/
namespace Sequencer

variable {σ : Type}

/-- What can happen to one track: an operation, the count of its steps and its delay, a ramp, and
its end. -/
inductive Player.Acts (player : Player) : Player → Prop
  | order {operation : Operation} {more : Bool} {next : Player}
      (done : player.apply operation = .ok (more, next)) : Acts player next
  | pace (steps delay : Nat) : Acts player (player.withTrack
      { player.track with steps, cursor := { player.track.cursor with delay } })
  | glide (tick : Nat) : Acts player (player.moveDials tick)
  | finish {next : Player} (done : player.finish = .ok next) : Acts player next

namespace Sequence

/-- The tracks of a pass, and what they share, at some time. -/
inductive Midway (sequence : Sequence σ) (pass : Pass) : List Track → Shared → Prop
  | opened : Midway sequence pass (sequence.openStage pass).tracks (sequence.openStage pass).shared
  | acts {earlier later : List Track} {track : Track} {shared : Shared} {next : Player}
      (midway : Midway sequence pass (earlier ++ track :: later) shared)
      (acts : Player.Acts ⟨sequence.setting pass, track, shared⟩ next) :
      Midway sequence pass (earlier ++ next.track :: later) next.shared
  | leads {tracks : List Track} {shared : Shared} (tick : Nat)
      (midway : Midway sequence pass tracks shared) :
      Midway sequence pass tracks (Stage.moveMaster (pass = .midi) tick shared)

variable {sequence : Sequence σ} {pass : Pass} {tracks : List Track} {shared : Shared}

/-- What holds of all players at the start, and is kept of the one that acts and of the others,
holds of all of them throughout. -/
theorem Midway.keeps {holds : Player → Prop}
    (opens : ∀ track ∈ (sequence.openStage pass).tracks,
      holds ⟨sequence.setting pass, track, (sequence.openStage pass).shared⟩)
    (own : ∀ {player next : Player}, holds player → player.Acts next →
      next.setting = player.setting ∧ holds next)
    (others : ∀ {player next : Player}, holds player → player.Acts next → ∀ track,
      holds ⟨player.setting, track, player.shared⟩ → holds ⟨player.setting, track, next.shared⟩)
    (leads : ∀ {setting : Setting} {track : Track} {shared : Shared} (writing : Bool) (tick : Nat),
      holds ⟨setting, track, shared⟩ → holds ⟨setting, track, Stage.moveMaster writing tick shared⟩)
    (midway : sequence.Midway pass tracks shared) :
    ∀ track ∈ tracks, holds ⟨sequence.setting pass, track, shared⟩ := by
  induction midway with
  | opened => exact opens
  | @acts earlier later track shared next _ acts ih =>
    have before := List.forall_mem_append.mp ih
    obtain ⟨here, after⟩ := List.forall_mem_cons.mp before.2
    have kept : holds ⟨sequence.setting pass, next.track, next.shared⟩ := by
      obtain ⟨same, kept⟩ := own here acts
      cases next
      cases same
      exact kept
    refine List.forall_mem_append.mpr ⟨?_, List.forall_mem_cons.mpr ⟨kept, ?_⟩⟩
    · exact fun other member => others here acts other (before.1 other member)
    · exact fun other member => others here acts other (after other member)
  | leads tick _ ih => exact fun track member => leads _ tick (ih track member)

/-- One of the tracks goes on by what is ordered of it. -/
theorem Midway.orders {track : Track} {more : Bool} {next : Player} (earlier later : List Track)
    (midway : sequence.Midway pass (earlier ++ track :: later) shared) (operation : Operation)
    (done : Player.apply ⟨sequence.setting pass, track, shared⟩ operation = .ok (more, next)) :
    sequence.Midway pass (earlier ++ next.track :: later) next.shared :=
  midway.acts (.order done)

end Sequence

theorem Player.Tidy.acts {player next : Player} (tidy : player.Tidy) (acts : player.Acts next) :
    player.Tends next := by
  cases acts with
  | order done => exact tidy.apply _ _ done
  | pace steps delay =>
    exact ⟨rfl, ⟨⟨tidy.track.clock, tidy.track.ordered, tidy.track.entries, tidy.track.noteOffs⟩,
      tidy.unsettled⟩, Nat.le_refl _⟩
  | glide tick => exact tidy.moveDials tick
  | finish done => exact tidy.finish _ done

/-- Of the entries that were there before, it takes up only those that it had. -/
theorem Player.Tidy.acts_occupies {player next : Player} (tidy : player.Tidy)
    (acts : player.Acts next) :
    next.Occupies (player.shared.timeline.size :: player.track.entries) := by
  have still : player.Occupies (player.shared.timeline.size :: player.track.entries) :=
    List.subset_cons_self ..
  cases acts with
  | order done => exact tidy.apply_occupies _ _ done
  | pace steps delay => exact still
  | glide tick => exact (aboutSound_occupies _).messages.moveDials still tick fun _ _ _ => trivial
  | finish done => exact tidy.finish_occupies still _ done

theorem Stage.moveMaster_timeline (writing : Bool) (tick : Nat) (shared : Shared) :
    (moveMaster writing tick shared).timeline = shared.timeline := by
  unfold moveMaster
  split
  · rfl
  · dsimp only
    split <;> split <;> first | rfl | (split <;> rfl)

namespace Sequence

variable {sequence : Sequence σ} {pass : Pass} {tracks : List Track} {shared : Shared}

/-- When a pass begins, no track has notes, and none is in a call or a loop. -/
theorem openStage_silent (sequence : Sequence σ) (pass : Pass) :
    ∀ track ∈ (sequence.openStage pass).tracks, track.time = 0 ∧ track.timedNotes = [] ∧
      track.openNotes = [] ∧ track.cursor.calls = [] ∧ track.cursor.loops = [] := by
  intro track member
  unfold openStage at member
  dsimp only at member
  split at member
  · obtain ⟨reset, known, rfl⟩ := List.mem_map.mp member
    obtain ⟨before, _, rfl⟩ := List.mem_map.mp known
    exact ⟨rfl, rfl, rfl, rfl, rfl⟩
  · obtain ⟨before, _, rfl⟩ := List.mem_map.mp member
    exact ⟨rfl, rfl, rfl, rfl, rfl⟩

theorem openStage_tidy (sequence : Sequence σ) (pass : Pass) :
    ∀ track ∈ (sequence.openStage pass).tracks,
      Player.Tidy ⟨sequence.setting pass, track, (sequence.openStage pass).shared⟩ := by
  intro track member
  obtain ⟨time, timed, opened, _⟩ := sequence.openStage_silent pass track member
  have entries : track.entries = [] := by rw [Track.entries, timed, opened]; rfl
  have noteOffs : track.noteOffs = [] := by rw [Track.noteOffs, timed]; rfl
  have unsettled : (sequence.openStage pass).shared.timeline.settled = false := by
    unfold openStage
    dsimp only
    split <;> rfl
  refine ⟨⟨by rw [time]; exact Nat.zero_le _, ?_, ?_, ?_⟩, unsettled⟩
  · rw [timed]
    exact fun _ member => absurd member List.not_mem_nil
  · rw [entries]
    exact ⟨List.nodup_nil, fun _ member => absurd member List.not_mem_nil⟩
  · rw [noteOffs]
    exact ⟨List.nodup_nil, fun _ member => absurd member List.not_mem_nil⟩

/-- At any time of a pass, the notes of each track are written at places of their own. -/
theorem Midway.tidy (midway : sequence.Midway pass tracks shared) :
    ∀ track ∈ tracks, Player.Tidy ⟨sequence.setting pass, track, shared⟩ := by
  refine midway.keeps (sequence.openStage_tidy pass) ?_ ?_ ?_
  · intro player next tidy acts
    have tends := tidy.acts acts
    exact ⟨tends.setting, tends.tidy⟩
  · intro player next tidy acts track other
    have tends := tidy.acts acts
    exact ⟨other.track.grow tends.grown, tends.tidy.unsettled⟩
  · intro setting track shared writing tick tidy
    have timeline := Stage.moveMaster_timeline writing tick shared
    exact ⟨timeline ▸ tidy.track, timeline ▸ tidy.unsettled⟩

/-- A player of the pass, among other tracks. -/
structure Amid (sequence : Sequence σ) (pass : Pass) (earlier later : List Track)
    (player : Player) : Prop where
  setting : player.setting = sequence.setting pass
  midway : sequence.Midway pass (earlier ++ player.track :: later) player.shared

variable {earlier later : List Track} {player next : Player} {performer : Performer σ}

theorem Amid.acts (amid : sequence.Amid pass earlier later player) (acts : player.Acts next) :
    sequence.Amid pass earlier later next := by
  obtain ⟨setting, track, shared⟩ := player
  obtain ⟨rfl, midway⟩ := amid
  have tidy := midway.tidy track (List.mem_append_right _ List.mem_cons_self)
  exact ⟨(tidy.acts acts).setting, midway.acts acts⟩

theorem Amid.step (format : Format σ)
    (amid : sequence.Amid pass earlier later performer.player) :
    (format.step performer).Ensures fun (_, next) =>
      sequence.Amid pass earlier later next.player := by
  refine Format.step_ensures (sequence.Amid pass earlier later) ?_ ?_
    (fun memory player => Routine.orders_any _ player) amid
  · exact fun amid => amid.acts (.pace _ _)
  · exact fun amid _ (_, next) applied => amid.acts (.order applied)

theorem Amid.finish (amid : sequence.Amid pass earlier later performer.player) :
    performer.finish.Ensures fun last => sequence.Amid pass earlier later last.player :=
  Performer.finish_ensures (sequence.Amid pass earlier later)
    fun _ done => amid.acts (.finish done)

/-- Each move of a track leads from one state of a pass to another. -/
theorem Midway.walk (sequence : Sequence σ) (pass : Pass) (format : Format σ) :
    format.Keeps (sequence.setting pass) (fun own _ => own = sequence.setting pass)
      fun stage => sequence.Midway pass stage.tracks stage.shared where
  wakes := fun _ _ => rfl
  steps := by
    rintro earlier later performer ⟨same, midway⟩
    refine (Amid.step format ⟨same, midway⟩).mono ?_
    rintro ⟨more, next⟩ amid
    exact ⟨amid.setting, amid.midway⟩
  finishes := fun ⟨same, midway⟩ => (Amid.finish ⟨same, midway⟩).mono fun _ amid => amid.midway
  glides := by
    rintro earlier later player memory tick ⟨same, midway⟩
    have amid : sequence.Amid pass earlier later player := ⟨same, midway⟩
    exact (amid.acts (.glide tick)).midway
  waits := by
    rintro earlier later player memory delay ⟨same, midway⟩
    have amid : sequence.Amid pass earlier later player := ⟨same, midway⟩
    exact ⟨same, (amid.acts (.pace player.track.steps delay)).midway⟩
  leads := fun tick midway => midway.leads tick

/-- A pass comes from its start to its end by what can happen to its tracks. -/
theorem play_midway (sequence : Sequence σ) (pass : Pass) (format : Format σ) (limits : Limits) :
    ((sequence.openStage pass).play format (sequence.setting pass) limits).Ensures fun stage =>
      sequence.Midway pass stage.tracks stage.shared :=
  ((Midway.walk sequence pass format).play limits (fun _ _ => rfl) .opened).mono
    fun _ last => last.2

end Sequence
end Sequencer
