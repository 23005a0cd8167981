import Mathlib.Data.List.Nodup
import Sequencer.Proofs.Walk

/-! What a pass keeps of every track together with what all tracks share, the memory of the decoder
among it. A track that plays keeps it of itself and does not spoil it for the others, so that it
holds of all tracks throughout, whether they play one after another or tick by tick. -/
namespace Sequencer

variable {σ : Type} {keeps : Track → Shared → σ → Prop} {common : Shared → σ → Prop}

namespace Performer

/-- What is known of all and of the track of a performer. -/
structure Kept (keeps : Track → Shared → σ → Prop) (common : Shared → σ → Prop)
    (performer : Performer σ) : Prop where
  own : keeps performer.player.track performer.player.shared performer.memory
  all : common performer.player.shared performer.memory

/-- A track has played on. What is kept still holds of it, and of the others if it did before. -/
structure Spares (keeps : Track → Shared → σ → Prop) (common : Shared → σ → Prop)
    (before after : Performer σ) : Prop extends Kept keeps common after where
  setting : after.player.setting = before.player.setting
  index : after.player.track.index = before.player.track.index
  others : ∀ other : Track, other.index ≠ before.player.track.index →
    keeps other before.player.shared before.memory → keeps other after.player.shared after.memory

end Performer

/-- What is kept by every step of a track, by its end, and by the clock. -/
structure Concert (format : Format σ) (setting : Setting) (keeps : Track → Shared → σ → Prop)
    (common : Shared → σ → Prop) : Prop where
  steps : ∀ {performer : Performer σ}, performer.player.setting = setting →
    performer.Kept keeps common →
    (format.step performer).Ensures fun (_, next) => performer.Spares keeps common next
  finishes : ∀ {performer : Performer σ}, performer.player.setting = setting →
    performer.Kept keeps common → performer.finish.Ensures (performer.Spares keeps common)
  glides : ∀ {player : Player} {memory : σ} (tick : Nat), player.setting = setting →
    Performer.Kept keeps common ⟨player, memory⟩ →
    Performer.Spares keeps common ⟨player, memory⟩ ⟨player.moveDials tick, memory⟩
  waits : ∀ {track : Track} {shared : Shared} {memory : σ} (delay : Nat),
    keeps track shared memory →
    keeps { track with cursor := { track.cursor with delay } } shared memory
  leads : ∀ {track : Track} {shared : Shared} {memory : σ} (writing : Bool) (tick : Nat),
    keeps track shared memory → keeps track (Stage.moveMaster writing tick shared) memory
  leadsAll : ∀ {shared : Shared} {memory : σ} (writing : Bool) (tick : Nat),
    common shared memory → common (Stage.moveMaster writing tick shared) memory

/-- What is kept of all tracks of a stage. -/
structure Stage.Kept (keeps : Track → Shared → σ → Prop) (common : Shared → σ → Prop)
    (indices : List Nat) (stage : Stage σ) : Prop where
  indices : stage.tracks.map Track.index = indices
  each : ∀ track ∈ stage.tracks, keeps track stage.shared stage.memory
  all : common stage.shared stage.memory

namespace Stage.Kept

variable {indices : List Nat} {earlier later : List Track} {performer next : Performer σ}

theorem own (kept : (performer.amid earlier later).Kept keeps common indices) :
    performer.Kept keeps common :=
  ⟨kept.each _ (List.mem_append_right _ List.mem_cons_self), kept.all⟩

/-- The track that has played on does not spoil what is kept of those around it. -/
theorem replace (kept : (performer.amid earlier later).Kept keeps common indices)
    (distinct : indices.Nodup) (spares : performer.Spares keeps common next) :
    (next.amid earlier later).Kept keeps common indices := by
  obtain ⟨rfl, each, _⟩ := kept
  have apart := distinct
  simp only [Performer.amid, List.map_append, List.map_cons, List.nodup_middle,
    List.nodup_cons, List.mem_append, List.mem_map, not_or] at apart
  obtain ⟨⟨before, after⟩, _⟩ := apart
  obtain ⟨eachBefore, _, eachAfter⟩ := Performer.forall_amid.mp each
  refine ⟨?_, Performer.forall_amid.mpr ⟨?_, spares.own, ?_⟩, spares.all⟩
  · simp only [Performer.amid, List.map_append, List.map_cons, spares.index]
  · exact fun other member => spares.others other (fun same => before ⟨other, member, same⟩)
      (eachBefore other member)
  · exact fun other member => spares.others other (fun same => after ⟨other, member, same⟩)
      (eachAfter other member)

end Stage.Kept

namespace Concert

variable {format : Format σ} {setting : Setting} {stage : Stage σ} {indices : List Nat}
variable (concert : Concert format setting keeps common)
include concert

/-- Each move of a track keeps what is kept of all of them. -/
theorem walk (distinct : indices.Nodup) :
    format.Keeps setting (fun own _ => own = setting) (Stage.Kept keeps common indices) where
  wakes := fun _ _ => rfl
  steps := by
    rintro earlier later performer ⟨same, kept⟩
    refine (concert.steps same kept.own).mono ?_
    rintro ⟨more, next⟩ spares
    exact ⟨spares.setting.trans same, kept.replace distinct spares⟩
  finishes := fun ⟨same, kept⟩ => (concert.finishes same kept.own).mono
    fun _ spares => kept.replace distinct spares
  glides := fun tick ⟨same, kept⟩ => kept.replace distinct (concert.glides tick same kept.own)
  waits := by
    rintro earlier later player memory delay ⟨same, kept⟩
    exact ⟨same, kept.replace distinct
      ⟨⟨concert.waits delay kept.own.own, kept.all⟩, rfl, rfl, fun _ _ kept => kept⟩⟩
  leads := fun tick kept => ⟨kept.indices, fun track member =>
    concert.leads _ tick (kept.each track member), concert.leadsAll _ tick kept.all⟩

/-- What holds at the start of a pass holds at its end. -/
theorem play (limits : Limits) (distinct : indices.Nodup)
    (kept : stage.Kept keeps common indices) :
    (stage.play format setting limits).Ensures (Stage.Kept keeps common indices) :=
  ((concert.walk distinct).play limits (fun _ _ => rfl) kept).mono fun _ last => last.2

end Concert
end Sequencer
