import Sequencer.Proofs.Player.Sound
import Sequencer.Proofs.Score.Player

/-! The score of a player that performs an instruction. Only an instruction that starts a note adds
to the entries that the score is about. -/
namespace Sequencer.Player

variable {known : List Nat} {player next : Player} {labelled : Labelled} {index : Nat}

/-- The score is about the sound, and messages that belong to no note leave it as it is. -/
theorem aboutSound_notated (known : List Nat) :
    AboutSound (fun message => message.isNote = false) (Notated known) where
  same := fun ⟨labelled, scored⟩ sound => ⟨labelled, scored.plain sound.setting sound.channel
    (Nat.le_of_eq sound.time.symm) sound.sheet sound.openNotes sound.timedNotes⟩
  emit := fun ⟨_, scored⟩ tick message other => scored.emit tick message other none

theorem Scored.moveDials (scored : player.Scored known labelled) (tick : Nat) :
    (player.moveDials tick).Notated known :=
  (aboutSound_notated known).messages.moveDials ⟨labelled, scored⟩ tick fun _ _ _ => rfl

theorem Scored.wait (scored : player.Scored known labelled) (within : player.track.time ≤ Tick.last)
    (ticks : Nat) : (player.wait ticks).Scored known labelled :=
  scored.plain rfl rfl (Tick.le_later within ticks) rfl rfl rfl

theorem notated_of_goOn {x : Except Fault Player} {more : Bool}
    (yields : x.Yields (Notated known)) (done : (x >>= goOn) = .ok (more, next)) :
    next.Notated known := by
  obtain ⟨found, rfl, notated⟩ := yields
  cases done
  exact notated

/-- The entries that are known after an instruction with an entry of its own. -/
def knownAfter (known : List Nat) (index : Nat) (kind : EventKind) : List Nat :=
  if kind.startsNote then known ++ [index] else known

theorem Scored.perform (scored : player.Scored known labelled) {kind : EventKind} {more : Bool}
    {entry : Entry} (unknown : index ∉ known)
    (found : player.shared.timeline.entries[index]? = some entry)
    (start : entry.start = player.track.time) (lasts : entry.duration = kind.duration)
    (within : player.track.time + kind.duration ≤ Tick.last)
    (done : player.perform kind (some index) = .ok (more, next)) :
    next.Notated (knownAfter known index kind) := by
  have early : player.track.time ≤ Tick.last := Nat.le_trans (Nat.le_add_right ..) within
  have goes {last : Player} (notated : last.Notated known)
      (done : last.goOn = .ok (more, next)) : next.Notated known := by
    cases done
    exact notated
  cases kind with
  | noteOn key velocity =>
    exact notated_of_goOn (scored.startNote key velocity unknown found start) done
  | noteOff key => exact notated_of_goOn (scored.endNote key) done
  | note key velocity duration =>
    exact notated_of_goOn (scored.startTimedNote key velocity unknown found start lasts within) done
  | rest ticks => exact goes ⟨labelled, scored.wait early ticks⟩ done
  | hold ticks =>
    obtain ⟨held, extended, done⟩ := Except.bind_eq_ok.mp done
    obtain ⟨_, same, ⟨labelled', scored'⟩, time⟩ :=
      scored.extendNotes (Tick.later player.track.time ticks)
    cases same.symm.trans extended
    exact goes ⟨labelled', scored'.wait (time ▸ early) ticks⟩ done
  | _ =>
    exact (aboutSound_notated known).messages.perform ⟨labelled, scored⟩ rfl
      (EventKind.writesOnly_others _) (EventKind.conductsOnly_any _) done

end Sequencer.Player
