import Sequencer.Proofs.InTurn.Player
import Sequencer.Proofs.RefSeq.Operands
import Sequencer.Proofs.Solo

/-! Runs without slides. A track that keeps time with others runs as it does in turn, and there is
just one way for a track to run in turn. -/
namespace Sequencer.Player

open RefSeq (longest)

variable {limits : Limits} {start player next last last' : Player} {visits visits' : List Visit}

theorem moveDial_of_still (still : player.track.dials.Still) (tick : Nat) (dial : Dial) :
    player.moveDial tick dial = player := by
  unfold moveDial
  dsimp only
  rw [still dial]

theorem moveDials_of_still (still : player.track.dials.Still) (tick : Nat) :
    player.moveDials tick = player := by
  rw [moveDials, moveDial_of_still still, moveDial_of_still still, moveDial_of_still still]

theorem MayStep.inTurn (may : player.MayStep limits) : player.inTurn.MayStep limits :=
  ⟨may.time, may.steps⟩

theorem punctual_of_alone (alone : start.setting.tickSync = false) (count : Nat) :
    start.Punctual count := by
  intro together
  rw [alone] at together
  cases together

theorem Runs.inTurn (fresh : start.Fresh) (countable : limits.Countable start.setting.loopRule)
    (still : start.track.dials.Still) (runs : Runs limits start visits player)
    (quiet : ∀ visit ∈ visits, visit.isSlide start.setting.source = false) :
    Runs limits start.inTurn visits player.inTurn ∧ player.track.dials.Still := by
  induction runs with
  | start => exact ⟨.start, still⟩
  | @step visits player next runs may punctual advanced ih =>
    obtain ⟨earlier, still⟩ := ih fun visit member => quiet visit (List.mem_append_left _ member)
    have plain := quiet player.track.visit (List.mem_append_right _ List.mem_cons_self)
    have traces := runs.traces fresh countable
    rw [← traces.setting] at plain
    have stepped : Runs limits start.inTurn (visits ++ [player.inTurn.track.visit]) next.inTurn :=
      .step earlier may.inTurn (punctual_of_alone rfl _) (advance_inTurn plain advanced)
    exact ⟨stepped, (traces.safe.advance_quiet plain advanced).dials still⟩
  | glide runs together tick early ih =>
    obtain ⟨earlier, still⟩ := ih quiet
    rw [moveDials_of_still still]
    exact ⟨earlier, still⟩

theorem Runs.time_lt (fresh : start.Fresh) (bounded : limits.maxSteps ≤ 65536)
    (runs : Runs limits start visits player) : player.track.time < Tick.last := by
  have countable : limits.Countable start.setting.loopRule :=
    .inl (Nat.le_trans bounded (by decide))
  have bound := Position.after_tick_le (runs.traces fresh countable).reached
  have short := (runs.within fresh countable).1
  have atStart := fresh.time
  change player.track.time ≤ start.track.time + longest * visits.length at bound
  unfold longest at bound
  unfold Tick.last
  omega

theorem Ends.inTurn (fresh : start.Fresh) (bounded : limits.maxSteps ≤ 65536)
    (still : start.track.dials.Still) (ends : Ends limits start visits last)
    (quiet : ∀ visit ∈ visits, visit.isSlide start.setting.source = false) :
    Ends limits start.inTurn visits last.inTurn := by
  have countable : limits.Countable start.setting.loopRule :=
    .inl (Nat.le_trans bounded (by decide))
  have finishes {player last : Player} (finished : player.finish = .ok last) :
      player.inTurn.finish = .ok last.inTurn := by
    rw [finish_inTurn, finished]
    rfl
  cases ends with
  | @refused visits player _ _ runs may punctual advanced finished =>
    obtain ⟨earlier, _⟩ := runs.inTurn fresh countable still fun visit member =>
      quiet visit (List.mem_append_left _ member)
    have plain := quiet player.track.visit (List.mem_append_right _ List.mem_cons_self)
    rw [← (runs.traces fresh countable).setting] at plain
    have refused : Ends limits start.inTurn (visits ++ [player.inTurn.track.visit]) last.inTurn :=
      .refused earlier may.inTurn (punctual_of_alone rfl _) (advance_inTurn plain advanced)
        (finishes finished)
    exact refused
  | stopped runs stopped finished =>
    obtain ⟨earlier, _⟩ := runs.inTurn fresh countable still quiet
    refine .stopped earlier (.inl ?_) (finishes finished)
    rcases stopped with cannot | late
    · exact fun may => cannot ⟨may.time, may.steps⟩
    · refine (late fun _ => Nat.le_of_not_lt fun beyond => ?_).elim
      have early := runs.time_lt fresh bounded
      rw [(runs.traces fresh countable).time fresh] at early
      omega

variable {player' : Player}

theorem Runs.unique (fresh : start.Fresh) (countable : limits.Countable start.setting.loopRule)
    (alone : start.setting.tickSync = false) (runs : Runs limits start visits player)
    (runs' : Runs limits start visits' player') (same : visits.length = visits'.length) :
    visits = visits' ∧ player = player' := by
  have apart {visits : List Visit} {player : Player} (runs : Runs limits start visits player)
      (together : player.setting.tickSync = true) : False := by
    rw [(runs.traces fresh countable).setting, alone] at together
    cases together
  induction runs generalizing visits' player' with
  | start =>
    cases runs' with
    | start => exact ⟨rfl, rfl⟩
    | step runs may punctual advanced => simp at same
    | glide runs together tick early => exact (apart runs together).elim
  | step runs may punctual advanced ih =>
    cases runs' with
    | start => simp at same
    | step runs' may' punctual' advanced' =>
      obtain ⟨rfl, rfl⟩ := ih runs' (by simpa using same)
      cases advanced.symm.trans advanced'
      exact ⟨rfl, rfl⟩
    | glide runs together tick early => exact (apart runs together).elim
  | glide runs together tick early ih => exact (apart runs together).elim

theorem Runs.further (fresh : start.Fresh) (countable : limits.Countable start.setting.loopRule)
    (alone : start.setting.tickSync = false) (runs : Runs limits start visits player)
    (runs' : Runs limits start visits' player') (longer : visits.length < visits'.length) :
    player.MayStep limits ∧ ∃ next, player.advance = .ok (true, next) := by
  induction runs' with
  | start => simp at longer
  | @step visits' player' next runs' may punctual advanced ih =>
    rw [List.length_append, List.length_singleton] at longer
    rcases Nat.lt_or_eq_of_le (Nat.le_of_lt_succ longer) with shorter | same
    · exact ih shorter
    · obtain ⟨rfl, rfl⟩ := runs.unique fresh countable alone runs' same
      exact ⟨may, next, advanced⟩
  | glide runs' together tick early ih => exact ih longer

theorem Ends.cases_alone (alone : start.setting.tickSync = false)
    (ends : Ends limits start visits last) :
    ∃ earlier player, Runs limits start earlier player ∧
      ((player.MayStep limits ∧ visits = earlier ++ [player.track.visit] ∧
        ∃ next, player.advance = .ok (false, next) ∧ next.finish = .ok last) ∨
      (¬ player.MayStep limits ∧ visits = earlier ∧ player.finish = .ok last)) := by
  cases ends with
  | refused runs may punctual advanced finished =>
    exact ⟨_, _, runs, .inl ⟨may, rfl, _, advanced, finished⟩⟩
  | stopped runs stopped finished =>
    refine ⟨_, _, runs, .inr ⟨?_, rfl, finished⟩⟩
    exact stopped.resolve_right fun late => late (punctual_of_alone alone _)

/-- A track that plays in turn has one end. -/
theorem Ends.unique (fresh : start.Fresh) (countable : limits.Countable start.setting.loopRule)
    (alone : start.setting.tickSync = false) (ends : Ends limits start visits last)
    (ends' : Ends limits start visits' last') : visits = visits' ∧ last = last' := by
  obtain ⟨earlier, player, runs, how⟩ := ends.cases_alone alone
  obtain ⟨earlier', player', runs', how'⟩ := ends'.cases_alone alone
  -- Where one run ends the other one cannot go on.
  have stuck {player : Player} {visits : List Visit} {last : Player} {earlier : List Visit}
      (how : (player.MayStep limits ∧ visits = earlier ++ [player.track.visit] ∧
        ∃ next, player.advance = .ok (false, next) ∧ next.finish = .ok last) ∨
      (¬ player.MayStep limits ∧ visits = earlier ∧ player.finish = .ok last))
      (goes : player.MayStep limits ∧ ∃ next, player.advance = .ok (true, next)) : False := by
    obtain ⟨may, next, advanced⟩ := goes
    rcases how with ⟨_, _, _, refused, _⟩ | ⟨cannot, _⟩
    · cases refused.symm.trans advanced
    · exact cannot may
  have same : earlier.length = earlier'.length := by
    rcases Nat.lt_trichotomy earlier.length earlier'.length with shorter | same | longer
    · exact (stuck how (runs.further fresh countable alone runs' shorter)).elim
    · exact same
    · exact (stuck how' (runs'.further fresh countable alone runs longer)).elim
  obtain ⟨rfl, rfl⟩ := runs.unique fresh countable alone runs' same
  rcases how with ⟨may, rfl, next, advanced, finished⟩ | ⟨cannot, rfl, finished⟩
  · rcases how' with ⟨_, rfl, next', advanced', finished'⟩ | ⟨cannot, _⟩
    · cases advanced.symm.trans advanced'
      cases finished.symm.trans finished'
      exact ⟨rfl, rfl⟩
    · exact (cannot may).elim
  · rcases how' with ⟨may, _⟩ | ⟨_, rfl, finished'⟩
    · exact (cannot may).elim
    · cases finished.symm.trans finished'
      exact ⟨rfl, rfl⟩

end Sequencer.Player
