import Sequencer.Proofs.Among.Home
import Sequencer.Proofs.Solo

/-! The stints of a track in a pass over many tracks. In a stint a track does among the others what
it does on its own: played through, it comes to its end; played up to a tick of the common
clock, it goes on until it has to wait. -/
namespace Sequencer

open RefSeq (format)

abbrev LoggedPerformer := Performer (Unit × List Visit)

/-- The player plays the track that it started with. -/
structure Player.Continues (start solo : Player) : Prop where
  setting : solo.setting = start.setting
  index : solo.track.index = start.track.index

/-- What a stint of the track has come to. Its visits since `visits` and since the log was `log`
are the same, it is at home, and of the other tracks nothing has changed since the stint began.
-/
def Stint (holds : List Visit → Player → Track → Prop) (each : Visit → Prop) (start : Player)
    (visits log : List Visit) (shared : Shared) (result : LoggedPerformer) : Prop :=
  ∃ new solo, result.memory.2 = log ++ new ∧ holds (visits ++ new) solo result.player.track ∧
    (∀ visit ∈ new, each visit) ∧ start.Continues solo ∧ solo.Home result.player ∧
    Shared.Plays start.setting start.track.index new shared result.player.shared

namespace Stint

variable {holds weak : List Visit → Player → Track → Prop} {each : Visit → Prop}
  {start : Player} {visits log new : List Visit} {shared middle : Shared}
  {result : LoggedPerformer}

theorem mono (stint : Stint holds each start visits log shared result)
    (imply : ∀ visits solo track, holds visits solo track → weak visits solo track) :
    Stint weak each start visits log shared result := by
  obtain ⟨new, solo, logged, held, rest⟩ := stint
  exact ⟨new, solo, logged, imply _ _ _ held, rest⟩

theorem after
    (plays : Shared.Plays start.setting start.track.index new shared middle)
    (all : ∀ visit ∈ new, each visit)
    (stint : Stint holds each start (visits ++ new) (log ++ new) middle result) :
    Stint holds each start visits log shared result := by
  obtain ⟨later, solo, logged, held, others, continues, home, further⟩ := stint
  refine ⟨new ++ later, solo, ?_, ?_, ?_, continues, home, plays.trans further⟩
  · rw [logged, List.append_assoc]
  · rw [← List.append_assoc]
    exact held
  · intro visit member
    exact (List.mem_append.mp member).elim (all visit) (others visit)

end Stint

namespace Player

variable {limits : Limits} {start solo real : Player} {visits log : List Visit}

/-- What is known of a track while it is played. -/
structure Underway (limits : Limits) (start : Player) (visits : List Visit) (solo : Player) :
    Prop where
  runs : Runs limits start visits solo
  fresh : start.Fresh
  countable : limits.Countable start.setting.loopRule

theorem Underway.traces (underway : Underway limits start visits solo) :
    start.Traces visits solo := underway.runs.traces underway.fresh underway.countable

theorem Traces.continues (traces : start.Traces visits solo) : start.Continues solo :=
  ⟨traces.setting, index_of_identity traces.identity⟩

theorem Home.time (home : Home solo real) : real.track.time = solo.track.time :=
  Mirrors.time home

theorem timeIsUp_of_home (home : Home solo real) (stopTime : Nat) :
    real.track.timeIsUp stopTime = solo.track.timeIsUp stopTime := by
  unfold Track.timeIsUp
  rw [home.time]

theorem Home.steps (home : Home solo real) : real.track.steps = solo.track.steps := by
  obtain ⟨delay, same⟩ := home.real_eq
  rw [same]
  rfl

theorem Home.active (home : Home solo real) (underway : Underway limits start visits solo) :
    real.track.active = true := by
  obtain ⟨delay, same⟩ := home.real_eq
  rw [same]
  exact (active_of_identity underway.traces.identity).trans underway.fresh.active

theorem Home.isDue (home : Home solo real) (underway : Underway limits start visits solo) :
    real.track.isDue = decide (real.track.cursor.delay = 0) := by
  rw [Track.isDue, home.active underway, Bool.true_and]

theorem Home.mayStep (home : Home solo real) (early : ¬ real.track.timeIsUp limits.stopTime = true)
    (left : solo.track.steps < limits.maxSteps) : solo.MayStep limits := by
  refine ⟨?_, left⟩
  rw [← timeIsUp_of_home home]
  exact Bool.eq_false_iff.mpr early

theorem Home.timeUp (home : Home solo real) (up : real.track.timeIsUp limits.stopTime = true) :
    ¬ solo.MayStep limits := by
  intro may
  rw [timeIsUp_of_home home, may.time] at up
  cases up

theorem Home.visit_offset (home : Home solo real) :
    real.track.cursor.offset = solo.track.cursor.offset :=
  congrArg Visit.offset home.visit

theorem Underway.next (underway : Underway limits start visits solo) (may : solo.MayStep limits)
    (punctual : start.Punctual visits.length) (advanced : solo.advance = .ok (true, solo')) :
    Underway limits start (visits ++ [solo.track.visit]) solo' :=
  ⟨.step underway.runs may punctual advanced, underway.fresh, underway.countable⟩

/-- One instruction of the track, in a format that logs. -/
theorem Underway.step (underway : Underway limits start visits solo) (home : Home solo real)
    (resolved : real.shared.Resolved) (may : solo.MayStep limits) (log : List Visit) :
    ∃ more solo' real', solo.advance = .ok (more, solo') ∧ Home solo' real' ∧ solo'.Safe ∧
      solo'.track.steps = solo.track.steps + 1 ∧ start.Continues solo' ∧
      (real.track.cursor.delay = 0 → start.dueAfter (visits.length + 1) =
        start.dueAfter visits.length + real'.track.cursor.delay) ∧
      format.logged.step ⟨real, ((), log)⟩ =
        .ok (more, ⟨real', ((), log ++ [solo.track.visit])⟩) ∧
      Shared.Plays start.setting start.track.index [solo.track.visit] real.shared
        real'.shared := by
  have traces := underway.traces
  have counts := traces.counts underway.countable may
  obtain ⟨⟨more, solo'⟩, advanced, advances, safe⟩ := traces.safe.advance_yields counts
  obtain ⟨⟨more', real'⟩, advanced', same, home', delay, plays⟩ :=
    home.advance traces.safe counts resolved _ advanced
  cases same
  have continues : start.Continues solo' := ⟨advances.setting.trans traces.setting,
    index_of_identity (advances.identity.trans traces.identity)⟩
  rw [traces.setting, index_of_identity traces.identity] at plays
  refine ⟨more, solo', real', advanced, home', safe, advances.steps, continues, ?_,
    ?_, plays⟩
  · intro due
    rw [due, home.setting, home.visit_offset, traces.setting] at delay
    rw [delay]
    exact Position.due_succ traces.reached
  · rw [RefSeq.logged_step, advanced', ← home.visit]
    rfl

/-- The track has ended, also among the others. -/
def Closed (limits : Limits) (start : Player) (visits : List Visit) (solo : Player)
    (track : Track) : Prop :=
  Ends limits start visits solo ∧ track.active = false

theorem Home.finish_stint (home : Home solo real) (safe : solo.Safe)
    (continues : start.Continues solo) (each : Visit → Prop) (visits log : List Visit)
    (ends : ∀ last, solo.finish = .ok last → Ends limits start visits last) :
    (Performer.finish ⟨real, ((), log)⟩).Yields
      (Stint (Closed limits start) each start visits log real.shared) := by
  obtain ⟨last, finished, setting, outline, _⟩ := safe.finish_yields
  obtain ⟨last', finished', home', plays⟩ :=
    home.finish safe start.setting last finished
  rw [continues.index] at plays
  have index : last.track.index = solo.track.index := by
    have same := congrArg Track.index outline
    exact same
  refine ⟨⟨last', ((), log)⟩, by rw [Performer.finish, finished']; rfl, [], last, by simp, ?_,
    fun _ member => absurd member List.not_mem_nil,
    ⟨setting.trans continues.setting, index.trans continues.index⟩, home', plays⟩
  rw [List.append_nil]
  refine ⟨ends last finished, ?_⟩
  obtain ⟨done, ended, _, outline, _⟩ := (Mirrors.safe home safe).finish_yields
  cases ended.symm.trans finished'
  have inactive := congrArg Track.active outline
  exact inactive

end Player

namespace Format

open Player

variable {limits : Limits} {start solo real : Player} {visits log : List Visit}

/-- A track that is played through comes to its end. -/
theorem playThrough_stint {budget : Nat} (underway : Underway limits start visits solo)
    (home : Home solo real) (resolved : real.shared.Resolved)
    (alone : start.setting.tickSync = false) (left : limits.maxSteps - solo.track.steps = budget) :
    (format.logged.playThrough limits.stopTime budget ⟨real, ((), log)⟩).Yields
      (Stint (Closed limits start) (fun _ => True) start visits log real.shared) := by
  have punctual (count : Nat) : start.Punctual count := by
    intro together
    rw [alone] at together
    cases together
  induction budget generalizing visits solo real log with
  | zero =>
    have traces := underway.traces
    refine home.finish_stint traces.safe traces.continues _ visits log fun last finished => ?_
    refine .stopped underway.runs (.inl fun may => ?_) finished
    have steps := may.steps
    omega
  | succ budget ih =>
    rw [playThrough]
    split
    · rename_i up
      have traces := underway.traces
      refine home.finish_stint traces.safe traces.continues _ visits log fun last finished => ?_
      exact .stopped underway.runs (.inl (home.timeUp up)) finished
    · rename_i early
      have may : solo.MayStep limits := home.mayStep early (by omega)
      obtain ⟨more, solo', real', advanced, home', safe, steps, continues, _, stepped,
        plays⟩ :=
        underway.step home resolved may log
      rw [stepped]
      cases more with
      | true =>
        have further := underway.next may (punctual _) advanced
        exact (ih further (home'.delay 0) (plays.resolved resolved) (by omega)).mono fun _ stint =>
          stint.after plays fun _ _ => trivial
      | false =>
        have ended := home'.finish_stint safe continues (fun _ => True)
          (visits ++ [solo.track.visit]) (log ++ [solo.track.visit]) fun last finished =>
            Ends.refused underway.runs may (punctual _) advanced finished
        exact ended.mono fun _ stint => stint.after plays fun _ _ => trivial

/-- A track is in time with the shared clock: its delay goes on to when its next instruction is
due. -/
def InTime (start : Player) (tick : Nat) (visits : List Visit) (track : Track) : Prop :=
  start.dueAfter visits.length = tick + track.cursor.delay

/-- A track that plays with the clock has either ended, or it waits for a later tick. -/
def Waits (limits : Limits) (start : Player) (tick : Nat) (visits : List Visit)
    (solo : Player) (track : Track) : Prop :=
  Underway limits start visits solo ∧ InTime start tick visits track ∧ track.cursor.delay ≠ 0 ∨
    Closed limits start visits solo track

/-- A stint of a track up to a tick of the common clock. -/
abbrev TickStint (limits : Limits) (start : Player) (tick : Nat) (visits log : List Visit)
    (shared : Shared) : LoggedPerformer → Prop :=
  Stint (Waits limits start tick) (fun visit => visit.tick = tick) start visits log shared

theorem idle_stint {tick : Nat} (underway : Underway limits start visits solo)
    (home : Home solo real) (inTime : InTime start tick visits real.track)
    (waiting : ¬ real.track.isDue = true) (log : List Visit) :
    TickStint limits start tick visits log real.shared ⟨real, ((), log)⟩ := by
  rw [home.isDue underway, decide_eq_true_eq] at waiting
  refine ⟨[], solo, by simp, ?_, fun _ member => absurd member List.not_mem_nil,
    underway.traces.continues, home, .refl _ _ _⟩
  rw [List.append_nil]
  exact .inl ⟨underway, inTime, waiting⟩

theorem last_stint (home : Home solo real) (safe : solo.Safe)
    (continues : start.Continues solo) (tick : Nat) (log : List Visit)
    (ends : ∀ last, solo.finish = .ok last → Ends limits start visits last) :
    (Performer.finish ⟨real, ((), log)⟩).Yields
      (TickStint limits start tick visits log real.shared) :=
  (home.finish_stint safe continues _ visits log ends).mono fun _ stint =>
    stint.mono fun _ _ _ closed => .inr closed

/-- A track that is played up to a tick decodes its instructions at that tick. -/
theorem playDue_stint {budget tick : Nat} (within : tick ≤ Tick.last)
    (underway : Underway limits start visits solo) (home : Home solo real)
    (resolved : real.shared.Resolved) (inTime : InTime start tick visits real.track)
    (left : limits.maxSteps - solo.track.steps = budget) :
    (format.logged.playDue limits.stopTime budget ⟨real, ((), log)⟩).Yields
      (TickStint limits start tick visits log real.shared) := by
  induction budget generalizing visits solo real log with
  | zero =>
    have traces := underway.traces
    rw [playDue]
    split
    · refine last_stint home traces.safe traces.continues tick log
        fun last finished => .stopped underway.runs (.inl fun may => ?_) finished
      have steps := may.steps
      omega
    · rename_i waiting
      exact Except.yields_ok (idle_stint underway home inTime waiting log)
  | succ budget ih =>
    have traces := underway.traces
    rw [playDue]
    split
    · rename_i due
      split
      · rename_i up
        exact last_stint home traces.safe traces.continues tick log
          fun last finished => .stopped underway.runs (.inl (home.timeUp up)) finished
      · rename_i early
        have may : solo.MayStep limits := home.mayStep early (by omega)
        rw [home.isDue underway, decide_eq_true_eq] at due
        have dueNow : start.dueAfter visits.length = tick := by
          rw [inTime, due, Nat.add_zero]
        have punctual : start.Punctual visits.length := fun _ => dueNow ▸ within
        -- What is due now is decoded now.
        have now : ∀ visit ∈ [solo.track.visit], visit.tick = tick := by
          intro visit member
          cases List.mem_singleton.mp member
          change solo.track.time = tick
          rw [traces.time underway.fresh, dueNow]
          exact Nat.min_eq_left within
        obtain ⟨more, solo', real', advanced, home', safe, steps, continues, waits,
          stepped, plays⟩ := underway.step home resolved may log
        rw [stepped]
        cases more with
        | true =>
          have further := underway.next may punctual advanced
          have inTime' : InTime start tick (visits ++ [solo.track.visit]) real'.track := by
            rw [InTime, List.length_append, List.length_singleton, waits due, dueNow]
          exact (ih further home' (plays.resolved resolved) inTime' (by omega)).mono
            fun _ stint => stint.after plays now
        | false =>
          have ended := last_stint home' safe continues tick (log ++ [solo.track.visit])
            fun last finished => Ends.refused underway.runs may punctual advanced finished
          exact ended.mono fun _ stint => stint.after plays now
    · rename_i waiting
      exact Except.yields_ok (idle_stint underway home inTime waiting log)

end Format
end Sequencer
