import VirtualBoard.Proofs.Burst
import VirtualBoard.Proofs.Controller.Cycles

/-! Whether a frame makes its session go on.

A frame reads the clock when its burst begins and once more before the first step.
The burst makes a step if less time than its budget passes between these two
readings, and none otherwise: a clock that only never goes back may leap. -/
namespace VirtualBoard
open Rig

variable {ω μ : Type}

theorem Settings.stepsPositive {settings : Settings} (usable : settings.problem? = none) :
    0 < settings.budget.maxSteps.toNat :=
  Nat.pos_of_ne_zero fun none =>
    ((problemNone settings).mp usable).maxSteps (UInt32.toNat_inj.mp none)

namespace Controller

variable {settings : Settings} {c : Controller ω μ}

/- A live session has the budget of the settings. -/
structure Budgeted (settings : Settings) (c : Controller ω μ) : Prop where
  same : c.settings = settings
  budget : ∀ s, c.phase.session? = some s → s.scheduler.budget = settings.budget

theorem Budgeted.rested {d : Controller ω μ} (budgeted : Budgeted settings c) (rests : Rests c d) :
    Budgeted settings d :=
  ⟨rests.settings.trans budgeted.same, fun s live => budgeted.budget s (rests.live s live)⟩

theorem loadBudgeted (budgeted : Budgeted settings c) (env : Surroundings ω μ) (outcome : Outcome) :
    Budgeted settings (c.load env outcome) := by
  rcases loadRun env c outcome with
    ⟨failure, rig, loaded, -⟩ | ⟨text, image, model, rig, -, -, -, loaded⟩
  · rw [loaded]
    exact ⟨budgeted.same, fun s live => by cases live⟩
  · rw [loaded, launchRun]
    refine ⟨budgeted.same, fun s live => ?_⟩
    cases live
    exact congrArg Settings.budget budgeted.same

theorem startBudgeted (budgeted : Budgeted settings c) (source : String) :
    Budgeted settings (c.start source).2 := by
  unfold start
  cases phase : c.phase with
  | idle | stopped => exact ⟨budgeted.same, fun s live => by cases live⟩
  | _ => exact budgeted.rested (.inRig c _)

theorem budgetedPassage (settings : Settings) (env : Surroundings ω μ) :
    Passage env fun c d => Budgeted settings c → Budgeted settings d where
  trans early late budgeted := late (early budgeted)
  record c _ _ budgeted := budgeted.rested (.inRig c _)
  start _ source budgeted := startBudgeted budgeted source
  stop c budgeted := budgeted.rested (stopRests env c)
  reset c budgeted := budgeted.rested (resetRests env c)
  load _ outcome budgeted := loadBudgeted budgeted env outcome

theorem frameBudgeted (orderly : Orderly settings c) (budgeted : Budgeted settings c)
    (env : Surroundings ω μ) (token : BurstToken) : Budgeted settings (c.frame env token).2 := by
  by_cases waited : c.queued? = some token
  · obtain ⟨session, snapshot, phase, pending⟩ := queuedRunning waited
    have budget := budgeted.budget session (by rw [phase]; rfl)
    rcases frameRun env c phase (orderly.lives phase).going pending with
      ⟨fault, -, after⟩ | ⟨now, latest, rig, -, after, -⟩
    · rw [after]
      exact ⟨budgeted.same, fun s live => by cases live⟩
    · rw [after]
      refine ⟨budgeted.same, fun s live => ?_⟩
      cases live
      exact budget
  · obtain ⟨severity, text, after⟩ := frameStale env c waited
    rw [after]
    exact budgeted.rested (.inRig c _)

theorem performBudgeted (orderly : Orderly settings c) (budgeted : Budgeted settings c)
    (env : Surroundings ω μ) (command : Command ω) :
    Budgeted settings (c.perform env command).2 := by
  have passage := budgetedPassage settings env
  cases command with
  | start source => exact startBudgeted budgeted source
  | complete ticket outcome => exact passage.complete c ticket outcome budgeted
  | startWith source compiler =>
    exact passage.startWith (fun {d _ _} _ _ budgeted => budgeted.rested (.inRig d _)) c source
      budgeted
  | stop => exact budgeted.rested (stopRests env c)
  | reset => exact budgeted.rested (resetRests env c)
  | frame token => exact frameBudgeted orderly budgeted env token
  | outside act => exact budgeted.rested (.inRig c _)

theorem runBudgeted (orderly : Orderly settings c) (budgeted : Budgeted settings c)
    (env : Surroundings ω μ) (commands : List (Command ω)) :
    Budgeted settings (c.run env commands).2 := by
  induction commands generalizing c with
  | nil => exact budgeted
  | cons command rest ih =>
    exact ih (performOrderly orderly env command) (performBudgeted orderly budgeted env command)

theorem frameNotes (env : Surroundings ω μ) {token : BurstToken} {session : Session μ}
    {snapshot : Option Snapshot} (phase : c.phase = .running session snapshot)
    (live : session.scheduler.cancelled = false)
    (pending : session.scheduler.pending = some token)
    (fine : ∀ failure, (c.frame env token).1 ≠ .faulted failure) :
    let ran := session.spent.burst env.noted.clock env.noted.cpu c.withNotes.rig
    ran.1.2.exit.fault? = none ∧
    (c.frame env token).2.phase.cycles = c.phase.cycles + ran.1.2.steps ∧
    ∃ last next, c.calls env (.frame token) =
      ran.2.world.calls ++ [.clock last, .requested next] := by
  intro ran
  have same := notedFrame env c token
  rcases frameSteps env.noted c.withNotes phase live pending with
    ⟨fault, -, after⟩ | ⟨rig, exit, after, left⟩
  · rw [after] at same
    exact absurd (congrArg Prod.fst same) (fine _)
  · have world : rig.world = (ask env.noted.clock ran.2).2.world := by
      rcases left with rfl | ⟨text, rfl⟩ <;> rfl
    refine ⟨exit, ?_, (ask env.noted.clock ran.2).1, ⟨c.tokens.issued + 1⟩, ?_⟩
    · rw [same, after, phase]
      exact (Session.keptQueued _ _ _ _).2
    · show (c.withNotes.frame env.noted token).2.rig.world.calls = _
      rw [after]
      have asked := Burst.askCalls (fun _ => .requested ⟨c.tokens.issued + 1⟩)
        (env.host.request ⟨c.tokens.issued + 1⟩) rig
      rw [world, Burst.clockCalls, List.append_assoc] at asked
      exact asked

theorem frameBegins (room : 0 < settings.budget.maxSteps.toNat) (orderly : Orderly settings c)
    (budgeted : Budgeted settings c) (env : Surroundings ω μ) {token : BurstToken}
    (waited : c.queued? = some token) (fine : ∀ failure, (c.frame env token).1 ≠ .faulted failure) :
    ∃ first second rest, c.calls env (.frame token) = .clock first :: .clock second :: rest ∧
      (second - first < settings.budget.wallClock →
        c.phase.cycles < (c.frame env token).2.phase.cycles) ∧
      (settings.budget.wallClock ≤ second - first →
        (c.frame env token).2.phase.cycles = c.phase.cycles) := by
  obtain ⟨session, snapshot, phase, pending⟩ := queuedRunning waited
  obtain ⟨exit, cycles, last, next, calls⟩ :=
    frameNotes env phase (orderly.lives phase).going pending fine
  obtain ⟨ended, stopped, ran, -, noted⟩ := Burst.sessionNotes env session.spent c.withNotes.rig
  have budget : session.spent.scheduler.budget = settings.budget :=
    budgeted.budget session (by rw [phase]; rfl)
  rw [budget] at ran
  obtain ⟨⟨rest, opens⟩, moves⟩ := ran.begins room exit
  rw [noted, Burst.burstCalls, ← List.append_assoc, opens] at calls
  refine ⟨_, _, _, calls, fun early => ?_, fun late => ?_⟩
  · have more := moves.mpr (Nat.not_le_of_lt early)
    omega
  · have none := mt moves.mp (not_not_intro late)
    omega

/- In any run with usable settings, a frame that does not fault makes its session go on if its clock
advances by less than the budget from its first reading to its second, and leaves it where it was
otherwise. -/
theorem frameAdvances (env : Surroundings ω μ) {settings : Settings}
    (usable : settings.problem? = none) (world : ω) :
    ∃ fresh : Controller ω μ, new settings world = .ok fresh ∧ ∀ commands token,
      let c := (fresh.run env commands).2
      let after := (c.frame env token).2
      c.queued? = some token → (∀ failure, (c.frame env token).1 ≠ .faulted failure) →
      ∃ first second rest, c.calls env (.frame token) = .clock first :: .clock second :: rest ∧
        (second - first < settings.budget.wallClock → c.phase.cycles < after.phase.cycles) ∧
        (settings.budget.wallClock ≤ second - first → after.phase.cycles = c.phase.cycles) := by
  obtain ⟨fresh, made⟩ := newUsable (μ := μ) usable world
  refine ⟨fresh, made, fun commands token => ?_⟩
  intro c after waited fine
  have orderly := (newOrderly made).1
  have budgeted : Budgeted settings fresh :=
    ⟨orderly.same, fun s live => by rw [newIdle made] at live; cases live⟩
  exact frameBegins (Settings.stepsPositive usable) (runOrderly orderly env commands)
    (runBudgeted orderly budgeted env commands) env waited fine

end Controller

def Blink.leaping (leap : Duration) : Surroundings Duration Blink :=
  {Blink.surroundings .zero with clock := fun now => ⟨now, now + leap, []⟩}

namespace Controller

theorem leapAdvances : ∃ fresh : Controller Duration Blink,
    new (Blink.settings 2) .zero = .ok fresh ∧
      let env := Blink.leaping (.ofMillis 8)
      let c := (fresh.run env [Blink.begin]).2
      ∃ first second rest, c.calls env (.frame ⟨1⟩) = .clock first :: .clock second :: rest ∧
        second - first < (Blink.settings 2).budget.wallClock ∧
        c.phase.cycles < (c.frame env ⟨1⟩).2.phase.cycles := by
  let env := Blink.leaping (.ofMillis 8)
  obtain ⟨fresh, made, all⟩ := frameAdvances env
    (show (Blink.settings 2).problem? = none by decide) .zero
  have known : (new (Blink.settings 2) .zero).toOption.map (fun fresh : Controller Duration Blink =>
      let c := (fresh.run env [Blink.begin]).2
      (c.queued?, (c.frame env ⟨1⟩).1, (readings (c.calls env (.frame ⟨1⟩))).take 2)) =
        some (some ⟨1⟩, .next ⟨2⟩, [.ofMillis 8, .ofMillis 16]) := by decide +kernel
  rw [made] at known
  simp only [Except.toOption, Option.map_some, Option.some.injEq, Prod.mk.injEq] at known
  obtain ⟨waits, answer, read⟩ := known
  have fine : ∀ failure, ((fresh.run env [Blink.begin]).2.frame env ⟨1⟩).1 ≠ .faulted failure := by
    intro failure faulted
    cases answer.symm.trans faulted
  obtain ⟨first, second, rest, calls, moves, -⟩ := all [Blink.begin] ⟨1⟩ waits fine
  rw [calls] at read
  simp only [readings, List.filterMap_cons, Call.reading?, List.take] at read
  cases read
  exact ⟨fresh, made, _, _, rest, calls, by decide, moves (by decide)⟩

/- A clock that never goes back is not enough for a step: with leaps as long as the budget, a frame
that does not fault makes none. -/
theorem leapStays : ¬ ∀ (env : Surroundings Duration Blink) (settings : Settings) (world : Duration)
    (fresh : Controller Duration Blink) (commands : List (Command Duration)) (token : BurstToken),
    settings.problem? = none → new settings world = .ok fresh →
    let c := (fresh.run env commands).2
    c.queued? = some token →
    (readings (fresh.history env commands ++ c.calls env (.frame token))).Pairwise (· ≤ ·) →
    (∀ failure, (c.frame env token).1 ≠ .faulted failure) →
    c.phase.cycles < (c.frame env token).2.phase.cycles := by
  intro advances
  let env := Blink.leaping (.ofMillis 16)
  obtain ⟨fresh, made⟩ := newUsable (μ := Blink)
    (show (Blink.settings 2).problem? = none by decide) Duration.zero
  have known : (new (Blink.settings 2) .zero).toOption.map (fun fresh : Controller Duration Blink =>
      let c := (fresh.run env [Blink.begin]).2
      (c.queued?, (c.frame env ⟨1⟩).1, c.phase.cycles, (c.frame env ⟨1⟩).2.phase.cycles,
        readings (fresh.history env [Blink.begin] ++ c.calls env (.frame ⟨1⟩)))) =
      some (some ⟨1⟩, .next ⟨2⟩, 0, 0, [0, 16, 32, 48, 64].map .ofMillis) := by decide +kernel
  rw [made] at known
  simp only [Except.toOption, Option.map_some, Option.some.injEq, Prod.mk.injEq] at known
  obtain ⟨waits, answer, before, after, read⟩ := known
  have moved := advances env (Blink.settings 2) .zero fresh [Blink.begin] ⟨1⟩ (by decide) made waits
    (by rw [read]; decide) fun failure faulted => by cases answer.symm.trans faulted
  rw [before, after] at moved
  exact Nat.lt_irrefl 0 moved

end Controller
end VirtualBoard
