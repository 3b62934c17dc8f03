import VirtualBoard.Proofs.Controller.Calls
import VirtualBoard.Proofs.Controller.Cycles

/-! What has ended stays as it ended.

A run tells the lives of its models one after the other. In none of them is the
model stepped or ticked after it faulted or was let go, and whoever has failed
stays failed, asks nothing of anyone and shows the same board, until a reset. -/
namespace VirtualBoard
open Rig

variable {ω μ : Type}

def Call.ends : Call μ → Bool
  | stepped _ _ (some _) | unlistened .. | discarded _ => true
  | _ => false

def Stand.Over (stand : Stand μ) : Prop := stand = .unmade ∨ stand = .gone

def Stand.Open : Stand μ → Prop
  | unmade | live _ => True
  | _ => False

def Lasting (calls : List (Call μ)) : Prop :=
  calls.Pairwise fun early late => early.ends → ¬ late.runs

theorem Lasting.append {calls more : List (Call μ)} (early : Lasting calls) (late : Lasting more)
    (apart : (∀ call ∈ calls, ¬ call.ends) ∨ ∀ call ∈ more, ¬ call.runs) :
    Lasting (calls ++ more) := by
  refine List.pairwise_append.mpr ⟨early, late, fun first before second after ended => ?_⟩
  rcases apart with going | rests
  · exact absurd ended (going first before)
  · exact rests second after

theorem Call.asideQuiet {call : Call μ} (apart : call.aside) : ¬ call.ends ∧ ¬ call.runs := by
  cases call <;> first | exact ⟨Bool.false_ne_true, Bool.false_ne_true⟩ | cases apart

namespace Life

variable {calls : List (Call μ)} {stand : Stand μ} {n : Nat}

theorem unended (life : Life calls stand n) (going : stand.Open) :
    ∀ call ∈ calls, ¬ call.ends := by
  induction life with
  | none => simp
  | aside life apart ih =>
    exact List.forall_mem_append.mpr ⟨ih going, by simpa using (Call.asideQuiet apart).1⟩
  | refused life ih | made life ih | read life ih | listened life ih | beat life ih =>
    exact List.forall_mem_append.mpr ⟨ih trivial, by simp [Call.ends]⟩
  | _ => cases going

theorem lasting (life : Life calls stand n) : Lasting calls := by
  induction life with
  | none => exact .nil
  | retired life ih => exact ih
  | aside life apart ih =>
    exact ih.append (by simp [Lasting]) (.inr (by simpa using (Call.asideQuiet apart).2))
  | beat life ih | faulted life ih =>
    exact ih.append (by simp [Lasting, Call.ends]) (.inl (life.unended trivial))
  | _ life ih => exact ih.append (by simp [Lasting]) (.inr (by simp [Call.runs]))

end Life

namespace Controller

section
variable {past : List (Call μ)} {c : Controller (Noted ω μ) μ}

theorem resetEnds (env : Surroundings ω μ) (lived : Lived past c) (settled : c.stage ≠ .compiling) :
    ∃ stand n, stand.Over ∧ (c.reset env.noted).rig.Tells past stand n := by
  obtain ⟨stand, stands, tells⟩ := lived
  unfold reset
  cases phase : c.phase with
  | compiling => exact absurd (by rw [stage, phase]; rfl) settled
  | running session snapshot =>
    rw [phase] at stands tells
    subst stands
    simp only [closeRun]
    exact ⟨.gone, _, .inr rfl, closeLeads env session c.rig tells.retired⟩
  | idle =>
    rw [phase] at stands
    exact ⟨stand, _, .inl stands, tells⟩
  | _ =>
    rw [phase] at stands
    exact ⟨stand, _, stands, tells⟩

theorem resetsEnd (env : Surroundings ω μ) {command : Command ω}
    (resets : c.turn command.noted = .resets) (lived : Lived past c) :
    ∃ stand n, stand.Over ∧ (c.perform env.noted command.noted).2.rig.Tells past stand n := by
  cases command with
  | reset => exact resetEnds env lived (resetsSettled resets)
  | complete ticket outcome =>
    have phase := awaitsReset (by simpa [turn, Command.noted] using resets : c.awaits ticket)
    obtain ⟨loaded, -, -⟩ := loadLived env outcome (lived.compiling phase)
    show ∃ stand n, stand.Over ∧ (c.complete env.noted ticket outcome).2.rig.Tells past stand n
    rw [completeHeld phase]
    exact resetEnds env loaded (loadOver env.noted c outcome)
  | start | startWith =>
    simp only [turn, Command.noted] at resets
    split at resets <;> cases resets
  | _ => cases resets

end

/- The calls of a run, life by life: all but the last are over, and the last goes with the phase. -/
structure Told (c : Controller ω μ) (past : List (List (Call μ))) (now : List (Call μ)) : Prop where
  ended : ∀ life ∈ past, ∃ stand n, stand.Over ∧ Life life stand n
  going : ∃ stand, Stands c.phase stand ∧ Life now stand c.phase.cycles

section
variable {settings : Settings} {c : Controller ω μ} {past : List (List (Call μ))}
  {now : List (Call μ)}

theorem startsOver {command : Command ω} (starts : c.turn command = .starts) {stand : Stand μ}
    (stands : Stands c.phase stand) : stand.Over := by
  have accepted : ∃ source, (c.start source).1.isSome := by
    cases command with
    | start source | startWith source =>
      refine ⟨source, ?_⟩
      simp only [turn] at starts
      split at starts
      · assumption
      · cases starts
    | reset | complete =>
      simp only [turn] at starts
      split at starts <;> cases starts
    | _ => cases starts
  obtain ⟨source, accepted⟩ := accepted
  unfold start at accepted
  cases phase : c.phase with
  | idle =>
    rw [phase] at stands
    exact .inl stands
  | stopped tally =>
    rw [phase] at stands
    exact stands
  | _ => rw [phase] at accepted; cases accepted

theorem Told.lived (told : Told c past now) : Lived now c.withNotes := by
  obtain ⟨stand, stands, life⟩ := told.going
  refine ⟨stand, stands, ?_⟩
  show Life (now ++ []) _ _
  rw [List.append_nil]
  exact life

theorem performTold (orderly : Orderly settings c) (told : Told c past now) (env : Surroundings ω μ)
    (command : Command ω) : ∃ past' now', Told (c.perform env command).2 past' now' ∧
      past'.flatten ++ now' = past.flatten ++ now ++ c.calls env command := by
  obtain ⟨stand, stands, life⟩ := told.going
  cases turn : c.turn command with
  | starts =>
    have begun := startsLived env (c := c.withNotes) rfl ((turnNoted c command).trans turn)
    refine ⟨past ++ [now], c.calls env command, ⟨?_, begun.1.performed⟩, by simp⟩
    simp only [List.forall_mem_append, List.forall_mem_singleton]
    exact ⟨told.ended, stand, _, startsOver turn stands, life⟩
  | resets =>
    obtain ⟨after, n, ended, tells⟩ := resetsEnd env ((turnNoted c command).trans turn) told.lived
    refine ⟨past ++ [now ++ c.calls env command], [], ⟨?_, ?_⟩, by simp⟩
    · simp only [List.forall_mem_append, List.forall_mem_singleton]
      exact ⟨told.ended, after, n, ended, tells⟩
    · rw [resetsIdle env turn]
      exact ⟨.unmade, rfl, .none⟩
  | goesOn =>
    have lived : Lived now (c.withNotes.perform env.noted command.noted).2 := by
      by_cases frame : ∃ token, command = .frame token
      · obtain ⟨token, rfl⟩ := frame
        exact frameLived orderly.withNotes env token told.lived
      · have other : ∀ token, command ≠ .frame token := fun token same => frame ⟨token, same⟩
        have continues := performContinues env told.lived ((turnNoted c command).trans turn) other
        exact continues.lived told.lived
    exact ⟨past, now ++ c.calls env command, ⟨told.ended, lived.performed⟩, by simp⟩

theorem runTold (orderly : Orderly settings c) (told : Told c past now) (env : Surroundings ω μ)
    (commands : List (Command ω)) : ∃ past' now', Told (c.run env commands).2 past' now' ∧
      past'.flatten ++ now' = past.flatten ++ now ++ c.history env commands := by
  induction commands generalizing c past now with
  | nil => exact ⟨past, now, told, (List.append_nil _).symm⟩
  | cons command rest ih =>
    obtain ⟨past', now', between, first⟩ := performTold orderly told env command
    obtain ⟨past'', now'', after, second⟩ := ih (performOrderly orderly env command) between
    refine ⟨past'', now'', after, ?_⟩
    rw [second, first, List.append_assoc]
    rfl

theorem failedPhase {failure : Failure} (failed : c.stage = .failed failure) :
    ∃ tally, c.phase = .failed failure tally := by
  unfold stage at failed
  cases phase : c.phase with
  | failed other tally =>
    rw [phase] at failed
    cases failed
    exact ⟨tally, rfl⟩
  | _ => rw [phase] at failed; cases failed

theorem failedRecords (env : Surroundings ω μ) {failure : Failure} {tally : Tally}
    (phase : c.phase = .failed failure tally) {command : Command ω} (other : command ≠ .reset)
    (inside : ∀ act, command ≠ .outside act) :
    ∃ severity text, (c.perform env command).2 = c.record severity text := by
  have refused : ∀ source, (c.start source).1 = none := by
    intro source
    simp only [start, phase]
  cases command with
  | start source =>
    obtain ⟨severity, text, after⟩ := startRefused (refused source)
    exact ⟨severity, text, congrArg Prod.snd after⟩
  | complete ticket outcome =>
    have stale : c.phase.ticket? ≠ some ticket := by simp [phase, Phase.ticket?]
    exact ⟨_, _, congrArg Prod.snd (completeStale env stale outcome)⟩
  | startWith source compiler =>
    obtain ⟨severity, text, after⟩ := startRefused (refused source)
    refine ⟨severity, text, ?_⟩
    show (c.startWith env source compiler).2 = _
    rw [startWith, after]
  | stop =>
    show ∃ severity text, c.stop env = c.record severity text
    unfold stop
    rw [phase]
    exact ⟨_, _, rfl⟩
  | frame token =>
    have stale : c.queued? ≠ some token := by simp [queued?, phase, Phase.session?]
    obtain ⟨severity, text, after⟩ := frameStale env c stale
    exact ⟨severity, text, congrArg Prod.snd after⟩
  | reset => exact absurd rfl other
  | outside act => exact absurd rfl (inside act)

theorem failedKeeps (env : Surroundings ω μ) {failure : Failure} {tally : Tally}
    (phase : c.phase = .failed failure tally) {command : Command ω} (other : command ≠ .reset) :
    (∃ r, Keeps c.rig r ∧ (c.perform env command).2 = c.inRig r) ∧ c.calls env command = [] := by
  by_cases outside : ∃ act, command = .outside act
  · obtain ⟨act, rfl⟩ := outside
    have unasked : Alike Noted.calls c.withNotes.rig (ask act.unnoted c.withNotes.rig).2 :=
      alikeAsk _ (fun _ => rfl) _
    exact ⟨⟨_, keepsAsk act c.rig, rfl⟩, unasked⟩
  · have elsewhere : command.noted (μ := μ) ≠ .reset ∧
        ∀ act, command.noted (μ := μ) ≠ .outside act := by
      cases command <;> simp_all [Command.noted]
    obtain ⟨severity, text, noted⟩ := failedRecords env.noted (c := c.withNotes) phase elsewhere.1
      elsewhere.2
    have after : (c.perform env command).2 = c.record severity text := by
      rw [notedStep, noted]
      rfl
    have none : c.calls env command = [] := by
      rw [calls, noted]
      rfl
    exact ⟨⟨_, writeKeeps _ _, after⟩, none⟩

theorem failedStays (env : Surroundings ω μ) {failure : Failure} {tally : Tally}
    (phase : c.phase = .failed failure tally) {later : List (Command ω)}
    (others : ∀ command ∈ later, command ≠ .reset) :
    (∃ r, Keeps c.rig r ∧ (c.run env later).2 = c.inRig r) ∧ c.history env later = [] := by
  induction later generalizing c with
  | nil => exact ⟨⟨c.rig, .refl _, rfl⟩, rfl⟩
  | cons command rest ih =>
    rw [List.forall_mem_cons] at others
    obtain ⟨⟨r, kept, after⟩, none⟩ := failedKeeps env phase others.1
    have still : (c.perform env command).2.phase = .failed failure tally := by
      rw [after]
      exact phase
    obtain ⟨⟨s, further, last⟩, nothing⟩ := ih still others.2
    rw [after] at further last
    refine ⟨⟨s, kept.trans further, ?_⟩, ?_⟩
    · show ((c.perform env command).2.run env rest).2 = _
      rw [after, last]
      rfl
    · show c.calls env command ++ (c.perform env command).2.history env rest = []
      rw [none, nothing]
      rfl

theorem runsLive (orderly : Orderly settings c) (env : Surroundings ω μ) {command : Command ω}
    {call : Call μ} (made : call ∈ c.calls env command) (runs : call.runs) :
    ∃ token session snapshot, command = .frame token ∧ c.phase = .running session snapshot ∧
      (session.scheduler.accept token).1 = true ∧
      ∀ past, Life past (.live session.model) session.counters.cycles →
        ∃ stand n, Life (past ++ c.calls env command) stand n := by
  obtain ⟨token, rfl, waited⟩ := callsRun orderly env made runs
  obtain ⟨session, snapshot, phase, pending⟩ := queuedRunning waited
  have holds := orderly.lives phase
  have accepted : session.scheduler.accept token =
      (true, {session.scheduler with pending := none}) := if_pos ⟨holds.going, pending⟩
  refine ⟨token, session, snapshot, rfl, phase, by rw [accepted], fun past life => ?_⟩
  have lived : Lived past c.withNotes := by
    refine ⟨.live session.model, by rw [show c.withNotes.phase = _ from phase]; rfl, ?_⟩
    show Life (past ++ []) _ c.phase.cycles
    rw [List.append_nil, phase]
    exact life
  obtain ⟨stand, -, after⟩ := frameLived orderly.withNotes env token lived
  exact ⟨stand, _, after⟩

end

/- What is so of a controller after a run with some calls. The calls are lives, and nothing runs in
a life once its model faulted or was let go. A failure stays until a reset, whatever comes before
that. And only the model of the live session runs. -/
structure Final (env : Surroundings ω μ) (calls : List (Call μ)) (c : Controller ω μ) : Prop where
  lives : ∃ past now, past.flatten ++ now = calls ∧ Told c past now ∧
    ∀ life ∈ past ++ [now], life.countP Call.makes ≤ 1 ∧ Lasting life
  failed : ∀ failure tally, c.phase = .failed failure tally →
    ∀ later : List (Command ω), (∀ command ∈ later, command ≠ .reset) →
      let d := (c.run env later).2
      d.phase = .failed failure tally ∧ d.rig.board = c.rig.board ∧ d.view = c.view ∧
        c.history env later = []
  runs : ∀ command, ∀ call ∈ c.calls env command, call.runs →
    ∃ token session snapshot, command = .frame token ∧ c.phase = .running session snapshot ∧
      (session.scheduler.accept token).1 = true ∧
      ∀ past, Life past (.live session.model) session.counters.cycles →
        ∃ stand n, Life (past ++ c.calls env command) stand n

theorem Told.lives {c : Controller ω μ} {past : List (List (Call μ))} {now : List (Call μ)}
    (told : Told c past now) :
    ∀ life ∈ past ++ [now], life.countP Call.makes ≤ 1 ∧ Lasting life := by
  have all : ∀ life ∈ past ++ [now], ∃ stand n, Life life stand n := by
    obtain ⟨stand, -, life⟩ := told.going
    simp only [List.forall_mem_append, List.forall_mem_singleton]
    exact ⟨fun early member => (told.ended early member).imp fun _ => .imp fun _ => And.right,
      stand, _, life⟩
  intro life member
  obtain ⟨stand, n, life⟩ := all life member
  refine ⟨?_, life.lasting⟩
  rw [life.counted.2.2]
  cases stand <;> simp [Stand.made]

theorem Orderly.final {settings : Settings} {c : Controller ω μ} {past : List (List (Call μ))}
    {now : List (Call μ)} (orderly : Orderly settings c) (told : Told c past now)
    (env : Surroundings ω μ) : Final env (past.flatten ++ now) c where
  lives := ⟨past, now, rfl, told, told.lives⟩
  failed failure tally phase later others := by
    have quiet := orderly.holds
    rw [phase] at quiet
    obtain ⟨⟨r, kept, after⟩, none⟩ := failedStays env phase others
    have board := kept.board quiet
    refine ⟨by rw [after]; exact phase, by rw [after]; exact board, ?_, none⟩
    rw [after]
    simp only [view, stage, inRig, board]
  runs _ _ made runs := runsLive orderly env made runs

theorem endingsFinal (env : Surroundings ω μ) {settings : Settings}
    (usable : settings.problem? = none) (world : ω) :
    ∃ fresh : Controller ω μ, new settings world = .ok fresh ∧ ∀ commands,
      Final env (fresh.history env commands) (fresh.run env commands).2 := by
  obtain ⟨fresh, made⟩ := newUsable (μ := μ) usable world
  refine ⟨fresh, made, fun commands => ?_⟩
  obtain ⟨orderly, -, -⟩ := newOrderly made
  have blank : Told fresh [] [] := by
    refine ⟨by simp, ?_⟩
    rw [newIdle made]
    exact ⟨.unmade, rfl, .none⟩
  obtain ⟨past, now, told, calls⟩ := runTold orderly blank env commands
  have final := (runOrderly orderly env commands).final told env
  rw [calls] at final
  exact final

theorem blinkFinal : ∃ fresh : Controller Duration Blink,
    new (Blink.settings 2) .zero = .ok fresh ∧
      let env := Blink.surroundings (.ofMillis 1)
      let c := (fresh.run env [Blink.begin, .frame ⟨1⟩, .frame ⟨2⟩]).2
      let later := [.frame ⟨2⟩, .start "", .complete ⟨1⟩ (.ok ""), .stop, Blink.begin]
      let d := (c.run env later).2
      c.stage = .failed (.cpu ⟨.other, "out of steps"⟩) ∧ c.phase.cycles = 3 ∧
        faults (fresh.history env [Blink.begin, .frame ⟨1⟩, .frame ⟨2⟩]) =
          [⟨.other, "out of steps"⟩] ∧
        d.phase = c.phase ∧ d.view = c.view ∧ c.history env later = [] ∧
        Final env (fresh.history env [Blink.begin, .frame ⟨1⟩, .frame ⟨2⟩]) c := by
  obtain ⟨fresh, made, all⟩ := endingsFinal (Blink.surroundings (.ofMillis 1))
    (show (Blink.settings 2).problem? = none by decide) .zero
  have known : (new (Blink.settings 2) .zero).toOption.map (fun fresh : Controller Duration Blink =>
      let env := Blink.surroundings (.ofMillis 1)
      let c := (fresh.run env [Blink.begin, .frame ⟨1⟩, .frame ⟨2⟩]).2
      (c.stage, c.phase.cycles,
        faults (fresh.history env [Blink.begin, .frame ⟨1⟩, .frame ⟨2⟩]))) =
        some (.failed (.cpu ⟨.other, "out of steps"⟩), 3, [⟨.other, "out of steps"⟩]) := by
    decide +kernel
  rw [made] at known
  obtain ⟨stage, known⟩ := Prod.mk.inj (Option.some.inj known)
  obtain ⟨cycles, faulty⟩ := Prod.mk.inj known
  have final := all [Blink.begin, .frame ⟨1⟩, .frame ⟨2⟩]
  refine ⟨fresh, made, ?_⟩
  intro env c later d
  change c.stage = _ at stage
  change c.phase.cycles = _ at cycles
  change Final env _ c at final
  clear_value c
  obtain ⟨tally, phase⟩ := failedPhase stage
  obtain ⟨same, -, view, none⟩ := final.failed _ tally phase later (by simp [later, Blink.begin])
  exact ⟨stage, cycles, faulty, same.trans phase.symm, view, none, final⟩

end Controller
end VirtualBoard
