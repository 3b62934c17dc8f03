import VirtualBoard.Proofs.Controller.Runs

/-! Commands that are held while a compile is pending.

Any number of them comes to one held command, and applying that one when the
compile settles is the same as having waited with all of them until then. The
same is meant up to the log, which tells when a command was given. -/
namespace VirtualBoard

variable {ω μ : Type}

namespace Rig

def BesideLog (r s : Rig ω) : Prop := ∃ log, s = {r with log := log}

theorem takeBesideLog {r s : Rig ω} (beside : BesideLog r s) (event : Event) :
    BesideLog (r.take event) (s.take event) := by
  obtain ⟨log, rfl⟩ := beside
  cases event with
  | logged entry => exact ⟨_, rfl⟩
  | called key level =>
    have same : ({r with log := log} : Rig ω).name? key = r.name? key := rfl
    simp only [take, call, same]
    cases r.name? key with
    | none => exact ⟨_, rfl⟩
    | some name =>
      dsimp only
      split <;> exact ⟨_, rfl⟩

theorem takeAllBesideLog {r s : Rig ω} (beside : BesideLog r s) (events : List Event) :
    BesideLog (events.foldl take r) (events.foldl take s) := by
  induction events generalizing r s with
  | nil => exact beside
  | cons event rest ih => exact ih (takeBesideLog beside event)

theorem askBesideLog {α : Type} (act : Act ω α) : Matched BesideLog (ask act) (ask act) := by
  rintro r _ ⟨log, rfl⟩
  exact ⟨rfl, takeAllBesideLog ⟨log, rfl⟩ _⟩

theorem besideLogLikeness : StepLikeness (BesideLog (ω := ω)) where
  record := by rintro _ _ r _ ⟨log, rfl⟩; exact ⟨rfl, _, rfl⟩
  declare := by rintro _ r _ ⟨log, rfl⟩; exact ⟨rfl, _, rfl⟩
  publish := by rintro _ _ r _ ⟨log, rfl⟩; exact ⟨rfl, _, rfl⟩
  arm := by rintro _ r _ ⟨log, rfl⟩; exact ⟨rfl, _, rfl⟩
  disarm := by rintro _ r _ ⟨log, rfl⟩; exact ⟨rfl, _, rfl⟩
  clear := by rintro r _ ⟨log, rfl⟩; exact ⟨rfl, _, rfl⟩

end Rig
open Rig

theorem Surroundings.besideLog (env : Surroundings ω μ) : env.Matched BesideLog env where
  likeness := besideLogLikeness.toLikeness
  clock := askBesideLog _
  cpu := ⟨fun _ => askBesideLog _, fun _ => askBesideLog _,
    fun _ _ => Subscription.attachMatched besideLogLikeness (askBesideLog _)
      fun _ => askBesideLog _,
    fun _ _ => askBesideLog _, fun _ => askBesideLog _⟩
  construct _ := askBesideLog _
  request _ := askBesideLog _
  cancel _ := askBesideLog _

namespace Controller

abbrev Beside (c d : Controller ω μ) : Prop := Like BesideLog c d

namespace Beside

variable {b c d : Controller ω μ}

theorem refl (c : Controller ω μ) : Beside c c := .atRig c.rig ⟨c.rig.log, rfl⟩

theorem symm (beside : Beside c d) : Beside d c := by
  obtain ⟨_, log, rfl⟩ := beside
  exact likeParts ⟨c.rig.log, rfl⟩

theorem trans (early : Beside b c) (late : Beside c d) : Beside b d := by
  obtain ⟨_, log, rfl⟩ := early
  obtain ⟨_, log', rfl⟩ := late
  exact likeParts ⟨log', rfl⟩

theorem takeLog (beside : Beside c d) : c.takeLog.2 = d.takeLog.2 := by
  obtain ⟨_, log, rfl⟩ := beside
  rfl

theorem phase (beside : Beside c d) : d.phase = c.phase := by
  obtain ⟨_, _⟩ := beside
  rfl

theorem inPhase (beside : Beside c d) (phase : Phase μ) :
    Beside {c with phase := phase} {d with phase := phase} := by
  obtain ⟨_, beside⟩ := beside
  exact likeParts beside

theorem orderly {settings : Settings} (beside : Beside c d) (orderly : Orderly settings c) :
    Orderly settings d := by
  obtain ⟨_, log, rfl⟩ := beside
  exact orderly.kept ⟨rfl, rfl, fun _ => rfl, fun _ => rfl⟩

theorem run (env : Surroundings ω μ) (beside : Beside c d) (commands : List (Command ω)) :
    Beside (c.run env commands).2 (d.run env commands).2 := by
  have same := runMatched env.besideLog beside commands id fun command _ =>
    command.itself askBesideLog
  rw [List.map_id] at same
  exact same.2

end Beside

/-! Stopping and resetting once more. Each of them says all it will at its first turn, and a
reset leaves nothing of a stop before it or for a stop after it. -/

section
variable (env : Surroundings ω μ) (c : Controller ω μ)

theorem stopTwice : Beside (c.stop env) ((c.stop env).stop env) := by
  obtain ⟨settings, phase, tokens, tickets, sessions, r⟩ := c
  cases phase with
  | compiling ticket held => cases held <;> exact likeParts ⟨_, rfl⟩
  | _ => exact likeParts ⟨_, rfl⟩

theorem stopReset : Beside (c.reset env) ((c.stop env).reset env) := by
  obtain ⟨settings, phase, tokens, tickets, sessions, r⟩ := c
  cases phase <;> exact likeParts ⟨_, rfl⟩

theorem resetStop : Beside (c.reset env) ((c.reset env).stop env) := by
  obtain ⟨settings, phase, tokens, tickets, sessions, r⟩ := c
  cases phase <;> exact likeParts ⟨_, rfl⟩

theorem settleTwice : Beside c.settleIdle c.settleIdle.settleIdle :=
  likeParts ⟨_, congrArg (fun board => Rig.mk _ board _ _ _) (Board.clearTwice _)⟩

theorem resetTwice : Beside (c.reset env) ((c.reset env).reset env) := by
  obtain ⟨settings, phase, tokens, tickets, sessions, r⟩ := c
  cases phase with
  | compiling ticket held => exact likeParts ⟨_, rfl⟩
  | running session snapshot => exact settleTwice _
  | _ => exact settleTwice _

end

end Controller

/- A command that can be held, the slot after one more, and what a slot comes to. -/
namespace Held

def command : Held → Command ω
  | stop => .stop
  | reset => .reset

def hold (held : Option Held) : Held → Option Held
  | stop => held.or (some .stop)
  | reset => some .reset

end Held

namespace Controller

variable {env : Surroundings ω μ} {c d : Controller ω μ} {ticket : Ticket} {held : Option Held}

def apply (env : Surroundings ω μ) (c : Controller ω μ) : Held → Controller ω μ
  | .stop => c.stop env
  | .reset => c.reset env

def replay (env : Surroundings ω μ) (c : Controller ω μ) : Option Held → Controller ω μ
  | none => c
  | some command => c.apply env command

theorem applyOff (env : Surroundings ω μ) (c : Controller ω μ) (command : Held) :
    (c.apply env command).phase.session? = none := by
  cases command with
  | stop => exact stopOff env c
  | reset => exact resetOff env c

theorem performHeld (env : Surroundings ω μ) (c : Controller ω μ) (command : Held) :
    (c.perform env command.command).2 = c.apply env command := by
  cases command <;> rfl

theorem runAppend (env : Surroundings ω μ) (c : Controller ω μ)
    (early late : List (Command ω)) :
    (c.run env (early ++ late)).2 = ((c.run env early).2.run env late).2 := by
  induction early generalizing c with
  | nil => rfl
  | cons command rest ih => exact ih _

theorem replayHold (env : Surroundings ω μ) (c : Controller ω μ) (held : Option Held)
    (command : Held) :
    Beside (c.replay env (Held.hold held command)) ((c.replay env held).apply env command) := by
  cases held with
  | none => cases command <;> exact .refl _
  | some first =>
    cases first with
    | stop =>
      cases command with
      | stop => exact stopTwice env c
      | reset => exact stopReset env c
    | reset =>
      cases command with
      | stop => exact resetStop env c
      | reset => exact resetTwice env c

theorem replayAll (env : Surroundings ω μ) (c : Controller ω μ) (held : Option Held)
    (cs : List Held) :
    Beside (c.replay env (cs.foldl Held.hold held))
      ((c.replay env held).run env (cs.map Held.command)).2 := by
  induction cs generalizing held with
  | nil => exact .refl _
  | cons command rest ih =>
    simp only [List.foldl_cons, List.map_cons, run, performHeld]
    exact (ih _).trans ((replayHold env c held command).run env _)

theorem holdOne (env : Surroundings ω μ) (phase : c.phase = .compiling ticket held)
    (command : Held) :
    Beside {c with phase := .compiling ticket (Held.hold held command)} (c.apply env command) := by
  obtain ⟨settings, _, tokens, tickets, sessions, r⟩ := c
  cases phase
  cases command <;> exact likeParts ⟨_, rfl⟩

theorem holdAll (env : Surroundings ω μ) (phase : c.phase = .compiling ticket held)
    (cs : List Held) :
    Beside {c with phase := .compiling ticket (cs.foldl Held.hold held)}
      (c.run env (cs.map Held.command)).2 := by
  induction cs generalizing c held with
  | nil =>
    obtain ⟨settings, _, tokens, tickets, sessions, r⟩ := c
    cases phase
    exact .refl _
  | cons command rest ih =>
    have one := holdOne env phase command
    simp only [List.foldl_cons, List.map_cons, run, performHeld]
    exact (one.inPhase _).trans (ih one.phase)

theorem loadPhase (env : Surroundings ω μ) (c : Controller ω μ) (phase : Phase μ)
    (outcome : Outcome) :
    ({c with phase := phase} : Controller ω μ).load env outcome = c.load env outcome := by
  cases outcome with
  | error failure => rfl
  | ok text =>
    unfold load
    dsimp only
    cases Image.read c.settings.imageLimit.toNat text with
    | error problem => rfl
    | ok image =>
      simp only [workRun, recordRun, inRig]
      cases (ask (env.construct image) (c.rig.write (.record .debug (loadedText image)))).1 <;> rfl

theorem completeHeld (phase : c.phase = .compiling ticket held) (outcome : Outcome) :
    c.complete env ticket outcome = (.ok (), (c.load env outcome).replay env held) := by
  simp only [complete, phase, if_pos]
  cases held with
  | none => rfl
  | some command => cases command <;> rfl

theorem startWithRefused (env : Surroundings ω μ) {source : String}
    (refused : (c.start source).1 = none) (compiler : Compiler ω) :
    (c.startWith env source compiler).2 = (c.start source).2 := by
  unfold startWith
  generalize c.start source = out at refused ⊢
  obtain ⟨request, d⟩ := out
  cases refused
  rfl

theorem startWithRun (env : Surroundings ω μ) {source : String} {request : CompileRequest}
    (asked : (c.start source).1 = some request) (compiler : Compiler ω) :
    let d := (c.start source).2
    let answered := ask (compiler request.body) d.rig
    (c.startWith env source compiler).2 =
      (d.inRig answered.2).load env (Compiler.outcome answered.1) := by
  intro d answered
  have accepted : c.start source = (some request, d) := Prod.ext asked rfl
  have waiting : (d.inRig answered.2).phase = .compiling request.ticket none :=
    (startAccepted asked).1
  simp only [startWith, accepted, workRun]
  rw [show ask (compiler request.body) d.rig = answered from rfl, completeHeld waiting]
  rfl

theorem loadStage (env : Surroundings ω μ) (c : Controller ω μ) (outcome : Outcome) :
    (c.load env outcome).stage = .running ∨
      ∃ failure, (c.load env outcome).stage = .failed failure := by
  rcases loadRun env c outcome with
    ⟨failure, rig, loaded, -⟩ | ⟨_, image, model, rig, -, -, -, loaded⟩
  · rw [loaded]
    exact .inr ⟨failure, rfl⟩
  · rw [loaded]
    exact .inl rfl

theorem loadOver (env : Surroundings ω μ) (c : Controller ω μ) (outcome : Outcome) :
    (c.load env outcome).stage ≠ .compiling := by
  rcases loadStage env c outcome with running | ⟨failure, failed⟩
  · rw [running]
    decide
  · rw [failed]
    exact Lifecycle.noConfusion

theorem stopRunning (env : Surroundings ω μ) (running : c.stage = .running) :
    (c.stop env).stage = .stopped := by
  obtain ⟨settings, phase, tokens, tickets, sessions, r⟩ := c
  cases phase with
  | running => rfl
  | _ => cases running

theorem stopFailed (env : Surroundings ω μ) {failure : Failure}
    (failed : c.stage = .failed failure) : (c.stop env).stage = .failed failure := by
  obtain ⟨settings, phase, tokens, tickets, sessions, r⟩ := c
  cases phase with
  | failed => exact failed
  | _ => cases failed

theorem resetSettled (env : Surroundings ω μ) (settled : c.stage ≠ .compiling) :
    (c.reset env).stage = .idle := by
  obtain ⟨settings, phase, tokens, tickets, sessions, r⟩ := c
  cases phase with
  | compiling => exact absurd rfl settled
  | _ => rfl

theorem idlePhase (idle : c.stage = .idle) : c.phase = .idle := by
  unfold stage at idle
  cases phase : c.phase with
  | idle => rfl
  | _ => rw [phase] at idle; cases idle

theorem holdReset (held : Option Held) (cs : List Held) (reset : held = some .reset ∨ .reset ∈ cs) :
    cs.foldl Held.hold held = some .reset := by
  induction cs generalizing held with
  | nil => simpa using reset
  | cons command rest ih =>
    refine ih _ ?_
    rcases reset with rfl | member
    · cases command <;> exact .inl rfl
    · rcases List.mem_cons.mp member with rfl | later
      · exact .inl rfl
      · exact .inr later

theorem holdStop (held : Option Held) (cs : List Held) (unset : held ≠ some .reset)
    (none : .reset ∉ cs) (stop : held = some .stop ∨ .stop ∈ cs) :
    cs.foldl Held.hold held = some .stop := by
  induction cs generalizing held with
  | nil => simpa using stop
  | cons command rest ih =>
    cases command with
    | reset => exact absurd List.mem_cons_self none
    | stop =>
      have slot : Held.hold held .stop = some .stop := by
        cases held with
        | none => rfl
        | some first =>
          cases first with
          | stop => rfl
          | reset => exact absurd rfl unset
      rw [List.foldl_cons, slot]
      exact ih _ (by simp) (fun member => none (List.mem_cons_of_mem _ member)) (.inl rfl)

theorem settleHeld (env : Surroundings ω μ) (phase : c.phase = .compiling ticket held)
    (cs : List Held) (outcome : Outcome) :
    Beside ((c.load env outcome).replay env (cs.foldl Held.hold held))
      (c.run env (cs.map Held.command ++ [.complete ticket outcome])).2 := by
  have waited := holdAll env phase cs
  have settled := (completeMatched env.besideLog waited ticket outcome).2
  rw [completeHeld rfl, loadPhase] at settled
  rw [runAppend]
  exact settled

theorem settleBeside (env : Surroundings ω μ) (phase : c.phase = .compiling ticket held)
    (cs : List Held) (outcome : Outcome) :
    Beside (c.run env (cs.map Held.command ++ [.complete ticket outcome])).2
      (c.run env (.complete ticket outcome :: cs.map Held.command)).2 := by
  have later : (c.run env (.complete ticket outcome :: cs.map Held.command)).2 =
      (((c.load env outcome).replay env held).run env (cs.map Held.command)).2 := by
    simp only [run, perform, completeHeld phase]
  rw [later]
  exact (settleHeld env phase cs outcome).symm.trans (replayAll env _ held cs)

theorem heldNoted (cs : List Held) :
    (cs.map Held.command).map (Command.noted (μ := μ) (ω := ω)) = cs.map Held.command := by
  rw [List.map_map]
  refine List.map_congr_left fun command _ => ?_
  cases command <;> rfl

theorem historyBeside {env : Surroundings ω μ} {c : Controller ω μ} {first second : List (Command ω)}
    (beside : Beside (c.withNotes.run env.noted (first.map Command.noted)).2
      (c.withNotes.run env.noted (second.map Command.noted)).2) :
    c.history env first = c.history env second := by
  rw [← runCalls, ← runCalls]
  exact congrArg (fun d => d.rig.world.calls) beside.takeLog

theorem settleHistory (env : Surroundings ω μ) (phase : c.phase = .compiling ticket held)
    (cs : List Held) (outcome : Outcome) :
    c.history env (cs.map Held.command ++ [.complete ticket outcome]) =
      c.history env (.complete ticket outcome :: cs.map Held.command) := by
  have noted := settleBeside env.noted (c := c.withNotes) phase cs outcome
  refine historyBeside ?_
  simp only [List.map_append, List.map_cons, List.map_nil, heldNoted, Command.noted]
  exact noted

/- Commands given while compiling are those commands given once the compile has settled. -/
theorem holdingUnseen (env : Surroundings ω μ) (c : Controller ω μ) {ticket : Ticket}
    {held : Option Held} (phase : c.phase = .compiling ticket held) (cs : List Held)
    (outcome : Outcome) :
    let holds := cs.map Held.command
    let settle : Command ω := .complete ticket outcome
    let before := (c.run env (holds ++ [settle])).2
    let after := (c.run env (settle :: holds)).2
    before.takeLog.2 = after.takeLog.2 ∧
    c.history env (holds ++ [settle]) = c.history env (settle :: holds) ∧
    (held = some .reset ∨ .reset ∈ cs → before.stage = .idle) ∧
    (held ≠ some .reset → .reset ∉ cs → held = some .stop ∨ .stop ∈ cs →
      ((c.load env outcome).stage = .running ∧ before.stage = .stopped) ∨
      ∃ failure, (c.load env outcome).stage = .failed failure ∧
        before.stage = .failed failure) := by
  intro holds settle before after
  have replayed : before.stage =
      ((c.load env outcome).replay env (cs.foldl Held.hold held)).stage :=
    congrArg Phase.stage (settleHeld env phase cs outcome).phase
  rw [replayed]
  refine ⟨(settleBeside env phase cs outcome).takeLog, settleHistory env phase cs outcome,
    ?_, ?_⟩
  · intro reset
    rw [holdReset held cs reset]
    refine resetSettled env fun compiling => ?_
    rcases loadStage env c outcome with running | ⟨failure, failed⟩
    · cases running.symm.trans compiling
    · cases failed.symm.trans compiling
  · intro unset none stop
    rw [holdStop held cs unset none stop]
    rcases loadStage env c outcome with running | ⟨failure, failed⟩
    · exact .inl ⟨running, stopRunning env running⟩
    · exact .inr ⟨failure, failed, stopFailed env failed⟩

theorem blinkHolding : ∃ fresh : Controller Duration Blink,
    new (Blink.settings 2) .zero = .ok fresh ∧
      let env := Blink.surroundings (.ofMillis 1)
      let c := (fresh.run env [.start ""]).2
      let settle : Command Duration := .complete ⟨1⟩ (.ok ":020000000102FB\n:00000001FF")
      let before := (c.run env [.stop, .stop, settle]).2
      before.stage = .stopped ∧
      before.takeLog.2 = (c.run env [settle, .stop, .stop]).2.takeLog.2 ∧
      c.history env [.stop, .stop, settle] = c.history env [settle, .stop, .stop] := by
  let env := Blink.surroundings (.ofMillis 1)
  let outcome : Outcome := .ok ":020000000102FB\n:00000001FF"
  obtain ⟨fresh, made⟩ := newUsable (ω := Duration) (μ := Blink)
    (show (Blink.settings 2).problem? = none by decide) .zero
  have known : (new (Blink.settings 2) .zero).toOption.map (fun fresh : Controller Duration Blink =>
      ((fresh.run env [.start ""]).2.load env outcome).stage) = some .running := by
    decide +kernel
  rw [made] at known
  have loaded := Option.some.inj known
  have phase : (fresh.run env [.start ""]).2.phase = .compiling ⟨1⟩ none := by
    unfold new at made
    split at made
    · cases made
    · cases made
      rfl
  obtain ⟨same, calls, -, stopped⟩ :=
    holdingUnseen env (fresh.run env [.start ""]).2 phase [.stop, .stop] outcome
  refine ⟨fresh, made, ?_, same, calls⟩
  rcases stopped (by decide) (by decide) (by decide) with ⟨-, after⟩ | ⟨_, failed, -⟩
  · exact after
  · cases loaded.symm.trans failed

end Controller
end VirtualBoard
