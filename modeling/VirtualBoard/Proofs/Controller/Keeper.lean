import VirtualBoard.Controller.Keeper
import VirtualBoard.Proofs.Controller.Runs

/-! Parts side by side and the phase of a run.

A keeper that starts anew does in every command what a controller does and stays that controller
with its parts taken out of the phase, although nothing in a keeper ties these parts together. So
they agree after every run: the session with the stage, the pending compile with the stage, the
count and the figures with both. -/
namespace VirtualBoard

variable {ω μ α : Type}

namespace Keeper

theorem workRun (k : Keeper ω μ) (task : Work ω α) :
    k.work task = ((task k.rig).1, {k with rig := (task k.rig).2}) := rfl

theorem recordRun (k : Keeper ω μ) (severity : Log.Severity) (text : String) :
    k.record severity text = {k with rig := k.rig.write (.record severity text)} := rfl

end Keeper

namespace Phase

def retired : Phase μ → Nat
  | stopped tally | failed _ tally => tally.cycles
  | idle | compiling .. | running .. => 0

def awaited? : Phase μ → Option Awaited
  | compiling ticket held => some ⟨ticket, held⟩
  | _ => none

end Phase

namespace Controller

def keeper (c : Controller ω μ) : Keeper ω μ :=
  ⟨c.settings, c.stage, c.phase.session?, c.phase.snapshot?, c.phase.retired, c.phase.awaited?,
    c.tokens, c.tickets, c.sessions, c.rig⟩

variable (env : Surroundings ω μ) (c : Controller ω μ)

theorem keeperNew (settings : Settings) (world : ω) :
    Keeper.new settings world = (new settings world : Except _ (Controller ω μ)).map keeper := by
  unfold Keeper.new new
  cases settings.problem? <;> rfl

theorem keeperWork (task : Work ω α) :
    c.keeper.work task = ((c.work task).1, (c.work task).2.keeper) := rfl

theorem keeperStart (source : String) :
    c.keeper.start env source = ((c.start source).1, (c.start source).2.keeper) := by
  obtain ⟨settings, phase, tokens, tickets, sessions, rig⟩ := c
  cases phase <;> rfl

theorem keeperStop : c.keeper.stop env = (c.stop env).keeper := by
  obtain ⟨settings, phase, tokens, tickets, sessions, rig⟩ := c
  cases phase <;> rfl

theorem keeperReset : c.keeper.reset env = (c.reset env).keeper := by
  obtain ⟨settings, phase, tokens, tickets, sessions, rig⟩ := c
  cases phase <;> rfl

theorem keeperSettle {ticket : Ticket} {held : Option Held}
    (phase : c.phase = .compiling ticket held) (outcome : Outcome) :
    {c.keeper with pending := none}.settle env outcome = (c.load env outcome).keeper := by
  obtain ⟨settings, phase', tokens, tickets, sessions, rig⟩ := c
  cases phase
  show Keeper.settle env ⟨settings, .compiling, none, none, 0, none, tokens, tickets, sessions, rig⟩
    outcome = _
  cases outcome with
  | error failure => rfl
  | ok text =>
    cases read : Image.read settings.imageLimit.toNat text with
    | error problem =>
      simp only [Keeper.settle, Keeper.launch, load, read]
      rfl
    | ok image =>
      rcases made : Rig.ask (env.construct image) (rig.write (.record .debug (loadedText image)))
        with ⟨fault | model, after⟩ <;>
        simp only [Keeper.settle, Keeper.launch, load, read, Keeper.recordRun, Keeper.workRun,
          recordRun, workRun, inRig, made] <;> rfl

theorem keeperComplete (ticket : Ticket) (outcome : Outcome) :
    c.keeper.complete env ticket outcome =
      ((c.complete env ticket outcome).1, (c.complete env ticket outcome).2.keeper) := by
  cases phase : c.phase with
  | compiling pending held =>
    have settled := keeperSettle env c phase outcome
    have waits : c.keeper.pending = some ⟨pending, held⟩ := by rw [keeper, phase]; rfl
    simp only [Keeper.complete, complete, waits, phase, settled]
    split
    · rcases held with _ | _ | _
      · rfl
      · exact congrArg (Prod.mk _) (keeperStop env _)
      · exact congrArg (Prod.mk _) (keeperReset env _)
    · rfl
  | _ =>
    have none : c.keeper.pending = none := by rw [keeper, phase]; rfl
    simp only [Keeper.complete, complete, none, phase]
    rfl

theorem keeperStartWith (source : String) (compiler : Compiler ω) :
    c.keeper.startWith env source compiler =
      ((c.startWith env source compiler).1, (c.startWith env source compiler).2.keeper) := by
  unfold Keeper.startWith startWith
  rw [keeperStart]
  rcases c.start source with ⟨_ | request, after⟩
  · rfl
  · simp only [keeperWork, keeperComplete]

theorem keeperFrame (token : BurstToken) :
    c.keeper.frame env token = ((c.frame env token).1, (c.frame env token).2.keeper) := by
  obtain ⟨settings, phase, tokens, tickets, sessions, rig⟩ := c
  cases phase with
  | running session snapshot =>
    show Keeper.frame env ⟨settings, .running, some session, snapshot, 0, none, tokens, tickets,
      sessions, rig⟩ token = _
    rcases taken : session.scheduler.accept token with ⟨_ | _, scheduler⟩
    · simp only [Keeper.frame, frame, taken]
      rfl
    · rcases ran : {session with scheduler := scheduler}.burst env.clock env.cpu rig
        with ⟨⟨after, report⟩, rig⟩
      simp only [Keeper.frame, frame, taken, Keeper.workRun, workRun, inRig, ran]
      cases report.exit with
      | faulted fault => rfl
      | _ =>
        rcases read : Rig.ask env.clock rig with ⟨now, rig⟩
        rcases issued : after.scheduler.issue tokens with ⟨_ | next, scheduler, tokens⟩ <;>
          cases due : sample? settings.sampleInterval now after.counters.cycles
            after.counters.started after.counters.sampled <;>
          simp only [Keeper.sample, sample, Keeper.queue, queue, Keeper.workRun, workRun, inRig,
            Keeper.recordRun, recordRun, read, due, issued] <;> rfl
  | _ => rfl

theorem keeperPerform (command : Command ω) :
    c.keeper.perform env command =
      ((c.perform env command).1, (c.perform env command).2.keeper) := by
  cases command with
  | start source => simp only [Keeper.perform, perform, keeperStart]
  | complete ticket outcome => simp only [Keeper.perform, perform, keeperComplete]
  | startWith source compiler => simp only [Keeper.perform, perform, keeperStartWith]
  | stop => simp only [Keeper.perform, perform, keeperStop]
  | reset => simp only [Keeper.perform, perform, keeperReset]
  | frame token => simp only [Keeper.perform, perform, keeperFrame]
  | outside act => rfl

theorem keeperRun (commands : List (Command ω)) :
    c.keeper.run env commands = ((c.run env commands).1, (c.run env commands).2.keeper) := by
  induction commands generalizing c with
  | nil => rfl
  | cons command rest ih => simp only [Keeper.run, run, keeperPerform, ih]

end Controller

namespace Keeper
open Controller

def withNotes (k : Keeper ω μ) : Keeper (Noted ω μ) μ :=
  ⟨k.settings, k.stage, k.session, k.snapshot, k.retired, k.pending, k.tokens, k.tickets,
    k.sessions, ⟨⟨k.rig.world, []⟩, k.rig.board, k.rig.armed, k.rig.nextKey, k.rig.log⟩⟩

def calls (env : Surroundings ω μ) (k : Keeper ω μ) (command : Command ω) : List (Call μ) :=
  (k.withNotes.perform env.noted command.noted).2.rig.world.calls

/- The calls made in a run. -/
def history (env : Surroundings ω μ) (k : Keeper ω μ) : List (Command ω) → List (Call μ)
  | [] => []
  | command :: rest => k.calls env command ++ (k.perform env command).2.history env rest

theorem keeperCalls (env : Surroundings ω μ) (c : Controller ω μ) (command : Command ω) :
    c.keeper.calls env command = c.calls env command := by
  have same := keeperPerform env.noted c.withNotes command.noted
  exact congrArg (fun after => after.2.rig.world.calls) same

theorem keeperHistory (env : Surroundings ω μ) (c : Controller ω μ) (commands : List (Command ω)) :
    c.keeper.history env commands = c.history env commands := by
  induction commands generalizing c with
  | nil => rfl
  | cons command rest ih =>
    simp only [history, Controller.history, keeperCalls, keeperPerform, ih]

/- The parts agree with each other and with the calls made so far. -/
structure Coherent (settings : Settings) (calls : List (Call μ)) (k : Keeper ω μ) : Prop where
  session : k.session.isSome ↔ k.stage = .running
  pending : k.pending.isSome ↔ k.stage = .compiling
  live : ∀ s, k.session = some s →
    s.scheduler.cancelled = false ∧
    s.scheduler.pending = some ⟨k.tokens.issued⟩ ∧
    (requests calls).getLast? = some ⟨k.tokens.issued⟩ ∧
    s.subscriptions.map Subscription.watch = settings.watch
  unstarted : k.stage = .idle ∨ k.stage = .compiling → k.cycles = 0 ∧ k.snapshot = none
  low : k.stage = .idle → ∀ s ∈ k.rig.board.signals, s.level = .low ∧ s.changes = 0
  names : k.rig.board.names = settings.watch.map Watch.name

theorem orderlyCoherent {settings : Settings} {calls : List (Call μ)} {c : Controller ω μ}
    (orderly : Orderly settings c) (asked : requests calls = tokensAfter 0 c.tokens.issued) :
    Coherent settings calls c.keeper := by
  have holds := orderly.holds
  have names := orderly.fits.board
  obtain ⟨settings, phase, tokens, tickets, sessions, rig⟩ := c
  cases phase with
  | idle =>
    exact ⟨⟨nofun, nofun⟩, ⟨nofun, nofun⟩, nofun, fun _ => ⟨rfl, rfl⟩, fun _ => clearedLow holds.2,
      names⟩
  | compiling ticket held =>
    exact ⟨⟨nofun, nofun⟩, ⟨fun _ => rfl, fun _ => rfl⟩, nofun, fun _ => ⟨rfl, rfl⟩, nofun, names⟩
  | running session snapshot =>
    have last : (requests calls).getLast? = some ⟨tokens.issued⟩ := by
      rw [asked]
      exact tokensLast holds.drawn
    refine ⟨⟨fun _ => rfl, fun _ => rfl⟩, ⟨nofun, nofun⟩, fun s live => ?_,
      fun early => early.elim nofun nofun, nofun, names⟩
    cases live
    exact ⟨holds.going, holds.pending, last, holds.bound⟩
  | stopped tally | failed failure tally =>
    exact ⟨⟨nofun, nofun⟩, ⟨nofun, nofun⟩, nofun, fun early => early.elim nofun nofun, nofun, names⟩

/- From usable settings every run leads to a keeper whose parts agree, whatever the surroundings
do. -/
theorem runCoherent (env : Surroundings ω μ) {settings : Settings}
    (usable : settings.problem? = none) (world : ω) :
    ∃ fresh : Keeper ω μ, new settings world = .ok fresh ∧
      ∀ commands, Coherent settings (fresh.history env commands) (fresh.run env commands).2 := by
  obtain ⟨fresh, made⟩ := newUsable (μ := μ) usable world
  refine ⟨fresh.keeper, by rw [keeperNew, made]; rfl, fun commands => ?_⟩
  rw [keeperHistory, keeperRun]
  exact orderlyCoherent (runOrderly (newOrderly made).1 env commands)
    (newRequests made env commands)

theorem blinkCoherent : ∃ fresh : Keeper Duration Blink,
    new (Blink.settings 2) .zero = .ok fresh ∧
      let env := Blink.surroundings (.ofMillis 1)
      let k := (fresh.run env [Blink.begin, .frame ⟨1⟩]).2
      k.stage = .running ∧ k.cycles = 2 ∧
        Coherent (Blink.settings 2) (fresh.history env [Blink.begin, .frame ⟨1⟩]) k := by
  obtain ⟨fresh, made, all⟩ := runCoherent (Blink.surroundings (.ofMillis 1))
    (show (Blink.settings 2).problem? = none by decide) .zero
  have known : (new (Blink.settings 2) .zero).toOption.map (fun fresh : Keeper Duration Blink =>
      let k := (fresh.run (Blink.surroundings (.ofMillis 1)) [Blink.begin, .frame ⟨1⟩]).2
      (k.stage, k.cycles)) = some (.running, 2) := by decide +kernel
  rw [made] at known
  obtain ⟨stage, cycles⟩ := Prod.mk.inj (Option.some.inj known)
  exact ⟨fresh, made, stage, cycles, all _⟩

end Keeper
end VirtualBoard
