import VirtualBoard.Proofs.Controller.Steps
import VirtualBoard.Proofs.Settings

/-! The invariant of a controller.

It ties the phase to everything kept beside it: a live session waits under the
newest token and is the only one to have listeners armed, one for each watched
pin; in every other phase nothing outside can reach the board, and while idle the
board is fresh. Every command restores it, whatever the surroundings do. -/
namespace VirtualBoard.Controller
open Rig

variable {ω μ : Type} {settings : Settings} {env : Surroundings ω μ}

/- A live session: its queued token is the newest one, its listeners the armed ones. -/
structure Lives (settings : Settings) (tokens : TokenSource) (r : Rig ω) (s : Session μ) :
    Prop where
  going : s.scheduler.cancelled = false
  pending : s.scheduler.pending = some ⟨tokens.issued⟩
  drawn : 0 < tokens.issued
  bound : s.subscriptions.map Subscription.watch = settings.watch
  armed : r.armed = (s.subscriptions.map Subscription.armed).reverse

def Holds (settings : Settings) (tokens : TokenSource) (r : Rig ω) : Phase μ → Prop
  | .idle => r.armed = [] ∧ r.board = r.board.clear
  | .running session _ => Lives settings tokens r session
  | .compiling .. | .stopped _ | .failed .. => r.armed = []

structure Orderly (settings : Settings) (c : Controller ω μ) : Prop where
  same : c.settings = settings
  fits : Fits (settings.watch.map Watch.name) c.rig
  holds : Holds settings c.tokens c.rig c.phase

theorem Orderly.lives {c : Controller ω μ} (orderly : Orderly settings c) {session : Session μ}
    {snapshot : Option Snapshot} (phase : c.phase = .running session snapshot) :
    Lives settings c.tokens c.rig session := by
  have holds := orderly.holds
  rw [phase] at holds
  exact holds

theorem Orderly.quiet {c : Controller ω μ} (orderly : Orderly settings c)
    (resting : c.phase.session? = none) : c.rig.armed = [] := by
  have holds := orderly.holds
  cases phase : c.phase with
  | running session snapshot =>
    rw [phase] at resting
    cases resting
  | idle =>
    rw [phase] at holds
    exact holds.1
  | _ =>
    rw [phase] at holds
    exact holds

theorem declareNew {b : Board} {name : String} (fresh : name ∉ b.names) :
    b.declare name = ⟨b.signals ++ [.fresh name]⟩ := if_neg fresh

theorem declareAll {b : Board} {watches : List Watch}
    (distinct : (watches.map Watch.name).Nodup) (apart : ∀ w ∈ watches, w.name ∉ b.names) :
    (watches.foldl (fun b w => b.declare w.name) b).signals =
      b.signals ++ (watches.map Watch.name).map Signal.fresh := by
  induction watches generalizing b with
  | nil => simp
  | cons w rest ih =>
    rw [List.map_cons, List.nodup_cons] at distinct
    have declared := declareNew (apart w (by simp))
    have later : ∀ v ∈ rest, v.name ∉ (b.declare w.name).names := by
      intro v member
      rw [declared]
      simp only [Board.names, List.map_append, List.map_cons, List.map_nil, List.mem_append,
        List.mem_singleton, not_or]
      refine ⟨apart v (List.mem_cons_of_mem _ member), fun same => distinct.1 ?_⟩
      exact List.mem_map.mpr ⟨v, member, same⟩
    rw [List.foldl_cons, ih distinct.2 later, declared]
    simp

theorem newOrderly {world : ω} {fresh : Controller ω μ} (made : new settings world = .ok fresh) :
    Orderly settings fresh ∧ fresh.tokens = ⟨0⟩ ∧
      (settings.watch.map Watch.name).Nodup := by
  unfold new at made
  split at made
  · cases made
  · rename_i usable
    have distinct := ((Settings.problemNone settings).mp usable).watch.names
    have signals := declareAll (b := Board.empty) distinct (by simp [Board.empty, Board.names])
    simp only [Board.empty, List.nil_append] at signals
    cases made
    have names : (settings.watch.foldl (fun b w => b.declare w.name) Board.empty).names =
        settings.watch.map Watch.name := by
      simp only [Board.names, Board.empty, signals, List.map_map]
      rfl
    refine ⟨⟨rfl, ⟨names, by simp [Rig.new], by simp [Rig.new]⟩, rfl, ?_⟩, rfl, distinct⟩
    show settings.watch.foldl (fun b w => b.declare w.name) Board.empty = Board.clear _
    refine Eq.trans (congrArg Board.mk signals) ?_
    exact congrArg (fun names => Board.mk (names.map Signal.fresh)) names.symm

theorem newParts {world : ω} {fresh : Controller ω μ} (made : new settings world = .ok fresh) :
    ∃ board, fresh = ⟨settings, .idle, ⟨0⟩, 0, 0, .new world board⟩ := by
  unfold new at made
  split at made
  · cases made
  · cases made
    exact ⟨_, rfl⟩

theorem newIdle {world : ω} {fresh : Controller ω μ} (made : new settings world = .ok fresh) :
    fresh.phase = .idle := by
  obtain ⟨board, rfl⟩ := newParts made
  rfl

theorem Orderly.kept {c : Controller ω μ} (orderly : Orderly settings c) {r : Rig ω}
    (kept : Keeps c.rig r) : Orderly settings (c.inRig r) where
  same := orderly.same
  fits := kept.fits orderly.fits
  holds := by
    have holds := orderly.holds
    show Holds settings c.tokens r c.phase
    cases phase : c.phase with
    | idle =>
      rw [phase] at holds
      exact ⟨kept.armed.trans holds.1, by rw [kept.board holds.1]; exact holds.2⟩
    | running session snapshot =>
      rw [phase] at holds
      exact {holds with armed := kept.armed.trans holds.armed}
    | _ =>
      rw [phase] at holds
      exact kept.armed.trans holds

theorem Orderly.record {c : Controller ω μ} (orderly : Orderly settings c)
    (severity : Log.Severity) (text : String) : Orderly settings (c.record severity text) :=
  orderly.kept (writeKeeps _ _)

theorem closedQuiet {names : List String} (env : Surroundings ω μ) (s : Session μ) {r : Rig ω}
    (fits : Fits names r) (armed : r.armed = (s.subscriptions.map Subscription.armed).reverse) :
    Fits names (s.close env.cpu env.host r).2 ∧ (s.close env.cpu env.host r).2.armed = [] := by
  obtain ⟨after, left⟩ := Session.closed env.cpu env.host s fits
  refine ⟨after, ?_⟩
  rw [left, armed, List.filter_eq_nil_iff]
  intro a member
  obtain ⟨subscription, mine, rfl⟩ := List.mem_map.mp (List.mem_reverse.mp member)
  have key : (Subscription.armed subscription).key ∈ s.subscriptions.map Subscription.key :=
    List.mem_map.mpr ⟨subscription, mine, rfl⟩
  simp [key]

section
variable {c : Controller ω μ}

theorem compilingOrderly (same : c.settings = settings)
    (fits : Fits (settings.watch.map Watch.name) c.rig) (quiet : c.rig.armed = [])
    (ticket : Ticket) (held : Option Held) (tickets : Nat) :
    Orderly settings
      ({c with phase := .compiling ticket held, tickets := tickets} : Controller ω μ) :=
  ⟨same, fits, quiet⟩

theorem startOrderly (orderly : Orderly settings c) (source : String) :
    Orderly settings (c.start source).2 := by
  have holds := orderly.holds
  unfold start
  cases phase : c.phase with
  | idle =>
    rw [phase] at holds
    exact (compilingOrderly orderly.same orderly.fits holds.1 _ none _).record _ _
  | stopped tally =>
    rw [phase] at holds
    exact (compilingOrderly orderly.same orderly.fits holds _ none _).record _ _
  | _ => exact orderly.record _ _

theorem stopOrderly (orderly : Orderly settings c) (env : Surroundings ω μ) :
    Orderly settings (c.stop env) := by
  have holds := orderly.holds
  unfold stop
  cases phase : c.phase with
  | compiling ticket held =>
    rw [phase] at holds
    have waiting := compilingOrderly orderly.same orderly.fits holds ticket (held.or (some .stop))
      c.tickets
    exact waiting.record _ _
  | running session snapshot =>
    rw [phase] at holds
    obtain ⟨fits, quiet⟩ := closedQuiet env session orderly.fits holds.armed
    have ended : Orderly settings ({c with
        phase := .stopped ⟨session.counters.cycles, snapshot⟩
        rig := (session.close env.cpu env.host c.rig).2} : Controller ω μ) :=
      ⟨orderly.same, fits, quiet⟩
    simp only [closeRun]
    exact ended.record _ _
  | _ => exact orderly.record _ _

theorem settleOrderly (same : c.settings = settings)
    (fits : Fits (settings.watch.map Watch.name) c.rig) (quiet : c.rig.armed = []) :
    Orderly settings c.settleIdle := by
  have again := (Board.clearTwice c.rig.board).symm
  have cleared : Orderly settings ({c with
      phase := .idle
      rig := (clear c.rig).2} : Controller ω μ) :=
    ⟨same, ⟨(Board.namesClear _).trans fits.board, fits.armed, fits.keys⟩, quiet, again⟩
  exact cleared.record _ _

theorem resetOrderly (orderly : Orderly settings c) (env : Surroundings ω μ) :
    Orderly settings (c.reset env) := by
  have holds := orderly.holds
  unfold reset
  cases phase : c.phase with
  | compiling ticket held =>
    rw [phase] at holds
    have waiting := compilingOrderly orderly.same orderly.fits holds ticket (some .reset) c.tickets
    exact waiting.record _ _
  | running session snapshot =>
    rw [phase] at holds
    obtain ⟨fits, quiet⟩ := closedQuiet env session orderly.fits holds.armed
    simp only [closeRun]
    exact settleOrderly orderly.same fits quiet
  | idle =>
    rw [phase] at holds
    exact settleOrderly orderly.same orderly.fits holds.1
  | _ =>
    rw [phase] at holds
    exact settleOrderly orderly.same orderly.fits holds

theorem launchOrderly (same : c.settings = settings)
    (fits : Fits (settings.watch.map Watch.name) c.rig) (quiet : c.rig.armed = [])
    (env : Surroundings ω μ) (image : Image) (model : μ) :
    Orderly settings (c.launch env image model) := by
  have read := keepsAsk env.clock c.rig
  have known : ∀ w ∈ c.settings.watch, w.name ∈ settings.watch.map Watch.name := by
    rw [same]
    exact fun w member => List.mem_map.mpr ⟨w, member, rfl⟩
  have opened := Subscription.allAttached env.cpu model (read.fits fits) known
  have asked := keepsAsk (env.host.request ⟨c.tokens.issued + 1⟩)
    (Subscription.attachAll env.cpu model c.settings.watch (ask env.clock c.rig).2).2
  have quietStill : (ask env.clock c.rig).2.armed = [] := read.armed.trans quiet
  rw [launchRun]
  refine ⟨same, (asked.trans (writeKeeps _ _)).fits opened.fits, rfl, rfl, Nat.succ_pos _, ?_, ?_⟩
  · exact opened.bound.trans (by rw [same])
  · refine asked.armed.trans (opened.armed.trans ?_)
    rw [quietStill, List.append_nil]

theorem loadOrderly (same : c.settings = settings)
    (fits : Fits (settings.watch.map Watch.name) c.rig) (quiet : c.rig.armed = [])
    (env : Surroundings ω μ) (outcome : Outcome) : Orderly settings (c.load env outcome) := by
  rcases loadRun env c outcome with
    ⟨failure, rig, loaded, along⟩ | ⟨text, image, model, rig, -, -, made, loaded⟩
  · have kept := along keepsWay.plain fun image => keepsAsk (env.construct image)
    rw [loaded]
    exact ⟨same, kept.fits fits, kept.armed.trans quiet⟩
  · have kept : Keeps c.rig rig := by
      have built := keepsAsk (env.construct image) (c.rig.write (.record .debug (loadedText image)))
      rw [made] at built
      exact (writeKeeps _ _).trans built
    rw [loaded]
    exact launchOrderly (c := c.inRig rig) same (kept.fits fits) (kept.armed.trans quiet) env image
      model

theorem orderlyPassage (settings : Settings) (env : Surroundings ω μ) :
    Passage env fun c d => Orderly settings c → Orderly settings d where
  trans early late orderly := late (early orderly)
  record _ severity text orderly := orderly.record severity text
  start _ source orderly := startOrderly orderly source
  stop _ orderly := stopOrderly orderly env
  reset _ orderly := resetOrderly orderly env
  load phase outcome orderly := by
    have quiet := orderly.holds
    rw [phase] at quiet
    exact loadOrderly orderly.same orderly.fits quiet env outcome

theorem completeOrderly (orderly : Orderly settings c) (env : Surroundings ω μ) (ticket : Ticket)
    (outcome : Outcome) : Orderly settings (c.complete env ticket outcome).2 :=
  (orderlyPassage settings env).complete c ticket outcome orderly

theorem startWithOrderly (orderly : Orderly settings c) (env : Surroundings ω μ) (source : String)
    (compiler : Compiler ω) : Orderly settings (c.startWith env source compiler).2 :=
  (orderlyPassage settings env).startWith
    (fun _ _ orderly => orderly.kept (keepsAsk _ _)) c source orderly

theorem frameOrderly (orderly : Orderly settings c) (env : Surroundings ω μ) (token : BurstToken) :
    Orderly settings (c.frame env token).2 := by
  by_cases waited : c.queued? = some token
  · obtain ⟨session, snapshot, phase, pending⟩ := queuedRunning waited
    have holds := orderly.lives phase
    have ran := Session.burstKeeps env.clock env.cpu session.spent c.rig
    rcases frameRun env c phase holds.going pending with
      ⟨fault, -, after⟩ | ⟨now, latest, rig, -, after, along⟩
    · obtain ⟨fits, quiet⟩ := closedQuiet env
        (session.spent.burst env.clock env.cpu c.rig).1.1 (ran.fits orderly.fits)
        (ran.armed.trans holds.armed)
      rw [after]
      have ended : Orderly settings ({c with
          phase := .failed (.cpu fault)
            ⟨(session.spent.burst env.clock env.cpu c.rig).1.1.counters.cycles, snapshot⟩
          rig := ((session.spent.burst env.clock env.cpu c.rig).1.1.close env.cpu env.host
            (session.spent.burst env.clock env.cpu c.rig).2).2} : Controller ω μ) :=
        ⟨orderly.same, fits, quiet⟩
      exact ended.record _ _
    · have kept := (ran.trans (along keepsWay.plain (keepsAsk env.clock))).trans
        (keepsAsk (env.host.request ⟨c.tokens.issued + 1⟩) rig)
      rw [after]
      exact ⟨orderly.same, kept.fits orderly.fits, holds.going, rfl, Nat.succ_pos _, holds.bound,
        kept.armed.trans holds.armed⟩
  · obtain ⟨severity, text, after⟩ := frameStale env c waited
    rw [after]
    exact orderly.record severity text

theorem performOrderly (orderly : Orderly settings c) (env : Surroundings ω μ)
    (command : Command ω) : Orderly settings (c.perform env command).2 := by
  cases command with
  | start source => exact startOrderly orderly source
  | complete ticket outcome => exact completeOrderly orderly env ticket outcome
  | startWith source compiler => exact startWithOrderly orderly env source compiler
  | stop => exact stopOrderly orderly env
  | reset => exact resetOrderly orderly env
  | frame token => exact frameOrderly orderly env token
  | outside act => exact orderly.kept (keepsAsk act c.rig)

theorem runOrderly (orderly : Orderly settings c) (env : Surroundings ω μ)
    (commands : List (Command ω)) : Orderly settings (c.run env commands).2 := by
  induction commands generalizing c with
  | nil => exact orderly
  | cons command rest ih => exact ih (performOrderly orderly env command)

end

end VirtualBoard.Controller
