import VirtualBoard.Proofs.Controller.Runs
import VirtualBoard.Proofs.Controller.Tickets
import VirtualBoard.Proofs.Signals.Bench
import VirtualBoard.Proofs.Signals.Sessions

/-! Signals follow their pins, in every run.

The model and everything else that acts while a session is live heed the listeners
of the model; the settings are usable ones and the commands any. What a signal was
before is read off the board as it was when no session was running last. -/
namespace VirtualBoard.Controller
open Rig

variable {ω μ : Type}

def Heeds (g : Gauge ω μ) (c : Controller ω μ) : Command ω → Prop
  | .outside act => ∀ session, c.phase.session? = some session →
    g.Heeds (g.Listens session.model c.rig.world) act c.rig.world session.model session.model
  | _ => True

def HeedsAll (g : Gauge ω μ) (env : Surroundings ω μ) (c : Controller ω μ) :
    List (Command ω) → Prop
  | [] => True
  | command :: rest => c.Heeds g command ∧ (c.perform env command).2.HeedsAll g env rest

theorem heedsAppend {g : Gauge ω μ} {env : Surroundings ω μ} {c : Controller ω μ}
    {early late : List (Command ω)} (first : c.HeedsAll g env early)
    (further : (c.run env early).2.HeedsAll g env late) : c.HeedsAll g env (early ++ late) := by
  induction early generalizing c with
  | nil => exact further
  | cons command rest ih => exact ⟨first.1, ih first.2 further⟩

def resting (env : Surroundings ω μ) (c : Controller ω μ) (seen : Board) :
    List (Command ω) → Board
  | [] => seen
  | command :: rest => (c.perform env command).2.resting env
    (if c.phase.session?.isSome then seen else c.rig.board) rest

def within (env : Surroundings ω μ) (c : Controller ω μ) (token : BurstToken) :
    List (μ × Rig ω) :=
  match c.phase.session? with
  | some session =>
    if session.scheduler.pending = some token then session.path env.clock env.cpu c.rig else []
  | none => []

section
variable {g : Gauge ω μ} {env : Surroundings ω μ} {settings : Settings} {names : List String}
  {d : Controller (Driven ω) μ} {session : Session μ} {snapshot : Option Snapshot}

def Shows (g : Gauge ω μ) (names : List String) (before : Board) (d : Controller (Driven ω) μ) :
    Prop :=
  ∀ session, d.phase.session? = some session →
    g.Watched names before session.subscriptions session.model d.rig

def Stays (g : Gauge ω μ) (names : List String) (session : Session μ)
    (d e : Controller (Driven ω) μ) : Prop :=
  ∀ next, e.phase.session? = some next → next.subscriptions = session.subscriptions ∧
    g.Reached names session.subscriptions session.model d.rig next.model e.rig

theorem showsOff {before : Board} (off : d.phase.session? = none) : Shows g names before d := by
  intro session live
  rw [off] at live
  cases live

theorem staysRecord (phase : d.phase = .running session snapshot)
    (coupled : g.Coupled names session.subscriptions session.model d.rig)
    (severity : Log.Severity) (text : String) :
    Stays g names session d (d.record severity text) := by
  intro next live
  have same : d.phase.session? = some next := live
  rw [phase] at same
  cases same
  exact ⟨rfl, (Gauge.Reached.refl coupled).write _⟩

theorem staysOff {e : Controller (Driven ω) μ} (off : e.phase.session? = none) :
    Stays g names session d e := by
  intro next live
  rw [off] at live
  cases live

theorem frameStays (faithful : g.Faithful env) (orderly : Orderly settings d)
    (phase : d.phase = .running session snapshot)
    (coupled : g.Coupled names session.subscriptions session.model d.rig) (token : BurstToken) :
    Stays g names session d (d.frame (env.driven g) token).2 := by
  by_cases waited : d.queued? = some token
  · have pending := (queuedBy phase).symm.trans waited
    have holds := orderly.lives phase
    have ran := (Session.burstReached (s := session.spent) faithful
      (Gauge.Reached.refl coupled)).2
    rcases frameRun (env.driven g) d phase holds.going pending with
      ⟨fault, -, after⟩ | ⟨now, latest, rig, -, after, along⟩
    · rw [after]
      exact staysOff rfl
    · have sampled := along Gauge.Reached.way.plain
        (fun _ reached => reached.ask (faithful.clock _ _ reached.coupled.sound)) ran
      have asked := sampled.ask (faithful.request _ ⟨d.tokens.issued + 1⟩ _ sampled.coupled.sound)
      rw [after]
      intro next live
      cases live
      exact ⟨rfl, asked⟩
  · obtain ⟨severity, text, after⟩ := frameStale (env.driven g) d waited
    rw [after]
    exact staysRecord phase coupled severity text

theorem performStays (faithful : g.Faithful env) (orderly : Orderly settings d)
    (phase : d.phase = .running session snapshot)
    (coupled : g.Coupled names session.subscriptions session.model d.rig) (command : Command ω)
    (heeds : (d.onto Driven.world).Heeds g command) :
    Stays g names session d (d.perform (env.driven g) (command.driven g)).2 := by
  have unpending : d.phase.ticket? = none := by rw [phase]; rfl
  have refused := fun source => startRefused (show (d.start source).1 = none by simp [start, phase])
  cases command with
  | start source =>
    obtain ⟨severity, text, started⟩ := refused source
    show Stays g names session d (d.start source).2
    rw [started]
    exact staysRecord phase coupled severity text
  | complete ticket outcome =>
    show Stays g names session d (d.complete (env.driven g) ticket outcome).2
    rw [completeStale (env.driven g) (by simp [unpending]) outcome]
    exact staysRecord phase coupled _ _
  | startWith source compiler =>
    obtain ⟨severity, text, started⟩ := refused source
    show Stays g names session d
      (d.startWith (env.driven g) source fun request => (compiler request).driven g).2
    rw [startWith, started]
    exact staysRecord phase coupled severity text
  | stop => exact staysOff (stopOff _ d)
  | reset => exact staysOff (resetOff _ d)
  | frame token => exact frameStays faithful orderly phase coupled token
  | outside act =>
    intro next live
    have same : d.phase.session? = some next := live
    have heeded := heeds next same
    rw [phase] at same
    cases same
    exact ⟨rfl, (Gauge.Reached.refl coupled).ask heeded⟩

theorem launchShows (faithful : g.Faithful env) {model : μ}
    (sound : g.Sound model d.rig.world.world)
    (unheard : ∀ key pin, ¬ g.Listens model d.rig.world.world key pin)
    (fits : Fits (d.settings.watch.map Watch.name) d.rig) (quiet : d.rig.armed = [])
    (distinct : (d.settings.watch.map Watch.name).Nodup) (image : Image) :
    Shows g (d.settings.watch.map Watch.name) d.rig.board
      (d.launch (env.driven g) image model) := by
  have begins := Gauge.Watched.start sound unheard fits quiet
  have read := begins.reached
    ((Gauge.Reached.refl begins.coupled).ask (faithful.clock _ _ sound))
  have opened := Subscription.attachAllWatched faithful read
    (fun w member => List.mem_map.mpr ⟨w, member, rfl⟩) (by simpa using distinct)
  have asked := opened.reached ((Gauge.Reached.refl opened.coupled).ask
    (faithful.request _ ⟨d.tokens.issued + 1⟩ _ opened.coupled.sound))
  intro session live
  rw [launchRun] at live ⊢
  cases live
  exact asked.reached ((Gauge.Reached.refl asked.coupled).write _)

theorem loadShows (faithful : g.Faithful env)
    (fits : Fits (d.settings.watch.map Watch.name) d.rig) (quiet : d.rig.armed = [])
    (distinct : (d.settings.watch.map Watch.name).Nodup) (outcome : Outcome) :
    Shows g (d.settings.watch.map Watch.name) d.rig.board (d.load (env.driven g) outcome) := by
  rcases loadRun (env.driven g) d outcome with
    ⟨failure, rig, loaded, -⟩ | ⟨text, image, model, rig, -, -, made, loaded⟩
  · rw [loaded]
    exact showsOff rfl
  · let begun := d.rig.write (.record .debug (loadedText image))
    have kept := (writeKeeps _ d.rig).trans (keepsAsk ((env.driven g).construct image) begun)
    have world := askWorld ((env.driven g).construct image) begun
    have value : (env.construct image d.rig.world.world).value = .ok model :=
      congrArg Prod.fst made
    change ask _ begun = _ at made
    rw [made] at kept world
    have place : rig.world.world = (env.construct image d.rig.world.world).world :=
      congrArg Driven.world world
    obtain ⟨sound, unheard⟩ := faithful.construct image d.rig.world.world model value
    rw [← place] at sound unheard
    have shows := launchShows (d := d.inRig rig) faithful sound unheard (kept.fits fits)
      (kept.armed.trans quiet) distinct image
    rw [loaded, ← kept.board quiet]
    exact shows

theorem completeShows (faithful : g.Faithful env) (orderly : Orderly settings d)
    (distinct : (settings.watch.map Watch.name).Nodup) (resting : d.phase.session? = none)
    (ticket : Ticket) (outcome : Outcome) : Shows g (settings.watch.map Watch.name) d.rig.board
      (d.complete (env.driven g) ticket outcome).2 := by
  by_cases pending : d.phase.ticket? = some ticket
  · obtain ⟨held, -, settled⟩ := completePending (env.driven g) pending outcome
    rw [settled]
    cases held with
    | none =>
      obtain rfl := orderly.same
      exact loadShows faithful orderly.fits (orderly.quiet resting) distinct outcome
    | some command => exact showsOff (applyOff _ _ command)
  · rw [completeStale (env.driven g) pending outcome]
    exact showsOff resting

theorem startRig (c : Controller ω μ) (source : String) :
    ∃ entry, (c.start source).2.rig = c.rig.write entry := by
  unfold start
  cases c.phase <;> exact ⟨_, rfl⟩

theorem startResting (c : Controller ω μ) (source : String)
    (resting : c.phase.session? = none) : (c.start source).2.phase.session? = none := by
  obtain ⟨settings, phase, tokens, tickets, sessions, r⟩ := c
  cases phase with
  | running session snapshot => cases resting
  | _ => rfl

theorem startWithShows (faithful : g.Faithful env) (orderly : Orderly settings d)
    (distinct : (settings.watch.map Watch.name).Nodup) (resting : d.phase.session? = none)
    (source : String) (compiler : Compiler (Driven ω)) :
    Shows g (settings.watch.map Watch.name) d.rig.board
      (d.startWith (env.driven g) source compiler).2 := by
  have begun := startOrderly orderly source
  have waits := startResting d source resting
  obtain ⟨entry, wrote⟩ := startRig d source
  unfold startWith
  generalize d.start source = out at begun waits wrote
  obtain ⟨request, c⟩ := out
  cases request with
  | none => exact showsOff waits
  | some request =>
    have asked := keepsAsk (compiler request.body) c.rig
    have board : (ask (compiler request.body) c.rig).2.board = d.rig.board := by
      refine (asked.board (begun.quiet waits)).trans ?_
      rw [wrote]
      rfl
    rw [← board]
    exact completeShows (d := c.inRig _) faithful (begun.kept asked) distinct waits _ _

theorem performShows (faithful : g.Faithful env) (orderly : Orderly settings d)
    (distinct : (settings.watch.map Watch.name).Nodup) (resting : d.phase.session? = none)
    (command : Command ω) : Shows g (settings.watch.map Watch.name) d.rig.board
      (d.perform (env.driven g) (command.driven g)).2 := by
  cases command with
  | complete ticket outcome =>
    exact completeShows faithful orderly distinct resting ticket outcome
  | startWith source compiler =>
    exact startWithShows faithful orderly distinct resting source
      fun request => (compiler request).driven g
  | start source => exact showsOff (startResting d source resting)
  | stop => exact showsOff (stopOff _ d)
  | reset => exact showsOff (resetOff _ d)
  | frame token =>
    have unqueued : d.queued? ≠ some token := by simp [queued?, resting]
    obtain ⟨severity, text, after⟩ := frameStale (env.driven g) d unqueued
    show Shows g _ _ (d.frame (env.driven g) token).2
    rw [after]
    exact showsOff resting
  | outside act => exact showsOff resting

theorem runShows (faithful : g.Faithful env) (orderly : Orderly settings d)
    (distinct : (settings.watch.map Watch.name).Nodup) {seen : Board}
    (shows : Shows g (settings.watch.map Watch.name) seen d) (commands : List (Command ω))
    (heeds : (d.onto Driven.world).HeedsAll g env commands) :
    Shows g (settings.watch.map Watch.name) ((d.onto Driven.world).resting env seen commands)
      (d.run (env.driven g) (commands.map (Command.driven g))).2 := by
  induction commands generalizing d seen with
  | nil => exact shows
  | cons command rest ih =>
    obtain ⟨first, others⟩ := heeds
    have later := performOrderly orderly (env.driven g) (command.driven g)
    rw [drivenPerform] at others
    rw [resting, drivenPerform]
    refine ih later ?_ others
    -- the board from before changes only while no session is live
    cases phase : d.phase.session? with
    | none =>
      have same : (d.onto Driven.world).phase.session? = none := phase
      rw [same]
      exact performShows faithful orderly distinct phase command
    | some session =>
      have same : (d.onto Driven.world).phase.session? = some session := phase
      rw [same]
      intro next live
      have watched := shows session phase
      obtain ⟨snapshot, running⟩ := sessionRunning phase
      obtain ⟨subscriptions, reached⟩ :=
        performStays faithful orderly running watched.coupled command first next live
      rw [subscriptions]
      exact watched.reached reached

theorem drivenRun (g : Gauge ω μ) (env : Surroundings ω μ) (d : Controller (Driven ω) μ)
    (commands : List (Command ω)) : (d.onto Driven.world).run env commands =
      ((d.run (env.driven g) (commands.map (Command.driven g))).1,
        (d.run (env.driven g) (commands.map (Command.driven g))).2.onto Driven.world) := by
  induction commands generalizing d with
  | nil => rfl
  | cons command rest ih => simp only [run, List.map_cons, drivenPerform g, ih]

theorem drivenWithin (g : Gauge ω μ) (env : Surroundings ω μ) (d : Controller (Driven ω) μ)
    (token : BurstToken) : (d.onto Driven.world).within env token =
      (d.within (env.driven g) token).map fun p => (p.1, p.2.onto Driven.world) := by
  have same : (d.onto Driven.world).phase = d.phase := rfl
  unfold within
  rw [same]
  cases d.phase.session? with
  | none => rfl
  | some session =>
    dsimp only
    split
    · exact session.pathOver (env.drivenOver g) d.rig
    · rfl

theorem indicatorShows {before : Board}
    (bound : session.subscriptions.map Subscription.watch = d.settings.watch)
    (shown : ∀ s ∈ session.subscriptions, g.Follows before s session.model d.rig) :
    d.view.indicator = (d.settings.indicator?.map fun w =>
      (g.level session.model d.rig.world.world w.pin).isHigh).getD false := by
  show (((d.settings.watch.head?.map Watch.name).bind d.rig.board.find?).map fun s =>
    s.level.isHigh).getD false = (d.settings.watch.head?.map _).getD false
  rw [← bound]
  cases own : session.subscriptions with
  | nil => rfl
  | cons s rest =>
    obtain ⟨old, now, joined, since, account⟩ := shown s (by rw [own]; exact List.mem_cons_self ..)
    have found : d.rig.board.find? s.watch.name = some now := account.shown
    simp only [List.map_cons, List.head?_cons, Option.map_some, Option.bind_some, found,
      Option.getD_some]
    rw [account.level]
    rfl

/- What is so of a session in any reachable state and at every step of its next frame: each signal
has its pin's level and the count of its changes since it was subscribed to, the indicator is that
of the first pin, and nothing changes a signal but what sets its own pin. -/
structure Mirrors (g : Gauge ω μ) (env : Surroundings ω μ) (settings : Settings) (before : Board)
    (d : Controller (Driven ω) μ) (session : Session μ) : Prop where
  bound : session.subscriptions.map Subscription.watch = settings.watch
  shown : ∀ s ∈ session.subscriptions, g.Follows before s session.model d.rig
  indicator : d.view.indicator = (settings.indicator?.map fun w =>
    (g.level session.model d.rig.world.world w.pin).isHigh).getD false
  inside : ∀ token, ∀ p ∈ d.within (env.driven g) token,
    (∀ s ∈ session.subscriptions, g.Follows before s p.1 p.2) ∧
    ∃ more, g.Moved session.subscriptions session.model d.rig p.1 p.2 more
  next : ∀ command, (d.onto Driven.world).Heeds g command →
    ∀ later, (d.perform (env.driven g) (command.driven g)).2.phase.session? = some later →
      ∃ more, g.Moved session.subscriptions session.model d.rig later.model
        (d.perform (env.driven g) (command.driven g)).2.rig more

theorem Orderly.mirrors (faithful : g.Faithful env) (orderly : Orderly settings d)
    {before : Board} (shows : Shows g (settings.watch.map Watch.name) before d)
    (live : d.phase.session? = some session) : Mirrors g env settings before d session := by
  obtain ⟨snapshot, phase⟩ := sessionRunning live
  have watched := shows session live
  have holds := orderly.lives phase
  obtain rfl := orderly.same
  refine ⟨holds.bound, watched.shown, indicatorShows holds.bound watched.shown,
    fun token p member => ?_, fun command heeds later there => ?_⟩
  · have path : p ∈ session.path (env.driven g).clock (env.driven g).cpu d.rig := by
      unfold within at member
      rw [live] at member
      dsimp only at member
      split at member
      · exact member
      · cases member
    have reached := (Session.burstReached faithful (Gauge.Reached.refl watched.coupled)).1 p path
    exact ⟨(watched.reached reached).shown, reached.moved⟩
  · exact (performStays faithful orderly phase watched.coupled command heeds later there).2.moved

end

theorem signalsFollow (env : Surroundings ω μ) (g : Gauge ω μ) (faithful : g.Faithful env)
    {settings : Settings} (usable : settings.problem? = none) (world : ω) :
    ∃ fresh : Controller ω μ, new settings world = .ok fresh ∧
      ∀ commands, fresh.HeedsAll g env commands →
        let c := (fresh.run env commands).2
        let d := (fresh.recorded.run (env.driven g) (commands.map (Command.driven g))).2
        c = d.onto Driven.world ∧
        (∀ token, c.within env token =
          (d.within (env.driven g) token).map fun p => (p.1, p.2.onto Driven.world)) ∧
        ∀ session, c.phase.session? = some session →
          Mirrors g env settings (fresh.resting env fresh.rig.board commands) d session := by
  obtain ⟨fresh, made⟩ := newUsable (μ := μ) usable world
  refine ⟨fresh, made, fun commands heeds => ?_⟩
  obtain ⟨orderly, -, distinct⟩ := newOrderly made
  have resting : Shows g (settings.watch.map Watch.name) fresh.rig.board fresh.recorded :=
    showsOff (congrArg Phase.session? (newIdle made))
  have begun : Orderly settings fresh.recorded := Orderly.above (f := Driven.world) orderly
  have forgotten := congrArg Prod.snd (drivenRun g env fresh.recorded commands)
  have shows := runShows faithful begun distinct resting commands heeds
  have after := runOrderly begun (env.driven g) (commands.map (Command.driven g))
  intro c d
  have same : c = d.onto Driven.world := forgotten
  refine ⟨same, fun token => ?_, fun session live => ?_⟩
  · rw [same]
    exact drivenWithin g env d token
  · rw [same] at live
    exact after.mirrors faithful shows live

theorem benchFollows : ∃ fresh : Controller Bench Nat, new Bench.settings ⟨[], []⟩ = .ok fresh ∧
    let env := Bench.surroundings Bench.toggle fun _ => []
    let commands := [Bench.begin, .frame ⟨1⟩, .reset, Bench.begin, .frame ⟨3⟩,
      .outside (Bench.drive [⟨.led, .low⟩] ())]
    let c := (fresh.run env commands).2
    let d := (fresh.recorded.run (env.driven Bench.gauge)
      (commands.map (Command.driven Bench.gauge))).2
    c.rig.board.signals = [⟨"led", .low, 4⟩, ⟨"lamp", .low, 4⟩, ⟨"buzzer", .high, 1⟩] ∧
    ∃ session, c.phase.session? = some session ∧
      Mirrors Bench.gauge env Bench.settings (fresh.resting env fresh.rig.board commands) d
        session := by
  let env := Bench.surroundings Bench.toggle fun _ => []
  let early := [Bench.begin, .frame ⟨1⟩, .reset, Bench.begin, .frame ⟨3⟩]
  let set : Command Bench := .outside (Bench.drive [⟨.led, .low⟩] ())
  obtain ⟨fresh, made, all⟩ := signalsFollow env Bench.gauge (Bench.faithful _ _)
    (show Bench.settings.problem? = none by decide) ⟨[], []⟩
  have known : (new Bench.settings ⟨[], []⟩).toOption.map (fun fresh : Controller Bench Nat =>
      ((fresh.run env early).2.rig.world.table.map Prod.fst,
        (fresh.run env (early ++ [set])).2.rig.board.signals,
        (fresh.run env (early ++ [set])).2.phase.session?.isSome)) =
      some ([⟨5⟩, ⟨4⟩, ⟨3⟩], [⟨"led", .low, 4⟩, ⟨"lamp", .low, 4⟩, ⟨"buzzer", .high, 1⟩], true) := by
    decide +kernel
  rw [made] at known
  simp only [Except.toOption, Option.map_some, Option.some.injEq, Prod.mk.injEq] at known
  obtain ⟨keys, signals, live⟩ := known
  obtain ⟨session, running⟩ := Option.isSome_iff_exists.mp live
  have sound : ((fresh.run env early).2.rig.world.table.map Prod.fst).Nodup := by
    rw [keys]
    decide
  have unset : fresh.HeedsAll Bench.gauge env early :=
    ⟨trivial, trivial, trivial, trivial, trivial, trivial⟩
  have heeds : fresh.HeedsAll Bench.gauge env (early ++ [set]) := heedsAppend unset
    ⟨fun session _ => Bench.driveHeeds sound [⟨.led, .low⟩] () session.model, trivial⟩
  obtain ⟨-, -, follows⟩ := all (early ++ [set]) heeds
  exact ⟨fresh, made, signals, session, running, follows session running⟩

end VirtualBoard.Controller
