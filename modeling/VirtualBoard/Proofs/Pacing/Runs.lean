import VirtualBoard.Proofs.Controller.Runs
import VirtualBoard.Proofs.Pacing.Session

/-! Runs of a controller beside the chip that their sessions show.

Between any two commands a live session shows its chip as many beats on as it has
counted steps, so what paced the run cannot be told from the chip. Two runs may
differ in everything but the chip, the image and the watch list. -/
namespace VirtualBoard
open Rig

section
variable {ω μ σ : Type} {chip : Chip σ} {probe : Probe ω μ σ} {env : Surroundings ω μ}
  {settings : Settings}

def Probe.Opened (probe : Probe ω μ σ) (env : Surroundings ω μ) (watch : List Watch) (image : Image)
    (start : σ × List Level) : Prop :=
  ∃ r s model, Fits (watch.map Watch.name) r ∧ r.armed = [] ∧
    ask (env.construct image) r = (.ok model, s) ∧
    let opened := Subscription.attachAll env.cpu model watch (ask env.clock s).2
    start = probe.state opened.1.1 opened.2

theorem constructTracks (steady : chip.Steady probe env) {names : List String}
    (distinct : names.Nodup) {r s : Rig ω} (fits : Fits names r) (quiet : r.armed = [])
    {image : Image} {model : μ} (made : ask (env.construct image) r = (.ok model, s)) :
    probe.Tracks names [] model (ask env.clock s).2 ∧
      probe.state model (ask env.clock s).2 = (probe.core model s.world, s.levels) := by
  have kept := keepsAsk (env.construct image) r
  have world := askWorld (env.construct image) r
  have value : (env.construct image r.world).value = .ok model := congrArg Prod.fst made
  rw [made] at kept world
  have tracks : probe.Tracks names [] model s := by
    refine ⟨wiredNone (kept.fits fits) distinct (kept.armed.trans quiet), ?_⟩
    rw [show s.world = _ from world]
    exact steady.construct image r.world model value
  exact Probe.sparedUnmoved (steady.clock model s.world) tracks

theorem openedRepeats (steady : chip.Steady probe env) (repeats : chip.Repeats probe env)
    {watch : List Watch} (distinct : (watch.map Watch.name).Nodup) {image : Image}
    {start : σ × List Level} (opened : probe.Opened env watch image start) :
    start = chip.subscribe watch (chip.boot image, []) := by
  obtain ⟨r, s, model, fits, quiet, made, rfl⟩ := opened
  obtain ⟨tracks, same⟩ := constructTracks steady distinct fits quiet made
  have value : (env.construct image r.world).value = .ok model := congrArg Prod.fst made
  have world : s.world = (env.construct image r.world).world := by
    rw [← askWorld, made]
  have boot : probe.core model s.world = chip.boot image := by
    rw [world]
    exact repeats.construct image r.world model value
  have length := Chip.levelsLength tracks
  have shown := Chip.attachAllState steady repeats watch tracks rfl
    (List.nil_append _).symm rfl
  rw [shown]
  have core : probe.core model (ask env.clock s).2.world = chip.boot image :=
    (congrArg Prod.fst same).trans boot
  have short : (ask env.clock s).2.levels.length ≤ watch.length :=
    Nat.le_of_eq (length.trans (List.length_map _))
  rw [core, List.drop_of_length_le short, List.append_nil]

namespace Controller

def Paced (chip : Chip σ) (probe : Probe ω μ σ) (env : Surroundings ω μ) (settings : Settings)
    (c : Controller ω μ) : Prop :=
  ∀ session, c.phase.session? = some session →
    ∃ start, probe.Opened env settings.watch session.image start ∧
      probe.Tracks (settings.watch.map Watch.name) (session.subscriptions.map Subscription.key)
        session.model c.rig ∧
      chip.after session.counters.cycles start = .ok (probe.state session.model c.rig)

section
variable {c : Controller ω μ}

theorem pacedOff (off : c.phase.session? = none) : Paced chip probe env settings c := by
  intro session live
  rw [off] at live
  cases live

theorem Paced.unmoved (paced : Paced chip probe env settings c) {r : Rig ω}
    (still : ∀ session keys, c.phase.session? = some session →
      probe.Unmoved (settings.watch.map Watch.name) keys session.model c.rig r) :
    Paced chip probe env settings (c.inRig r) := by
  intro session live
  obtain ⟨start, opened, tracks, beaten⟩ := paced session live
  obtain ⟨tracked, same⟩ := still session _ live tracks
  exact ⟨start, opened, tracked, by rw [beaten]; exact congrArg _ same.symm⟩

theorem Paced.record (paced : Paced chip probe env settings c) (severity : Log.Severity)
    (text : String) : Paced chip probe env settings (c.record severity text) :=
  paced.unmoved fun _ _ _ => Probe.unmovedWay.write _ _

theorem startPaced (paced : Paced chip probe env settings c) (source : String) :
    Paced chip probe env settings (c.start source).2 := by
  unfold start
  cases phase : c.phase with
  | idle => exact pacedOff rfl
  | stopped tally => exact pacedOff rfl
  | _ => exact paced.record _ _

theorem loadPaced (steady : chip.Steady probe env)
    (distinct : (settings.watch.map Watch.name).Nodup) (same : c.settings = settings)
    (fits : Fits (settings.watch.map Watch.name) c.rig) (quiet : c.rig.armed = [])
    (outcome : Outcome) : Paced chip probe env settings (c.load env outcome) := by
  rcases loadRun env c outcome with
    ⟨failure, rig, loaded, -⟩ | ⟨text, image, model, rig, -, -, made, loaded⟩
  · rw [loaded]
    exact pacedOff rfl
  · have written := writeKeeps (.record .debug (loadedText image)) c.rig
    obtain ⟨tracks, -⟩ := constructTracks steady distinct (written.fits fits)
      (written.armed.trans quiet) made
    have opened := Chip.attachAllTracks steady settings.watch tracks rfl
    have last := Probe.unmovedWay.trans
      (Probe.sparedUnmoved (steady.request _ ⟨c.tokens.issued + 1⟩ _))
      (Probe.unmovedWay.write (.record .info (SessionId.text ⟨c.sessions + 1⟩ ++ " running a "
        ++ Text.decimal image.words.size ++ "-word image")) _) opened
    rw [loaded, launchRun]
    intro session live
    cases live
    subst same
    exact ⟨_, ⟨_, rig, model, written.fits fits, written.armed.trans quiet, made, rfl⟩, last.1,
      congrArg Except.ok last.2.symm⟩

theorem pacedPassage (steady : chip.Steady probe env)
    (distinct : (settings.watch.map Watch.name).Nodup) :
    Passage env fun c d => Orderly settings c ∧ Paced chip probe env settings c →
      Orderly settings d ∧ Paced chip probe env settings d where
  trans early late both := late (early both)
  record _ severity text both := ⟨both.1.record severity text, both.2.record severity text⟩
  start _ source both := ⟨startOrderly both.1 source, startPaced both.2 source⟩
  stop _ both := ⟨stopOrderly both.1 env, pacedOff (stopOff env _)⟩
  reset _ both := ⟨resetOrderly both.1 env, pacedOff (resetOff env _)⟩
  load phase outcome both := by
    obtain ⟨⟨same, fits, quiet⟩, -⟩ := both
    rw [phase] at quiet
    exact ⟨loadOrderly same fits quiet env outcome,
      loadPaced steady distinct same fits quiet outcome⟩

theorem completePaced (steady : chip.Steady probe env)
    (distinct : (settings.watch.map Watch.name).Nodup) (orderly : Orderly settings c)
    (paced : Paced chip probe env settings c) (ticket : Ticket) (outcome : Outcome) :
    Paced chip probe env settings (c.complete env ticket outcome).2 :=
  ((pacedPassage steady distinct).complete c ticket outcome ⟨orderly, paced⟩).2

theorem startWithPaced (steady : chip.Steady probe env)
    (distinct : (settings.watch.map Watch.name).Nodup) (orderly : Orderly settings c)
    (paced : Paced chip probe env settings c) (source : String) (compiler : Compiler ω) :
    Paced chip probe env settings (c.startWith env source compiler).2 := by
  have compiles : ∀ {d : Controller ω μ} {ticket held}, d.phase = .compiling ticket held →
      ∀ request, Orderly settings d ∧ Paced chip probe env settings d →
        Orderly settings (d.work (ask (compiler request))).2 ∧
          Paced chip probe env settings (d.work (ask (compiler request))).2 := by
    intro d ticket held phase request both
    have off : (d.work (ask (compiler request))).2.phase.session? = none :=
      congrArg Phase.session? phase
    exact ⟨both.1.kept (keepsAsk _ _), pacedOff off⟩
  exact ((pacedPassage steady distinct).startWith compiles c source ⟨orderly, paced⟩).2

theorem frameBeats (steady : chip.Steady probe env) (orderly : Orderly settings c)
    (paced : Paced chip probe env settings c) (token : BurstToken) :
    Paced chip probe env settings (c.frame env token).2 ∧
    ∀ failure, (c.frame env token).1 = .faulted failure →
      ∃ session fault start, c.phase.session? = some session ∧ failure = .cpu fault ∧
        probe.Opened env settings.watch session.image start ∧
        (∃ s, chip.after (c.frame env token).2.phase.cycles start = .ok s) ∧
        chip.after ((c.frame env token).2.phase.cycles + 1) start = .error fault := by
  by_cases waited : c.queued? = some token
  · obtain ⟨session, snapshot, phase, pending⟩ := queuedRunning waited
    have holds := orderly.lives phase
    have live : c.phase.session? = some session := by rw [phase]; rfl
    obtain ⟨start, opened, tracks, beaten⟩ := paced session live
    obtain ⟨k, count, ran⟩ := Chip.burstRan steady session.spent tracks
    have further : ∀ n, chip.after (session.counters.cycles + n) start =
        chip.after n (probe.state session.model c.rig) := fun n => Chip.afterAdd beaten
    unfold Chip.Ran at ran
    rcases frameRun env c phase holds.going pending with
      ⟨fault, exit, after⟩ | ⟨now, latest, rig, exit, after, along⟩
    · rw [after]
      refine ⟨pacedOff rfl, fun failure answer => ?_⟩
      cases answer
      rw [exit] at ran
      obtain ⟨⟨last, reached⟩, faulted⟩ := ran
      refine ⟨session, fault, start, live, rfl, opened, ⟨last, ?_⟩, ?_⟩
      · exact (congrArg (chip.after · start) count).trans ((further k).trans reached)
      · exact (congrArg (fun n => chip.after (n + 1) start) count).trans
          ((further (k + 1)).trans faulted)
    · rw [exit] at ran
      obtain ⟨tracked, reached⟩ := ran
      obtain ⟨last, same⟩ := Probe.unmovedWay.trans
        (along Probe.unmovedWay.plain fun r => Probe.sparedUnmoved (steady.clock _ r.world))
        (Probe.sparedUnmoved (steady.request _ ⟨c.tokens.issued + 1⟩ rig.world)) tracked
      rw [after]
      refine ⟨fun next running => ?_, fun failure answer => by cases answer⟩
      cases running
      refine ⟨start, opened, last, ?_⟩
      exact (congrArg (chip.after · start) count).trans
        ((further k).trans (reached.trans (congrArg Except.ok same.symm)))
  · obtain ⟨severity, text, after⟩ := frameStale env c waited
    rw [after]
    exact ⟨paced.record severity text, fun failure answer => by cases answer⟩

theorem performPaced (steady : chip.Steady probe env)
    (distinct : (settings.watch.map Watch.name).Nodup) (orderly : Orderly settings c)
    (paced : Paced chip probe env settings c) (command : Command ω)
    (spared : ∀ act session, command = .outside act → c.phase.session? = some session →
      probe.Spares session.model act c.rig.world) :
    Paced chip probe env settings (c.perform env command).2 := by
  cases command with
  | start source => exact startPaced paced source
  | complete ticket outcome => exact completePaced steady distinct orderly paced ticket outcome
  | startWith source compiler => exact startWithPaced steady distinct orderly paced source compiler
  | stop => exact pacedOff (stopOff env _)
  | reset => exact pacedOff (resetOff env _)
  | frame token => exact (frameBeats steady orderly paced token).1
  | outside act =>
    exact paced.unmoved fun session _ live => Probe.sparedUnmoved (spared act session rfl live)

end

/- Commands in whose course nothing outside reaches into a live session's model. -/
def Undisturbed (env : Surroundings ω μ) (probe : Probe ω μ σ) :
    Controller ω μ → List (Command ω) → Prop
  | _, [] => True
  | c, command :: rest =>
    (∀ act session, command = .outside act → c.phase.session? = some session →
      probe.Spares session.model act c.rig.world) ∧
    Undisturbed env probe (c.perform env command).2 rest

theorem runPaced (steady : chip.Steady probe env)
    (distinct : (settings.watch.map Watch.name).Nodup) {c : Controller ω μ}
    (orderly : Orderly settings c) (paced : Paced chip probe env settings c)
    {commands : List (Command ω)} (calm : Undisturbed env probe c commands) :
    Paced chip probe env settings (c.run env commands).2 := by
  induction commands generalizing c with
  | nil => exact paced
  | cons command rest ih =>
    exact ih (performOrderly orderly env command)
      (performPaced steady distinct orderly paced command calm.1) calm.2

/- What a controller shows of a chip: a live session is as many beats on as it has
counted, and one that faults in its next frame does so by the chip's own fault. -/
structure Follows (chip : Chip σ) (probe : Probe ω μ σ) (env : Surroundings ω μ)
    (settings : Settings) (c : Controller ω μ) : Prop where
  live : ∀ session, c.phase.session? = some session →
    ∃ start, probe.Opened env settings.watch session.image start ∧
      chip.after session.counters.cycles start = .ok (probe.state session.model c.rig)
  faulted : ∀ token failure, (c.frame env token).1 = .faulted failure →
    ∃ session fault start, c.phase.session? = some session ∧ failure = .cpu fault ∧
      probe.Opened env settings.watch session.image start ∧
      (∃ s, chip.after (c.frame env token).2.phase.cycles start = .ok s) ∧
      chip.after ((c.frame env token).2.phase.cycles + 1) start = .error fault

theorem newFollows (steady : chip.Steady probe env) {world : ω} {fresh : Controller ω μ}
    (made : new settings world = .ok fresh) (commands : List (Command ω))
    (calm : Undisturbed env probe fresh commands) :
    Follows chip probe env settings (fresh.run env commands).2 := by
  obtain ⟨orderly, -, distinct⟩ := newOrderly made
  have paced := runPaced steady distinct orderly
    (pacedOff (by rw [newIdle made]; rfl)) calm
  refine ⟨fun session live => ?_, fun token failure answer => ?_⟩
  · obtain ⟨start, opened, -, beaten⟩ := paced session live
    exact ⟨start, opened, beaten⟩
  · exact (frameBeats steady (runOrderly orderly env commands) paced token).2 failure answer

/- What two controllers show alike while their sessions run the same image. -/
structure Agrees {ω' μ' : Type} (probe : Probe ω μ σ) (probe' : Probe ω' μ' σ)
    (env : Surroundings ω μ) (env' : Surroundings ω' μ') (c : Controller ω μ)
    (c' : Controller ω' μ') (s : Session μ) (s' : Session μ') : Prop where
  core : s.counters.cycles = s'.counters.cycles →
    probe.core s.model c.rig.world = probe'.core s'.model c'.rig.world
  pins : s.counters.cycles = s'.counters.cycles → ∀ pin,
    (env.cpu.level s.model pin c.rig.world).value = (env'.cpu.level s'.model pin c'.rig.world).value
  signals : s.counters.cycles = s'.counters.cycles →
    c.rig.board.signals.map (fun signal => (signal.name, signal.level)) =
      c'.rig.board.signals.map (fun signal => (signal.name, signal.level))
  bound : ∀ token failure, (c.frame env token).1 = .faulted failure →
    s'.counters.cycles ≤ (c.frame env token).2.phase.cycles
  fault : ∀ token token' failure failure', (c.frame env token).1 = .faulted failure →
    (c'.frame env' token').1 = .faulted failure' →
    (c.frame env token).2.phase.cycles = (c'.frame env' token').2.phase.cycles ∧ failure = failure'

theorem Follows.agrees {ω' μ' : Type} {probe' : Probe ω' μ' σ} {env' : Surroundings ω' μ'}
    {settings' : Settings} {c : Controller ω μ} {c' : Controller ω' μ'}
    (follows : Follows chip probe env settings c) (follows' : Follows chip probe' env' settings' c')
    (steady : chip.Steady probe env) (steady' : chip.Steady probe' env')
    (repeats : chip.Repeats probe env) (repeats' : chip.Repeats probe' env')
    (orderly : Orderly settings c) (orderly' : Orderly settings' c')
    (distinct : (settings.watch.map Watch.name).Nodup) (watch : settings.watch = settings'.watch)
    {s : Session μ} {s' : Session μ'} (live : c.phase.session? = some s)
    (live' : c'.phase.session? = some s') (image : s.image = s'.image) :
    Agrees probe probe' env env' c c' s s' := by
  have distinct' := distinct
  rw [watch] at distinct'
  obtain ⟨start, opened, beaten⟩ := follows.live s live
  obtain ⟨start', opened', beaten'⟩ := follows'.live s' live'
  have begun : ∀ t, probe.Opened env settings.watch s.image t → t = start := fun t given =>
    (openedRepeats steady repeats distinct given).trans
      (openedRepeats steady repeats distinct opened).symm
  have begun' : ∀ t, probe'.Opened env' settings'.watch s'.image t → t = start := by
    intro t given
    rw [openedRepeats steady' repeats' distinct' given,
      openedRepeats steady repeats distinct opened, watch, image]
  rw [begun' start' opened'] at beaten'
  have states : s.counters.cycles = s'.counters.cycles →
      probe.state s.model c.rig = probe'.state s'.model c'.rig := by
    intro same
    rw [same, beaten'] at beaten
    exact (Except.ok.inj beaten).symm
  have cores := fun same => (Prod.mk.inj (states same)).1
  have levels := fun same => (Prod.mk.inj (states same)).2
  -- Either fault is one of the beats from the common start.
  have faulting : ∀ token failure, (c.frame env token).1 = .faulted failure →
      ∃ fault t, failure = .cpu fault ∧
        chip.after (c.frame env token).2.phase.cycles start = .ok t ∧
        chip.after ((c.frame env token).2.phase.cycles + 1) start = .error fault := by
    intro token failure answer
    obtain ⟨session, fault, first, here, rfl, given, ⟨t, reached⟩, broken⟩ :=
      follows.faulted token failure answer
    cases Option.some.inj (here.symm.trans live)
    rw [begun first given] at reached broken
    exact ⟨fault, t, rfl, reached, broken⟩
  refine ⟨cores, fun same pin => ?_, fun same => ?_, fun token failure answer => ?_,
    fun token token' failure failure' answer answer' => ?_⟩
  · rw [(repeats.level _ _ _).1, (repeats'.level _ _ _).1, cores same]
  · have names : c.rig.board.signals.map Signal.name = c'.rig.board.signals.map Signal.name := by
      have first := orderly.fits.board
      have second := orderly'.fits.board
      rw [← watch] at second
      exact first.trans second.symm
    rw [← List.zip_map', ← List.zip_map', names]
    exact congrArg _ (levels same)
  · obtain ⟨fault, t, -, -, broken⟩ := faulting token failure answer
    exact Chip.faultBound broken beaten'
  · obtain ⟨fault, t, rfl, reached, broken⟩ := faulting token failure answer
    obtain ⟨session, fault', first, here, rfl, given, ⟨t', reached'⟩, broken'⟩ :=
      follows'.faulted token' failure' answer'
    cases Option.some.inj (here.symm.trans live')
    rw [begun' first given] at reached' broken'
    obtain ⟨same, one⟩ := Chip.faultOnce reached broken reached' broken'
    exact ⟨same, by rw [one]⟩

theorem pacingUnseen {ω' μ' : Type} {probe' : Probe ω' μ' σ} {env' : Surroundings ω' μ'}
    {settings' : Settings} (steady : chip.Steady probe env) (steady' : chip.Steady probe' env')
    (usable : settings.problem? = none) (usable' : settings'.problem? = none)
    (world : ω) (world' : ω') :
    ∃ (fresh : Controller ω μ) (fresh' : Controller ω' μ'),
      new settings world = .ok fresh ∧ new settings' world' = .ok fresh' ∧
      (∀ commands, Undisturbed env probe fresh commands →
        Follows chip probe env settings (fresh.run env commands).2) ∧
      (chip.Repeats probe env → chip.Repeats probe' env' → settings.watch = settings'.watch →
        ∀ commands commands', Undisturbed env probe fresh commands →
          Undisturbed env' probe' fresh' commands' →
          let c := (fresh.run env commands).2
          let c' := (fresh'.run env' commands').2
          ∀ s s', c.phase.session? = some s → c'.phase.session? = some s' → s.image = s'.image →
            Agrees probe probe' env env' c c' s s') := by
  obtain ⟨fresh, made⟩ := newUsable (μ := μ) usable world
  obtain ⟨fresh', made'⟩ := newUsable (μ := μ') usable' world'
  obtain ⟨orderly, -, distinct⟩ := newOrderly made
  obtain ⟨orderly', -, distinct'⟩ := newOrderly made'
  have follows := fun commands => newFollows steady made commands
  have follows' := fun commands => newFollows steady' made' commands
  refine ⟨fresh, fresh', made, made', follows, fun repeats repeats' watch commands commands' calm
    calm' s s' live live' image => ?_⟩
  exact (follows commands calm).agrees (follows' commands' calm') steady steady' repeats repeats'
    (runOrderly orderly env commands) (runOrderly orderly' env' commands') distinct watch live live'
    image

end Controller
end

namespace Blink

def chip : Chip (Nat × Bool) where
  boot _ := (0, false)
  step s := if s.1 = 3 then (s, some ⟨.other, "out of steps"⟩, [])
    else ((s.1 + 1, s.2), none, if s.2 then [(0, level (s.1 + 1))] else [])
  tick s := (s, [])
  listen s _ := ((s.1, true), [])
  level s _ := level s.1

def probe : Probe Duration Blink (Nat × Bool) where
  core m _ := (m.count, m.ear.isSome)
  Hears m _ ears := m.ear = ears.head?

theorem steady (cost : Duration) : chip.Steady probe (surroundings cost) where
  step m w := by
    obtain ⟨count, ear⟩ := m
    by_cases last : count = 3
    · subst last
      exact ⟨rfl, rfl, fun ears hears => ⟨hears, rfl⟩⟩
    · have worked : (surroundings cost).cpu.step ⟨count, ear⟩ w =
          ⟨(⟨count + 1, ear⟩, none), w + cost, ear.toList.map (.called · (level (count + 1)))⟩ :=
        if_neg last
      have stepped : chip.step (probe.core ⟨count, ear⟩ w) = ((count + 1, ear.isSome), none,
          if ear.isSome then [(0, level (count + 1))] else []) := if_neg last
      rw [worked, stepped]
      refine ⟨rfl, rfl, fun ears hears => ⟨hears, ?_⟩⟩
      cases ear with
      | none => rfl
      | some key =>
        obtain ⟨rest, rfl⟩ := List.head?_eq_some_iff.mp hears.symm
        simp [heard, List.idxOf?_cons]
  tick m w := ⟨rfl, fun ears hears => ⟨hears, rfl⟩⟩
  construct image w m made := by
    cases made
    rfl
  listen m pin key w ears _ hears := by
    have first : m.ear = ears.head? := hears
    show m.ear.or (some key) = (ears ++ [key]).head?
    rw [first, List.head?_append]
    rfl
  level m pin w ears hears := hears
  clock m w := ⟨rfl, fun ears hears => ⟨hears, rfl⟩⟩
  request m token w := ⟨rfl, fun ears hears => ⟨hears, rfl⟩⟩

theorem repeats (cost : Duration) : chip.Repeats probe (surroundings cost) where
  construct image w m made := by
    cases made
    rfl
  listen m pin key w := by
    refine ⟨Prod.ext rfl ?_, fun ears _ hears => rfl⟩
    show (m.ear.or (some key)).isSome = true
    cases m.ear <;> rfl
  level m pin w := ⟨rfl, rfl, fun ears hears => ⟨hears, rfl⟩⟩

theorem blinkUnseen : ∃ fresh fresh' : Controller Duration Blink,
    Controller.new (settings 2) .zero = .ok fresh ∧
    Controller.new (settings 80000) .zero = .ok fresh' ∧
      let c := (fresh.run (surroundings (.ofMillis 1)) [begin, .frame ⟨1⟩]).2
      let c' := (fresh'.run (surroundings (.ofMillis 16))
        [begin, .frame ⟨1⟩, .frame ⟨1⟩, .frame ⟨2⟩]).2
      ∃ s s', c.phase.session? = some s ∧ c'.phase.session? = some s' ∧
        s.counters.cycles = 2 ∧ s'.counters.cycles = 2 ∧
        Controller.Agrees probe probe (surroundings (.ofMillis 1)) (surroundings (.ofMillis 16))
          c c' s s' := by
  obtain ⟨fresh, fresh', made, made', -, agrees⟩ := Controller.pacingUnseen
    (steady (.ofMillis 1)) (steady (.ofMillis 16))
    (show (settings 2).problem? = none by decide) (show (settings 80000).problem? = none by decide)
    .zero .zero
  have short : (Controller.new (settings 2) .zero).toOption.map
      (fun fresh : Controller Duration Blink =>
        (fresh.run (surroundings (.ofMillis 1)) [begin, .frame ⟨1⟩]).2.phase.session?.map
          fun s => (s.counters.cycles, s.image)) = some (some (2, ⟨0, #[0x0201], none⟩)) := by
    decide +kernel
  have long : (Controller.new (settings 80000) .zero).toOption.map
      (fun fresh : Controller Duration Blink =>
        (fresh.run (surroundings (.ofMillis 16))
          [begin, .frame ⟨1⟩, .frame ⟨1⟩, .frame ⟨2⟩]).2.phase.session?.map
          fun s => (s.counters.cycles, s.image)) = some (some (2, ⟨0, #[0x0201], none⟩)) := by
    decide +kernel
  rw [made] at short
  rw [made'] at long
  obtain ⟨s, live, shown⟩ := Option.map_eq_some_iff.mp (Option.some.inj short)
  obtain ⟨s', live', shown'⟩ := Option.map_eq_some_iff.mp (Option.some.inj long)
  obtain ⟨cycles, image⟩ := Prod.mk.inj shown
  obtain ⟨cycles', image'⟩ := Prod.mk.inj shown'
  refine ⟨fresh, fresh', made, made', s, s', live, live', cycles, cycles', ?_⟩
  refine agrees (repeats _) (repeats _) rfl _ _ ?_ ?_ s s' live live' (image.trans image'.symm)
  · exact ⟨nofun, nofun, trivial⟩
  · exact ⟨nofun, nofun, nofun, nofun, trivial⟩

end Blink
end VirtualBoard
