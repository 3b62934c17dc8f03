import VirtualBoard.Proofs.Controller.Departures

/-! What a compile settles to.

An outcome goes through three stages: it must be a text, the text an image, and
the image one that a model is made from. The first stage that fails is the
failure, and what comes after it is not begun: the controller has nothing of a
session but the failure. Where none fails a whole session is opened. A compiler
that is waited for leads to the same states. -/
namespace VirtualBoard
open Rig

variable {ω μ : Type}

def Call.unwatched? : Call μ → Option (Call μ)
  | read .. | listened .. | unlistened .. => none
  | call => some call

theorem requestsUnwatched (calls : List (Call μ)) :
    requests (calls.filterMap Call.unwatched?) = requests calls := by
  rw [requests, requests, List.filterMap_filterMap]
  congr 1
  funext call
  cases call <;> rfl

namespace Controller

structure Awaits (c e : Controller ω μ) : Prop where
  settings : e.settings = c.settings
  tokens : e.tokens = c.tokens
  sessions : e.sessions = c.sessions
  board : e.rig.board = c.rig.board
  nextKey : e.rig.nextKey = c.rig.nextKey
  quiet : e.rig.armed = []

structure Fails (c d : Controller ω μ) (failure : Failure) : Prop where
  stage : d.stage = .failed failure
  session : d.phase.session? = none
  cycles : d.phase.cycles = 0
  left : Awaits c d

structure Opens (c d : Controller ω μ) (image : Image) (model : μ) (calls : List (Call μ))
    (session : Session μ) (now : Duration) : Prop where
  phase : d.phase = .running session none
  holds : session.image = image
  id : session.id = ⟨c.sessions + 1⟩
  sessions : d.sessions = c.sessions + 1
  counters : session.counters = .startingAt now
  watch : session.subscriptions.map Subscription.watch = c.settings.watch
  joined : moves calls = joins session.members
  pending : session.scheduler.pending = some ⟨c.tokens.issued + 1⟩
  tokens : d.tokens = ⟨c.tokens.issued + 1⟩
  requested : requests calls = [⟨c.tokens.issued + 1⟩]
  others : calls.filterMap Call.unwatched? =
    [.constructed image (.ok model), .clock now, .requested ⟨c.tokens.issued + 1⟩]

/- What an outcome settles to, by the first stage that fails: `d` is the controller after it,
`calls` are those made on the way, and `world` is the one in which a model is asked for. -/
inductive Settles (env : Surroundings ω μ) (c d : Controller ω μ) (world : ω)
    (calls : List (Call μ)) : Outcome → Prop where
  | refused {failure : Failure} (after : Fails c d failure) (uncalled : calls = []) :
      Settles env c d world calls (.error failure)
  | malformed {text : String} {problem : Image.Problem}
      (rejected : Image.read c.settings.imageLimit.toNat text = .error problem)
      (after : Fails c d (.image problem)) (uncalled : calls = []) :
      Settles env c d world calls (.ok text)
  | faulty {text : String} {image : Image} {fault : CpuFault}
      (accepted : Image.read c.settings.imageLimit.toNat text = .ok image)
      (made : (env.construct image world).value = .error fault)
      (after : Fails c d (.cpu fault)) (called : calls = [.constructed image (.error fault)]) :
      Settles env c d world calls (.ok text)
  | opened {text : String} {image : Image} {model : μ} {session : Session μ} {now : Duration}
      (accepted : Image.read c.settings.imageLimit.toNat text = .ok image)
      (made : (env.construct image world).value = .ok model)
      (after : Opens c d image model calls session now) : Settles env c d world calls (.ok text)

namespace Awaits

variable {c e : Controller ω μ}

theorem refl (quiet : c.rig.armed = []) : Awaits c c := ⟨rfl, rfl, rfl, rfl, rfl, quiet⟩

theorem kept (awaits : Awaits c e) {r : Rig ω} (keeps : Keeps e.rig r) : Awaits c (e.inRig r) where
  settings := awaits.settings
  tokens := awaits.tokens
  sessions := awaits.sessions
  board := (keeps.board awaits.quiet).trans awaits.board
  nextKey := keeps.nextKey.trans awaits.nextKey
  quiet := keeps.armed.trans awaits.quiet

theorem fails (awaits : Awaits c e) (failure : Failure) :
    Fails c (e.fail failure ⟨0, none⟩) failure :=
  ⟨rfl, rfl, rfl, {awaits with}⟩

end Awaits

/-! Loading, stage by stage. -/

theorem loadMalformed (env : Surroundings ω μ) {c : Controller ω μ} {text : String}
    {problem : Image.Problem}
    (rejected : Image.read c.settings.imageLimit.toNat text = .error problem) :
    c.load env (.ok text) = c.fail (.image problem) ⟨0, none⟩ := by
  simp only [load, rejected]

def loaded (c : Controller ω μ) (image : Image) : Rig ω :=
  c.rig.write (.record .debug (loadedText image))

def built (env : Surroundings ω μ) (c : Controller ω μ) (image : Image) : Rig ω :=
  (ask (env.construct image) (c.loaded image)).2

theorem builtKeeps (env : Surroundings ω μ) (c : Controller ω μ) (image : Image) :
    Keeps c.rig (c.built env image) :=
  (writeKeeps _ _).trans (keepsAsk (env.construct image) (c.loaded image))

section
variable (env : Surroundings ω μ) {c : Controller ω μ} {text : String} {image : Image}
  (accepted : Image.read c.settings.imageLimit.toNat text = .ok image)
include accepted

theorem loadFaulty {fault : CpuFault}
    (made : (env.construct image c.rig.world).value = .error fault) :
    c.load env (.ok text) = (c.inRig (c.built env image)).fail (.cpu fault) ⟨0, none⟩ := by
  have asked : ask (env.construct image) (c.loaded image) = (.error fault, c.built env image) :=
    Prod.ext made rfl
  rw [loaded] at asked
  simp only [load, accepted, recordRun, workRun, inRig, asked]

theorem loadOpened {model : μ} (made : (env.construct image c.rig.world).value = .ok model) :
    c.load env (.ok text) = (c.inRig (c.built env image)).launch env image model := by
  have asked : ask (env.construct image) (c.loaded image) = (.ok model, c.built env image) :=
    Prod.ext made rfl
  rw [loaded] at asked
  simp only [load, accepted, recordRun, workRun, inRig, asked]

end

/-! The calls of a loading, read from a notebook. -/

def loading (env : Surroundings ω μ) (c : Controller ω μ) (outcome : Outcome) : List (Call μ) :=
  (c.withNotes.load env.noted outcome).rig.world.calls

theorem builtNotes (env : Surroundings ω μ) (c : Controller ω μ) (image : Image) :
    (c.withNotes.built env.noted image).world.calls =
      [.constructed image (env.construct image c.rig.world).value] := by
  rw [built, askWorld]
  rfl

theorem launchOthers (env : Surroundings ω μ) (c : Controller (Noted ω μ) μ) (image : Image)
    (model : μ) : (c.launch env.noted image model).rig.world.picked Call.unwatched? =
      c.rig.world.picked Call.unwatched? ++
        [.clock (ask env.noted.clock c.rig).1, .requested ⟨c.tokens.issued + 1⟩] := by
  let read := ask env.noted.clock c.rig
  let watched := Subscription.attachAll env.noted.cpu model c.settings.watch read.2
  let token : BurstToken := ⟨c.tokens.issued + 1⟩
  have first : read.2.world.picked Call.unwatched? =
      c.rig.world.picked Call.unwatched? ++ [.clock read.1] :=
    notingPicked Call.unwatched? .clock env.clock c.rig
  have between : watched.2.world.picked Call.unwatched? = read.2.world.picked Call.unwatched? :=
    attachAlike Call.unwatched? (fun _ _ _ => rfl) (fun _ _ _ _ _ => rfl) env model _ read.2
  have last : (ask (env.noted.host.request token) watched.2).2.world.picked Call.unwatched? =
      watched.2.world.picked Call.unwatched? ++ [.requested token] :=
    notingPicked Call.unwatched? (fun _ => .requested token) (env.host.request token) watched.2
  rw [launchRun]
  refine last.trans ?_
  rw [between, first, List.append_assoc]
  rfl

theorem loadOpens {settings : Settings} {c e : Controller ω μ} (awaits : Awaits c e)
    (same : e.settings = settings) (fits : Fits (settings.watch.map Watch.name) e.rig)
    (env : Surroundings ω μ) {text : String} {image : Image} {model : μ}
    (accepted : Image.read e.settings.imageLimit.toNat text = .ok image)
    (made : (env.construct image e.rig.world).value = .ok model) :
    ∃ session now, Opens c (e.load env (.ok text)) image model (e.loading env (.ok text)) session
      now := by
  let n := e.withNotes
  let opening := n.inRig (n.built env.noted image)
  have noted : n.load env.noted (.ok text) = opening.launch env.noted image model :=
    loadOpened env.noted (c := n) accepted made
  let now := (ask env.noted.clock opening.rig).1
  let watched := (Subscription.attachAll env.noted.cpu model e.settings.watch
    (ask env.noted.clock opening.rig).2).1
  let token : BurstToken := ⟨e.tokens.issued + 1⟩
  let session : Session μ := ⟨⟨e.sessions + 1⟩, watched.1, image, watched.2, .startingAt now,
    ⟨e.settings.budget, some token, false⟩⟩
  obtain ⟨rig, after⟩ : ∃ rig, e.load env (.ok text) =
      ⟨e.settings, .running session none, ⟨token.raw⟩, e.tickets, e.sessions + 1, rig⟩ := by
    refine ⟨(opening.launch env.noted image model).rig.onto Noted.world, ?_⟩
    rw [notedLoad env e (.ok text), noted]
    rfl
  have phase : (e.load env (.ok text)).phase = .running session none := by rw [after]
  have live := (loadOrderly same fits awaits.quiet env (.ok text)).lives phase
  have others : (e.loading env (.ok text)).filterMap Call.unwatched? =
      [.constructed image (.ok model), .clock now, .requested token] := by
    have opened := launchOthers env opening image model
    rw [← noted, show opening.rig.world.picked _ = _ from congrArg (List.filterMap _)
      (builtNotes env e image), made] at opened
    exact opened
  have joined : moves (e.loading env (.ok text)) = joins session.members := by
    have came := loadMoves env (c := n) (.ok text)
    rw [noted] at came
    rw [loading, noted]
    exact came
  have requested : requests (e.loading env (.ok text)) = [token] := by
    rw [← requestsUnwatched, others]
    rfl
  have drawn : token = ⟨c.tokens.issued + 1⟩ := by rw [← awaits.tokens]
  rw [drawn] at others requested
  exact ⟨session, now, {
    phase := phase
    holds := rfl
    id := by rw [← awaits.sessions]
    sessions := by rw [after, ← awaits.sessions]
    counters := rfl
    watch := live.bound.trans (by rw [← awaits.settings, same])
    joined := joined
    pending := congrArg some drawn
    tokens := by rw [after, ← awaits.tokens]
    requested := requested
    others := others }⟩

theorem loadSettles {settings : Settings} {c e : Controller ω μ} (awaits : Awaits c e)
    (same : e.settings = settings) (fits : Fits (settings.watch.map Watch.name) e.rig)
    (env : Surroundings ω μ) (outcome : Outcome) :
    Settles env c (e.load env outcome) e.rig.world (e.loading env outcome) outcome := by
  cases outcome with
  | error failure => exact .refused (awaits.fails failure) rfl
  | ok text =>
    have limit : e.settings.imageLimit = c.settings.imageLimit := by rw [awaits.settings]
    cases given : Image.read e.settings.imageLimit.toNat text with
    | error problem =>
      have uncalled : e.loading env (.ok text) = [] := by
        rw [loading, loadMalformed env.noted (c := e.withNotes) given]
        rfl
      refine .malformed (limit ▸ given) ?_ uncalled
      rw [loadMalformed env given]
      exact awaits.fails _
    | ok image =>
      cases made : (env.construct image e.rig.world).value with
      | error fault =>
        have called : e.loading env (.ok text) = [.constructed image (.error fault)] := by
          rw [loading, loadFaulty env.noted (c := e.withNotes) given made, ← made]
          exact builtNotes env e image
        refine .faulty (limit ▸ given) made ?_ called
        rw [loadFaulty env given made]
        exact (awaits.kept (builtKeeps env e image)).fails _
      | ok model =>
        obtain ⟨session, now, opens⟩ := loadOpens awaits same fits env given made
        exact .opened (limit ▸ given) made opens

theorem loadTickets (env : Surroundings ω μ) (c : Controller ω μ) (outcome : Outcome) :
    (c.load env outcome).tickets = c.tickets := by
  rcases loadRun env c outcome with
    ⟨failure, rig, after, -⟩ | ⟨text, image, model, rig, -, -, -, after⟩
  · rw [after]
  · rw [after, launchRun]
    rfl

theorem completeUnheld (env : Surroundings ω μ) {c : Controller ω μ} {ticket : Ticket}
    (phase : c.phase = .compiling ticket none) (outcome : Outcome) :
    c.complete env ticket outcome = (.ok (), c.load env outcome) := completeHeld phase outcome

/-! A compiler that is waited for. -/

def answered (c : Controller ω μ) (source : String) (compiler : Compiler ω) : Controller ω μ :=
  (c.start source).2.inRig (ask (compiler ⟨source⟩) (c.start source).2.rig).2

section
variable {c : Controller ω μ}

theorem startFirst (accepts : c.stage.acceptsStart = true) (source : String) :
    (c.start source).1 = some ⟨⟨c.tickets + 1⟩, source⟩ ∧
      (c.start source).2.tickets = c.tickets + 1 := by
  unfold start
  unfold stage at accepts
  cases phase : c.phase with
  | idle | stopped => exact ⟨rfl, rfl⟩
  | _ =>
    rw [phase] at accepts
    cases accepts

theorem startAwaits (quiet : c.rig.armed = []) (source : String) : Awaits c (c.start source).2 := by
  obtain ⟨settings, phase, tokens, tickets, sessions, r⟩ := c
  cases phase <;> exact ⟨rfl, rfl, rfl, rfl, rfl, quiet⟩

theorem startWithLoads (accepts : c.stage.acceptsStart = true) (env : Surroundings ω μ)
    (source : String) (compiler : Compiler ω) :
    c.startWith env source compiler = (true, (c.answered source compiler).load env
      (Compiler.outcome (compiler ⟨source⟩ c.rig.world).value)) := by
  obtain ⟨asked, -⟩ := startFirst accepts source
  obtain ⟨waiting, world⟩ := startAccepted asked
  have reply : (ask (compiler ⟨source⟩) (c.start source).2.rig).1 =
      (compiler ⟨source⟩ c.rig.world).value := by
    rw [← world]
    rfl
  have after := startWithRun env asked compiler
  dsimp only at after
  rw [← reply]
  refine Prod.ext ?_ after
  have accepted : c.start source = (some ⟨⟨c.tickets + 1⟩, source⟩, (c.start source).2) :=
    Prod.ext asked rfl
  have pending : (c.answered source compiler).phase = .compiling ⟨c.tickets + 1⟩ none := waiting
  have settled := completeUnheld env pending
    (Compiler.outcome (ask (compiler ⟨source⟩) (c.start source).2.rig).1)
  rw [startWith, accepted]
  exact congrArg (fun out => out.1.isOk) settled

theorem answeredNotes (source : String) (compiler : Compiler ω) :
    c.withNotes.answered source (fun request => (compiler request).unnoted) =
      (c.answered source compiler).withNotes := by
  have started : (c.withNotes.start source).2 = (c.start source).2.withNotes := by
    obtain ⟨settings, phase, tokens, tickets, sessions, r⟩ := c
    cases phase <;> rfl
  have blank : Act.Over (fun world => (⟨world, []⟩ : Noted ω μ)) (compiler ⟨source⟩)
      (compiler ⟨source⟩).unnoted := fun _ => rfl
  have asked := overAsk blank (c.start source).2.rig
  rw [answered, started]
  exact congrArg (fun out => (c.start source).2.withNotes.inRig out.2) asked

theorem callsAnswered (accepts : c.stage.acceptsStart = true) (env : Surroundings ω μ)
    (source : String) (compiler : Compiler ω) : c.calls env (.startWith source compiler) =
      (c.answered source compiler).loading env
        (Compiler.outcome (compiler ⟨source⟩ c.rig.world).value) := by
  have run := startWithLoads (c := c.withNotes) accepts env.noted source
    fun request => (compiler request).unnoted
  rw [answeredNotes] at run
  exact congrArg (fun out : Bool × Controller (Noted ω μ) μ => out.2.rig.world.calls) run

end

/- What is so of a controller that waits for an outcome, and of one that accepts a start. -/
structure Settling (settings : Settings) (env : Surroundings ω μ) (c : Controller ω μ) : Prop where
  same : c.settings = settings
  pending : ∀ ticket outcome, c.phase = .compiling ticket none →
    let done := c.complete env ticket outcome
    done.1 = .ok () ∧
      Settles env c done.2 c.rig.world (c.calls env (.complete ticket outcome)) outcome
  waited : ∀ source (compiler : Compiler ω), c.stage.acceptsStart = true →
    let done := c.startWith env source compiler
    let reply := compiler ⟨source⟩ c.rig.world
    (c.start source).1 = some ⟨⟨c.tickets + 1⟩, source⟩ ∧
      done.1 = true ∧ done.2.tickets = c.tickets + 1 ∧
      Settles env c done.2 reply.world (c.calls env (.startWith source compiler))
        (match reply.value with
          | .ok response => response.outcome
          | .error reason => .error (.transport reason))

section
variable {settings : Settings} {c : Controller ω μ}

theorem Orderly.pending (orderly : Orderly settings c) (env : Surroundings ω μ) {ticket : Ticket}
    (phase : c.phase = .compiling ticket none) (outcome : Outcome) :
    (c.complete env ticket outcome).1 = .ok () ∧ Settles env c (c.complete env ticket outcome).2
      c.rig.world (c.calls env (.complete ticket outcome)) outcome := by
  have quiet : c.rig.armed = [] := orderly.quiet (by rw [phase]; rfl)
  have waits : c.withNotes.phase = .compiling ticket none := phase
  have calls : c.calls env (.complete ticket outcome) = c.loading env outcome :=
    congrArg (fun out => out.2.rig.world.calls) (completeUnheld env.noted waits outcome)
  rw [completeUnheld env phase, calls]
  exact ⟨rfl, loadSettles (.refl quiet) orderly.same orderly.fits env outcome⟩

theorem Orderly.waited (orderly : Orderly settings c) (env : Surroundings ω μ) (source : String)
    (compiler : Compiler ω) (accepts : c.stage.acceptsStart = true) :
    let done := c.startWith env source compiler
    let reply := compiler ⟨source⟩ c.rig.world
    done.1 = true ∧ done.2.tickets = c.tickets + 1 ∧
      Settles env c done.2 reply.world (c.calls env (.startWith source compiler))
        (Compiler.outcome reply.value) := by
  intro done reply
  have quiet : c.rig.armed = [] := orderly.quiet (by
    unfold stage at accepts
    cases phase : c.phase with
    | running => rw [phase] at accepts; cases accepts
    | _ => rfl)
  obtain ⟨asked, tickets⟩ := startFirst accepts source
  have started := startOrderly orderly source
  have keeps := keepsAsk (compiler ⟨source⟩) (c.start source).2.rig
  have world : (c.answered source compiler).rig.world = reply.world := by
    rw [answered, inRig, askWorld, (startAccepted asked).2]
  have settles := loadSettles ((startAwaits quiet source).kept keeps) started.same
    (keeps.fits started.fits) env (Compiler.outcome reply.value)
  have after : done = _ := startWithLoads accepts env source compiler
  rw [after, callsAnswered accepts, ← world]
  exact ⟨rfl, (loadTickets env _ _).trans tickets, settles⟩

end

/- Every outcome of a compile settles by its first stage that fails, in whatever state of whatever
run it comes, and a start that is accepted is settled in the same way. -/
theorem settlingWhole (env : Surroundings ω μ) {settings : Settings}
    (usable : settings.problem? = none) (world : ω) :
    ∃ fresh : Controller ω μ, new settings world = .ok fresh ∧
      ∀ commands, Settling settings env (fresh.run env commands).2 := by
  obtain ⟨fresh, made⟩ := newUsable (μ := μ) usable world
  refine ⟨fresh, made, fun commands => ?_⟩
  have orderly := runOrderly (newOrderly made).1 env commands
  exact ⟨orderly.same, fun ticket outcome phase => orderly.pending env phase outcome,
    fun source compiler accepts => ⟨(startFirst accepts source).1,
      orderly.waited env source compiler accepts⟩⟩

theorem blinkSettling : ∃ fresh : Controller Duration Blink,
    new (Blink.settings 2) .zero = .ok fresh ∧
      let env := Blink.surroundings (.ofMillis 1)
      let c := (fresh.run env [.start ""]).2
      let outcome : Outcome := .ok ":020000000102FB\n:00000001FF"
      let opened := (c.complete env ⟨1⟩ outcome).2
      let silent : Compiler Duration := fun _ => pure (.error "gone")
      let failed := (fresh.startWith env "" silent).2
      opened.stage = .running ∧ Settles env c opened c.rig.world
        (c.calls env (.complete ⟨1⟩ outcome)) outcome ∧
      failed.stage = .failed (.transport "gone") ∧ Settles env fresh failed fresh.rig.world
        (fresh.calls env (.startWith "" silent)) (.error (.transport "gone")) := by
  let env := Blink.surroundings (.ofMillis 1)
  let outcome : Outcome := .ok ":020000000102FB\n:00000001FF"
  let silent : Compiler Duration := fun _ => pure (.error "gone")
  obtain ⟨fresh, made, all⟩ := settlingWhole env
    (show (Blink.settings 2).problem? = none by decide) .zero
  have known : (new (Blink.settings 2) .zero).toOption.map (fun fresh : Controller Duration Blink =>
      (((fresh.run env [.start ""]).2.complete env ⟨1⟩ outcome).2.stage,
        (fresh.startWith env "" silent).2.stage)) =
      some (.running, .failed (.transport "gone")) := by
    decide +kernel
  rw [made] at known
  obtain ⟨opened, failed⟩ := Prod.mk.inj (Option.some.inj known)
  have idle := newIdle made
  have phase : (fresh.run env [.start ""]).2.phase = .compiling ⟨1⟩ none := by
    obtain ⟨board, rfl⟩ := newParts made
    rfl
  have accepts : fresh.stage.acceptsStart = true := by rw [stage, idle]; rfl
  exact ⟨fresh, made, opened, ((all [.start ""]).pending ⟨1⟩ outcome phase).2, failed,
    ((all []).waited "" silent accepts).2.2.2⟩

end Controller
end VirtualBoard
