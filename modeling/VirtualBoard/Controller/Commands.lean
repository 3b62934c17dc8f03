import VirtualBoard.Controller.Basic

/-! The commands of a controller.

A command that does not fit the phase is only logged. Settling a compile either
opens a session or ends in a failure, whichever stage fails first, and then
applies the held command. -/
namespace VirtualBoard.Controller

variable {ω μ : Type}

def start (c : Controller ω μ) (source : String) : Option CompileRequest × Controller ω μ :=
  match c.phase with
  | .idle | .stopped _ =>
    let ticket : Ticket := ⟨c.tickets + 1⟩
    let c := {c with phase := .compiling ticket none, tickets := ticket.raw}
    (some ⟨ticket, source⟩, c.record .info ("compile " ++ ticket.text ++ " requested ("
      ++ Text.decimal source.utf8ByteSize ++ " bytes of source)"))
  | .failed failure _ => (none, c.record .warn ("start ignored until reset: " ++ failure.message))
  | .compiling .. | .running .. =>
    (none, c.record .debug ("start ignored while " ++ c.stage.status))

def close (env : Surroundings ω μ) (c : Controller ω μ) (session : Session μ)
    (snapshot : Option Snapshot) : Tally × Controller ω μ :=
  let (counters, c) := c.work (session.close env.cpu env.host)
  (⟨counters.cycles, snapshot⟩, c)

def fail (c : Controller ω μ) (failure : Failure) (tally : Tally) : Controller ω μ :=
  {c with phase := .failed failure tally}.record .warn
    (failure.origin.name ++ " error: " ++ failure.message)

/-- Stops a running session; held while compiling. -/
def stop (env : Surroundings ω μ) (c : Controller ω μ) : Controller ω μ :=
  match c.phase with
  | .compiling ticket held =>
    {c with phase := .compiling ticket (held.or (some .stop))}.record .debug
      "stop held until the compile settles"
  | .running session snapshot =>
    let (tally, c) := c.close env session snapshot
    {c with phase := .stopped tally}.record .info
      ("stopped after " ++ Text.decimal tally.cycles ++ " cycles")
  | .idle | .stopped _ | .failed .. => c.record .debug ("stop ignored while " ++ c.stage.status)

def settleIdle (c : Controller ω μ) : Controller ω μ :=
  {(c.work Rig.clear).2 with phase := .idle}.record .info "reset to idle"

/-- Ends whatever there is and forgets it; held while compiling. -/
def reset (env : Surroundings ω μ) (c : Controller ω μ) : Controller ω μ :=
  match c.phase with
  | .compiling ticket _ =>
    {c with phase := .compiling ticket (some .reset)}.record .debug
      "reset held until the compile settles"
  | .running session snapshot => (c.close env session snapshot).2.settleIdle
  | .idle | .stopped _ | .failed .. => c.settleIdle

def queue (env : Surroundings ω μ) (c : Controller ω μ) (session : Session μ) :
    Option BurstToken × Session μ × Controller ω μ :=
  match session.scheduler.issue c.tokens with
  | (none, scheduler, tokens) =>
    (none, {session with scheduler := scheduler}, {c with tokens := tokens})
  | (some token, scheduler, tokens) =>
    let (_, c) := {c with tokens := tokens}.work (Rig.ask (env.host.request token))
    (some token, {session with scheduler := scheduler}, c)

def launch (env : Surroundings ω μ) (c : Controller ω μ) (image : Image) (model : μ) :
    Controller ω μ :=
  let id : SessionId := ⟨c.sessions + 1⟩
  let scheduler := Scheduler.new c.settings.budget
  let watch := c.settings.watch
  let opened : Work ω (Session μ) := do
    let now ← Rig.ask env.clock
    Session.open env.cpu id model image watch scheduler now
  let (session, c) := {c with sessions := id.raw}.work opened
  let (_, session, c) := c.queue env session
  {c with phase := .running session none}.record .info
    (id.text ++ " running a " ++ Text.decimal image.words.size ++ "-word image")

def loadedText (image : Image) : String :=
  let entry :=
    match image.entry with
    | none => "None"
    | some address => "Some(" ++ Text.decimal address.toNat ++ ")"
  "loaded image: " ++ Text.decimal image.words.size ++ " words at "
    ++ Text.hexadecimal 6 image.base.toNat ++ ", entry " ++ entry

def load (env : Surroundings ω μ) (c : Controller ω μ) (outcome : Outcome) : Controller ω μ :=
  let none : Tally := ⟨0, none⟩
  match outcome with
  | .error failure => c.fail failure none
  | .ok text =>
    match Image.read c.settings.imageLimit.toNat text with
    | .error problem => c.fail (.image problem) none
    | .ok image =>
      let c := c.record .debug (loadedText image)
      match c.work (Rig.ask (env.construct image)) with
      | (.error fault, c) => c.fail (.cpu fault) none
      | (.ok model, c) => c.launch env image model

/-- Settles the pending compile and applies the held command. An answer under any other ticket is
refused. -/
def complete (env : Surroundings ω μ) (c : Controller ω μ) (ticket : Ticket) (outcome : Outcome) :
    Except StaleTicket Unit × Controller ω μ :=
  let stale := c.record .warn ("compile " ++ ticket.text ++ " settled but is not pending")
  match c.phase with
  | .compiling pending held =>
    if pending = ticket then
      let c := c.load env outcome
      (.ok (), match held with
        | none => c
        | some .stop => c.stop env
        | some .reset => c.reset env)
    else (.error ⟨ticket⟩, stale)
  | _ => (.error ⟨ticket⟩, stale)

/-- Starts a run and settles its compile with a compiler that is waited for. Says whether the start
was accepted. -/
def startWith (env : Surroundings ω μ) (c : Controller ω μ) (source : String)
    (compiler : Compiler ω) : Bool × Controller ω μ :=
  match c.start source with
  | (none, c) => (false, c)
  | (some request, c) =>
    let (answer, c) := c.work (Rig.ask (compiler request.body))
    let (settled, c) := c.complete env request.ticket (Compiler.outcome answer)
    (settled.isOk, c)

def sample (env : Surroundings ω μ) (c : Controller ω μ) (session : Session μ)
    (snapshot : Option Snapshot) : Session μ × Option Snapshot × Controller ω μ :=
  let (now, c) := c.work (Rig.ask env.clock)
  let counters := session.counters
  match sample? c.settings.sampleInterval now counters.cycles counters.started counters.sampled with
  | none => (session, snapshot, c)
  | some fresh =>
    ({session with counters := {counters with sampled := now}}, some fresh,
      c.record .trace (Text.decimal fresh.cycles ++ " cycles in " ++ fresh.uptime ++ ", "
        ++ Decimal.fixed 0 fresh.rate ++ " ips"))

/-- Runs the burst queued under a token and queues the next one. Any other token runs nothing. -/
def frame (env : Surroundings ω μ) (c : Controller ω μ) (token : BurstToken) :
    Continuation × Controller ω μ :=
  match c.phase with
  | .running session snapshot =>
    match session.scheduler.accept token with
    | (false, _) =>
      (.cancelled, c.record .warn ("burst " ++ token.text ++ " ignored: not the queued burst"))
    | (true, scheduler) =>
      let ((session, report), c) :=
        c.work ({session with scheduler := scheduler}.burst env.clock env.cpu)
      match report.exit with
      | .faulted fault =>
        let (tally, c) := c.close env session snapshot
        (.faulted (.cpu fault), c.fail (.cpu fault) tally)
      | _ =>
        let (session, snapshot, c) := c.sample env session snapshot
        let (next, session, c) := c.queue env session
        (next.elim .cancelled .next, {c with phase := .running session snapshot})
  | _ =>
    (.cancelled, c.record .debug ("burst " ++ token.text ++ " ignored: no session"))

end VirtualBoard.Controller
