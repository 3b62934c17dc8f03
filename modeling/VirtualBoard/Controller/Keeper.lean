import VirtualBoard.Controller.Run

/-! A controller that keeps its parts side by side.

Stage, session, latest figures, final count and pending compile are fields of their own, and any
values of them can stand together. It is for each command to change together what belongs
together. -/
namespace VirtualBoard

/-- The compile that is waited for, with the command held until it settles. -/
structure Awaited where
  ticket : Ticket
  held : Option Held
  deriving DecidableEq, Repr

structure Keeper (ω μ : Type) where
  settings : Settings
  stage : Lifecycle
  session : Option (Session μ)
  snapshot : Option Snapshot
  /-- What the last session has counted, once it is closed. -/
  retired : Nat
  pending : Option Awaited
  tokens : TokenSource
  tickets : Nat
  sessions : Nat
  rig : Rig ω

namespace Keeper

variable {ω μ : Type}

def new (settings : Settings) (world : ω) : Except Settings.Problem (Keeper ω μ) :=
  match settings.problem? with
  | some problem => .error problem
  | none =>
    let board := settings.watch.foldl (fun b w => b.declare w.name) Board.empty
    .ok ⟨settings, .idle, none, none, 0, none, ⟨0⟩, 0, 0, .new world board⟩

def cycles (k : Keeper ω μ) : Nat :=
  match k.session with
  | some session => session.counters.cycles
  | none => k.retired

def ticket? (k : Keeper ω μ) : Option Ticket := k.pending.map Awaited.ticket

def view (k : Keeper ω μ) : StatusView :=
  .compose k.stage k.cycles k.snapshot k.rig.board (k.settings.indicator?.map Watch.name)

def work {α : Type} (k : Keeper ω μ) (task : Work ω α) : α × Keeper ω μ :=
  let ⟨settings, stage, session, snapshot, retired, pending, tokens, tickets, sessions, rig⟩ := k
  let (value, rig) := task rig
  (value, ⟨settings, stage, session, snapshot, retired, pending, tokens, tickets, sessions, rig⟩)

def record (k : Keeper ω μ) (severity : Log.Severity) (text : String) : Keeper ω μ :=
  (k.work (Rig.record severity text)).2

def outside {α : Type} (k : Keeper ω μ) (act : Act ω α) : α × Keeper ω μ := k.work (Rig.ask act)

def takeLog (k : Keeper ω μ) : List Log.Entry × Keeper ω μ :=
  (k.rig.log.reverse, {k with rig := {k.rig with log := []}})

/-- Closes the session, if there is one, and keeps its count. -/
def teardown (env : Surroundings ω μ) (k : Keeper ω μ) : Keeper ω μ :=
  match k.session with
  | none => k
  | some session =>
    let (counters, k) := {k with session := none}.work (session.close env.cpu env.host)
    {k with retired := counters.cycles}

def start (env : Surroundings ω μ) (k : Keeper ω μ) (source : String) :
    Option CompileRequest × Keeper ω μ :=
  if k.stage.acceptsStart then
    let k := k.teardown env
    let ticket : Ticket := ⟨k.tickets + 1⟩
    let k := {k with
      stage := .compiling
      snapshot := none
      retired := 0
      pending := some ⟨ticket, none⟩
      tickets := ticket.raw}
    (some ⟨ticket, source⟩, k.record .info ("compile " ++ ticket.text ++ " requested ("
      ++ Text.decimal source.utf8ByteSize ++ " bytes of source)"))
  else
    match k.stage with
    | .failed failure => (none, k.record .warn ("start ignored until reset: " ++ failure.message))
    | stage => (none, k.record .debug ("start ignored while " ++ stage.status))

def fail (env : Surroundings ω μ) (k : Keeper ω μ) (failure : Failure) : Keeper ω μ :=
  {k.teardown env with stage := .failed failure}.record .warn
    (failure.origin.name ++ " error: " ++ failure.message)

def stop (env : Surroundings ω μ) (k : Keeper ω μ) : Keeper ω μ :=
  match k.stage with
  | .compiling =>
    let hold := fun pending : Awaited => {pending with held := pending.held.or (some .stop)}
    {k with pending := k.pending.map hold}.record .debug "stop held until the compile settles"
  | .running =>
    let k := {k.teardown env with stage := .stopped}
    k.record .info ("stopped after " ++ Text.decimal k.retired ++ " cycles")
  | stage => k.record .debug ("stop ignored while " ++ stage.status)

def reset (env : Surroundings ω μ) (k : Keeper ω μ) : Keeper ω μ :=
  match k.stage with
  | .compiling =>
    let hold := fun pending : Awaited => {pending with held := some .reset}
    {k with pending := k.pending.map hold}.record .debug "reset held until the compile settles"
  | _ =>
    let k := {k.teardown env with snapshot := none, retired := 0}
    {(k.work Rig.clear).2 with stage := .idle}.record .info "reset to idle"

def queue (env : Surroundings ω μ) (k : Keeper ω μ) (session : Session μ) :
    Option BurstToken × Session μ × Keeper ω μ :=
  match session.scheduler.issue k.tokens with
  | (none, scheduler, tokens) =>
    (none, {session with scheduler := scheduler}, {k with tokens := tokens})
  | (some token, scheduler, tokens) =>
    let (_, k) := {k with tokens := tokens}.work (Rig.ask (env.host.request token))
    (some token, {session with scheduler := scheduler}, k)

/-- Loads an image, makes a model for it and opens a session, unless a stage of this fails. -/
def launch (env : Surroundings ω μ) (k : Keeper ω μ) (text : String) :
    Except Failure Unit × Keeper ω μ :=
  match Image.read k.settings.imageLimit.toNat text with
  | .error problem => (.error (.image problem), k)
  | .ok image =>
    let k := k.record .debug (Controller.loadedText image)
    match k.work (Rig.ask (env.construct image)) with
    | (.error fault, k) => (.error (.cpu fault), k)
    | (.ok model, k) =>
      let id : SessionId := ⟨k.sessions + 1⟩
      let scheduler := Scheduler.new k.settings.budget
      let watch := k.settings.watch
      let opened : Work ω (Session μ) := do
        let now ← Rig.ask env.clock
        Session.open env.cpu id model image watch scheduler now
      let (session, k) := {k with sessions := id.raw}.work opened
      let (_, session, k) := k.queue env session
      (.ok (), {k with session := some session, stage := .running}.record .info
        (id.text ++ " running a " ++ Text.decimal image.words.size ++ "-word image"))

def settle (env : Surroundings ω μ) (k : Keeper ω μ) (outcome : Outcome) : Keeper ω μ :=
  match outcome with
  | .error failure => k.fail env failure
  | .ok text =>
    match k.launch env text with
    | (.error failure, k) => k.fail env failure
    | (.ok (), k) => k

/-- Settles the pending compile and applies the held command. An answer under any other ticket is
refused. -/
def complete (env : Surroundings ω μ) (k : Keeper ω μ) (ticket : Ticket) (outcome : Outcome) :
    Except StaleTicket Unit × Keeper ω μ :=
  let stale := k.record .warn ("compile " ++ ticket.text ++ " settled but is not pending")
  match k.pending with
  | none => (.error ⟨ticket⟩, stale)
  | some pending =>
    if pending.ticket = ticket then
      let k := {k with pending := none}.settle env outcome
      (.ok (), match pending.held with
        | none => k
        | some .stop => k.stop env
        | some .reset => k.reset env)
    else (.error ⟨ticket⟩, stale)

def startWith (env : Surroundings ω μ) (k : Keeper ω μ) (source : String)
    (compiler : Compiler ω) : Bool × Keeper ω μ :=
  match k.start env source with
  | (none, k) => (false, k)
  | (some request, k) =>
    let (answer, k) := k.work (Rig.ask (compiler request.body))
    let (settled, k) := k.complete env request.ticket (Compiler.outcome answer)
    (settled.isOk, k)

def sample (env : Surroundings ω μ) (k : Keeper ω μ) (session : Session μ) :
    Session μ × Keeper ω μ :=
  let (now, k) := k.work (Rig.ask env.clock)
  let counters := session.counters
  match sample? k.settings.sampleInterval now counters.cycles counters.started counters.sampled with
  | none => (session, k)
  | some fresh =>
    ({session with counters := {counters with sampled := now}},
      {k with snapshot := some fresh}.record .trace (Text.decimal fresh.cycles ++ " cycles in "
        ++ fresh.uptime ++ ", " ++ Decimal.fixed 0 fresh.rate ++ " ips"))

def frame (env : Surroundings ω μ) (k : Keeper ω μ) (token : BurstToken) :
    Continuation × Keeper ω μ :=
  match k.session with
  | none => (.cancelled, k.record .debug ("burst " ++ token.text ++ " ignored: no session"))
  | some session =>
    match session.scheduler.accept token with
    | (false, _) =>
      (.cancelled, k.record .warn ("burst " ++ token.text ++ " ignored: not the queued burst"))
    | (true, scheduler) =>
      let ((session, report), k) :=
        k.work ({session with scheduler := scheduler}.burst env.clock env.cpu)
      match report.exit with
      | .faulted fault =>
        (.faulted (.cpu fault), {k with session := some session}.fail env (.cpu fault))
      | _ =>
        let (session, k) := k.sample env session
        let (next, session, k) := k.queue env session
        (next.elim .cancelled .next, {k with session := some session})

def perform (env : Surroundings ω μ) (k : Keeper ω μ) : Command ω → Answer × Keeper ω μ
  | .start source =>
    let (request, k) := k.start env source
    (.requested request, k)
  | .complete ticket outcome =>
    let (result, k) := k.complete env ticket outcome
    (.settled result, k)
  | .startWith source compiler =>
    let (started, k) := k.startWith env source compiler
    (.accepted started, k)
  | .stop => (.done, k.stop env)
  | .reset => (.done, k.reset env)
  | .frame token =>
    let (continuation, k) := k.frame env token
    (.continued continuation, k)
  | .outside act => (.done, (k.outside act).2)

def run (env : Surroundings ω μ) (k : Keeper ω μ) : List (Command ω) → List Answer × Keeper ω μ
  | [] => ([], k)
  | command :: rest =>
    let (answer, k) := k.perform env command
    let (answers, k) := k.run env rest
    (answer :: answers, k)

end Keeper
end VirtualBoard
