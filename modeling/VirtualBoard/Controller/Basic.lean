import VirtualBoard.Compile
import VirtualBoard.Image.Reader
import VirtualBoard.Session
import VirtualBoard.StatusView

/-! The controller: one run at a time through compile, load, run and teardown.

The phase says where a run is and carries what exists only there: the pending
ticket while compiling, the session while running, the final figures after
that. A stop or reset that comes during a compile is held until the compile
settles, and a held reset replaces a held stop. Every way out of running closes
the session. -/
namespace VirtualBoard

inductive Held where
  | stop
  | reset
  deriving DecidableEq, Repr

structure Tally where
  cycles : Nat
  snapshot : Option Snapshot

inductive Phase (μ : Type) where
  | idle
  | compiling (ticket : Ticket) (held : Option Held)
  | running (session : Session μ) (snapshot : Option Snapshot)
  | stopped (tally : Tally)
  | failed (failure : Failure) (tally : Tally)

namespace Phase

variable {μ : Type}

def stage : Phase μ → Lifecycle
  | idle => .idle
  | compiling .. => .compiling
  | running .. => .running
  | stopped _ => .stopped
  | failed failure _ => .failed failure

def session? : Phase μ → Option (Session μ)
  | running session _ => some session
  | _ => none

def ticket? : Phase μ → Option Ticket
  | compiling ticket _ => some ticket
  | _ => none

def cycles : Phase μ → Nat
  | running session _ => session.counters.cycles
  | stopped tally | failed _ tally => tally.cycles
  | idle | compiling .. => 0

def snapshot? : Phase μ → Option Snapshot
  | running _ snapshot => snapshot
  | stopped tally | failed _ tally => tally.snapshot
  | idle | compiling .. => none

end Phase

/-- A controller: its settings, its phase, the numbers it has given out, and its rig. -/
structure Controller (ω μ : Type) where
  settings : Settings
  phase : Phase μ
  tokens : TokenSource
  tickets : Nat
  sessions : Nat
  rig : Rig ω

inductive Continuation where
  | next (token : BurstToken)
  | cancelled
  | faulted (failure : Failure)
  deriving DecidableEq, Repr

namespace Controller

variable {ω μ : Type}

def new (settings : Settings) (world : ω) : Except Settings.Problem (Controller ω μ) :=
  match settings.problem? with
  | some problem => .error problem
  | none =>
    let board := settings.watch.foldl (fun b w => b.declare w.name) Board.empty
    .ok ⟨settings, .idle, ⟨0⟩, 0, 0, .new world board⟩

def stage (c : Controller ω μ) : Lifecycle := c.phase.stage

def view (c : Controller ω μ) : StatusView :=
  .compose c.stage c.phase.cycles c.phase.snapshot? c.rig.board
    (c.settings.indicator?.map Watch.name)

def work {α : Type} (c : Controller ω μ) (task : Work ω α) : α × Controller ω μ :=
  let ⟨settings, phase, tokens, tickets, sessions, rig⟩ := c
  let (value, rig) := task rig
  (value, ⟨settings, phase, tokens, tickets, sessions, rig⟩)

def record (c : Controller ω μ) (severity : Log.Severity) (text : String) : Controller ω μ :=
  (c.work (Rig.record severity text)).2

/-- Something outside acts between two commands: it may call listeners, armed or not. -/
def outside {α : Type} (c : Controller ω μ) (act : Act ω α) : α × Controller ω μ :=
  c.work (Rig.ask act)

def takeLog (c : Controller ω μ) : List Log.Entry × Controller ω μ :=
  (c.rig.log.reverse, {c with rig := {c.rig with log := []}})

end Controller
end VirtualBoard
