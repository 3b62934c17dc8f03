import VirtualBoard.Burst
import VirtualBoard.Subscription

/-! One session: a CPU model with its image, its subscriptions, its counters and its scheduler.

A session is opened on a fresh model and closed once. Closing cancels the queued
burst, releases every subscription in order and lets go of the model. -/
namespace VirtualBoard

structure SessionId where
  raw : Nat
  deriving DecidableEq, Repr

def SessionId.text (id : SessionId) : String := "session " ++ Text.decimal id.raw

/-- What a session counts: completed steps, and when it started and was last sampled. The count has
no bound; `Scheduler.burst` counts on 64 bits, and the two are the same below 2^64. -/
structure Counters where
  cycles : Nat
  started : Duration
  sampled : Duration
  deriving DecidableEq

def Counters.startingAt (now : Duration) : Counters := ⟨0, now, now⟩

structure Session (μ : Type) where
  id : SessionId
  model : μ
  image : Image
  subscriptions : List Subscription
  counters : Counters
  scheduler : Scheduler

namespace Session

variable {ω μ : Type}

def «open» (cpu : CpuModel ω μ) (id : SessionId) (model : μ) (image : Image) (watch : List Watch)
    (scheduler : Scheduler) (now : Duration) : Work ω (Session μ) := do
  let (model, subscriptions) ← Subscription.attachAll cpu model watch
  return ⟨id, model, image, subscriptions, .startingAt now, scheduler⟩

def burst (clock : Clock ω) (cpu : CpuModel ω μ) (s : Session μ) :
    Work ω (Session μ × Burst.Report) := do
  let (model, report) ← Burst.run clock cpu s.scheduler.budget s.model
  let counters := {s.counters with cycles := s.counters.cycles + report.steps}
  return ({s with model := model, counters := counters}, report)

def close (cpu : CpuModel ω μ) (host : FrameHost ω) (s : Session μ) : Work ω Counters := do
  match s.scheduler.cancel.1 with
  | some token => Rig.ask (host.cancel token)
  | none => pure ()
  let model ← Subscription.releaseAll cpu s.model s.subscriptions
  Rig.record .debug (s.id.text ++ " closed after " ++ Text.decimal s.counters.cycles ++ " cycles")
  Rig.ask (cpu.discard model)
  return s.counters

/-- All parts of a session on one line; the model and the image show as numbers at most. -/
def inspect (s : Session μ) : String :=
  let pending :=
    match s.scheduler.pending with
    | none => "None"
    | some token => "Some(BurstToken(" ++ Text.decimal token.raw ++ "))"
  "SimulationSession \x7b id: SessionId(" ++ Text.decimal s.id.raw
    ++ "), image_words: " ++ Text.decimal s.image.words.size
    ++ ", subscriptions: " ++ Text.decimal s.subscriptions.length
    ++ ", counters: SessionCounters \x7b cycle_count: " ++ Text.decimal s.counters.cycles
    ++ ", started_at: " ++ s.counters.started.text
    ++ ", last_sample_at: " ++ s.counters.sampled.text
    ++ " \x7d, scheduler: Scheduler \x7b budget: BurstBudget \x7b wall_clock: "
    ++ s.scheduler.budget.wallClock.text
    ++ ", max_instructions: " ++ Text.decimal s.scheduler.budget.maxSteps.toNat
    ++ " \x7d, pending: " ++ pending
    ++ ", cancelled: " ++ (if s.scheduler.cancelled then "true" else "false")
    ++ " \x7d, .. \x7d"

end Session
end VirtualBoard
