import VirtualBoard.Rig
import VirtualBoard.Scheduler

/-! One burst: steps of a CPU model until a budget is used up or the model faults.

The step cap is looked at first, then the clock, then the model steps. Each
completed step is followed by one tick; a faulting step is neither ticked nor
counted. -/
namespace VirtualBoard.Burst

inductive Exit where
  | stepBudget
  | wallClockBudget
  | faulted (fault : CpuFault)
  deriving DecidableEq, Repr

namespace Exit

def name : Exit → String
  | stepBudget => "InstructionBudget"
  | wallClockBudget => "WallClockBudget"
  | faulted _ => "Faulted"

def inspect : Exit → String
  | faulted fault => "Faulted(" ++ fault.inspect ++ ")"
  | exit => exit.name

def fault? : Exit → Option CpuFault
  | faulted fault => some fault
  | _ => none

end Exit

structure Report where
  steps : Nat
  elapsed : Duration
  exit : Exit
  deriving DecidableEq

variable {ω μ : Type}

/-- Steps a model at most `left` times, after `done` steps of a burst that began at `started`. -/
def stretch (clock : Clock ω) (cpu : CpuModel ω μ) (started wall : Duration) :
    (left done : Nat) → μ → Work ω (μ × Nat × Exit)
  | 0, done, model => return (model, done, .stepBudget)
  | left + 1, done, model => do
    let now ← Rig.ask clock
    if wall ≤ now - started then
      return (model, done, .wallClockBudget)
    else
      let (model, fault) ← Rig.ask (cpu.step model)
      match fault with
      | some fault => return (model, done, .faulted fault)
      | none =>
        let model ← Rig.ask (cpu.tick model)
        stretch clock cpu started wall left (done + 1) model

/-- Looks at the clock for the last time and reports. -/
def close (clock : Clock ω) (started : Duration) (steps : Nat) (exit : Exit) : Work ω Report := do
  let ended ← Rig.ask clock
  let elapsed := ended - started
  Rig.record .trace ("burst ran " ++ Text.decimal steps ++ " steps in " ++ elapsed.text ++ ": "
    ++ exit.inspect)
  return ⟨steps, elapsed, exit⟩

def run (clock : Clock ω) (cpu : CpuModel ω μ) (budget : Budget) (model : μ) :
    Work ω (μ × Report) := do
  let started ← Rig.ask clock
  let (model, steps, exit) ←
    stretch clock cpu started budget.wallClock budget.maxSteps.toNat 0 model
  let report ← close clock started steps exit
  return (model, report)

end VirtualBoard.Burst
