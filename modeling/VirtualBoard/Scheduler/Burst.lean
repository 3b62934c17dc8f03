import VirtualBoard.Burst

/-! A burst that counts on a counter of 64 bits.

The counter goes one up after each tick. What comes after its last number depends on how the
program was built: one that checks its additions stops there, in the middle of the burst and
without a report, and any other goes on from zero. -/
namespace VirtualBoard

/-- What an addition does that overflows. -/
inductive Overflow where
  | stops
  | wraps
  deriving DecidableEq, Repr

/-- One more on a counter, unless the program stops. -/
def Overflow.next? (overflow : Overflow) (count : UInt64) : Option UInt64 :=
  match overflow with
  | .stops => if count + 1 = 0 then none else some (count + 1)
  | .wraps => some (count + 1)

namespace Scheduler

variable {ω μ : Type}

/-- Steps a model at most `left` times, after `done` steps of a burst that began at `started`. There
is no exit where the counter has stopped the program. -/
def stretch (overflow : Overflow) (clock : Clock ω) (cpu : CpuModel ω μ) (started wall : Duration) :
    (left done : Nat) → UInt64 → μ → Work ω (μ × UInt64 × Nat × Option Burst.Exit)
  | 0, done, cycles, model => return (model, cycles, done, some .stepBudget)
  | left + 1, done, cycles, model => do
    let now ← Rig.ask clock
    if wall ≤ now - started then
      return (model, cycles, done, some .wallClockBudget)
    else
      let (model, fault) ← Rig.ask (cpu.step model)
      match fault with
      | some fault => return (model, cycles, done, some (.faulted fault))
      | none =>
        let model ← Rig.ask (cpu.tick model)
        match overflow.next? cycles with
        | none => return (model, cycles, done, none)
        | some cycles => stretch overflow clock cpu started wall left (done + 1) cycles model

/-- One burst from a count of cycles on. -/
def burst (overflow : Overflow) (clock : Clock ω) (cpu : CpuModel ω μ) (s : Scheduler) (model : μ)
    (cycles : UInt64) : Work ω (μ × UInt64 × Option Burst.Report) := do
  let started ← Rig.ask clock
  let (model, cycles, steps, exit) ←
    stretch overflow clock cpu started s.budget.wallClock s.budget.maxSteps.toNat 0 cycles model
  match exit with
  | none => return (model, cycles, none)
  | some exit =>
    let report ← Burst.close clock started steps exit
    return (model, cycles, some report)

end Scheduler
end VirtualBoard
