import VirtualBoard.Duration

/-! Figures on a run at one instant, and how often they are taken. -/
namespace VirtualBoard

structure Snapshot where
  cycles : Nat
  elapsed : Duration
  rate : Float

namespace Snapshot

/-- The figures after a number of steps and a time: the rate is zero where no time has passed. -/
def compute (cycles : Nat) (elapsed : Duration) : Snapshot :=
  let seconds := elapsed.seconds
  ⟨cycles, elapsed, if seconds > 0 then Float.ofNat cycles / seconds else 0⟩

def uptime (s : Snapshot) : String := s.elapsed.shortText

end Snapshot

def sample? (interval now : Duration) (cycles : Nat) (started last : Duration) : Option Snapshot :=
  if now - last < interval then none else some (.compute cycles (now - started))

end VirtualBoard
