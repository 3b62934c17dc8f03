import VirtualBoard.Duration

/-! A clock moved by hand.

All copies of such a clock share one reading, so whoever moves it shows the new
time to all. It never goes back. -/
namespace VirtualBoard

structure ManualClock where
  now : Duration
  deriving DecidableEq

namespace ManualClock

def new : ManualClock := ⟨.zero⟩

def advance (c : ManualClock) (span : Duration) : ManualClock := ⟨c.now + span⟩

/-- Moves the clock to a reading unless that is in the past. -/
def set (c : ManualClock) (reading : Duration) : ManualClock := ⟨c.now.max reading⟩

end ManualClock
end VirtualBoard
