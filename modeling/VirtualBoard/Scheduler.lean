import VirtualBoard.Settings
import VirtualBoard.Surroundings

/-! Tokens for queued bursts.

All schedulers draw their tokens from one source, so no token is ever issued
twice. A scheduler accepts the latest token it issued, once, and after it is
cancelled neither issues nor accepts any. -/
namespace VirtualBoard

/-- Where tokens come from: how many were issued. -/
structure TokenSource where
  issued : Nat
  deriving DecidableEq, Repr

def TokenSource.next (s : TokenSource) : BurstToken × TokenSource :=
  (⟨s.issued + 1⟩, ⟨s.issued + 1⟩)

structure Scheduler where
  budget : Budget
  pending : Option BurstToken
  cancelled : Bool
  deriving DecidableEq

namespace Scheduler

def new (budget : Budget) : Scheduler := ⟨budget, none, false⟩

def issue (s : Scheduler) (tokens : TokenSource) : Option BurstToken × Scheduler × TokenSource :=
  if s.cancelled then (none, s, tokens)
  else
    let (token, tokens) := tokens.next
    (some token, {s with pending := some token}, tokens)

def accept (s : Scheduler) (token : BurstToken) : Bool × Scheduler :=
  if s.cancelled = false ∧ s.pending = some token then (true, {s with pending := none})
  else (false, s)

def cancel (s : Scheduler) : Option BurstToken × Scheduler :=
  (s.pending, {s with pending := none, cancelled := true})

end Scheduler
end VirtualBoard
