import VirtualBoard.Fault

/-! The stages of a run as they are shown outside. -/
namespace VirtualBoard

inductive Lifecycle where
  | idle
  | compiling
  | running
  | stopped
  | failed (failure : Failure)
  deriving DecidableEq, Repr

namespace Lifecycle

def status : Lifecycle → String
  | idle => "Ready"
  | compiling => "Compiling..."
  | running => "Running"
  | stopped => "Stopped"
  | failed _ => "Error"

def failure? : Lifecycle → Option Failure
  | failed failure => some failure
  | _ => none

def acceptsStart : Lifecycle → Bool
  | idle | stopped => true
  | _ => false

end Lifecycle
end VirtualBoard
