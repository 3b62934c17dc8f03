import VirtualBoard.Duration
import VirtualBoard.Image.Basic
import VirtualBoard.Pin
import VirtualBoard.Text.Quoted

/-! The settings of a run and what makes them usable.

Limits are checked before the watch list, and of the watch list the first bad
entry counts: an impossible pin before a name that stood earlier in the list. -/
namespace VirtualBoard

structure Budget where
  wallClock : Duration
  maxSteps : UInt32
  deriving DecidableEq

/-- The settings of a run. The first watched pin drives the indicator. -/
structure Settings where
  budget : Budget
  sampleInterval : Duration
  imageLimit : UInt64
  watch : List Watch
  deriving DecidableEq

def Budget.standard : Budget := ⟨.ofMillis 16, 80000⟩

namespace Settings

def standard : Settings := ⟨.standard, .ofMillis 100, 32768, [⟨"led", .led⟩]⟩

def indicator? (s : Settings) : Option Watch := s.watch.head?

inductive Problem where
  | zeroWallClock
  | zeroSteps
  | zeroInterval
  | zeroLimit
  | oddLimit (limit : Nat)
  | invalidPin (pin : Pin)
  | duplicateSignal (name : String)
  deriving DecidableEq, Repr

def Problem.message : Problem → String
  | zeroWallClock => "burst wall-clock budget must be non-zero"
  | zeroSteps => "burst instruction budget must be non-zero"
  | zeroInterval => "sample interval must be non-zero"
  | zeroLimit => "image size limit must be non-zero"
  | oddLimit limit =>
    "image size limit of " ++ Text.decimal limit ++ " bytes is not a whole number of words"
  | invalidPin pin => "invalid pin " ++ pin.text
  | duplicateSignal name => "signal " ++ Text.quoted name ++ " is bound more than once"

def watchProblem? (seen : List String) : List Watch → Option Problem
  | [] => none
  | w :: rest =>
    if ¬ w.pin.Valid then some (.invalidPin w.pin)
    else if w.name ∈ seen then some (.duplicateSignal w.name)
    else watchProblem? (w.name :: seen) rest

/-- The first problem of settings; usable ones have none. -/
def problem? (s : Settings) : Option Problem :=
  if s.budget.wallClock = .zero then some .zeroWallClock
  else if s.budget.maxSteps = 0 then some .zeroSteps
  else if s.sampleInterval = .zero then some .zeroInterval
  else if s.imageLimit = 0 then some .zeroLimit
  else if s.imageLimit % 2 = 1 then some (.oddLimit s.imageLimit.toNat)
  else watchProblem? [] s.watch

example : standard.problem? = none := by decide

end Settings
end VirtualBoard
