import VirtualBoard.Lifecycle
import VirtualBoard.Signal
import VirtualBoard.Telemetry

/-! What is shown of a run at one instant. -/
namespace VirtualBoard

structure StatusView where
  status : String
  error : Option String
  cycles : Nat
  frequency : Float
  uptime : String
  indicator : Bool
  signals : List Signal

namespace StatusView

def compose (stage : Lifecycle) (cycles : Nat) (snapshot : Option Snapshot) (board : Board)
    (indicator : Option String) : StatusView :=
  { status := stage.status
    error := stage.failure?.map Failure.message
    cycles := cycles
    frequency := (snapshot.map Snapshot.rate).getD 0
    uptime := (snapshot.map Snapshot.uptime).getD "0s"
    indicator := ((indicator.bind board.find?).map fun s => s.level.isHigh).getD false
    signals := board.signals }

def megahertz (v : StatusView) : Float := v.frequency / 1000000

end StatusView
end VirtualBoard
