import VirtualBoard.Clock
import VirtualBoard.Page.Run
import VirtualBoard.Proofs.Controller.Absorbing
import VirtualBoard.Proofs.Controller.Calls
import VirtualBoard.Proofs.Controller.Departures
import VirtualBoard.Proofs.Controller.Endings
import VirtualBoard.Proofs.Controller.Frames
import VirtualBoard.Proofs.Controller.Keeper
import VirtualBoard.Proofs.Controller.Progress
import VirtualBoard.Proofs.Controller.Reset
import VirtualBoard.Proofs.Controller.Settling
import VirtualBoard.Proofs.Controller.Signals
import VirtualBoard.Proofs.Controller.Silence
import VirtualBoard.Proofs.Controller.Turns
import VirtualBoard.Proofs.Image.Canonical
import VirtualBoard.Proofs.Image.Column
import VirtualBoard.Proofs.Image.Corruption
import VirtualBoard.Proofs.Image.Encoding
import VirtualBoard.Proofs.Image.FirstProblem
import VirtualBoard.Proofs.Image.Flash
import VirtualBoard.Proofs.Image.Grammar
import VirtualBoard.Proofs.Image.Guarded
import VirtualBoard.Proofs.Image.Limits
import VirtualBoard.Proofs.Pacing.Runs
import VirtualBoard.Proofs.Page.Clock
import VirtualBoard.Proofs.Page.Closures
import VirtualBoard.Proofs.Page.Flash
import VirtualBoard.Proofs.Scheduler
import VirtualBoard.Proofs.Scheduler.Burst
import VirtualBoard.Proofs.Signals.Board
import VirtualBoard.Proofs.Wire.Forms
import VirtualBoard.Proofs.Wire.Image
import VirtualBoard.Proofs.Wire.Settings
import VirtualBoard.Wire.Failure
import VirtualBoard.Wire.Json
import VirtualBoard.Wire.Run
