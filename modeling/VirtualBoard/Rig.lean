import VirtualBoard.Signal
import VirtualBoard.Surroundings

/-! The state that calls from outside can reach.

Each listener handed out has a key of its own and stays armed until it is
disarmed. A call of an armed listener publishes the level under its name; a
call of any other listener does nothing. Every transition that a call brings
about is logged. -/
namespace VirtualBoard

structure Armed where
  key : ListenerKey
  name : String
  deriving DecidableEq, Repr

/-- The world with the board, the armed listeners and the log, the newest entry first. -/
structure Rig (ω : Type) where
  world : ω
  board : Board
  armed : List Armed
  nextKey : Nat
  log : List Log.Entry

abbrev Work (ω α : Type) : Type := StateM (Rig ω) α

namespace Rig

variable {ω : Type}

def new (world : ω) (board : Board) : Rig ω := ⟨world, board, [], 0, []⟩

def write (entry : Log.Entry) (r : Rig ω) : Rig ω := {r with log := entry :: r.log}

def name? (r : Rig ω) (key : ListenerKey) : Option String :=
  (r.armed.find? (·.key = key)).map Armed.name

def call (key : ListenerKey) (level : Level) (r : Rig ω) : Rig ω :=
  match r.name? key with
  | none => r
  | some name =>
    let (changed, board) := r.board.publish name level
    let r := {r with board := board}
    if changed then
      r.write (.record .debug (name ++ if level.isHigh then " on" else " off"))
    else r

def take (r : Rig ω) : Event → Rig ω
  | .called key level => r.call key level
  | .logged entry => r.write entry

def ask {α : Type} (act : Act ω α) : Work ω α := fun ⟨world, board, armed, nextKey, log⟩ =>
  let ⟨value, after, events⟩ := act world
  (value, events.foldl take ⟨after, board, armed, nextKey, log⟩)

def record (severity : Log.Severity) (text : String) : Work ω Unit :=
  modify (write (.record severity text))

/-- Adds a signal unless it is there. -/
def declare (name : String) : Work ω Unit := modify fun r => {r with board := r.board.declare name}

def publish (name : String) (level : Level) : Work ω Unit :=
  modify fun r => {r with board := (r.board.publish name level).2}

def arm (name : String) : Work ω ListenerKey := fun r =>
  (⟨r.nextKey⟩, {r with armed := ⟨⟨r.nextKey⟩, name⟩ :: r.armed, nextKey := r.nextKey + 1})

def disarm (key : ListenerKey) : Work ω Unit :=
  modify fun r => {r with armed := r.armed.filter (·.key ≠ key)}

def clear : Work ω Unit := modify fun r => {r with board := r.board.clear}

end Rig
end VirtualBoard
