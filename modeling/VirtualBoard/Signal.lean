import VirtualBoard.Pin

/-! The signal board: named levels and how often each changed.

Names stand in the order of their first mention and only once each. -/
namespace VirtualBoard

structure Signal where
  name : String
  level : Level
  changes : Nat
  deriving DecidableEq, Repr

namespace Signal

def fresh (name : String) : Signal := ⟨name, .low, 0⟩

def Differs (name : String) (level : Level) (s : Signal) : Prop := s.name = name ∧ s.level ≠ level

instance (name level s) : Decidable (Differs name level s) := inferInstanceAs (Decidable (_ ∧ _))

def take (name : String) (level : Level) (s : Signal) : Signal :=
  if Differs name level s then {s with level := level, changes := s.changes + 1} else s

end Signal

structure Board where
  signals : List Signal
  deriving DecidableEq, Repr

namespace Board

def empty : Board := ⟨[]⟩

def names (b : Board) : List String := b.signals.map Signal.name

def find? (b : Board) (name : String) : Option Signal := b.signals.find? (·.name = name)

/-- Adds a fresh signal unless the name is there. -/
def declare (b : Board) (name : String) : Board :=
  if name ∈ b.names then b else ⟨b.signals ++ [.fresh name]⟩

def publish (b : Board) (name : String) (level : Level) : Bool × Board :=
  let known := (b.declare name).signals
  (known.any (fun s => decide (Signal.Differs name level s)), ⟨known.map (Signal.take name level)⟩)

def clear (b : Board) : Board := ⟨b.names.map .fresh⟩

theorem namesTake (name : String) (level : Level) (signals : List Signal) :
    (signals.map (Signal.take name level)).map Signal.name = signals.map Signal.name := by
  induction signals with
  | nil => rfl
  | cons s rest ih =>
    simp only [List.map_cons, ih, List.cons.injEq, and_true]
    unfold Signal.take; split <;> rfl

theorem namesPublish (b : Board) (name : String) (level : Level) :
    (b.publish name level).2.names = (b.declare name).names := namesTake ..

theorem namesClear (b : Board) : b.clear.names = b.names := by
  simp [clear, names, Signal.fresh, Function.comp_def]

theorem clearTwice (b : Board) : b.clear.clear = b.clear :=
  congrArg (fun names => Board.mk (names.map Signal.fresh)) (namesClear b)

end Board
end VirtualBoard
