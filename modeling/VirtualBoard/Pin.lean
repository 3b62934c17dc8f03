import VirtualBoard.Text.Digits

/-! Pins of a board, the levels they show, and the names under which they are watched. -/
namespace VirtualBoard

/-- One input or output line: the letter of its port and its bit there. -/
structure Pin where
  port : Char
  bit : UInt8
  deriving DecidableEq, Repr

namespace Pin

/-- A pin of a real board: a port named by a capital ASCII letter, and one of its eight bits. -/
def Valid (p : Pin) : Prop := 'A' ≤ p.port ∧ p.port ≤ 'Z' ∧ p.bit < 8

instance (p : Pin) : Decidable p.Valid := inferInstanceAs (Decidable (_ ∧ _ ∧ _))

def text (p : Pin) : String := String.ofList ('P' :: p.port :: Text.digits 10 p.bit.toNat)

def led : Pin := ⟨'D', 7⟩

end Pin

/-- What a pin shows: driven low or high, or an input without or with its pull-up resistor. -/
inductive Level where
  | low
  | high
  | input
  | inputPullUp
  deriving DecidableEq, Repr, Inhabited

namespace Level

def ofByte? (raw : UInt8) : Option Level :=
  if raw = 0 then some low
  else if raw = 1 then some high
  else if raw = 2 then some input
  else if raw = 3 then some inputPullUp
  else none

def isHigh : Level → Bool
  | high => true
  | _ => false

def name : Level → String
  | low => "Low"
  | high => "High"
  | input => "Input"
  | inputPullUp => "InputPullUp"

def all : List Level := [low, high, input, inputPullUp]

end Level

structure Watch where
  name : String
  pin : Pin
  deriving DecidableEq, Repr

structure ListenerId where
  raw : UInt32
  deriving DecidableEq, Repr

end VirtualBoard
