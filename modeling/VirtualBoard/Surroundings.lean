import VirtualBoard.Fault
import VirtualBoard.Image.Basic
import VirtualBoard.Log
import VirtualBoard.Pin
import VirtualBoard.Duration

/-! What stands outside the controller, seen from inside.

Outside are a clock, a maker of CPU models, the models themselves and a host
that calls back once per displayed frame. They share one world of an arbitrary
type, and each call to one of them is an act on that world. While an act runs,
a CPU model may call listeners it was given, in any order and number; the reply
lists these calls. Nothing is assumed about any party. -/
namespace VirtualBoard

structure ListenerKey where
  raw : Nat
  deriving DecidableEq, Repr

/-- Something that happens at the controller's side while an outside party is at work. -/
inductive Event where
  | called (listener : ListenerKey) (level : Level)
  | logged (entry : Log.Entry)
  deriving DecidableEq, Repr

/-- The result of an act: its value, the world after it, and what happened meanwhile, in order. -/
structure Reply (ω α : Type) where
  value : α
  world : ω
  events : List Event

def Act (ω α : Type) : Type := ω → Reply ω α

namespace Act

def pure {ω α : Type} (value : α) : Act ω α := fun world => ⟨value, world, []⟩

def bind {ω α β : Type} (first : Act ω α) (next : α → Act ω β) : Act ω β := fun world =>
  let ⟨a, between, early⟩ := first world
  let ⟨b, last, late⟩ := next a between
  ⟨b, last, early ++ late⟩

instance {ω : Type} : Monad (Act ω) where
  pure := Act.pure
  bind := Act.bind

end Act

abbrev Clock (ω : Type) : Type := Act ω Duration

/-- A CPU model: one instruction at a time, one tick of the periphery after it, and pins to watch.
A model is given and returned by value; what it shares with others is part of the world. -/
structure CpuModel (ω μ : Type) where
  step : μ → Act ω (μ × Option CpuFault)
  tick : μ → Act ω μ
  listen : μ → Pin → ListenerKey → Act ω (μ × ListenerId)
  unlisten : μ → ListenerId → Act ω (μ × Bool)
  level : μ → Pin → Act ω Level
  discard : μ → Act ω Unit

structure BurstToken where
  raw : Nat
  deriving DecidableEq, Repr

def BurstToken.text (t : BurstToken) : String := "#" ++ Text.decimal t.raw

structure FrameHost (ω : Type) where
  request : BurstToken → Act ω Unit
  cancel : BurstToken → Act ω Unit

structure Surroundings (ω μ : Type) where
  clock : Clock ω
  cpu : CpuModel ω μ
  construct : Image → Act ω (Except CpuFault μ)
  host : FrameHost ω

end VirtualBoard
