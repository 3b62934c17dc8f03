import VirtualBoard.Rig

/-! Watching pins of a CPU model.

A subscription publishes the level its pin has at the beginning and then every
level its listener is called with. To release it is to disarm its listener
first, so that a model which keeps calling it changes nothing. -/
namespace VirtualBoard

structure Subscription where
  listener : ListenerId
  pin : Pin
  name : String
  key : ListenerKey
  deriving DecidableEq, Repr

namespace Subscription

variable {ω μ : Type}

def attach (cpu : CpuModel ω μ) (model : μ) (watch : Watch) : Work ω (μ × Subscription) := do
  Rig.declare watch.name
  let level ← Rig.ask (cpu.level model watch.pin)
  Rig.publish watch.name level
  let key ← Rig.arm watch.name
  let (model, listener) ← Rig.ask (cpu.listen model watch.pin key)
  Rig.record .debug ("attached " ++ watch.name ++ " to " ++ watch.pin.text)
  return (model, ⟨listener, watch.pin, watch.name, key⟩)

def attachAll (cpu : CpuModel ω μ) : μ → List Watch → Work ω (μ × List Subscription)
  | model, [] => return (model, [])
  | model, watch :: rest => do
    let (model, first) ← attach cpu model watch
    let (model, others) ← attachAll cpu model rest
    return (model, first :: others)

def release (cpu : CpuModel ω μ) (model : μ) (s : Subscription) : Work ω μ := do
  Rig.disarm s.key
  let (model, removed) ← Rig.ask (cpu.unlisten model s.listener)
  if !removed then
    Rig.record .debug ("listener ListenerId(" ++ Text.decimal s.listener.raw.toNat ++ ") for "
      ++ s.pin.text ++ " already gone")
  Rig.record .debug ("released " ++ s.name ++ " subscription on " ++ s.pin.text)
  return model

def releaseAll (cpu : CpuModel ω μ) : μ → List Subscription → Work ω μ
  | model, [] => return model
  | model, s :: rest => do
    let model ← release cpu model s
    releaseAll cpu model rest

/-- Ends a subscription at this side only: the model keeps its listener. -/
def abandon (s : Subscription) : Work ω Unit := Rig.disarm s.key

end Subscription
end VirtualBoard
