import VirtualBoard.Page.World

/-! A CPU model written in a page's script, with the closures it was given.

A closure stays as long as its number does: it is dropped when its listener is
removed, when another listener gets the same number, and when the model is let
go. -/
namespace VirtualBoard.Page

variable {π κ : Type}

/-- A CPU model of the page, and the closures kept for it under the numbers it gave out. -/
structure Model (κ : Type) where
  cpu : κ
  closures : List (UInt32 × ListenerKey)

namespace Model

def closure? (m : Model κ) (id : UInt32) : Option ListenerKey :=
  (m.closures.find? (·.1 = id)).map Prod.snd

def forget (m : Model κ) (id : UInt32) : Model κ :=
  {m with closures := m.closures.filter (·.1 ≠ id)}

def keep (m : Model κ) (id : UInt32) (key : ListenerKey) : Model κ :=
  {m with closures := (id, key) :: (m.forget id).closures}

end Model

def dropClosure? (p : Page π κ) : Option ListenerKey → Act (Tab π) Unit
  | none => pure ()
  | some key => act (p.dropClosure key)

def dropAll (p : Page π κ) : List (UInt32 × ListenerKey) → Act (Tab π) Unit
  | [] => pure ()
  | (_, key) :: rest => do
    act (p.dropClosure key)
    dropAll p rest

/-- The models of a page as CPU models. What a step throws becomes the reason of a fault, and a pin
that reads as no known level is low. -/
def cpu (p : Page π κ) : CpuModel (Tab π) (Model κ) where
  step m := do
    match ← act (p.step m.cpu) with
    | .ok () => return (m, none)
    | .error thrown => return (m, some ⟨.other, p.codec.describe thrown⟩)
  tick m := do
    act (p.tick m.cpu)
    return m
  listen m pin key := do
    let id ← act (p.addPinListener m.cpu pin key)
    dropClosure? p (m.closure? id)
    return (m.keep id key, ⟨id⟩)
  unlisten m id := do
    let removed ← act (p.removePinListener m.cpu id.raw)
    let closure := m.closure? id.raw
    dropClosure? p closure
    return (m.forget id.raw, closure.isSome || removed)
  level m pin := do
    return (Level.ofByte? (← act (p.pinLevel m.cpu pin))).getD .low
  discard m := dropAll p m.closures

/-- Makes a model: the image is laid into a memory of `size` words and given to the page. -/
def make (p : Page π κ) (size : Nat) (image : Image) : Act (Tab π) (Except CpuFault (Model κ)) :=
  match image.flash? size with
  | none => return .error ⟨.construction, "image of " ++ Text.decimal image.byteLength
      ++ " bytes at " ++ Text.hexadecimal 6 image.base.toNat ++ " does not fit "
      ++ Text.decimal size ++ " words of flash"⟩
  | some flash => do
    match ← act (p.construct flash) with
    | .error thrown => return .error ⟨.construction, p.codec.describe thrown⟩
    | .ok none => return .error ⟨.construction, "CPU factory returned no model"⟩
    | .ok (some cpu) => return .ok ⟨cpu, []⟩

/-- Calls a frame function of the page; what it throws is only remarked on. -/
def frameCall (codec : Script.Codec) (kind : String)
    (call : BurstToken → Call π (Except Script Unit)) (token : BurstToken) : Act (Tab π) Unit := do
  match ← act (call token) with
  | .ok () => return ()
  | .error thrown =>
    say (.remark ("frame " ++ kind ++ " " ++ token.text ++ " failed: "
      ++ codec.describe thrown))

def host (p : Page π κ) : FrameHost (Tab π) where
  request := frameCall p.codec "request" p.requestFrame
  cancel := frameCall p.codec "cancel" p.cancelFrame

/-- Everything outside a controller that runs on a page with a program memory of `size` words. -/
def surroundings (p : Page π κ) (size : Nat) : Surroundings (Tab π) (Model κ) where
  clock := p.clock
  cpu := p.cpu
  construct := p.make size
  host := p.host

end VirtualBoard.Page
