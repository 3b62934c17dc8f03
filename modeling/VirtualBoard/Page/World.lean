import VirtualBoard.Script.Describe
import VirtualBoard.Surroundings

/-! A page with its scripts, seen from the harness.

A page offers a CPU model written in its script, a function that makes one, two
functions around the frames of its display, two clocks and a console. Listeners
are closures the page calls with a raw level; a page is told when a closure is
dropped, after which calling it throws there.

A step, the making of a model and the frame functions may throw, and what they
throw is caught. A tick, the reading of a pin and the adding and removing of a
listener are taken not to throw, and the clocks and the console likewise: nothing
would catch it. -/
namespace VirtualBoard

/-- The result of a function of the page, and the listeners called meanwhile with raw levels. -/
structure Page.Visit (π α : Type) where
  value : α
  page : π
  calls : List (ListenerKey × UInt8)

def Page.Call (π α : Type) : Type := π → Page.Visit π α

structure Page (π κ : Type) where
  codec : Script.Codec := .standard
  /-- Executes one instruction; the script may throw. -/
  step : κ → Page.Call π (Except Script Unit)
  tick : κ → Page.Call π Unit
  pinLevel : κ → Pin → Page.Call π UInt8
  addPinListener : κ → Pin → ListenerKey → Page.Call π UInt32
  removePinListener : κ → UInt32 → Page.Call π Bool
  dropClosure : ListenerKey → Page.Call π Unit
  /-- Makes a CPU model for a whole program memory; the script may throw or return nothing. -/
  construct : Array UInt16 → Page.Call π (Except Script (Option κ))
  requestFrame : BurstToken → Page.Call π (Except Script Unit)
  cancelFrame : BurstToken → Page.Call π (Except Script Unit)
  performance : Option (Page.Call π Float)
  date : Page.Call π Float
  print : String → Page.Call π Unit

structure Tab (π : Type) where
  page : π
  latest : Duration

namespace Page

variable {π κ : Type}

/-- Says what a listener makes of a raw level: an unknown one is ignored. -/
def heard (call : ListenerKey × UInt8) : Option Event :=
  (Level.ofByte? call.2).map (Event.called call.1)

def act {α : Type} (call : Call π α) : Act (Tab π) α := fun ⟨page, latest⟩ =>
  let ⟨value, page, calls⟩ := call page
  ⟨value, ⟨page, latest⟩, calls.filterMap heard⟩

def say (entry : Log.Entry) : Act (Tab π) Unit := fun tab => ⟨(), tab, [.logged entry]⟩

/-- The duration of a reading in milliseconds; zero where it makes no sense as one. -/
def reading (millis : Float) : Duration := (Duration.ofSeconds? (millis / 1000)).getD .zero

/-- The clock of a page: it never shows less than before. -/
def clock (p : Page π κ) : Clock (Tab π) := fun tab =>
  let ⟨millis, ⟨page, latest⟩, events⟩ := act (p.performance.getD p.date) tab
  let now := latest.max (reading millis)
  ⟨now, ⟨page, now⟩, events⟩

end Page
end VirtualBoard
