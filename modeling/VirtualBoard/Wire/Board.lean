import VirtualBoard.Settings
import VirtualBoard.Signal
import VirtualBoard.Wire.Basic

/-! Wire forms of pins, signals, settings and images.

Durations travel as whole milliseconds: what is below a millisecond is lost, and
so is what does not fit into 64 bits. -/
namespace VirtualBoard

instance : Wired Duration where
  toWire d := .wide d.wholeMillis
  ofWire? w := w.wide?.map Duration.ofMillis

instance : Wired Pin where
  toWire p := .record [("port", toWire p.port), ("bit", toWire p.bit)]
  ofWire? w := do return ⟨← w.required Char "port", ← w.required UInt8 "bit"⟩

instance : Wired Level where
  toWire level := .text level.name
  ofWire? w := do
    let name ← w.plain?
    Level.all.find? (·.name = name)

instance : Wired ListenerId where
  toWire id := toWire id.raw
  ofWire? w := (ofWire? w).map ListenerId.mk

instance : Wired Watch where
  toWire b := .record [("name", toWire b.name), ("pin", toWire b.pin)]
  ofWire? w := do return ⟨← w.required String "name", ← w.required Pin "pin"⟩

instance : Wired Budget where
  toWire b := .record [("wall_clock", toWire b.wallClock), ("max_instructions", toWire b.maxSteps)]
  ofWire? w := do
    return ⟨← w.required Duration "wall_clock", ← w.required UInt32 "max_instructions"⟩

instance : Wired Settings where
  toWire s := .record [("burst", toWire s.budget), ("sample_interval", toWire s.sampleInterval),
    ("max_image_bytes", toWire s.imageLimit), ("watch", toWire s.watch)]
  ofWire? w := do
    let standard := Settings.standard
    return { budget := ← w.defaulted "burst" standard.budget
             sampleInterval := ← w.defaulted "sample_interval" standard.sampleInterval
             imageLimit := ← w.defaulted "max_image_bytes" standard.imageLimit
             watch := ← w.defaulted "watch" standard.watch }

instance : Wired Signal where
  toWire s := .record [("name", toWire s.name), ("level", toWire s.level),
    ("changes", toWire s.changes)]
  ofWire? w := do
    return ⟨← w.required String "name", ← w.required Level "level", ← w.required Nat "changes"⟩

instance : Wired Image where
  toWire i := .record [("base_address", toWire i.base), ("words", toWire i.words.toList),
    ("entry_point", .ofOption i.entry)]
  ofWire? w := do
    return { base := ← w.required UInt32 "base_address"
             words := (← w.required (List UInt16) "words").toArray
             entry := ← w.optional UInt32 "entry_point" }

end VirtualBoard
