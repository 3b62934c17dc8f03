import VirtualBoard.Compile
import VirtualBoard.Session
import VirtualBoard.StatusView
import VirtualBoard.Wire.Board

/-! Wire forms of tokens, compiles, snapshots and views. -/
namespace VirtualBoard

instance : Wired BurstToken where
  toWire token := toWire token.raw
  ofWire? w := (ofWire? w).map BurstToken.mk

instance : Wired Ticket where
  toWire ticket := toWire ticket.raw
  ofWire? w := (ofWire? w).map Ticket.mk

instance : Wired SessionId where
  toWire id := toWire id.raw
  ofWire? w := (ofWire? w).map SessionId.mk

instance : Wired Build.Request where
  toWire r := .record [("sketch", toWire r.sketch)]
  ofWire? w := (w.required String "sketch").map Build.Request.mk

instance : Wired Build.Response where
  toWire r := .record [("hex", .ofOption r.hex), ("stderr", .ofOption r.stderr)]
  ofWire? w := do return ⟨← w.optional String "hex", ← w.optional String "stderr"⟩

instance : Wired CompileRequest where
  toWire r := .record [("ticket", toWire r.ticket), ("body", toWire r.body)]
  ofWire? w := do
    return ⟨← w.required Ticket "ticket", (← w.required Build.Request "body").sketch⟩

instance : Wired Snapshot where
  toWire s := .record [("cycle_count", toWire s.cycles), ("elapsed", toWire s.elapsed),
    ("instructions_per_second", toWire s.rate)]
  ofWire? w := do
    return { cycles := ← w.required Nat "cycle_count"
             elapsed := ← w.required Duration "elapsed"
             rate := ← w.required Float "instructions_per_second" }

instance : Wired StatusView where
  toWire v := .record [("status", toWire v.status), ("error", .ofOption v.error),
    ("cycle_count", toWire v.cycles), ("frequency_hz", toWire v.frequency),
    ("uptime", toWire v.uptime), ("indicator", toWire v.indicator), ("signals", toWire v.signals)]
  ofWire? w := do
    return { status := ← w.required String "status"
             error := ← w.optional String "error"
             cycles := ← w.required Nat "cycle_count"
             frequency := ← w.required Float "frequency_hz"
             uptime := ← w.required String "uptime"
             indicator := ← w.required Bool "indicator"
             signals := ← w.required (List Signal) "signals" }

end VirtualBoard
