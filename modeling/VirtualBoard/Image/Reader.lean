import VirtualBoard.Image.Memory
import VirtualBoard.Image.Record
import VirtualBoard.Text.Blank
import VirtualBoard.Text.Lines

/-! Program images from text.

The lines of a text are trimmed, blank ones are skipped, and the others are
records taken in order. The first problem found ends the reading, so a text
gives a whole image or none. Data past the limit is refused before it is kept. -/
namespace VirtualBoard.Image
open Text

/-- What the records so far amount to. The newest piece comes first. -/
structure Progress where
  upper : Nat
  entry : Option UInt32
  ended : Bool
  pieces : List Piece
  deriving DecidableEq, Repr

namespace Progress

def start : Progress := ⟨0, none, false, []⟩

/-- Takes one record. A data record without payload changes nothing, wherever it points. -/
def takeRecord (limit : Nat) (p : Progress) (r : Record) : Except Problem Progress :=
  match r.kind, r.data with
  | .data, [] => .ok p
  | .data, data =>
    let piece : Piece := ⟨p.upper + r.offset.toNat, data⟩
    if limit < piece.finish then .error (.tooLarge piece.finish limit)
    else .ok {p with pieces := piece :: p.pieces}
  | .endOfFile, _ => .ok {p with ended := true}
  | .segmentBase, [high, low] => .ok {p with upper := 16 * (Record.pair high low).toNat}
  | .linearBase, [high, low] => .ok {p with upper := 65536 * (Record.pair high low).toNat}
  | .segmentStart, [a, b, c, d] =>
    .ok {p with entry := some (16 * (Record.pair a b).toUInt32 + (Record.pair c d).toUInt32)}
  | .linearStart, [a, b, c, d] =>
    .ok {p with entry := some (65536 * (Record.pair a b).toUInt32 + (Record.pair c d).toUInt32)}
  | _, _ => .ok p

def takeLine (limit line : Nat) (p : Progress) (raw : List Char) : Except Problem Progress :=
  let text := trim raw
  if text = [] then .ok p
  else if p.ended then .error (.afterEnd line)
  else
    match Record.ofLine line text with
    | .error problem => .error problem
    | .ok r => p.takeRecord limit r

def takeLines (limit : Nat) : Nat → Progress → List (List Char) → Except Problem Progress
  | _, p, [] => .ok p
  | line, p, raw :: rest =>
    match p.takeLine limit line raw with
    | .error problem => .error problem
    | .ok next => takeLines limit (line + 1) next rest

def finish (p : Progress) : Except Problem Image :=
  if p.ended then
    match p.pieces.reverse with
    | [] => .error .noData
    | first :: more => .ok (ofPieces first more p.entry)
  else .error .missingEnd

end Progress

/-- Reads the image of a text; all its data must end at or below `limit`. -/
def read (limit : Nat) (text : String) : Except Problem Image :=
  match Progress.start.takeLines limit 1 (lines text.toList) with
  | .error problem => .error problem
  | .ok p => p.finish

end VirtualBoard.Image
