import VirtualBoard.Image.Reader

/-! Reading an image with guards.

On a machine a step may be impossible: an index or a slice outside its
sequence, a number outside its word, more memory than can be addressed. This is
the reading of images with a guard before each such step, on words of 64 bits.
A guard that holds a step back is a trap, which is no problem of the text. -/
namespace VirtualBoard.Image
open Text

inductive Trap where
  | index
  | slice
  | overflow
  | conversion
  | memory
  deriving DecidableEq, Repr

inductive Halt where
  | trap (trap : Trap)
  | problem (problem : Problem)
  deriving DecidableEq, Repr

abbrev Guarded (α : Type) : Type := Except Halt α

namespace Guarded

variable {α : Type}

def trap (t : Trap) : Guarded α := .error (.trap t)

def problem (p : Problem) : Guarded α := .error (.problem p)

/-! The guards. Numbers are whole, and a guard names the width of the word they have to fit. -/

def item (xs : List α) (place : Nat) : Guarded α :=
  match xs[place]? with
  | some a => .ok a
  | none => trap .index

def slice (xs : List α) (first last : Nat) : Guarded (List α) :=
  if first ≤ last ∧ last ≤ xs.length then .ok ((xs.take last).drop first) else trap .slice

def word (width n : Nat) : Guarded Nat := if n < Nat.pow 2 width then .ok n else trap .overflow

def add (width a b : Nat) : Guarded Nat := word width (a + b)

def mul (width a b : Nat) : Guarded Nat := word width (a * b)

def sub (a b : Nat) : Guarded Nat := if b ≤ a then .ok (a - b) else trap .overflow

/-- Shifts to the left, and does not drop a bit. -/
def shift (width n places : Nat) : Guarded Nat := word width (n * Nat.pow 2 places)

def convert (width n : Nat) : Guarded Nat := if n < Nat.pow 2 width then .ok n else trap .conversion

/-- The next even number, from the number itself on. -/
def roundUp (n : Nat) : Guarded Nat := if n % 2 = 0 then .ok n else add 64 n (2 - n % 2)

/-- Memory for some bytes, all zero. It is addressed by words with a sign. -/
def allocate (size : Nat) : Guarded (Array UInt8) :=
  if size < Nat.pow 2 63 then .ok (Array.replicate size 0) else trap .memory

/-! One record. -/

def digit (raw : UInt8) : Guarded (Option Nat) :=
  if 0x30 ≤ raw ∧ raw ≤ 0x39 then do return some (← sub raw.toNat 0x30)
  else if 0x61 ≤ raw ∧ raw ≤ 0x66 then do return some (← add 8 (← sub raw.toNat 0x61) 10)
  else if 0x41 ≤ raw ∧ raw ≤ 0x46 then do return some (← add 8 (← sub raw.toNat 0x41) 10)
  else return none

def byte (high low : Nat) : Guarded UInt8 := do
  return UInt8.ofNat ((← shift 8 high 4) ||| low)

/-- The bytes written by pairs of digits, counted from `place` on. -/
def bytes (line : Nat) : Nat → List UInt8 → Guarded (List UInt8)
  | place, high :: low :: rest => do
    let pair := [high, low]
    let column ← add 64 2 (← mul 64 place 2)
    match ← digit (← item pair 0) with
    | none => problem (.badDigit line column)
    | some h =>
      let next ← add 64 column 1
      match ← digit (← item pair 1) with
      | none => problem (.badDigit line next)
      | some l =>
        let found ← byte h l
        let tail ← bytes line (← add 64 place 1) rest
        return found :: tail
  | _, _ => return []

def ofBytes (line : Nat) (found : List UInt8) : Guarded Record :=
  if found.length < 5 then problem (.truncated line)
  else do
    let declared ← item found 0
    let actual ← sub found.length 5
    if declared.toNat ≠ actual then problem (.lengthMismatch line declared actual)
    else
      let cut ← sub found.length 1
      let contents ← slice found 0 cut
      let check ← item (← slice found cut found.length) 0
      let computed := Record.checksum contents
      if computed ≠ check then problem (.checksumMismatch line check computed)
      else
        let kind ← item found 3
        match Record.Kind.ofByte? kind with
        | none => problem (.unknownKind line kind)
        | some known =>
          if known.payload?.any (· ≠ declared) then problem (.wrongLength line kind declared)
          else
            let offset := Record.pair (← item found 1) (← item found 2)
            let data ← slice found 4 (← add 64 4 actual)
            return ⟨known, offset, data⟩

def ofLine (line : Nat) : List Char → Guarded Record
  | ':' :: body =>
    let digits := utf8 body
    if digits.length % 2 ≠ 0 then problem (.oddDigits line)
    else do ofBytes line (← bytes line 0 digits)
  | _ => problem (.missingStart line)

/-! The records in their order. -/

def pair (data : List UInt8) : Guarded Nat := do
  return (Record.pair (← item data 0) (← item data 1)).toNat

def takeRecord (limit : Nat) (p : Progress) (r : Record) : Guarded Progress :=
  match r.kind with
  | .data =>
    if r.data = [] then return p
    else do
      let start ← add 64 p.upper r.offset.toNat
      let finish ← add 64 start r.data.length
      if limit < finish then problem (.tooLarge finish limit)
      else return {p with pieces := ⟨start, r.data⟩ :: p.pieces}
  | .endOfFile => return {p with ended := true}
  | .segmentBase => do return {p with upper := ← shift 64 (← pair r.data) 4}
  | .linearBase => do return {p with upper := ← shift 64 (← pair r.data) 16}
  | .segmentStart => do
    let segment ← pair (← slice r.data 0 2)
    let offset ← pair (← slice r.data 2 r.data.length)
    let start ← add 32 (← shift 32 segment 4) offset
    return {p with entry := some (UInt32.ofNat start)}
  | .linearStart => do
    let high := Record.pair (← item r.data 0) (← item r.data 1)
    let low := Record.pair (← item r.data 2) (← item r.data 3)
    return {p with entry := some (65536 * high.toUInt32 + low.toUInt32)}

def takeLine (limit line : Nat) (p : Progress) (raw : List Char) : Guarded Progress :=
  let text := trim raw
  if text = [] then return p
  else if p.ended then problem (.afterEnd line)
  else do takeRecord limit p (← ofLine line text)

/-- Takes lines of which `index` ones stand before. -/
def takeLines (limit : Nat) : Nat → Progress → List (List Char) → Guarded Progress
  | _, p, [] => return p
  | index, p, raw :: rest => do
    let line ← add 64 index 1
    takeLines limit line (← takeLine limit line p raw) rest

/-! The image. -/

/-- An image, and the memory its bytes were laid out in. -/
structure Loaded where
  buffer : Array UInt8
  image : Image
  deriving DecidableEq, Repr

def put (base : Nat) (buffer : Array UInt8) (piece : Piece) : Guarded (Array UInt8) := do
  let place ← sub (← convert 64 piece.start) base
  let room ← slice buffer.toList place (← add 64 place piece.data.length)
  if room.length ≠ piece.data.length then trap .slice
  else return putBytes buffer place piece.data

def wordOf (buffer : Array UInt8) (place : Nat) : Guarded UInt16 := do
  let pair ← slice buffer.toList (2 * place) (2 * place + 2)
  let low ← item pair 0
  let high ← item pair 1
  return low.toUInt16 + 256 * high.toUInt16

def pack (buffer : Array UInt8) : Guarded (List UInt16) :=
  (List.range (buffer.size / 2)).mapM (wordOf buffer)

def finish (p : Progress) : Guarded Loaded :=
  if p.ended then do
    let pieces := p.pieces.reverse
    let ends ← pieces.mapM fun piece => add 64 piece.start piece.data.length
    match (pieces.map (·.start)).min?, ends.max? with
    | some low, some high =>
      let base := (← convert 64 low) / 2 * 2
      let size ← roundUp (← sub (← convert 64 high) base)
      let buffer ← pieces.foldlM (put base) (← allocate size)
      let words ← pack buffer
      let base ← convert 32 base
      return ⟨buffer, ofWords (UInt32.ofNat base) words.toArray p.entry⟩
    | _, _ => problem .noData
  else problem .missingEnd

/-- Reads the image of a text. -/
def read (limit : UInt64) (text : String) : Guarded Loaded := do
  finish (← takeLines limit.toNat 0 .start (lines text.toList))

end Guarded
end VirtualBoard.Image
