import VirtualBoard.Image.Problem

/-! One record of the hexadecimal format.

A record is a colon and pairs of hexadecimal digits: a byte count, two bytes of
offset, a kind, the payload, and a checksum that makes the sum of all bytes
zero. Reading checks digits, size, count, sum, kind and the kind's own payload
length in this order, and the first failing check is the one reported. -/
namespace VirtualBoard.Image
open Text

inductive Record.Kind where
  | data
  | endOfFile
  | segmentBase
  | segmentStart
  | linearBase
  | linearStart
  deriving DecidableEq, Repr

namespace Record.Kind

def ofByte? (raw : UInt8) : Option Kind :=
  if raw = 0 then some data
  else if raw = 1 then some endOfFile
  else if raw = 2 then some segmentBase
  else if raw = 3 then some segmentStart
  else if raw = 4 then some linearBase
  else if raw = 5 then some linearStart
  else none

def byte : Kind → UInt8
  | data => 0
  | endOfFile => 1
  | segmentBase => 2
  | segmentStart => 3
  | linearBase => 4
  | linearStart => 5

/-- The payload length a kind demands; a data record may have any. -/
def payload? : Kind → Option UInt8
  | data => none
  | endOfFile => some 0
  | segmentBase | linearBase => some 2
  | segmentStart | linearStart => some 4

def name : Kind → String
  | data => "Data"
  | endOfFile => "EndOfFile"
  | segmentBase => "ExtendedSegmentAddress"
  | segmentStart => "StartSegmentAddress"
  | linearBase => "ExtendedLinearAddress"
  | linearStart => "StartLinearAddress"

theorem ofByteByte (kind : Kind) : ofByte? kind.byte = some kind := by
  cases kind <;> rfl

end Record.Kind

structure Record where
  kind : Record.Kind
  offset : UInt16
  data : List UInt8
  deriving DecidableEq, Repr

namespace Record

/-- The bytes written by pairs of digits. The column of a bad digit counts bytes of the line from
one, and the first pair stands in `column`. -/
def bytes (line column : Nat) : List UInt8 → Except Problem (List UInt8)
  | high :: low :: rest =>
    match hexValue? high, hexValue? low with
    | none, _ => .error (.badDigit line column)
    | some _, none => .error (.badDigit line (column + 1))
    | some h, some l =>
      match bytes line (column + 2) rest with
      | .error problem => .error problem
      | .ok tail => .ok ((16 * h + l) :: tail)
  | _ => .ok []

def checksum (contents : List UInt8) : UInt8 := 0 - contents.foldl (· + ·) 0

def pair (high low : UInt8) : UInt16 := 256 * high.toUInt16 + low.toUInt16

def ofBytes (line : Nat) : List UInt8 → Except Problem Record
  | declared :: high :: low :: kind :: tail@(last :: rest) =>
    let data := tail.dropLast
    let found := (last :: rest).getLast (by simp)
    let computed := checksum (declared :: high :: low :: kind :: data)
    if declared.toNat ≠ data.length then .error (.lengthMismatch line declared data.length)
    else if computed ≠ found then .error (.checksumMismatch line found computed)
    else
      match Kind.ofByte? kind with
      | none => .error (.unknownKind line kind)
      | some known =>
        if known.payload?.any (· ≠ declared) then .error (.wrongLength line kind declared)
        else .ok ⟨known, pair high low, data⟩
  | _ => .error (.truncated line)

def ofLine (line : Nat) : List Char → Except Problem Record
  | ':' :: body =>
    let digits := utf8 body
    if digits.length % 2 ≠ 0 then .error (.oddDigits line)
    else
      match bytes line 2 digits with
      | .error problem => .error problem
      | .ok found => ofBytes line found
  | _ => .error (.missingStart line)

def byteText (b : UInt8) : List Char :=
  let digit := fun n => (Nat.digitChar n).toUpper
  [digit (b.toNat / 16), digit (b.toNat % 16)]

def toBytes (r : Record) : List UInt8 :=
  let contents := UInt8.ofNat r.data.length :: (r.offset / 256).toUInt8 :: r.offset.toUInt8
    :: r.kind.byte :: r.data
  contents ++ [checksum contents]

def toLine (r : Record) : List Char := ':' :: r.toBytes.flatMap byteText

example : (ofLine 1 ":0300040011223393".toList).toOption = some ⟨.data, 4, [0x11, 0x22, 0x33]⟩ := by
  decide +kernel

end Record
end VirtualBoard.Image
