import VirtualBoard.Decimal.Shortest
import VirtualBoard.Text.Digits
import VirtualBoard.Wire.Basic

/-! The wire as JSON text.

A number without fraction and exponent is a whole number if it fits into 64
bits, signed or not, and is not `-0`; every other number is a float. Of text
outside printable ASCII only escapes are written. Reading takes a measure of
its input along, so that it ends on any text. -/
namespace VirtualBoard.Wire
open Text

def hexUnit? : List Char → Option (Nat × List Char)
  | a :: b :: c :: d :: rest => do
    let digit := fun c : Char =>
      if c.toNat < 0x80 then (hexValue? c.toNat.toUInt8).map UInt8.toNat else none
    return ((((← digit a) * 16 + (← digit b)) * 16 + (← digit c)) * 16 + (← digit d), rest)
  | _ => none

def unicodeEscape? (cs : List Char) : Option (Char × List Char) := do
  let (first, rest) ← hexUnit? cs
  if first < 0xD800 ∨ 0xDFFF < first then return (Char.ofNat first, rest)
  else
    match rest with
    | '\\' :: 'u' :: more =>
      let (second, more) ← hexUnit? more
      if first < 0xDC00 ∧ 0xDC00 ≤ second ∧ second ≤ 0xDFFF then
        return (Char.ofNat (0x10000 + (first - 0xD800) * 0x400 + (second - 0xDC00)), more)
      else none
    | _ => none

def escape? : List Char → Option (Char × List Char)
  | '"' :: rest => some ('"', rest)
  | '\\' :: rest => some ('\\', rest)
  | '/' :: rest => some ('/', rest)
  | 'b' :: rest => some ('\x08', rest)
  | 'f' :: rest => some ('\x0c', rest)
  | 'n' :: rest => some ('\n', rest)
  | 'r' :: rest => some ('\r', rest)
  | 't' :: rest => some ('\t', rest)
  | 'u' :: rest => unicodeEscape? rest
  | _ => none

/-- The rest of a string up to its closing quote. The characters read so far come in reverse. -/
def stringRest? : Nat → List Char → List Char → Option (String × List Char)
  | 0, _, _ => none
  | _, _, [] => none
  | fuel + 1, done, c :: rest =>
    if c = '"' then some (String.ofList done.reverse, rest)
    else if c = '\\' then
      match escape? rest with
      | none => none
      | some (escaped, rest) => stringRest? fuel (escaped :: done) rest
    else if c.toNat < 0x20 then none
    else stringRest? fuel (c :: done) rest

def digitsValue (cs : List Char) : Nat := cs.foldl (fun n c => 10 * n + (c.toNat - 48)) 0

def wholeNumber (negative : Bool) (n : Nat) : Wire :=
  let signed : Int := if negative then -(n : Int) else n
  if negative ∧ n = 0 then float (-0.0)
  else if -9223372036854775808 ≤ signed ∧ signed < 18446744073709551616 then int signed
  else float (Float.ofInt signed)

/-- A number from its sign, its digits before and after the point, and its exponent. -/
def decimalNumber (negative : Bool) (whole fraction : List Char) (exponent : Int) : Wire :=
  let power := exponent - fraction.length
  let size := Float.ofScientific (digitsValue (whole ++ fraction)) (power < 0) power.natAbs
  float (if negative then -size else size)

def number? (cs : List Char) : Option (Wire × List Char) :=
  let negative := cs.head? == some '-'
  let cs := if negative then cs.drop 1 else cs
  let whole := cs.takeWhile Char.isDigit
  let cs := cs.dropWhile Char.isDigit
  if whole.isEmpty then none
  else
    let fraction := if cs.head? == some '.' then (cs.drop 1).takeWhile Char.isDigit else []
    let point := cs.head? == some '.'
    let cs := if point then (cs.drop 1).dropWhile Char.isDigit else cs
    match cs with
    | c :: more =>
      if c = 'e' ∨ c = 'E' then
        let down := more.head? == some '-'
        let more := if down ∨ more.head? == some '+' then more.drop 1 else more
        let power : Int := digitsValue (more.takeWhile Char.isDigit)
        some (decimalNumber negative whole fraction (if down then -power else power),
          more.dropWhile Char.isDigit)
      else if point then some (decimalNumber negative whole fraction 0, cs)
      else some (wholeNumber negative (digitsValue whole), cs)
    | [] =>
      if point then some (decimalNumber negative whole fraction 0, cs)
      else some (wholeNumber negative (digitsValue whole), cs)

def skip (cs : List Char) : List Char :=
  cs.dropWhile fun c => c == ' ' || c == '\n' || c == '\r' || c == '\t'

mutual

def value? : Nat → List Char → Option (Wire × List Char)
  | 0, _ => none
  | fuel + 1, cs =>
    match skip cs with
    | '"' :: rest => (stringRest? (rest.length + 1) [] rest).map fun (s, rest) => (text s, rest)
    | '[' :: rest =>
      match skip rest with
      | ']' :: rest => some (list [], rest)
      | _ => items? fuel [] rest
    | '\x7b' :: rest =>
      match skip rest with
      | '\x7d' :: rest => some (record [], rest)
      | _ => members? fuel [] rest
    | 't' :: 'r' :: 'u' :: 'e' :: rest => some (bool true, rest)
    | 'f' :: 'a' :: 'l' :: 's' :: 'e' :: rest => some (bool false, rest)
    | 'n' :: 'u' :: 'l' :: 'l' :: rest => some (null, rest)
    | cs => number? cs

def items? : Nat → List Wire → List Char → Option (Wire × List Char)
  | 0, _, _ => none
  | fuel + 1, done, cs =>
    match value? fuel cs with
    | none => none
    | some (item, rest) =>
      match skip rest with
      | ',' :: rest => items? fuel (item :: done) rest
      | ']' :: rest => some (list (item :: done).reverse, rest)
      | _ => none

def members? : Nat → List (String × Wire) → List Char → Option (Wire × List Char)
  | 0, _, _ => none
  | fuel + 1, done, cs =>
    match skip cs with
    | '"' :: rest =>
      match stringRest? (rest.length + 1) [] rest with
      | none => none
      | some (name, rest) =>
        match skip rest with
        | ':' :: rest =>
          match value? fuel rest with
          | none => none
          | some (item, rest) =>
            match skip rest with
            | ',' :: rest => members? fuel ((name, item) :: done) rest
            | '\x7d' :: rest => some (record ((name, item) :: done).reverse, rest)
            | _ => none
        | _ => none
    | _ => none

end

def ofJson? (source : String) : Option Wire := do
  let cs := source.toList
  let (value, rest) ← value? (2 * cs.length + 1) cs
  if (skip rest).isEmpty then some value else none

def unitText (n : Nat) : List Char :=
  let body := digits 16 n
  ['\\', 'u'] ++ List.replicate (4 - body.length) '0' ++ body

def charText (c : Char) : List Char :=
  if c = '"' then ['\\', '"']
  else if c = '\\' then ['\\', '\\']
  else if 0x20 ≤ c.toNat ∧ c.toNat < 0x7F then [c]
  else if c.toNat < 0x10000 then unitText c.toNat
  else
    let n := c.toNat - 0x10000
    unitText (0xD800 + n / 0x400) ++ unitText (0xDC00 + n % 0x400)

def stringText (s : String) : String := String.ofList ('"' :: s.toList.flatMap charText ++ ['"'])

/-- A number as JSON: a float by its shortest digits, and null where it is no number. -/
def floatText (x : Float) : String := if x.isFinite then Decimal.script x else "null"

mutual

def toJson : Wire → String
  | null | inert => "null"
  | bool b => if b then "true" else "false"
  | int n | wide n => (if n < 0 then "-" else "") ++ decimal n.natAbs
  | float x => floatText x
  | text s => stringText s
  | list items => "[" ++ ",".intercalate (itemsToJson items) ++ "]"
  | record fields => "\x7b" ++ ",".intercalate (fieldsToJson fields) ++ "\x7d"

def itemsToJson : List Wire → List String
  | [] => []
  | item :: rest => item.toJson :: itemsToJson rest

def fieldsToJson : List (String × Wire) → List String
  | [] => []
  | (name, value) :: rest => (stringText name ++ ":" ++ value.toJson) :: fieldsToJson rest

end

end VirtualBoard.Wire
