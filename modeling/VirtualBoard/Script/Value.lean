import VirtualBoard.Decimal.Shortest
import VirtualBoard.Wire.Basic

/-! Values of a script on a page, and their place on the wire.

A number of a script is a float. It is read as a whole number where it is one
and exact; a big integer only ever fills a field of 64 bits. Going the other
way, nothing becomes the undefined value, and whoever writes chooses whether
fields of 64 bits become big integers. -/
namespace VirtualBoard

inductive Script where
  | undefined
  | null
  | bool (b : Bool)
  | number (x : Float)
  | bigint (n : Int)
  | text (s : String)
  | array (items : List Script)
  | object (fields : List (String × Script))
  | function
  | error (message : String)
  deriving Inhabited

namespace Script

/-- The whole number a float is, if it is one below two to the power 53 in absolute value. -/
def whole? (x : Float) : Option Int :=
  match Decimal.Binary.ofFloat? x with
  | none => none
  | some b =>
    let size := b.mantissa <<< b.exponent.toNat
    let parts := 1 <<< (-b.exponent).toNat
    if size % parts = 0 ∧ size / parts < 9007199254740992 then
      some (if b.negative then -((size / parts : Nat) : Int) else (size / parts : Nat))
    else none

def wireNumber (x : Float) : Wire :=
  match whole? x with
  | some n => .int n
  | none => .float x

mutual

/-- A value as it is read: an error is a record without fields, and a function fits no form. -/
def toWire : Script → Wire
  | undefined | null => .null
  | bool b => .bool b
  | number x => wireNumber x
  | bigint n => .wide n
  | text s => .text s
  | array items => .list (itemsToWire items)
  | object fields => .record (fieldsToWire fields)
  | function => .inert
  | error _ => .record []

def itemsToWire : List Script → List Wire
  | [] => []
  | item :: rest => item.toWire :: itemsToWire rest

def fieldsToWire : List (String × Script) → List (String × Wire)
  | [] => []
  | (name, value) :: rest => (name, value.toWire) :: fieldsToWire rest

end

mutual

def ofWire (big : Bool) : Wire → Script
  | .null | .inert => undefined
  | .bool b => bool b
  | .int n => number (Float.ofInt n)
  | .wide n => if big then bigint n else number (Float.ofInt n)
  | .float x => number x
  | .text s => text s
  | .list items => array (itemsOfWire big items)
  | .record fields => object (fieldsOfWire big fields)

def itemsOfWire (big : Bool) : List Wire → List Script
  | [] => []
  | item :: rest => ofWire big item :: itemsOfWire big rest

def fieldsOfWire (big : Bool) : List (String × Wire) → List (String × Script)
  | [] => []
  | (name, value) :: rest => (name, ofWire big value) :: fieldsOfWire big rest

end

def isNothing : Script → Bool
  | undefined | null => true
  | _ => false

end Script
end VirtualBoard
