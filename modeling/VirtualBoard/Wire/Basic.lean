/-! Values as they go over a wire, and how fields and variants are written and read.

A structure is a record of its fields. A reader ignores fields it does not know;
a field that is missing or holds nothing is an optional one left out. A variant
without content is its name alone, one with content a record of one field. -/
namespace VirtualBoard

/-- A value on the wire. Whole numbers of 64 bits keep apart from shorter ones, since some carriers
write them differently. -/
inductive Wire where
  | null
  | bool (b : Bool)
  | int (n : Int)
  | wide (n : Int)
  | float (x : Float)
  | text (s : String)
  | list (items : List Wire)
  | record (fields : List (String × Wire))
  | inert
  deriving Inhabited

class Wired (α : Type) where
  toWire : α → Wire
  ofWire? : Wire → Option α

export Wired (toWire ofWire?)

namespace Wire

def isNull : Wire → Bool
  | null => true
  | _ => false

/-- A field of a record, if it is there. A list is a record without fields, as it is among the values
of a script; a reader of JSON may take the fields of a list by their places, which is not done here,
and no record is written as a list. Other values are no records. -/
def field? (name : String) : Wire → Option (Option Wire)
  | record fields => some ((fields.find? (·.1 = name)).map Prod.snd)
  | list _ => some none
  | _ => none

def required (α : Type) [Wired α] (w : Wire) (name : String) : Option α := do
  ofWire? (← (← w.field? name))

def optional (α : Type) [Wired α] (w : Wire) (name : String) : Option (Option α) := do
  match ← w.field? name with
  | none => some none
  | some found => if found.isNull then some none else (ofWire? found).map some

def defaulted {α : Type} [Wired α] (w : Wire) (name : String) (default : α) : Option α := do
  match ← w.field? name with
  | none => some default
  | some found => ofWire? found

def variant? : Wire → Option (String × Option Wire)
  | text name => some (name, none)
  | record [(name, content)] => some (name, some content)
  | _ => none

def plain? (w : Wire) : Option String := do
  let (name, content) ← w.variant?
  if content.all isNull then some name else none

def natural? (limit : Nat) : Wire → Option Nat
  | int n => if 0 ≤ n ∧ n < limit then some n.toNat else none
  | _ => none

def wide? : Wire → Option Nat
  | int n | wide n => if 0 ≤ n ∧ n < 18446744073709551616 then some n.toNat else none
  | _ => none

def ofOption {α : Type} [Wired α] : Option α → Wire
  | none => null
  | some a => toWire a

end Wire

instance : Wired Bool where
  toWire := .bool
  ofWire?
    | .bool b => some b
    | _ => none

instance : Wired String where
  toWire := .text
  ofWire?
    | .text s => some s
    | _ => none

instance : Wired Char where
  toWire c := .text (String.ofList [c])
  ofWire?
    | .text s =>
      match s.toList with
      | [c] => some c
      | _ => none
    | _ => none

instance : Wired UInt8 where
  toWire n := .int n.toNat
  ofWire? w := (w.natural? 256).map UInt8.ofNat

instance : Wired UInt16 where
  toWire n := .int n.toNat
  ofWire? w := (w.natural? 65536).map UInt16.ofNat

instance : Wired UInt32 where
  toWire n := .int n.toNat
  ofWire? w := (w.natural? 4294967296).map UInt32.ofNat

instance : Wired UInt64 where
  toWire n := .wide n.toNat
  ofWire? w := w.wide?.map UInt64.ofNat

instance : Wired Nat where
  toWire n := .wide n
  ofWire? w := w.wide?

instance : Wired Float where
  toWire := .float
  ofWire?
    | .float x => some x
    | .int n | .wide n => some (Float.ofInt n)
    | _ => none

instance {α : Type} [Wired α] : Wired (List α) where
  toWire items := .list (items.map toWire)
  ofWire?
    | .list items => items.mapM ofWire?
    | _ => none

end VirtualBoard
