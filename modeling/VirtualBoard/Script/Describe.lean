import VirtualBoard.Script.Value

/-! A text for whatever a script throws, and the codec of a page.

A string is its own text and an error shows its message. Anything else is
inspected: primitive values and arrays in the notation of the script, an object
by its JSON text, functions and big integers by their kind alone. -/
namespace VirtualBoard.Script
open Text

def jsonChar (c : Char) : List Char :=
  if c = '"' then ['\\', '"']
  else if c = '\\' then ['\\', '\\']
  else if c = '\n' then ['\\', 'n']
  else if c = '\r' then ['\\', 'r']
  else if c = '\t' then ['\\', 't']
  else if c = '\x08' then ['\\', 'b']
  else if c = '\x0c' then ['\\', 'f']
  else if c.toNat < 0x20 then
    ['\\', 'u', '0', '0', Nat.digitChar (c.toNat / 16), Nat.digitChar (c.toNat % 16)]
  else [c]

def jsonText (s : String) : String := String.ofList ('"' :: s.toList.flatMap jsonChar ++ ['"'])

mutual

def hasBigint : Script → Bool
  | bigint _ => true
  | array items => itemsHaveBigint items
  | object fields => fieldsHaveBigint fields
  | _ => false

def itemsHaveBigint : List Script → Bool
  | [] => false
  | item :: rest => item.hasBigint || itemsHaveBigint rest

def fieldsHaveBigint : List (String × Script) → Bool
  | [] => false
  | (_, value) :: rest => value.hasBigint || fieldsHaveBigint rest

end

mutual

/-- The JSON text of a value; undefined values and functions have none. -/
def json? : Script → Option String
  | undefined | function => none
  | null | bigint _ => some "null"
  | bool b => some (if b then "true" else "false")
  | number x => some (if x.isFinite then Decimal.script x else "null")
  | text s => some (jsonText s)
  | array items => some ("[" ++ ",".intercalate (itemsJson items) ++ "]")
  | object fields => some ("\x7b" ++ ",".intercalate (fieldsJson fields) ++ "\x7d")
  | error _ => some "\x7b\x7d"

/-- The JSON texts of the items of an array; what has none is null. -/
def itemsJson : List Script → List String
  | [] => []
  | item :: rest => item.json?.getD "null" :: itemsJson rest

/-- The JSON texts of the properties of an object; what has none is left out. -/
def fieldsJson : List (String × Script) → List String
  | [] => []
  | (name, value) :: rest =>
    match value.json? with
    | none => fieldsJson rest
    | some body => (jsonText name ++ ":" ++ body) :: fieldsJson rest

end

mutual

def inspect : Script → String
  | undefined => "undefined"
  | null => "null"
  | bool b => if b then "true" else "false"
  | number x => Decimal.script x
  | bigint _ => "BigInt"
  | text s => "\"" ++ s ++ "\""
  | array items => "[" ++ ", ".intercalate (inspectItems items) ++ "]"
  | object fields =>
    if fieldsHaveBigint fields then "Object"
    else "Object(\x7b" ++ ",".intercalate (fieldsJson fields) ++ "\x7d)"
  | function => "Function"
  | error message => "Error: " ++ message

def inspectItems : List Script → List String
  | [] => []
  | item :: rest => item.inspect :: inspectItems rest

end

/-- What a binding of the script's language makes of values: a text to show them by, and their place
on the wire, where fields of 64 bits may be asked for as big integers. -/
structure Codec where
  display : Script → String
  toWire : Script → Wire
  ofWire : Bool → Wire → Script

namespace Codec

def standard : Codec where
  display value := "JsValue(" ++ value.inspect ++ ")"
  toWire := Script.toWire
  ofWire := Script.ofWire

def describe (codec : Codec) : Script → String
  | text s => s
  | error message => message
  | other => codec.display other

def decode? (codec : Codec) (α : Type) [Wired α] (s : Script) : Option α := ofWire? (codec.toWire s)

end Codec
end VirtualBoard.Script
