/-! Whole numbers in decimal and hexadecimal digits.

Writing is by division, least digit last; reading a hexadecimal digit accepts
both letter cases. -/
namespace VirtualBoard.Text

def digits (base n : Nat) : List Char := Nat.toDigits base n

def decimal (n : Nat) : String := String.ofList (digits 10 n)

def decimalPadded (width n : Nat) : String :=
  let body := digits 10 n
  String.ofList (List.replicate (width - body.length) '0' ++ body)

def hexadecimal (width n : Nat) : String :=
  let body := digits 16 n
  String.ofList ('0' :: 'x' :: List.replicate (width - 2 - body.length) '0' ++ body)

def hexValue? (digit : UInt8) : Option UInt8 :=
  if 0x30 ≤ digit ∧ digit ≤ 0x39 then some (digit - 0x30)
  else if 0x61 ≤ digit ∧ digit ≤ 0x66 then some (digit - 0x61 + 10)
  else if 0x41 ≤ digit ∧ digit ≤ 0x46 then some (digit - 0x41 + 10)
  else none

def utf8 (cs : List Char) : List UInt8 := cs.flatMap String.utf8EncodeChar

end VirtualBoard.Text
