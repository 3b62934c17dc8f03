import VirtualBoard.Text.Digits
import VirtualBoard.Text.Hidden

/-! Texts in double quotes, with everything that would not show written out. -/
namespace VirtualBoard.Text

/-- One character inside double quotes: a quote, a backslash and the common control characters
by a letter, any other hidden character by its number, and all else as it is. -/
def escaped (c : Char) : List Char :=
  if c = '"' then ['\\', '"']
  else if c = '\\' then ['\\', '\\']
  else if c = '\n' then ['\\', 'n']
  else if c = '\r' then ['\\', 'r']
  else if c = '\t' then ['\\', 't']
  else if c = '\x00' then ['\\', '0']
  else if isHidden c then ['\\', 'u', '\x7b'] ++ digits 16 c.toNat ++ ['\x7d']
  else [c]

def quoted (text : String) : String :=
  String.ofList ('"' :: text.toList.flatMap escaped ++ ['"'])

end VirtualBoard.Text
