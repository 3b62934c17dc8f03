/-! The lines of a text.

A line ends at a line feed, and one carriage return just before that line feed
belongs to the line's end. A final line end starts no further line. -/
namespace VirtualBoard.Text

def lines : List Char → List (List Char)
  | [] => []
  | '\n' :: rest => [] :: lines rest
  | '\r' :: '\n' :: rest => [] :: lines rest
  | c :: rest =>
    match lines rest with
    | [] => [[c]]
    | line :: more => (c :: line) :: more

example : lines "a\r\n\nb\r".toList = [['a'], [], ['b', '\r']] := by decide +kernel

end VirtualBoard.Text
