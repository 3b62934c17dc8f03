/-! White space, and texts without it at their ends.

A text is a list of characters. `trim` removes a longest blank beginning and a
longest blank end and keeps everything between them. -/
namespace VirtualBoard.Text

def blankRanges : List (Nat × Nat) :=
  [(0x9, 0xD), (0x20, 0x20), (0x85, 0x85), (0xA0, 0xA0), (0x1680, 0x1680), (0x2000, 0x200A),
    (0x2028, 0x2029), (0x202F, 0x202F), (0x205F, 0x205F), (0x3000, 0x3000)]

def isBlank (c : Char) : Bool :=
  blankRanges.any fun range => range.1 ≤ c.toNat && c.toNat ≤ range.2

def trimStart (cs : List Char) : List Char := cs.dropWhile isBlank

def trimEnd (cs : List Char) : List Char := (cs.reverse.dropWhile isBlank).reverse

def trim (cs : List Char) : List Char := trimEnd (trimStart cs)

def allBlank (text : String) : Bool := text.toList.all isBlank

theorem trimBlank {cs : List Char} (blank : cs.all isBlank = true) : trim cs = [] := by
  have h : cs.dropWhile isBlank = [] := by
    induction cs with
    | nil => rfl
    | cons c rest ih =>
      simp only [List.all_cons, Bool.and_eq_true] at blank
      simp [blank.1, ih blank.2]
  simp [trim, trimStart, trimEnd, h]

end VirtualBoard.Text
