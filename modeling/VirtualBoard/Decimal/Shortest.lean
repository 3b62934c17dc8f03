import VirtualBoard.Decimal.Binary
import VirtualBoard.Text.Digits

/-! The fewest decimal digits that still identify a binary64 number.

A number stands for all reals that round to it. The grids of decimal numbers
are tried from coarse to fine, and on each grid only the two neighbours of the
value: if any point of a grid rounds to the number, one of these does. -/
namespace VirtualBoard.Decimal
open Text

structure Scientific where
  digits : Nat
  exponent : Int
  deriving DecidableEq, Repr

/-- The reals that round to a positive number: numerators of the lower end, the value and the
upper end over one denominator. The ends belong to it exactly if the mantissa is even. -/
structure Interval where
  low : Nat
  value : Nat
  high : Nat
  den : Nat
  closed : Bool
  deriving DecidableEq, Repr

/-- The interval of a positive number. Just below a power of two the numbers lie twice as close,
the smallest normal number excepted. -/
def Interval.ofBinary (b : Binary) : Interval :=
  let up := (b.exponent - 2).toNat
  let narrow := b.mantissa = 0x10000000000000 ∧ -1074 < b.exponent
  { low := (if narrow then 4 * b.mantissa - 1 else 4 * b.mantissa - 2) <<< up
    value := (4 * b.mantissa) <<< up
    high := (4 * b.mantissa + 2) <<< up
    den := 1 <<< (2 - b.exponent).toNat
    closed := b.mantissa % 2 = 0 }

/-- Says whether `digits` steps of a grid, each `step / scale` wide, land in the interval. -/
def Interval.holds (i : Interval) (digits step scale : Nat) : Bool :=
  let reach := digits * step * i.den
  (i.low * scale < reach || (i.closed && i.low * scale == reach)) &&
    (reach < i.high * scale || (i.closed && reach == i.high * scale))

/-- The point of the grid of one power of ten that lies in the interval next to the value;
of two equally near ones the even one. -/
def Interval.onGrid? (i : Interval) (exponent : Int) : Option Scientific :=
  let step := Nat.pow 10 exponent.toNat
  let scale := Nat.pow 10 (-exponent).toNat
  let below := i.value * scale / (step * i.den)
  match i.holds below step scale, i.holds (below + 1) step scale with
  | false, false => none
  | true, false => some ⟨below, exponent⟩
  | false, true => some ⟨below + 1, exponent⟩
  | true, true =>
    let middle := (2 * below + 1) * step * i.den
    let twice := 2 * i.value * scale
    if middle < twice ∨ (middle = twice ∧ below % 2 = 1) then some ⟨below + 1, exponent⟩
    else some ⟨below, exponent⟩

def Binary.exact (b : Binary) : Scientific :=
  if b.exponent < 0 then ⟨b.mantissa * Nat.pow 5 (-b.exponent).toNat, b.exponent⟩
  else ⟨b.mantissa <<< b.exponent.toNat, 0⟩

/-- The shortest decimal of a positive number: the coarsest grid with a point in its interval. -/
def Binary.shortest (b : Binary) : Scientific :=
  let i := Interval.ofBinary b
  ((List.range 660).findSome? fun n : Nat => i.onGrid? (309 - (n : Int))).getD b.exact

/-- The text of a number as a script prints it: the shortest digits, positional from `1e-6` up to
below `1e21` and with a signed exponent elsewhere. The zeros share one text. -/
def script (x : Float) : String :=
  match Binary.ofFloat? x with
  | none => if x.isNaN then "NaN" else if x < 0 then "-Infinity" else "Infinity"
  | some b =>
    if b.mantissa = 0 then "0" else
    let s := b.shortest
    let body := digits 10 s.digits
    let count := body.length
    let point := s.exponent + count
    let zeros := fun n : Nat => List.replicate n '0'
    let text :=
      if (count : Int) ≤ point ∧ point ≤ 21 then body ++ zeros (point - count).toNat
      else if 0 < point ∧ point ≤ 21 then body.take point.toNat ++ ['.'] ++ body.drop point.toNat
      else if -6 < point ∧ point ≤ 0 then ['0', '.'] ++ zeros (-point).toNat ++ body
      else
        let power := point - 1
        let mark := ['e', if power < 0 then '-' else '+']
        let tail := if count = 1 then [] else '.' :: body.drop 1
        body.take 1 ++ tail ++ mark ++ digits 10 power.natAbs
    (if b.negative then "-" else "") ++ String.ofList text

end VirtualBoard.Decimal
