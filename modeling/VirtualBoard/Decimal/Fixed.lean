import VirtualBoard.Decimal.Binary
import VirtualBoard.Text.Digits

/-! Numbers with a fixed count of decimal places. -/
namespace VirtualBoard.Decimal
open Text

/-- The text of a number with `places` decimals, rounded exactly and half to even. The sign of a
negative number stays even if nothing else of it does. -/
def fixed (places : Nat) (x : Float) : String :=
  match Binary.ofFloat? x with
  | none => if x.isNaN then "NaN" else if x < 0 then "-inf" else "inf"
  | some b =>
    let unit := Nat.pow 10 places
    let units := b.scaled unit
    let sign := if b.negative then "-" else ""
    let whole := decimal (units / unit)
    if places = 0 then sign ++ whole
    else sign ++ whole ++ "." ++ decimalPadded places (units % unit)

end VirtualBoard.Decimal
