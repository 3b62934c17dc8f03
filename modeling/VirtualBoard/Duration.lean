import VirtualBoard.Decimal.Fixed

/-! Spans of time, and readings of a clock as spans since its origin.

A duration is a whole number of nanoseconds, and its seconds fit into 64 bits.
Adding stops at the greatest duration and subtracting at zero, so neither needs
a case for the impossible. Floats serve only to show a duration and to take one
over. -/
namespace VirtualBoard

def Duration.second : Nat := 1000000000

def Duration.milli : Nat := 1000000

def Duration.maxWord : Nat := 18446744073709551615

def Duration.bound : Nat := 18446744073709551616 * second

/-- A span of time in whole nanoseconds, shorter than two to the power 64 seconds. -/
@[ext] structure Duration where
  nanos : Nat
  bounded : nanos < Duration.bound
  deriving DecidableEq

namespace Duration

instance : LE Duration := ⟨fun a b => a.nanos ≤ b.nanos⟩
instance : LT Duration := ⟨fun a b => a.nanos < b.nanos⟩
instance (a b : Duration) : Decidable (a ≤ b) := inferInstanceAs (Decidable (a.nanos ≤ b.nanos))
instance (a b : Duration) : Decidable (a < b) := inferInstanceAs (Decidable (a.nanos < b.nanos))

/-- The duration nearest to a number of nanoseconds: the greatest one if it is too large. -/
def ofNanos (n : Nat) : Duration := ⟨min n (bound - 1), by unfold bound second; omega⟩

def zero : Duration := ⟨0, by decide⟩

instance : Inhabited Duration := ⟨zero⟩

def ofMillis (n : Nat) : Duration := ofNanos (n * milli)

def ofParts (seconds nanos : Nat) : Duration := ofNanos (seconds * second + nanos)

def wholeSeconds (d : Duration) : Nat := d.nanos / second

def restNanos (d : Duration) : Nat := d.nanos % second

def wholeMillis (d : Duration) : Nat := min (d.nanos / milli) maxWord

/-- Adds two spans; the sum stops at the greatest duration. -/
def add (a b : Duration) : Duration := ofNanos (a.nanos + b.nanos)

/-- The span from `b` to `a`; none is left if `b` is later. -/
def sub (a b : Duration) : Duration := ⟨a.nanos - b.nanos, by have := a.bounded; omega⟩

instance : Add Duration := ⟨add⟩
instance : Sub Duration := ⟨sub⟩

def max (a b : Duration) : Duration := if a ≤ b then b else a

theorem leMaxLeft (a b : Duration) : a ≤ max a b := by
  unfold max
  split
  · assumption
  · exact Nat.le_refl _

/-- The seconds as a number: whole seconds plus the quotient of the other nanoseconds. -/
def seconds (d : Duration) : Float :=
  Float.ofNat d.wholeSeconds + Float.ofNat d.restNanos / 1e9

/-- The duration nearest to a number of seconds, halfway cases to the even nanosecond. There is
none for a NaN, a negative number, or one that is too large. -/
def ofSeconds? (x : Float) : Option Duration :=
  match Decimal.Binary.ofFloat? x with
  | none => none
  | some b =>
    if b.negative ∧ b.mantissa ≠ 0 then none
    else
      let n := b.scaled second
      if h : n < bound then some ⟨n, h⟩ else none

private def fractionText (places n : Nat) : String :=
  let kept := ((Text.decimalPadded places n).toList.reverse.dropWhile (· == '0')).reverse
  if kept.isEmpty then "" else "." ++ String.ofList kept

/-- The exact text of a duration in the greatest unit, up to seconds, that it reaches. -/
def text (d : Duration) : String :=
  let inUnit := fun (n places : Nat) (unit : String) =>
    let size := Nat.pow 10 places
    Text.decimal (n / size) ++ fractionText places (n % size) ++ unit
  if second ≤ d.nanos then inUnit d.nanos 9 "s"
  else if milli ≤ d.nanos then inUnit d.nanos 6 "ms"
  else if 1000 ≤ d.nanos then inUnit d.nanos 3 "µs"
  else inUnit d.nanos 0 "ns"

def shortText (d : Duration) : String := Decimal.fixed 1 d.seconds ++ "s"

end Duration
end VirtualBoard
