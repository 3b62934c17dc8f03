/-! Exact values of binary64 numbers, and rounding them to whole numbers.

A finite number is a sign, a mantissa and a power of two. Rounding is exact:
the nearest whole number, and of two equally near ones the even one. -/
namespace VirtualBoard.Decimal

/-- A finite binary64 value: its sign and `mantissa` times two to the power `exponent`. -/
structure Binary where
  negative : Bool
  mantissa : Nat
  exponent : Int
  deriving DecidableEq, Repr

/-- The exact value of a number; none for a NaN and the infinities. -/
def Binary.ofFloat? (x : Float) : Option Binary :=
  let bits := x.toBits
  let negative := bits >>> 63 == 1
  let power := ((bits >>> 52) &&& 0x7FF).toNat
  let fraction := (bits &&& 0xFFFFFFFFFFFFF).toNat
  if power = 0x7FF then none
  else if power = 0 then some ⟨negative, fraction, -1074⟩
  else some ⟨negative, 0x10000000000000 + fraction, (power : Int) - 1075⟩

/-- The whole number nearest to a quotient; halfway goes to the even neighbour. -/
def roundDiv (num den : Nat) : Nat :=
  let low := num / den
  let twice := 2 * (num % den)
  if den < twice ∨ (den = twice ∧ low % 2 = 1) then low + 1 else low

def Binary.scaled (b : Binary) (factor : Nat) : Nat :=
  roundDiv (b.mantissa <<< b.exponent.toNat * factor) (1 <<< (-b.exponent).toNat)

end VirtualBoard.Decimal
