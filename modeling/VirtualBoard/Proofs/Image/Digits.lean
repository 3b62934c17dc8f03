import VirtualBoard.Proofs.Image.Grammar

/-! Digits that write bytes, taken apart and changed.

Bytes are written one after the other, so their digits can be cut between two
bytes. The sum of the bytes tells any digit from another one in its place. -/
namespace VirtualBoard.Image
open Text

theorem digitSmall {c : Char} {value : Nat} (is : digit? c = some value) : value < 16 := by
  unfold digit? at is
  split_ifs at is <;> simp only [Option.some.injEq] at is <;> omega

theorem digitSolid {c : Char} {value : Nat} (is : digit? c = some value) :
    isBlank c = false ∧ c ≠ ':' := by
  have table : ∀ n < 128, (digit? (Char.ofNat n)).isSome →
      isBlank (Char.ofNat n) = false ∧ Char.ofNat n ≠ ':' := by
    decide +kernel
  have row := table c.toNat (digitAscii is)
  rw [Char.ofNat_toNat] at row
  exact row (by rw [is]; rfl)

theorem writesDigits {digits : List Char} {bytes : List UInt8} (writes : Writes digits bytes) :
    ∀ c ∈ digits, ∃ value, digit? c = some value := by
  induction writes with
  | nil => simp
  | byte first second tail ih =>
    simp only [List.forall_mem_cons]
    exact ⟨⟨_, first⟩, ⟨_, second⟩, ih⟩

theorem writesLength {digits : List Char} {bytes : List UInt8} (writes : Writes digits bytes) :
    digits.length = 2 * bytes.length := by
  induction writes with
  | nil => rfl
  | byte first second tail ih =>
    simp only [List.length_cons, ih]
    omega

theorem writesJoin {front back : List Char} {early late : List UInt8}
    (first : Writes front early) (second : Writes back late) :
    Writes (front ++ back) (early ++ late) := by
  induction first with
  | nil => exact second
  | byte high low tail ih => exact .byte high low ih

theorem writesRest {front back : List Char} {early bytes : List UInt8}
    (first : Writes front early) (all : Writes (front ++ back) bytes) :
    ∃ late, bytes = early ++ late ∧ Writes back late := by
  induction first generalizing bytes with
  | nil => exact ⟨bytes, rfl, all⟩
  | byte high low tail ih =>
    cases all with
    | byte sameHigh sameLow others =>
      obtain ⟨late, rfl, writes⟩ := ih others
      rw [high] at sameHigh
      rw [low] at sameLow
      cases sameHigh
      cases sameLow
      exact ⟨late, rfl, writes⟩

theorem writesOnce {digits : List Char} {these those : List UInt8} (one : Writes digits these)
    (two : Writes digits those) : these = those := by
  have all : Writes (digits ++ []) those := by simpa using two
  obtain ⟨late, rfl, none⟩ := writesRest one all
  cases none
  simp

theorem writesParts {digits : List Char} {early late : List UInt8}
    (all : Writes digits (early ++ late)) :
    ∃ front back, digits = front ++ back ∧ Writes front early ∧ Writes back late := by
  induction early generalizing digits with
  | nil => exact ⟨[], digits, rfl, .nil, all⟩
  | cons byte early ih =>
    cases all with
    | byte high low tail =>
      obtain ⟨front, back, rfl, first, last⟩ := ih tail
      exact ⟨_ :: _ :: front, back, rfl, .byte high low first, last⟩

/-! One digit changed. It weighs one or sixteen times its value in the sum of the bytes. -/

theorem byteSum {h l : Nat} (high : h < 16) (low : l < 16) :
    (UInt8.ofNat (16 * h + l)).toNat = 16 * h + l := by
  rw [UInt8.toNat_ofNat']
  omega

theorem writesWeight {d c : Char} {v w : Nat} (is : digit? d = some v) (other : digit? c = some w)
    {back : List Char} : ∀ {front : List Char} {these those : List UInt8},
    Writes (front ++ d :: back) these → Writes (front ++ c :: back) those →
    ∃ weight, (weight = 1 ∨ weight = 16) ∧
      (these.map UInt8.toNat).sum + weight * w = (those.map UInt8.toNat).sum + weight * v
  | [], _, _, one, two => by
    cases one with | byte high low tail
    cases two with | byte otherHigh otherLow otherTail
    rw [is, Option.some.injEq] at high
    rw [other, Option.some.injEq] at otherHigh
    rw [low, Option.some.injEq] at otherLow
    subst high otherHigh otherLow
    refine ⟨16, .inr rfl, ?_⟩
    simp only [List.map_cons, List.sum_cons, writesOnce tail otherTail,
      byteSum (digitSmall is) (digitSmall low), byteSum (digitSmall other) (digitSmall low)]
    omega
  | [_], _, _, one, two => by
    cases one with | byte high low tail
    cases two with | byte otherHigh otherLow otherTail
    rw [is, Option.some.injEq] at low
    rw [other, Option.some.injEq] at otherLow
    rw [high, Option.some.injEq] at otherHigh
    subst low otherLow otherHigh
    refine ⟨1, .inl rfl, ?_⟩
    simp only [List.map_cons, List.sum_cons, writesOnce tail otherTail,
      byteSum (digitSmall high) (digitSmall is), byteSum (digitSmall high) (digitSmall other)]
    omega
  | _ :: _ :: front, _, _, one, two => by
    cases one with | byte high low tail
    cases two with | byte otherHigh otherLow otherTail
    obtain ⟨weight, kind, sums⟩ := writesWeight is other tail otherTail
    rw [high, Option.some.injEq] at otherHigh
    rw [low, Option.some.injEq] at otherLow
    subst otherHigh otherLow
    refine ⟨weight, kind, ?_⟩
    simp only [List.map_cons, List.sum_cons]
    omega

theorem writesSum {d c : Char} {v w : Nat} {front back : List Char} {these those : List UInt8}
    (is : digit? d = some v) (other : digit? c = some w)
    (one : Writes (front ++ d :: back) these) (two : Writes (front ++ c :: back) those)
    (sum : (these.map UInt8.toNat).sum % 256 = (those.map UInt8.toNat).sum % 256) : v = w := by
  obtain ⟨weight, kind, sums⟩ := writesWeight is other one two
  have small := digitSmall is
  have otherSmall := digitSmall other
  rcases kind with rfl | rfl <;> omega

end VirtualBoard.Image
