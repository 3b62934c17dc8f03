import VirtualBoard.Text.Digits

/-! Reasons why a text is no program image. Lines count from one. -/
namespace VirtualBoard.Image
open Text

inductive Problem where
  | missingStart (line : Nat)
  | oddDigits (line : Nat)
  | badDigit (line column : Nat)
  | truncated (line : Nat)
  | lengthMismatch (line : Nat) (declared : UInt8) (actual : Nat)
  | checksumMismatch (line : Nat) (found computed : UInt8)
  | unknownKind (line : Nat) (kind : UInt8)
  | wrongLength (line : Nat) (kind length : UInt8)
  | afterEnd (line : Nat)
  | missingEnd
  | noData
  | tooLarge (finish limit : Nat)
  deriving DecidableEq, Repr

namespace Problem

def line? : Problem → Option Nat
  | missingStart n | oddDigits n | badDigit n _ | truncated n | lengthMismatch n _ _
  | checksumMismatch n _ _ | unknownKind n _ | wrongLength n _ _ | afterEnd n => some n
  | missingEnd | noData | tooLarge _ _ => none

def message : Problem → String
  | missingStart n => "line " ++ decimal n ++ ": record does not start with ':'"
  | oddDigits n => "line " ++ decimal n ++ ": odd number of hex digits"
  | badDigit n column =>
    "line " ++ decimal n ++ ": invalid hex digit at column " ++ decimal column
  | truncated n => "line " ++ decimal n ++ ": record is shorter than 5 bytes"
  | lengthMismatch n declared actual =>
    "line " ++ decimal n ++ ": byte count " ++ decimal declared.toNat ++ " does not match "
      ++ decimal actual ++ " payload bytes"
  | checksumMismatch n found computed =>
    "line " ++ decimal n ++ ": checksum " ++ hexadecimal 4 found.toNat
      ++ " does not match computed " ++ hexadecimal 4 computed.toNat
  | unknownKind n kind =>
    "line " ++ decimal n ++ ": unsupported record type " ++ hexadecimal 4 kind.toNat
  | wrongLength n kind length =>
    "line " ++ decimal n ++ ": record type " ++ hexadecimal 4 kind.toNat ++ " cannot carry "
      ++ decimal length.toNat ++ " bytes"
  | afterEnd n => "line " ++ decimal n ++ ": record follows the end-of-file record"
  | missingEnd => "missing end-of-file record"
  | noData => "image contains no data records"
  | tooLarge finish limit =>
    "image ends at " ++ hexadecimal 0 finish ++ ", beyond the " ++ hexadecimal 0 limit
      ++ "-byte program memory"

end Problem
end VirtualBoard.Image
