import VirtualBoard.Lifecycle
import VirtualBoard.Wire.Basic

/-! Wire forms of faults, image problems, failures and stages. -/
namespace VirtualBoard

instance : Wired CpuFault.Kind where
  toWire kind := .text kind.name
  ofWire? w := do
    let name ← w.plain?
    CpuFault.Kind.all.find? (·.name = name)

instance : Wired CpuFault where
  toWire f := .record [("kind", toWire f.kind), ("reason", toWire f.reason)]
  ofWire? w := do
    return ⟨← w.required CpuFault.Kind "kind", ← w.required String "reason"⟩

instance : Wired Failure.Class where
  toWire c := .text c.name
  ofWire? w := do
    let name ← w.plain?
    Failure.Class.all.find? (·.name = name)

namespace Image.Problem

def name : Problem → String
  | missingStart _ => "MissingStartCode"
  | oddDigits _ => "OddDigitCount"
  | badDigit .. => "InvalidHexDigit"
  | truncated _ => "Truncated"
  | lengthMismatch .. => "LengthMismatch"
  | checksumMismatch .. => "ChecksumMismatch"
  | unknownKind .. => "UnsupportedRecordType"
  | wrongLength .. => "InvalidRecordLength"
  | afterEnd _ => "DataAfterEndOfFile"
  | missingEnd => "MissingEndOfFile"
  | noData => "Empty"
  | tooLarge .. => "TooLarge"

def fields : Problem → List (String × Wire)
  | missingStart line | oddDigits line | truncated line | afterEnd line => [("line", toWire line)]
  | badDigit line column => [("line", toWire line), ("column", toWire column)]
  | lengthMismatch line declared actual =>
    [("line", toWire line), ("declared", toWire declared), ("actual", toWire actual)]
  | checksumMismatch line found computed =>
    [("line", toWire line), ("found", toWire found), ("computed", toWire computed)]
  | unknownKind line kind => [("line", toWire line), ("kind", toWire kind)]
  | wrongLength line kind length =>
    [("line", toWire line), ("kind", toWire kind), ("len", toWire length)]
  | tooLarge finish limit => [("end", toWire finish), ("limit", toWire limit)]
  | missingEnd | noData => []

def ofFields? (name : String) (w : Wire) : Option Problem := do
  let line := w.required Nat "line"
  match name with
  | "MissingStartCode" => return missingStart (← line)
  | "OddDigitCount" => return oddDigits (← line)
  | "InvalidHexDigit" => return badDigit (← line) (← w.required Nat "column")
  | "Truncated" => return truncated (← line)
  | "LengthMismatch" =>
    return lengthMismatch (← line) (← w.required UInt8 "declared") (← w.required Nat "actual")
  | "ChecksumMismatch" =>
    return checksumMismatch (← line) (← w.required UInt8 "found") (← w.required UInt8 "computed")
  | "UnsupportedRecordType" => return unknownKind (← line) (← w.required UInt8 "kind")
  | "InvalidRecordLength" =>
    return wrongLength (← line) (← w.required UInt8 "kind") (← w.required UInt8 "len")
  | "DataAfterEndOfFile" => return afterEnd (← line)
  | "TooLarge" => return tooLarge (← w.required Nat "end") (← w.required Nat "limit")
  | _ => none

end Image.Problem

instance : Wired Image.Problem where
  toWire
    | .missingEnd => .text Image.Problem.missingEnd.name
    | .noData => .text Image.Problem.noData.name
    | problem => .record [(problem.name, .record problem.fields)]
  ofWire? w := do
    match ← w.variant? with
    | ("MissingEndOfFile", content) => if content.all Wire.isNull then some .missingEnd else none
    | ("Empty", content) => if content.all Wire.isNull then some .noData else none
    | (name, some content) => Image.Problem.ofFields? name content
    | (_, none) => none

def Failure.name : Failure → String
  | compile _ => "CompileFailure"
  | image _ => "MalformedImage"
  | cpu _ => "CpuFault"
  | transport _ => "TransportFailure"

instance : Wired Failure where
  toWire failure :=
    let content :=
      match failure with
      | .compile text | .transport text => toWire text
      | .image problem => toWire problem
      | .cpu fault => toWire fault
    .record [(failure.name, content)]
  ofWire? w := do
    match ← w.variant? with
    | ("CompileFailure", some content) => return .compile (← ofWire? content)
    | ("MalformedImage", some content) => return .image (← ofWire? content)
    | ("CpuFault", some content) => return .cpu (← ofWire? content)
    | ("TransportFailure", some content) => return .transport (← ofWire? content)
    | _ => none

instance : Wired Lifecycle where
  toWire
    | .idle => .text "Idle"
    | .compiling => .text "Compiling"
    | .running => .text "Running"
    | .stopped => .text "Stopped"
    | .failed failure => .record [("Error", toWire failure)]
  ofWire? w := do
    match ← w.variant? with
    | ("Error", some content) => return .failed (← ofWire? content)
    | (name, content) =>
      if content.all Wire.isNull then
        match name with
        | "Idle" => some .idle
        | "Compiling" => some .compiling
        | "Running" => some .running
        | "Stopped" => some .stopped
        | _ => none
      else none

end VirtualBoard
