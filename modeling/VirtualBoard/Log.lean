/-! Log records and what a reader of the log gets to see of them.

A record has a severity and is shown up to a threshold. A remark has none and
is always shown. -/
namespace VirtualBoard.Log

inductive Severity where
  | error
  | warn
  | info
  | debug
  | trace
  deriving DecidableEq, Repr

namespace Severity

def rank : Severity → Nat
  | error => 1
  | warn => 2
  | info => 3
  | debug => 4
  | trace => 5

def name : Severity → String
  | error => "ERROR"
  | warn => "WARN"
  | info => "INFO"
  | debug => "DEBUG"
  | trace => "TRACE"

end Severity

inductive Threshold where
  | off
  | upTo (severity : Severity)
  deriving DecidableEq, Repr

namespace Threshold

def shows : Threshold → Severity → Bool
  | off, _ => false
  | upTo least, severity => severity.rank ≤ least.rank

def name : Threshold → String
  | off => "OFF"
  | upTo severity => severity.name

def all : List Threshold :=
  [off, upTo .error, upTo .warn, upTo .info, upTo .debug, upTo .trace]

def ofName? (name : String) : Option Threshold :=
  all.find? fun t => t.name.toList == name.toList.map Char.toUpper

end Threshold

inductive Entry where
  | record (severity : Severity) (text : String)
  | remark (text : String)
  deriving DecidableEq, Repr

def Entry.line? (threshold : Threshold) : Entry → Option String
  | record severity text =>
    if threshold.shows severity then some ("[" ++ severity.name ++ "] " ++ text) else none
  | remark text => some text

end VirtualBoard.Log
