import VirtualBoard.Fault
import VirtualBoard.Surroundings
import VirtualBoard.Text.Blank

/-! The compile round trip.

A request goes out under a ticket and is settled by quoting the ticket. An
image that is not blank wins over diagnostics; without one, diagnostics that
are not blank are the failure; and an answer with neither has a failure of its
own. -/
namespace VirtualBoard

structure Ticket where
  raw : Nat
  deriving DecidableEq, Repr

def Ticket.text (t : Ticket) : String := "#" ++ Text.decimal t.raw

structure StaleTicket where
  ticket : Ticket
  deriving DecidableEq, Repr

def StaleTicket.message (s : StaleTicket) : String :=
  "compile ticket " ++ s.ticket.text ++ " is not pending"

structure Build.Request where
  sketch : String
  deriving DecidableEq, Repr

structure Build.Response where
  hex : Option String
  stderr : Option String
  deriving DecidableEq, Repr

abbrev Outcome : Type := Except Failure String

def Build.Response.outcome (r : Build.Response) : Outcome :=
  let diagnosis : Outcome :=
    match r.stderr with
    | some text => .error (if Text.allBlank text then .nothingReturned else .compile text)
    | none => .error .nothingReturned
  match r.hex with
  | some hex => if Text.allBlank hex then diagnosis else .ok hex
  | none => diagnosis

structure CompileRequest where
  ticket : Ticket
  source : String
  deriving DecidableEq, Repr

def CompileRequest.body (r : CompileRequest) : Build.Request := ⟨r.source⟩

/-- A compiler that is waited for; it answers or says why it could not be reached. -/
abbrev Compiler (ω : Type) : Type := Build.Request → Act ω (Except String Build.Response)

def Compiler.outcome : Except String Build.Response → Outcome
  | .ok response => response.outcome
  | .error reason => .error (.transport reason)

end VirtualBoard
