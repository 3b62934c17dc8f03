import VirtualBoard.Controller.Commands

/-! Whole runs of a controller: any commands in any order.

Between commands anything outside may act, a CPU model of a closed session for
instance. An answer says what a command gave back. -/
namespace VirtualBoard

inductive Command (ω : Type) where
  | start (source : String)
  | complete (ticket : Ticket) (outcome : Outcome)
  | startWith (source : String) (compiler : Compiler ω)
  | stop
  | reset
  | frame (token : BurstToken)
  | outside (act : Act ω Unit)

inductive Answer where
  | requested (request : Option CompileRequest)
  | settled (result : Except StaleTicket Unit)
  | accepted (started : Bool)
  | continued (continuation : Continuation)
  | done

namespace Controller

variable {ω μ : Type}

def perform (env : Surroundings ω μ) (c : Controller ω μ) : Command ω → Answer × Controller ω μ
  | .start source =>
    let (request, c) := c.start source
    (.requested request, c)
  | .complete ticket outcome =>
    let (result, c) := c.complete env ticket outcome
    (.settled result, c)
  | .startWith source compiler =>
    let (started, c) := c.startWith env source compiler
    (.accepted started, c)
  | .stop => (.done, c.stop env)
  | .reset => (.done, c.reset env)
  | .frame token =>
    let (continuation, c) := c.frame env token
    (.continued continuation, c)
  | .outside act => (.done, (c.outside act).2)

def run (env : Surroundings ω μ) (c : Controller ω μ) : List (Command ω) →
    List Answer × Controller ω μ
  | [] => ([], c)
  | command :: rest =>
    let (answer, c) := c.perform env command
    let (answers, c) := c.run env rest
    (answer :: answers, c)

end Controller
end VirtualBoard
