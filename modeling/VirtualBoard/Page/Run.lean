import VirtualBoard.Controller.Run
import VirtualBoard.Page.Harness

/-! Whole runs of a harness: any calls of a page in any order.

Most calls come down to one command for the controller, after which the log is
printed. A page also does things on its own: it may call a closure it was given. -/
namespace VirtualBoard.Page

/-- One call that a page makes of its harness, or something it does besides. -/
inductive Entry (π : Type) where
  | start (source : String)
  | completeCompile (ticket : Ticket) (response : Script)
  | failCompile (ticket : Ticket) (reason : String)
  | stop
  | reset
  | frame (token : BurstToken)
  | setLogLevel (level : String)
  | outside (call : Call π Unit)

namespace Harness

variable {π κ : Type}

def enter (page : Page π κ) (h : Harness π κ) : Entry π → Harness π κ
  | .start source => (h.start page source).2
  | .completeCompile ticket response => (h.completeCompile page ticket response).2
  | .failCompile ticket reason => (h.failCompile page ticket reason).2
  | .stop => h.stop page
  | .reset => h.reset page
  | .frame token => (h.frame page token).2
  | .setLogLevel level => (h.setLogLevel level).2
  | .outside call => (h.outside page call).2

def run (page : Page π κ) (h : Harness π κ) (entries : List (Entry π)) : Harness π κ :=
  entries.foldl (enter page) h

end Harness
end VirtualBoard.Page
