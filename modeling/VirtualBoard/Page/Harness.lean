import VirtualBoard.Controller.Commands
import VirtualBoard.Page.Model
import VirtualBoard.Wire.Run

/-! The controller as a page uses it.

Settings and compiler answers come as values of the script, results go back as
such, and the log goes to the console as far as the threshold lets it. A value
that cannot be read is refused before the controller sees anything of it. -/
namespace VirtualBoard.Page

inductive Thrown where
  | text (message : String)
  | undecodable
  deriving DecidableEq, Repr

inductive FrameAnswer where
  | next (token : BurstToken)
  | cancelled
  | faulted (reason : String)
  deriving DecidableEq, Repr

/-- A continuation as the page is told it: of a failure only the sentence. -/
def FrameAnswer.ofContinuation : Continuation → FrameAnswer
  | .next token => next token
  | .cancelled => cancelled
  | .faulted failure => faulted failure.message

instance : Wired FrameAnswer where
  toWire
    | .next token => .record [("kind", .text "continue"), ("token", toWire token)]
    | .cancelled => .record [("kind", .text "cancelled")]
    | .faulted reason => .record [("kind", .text "faulted"), ("reason", toWire reason)]
  ofWire? w := do
    match ← w.required String "kind" with
    | "continue" => return .next (← w.required BurstToken "token")
    | "cancelled" => return .cancelled
    | "faulted" => return .faulted (← w.required String "reason")
    | _ => none

structure Harness (π κ : Type) where
  controller : Controller (Tab π) (Model κ)
  threshold : Log.Threshold

namespace Harness

variable {π κ : Type}

/-- Everything outside the controller. Program memory has the size the settings allow an image. -/
def env (page : Page π κ) (h : Harness π κ) : Surroundings (Tab π) (Model κ) :=
  page.surroundings (h.controller.settings.imageLimit.toNat / 2)

def printAll (page : Page π κ) : List String → Act (Tab π) Unit
  | [] => pure ()
  | line :: rest => do
    act (page.print line)
    printAll page rest

def flush (page : Page π κ) (h : Harness π κ) : Harness π κ :=
  let ⟨controller, threshold⟩ := h
  let (entries, controller) := controller.takeLog
  let lines := entries.filterMap (Log.Entry.line? threshold)
  ⟨(controller.outside (printAll page lines)).2, threshold⟩

def apply {α : Type} (page : Page π κ) (h : Harness π κ)
    (command : Controller (Tab π) (Model κ) → α × Controller (Tab π) (Model κ)) :
    α × Harness π κ :=
  let (value, controller) := command h.controller
  (value, {h with controller := controller}.flush page)

/-- The settings a page gives: the standard ones if it gives nothing. -/
def settings? (page : Page π κ) (config : Script) : Option Settings :=
  if config.isNothing then some .standard else page.codec.decode? Settings config

def new (page : Page π κ) (config : Script) (world : π) : Except Thrown (Harness π κ) :=
  match settings? page config with
  | none => .error .undecodable
  | some settings =>
    match Controller.new settings (⟨world, .zero⟩ : Tab π) with
    | .error problem => .error (.text problem.message)
    | .ok controller =>
      let ready := (controller.outside (act (page.print "harness ready"))).2
      .ok ⟨ready, .upTo .info⟩

def threshold? (level : String) : Except Thrown Log.Threshold :=
  match Log.Threshold.ofName? level with
  | some threshold => .ok threshold
  | none => .error (.text ("unknown log level " ++ Text.quoted level))

def setLogLevel (h : Harness π κ) (level : String) : Except Thrown Unit × Harness π κ :=
  match threshold? level with
  | .ok threshold => (.ok (), {h with threshold := threshold})
  | .error thrown => (.error thrown, h)

/-- Asks for a compile; gives the request with its body, or nothing where no start is accepted. -/
def start (page : Page π κ) (h : Harness π κ) (source : String) : Script × Harness π κ :=
  let (request, h) := h.apply page (·.start source)
  (match request with
    | none => .undefined
    | some request => page.codec.ofWire true (toWire request), h)

def settle (page : Page π κ) (h : Harness π κ) (ticket : Ticket) (outcome : Outcome) :
    Except Thrown Unit × Harness π κ :=
  let (settled, h) := h.apply page (·.complete (h.env page) ticket outcome)
  (match settled with
    | .ok () => .ok ()
    | .error stale => .error (.text stale.message), h)

def completeCompile (page : Page π κ) (h : Harness π κ) (ticket : Ticket) (response : Script) :
    Except Thrown Unit × Harness π κ :=
  match page.codec.decode? Build.Response response with
  | none => (.error .undecodable, h)
  | some response => h.settle page ticket response.outcome

def failCompile (page : Page π κ) (h : Harness π κ) (ticket : Ticket) (reason : String) :
    Except Thrown Unit × Harness π κ :=
  h.settle page ticket (.error (.transport reason))

def stop (page : Page π κ) (h : Harness π κ) : Harness π κ :=
  (h.apply page fun c => ((), c.stop (h.env page))).2

def reset (page : Page π κ) (h : Harness π κ) : Harness π κ :=
  (h.apply page fun c => ((), c.reset (h.env page))).2

def frame (page : Page π κ) (h : Harness π κ) (token : BurstToken) : Script × Harness π κ :=
  let (continuation, h) := h.apply page (·.frame (h.env page) token)
  (page.codec.ofWire true (toWire (FrameAnswer.ofContinuation continuation)), h)

def view (page : Page π κ) (h : Harness π κ) : Script :=
  page.codec.ofWire false (toWire h.controller.view)

def outside {α : Type} (h : Harness π κ) (page : Page π κ) (call : Call π α) :
    α × Harness π κ :=
  h.apply page (·.outside (act call))

end Harness
end VirtualBoard.Page
