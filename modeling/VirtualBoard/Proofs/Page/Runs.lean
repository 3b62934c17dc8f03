import VirtualBoard.Page.Run
import VirtualBoard.Proofs.Controller.Holding

/-! Runs of a harness as runs of its controller.

What a page asks of a harness becomes a command, and printing the log is an act
of the page between two commands. So a run of a harness is a run of its
controller, up to the log, which the harness empties. -/
namespace VirtualBoard.Page
open Rig Controller

variable {π κ : Type}

def Entry.command? (codec : Script.Codec) : Entry π → Option (Command (Tab π))
  | .start source => some (.start source)
  | .completeCompile ticket response =>
    (codec.decode? Build.Response response).map fun read => .complete ticket read.outcome
  | .failCompile ticket reason => some (.complete ticket (.error (.transport reason)))
  | .stop => some .stop
  | .reset => some .reset
  | .frame token => some (.frame token)
  | .setLogLevel _ => none
  | .outside call => some (.outside (act call))

namespace Harness

def printing (page : Page π κ) (h : Harness π κ) : Command (Tab π) :=
  .outside (printAll page (h.controller.takeLog.1.filterMap (Log.Entry.line? h.threshold)))

def commanded (page : Page π κ) (h : Harness π κ) (command : Command (Tab π)) : Harness π κ :=
  {h with controller := (h.controller.perform (h.env page) command).2}

theorem enterCommand (page : Page π κ) (h : Harness π κ) (entry : Entry π) :
    match entry.command? page.codec with
    | some command => h.enter page entry = (h.commanded page command).flush page
    | none => (h.enter page entry).controller = h.controller := by
  cases entry with
  | completeCompile ticket response =>
    simp only [Entry.command?, enter, completeCompile]
    cases page.codec.decode? Build.Response response <;> rfl
  | setLogLevel level =>
    simp only [Entry.command?, enter, setLogLevel]
    cases threshold? level <;> rfl
  | _ => rfl

def passes (page : Page π κ) (h : Harness π κ) (entry : Entry π) : List (Command (Tab π)) :=
  match entry.command? page.codec with
  | some command => [command, (h.commanded page command).printing page]
  | none => []

def passed (page : Page π κ) (h : Harness π κ) : List (Entry π) → List (Command (Tab π))
  | [] => []
  | entry :: rest => h.passes page entry ++ (h.enter page entry).passed page rest

theorem passedAll {holds : Command (Tab π) → Prop} {page : Page π κ} (h : Harness π κ)
    {entries : List (Entry π)}
    (asked : ∀ entry ∈ entries, ∀ command, entry.command? page.codec = some command → holds command)
    (printed : ∀ lines, holds (.outside (printAll page lines))) :
    ∀ command ∈ h.passed page entries, holds command := by
  induction entries generalizing h with
  | nil => simp [passed]
  | cons entry rest ih =>
    rw [List.forall_mem_cons] at asked
    intro command member
    rcases List.mem_append.mp member with first | later
    · unfold passes at first
      cases found : entry.command? page.codec with
      | none => simp [found] at first
      | some command' =>
        simp only [found, List.mem_cons, List.not_mem_nil, or_false] at first
        rcases first with rfl | rfl
        · exact asked.1 _ found
        · exact printed _
    · exact ih _ asked.2 command later

theorem flushBeside (page : Page π κ) (h : Harness π κ) (env : Surroundings (Tab π) (Model κ)) :
    Beside (h.controller.perform env (h.printing page)).2 (h.flush page).controller := by
  have emptied : Beside h.controller h.controller.takeLog.2 := .atRig _ ⟨[], rfl⟩
  exact (performMatched env.besideLog emptied (.outside (askBesideLog _))).2

theorem enterPasses (page : Page π κ) (h : Harness π κ) (entry : Entry π) :
    Beside (h.controller.run (h.env page) (h.passes page entry)).2
      (h.enter page entry).controller := by
  have entered := enterCommand page h entry
  unfold passes
  cases command : entry.command? page.codec with
  | none =>
    rw [command] at entered
    dsimp only at entered
    rw [entered]
    exact .refl _
  | some command' =>
    rw [command] at entered
    dsimp only at entered
    rw [entered]
    exact flushBeside page (h.commanded page command') (h.env page)

variable {settings : Settings} {h : Harness π κ}

theorem enterOrderly (orderly : Orderly settings h.controller) (page : Page π κ)
    (entry : Entry π) : Orderly settings (h.enter page entry).controller :=
  (enterPasses page h entry).orderly (runOrderly orderly (h.env page) (h.passes page entry))

theorem enterEnv (orderly : Orderly settings h.controller) (page : Page π κ) (entry : Entry π) :
    (h.enter page entry).env page = h.env page := by
  simp only [env, orderly.same, (enterOrderly orderly page entry).same]

theorem runPasses (orderly : Orderly settings h.controller) (page : Page π κ)
    (entries : List (Entry π)) :
    Beside (h.controller.run (h.env page) (h.passed page entries)).2
      (h.run page entries).controller := by
  induction entries generalizing h with
  | nil => exact .refl _
  | cons entry rest ih =>
    have later := ih (enterOrderly orderly page entry)
    rw [enterEnv orderly page entry] at later
    have once := (enterPasses page h entry).run (h.env page)
      ((h.enter page entry).passed page rest)
    rw [← runAppend] at once
    exact once.trans later

end Harness
end VirtualBoard.Page
