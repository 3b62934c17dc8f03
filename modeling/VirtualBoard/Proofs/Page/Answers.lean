import VirtualBoard.Proofs.Controller.Tickets
import VirtualBoard.Proofs.Page.Runs

/-! The compiler's answers as a page brings them.

An answer that cannot be read never reaches the controller, and one under a
ticket that is not pending is refused there. Either way the harness stays as it
is, but for what its page does when the refusal is printed. -/
namespace VirtualBoard.Page
open Rig Controller

variable {π κ : Type}

def Entry.Wrong (codec : Script.Codec) (pending : Option Ticket) : Entry π → Prop
  | .completeCompile ticket response =>
    codec.decode? Build.Response response = none ∨ pending ≠ some ticket
  | .failCompile ticket _ => pending ≠ some ticket
  | _ => False

namespace Harness

/- The correspondence in a run of a harness is that in the run of its controller. -/
def postings (page : Page π κ) (h : Harness π κ) (entries : List (Entry π)) : List Post :=
  h.controller.postings (h.env page) (h.passed page entries)

structure Untouched (h h' : Harness π κ) : Prop where
  threshold : h'.threshold = h.threshold
  controller : ∃ r, h'.controller = h.controller.inRig r ∧ Keeps h.controller.rig r

def Refuses (ticket : Ticket) (h : Harness π κ) (out : Except Thrown Unit × Harness π κ) : Prop :=
  out.1 = .error (.text (StaleTicket.message ⟨ticket⟩)) ∧ Untouched h out.2

def Takes (out : Except Thrown Unit × Harness π κ) : Prop :=
  out.1 = .ok () ∧ out.2.controller.phase.ticket? = none

/- What a harness does with answers, whichever way they come. -/
structure Answers (page : Page π κ) (h : Harness π κ) : Prop where
  unread : ∀ ticket response, page.codec.decode? Build.Response response = none →
    h.completeCompile page ticket response = (.error .undecodable, h)
  refused : ∀ ticket, h.controller.phase.ticket? ≠ some ticket →
    (∀ response read, page.codec.decode? Build.Response response = some read →
      Refuses ticket h (h.completeCompile page ticket response)) ∧
    ∀ reason, Refuses ticket h (h.failCompile page ticket reason)
  taken : ∀ ticket, h.controller.phase.ticket? = some ticket →
    (∀ response read, page.codec.decode? Build.Response response = some read →
      Takes (h.completeCompile page ticket response)) ∧
    ∀ reason, Takes (h.failCompile page ticket reason)
  waits : ∀ wrong : List (Entry π),
    (∀ entry ∈ wrong, entry.Wrong page.codec h.controller.phase.ticket?) →
    Untouched h (h.run page wrong) ∧
    (h.controller.stage = .compiling → (h.run page wrong).view page = h.view page)

namespace Untouched

variable {h h' h'' : Harness π κ}

theorem refl (h : Harness π κ) : Untouched h h := ⟨rfl, h.controller.rig, rfl, .refl _⟩

theorem trans (early : Untouched h h') (late : Untouched h' h'') : Untouched h h'' := by
  obtain ⟨same, r, before, kept⟩ := early
  obtain ⟨again, s, after, further⟩ := late
  rw [before] at after further
  exact ⟨again.trans same, s, after, kept.trans further⟩

end Untouched

theorem flushUntouched (page : Page π κ) (h : Harness π κ) : Untouched h (h.flush page) := by
  have emptied : Keeps h.controller.rig h.controller.takeLog.2.rig :=
    ⟨rfl, rfl, fun _ => rfl, fun _ => rfl⟩
  exact ⟨rfl, _, rfl, emptied.trans (keepsAsk _ _)⟩

theorem Untouched.view {h h' : Harness π κ} (untouched : Untouched h h')
    (page : Page π κ) (quiet : h.controller.rig.armed = []) : h'.view page = h.view page := by
  obtain ⟨-, r, same, kept⟩ := untouched
  have board := kept.board quiet
  unfold Harness.view Controller.view
  rw [same]
  simp only [inRig, stage, board]

theorem settleRefused (page : Page π κ) {h : Harness π κ} {ticket : Ticket}
    (stale : h.controller.phase.ticket? ≠ some ticket) (outcome : Outcome) :
    Refuses ticket h (h.settle page ticket outcome) := by
  have refused := completeStale (h.env page) stale outcome
  generalize "compile " ++ ticket.text ++ " settled but is not pending" = text at refused
  let told : Harness π κ := ⟨h.controller.record .warn text, h.threshold⟩
  have recorded : Untouched h told := ⟨rfl, _, rfl, writeKeeps _ _⟩
  have settled : h.settle page ticket outcome =
      (.error (.text (StaleTicket.message ⟨ticket⟩)), told.flush page) := by
    simp only [settle, apply, refused]
    rfl
  rw [settled]
  exact ⟨rfl, recorded.trans (flushUntouched page told)⟩

theorem settleTaken (page : Page π κ) {h : Harness π κ} {ticket : Ticket}
    (pending : h.controller.phase.ticket? = some ticket) (outcome : Outcome) :
    Takes (h.settle page ticket outcome) := by
  obtain ⟨held, -, taken⟩ := completePending (h.env page) pending outcome
  let settled : Harness π κ :=
    ⟨(h.controller.load (h.env page) outcome).replay (h.env page) held, h.threshold⟩
  have ended : settled.controller.phase.ticket? = none :=
    (replayRests _ _ held).pending.trans (loadSettled _ _ outcome)
  have answer : h.settle page ticket outcome = (.ok (), settled.flush page) := by
    simp only [settle, apply, taken]
    rfl
  obtain ⟨-, r, same, -⟩ := flushUntouched page settled
  rw [answer]
  refine ⟨rfl, ?_⟩
  rw [same]
  exact ended

theorem enterWrong (page : Page π κ) (h : Harness π κ) {entry : Entry π}
    (wrong : entry.Wrong page.codec h.controller.phase.ticket?) :
    Untouched h (h.enter page entry) := by
  cases entry with
  | completeCompile ticket response =>
    simp only [enter, completeCompile]
    cases read : page.codec.decode? Build.Response response with
    | none => exact .refl h
    | some answer =>
      have stale := wrong.resolve_left (by rw [read]; exact Option.some_ne_none _)
      exact (settleRefused page stale answer.outcome).2
  | failCompile ticket reason => exact (settleRefused page wrong _).2
  | _ => cases wrong

theorem runWrong (page : Page π κ) (h : Harness π κ) {wrong : List (Entry π)}
    (all : ∀ entry ∈ wrong, entry.Wrong page.codec h.controller.phase.ticket?) :
    Untouched h (h.run page wrong) := by
  induction wrong generalizing h with
  | nil => exact .refl h
  | cons entry rest ih =>
    rw [List.forall_mem_cons] at all
    have first := enterWrong page h all.1
    refine first.trans (ih (h.enter page entry) ?_)
    obtain ⟨-, r, same, -⟩ := first
    rw [same]
    exact all.2

theorem answers {settings : Settings} (page : Page π κ) {h : Harness π κ}
    (orderly : Orderly settings h.controller) : Answers page h where
  unread ticket response unreadable := by simp only [completeCompile, unreadable]
  refused ticket stale := by
    refine ⟨fun response read decoded => ?_, fun reason => settleRefused page stale _⟩
    simp only [completeCompile, decoded]
    exact settleRefused page stale _
  taken ticket pending := by
    refine ⟨fun response read decoded => ?_, fun reason => settleTaken page pending _⟩
    simp only [completeCompile, decoded]
    exact settleTaken page pending _
  waits wrong all := by
    have untouched := runWrong page h all
    refine ⟨untouched, fun compiling => untouched.view page ?_⟩
    have holds := orderly.holds
    unfold stage at compiling
    cases phase : h.controller.phase with
    | compiling =>
      rw [phase] at holds
      exact holds
    | _ => rw [phase] at compiling; cases compiling

theorem newReady {settings : Settings} (usable : settings.problem? = none) (page : Page π κ)
    {config : Script} (read : settings? page config = some settings) (world : π) :
    ∃ ready : Harness π κ, new page config world = .ok ready ∧
      ready.controller.phase = .idle ∧ Filed settings [] ready.controller := by
  obtain ⟨fresh, made⟩ := newUsable (μ := Model κ) usable (⟨world, .zero⟩ : Tab π)
  refine ⟨⟨(fresh.outside (act (page.print "harness ready"))).2, .upTo .info⟩, ?_, ?_, ?_⟩
  · simp only [new, read, made]
  · show fresh.phase = .idle
    exact newIdle made
  · have printed := keepsAsk (act (page.print "harness ready")) fresh.rig
    have filed := newFiled made
    exact filed.still (filed.orderly.kept printed) (.same rfl rfl)

end Harness

def plain : Page Unit Unit where
  step _ := fun page => ⟨.ok (), page, []⟩
  tick _ := fun page => ⟨(), page, []⟩
  pinLevel _ _ := fun page => ⟨0, page, []⟩
  addPinListener _ _ _ := fun page => ⟨0, page, []⟩
  removePinListener _ _ := fun page => ⟨true, page, []⟩
  dropClosure _ := fun page => ⟨(), page, []⟩
  construct _ := fun page => ⟨.ok (some ()), page, []⟩
  requestFrame _ := fun page => ⟨.ok (), page, []⟩
  cancelFrame _ := fun page => ⟨.ok (), page, []⟩
  performance := none
  date := fun page => ⟨0, page, []⟩
  print _ := fun page => ⟨(), page, []⟩

end VirtualBoard.Page
