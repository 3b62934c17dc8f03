import VirtualBoard.Controller.Run
import VirtualBoard.Proofs.Session

/-! What each operation of a controller does.

An operation leaves the controller in another rig, or moves it on in one of a few
ways: a tally is kept, a token drawn, a session opened. Surroundings are arbitrary
here: what they leave of the rig is whatever way all their acts stay along. -/
namespace VirtualBoard

def Session.spent {μ : Type} (s : Session μ) : Session μ :=
  {s with scheduler := {s.scheduler with pending := none}}

def Session.queued {μ : Type} (s : Session μ) (token : BurstToken) : Session μ :=
  {s with scheduler := {s.scheduler with pending := some token}}

def Session.sampledAt {μ : Type} (s : Session μ) (now : Duration) : Session μ :=
  {s with counters := {s.counters with sampled := now}}

def Session.due {μ : Type} (s : Session μ) (interval now : Duration) : Option Snapshot :=
  sample? interval now s.counters.cycles s.counters.started s.counters.sampled

namespace Controller
open Rig

variable {ω μ α : Type}

def inRig (c : Controller ω μ) (r : Rig ω) : Controller ω μ := {c with rig := r}

def queued? (c : Controller ω μ) : Option BurstToken :=
  c.phase.session?.bind fun session => session.scheduler.pending

theorem queuedBy {c : Controller ω μ} {session : Session μ} {snapshot : Option Snapshot}
    (phase : c.phase = .running session snapshot) : c.queued? = session.scheduler.pending := by
  rw [queued?, phase]
  rfl

theorem workRun (c : Controller ω μ) (task : Work ω α) :
    c.work task = ((task c.rig).1, c.inRig (task c.rig).2) := rfl

theorem recordRun (c : Controller ω μ) (severity : Log.Severity) (text : String) :
    c.record severity text = c.inRig (c.rig.write (.record severity text)) := rfl

theorem closeRun (env : Surroundings ω μ) (c : Controller ω μ) (session : Session μ)
    (snapshot : Option Snapshot) :
    c.close env session snapshot = (⟨session.counters.cycles, snapshot⟩,
      c.inRig (session.close env.cpu env.host c.rig).2) := by
  simp only [close, workRun, Session.closeCounters]

theorem queueRun {s : Session μ} (live : s.scheduler.cancelled = false)
    (env : Surroundings ω μ) (c : Controller ω μ) :
    c.queue env s = (some ⟨c.tokens.issued + 1⟩, s.queued ⟨c.tokens.issued + 1⟩,
      {c with
        tokens := ⟨c.tokens.issued + 1⟩
        rig := (ask (env.host.request ⟨c.tokens.issued + 1⟩) c.rig).2}) := by
  have issued : s.scheduler.issue c.tokens = (some ⟨c.tokens.issued + 1⟩,
      {s.scheduler with pending := some ⟨c.tokens.issued + 1⟩}, ⟨c.tokens.issued + 1⟩) := by
    rw [Scheduler.issue, if_neg (by simp [live])]
    rfl
  simp only [queue, issued]
  rfl

theorem sampleRun (env : Surroundings ω μ) (c : Controller ω μ) (session : Session μ)
    (snapshot : Option Snapshot) :
    let read := ask env.clock c.rig
    let figures := session.due c.settings.sampleInterval read.1
    ∃ rig, c.sample env session snapshot =
      (if figures.isSome then session.sampledAt read.1 else session, figures.or snapshot,
        c.inRig rig) ∧
      (rig = read.2 ∨ ∃ text, rig = read.2.write (.record .trace text)) := by
  intro read figures
  unfold sample
  simp only [workRun]
  cases fresh : figures with
  | none =>
    have none : sample? c.settings.sampleInterval (ask env.clock c.rig).1 session.counters.cycles
      session.counters.started session.counters.sampled = none := fresh
    exact ⟨read.2, by simp only [inRig, none]; rfl, .inl rfl⟩
  | some fresh' =>
    have some : sample? c.settings.sampleInterval (ask env.clock c.rig).1 session.counters.cycles
      session.counters.started session.counters.sampled = some fresh' := fresh
    exact ⟨_, by simp only [inRig, some]; rfl, .inr ⟨_, rfl⟩⟩

theorem launchRun (env : Surroundings ω μ) (c : Controller ω μ) (image : Image) (model : μ) :
    c.launch env image model =
      let now := ask env.clock c.rig
      let opened := Subscription.attachAll env.cpu model c.settings.watch now.2
      let token : BurstToken := ⟨c.tokens.issued + 1⟩
      let session : Session μ := ⟨⟨c.sessions + 1⟩, opened.1.1, image, opened.1.2,
        .startingAt now.1, ⟨c.settings.budget, some token, false⟩⟩
      ⟨c.settings, .running session none, ⟨c.tokens.issued + 1⟩, c.tickets, c.sessions + 1,
        (ask (env.host.request token) opened.2).2.write (.record .info (session.id.text
          ++ " running a " ++ Text.decimal image.words.size ++ "-word image"))⟩ := rfl

theorem plainLoaded (image : Image) : Log.Entry.Plain (.record .debug (loadedText image)) := by
  unfold loadedText
  cases image.entry with
  | none => exact Log.Entry.plainEnd (by decide +kernel) _ _
  | some address =>
    rw [← String.append_assoc]
    exact Log.Entry.plainEnd (by decide +kernel) _ _

theorem loadSteps (env : Surroundings ω μ) (c : Controller ω μ) (outcome : Outcome) :
    (∃ failure why, c.load env outcome =
      {c with phase := .failed failure ⟨0, none⟩, rig := c.rig.write (.record .warn why)}) ∨
    (∃ text image fault rig why, outcome = .ok text ∧
      Image.read c.settings.imageLimit.toNat text = .ok image ∧
      ask (env.construct image) (c.rig.write (.record .debug (loadedText image))) =
        (.error fault, rig) ∧
      c.load env outcome =
        {c with phase := .failed (.cpu fault) ⟨0, none⟩, rig := rig.write (.record .warn why)}) ∨
    (∃ text image model rig, outcome = .ok text ∧
      Image.read c.settings.imageLimit.toNat text = .ok image ∧
      ask (env.construct image) (c.rig.write (.record .debug (loadedText image))) =
        (.ok model, rig) ∧
      c.load env outcome = (c.inRig rig).launch env image model) := by
  cases outcome with
  | error failure => exact .inl ⟨failure, _, rfl⟩
  | ok text =>
    cases found : Image.read c.settings.imageLimit.toNat text with
    | error problem =>
      refine .inl ⟨.image problem, (Failure.image problem).origin.name
        ++ " error: " ++ (Failure.image problem).message, ?_⟩
      simp only [load, found]
      rfl
    | ok image =>
      rcases made : ask (env.construct image)
        (c.rig.write (.record .debug (loadedText image))) with ⟨fault | model, rig⟩
      · refine .inr (.inl ⟨text, image, fault, rig, (Failure.cpu fault).origin.name
          ++ " error: " ++ (Failure.cpu fault).message, rfl, found, made, ?_⟩)
        simp only [load, found, recordRun, workRun, inRig, made]
        rfl
      · refine .inr (.inr ⟨text, image, model, rig, rfl, found, made, ?_⟩)
        simp only [load, found, recordRun, workRun, inRig, made]

theorem loadRun (env : Surroundings ω μ) (c : Controller ω μ) (outcome : Outcome) :
    (∃ failure rig, c.load env outcome = {c with phase := .failed failure ⟨0, none⟩, rig := rig} ∧
      ∀ {way : Rig ω → Rig ω → Prop}, PlainWay way →
        (∀ image, Along way (ask (env.construct image))) → way c.rig rig) ∨
    (∃ text image model rig, outcome = .ok text ∧
      Image.read c.settings.imageLimit.toNat text = .ok image ∧
      ask (env.construct image) (c.rig.write (.record .debug (loadedText image))) =
        (.ok model, rig) ∧
      c.load env outcome = (c.inRig rig).launch env image model) := by
  rcases loadSteps env c outcome with
    ⟨failure, why, loaded⟩ | ⟨text, image, fault, rig, why, -, -, made, loaded⟩ | launched
  · exact .inl ⟨failure, _, loaded, fun composes _ =>
      composes.write (Log.Entry.plainWarn why) _⟩
  · refine .inl ⟨.cpu fault, _, loaded, fun {way} composes construct => ?_⟩
    have built := construct image (c.rig.write (.record .debug (loadedText image)))
    rw [made] at built
    exact composes.trans (composes.write (plainLoaded image) _)
      (composes.trans built (composes.write (Log.Entry.plainWarn why) _))
  · exact .inr launched

theorem sessionRunning {c : Controller ω μ} {session : Session μ}
    (live : c.phase.session? = some session) :
    ∃ snapshot, c.phase = .running session snapshot := by
  cases phase : c.phase with
  | running other snapshot =>
    rw [phase] at live
    cases live
    exact ⟨snapshot, rfl⟩
  | _ => rw [phase] at live; cases live

theorem queuedRunning {c : Controller ω μ} {token : BurstToken} (waited : c.queued? = some token) :
    ∃ session snapshot, c.phase = .running session snapshot ∧
      session.scheduler.pending = some token := by
  obtain ⟨session, live, pending⟩ := Option.bind_eq_some_iff.mp waited
  obtain ⟨snapshot, phase⟩ := sessionRunning live
  exact ⟨session, snapshot, phase, pending⟩

theorem frameRefused (env : Surroundings ω μ) (c : Controller ω μ) {token : BurstToken}
    (stale : c.queued? ≠ some token) :
    ∃ severity text, c.frame env token = (.cancelled, c.record severity text) ∧
      Log.Entry.Plain (.record severity text) := by
  unfold frame
  cases phase : c.phase with
  | running session snapshot =>
    have refused : session.scheduler.accept token = (false, session.scheduler) := by
      refine if_neg fun ⟨_, pending⟩ => stale ?_
      simp only [queued?, phase, Phase.session?, Option.bind_some, pending]
    simp only [refused]
    exact ⟨_, _, rfl, trivial⟩
  | _ => exact ⟨_, _, rfl, Log.Entry.plainEnd (by decide +kernel) _ _⟩

theorem frameStale (env : Surroundings ω μ) (c : Controller ω μ) {token : BurstToken}
    (stale : c.queued? ≠ some token) :
    ∃ severity text, c.frame env token = (.cancelled, c.record severity text) := by
  obtain ⟨severity, text, refused, -⟩ := frameRefused env c stale
  exact ⟨severity, text, refused⟩

theorem frameSteps (env : Surroundings ω μ) (c : Controller ω μ) {token : BurstToken}
    {session : Session μ} {snapshot : Option Snapshot} (phase : c.phase = .running session snapshot)
    (live : session.scheduler.cancelled = false)
    (pending : session.scheduler.pending = some token) :
    let ran := session.spent.burst env.clock env.cpu c.rig
    let read := ask env.clock ran.2
    let figures := ran.1.1.due c.settings.sampleInterval read.1
    (∃ fault, ran.1.2.exit = .faulted fault ∧
      c.frame env token = (.faulted (.cpu fault),
        (c.inRig (ran.1.1.close env.cpu env.host ran.2).2).fail (.cpu fault)
          ⟨ran.1.1.counters.cycles, snapshot⟩)) ∨
    (∃ rig, ran.1.2.exit.fault? = none ∧
      c.frame env token = (.next ⟨c.tokens.issued + 1⟩, {c with
        phase := .running ((if figures.isSome then ran.1.1.sampledAt read.1 else ran.1.1).queued
          ⟨c.tokens.issued + 1⟩) (figures.or snapshot)
        tokens := ⟨c.tokens.issued + 1⟩
        rig := (ask (env.host.request ⟨c.tokens.issued + 1⟩) rig).2}) ∧
      (rig = read.2 ∨ ∃ text, rig = read.2.write (.record .trace text))) := by
  intro ran read figures
  have accepted : session.scheduler.accept token =
      (true, {session.scheduler with pending := none}) := if_pos ⟨live, pending⟩
  have worked : c.work ({session with
      scheduler := {session.scheduler with pending := none}}.burst env.clock env.cpu) =
    (ran.1, c.inRig ran.2) := rfl
  obtain ⟨rig, sampled, left⟩ := sampleRun env (c.inRig ran.2) ran.1.1 snapshot
  have stays : (if figures.isSome then ran.1.1.sampledAt read.1 else ran.1.1).scheduler.cancelled =
      false := by split <;> exact live
  change (c.inRig ran.2).sample env ran.1.1 snapshot =
    (if figures.isSome then ran.1.1.sampledAt read.1 else ran.1.1, _, _) at sampled
  generalize (if figures.isSome then ran.1.1.sampledAt read.1 else ran.1.1) = kept at sampled stays
  have drawn := queueRun stays env ((c.inRig ran.2).inRig rig)
  cases exit : ran.1.2.exit with
  | faulted fault =>
    refine .inl ⟨fault, rfl, ?_⟩
    simp only [frame, phase, accepted, worked, exit, closeRun]
    rfl
  | _ =>
    refine .inr ⟨rig, rfl, ?_, left⟩
    simp only [frame, phase, accepted, worked, exit, sampled, drawn]
    rfl

theorem frameRun (env : Surroundings ω μ) (c : Controller ω μ) {token : BurstToken}
    {session : Session μ} {snapshot : Option Snapshot} (phase : c.phase = .running session snapshot)
    (live : session.scheduler.cancelled = false)
    (pending : session.scheduler.pending = some token) :
    let ran := session.spent.burst env.clock env.cpu c.rig
    (∃ fault, ran.1.2.exit = .faulted fault ∧
      c.frame env token = (.faulted (.cpu fault),
        (c.inRig (ran.1.1.close env.cpu env.host ran.2).2).fail (.cpu fault)
          ⟨ran.1.1.counters.cycles, snapshot⟩)) ∨
    (∃ now latest rig, ran.1.2.exit.fault? = none ∧
      c.frame env token = (.next ⟨c.tokens.issued + 1⟩, {c with
        phase := .running ((ran.1.1.sampledAt now).queued ⟨c.tokens.issued + 1⟩) latest
        tokens := ⟨c.tokens.issued + 1⟩
        rig := (ask (env.host.request ⟨c.tokens.issued + 1⟩) rig).2}) ∧
      ∀ {way : Rig ω → Rig ω → Prop}, PlainWay way → Along way (ask env.clock) → way ran.2 rig) := by
  intro ran
  rcases frameSteps env c phase live pending with faulted | ⟨rig, exit, after, left⟩
  · exact .inl faulted
  · let read := ask env.clock ran.2
    let figures := ran.1.1.due c.settings.sampleInterval read.1
    refine .inr ⟨if figures.isSome then read.1 else ran.1.1.counters.sampled,
      figures.or snapshot, rig, exit, ?_, fun composes clock => ?_⟩
    · refine after.trans ?_
      simp only [figures, read]
      split <;> rfl
    · rcases left with rfl | ⟨text, rfl⟩
      · exact clock _
      · exact composes.trans (clock _) (composes.write (Log.Entry.plainTrace text) _)

theorem startAccepted {c : Controller ω μ} {source : String} {request : CompileRequest}
    (asked : (c.start source).1 = some request) :
    (c.start source).2.phase = .compiling request.ticket none ∧
    (c.start source).2.rig.world = c.rig.world := by
  unfold start at asked ⊢
  cases phase : c.phase with
  | idle | stopped =>
    rw [phase] at asked
    cases asked
    exact ⟨rfl, rfl⟩
  | _ => rw [phase] at asked; cases asked

theorem startRefused {c : Controller ω μ} {source : String} (refused : (c.start source).1 = none) :
    ∃ severity text, c.start source = (none, c.record severity text) := by
  unfold start at refused ⊢
  cases phase : c.phase with
  | idle | stopped => rw [phase] at refused; cases refused
  | _ => exact ⟨_, _, rfl⟩

/- A controller that gives out no more numbers and opens no session. -/
structure Rests (c d : Controller ω μ) : Prop where
  settings : d.settings = c.settings
  tokens : d.tokens = c.tokens
  tickets : d.tickets = c.tickets
  sessions : d.sessions = c.sessions
  pending : d.phase.ticket? = c.phase.ticket?
  live : ∀ s, d.phase.session? = some s → c.phase.session? = some s

namespace Rests

theorem refl (c : Controller ω μ) : Rests c c := ⟨rfl, rfl, rfl, rfl, rfl, fun _ live => live⟩

theorem inRig (c : Controller ω μ) (r : Rig ω) : Rests c (c.inRig r) :=
  ⟨rfl, rfl, rfl, rfl, rfl, fun _ live => live⟩

end Rests

theorem stopRests (env : Surroundings ω μ) (c : Controller ω μ) : Rests c (c.stop env) := by
  obtain ⟨settings, phase, tokens, tickets, sessions, r⟩ := c
  cases phase with
  | compiling => exact ⟨rfl, rfl, rfl, rfl, rfl, fun _ live => by cases live⟩
  | running => exact ⟨rfl, rfl, rfl, rfl, rfl, fun _ live => by cases live⟩
  | _ => exact .inRig _ _

theorem resetRests (env : Surroundings ω μ) (c : Controller ω μ) : Rests c (c.reset env) := by
  obtain ⟨settings, phase, tokens, tickets, sessions, r⟩ := c
  cases phase <;> exact ⟨rfl, rfl, rfl, rfl, rfl, fun _ live => by cases live⟩

theorem stopOff (env : Surroundings ω μ) (c : Controller ω μ) :
    (c.stop env).phase.session? = none := by
  obtain ⟨settings, phase, tokens, tickets, sessions, r⟩ := c
  cases phase <;> rfl

theorem resetOff (env : Surroundings ω μ) (c : Controller ω μ) :
    (c.reset env).phase.session? = none := by
  obtain ⟨settings, phase, tokens, tickets, sessions, r⟩ := c
  cases phase <;> rfl

/- A relation from controllers to later ones that composes and that the simple commands stay in. -/
structure Passage (env : Surroundings ω μ) (passes : Controller ω μ → Controller ω μ → Prop) :
    Prop where
  trans : ∀ {b c d}, passes b c → passes c d → passes b d
  record : ∀ c severity text, passes c (c.record severity text)
  start : ∀ c source, passes c (c.start source).2
  stop : ∀ c, passes c (c.stop env)
  reset : ∀ c, passes c (c.reset env)
  load : ∀ {c ticket held}, c.phase = .compiling ticket held →
    ∀ outcome, passes c (c.load env outcome)

namespace Passage

variable {env : Surroundings ω μ} {passes : Controller ω μ → Controller ω μ → Prop}

theorem complete (passage : Passage env passes) (c : Controller ω μ) (ticket : Ticket)
    (outcome : Outcome) : passes c (c.complete env ticket outcome).2 := by
  unfold Controller.complete
  cases phase : c.phase with
  | compiling pending held =>
    dsimp only
    split
    · have loaded := passage.load phase outcome
      cases held with
      | none => exact loaded
      | some command =>
        cases command with
        | stop => exact passage.trans loaded (passage.stop _)
        | reset => exact passage.trans loaded (passage.reset _)
    · exact passage.record c _ _
  | _ => exact passage.record c _ _

theorem startWith (passage : Passage env passes) {compiler : Compiler ω}
    (compiles : ∀ {c ticket held}, c.phase = .compiling ticket held →
      ∀ request, passes c (c.work (ask (compiler request))).2)
    (c : Controller ω μ) (source : String) : passes c (c.startWith env source compiler).2 := by
  have started := passage.start c source
  have pending : ∀ request, (c.start source).1 = some request →
      (c.start source).2.phase = .compiling request.ticket none :=
    fun request asked => (startAccepted asked).1
  unfold Controller.startWith
  generalize c.start source = out at started pending
  obtain ⟨request, d⟩ := out
  cases request with
  | none => exact started
  | some request =>
    have answered := compiles (pending request rfl) request.body
    exact passage.trans (passage.trans started answered) (passage.complete _ _ _)

end Passage

end Controller
end VirtualBoard
