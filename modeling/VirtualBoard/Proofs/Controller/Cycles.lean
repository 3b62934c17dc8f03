import VirtualBoard.Proofs.Controller.Samples
import VirtualBoard.Proofs.Life

/-! The cycles that a controller shows.

A chapter of a run begins where a start is accepted and where a reset takes
effect. It tells the life of one model at most, from its making to its end, and the
cycles are the beats of that life: they stay when the model is gone, until the next
chapter begins. What is shown of the session was sampled in the same chapter. -/
namespace VirtualBoard

variable {ω μ : Type}

theorem Session.keptQueued (s : Session μ) (now : Duration) (token : BurstToken) (due : Bool) :
    let kept := (if due then s.sampledAt now else s).queued token
    kept.model = s.model ∧ kept.counters.cycles = s.counters.cycles := by
  cases due <;> exact ⟨rfl, rfl⟩

structure Chapter (μ : Type) where
  calls : List (Call μ)
  samples : List Sample

def Chapter.blank : Chapter μ := ⟨[], []⟩

inductive Turn where
  | starts
  | resets
  | goesOn
  deriving DecidableEq

namespace Controller
open Rig

variable {settings : Settings} {env : Surroundings ω μ}

def awaits (c : Controller ω μ) (ticket : Ticket) : Bool :=
  match c.phase with
  | .compiling pending (some .reset) => pending = ticket
  | _ => false

def turn (c : Controller ω μ) : Command ω → Turn
  | .start source | .startWith source _ => if (c.start source).1.isSome then .starts else .goesOn
  | .reset => if c.phase.ticket?.isSome then .goesOn else .resets
  | .complete ticket _ => if c.awaits ticket then .resets else .goesOn
  | _ => .goesOn

def chapterAfter (env : Surroundings ω μ) (c : Controller ω μ) (chapter : Chapter μ)
    (command : Command ω) : Chapter μ :=
  match c.turn command with
  | .starts => ⟨c.calls env command, c.sampling env command⟩
  | .resets => .blank
  | .goesOn =>
    ⟨chapter.calls ++ c.calls env command, chapter.samples ++ c.sampling env command⟩

def chapter (env : Surroundings ω μ) (c : Controller ω μ) (begun : Chapter μ) :
    List (Command ω) → Chapter μ
  | [] => begun
  | command :: rest =>
    (c.perform env command).2.chapter env (c.chapterAfter env begun command) rest

def Stands : Phase μ → Stand μ → Prop
  | .idle, stand | .compiling .., stand => stand = .unmade
  | .running session _, stand => stand = .live session.model
  | .stopped _, stand | .failed .., stand => stand = .unmade ∨ stand = .gone

structure Accounted (c : Controller ω μ) (chapter : Chapter μ) : Prop where
  life : ∃ stand, Stands c.phase stand ∧ Life chapter.calls stand c.phase.cycles
  session : ∀ s, c.phase.session? = some s → s.id = ⟨c.sessions⟩
  shown : c.phase.snapshot? = chapter.samples.getLast?.map Sample.snapshot
  own : ∀ a ∈ chapter.samples, a.session = ⟨c.sessions⟩ ∧ a.snapshot.cycles ≤ c.phase.cycles

/- What a command does to the count: it begins again with a chapter, and otherwise it grows by the
steps that complete, in a frame that runs its burst and at no other time. -/
structure Counts (env : Surroundings ω μ) (c : Controller ω μ) (command : Command ω) : Prop where
  begins : c.turn command ≠ .goesOn → (c.perform env command).2.phase.cycles = 0
  adds : c.turn command = .goesOn → (c.perform env command).2.phase.cycles =
    c.phase.cycles + completed (c.calls env command)
  stays : c.turn command = .goesOn → (∀ token, command = .frame token → c.queued? ≠ some token) →
    (c.perform env command).2.phase.cycles = c.phase.cycles

def Lived (past : List (Call μ)) (c : Controller (Noted ω μ) μ) : Prop :=
  ∃ stand, Stands c.phase stand ∧ c.rig.Tells past stand c.phase.cycles

/- From one controller to a later one of the same chapter, with no frame in between. -/
structure Continues (past : List (Call μ)) (c d : Controller (Noted ω μ) μ) : Prop where
  lived : Lived past c → Lived past d
  cycles : d.phase.cycles = c.phase.cycles
  snapshot : d.phase.snapshot? = c.phase.snapshot?
  sessions : d.sessions = c.sessions ∨ c.phase.snapshot? = none

namespace Continues

variable {past : List (Call μ)} {b c d : Controller (Noted ω μ) μ}

theorem inRig {r : Rig (Noted ω μ)} (same : r.world.calls = c.rig.world.calls) :
    Continues past c (c.inRig r) where
  lived := by
    rintro ⟨stand, stands, tells⟩
    refine ⟨stand, stands, ?_⟩
    show Life (past ++ r.world.calls) _ _
    rw [same]
    exact tells
  cycles := rfl
  snapshot := rfl
  sessions := .inl rfl

theorem trans (early : Continues past b c) (late : Continues past c d) : Continues past b d where
  lived lived := late.lived (early.lived lived)
  cycles := late.cycles.trans early.cycles
  snapshot := late.snapshot.trans early.snapshot
  sessions := by
    rcases late.sessions with same | none
    · exact early.sessions.imp_left same.trans
    · exact .inr (early.snapshot.symm.trans none)

end Continues

section
variable {past : List (Call μ)} {c : Controller (Noted ω μ) μ}

theorem stopContinues (env : Surroundings ω μ) : Continues past c (c.stop env.noted) := by
  unfold stop
  cases phase : c.phase with
  | compiling ticket held =>
    refine ⟨?_, by rw [phase]; rfl, by rw [phase]; rfl, .inl rfl⟩
    rintro ⟨stand, stands, tells⟩
    rw [phase] at stands tells
    exact ⟨stand, stands, tells⟩
  | running session snapshot =>
    simp only [closeRun]
    refine ⟨?_, by rw [phase]; rfl, by rw [phase]; rfl, .inl rfl⟩
    rintro ⟨stand, stands, tells⟩
    rw [phase] at stands tells
    subst stands
    exact ⟨.gone, .inr rfl, closeLeads env session c.rig tells.retired⟩
  | _ => exact .inRig rfl

theorem launchLived (env : Surroundings ω μ) (image : Image) {model : μ}
    (tells : c.rig.Tells past (.live model) 0) : Lived past (c.launch env.noted image model) := by
  have read := clockLeads env c.rig tells
  have opened := attachAllLeads env c.settings.watch _ read
  have asked := requestLeads env ⟨c.tokens.issued + 1⟩ _ opened
  rw [launchRun]
  exact ⟨_, rfl, asked⟩

theorem loadLived (env : Surroundings ω μ) (outcome : Outcome)
    (tells : c.rig.Tells past .unmade 0) :
    Lived past (c.load env.noted outcome) ∧ (c.load env.noted outcome).phase.cycles = 0 ∧
      (c.load env.noted outcome).phase.snapshot? = none := by
  rcases loadSteps env.noted c outcome with
    ⟨failure, entry, loaded⟩ | ⟨text, image, fault, rig, entry, -, -, made, loaded⟩ |
    ⟨text, image, model, rig, -, -, made, loaded⟩
  · rw [loaded]
    exact ⟨⟨.unmade, .inl rfl, tells⟩, rfl, rfl⟩
  · have built := constructLeads env image
      (c.rig.write (.record .debug (loadedText image))) tells
    rw [made] at built
    rw [loaded]
    exact ⟨⟨.unmade, .inl rfl, built⟩, rfl, rfl⟩
  · have built := constructLeads env image
      (c.rig.write (.record .debug (loadedText image))) tells
    rw [made] at built
    rw [loaded]
    exact ⟨launchLived (c := c.inRig rig) env image built, rfl, rfl⟩

theorem Lived.compiling {ticket : Ticket} {held : Option Held} (lived : Lived past c)
    (phase : c.phase = .compiling ticket held) : c.rig.Tells past .unmade 0 := by
  obtain ⟨stand, stands, tells⟩ := lived
  rw [phase] at stands tells
  subst stands
  exact tells

theorem loadContinues (env : Surroundings ω μ) {ticket : Ticket} {held : Option Held}
    (phase : c.phase = .compiling ticket held) (outcome : Outcome) (lived : Lived past c) :
    Continues past c (c.load env.noted outcome) := by
  obtain ⟨after, cycles, snapshot⟩ := loadLived env outcome (lived.compiling phase)
  refine ⟨fun _ => after, ?_, ?_, .inr (by rw [phase]; rfl)⟩
  · rw [cycles, phase]
    rfl
  · rw [snapshot, phase]
    rfl

theorem performContinues (env : Surroundings ω μ) {command : Command ω} (lived : Lived past c)
    (goes : c.turn command.noted = .goesOn) (other : ∀ token, command ≠ .frame token) :
    Continues past c (c.perform env.noted command.noted).2 := by
  cases command with
  | frame token => exact absurd rfl (other token)
  | stop => exact stopContinues env
  | outside act => exact .inRig (alikeAsk act.unnoted (fun _ => rfl) c.rig)
  | start source =>
    cases asked : (c.start source).1 with
    | some request => simp [turn, Command.noted, asked] at goes
    | none =>
      obtain ⟨severity, text, after⟩ := startRefused asked
      show Continues past c (c.start source).2
      rw [after]
      exact .inRig rfl
  | startWith source compiler =>
    cases asked : (c.start source).1 with
    | some request => simp [turn, Command.noted, asked] at goes
    | none =>
      obtain ⟨severity, text, after⟩ := startRefused asked
      show Continues past c
        (c.startWith env.noted source fun request => (compiler request).unnoted).2
      rw [startWith, after]
      exact .inRig rfl
  | reset =>
    show Continues past c (c.reset env.noted)
    unfold reset
    cases phase : c.phase with
    | compiling ticket held =>
      refine ⟨fun lived => ⟨.unmade, rfl, lived.compiling phase⟩, ?_, ?_, .inl rfl⟩
      · rw [phase]
        rfl
      · rw [phase]
        rfl
    | _ => simp [turn, Command.noted, phase, Phase.ticket?] at goes
  | complete ticket outcome =>
    show Continues past c (c.complete env.noted ticket outcome).2
    by_cases pending : c.phase.ticket? = some ticket
    · obtain ⟨held, phase, settled⟩ := completePending env.noted pending outcome
      have loaded := loadContinues env phase outcome lived
      rw [settled]
      rcases held with _ | _ | _
      · exact loaded
      · exact loaded.trans (stopContinues env)
      · simp [turn, Command.noted, awaits, phase] at goes
    · rw [completeStale env.noted pending outcome]
      exact .inRig rfl

theorem startsLived (env : Surroundings ω μ) (blank : c.rig.world.calls = []) {command : Command ω}
    (starts : c.turn command.noted = .starts) :
    let d := (c.perform env.noted command.noted).2
    Lived [] d ∧ d.phase.cycles = 0 ∧ d.phase.snapshot? = none := by
  have opened : ∀ {source request}, (c.start source).1 = some request →
      (c.start source).2.phase = .compiling request.ticket none ∧
        (c.start source).2.rig.Tells [] .unmade 0 := by
    intro source request asked
    obtain ⟨phase, world⟩ := startAccepted asked
    refine ⟨phase, ?_⟩
    show Life ([] ++ _) _ _
    rw [world, blank]
    exact .none
  cases command with
  | start source =>
    cases asked : (c.start source).1 with
    | none => simp [turn, Command.noted, asked] at starts
    | some request =>
      obtain ⟨phase, tells⟩ := opened asked
      show Lived [] (c.start source).2 ∧ (c.start source).2.phase.cycles = 0 ∧
        (c.start source).2.phase.snapshot? = none
      rw [Lived, phase]
      exact ⟨⟨.unmade, rfl, tells⟩, rfl, rfl⟩
  | startWith source compiler =>
    cases asked : (c.start source).1 with
    | none => simp [turn, Command.noted, asked] at starts
    | some request =>
      obtain ⟨phase, tells⟩ := opened asked
      let answered := ask ((compiler request.body).unnoted (μ := μ)) (c.start source).2.rig
      have unasked : Alike Noted.calls (c.start source).2.rig answered.2 :=
        alikeAsk _ (fun _ => rfl) _
      have told : Tells [] .unmade 0 answered.2 := by
        unfold Tells at tells ⊢
        rw [show answered.2.world.calls = _ from unasked]
        exact tells
      show let d := (c.startWith env.noted source fun request => (compiler request).unnoted).2
        Lived [] d ∧ d.phase.cycles = 0 ∧ d.phase.snapshot? = none
      rw [startWithRun env.noted asked]
      exact loadLived (c := (c.start source).2.inRig answered.2) env _ told
  | complete | reset =>
    simp only [turn, Command.noted] at starts
    split at starts <;> cases starts
  | _ => cases starts

theorem frameLived (orderly : Orderly settings c) (env : Surroundings ω μ) (token : BurstToken)
    (lived : Lived past c) : Lived past (c.frame env.noted token).2 := by
  by_cases waited : c.queued? = some token
  · obtain ⟨session, snapshot, phase, pending⟩ := queuedRunning waited
    have holds := orderly.holds
    obtain ⟨stand, stands, tells⟩ := lived
    rw [phase] at holds stands tells
    subst stands
    have ran := burstTells env session.spent tells
    dsimp only at ran
    rcases frameSteps env.noted c phase holds.going pending with
      ⟨fault, exit, after⟩ | ⟨rig, exit, after, left⟩
    · rw [exit] at ran
      rw [after]
      exact ⟨.gone, .inr rfl, closeLeads env _ _ ran⟩
    · rw [Burst.Exit.standLive exit] at ran
      have read := clockLeads env _ ran
      generalize session.spent.burst env.noted.clock env.noted.cpu c.rig = out at *
      generalize ask env.noted.clock out.2 = now at *
      have sampled : Tells past (.live out.1.1.model) out.1.1.counters.cycles rig := by
        rcases left with rfl | ⟨text, rfl⟩ <;> exact read
      have asked := requestLeads env ⟨c.tokens.issued + 1⟩ rig sampled
      obtain ⟨model, cycles⟩ := out.1.1.keptQueued now.1 ⟨c.tokens.issued + 1⟩
        (out.1.1.due c.settings.sampleInterval now.1).isSome
      rw [after]
      refine ⟨_, congrArg Stand.live model.symm, ?_⟩
      show Tells past _ (Session.counters _).cycles _
      rw [cycles]
      exact asked
  · obtain ⟨severity, text, after⟩ := frameStale env.noted c waited
    rw [after]
    exact (Continues.inRig rfl).lived lived

end

section
variable {c : Controller ω μ}

theorem awaitsReset {ticket : Ticket} (waits : c.awaits ticket) :
    c.phase = .compiling ticket (some .reset) := by
  unfold awaits at waits
  split at waits
  · rename_i pending phase
    rw [phase, of_decide_eq_true waits]
  · cases waits

theorem resetsSettled (resets : c.turn .reset = .resets) : c.stage ≠ .compiling := by
  intro compiling
  unfold stage at compiling
  cases phase : c.phase with
  | compiling => simp [turn, phase, Phase.ticket?] at resets
  | _ => rw [phase] at compiling; cases compiling

theorem resetsIdle (env : Surroundings ω μ) {command : Command ω}
    (resets : c.turn command = .resets) : (c.perform env command).2.phase = .idle := by
  cases command with
  | reset => exact idlePhase (resetSettled env (resetsSettled resets))
  | complete ticket outcome =>
    have phase := awaitsReset (by simpa [turn] using resets : c.awaits ticket)
    show (c.complete env ticket outcome).2.phase = .idle
    rw [completeHeld phase]
    exact idlePhase (resetSettled env (loadOver env c outcome))
  | start | startWith =>
    simp only [turn] at resets
    split at resets <;> cases resets
  | _ => cases resets

theorem turnNoted (c : Controller ω μ) (command : Command ω) :
    c.withNotes.turn command.noted = c.turn command := by
  have asked : ∀ source, (c.withNotes.start source).1 = (c.start source).1 := by
    intro source
    obtain ⟨settings, phase, tokens, tickets, sessions, r⟩ := c
    cases phase <;> rfl
  cases command with
  | start source => simp only [turn, Command.noted, asked]
  | startWith source compiler => simp only [turn, Command.noted, asked]
  | _ => rfl

theorem Lived.performed {past : List (Call μ)} {command : Command ω}
    (lived : Lived past (c.withNotes.perform env.noted command.noted).2) :
    ∃ stand, Stands (c.perform env command).2.phase stand ∧
      Life (past ++ c.calls env command) stand (c.perform env command).2.phase.cycles := by
  rw [notedStep]
  exact lived

theorem Accounted.lived {chapter : Chapter μ} (accounted : Accounted c chapter) :
    Lived chapter.calls c.withNotes := by
  obtain ⟨stand, stands, life⟩ := accounted.life
  refine ⟨stand, stands, ?_⟩
  show Life (chapter.calls ++ []) _ _
  rw [List.append_nil]
  exact life

theorem performNumber (env : Surroundings ω μ) {command : Command ω}
    (other : ∀ token, command ≠ .frame token)
    (session : ∀ s, c.phase.session? = some s → s.id = ⟨c.sessions⟩) (s : Session μ)
    (live : (c.perform env command).2.phase.session? = some s) :
    s.id = ⟨(c.perform env command).2.sessions⟩ := by
  rw [notedStep] at live ⊢
  rcases (performOpening env other (c := c.withNotes)).live s live with ⟨same, before⟩ | ⟨-, id, -⟩
  · exact (session s before).trans (congrArg SessionId.mk same.symm)
  · exact id

theorem startsAccounted (env : Surroundings ω μ) {command : Command ω}
    (session : ∀ s, c.phase.session? = some s → s.id = ⟨c.sessions⟩)
    (starts : c.turn command = .starts) :
    (c.perform env command).2.phase.cycles = 0 ∧
    Accounted (c.perform env command).2 ⟨c.calls env command, c.sampling env command⟩ := by
  have other : ∀ token, command ≠ .frame token := by
    rintro token rfl
    cases starts
  rw [← turnNoted] at starts
  obtain ⟨lived, cycles, snapshot⟩ := startsLived env rfl starts
  have none : (c.perform env command).2.phase.snapshot? = none := by
    rw [notedStep]
    exact snapshot
  rw [otherSampling env c other]
  refine ⟨by rw [notedStep]; exact cycles, lived.performed, performNumber env other session, none,
    fun a member => by cases member⟩

theorem continuesAccounted {chapter : Chapter μ} (accounted : Accounted c chapter)
    (env : Surroundings ω μ) {command : Command ω} (goes : c.turn command = .goesOn)
    (other : ∀ token, command ≠ .frame token) :
    (c.perform env command).2.phase.cycles = c.phase.cycles ∧
    Accounted (c.perform env command).2
      ⟨chapter.calls ++ c.calls env command, chapter.samples ++ c.sampling env command⟩ := by
  rw [← turnNoted] at goes
  have continues := performContinues env accounted.lived goes other
  have cycles : (c.perform env command).2.phase.cycles = c.phase.cycles := by
    rw [notedStep]
    exact continues.cycles
  have snapshot : (c.perform env command).2.phase.snapshot? = c.phase.snapshot? := by
    rw [notedStep]
    exact continues.snapshot
  refine ⟨cycles, (continues.lived accounted.lived).performed,
    performNumber env other accounted.session, ?_, ?_⟩
  · rw [snapshot, otherSampling env c other, List.append_nil]
    exact accounted.shown
  · rw [cycles, otherSampling env c other, List.append_nil]
    intro a member
    obtain ⟨mine, least⟩ := accounted.own a member
    have same : (c.perform env command).2.sessions = c.sessions := by
      rw [notedStep]
      refine continues.sessions.resolve_right fun none => ?_
      rw [show c.withNotes.phase.snapshot? = _ from accounted.shown] at none
      simp only [Option.map_eq_none_iff, List.getLast?_eq_none_iff] at none
      rw [none] at member
      cases member
    rw [same]
    exact ⟨mine, least⟩

theorem frameAccounted {chapter : Chapter μ} (positive : 0 < settings.sampleInterval.nanos)
    (orderly : Orderly settings c) (accounted : Accounted c chapter) (env : Surroundings ω μ)
    (token : BurstToken) :
    Accounted (c.frame env token).2 ⟨chapter.calls ++ c.calls env (.frame token),
      chapter.samples ++ c.sampling env (.frame token)⟩ := by
  have lived : Lived chapter.calls (c.withNotes.perform env.noted (Command.frame token).noted).2 :=
    frameLived orderly.withNotes env token accounted.lived
  by_cases waited : c.queued? = some token
  · obtain ⟨s, shown, phase, pending⟩ := queuedRunning waited
    obtain ⟨sessions, ran, advances, framed⟩ := frameFramed positive orderly env phase pending
    have number := accounted.session s (by rw [phase]; rfl)
    have earlier : ∀ a ∈ chapter.samples,
        a.session = ⟨c.sessions⟩ ∧ a.snapshot.cycles ≤ ran.counters.cycles := by
      intro a member
      obtain ⟨mine, least⟩ := accounted.own a member
      rw [phase] at least
      exact ⟨mine, Nat.le_trans least advances.cycles⟩
    have before : shown = chapter.samples.getLast?.map Sample.snapshot := by
      rw [← accounted.shown, phase]
      rfl
    have life := lived.performed
    change ∃ stand, Stands (c.frame env token).2.phase stand ∧
      Life _ stand (c.frame env token).2.phase.cycles at life
    generalize c.sampling env (.frame token) = taken at framed ⊢
    generalize (c.frame env token).1 = answer at framed
    cases framed with
    | faulted fault ended =>
      refine ⟨life, fun live running => (by rw [ended] at running; cases running), ?_, ?_⟩
      · rw [ended, List.append_nil]
        exact before
      · rw [ended, sessions, List.append_nil]
        exact earlier
    | next now next last goes =>
      obtain ⟨-, cycles⟩ := ran.keptQueued now next (ran.due settings.sampleInterval now).isSome
      refine ⟨life, fun live running => ?_, ?_, ?_⟩
      · rw [goes] at running
        cases running
        rw [sessions, ← number, ← advances.id]
        split <;> rfl
      · rw [goes, before]
        show Option.or _ _ = _
        cases ran.due settings.sampleInterval now <;> simp
      · rw [goes, sessions]
        intro a member
        show _ ∧ _ ≤ (Session.counters _).cycles
        rw [cycles]
        rcases List.mem_append.mp member with old | new
        · exact earlier a old
        · obtain ⟨figures, due, rfl⟩ := List.mem_map.mp new
          obtain ⟨-, count, -⟩ := Session.dueSome (Option.mem_toList.mp due)
          exact ⟨advances.id.trans number, Nat.le_of_eq count⟩
  · obtain ⟨severity, text, after⟩ := frameStale env c waited
    have rest : (c.frame env token).2 = c.record severity text := congrArg Prod.snd after
    refine ⟨lived.performed, ?_, ?_, ?_⟩
    all_goals rw [rest]
    · exact accounted.session
    · rw [staleSampling env waited, List.append_nil]
      exact accounted.shown
    · rw [staleSampling env waited, List.append_nil]
      exact accounted.own

theorem idleAccounted (idle : c.phase = .idle) : Accounted c .blank := by
  refine ⟨⟨.unmade, ?_, ?_⟩, ?_, ?_, fun a member => by cases member⟩
  all_goals rw [idle]
  · rfl
  · exact .none
  · exact fun s live => by cases live
  · rfl

theorem performAccounted {chapter : Chapter μ} (positive : 0 < settings.sampleInterval.nanos)
    (orderly : Orderly settings c) (accounted : Accounted c chapter) (env : Surroundings ω μ)
    (command : Command ω) :
    Accounted (c.perform env command).2 (c.chapterAfter env chapter command) := by
  unfold chapterAfter
  cases turn : c.turn command with
  | starts => exact (startsAccounted env accounted.session turn).2
  | resets => exact idleAccounted (resetsIdle env turn)
  | goesOn =>
    by_cases frame : ∃ token, command = .frame token
    · obtain ⟨token, rfl⟩ := frame
      exact frameAccounted positive orderly accounted env token
    · have other : ∀ token, command ≠ .frame token := fun token same => frame ⟨token, same⟩
      exact (continuesAccounted accounted env turn other).2

theorem runAccounted {chapter : Chapter μ} (positive : 0 < settings.sampleInterval.nanos)
    (orderly : Orderly settings c) (accounted : Accounted c chapter) (env : Surroundings ω μ)
    (commands : List (Command ω)) :
    Accounted (c.run env commands).2 (c.chapter env chapter commands) := by
  induction commands generalizing c chapter with
  | nil => exact accounted
  | cons command rest ih =>
    exact ih (performOrderly orderly env command)
      (performAccounted positive orderly accounted env command)

theorem Accounted.counted {chapter : Chapter μ} (accounted : Accounted c chapter) :
    c.phase.cycles = completed chapter.calls ∧ c.phase.cycles = chapter.calls.countP Call.ticks ∧
      chapter.calls.countP Call.makes ≤ 1 := by
  obtain ⟨stand, -, life⟩ := accounted.life
  obtain ⟨steps, ticks, made⟩ := life.counted
  refine ⟨steps.symm, ticks.symm, ?_⟩
  rw [made]
  cases stand <;> simp [Stand.made]

theorem Accounted.counts {chapter : Chapter μ} (positive : 0 < settings.sampleInterval.nanos)
    (orderly : Orderly settings c) (accounted : Accounted c chapter) (env : Surroundings ω μ)
    (command : Command ω) : Counts env c command where
  begins begun := by
    cases turn : c.turn command with
    | starts => exact (startsAccounted env accounted.session turn).1
    | resets => rw [resetsIdle env turn]; rfl
    | goesOn => exact absurd turn begun
  adds goes := by
    have after := performAccounted positive orderly accounted env command
    rw [chapterAfter, goes] at after
    rw [after.counted.1, accounted.counted.1]
    exact List.countP_append
  stays goes stale := by
    by_cases frame : ∃ token, command = .frame token
    · obtain ⟨token, rfl⟩ := frame
      obtain ⟨severity, text, after⟩ := frameStale env c (stale token rfl)
      exact congrArg (fun out => out.2.phase.cycles) after
    · have other : ∀ token, command ≠ .frame token := fun token same => frame ⟨token, same⟩
      exact (continuesAccounted accounted env goes other).1

end

/- The cycles shown are the completed steps of the one model of the chapter, each ticked once. -/
theorem cyclesCounted (env : Surroundings ω μ) {settings : Settings}
    (usable : settings.problem? = none) (world : ω) :
    ∃ fresh : Controller ω μ, new settings world = .ok fresh ∧ ∀ commands,
      let c := (fresh.run env commands).2
      let chapter := fresh.chapter env .blank commands
      Accounted c chapter ∧ c.phase.cycles = completed chapter.calls ∧
        c.phase.cycles = chapter.calls.countP Call.ticks ∧
        chapter.calls.countP Call.makes ≤ 1 ∧ ∀ command, Counts env c command := by
  obtain ⟨fresh, made⟩ := newUsable (μ := μ) usable world
  refine ⟨fresh, made, fun commands => ?_⟩
  have positive := Settings.intervalPositive usable
  obtain ⟨orderly, -, -⟩ := newOrderly made
  have after := runAccounted positive orderly (idleAccounted (newIdle made)) env commands
  obtain ⟨steps, ticks, once⟩ := after.counted
  exact ⟨after, steps, ticks, once,
    fun command => after.counts positive (runOrderly orderly env commands) env command⟩

theorem blinkCounted : ∃ fresh : Controller Duration Blink,
    new {Blink.settings 2 with sampleInterval := .ofMillis 1} .zero = .ok fresh ∧
      let env := Blink.surroundings (.ofMillis 1)
      let commands := [Blink.begin, .frame ⟨1⟩, .frame ⟨2⟩]
      let c := (fresh.run env commands).2
      c.phase.cycles = 3 ∧ c.phase.snapshot?.map Snapshot.cycles = some 2 ∧
        completed (fresh.chapter env .blank commands).calls = 3 ∧
        Accounted c (fresh.chapter env .blank commands) := by
  obtain ⟨fresh, made, all⟩ := cyclesCounted (Blink.surroundings (.ofMillis 1))
    (show ({Blink.settings 2 with sampleInterval := .ofMillis 1} : Settings).problem? = none by
      decide) .zero
  have known : (new {Blink.settings 2 with sampleInterval := .ofMillis 1} .zero).toOption.map
      (fun fresh : Controller Duration Blink =>
        let c := (fresh.run (Blink.surroundings (.ofMillis 1))
          [Blink.begin, .frame ⟨1⟩, .frame ⟨2⟩]).2
        (c.phase.cycles, c.phase.snapshot?.map Snapshot.cycles)) = some (3, some 2) := by
    decide +kernel
  rw [made] at known
  obtain ⟨cycles, shown⟩ := Prod.mk.inj (Option.some.inj known)
  obtain ⟨accounted, steps, -⟩ := all [Blink.begin, .frame ⟨1⟩, .frame ⟨2⟩]
  exact ⟨fresh, made, cycles, shown, steps.symm.trans cycles, accounted⟩

end Controller
end VirtualBoard
