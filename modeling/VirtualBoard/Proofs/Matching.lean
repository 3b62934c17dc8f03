import VirtualBoard.Proofs.Numbering

/-! Runs beside each other.

Two works match if on rigs that are alike they give the same value and leave rigs
that are alike. Surroundings match act by act. If they do, and what the controller
itself does to a rig keeps the likeness, then so do all commands: two runs that
begin alike give the same answers and end alike. What it is to be alike is left
open. All this is counting from different numbers where the numbers are the same. -/
namespace VirtualBoard

variable {ω ω' μ α β : Type}

namespace Rig

def Matched (like : Rig ω → Rig ω' → Prop) (first : Work ω α) (second : Work ω' α) : Prop :=
  ∀ r s, like r s → (second s).1 = (first r).1 ∧ like (first r).2 (second s).2

/- A likeness that the controller's own handling of a rig keeps, but for attaching. -/
structure Likeness (like : Rig ω → Rig ω' → Prop) : Prop where
  record : ∀ severity text, Matched like (record severity text) (record severity text)
  disarm : ∀ key, Matched like (disarm key) (disarm key)
  clear : Matched like clear clear

/- One that every step of attaching keeps too. -/
structure StepLikeness (like : Rig ω → Rig ω' → Prop) : Prop extends Likeness like where
  declare : ∀ name, Matched like (declare name) (declare name)
  publish : ∀ name level, Matched like (publish name level) (publish name level)
  arm : ∀ name, Matched like (arm name) (arm name)

end Rig
open Rig

structure CpuModel.Matched (like : Rig ω → Rig ω' → Prop) (cpu : CpuModel ω μ)
    (cpu' : CpuModel ω' μ) : Prop where
  step : ∀ model, Rig.Matched like (ask (cpu.step model)) (ask (cpu'.step model))
  tick : ∀ model, Rig.Matched like (ask (cpu.tick model)) (ask (cpu'.tick model))
  attach : ∀ model watch, Rig.Matched like (Subscription.attach cpu model watch)
    (Subscription.attach cpu' model watch)
  unlisten : ∀ model id,
    Rig.Matched like (ask (cpu.unlisten model id)) (ask (cpu'.unlisten model id))
  discard : ∀ model, Rig.Matched like (ask (cpu.discard model)) (ask (cpu'.discard model))

structure Surroundings.Matched (like : Rig ω → Rig ω' → Prop) (env : Surroundings ω μ)
    (env' : Surroundings ω' μ) : Prop where
  likeness : Likeness like
  clock : Rig.Matched like (ask env.clock) (ask env'.clock)
  cpu : env.cpu.Matched like env'.cpu
  construct : ∀ image, Rig.Matched like (ask (env.construct image)) (ask (env'.construct image))
  request : ∀ token,
    Rig.Matched like (ask (env.host.request token)) (ask (env'.host.request token))
  cancel : ∀ token, Rig.Matched like (ask (env.host.cancel token)) (ask (env'.host.cancel token))

/- Commands that match: outside acts do, and compilers on every request. -/
inductive Command.Matched (like : Rig ω → Rig ω' → Prop) : Command ω → Command ω' → Prop where
  | start (source : String) : Matched like (.start source) (.start source)
  | complete (ticket : Ticket) (outcome : Outcome) :
    Matched like (.complete ticket outcome) (.complete ticket outcome)
  | startWith (source : String) {compiler : Compiler ω} {compiler' : Compiler ω'}
    (same : ∀ request, Rig.Matched like (ask (compiler request)) (ask (compiler' request))) :
    Matched like (.startWith source compiler) (.startWith source compiler')
  | stop : Matched like .stop .stop
  | reset : Matched like .reset .reset
  | frame (token : BurstToken) : Matched like (.frame token) (.frame token)
  | outside {act : Act ω Unit} {act' : Act ω' Unit} (same : Rig.Matched like (ask act) (ask act')) :
    Matched like (.outside act) (.outside act')

section
variable {like : Rig ω → Rig ω' → Prop}

theorem Rig.Likeness.counting (keeps : Likeness like) : Counting .none like where
  record severity _ _ same := by
    rw [same rfl]
    exact keeps.record severity _
  disarm := keeps.disarm
  clear := keeps.clear

theorem Rig.StepLikeness.counting (keeps : StepLikeness like) : StepCounting .none like :=
  {keeps.toLikeness.counting with
    declare := keeps.declare
    publish := keeps.publish
    arm := keeps.arm}

theorem Subscription.attachMatched {cpu : CpuModel ω μ} {cpu' : CpuModel ω' μ}
    (keeps : StepLikeness like) {model : μ} {watch : Watch}
    (level : Rig.Matched like (ask (cpu.level model watch.pin)) (ask (cpu'.level model watch.pin)))
    (listen : ∀ key, Rig.Matched like (ask (cpu.listen model watch.pin key))
      (ask (cpu'.listen model watch.pin key))) :
    Rig.Matched like (attach cpu model watch) (attach cpu' model watch) :=
  attachNumbered keeps.counting level listen

theorem Surroundings.Matched.numbered {env : Surroundings ω μ} {env' : Surroundings ω' μ}
    (same : env.Matched like env') : env.Numbered .none like env' where
  counting := same.likeness.counting
  clock := same.clock
  cpu := ⟨same.cpu.step, same.cpu.tick, same.cpu.attach, same.cpu.unlisten, same.cpu.discard⟩
  construct := same.construct
  request := same.request
  cancel := same.cancel

theorem Command.Matched.numbered {command : Command ω} {command' : Command ω'}
    (matched : command.Matched like command') : command.Numbered .none like command' := by
  cases matched with
  | start source => exact .start source
  | complete ticket outcome => exact .complete ticket outcome
  | startWith source compiles => exact .startWith source compiles
  | stop => exact .stop
  | reset => exact .reset
  | frame token => exact .frame token
  | outside acts => exact .outside acts

end

theorem Command.itself {like : Rig ω → Rig ω → Prop}
    (acts : ∀ {α : Type} (act : Act ω α), Rig.Matched like (ask act) (ask act))
    (command : Command ω) : command.Matched like command := by
  cases command with
  | start source => exact .start source
  | complete ticket outcome => exact .complete ticket outcome
  | startWith source compiler => exact .startWith source fun request => acts _
  | stop => exact .stop
  | reset => exact .reset
  | frame token => exact .frame token
  | outside act => exact .outside (acts act)

namespace Controller

def atRig (c : Controller ω μ) (s : Rig ω') : Controller ω' μ :=
  ⟨c.settings, c.phase, c.tokens, c.tickets, c.sessions, s⟩

inductive Like (like : Rig ω → Rig ω' → Prop) (c : Controller ω μ) : Controller ω' μ → Prop where
  | atRig (s : Rig ω') (alike : like c.rig s) : Like like c (c.atRig s)

def Goes (like : Rig ω → Rig ω' → Prop) (out : α × Controller ω μ) (out' : α × Controller ω' μ) :
    Prop :=
  out'.1 = out.1 ∧ Like like out.2 out'.2

variable {like : Rig ω → Rig ω' → Prop} {env : Surroundings ω μ} {env' : Surroundings ω' μ}
  {c : Controller ω μ} {d : Controller ω' μ}

theorem likeParts {settings : Settings} {phase : Phase μ} {tokens : TokenSource}
    {tickets sessions : Nat} {r : Rig ω} {s : Rig ω'} (alike : like r s) :
    Like like ⟨settings, phase, tokens, tickets, sessions, r⟩
      ⟨settings, phase, tokens, tickets, sessions, s⟩ :=
  .atRig (c := ⟨settings, phase, tokens, tickets, sessions, r⟩) s alike

theorem Like.rigs (alike : Like like c d) : like c.rig d.rig := by
  obtain ⟨s, alike⟩ := alike
  exact alike

theorem Like.same {like : Rig ω → Rig ω → Prop} {c d : Controller ω μ} (alike : Like like c d)
    (rig : d.rig = c.rig) : d = c := by
  obtain ⟨s, alike⟩ := alike
  rw [show s = c.rig from rig]
  rfl

theorem phaseSame (phase : Phase μ) : phase.after .none = phase := by
  cases phase with
  | running session snapshot =>
    obtain ⟨id, model, image, subscriptions, counters, budget, pending, cancelled⟩ := session
    have waits : pending.map (·.after .none) = pending := by cases pending <;> rfl
    have bound : subscriptions.map (·.after .none) = subscriptions := List.map_id' _
    simp only [Phase.after, Session.after, Scheduler.after, waits, bound]
    rfl
  | _ => rfl

theorem answerSame (answer : Answer) : answer.after .none = answer := by
  cases answer with
  | requested request => cases request <;> rfl
  | settled result => cases result <;> rfl
  | continued continuation => cases continuation <;> rfl
  | _ => rfl

theorem likeNumbered : Numbered .none like c d ↔ Like like c d := by
  have same : ∀ s : Rig ω', c.ahead .none s = c.atRig s := by
    intro s
    rw [ahead, phaseSame]
    rfl
  constructor
  · rintro ⟨s, alike⟩
    rw [same]
    exact .atRig s alike
  · rintro ⟨s, alike⟩
    rw [← same]
    exact .ahead s alike

theorem completeMatched (same : env.Matched like env') (alike : Like like c d) (ticket : Ticket)
    (outcome : Outcome) :
    Goes like (c.complete env ticket outcome) (d.complete env' ticket outcome) := by
  obtain ⟨settled, after⟩ := completeNumbered same.numbered (likeNumbered.mpr alike) ticket outcome
  refine ⟨Eq.trans settled ?_, likeNumbered.mp after⟩
  cases (c.complete env ticket outcome).1 <;> rfl

theorem frameMatched (same : env.Matched like env') (alike : Like like c d) (token : BurstToken) :
    Goes like (c.frame env token) (d.frame env' token) := by
  obtain ⟨continuation, after⟩ := frameNumbered same.numbered (likeNumbered.mpr alike) token
  refine ⟨Eq.trans continuation ?_, likeNumbered.mp after⟩
  cases (c.frame env token).1 <;> rfl

theorem performMatched (same : env.Matched like env') (alike : Like like c d)
    {command : Command ω} {command' : Command ω'} (matched : command.Matched like command') :
    Goes like (c.perform env command) (d.perform env' command') := by
  obtain ⟨answer, after⟩ := performNumbered same.numbered (likeNumbered.mpr alike)
    matched.numbered
  exact ⟨answer.trans (answerSame _), likeNumbered.mp after⟩

theorem runMatched (same : env.Matched like env') (alike : Like like c d)
    (commands : List (Command ω)) (change : Command ω → Command ω')
    (matched : ∀ command ∈ commands, command.Matched like (change command)) :
    Goes like (c.run env commands) (d.run env' (commands.map change)) := by
  induction commands generalizing c d with
  | nil => exact ⟨rfl, alike⟩
  | cons command rest ih =>
    rw [List.forall_mem_cons] at matched
    obtain ⟨answer, after⟩ := performMatched same alike matched.1
    obtain ⟨answers, last⟩ := ih after matched.2
    simp only [run, List.map_cons]
    exact ⟨congr (congrArg List.cons answer) answers, last⟩

end Controller

/-! A way that every act stays along is one that a whole run stays along. -/

def Rig.Since (way : Rig ω → Rig ω → Prop) (early r s : Rig ω) : Prop := s = r ∧ way early r

structure Surroundings.Along (way : Rig ω → Rig ω → Prop) (env : Surroundings ω μ) : Prop where
  composes : Way way
  disarm : ∀ key, Rig.Along way (disarm key)
  clear : Rig.Along way clear
  clock : Rig.Along way (ask env.clock)
  step : ∀ model, Rig.Along way (ask (env.cpu.step model))
  tick : ∀ model, Rig.Along way (ask (env.cpu.tick model))
  attach : ∀ model watch, Rig.Along way (Subscription.attach env.cpu model watch)
  unlisten : ∀ model id, Rig.Along way (ask (env.cpu.unlisten model id))
  discard : ∀ model, Rig.Along way (ask (env.cpu.discard model))
  construct : ∀ image, Rig.Along way (ask (env.construct image))
  request : ∀ token, Rig.Along way (ask (env.host.request token))
  cancel : ∀ token, Rig.Along way (ask (env.host.cancel token))

def Command.Along (way : Rig ω → Rig ω → Prop) : Command ω → Prop
  | .startWith _ compiler => ∀ request, Rig.Along way (ask (compiler request))
  | .outside act => Rig.Along way (ask act)
  | _ => True

section
variable {way : Rig ω → Rig ω → Prop} {env : Surroundings ω μ}

theorem Rig.Along.since (composes : Way way) {task : Work ω α} (along : Rig.Along way task)
    (early : Rig ω) : Matched (Since way early) task task := by
  rintro r _ ⟨rfl, before⟩
  exact ⟨rfl, rfl, composes.trans before (along _)⟩

theorem Surroundings.Along.since (along : env.Along way) (early : Rig ω) :
    env.Matched (Since way early) env where
  likeness := {
    record := fun severity text => (along.composes.record severity text).since along.composes early
    disarm := fun key => (along.disarm key).since along.composes early
    clear := along.clear.since along.composes early }
  clock := along.clock.since along.composes early
  cpu := {
    step := fun model => (along.step model).since along.composes early
    tick := fun model => (along.tick model).since along.composes early
    attach := fun model watch => (along.attach model watch).since along.composes early
    unlisten := fun model id => (along.unlisten model id).since along.composes early
    discard := fun model => (along.discard model).since along.composes early }
  construct image := (along.construct image).since along.composes early
  request token := (along.request token).since along.composes early
  cancel token := (along.cancel token).since along.composes early

theorem Command.Along.since (composes : Way way) {command : Command ω}
    (along : command.Along way) (early : Rig ω) : command.Matched (Since way early) command := by
  cases command with
  | start source => exact .start source
  | complete ticket outcome => exact .complete ticket outcome
  | startWith source compiler =>
    exact .startWith source fun request => (along request).since composes early
  | stop => exact .stop
  | reset => exact .reset
  | frame token => exact .frame token
  | outside act => exact .outside (Rig.Along.since composes along early)

theorem Controller.runAlong (along : env.Along way) (c : Controller ω μ)
    (commands : List (Command ω)) (all : ∀ command ∈ commands, command.Along way) :
    way c.rig (c.run env commands).2.rig := by
  have start : Like (Since way c.rig) c c := .atRig c.rig ⟨rfl, along.composes.refl _⟩
  have same := runMatched (along.since c.rig) start commands id
    fun command member => (all command member).since along.composes c.rig
  exact same.2.rigs.2

end
end VirtualBoard
