import VirtualBoard.Proofs.Controller.Steps

/-! Runs beside each other that count from different numbers.

Tokens, tickets, sessions and listeners are numbered in the order in which they
are given out. Of two controllers one may be ahead in these numbers, in a rig
that is like the other's; for the rest they are the same. If their surroundings
match act by act, then all commands keep them so, and the answers are the same up
to the numbers. What it is for rigs to be alike is left open. -/
namespace VirtualBoard

variable {ω ω' μ α β γ δ : Type}

/- By how many numbers of each kind one controller is ahead of another. -/
structure Numbers where
  tokens : Nat
  tickets : Nat
  sessions : Nat
  keys : Nat

def Numbers.none : Numbers := ⟨0, 0, 0, 0⟩

def BurstToken.after (n : Numbers) (t : BurstToken) : BurstToken := ⟨t.raw + n.tokens⟩
def Ticket.after (n : Numbers) (t : Ticket) : Ticket := ⟨t.raw + n.tickets⟩
def SessionId.after (n : Numbers) (id : SessionId) : SessionId := ⟨id.raw + n.sessions⟩
def ListenerKey.after (n : Numbers) (key : ListenerKey) : ListenerKey := ⟨key.raw + n.keys⟩

def Subscription.after (n : Numbers) (s : Subscription) : Subscription :=
  {s with key := s.key.after n}

def Scheduler.after (n : Numbers) (s : Scheduler) : Scheduler :=
  {s with pending := s.pending.map (·.after n)}

def Session.after (n : Numbers) (s : Session μ) : Session μ :=
  {s with
    id := s.id.after n
    subscriptions := s.subscriptions.map (·.after n)
    scheduler := s.scheduler.after n}

def Phase.after (n : Numbers) : Phase μ → Phase μ
  | .compiling ticket held => .compiling (ticket.after n) held
  | .running session snapshot => .running (session.after n) snapshot
  | phase => phase

def CompileRequest.after (n : Numbers) (r : CompileRequest) : CompileRequest :=
  {r with ticket := r.ticket.after n}

def StaleTicket.after (n : Numbers) (s : StaleTicket) : StaleTicket := ⟨s.ticket.after n⟩

def Continuation.after (n : Numbers) : Continuation → Continuation
  | .next token => .next (token.after n)
  | continuation => continuation

def Answer.after (n : Numbers) : Answer → Answer
  | .requested request => .requested (request.map (·.after n))
  | .settled result => .settled (result.mapError (·.after n))
  | .continued continuation => .continued (continuation.after n)
  | answer => answer

theorem BurstToken.afterInjective {n : Numbers} {t s : BurstToken} :
    t.after n = s.after n ↔ t = s := by
  obtain ⟨t⟩ := t
  obtain ⟨s⟩ := s
  simp [after]

theorem Ticket.afterInjective {n : Numbers} {t s : Ticket} : t.after n = s.after n ↔ t = s := by
  obtain ⟨t⟩ := t
  obtain ⟨s⟩ := s
  simp [after]

namespace Rig

def Mapped (like : Rig ω → Rig ω' → Prop) (f : α → β) (first : Work ω α) (second : Work ω' β) :
    Prop :=
  ∀ r s, like r s → (second s).1 = f (first r).1 ∧ like (first r).2 (second s).2

/- A likeness that the controller's own handling of a rig keeps, but for attaching. What is logged
may name numbers, so it is the same only where they are. -/
structure Counting (n : Numbers) (like : Rig ω → Rig ω' → Prop) : Prop where
  record : ∀ severity {text text' : String}, (n = .none → text' = text) →
    Mapped like (·) (record severity text) (record severity text')
  disarm : ∀ key : ListenerKey, Mapped like (·) (disarm key) (disarm (key.after n))
  clear : Mapped like (·) clear clear

structure StepCounting (n : Numbers) (like : Rig ω → Rig ω' → Prop) : Prop
    extends Counting n like where
  declare : ∀ name, Mapped like (·) (declare name) (declare name)
  publish : ∀ name level, Mapped like (·) (publish name level) (publish name level)
  arm : ∀ name, Mapped like (ListenerKey.after n) (arm name) (arm name)

variable {like : Rig ω → Rig ω' → Prop}

theorem mappedPure (f : α → β) (value : α) : Mapped like f (pure value) (pure (f value)) :=
  fun _ _ alike => ⟨rfl, alike⟩

theorem mappedBind {f : α → β} {g : γ → δ} {first : Work ω α} {second : Work ω' β}
    {next : α → Work ω γ} {next' : β → Work ω' δ} (early : Mapped like f first second)
    (late : ∀ a, Mapped like g (next a) (next' (f a))) :
    Mapped like g (first >>= next) (second >>= next') := by
  intro r s alike
  obtain ⟨value, between⟩ := early r s alike
  rw [bindRun, bindRun, value]
  exact late _ _ _ between

end Rig
open Rig

structure CpuModel.Numbered (n : Numbers) (like : Rig ω → Rig ω' → Prop) (cpu : CpuModel ω μ)
    (cpu' : CpuModel ω' μ) : Prop where
  step : ∀ model, Mapped like (·) (ask (cpu.step model)) (ask (cpu'.step model))
  tick : ∀ model, Mapped like (·) (ask (cpu.tick model)) (ask (cpu'.tick model))
  attach : ∀ model watch, Mapped like (Prod.map (·) (·.after n))
    (Subscription.attach cpu model watch) (Subscription.attach cpu' model watch)
  unlisten : ∀ model id, Mapped like (·) (ask (cpu.unlisten model id))
    (ask (cpu'.unlisten model id))
  discard : ∀ model, Mapped like (·) (ask (cpu.discard model)) (ask (cpu'.discard model))

structure Surroundings.Numbered (n : Numbers) (like : Rig ω → Rig ω' → Prop)
    (env : Surroundings ω μ) (env' : Surroundings ω' μ) : Prop where
  counting : Counting n like
  clock : Mapped like (·) (ask env.clock) (ask env'.clock)
  cpu : env.cpu.Numbered n like env'.cpu
  construct : ∀ image, Mapped like (·) (ask (env.construct image)) (ask (env'.construct image))
  request : ∀ token : BurstToken,
    Mapped like (·) (ask (env.host.request token)) (ask (env'.host.request (token.after n)))
  cancel : ∀ token : BurstToken,
    Mapped like (·) (ask (env.host.cancel token)) (ask (env'.host.cancel (token.after n)))

section Work

variable {n : Numbers} {like : Rig ω → Rig ω' → Prop} {cpu : CpuModel ω μ} {cpu' : CpuModel ω' μ}

theorem Subscription.attachNumbered (counting : StepCounting n like) {model : μ} {watch : Watch}
    (level : Mapped like (·) (ask (cpu.level model watch.pin)) (ask (cpu'.level model watch.pin)))
    (listen : ∀ key : ListenerKey, Mapped like (·) (ask (cpu.listen model watch.pin key))
      (ask (cpu'.listen model watch.pin (key.after n)))) :
    Mapped like (Prod.map (·) (·.after n)) (attach cpu model watch) (attach cpu' model watch) := by
  refine mappedBind (counting.declare _) fun _ => mappedBind level fun level => ?_
  refine mappedBind (counting.publish _ _) fun _ => mappedBind (counting.arm _) fun key => ?_
  refine mappedBind (listen key) fun listened => ?_
  exact mappedBind (counting.record _ fun _ => rfl) fun _ => mappedPure _ _

theorem Subscription.attachAllNumbered (same : cpu.Numbered n like cpu') (model : μ)
    (watches : List Watch) :
    Mapped like (Prod.map (·) (List.map (·.after n))) (attachAll cpu model watches)
      (attachAll cpu' model watches) := by
  induction watches generalizing model with
  | nil => exact mappedPure _ _
  | cons w rest ih =>
    refine mappedBind (same.attach _ _) fun attached => ?_
    exact mappedBind (ih _) fun _ => mappedPure _ _

theorem Subscription.releaseAllNumbered (counting : Counting n like)
    (same : cpu.Numbered n like cpu') (model : μ) (subscriptions : List Subscription) :
    Mapped like (·) (releaseAll cpu model subscriptions)
      (releaseAll cpu' model (subscriptions.map (·.after n))) := by
  induction subscriptions generalizing model with
  | nil => exact mappedPure _ _
  | cons s rest ih =>
    refine mappedBind ?_ fun model => ih model
    refine mappedBind (counting.disarm _) fun _ => mappedBind (same.unlisten _ _) fun answer => ?_
    obtain ⟨model, removed⟩ := answer
    cases removed with
    | true => exact mappedBind (counting.record _ fun _ => rfl) fun _ => mappedPure (·) _
    | false =>
      refine mappedBind (counting.record _ fun _ => rfl) fun _ => ?_
      exact mappedBind (counting.record _ fun _ => rfl) fun _ => mappedPure (·) _

theorem Burst.stretchNumbered {clock : Clock ω} {clock' : Clock ω'}
    (time : Mapped like (·) (ask clock) (ask clock')) (same : cpu.Numbered n like cpu')
    (started wall : Duration) (left done : Nat) (model : μ) :
    Mapped like (·) (stretch clock cpu started wall left done model)
      (stretch clock' cpu' started wall left done model) := by
  induction left generalizing done model with
  | zero => exact mappedPure (·) _
  | succ left ih =>
    refine mappedBind time fun now => ?_
    split
    · exact mappedPure (·) _
    · refine mappedBind (same.step _) fun stepped => ?_
      obtain ⟨model, fault⟩ := stepped
      cases fault with
      | some fault => exact mappedPure (·) _
      | none => exact mappedBind (same.tick _) fun model => ih _ _

theorem Burst.closeNumbered (counting : Counting n like) {clock : Clock ω} {clock' : Clock ω'}
    (time : Mapped like (·) (ask clock) (ask clock')) (started : Duration) (steps : Nat)
    (exit : Exit) :
    Mapped like (·) (close clock started steps exit) (close clock' started steps exit) := by
  refine mappedBind time fun ended => ?_
  exact mappedBind (counting.record _ fun _ => rfl) fun _ => mappedPure (·) _

theorem Session.burstNumbered (counting : Counting n like) {clock : Clock ω} {clock' : Clock ω'}
    (time : Mapped like (·) (ask clock) (ask clock')) (same : cpu.Numbered n like cpu')
    (s : Session μ) :
    Mapped like (Prod.map (·.after n) (·)) (s.burst clock cpu) ((s.after n).burst clock' cpu') := by
  refine mappedBind (f := (·)) ?_ fun _ => mappedPure _ _
  refine mappedBind time fun started => ?_
  refine mappedBind (Burst.stretchNumbered time same _ _ _ _ _) fun ran => ?_
  exact mappedBind (Burst.closeNumbered counting time _ _ _) fun _ => mappedPure (·) _

theorem Session.closeNumbered (counting : Counting n like) (same : cpu.Numbered n like cpu')
    {host : FrameHost ω} {host' : FrameHost ω'}
    (cancel : ∀ token : BurstToken,
      Mapped like (·) (ask (host.cancel token)) (ask (host'.cancel (token.after n))))
    (s : Session μ) : Mapped like (·) (s.close cpu host) ((s.after n).close cpu' host') := by
  have early : Mapped like (·) (s.withdraw host) ((s.after n).withdraw host') := by
    obtain ⟨number, model, image, subscriptions, counters, budget, pending, cancelled⟩ := s
    cases pending with
    | none => exact mappedPure (·) _
    | some token => exact cancel token
  rw [closeSteps, closeSteps]
  refine mappedBind early fun _ => ?_
  refine mappedBind (Subscription.releaseAllNumbered counting same _ _) fun model => ?_
  refine mappedBind (counting.record _ fun none => by subst none; rfl) fun _ => ?_
  exact mappedBind (same.discard _) fun _ => mappedPure (·) _

end Work

/- Commands that match, the tokens and tickets that are quoted counted on. -/
inductive Command.Numbered (n : Numbers) (like : Rig ω → Rig ω' → Prop) :
    Command ω → Command ω' → Prop where
  | start (source : String) : Numbered n like (.start source) (.start source)
  | complete (ticket : Ticket) (outcome : Outcome) :
    Numbered n like (.complete ticket outcome) (.complete (ticket.after n) outcome)
  | startWith (source : String) {compiler : Compiler ω} {compiler' : Compiler ω'}
    (same : ∀ request, Mapped like (·) (ask (compiler request)) (ask (compiler' request))) :
    Numbered n like (.startWith source compiler) (.startWith source compiler')
  | stop : Numbered n like .stop .stop
  | reset : Numbered n like .reset .reset
  | frame (token : BurstToken) : Numbered n like (.frame token) (.frame (token.after n))
  | outside {act : Act ω Unit} {act' : Act ω' Unit} (same : Mapped like (·) (ask act) (ask act')) :
    Numbered n like (.outside act) (.outside act')

namespace Controller

def ahead (n : Numbers) (c : Controller ω μ) (s : Rig ω') : Controller ω' μ :=
  ⟨c.settings, c.phase.after n, ⟨c.tokens.issued + n.tokens⟩, c.tickets + n.tickets,
    c.sessions + n.sessions, s⟩

inductive Numbered (n : Numbers) (like : Rig ω → Rig ω' → Prop) (c : Controller ω μ) :
    Controller ω' μ → Prop where
  | ahead (s : Rig ω') (alike : like c.rig s) : Numbered n like c (c.ahead n s)

def Brings (n : Numbers) (like : Rig ω → Rig ω' → Prop) (f : α → β) (out : α × Controller ω μ)
    (out' : β × Controller ω' μ) : Prop :=
  out'.1 = f out.1 ∧ Numbered n like out.2 out'.2

variable {n : Numbers} {like : Rig ω → Rig ω' → Prop} {env : Surroundings ω μ}
  {env' : Surroundings ω' μ} {c : Controller ω μ} {d : Controller ω' μ}

theorem numberedParts {settings : Settings} {phase : Phase μ} {tokens : TokenSource}
    {tickets sessions : Nat} {r : Rig ω} {s : Rig ω'} (alike : like r s) :
    Numbered n like ⟨settings, phase, tokens, tickets, sessions, r⟩
      ⟨settings, phase.after n, ⟨tokens.issued + n.tokens⟩, tickets + n.tickets,
        sessions + n.sessions, s⟩ :=
  .ahead (c := ⟨settings, phase, tokens, tickets, sessions, r⟩) s alike

theorem Numbered.inPhase (ahead : Numbered n like c d) (phase : Phase μ) :
    Numbered n like {c with phase := phase} {d with phase := phase.after n} := by
  obtain ⟨s, alike⟩ := ahead
  exact numberedParts alike

theorem workNumbered {f : α → β} {first : Work ω α} {second : Work ω' β}
    (same : Mapped like f first second) (ahead : Numbered n like c d) :
    Brings n like f (c.work first) (d.work second) := by
  obtain ⟨s, alike⟩ := ahead
  obtain ⟨value, after⟩ := same c.rig s alike
  exact ⟨value, numberedParts after⟩

theorem recordNumbered (counting : Counting n like) (ahead : Numbered n like c d)
    (severity : Log.Severity) {text text' : String} (same : n = .none → text' = text) :
    Numbered n like (c.record severity text) (d.record severity text') :=
  (workNumbered (counting.record severity same) ahead).2

theorem startNumbered (counting : Counting n like) (ahead : Numbered n like c d)
    (source : String) :
    Brings n like (Option.map (·.after n)) (c.start source) (d.start source) := by
  obtain ⟨s, alike⟩ := ahead
  obtain ⟨settings, phase, tokens, tickets, sessions, r⟩ := c
  have next : tickets + n.tickets + 1 = tickets + 1 + n.tickets := Nat.add_right_comm ..
  cases phase with
  | idle | stopped =>
    simp only [start, Controller.ahead, Phase.after, next]
    exact ⟨rfl, recordNumbered counting (numberedParts alike) _ fun none => by subst none; rfl⟩
  | _ => exact ⟨rfl, recordNumbered counting (numberedParts alike) _ fun _ => rfl⟩

theorem closeNumbered (same : env.Numbered n like env') (ahead : Numbered n like c d)
    (session : Session μ) (snapshot : Option Snapshot) :
    Brings n like (·) (c.close env session snapshot)
      (d.close env' (session.after n) snapshot) := by
  obtain ⟨s, alike⟩ := ahead
  rw [closeRun, closeRun]
  exact ⟨rfl, numberedParts
    (Session.closeNumbered same.counting same.cpu same.cancel session c.rig s alike).2⟩

theorem settleIdleNumbered (counting : Counting n like) (ahead : Numbered n like c d) :
    Numbered n like c.settleIdle d.settleIdle := by
  obtain ⟨s, alike⟩ := ahead
  exact recordNumbered counting (numberedParts (counting.clear c.rig s alike).2) _ fun _ => rfl

theorem stopNumbered (same : env.Numbered n like env') (ahead : Numbered n like c d) :
    Numbered n like (c.stop env) (d.stop env') := by
  obtain ⟨s, alike⟩ := ahead
  obtain ⟨settings, phase, tokens, tickets, sessions, r⟩ := c
  cases phase with
  | running session snapshot =>
    have closed := Session.closeNumbered same.counting same.cpu same.cancel session r s alike
    simp only [stop, Controller.ahead, Phase.after, closeRun]
    exact recordNumbered same.counting (numberedParts closed.2) _ fun _ => rfl
  | _ => exact recordNumbered same.counting (numberedParts alike) _ fun _ => rfl

theorem resetNumbered (same : env.Numbered n like env') (ahead : Numbered n like c d) :
    Numbered n like (c.reset env) (d.reset env') := by
  obtain ⟨s, alike⟩ := ahead
  obtain ⟨settings, phase, tokens, tickets, sessions, r⟩ := c
  cases phase with
  | running session snapshot =>
    have closed := Session.closeNumbered same.counting same.cpu same.cancel session r s alike
    simp only [reset, Controller.ahead, Phase.after, closeRun]
    exact settleIdleNumbered same.counting (numberedParts closed.2)
  | compiling => exact recordNumbered same.counting (numberedParts alike) _ fun _ => rfl
  | _ => exact settleIdleNumbered same.counting (numberedParts alike)

theorem queueNumbered (same : env.Numbered n like env') (ahead : Numbered n like c d)
    (session : Session μ) :
    (d.queue env' (session.after n)).1 = (c.queue env session).1.map (·.after n) ∧
    Brings n like (·.after n) (c.queue env session).2 (d.queue env' (session.after n)).2 := by
  obtain ⟨s, alike⟩ := ahead
  obtain ⟨settings, phase, ⟨issued⟩, tickets, sessions, r⟩ := c
  obtain ⟨number, model, image, subscriptions, counters, budget, pending, cancelled⟩ := session
  have next : issued + n.tokens + 1 = issued + 1 + n.tokens := Nat.add_right_comm ..
  cases cancelled with
  | true => exact ⟨rfl, rfl, numberedParts alike⟩
  | false =>
    have asked := same.request ⟨issued + 1⟩ r s alike
    simp only [queue, Controller.ahead, Session.after, Scheduler.after, Scheduler.issue,
      TokenSource.next, next]
    exact ⟨rfl, rfl, numberedParts asked.2⟩

theorem launchNumbered (same : env.Numbered n like env') (ahead : Numbered n like c d)
    (image : Image) (model : μ) :
    Numbered n like (c.launch env image model) (d.launch env' image model) := by
  obtain ⟨s, alike⟩ := ahead
  obtain ⟨settings, phase, ⟨issued⟩, tickets, sessions, r⟩ := c
  obtain ⟨now, read⟩ := same.clock r s alike
  obtain ⟨attached, opened⟩ := Subscription.attachAllNumbered same.cpu model settings.watch _ _
    read
  obtain ⟨-, asked⟩ := same.request ⟨issued + 1⟩ _ _ opened
  have token : issued + n.tokens + 1 = issued + 1 + n.tokens := Nat.add_right_comm ..
  have session : sessions + n.sessions + 1 = sessions + 1 + n.sessions := Nat.add_right_comm ..
  rw [launchRun, launchRun]
  simp only [Controller.ahead, now, attached, token, session]
  exact numberedParts (same.counting.record .info
    (fun none => by subst none; rfl) _ _ asked).2

theorem sampleNumbered (same : env.Numbered n like env') (ahead : Numbered n like c d)
    (session : Session μ) (snapshot : Option Snapshot) :
    (d.sample env' (session.after n) snapshot).1 = (c.sample env session snapshot).1.after n ∧
    Brings n like (·) (c.sample env session snapshot).2
      (d.sample env' (session.after n) snapshot).2 := by
  obtain ⟨s, alike⟩ := ahead
  obtain ⟨reading, after⟩ := workNumbered same.clock (.ahead s alike)
  unfold sample
  generalize c.work (ask env.clock) = out at reading after
  generalize (c.ahead n s).work (ask env'.clock) = out' at reading after
  obtain ⟨now, c⟩ := out
  obtain ⟨now', d⟩ := out'
  cases reading
  obtain ⟨t, alike⟩ := after
  dsimp only [Session.after, Controller.ahead]
  cases sample? c.settings.sampleInterval now session.counters.cycles session.counters.started
      session.counters.sampled with
  | none => exact ⟨rfl, rfl, .ahead t alike⟩
  | some fresh =>
    exact ⟨rfl, rfl, recordNumbered same.counting (.ahead t alike) _ fun _ => rfl⟩

theorem failNumbered (counting : Counting n like) (ahead : Numbered n like c d)
    (failure : Failure) (tally : Tally) :
    Numbered n like (c.fail failure tally) (d.fail failure tally) :=
  recordNumbered counting (ahead.inPhase (.failed failure tally)) _ fun _ => rfl

theorem loadNumbered (same : env.Numbered n like env') (ahead : Numbered n like c d)
    (outcome : Outcome) : Numbered n like (c.load env outcome) (d.load env' outcome) := by
  obtain ⟨s, alike⟩ := ahead
  unfold load
  cases outcome with
  | error failure => exact failNumbered same.counting (.ahead s alike) _ _
  | ok text =>
    dsimp only
    rw [show (c.ahead n s).settings = c.settings from rfl]
    cases Image.read c.settings.imageLimit.toNat text with
    | error problem => exact failNumbered same.counting (.ahead s alike) _ _
    | ok image =>
      have told : n = .none → loadedText image = loadedText image := fun _ => rfl
      obtain ⟨made, after⟩ := workNumbered (same.construct image)
        (recordNumbered same.counting (.ahead s alike) .debug told)
      dsimp only
      generalize (c.record .debug (loadedText image)).work (ask (env.construct image)) = out
        at made after
      generalize ((c.ahead n s).record .debug (loadedText image)).work
        (ask (env'.construct image)) = out' at made after
      obtain ⟨made, c⟩ := out
      obtain ⟨made', d⟩ := out'
      cases made
      cases made with
      | error fault => exact failNumbered same.counting after _ _
      | ok model => exact launchNumbered same after image model

theorem completeNumbered (same : env.Numbered n like env') (ahead : Numbered n like c d)
    (ticket : Ticket) (outcome : Outcome) :
    Brings n like (Except.mapError (·.after n)) (c.complete env ticket outcome)
      (d.complete env' (ticket.after n) outcome) := by
  have loaded := loadNumbered same ahead outcome
  obtain ⟨s, alike⟩ := ahead
  have stale : ∀ severity, Numbered n like
      (c.record severity ("compile " ++ ticket.text ++ " settled but is not pending"))
      ((c.ahead n s).record severity
        ("compile " ++ (ticket.after n).text ++ " settled but is not pending")) :=
    fun severity => recordNumbered same.counting (.ahead s alike) severity
      fun none => by subst none; rfl
  unfold complete
  rw [show (c.ahead n s).phase = c.phase.after n from rfl]
  cases c.phase with
  | compiling pending held =>
    dsimp only [Phase.after]
    simp only [Ticket.afterInjective]
    split
    · cases held with
      | none => exact ⟨rfl, loaded⟩
      | some held =>
        cases held with
        | stop => exact ⟨rfl, stopNumbered same loaded⟩
        | reset => exact ⟨rfl, resetNumbered same loaded⟩
    · exact ⟨rfl, stale _⟩
  | _ => exact ⟨rfl, stale _⟩

theorem startWithNumbered (same : env.Numbered n like env') (ahead : Numbered n like c d)
    (source : String) {compiler : Compiler ω} {compiler' : Compiler ω'}
    (compiles : ∀ request, Mapped like (·) (ask (compiler request)) (ask (compiler' request))) :
    Brings n like (·) (c.startWith env source compiler) (d.startWith env' source compiler') := by
  obtain ⟨request, started⟩ := startNumbered same.counting ahead source
  unfold startWith
  generalize c.start source = out at request started
  generalize d.start source = out' at request started
  obtain ⟨request, c⟩ := out
  obtain ⟨request', d⟩ := out'
  cases request
  cases request with
  | none => exact ⟨rfl, started⟩
  | some request =>
    obtain ⟨answer, asked⟩ := workNumbered (compiles request.body) started
    obtain ⟨settled, after⟩ := completeNumbered same asked request.ticket
      (Compiler.outcome (c.work (ask (compiler request.body))).1)
    refine ⟨?_, ?_⟩
    · dsimp only [Option.map]
      rw [show (d.work (ask (compiler' (request.after n).body))).1 = _ from answer]
      refine (congrArg Except.isOk settled).trans ?_
      cases ((c.work (ask (compiler request.body))).2.complete env request.ticket
        (Compiler.outcome (c.work (ask (compiler request.body))).1)).1 <;> rfl
    · dsimp only [Option.map]
      rw [show (d.work (ask (compiler' (request.after n).body))).1 = _ from answer]
      exact after

theorem acceptNumbered (scheduler : Scheduler) (token : BurstToken) :
    (scheduler.after n).accept (token.after n) =
      ((scheduler.accept token).1, (scheduler.accept token).2.after n) := by
  obtain ⟨budget, pending, cancelled⟩ := scheduler
  have same : pending.map (·.after n) = some (token.after n) ↔ pending = some token := by
    cases pending <;> simp [BurstToken.afterInjective]
  simp only [Scheduler.accept, Scheduler.after, same]
  split <;> rfl

theorem frameNumbered (same : env.Numbered n like env') (ahead : Numbered n like c d)
    (token : BurstToken) :
    Brings n like (·.after n) (c.frame env token) (d.frame env' (token.after n)) := by
  obtain ⟨s, alike⟩ := ahead
  unfold frame
  rw [show (c.ahead n s).phase = c.phase.after n from rfl]
  cases c.phase with
  | running session snapshot =>
    dsimp only [Phase.after]
    rw [show (session.after n).scheduler = session.scheduler.after n from rfl, acceptNumbered]
    obtain ⟨accepted, scheduler⟩ := session.scheduler.accept token
    cases accepted with
    | false =>
      exact ⟨rfl, recordNumbered same.counting (.ahead s alike) _ fun none => by subst none; rfl⟩
    | true =>
      dsimp only
      rw [show ({session.after n with scheduler := scheduler.after n} : Session μ) =
        ({session with scheduler := scheduler} : Session μ).after n from rfl]
      generalize ({session with scheduler := scheduler} : Session μ) = session
      obtain ⟨ran, after⟩ := workNumbered (Session.burstNumbered same.counting same.clock same.cpu
        session) (.ahead s alike)
      generalize c.work (session.burst env.clock env.cpu) = out at ran after
      generalize (c.ahead n s).work ((session.after n).burst env'.clock env'.cpu) = out'
        at ran after
      obtain ⟨⟨session, report⟩, c⟩ := out
      obtain ⟨⟨_, report'⟩, d⟩ := out'
      cases ran
      dsimp only
      cases report.exit with
      | faulted fault =>
        obtain ⟨tally, closed⟩ := closeNumbered same after session snapshot
        dsimp only
        rw [tally]
        exact ⟨rfl, failNumbered same.counting closed _ _⟩
      | _ =>
        obtain ⟨session', latest, sampled⟩ := sampleNumbered same after session snapshot
        dsimp only
        generalize c.sample env session snapshot = out at session' latest sampled
        generalize d.sample env' (session.after n) snapshot = out' at session' latest sampled
        obtain ⟨session, snapshot, c⟩ := out
        obtain ⟨_, _, d⟩ := out'
        dsimp only at session' latest sampled ⊢
        subst session' latest
        obtain ⟨next, waiting, asked⟩ := queueNumbered same sampled session
        generalize c.queue env session = out at next waiting asked
        generalize d.queue env' (session.after n) = out' at next waiting asked
        obtain ⟨token, session, c⟩ := out
        obtain ⟨_, _, d⟩ := out'
        dsimp only at next waiting asked ⊢
        subst next waiting
        refine ⟨?_, asked.inPhase (.running session _)⟩
        cases token <;> rfl
  | _ => exact ⟨rfl, recordNumbered same.counting (.ahead s alike) _ fun none => by subst none; rfl⟩

theorem performNumbered (same : env.Numbered n like env') (ahead : Numbered n like c d)
    {command : Command ω} {command' : Command ω'} (matched : command.Numbered n like command') :
    Brings n like (·.after n) (c.perform env command) (d.perform env' command') := by
  cases matched with
  | start source =>
    obtain ⟨request, after⟩ := startNumbered same.counting ahead source
    exact ⟨congrArg Answer.requested request, after⟩
  | complete ticket outcome =>
    obtain ⟨settled, after⟩ := completeNumbered same ahead ticket outcome
    exact ⟨congrArg Answer.settled settled, after⟩
  | startWith source compiles =>
    obtain ⟨started, after⟩ := startWithNumbered same ahead source compiles
    exact ⟨congrArg Answer.accepted started, after⟩
  | stop => exact ⟨rfl, stopNumbered same ahead⟩
  | reset => exact ⟨rfl, resetNumbered same ahead⟩
  | frame token =>
    obtain ⟨continuation, after⟩ := frameNumbered same ahead token
    exact ⟨congrArg Answer.continued continuation, after⟩
  | outside acts => exact ⟨rfl, (workNumbered acts ahead).2⟩

end Controller
end VirtualBoard
