import VirtualBoard.Proofs.Controller.Tickets
import VirtualBoard.Proofs.Numbering

/-! A controller after a reset beside a new one.

A reset takes back all but the numbers that were given out. A new controller
begins to count again, so the two are told apart by these numbers and by nothing
else: whatever is done with one can be done with the other, in surroundings that
are told the numbers counted on. What the log says is left out. -/
namespace VirtualBoard

variable {ω μ α : Type}

/-! Numbers counted from a beginning. What was numbered before it becomes zero, which is given
out by nobody. -/

def BurstToken.since (n : Numbers) (t : BurstToken) : BurstToken := ⟨t.raw - n.tokens⟩
def Ticket.since (n : Numbers) (t : Ticket) : Ticket := ⟨t.raw - n.tickets⟩

def CompileRequest.since (n : Numbers) (r : CompileRequest) : CompileRequest :=
  {r with ticket := r.ticket.since n}

def StaleTicket.since (n : Numbers) (s : StaleTicket) : StaleTicket := ⟨s.ticket.since n⟩

def Continuation.since (n : Numbers) : Continuation → Continuation
  | .next token => .next (token.since n)
  | continuation => continuation

def Answer.since (n : Numbers) : Answer → Answer
  | .requested request => .requested (request.map (·.since n))
  | .settled result => .settled (result.mapError (·.since n))
  | .continued continuation => .continued (continuation.since n)
  | answer => answer

def Event.since? (n : Numbers) : Event → Option Event
  | .called key level =>
    if n.keys ≤ key.raw then some (.called ⟨key.raw - n.keys⟩ level) else none
  | .logged entry => some (.logged entry)

def Act.since (n : Numbers) (act : Act ω α) : Act ω α := fun world =>
  ⟨(act world).value, (act world).world, (act world).events.filterMap (Event.since? n)⟩

def CpuModel.since (n : Numbers) (cpu : CpuModel ω μ) : CpuModel ω μ where
  step model := (cpu.step model).since n
  tick model := (cpu.tick model).since n
  listen model pin key := (cpu.listen model pin (key.after n)).since n
  unlisten model id := (cpu.unlisten model id).since n
  level model pin := (cpu.level model pin).since n
  discard model := (cpu.discard model).since n

def Surroundings.since (n : Numbers) (env : Surroundings ω μ) : Surroundings ω μ where
  clock := Act.since n env.clock
  cpu := env.cpu.since n
  construct image := (env.construct image).since n
  host := ⟨fun token => (env.host.request (token.after n)).since n,
    fun token => (env.host.cancel (token.after n)).since n⟩

def Command.since (n : Numbers) : Command ω → Command ω
  | .start source => .start source
  | .complete ticket outcome => .complete (ticket.since n) outcome
  | .startWith source compiler => .startWith source fun request => (compiler request).since n
  | .stop => .stop
  | .reset => .reset
  | .frame token => .frame (token.since n)
  | .outside act => .outside (act.since n)

def Call.after (n : Numbers) : Call μ → Call μ
  | .listened model pin key after id => .listened model pin (key.after n) after id
  | .requested token => .requested (token.after n)
  | .cancelled token => .cancelled (token.after n)
  | call => call

section
variable {n : Numbers}

theorem BurstToken.sinceAfter (t : BurstToken) : (t.after n).since n = t :=
  congrArg BurstToken.mk (Nat.add_sub_cancel ..)

theorem Ticket.sinceAfter (t : Ticket) : (t.after n).since n = t :=
  congrArg Ticket.mk (Nat.add_sub_cancel ..)

theorem BurstToken.afterSince {t : BurstToken} (later : n.tokens ≤ t.raw) :
    (t.since n).after n = t := congrArg BurstToken.mk (Nat.sub_add_cancel later)

theorem Ticket.afterSince {t : Ticket} (later : n.tickets ≤ t.raw) :
    (t.since n).after n = t := congrArg Ticket.mk (Nat.sub_add_cancel later)

theorem Answer.sinceAfter (answer : Answer) : (answer.after n).since n = answer := by
  cases answer with
  | requested request =>
    cases request with
    | none => rfl
    | some request => simp [after, since, CompileRequest.after, CompileRequest.since,
        Ticket.sinceAfter]
  | settled result =>
    cases result with
    | ok => rfl
    | error stale =>
      show Answer.settled (.error ⟨(stale.ticket.after n).since n⟩) = _
      rw [Ticket.sinceAfter]
  | continued continuation =>
    cases continuation with
    | next token => simp [after, since, Continuation.after, Continuation.since,
        BurstToken.sinceAfter]
    | _ => rfl
  | _ => rfl

end

def Armed.after (n : Numbers) (a : Armed) : Armed := {a with key := a.key.after n}

namespace Rig

/- Rigs of which the second has counted on: the same world has been called with other numbers,
and the same listeners are armed under other keys. -/
structure Counted (n : Numbers) (r s : Rig (Noted ω μ)) : Prop where
  world : s.world.world = r.world.world
  calls : s.world.calls = r.world.calls.map (Call.after n)
  board : s.board = r.board
  armed : s.armed = r.armed.map (Armed.after n)
  nextKey : s.nextKey = r.nextKey + n.keys

variable {n : Numbers} {r s : Rig (Noted ω μ)}

theorem Armed.keyAfter (a : Armed) (key : ListenerKey) :
    (a.after n).key = key ↔ n.keys ≤ key.raw ∧ a.key = ⟨key.raw - n.keys⟩ := by
  obtain ⟨⟨raw⟩, name⟩ := a
  obtain ⟨key⟩ := key
  simp only [Armed.after, ListenerKey.after, ListenerKey.mk.injEq]
  omega

namespace Counted

theorem name (counted : Counted n r s) (key : ListenerKey) :
    s.name? key = if n.keys ≤ key.raw then r.name? ⟨key.raw - n.keys⟩ else none := by
  simp only [name?, counted.armed, List.find?_map, Option.map_map, Function.comp_def,
    Armed.keyAfter]
  split
  · simp [*, Armed.after]
  · simp [*]

theorem write (counted : Counted n r s) (entry entry' : Log.Entry) :
    Counted n (r.write entry) (s.write entry') :=
  ⟨counted.world, counted.calls, counted.board, counted.armed, counted.nextKey⟩

theorem takeCalled (counted : Counted n r s) (key : ListenerKey) (level : Level) (name : String)
    (left : r.name? ⟨key.raw - n.keys⟩ = some name) (right : s.name? key = some name) :
    Counted n (r.call ⟨key.raw - n.keys⟩ level) (s.call key level) := by
  have shown : Counted n {r with board := (r.board.publish name level).2}
      {s with board := (s.board.publish name level).2} :=
    ⟨counted.world, counted.calls, by simp only [counted.board], counted.armed, counted.nextKey⟩
  simp only [call, left, right]
  rw [counted.board] at shown ⊢
  split
  · exact shown.write _ _
  · exact shown

theorem take (counted : Counted n r s) (event : Event) :
    Counted n (((Event.since? n event).map r.take).getD r) (s.take event) := by
  cases event with
  | logged entry => exact counted.write entry entry
  | called key level =>
    have right := counted.name key
    simp only [Event.since?]
    split at right
    · rename_i later
      simp only [if_pos later, Option.map_some, Option.getD_some, Rig.take]
      cases left : r.name? ⟨key.raw - n.keys⟩ with
      | none =>
        simp only [call, left, right]
        exact counted
      | some name => exact counted.takeCalled key level name left (right.trans left)
    · rename_i early
      simp only [if_neg early, Option.map_none, Option.getD_none, Rig.take, call, right]
      exact counted

theorem takeAll (events : List Event) (counted : Counted n r s) :
    Counted n ((events.filterMap (Event.since? n)).foldl Rig.take r) (events.foldl Rig.take s) := by
  induction events generalizing r s with
  | nil => exact counted
  | cons event rest ih =>
    have first := counted.take event
    rw [List.filterMap_cons, List.foldl_cons]
    cases heard : Event.since? n event with
    | none =>
      rw [heard] at first
      exact ih first
    | some event' =>
      rw [heard] at first
      exact ih first

end Counted

theorem countedNoting (n : Numbers) (act : Act ω α) (note : α → Call μ) :
    Mapped (Counted n) (·) (ask ((act.since n).noting note))
      (ask (act.noting fun value => (note value).after n)) := by
  intro r s counted
  have same : act s.world.world = act r.world.world := congrArg act counted.world
  have right : (act.noting fun value => (note value).after n) s.world =
      ⟨(act r.world.world).value, ⟨(act r.world.world).world,
        s.world.calls ++ [(note (act r.world.world).value).after n]⟩,
        (act r.world.world).events⟩ := by
    rw [← same]
    rfl
  rw [askRun, askRun, right]
  refine ⟨rfl, Counted.takeAll _ ⟨rfl, ?_, counted.board, counted.armed, counted.nextKey⟩⟩
  simp only [Act.noting, Act.since, counted.calls, List.map_append, List.map_cons, List.map_nil]

theorem countedUnnoted (act : Act ω α) :
    Mapped (Counted (μ := μ) n) (·) (ask (act.since n).unnoted) (ask act.unnoted) := by
  intro r s counted
  have same : act s.world.world = act r.world.world := congrArg act counted.world
  have right : (act.unnoted (μ := μ)) s.world = ⟨(act r.world.world).value,
      ⟨(act r.world.world).world, s.world.calls⟩, (act r.world.world).events⟩ := by
    rw [← same]
    rfl
  rw [askRun, askRun, right]
  exact ⟨rfl, Counted.takeAll _ ⟨rfl, counted.calls, counted.board, counted.armed,
    counted.nextKey⟩⟩

theorem countedSteps : StepCounting n (Counted (ω := ω) (μ := μ) n) where
  record _ _ _ _ r s counted := ⟨rfl, counted.write _ _⟩
  disarm key r s counted := by
    refine ⟨rfl, counted.world, counted.calls, counted.board, ?_, counted.nextKey⟩
    show s.armed.filter (·.key ≠ key.after n) = (r.armed.filter (·.key ≠ key)).map (Armed.after n)
    simp [counted.armed, List.filter_map, Function.comp_def, Armed.keyAfter, ListenerKey.after]
  clear r s counted := ⟨rfl, counted.world, counted.calls, congrArg Board.clear counted.board,
    counted.armed, counted.nextKey⟩
  declare name r s counted := ⟨rfl, counted.world, counted.calls,
    congrArg (Board.declare · name) counted.board, counted.armed, counted.nextKey⟩
  publish name level r s counted := ⟨rfl, counted.world, counted.calls,
    congrArg (fun b => (Board.publish b name level).2) counted.board, counted.armed,
    counted.nextKey⟩
  arm name r s counted := by
    refine ⟨congrArg ListenerKey.mk counted.nextKey, counted.world, counted.calls, counted.board,
      ?_, ?_⟩
    · show _ :: s.armed = (_ :: r.armed).map (Armed.after n)
      rw [counted.armed, counted.nextKey]
      rfl
    · show s.nextKey + 1 = r.nextKey + 1 + n.keys
      rw [counted.nextKey, Nat.add_right_comm]

end Rig
open Rig

theorem Surroundings.sinceNumbered (env : Surroundings ω μ) (n : Numbers) :
    (env.since n).noted.Numbered n (Counted n) env.noted where
  counting := countedSteps.toCounting
  clock := countedNoting n env.clock .clock
  cpu := {
    step := fun model => countedNoting n (env.cpu.step model) fun out => .stepped model out.1 out.2
    tick := fun model => countedNoting n (env.cpu.tick model) (.ticked model)
    attach := fun model watch => Subscription.attachNumbered countedSteps
      (countedNoting n (env.cpu.level model watch.pin) (.read model watch.pin))
      fun key => countedNoting n (env.cpu.listen model watch.pin (key.after n))
        fun out => .listened model watch.pin key out.1 out.2
    unlisten := fun model id =>
      countedNoting n (env.cpu.unlisten model id) fun out => .unlistened model id out.1 out.2
    discard := fun model => countedNoting n (env.cpu.discard model) fun _ => .discarded model }
  construct image := countedNoting n (env.construct image) (.constructed image)
  request token := countedNoting n (env.host.request (token.after n)) fun _ => .requested token
  cancel token := countedNoting n (env.host.cancel (token.after n)) fun _ => .cancelled token

def Command.Late (n : Numbers) : Command ω → Prop
  | .complete ticket _ => n.tickets ≤ ticket.raw
  | .frame token => n.tokens ≤ token.raw
  | _ => True

theorem Command.sinceNumbered {n : Numbers} {command : Command ω} (late : command.Late n) :
    (command.since n).noted.Numbered n (Counted (μ := μ) n) command.noted := by
  cases command with
  | start source => exact .start source
  | complete ticket outcome =>
    have quoted : Command.Numbered n (Counted (ω := ω) (μ := μ) n)
        (.complete (ticket.since n) outcome) (.complete ((ticket.since n).after n) outcome) :=
      .complete _ outcome
    rw [Ticket.afterSince late] at quoted
    exact quoted
  | startWith source compiler => exact .startWith source fun request => countedUnnoted _
  | stop => exact .stop
  | reset => exact .reset
  | frame token =>
    have quoted : Command.Numbered n (Counted (ω := ω) (μ := μ) n)
        (.frame (token.since n)) (.frame ((token.since n).after n)) := .frame _
    rw [BurstToken.afterSince late] at quoted
    exact quoted
  | outside act => exact .outside (countedUnnoted act)

namespace Controller

variable {n : Numbers} {settings : Settings} {env : Surroundings ω μ}
  {c d : Controller (Noted ω μ) μ}

theorem recordCounted (ahead : Numbered n (Counted n) c d) (severity severity' : Log.Severity)
    (text text' : String) :
    Numbered n (Counted n) (c.record severity text) (d.record severity' text') := by
  obtain ⟨s, counted⟩ := ahead
  exact .ahead (c := c.record severity text) _ (counted.write _ _)

theorem queuedAhead (ahead : Numbered n (Counted n) c d) :
    d.queued? = c.queued?.map (·.after n) := by
  obtain ⟨s, -⟩ := ahead
  obtain ⟨_, phase, _, _, _, _⟩ := c
  cases phase <;> rfl

theorem pendingAhead (ahead : Numbered n (Counted n) c d) :
    d.phase.ticket? = c.phase.ticket?.map (·.after n) := by
  obtain ⟨s, -⟩ := ahead
  obtain ⟨_, phase, _, _, _, _⟩ := c
  cases phase <;> rfl

theorem frameEarly (ahead : Numbered n (Counted n) c d) (orderly : Orderly settings c)
    {token : BurstToken} (early : token.raw < n.tokens) (env env' : Surroundings (Noted ω μ) μ) :
    (c.frame env (token.since n)).1 = (d.frame env' token).1.since n ∧
    Numbered n (Counted n) (c.frame env (token.since n)).2 (d.frame env' token).2 := by
  have left : c.queued? ≠ some (token.since n) := by
    intro waited
    obtain ⟨session, snapshot, phase, pending⟩ := queuedRunning waited
    have holds := orderly.lives phase
    have newest := congrArg BurstToken.raw (Option.some.inj (holds.pending.symm.trans pending))
    have drawn := holds.drawn
    simp only [BurstToken.since] at newest
    omega
  have right : d.queued? ≠ some token := by
    rw [queuedAhead ahead]
    intro waited
    obtain ⟨other, -, rfl⟩ := Option.map_eq_some_iff.mp waited
    exact absurd early (Nat.not_lt.mpr (Nat.le_add_left ..))
  obtain ⟨severity, text, refused⟩ := frameStale env c left
  obtain ⟨severity', text', refused'⟩ := frameStale env' d right
  rw [refused, refused']
  exact ⟨rfl, recordCounted ahead _ _ _ _⟩

theorem completeEarly {posts : List Post} (ahead : Numbered n (Counted n) c d)
    (filed : Filed settings posts c) {ticket : Ticket} (early : ticket.raw < n.tickets)
    (outcome : Outcome) (env env' : Surroundings (Noted ω μ) μ) :
    (c.complete env (ticket.since n) outcome).1 =
      (d.complete env' ticket outcome).1.mapError (·.since n) ∧
    Numbered n (Counted n) (c.complete env (ticket.since n) outcome).2
      (d.complete env' ticket outcome).2 := by
  have left : c.phase.ticket? ≠ some (ticket.since n) := by
    intro pending
    have turns := filed.turns
    rw [pending] at turns
    obtain ⟨newest, given⟩ := turns.newest
    have raw := congrArg Ticket.raw newest
    simp only [Ticket.since] at raw
    omega
  have right : d.phase.ticket? ≠ some ticket := by
    rw [pendingAhead ahead]
    intro pending
    obtain ⟨other, -, rfl⟩ := Option.map_eq_some_iff.mp pending
    exact absurd early (Nat.not_lt.mpr (Nat.le_add_left ..))
  rw [completeStale env left, completeStale env' right]
  exact ⟨rfl, recordCounted ahead _ _ _ _⟩

def Recounts (n : Numbers) (out out' : Answer × Controller (Noted ω μ) μ) : Prop :=
  out.1 = out'.1.since n ∧ Numbered n (Counted n) out.2 out'.2

theorem performSince {posts : List Post} (ahead : Numbered n (Counted n) c d)
    (filed : Filed settings posts c) (env : Surroundings ω μ) (command : Command ω) :
    Recounts n (c.perform (env.since n).noted (command.since n).noted)
      (d.perform env.noted command.noted) := by
  have lockstep (late : command.Late n) : Recounts n
      (c.perform (env.since n).noted (command.since n).noted)
      (d.perform env.noted command.noted) := by
    obtain ⟨answer, after⟩ := performNumbered (env.sinceNumbered n) ahead
      (Command.sinceNumbered late)
    refine ⟨?_, after⟩
    rw [answer, Answer.sinceAfter]
  cases command with
  | complete ticket outcome =>
    by_cases late : n.tickets ≤ ticket.raw
    · exact lockstep late
    · obtain ⟨refused, after⟩ := completeEarly ahead filed (Nat.lt_of_not_le late) outcome
        (env.since n).noted env.noted
      exact ⟨congrArg Answer.settled refused, after⟩
  | frame token =>
    by_cases late : n.tokens ≤ token.raw
    · exact lockstep late
    · obtain ⟨refused, after⟩ := frameEarly ahead filed.orderly (Nat.lt_of_not_le late)
        (env.since n).noted env.noted
      exact ⟨congrArg Answer.continued refused, after⟩
  | _ => exact lockstep trivial

theorem runSince {posts : List Post} (ahead : Numbered n (Counted n) c d)
    (filed : Filed settings posts c) (env : Surroundings ω μ) (later : List (Command ω)) :
    let anew := c.run (env.since n).noted ((later.map (Command.since n)).map Command.noted)
    let now := d.run env.noted (later.map Command.noted)
    anew.1 = now.1.map (Answer.since n) ∧ Numbered n (Counted n) anew.2 now.2 := by
  induction later generalizing c d posts with
  | nil => exact ⟨rfl, ahead⟩
  | cons command rest ih =>
    obtain ⟨answer, after⟩ := performSince ahead filed env command
    obtain ⟨answers, last⟩ := ih after
      (performFiled filed (env.since n).noted (command.since n).noted)
    simp only [run, List.map_cons]
    exact ⟨congr (congrArg List.cons answer) answers, last⟩

def given (c : Controller ω μ) : Numbers := ⟨c.tokens.issued, c.tickets, c.sessions, c.rig.nextKey⟩

/- Whatever is done later, a controller answers, shows and calls for what another does in
surroundings that count from its numbers. -/
structure Repeats (env : Surroundings ω μ) (n : Numbers) (fresh d : Controller ω μ)
    (later : List (Command ω)) : Prop where
  answers : (fresh.run (env.since n) (later.map (Command.since n))).1 =
    (d.run env later).1.map (Answer.since n)
  phase : (d.run env later).2.phase =
    (fresh.run (env.since n) (later.map (Command.since n))).2.phase.after n
  stage : (d.run env later).2.stage =
    (fresh.run (env.since n) (later.map (Command.since n))).2.stage
  view : (d.run env later).2.view =
    (fresh.run (env.since n) (later.map (Command.since n))).2.view
  calls : d.history env later =
    (fresh.history (env.since n) (later.map (Command.since n))).map (Call.after n)

def Anew (env : Surroundings ω μ) (settings : Settings) (d : Controller ω μ) : Prop :=
  ∃ fresh : Controller ω μ, new settings d.rig.world = .ok fresh ∧
    ∀ later, Repeats env d.given fresh d later

theorem stageAfter (phase : Phase μ) : (phase.after n).stage = phase.stage := by
  cases phase <;> rfl

theorem cyclesAfter (phase : Phase μ) : (phase.after n).cycles = phase.cycles := by
  cases phase <;> rfl

theorem snapshotAfter (phase : Phase μ) : (phase.after n).snapshot? = phase.snapshot? := by
  cases phase <;> rfl

theorem viewAhead {c d : Controller ω μ} (settings : d.settings = c.settings)
    (phase : d.phase = c.phase.after n) (board : d.rig.board = c.rig.board) :
    d.view = c.view := by
  simp only [view, Controller.stage, phase, board, settings, stageAfter, cyclesAfter, snapshotAfter]

theorem idleAhead {fresh d : Controller ω μ} (made : new settings d.rig.world = .ok fresh)
    (orderly : Orderly settings d) (idle : d.phase = .idle) :
    Numbered d.given (Counted d.given) fresh.withNotes d.withNotes := by
  obtain ⟨first, -, -⟩ := newOrderly made
  have holds := orderly.holds
  have cleared := first.holds
  rw [idle] at holds
  rw [newIdle made] at cleared
  have board : d.rig.board = fresh.rig.board := by
    rw [holds.2, cleared.2, Board.clear, Board.clear, orderly.fits.board, first.fits.board]
  obtain ⟨new, rfl⟩ := newParts made
  have counts : d.withNotes = Controller.ahead d.given
      (withNotes ⟨settings, .idle, ⟨0⟩, 0, 0, .new d.rig.world new⟩) d.withNotes.rig := by
    simp [withNotes, ahead, given, Phase.after, idle, orderly.same]
  rw [counts]
  refine .ahead _ ⟨rfl, rfl, board, ?_, (Nat.zero_add _).symm⟩
  exact holds.1

theorem idleAnew (usable : settings.problem? = none) (env : Surroundings ω μ)
    {d : Controller ω μ} (orderly : Orderly settings d) (idle : d.phase = .idle) :
    Anew env settings d := by
  obtain ⟨fresh, made⟩ := newUsable (μ := μ) usable d.rig.world
  refine ⟨fresh, made, fun later => ?_⟩
  have filed : Filed settings [] fresh.withNotes := by
    obtain ⟨first, turns, image⟩ := newFiled made
    exact ⟨first.withNotes, turns, image⟩
  obtain ⟨answers, ahead⟩ := runSince (idleAhead made orderly idle) filed env later
  have anew : fresh.run (env.since d.given) (later.map (Command.since d.given)) = _ :=
    notedRun (env.since d.given) fresh.withNotes (later.map (Command.since d.given))
  have now : d.run env later = _ := notedRun env d.withNotes later
  have begun := runCalls (env.since d.given) fresh (later.map (Command.since d.given))
  have kept := runCalls env d later
  generalize fresh.withNotes.run (env.since d.given).noted
    ((later.map (Command.since d.given)).map Command.noted) = out at answers ahead anew begun
  generalize d.withNotes.run env.noted (later.map Command.noted) = out' at answers ahead now kept
  obtain ⟨replies, c⟩ := out
  obtain ⟨replies', _⟩ := out'
  obtain ⟨s, counted⟩ := ahead
  refine ⟨?_, ?_, ?_, ?_, ?_⟩
  · rw [anew, now]
    exact answers
  · rw [anew, now]
    rfl
  · rw [anew, now]
    exact stageAfter c.phase
  · rw [anew, now]
    exact viewAhead rfl rfl counted.board
  · rw [← begun, ← kept]
    exact counted.calls

/- After a reset nothing of what was before can be told, whether it took effect at once or was held
until a compile settled. -/
theorem resetErases (env : Surroundings ω μ) {settings : Settings}
    (usable : settings.problem? = none) (world : ω) :
    ∃ first : Controller ω μ, new settings world = .ok first ∧ ∀ early,
      let c := (first.run env early).2
      (c.stage ≠ .compiling → Anew env settings (c.reset env)) ∧
      ∀ ticket outcome, c.phase = .compiling ticket (some .reset) →
        Anew env settings (c.complete env ticket outcome).2 := by
  obtain ⟨first, made⟩ := newUsable (μ := μ) usable world
  refine ⟨first, made, fun early => ?_⟩
  have orderly := runOrderly (newOrderly made).1 env early
  generalize (first.run env early).2 = c at orderly
  refine ⟨fun settled => ?_, fun ticket outcome phase => ?_⟩
  · exact idleAnew usable env (resetOrderly orderly env) (idlePhase (resetSettled env settled))
  · have after := completeOrderly orderly env ticket outcome
    rw [completeHeld phase] at after ⊢
    exact idleAnew usable env after (idlePhase (resetSettled env (loadOver env c outcome)))

theorem blinkErases : ∃ first : Controller Duration Blink,
    new (Blink.settings 2) .zero = .ok first ∧
      let env := Blink.surroundings (.ofMillis 1)
      let c := (first.run env [Blink.begin, .frame ⟨1⟩]).2
      let held := (first.run env [.start "", .reset]).2
      c.stage = .running ∧ (c.reset env).tokens.issued = 2 ∧
      Anew env (Blink.settings 2) (c.reset env) ∧
      Anew env (Blink.settings 2) (held.complete env ⟨1⟩ (.error .nothingReturned)).2 := by
  let env := Blink.surroundings (.ofMillis 1)
  obtain ⟨first, made, all⟩ := resetErases env
    (show (Blink.settings 2).problem? = none by decide) .zero
  have known : (new (Blink.settings 2) .zero).toOption.map (fun first : Controller Duration Blink =>
      let c := (first.run env [Blink.begin, .frame ⟨1⟩]).2
      (c.stage, (c.reset env).tokens.issued)) = some (.running, 2) := by decide +kernel
  rw [made] at known
  obtain ⟨stage, issued⟩ := Prod.mk.inj (Option.some.inj known)
  have phase : (first.run env [.start "", .reset]).2.phase = .compiling ⟨1⟩ (some .reset) := by
    obtain ⟨board, rfl⟩ := newParts made
    rfl
  refine ⟨first, made, stage, issued, ?_, ?_⟩
  · exact (all [Blink.begin, .frame ⟨1⟩]).1 (by rw [stage]; decide)
  · exact (all [.start "", .reset]).2 ⟨1⟩ (.error .nothingReturned) phase

end Controller
end VirtualBoard
