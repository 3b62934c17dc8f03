import VirtualBoard.Proofs.Controller.Frames
import VirtualBoard.Proofs.Controller.Tickets

/-! How listeners come to a model and go.

A session hands over one listener for each watched pin when it is opened. Every way
out of running makes the same calls: the queued frame is taken back if there still is
one, and then the listeners are removed in the order they came. So over any run the
listeners of the live session are those that came and did not go. -/
namespace VirtualBoard
open Rig

variable {ω μ α β : Type}

inductive Move where
  | joined (pin : Pin) (id : ListenerId)
  | withdrawn (token : BurstToken)
  | removed (id : ListenerId)
  deriving DecidableEq

namespace Move

def joined? : Move → Option (Pin × ListenerId)
  | joined pin id => some (pin, id)
  | _ => none

def removed? : Move → Option ListenerId
  | removed id => some id
  | _ => none

end Move

def Call.move? : Call μ → Option Move
  | listened _ pin _ _ id => some (.joined pin id)
  | cancelled token => some (.withdrawn token)
  | unlistened _ id _ _ => some (.removed id)
  | _ => none

def moves (calls : List (Call μ)) : List Move := calls.filterMap Call.move?

def joins (members : List (Pin × ListenerId)) : List Move :=
  members.map fun member => .joined member.1 member.2

def leaves (token : Option BurstToken) (members : List (Pin × ListenerId)) : List Move :=
  token.toList.map .withdrawn ++ members.map fun member => .removed member.2

def Subscription.member (s : Subscription) : Pin × ListenerId := (s.pin, s.listener)

def Session.members (s : Session μ) : List (Pin × ListenerId) :=
  s.subscriptions.map Subscription.member

def Session.leaves (s : Session μ) : List Move :=
  VirtualBoard.leaves s.scheduler.pending s.members

/- The moves of a run and the listeners there are: they come all together and go all together. -/
inductive Roll : List Move → List (Pin × ListenerId) → Prop where
  | new : Roll [] []
  | opened {moves} (roll : Roll moves []) (members : List (Pin × ListenerId)) :
    Roll (moves ++ joins members) members
  | closed {moves members} (roll : Roll moves members) (token : Option BurstToken) :
    Roll (moves ++ leaves token members) []

theorem joinsJoined (members : List (Pin × ListenerId)) :
    (joins members).filterMap Move.joined? = members ∧
      (joins members).filterMap Move.removed? = [] := by
  induction members with
  | nil => exact ⟨rfl, rfl⟩
  | cons member rest ih => exact ⟨congrArg (member :: ·) ih.1, ih.2⟩

theorem leavesRemoved (token : Option BurstToken) (members : List (Pin × ListenerId)) :
    (leaves token members).filterMap Move.joined? = [] ∧
      (leaves token members).filterMap Move.removed? = members.map Prod.snd := by
  have gone : ∀ token : Option BurstToken,
      (token.toList.map Move.withdrawn).filterMap Move.joined? = [] ∧
        (token.toList.map Move.withdrawn).filterMap Move.removed? = [] := by
    intro token
    cases token <;> exact ⟨rfl, rfl⟩
  unfold leaves
  rw [List.filterMap_append, List.filterMap_append, (gone token).1, (gone token).2]
  induction members with
  | nil => exact ⟨rfl, rfl⟩
  | cons member rest ih => exact ⟨ih.1, congrArg (member.2 :: ·) ih.2⟩

theorem Roll.balanced {moves : List Move} {members : List (Pin × ListenerId)}
    (roll : Roll moves members) : ∃ gone, moves.filterMap Move.joined? = gone ++ members ∧
      moves.filterMap Move.removed? = gone.map Prod.snd := by
  induction roll with
  | new => exact ⟨[], rfl, rfl⟩
  | opened roll members ih =>
    obtain ⟨gone, came, went⟩ := ih
    obtain ⟨joined, removed⟩ := joinsJoined members
    refine ⟨gone, ?_, ?_⟩
    · rw [List.filterMap_append, came, joined, List.append_nil]
    · rw [List.filterMap_append, went, removed, List.append_nil]
  | @closed moves members roll token ih =>
    obtain ⟨gone, came, went⟩ := ih
    obtain ⟨joined, removed⟩ := leavesRemoved token members
    refine ⟨gone ++ members, ?_, ?_⟩
    · rw [List.filterMap_append, came, joined]
    · rw [List.filterMap_append, went, removed, List.map_append]

namespace Controller

def members (c : Controller ω μ) : List (Pin × ListenerId) :=
  (c.phase.session?.map Session.members).getD []

def leaves (c : Controller ω μ) : List Move := (c.phase.session?.map Session.leaves).getD []

theorem notingPicked (pick : Call μ → Option β) (note : α → Call μ) (act : Act ω α)
    (r : Rig (Noted ω μ)) :
    (ask (act.noting note) r).2.world.picked pick =
      r.world.picked pick ++ (pick (note (ask (act.noting note) r).1)).toList := by
  rw [askWorld]
  show (r.world.calls ++ [note (act r.world.world).value]).filterMap pick =
    r.world.calls.filterMap pick ++ (pick (note (act r.world.world).value)).toList
  rw [List.filterMap_append]
  cases found : pick (note (act r.world.world).value) <;> simp [found]

section
variable (env : Surroundings ω μ)

theorem attachMoves (model : μ) (watch : Watch) (r : Rig (Noted ω μ)) :
    let out := Subscription.attach env.noted.cpu model watch r
    out.2.world.picked Call.move? = r.world.picked Call.move? ++ joins [out.1.2.member] := by
  intro out
  let read := ask (env.noted.cpu.level model watch.pin) (declare watch.name r).2
  let armed := (arm watch.name (publish watch.name read.1 read.2).2)
  have unmoved : read.2.world.picked Call.move? = r.world.picked Call.move? :=
    notingAlike (.read model watch.pin) (fun _ => rfl) (env.cpu.level model watch.pin) _
  have listened := notingPicked Call.move? (fun after : μ × ListenerId =>
    .listened model watch.pin armed.1 after.1 after.2) (env.cpu.listen model watch.pin armed.1) armed.2
  exact listened.trans (congrArg (· ++ _) unmoved)

theorem attachAllMoves (model : μ) (watches : List Watch) (r : Rig (Noted ω μ)) :
    let out := Subscription.attachAll env.noted.cpu model watches r
    out.2.world.picked Call.move? =
      r.world.picked Call.move? ++ joins (out.1.2.map Subscription.member) := by
  induction watches generalizing model r with
  | nil => exact (List.append_nil _).symm
  | cons watch rest ih =>
    have first := attachMoves env model watch r
    let out := Subscription.attach env.noted.cpu model watch r
    refine (ih out.1.1 out.2).trans ?_
    rw [first, List.append_assoc]
    rfl

theorem releaseMoves (model : μ) (s : Subscription) (r : Rig (Noted ω μ)) :
    (Subscription.release env.noted.cpu model s r).2.world.picked Call.move? =
      r.world.picked Call.move? ++ [.removed s.listener] := by
  have gone : (ask (env.noted.cpu.unlisten model s.listener) (disarm s.key r).2).2.world.picked
      Call.move? = r.world.picked Call.move? ++ [.removed s.listener] :=
    notingPicked Call.move? (fun after : μ × Bool =>
      .unlistened model s.listener after.1 after.2) (env.cpu.unlisten model s.listener) _
  rw [Subscription.release, bindRun, bindRun]
  generalize ask (env.noted.cpu.unlisten model s.listener) (disarm s.key r).2 = answer at gone ⊢
  obtain ⟨⟨after, removed⟩, t⟩ := answer
  cases removed <;> exact gone

theorem releaseAllMoves (model : μ) (subscriptions : List Subscription) (r : Rig (Noted ω μ)) :
    (Subscription.releaseAll env.noted.cpu model subscriptions r).2.world.picked Call.move? =
      r.world.picked Call.move? ++ subscriptions.map (.removed ·.listener) := by
  induction subscriptions generalizing model r with
  | nil => exact (List.append_nil _).symm
  | cons s rest ih =>
    have first := releaseMoves env model s r
    let out := Subscription.release env.noted.cpu model s r
    refine (ih out.1 out.2).trans ?_
    rw [first, List.append_assoc]
    rfl

theorem closeMoves (s : Session μ) (r : Rig (Noted ω μ)) :
    (s.close env.noted.cpu env.noted.host r).2.world.picked Call.move? =
      r.world.picked Call.move? ++ s.leaves := by
  have withdrawn : (s.withdraw env.noted.host r).2.world.picked Call.move? =
      r.world.picked Call.move? ++ s.scheduler.pending.toList.map .withdrawn := by
    unfold Session.withdraw
    cases s.scheduler.pending with
    | none => exact (List.append_nil _).symm
    | some token =>
      exact notingPicked Call.move? (fun _ => .cancelled token) (env.host.cancel token) r
  have ended := (s.closeRun (alikeWay (Noted.picked Call.move?)).plain env.noted.cpu env.noted.host
    (fun m => notingAlike (fun _ => .discarded m) (fun _ => rfl) (env.cpu.discard m)) r).2
  refine Eq.trans ended ?_
  rw [releaseAllMoves, withdrawn, List.append_assoc, Session.leaves, VirtualBoard.leaves,
    Session.members, List.map_map]
  rfl

end

section
variable {settings : Settings} {c : Controller (Noted ω μ) μ} (env : Surroundings ω μ)

theorem stopMoves : (c.stop env.noted).rig.world.picked Call.move? =
    c.rig.world.picked Call.move? ++ c.leaves := by
  unfold stop leaves
  cases phase : c.phase with
  | running session snapshot =>
    simp only [closeRun]
    exact closeMoves env session c.rig
  | _ => exact (List.append_nil _).symm

theorem resetMoves : (c.reset env.noted).rig.world.picked Call.move? =
    c.rig.world.picked Call.move? ++ c.leaves := by
  unfold reset leaves
  cases phase : c.phase with
  | running session snapshot =>
    simp only [closeRun]
    exact closeMoves env session c.rig
  | _ => exact (List.append_nil _).symm

theorem loadMoves (outcome : Outcome) :
    (c.load env.noted outcome).rig.world.picked Call.move? =
      c.rig.world.picked Call.move? ++ joins (c.load env.noted outcome).members := by
  have unmoved : ∀ image, Along (Alike (Noted.picked Call.move?)) (ask (env.noted.construct image)) :=
    fun image => notingAlike (.constructed image) (fun _ => rfl) (env.construct image)
  rcases loadRun env.noted c outcome with
    ⟨failure, rig, loaded, along⟩ | ⟨text, image, model, rig, -, -, made, loaded⟩
  · rw [loaded]
    exact (along (alikeWay _).plain unmoved).trans (List.append_nil _).symm
  · have built := unmoved image (c.rig.write (.record .debug (loadedText image)))
    rw [made] at built
    have read := clockAlike Call.move? (fun _ => rfl) env rig
    have opened := attachAllMoves env model c.settings.watch (ask env.noted.clock rig).2
    rw [show (ask env.noted.clock rig).2.world.picked Call.move? = _ from read,
      show rig.world.picked Call.move? = _ from built] at opened
    have asked : Along (Alike (Noted.picked Call.move?))
        (ask (env.noted.host.request ⟨c.tokens.issued + 1⟩)) :=
      notingAlike (fun _ => .requested _) (fun _ => rfl) (env.host.request _)
    rw [loaded, launchRun]
    exact Eq.trans (asked _) opened

theorem frameMoves (orderly : Orderly settings c) {token : BurstToken} {session : Session μ}
    {snapshot : Option Snapshot} (phase : c.phase = .running session snapshot)
    (pending : session.scheduler.pending = some token) :
    let d := (c.frame env.noted token).2
    (d.phase.session? = none ∧ d.rig.world.picked Call.move? =
      c.rig.world.picked Call.move? ++ session.spent.leaves) ∨
    (∃ next, d.phase.session? = some next ∧ next.members = session.members ∧
      d.rig.world.picked Call.move? = c.rig.world.picked Call.move?) := by
  intro d
  have holds := orderly.lives phase
  have ran := burstAlike Call.move? (fun _ => rfl) (fun _ _ _ => rfl) (fun _ _ => rfl) env
    session.spent c.rig
  rcases frameRun env.noted c phase holds.going pending with
    ⟨fault, -, after⟩ | ⟨now, latest, rig, -, after, along⟩
  · have closed := closeMoves env (session.spent.burst env.noted.clock env.noted.cpu c.rig).1.1
      (session.spent.burst env.noted.clock env.noted.cpu c.rig).2
    rw [show Noted.picked _ _ = _ from ran] at closed
    refine .inl ?_
    simp only [d, after]
    exact ⟨rfl, closed⟩
  · have sampled := along (alikeWay (Noted.picked Call.move?)).plain
      (clockAlike Call.move? (fun _ => rfl) env)
    have asked : Along (Alike (Noted.picked Call.move?))
        (ask (env.noted.host.request ⟨c.tokens.issued + 1⟩)) :=
      notingAlike (fun _ => .requested _) (fun _ => rfl) (env.host.request _)
    refine .inr ?_
    simp only [d, after]
    exact ⟨_, rfl, rfl, (asked rig).trans (sampled.trans ran)⟩

end

def RollsOn (c d : Controller (Noted ω μ) μ) : Prop :=
  ∃ more, d.rig.world.picked Call.move? = c.rig.world.picked Call.move? ++ more ∧
    ∀ {prior}, Roll prior c.members → Roll (prior ++ more) d.members

namespace RollsOn

variable {b c d : Controller (Noted ω μ) μ}

theorem trans (early : RollsOn b c) (late : RollsOn c d) : RollsOn b d := by
  obtain ⟨first, noted, goes⟩ := early
  obtain ⟨second, more, last⟩ := late
  refine ⟨first ++ second, by rw [more, noted, List.append_assoc], fun roll => ?_⟩
  rw [← List.append_assoc]
  exact last (goes roll)

theorem alike (unmoved : Alike (Noted.picked Call.move?) c.rig d.rig)
    (members : d.members = c.members) : RollsOn c d := by
  refine ⟨[], unmoved.trans (List.append_nil _).symm, fun {prior} roll => ?_⟩
  rw [List.append_nil, members]
  exact roll

theorem leaving (gone : d.members = []) (moved : d.rig.world.picked Call.move? =
    c.rig.world.picked Call.move? ++ c.leaves) : RollsOn c d := by
  refine ⟨c.leaves, moved, fun {prior} roll => ?_⟩
  rw [gone]
  unfold Controller.members at roll
  unfold Controller.leaves
  cases live : c.phase.session? with
  | none =>
    rw [live] at roll
    exact (List.append_nil prior).symm ▸ roll
  | some session =>
    rw [live] at roll
    exact roll.closed session.scheduler.pending

end RollsOn

section
variable {settings : Settings} {c : Controller (Noted ω μ) μ} (env : Surroundings ω μ)

theorem rollsPassage : Passage env.noted (RollsOn (ω := ω) (μ := μ)) where
  trans := RollsOn.trans
  record _ _ _ := .alike rfl rfl
  start c source := by
    obtain ⟨settings, phase, tokens, tickets, sessions, r⟩ := c
    cases phase <;> exact .alike rfl rfl
  stop c := by
    have moved := stopMoves env (c := c)
    obtain ⟨settings, phase, tokens, tickets, sessions, r⟩ := c
    cases phase <;> exact .leaving rfl moved
  reset c := by
    have moved := resetMoves env (c := c)
    obtain ⟨settings, phase, tokens, tickets, sessions, r⟩ := c
    cases phase with
    | compiling => exact .alike rfl rfl
    | _ => exact .leaving rfl moved
  load {c _ _} phase outcome := by
    refine ⟨_, loadMoves env outcome, fun roll => ?_⟩
    rw [members, phase] at roll
    exact roll.opened _

theorem frameRolls (orderly : Orderly settings c) (token : BurstToken) :
    RollsOn c (c.frame env.noted token).2 := by
  by_cases waited : c.queued? = some token
  · obtain ⟨session, snapshot, phase, pending⟩ := queuedRunning waited
    have before : c.members = session.members := by rw [members, phase]; rfl
    rcases frameMoves env orderly phase pending with ⟨off, moved⟩ | ⟨next, live, same, unmoved⟩
    · refine ⟨_, moved, fun roll => ?_⟩
      rw [before] at roll
      rw [members, off]
      exact roll.closed none
    · refine .alike unmoved ?_
      rw [before, members, live]
      exact same
  · obtain ⟨severity, text, after⟩ := frameStale env.noted c waited
    rw [after]
    exact .alike rfl rfl

theorem performRolls (orderly : Orderly settings c) (command : Command ω) :
    RollsOn c (c.perform env.noted command.noted).2 := by
  have unasked : ∀ {α} (act : Act ω α) (r : Rig (Noted ω μ)),
      Alike (Noted.picked Call.move?) r (ask act.unnoted r).2 :=
    fun act r => alikeAsk act.unnoted (fun _ => rfl) r
  cases command with
  | start source => exact (rollsPassage env).start c source
  | complete ticket outcome => exact (rollsPassage env).complete c ticket outcome
  | startWith source compiler =>
    have compiles : ∀ (d : Controller (Noted ω μ) μ) request,
        RollsOn d (d.work (ask (compiler request).unnoted)).2 :=
      fun d request => .alike (unasked (compiler request) d.rig) rfl
    show RollsOn c (c.startWith env.noted source fun request => (compiler request).unnoted).2
    exact (rollsPassage env).startWith (fun {d _ _} _ request => compiles d request) c source
  | stop => exact (rollsPassage env).stop c
  | reset => exact (rollsPassage env).reset c
  | frame token => exact frameRolls env orderly token
  | outside act => exact .alike (unasked act c.rig) rfl

end

section
variable {settings : Settings} {c : Controller ω μ}

theorem runRoll (orderly : Orderly settings c) (env : Surroundings ω μ)
    (commands : List (Command ω)) {prior : List Move} (roll : Roll prior c.members) :
    Roll (prior ++ moves (c.history env commands)) (c.run env commands).2.members := by
  induction commands generalizing c prior with
  | nil => exact (List.append_nil prior).symm ▸ roll
  | cons command rest ih =>
    obtain ⟨more, moved, goes⟩ := performRolls env orderly.withNotes command
    have made : moves (c.calls env command) = more := moved.trans (List.nil_append _)
    have between : Roll (prior ++ moves (c.calls env command)) (c.perform env command).2.members := by
      rw [made, notedStep]
      exact goes roll
    have after := ih (performOrderly orderly env command) between
    rw [List.append_assoc] at after
    have all : moves (c.history env (command :: rest)) = moves (c.calls env command) ++
      moves ((c.perform env command).2.history env rest) := List.filterMap_append
    rw [all]
    exact after

theorem membersWatched (orderly : Orderly settings c) (running : c.stage = .running) :
    c.members.map Prod.fst = settings.watch.map Watch.pin := by
  have holds := orderly.holds
  unfold stage at running
  cases phase : c.phase with
  | running session snapshot =>
    rw [phase] at holds
    rw [members, phase, ← holds.bound, List.map_map]
    show (session.subscriptions.map _).map _ = _
    rw [List.map_map]
    rfl
  | _ => rw [phase] at running; cases running

theorem membersNone (off : c.stage ≠ .running) : c.members = [] := by
  obtain ⟨settings, phase, tokens, tickets, sessions, r⟩ := c
  cases phase with
  | running => exact absurd rfl off
  | _ => rfl

theorem callsStop (env : Surroundings ω μ) : moves (c.calls env .stop) = c.leaves :=
  (stopMoves env (c := c.withNotes)).trans (List.nil_append _)

theorem callsReset (env : Surroundings ω μ) : moves (c.calls env .reset) = c.leaves :=
  (resetMoves env (c := c.withNotes)).trans (List.nil_append _)

theorem callsSettled (env : Surroundings ω μ) {ticket : Ticket} {held : Held}
    (phase : c.phase = .compiling ticket (some held)) (outcome : Outcome) :
    moves (c.calls env (.complete ticket outcome)) =
      joins (c.load env outcome).members ++ (c.load env outcome).leaves := by
  have waits : c.withNotes.phase = .compiling ticket (some held) := phase
  have settled : c.withNotes.complete env.noted ticket outcome =
      (.ok (), (c.withNotes.load env.noted outcome).replay env.noted (some held)) :=
    completeHeld waits outcome
  have loaded := loadMoves env (c := c.withNotes) outcome
  have after : moves (c.calls env (.complete ticket outcome)) =
      (c.withNotes.load env.noted outcome).rig.world.picked Call.move? ++
        (c.withNotes.load env.noted outcome).leaves := by
    show (c.withNotes.complete env.noted ticket outcome).2.rig.world.picked Call.move? = _
    rw [settled]
    cases held with
    | stop => exact stopMoves env
    | reset => exact resetMoves env
  rw [after, loaded, notedLoad env c outcome]
  rfl

theorem callsLeave (orderly : Orderly settings c) (env : Surroundings ω μ) {session : Session μ}
    {snapshot : Option Snapshot} (phase : c.phase = .running session snapshot)
    {command : Command ω} (off : (c.perform env command).2.phase.session? = none) :
    ((command = .stop ∨ command = .reset) ∧ moves (c.calls env command) = session.leaves) ∨
    ∃ token, command = .frame token ∧ session.scheduler.pending = some token ∧
      moves (c.calls env command) = session.spent.leaves := by
  have all : c.leaves = session.leaves := by rw [leaves, phase]; rfl
  cases command with
  | stop => exact .inl ⟨.inl rfl, (callsStop env).trans all⟩
  | reset => exact .inl ⟨.inr rfl, (callsReset env).trans all⟩
  | frame token =>
    by_cases waited : c.queued? = some token
    · have pending := (queuedBy phase).symm.trans waited
      rw [notedStep] at off
      rcases frameMoves env orderly.withNotes phase pending with
        ⟨-, moved⟩ | ⟨next, live, -⟩
      · exact .inr ⟨token, rfl, pending, moved.trans (List.nil_append _)⟩
      · cases live.symm.trans off
    · obtain ⟨severity, text, after⟩ := frameStale env c waited
      have live : (c.frame env token).2.phase = .running session snapshot := by
        rw [after]
        exact phase
      rw [show (c.perform env (.frame token)).2.phase = _ from live] at off
      cases off
  | _ =>
    -- of all other commands none touches what runs
    obtain ⟨settings, _, tokens, tickets, sessions, r⟩ := c
    cases phase
    cases off

end

def liveIn (c : Controller ω μ) (session : Session μ) (snapshot : Option Snapshot) (r : Rig ω) :
    Controller ω μ := {c with phase := .running session snapshot, rig := r}

theorem stopCloses (env : Surroundings ω μ) (c : Controller ω μ) (session : Session μ)
    (snapshot : Option Snapshot) (r : Rig ω) :
    ∃ told : Log.Entry, (c.liveIn session snapshot r).stop env = {c with
      phase := .stopped ⟨session.counters.cycles, snapshot⟩
      rig := (session.close env.cpu env.host r).2.write told} := by
  refine ⟨.record .info ("stopped after " ++ Text.decimal session.counters.cycles ++ " cycles"), ?_⟩
  simp only [liveIn, stop, closeRun]
  rfl

theorem stopQueued (env : Surroundings ω μ) (c : Controller ω μ) {session : Session μ}
    (spent : session.scheduler.pending = none) (token : BurstToken) (snapshot : Option Snapshot)
    (r : Rig ω) : (c.liveIn (session.queued token) snapshot r).stop env =
      (c.liveIn session snapshot (ask (env.host.cancel token) r).2).stop env := by
  have none : session.withdraw env.host = pure () := by
    unfold Session.withdraw
    rw [spent]
  have closed : (session.queued token).close env.cpu env.host r =
      session.close env.cpu env.host (ask (env.host.cancel token) r).2 := by
    rw [Session.closeSteps, Session.closeSteps, none]
    rfl
  simp only [liveIn, stop, closeRun, closed]
  rfl

/- A fault leaves what a stop after the burst would leave, but for the phase and what the log says of
it. A stop with the token still queued would take that back first. -/
structure LikeStop (env : Surroundings ω μ) (c : Controller ω μ) (session : Session μ)
    (snapshot : Option Snapshot) (token : BurstToken) (failure : Failure) : Prop where
  same : let ran := session.spent.burst env.clock env.cpu c.rig
    ∃ (tally : Tally) (rig : Rig ω) (told reason : Log.Entry),
      (c.liveIn ran.1.1 snapshot ran.2).stop env =
        {c with phase := .stopped tally, rig := rig.write told} ∧
      (c.frame env token).2 =
        {c with phase := .failed failure tally, rig := rig.write reason}
  queued : let ran := session.spent.burst env.clock env.cpu c.rig
    (c.liveIn (ran.1.1.queued token) snapshot ran.2).stop env =
      (c.liveIn ran.1.1 snapshot (ask (env.host.cancel token) ran.2).2).stop env

/- What is so of a controller after a run with some moves: who is there and who is gone, and that
every way out of running takes back the same, in the same order. -/
structure Departs (settings : Settings) (env : Surroundings ω μ) (made : List Move)
    (c : Controller ω μ) : Prop where
  roll : Roll made c.members
  present : c.members.map Prod.fst =
    if c.stage = .running then settings.watch.map Watch.pin else []
  gone : ∃ gone, made.filterMap Move.joined? = gone ++ c.members ∧
    made.filterMap Move.removed? = gone.map Prod.snd
  balance : (made.filterMap Move.joined?).length = (made.filterMap Move.removed?).length +
    if c.stage = .running then settings.watch.length else 0
  ends : (c.stop env).phase.session? = none ∧ (c.reset env).phase.session? = none
  leaves : ∀ session snapshot, c.phase = .running session snapshot →
    ∀ command : Command ω, (c.perform env command).2.phase.session? = none →
      ((command = .stop ∨ command = .reset) ∧ moves (c.calls env command) = session.leaves) ∨
      ∃ token, command = .frame token ∧ session.scheduler.pending = some token ∧
        moves (c.calls env command) = session.spent.leaves
  faults : ∀ session snapshot, c.phase = .running session snapshot →
    ∀ token failure, (c.frame env token).1 = .faulted failure →
      (c.frame env token).2.phase.session? = none ∧
        LikeStop env c session snapshot token failure
  settles : ∀ ticket held, c.phase = .compiling ticket (some held) →
    ∀ outcome session snapshot, (c.load env outcome).phase = .running session snapshot →
      moves (c.calls env (.complete ticket outcome)) = joins session.members ++ session.leaves ∧
      session.members.map Prod.fst = settings.watch.map Watch.pin ∧
      session.scheduler.pending = some ⟨(c.load env outcome).tokens.issued⟩ ∧
      (c.complete env ticket outcome).2.phase.session? = none

section
variable {settings : Settings} {c : Controller ω μ}

theorem faultStops (orderly : Orderly settings c) (env : Surroundings ω μ) {session : Session μ}
    {snapshot : Option Snapshot} (phase : c.phase = .running session snapshot)
    {token : BurstToken} {failure : Failure} (faulted : (c.frame env token).1 = .faulted failure) :
    (c.frame env token).2.phase.session? = none ∧
      LikeStop env c session snapshot token failure := by
  by_cases waited : c.queued? = some token
  · have pending := (queuedBy phase).symm.trans waited
    have holds := orderly.lives phase
    let ran := session.spent.burst env.clock env.cpu c.rig
    rcases frameRun env c phase holds.going pending with
      ⟨fault, -, after⟩ | ⟨now, latest, rig, -, after, -⟩
    · rw [after] at faulted
      cases faulted
      obtain ⟨told, stopped⟩ := stopCloses env c ran.1.1 snapshot ran.2
      have ended : (c.frame env token).2 = _ := congrArg Prod.snd after
      exact ⟨by rw [ended]; rfl, ⟨_, _, told, _, stopped, ended⟩,
        stopQueued env c rfl token snapshot ran.2⟩
    · rw [after] at faulted
      cases faulted
  · obtain ⟨severity, text, after⟩ := frameStale env c waited
    rw [after] at faulted
    cases faulted

theorem settledLeaves (orderly : Orderly settings c) (env : Surroundings ω μ) {ticket : Ticket}
    {held : Held} (phase : c.phase = .compiling ticket (some held)) {outcome : Outcome}
    {session : Session μ} {snapshot : Option Snapshot}
    (loaded : (c.load env outcome).phase = .running session snapshot) :
    moves (c.calls env (.complete ticket outcome)) = joins session.members ++ session.leaves ∧
      session.members.map Prod.fst = settings.watch.map Watch.pin ∧
      session.scheduler.pending = some ⟨(c.load env outcome).tokens.issued⟩ ∧
      (c.complete env ticket outcome).2.phase.session? = none := by
  have quiet := orderly.holds
  rw [phase] at quiet
  have after := loadOrderly orderly.same orderly.fits quiet env outcome
  have running : (c.load env outcome).stage = .running := by rw [stage, loaded]; rfl
  have members : (c.load env outcome).members = session.members := by
    rw [Controller.members, loaded]
    rfl
  have leaves : (c.load env outcome).leaves = session.leaves := by
    rw [Controller.leaves, loaded]
    rfl
  have calls := callsSettled env phase outcome
  have pins := membersWatched after running
  have live := after.holds
  rw [members, leaves] at calls
  rw [members] at pins
  rw [loaded] at live
  refine ⟨calls, pins, live.pending, ?_⟩
  rw [completeHeld phase]
  exact applyOff env _ held

theorem Orderly.departs {made : List Move} (orderly : Orderly settings c)
    (roll : Roll made c.members) (env : Surroundings ω μ) : Departs settings env made c := by
  have present : c.members.map Prod.fst =
      if c.stage = .running then settings.watch.map Watch.pin else [] := by
    split
    · rename_i running
      exact membersWatched orderly running
    · rename_i off
      rw [membersNone off]
      rfl
  obtain ⟨gone, came, went⟩ := roll.balanced
  refine ⟨roll, present, ⟨gone, came, went⟩, ?_, ⟨stopOff env c, resetOff env c⟩,
    fun session snapshot phase command off => callsLeave orderly env phase off,
    fun session snapshot phase token failure faulted => faultStops orderly env phase faulted,
    fun ticket held phase outcome session snapshot loaded => settledLeaves orderly env phase loaded⟩
  have size := congrArg List.length present
  rw [List.length_map] at size
  rw [came, went, List.length_append, List.length_map, size]
  split <;> simp

end

theorem departuresComplete (env : Surroundings ω μ) {settings : Settings}
    (usable : settings.problem? = none) (world : ω) :
    ∃ fresh : Controller ω μ, new settings world = .ok fresh ∧ ∀ commands,
      Departs settings env (moves (fresh.history env commands)) (fresh.run env commands).2 := by
  obtain ⟨fresh, made⟩ := newUsable (μ := μ) usable world
  refine ⟨fresh, made, fun commands => ?_⟩
  obtain ⟨orderly, -, -⟩ := newOrderly made
  have blank : Roll [] fresh.members := by
    rw [members, newIdle made]
    exact .new
  exact (runOrderly orderly env commands).departs (runRoll orderly env commands blank) env

theorem blinkDeparts : ∃ fresh : Controller Duration Blink,
    new {Blink.settings 2 with watch := [⟨"led", .led⟩, ⟨"lamp", .led⟩]} .zero = .ok fresh ∧
      let env := Blink.surroundings (.ofMillis 1)
      let settled : Command Duration := .complete ⟨1⟩ (.ok ":020000000102FB\n:00000001FF")
      let come := [Move.joined .led ⟨0⟩, .joined .led ⟨0⟩]
      let go := [Move.removed ⟨0⟩, .removed ⟨0⟩]
      moves (fresh.history env [Blink.begin, .frame ⟨1⟩, .stop]) = come ++ .withdrawn ⟨2⟩ :: go ∧
      moves (fresh.history env [Blink.begin, .frame ⟨1⟩, .frame ⟨2⟩]) = come ++ go ∧
      moves (fresh.history env [.start "", .stop, settled]) = come ++ .withdrawn ⟨1⟩ :: go ∧
      Departs {Blink.settings 2 with watch := [⟨"led", .led⟩, ⟨"lamp", .led⟩]} env come
        (fresh.run env [Blink.begin, .frame ⟨1⟩]).2 := by
  let settings := {Blink.settings 2 with watch := [⟨"led", .led⟩, ⟨"lamp", .led⟩]}
  let env := Blink.surroundings (.ofMillis 1)
  let settled : Command Duration := .complete ⟨1⟩ (.ok ":020000000102FB\n:00000001FF")
  obtain ⟨fresh, made, all⟩ := departuresComplete env (show settings.problem? = none by decide) .zero
  have known : (new settings .zero).toOption.map (fun fresh : Controller Duration Blink =>
      ([[Blink.begin, .frame ⟨1⟩], [Blink.begin, .frame ⟨1⟩, .stop],
        [Blink.begin, .frame ⟨1⟩, .frame ⟨2⟩], [.start "", .stop, settled]].map
          fun commands => moves (fresh.history env commands))) =
      some [[.joined .led ⟨0⟩, .joined .led ⟨0⟩],
        [.joined .led ⟨0⟩, .joined .led ⟨0⟩, .withdrawn ⟨2⟩, .removed ⟨0⟩, .removed ⟨0⟩],
        [.joined .led ⟨0⟩, .joined .led ⟨0⟩, .removed ⟨0⟩, .removed ⟨0⟩],
        [.joined .led ⟨0⟩, .joined .led ⟨0⟩, .withdrawn ⟨1⟩, .removed ⟨0⟩, .removed ⟨0⟩]] := by
    decide +kernel
  rw [made] at known
  simp only [Except.toOption, Option.map_some, Option.some.injEq, List.map_cons, List.map_nil,
    List.cons.injEq, and_true] at known
  obtain ⟨running, stopped, failed, ahead⟩ := known
  have departs := all [Blink.begin, .frame ⟨1⟩]
  rw [running] at departs
  exact ⟨fresh, made, stopped, failed, ahead, departs⟩

end Controller
end VirtualBoard
