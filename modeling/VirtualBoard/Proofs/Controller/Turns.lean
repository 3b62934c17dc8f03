import VirtualBoard.Proofs.Controller.Departures
import VirtualBoard.Proofs.Muting

/-! Turns of signals and the records of them, over whole runs.

The log tells every turn that a listener brings about, once and in order. What it
does not tell is the turn that comes with the first reading of a pin: a session that
finds another level there than the board shows puts it on the board and writes
nothing. So a signal counts as many turns as the log has told since the board was
cleared, and those openings besides. What outside parties log themselves is left out. -/
namespace VirtualBoard
open Rig

variable {ω μ α : Type}

def Call.level? : Call μ → Option Level
  | read _ _ level => some level
  | _ => none

def levelsRead (calls : List (Call μ)) : List Level := calls.filterMap Call.level?

def firstRead (watches : List Watch) (levels : List Level) (name : String) : Option Level :=
  ((watches.map Watch.name).zip levels).lookup name

theorem firstReadNone {watches : List Watch} {name : String} (other : name ∉ watches.map Watch.name)
    (levels : List Level) : firstRead watches levels name = none := by
  rw [firstRead, List.lookup_eq_none_iff]
  rintro ⟨found, level⟩ member
  simp only [bne_iff_ne, ne_eq]
  rintro rfl
  exact other (List.of_mem_zip member).1

theorem firstReadOwn (watch : Watch) (rest : List Watch) (level : Level) (levels : List Level) :
    firstRead (watch :: rest) (level :: levels) watch.name = some level := by
  simp [firstRead]

theorem firstReadOther {watch : Watch} {name : String} (apart : name ≠ watch.name)
    (rest : List Watch) (level : Level) (levels : List Level) :
    firstRead (watch :: rest) (level :: levels) name = firstRead rest levels name := by
  simp [firstRead, List.lookup_cons, beq_eq_false_iff_ne.mpr apart]

def Signal.missed (s : Signal) : Option Level → Nat
  | none => 0
  | some level => if level = s.level then 0 else 1

/- Surroundings that write no record of a turn or a clearing. -/
structure Surroundings.Tacit (env : Surroundings ω μ) : Prop where
  clock : Act.Tacit env.clock
  step : ∀ model, (env.cpu.step model).Tacit
  tick : ∀ model, (env.cpu.tick model).Tacit
  listen : ∀ model pin key, (env.cpu.listen model pin key).Tacit
  unlisten : ∀ model id, (env.cpu.unlisten model id).Tacit
  level : ∀ model pin, (env.cpu.level model pin).Tacit
  discard : ∀ model, (env.cpu.discard model).Tacit
  construct : ∀ image, (env.construct image).Tacit
  request : ∀ token, (env.host.request token).Tacit
  cancel : ∀ token, (env.host.cancel token).Tacit

def Command.Tacit : Command ω → Prop
  | .startWith _ compiler => ∀ request, (compiler request).Tacit
  | .outside act => act.Tacit
  | _ => True

theorem Surroundings.Tacit.noted {env : Surroundings ω μ} (tacit : env.Tacit) :
    env.noted.Tacit where
  clock n := tacit.clock n.world
  step model n := tacit.step model n.world
  tick model n := tacit.tick model n.world
  listen model pin key n := tacit.listen model pin key n.world
  unlisten model id n := tacit.unlisten model id n.world
  level model pin n := tacit.level model pin n.world
  discard model n := tacit.discard model n.world
  construct image n := tacit.construct image n.world
  request token n := tacit.request token n.world
  cancel token n := tacit.cancel token n.world

theorem Surroundings.mutedTacit (env : Surroundings ω μ) : env.muted.Tacit :=
  ⟨Act.mutedTacit _, fun _ => Act.mutedTacit _, fun _ => Act.mutedTacit _,
    fun _ _ _ => Act.mutedTacit _, fun _ _ => Act.mutedTacit _, fun _ _ => Act.mutedTacit _,
    fun _ => Act.mutedTacit _, fun _ => Act.mutedTacit _, fun _ => Act.mutedTacit _,
    fun _ => Act.mutedTacit _⟩

theorem Command.mutedTacit (command : Command ω) : command.muted.Tacit := by
  cases command with
  | startWith source compiler => exact fun request => Act.mutedTacit _
  | outside act => exact Act.mutedTacit act
  | _ => trivial

namespace Rig

variable {name : String} {hidden : Nat} {watches : List Watch} {r s t : Rig (Noted ω μ)}

def Steady (name : String) (r s : Rig (Noted ω μ)) : Prop :=
  Alike (Noted.picked Call.level?) r s ∧ ∀ hidden, Logs name hidden r → Logs name hidden s

theorem steadyWay (name : String) : PlainWay (Steady (ω := ω) (μ := μ) name) where
  refl _ := ⟨rfl, fun _ logs => logs⟩
  trans early late := ⟨late.1.trans early.1, fun hidden logs => late.2 hidden (early.2 hidden logs)⟩
  write plain _ := ⟨rfl, fun _ logs => logs.write plain⟩

theorem steadyAsk (name : String) {act : Act ω α} (tacit : act.Tacit) (note : α → Call μ)
    (unread : ∀ a, (note a).level? = none) : Along (Steady name) (ask (act.noting note)) :=
  fun r => ⟨Controller.notingAlike note unread act r,
    fun _ logs => logs.ask fun n => tacit n.world⟩

theorem steadyUnnoted {act : Act ω α} (tacit : act.Tacit) :
    Along (Steady (μ := μ) name) (ask act.unnoted) :=
  fun r => ⟨alikeAsk act.unnoted (fun _ => rfl) r, fun _ logs => logs.ask fun n => tacit n.world⟩

def Reads (name : String) (watches : List Watch) (r s : Rig (Noted ω μ)) : Prop :=
  ∃ levels, s.world.picked Call.level? = r.world.picked Call.level? ++ levels ∧
    ∀ hidden x, r.board.find? name = some x → Logs name hidden r →
      Logs name (hidden + x.missed (firstRead watches levels name)) s

theorem Steady.reads (steady : Steady name r s) (watches : List Watch) : Reads name watches r s := by
  refine ⟨[], by rw [steady.1, List.append_nil], fun hidden x _ logs => ?_⟩
  have none : firstRead watches [] name = none := by simp [firstRead]
  rw [none]
  exact steady.2 hidden logs

theorem Reads.steady (reads : Reads name watches r s) (steady : Steady name s t) :
    Reads name watches r t := by
  obtain ⟨levels, read, logs⟩ := reads
  exact ⟨levels, steady.1.trans read, fun hidden x found before =>
    steady.2 _ (logs hidden x found before)⟩

theorem Steady.reading (steady : Steady name r s) (board : s.board = r.board)
    (reads : Reads name watches s t) : Reads name watches r t := by
  obtain ⟨levels, read, logs⟩ := reads
  refine ⟨levels, by rw [read, steady.1], fun hidden x found before => ?_⟩
  exact logs hidden x (by rw [board]; exact found) (steady.2 hidden before)

end Rig

namespace Subscription

variable {name : String} {hidden : Nat} {names : List String} {watch : Watch}

section
variable {env : Surroundings ω μ} (model : μ) {r : Rig ω} (fits : Fits names r)
  (known : watch.name ∈ names)
include fits known

theorem attachLogs (tacit : env.Tacit) (logs : Logs name hidden r) :
    let read := ask (env.cpu.level model watch.pin) r
    ∃ x, read.2.board.find? name = some x ∧
      Logs name (hidden + if name = watch.name ∧ read.1 ≠ x.level then 1 else 0)
        (attach env.cpu model watch r).2 := by
  intro read
  obtain ⟨x, seen, shown⟩ :=
    (logs.ask (tacit.level model watch.pin)).published watch.name read.1
  refine ⟨x, seen, ?_⟩
  rw [attachRun env.cpu model fits known]
  have armed : Logs name _ (arm watch.name (publish watch.name read.1 read.2).2).2 := shown
  exact (armed.ask (tacit.listen model watch.pin _)).write (Log.Entry.plainPin _ _ _)

theorem attachApart (env : Surroundings ω μ) (apart : name ≠ watch.name)
    (unarmed : ∀ a ∈ r.armed, a.name ≠ name) {x : Signal} (seen : r.board.find? name = some x) :
    (attach env.cpu model watch r).2.board.find? name = some x := by
  have read := keepsAsk (env.cpu.level model watch.pin) r
  have still := askApart fits unarmed (env.cpu.level model watch.pin)
  rw [attachRun env.cpu model fits known]
  dsimp only
  generalize ask (env.cpu.level model watch.pin) r = out at read still ⊢
  obtain ⟨level, s⟩ := out
  have shown := Board.publishKnown (still.trans seen) watch.name level
  rw [if_neg apart, Signal.afterNone] at shown
  have armed := armFits (publishFits (read.fits fits) known level) known
  have others : ∀ a ∈ (arm watch.name (publish watch.name level s).2).2.armed, a.name ≠ name := by
    intro a member
    rcases List.mem_cons.mp member with rfl | old
    · exact Ne.symm apart
    · exact unarmed a (read.armed ▸ old)
  exact (askApart armed others _).trans shown

end

theorem attachRead (env : Surroundings ω μ) (model : μ) {r : Rig (Noted ω μ)} (fits : Fits names r)
    (known : watch.name ∈ names) :
    (attach env.noted.cpu model watch r).2.world.picked Call.level? =
      r.world.picked Call.level? ++ [(ask (env.noted.cpu.level model watch.pin) r).1] := by
  rw [attachRun env.noted.cpu model fits known]
  dsimp only
  let read := ask (env.noted.cpu.level model watch.pin) r
  let shown := (publish watch.name read.1 read.2).2
  have listened : Alike (Noted.picked Call.level?) (arm watch.name shown).2 _ :=
    Controller.notingAlike
      (fun after : μ × ListenerId => .listened model watch.pin ⟨shown.nextKey⟩ after.1 after.2)
      (fun _ => rfl) (env.cpu.listen model watch.pin ⟨shown.nextKey⟩) _
  exact Eq.trans listened (Controller.notingPicked Call.level? (.read model watch.pin)
    (env.cpu.level model watch.pin) r)

theorem attachUnarmed (cpu : CpuModel ω μ) (model : μ) {rest : List Watch} {r : Rig ω}
    (fits : Fits names r) (known : watch.name ∈ names) (fresh : watch.name ∉ rest.map Watch.name)
    (unarmed : name ∈ (watch :: rest).map Watch.name → ∀ a ∈ r.armed, a.name ≠ name)
    (member : name ∈ rest.map Watch.name) :
    ∀ a ∈ (attach cpu model watch r).2.armed, a.name ≠ name := by
  have first := attached cpu model fits known
  intro a old
  rw [first.armed] at old
  rcases List.mem_cons.mp old with rfl | old
  · rintro rfl
    have bound := congrArg Watch.name first.bound
    exact fresh (bound ▸ member)
  · exact unarmed (List.mem_cons_of_mem _ member) a old

theorem attachReads {env : Surroundings ω μ} (tacit : env.Tacit) (model : μ) {rest : List Watch}
    {r t : Rig (Noted ω μ)} (fits : Fits names r) (known : watch.name ∈ names)
    (fresh : watch.name ∉ rest.map Watch.name)
    (unarmed : name ∈ (watch :: rest).map Watch.name → ∀ a ∈ r.armed, a.name ≠ name)
    (reads : Reads name rest (attach env.noted.cpu model watch r).2 t) :
    Reads name (watch :: rest) r t := by
  obtain ⟨levels, read, logs⟩ := reads
  let level := (ask (env.noted.cpu.level model watch.pin) r).1
  refine ⟨level :: levels, ?_, fun hidden x seen before => ?_⟩
  · refine Eq.trans read ?_
    rw [attachRead env model fits known, List.append_assoc]
    rfl
  · obtain ⟨y, found, after⟩ := attachLogs model fits known tacit.noted before
    by_cases own : name = watch.name
    · subst own
      have same : y = x := by
        have kept := askApart fits (unarmed (List.mem_cons_self ..))
          (env.noted.cpu.level model watch.pin)
        exact Option.some.inj ((found.symm.trans kept).trans seen)
      obtain ⟨z, there⟩ := after.found
      have done := logs _ z there after
      rw [firstReadNone fresh] at done
      rw [firstReadOwn]
      simp only [Signal.missed, same, ne_eq, true_and, ite_not, Nat.add_zero] at done
      exact done
    · rw [if_neg fun both => own both.1, Nat.add_zero] at after
      rw [firstReadOther own]
      by_cases member : name ∈ rest.map Watch.name
      · exact logs hidden x (attachApart model fits known env.noted own
          (unarmed (List.mem_cons_of_mem _ member)) seen) after
      · obtain ⟨z, there⟩ := after.found
        have done := logs hidden z there after
        rw [firstReadNone member] at done ⊢
        exact done

theorem attachAllReads (name : String) {env : Surroundings ω μ} (tacit : env.Tacit) (model : μ)
    {watches : List Watch} {r : Rig (Noted ω μ)} (fits : Fits names r)
    (known : ∀ w ∈ watches, w.name ∈ names) (distinct : (watches.map Watch.name).Nodup)
    (unarmed : name ∈ watches.map Watch.name → ∀ a ∈ r.armed, a.name ≠ name) :
    Reads name watches r (attachAll env.noted.cpu model watches r).2 := by
  induction watches generalizing model r with
  | nil => exact ((steadyWay name).refl r).reads []
  | cons watch rest ih =>
    rw [List.map_cons, List.nodup_cons] at distinct
    have here := known watch (List.mem_cons_self ..)
    have first := attached env.noted.cpu model fits here
    have others := ih (attach env.noted.cpu model watch r).1.1 first.fits
      (fun w member => known w (List.mem_cons_of_mem _ member)) distinct.2
      (attachUnarmed env.noted.cpu model fits here distinct.1 unarmed)
    exact attachReads tacit model fits here distinct.1 unarmed others

end Subscription

theorem Session.closeSteady {env : Surroundings ω μ} (tacit : env.Tacit) (name : String)
    (s : Session μ) : Along (Steady name) (s.close env.noted.cpu env.noted.host) :=
  Session.closeAlong (steadyWay name) (fun _ _ => ⟨rfl, fun _ logs => logs⟩)
    (fun model id => steadyAsk name (tacit.unlisten model id)
      (fun after : μ × Bool => .unlistened model id after.1 after.2) fun _ => rfl)
    (fun token => steadyAsk name (tacit.cancel token) (fun _ => .cancelled token) fun _ => rfl)
    (fun model => steadyAsk name (tacit.discard model) (fun _ => .discarded model) fun _ => rfl) s

theorem Session.burstSteady {env : Surroundings ω μ} (tacit : env.Tacit) (name : String)
    (s : Session μ) : Along (Steady name) (s.burst env.noted.clock env.noted.cpu) :=
  Session.burstAlong (steadyWay name) (steadyAsk name tacit.clock .clock fun _ => rfl)
    (fun model => steadyAsk name (tacit.step model)
      (fun after : μ × Option CpuFault => .stepped model after.1 after.2) fun _ => rfl)
    (fun model => steadyAsk name (tacit.tick model) (.ticked model) fun _ => rfl) s

theorem Lifecycle.plainStatus (severity : Log.Severity) (front : String) (stage : Lifecycle) :
    Log.Entry.Plain (.record severity (front ++ stage.status)) := by
  cases stage with
  | failed failure =>
    show Log.Entry.Plain (.record severity (front ++ "Error"))
    exact Log.Entry.plainEnd (by decide +kernel) _ _
  | _ => exact Log.Entry.plainEnd (by decide +kernel) _ _

namespace Controller

def clears (c : Controller ω μ) : Command ω → Bool
  | .reset => c.phase.ticket?.isNone
  | .complete ticket _ =>
    match c.phase with
    | .compiling pending held => pending = ticket ∧ held = some .reset
    | _ => false
  | _ => false

section
variable {settings : Settings} {name : String} {hidden : Nat} {env : Surroundings ω μ}
  {c : Controller (Noted ω μ) μ}

theorem launchReads (name : String) (tacit : env.Tacit) (fits : Fits (c.settings.watch.map Watch.name) c.rig)
    (quiet : c.rig.armed = []) (distinct : (c.settings.watch.map Watch.name).Nodup) (image : Image)
    (model : μ) : Reads name c.settings.watch c.rig (c.launch env.noted image model).rig := by
  have kept := keepsAsk env.noted.clock c.rig
  have read : Steady name c.rig _ := steadyAsk name tacit.clock Call.clock (fun _ => rfl) c.rig
  have still : (ask env.noted.clock c.rig).2.armed = [] := kept.armed.trans quiet
  have opened := Subscription.attachAllReads name tacit model (kept.fits fits)
    (fun w member => List.mem_map_of_mem member) distinct (by simp [still])
  have asked := steadyAsk name (tacit.request ⟨c.tokens.issued + 1⟩)
    (fun _ => Call.requested ⟨c.tokens.issued + 1⟩) (fun _ => rfl)
    (Subscription.attachAll env.noted.cpu model c.settings.watch (ask env.noted.clock c.rig).2).2
  rw [launchRun]
  refine (read.reading (kept.board quiet) opened).steady ((steadyWay name).trans asked ?_)
  exact (steadyWay name).write (Log.Entry.plainEnd (by decide +kernel) _ _) _

theorem loadReads (name : String) (tacit : env.Tacit) (fits : Fits (c.settings.watch.map Watch.name) c.rig)
    (quiet : c.rig.armed = []) (distinct : (c.settings.watch.map Watch.name).Nodup)
    (outcome : Outcome) : Reads name c.settings.watch c.rig (c.load env.noted outcome).rig := by
  have construct : ∀ image, Along (Steady name) (ask (env.noted.construct image)) := fun image =>
    steadyAsk name (tacit.construct image) (fun result => .constructed image result) fun _ => rfl
  rcases loadRun env.noted c outcome with
    ⟨failure, rig, loaded, along⟩ | ⟨text, image, model, rig, -, -, made, loaded⟩
  · rw [loaded]
    exact (along (steadyWay name) construct).reads _
  · have begun := (steadyWay name).write (plainLoaded image) c.rig
    have built := construct image (c.rig.write (.record .debug (loadedText image)))
    have kept := (writeKeeps (.record .debug (loadedText image)) c.rig).trans
      (keepsAsk (env.noted.construct image) _)
    rw [made] at built kept
    rw [loaded]
    exact ((steadyWay name).trans begun built).reading (kept.board quiet)
      (launchReads (c := c.inRig rig) name tacit (kept.fits fits) (kept.armed.trans quiet) distinct image
        model)

theorem startSteady (name : String) (c : Controller (Noted ω μ) μ) (source : String) :
    Steady name c.rig (c.start source).2.rig := by
  unfold start
  cases c.phase with
  | idle | stopped =>
    exact (steadyWay name).write (Log.Entry.plainEnd (by decide +kernel) _ _) c.rig
  | failed failure => exact (steadyWay name).write (Log.Entry.plainWarn _) c.rig
  | compiling | running => exact (steadyWay name).write (Lifecycle.plainStatus _ _ _) c.rig

theorem stopSteady (tacit : env.Tacit) (name : String) (c : Controller (Noted ω μ) μ) :
    Steady name c.rig (c.stop env.noted).rig := by
  unfold stop
  cases c.phase with
  | compiling ticket held =>
    exact (steadyWay name).write (Log.Entry.plainText (by decide +kernel) _) c.rig
  | running session snapshot =>
    simp only [closeRun]
    refine (steadyWay name).trans (session.closeSteady tacit name c.rig) ?_
    exact (steadyWay name).write (Log.Entry.plainEnd (by decide +kernel) _ _) _
  | _ => exact (steadyWay name).write (Lifecycle.plainStatus _ _ _) c.rig

theorem frameSteady {settings : Settings} (orderly : Orderly settings c) (tacit : env.Tacit)
    (name : String) (token : BurstToken) : Steady name c.rig (c.frame env.noted token).2.rig := by
  by_cases waited : c.queued? = some token
  · obtain ⟨session, snapshot, phase, pending⟩ := queuedRunning waited
    have holds := orderly.lives phase
    have ran := session.spent.burstSteady tacit name c.rig
    rcases frameRun env.noted c phase holds.going pending with
      ⟨fault, -, after⟩ | ⟨now, latest, rig, -, after, along⟩
    · have closed := (session.spent.burst env.noted.clock env.noted.cpu c.rig).1.1.closeSteady tacit
        name (session.spent.burst env.noted.clock env.noted.cpu c.rig).2
      rw [after]
      exact (steadyWay name).trans ran ((steadyWay name).trans closed
        ((steadyWay name).write (Log.Entry.plainWarn _) _))
    · have sampled := along (steadyWay name) (steadyAsk name tacit.clock .clock fun _ => rfl)
      have asked := steadyAsk name (tacit.request ⟨c.tokens.issued + 1⟩)
        (fun _ => Call.requested ⟨c.tokens.issued + 1⟩) (fun _ => rfl) rig
      rw [after]
      exact (steadyWay name).trans ran ((steadyWay name).trans sampled asked)
  · obtain ⟨severity, text, after, plain⟩ := frameRefused env.noted c waited
    rw [after]
    exact (steadyWay name).write plain c.rig

theorem resetHeld (name : String) {ticket : Ticket} (pending : c.phase.ticket? = some ticket) :
    Steady name c.rig (c.reset env.noted).rig := by
  unfold reset
  cases phase : c.phase with
  | compiling ticket held =>
    exact (steadyWay name).write (Log.Entry.plainText (by decide +kernel) _) c.rig
  | _ =>
    rw [phase] at pending
    cases pending

theorem resetCleared (tacit : env.Tacit) (settled : c.phase.ticket? = none)
    (logs : Logs name hidden c.rig) : Logs name 0 (c.reset env.noted).rig := by
  unfold reset
  cases phase : c.phase with
  | compiling ticket held =>
    rw [phase] at settled
    cases settled
  | running session snapshot =>
    simp only [closeRun]
    exact ((session.closeSteady tacit name c.rig).2 hidden logs).cleared
  | _ => exact logs.cleared

theorem startBoard (c : Controller ω μ) (source : String) :
    (c.start source).2.rig.board = c.rig.board := by
  unfold start
  cases c.phase <;> rfl

theorem startWithReads (orderly : Orderly settings c) (tacit : env.Tacit)
    (distinct : (settings.watch.map Watch.name).Nodup) (source : String)
    {compiler : Compiler (Noted ω μ)}
    (compiles : ∀ request, Along (Steady name) (ask (compiler request))) :
    Reads name settings.watch c.rig (c.startWith env.noted source compiler).2.rig := by
  have started := startSteady name c source
  cases asked : (c.start source).1 with
  | none =>
    rw [startWithRefused env.noted asked]
    exact started.reads _
  | some request =>
    have waiting := startOrderly orderly source
    have quiet := waiting.holds
    rw [(startAccepted asked).1] at quiet
    let d := (c.start source).2
    let answered := ask (compiler request.body) d.rig
    have kept := keepsAsk (compiler request.body) d.rig
    have board : answered.2.board = c.rig.board :=
      (kept.board quiet).trans (startBoard c source)
    obtain rfl := waiting.same
    rw [startWithRun env.noted asked compiler]
    exact ((steadyWay name).trans started (compiles request.body d.rig)).reading board
      (loadReads (c := d.inRig answered.2) name tacit (kept.fits waiting.fits) (kept.armed.trans quiet)
        distinct _)

theorem performCleared (orderly : Orderly settings c) (tacit : env.Tacit)
    (distinct : (settings.watch.map Watch.name).Nodup) {x : Signal}
    (found : c.rig.board.find? name = some x) {command : Command ω}
    (clears : c.clears command.noted = true) (logs : Logs name hidden c.rig) :
    Logs name 0 (c.perform env.noted command.noted).2.rig := by
  obtain rfl := orderly.same
  cases command with
  | reset => exact resetCleared tacit (Option.isNone_iff_eq_none.mp clears) logs
  | complete ticket outcome =>
    cases phase : c.phase with
    | compiling pending held =>
      simp only [Command.noted, Controller.clears, phase, decide_eq_true_eq] at clears
      obtain ⟨rfl, rfl⟩ := clears
      have quiet := orderly.holds
      rw [phase] at quiet
      obtain ⟨_, -, opened⟩ := loadReads name tacit orderly.fits quiet distinct outcome
      have reset := resetCleared tacit (loadSettled env.noted c outcome) (opened hidden x found logs)
      show Logs name 0 (c.complete env.noted pending outcome).2.rig
      rw [completeHeld phase]
      exact reset
    | _ => simp [Command.noted, Controller.clears, phase] at clears
  | _ => cases clears

theorem performReads (name : String) (orderly : Orderly settings c) (tacit : env.Tacit)
    (distinct : (settings.watch.map Watch.name).Nodup) {command : Command ω}
    (plain : command.Tacit) (kept : c.clears command.noted = false) :
    Reads name settings.watch c.rig (c.perform env.noted command.noted).2.rig := by
  obtain rfl := orderly.same
  cases command with
  | start source => exact (startSteady name c source).reads _
  | stop => exact (stopSteady tacit name c).reads _
  | frame token => exact (frameSteady orderly tacit name token).reads _
  | outside act => exact (steadyUnnoted plain c.rig).reads _
  | reset =>
    obtain ⟨ticket, pending⟩ := Option.ne_none_iff_exists'.mp
      (Option.isNone_eq_false_iff.mp kept |> Option.isSome_iff_ne_none.mp)
    exact (resetHeld name pending).reads _
  | complete ticket outcome =>
    by_cases pending : c.phase.ticket? = some ticket
    · obtain ⟨held, phase, settled⟩ := completePending env.noted pending outcome
      have quiet := orderly.holds
      rw [phase] at quiet
      have opened := loadReads name tacit orderly.fits quiet distinct outcome
      show Reads name _ c.rig (c.complete env.noted ticket outcome).2.rig
      rw [settled]
      cases held with
      | none => exact opened
      | some command =>
        cases command with
        | stop => exact opened.steady (stopSteady tacit name _)
        | reset => simp [Command.noted, Controller.clears, phase] at kept
    · show Reads name _ c.rig (c.complete env.noted ticket outcome).2.rig
      rw [completeStale env.noted pending outcome]
      exact ((steadyWay name).write (Log.Entry.plainWarn _) c.rig).reads _
  | startWith source compiler =>
    show Reads name _ c.rig
      (c.startWith env.noted source fun request => (compiler request).unnoted).2.rig
    exact startWithReads orderly tacit distinct source fun request => steadyUnnoted (plain request)

end

def untold (env : Surroundings ω μ) (c : Controller ω μ) (name : String) (command : Command ω) :
    Nat :=
  match c.rig.board.find? name with
  | some s => s.missed (firstRead c.settings.watch (levelsRead (c.calls env command)) name)
  | none => 0

def untoldSince (env : Surroundings ω μ) (c : Controller ω μ) (name : String) (count : Nat) :
    List (Command ω) → Nat
  | [] => count
  | command :: rest => (c.perform env command).2.untoldSince env name
    (if c.clears command then 0 else count + c.untold env name command) rest

section
variable {settings : Settings} {name : String} {hidden : Nat} {env : Surroundings ω μ}
  {c : Controller ω μ}

theorem performLogs (orderly : Orderly settings c) (tacit : env.Tacit)
    (distinct : (settings.watch.map Watch.name).Nodup) {command : Command ω}
    (plain : command.Tacit) (logs : Logs name hidden c.rig) :
    Logs name (if c.clears command then 0 else hidden + c.untold env name command)
      (c.perform env command).2.rig := by
  have same : c.withNotes.clears (command.noted (μ := μ)) = c.clears command := by
    cases command <;> rfl
  obtain ⟨x, found⟩ := logs.found
  rw [notedStep]
  split
  · rename_i clears
    exact performCleared (c := c.withNotes) orderly.withNotes tacit distinct found
      (same.trans clears) logs
  · rename_i keeps
    obtain ⟨levels, read, after⟩ := performReads name orderly.withNotes tacit distinct
      plain (same.trans (Bool.eq_false_iff.mpr keeps))
    have all : levelsRead (c.calls env command) = levels := read
    have missed : c.untold env name command =
        x.missed (firstRead settings.watch levels name) := by
      simp only [untold, found, all, orderly.same]
    rw [missed]
    exact after hidden x found logs

theorem runLogs (orderly : Orderly settings c) (tacit : env.Tacit)
    (distinct : (settings.watch.map Watch.name).Nodup) {commands : List (Command ω)}
    (plain : ∀ command ∈ commands, command.Tacit) (logs : Logs name hidden c.rig) :
    Logs name (c.untoldSince env name hidden commands) (c.run env commands).2.rig := by
  induction commands generalizing c hidden with
  | nil => exact logs
  | cons command rest ih =>
    rw [List.forall_mem_cons] at plain
    exact ih (performOrderly orderly env command) plain.2
      (performLogs orderly tacit distinct plain.1 logs)

theorem newLogs {world : ω} {fresh : Controller ω μ} (made : new settings world = .ok fresh)
    {w : Watch} (watched : w ∈ settings.watch) : Logs w.name 0 fresh.rig := by
  obtain ⟨orderly, -, distinct⟩ := newOrderly made
  have holds := orderly.holds
  rw [newIdle made] at holds
  have names : fresh.rig.board.names = settings.watch.map Watch.name := orderly.fits.board
  have known : w.name ∈ fresh.rig.board.names := by
    rw [names]
    exact List.mem_map_of_mem watched
  obtain ⟨s, found⟩ := Board.findKnown known
  obtain ⟨low, none⟩ := clearedLow holds.2 s (List.mem_of_find?_eq_some found)
  have log : fresh.rig.log = [] := by
    obtain ⟨board, rfl⟩ := newParts made
    rfl
  refine ⟨names ▸ distinct, s, found, ?_, fun _ => ?_⟩
  · rw [log, none]
    rfl
  · rw [log, low]
    rfl

end

/- A signal counts the turns told since the board was cleared, and those untold that came with the
first reading of its pin. -/
theorem turnsLogged (env : Surroundings ω μ) {settings : Settings}
    (usable : settings.problem? = none) (world : ω) :
    ∃ fresh : Controller ω μ, new settings world = .ok fresh ∧ ∀ commands,
      let own := fresh.mutedRun env commands
      own.takeLog.2 = (fresh.run env commands).2.takeLog.2 ∧
      own.rig.log.Sublist (fresh.run env commands).2.rig.log ∧
      ∀ w ∈ settings.watch, ∃ s, own.rig.board.find? w.name = some s ∧
        let told := Log.turns w.name own.rig.log
        let untold := fresh.untoldSince env.muted w.name 0 (commands.map Command.muted)
        s.changes = told.length + untold ∧
        (untold = 0 → told.getLastD false = s.level.isHigh) := by
  obtain ⟨fresh, made⟩ := newUsable (μ := μ) usable world
  obtain ⟨orderly, -, distinct⟩ := newOrderly made
  refine ⟨fresh, made, fun commands => ?_⟩
  obtain ⟨same, fewer⟩ := mutedSame env fresh commands
  refine ⟨same, fewer, fun w watched => ?_⟩
  have tacit : ∀ command ∈ commands.map Command.muted, command.Tacit := by
    intro command member
    obtain ⟨whole, -, rfl⟩ := List.mem_map.mp member
    exact whole.mutedTacit
  obtain ⟨-, s, found, logged⟩ := runLogs orderly env.mutedTacit distinct tacit
    (newLogs made watched)
  obtain ⟨changes, last⟩ := logged
  rw [Board.findNamed found] at changes last
  exact ⟨s, found, changes, last⟩

end Controller

namespace Blink

def lit (cost : Duration) : Surroundings Duration Blink :=
  {surroundings cost with construct := fun _ => pure (.ok ⟨1, none⟩)}

end Blink

namespace Controller

/- The board shows the turn that came with the session, and the log does not tell it. -/
theorem litUntold : ∃ fresh : Controller Duration Blink, new (Blink.settings 2) .zero = .ok fresh ∧
    let c := (fresh.run (Blink.lit (.ofMillis 1)) [Blink.begin]).2
    ∃ s, c.rig.board.find? "led" = some s ∧ s.level = .high ∧
      s.changes ≠ (Log.turns "led" c.rig.log).length := by
  obtain ⟨fresh, made⟩ := newUsable (μ := Blink)
    (show (Blink.settings 2).problem? = none by decide) Duration.zero
  have known : (new (Blink.settings 2) .zero).toOption.map (fun fresh : Controller Duration Blink =>
      let c := (fresh.run (Blink.lit (.ofMillis 1)) [Blink.begin]).2
      (c.rig.board.find? "led", Log.turns "led" c.rig.log)) =
        some (some ⟨"led", .high, 1⟩, []) := by decide +kernel
  rw [made] at known
  obtain ⟨found, turns⟩ := Prod.mk.inj (Option.some.inj known)
  exact ⟨fresh, made, _, found, rfl, by rw [turns]; decide⟩

theorem litTurns : ∃ fresh : Controller Duration Blink, new (Blink.settings 2) .zero = .ok fresh ∧
    let own := fresh.mutedRun (Blink.lit (.ofMillis 1)) [Blink.begin, .frame ⟨1⟩]
    Log.turns "led" own.rig.log = [false, true] ∧
    ∃ s, own.rig.board.find? "led" = some s ∧ s.changes = 2 + 1 := by
  let env := Blink.lit (.ofMillis 1)
  obtain ⟨fresh, made, all⟩ := turnsLogged env
    (show (Blink.settings 2).problem? = none by decide) .zero
  have known : (new (Blink.settings 2) .zero).toOption.map (fun fresh : Controller Duration Blink =>
      (Log.turns "led" (fresh.mutedRun env [Blink.begin, .frame ⟨1⟩]).rig.log,
        fresh.untoldSince env.muted "led" 0 ([Blink.begin, .frame ⟨1⟩].map Command.muted))) =
      some ([false, true], 1) := by decide +kernel
  rw [made] at known
  obtain ⟨turns, untold⟩ := Prod.mk.inj (Option.some.inj known)
  obtain ⟨-, -, signals⟩ := all [Blink.begin, .frame ⟨1⟩]
  obtain ⟨s, found, changes, -⟩ := signals ⟨"led", .led⟩ (by decide)
  dsimp only at changes
  rw [turns, untold] at changes
  exact ⟨fresh, made, turns, s, found, changes⟩

end Controller
end VirtualBoard
