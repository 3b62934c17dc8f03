import VirtualBoard.Proofs.Controller.Ledger

/-! Which calls a command can make.

A model is stepped and ticked in the frame that its session waits for and in no
other command, and what is made into a model is an image that was read within the
limit. Of all other calls nothing is said. -/
namespace VirtualBoard
open Rig

variable {ω μ α : Type}

namespace Call

def runs : Call μ → Bool
  | stepped .. | ticked .. => true
  | _ => false

def plain : Call μ → Bool
  | stepped .. | ticked .. | constructed .. => false
  | _ => true

def image? : Call μ → Option Image
  | constructed image _ => some image
  | _ => none

end Call

namespace Rig

def Adds (allowed : Call μ → Prop) (r s : Rig (Noted ω μ)) : Prop :=
  ∃ more, s.world.calls = r.world.calls ++ more ∧ ∀ call ∈ more, allowed call

variable {allowed : Call μ → Prop}

theorem addsNone {r s : Rig (Noted ω μ)} (same : s.world.calls = r.world.calls) :
    Adds allowed r s := ⟨[], by rw [same, List.append_nil], by simp⟩

theorem addsWay (allowed : Call μ → Prop) : Way (Adds (ω := ω) allowed) where
  refl _ := addsNone rfl
  trans := by
    rintro r s t ⟨early, first, fits⟩ ⟨late, second, fit⟩
    refine ⟨early ++ late, by rw [second, first, List.append_assoc], fun call member => ?_⟩
    rcases List.mem_append.mp member with old | new
    · exact fits call old
    · exact fit call new
  write _ _ := addsNone rfl

theorem addsAsk (note : α → Call μ) (act : Act ω α)
    (fits : ∀ world, allowed (note (act world).value)) :
    Along (Adds allowed) (ask (act.noting note)) := by
  intro r
  refine ⟨[note (act r.world.world).value], ?_, by simpa using fits r.world.world⟩
  rw [askWorld]
  rfl

theorem addsUnnoted (act : Act ω α) : Along (Adds (ω := ω) allowed) (ask act.unnoted) := by
  intro r
  have same : Alike Noted.calls r (ask act.unnoted r).2 := alikeAsk _ (fun _ => rfl) r
  exact addsNone same

end Rig

namespace Controller

section
variable {allowed : Call μ → Prop} (plain : ∀ call : Call μ, call.plain → allowed call)
include plain

theorem clockAdds (env : Surroundings ω μ) : Along (Adds allowed) (ask env.noted.clock) :=
  addsAsk .clock env.clock fun _ => plain _ rfl

theorem requestAdds (env : Surroundings ω μ) (token : BurstToken) :
    Along (Adds allowed) (ask (env.noted.host.request token)) :=
  addsAsk (fun _ => .requested token) _ fun _ => plain _ rfl

theorem attachAllAdds (env : Surroundings ω μ) (model : μ) (watches : List Watch) :
    Along (Adds allowed) (Subscription.attachAll env.noted.cpu model watches) :=
  Subscription.attachAllAlong (addsWay allowed).plain
    (Subscription.attachAlong (addsWay allowed).plain (fun _ _ => addsNone rfl)
      (fun _ _ _ => addsNone rfl) (fun _ _ => addsNone rfl)
      (fun _ _ => addsAsk _ _ fun _ => plain _ rfl)
      fun model pin key =>
        addsAsk (fun after : μ × ListenerId => .listened model pin key after.1 after.2) _
          fun _ => plain _ rfl)
    model watches

theorem closeAdds (env : Surroundings ω μ) (s : Session μ) :
    Along (Adds allowed) (s.close env.noted.cpu env.noted.host) :=
  Session.closeAlong (addsWay allowed).plain (fun _ _ => addsNone rfl)
    (fun model id => addsAsk (fun after : μ × Bool => .unlistened model id after.1 after.2) _
      fun _ => plain _ rfl)
    (fun token => addsAsk (fun _ => .cancelled token) _ fun _ => plain _ rfl)
    (fun model => addsAsk (fun _ => .discarded model) _ fun _ => plain _ rfl) s

theorem burstAdds (runs : ∀ call : Call μ, call.runs → allowed call) (env : Surroundings ω μ)
    (s : Session μ) : Along (Adds allowed) (s.burst env.noted.clock env.noted.cpu) :=
  Session.burstAlong (addsWay allowed).plain (clockAdds plain env)
    (fun model => addsAsk (fun after : μ × Option CpuFault => .stepped model after.1 after.2) _
      fun _ => runs _ rfl)
    (fun model => addsAsk (.ticked model) _ fun _ => runs _ rfl) s

end

def Built (settings : Settings) (env : Surroundings ω μ) (image : Image)
    (result : Except CpuFault μ) : Prop :=
  (∃ text, Image.read settings.imageLimit.toNat text = .ok image) ∧
    ∃ world, result = (env.construct image world).value

def May (env : Surroundings ω μ) (c : Controller ω μ) (command : Command ω) : Call μ → Prop
  | .stepped .. | .ticked .. => ∃ token, command = .frame token ∧ c.queued? = some token
  | .constructed image result => Built c.settings env image result
  | _ => True

section
variable {settings : Settings} {allowed : Call μ → Prop} {c : Controller (Noted ω μ) μ}

theorem launchAdds (plain : ∀ call : Call μ, call.plain → allowed call) (env : Surroundings ω μ)
    (image : Image) (model : μ) : Adds allowed c.rig (c.launch env.noted image model).rig := by
  have read := clockAdds plain env c.rig
  have opened := attachAllAdds plain env model c.settings.watch (ask env.noted.clock c.rig).2
  have asked := requestAdds plain env ⟨c.tokens.issued + 1⟩
    (Subscription.attachAll env.noted.cpu model c.settings.watch (ask env.noted.clock c.rig).2).2
  rw [launchRun]
  exact (addsWay allowed).trans read ((addsWay allowed).trans opened asked)

def Extends (settings : Settings) (allowed : Call μ → Prop) (c d : Controller (Noted ω μ) μ) :
    Prop :=
  c.settings = settings → d.settings = settings ∧ Adds allowed c.rig d.rig

theorem loadExtends (plain : ∀ call : Call μ, call.plain → allowed call) (env : Surroundings ω μ)
    (built : ∀ {image result}, Built settings env image result → allowed (.constructed image result))
    (outcome : Outcome) : Extends settings allowed c (c.load env.noted outcome) := by
  intro same
  have asks : ∀ {text image}, Image.read c.settings.imageLimit.toNat text = .ok image →
      Along (Adds allowed) (ask (env.noted.construct image)) := by
    intro text image read
    rw [same] at read
    exact addsAsk (.constructed image) _ fun world => built ⟨⟨text, read⟩, world, rfl⟩
  rcases loadSteps env.noted c outcome with
    ⟨failure, entry, loaded⟩ | ⟨text, image, fault, rig, entry, -, read, made, loaded⟩ |
    ⟨text, image, model, rig, -, read, made, loaded⟩
  · rw [loaded]
    exact ⟨same, addsNone rfl⟩
  · have asked := asks read (c.rig.write (.record .debug (loadedText image)))
    rw [made] at asked
    rw [loaded]
    exact ⟨same, asked⟩
  · have asked := asks read (c.rig.write (.record .debug (loadedText image)))
    rw [made] at asked
    rw [loaded]
    refine ⟨same, (addsWay allowed).trans asked ?_⟩
    exact launchAdds (c := c.inRig rig) plain env image model

theorem extendsPassage (plain : ∀ call : Call μ, call.plain → allowed call)
    (env : Surroundings ω μ) (built : ∀ {image result}, Built settings env image result →
      allowed (.constructed image result)) :
    Passage env.noted (Extends (ω := ω) settings allowed) where
  trans := by
    intro b c d early late same
    obtain ⟨between, first⟩ := early same
    obtain ⟨after, second⟩ := late between
    exact ⟨after, (addsWay allowed).trans first second⟩
  record _ _ _ same := ⟨same, addsNone rfl⟩
  start c source same := by
    unfold start
    cases c.phase <;> exact ⟨same, addsNone rfl⟩
  stop c same := by
    unfold stop
    cases c.phase with
    | running session snapshot =>
      simp only [closeRun]
      exact ⟨same, closeAdds plain env session c.rig⟩
    | _ => exact ⟨same, addsNone rfl⟩
  reset c same := by
    unfold reset
    cases c.phase with
    | running session snapshot =>
      simp only [closeRun]
      exact ⟨same, closeAdds plain env session c.rig⟩
    | _ => exact ⟨same, addsNone rfl⟩
  load _ outcome := loadExtends plain env built outcome

theorem frameExtends (orderly : Orderly settings c)
    (plain : ∀ call : Call μ, call.plain → allowed call) (env : Surroundings ω μ)
    {token : BurstToken} (runs : c.queued? = some token → ∀ call : Call μ, call.runs → allowed call) :
    Extends settings allowed c (c.frame env.noted token).2 := by
  intro same
  by_cases waited : c.queued? = some token
  · obtain ⟨session, snapshot, phase, pending⟩ := queuedRunning waited
    have holds := orderly.lives phase
    have ran := burstAdds plain (runs waited) env session.spent c.rig
    rcases frameRun env.noted c phase holds.going pending with
      ⟨fault, -, after⟩ | ⟨now, latest, rig, -, after, along⟩
    · have ended := closeAdds plain env (session.spent.burst env.noted.clock env.noted.cpu c.rig).1.1
        (session.spent.burst env.noted.clock env.noted.cpu c.rig).2
      rw [after]
      exact ⟨same, (addsWay allowed).trans ran ended⟩
    · have sampled := along (addsWay allowed).plain (clockAdds plain env)
      rw [after]
      exact ⟨same, (addsWay allowed).trans ((addsWay allowed).trans ran sampled)
        (requestAdds plain env ⟨c.tokens.issued + 1⟩ rig)⟩
  · obtain ⟨severity, text, after⟩ := frameStale env.noted c waited
    rw [after]
    exact ⟨same, addsNone rfl⟩

end

variable {settings : Settings} {c : Controller ω μ}

theorem callsMay (orderly : Orderly settings c) (env : Surroundings ω μ) (command : Command ω) :
    ∀ call ∈ c.calls env command, c.May env command call := by
  have same : c.withNotes.settings = settings := orderly.same
  have plain : ∀ call : Call μ, call.plain → c.May env command call := by
    intro call
    cases call <;> first | exact fun _ => trivial | exact fun other => by cases other
  have passage : Passage env.noted (Extends (ω := ω) settings (c.May env command)) :=
    extendsPassage plain env fun built => by
      rw [← orderly.same] at built
      exact built
  have grows : Extends settings (c.May env command) c.withNotes
      (c.withNotes.perform env.noted command.noted).2 := by
    cases command with
    | start source => exact passage.start _ source
    | complete ticket outcome => exact passage.complete _ ticket outcome
    | startWith source compiler =>
      show Extends settings _ c.withNotes
        (c.withNotes.startWith env.noted source fun request => (compiler request).unnoted).2
      exact passage.startWith (fun {d _ _} _ request same => ⟨same, addsUnnoted _ d.rig⟩) _ source
    | stop => exact passage.stop _
    | reset => exact passage.reset _
    | frame token =>
      refine frameExtends orderly.withNotes plain env fun waited call running => ?_
      cases call <;> first | exact ⟨token, rfl, waited⟩ | cases running
    | outside act =>
      exact fun same => ⟨same, addsUnnoted act c.withNotes.rig⟩
  obtain ⟨-, more, added, fits⟩ := grows same
  have all : c.calls env command = more := added.trans (List.nil_append _)
  rw [all]
  exact fits

theorem callsRun (orderly : Orderly settings c) (env : Surroundings ω μ) {command : Command ω}
    {call : Call μ} (made : call ∈ c.calls env command) (runs : call.runs) :
    ∃ token, command = .frame token ∧ c.queued? = some token := by
  have may := callsMay orderly env command call made
  cases call <;> first | exact may | cases runs

theorem historyBuilt (orderly : Orderly settings c) (env : Surroundings ω μ)
    (commands : List (Command ω)) {image : Image} {result : Except CpuFault μ}
    (made : .constructed image result ∈ c.history env commands) :
    Built settings env image result := by
  induction commands generalizing c with
  | nil => cases made
  | cons command rest ih =>
    rcases List.mem_append.mp made with now | later
    · have built := callsMay orderly env command _ now
      rw [← orderly.same]
      exact built
    · exact ih (performOrderly orderly env command) later

end Controller
end VirtualBoard
