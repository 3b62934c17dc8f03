import VirtualBoard.Proofs.Controller.Orderly
import VirtualBoard.Proofs.Journal

/-! Tokens drawn and frames asked for.

Every token that is drawn is asked for once, in order, and nothing else is asked
for: the requests noted in a run are the tokens issued in it. Nor does a frame
note a fault, but for the one that its burst ends in. -/
namespace VirtualBoard

def Noted.picked {ω μ α : Type} (pick : Call μ → Option α) (n : Noted ω μ) : List α :=
  n.calls.filterMap pick

namespace Controller
open Rig

variable {ω μ α β : Type} {settings : Settings}

theorem notingAlike {pick : Call μ → Option β} (note : α → Call μ)
    (ignored : ∀ a, pick (note a) = none) (act : Act ω α) :
    Along (Alike (Noted.picked pick)) (ask (act.noting note)) := by
  refine alikeAsk _ fun n => ?_
  show (n.calls ++ [note (act n.world).value]).filterMap pick = n.calls.filterMap pick
  simp [List.filterMap_append, ignored]

theorem clockAlike (pick : Call μ → Option β) (read : ∀ t, pick (.clock t) = none)
    (env : Surroundings ω μ) : Along (Alike (Noted.picked pick)) (ask env.noted.clock) :=
  notingAlike _ read env.clock

theorem closeAlike (pick : Call μ → Option β)
    (unlistened : ∀ m id n b, pick (.unlistened m id n b) = none)
    (cancelled : ∀ t, pick (.cancelled t) = none) (discarded : ∀ m, pick (.discarded m) = none)
    (env : Surroundings ω μ) (s : Session μ) :
    Along (Alike (Noted.picked pick)) (s.close env.noted.cpu env.noted.host) :=
  Session.closeAlong (alikeWay _).plain (fun _ _ => rfl)
    (fun m id => notingAlike _ (fun _ => unlistened m id _ _) (env.cpu.unlisten m id))
    (fun t => notingAlike _ (fun _ => cancelled t) (env.host.cancel t))
    (fun m => notingAlike _ (fun _ => discarded m) (env.cpu.discard m)) s

theorem attachAlike (pick : Call μ → Option β)
    (read : ∀ m pin level, pick (.read m pin level) = none)
    (listened : ∀ m pin key n id, pick (.listened m pin key n id) = none) (env : Surroundings ω μ)
    (model : μ) (watches : List Watch) :
    Along (Alike (Noted.picked pick)) (Subscription.attachAll env.noted.cpu model watches) :=
  Subscription.attachAllAlong (alikeWay _).plain
    (Subscription.attachAlong (alikeWay _).plain (fun _ _ => rfl) (fun _ _ _ => rfl) (fun _ _ => rfl)
      (fun m pin => notingAlike _ (read m pin) (env.cpu.level m pin))
      fun m pin key => notingAlike _ (fun _ => listened m pin key _ _) (env.cpu.listen m pin key))
    model watches

theorem burstAlike (pick : Call μ → Option β) (clock : ∀ t, pick (.clock t) = none)
    (stepped : ∀ m n fault, pick (.stepped m n fault) = none)
    (ticked : ∀ m n, pick (.ticked m n) = none) (env : Surroundings ω μ) (s : Session μ) :
    Along (Alike (Noted.picked pick)) (s.burst env.noted.clock env.noted.cpu) :=
  Session.burstAlong (alikeWay _).plain (clockAlike pick clock env)
    (fun m => notingAlike _ (fun _ => stepped m _ _) (env.cpu.step m))
    (fun m => notingAlike _ (ticked m) (env.cpu.tick m)) s

def tokensAfter (issued n : Nat) : List BurstToken := (List.range' (issued + 1) n).map BurstToken.mk

theorem tokensAfterAppend (issued m n : Nat) :
    tokensAfter issued m ++ tokensAfter (issued + m) n = tokensAfter issued (m + n) := by
  have one : issued + m + 1 = issued + 1 + 1 * m := by omega
  rw [tokensAfter, tokensAfter, ← List.map_append, one, List.range'_append]
  rfl

def Drawn (c d : Controller (Noted ω μ) μ) : Prop :=
  ∃ n, d.tokens.issued = c.tokens.issued + n ∧
    requests d.rig.world.calls = requests c.rig.world.calls ++ tokensAfter c.tokens.issued n

namespace Drawn

variable {b c d : Controller (Noted ω μ) μ}

theorem trans (early : Drawn b c) (late : Drawn c d) : Drawn b d := by
  obtain ⟨m, first, asked⟩ := early
  obtain ⟨n, last, more⟩ := late
  refine ⟨m + n, by omega, ?_⟩
  rw [more, asked, first, List.append_assoc, tokensAfterAppend]

theorem alike (same : d.tokens = c.tokens)
    (unasked : Alike (Noted.picked Call.requested?) c.rig d.rig) : Drawn c d :=
  ⟨0, by rw [same]; rfl, unasked.trans (List.append_nil _).symm⟩

theorem one {r : Rig (Noted ω μ)} (env : Surroundings ω μ)
    (unasked : Alike (Noted.picked Call.requested?) c.rig r)
    (tokens : d.tokens = ⟨c.tokens.issued + 1⟩)
    (asked : d.rig.world = (ask (env.noted.host.request ⟨c.tokens.issued + 1⟩) r).2.world) :
    Drawn c d := by
  refine ⟨1, by rw [tokens], ?_⟩
  have before : requests r.world.calls = requests c.rig.world.calls := unasked
  rw [asked, askWorld]
  show (r.world.calls ++ [Call.requested _]).filterMap Call.requested? = _
  rw [List.filterMap_append]
  exact congrArg (· ++ _) before

end Drawn

section
variable {c : Controller (Noted ω μ) μ}

theorem startDrawn (source : String) : Drawn c (c.start source).2 := by
  unfold start
  cases c.phase <;> exact .alike rfl rfl

theorem closeUnasked (env : Surroundings ω μ) (s : Session μ) :
    Along (Alike (Noted.picked Call.requested?)) (s.close env.noted.cpu env.noted.host) :=
  closeAlike _ (fun _ _ _ _ => rfl) (fun _ => rfl) (fun _ => rfl) env s

theorem stopDrawn (env : Surroundings ω μ) : Drawn c (c.stop env.noted) := by
  unfold stop
  cases c.phase with
  | running session snapshot =>
    simp only [closeRun]
    exact .alike rfl (closeUnasked env session c.rig)
  | _ => exact .alike rfl rfl

theorem resetDrawn (env : Surroundings ω μ) : Drawn c (c.reset env.noted) := by
  unfold reset
  cases c.phase with
  | running session snapshot =>
    simp only [closeRun]
    exact .alike rfl (closeUnasked env session c.rig)
  | _ => exact .alike rfl rfl

theorem launchDrawn (env : Surroundings ω μ) (image : Image) (model : μ) :
    Drawn c (c.launch env.noted image model) := by
  have read := clockAlike Call.requested? (fun _ => rfl) env c.rig
  have opened := (alikeWay (Noted.picked Call.requested?)).trans read
    (attachAlike Call.requested? (fun _ _ _ => rfl) (fun _ _ _ _ _ => rfl) env model
      c.settings.watch _)
  rw [launchRun]
  exact .one env opened rfl rfl

theorem loadDrawn (env : Surroundings ω μ) (outcome : Outcome) :
    Drawn c (c.load env.noted outcome) := by
  have constructUnasked : ∀ image,
      Along (Alike (Noted.picked Call.requested?)) (ask (env.noted.construct image)) :=
    fun image => notingAlike (.constructed image) (fun _ => rfl) (env.construct image)
  rcases loadRun env.noted c outcome with
    ⟨failure, rig, loaded, along⟩ | ⟨text, image, model, rig, -, -, made, loaded⟩
  · rw [loaded]
    exact .alike rfl (along (alikeWay _).plain constructUnasked)
  · have built := constructUnasked image (c.rig.write (.record .debug (loadedText image)))
    rw [made] at built
    rw [loaded]
    exact Drawn.trans (c := c.inRig rig) (.alike rfl built) (launchDrawn env image model)

theorem drawnPassage (env : Surroundings ω μ) : Passage env.noted (Drawn (ω := ω) (μ := μ)) where
  trans := Drawn.trans
  record _ _ _ := .alike rfl rfl
  start _ source := startDrawn source
  stop _ := stopDrawn env
  reset _ := resetDrawn env
  load _ outcome := loadDrawn env outcome

theorem startWithDrawn (env : Surroundings ω μ) (source : String) (compiler : Compiler ω) :
    Drawn c (c.startWith env.noted source fun request => (compiler request).unnoted).2 :=
  (drawnPassage env).startWith
    (fun {d _ _} _ request => .alike rfl (alikeAsk (compiler request).unnoted (fun _ => rfl) d.rig))
    c source

theorem frameDrawn (orderly : Orderly settings c) (env : Surroundings ω μ) (token : BurstToken) :
    Drawn c (c.frame env.noted token).2 := by
  by_cases waited : c.queued? = some token
  · obtain ⟨session, snapshot, phase, pending⟩ := queuedRunning waited
    have holds := orderly.lives phase
    have ran := burstAlike Call.requested? (fun _ => rfl) (fun _ _ _ => rfl) (fun _ _ => rfl) env
      session.spent c.rig
    rcases frameRun env.noted c phase holds.going pending with
      ⟨fault, -, after⟩ | ⟨now, latest, rig, -, after, along⟩
    · have ended := closeUnasked env (session.spent.burst env.noted.clock env.noted.cpu c.rig).1.1
        (session.spent.burst env.noted.clock env.noted.cpu c.rig).2
      rw [after]
      exact .alike rfl ((alikeWay _).trans ran ended)
    · rw [after]
      have sampled := along (alikeWay (Noted.picked Call.requested?)).plain
        (clockAlike Call.requested? (fun _ => rfl) env)
      exact .one env ((alikeWay _).trans ran sampled) rfl rfl
  · obtain ⟨severity, text, after⟩ := frameStale env.noted c waited
    rw [after]
    exact .alike rfl rfl

theorem performDrawn (orderly : Orderly settings c) (env : Surroundings ω μ)
    (command : Command ω) : Drawn c (c.perform env.noted command.noted).2 := by
  cases command with
  | start source => exact startDrawn source
  | complete ticket outcome => exact (drawnPassage env).complete c ticket outcome
  | startWith source compiler => exact startWithDrawn env source compiler
  | stop => exact stopDrawn env
  | reset => exact resetDrawn env
  | frame token => exact frameDrawn orderly env token
  | outside act => exact .alike rfl (alikeAsk act.unnoted (fun _ => rfl) c.rig)

end

theorem Orderly.above {ω' : Type} {f : ω' → ω} {d : Controller ω' μ}
    (orderly : Orderly settings (d.onto f)) : Orderly settings d where
  same := orderly.same
  fits := ⟨orderly.fits.board, orderly.fits.armed, orderly.fits.keys⟩
  holds := by
    have holds := orderly.holds
    change Holds settings d.tokens (d.onto f).rig d.phase at holds
    cases phase : d.phase with
    | running session snapshot =>
      rw [phase] at holds
      exact ⟨holds.going, holds.pending, holds.drawn, holds.bound, holds.armed⟩
    | _ =>
      rw [phase] at holds
      exact holds

theorem Orderly.withNotes {c : Controller ω μ} (orderly : Orderly settings c) :
    Orderly settings c.withNotes := Orderly.above (f := Noted.world) orderly

theorem callsRequests {c : Controller ω μ} (orderly : Orderly settings c) (env : Surroundings ω μ)
    (command : Command ω) : ∃ n, (c.perform env command).2.tokens.issued = c.tokens.issued + n ∧
      requests (c.calls env command) = tokensAfter c.tokens.issued n := by
  obtain ⟨n, issued, asked⟩ := performDrawn orderly.withNotes env command
  rw [notedStep]
  exact ⟨n, issued, asked⟩

theorem historyRequests {c : Controller ω μ} (orderly : Orderly settings c)
    (env : Surroundings ω μ) (commands : List (Command ω)) :
    ∃ n, (c.run env commands).2.tokens.issued = c.tokens.issued + n ∧
      requests (c.history env commands) = tokensAfter c.tokens.issued n := by
  induction commands generalizing c with
  | nil => exact ⟨0, rfl, rfl⟩
  | cons command rest ih =>
    obtain ⟨m, first, asked⟩ := callsRequests orderly env command
    obtain ⟨n, last, more⟩ := ih (performOrderly orderly env command)
    refine ⟨m + n, ?_, ?_⟩
    · show ((c.perform env command).2.run env rest).2.tokens.issued = _
      omega
    · show requests (c.calls env command ++ (c.perform env command).2.history env rest) = _
      rw [requests, List.filterMap_append]
      refine Eq.trans (congr (congrArg _ asked) more) ?_
      rw [first, tokensAfterAppend]

theorem notedStepped (env : Surroundings ω μ) (model : μ) (r : Rig (Noted ω μ)) :
    let stepped := ask (env.noted.cpu.step model) r
    stepped.2.world.picked Call.fault? = r.world.picked Call.fault? ++ stepped.1.2.toList := by
  intro stepped
  rw [show stepped.2.world = _ from askWorld _ r]
  show (r.world.calls ++ [Call.stepped _ _ _]).filterMap Call.fault? = _
  rw [List.filterMap_append]
  refine congrArg (_ ++ ·) ?_
  show [Call.stepped model _ stepped.1.2].filterMap Call.fault? = _
  cases stepped.1.2 <;> rfl

theorem stretchFaults (env : Surroundings ω μ) (started wall : Duration) (left done : Nat)
    (model : μ) (r : Rig (Noted ω μ)) :
    let out := Burst.stretch env.noted.clock env.noted.cpu started wall left done model r
    out.2.world.picked Call.fault? = r.world.picked Call.fault? ++ out.1.2.2.fault?.toList := by
  have clock := clockAlike Call.fault? (fun _ => rfl) env
  induction left generalizing done model r with
  | zero => exact (List.append_nil _).symm
  | succ left ih =>
    have read := clock r
    rw [Burst.stretchRound]
    split
    · exact read.trans (List.append_nil _).symm
    · have noted := notedStepped env model (ask env.noted.clock r).2
      rw [read] at noted
      generalize ask (env.noted.cpu.step model) (ask env.noted.clock r).2 = stepped at noted
      obtain ⟨⟨model, fault⟩, r'⟩ := stepped
      cases fault with
      | some fault => exact noted
      | none =>
        have ticked : Alike (Noted.picked Call.fault?) r' (ask (env.noted.cpu.tick model) r').2 :=
          notingAlike (.ticked model) (fun _ => rfl) (env.cpu.tick model) r'
        refine (ih (done + 1) _ _).trans ?_
        rw [ticked]
        exact congrArg (· ++ _) (noted.trans (List.append_nil _))

theorem burstFaults (env : Surroundings ω μ) (s : Session μ) (r : Rig (Noted ω μ)) :
    let out := s.burst env.noted.clock env.noted.cpu r
    out.2.world.picked Call.fault? = r.world.picked Call.fault? ++ out.1.2.exit.fault?.toList := by
  have clock := clockAlike Call.fault? (fun _ => rfl) env
  have began := clock r
  have ran := stretchFaults env (ask env.noted.clock r).1 s.scheduler.budget.wallClock
    s.scheduler.budget.maxSteps.toNat 0 s.model (ask env.noted.clock r).2
  rw [began] at ran
  exact (clock _).trans ran

theorem frameCalls {c : Controller ω μ} (orderly : Orderly settings c) (env : Surroundings ω μ)
    {token : BurstToken} (waited : c.queued? = some token) :
    (∃ session latest, (c.frame env token).1 = .next ⟨c.tokens.issued + 1⟩ ∧
      (c.frame env token).2.phase = .running session latest ∧
      (c.frame env token).2.tokens = ⟨c.tokens.issued + 1⟩ ∧
      requests (c.calls env (.frame token)) = [⟨c.tokens.issued + 1⟩] ∧
      faults (c.calls env (.frame token)) = []) ∨
    (∃ fault tally, (c.frame env token).1 = .faulted (.cpu fault) ∧
      (c.frame env token).2.phase = .failed (.cpu fault) tally ∧
      (c.frame env token).2.tokens = c.tokens ∧
      requests (c.calls env (.frame token)) = [] ∧
      faults (c.calls env (.frame token)) = [fault]) := by
  have above := notedFrame env c token
  obtain ⟨n, issued, asked⟩ := callsRequests orderly env (.frame token)
  change (c.frame env token).2.tokens.issued = _ at issued
  obtain ⟨session, snapshot, phase, pending⟩ := queuedRunning waited
  have holds := orderly.withNotes.lives phase
  have faulty := burstFaults env session.spent c.withNotes.rig
  dsimp only at faulty
  rcases frameRun env.noted c.withNotes phase holds.going pending with
    ⟨fault, exit, after⟩ | ⟨now, latest, rig, exit, after, along⟩
  · have closed := closeAlike Call.fault? (fun _ _ _ _ => rfl) (fun _ => rfl)
      (fun _ => rfl) env (session.spent.burst env.noted.clock env.noted.cpu c.withNotes.rig).1.1
      (session.spent.burst env.noted.clock env.noted.cpu c.withNotes.rig).2
    rw [exit] at faulty
    rw [above, after] at issued
    have none : n = 0 := by
      have same : c.tokens.issued = c.tokens.issued + n := issued
      omega
    rw [above, after]
    refine .inr ⟨fault, _, rfl, rfl, rfl, by rw [asked, none]; rfl, ?_⟩
    show (c.withNotes.frame env.noted token).2.rig.world.picked Call.fault? = _
    rw [after]
    exact closed.trans faulty
  · have sampled := along (alikeWay (Noted.picked Call.fault?)).plain
      (clockAlike Call.fault? (fun _ => rfl) env)
    have requested : Alike (Noted.picked Call.fault?) rig
        (ask (env.noted.host.request ⟨c.tokens.issued + 1⟩) rig).2 :=
      notingAlike (fun _ => .requested ⟨c.tokens.issued + 1⟩) (fun _ => rfl)
        (env.host.request ⟨c.tokens.issued + 1⟩) rig
    rw [exit] at faulty
    rw [above, after] at issued
    have one : n = 1 := by
      have next : c.tokens.issued + 1 = c.tokens.issued + n := issued
      omega
    rw [above, after]
    refine .inl ⟨_, _, rfl, rfl, rfl, by rw [asked, one]; rfl, ?_⟩
    show (c.withNotes.frame env.noted token).2.rig.world.picked Call.fault? = _
    rw [after]
    exact requested.trans (sampled.trans faulty)

end Controller
end VirtualBoard
